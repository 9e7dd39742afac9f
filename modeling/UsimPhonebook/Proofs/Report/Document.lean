import UsimPhonebook.Proofs.Json.Reading
import UsimPhonebook.Report.Document

/-! # What the document of an entry tells

The document of an entry holds each field of the report once, under a name of its own: the report
can be had from it again (`EntryReport.ofJson?_toJson`), also when it was printed
(`EntryReport.ofJson?_pretty`).
-/

namespace UsimPhonebook

/-- A natural number of any size. -/
def Json.natural? : Json → Option Nat
  | number literal => readDigits? 10 0 literal
  | _ => none

/-- The texts of an array. -/
def Json.texts? (document : Json) : Option (List Text) := document.items?.bind (·.mapM Json.text?)

/-- The entry of which a document tells. -/
def EntryReport.ofJson? (document : Json) : Option EntryReport := do
  let members ← document.members?
  let member := fun key : String => Json.onlyMember? members key.toList
  return {
    index := ← (← member "index").natural?
    block := ← (← member "block").natural?
    file := ← (← member "ef").text?
    record := ← (← member "record").natural?
    alpha := ← (← member "alpha").text?
    number := ← (← member "number").text?
    emails := ← (← member "emails").texts?
    additionalNumbers := ← (← member "additional_numbers").texts? }

theorem Json.natural?_ofNat (n : Nat) : (Json.ofNat n).natural? = some n := readDigits?_decimal n

theorem Json.texts?_array (ts : List Text) : (Json.array (ts.map .string)).texts? = some ts := by
  show (ts.map Json.string).mapM Json.text? = some ts
  induction ts with
  | nil => rfl
  | cons t rest ih =>
    rw [List.map_cons, List.mapM_cons, ih]
    rfl

namespace EntryReport

theorem ofJson?_toJson (r : EntryReport) : ofJson? r.toJson = some r := by
  have only : ofJson? r.toJson =
      (Json.ofNat r.index).natural?.bind fun index =>
      (Json.ofNat r.block).natural?.bind fun block =>
      (Json.ofNat r.record).natural?.bind fun record =>
      (Json.array (r.emails.map .string)).texts?.bind fun emails =>
      (Json.array (r.additionalNumbers.map .string)).texts?.bind fun additionalNumbers =>
      some ⟨index, block, r.file, record, r.alpha, r.number, emails, additionalNumbers⟩ := rfl
  rw [only]
  simp only [Json.natural?_ofNat, Json.texts?_array, Option.bind_some]

theorem printable_toJson (r : EntryReport) : r.toJson.Printable := by
  have number (n : Nat) : (Json.ofNat n).Printable := .number _ (Json.isNumber_decimal n)
  have texts (ts : List Text) : (Json.array (ts.map .string)).Printable :=
    .array _ (List.forall_mem_map.2 fun t _ => .string t)
  refine .object _ ?_
  simp only [List.forall_mem_cons]
  exact ⟨number _, number _, .string _, number _, .string _, .string _, texts _, texts _, nofun⟩

end EntryReport

end UsimPhonebook
