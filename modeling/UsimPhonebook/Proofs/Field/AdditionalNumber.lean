import UsimPhonebook.Field.Record
import UsimPhonebook.Proofs.Dialling

/-! # Additional numbers as they are read back

A number is written with digits, `*`, `#`, separators in any of their spellings and any number of
`+`, which make it international (`dialable`). It is read with one `+` in front, if any, and with
the capital letters for the separators (`shown`).

* `AdditionalNumber.encode_eq_ok_iff` : the bytes of a record
* `AdditionalNumber.decode_of_encode` : what it reads as
* `AdditionalNumber.number_reads_back` : which numbers have records, and that whatever is read from
  any record with digits in it has one, from which the same is read
-/

namespace UsimPhonebook.AdditionalNumber

/-- The characters with which a number is written. -/
def dialable : List Char :=
  ['0', '1', '2', '3', '4', '5', '6', '7', '8', '9', '*', '#', ',', ';', 'P', 'p', 'W', 'w', '+']

/-- The number of digits and separators. -/
def digitCount (value : Text) : Nat := value.countP (· ≠ '+')

/-- A separator of any spelling as it is read. -/
def shownChar (c : Char) : Char :=
  if c = 'P' ∨ c = 'p' ∨ c = ',' then 'P' else if c = 'W' ∨ c = 'w' ∨ c = ';' then 'W' else c

/-- A number as it is read. -/
def shown (value : Text) : Text :=
  (if '+' ∈ value then ['+'] else []) ++ (value.filter (· ≠ '+')).map shownChar

theorem shown_eq_nil_iff (value : Text) : shown value = [] ↔ value = [] := by
  constructor
  · intro none
    unfold shown at none
    obtain ⟨sign, digits⟩ := List.append_eq_nil_iff.1 none
    rw [List.map_eq_nil_iff, List.filter_eq_nil_iff] at digits
    refine List.eq_nil_iff_forall_not_mem.2 fun c mem => ?_
    have plus : c = '+' := by simpa using digits c mem
    rw [if_pos (plus ▸ mem)] at sign
    cases sign
  · rintro rfl
    rfl

/-! ## Characters -/

theorem dialSeparator_eq_plus_iff (c : Char) : dialSeparator c = '+' ↔ c = '+' := by
  unfold dialSeparator
  split
  · next pause => rcases pause with rfl | rfl <;> decide
  · split
    · next wait => rcases wait with rfl | rfl <;> decide
    · rfl

theorem dialSeparator_mem_iff (c : Char) :
    dialSeparator c ∈ Dialling.symbols ↔ c ∈ dialable ∧ c ≠ '+' := by
  constructor
  · intro mem
    unfold dialSeparator at mem
    split at mem
    · next pause => rcases pause with rfl | rfl <;> decide
    · split at mem
      · next wait => rcases wait with rfl | rfl <;> decide
      · have all : Dialling.symbols.all (fun c => c ∈ dialable ∧ c ≠ '+') = true := by decide
        exact of_decide_eq_true (List.all_eq_true.1 all c mem)
  · rintro ⟨mem, ne⟩
    have all : dialable.all (fun c => c ≠ '+' → dialSeparator c ∈ Dialling.symbols) = true := by
      decide
    exact of_decide_eq_true (List.all_eq_true.1 all c mem) ne

theorem showSeparator_dialSeparator (c : Char) : showSeparator (dialSeparator c) = shownChar c := by
  unfold showSeparator dialSeparator shownChar Dialling.pause Dialling.wait
  grind

/-- The characters that are read are written as they are, and none of them is a `+`. -/
theorem showSeparator_of_mem {c : Char} (h : c ∈ Dialling.symbols) :
    showSeparator c ∈ dialable ∧ showSeparator c ≠ '+' ∧
      shownChar (showSeparator c) = showSeparator c := by
  have all : Dialling.symbols.all (fun c => showSeparator c ∈ dialable ∧ showSeparator c ≠ '+' ∧
      shownChar (showSeparator c) = showSeparator c) = true := by decide
  exact of_decide_eq_true (List.all_eq_true.1 all c h)

theorem filter_map_dialSeparator (value : Text) :
    (value.map dialSeparator).filter (· != '+') =
      (value.filter (· ≠ '+')).map dialSeparator := by
  rw [List.filter_map]
  refine congrArg (List.map dialSeparator) (List.filter_congr fun c _ => ?_)
  rw [Bool.eq_iff_iff, Function.comp_apply, bne_iff_ne, decide_eq_true_iff, ne_eq,
    dialSeparator_eq_plus_iff]

theorem contains_map_dialSeparator (value : Text) :
    (value.map dialSeparator).contains '+' = true ↔ '+' ∈ value := by
  rw [List.contains_iff_mem, List.mem_map]
  constructor
  · rintro ⟨c, mem, plus⟩
    rwa [(dialSeparator_eq_plus_iff c).1 plus] at mem
  · exact fun mem => ⟨'+', mem, rfl⟩

/-! ## Records -/

theorem length_tail (length : Nat) (link : Option UInt8) : (tail length link).length = length := by
  unfold tail
  split
  · simp; omega
  · simp

theorem encode_eq_ok_iff {recordLen : Nat} {value : Text} {link : Option UInt8} {record : Bytes}
    (filled : value ≠ []) : encode recordLen value link = .ok record ↔
      minLen ≤ recordLen ∧ ∃ number, Dialling.encode? (value.map dialSeparator) = some number ∧
        number.length ≤ Dialling.maxBytes ∧
        record = 0x00 :: UInt8.ofNat number.length :: Bytes.fitTo Dialling.maxBytes number ++
          tail (recordLen - 13) link := by
  unfold encode
  rw [if_neg filled]
  by_cases short : recordLen < minLen
  · rw [if_pos short]
    simp [Nat.not_le_of_lt short]
  · rw [if_neg short]
    have long : minLen ≤ recordLen := Nat.le_of_not_lt short
    cases known : Dialling.encode? (value.map dialSeparator) with
    | none => simp
    | some number =>
      by_cases large : Dialling.maxBytes < number.length
      · simp [large, Nat.not_le_of_lt large]
      · simp [large, Nat.le_of_not_lt large, long, eq_comm]

theorem decode_written {number : Bytes} (filled : number ≠ [])
    (fits : number.length ≤ Dialling.maxBytes) (rest : Bytes) :
    decode (0x00 :: UInt8.ofNat number.length :: Bytes.fitTo Dialling.maxBytes number ++ rest) =
      (Dialling.calledParty number).map showSeparator := by
  have small : number.length ≤ 11 := fits
  have byte : (UInt8.ofNat number.length).toNat = number.length := Bytes.toNat_ofNat (by omega)
  have pos : number.length ≠ 0 := fun none => filled (List.eq_nil_of_length_eq_zero none)
  have room : number.length ≤ (Bytes.fitTo Dialling.maxBytes number ++ rest).length := by
    rw [List.length_append, Bytes.length_fitTo]
    exact Nat.le_add_right_of_le fits
  have taken : (Bytes.fitTo Dialling.maxBytes number ++ rest).take number.length = number := by
    unfold Bytes.fitTo
    rw [List.take_of_length_le fits]
    simp
  unfold decode Dialling.numberField lengthPosition
  simp only [List.cons_append, List.drop_succ_cons, List.drop_zero, byte]
  rw [if_neg (by omega), taken]

theorem decode_blank (n : Nat) : decode (Bytes.blank n) = [] := by
  match n with
  | 0 => rfl
  | 1 => rfl
  | n + 2 =>
    have : Dialling.numberField (Bytes.blank (n + 2)) lengthPosition = [] := by
      simp [Bytes.blank, List.replicate_succ, Dialling.numberField, lengthPosition, fillByte,
        Dialling.maxBytes]
    unfold decode
    rw [this]
    rfl

theorem length_of_encode {recordLen : Nat} {value : Text} {link : Option UInt8} {record : Bytes}
    (h : encode recordLen value link = .ok record) : record.length = recordLen := by
  by_cases filled : value = []
  · subst filled
    cases h
    exact Bytes.length_blank recordLen
  · obtain ⟨long, number, -, -, rfl⟩ := (encode_eq_ok_iff filled).1 h
    unfold minLen at long
    simp [length_tail, Dialling.maxBytes]
    omega

theorem decode_of_encode {recordLen : Nat} {value : Text} {link : Option UInt8} {record : Bytes}
    (h : encode recordLen value link = .ok record) : decode record = shown value := by
  by_cases filled : value = []
  · subst filled
    cases h
    exact decode_blank recordLen
  · obtain ⟨-, number, known, fits, rfl⟩ := (encode_eq_ok_iff filled).1 h
    have some : number ≠ [] := by
      obtain ⟨-, -, -, rfl⟩ := Dialling.encode?_eq_some_iff.1 known
      exact List.cons_ne_nil _ _
    rw [decode_written some fits, Dialling.calledParty_of_encode? known,
      filter_map_dialSeparator, List.map_append, List.map_map, shown]
    congr 1
    · by_cases plus : '+' ∈ value
      · rw [if_pos plus, if_pos ((contains_map_dialSeparator value).2 plus)]
        rfl
      · rw [if_neg plus, if_neg fun h => plus ((contains_map_dialSeparator value).1 h)]
        rfl
    · exact List.map_congr_left fun c _ => showSeparator_dialSeparator c

/-! ## Which numbers have records -/

theorem exists_encode_iff (recordLen : Nat) (value : Text) (link : Option UInt8) :
    (∃ record, encode recordLen value link = .ok record) ↔
      value = [] ∨ 15 ≤ recordLen ∧ (∀ c ∈ value, c ∈ dialable) ∧
        1 ≤ digitCount value ∧ digitCount value ≤ 20 := by
  by_cases filled : value = []
  · subst filled
    exact iff_of_true ⟨_, rfl⟩ (.inl rfl)
  have chars : (∀ c ∈ value.map dialSeparator, c ≠ '+' → c ∈ Dialling.symbols) ↔
      ∀ c ∈ value, c ∈ dialable := by
    rw [List.forall_mem_map]
    refine forall₂_congr fun c _ => ?_
    rw [ne_eq, dialSeparator_eq_plus_iff, dialSeparator_mem_iff]
    by_cases plus : c = '+'
    · subst plus
      decide
    · simp [plus]
  have count : ((value.map dialSeparator).filter (· != '+')).length = digitCount value := by
    rw [filter_map_dialSeparator, List.length_map, digitCount, List.countP_eq_length_filter]
  have some : (value.map dialSeparator).filter (· != '+') ≠ [] ↔ 1 ≤ digitCount value := by
    rw [← count, Nat.one_le_iff_ne_zero, ne_eq, ne_eq, List.length_eq_zero_iff]
  have writable := Dialling.encode?_isSome_iff (value.map dialSeparator)
  rw [chars, some, Option.isSome_iff_exists] at writable
  simp only [encode_eq_ok_iff filled, filled, false_or, minLen, Dialling.maxBytes]
  constructor
  · rintro ⟨record, long, number, known, fits, -⟩
    obtain ⟨all, pos⟩ := writable.1 ⟨number, known⟩
    rw [Dialling.length_of_encode? known, count] at fits
    exact ⟨long, all, pos, by omega⟩
  · rintro ⟨long, all, pos, few⟩
    obtain ⟨number, known⟩ := writable.2 ⟨all, pos⟩
    refine ⟨_, long, number, known, ?_, rfl⟩
    rw [Dialling.length_of_encode? known, count]
    omega

/-- What is read from any record: no number, or perhaps a `+`, and up to twenty digits. -/
theorem decode_cases (raw : Bytes) : decode raw = [] ∨
    ∃ sign src, (sign = [] ∨ sign = ['+']) ∧ src.length ≤ 10 ∧
      decode raw = sign ++ (Dialling.digits src).map showSeparator := by
  unfold decode Dialling.numberField
  split
  · exact .inl rfl
  · next length rest here =>
    split
    · exact .inl rfl
    · next fits =>
      have bound : (rest.take length.toNat).length ≤ 11 := by
        unfold Dialling.maxBytes at fits
        rw [List.length_take]
        omega
      cases taken : rest.take length.toNat with
      | nil => exact .inl rfl
      | cons type src =>
        rw [taken, List.length_cons] at bound
        refine .inr ⟨if Dialling.isInternational type then ['+'] else [], src, ?_, by omega, ?_⟩
        · split
          · exact .inr rfl
          · exact .inl rfl
        · rw [Dialling.calledParty, List.map_append]
          split <;> rfl

/-- A number has a record exactly if it is empty, or the record is long enough, every character is
one of `dialable`, and there are 1 to 20 digits and separators. Its record has the length asked for,
is blank exactly if the number is empty, and reads as the number with one `+` at most, in front, and
the separators as `P` and `W`. Whatever bytes are read, the result is empty, or a single `+`, or a
text of at most 21 characters that has a record of every length from 15 on, from which the same text
is read. -/
theorem number_reads_back :
    (∀ (recordLen : Nat) (value : Text) (link : Option UInt8),
      ((∃ record, encode recordLen value link = .ok record) ↔
        value = [] ∨ 15 ≤ recordLen ∧ (∀ c ∈ value, c ∈ dialable) ∧
          1 ≤ digitCount value ∧ digitCount value ≤ 20) ∧
      ∀ record, encode recordLen value link = .ok record →
        record.length = recordLen ∧ ((∀ b ∈ record, b = 0xFF) ↔ value = []) ∧
          decode record = shown value) ∧
    ∀ raw : Bytes, decode raw = [] ∨ decode raw = ['+'] ∨
      (decode raw).length ≤ 21 ∧ ∀ (recordLen : Nat) (link : Option UInt8), 15 ≤ recordLen →
        ∃ record, encode recordLen (decode raw) link = .ok record ∧ decode record = decode raw := by
  refine ⟨fun recordLen value link => ⟨exists_encode_iff recordLen value link,
    fun record h => ⟨length_of_encode h, ?_, decode_of_encode h⟩⟩, fun raw => ?_⟩
  · by_cases filled : value = []
    · subst filled
      cases h
      simp [Bytes.blank, fillByte]
    · obtain ⟨-, number, -, -, rfl⟩ := (encode_eq_ok_iff filled).1 h
      simp [filled]
  rcases decode_cases raw with none | ⟨sign, src, signs, short, read⟩
  · exact .inl none
  have chars (c : Char) (mem : c ∈ (Dialling.digits src).map showSeparator) :
      c ∈ dialable ∧ c ≠ '+' ∧ shownChar c = c := by
    obtain ⟨digit, read, rfl⟩ := List.mem_map.1 mem
    exact showSeparator_of_mem (Dialling.mem_digits read)
  have few : ((Dialling.digits src).map showSeparator).length ≤ 20 := by
    have := Dialling.length_digits src
    rw [List.length_map]
    omega
  rw [read]
  generalize (Dialling.digits src).map showSeparator = digits at chars few
  by_cases filled : digits = []
  · subst filled
    rcases signs with rfl | rfl
    · exact .inl rfl
    · exact .inr (.inl rfl)
  refine .inr (.inr ?_)
  have kept : digits.filter (· ≠ '+') = digits :=
    List.filter_eq_self.2 fun c mem => by simpa using (chars c mem).2.1
  have same : digits.map shownChar = digits :=
    (List.map_congr_left fun c mem => (chars c mem).2.2).trans (List.map_id digits)
  have unsigned : '+' ∉ digits := fun mem => (chars _ mem).2.1 rfl
  have count : digitCount (sign ++ digits) = digits.length := by
    rw [digitCount, List.countP_append, List.countP_eq_length_filter, List.countP_eq_length_filter,
      kept]
    rcases signs with rfl | rfl <;> simp
  have again : shown (sign ++ digits) = sign ++ digits := by
    rw [shown, List.filter_append, kept, List.map_append, same]
    rcases signs with rfl | rfl <;> simp [unsigned]
  have writable (recordLen : Nat) (link : Option UInt8) (long : 15 ≤ recordLen) :
      ∃ record, encode recordLen (sign ++ digits) link = .ok record := by
    refine (exists_encode_iff recordLen _ link).2 (.inr ⟨long, fun c mem => ?_, ?_, ?_⟩)
    · rcases List.mem_append.1 mem with mem | mem
      · rcases signs with rfl | rfl
        · cases mem
        · obtain rfl := List.mem_singleton.1 mem
          decide
      · exact (chars c mem).1
    · rw [count]
      exact List.length_pos_iff.2 filled
    · rwa [count]
  refine ⟨?_, fun recordLen link long => ?_⟩
  · rw [List.length_append]
    rcases signs with rfl | rfl <;> simp <;> omega
  · obtain ⟨record, h⟩ := writable recordLen link long
    exact ⟨record, h, (decode_of_encode h).trans again⟩

/-- A number with a `+` inside and two spellings of the pause, and a record with a digit that has no
character. -/
theorem number_reads_back_international :
    (∃ record, encode 15 ['1', 'p', '+', '2', ','] none = .ok record ∧ record.length = 15 ∧
      decode record = ['+', '1', 'P', '2', 'P']) ∧
    ∃ record, encode 17 (decode [0x00, 0x03, 0x91, 0x1E, 0xFD]) (some 3) = .ok record ∧
      decode record = ['+', '1', 'W'] := by
  obtain ⟨writes, reads⟩ := number_reads_back
  obtain ⟨accepts, like⟩ := writes 15 ['1', 'p', '+', '2', ','] none
  obtain ⟨record, h⟩ := accepts.2 (.inr ⟨by decide, by simp [dialable], by decide, by decide⟩)
  obtain ⟨length, -, read⟩ := like record h
  refine ⟨⟨record, h, length, read⟩, ?_⟩
  have known : decode [0x00, 0x03, 0x91, 0x1E, 0xFD] = ['+', '1', 'W'] := by decide
  rcases reads [0x00, 0x03, 0x91, 0x1E, 0xFD] with none | plus | ⟨-, again⟩
  · rw [known] at none
    cases none
  · rw [known] at plus
    cases plus
  · obtain ⟨record, h, read⟩ := again 17 (some 3) (by decide)
    exact ⟨record, h, read.trans known⟩

end UsimPhonebook.AdditionalNumber
