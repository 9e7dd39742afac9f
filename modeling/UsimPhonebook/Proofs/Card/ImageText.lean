import UsimPhonebook.Proofs.Card.Image
import UsimPhonebook.Proofs.Json.Reading

/-! # The text of an image

An image in order, all of whose record lengths are machine words, reads back from its text
(`CardImage.read?_text`). The images that are read from any text are like this
(`CardImage.of_read?`), and so are those of a card that is made from one (`Card.bounded_ofImage`).
-/

namespace UsimPhonebook

/-- Every record length is a machine word. -/
def CardImage.Bounded (image : CardImage) : Prop :=
  ∀ item ∈ image.files.items, item.2.recordLen < wordLimit

theorem Card.bounded_ofImage {image : CardImage} {card : Card} (bounded : image.Bounded)
    (accepted : ofImage image = .ok card) : ∀ p ∈ card.files.items, p.2.recordLen < wordLimit := by
  intro p member
  obtain ⟨item, mem, records, file⟩ := exists_item accepted member
  rw [file]
  exact bounded item mem

/-! ## One file -/

namespace FileImage

variable {file : FileImage}

theorem ofParts?_toJson (bounded : file.recordLen < wordLimit) :
    ofParts? (.ofNat file.recordLen) (.array (file.records.map .string)) = some file := by
  have texts : (file.records.map Json.string).mapM Json.text? = some file.records := by
    rw [mapM_eq_some_iff, List.map_map]
    rfl
  unfold ofParts?
  rw [Json.machineWord?_ofNat bounded]
  simp [Json.items?, texts]

theorem ofJson?_toJson (bounded : file.recordLen < wordLimit) :
    ofJson? file.toJson = some file := by
  have ne : lengthKey ≠ recordsKey := by decide
  simp [toJson, ofJson?, Json.onlyMember?, ne, ne.symm, ofParts?_toJson bounded]

theorem printable_toJson (file : FileImage) : file.toJson.Printable := by
  refine .object _ fun m member => ?_
  rcases List.mem_cons.1 member with rfl | member
  · exact .number _ (Json.isNumber_decimal _)
  · obtain rfl := List.mem_singleton.1 member
    refine .array _ fun j mem => ?_
    obtain ⟨text, -, rfl⟩ := List.mem_map.1 mem
    exact .string text

theorem bounded_of_ofParts? {length records : Json} (h : ofParts? length records = some file) :
    file.recordLen < wordLimit := by
  unfold ofParts? at h
  split at h
  · next recordLen _ number _ =>
    cases h
    unfold Json.machineWord? at number
    split at number
    · simpa [isMachineWord] using (Option.filter_eq_some_iff.1 number).2
    · cases number
  · cases h

theorem bounded_of_ofJson? {j : Json} (h : ofJson? j = some file) :
    file.recordLen < wordLimit := by
  unfold ofJson? at h
  repeat' split at h
  all_goals first | exact bounded_of_ofParts? h | cases h

end FileImage

/-! ## All files -/

namespace CardImage

variable {image : CardImage}

theorem printable_toJson (image : CardImage) : image.toJson.Printable := by
  refine .object _ fun m member => ?_
  obtain rfl := List.mem_singleton.1 member
  refine .object _ fun m member => ?_
  obtain ⟨⟨key, file⟩, -, rfl⟩ := List.mem_map.1 member
  exact file.printable_toJson

theorem ofFiles?_eq_some_iff {files : Json} : ofFiles? files = some image ↔
    ∃ members pairs, files.members? = some members ∧
      members.mapM (fun (key, file) => (FileImage.ofJson? file).map fun file => (key, file)) =
        some pairs ∧ image = ⟨.ofList pairs⟩ := by
  unfold ofFiles?
  simp only [Option.bind_eq_bind, Option.bind_eq_some_iff, Option.pure_def, Option.some.injEq]
  constructor
  · rintro ⟨members, whole, pairs, read, rfl⟩
    exact ⟨members, pairs, whole, read, rfl⟩
  · rintro ⟨members, pairs, whole, read, rfl⟩
    exact ⟨members, whole, pairs, read, rfl⟩

theorem ofFiles?_toJson (sorted : image.files.Ascending) (bounded : image.Bounded) :
    ofFiles? (.object (image.files.items.map fun (key, file) => (key, file.toJson))) =
      some image := by
  refine ofFiles?_eq_some_iff.2 ⟨_, image.files.items, rfl, ?_, ?_⟩
  · rw [mapM_eq_some_iff, List.map_map]
    refine List.map_congr_left fun item mem => ?_
    show (FileImage.ofJson? item.2.toJson).map _ = _
    rw [FileImage.ofJson?_toJson (bounded item mem)]
    rfl
  · rw [SortedMap.ofList_items Text.lt_asymm sorted]

theorem read?_text (sorted : image.files.Ascending) (bounded : image.Bounded) :
    read? image.text = some image := by
  unfold read? text
  rw [Json.read?_pretty image.printable_toJson]
  simp [toJson, ofJson?, Json.onlyMember?, ofFiles?_toJson sorted bounded]

theorem of_ofFiles? {files : Json} (h : ofFiles? files = some image) :
    image.files.Ascending ∧ image.Bounded := by
  obtain ⟨members, pairs, -, read, rfl⟩ := ofFiles?_eq_some_iff.1 h
  refine ⟨SortedMap.ascending_ofList Text.lt_of_not_lt Text.lt_trans pairs, fun item member => ?_⟩
  obtain ⟨⟨key, j⟩, -, given⟩ := exists_of_mem_mapM read (SortedMap.mem_ofList member)
  obtain ⟨file, known, same⟩ := Option.map_eq_some_iff.1 given
  cases same
  exact FileImage.bounded_of_ofJson? known

/-- The images that are read are in order, and every record length is a machine word. -/
theorem of_read? {t : Text} (h : read? t = some image) :
    image.files.Ascending ∧ image.Bounded := by
  obtain ⟨j, -, h⟩ := Option.bind_eq_some_iff.1 h
  unfold ofJson? at h
  split at h
  · obtain ⟨j, -, h⟩ := Option.bind_eq_some_iff.1 h
    exact of_ofFiles? h
  · exact of_ofFiles? h
  · cases h

end CardImage

end UsimPhonebook
