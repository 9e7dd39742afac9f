import UsimPhonebook.Card.Image
import UsimPhonebook.Proofs.Card.BlockFiles
import UsimPhonebook.Proofs.Text.Numeral
import UsimPhonebook.Proofs.SortedMap

/-! # Images of cards

An image may name a file in many ways and may hold records of any length. The image of a card
names each file once, by its four digits, and every record has the record length of its file
(`CardImage.Canonical`).

* `Card.ofImage_eq_ok_iff` : the files of an image are the pairs that its items come to, one
  after the other
* `Card.file?_ofImage` : of several keys that name one file, the last one decides
* `Card.ofImage_toImage` : the image of a card is the image of this card alone
* `CardImage.Canonical.exists_card` : a canonical image is the image of a card
-/

namespace UsimPhonebook

/-! ## The order of texts and of identifiers -/

theorem Text.lt_asymm (a b : Text) (h : a < b) : ¬ b < a := List.lt_asymm h

theorem Text.lt_trans (a b c : Text) (h : a < b) (h' : b < c) : a < c := List.lt_trans h h'

theorem Text.lt_of_not_lt (a b : Text) (ne : a ≠ b) (h : ¬ a < b) : b < a := by
  by_cases lt : b < a
  · exact lt
  · exact absurd (List.le_antisymm lt h) ne

namespace FileId

variable {a b : FileId}

theorem lt_asymm (a b : FileId) (h : a < b) : ¬ b < a := by
  rw [lt_iff] at *
  omega

theorem text_lt_text (h : a < b) : a.text < b.text := Hex.word_lt_word h

theorem readWord?_text (id : FileId) : Hex.readWord? id.text = some id.value :=
  Hex.readWord?_word id.value

theorem text_injective (h : a.text = b.text) : a = b := by
  have value : some a.value = some b.value := by
    rw [← readWord?_text, ← readWord?_text, h]
  cases a
  cases b
  exact congrArg mk (Option.some.inj value)

end FileId

/-! ## Files -/

namespace FileImage

/-- The one form in which a card writes the file of an image: every record is filled or cut to the
record length, and its digits are upper-case. There is none if a record is not written in digits. -/
def normal? (image : FileImage) : Option FileImage :=
  (image.records.mapM Hex.readBytes?).map fun records =>
    ⟨image.recordLen, records.map fun record => Hex.bytes (record.fitTo image.recordLen)⟩

theorem toFile?_eq_ok_iff {image : FileImage} {file : RecordFile} :
    image.toFile? = .ok file ↔ ∃ records, image.records.mapM Hex.readBytes? = some records ∧
      file = .ofRecords image.recordLen records := by
  unfold toFile?
  cases image.records.mapM Hex.readBytes? with
  | none => exact ⟨nofun, fun ⟨_, no, _⟩ => nomatch no⟩
  | some records =>
    constructor
    · intro h
      cases h
      exact ⟨records, rfl, rfl⟩
    · rintro ⟨_, same, rfl⟩
      cases same
      rfl

/-- The form in which the file of an image is written. -/
theorem normal?_eq_some_iff {image entry : FileImage} :
    image.normal? = some entry ↔ ∃ file, image.toFile? = .ok file ∧ entry = ofFile file := by
  unfold normal?
  simp only [Option.map_eq_some_iff, toFile?_eq_ok_iff]
  constructor
  · rintro ⟨records, read, rfl⟩
    refine ⟨_, ⟨records, read, rfl⟩, ?_⟩
    simp [ofFile, RecordFile.ofRecords]
  · rintro ⟨_, ⟨records, read, rfl⟩, rfl⟩
    exact ⟨records, read, by simp [ofFile, RecordFile.ofRecords]⟩

theorem toFile?_ofFile {file : RecordFile} (sized : file.WellSized) :
    (ofFile file).toFile? = .ok file := by
  have read : (ofFile file).records.mapM Hex.readBytes? = some file.records := by
    rw [mapM_eq_some_iff]
    show (file.records.map Hex.bytes).map Hex.readBytes? = _
    rw [List.map_map]
    exact List.map_congr_left fun record _ => Hex.readBytes?_bytes record
  have same : file.records.map (Bytes.fitTo file.recordLen) = file.records :=
    (List.map_congr_left fun record mem => Bytes.fitTo_eq_self (sized record mem)).trans
      (List.map_id _)
  refine toFile?_eq_ok_iff.2 ⟨file.records, read, ?_⟩
  show file = ⟨file.recordLen, file.records.map (Bytes.fitTo file.recordLen)⟩
  rw [same]

end FileImage

/-! ## From an image to a card -/

namespace CardImage

/-- What an item of an image comes to: the file that its key names. -/
def fileOf? (item : Text × FileImage) : Option (FileId × RecordFile) :=
  match Hex.readWord? item.1, item.2.toFile? with
  | some id, .ok file => some (⟨id⟩, file)
  | _, _ => none

theorem fileOf?_eq_some_iff {item : Text × FileImage} {id : FileId} {file : RecordFile} :
    fileOf? item = some (id, file) ↔
      Hex.readWord? item.1 = some id.value ∧ item.2.toFile? = .ok file := by
  unfold fileOf?
  obtain ⟨value⟩ := id
  cases Hex.readWord? item.1 with
  | none => simp
  | some named => cases item.2.toFile? <;> simp

/-- Of the items of an image, this file decides what the file `id` is: its key names `id`, and no
key behind it does. -/
def Decides (image : CardImage) (id : FileId) (file : FileImage) : Prop :=
  ∃ key, (key, file) ∈ image.files.items ∧ Hex.readWord? key = some id.value ∧
    ∀ other ∈ image.files.keys, key < other → Hex.readWord? other ≠ some id.value

end CardImage

namespace Card

theorem addImage_eq_ok_iff {card later : Card} {key : Text} {file : FileImage} :
    card.addImage key file = .ok later ↔
      ∃ p, CardImage.fileOf? (key, file) = some p ∧ later = card.insert p.1 p.2 := by
  unfold addImage CardImage.fileOf?
  cases Hex.readWord? key with
  | none => exact ⟨nofun, fun ⟨_, no, _⟩ => nomatch no⟩
  | some id =>
    cases file.toFile? with
    | error e => exact ⟨nofun, fun ⟨_, no, _⟩ => nomatch no⟩
    | ok file =>
      constructor
      · intro h
        cases h
        exact ⟨_, rfl, rfl⟩
      · rintro ⟨_, same, rfl⟩
        cases same
        rfl

theorem foldlM_addImage {card later : Card} {items : List (Text × FileImage)} :
    items.foldlM (fun card (key, file) => card.addImage key file) card = .ok later ↔
      ∃ pairs, items.mapM CardImage.fileOf? = some pairs ∧
        later = { card with files := pairs.foldl (fun m p => m.insert p.1 p.2) card.files } := by
  induction items generalizing card with
  | nil =>
    constructor
    · intro h
      cases h
      exact ⟨[], rfl, rfl⟩
    · rintro ⟨_, none, rfl⟩
      cases none
      rfl
  | cons item rest ih =>
    rw [List.foldlM_cons]
    simp only [mapM_cons_eq_some_iff]
    constructor
    · intro h
      cases added : card.addImage item.1 item.2 with
      | error e =>
        rw [added] at h
        cases h
      | ok next =>
        rw [added] at h
        obtain ⟨p, first, rfl⟩ := addImage_eq_ok_iff.1 added
        obtain ⟨pairs, others, rfl⟩ := ih.1 h
        exact ⟨p :: pairs, ⟨p, pairs, first, others, rfl⟩, rfl⟩
    · rintro ⟨_, ⟨p, pairs, first, others, rfl⟩, rfl⟩
      rw [addImage_eq_ok_iff.2 ⟨p, first, rfl⟩]
      exact ih.2 ⟨pairs, others, rfl⟩

theorem ofImage_eq_ok_iff {image : CardImage} {card : Card} :
    ofImage image = .ok card ↔ ∃ pairs, image.files.items.mapM CardImage.fileOf? = some pairs ∧
      card = { files := .ofList pairs } :=
  foldlM_addImage

section

variable {image : CardImage} {card : Card} (accepted : ofImage image = .ok card)

include accepted

theorem isSome_fileOf? {item : Text × FileImage} (member : item ∈ image.files.items) :
    (CardImage.fileOf? item).isSome := by
  obtain ⟨pairs, read, -⟩ := ofImage_eq_ok_iff.1 accepted
  have known : (image.files.items.mapM CardImage.fileOf?).isSome := by
    rw [read]
    rfl
  exact isSome_mapM_iff.1 known item member

theorem file?_eq_findSome? (id : FileId) : card.file? id =
    image.files.items.reverse.findSome? fun item =>
      (CardImage.fileOf? item).bind (SortedMap.valueOf? id) := by
  obtain ⟨pairs, read, rfl⟩ := ofImage_eq_ok_iff.1 accepted
  rw [← findSome?_of_mapM read]
  exact SortedMap.find?_ofList pairs id

/-- An item that does not name a file has nothing to say of it. -/
theorem valueOf?_eq_none_iff {item : Text × FileImage} (member : item ∈ image.files.items)
    {id : FileId} : (CardImage.fileOf? item).bind (SortedMap.valueOf? id) = none ↔
      Hex.readWord? item.1 ≠ some id.value := by
  obtain ⟨⟨⟨other⟩, file⟩, entry⟩ := Option.isSome_iff_exists.1 (isSome_fileOf? accepted member)
  obtain ⟨word, -⟩ := CardImage.fileOf?_eq_some_iff.1 entry
  obtain ⟨value⟩ := id
  rw [entry, word]
  simp [SortedMap.valueOf?, eq_comm]

omit accepted in
theorem valueOf?_eq_some_iff {item : Text × FileImage} {id : FileId} {file : RecordFile} :
    (CardImage.fileOf? item).bind (SortedMap.valueOf? id) = some file ↔
      Hex.readWord? item.1 = some id.value ∧ item.2.toFile? = .ok file := by
  rw [← CardImage.fileOf?_eq_some_iff]
  cases CardImage.fileOf? item with
  | none => simp
  | some p =>
    obtain ⟨other, file⟩ := p
    simp [SortedMap.valueOf?, eq_comm]

/-- The card has the files that some key names. -/
theorem mem_keys_ofImage {id : FileId} : id ∈ card.files.keys ↔
    ∃ key ∈ image.files.keys, Hex.readWord? key = some id.value := by
  have missing : card.file? id = none ↔
      ∀ key ∈ image.files.keys, Hex.readWord? key ≠ some id.value := by
    rw [file?_eq_findSome? accepted, List.findSome?_eq_none_iff]
    unfold SortedMap.keys
    rw [List.forall_mem_map]
    simp only [List.mem_reverse]
    exact forall_congr' fun item => forall_congr' fun member => valueOf?_eq_none_iff accepted member
  have unnamed : id ∉ card.files.keys ↔
      ¬ ∃ key ∈ image.files.keys, Hex.readWord? key = some id.value :=
    SortedMap.find?_eq_none_iff.symm.trans (missing.trans (by simp))
  exact Decidable.not_iff_not.1 unnamed

/-- Of several keys that name one file, the last one decides. -/
theorem file?_ofImage (sorted : image.files.Ascending) {id : FileId} {file : RecordFile} :
    card.file? id = some file ↔
      ∃ image', image.Decides id image' ∧ image'.toFile? = .ok file := by
  rw [file?_eq_findSome? accepted,
    findSome?_reverse_eq_some_iff (fun a b => Text.lt_asymm a.1 b.1) sorted]
  constructor
  · rintro ⟨⟨key, image'⟩, member, here, last⟩
    obtain ⟨word, file⟩ := valueOf?_eq_some_iff.1 here
    refine ⟨image', ⟨key, member, word, fun other there lt => ?_⟩, file⟩
    obtain ⟨item, member', rfl⟩ := List.mem_map.1 there
    exact (valueOf?_eq_none_iff accepted member').1 (last item member' lt)
  · rintro ⟨image', ⟨key, member, word, last⟩, file⟩
    refine ⟨(key, image'), member, valueOf?_eq_some_iff.2 ⟨word, file⟩, fun item member' lt => ?_⟩
    exact (valueOf?_eq_none_iff accepted member').2
      (last item.1 (List.mem_map_of_mem member') lt)

end

end Card

/-! ## From a card to its image -/

/-- Files in order: by ascending identifier, with records of the length that their file has. -/
structure Tidy (files : CardFiles) : Prop where
  ascending : files.Ascending
  sized : ∀ item ∈ files.items, item.2.WellSized

/-- A file under its identifier, in text form. -/
def CardImage.item (p : FileId × RecordFile) : Text × FileImage := (p.1.text, FileImage.ofFile p.2)

/-- The image of a card: each file once, under its four digits, in ascending order, and every
record in upper-case digits and of the length that its file has. -/
structure CardImage.Canonical (image : CardImage) : Prop where
  keys : ∃ ids : List FileId, ids.Pairwise (· < ·) ∧ image.files.keys = ids.map FileId.text
  records : ∀ item ∈ image.files.items, ∀ record ∈ item.2.records,
    ∃ bytes : Bytes, bytes.length = item.2.recordLen ∧ record = Hex.bytes bytes

/-- `other` holds the files that `image` names, each once and in the form in which a card writes
it; of several keys that name one file the last one decides. -/
structure CardImage.Restates (other image : CardImage) : Prop where
  canonical : other.Canonical
  named : ∀ id : FileId, id.text ∈ other.files.keys ↔
    ∃ key ∈ image.files.keys, Hex.readWord? key = some id.value
  decided : ∀ (id : FileId) (entry : FileImage), other.files.find? id.text = some entry ↔
    ∃ file, image.Decides id file ∧ file.normal? = some entry

namespace Card

theorem exists_item {image : CardImage} {card : Card} (accepted : ofImage image = .ok card)
    {p : FileId × RecordFile} (member : p ∈ card.files.items) :
    ∃ item ∈ image.files.items, ∃ records, p.2 = .ofRecords item.2.recordLen records := by
  obtain ⟨pairs, read, rfl⟩ := ofImage_eq_ok_iff.1 accepted
  obtain ⟨item, mem, entry⟩ := exists_of_mem_mapM read (SortedMap.mem_ofList member)
  obtain ⟨-, read⟩ := CardImage.fileOf?_eq_some_iff.1 entry
  obtain ⟨records, -, file⟩ := FileImage.toFile?_eq_ok_iff.1 read
  exact ⟨item, mem, records, file⟩

theorem faults_ofImage {image : CardImage} {card : Card} (accepted : ofImage image = .ok card) :
    card.faults = [] := by
  obtain ⟨pairs, -, rfl⟩ := ofImage_eq_ok_iff.1 accepted
  rfl

theorem tidy_ofImage {image : CardImage} {card : Card} (accepted : ofImage image = .ok card) :
    Tidy card.files := by
  constructor
  · obtain ⟨pairs, -, rfl⟩ := ofImage_eq_ok_iff.1 accepted
    exact SortedMap.ascending_ofList (fun _ _ => FileId.lt_of_not_lt)
      (fun _ _ _ => FileId.lt_trans) pairs
  · intro p member
    obtain ⟨item, -, records, file⟩ := exists_item accepted member
    rw [file]
    exact RecordFile.wellSized_ofRecords _ _

theorem find?_toImage (card : Card) (id : FileId) :
    card.toImage.files.find? id.text = (card.file? id).map FileImage.ofFile :=
  SortedMap.find?_map (fun _ _ => FileId.text_injective) FileImage.ofFile card.files id

theorem keys_toImage (card : Card) :
    card.toImage.files.keys = card.files.keys.map FileId.text := by
  unfold toImage SortedMap.keys
  rw [List.map_map, List.map_map]
  rfl

theorem ascending_toImage {card : Card} (h : card.files.Ascending) :
    card.toImage.files.Ascending :=
  List.pairwise_map.2 (h.imp FileId.text_lt_text)

theorem canonical_toImage {card : Card} (tidy : Tidy card.files) : card.toImage.Canonical := by
  refine ⟨⟨card.files.keys, SortedMap.ascending_iff.1 tidy.ascending, keys_toImage card⟩, ?_⟩
  intro item member record there
  obtain ⟨⟨id, file⟩, mem, rfl⟩ := List.mem_map.1 member
  obtain ⟨bytes, mem', rfl⟩ := List.mem_map.1 there
  exact ⟨bytes, tidy.sized _ mem bytes mem', rfl⟩

/-- A card restates the image that it is made from. -/
theorem restates_toImage {image : CardImage} {card : Card} (sorted : image.files.Ascending)
    (accepted : ofImage image = .ok card) : card.toImage.Restates image where
  canonical := canonical_toImage (tidy_ofImage accepted)
  named id := by
    rw [keys_toImage, ← mem_keys_ofImage accepted, List.mem_map]
    constructor
    · rintro ⟨other, member, same⟩
      exact FileId.text_injective same ▸ member
    · intro member
      exact ⟨id, member, rfl⟩
  decided id entry := by
    rw [find?_toImage, Option.map_eq_some_iff]
    simp only [file?_ofImage accepted sorted, FileImage.normal?_eq_some_iff]
    constructor
    · rintro ⟨file, ⟨image', decides, read⟩, rfl⟩
      exact ⟨image', decides, file, read, rfl⟩
    · rintro ⟨image', decides, file, read, rfl⟩
      exact ⟨file, ⟨image', decides, read⟩, rfl⟩

/-- The image of a card is the image of this card alone. -/
theorem ofImage_toImage {card : Card} (tidy : Tidy card.files) :
    ofImage card.toImage = .ok { files := card.files } := by
  refine ofImage_eq_ok_iff.2 ⟨card.files.items, ?_, ?_⟩
  · rw [mapM_eq_some_iff]
    show (card.files.items.map CardImage.item).map CardImage.fileOf? = _
    rw [List.map_map]
    refine List.map_congr_left fun p mem => ?_
    exact CardImage.fileOf?_eq_some_iff.2
      ⟨p.1.readWord?_text, FileImage.toFile?_ofFile (tidy.sized p mem)⟩
  · rw [SortedMap.ofList_items FileId.lt_asymm tidy.ascending]

end Card

namespace CardImage

variable {image : CardImage}

/-- Every item of a canonical image is a file in text form. -/
theorem Canonical.exists_file (h : image.Canonical) {a : Text × FileImage}
    (member : a ∈ image.files.items) : ∃ p : FileId × RecordFile, p.2.WellSized ∧ a = item p := by
  obtain ⟨key, file⟩ := a
  obtain ⟨ids, -, keys⟩ := h.keys
  have named : key ∈ ids.map FileId.text := keys ▸ List.mem_map_of_mem member
  obtain ⟨id, -, rfl⟩ := List.mem_map.1 named
  have each : ∀ record ∈ file.records, ∃ bytes : Bytes, bytes.length = file.recordLen ∧
      record = Hex.bytes bytes := h.records _ member
  obtain ⟨records, texts, sized⟩ := exists_map_eq each
  refine ⟨(id, ⟨file.recordLen, records⟩), sized, ?_⟩
  show (id.text, file) = (id.text, ⟨file.recordLen, records.map Hex.bytes⟩)
  rw [← texts]

theorem Canonical.exists_card (h : image.Canonical) :
    ∃ card : Card, Card.ofImage image = .ok card ∧ card.toImage = image := by
  obtain ⟨pairs, items, sized⟩ := exists_map_eq fun _ member => h.exists_file member
  obtain ⟨ids, ascending, keys⟩ := h.keys
  have texts : ids.map FileId.text = (pairs.map (·.1)).map FileId.text := by
    rw [← keys, SortedMap.keys, items, List.map_map, List.map_map]
    rfl
  have same : ids = pairs.map (·.1) :=
    (List.map_inj_right fun _ _ => FileId.text_injective).1 texts
  let card : Card := { files := ⟨pairs⟩ }
  have tidy : Tidy card.files := ⟨List.pairwise_map.1 (same ▸ ascending), sized⟩
  have whole : card.toImage = image := by
    show (⟨⟨pairs.map item⟩⟩ : CardImage) = image
    rw [← items]
  exact ⟨card, whole ▸ Card.ofImage_toImage tidy, whole⟩

end CardImage

end UsimPhonebook
