import UsimPhonebook.CardFile
import UsimPhonebook.Proofs.Card.ImageText
import UsimPhonebook.Proofs.Files.Task
import UsimPhonebook.Proofs.Files.Tree
import UsimPhonebook.Proofs.Session.Reloading
import UsimPhonebook.Proofs.Session.Storage

/-! # Card files that are saved and opened again

Whatever edits are made to a card file, the card stays one that an image can hold and from which a
session can be opened (`Reopenable`). So what is saved can be opened again.

* `CardFile.reopens` : it gives the same card, and the same text when it is saved
* `CardFile.reports_again` : it shows the entry that was edited last as the edit showed it
* `CardFile.runOn_openAt`, `CardFile.runOn_save` : the same in a file of a file tree
* `CardFile.save_removeFolder` : a card file whose folder is gone is not saved
* `CardFile.saved_card_reopens` : both, and what the image of a card makes of an image
-/

namespace UsimPhonebook

/-! ## What stays as it is -/

/-- Files that an image can hold and from which a session can be opened: they are in order, every
record length is a machine word, and the reference file has a record. -/
structure Reopenable (reference : FileId) (files : CardFiles) : Prop extends Tidy files where
  bounded : ∀ item ∈ files.items, item.2.recordLen < wordLimit
  describes : Session.Describes reference files

theorem keptByWriting_reopenable (reference : FileId) : KeptByWriting (Reopenable reference) := by
  intro files id file number record h found fits
  have there : (id, file) ∈ files.items := SortedMap.mem_of_find? found
  constructor
  · constructor
    · exact h.ascending.replace id _
    · intro item member
      rcases SortedMap.mem_replaceItem member with rfl | member
      · exact (h.sized _ there).setRecord number fits
      · exact h.sized item member
  · intro item member
    rcases SortedMap.mem_replaceItem member with rfl | member
    · exact h.bounded (id, file) there
    · exact h.bounded item member
  · obtain ⟨root, rooted, some⟩ := h.describes
    by_cases same : reference = id
    · subst same
      rw [found] at rooted
      cases rooted
      refine ⟨file.setRecord number record, ?_, ?_⟩
      · rw [SortedMap.find?_replace, if_pos rfl, found]
        rfl
      · simpa [RecordFile.setRecord] using some
    · exact ⟨root, by rw [SortedMap.find?_replace, if_neg same, rooted], some⟩

namespace CardFile

/-- The card files that edits of a card file lead to, one after the other, whether they succeed or
fail. -/
inductive Edited (f : CardFile) : CardFile → Prop
  | start : Edited f f
  | update (g : CardFile) (edited : Edited f g) (position : Nat) (old new : Text)
    (kind : FieldKind) : Edited f (g.update position old new kind).2

theorem update_snd (f : CardFile) (position : Nat) (old new : Text) (kind : FieldKind) :
    (f.update position old new kind).2 =
      { f with session := (f.session.obey (.update position old new kind)).2 } := by
  rw [Session.obey_update]
  unfold update
  rcases (Session.update position old new kind).perform f.session with ⟨e | ⟨⟨⟩⟩, s⟩
  · rfl
  · dsimp only
    cases s.entryReport? position <;> rfl

theorem ofText_eq_ok_iff {path text : Text} {reference : FileId} {f : CardFile} :
    ofText path reference text = .ok f ↔ ∃ image card entries session,
      CardImage.read? text = some image ∧ Card.ofImage image = .ok card ∧
      Session.load.perform (.start card { referenceFile := reference }) = (.ok entries, session) ∧
      f = ⟨path, session⟩ := by
  constructor
  · intro h
    unfold ofText at h
    split at h
    · cases h
    · next image read =>
      split at h
      · cases h
      · next card accepted =>
        split at h
        · cases h
        · next entries session loaded =>
          cases h
          exact ⟨image, card, entries, session, read, accepted, loaded, rfl⟩
  · rintro ⟨image, card, entries, session, read, accepted, loaded, rfl⟩
    unfold ofText
    rw [read]
    dsimp only
    rw [accepted]
    dsimp only
    rw [loaded]

variable {path text : Text} {reference : FileId} {f g : CardFile}

theorem path_of_ofText (opened : ofText path reference text = .ok f) : f.path = path := by
  obtain ⟨-, -, -, -, -, -, -, rfl⟩ := ofText_eq_ok_iff.1 opened
  rfl

theorem Edited.same_path (edited : f.Edited g) : g.path = f.path := by
  induction edited with
  | start => rfl
  | update g _ position old new kind ih => rw [update_snd, ih]

/-- A card file that was opened can be opened again, whatever was edited since. -/
theorem Edited.reopenable (opened : ofText path reference text = .ok f) (edited : f.Edited g) :
    Reopenable reference g.session.card.files := by
  induction edited with
  | start =>
    obtain ⟨image, card, entries, session, read, accepted, loaded, rfl⟩ :=
      ofText_eq_ok_iff.1 opened
    rcases Session.load_start_cases (Card.faults_ofImage accepted) { referenceFile := reference }
      with ⟨e, s, failed, -⟩ | ⟨entries', s, done, describes, files⟩
    · rw [loaded] at failed
      cases failed
    · rw [loaded] at done
      cases done
      show Reopenable reference session.card.files
      rw [files]
      exact ⟨Card.tidy_ofImage accepted, Card.bounded_ofImage (CardImage.of_read? read).2 accepted,
        describes⟩
  | update g _ position old new kind ih =>
    rw [update_snd]
    exact Session.keeps_obey (keptByWriting_reopenable reference) g.session _ ih

theorem reopens (path : Text) (sound : Reopenable reference g.session.card.files) :
    ∃ h, ofText path reference g.text = .ok h ∧ h.path = path ∧
      h.session.card.files = g.session.card.files := by
  have bounded : g.session.card.toImage.Bounded := by
    intro item member
    obtain ⟨p, mem, rfl⟩ := List.mem_map.1 member
    exact sound.bounded p mem
  have read : CardImage.read? g.text = some g.session.card.toImage :=
    CardImage.read?_text (Card.ascending_toImage sound.ascending) bounded
  let card : Card := { files := g.session.card.files }
  have calm : card.faults = [] := rfl
  rcases Session.load_start_cases calm { referenceFile := reference } with
    ⟨e, s, -, no⟩ | ⟨entries, s, done, -, files⟩
  · exact absurd sound.describes no
  · refine ⟨⟨path, s⟩, ofText_eq_ok_iff.2 ⟨_, card, entries, s, read, ?_, done, rfl⟩, rfl, files⟩
    exact Card.ofImage_toImage sound.toTidy

theorem runOn_openAt (path : Text) (reference : FileId) (tree : FileTree) :
    (openAt path reference).runOn tree =
      match tree.read path with
      | .ok text => (ofText path reference text, tree)
      | .error e => (.error (.unreadable path e), tree) := by
  show (match tree.read path with
    | .ok text => pure (ofText path reference text)
    | .error e => pure (.error (.unreadable path e)) : FileTask _).runOn tree = _
  cases tree.read path <;> rfl

theorem runOn_save (f : CardFile) (tree : FileTree) :
    f.save.runOn tree =
      match tree.write f.path f.text with
      | .ok later => (.ok (), later)
      | .error e => (.error (.unwritable f.path e), tree) := by
  unfold save
  rw [FileTask.runOn_bind]
  unfold FileTask.writeText
  rw [FileTask.runOn]
  cases tree.write f.path f.text <;> rfl

/-- Where the folder of a card file is gone, saving says so and leaves the rest as it is. -/
theorem save_removeFolder {tree : FileTree} (below : tree.workingFolder ≠ [])
    (relative : f.path.head? ≠ some '/') :
    ∃ e, f.save.runOn (tree.removeFolder tree.workingFolder) =
      (.error (.unwritable f.path e), tree.removeFolder tree.workingFolder) := by
  obtain ⟨e, refused⟩ := FileTree.write_removeFolder f.text below relative
  refine ⟨e, ?_⟩
  rw [runOn_save, refused]

theorem write_of_save {tree later : FileTree} (saved : f.save.runOn tree = (.ok (), later)) :
    tree.write f.path f.text = .ok later := by
  rw [runOn_save] at saved
  cases written : tree.write f.path f.text with
  | error e =>
    rw [written] at saved
    cases saved
  | ok tree =>
    rw [written] at saved
    cases saved
    rfl

/-- Where the text of one card file was saved, another one with the same path and the same text is
there already, if this is what the text opens as. -/
theorem opens_where_saved {h : CardFile} (opened : ofText path reference g.text = .ok h)
    (here : g.path = path) (there : h.path = path) (same : h.text = g.text)
    {tree later : FileTree} (saved : g.save.runOn tree = (.ok (), later)) :
    later.read path = .ok g.text ∧ (openAt path reference).runOn later = (.ok h, later) ∧
      h.save.runOn later = (.ok (), later) := by
  have written := write_of_save saved
  rw [here] at written
  have read : later.read path = .ok g.text := FileTree.read_write written
  refine ⟨read, ?_, ?_⟩
  · rw [runOn_openAt, read]
    exact congrArg (·, later) opened
  · rw [runOn_save, there, same, FileTree.write_write written]

/-- **A saved card opens as the same card.** Whatever edits a card file has gone through, the text
that is saved opens as the same files and is saved as the same text again, in a file tree or not.
The image of a card restates the image that the card was made from, and an image of this form is
left as it is. -/
theorem saved_card_reopens :
    (∀ (path text : Text) (reference : FileId) (f g : CardFile),
      ofText path reference text = .ok f → f.Edited g →
      ∃ h, ofText path reference g.text = .ok h ∧
        h.session.card.files = g.session.card.files ∧ h.text = g.text ∧
        ∀ tree later, g.save.runOn tree = (.ok (), later) →
          later.read path = .ok g.text ∧ (openAt path reference).runOn later = (.ok h, later) ∧
          h.save.runOn later = (.ok (), later)) ∧
    (∀ (image : CardImage) (card : Card), image.files.Ascending → Card.ofImage image = .ok card →
      card.toImage.Restates image ∧ Card.ofImage card.toImage = .ok card) ∧
    ∀ image : CardImage, image.Canonical →
      ∃ card, Card.ofImage image = .ok card ∧ card.toImage = image := by
  refine ⟨fun path text reference f g opened edited => ?_, fun image card sorted accepted => ?_,
    fun image canonical => canonical.exists_card⟩
  · obtain ⟨h, again, there, files⟩ := reopens path (edited.reopenable opened)
    have same : h.text = g.text := by
      unfold CardFile.text Card.toImage
      rw [files]
    have here : g.path = path := edited.same_path.trans (path_of_ofText opened)
    exact ⟨h, again, files, same, fun tree later => opens_where_saved again here there same⟩
  · refine ⟨Card.restates_toImage sorted accepted, ?_⟩
    obtain ⟨pairs, -, rfl⟩ := Card.ofImage_eq_ok_iff.1 accepted
    exact Card.ofImage_toImage (Card.tidy_ofImage accepted)

/-- An image that names the reference file twice, once with a sign, and in which records are too
short and digits in lower case. The pointer to an e-mail address is the second byte of a record of
`6F25`, but these records have one byte only. -/
def looseImage : CardImage := ⟨⟨[
  ("+4F30".toList, ⟨2, ["A8".toList]⟩),
  ("4f30".toList, ⟨24, ["a80cc0026f3ac1026f25c4026f11a908c3026f11ca026f50".toList]⟩),
  ("6F11".toList, ⟨15, [[], []]⟩),
  ("6F25".toList, ⟨1, [[], []]⟩),
  ("6F3A".toList, ⟨15, ["41".toList, []]⟩),
  ("6f50".toList, ⟨4, [[], []]⟩)]⟩⟩

/-- The same image as a card writes it. -/
def strictImage : CardImage := ⟨⟨[
  ("4F30".toList, ⟨24, ["A80CC0026F3AC1026F25C4026F11A908C3026F11CA026F50".toList]⟩),
  ("6F11".toList, ⟨15, ["FFFFFFFFFFFFFFFFFFFFFFFFFFFFFF".toList,
    "FFFFFFFFFFFFFFFFFFFFFFFFFFFFFF".toList]⟩),
  ("6F25".toList, ⟨1, ["FF".toList, "FF".toList]⟩),
  ("6F3A".toList, ⟨15, ["41FFFFFFFFFFFFFFFFFFFFFFFFFFFF".toList,
    "FFFFFFFFFFFFFFFFFFFFFFFFFFFFFF".toList]⟩),
  ("6F50".toList, ⟨4, ["FFFFFFFF".toList, "FFFFFFFF".toList]⟩)]⟩⟩

/-- Before the card in this image is saved, an edit fails after the first of its two writes and
another one succeeds. -/
theorem saved_card_reopens_looseImage :
    (∃ f g report g' h later, ofText ['c'] (.ofNat 0x4F30) looseImage.text = .ok f ∧
      f.update 1 [] ['x'] .email = (.error (.phonebook .pointerBeyondRecord), g) ∧
      f.text ≠ g.text ∧ g.update 0 [] ['1'] .anr = (.ok report, g') ∧
      g'.save.runOn {} = (.ok (), later) ∧
      (openAt ['c'] (.ofNat 0x4F30)).runOn later = (.ok h, later) ∧
      h.session.card.files = g'.session.card.files ∧ h.save.runOn later = (.ok (), later)) ∧
    (∃ card, Card.ofImage looseImage = .ok card ∧ card.toImage = strictImage ∧
      strictImage.Restates looseImage ∧ Card.ofImage strictImage = .ok card) ∧
    ∃ card, Card.ofImage strictImage = .ok card ∧ card.toImage = strictImage := by
  obtain ⟨session, image, plain⟩ := saved_card_reopens
  obtain ⟨f, g, report, g', opened, failed, written, done⟩ : ∃ f g report g',
      ofText ['c'] (.ofNat 0x4F30) looseImage.text = .ok f ∧
      f.update 1 [] ['x'] .email = (.error (.phonebook .pointerBeyondRecord), g) ∧
      f.text ≠ g.text ∧ g.update 0 [] ['1'] .anr = (.ok report, g') := by
    have runs : (match ofText ['c'] (.ofNat 0x4F30) looseImage.text with
        | .ok f =>
          match f.update 1 [] ['x'] .email with
          | (.error (.phonebook .pointerBeyondRecord), g) =>
            decide (f.text ≠ g.text) && (g.update 0 [] ['1'] .anr).1.toBool
          | _ => false
        | .error _ => false) = true := by
      decide +kernel
    split at runs
    · next f opened =>
      split at runs
      · next g failed =>
        obtain ⟨written, done⟩ := Bool.and_eq_true_iff.1 runs
        cases second : g.update 0 [] ['1'] .anr with
        | mk outcome g' =>
          rw [second] at done
          cases outcome with
          | error e => cases done
          | ok report => exact ⟨f, g, report, g', opened, failed, of_decide_eq_true written, second⟩
      · cases runs
    · cases runs
  have sorted : looseImage.files.Ascending := by
    unfold SortedMap.Ascending looseImage
    decide
  obtain ⟨card, accepted, shape⟩ : ∃ card, Card.ofImage looseImage = .ok card ∧
      card.toImage = strictImage := by
    have made : (Card.ofImage looseImage).toOption.map Card.toImage = some strictImage := by
      decide +kernel
    cases accepted : Card.ofImage looseImage with
    | error e =>
      rw [accepted] at made
      cases made
    | ok card =>
      rw [accepted] at made
      exact ⟨card, rfl, Option.some.inj made⟩
  obtain ⟨restates, again⟩ := image looseImage card sorted accepted
  rw [shape] at restates again
  refine ⟨?_, ⟨card, accepted, shape, restates, again⟩, plain strictImage restates.canonical⟩
  have edited : f.Edited g' := by
    have first := Edited.update f .start 1 [] ['x'] .email
    rw [failed] at first
    have second := Edited.update g first 0 [] ['1'] .anr
    rwa [done] at second
  obtain ⟨h, -, files, -, saved⟩ := session ['c'] _ _ f g' opened edited
  have here : g'.save.runOn {} = (.ok (), ({} : FileTree).setText [['c']] g'.text) := by
    rw [runOn_save, edited.same_path.trans (path_of_ofText opened)]
    rfl
  obtain ⟨-, reopened, again⟩ := saved _ _ here
  exact ⟨f, g, report, g', h, _, opened, failed, written, done, here, reopened, files, again⟩

end CardFile

end UsimPhonebook
