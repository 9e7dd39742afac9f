import UsimPhonebook.Files.Task

/-! # Reading what was written

A path leads to the same place before and after a text is put there, since every step of the walk
is from a folder and the text is put where no folder stands (`FileTree.locate_setText`). So a file
that was written has the text that was written (`FileTree.read_write`), and to write the same text
again changes nothing (`FileTree.write_write`). Where the working folder was removed, no path that
starts from it can be walked (`FileTree.locate_removeFolder`), so nothing is read or written there.
-/

namespace UsimPhonebook.FileTree

theorem lookup_filter {κ β : Type} [BEq κ] [LawfulBEq κ] {keep : κ × β → Bool} {key : κ}
    (kept : ∀ value, keep (key, value) = true) (items : List (κ × β)) :
    (items.filter keep).lookup key = items.lookup key := by
  induction items with
  | nil => rfl
  | cons item rest ih =>
    obtain ⟨other, value⟩ := item
    by_cases stays : keep (other, value) = true
    · rw [List.filter_cons_of_pos stays, List.lookup_cons, List.lookup_cons, ih]
    · have differ : key ≠ other := by
        rintro rfl
        exact stays (kept value)
      rw [List.filter_cons_of_neg stays, List.lookup_cons, beq_eq_false_iff_ne.2 differ, ih]

variable {tree later : FileTree} {path text : Text} {place other : List Text}

theorem node?_setText_self (h : place ≠ []) :
    (tree.setText place text).node? place = some (.file text) := by
  unfold node? setText
  rw [if_neg h, List.lookup_cons_self]

theorem node?_setText_of_ne (h : other ≠ place) :
    (tree.setText place text).node? other = tree.node? other := by
  unfold node? setText
  dsimp only
  rw [List.lookup_cons, beq_eq_false_iff_ne.2 h, lookup_filter (fun _ => by simpa using h)]

/-- A walk goes the same way when a text is put where no folder stands. -/
theorem walk_setText (free : tree.node? place ≠ some .folder) {start goal : List Text}
    {parts : List Text} (h : tree.walk start parts = .ok goal) :
    (tree.setText place text).walk start parts = .ok goal := by
  induction parts generalizing start with
  | nil => exact h
  | cons component rest ih =>
    have elsewhere (folder : tree.node? start = some .folder) : start ≠ place := by
      rintro rfl
      exact free folder
    unfold walk at h ⊢
    split at h
    · next folder =>
      rw [node?_setText_of_ne (elsewhere folder), folder]
      dsimp only
      split at h
      · cases h
      · next short =>
        rw [if_neg short]
        exact ih h
    · cases h
    · cases h

theorem locate_setText (free : tree.node? place ≠ some .folder) {goal : List Text}
    (h : tree.locate path = .ok goal) : (tree.setText place text).locate path = .ok goal := by
  unfold locate at h ⊢
  by_cases bad : path.contains '\x00' = true
  · rw [if_pos bad] at h
    cases h
  · rw [if_neg bad] at h ⊢
    by_cases long : maxPathSize < byteSize path
    · rw [if_pos long] at h
      cases h
    · rw [if_neg long] at h ⊢
      split at h
      · cases h
      · exact walk_setText free h
      · exact walk_setText free h

theorem write_eq_ok_iff : tree.write path text = .ok later ↔
    ∃ place, tree.locate path = .ok place ∧ tree.node? place ≠ some .folder ∧
      later = tree.setText place text := by
  unfold write
  cases tree.locate path with
  | error e => exact ⟨nofun, fun ⟨_, no, _⟩ => nomatch no⟩
  | ok place =>
    cases node : tree.node? place with
    | none => simp [node, eq_comm]
    | some node' => cases node' <;> simp [node, eq_comm]

theorem setText_setText :
    (tree.setText place text).setText place text = tree.setText place text := by
  simp [setText]

/-- A file has the text that was written. -/
theorem read_write (h : tree.write path text = .ok later) : later.read path = .ok text := by
  obtain ⟨place, there, free, rfl⟩ := write_eq_ok_iff.1 h
  have below : place ≠ [] := by
    rintro rfl
    exact free rfl
  unfold read
  rw [locate_setText free there]
  dsimp only
  unfold textAt
  rw [node?_setText_self below]

/-- To write the same text again changes nothing. -/
theorem write_write (h : tree.write path text = .ok later) : later.write path text = .ok later := by
  obtain ⟨place, there, free, rfl⟩ := write_eq_ok_iff.1 h
  have below : place ≠ [] := by
    rintro rfl
    exact free rfl
  refine write_eq_ok_iff.2 ⟨place, locate_setText free there, ?_, setText_setText.symm⟩
  rw [node?_setText_self below]
  nofun

/-! ## A folder that is gone -/

/-- What is in a folder goes with it. -/
theorem node?_removeFolder {folder : List Text} (inside : folder.isPrefixOf place = true)
    (below : place ≠ []) : (tree.removeFolder folder).node? place = none := by
  unfold node? removeFolder
  rw [if_neg below, List.lookup_eq_none_iff]
  intro item member
  have outside : (!folder.isPrefixOf item.1) = true := (List.mem_filter.1 member).2
  rw [bne_iff_ne]
  rintro rfl
  rw [inside] at outside
  cases outside

theorem splitAt_ne_nil (separator : Char) (t : Text) : splitAt separator t ≠ [] := by
  fun_cases splitAt <;> nofun

/-- A path from a working folder that was removed leads nowhere. -/
theorem locate_removeFolder (below : tree.workingFolder ≠ []) (relative : path.head? ≠ some '/') :
    ∃ e, (tree.removeFolder tree.workingFolder).locate path = .error e := by
  have gone : (tree.removeFolder tree.workingFolder).node? tree.workingFolder = none :=
    node?_removeFolder (by simp) below
  have stuck {parts : List Text} (some : parts ≠ []) :
      (tree.removeFolder tree.workingFolder).walk tree.workingFolder parts = .error .notFound := by
    cases parts with
    | nil => exact absurd rfl some
    | cons component rest =>
      unfold walk
      rw [gone]
  unfold locate
  split
  · exact ⟨_, rfl⟩
  · split
    · exact ⟨_, rfl⟩
    · split
      · exact ⟨_, rfl⟩
      · exact absurd rfl relative
      · exact ⟨_, stuck (splitAt_ne_nil '/' path)⟩

theorem write_removeFolder (text : Text) (below : tree.workingFolder ≠ [])
    (relative : path.head? ≠ some '/') :
    ∃ e, (tree.removeFolder tree.workingFolder).write path text = .error e := by
  obtain ⟨e, nowhere⟩ := locate_removeFolder below relative
  unfold write
  rw [nowhere]
  exact ⟨e, rfl⟩

end UsimPhonebook.FileTree
