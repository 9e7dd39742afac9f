import UsimPhonebook.Proofs.Traversal
import UsimPhonebook.SortedMap

/-! # Maps made from pairs

A map that is made by inserting pairs has the later one of two with the same key
(`find?_ofList`). It is in ascending order (`ascending_ofList`), and pairs that stand in that order
already are taken over as they are (`ofList_items`).
-/

namespace UsimPhonebook.SortedMap

variable {κ β : Type} [DecidableEq κ] [LT κ] [DecidableLT κ] {m : SortedMap κ β}

/-- The value of a pair, if it has the key. -/
def valueOf? (key : κ) (pair : κ × β) : Option β := if key = pair.1 then some pair.2 else none

theorem find?_insert (m : SortedMap κ β) (key other : κ) (value : β) :
    (m.insert other value).find? key = (valueOf? key (other, value)).or (m.find? key) := by
  unfold valueOf?
  by_cases same : key = other
  · subst same
    rw [find?_insert_self, if_pos rfl]
    rfl
  · rw [find?_insert_of_ne m same, if_neg same]
    rfl

theorem find?_ofList (pairs : List (κ × β)) (key : κ) :
    (ofList pairs).find? key = pairs.reverse.findSome? (valueOf? key) := by
  have kept := foldl_override (find? · key) (fun m pair => find?_insert m key pair.1 pair.2)
    (empty : SortedMap κ β) pairs
  rw [find?_empty, Option.or_none] at kept
  exact kept

theorem mem_foldl_insert {pairs : List (κ × β)} {p : κ × β}
    (h : p ∈ (pairs.foldl (fun m q => m.insert q.1 q.2) m).items) : p ∈ pairs ∨ p ∈ m.items := by
  induction pairs generalizing m with
  | nil => exact .inr h
  | cons q rest ih =>
    rcases ih h with later | earlier
    · exact .inl (List.mem_cons_of_mem q later)
    · rcases mem_insertItem earlier with rfl | before
      · exact .inl List.mem_cons_self
      · exact .inr before

theorem mem_ofList {pairs : List (κ × β)} {p : κ × β} (h : p ∈ (ofList pairs).items) :
    p ∈ pairs := by
  rcases mem_foldl_insert h with there | nowhere
  · exact there
  · cases nowhere

theorem ascending_ofList (total : ∀ a b : κ, a ≠ b → ¬ a < b → b < a)
    (trans : ∀ a b c : κ, a < b → b < c → a < c) (pairs : List (κ × β)) :
    (ofList pairs).Ascending :=
  List.foldlRecOn pairs _ empty_ascending fun _ h p _ => insert_ascending total trans h p.1 p.2

omit [LT κ] [DecidableLT κ] in
/-- Other keys in place of the keys, and other values in place of the values. -/
theorem find?_map {κ' γ : Type} [DecidableEq κ'] {f : κ → κ'} (injective : ∀ a b, f a = f b → a = b)
    (g : β → γ) (m : SortedMap κ β) (key : κ) :
    (⟨m.items.map fun p => (f p.1, g p.2)⟩ : SortedMap κ' γ).find? (f key) =
      (m.find? key).map g := by
  obtain ⟨items⟩ := m
  unfold find?
  dsimp only
  induction items with
  | nil => rfl
  | cons p rest ih =>
    rw [List.map_cons, List.lookup_cons, List.lookup_cons, ih]
    by_cases same : key = p.1
    · subst same
      simp
    · have differ : f key ≠ f p.1 := fun h => same (injective _ _ h)
      rw [beq_eq_false_iff_ne.2 same, beq_eq_false_iff_ne.2 differ]

omit [LT κ] [DecidableLT κ] in
theorem find?_eq_none_iff {key : κ} : m.find? key = none ↔ key ∉ m.keys := by
  unfold find? keys
  rw [List.lookup_eq_none_iff, List.mem_map]
  constructor
  · rintro h ⟨p, member, rfl⟩
    simpa using h p member
  · intro h p member
    rw [bne_iff_ne]
    rintro rfl
    exact h ⟨p, member, rfl⟩

omit [LT κ] [DecidableLT κ] in
theorem mem_replaceItem {key : κ} {value : β} {items : List (κ × β)} {p : κ × β}
    (h : p ∈ replaceItem key value items) : p = (key, value) ∨ p ∈ items := by
  induction items with
  | nil => cases h
  | cons item rest ih =>
    unfold replaceItem at h
    split at h
    · next same =>
      rcases List.mem_cons.1 h with rfl | h
      · exact .inl (Prod.ext same.symm rfl)
      · exact .inr (List.mem_cons_of_mem item h)
    · rcases List.mem_cons.1 h with rfl | h
      · exact .inr List.mem_cons_self
      · exact (ih h).imp_right (List.mem_cons_of_mem item)

omit [DecidableEq κ] [DecidableLT κ] in
theorem ascending_iff : m.Ascending ↔ m.keys.Pairwise (· < ·) := List.pairwise_map.symm

omit [DecidableLT κ] in
theorem Ascending.replace (h : m.Ascending) (key : κ) (value : β) :
    (m.replace key value).Ascending := by
  rw [ascending_iff, keys_replace, ← ascending_iff]
  exact h

section

variable (asymm : ∀ a b : κ, a < b → ¬ b < a)

include asymm

theorem insertItem_of_lt {key : κ} {value : β} {items : List (κ × β)}
    (last : ∀ p ∈ items, p.1 < key) : insertItem key value items = items ++ [(key, value)] := by
  induction items with
  | nil => rfl
  | cons item rest ih =>
    obtain ⟨first, others⟩ := List.forall_mem_cons.1 last
    have ne : key ≠ item.1 := by
      rintro rfl
      exact asymm _ _ first first
    rw [insertItem, if_neg ne, if_neg (asymm _ _ first), ih others]
    rfl

theorem ofList_items (h : m.Ascending) : ofList m.items = m := by
  obtain ⟨items⟩ := m
  have step (front rest : List (κ × β)) (h : (front ++ rest).Pairwise fun a b => a.1 < b.1) :
      rest.foldl (fun m p => m.insert p.1 p.2) (⟨front⟩ : SortedMap κ β) = ⟨front ++ rest⟩ := by
    induction rest generalizing front with
    | nil => rw [List.append_nil]; rfl
    | cons p rest ih =>
      obtain ⟨-, -, cross⟩ := List.pairwise_append.1 h
      have put : (⟨front⟩ : SortedMap κ β).insert p.1 p.2 = ⟨front ++ [p]⟩ :=
        congrArg mk (insertItem_of_lt asymm fun q mem => cross q mem p List.mem_cons_self)
      rw [List.foldl_cons, put, ih (front ++ [p]) (by simpa using h), List.append_assoc]
      rfl
  exact step [] items h

end

end UsimPhonebook.SortedMap
