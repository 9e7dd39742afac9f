/-! # Sorted maps

A finite map as a list of pairs in ascending order of key, so that going through it is going
through the list.

* `find?_insert_self` and `find?_insert_of_ne` say what an insertion does to the map.
* `insert_ascending` says that it keeps the order, for any order in which two different keys
  compare one way or the other.
* `replace` changes the value of a key that the map has, and no key (`keys_replace`).
-/

namespace UsimPhonebook

/-- Keys and values, in ascending order of key. -/
structure SortedMap (κ β : Type) where
  items : List (κ × β) := []
  deriving DecidableEq, Repr

namespace SortedMap

variable {κ β : Type} [DecidableEq κ] [LT κ] [DecidableLT κ]

def empty : SortedMap κ β := {}

def find? (m : SortedMap κ β) (key : κ) : Option β := m.items.lookup key

def keys (m : SortedMap κ β) : List κ := m.items.map (·.1)

/-- Puts a pair at its place in the list, over an old pair of the same key. -/
def insertItem (key : κ) (value : β) : List (κ × β) → List (κ × β)
  | [] => [(key, value)]
  | item :: rest =>
    if key = item.1 then (key, value) :: rest
    else if key < item.1 then (key, value) :: item :: rest
    else item :: insertItem key value rest

/-- Gives a key a value, in place of the one that it had. -/
def insert (m : SortedMap κ β) (key : κ) (value : β) : SortedMap κ β :=
  ⟨insertItem key value m.items⟩

/-- Changes the value in the first pair of a key. -/
def replaceItem (key : κ) (value : β) : List (κ × β) → List (κ × β)
  | [] => []
  | item :: rest =>
    if key = item.1 then (item.1, value) :: rest else item :: replaceItem key value rest

/-- Gives a key of the map a new value; any other key is left out of the map. -/
def replace (m : SortedMap κ β) (key : κ) (value : β) : SortedMap κ β :=
  ⟨replaceItem key value m.items⟩

/-- Inserts the pairs one after the other; of two with one key the later stays. -/
def ofList (pairs : List (κ × β)) : SortedMap κ β :=
  pairs.foldl (fun m pair => m.insert pair.1 pair.2) empty

omit [LT κ] [DecidableLT κ] in
@[simp] theorem find?_empty (key : κ) : (empty : SortedMap κ β).find? key = none := rfl

theorem lookup_insertItem_self (key : κ) (value : β) (items : List (κ × β)) :
    (insertItem key value items).lookup key = some value := by
  induction items with
  | nil => simp [insertItem]
  | cons item rest ih =>
    unfold insertItem
    split
    · simp
    · split
      · simp
      · rename_i h _
        have : (key == item.1) = false := by simpa using h
        rw [List.lookup_cons, this]
        exact ih

theorem lookup_insertItem_of_ne {key other : κ} (h : other ≠ key) (value : β)
    (items : List (κ × β)) : (insertItem key value items).lookup other = items.lookup other := by
  have hk : (other == key) = false := by simpa using h
  induction items with
  | nil => simp [insertItem, List.lookup_cons, hk]
  | cons item rest ih =>
    unfold insertItem
    split
    · rename_i e
      rw [List.lookup_cons, List.lookup_cons, hk, ← e, hk]
    · split
      · rw [List.lookup_cons, hk]
      · rw [List.lookup_cons, List.lookup_cons, ih]

@[simp] theorem find?_insert_self (m : SortedMap κ β) (key : κ) (value : β) :
    (m.insert key value).find? key = some value :=
  lookup_insertItem_self key value m.items

theorem find?_insert_of_ne (m : SortedMap κ β) {key other : κ} (h : other ≠ key) (value : β) :
    (m.insert key value).find? other = m.find? other :=
  lookup_insertItem_of_ne h value m.items

omit [LT κ] [DecidableLT κ] in
theorem lookup_replaceItem (key other : κ) (value : β) (items : List (κ × β)) :
    (replaceItem key value items).lookup other =
      if other = key then (items.lookup key).map fun _ => value else items.lookup other := by
  induction items with
  | nil => simp [replaceItem]
  | cons item rest ih =>
    obtain ⟨k, v⟩ := item
    unfold replaceItem
    by_cases hk : key = k
    · subst hk
      by_cases ho : other = key
      · subst ho; simp
      · have no : (other == key) = false := by simpa using ho
        simp [List.lookup_cons, ho, no]
    · have no : (key == k) = false := by simpa using hk
      by_cases ho : other = k
      · subst ho
        simp [hk, Ne.symm hk]
      · have no' : (other == k) = false := by simpa using ho
        simp [hk, List.lookup_cons, no, no', ih]

omit [LT κ] [DecidableLT κ] in
theorem find?_replace (m : SortedMap κ β) (key other : κ) (value : β) :
    (m.replace key value).find? other =
      if other = key then (m.find? key).map fun _ => value else m.find? other :=
  lookup_replaceItem key other value m.items

omit [LT κ] [DecidableLT κ] in
theorem replace_eq_self {m : SortedMap κ β} {key : κ} {value : β} (h : m.find? key = some value) :
    m.replace key value = m := by
  obtain ⟨items⟩ := m
  simp only [replace, find?, mk.injEq] at h ⊢
  induction items with
  | nil => rfl
  | cons item rest ih =>
    obtain ⟨k, v⟩ := item
    by_cases hk : key = k
    · simp_all [replaceItem]
    · have : (key == k) = false := by simpa using hk
      simp_all [replaceItem, List.lookup_cons]

omit [LT κ] [DecidableLT κ] in
@[simp] theorem keys_replace (m : SortedMap κ β) (key : κ) (value : β) :
    (m.replace key value).keys = m.keys := by
  obtain ⟨items⟩ := m
  simp only [keys, replace]
  induction items with
  | nil => rfl
  | cons item rest ih => unfold replaceItem; split <;> simp_all

/-- Ascending order of key: every key is less than each later one. -/
def Ascending (m : SortedMap κ β) : Prop := m.items.Pairwise fun a b => a.1 < b.1

omit [DecidableEq κ] [DecidableLT κ] in
theorem empty_ascending : (empty : SortedMap κ β).Ascending := List.Pairwise.nil

theorem mem_insertItem {key : κ} {value : β} {items : List (κ × β)} {p : κ × β}
    (h : p ∈ insertItem key value items) : p = (key, value) ∨ p ∈ items := by
  induction items with
  | nil => simpa [insertItem] using h
  | cons item rest ih =>
    unfold insertItem at h
    split at h
    · rcases List.mem_cons.1 h with rfl | h
      · exact .inl rfl
      · exact .inr (List.mem_cons_of_mem _ h)
    · split at h
      · rcases List.mem_cons.1 h with rfl | h
        · exact .inl rfl
        · exact .inr h
      · rcases List.mem_cons.1 h with rfl | h
        · exact .inr List.mem_cons_self
        · exact (ih h).imp_right (List.mem_cons_of_mem _)

theorem insert_ascending (total : ∀ a b : κ, a ≠ b → ¬ a < b → b < a)
    (trans : ∀ a b c : κ, a < b → b < c → a < c) {m : SortedMap κ β} (h : m.Ascending)
    (key : κ) (value : β) : (m.insert key value).Ascending := by
  obtain ⟨items⟩ := m
  simp only [Ascending, insert] at h ⊢
  induction items with
  | nil => exact List.pairwise_singleton _ _
  | cons item rest ih =>
    obtain ⟨front, back⟩ := List.pairwise_cons.1 h
    unfold insertItem
    split
    · rename_i e
      exact List.pairwise_cons.2 ⟨fun p hp => e ▸ front p hp, back⟩
    · split
      · rename_i lt
        refine List.pairwise_cons.2 ⟨fun p hp => ?_, h⟩
        rcases List.mem_cons.1 hp with rfl | hp
        · exact lt
        · exact trans _ _ _ lt (front p hp)
      · rename_i ne nlt
        refine List.pairwise_cons.2 ⟨fun p hp => ?_, ih back⟩
        rcases mem_insertItem hp with rfl | hp
        · exact total _ _ ne nlt
        · exact front p hp

end SortedMap

end UsimPhonebook
