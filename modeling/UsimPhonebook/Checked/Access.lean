import UsimPhonebook.Bytes

/-! # Accesses that fail

To take a slice out of a list, to replace an item or a run of items, or to subtract is an access: it
fails where the list is too short or the difference is below zero. Each has the lemma that says when
it does not. To take one item is `items[i]?`.

A computation that is made of accesses has no result at all if one of them fails, whatever else it
could have said about its input.
-/

namespace UsimPhonebook.Checked

variable {α : Type}

def sub? (a b : Nat) : Option Nat := if b ≤ a then some (a - b) else none

/-- A product, as a 64-bit machine word. -/
def mul? (a b : Nat) : Option Nat := if a * b < wordLimit then some (a * b) else none

def slice? (items : List α) (start stop : Nat) : Option (List α) :=
  if start ≤ stop ∧ stop ≤ items.length then some ((items.drop start).take (stop - start)) else none

def set? (items : List α) (index : Nat) (item : α) : Option (List α) :=
  if index < items.length then some (items.set index item) else none

/-- A run of items over those from position `start` on. -/
def copy? (items : List α) (start : Nat) (run : List α) : Option (List α) :=
  if start + run.length ≤ items.length then
    some (items.take start ++ run ++ items.drop (start + run.length))
  else none

/-- A computation goes on with the value of an access that does not fail. -/
theorem bind_of_eq_some {β : Type} {x : Option α} {a : α} (there : x = some a)
    (f : α → Option β) : (x >>= f) = f a := by
  rw [there]
  rfl

/-- The item at a position is the first of those from there on. -/
theorem of_drop_eq_cons {items rest : List α} {position : Nat} {a : α}
    (ahead : items.drop position = a :: rest) :
    items[position]? = some a ∧ position < items.length ∧ items.drop (position + 1) = rest := by
  have first : items[position]? = some a := by rw [← List.head?_drop, ahead, List.head?_cons]
  have behind : items.drop (position + 1) = rest := by
    rw [← List.tail_drop, ahead, List.tail_cons]
  exact ⟨first, (List.getElem?_eq_some_iff.1 first).1, behind⟩

theorem of_drop_eq_nil {items : List α} {position : Nat} (ahead : items.drop position = []) :
    items[position]? = none := by
  rw [← List.head?_drop, ahead, List.head?_nil]

theorem sub?_of_le {a b : Nat} (h : b ≤ a) : sub? a b = some (a - b) := if_pos h

theorem mul?_of_lt {a b : Nat} (h : a * b < wordLimit) : mul? a b = some (a * b) := if_pos h

theorem slice?_of_le {items : List α} {start stop : Nat} (h : start ≤ stop)
    (h' : stop ≤ items.length) :
    slice? items start stop = some ((items.drop start).take (stop - start)) := if_pos ⟨h, h'⟩

theorem slice?_zero {items : List α} {stop : Nat} (h : stop ≤ items.length) :
    slice? items 0 stop = some (items.take stop) := slice?_of_le (Nat.zero_le _) h

/-- What lies from a position of the list on. -/
theorem slice?_length {items : List α} {start : Nat} (h : start ≤ items.length) :
    slice? items start items.length = some (items.drop start) := by
  rw [slice?_of_le h (Nat.le_refl _), List.take_of_length_le (by simp)]

theorem slice?_add {items ahead : List α} {start : Nat} (h : start ≤ items.length)
    (behind : items.drop start = ahead) (n : Nat) :
    slice? items start (start + n) = if n ≤ ahead.length then some (ahead.take n) else none := by
  rw [← behind, List.length_drop, slice?, Nat.add_sub_cancel_left]
  by_cases long : n ≤ items.length - start
  · rw [if_pos long, if_pos ⟨by omega, by omega⟩]
  · rw [if_neg long, if_neg (by omega)]

theorem set?_of_lt {items : List α} {index : Nat} (h : index < items.length) (item : α) :
    set? items index item = some (items.set index item) := if_pos h

theorem set?_self {items : List α} {index : Nat} {item : α} (h : items[index]? = some item) :
    set? items index item = some items := by
  obtain ⟨within, rfl⟩ := List.getElem?_eq_some_iff.1 h
  rw [set?_of_lt within, List.set_getElem_self]

theorem set?_last {items : List α} {index : Nat} (h : index = items.length) (old new : α) :
    set? (items ++ [old]) index new = some (items ++ [new]) := by
  subst h
  rw [set?_of_lt (by simp), List.set_append_right _ _ (Nat.le_refl _), Nat.sub_self]
  rfl

theorem copy?_of_le {items run : List α} {start : Nat} (h : start + run.length ≤ items.length) :
    copy? items start run = some (items.take start ++ run ++ items.drop (start + run.length)) :=
  if_pos h

end UsimPhonebook.Checked
