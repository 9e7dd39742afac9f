import UsimPhonebook.Proofs.Traversal
import UsimPhonebook.Text.Units

/-! # Text and its 16-bit units

The units of a text read back as the text (`Units.toText?_ofText`): a character of one unit is no
surrogate, and one of two units is a high surrogate followed by a low one.
-/

namespace UsimPhonebook.Units

variable {c : Char} {rest : List UInt16}

/-- A character is no surrogate. -/
theorem toNat_cases (c : Char) : c.toNat < 0xD800 ∨ 0xDFFF < c.toNat ∧ c.toNat < 0x110000 := c.valid

theorem chars_cons_of_not_isHigh {u : UInt16} (low : isHigh u = false) (rest : List UInt16) :
    chars (u :: rest) = single u :: chars rest := by
  cases rest with
  | nil => rfl
  | cons v rest =>
    rw [chars, low]
    rfl

theorem chars_append_of_lt (small : c.toNat < 0x10000) :
    chars (ofChar c ++ rest) = some c :: chars rest := by
  have value : (UInt16.ofNat c.toNat).toNat = c.toNat := by
    rw [UInt16.toNat_ofNat']
    exact Nat.mod_eq_of_lt small
  have lone : isSurrogate (UInt16.ofNat c.toNat) = false := by
    have := toNat_cases c
    simp only [isSurrogate, value, Bool.and_eq_false_iff, decide_eq_false_iff_not]
    omega
  have low : isHigh (UInt16.ofNat c.toNat) = false := by
    have := toNat_cases c
    simp only [isHigh, value, Bool.and_eq_false_iff, decide_eq_false_iff_not]
    omega
  have itself : single (UInt16.ofNat c.toNat) = some c := by
    unfold single
    rw [lone, value, Char.ofNat_toNat]
    rfl
  unfold ofChar
  rw [if_pos small, List.singleton_append, chars_cons_of_not_isHigh low, itself]

theorem chars_append_of_ge (large : ¬ c.toNat < 0x10000) :
    chars (ofChar c ++ rest) = some c :: chars rest := by
  have bound := toNat_cases c
  have hi : (UInt16.ofNat (0xD800 + (c.toNat - 0x10000) / 0x400)).toNat =
      0xD800 + (c.toNat - 0x10000) / 0x400 := by
    rw [UInt16.toNat_ofNat']
    omega
  have lo : (UInt16.ofNat (0xDC00 + (c.toNat - 0x10000) % 0x400)).toNat =
      0xDC00 + (c.toNat - 0x10000) % 0x400 := by
    rw [UInt16.toNat_ofNat']
    omega
  have high : isHigh (UInt16.ofNat (0xD800 + (c.toNat - 0x10000) / 0x400)) = true := by
    simp only [isHigh, hi, Bool.and_eq_true, decide_eq_true_eq]
    omega
  have low : isLow (UInt16.ofNat (0xDC00 + (c.toNat - 0x10000) % 0x400)) = true := by
    simp only [isLow, lo, Bool.and_eq_true, decide_eq_true_eq]
    omega
  have itself : paired (UInt16.ofNat (0xD800 + (c.toNat - 0x10000) / 0x400))
      (UInt16.ofNat (0xDC00 + (c.toNat - 0x10000) % 0x400)) = c := by
    have code : 0x10000 + (0xD800 + (c.toNat - 0x10000) / 0x400 - 0xD800) * 0x400 +
        (0xDC00 + (c.toNat - 0x10000) % 0x400 - 0xDC00) = c.toNat := by omega
    unfold paired
    rw [hi, lo, code, Char.ofNat_toNat]
  unfold ofChar
  rw [if_neg large, List.cons_append, List.singleton_append, chars, high, low, itself]
  rfl

theorem chars_ofText (t : Text) : chars (ofText t) = t.map some := by
  induction t with
  | nil => rfl
  | cons c rest ih =>
    show chars (ofChar c ++ ofText rest) = _
    by_cases small : c.toNat < 0x10000
    · rw [chars_append_of_lt small, ih, List.map_cons]
    · rw [chars_append_of_ge small, ih, List.map_cons]

theorem toText?_ofText (t : Text) : toText? (ofText t) = some t := by
  unfold toText?
  rw [mapM_eq_some_iff, chars_ofText, List.map_id]

end UsimPhonebook.Units
