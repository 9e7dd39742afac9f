import UsimPhonebook.Text.Numeral

/-! # Numerals that read back

A number in decimal digits reads back as the number (`readDigits?_decimal`), and a word in four
hexadecimal digits as the word (`Hex.readWord?_word`). Words in ascending order are texts in
ascending order (`Hex.word_lt_word`), since the upper-case digits themselves stand in that order.
-/

namespace UsimPhonebook

/-! ## Decimal digits -/

theorem decimal_of_lt {n : Nat} (h : n < 10) : decimal n = [n.digitChar] :=
  Nat.toDigits_of_lt_base h

theorem decimal_of_le {n : Nat} (h : 10 ≤ n) :
    decimal n = decimal (n / 10) ++ [(n % 10).digitChar] :=
  Nat.toDigits_of_base_le (by decide) h

theorem digitValue?_digitChar {n : Nat} (h : n < 10) : digitValue? n.digitChar = some n := by
  have table : ∀ k : Fin 10, digitValue? (Nat.digitChar k.val) = some k.val := by decide
  exact table ⟨n, h⟩

theorem readDigits?_append {base acc n : Nat} {t : Text} (h : readDigits? base acc t = some n)
    (rest : Text) : readDigits? base acc (t ++ rest) = readDigits? base n rest := by
  induction t generalizing acc with
  | nil =>
    cases h
    rfl
  | cons c t ih =>
    rw [readDigits?] at h
    rw [List.cons_append, readDigits?]
    cases value : digitValue? c with
    | none =>
      rw [value] at h
      cases h
    | some d =>
      rw [value] at h
      dsimp only at h ⊢
      by_cases small : d < base
      · rw [if_pos small] at h ⊢
        exact ih h
      · rw [if_neg small] at h
        cases h

theorem readDigits?_cons {base acc d : Nat} {c : Char} (value : digitValue? c = some d)
    (small : d < base) (rest : Text) :
    readDigits? base acc (c :: rest) = readDigits? base (acc * base + d) rest := by
  rw [readDigits?, value]
  exact if_pos small

theorem readDigits?_decimal (n : Nat) : readDigits? 10 0 (decimal n) = some n := by
  induction n using Nat.strongRecOn with
  | ind n ih =>
    by_cases small : n < 10
    · rw [decimal_of_lt small, readDigits?_cons (digitValue?_digitChar small) small, Nat.zero_mul,
        Nat.zero_add]
      rfl
    · have last : n % 10 < 10 := Nat.mod_lt n (by decide)
      rw [decimal_of_le (by omega), readDigits?_append (ih (n / 10) (by omega)),
        readDigits?_cons (digitValue?_digitChar last) last]
      exact congrArg some (by omega)

/-! ## Hexadecimal digits -/

namespace Hex

theorem digit_facts {n : Nat} (h : n < 16) :
    UsimPhonebook.digitValue? (digit n) = some n ∧ digit n ≠ '+' := by
  have table : ∀ k : Fin 16,
      UsimPhonebook.digitValue? (digit k.val) = some k.val ∧ digit k.val ≠ '+' := by decide
  exact table ⟨n, h⟩

theorem digit_lt_digit {m n : Nat} (lt : m < n) (h : n < 16) : digit m < digit n := by
  have table : ∀ j k : Fin 16, j < k → digit j.val < digit k.val := by decide
  exact table ⟨m, Nat.lt_trans lt h⟩ ⟨n, h⟩ lt

theorem readNatural?_of_ne {base : Nat} {c : Char} (h : c ≠ '+') (rest : Text) :
    readNatural? base (c :: rest) = readDigits? base 0 (c :: rest) := by
  unfold readNatural?
  split <;> simp_all

theorem readWord?_word (w : UInt16) : readWord? (word w) = some w := by
  have bound : w.toNat < 65536 := w.toNat_lt
  obtain ⟨value₁, noSign⟩ := digit_facts (n := w.toNat / 4096) (by omega)
  obtain ⟨value₂, -⟩ := digit_facts (n := w.toNat / 256 % 16) (by omega)
  obtain ⟨value₃, -⟩ := digit_facts (n := w.toNat / 16 % 16) (by omega)
  obtain ⟨value₄, -⟩ := digit_facts (n := w.toNat % 16) (by omega)
  have number : readNatural? 16 (word w) = some w.toNat := by
    unfold word
    rw [readNatural?_of_ne noSign, readDigits?_cons value₁ (by omega),
      readDigits?_cons value₂ (by omega), readDigits?_cons value₃ (by omega),
      readDigits?_cons value₄ (by omega)]
    exact congrArg some (by omega)
  unfold readWord?
  rw [number]
  dsimp only
  rw [if_pos bound, UInt16.ofNat_toNat]

/-- The order of words is the order of their texts: the first digits that differ decide. -/
theorem word_lt_word {v w : UInt16} (lt : v < w) : word v < word w := by
  have bound : w.toNat < 65536 := w.toNat_lt
  have lt : v.toNat < w.toNat := lt
  simp only [word, List.cons_lt_cons_iff]
  by_cases same₁ : v.toNat / 4096 = w.toNat / 4096
  · refine .inr ⟨by rw [same₁], ?_⟩
    by_cases same₂ : v.toNat / 256 % 16 = w.toNat / 256 % 16
    · refine .inr ⟨by rw [same₂], ?_⟩
      by_cases same₃ : v.toNat / 16 % 16 = w.toNat / 16 % 16
      · exact .inr ⟨by rw [same₃], .inl (digit_lt_digit (by omega) (by omega))⟩
      · exact .inl (digit_lt_digit (by omega) (by omega))
    · exact .inl (digit_lt_digit (by omega) (by omega))
  · exact .inl (digit_lt_digit (by omega) (by omega))

end Hex

end UsimPhonebook
