import UsimPhonebook.Dialling
import UsimPhonebook.Bytes
import UsimPhonebook.Proofs.Traversal

/-! # Numbers as they are read back

* `Dialling.digits_pack` : packed digit values read as their characters, whether there is an even
  or an odd number of them
* `Dialling.encode?_isSome_iff`, `Dialling.calledParty_of_encode?` : which numbers have bytes, and
  what these read as
* `Dialling.mem_digits`, `Dialling.length_digits` : what can be read from any bytes
-/

namespace UsimPhonebook.Dialling

/-! ## One digit -/

theorem symbol?_of_digit? {c : Char} {d : Nat} (h : digit? c = some d) : symbol? d = some c := by
  obtain ⟨inside, here, -⟩ := List.idxOf?_eq_some_iff.1 h
  exact List.getElem?_eq_some_iff.2 ⟨inside, here⟩

theorem digit?_lt {c : Char} {d : Nat} (h : digit? c = some d) : d < 14 := by
  obtain ⟨inside, -, -⟩ := List.idxOf?_eq_some_iff.1 h
  exact inside

theorem digit?_isSome_iff (c : Char) : (digit? c).isSome ↔ c ∈ symbols := by
  unfold digit?
  rw [List.isSome_idxOf?]

/-! ## Two to a byte -/

theorem length_pack (values : List Nat) : (pack values).length = (values.length + 1) / 2 := by
  fun_induction pack values with
  | case1 => rfl
  | case2 lo => simp
  | case3 lo hi rest ih =>
    simp only [List.length_cons, ih]
    omega

/-- The halves of packed values are the values, and after an odd number of them the end. -/
theorem takeWhile_halves_pack {values : List Nat} (small : ∀ d ∈ values, d < endDigit) :
    (halves (pack values)).takeWhile (· != endDigit) = values := by
  have low {hi lo : Nat} (h : lo < endDigit) : (UInt8.ofNat (hi * 16 + lo)).toNat % 16 = lo := by
    unfold endDigit at h
    rw [UInt8.toNat_ofNat']
    omega
  have high {hi lo : Nat} (h : lo < endDigit) (h' : hi ≤ endDigit) :
      (UInt8.ofNat (hi * 16 + lo)).toNat / 16 = hi := by
    unfold endDigit at h h'
    rw [Bytes.toNat_ofNat (by omega)]
    omega
  have goes {d : Nat} (h : d < endDigit) : (d != endDigit) = true := by
    simpa using Nat.ne_of_lt h
  fun_induction pack values with
  | case1 => rfl
  | case2 lo =>
    have first := small lo List.mem_cons_self
    unfold halves
    rw [List.flatMap_cons, List.flatMap_nil, low first, high first (Nat.le_refl _)]
    simp [goes first]
  | case3 lo hi rest ih =>
    have first := small lo List.mem_cons_self
    have second := small hi (by simp)
    have others := ih fun d mem => small d (by simp [mem])
    unfold halves at others ⊢
    rw [List.flatMap_cons, low first, high first (Nat.le_of_lt second), List.cons_append,
      List.cons_append, List.nil_append, List.takeWhile_cons, List.takeWhile_cons,
      if_pos (goes first), if_pos (goes second), others]

/-- The digits of a number are read as they were packed. -/
theorem digits_pack {cs : Text} {values : List Nat} (h : cs.mapM digit? = some values) :
    digits (pack values) = cs := by
  have known := mapM_eq_some_iff.1 h
  have small (d : Nat) (mem : d ∈ values) : d < endDigit := by
    obtain ⟨c, -, digit⟩ := exists_of_mem_mapM h mem
    exact Nat.lt_succ_of_lt (digit?_lt digit)
  unfold digits
  rw [takeWhile_halves_pack small]
  clear small h
  induction cs generalizing values with
  | nil =>
    cases values with
    | nil => rfl
    | cons d rest => cases known
  | cons c cs ih =>
    cases values with
    | nil => cases known
    | cons d rest =>
      obtain ⟨first, others⟩ := List.cons.inj known
      rw [List.filterMap_cons, symbol?_of_digit? first, ih others]

/-! ## Numbers -/

theorem encode?_eq_some_iff {number : Text} {bytes : Bytes} : encode? number = some bytes ↔
    ∃ values, (number.filter (· != '+')).mapM digit? = some values ∧ values ≠ [] ∧
      bytes = (if number.contains '+' then internationalType else unknownType) :: pack values := by
  unfold encode?
  cases known : (number.filter (· != '+')).mapM digit? with
  | none => simp
  | some values =>
    cases values with
    | nil => simp
    | cons d rest => simp [eq_comm]

/-- A number has bytes if it has digits and every other character of it is a `+`. -/
theorem encode?_isSome_iff (number : Text) : (encode? number).isSome ↔
    (∀ c ∈ number, c ≠ '+' → c ∈ symbols) ∧ number.filter (· != '+') ≠ [] := by
  have all : (∀ c ∈ number, c ≠ '+' → c ∈ symbols) ↔
      ((number.filter (· != '+')).mapM digit?).isSome := by
    rw [isSome_mapM_iff]
    simp only [List.mem_filter, digit?_isSome_iff, bne_iff_ne, and_imp]
  rw [all, Option.isSome_iff_exists, Option.isSome_iff_exists]
  simp only [encode?_eq_some_iff]
  have filled {values : List Nat} (known : (number.filter (· != '+')).mapM digit? = some values) :
      values = [] ↔ number.filter (· != '+') = [] := by
    rw [← List.length_eq_zero_iff, length_of_mapM known, List.length_eq_zero_iff]
  constructor
  · rintro ⟨_, values, known, some, -⟩
    exact ⟨⟨values, known⟩, fun none => some ((filled known).2 none)⟩
  · rintro ⟨⟨values, known⟩, some⟩
    exact ⟨_, values, known, fun none => some ((filled known).1 none), rfl⟩

theorem length_of_encode? {number : Text} {bytes : Bytes} (h : encode? number = some bytes) :
    bytes.length = 1 + ((number.filter (· != '+')).length + 1) / 2 := by
  obtain ⟨values, known, -, rfl⟩ := encode?_eq_some_iff.1 h
  rw [List.length_cons, length_pack, length_of_mapM known, Nat.add_comm]

/-- The bytes of a number read as its digits, and as international if it has a `+` anywhere. -/
theorem calledParty_of_encode? {number : Text} {bytes : Bytes} (h : encode? number = some bytes) :
    calledParty bytes =
      (if number.contains '+' then ['+'] else []) ++ number.filter (· != '+') := by
  obtain ⟨values, known, -, rfl⟩ := encode?_eq_some_iff.1 h
  have international : isInternational internationalType = true := by decide
  have unknown : isInternational unknownType = false := by decide
  rw [calledParty, digits_pack known]
  by_cases plus : number.contains '+' = true
  · rw [if_pos plus, if_pos plus, if_pos international]
  · rw [if_neg plus, if_neg plus, unknown, if_neg Bool.false_ne_true]

/-! ## Any bytes -/

theorem mem_digits {src : Bytes} {c : Char} (h : c ∈ digits src) : c ∈ symbols := by
  obtain ⟨d, -, known⟩ := List.mem_filterMap.1 h
  exact List.mem_of_getElem? known

theorem length_digits (src : Bytes) : (digits src).length ≤ 2 * src.length := by
  have two : (halves src).length = 2 * src.length := by
    unfold halves
    induction src with
    | nil => rfl
    | cons b rest ih =>
      rw [List.flatMap_cons, List.length_append, ih]
      simp only [List.length_cons, List.length_nil]
      omega
  calc (digits src).length
      ≤ ((halves src).takeWhile (· != endDigit)).length := List.length_filterMap_le ..
    _ ≤ (halves src).length := (List.takeWhile_sublist _).length_le
    _ = 2 * src.length := two

end UsimPhonebook.Dialling
