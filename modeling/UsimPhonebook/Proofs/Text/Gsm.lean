import Mathlib.Algebra.GroupWithZero.Nat
import UsimPhonebook.Bytes
import UsimPhonebook.Text.Alpha

/-! # GSM text as it is read back

The alphabet is the default table and the extension table, which have no character in common
(`Gsm.notMem_defaultTable`). A character of it takes `Gsm.width` bytes and is read from them as
itself; any other character is read as a blank (`Gsm.shown`).

* `Gsm.length_encode` : the bytes of a text are as many as its widths
* `Gsm.decode_encode_append` : they are read as the shown text, and then what follows them is read
* `Gsm.alpha_decode_encode_append` : the reader of alpha fields takes them for GSM text
* `Gsm.inAlphabet_of_mem_decode`, `Gsm.size_decode_le` : whatever bytes are read, the text is one
  of the alphabet and takes no more bytes than they are
-/

namespace UsimPhonebook.Gsm

/-! ## The alphabet -/

/-- A character of the extension table, which takes an escape. -/
def IsExtended (c : Char) : Prop := c ∈ extensionTable.map (·.2)

def InAlphabet (c : Char) : Prop := c ∈ lowTable ∨ c ∈ highTable ∨ IsExtended c

instance (c : Char) : Decidable (IsExtended c) :=
  inferInstanceAs (Decidable (c ∈ extensionTable.map (·.2)))

instance (c : Char) : Decidable (InAlphabet c) :=
  inferInstanceAs (Decidable (_ ∨ _ ∨ _))

def width (c : Char) : Nat := if IsExtended c then 2 else 1

def size (t : Text) : Nat := (t.map width).sum

/-- What a character is read as: a blank stands for one outside the alphabet. -/
def shown (c : Char) : Char := if InAlphabet c then c else ' '

theorem mem_defaultTable_iff (c : Char) : some c ∈ defaultTable ↔ c ∈ lowTable ∨ c ∈ highTable := by
  simp [defaultTable]

theorem notMem_defaultTable {c : Char} (h : IsExtended c) : some c ∉ defaultTable := by
  obtain ⟨entry, mem, rfl⟩ := List.mem_map.1 h
  have apart : ∀ entry ∈ extensionTable, some entry.2 ∉ defaultTable := by decide +kernel
  exact apart entry mem

/-- A code of the default alphabet names a character that takes one byte, or a blank, which does
too. -/
theorem defaultChar_plain (code : UInt8) :
    InAlphabet (defaultChar code) ∧ ¬ IsExtended (defaultChar code) := by
  unfold defaultChar
  cases named : defaultTable[code.toNat]?.join with
  | none =>
    show InAlphabet ' ' ∧ ¬ IsExtended ' '
    decide
  | some c =>
    have mem : some c ∈ defaultTable := List.mem_of_getElem? (Option.join_eq_some_iff.1 named)
    refine ⟨?_, fun extended => notMem_defaultTable extended mem⟩
    rcases (mem_defaultTable_iff c).1 mem with low | high
    · exact .inl low
    · exact .inr (.inl high)

theorem width_defaultChar (code : UInt8) : width (defaultChar code) = 1 :=
  if_neg (defaultChar_plain code).2

/-- What follows an escape names a character of either table. -/
theorem inAlphabet_escapedChar (code : UInt8) : InAlphabet (escapedChar code) := by
  unfold escapedChar
  cases named : extensionChar? code with
  | none => exact (defaultChar_plain code).1
  | some c =>
    have mem : (code, c) ∈ extensionTable := by
      obtain ⟨before, after, split, -⟩ := List.lookup_eq_some_iff.1 named
      rw [split]
      simp
    exact .inr (.inr (List.mem_map_of_mem mem))

/-- The code of the escape is the one that names no character. -/
theorem code_of_idxOf? {c : Char} {code : Nat} (h : defaultTable.idxOf? (some c) = some code) :
    code < 128 ∧ code ≠ 27 ∧ defaultTable[code]? = some (some c) := by
  obtain ⟨inside, here, -⟩ := List.idxOf?_eq_some_iff.1 h
  refine ⟨inside, ?_, List.getElem?_eq_some_iff.2 ⟨inside, here⟩⟩
  rintro rfl
  simp [defaultTable, lowTable, highTable] at here

/-- A character takes one byte below `0x80`, or an escape and a code of the extension table, or it
is not of the alphabet and a blank takes its place. -/
theorem encodeChar_cases (c : Char) :
    (∃ b : UInt8, encodeChar? c = some [b] ∧ ¬ IsExtended c ∧ InAlphabet c ∧ b < 0x80 ∧
      b ≠ escape ∧ defaultChar b = c) ∨
    (∃ code ∈ extensionTable.map (·.1), encodeChar? c = some [escape, code] ∧ IsExtended c ∧
      extensionChar? code = some c) ∨
    encodeChar? c = none ∧ ¬ InAlphabet c := by
  unfold encodeChar?
  split
  · next code h =>
    obtain ⟨small, plain, here⟩ := code_of_idxOf? h
    have byte : (UInt8.ofNat code).toNat = code := Bytes.toNat_ofNat (by omega)
    have mem : some c ∈ defaultTable := List.mem_of_getElem? here
    refine .inl ⟨UInt8.ofNat code, rfl, fun extended => notMem_defaultTable extended mem, ?_, ?_,
      ?_, ?_⟩
    · rcases (mem_defaultTable_iff c).1 mem with low | high
      · exact .inl low
      · exact .inr (.inl high)
    · rw [UInt8.lt_iff_toNat_lt, byte]
      exact small
    · intro e
      exact plain (by rw [← byte, e]; rfl)
    · rw [defaultChar, byte, here]
      rfl
  · next none =>
    have other : some c ∉ defaultTable := List.idxOf?_eq_none_iff.1 none
    rw [mem_defaultTable_iff, not_or] at other
    have keys : ∀ entry ∈ extensionTable, extensionChar? entry.1 = some entry.2 := by decide
    cases h : extensionTable.find? (·.2 == c) with
    | none =>
      refine .inr (.inr ⟨rfl, ?_⟩)
      rintro (low | high | extended)
      · exact other.1 low
      · exact other.2 high
      · obtain ⟨entry, mem, rfl⟩ := List.mem_map.1 extended
        simpa using List.find?_eq_none.1 h entry mem
    | some entry =>
      have mem := List.mem_of_find?_eq_some h
      have same : entry.2 = c := by simpa using List.find?_some h
      exact .inr (.inl ⟨entry.1, List.mem_map_of_mem mem, rfl,
        same ▸ List.mem_map_of_mem mem, same ▸ keys entry mem⟩)

theorem encodeChar?_isSome_iff (c : Char) : (encodeChar? c).isSome ↔ InAlphabet c := by
  rcases encodeChar_cases c with ⟨b, e, -, inside, -⟩ | ⟨code, -, e, extended, -⟩ | ⟨e, outside⟩
  · simp [e, inside]
  · simp [e, show InAlphabet c from .inr (.inr extended)]
  · simp [e, outside]

theorem isEncodable_iff (t : Text) : isEncodable t = true ↔ ∀ c ∈ t, InAlphabet c := by
  unfold isEncodable
  simp only [List.all_eq_true, encodeChar?_isSome_iff]

/-! ## The bytes of a text -/

theorem width_pos (c : Char) : 1 ≤ width c := by
  unfold width
  split <;> omega

theorem width_le (c : Char) : width c ≤ 2 := by
  unfold width
  split <;> omega

theorem size_cons (c : Char) (t : Text) : size (c :: t) = width c + size t := rfl

@[simp] theorem encode_nil : encode [] = [] := rfl

theorem encode_cons (c : Char) (t : Text) :
    encode (c :: t) = (encodeChar? c).getD [0x20] ++ encode t := rfl

theorem length_encode (t : Text) : (encode t).length = size t := by
  induction t with
  | nil => rfl
  | cons c t ih =>
    have one : ((encodeChar? c).getD [0x20]).length = width c := by
      unfold width
      rcases encodeChar_cases c with ⟨b, e, plain, -⟩ | ⟨code, -, e, extended, -⟩ | ⟨e, outside⟩
      · rw [e, if_neg plain]; rfl
      · rw [e, if_pos extended]; rfl
      · rw [e, if_neg fun extended => outside (.inr (.inr extended))]; rfl
    rw [encode_cons, List.length_append, ih, one]
    rfl

theorem length_encode_pos {t : Text} (h : t ≠ []) : 0 < (encode t).length := by
  obtain ⟨c, t, rfl⟩ := List.exists_cons_of_ne_nil h
  have wide := width_pos c
  rw [length_encode, size_cons]
  omega

theorem lt_of_mem_encode {t : Text} {b : UInt8} (h : b ∈ encode t) : b < 0x80 := by
  obtain ⟨c, -, h⟩ := List.mem_flatMap.1 h
  rcases encodeChar_cases c with ⟨b', e, -, -, small, -⟩ | ⟨code, mem, e, -⟩ | ⟨e, -⟩
  · rw [e] at h
    obtain rfl := List.mem_singleton.1 h
    exact small
  · have codes : ∀ code ∈ extensionTable.map (·.1), code < 0x80 := by
      decide +kernel
    rw [e, Option.getD_some, List.mem_cons, List.mem_singleton] at h
    rcases h with rfl | rfl
    · decide
    · exact codes _ mem
  · rw [e] at h
    obtain rfl := List.mem_singleton.1 h
    decide

theorem ne_fill_of_lt {b : UInt8} (h : b < 0x80) : b ≠ fillByte := by
  rintro rfl
  exact absurd h (by decide)

/-! ## Reading -/

theorem decode_byte {b : UInt8} (filled : b ≠ fillByte) (plain : b ≠ escape) (rest : Bytes) :
    decode (b :: rest) = defaultChar b :: decode rest := by
  cases rest <;> simp [decode, filled, plain]

theorem decode_escape {code : UInt8} (filled : code ≠ fillByte) (rest : Bytes) :
    decode (escape :: code :: rest) = escapedChar code :: decode rest := by
  have : escape ≠ fillByte := by decide
  simp [decode, this, filled]

theorem decode_fill (rest : Bytes) : decode (fillByte :: rest) = [] := by
  cases rest <;> simp [decode]

theorem decode_blank (n : Nat) : decode (Bytes.blank n) = [] := by
  cases n with
  | zero => rfl
  | succ n => exact decode_fill _

theorem decode_encodeChar (c : Char) (rest : Bytes) :
    decode ((encodeChar? c).getD [0x20] ++ rest) = shown c :: decode rest := by
  unfold shown
  rcases encodeChar_cases c with
    ⟨b, e, -, inside, small, plain, known⟩ | ⟨code, mem, e, extended, known⟩ | ⟨e, outside⟩
  · rw [e, if_pos inside, Option.getD_some, List.singleton_append,
      decode_byte (ne_fill_of_lt small) plain, known]
  · have codes : ∀ code ∈ extensionTable.map (·.1), code ≠ fillByte := by
      decide +kernel
    rw [e, if_pos (.inr (.inr extended)), Option.getD_some, List.cons_append, List.singleton_append,
      decode_escape (codes code mem), escapedChar, known, Option.getD_some]
  · rw [e, if_neg outside, Option.getD_none, List.singleton_append,
      decode_byte (by decide) (by decide)]
    rfl

/-- Reading the bytes of a text gives the text as it is shown, whatever follows them. -/
theorem decode_encode_append (t : Text) (rest : Bytes) :
    decode (encode t ++ rest) = t.map shown ++ decode rest := by
  induction t with
  | nil => rfl
  | cons c t ih =>
    rw [encode_cons, List.append_assoc, decode_encodeChar, ih]
    rfl

/-- The first byte of a text announces none of the other schemes of an alpha field. -/
theorem alpha_decode_encode_append {t : Text} (h : t ≠ []) (rest : Bytes) :
    Alpha.decode (encode t ++ rest) = t.map shown ++ decode rest := by
  obtain ⟨b, tail, start⟩ := List.exists_cons_of_ne_nil (List.length_pos_iff.1
    (length_encode_pos h))
  have small : b < 0x80 := lt_of_mem_encode (start ▸ List.mem_cons_self)
  have other : b ≠ 0x80 ∧ b ≠ 0x81 ∧ b ≠ 0x82 := by
    refine ⟨?_, ?_, ?_⟩ <;> (rintro rfl; exact absurd small (by decide))
  rw [← decode_encode_append, start]
  unfold Alpha.decode
  split <;> simp_all

theorem map_shown_eq_self_iff (t : Text) : t.map shown = t ↔ isEncodable t = true := by
  have blank : InAlphabet ' ' := by decide
  have same (c : Char) : shown c = c ↔ InAlphabet c := by
    unfold shown
    split
    · next inside => simp [inside]
    · next outside =>
      simp only [outside, iff_false]
      rintro rfl
      exact outside blank
  have kept : t.map shown = t ↔ t.map shown = t.map id := by rw [List.map_id]
  rw [isEncodable_iff, kept, List.map_inj_left]
  simp only [id, same]

/-! ## What any bytes read as -/

theorem inAlphabet_of_mem_decode {src : Bytes} {c : Char} (h : c ∈ decode src) : InAlphabet c := by
  fun_induction decode src with
  | case1 | case2 | case4 | case5 => cases h
  | case3 b _ =>
    rw [List.mem_singleton.1 h]
    exact (defaultChar_plain b).1
  | case6 next rest _ _ ih =>
    rcases List.mem_cons.1 h with rfl | later
    · exact inAlphabet_escapedChar next
    · exact ih later
  | case7 b next rest _ _ ih =>
    rcases List.mem_cons.1 h with rfl | later
    · exact (defaultChar_plain b).1
    · exact ih later

/-- The characters that are read take no more bytes than were read: two only after an escape. -/
theorem size_decode_le (src : Bytes) : size (decode src) ≤ src.length := by
  fun_induction decode src with
  | case1 => exact Nat.le_refl _
  | case2 | case4 | case5 => exact Nat.zero_le _
  | case3 b _ =>
    rw [size_cons, width_defaultChar]
    exact Nat.le_refl _
  | case6 next rest _ _ ih =>
    have wide := width_le (escapedChar next)
    simp only [size_cons, List.length_cons]
    omega
  | case7 b next rest _ _ ih =>
    simp only [size_cons, width_defaultChar, List.length_cons] at ih ⊢
    omega

theorem map_shown_decode (src : Bytes) : (decode src).map shown = decode src := by
  rw [map_shown_eq_self_iff, isEncodable_iff]
  exact fun c => inAlphabet_of_mem_decode

theorem decode_encode (t : Text) : decode (encode t) = t.map shown := by
  have whole := decode_encode_append t []
  rwa [List.append_nil, show decode [] = [] from rfl, List.append_nil] at whole

/-- The bytes of a text, then fill, read as the text however it goes on. -/
theorem decode_encode_fill (t : Text) (rest : Bytes) :
    decode (encode t ++ fillByte :: rest) = t.map shown := by
  rw [decode_encode_append, decode_fill, List.append_nil]

end UsimPhonebook.Gsm
