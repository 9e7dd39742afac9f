import UsimPhonebook.Proofs.Text.Gsm
import UsimPhonebook.Proofs.Text.Units

/-! # The schemes of an alpha field compared

A paged byte stands for a character of the default alphabet or for one of its page, and either has
a code point (`Alpha.pagedUnit`) that can be written as a word. The same text comes out, unless a
word is a surrogate or the one that ends a field of words (`Alpha.IsPlain`).

* `Alpha.decodeWords_plain` : words read as the characters that they number
* `Alpha.decodePaged_eq` : paged bytes read as their words do
* `Alpha.schemes_agree` : the three schemes give the same text
-/

namespace UsimPhonebook.Alpha

/-- The code point of a paged byte, with the page starting at `base`. -/
def pagedUnit (base : Nat) (b : UInt8) : Nat :=
  if b < 0x80 then (Gsm.defaultChar b).toNat else base + (b.toNat - 0x80)

/-- A number that stands for itself as a word: neither a surrogate nor as much as the word that ends
the field. -/
def IsPlain (unit : Nat) : Prop := unit < 0xFFFF ∧ ¬ (0xD800 ≤ unit ∧ unit ≤ 0xDFFF)

instance (unit : Nat) : Decidable (IsPlain unit) := inferInstanceAs (Decidable (_ ∧ _))

/-- Two bytes for a word, the high one first. -/
def wordBytes (unit : Nat) : Bytes := [UInt8.ofNat (unit / 256), UInt8.ofNat (unit % 256)]

/-- The field of words for paged bytes. -/
def wordField (base : Nat) (body : Bytes) : Bytes :=
  0x80 :: (body.map (pagedUnit base)).flatMap wordBytes

/-! ## Words -/

theorem word_wordBytes {unit : Nat} (small : unit < 65536) :
    (Bytes.word (UInt8.ofNat (unit / 256)) (UInt8.ofNat (unit % 256))).toNat = unit := by
  rw [Bytes.toNat_word, Bytes.toNat_ofNat (by omega), Bytes.toNat_ofNat (by omega)]
  omega

theorem decodeWords_cons {unit : Nat} (plain : IsPlain unit) (rest : Bytes) :
    decodeWords (wordBytes unit ++ rest) = Char.ofNat unit :: decodeWords rest := by
  obtain ⟨small, lone⟩ := plain
  have number := word_wordBytes (show unit < 65536 by omega)
  generalize word : Bytes.word (UInt8.ofNat (unit / 256)) (UInt8.ofNat (unit % 256)) = w at number
  have goes : (w != 0xFFFF) = true := by
    rw [bne_iff_ne]
    rintro rfl
    exact Nat.lt_irrefl _ (number ▸ small)
  have whole : Units.isSurrogate w = false := by
    simp only [Units.isSurrogate, number, Bool.and_eq_false_iff, decide_eq_false_iff_not]
    omega
  have low : Units.isHigh w = false := by
    simp only [Units.isHigh, number, Bool.and_eq_false_iff, decide_eq_false_iff_not]
    omega
  have itself : Units.single w = some (Char.ofNat unit) := by
    rw [Units.single, whole, number]
    rfl
  unfold decodeWords Units.toTextLossy
  rw [wordBytes, List.cons_append, List.singleton_append, Bytes.words, word,
    List.takeWhile_cons, if_pos goes, Units.chars_cons_of_not_isHigh low, List.map_cons, itself]
  rfl

/-- Words that stand for themselves read as the characters that they number. -/
theorem decodeWords_plain {units : List Nat} (plain : ∀ unit ∈ units, IsPlain unit) :
    decodeWords (units.flatMap wordBytes) = units.map Char.ofNat := by
  induction units with
  | nil => rfl
  | cons unit rest ih =>
    obtain ⟨first, others⟩ := List.forall_mem_cons.1 plain
    rw [List.flatMap_cons, decodeWords_cons first, ih others, List.map_cons]

/-! ## Paged bytes -/

theorem isPlain_defaultChar (code : UInt8) : IsPlain (Gsm.defaultChar code).toNat := by
  have valid := Units.toNat_cases (Gsm.defaultChar code)
  have small : (Gsm.defaultChar code).toNat < 0xFFFF := by
    have all : (Gsm.lowTable ++ Gsm.highTable).all (·.toNat < 0xFFFF) = true := by decide +kernel
    have mem : Gsm.defaultChar code ∈ Gsm.lowTable ++ Gsm.highTable := by
      obtain ⟨low | high | extended, plain⟩ := Gsm.defaultChar_plain code
      · exact List.mem_append_left _ low
      · exact List.mem_append_right _ high
      · exact absurd extended plain
    exact of_decide_eq_true (List.all_eq_true.1 all _ mem)
  refine ⟨small, ?_⟩
  omega

/-- The characters of a page that ends below the surrogates have words that stand for themselves. -/
theorem isPlain_pagedUnit {base : Nat} (low : base ≤ 0xD780) (b : UInt8) :
    IsPlain (pagedUnit base b) := by
  unfold pagedUnit
  split
  · exact isPlain_defaultChar b
  · have := b.toNat_lt
    unfold IsPlain
    omega

theorem pagedChar_eq {base : Nat} {b : UInt8} (plain : IsPlain (pagedUnit base b)) :
    pagedChar base b = Char.ofNat (pagedUnit base b) := by
  unfold pagedChar pagedUnit at *
  split
  · rw [Char.ofNat_toNat]
  · next paged =>
    rw [if_neg paged] at plain
    have valid : (base + (b.toNat - 0x80)).isValidChar := by
      unfold IsPlain at plain
      unfold Nat.isValidChar
      omega
    exact if_pos valid

theorem decodePaged_eq {count base : Nat} {body : Bytes}
    (plain : ∀ b ∈ body.take count, IsPlain (pagedUnit base b)) :
    decodePaged count base body = decode (wordField base (body.take count)) := by
  have chars : decodePaged count base body = (body.take count).map (Char.ofNat ∘ pagedUnit base) :=
    List.map_congr_left fun b mem => pagedChar_eq (plain b mem)
  show _ = decodeWords _
  rw [chars, decodeWords_plain (List.forall_mem_map.2 plain), List.map_map]

/-- The two ways to give the start of a page come to the same. -/
theorem decode_wordBytes {base : Nat} (small : base < 65536) (count : UInt8) (body : Bytes) :
    decode (0x82 :: count :: (wordBytes base ++ body)) = decodePaged count.toNat base body := by
  show decodePaged count.toNat (Bytes.word _ _).toNat body = _
  rw [word_wordBytes small]

/-- A field of paged bytes with the number of its page gives the same text as one with the first
character of the page, and as the field of words for as many bytes as are counted. If the first
character is any other, this is still so as long as each word stands for itself. -/
theorem schemes_agree :
    (∀ (count page : UInt8) (body : Bytes),
      decode (0x81 :: count :: page :: body) =
        decode (0x82 :: count :: (wordBytes (page.toNat * 128) ++ body)) ∧
      decode (0x81 :: count :: page :: body) =
        decode (wordField (page.toNat * 128) (body.take count.toNat))) ∧
    ∀ (base : UInt16) (count : UInt8) (body : Bytes),
      (∀ b ∈ body.take count.toNat, IsPlain (pagedUnit base.toNat b)) →
      decode (0x82 :: count :: (wordBytes base.toNat ++ body)) =
        decode (wordField base.toNat (body.take count.toNat)) := by
  constructor
  · intro count page body
    have last := page.toNat_lt
    constructor
    · rw [decode_wordBytes (by omega)]
      rfl
    · exact decodePaged_eq fun b _ => isPlain_pagedUnit (by omega) b
  · intro base count body plain
    rw [decode_wordBytes base.toNat_lt]
    exact decodePaged_eq plain

/-- The last page of words: its last byte is the last word before the one that ends a field, and an
escape among paged bytes is a blank. More bytes are counted than there are. -/
theorem schemes_agree_last_page :
    let body : Bytes := [0xFF, 0x1B, 0x41]
    (∀ b ∈ body.take 9, IsPlain (pagedUnit 0xFF7F b)) ∧
      decode (0x82 :: 9 :: (wordBytes 0xFF7F ++ body)) = decode (wordField 0xFF7F (body.take 9)) ∧
      decode (0x82 :: 9 :: (wordBytes 0xFF7F ++ body)) = ['\uFFFE', ' ', 'A'] := by
  intro body
  have all : (body.take 9).all (fun b => IsPlain (pagedUnit 0xFF7F b)) = true := by decide
  have plain : ∀ b ∈ body.take 9, IsPlain (pagedUnit 0xFF7F b) :=
    fun b mem => of_decide_eq_true (List.all_eq_true.1 all b mem)
  exact ⟨plain, schemes_agree.2 0xFF7F 9 body plain, by decide⟩

end UsimPhonebook.Alpha
