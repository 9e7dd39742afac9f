import UsimPhonebook.Field.Record
import UsimPhonebook.Proofs.Text.Gsm

/-! # Email addresses as they are read back

An address is written in the GSM alphabet between the start of the record and the two bytes of the
link, and read as GSM text again, with a blank for each character outside the alphabet.

* `Email.encode_eq_ok_iff` : the bytes of a record
* `Email.decode_of_encode` : what it reads as
* `Email.address_reads_back` : which addresses have records, and what these are like
* `Email.text_writes_back` : what was read as GSM text has a record again, and reads the same from
  it
-/

namespace UsimPhonebook.Email

theorem decode_blank (n : Nat) : decode (Bytes.blank n) = [] := by
  unfold decode
  split
  · rfl
  · simp only [Bytes.blank, List.take_replicate]
    generalize min ((List.replicate n fillByte).length - linkLen) n = count
    cases count with
    | zero => rfl
    | succ m => exact Gsm.decode_blank (m + 1)

theorem encode_eq_ok_iff {recordLen : Nat} {value : Text} {link : Option UInt8} {record : Bytes}
    (filled : value ≠ []) : encode recordLen value link = .ok record ↔
      2 ≤ recordLen ∧ Gsm.size value ≤ recordLen - 2 ∧
      record = Gsm.encode value ++ Bytes.blank (recordLen - 2 - Gsm.size value) ++
        [0xFF, link.getD 0xFF] := by
  have pos := Gsm.length_encode_pos filled
  have fill (n : Nat) : Bytes.blank (n + 1) = Bytes.blank n ++ [0xFF] := List.replicate_succ'
  unfold encode linkLen
  rw [if_neg filled]
  dsimp only
  rw [Gsm.length_encode] at pos ⊢
  by_cases fits : recordLen - 2 < Gsm.size value
  · rw [if_pos fits]
    simp [Nat.not_le_of_lt fits]
  · have long : 2 ≤ recordLen := by omega
    have split : recordLen - 1 - Gsm.size value = recordLen - 2 - Gsm.size value + 1 := by omega
    rw [if_neg fits, split, fill]
    simp [long, Nat.le_of_not_lt fits, eq_comm, fillByte]

theorem length_of_encode {recordLen : Nat} {value : Text} {link : Option UInt8} {record : Bytes}
    (h : encode recordLen value link = .ok record) : record.length = recordLen := by
  by_cases filled : value = []
  · subst filled
    cases h
    exact Bytes.length_blank recordLen
  · obtain ⟨long, fits, rfl⟩ := (encode_eq_ok_iff filled).1 h
    simp [Gsm.length_encode]
    omega

theorem decode_of_encode {recordLen : Nat} {value : Text} {link : Option UInt8} {record : Bytes}
    (h : encode recordLen value link = .ok record) : decode record = value.map Gsm.shown := by
  have length := length_of_encode h
  by_cases filled : value = []
  · subst filled
    cases h
    exact decode_blank recordLen
  · obtain ⟨long, fits, rfl⟩ := (encode_eq_ok_iff filled).1 h
    have pos := Gsm.length_encode_pos filled
    rw [Gsm.length_encode] at pos
    have front : (Gsm.encode value ++ Bytes.blank (recordLen - 2 - Gsm.size value)).length =
        recordLen - 2 := by
      simp [Gsm.length_encode]
      omega
    unfold decode
    rw [length, if_neg (by unfold linkLen; omega), linkLen, List.take_left' front,
      Gsm.alpha_decode_encode_append filled, Gsm.decode_blank, List.append_nil]

theorem exists_encode_iff (recordLen : Nat) (value : Text) (link : Option UInt8) :
    (∃ record, encode recordLen value link = .ok record) ↔
      value = [] ∨ 2 ≤ recordLen ∧ Gsm.size value ≤ recordLen - 2 := by
  by_cases filled : value = []
  · subst filled
    exact iff_of_true ⟨_, rfl⟩ (.inl rfl)
  · simp [encode_eq_ok_iff filled, filled]

/-- An address has a record exactly if it is empty or its bytes leave room for the link. The record
has the length asked for, and is blank exactly if the address is empty. That of any other address is
its bytes, none of which is fill or announces another scheme, then fill, of which at least one byte,
and the link. What is read from it is the address with a blank for each character outside the
alphabet, which is the address itself exactly if there is no such character. -/
theorem address_reads_back (recordLen : Nat) (value : Text) (link : Option UInt8) :
    ((∃ record, encode recordLen value link = .ok record) ↔
      value = [] ∨ 2 ≤ recordLen ∧ Gsm.size value ≤ recordLen - 2) ∧
    ∀ record, encode recordLen value link = .ok record →
      record.length = recordLen ∧ ((∀ b ∈ record, b = 0xFF) ↔ value = []) ∧
      (value ≠ [] → (∃ front, record = front ++ [0xFF, link.getD 0xFF]) ∧
        record.take (recordLen - 2) =
          Gsm.encode value ++ Bytes.blank (recordLen - 2 - Gsm.size value) ∧
        (∀ b ∈ Gsm.encode value, b ≠ 0x80 ∧ b ≠ 0x81 ∧ b ≠ 0x82 ∧ b ≠ 0xFF)) ∧
      decode record = value.map Gsm.shown ∧
      (decode record = value ↔ Gsm.isEncodable value = true) := by
  refine ⟨exists_encode_iff recordLen value link, fun record h =>
    ⟨length_of_encode h, ?_, fun filled => ?_, decode_of_encode h, ?_⟩⟩
  · by_cases filled : value = []
    · subst filled
      cases h
      simp [Bytes.blank, fillByte]
    · obtain ⟨-, -, rfl⟩ := (encode_eq_ok_iff filled).1 h
      simp only [filled, iff_false]
      intro blank
      obtain ⟨b, rest, start⟩ := List.exists_cons_of_ne_nil (List.length_pos_iff.1
        (Gsm.length_encode_pos filled))
      have mem : b ∈ Gsm.encode value := start ▸ List.mem_cons_self
      exact Gsm.ne_fill_of_lt (Gsm.lt_of_mem_encode mem) (blank b (by simp [mem]))
  · obtain ⟨long, fits, rfl⟩ := (encode_eq_ok_iff filled).1 h
    have front : (Gsm.encode value ++ Bytes.blank (recordLen - 2 - Gsm.size value)).length =
        recordLen - 2 := by
      simp [Gsm.length_encode]
      omega
    refine ⟨⟨_, rfl⟩, List.take_left' front, fun b mem => ?_⟩
    have small := Gsm.lt_of_mem_encode mem
    refine ⟨?_, ?_, ?_, ?_⟩ <;> (rintro rfl; exact absurd small (by decide))
  · rw [decode_of_encode h, Gsm.map_shown_eq_self_iff]

/-- Four bytes of room for an address of three characters, one of which takes two. -/
theorem address_reads_back_extended :
    ∃ record, encode 6 ['a', '€', 'b'] (some 9) = .ok record ∧ record.length = 6 ∧
      (∃ front, record = front ++ [0xFF, 9]) ∧ decode record = ['a', '€', 'b'] := by
  obtain ⟨accepts, like⟩ := address_reads_back 6 ['a', '€', 'b'] (some 9)
  obtain ⟨record, h⟩ := accepts.2 (.inr ⟨by decide, by decide⟩)
  obtain ⟨length, -, filled, -, same⟩ := like record h
  exact ⟨record, h, length, (filled (by decide)).1, same.2 (by decide)⟩

/-! ## Writing what was read -/

theorem alpha_decode_eq_gsm {field : Bytes} (words : field[0]? ≠ some 0x80)
    (page : ¬ (field[0]? = some 0x81 ∧ 3 ≤ field.length))
    (base : ¬ (field[0]? = some 0x82 ∧ 4 ≤ field.length)) :
    Alpha.decode field = Gsm.decode field := by
  unfold Alpha.decode
  split
  · simp at words
  · simp at page
  · simp at base
  · rfl

/-- A record whose text field is GSM text, with room for some text, holds one that fits into a
record of the same length. -/
theorem encode_decode {raw : Bytes} {field : Bytes} (long : 3 ≤ raw.length)
    (front : field = raw.take (raw.length - 2)) (gsm : Alpha.decode field = Gsm.decode field)
    (link : Option UInt8) :
    ∃ record, encode raw.length (decode raw) link = .ok record ∧ decode record = decode raw := by
  have text : decode raw = Gsm.decode field := by
    unfold decode
    rw [if_neg (by unfold linkLen; omega), linkLen, ← front, gsm]
  have fits := Gsm.size_decode_le field
  rw [front, List.length_take, ← front, ← text] at fits
  obtain ⟨record, encoded⟩ := (exists_encode_iff raw.length (decode raw) link).2
    (.inr ⟨by omega, by omega⟩)
  refine ⟨record, encoded, ?_⟩
  rw [decode_of_encode encoded, text, Gsm.map_shown_decode]

/-- Whatever bytes are read as GSM text, each character of it is one of the alphabet, its bytes are
no more than were read, and they read as the same text. So what is read from a record of at least
three bytes, unless its text field announces another scheme, has a record of the same length, and
reads the same from it. The bytes of any text, with fill behind them, read as the text with a blank
for each character outside the alphabet, whatever follows the fill. -/
theorem text_writes_back :
    (∀ src : Bytes, Gsm.isEncodable (Gsm.decode src) = true ∧
      (Gsm.encode (Gsm.decode src)).length ≤ src.length ∧
      Gsm.decode (Gsm.encode (Gsm.decode src)) = Gsm.decode src) ∧
    (∀ (raw : Bytes) (link : Option UInt8), 3 ≤ raw.length →
      let field := raw.take (raw.length - 2)
      field[0]? ≠ some 0x80 → ¬ (field[0]? = some 0x81 ∧ 3 ≤ field.length) →
      ¬ (field[0]? = some 0x82 ∧ 4 ≤ field.length) →
      ∃ record, encode raw.length (decode raw) link = .ok record ∧
        decode record = decode raw) ∧
    ∀ (t : Text) (rest : Bytes),
      Gsm.decode (Gsm.encode t ++ 0xFF :: rest) = t.map Gsm.shown := by
  refine ⟨fun src => ⟨?_, ?_, ?_⟩, ?_, Gsm.decode_encode_fill⟩
  · exact (Gsm.isEncodable_iff _).2 fun c => Gsm.inAlphabet_of_mem_decode
  · rw [Gsm.length_encode]
    exact Gsm.size_decode_le src
  · rw [Gsm.decode_encode, Gsm.map_shown_decode]
  · intro raw link long field words page base
    exact encode_decode long rfl (alpha_decode_eq_gsm words page base) link

/-- A brace, a byte that is none of the alphabet, and an escape with nothing behind it: a record of
seven bytes has room for the two characters that they read as. -/
theorem text_writes_back_escaped :
    let raw : Bytes := [0x1B, 0x28, 0x82, 0x1B, 0xFF, 0x00, 0x07]
    decode raw = ['\x7b', ' '] ∧ ∃ record,
      encode 7 ['\x7b', ' '] (some 9) = .ok record ∧ decode record = ['\x7b', ' '] := by
  intro raw
  have text : decode raw = ['\x7b', ' '] := by decide
  obtain ⟨-, again, -⟩ := text_writes_back
  have record := again raw (some 9) (by decide) (by decide) (by decide) (by decide)
  rw [text] at record
  exact ⟨text, record⟩

end UsimPhonebook.Email
