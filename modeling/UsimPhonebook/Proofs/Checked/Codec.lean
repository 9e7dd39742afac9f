import UsimPhonebook.Checked.Codec
import UsimPhonebook.Proofs.Field.Codec
import UsimPhonebook.Proofs.Traversal

/-! # No access of a codec fails

Every codec of `UsimPhonebook.Checked` has a result, and it is that of the codec by the same name
that reads its input from front to back. Each of these equations says at the same time that no
access on the way fails.

The decoders come out at any bytes (`decodeAlpha?_eq`, `decodeEmail?_eq`, `decodeEntry?_eq`), and so
do the encoders at any text and record length (`encodeField?_eq`). The digits of a chain of
extension records come out unless the chain is entered at number 0 (`extensionDigits?_eq`), which no
entry that was read does (`extension_decode_ne_zero`).
-/

namespace UsimPhonebook.Checked

variable {α : Type}

/-! ## Text -/

theorem mapM_word? (src : Bytes) : (exactPairs src).mapM word? = some (Bytes.words src) := by
  fun_induction exactPairs src with
  | case1 hi lo rest ih => exact mapM_cons_eq_some_iff.2 ⟨_, _, rfl, ih, rfl⟩
  | case2 src short =>
    have none : Bytes.words src = [] := by
      unfold Bytes.words
      split
      · exact absurd rfl (short _ _ _)
      · rfl
    rw [none]
    rfl

theorem decodeWords?_eq (src : Bytes) : decodeWords? src = some (Alpha.decodeWords src) := by
  unfold decodeWords?
  rw [mapM_word?]
  rfl

/-- A header that is long enough holds what the page needs. -/
theorem decodePaged?_eq {src : Bytes} {base : Bytes → Option Nat} {start body : Nat} {count : UInt8}
    (page : base src = some start) (counted : src[1]? = some count) (long : body ≤ src.length) :
    decodePaged? src base body = some (Alpha.decodePaged count.toNat start (src.drop body)) := by
  unfold decodePaged?
  rw [page, counted, slice?_length long]
  rfl

/-- By induction on the steps, of which there is one for each byte from the position on, and one
more. -/
theorem decodeFrom?_eq (src : Bytes) {steps position : Nat}
    (enough : src.length ≤ steps + position) :
    decodeFrom? src (steps + 1) position = some (Gsm.decode (src.drop position)) := by
  induction steps generalizing position with
  | zero =>
    have nothing : src.drop position = [] := List.drop_of_length_le (by omega)
    rw [decodeFrom?, of_drop_eq_nil nothing, nothing]
    rfl
  | succ steps ih =>
    rw [decodeFrom?]
    cases ahead : src.drop position with
    | nil =>
      rw [of_drop_eq_nil ahead]
      rfl
    | cons b rest =>
      obtain ⟨here, -, behind⟩ := of_drop_eq_cons ahead
      rw [here]
      dsimp only
      by_cases filled : b = fillByte
      · rw [if_pos filled, filled, Gsm.decode_fill]
      -- a character takes a byte or, with an escape, two: the steps that are left are enough
      by_cases plain : b = Gsm.escape
      · rw [if_neg filled, if_pos plain, plain]
        cases rest with
        | nil =>
          rw [of_drop_eq_nil behind]
          rfl
        | cons next rest =>
          obtain ⟨there, -, further⟩ := of_drop_eq_cons behind
          rw [there]
          dsimp only
          by_cases fill : next = fillByte
          · rw [if_pos fill, fill]
            rfl
          · rw [if_neg fill, ih (by omega), further, Gsm.decode_escape fill]
            rfl
      · rw [if_neg filled, if_neg plain, ih (by omega), behind, Gsm.decode_byte filled plain]
        rfl

theorem decodeText?_eq (src : Bytes) : decodeText? src = some (Gsm.decode src) :=
  decodeFrom?_eq src (Nat.le_refl _)

theorem decodeAlpha?_eq (src : Bytes) : decodeAlpha? src = some (Alpha.decode src) := by
  unfold Alpha.decode
  split
  · rename_i rest
    unfold decodeAlpha?
    rw [List.head?_cons, if_pos rfl, slice?_length (by simp)]
    exact decodeWords?_eq rest
  · unfold decodeAlpha?
    rw [List.head?_cons, if_neg (by decide), if_pos ⟨rfl, by simp⟩]
    exact decodePaged?_eq rfl rfl (by simp)
  · unfold decodeAlpha?
    rw [List.head?_cons, if_neg (by decide), if_neg (by simp), if_pos ⟨rfl, by simp⟩]
    exact decodePaged?_eq rfl rfl (by simp)
  · rename_i words page word
    -- a scheme whose header breaks off is left to the default alphabet, like any other text
    have noWords : ¬ src.head? = some 0x80 := fun first => by
      obtain ⟨rest, rfl⟩ := List.head?_eq_some_iff.1 first
      exact words rest rfl
    have noPage : ¬ (src.head? = some 0x81 ∧ 3 ≤ src.length) := fun ⟨first, long⟩ => by
      obtain ⟨rest, rfl⟩ := List.head?_eq_some_iff.1 first
      match rest, long with
      | count :: base :: body, _ => exact page count base body rfl
    have noWord : ¬ (src.head? = some 0x82 ∧ 4 ≤ src.length) := fun ⟨first, long⟩ => by
      obtain ⟨rest, rfl⟩ := List.head?_eq_some_iff.1 first
      match rest, long with
      | count :: hi :: lo :: body, _ => exact word count hi lo body rfl
    unfold decodeAlpha?
    rw [if_neg noWords, if_neg noPage, if_neg noWord]
    exact decodeText?_eq src

/-- The two bytes hold as many as are said to count. -/
theorem encodeChar?_eq (c : Char) : encodeChar? c = some ((Gsm.encodeChar? c).getD [0x20]) := by
  unfold encodeChar? septets? Gsm.encodeChar?
  cases Gsm.defaultTable.idxOf? (some c) with
  | some code => rfl
  | none => cases Gsm.extensionTable.find? (·.2 == c) <;> rfl

theorem encodeText?_eq (t : Text) : encodeText? t = some (Gsm.encode t) := by
  unfold encodeText?
  rw [mapM_eq_some_map fun c _ => encodeChar?_eq c, Option.map_some, ← List.flatMap_def]
  rfl

/-! ## Numbers -/

/-- From the zero on, the difference to it is the place among the symbols. -/
theorem digit?_eq (c : Char) : digit? c = some (Dialling.digit? c) := by
  unfold digit?
  split
  · rename_i decimal
    obtain ⟨low, high⟩ := decimal
    have places : ∀ n < 10, Dialling.digit? (Char.ofNat ('0'.toNat + n)) = some n := by decide
    have here := places (c.toNat - '0'.toNat) (by
      have : '9'.toNat = '0'.toNat + 9 := rfl
      omega)
    rw [Nat.add_sub_cancel' low, Char.ofNat_toNat] at here
    rw [sub?_of_le low, here]
    rfl
  · rename_i other
    by_cases special : c ∈ ['*', '#', Dialling.pause, Dialling.wait]
    · have values : (['*', '#', Dialling.pause, Dialling.wait].all fun d =>
          digit? d = some (Dialling.digit? d)) = true := by decide
      have here := of_decide_eq_true (List.all_eq_true.1 values c special)
      unfold digit? at here
      rwa [if_neg other] at here
    · have decimals : ((Dialling.symbols.take 10).all fun d =>
          '0'.toNat ≤ d.toNat ∧ d.toNat ≤ '9'.toNat) = true := by decide
      have foreign : c ∉ Dialling.symbols := by
        rw [← List.take_append_drop 10 Dialling.symbols, List.mem_append]
        rintro (there | there)
        · exact other (of_decide_eq_true (List.all_eq_true.1 decimals c there))
        · exact special there
      simp only [List.mem_cons, not_or] at special
      rw [if_neg special.1, if_neg special.2.1, if_neg special.2.2.1, if_neg special.2.2.2.1,
        Dialling.digit?, List.idxOf?_eq_none_iff.2 foreign]

theorem mapM_packed? (values : List Nat) :
    (pairs values).mapM packed? = some (Dialling.pack values) := by
  fun_induction pairs values with
  | case1 lo hi rest ih => exact mapM_cons_eq_some_iff.2 ⟨_, _, rfl, ih, rfl⟩
  | case2 lo => rfl
  | case3 => rfl

theorem encodeNumber?_eq (number : Text) :
    encodeNumber? number = some (Dialling.encode? number) := by
  unfold encodeNumber? Dialling.encode?
  rw [bind_of_eq_some (mapM_eq_some_map fun c _ => digit?_eq c), List.mapM_map, Function.id_comp]
  rcases (number.filter (· != '+')).mapM Dialling.digit? with _ | _ | ⟨d, rest⟩
  · rfl
  · rfl
  · show ((pairs (d :: rest)).mapM packed? >>= _) = _
    rw [mapM_packed?]
    rfl

/-- Fill is among the lengths that are too great, and a field that goes past the end is missing. -/
theorem numberField_eq (record : Bytes) (position : Nat) :
    numberField record position = Dialling.numberField record position := by
  unfold numberField Dialling.numberField
  cases ahead : record.drop position with
  | nil => rw [of_drop_eq_nil ahead]
  | cons n rest =>
    obtain ⟨length, within, field⟩ := of_drop_eq_cons ahead
    have unusable : (n = 0x00 ∨ n = fillByte ∨ Dialling.maxBytes < n.toNat) ↔
        n.toNat = 0 ∨ Dialling.maxBytes < n.toNat := by
      have great : Dialling.maxBytes < fillByte.toNat := by decide
      rw [← UInt8.toNat_inj, ← UInt8.toNat_inj]
      show n.toNat = 0 ∨ _ ↔ _
      omega
    rw [length]
    simp only [unusable]
    rw [slice?_add within field]
    by_cases bad : n.toNat = 0 ∨ Dialling.maxBytes < n.toNat
    · rw [if_pos bad, if_pos (by omega)]
    · rw [if_neg bad]
      by_cases long : n.toNat ≤ rest.length
      · rw [if_pos long, if_neg (by omega)]
      · rw [if_neg long, if_pos (by omega)]

/-! ## Field records -/

theorem decodeEmail?_eq (record : Bytes) : decodeEmail? record = some (Email.decode record) := by
  unfold decodeEmail? Email.decode
  by_cases short : record.length ≤ Email.linkLen
  · rw [if_pos short]
    by_cases room : Email.linkLen ≤ record.length
    · rw [sub?_of_le room]
      exact if_neg (by omega)
    · rw [sub?, if_neg room]
  · rw [if_neg short, sub?_of_le (by omega)]
    show (if _ then (_ : Option Text) else _) = _
    rw [if_pos (by omega), slice?_zero (by omega)]
    exact decodeAlpha?_eq _

/-- A text that leaves room stands in front of fill, the last byte of which is free. -/
theorem copy?_blank {recordLen : Nat} {text : Bytes} (room : text.length < recordLen) :
    copy? (Bytes.blank recordLen) 0 text =
      some (text ++ Bytes.blank (recordLen - 1 - text.length) ++ [fillByte]) := by
  have filled : recordLen - text.length = recordLen - 1 - text.length + 1 := by omega
  rw [copy?_of_le (by simp; omega), Nat.zero_add, List.take_zero, List.nil_append, Bytes.blank,
    List.drop_replicate, filled, List.replicate_succ', List.append_assoc]
  rfl

theorem encodeEmail?_eq (recordLen : Nat) (value : Text) (link : Option UInt8) :
    encodeEmail? recordLen value link = some (Email.encode recordLen value link) := by
  unfold encodeEmail? Email.encode
  by_cases empty : value = []
  · rw [if_pos empty, if_pos empty]
  · have some_byte := Gsm.length_encode_pos empty
    rw [if_neg empty, if_neg empty, bind_of_eq_some (encodeText?_eq value)]
    by_cases long : recordLen - Email.linkLen < (Gsm.encode value).length
    · simp only [if_pos long]
      rfl
    · have two : Email.linkLen = 2 := rfl
      simp only [if_neg long]
      rw [bind_of_eq_some (copy?_blank (by omega))]
      cases link with
      | none => rfl
      | some number =>
        have last : recordLen - 1 = (Gsm.encode value ++
            Bytes.blank (recordLen - 1 - (Gsm.encode value).length)).length := by
          rw [List.length_append, Bytes.length_blank]
          omega
        show (sub? recordLen 1 >>= _) = _
        rw [bind_of_eq_some (sub?_of_le (by omega)), set?_last last]
        rfl

/-- An unused record of fifteen bytes or more has room for a number field and two more bytes. -/
theorem writeNumber?_eq {number : Bytes} (short : number.length ≤ Dialling.maxBytes) (k : Nat) :
    writeNumber? (Bytes.blank (k + 15)) number =
      some (0x00 :: UInt8.ofNat number.length :: Bytes.fitTo Dialling.maxBytes number ++
        Bytes.blank (k + 2)) := by
  have eleven : number.length ≤ 11 := short
  have first : set? (Bytes.blank (k + 15)) 0 0x00 = some (0x00 :: Bytes.blank (k + 14)) :=
    set?_of_lt (by simp) _
  have second : set? (0x00 :: Bytes.blank (k + 14)) AdditionalNumber.lengthPosition
      (UInt8.ofNat number.length) =
        some (0x00 :: UInt8.ofNat number.length :: Bytes.blank (k + 13)) :=
    set?_of_lt (by simp [AdditionalNumber.lengthPosition]) _
  have field : number ++ Bytes.blank (k + 13 - number.length) =
      Bytes.fitTo Dialling.maxBytes number ++ Bytes.blank (k + 2) := by
    have split : k + 13 - number.length = 11 - number.length + (k + 2) := by omega
    unfold Bytes.fitTo Bytes.blank
    rw [List.take_of_length_le short, List.append_assoc, List.replicate_append_replicate, split]
    rfl
  unfold writeNumber?
  rw [bind_of_eq_some first, bind_of_eq_some second,
    copy?_of_le (by simp [AdditionalNumber.lengthPosition]; omega), Nat.add_comm _ number.length]
  show some (0x00 :: UInt8.ofNat number.length ::
    (number ++ (Bytes.blank (k + 13)).drop number.length)) = _
  rw [Bytes.blank, List.drop_replicate]
  exact congrArg (fun rest => some (0x00 :: UInt8.ofNat number.length :: rest)) field

/-- The two bytes behind the number field are unused, and the link is written where there is a byte
for it. -/
theorem writeLink?_eq {front : Bytes} (field : front.length = 13) (k : Nat) (link : Option UInt8) :
    writeLink? (front ++ Bytes.blank (k + 2)) link =
      some (front ++ AdditionalNumber.tail (k + 2) link) := by
  have unused : ∀ i < 2, (front ++ Bytes.blank (k + 2))[13 + i]? = some fillByte := by
    intro i small
    rw [List.getElem?_append_right (by omega), field, Nat.add_sub_cancel_left, Bytes.blank,
      List.getElem?_replicate, if_pos (by omega)]
  have long :
      AdditionalNumber.linkPosition < (front ++ Bytes.blank (k + 2)).length ↔ 3 < k + 2 := by
    rw [List.length_append, field, Bytes.length_blank]
    show 16 < 13 + (k + 2) ↔ _
    omega
  unfold writeLink?
  rw [bind_of_eq_some (set?_self (unused 0 (by decide))),
    bind_of_eq_some (set?_self (unused 1 (by decide)))]
  unfold AdditionalNumber.tail
  by_cases room : 3 < k + 2
  · obtain ⟨m, rfl⟩ : ∃ m, k = m + 2 := ⟨k - 2, by omega⟩
    rw [if_pos room]
    cases link with
    | none => rfl
    | some entry =>
      show (if _ then _ else _) = _
      rw [if_pos (long.2 room), set?_of_lt (long.2 room),
        List.set_append_right _ _ (by rw [field]; decide), field]
      rfl
  · rw [if_neg room]
    cases link with
    | none => rfl
    | some entry => exact if_neg (mt long.1 room)

theorem encodeAdditionalNumber?_eq (recordLen : Nat) (value : Text) (link : Option UInt8) :
    encodeAdditionalNumber? recordLen value link =
      some (AdditionalNumber.encode recordLen value link) := by
  unfold encodeAdditionalNumber? AdditionalNumber.encode
  by_cases empty : value = []
  · rw [if_pos empty, if_pos empty]
  by_cases narrow : recordLen < AdditionalNumber.minLen
  · rw [if_neg empty, if_neg empty, if_pos narrow, if_pos narrow]
  obtain ⟨k, rfl⟩ : ∃ k, recordLen = k + 15 :=
    ⟨recordLen - 15, (Nat.sub_add_cancel (Nat.le_of_not_lt narrow)).symm⟩
  rw [if_neg empty, if_neg empty, if_neg narrow, if_neg narrow, encodeNumber?_eq]
  cases Dialling.encode? (value.map AdditionalNumber.dialSeparator) with
  | none => rfl
  | some number =>
    show (if _ then _ else _) = some (if _ then _ else _)
    by_cases long : Dialling.maxBytes < number.length
    · rw [if_pos long, if_pos long]
      rfl
    · rw [if_neg long, if_neg long, bind_of_eq_some (writeNumber?_eq (Nat.le_of_not_lt long) k),
        writeLink?_eq (by simp [Dialling.maxBytes]) k link]
      rfl

theorem decodeField?_eq (kind : FieldKind) (record : Bytes) :
    decodeField? kind record = some (kind.decode record) := by
  cases kind with
  | email => exact decodeEmail?_eq record
  | anr =>
    show some ((numberField record _).map _) = _
    rw [numberField_eq]
    rfl

theorem encodeField?_eq (kind : FieldKind) (recordLen : Nat) (value : Text) (link : Option UInt8) :
    encodeField? kind recordLen value link = some (kind.encode recordLen value link) := by
  cases kind with
  | email => exact encodeEmail?_eq recordLen value link
  | anr => exact encodeAdditionalNumber?_eq recordLen value link

/-! ## Address and extension records -/

theorem decodeEntry?_eq (file : FileId) (recordNumber : Nat) (record : Bytes) :
    decodeEntry? file recordNumber record = some (Entry.decode file recordNumber record) := by
  unfold decodeEntry? Entry.decode
  by_cases short : record.length < Entry.footerLen
  · rw [if_pos short, sub?, if_neg (by omega)]
  · have within : record.length - Entry.footerLen + Entry.extensionPosition < record.length := by
      have last : Entry.extensionPosition < Entry.footerLen := by decide
      omega
    obtain ⟨id, found⟩ : ∃ id, record[record.length - Entry.footerLen +
      Entry.extensionPosition]? = some id := ⟨_, List.getElem?_eq_getElem within⟩
    rw [if_neg short, sub?_of_le (by omega)]
    dsimp only
    rw [bind_of_eq_some (slice?_zero (by omega)), bind_of_eq_some (decodeAlpha?_eq _), found,
      numberField_eq]
    rfl

theorem digitsOf_eq (record : Bytes) : digitsOf record = Entry.digitsOf record := by
  match record with
  | [] => rfl
  | [_] => rfl
  | type :: length :: rest =>
    have behind : (type :: length :: rest).drop 2 = rest := rfl
    unfold digitsOf Entry.digitsOf
    rw [List.getElem?_cons_succ, List.getElem?_cons_zero, Option.getD_some,
      slice?_add (by simp) behind]
    by_cases long : length.toNat ≤ rest.length
    · rw [if_pos long]
      exact (if_pos long).symm
    · rw [if_neg long]
      exact (if_neg long).symm

theorem extension?_ne_zero (id : UInt8) : Entry.extension? id ≠ some 0x00 := by
  unfold Entry.extension?
  split
  · nofun
  · rename_i named
    exact fun same => named (.inl (Option.some.inj same))

theorem bind_extension?_ne_zero (byte : Option UInt8) :
    byte.bind Entry.extension? ≠ some 0x00 := by
  cases byte with
  | none => nofun
  | some id => exact extension?_ne_zero id

theorem extension_decode_ne_zero (file : FileId) (recordNumber : Nat) (record : Bytes) :
    (Entry.decode file recordNumber record).extension ≠ some 0x00 := by
  unfold Entry.decode
  split
  · nofun
  · exact bind_extension?_ne_zero _

/-- By induction on the hops: a record that is named has a number from 1 on, and so has the one that
follows it. -/
theorem extensionDigits?_eq (records : List Bytes) (hops : Nat) {id : Option UInt8}
    (named : id ≠ some 0x00) :
    extensionDigits? records hops id = some (Entry.extensionDigits records hops id) := by
  induction hops generalizing id with
  | zero => cases id <;> rfl
  | succ hops ih =>
    cases id with
    | none => rfl
    | some id =>
      obtain ⟨n, number⟩ : ∃ n, id.toNat = n + 1 := Nat.exists_eq_succ_of_ne_zero fun zero =>
        named (congrArg some (UInt8.toNat_inj.1 zero))
      unfold extensionDigits? Entry.extensionDigits
      rw [number, bind_of_eq_some (sub?_of_le (by omega)), numbered?_succ, Nat.add_sub_cancel]
      cases records[n]? with
      | none => rfl
      | some record =>
        show (if _ then _ else _) = some (if _ then _ else _)
        by_cases more : record.head? = some Entry.extensionType
        · have next : Entry.nextOf record ≠ some 0x00 := bind_extension?_ne_zero _
          rw [if_pos more, if_pos more, ih next, digitsOf_eq]
          rfl
        · rw [if_neg more, if_neg more]
          rfl

theorem extend?_eq (records : List Bytes) {e : Entry} (named : e.extension ≠ some 0x00) :
    extend? records e = some (e.extend records) := by
  unfold extend?
  rw [extensionDigits?_eq records _ named]
  rfl

end UsimPhonebook.Checked
