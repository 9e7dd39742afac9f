import Mathlib.Data.List.Perm.Subperm
import UsimPhonebook.Entry

/-! # Chains of extension records

The digits that did not fit into an address record are in a chain of extension records, each of
which names the next by a byte (`Entry.Chain`). Nothing keeps a card from closing the chain to a
loop, so the reader counts its hops and makes as many as there are records.

* `Entry.Chain.nodup_of_ends` : a chain that ends meets no record twice, as it would go on for ever
  the way it went on the first time
* `Entry.Chain.length_le` : one that meets no record twice is no longer than the list of records,
  so that the count of hops cuts nothing off
* `Entry.exists_chain` : what the reader appends are the digits along a chain
* `Entry.number_extended` : which chain that is, with a loop and without
-/

namespace UsimPhonebook.Entry

/-! ## The chain -/

/-- A byte names a record of the chain: it is neither zero nor fill, there is a record of that
number, and its type says that it holds more digits. -/
def Names (records : List Bytes) (id : UInt8) (record : Bytes) : Prop :=
  id ≠ 0x00 ∧ id ≠ 0xFF ∧ records[id.toNat - 1]? = some record ∧ record[0]? = some 0x02

/-- From a byte the chain leads over the records of these numbers to another byte. -/
inductive Chain (records : List Bytes) : Option UInt8 → List Nat → Option UInt8 → Prop
  | here (byte : Option UInt8) : Chain records byte [] byte
  | hop {id : UInt8} {record : Bytes} {numbers : List Nat} {stop : Option UInt8}
      (named : Names records id record) (onward : Chain records record[12]? numbers stop) :
      Chain records (some id) (id.toNat :: numbers) stop

/-- The chain ends at a byte that names no record, or that is not there. -/
def Ends (records : List Bytes) (byte : Option UInt8) : Prop :=
  ∀ id record, byte = some id → ¬ Names records id record

/-- The chain meets a record twice. -/
def Repeats (records : List Bytes) (start : Option UInt8) : Prop :=
  ∃ numbers stop, Chain records start numbers stop ∧ ¬ numbers.Nodup

variable {records : List Bytes} {id : UInt8} {record record' : Bytes}
  {start stop stop' : Option UInt8} {numbers numbers' : List Nat}

theorem Names.unique (h : Names records id record) (h' : Names records id record') :
    record' = record := by
  obtain ⟨-, -, there, -⟩ := h
  obtain ⟨-, -, there', -⟩ := h'
  rw [there] at there'
  exact (Option.some.inj there').symm

/-- A byte that names a record is the number of one. -/
theorem Names.range (h : Names records id record) : 1 ≤ id.toNat ∧ id.toNat ≤ records.length := by
  obtain ⟨nonzero, -, there, -⟩ := h
  have inside := (List.getElem?_eq_some_iff.1 there).1
  have pos : id.toNat ≠ 0 := fun zero => nonzero (UInt8.toNat_inj.1 zero)
  omega

namespace Chain

theorem range (h : Chain records start numbers stop) {n : Nat} (mem : n ∈ numbers) :
    1 ≤ n ∧ n ≤ records.length := by
  induction h with
  | here => cases mem
  | hop named _ ih =>
    rcases List.mem_cons.1 mem with rfl | later
    · exact named.range
    · exact ih later

theorem length_le (h : Chain records start numbers stop) (nodup : numbers.Nodup) :
    numbers.length ≤ records.length := by
  have inside : numbers ⊆ List.range' 1 records.length := by
    intro n mem
    have := h.range mem
    rw [List.mem_range'_1]
    omega
  have fewer := (List.subperm_of_subset nodup inside).length_le
  rwa [List.length_range'] at fewer

theorem snoc (h : Chain records start numbers (some id)) (named : Names records id record) :
    Chain records start (numbers ++ [id.toNat]) record[12]? := by
  generalize last : some id = stop at h
  induction h with
  | here byte =>
    subst last
    exact .hop named (.here _)
  | hop first _ ih => exact .hop first (ih last)

theorem of_append {front : List Nat} (h : Chain records start (front ++ numbers) stop) :
    ∃ middle, Chain records middle numbers stop := by
  induction front generalizing start with
  | nil => exact ⟨start, h⟩
  | cons n front ih =>
    cases h with
    | hop _ onward => exact ih onward

/-- There is one way to go on, so that no chain is longer than one that has ended. -/
theorem prefix_of_ends (h : Chain records start numbers stop) (ends : Ends records stop)
    (h' : Chain records start numbers' stop') : numbers' <+: numbers := by
  induction h generalizing numbers' with
  | here byte =>
    cases h' with
    | here => exact List.prefix_rfl
    | hop named => exact absurd named (ends _ _ rfl)
  | hop named onward ih =>
    cases h' with
    | here => exact List.nil_prefix
    | hop named' onward' =>
      rw [named.unique named'] at onward'
      exact List.cons_prefix_cons.2 ⟨rfl, ih ends onward'⟩

theorem nodup_of_ends (h : Chain records start numbers stop) (ends : Ends records stop) :
    numbers.Nodup := by
  induction h with
  | here => exact List.nodup_nil
  | @hop id record numbers stop named onward ih =>
    refine List.nodup_cons.2 ⟨fun again => ?_, ih ends⟩
    -- the second time the chain is at the record it has less way ahead than the first time
    obtain ⟨front, back, rfl⟩ := List.append_of_mem again
    obtain ⟨middle, later⟩ := of_append onward
    generalize same : id.toNat = n at later
    cases later with
    | hop named' onward' =>
      obtain rfl := UInt8.toNat_inj.1 same
      rw [named.unique named'] at onward'
      have longer := (prefix_of_ends onward' ends onward).length_le
      rw [List.length_append, List.length_cons] at longer
      omega

end Chain

/-! ## The reader -/

/-- The numbers of the records that the reader looks at in so many hops. -/
def visited (records : List Bytes) : Nat → Option UInt8 → List Nat
  | 0, _ => []
  | _ + 1, none => []
  | hops + 1, some id =>
    match numbered? records id.toNat with
    | none => []
    | some record =>
      id.toNat ::
        if record.head? = some extensionType then visited records hops (nextOf record) else []

/-- The digits that the record with a number adds, if its type says that it holds some. -/
def digitsAt (records : List Bytes) (n : Nat) : Text :=
  match numbered? records n with
  | some record => if record.head? = some extensionType then digitsOf record else []
  | none => []

/-- The digits of the records with these numbers, one after the other. -/
def digitsAlong (records : List Bytes) (numbers : List Nat) : Text :=
  numbers.flatMap (digitsAt records)

theorem length_visited_le (records : List Bytes) (hops : Nat) (start : Option UInt8) :
    (visited records hops start).length ≤ hops := by
  fun_induction visited records hops start with
  | case1 | case2 | case3 => exact Nat.zero_le _
  | case4 hops id record _ ih =>
    rw [List.length_cons]
    split
    · omega
    · simp

/-- The reader appends what it finds in the records that it looks at. -/
theorem extensionDigits_eq (records : List Bytes) (hops : Nat) (start : Option UInt8) :
    extensionDigits records hops start = digitsAlong records (visited records hops start) := by
  fun_induction visited records hops start with
  | case1 | case2 => rfl
  | case3 hops id missing =>
    unfold extensionDigits
    rw [missing]
    rfl
  | case4 hops id record there ih =>
    have first : digitsAt records id.toNat =
        if record.head? = some extensionType then digitsOf record else [] := by
      unfold digitsAt
      rw [there]
    unfold extensionDigits digitsAlong
    rw [there, List.flatMap_cons, first]
    dsimp only
    split
    · rw [ih]
      rfl
    · rfl

/-! ## What the reader finds -/

theorem bind_extension?_eq_some_iff {byte : Option UInt8} :
    byte.bind extension? = some id ↔ byte = some id ∧ id ≠ 0x00 ∧ id ≠ 0xFF := by
  cases byte with
  | none => simp
  | some b =>
    rw [Option.bind_some, extension?]
    split
    · next none =>
      simp only [reduceCtorEq, Option.some.injEq, false_iff, not_and]
      rintro rfl nonzero filled
      exact none.elim nonzero filled
    · next named =>
      obtain ⟨nonzero, filled⟩ := not_or.1 named
      simp only [Option.some.injEq, iff_self_and]
      rintro rfl
      exact ⟨nonzero, filled⟩

/-- The byte that an address record has for its extension record is read once. -/
theorem extension_decode_bind (file : FileId) (recordNumber : Nat) (raw : Bytes) :
    (decode file recordNumber raw).extension.bind extension? =
      (decode file recordNumber raw).extension := by
  unfold decode
  split
  · rfl
  · dsimp only
    cases h : raw[raw.length - footerLen + extensionPosition]?.bind extension? with
    | none => rfl
    | some id =>
      exact bind_extension?_eq_some_iff.2 ⟨rfl, (bind_extension?_eq_some_iff.1 h).2⟩

theorem numbered?_of_ne_zero (nonzero : id ≠ 0x00) :
    numbered? records id.toNat = records[id.toNat - 1]? := by
  have pos : id.toNat ≠ 0 := fun zero => nonzero (UInt8.toNat_inj.1 zero)
  cases number : id.toNat with
  | zero => exact absurd number pos
  | succ n => rfl

theorem Names.numbered?_eq (h : Names records id record) :
    numbered? records id.toNat = some record :=
  (numbered?_of_ne_zero h.1).trans h.2.2.1

theorem Names.head?_eq (h : Names records id record) : record.head? = some extensionType := by
  rw [List.head?_eq_getElem?]
  exact h.2.2.2

theorem Names.digitsAt_eq (h : Names records id record) :
    digitsAt records id.toNat = digitsOf record := by
  unfold digitsAt
  rw [h.numbered?_eq]
  exact if_pos h.head?_eq

theorem digitsOf_eq_ite (record : Bytes) :
    digitsOf record =
      if 2 + (record[1]?.getD 0x00).toNat ≤ record.length then
        Dialling.digits ((record.drop 2).take (record[1]?.getD 0x00).toNat)
      else [] := by
  match record with
  | [] => rfl
  | [_] => rfl
  | _ :: length :: rest =>
    have room : 2 + length.toNat ≤ rest.length + 1 + 1 ↔ length.toNat ≤ rest.length := by omega
    simp [digitsOf, room]

/-- What the reader finds in so many hops are the digits along a chain of no more records. If it
finds fewer the chain has ended there. -/
theorem exists_chain (records : List Bytes) (hops : Nat) (byte : Option UInt8) :
    ∃ numbers stop, Chain records byte numbers stop ∧ numbers.length ≤ hops ∧
      (numbers.length < hops → Ends records stop) ∧
      extensionDigits records hops (byte.bind extension?) = digitsAlong records numbers := by
  induction hops generalizing byte with
  | zero =>
    refine ⟨[], byte, .here byte, Nat.le_refl _, nofun, ?_⟩
    rw [extensionDigits]
    rfl
  | succ hops ih =>
    by_cases onward : ∃ id record, byte = some id ∧ Names records id record
    · obtain ⟨id, record, rfl, named⟩ := onward
      obtain ⟨numbers, stop, chain, short, ends, digits⟩ := ih record[12]?
      refine ⟨id.toNat :: numbers, stop, .hop named chain, Nat.succ_le_succ short,
        fun fewer => ends (Nat.lt_of_succ_lt_succ fewer), ?_⟩
      have valid : (some id).bind extension? = some id :=
        bind_extension?_eq_some_iff.2 ⟨rfl, named.1, named.2.1⟩
      rw [valid, extensionDigits, named.numbered?_eq]
      dsimp only
      rw [if_pos named.head?_eq, nextOf, nextPosition, digits, digitsAlong, digitsAlong,
        List.flatMap_cons, named.digitsAt_eq]
    · have ends : Ends records byte := fun id record same named => onward ⟨id, record, same, named⟩
      refine ⟨[], byte, .here byte, Nat.zero_le _, fun _ => ends, ?_⟩
      cases valid : byte.bind extension? with
      | none => rfl
      | some id =>
        obtain ⟨same, nonzero, filled⟩ := bind_extension?_eq_some_iff.1 valid
        rw [extensionDigits]
        cases there : numbered? records id.toNat with
        | none => rfl
        | some record =>
          refine if_neg fun type => ends id record same ⟨nonzero, filled, ?_, ?_⟩
          · rw [← numbered?_of_ne_zero nonzero, there]
          · rw [← List.head?_eq_getElem?]
            exact type

/-- If the chain meets no record twice, the digits found in as many hops as there are records are
all that are in it. -/
theorem exists_whole_chain {byte : Option UInt8} (simple : ¬ Repeats records byte) :
    ∃ numbers stop, Chain records byte numbers stop ∧ Ends records stop ∧
      extensionDigits records records.length (byte.bind extension?) =
        digitsAlong records numbers := by
  obtain ⟨numbers, stop, chain, short, ends, digits⟩ := exists_chain records records.length byte
  refine ⟨numbers, stop, chain, ?_, digits⟩
  rintro id record rfl named
  -- otherwise one more record is met, and that is more than there are
  have whole : numbers.length = records.length :=
    Nat.le_antisymm short (Nat.not_lt.1 fun fewer => ends fewer id record rfl named)
  have longer := chain.snoc named
  have nodup : (numbers ++ [id.toNat]).Nodup :=
    Decidable.not_not.1 fun again => simple ⟨_, _, longer, again⟩
  have bound := longer.length_le nodup
  rw [List.length_append, List.length_singleton] at bound
  omega

/-- If the chain meets a record twice it does not end, and as many hops are made as there are
records. -/
theorem exists_full_chain {byte : Option UInt8} (repeats : Repeats records byte) :
    ∃ numbers stop, Chain records byte numbers stop ∧ numbers.length = records.length ∧
      extensionDigits records records.length (byte.bind extension?) =
        digitsAlong records numbers := by
  obtain ⟨numbers, stop, chain, short, ends, digits⟩ := exists_chain records records.length byte
  refine ⟨numbers, stop, chain, Nat.le_antisymm short (Nat.not_lt.1 fun fewer => ?_), digits⟩
  obtain ⟨numbers', stop', chain', again⟩ := repeats
  have part := chain.prefix_of_ends (ends fewer) chain'
  exact again ((chain.nodup_of_ends (ends fewer)).sublist part.sublist)

/-- Whatever the extension records hold, the number of an entry, whose extension record is the one
that some address record names, is extended by the digits of the records that are looked at, which
are at most as many as there are. Each record of the chain has the digits that it says, or none if
its length goes past its end. A chain that meets no record twice is followed to where it ends; of
one that does, as many records are read as there are. -/
theorem number_extended (e : Entry) (raw : Bytes) (records : List Bytes)
    (named : e.extension = (decode e.file e.recordNumber raw).extension) :
    let visits := visited records records.length e.extension
    visits.length ≤ records.length ∧
    e.extend records = { e with number := e.number ++ digitsAlong records visits } ∧
    (∀ id record, Names records id record → digitsAt records id.toNat =
      if 2 + (record[1]?.getD 0x00).toNat ≤ record.length then
        Dialling.digits ((record.drop 2).take (record[1]?.getD 0x00).toNat)
      else []) ∧
    (¬ Repeats records e.extension → ∃ numbers stop,
      Chain records e.extension numbers stop ∧ Ends records stop ∧
      e.extend records = { e with number := e.number ++ digitsAlong records numbers }) ∧
    (Repeats records e.extension → ∃ numbers stop,
      Chain records e.extension numbers stop ∧ numbers.length = records.length ∧
      e.extend records = { e with number := e.number ++ digitsAlong records numbers }) := by
  intro visits
  have extended (digits : Text)
      (h : extensionDigits records records.length (e.extension.bind extension?) = digits) :
      e.extend records = { e with number := e.number ++ digits } := by
    rw [named, extension_decode_bind, ← named] at h
    unfold extend
    rw [h]
  refine ⟨length_visited_le _ _ _, ?_, fun id record names => ?_, fun simple => ?_,
    fun repeats => ?_⟩
  · unfold extend
    rw [extensionDigits_eq]
  · rw [names.digitsAt_eq, digitsOf_eq_ite]
  · obtain ⟨numbers, stop, chain, ends, digits⟩ := exists_whole_chain simple
    exact ⟨numbers, stop, chain, ends, extended _ digits⟩
  · obtain ⟨numbers, stop, chain, whole, digits⟩ := exists_full_chain repeats
    exact ⟨numbers, stop, chain, whole, extended _ digits⟩

/-- Two extension records with a digit each, the second of which leads back to the first. Both are
read, and then no more. -/
theorem number_extended_loop :
    let e := decode (.ofNat 0x4F3A) 1 (Bytes.blank 13 ++ [0x01])
    let records : List Bytes := [[0x02, 0x01, 0xF1] ++ Bytes.blank 9 ++ [0x02],
      [0x02, 0x01, 0xF2] ++ Bytes.blank 9 ++ [0x01]]
    Repeats records e.extension ∧ ∃ numbers stop, Chain records e.extension numbers stop ∧
      numbers.length = 2 ∧ digitsAlong records numbers = (e.extend records).number ∧
      (e.extend records).number = ['1', '2'] := by
  intro e records
  have first : Names records 0x01 ([0x02, 0x01, 0xF1] ++ Bytes.blank 9 ++ [0x02]) :=
    ⟨by decide, by decide, rfl, rfl⟩
  have second : Names records 0x02 ([0x02, 0x01, 0xF2] ++ Bytes.blank 9 ++ [0x01]) :=
    ⟨by decide, by decide, rfl, rfl⟩
  have repeats : Repeats records e.extension :=
    ⟨[1, 2, 1], some 0x02, .hop first (.hop second (.hop first (.here _))), by decide⟩
  obtain ⟨-, -, -, -, full⟩ := number_extended e (Bytes.blank 13 ++ [0x01]) records rfl
  obtain ⟨numbers, stop, chain, whole, extended⟩ := full repeats
  exact ⟨repeats, numbers, stop, chain, whole, by rw [extended]; rfl, by decide +kernel⟩

end UsimPhonebook.Entry
