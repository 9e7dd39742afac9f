import UsimPhonebook.Bytes
import UsimPhonebook.Proofs.Card.BlockFiles
import UsimPhonebook.Proofs.Tlv
import UsimPhonebook.Proofs.Traversal

/-! # The last child counts

What a reference table says, read off the places at which children stand in its records. A place is
the number of a record, of an object in it and of an object in that one (`Reference.Stands`), and
places are in the order in which a reader comes by them (`Place.Before`).

* `mem_standing`, `pairwise_standing` : the children that are gone through are those that stand
  somewhere, each behind the places of the ones before it
* `findSome?_standing` : what is kept of them comes from the last one that was asked for
* `Table.last_child_counts` : the files of a block, the linkage of a kind, tables of more records
-/

namespace UsimPhonebook

/-- A reader at the start of the buffer hands out the object on its call `n`, counted from 0. -/
def Tlv.Yields (buffer : Bytes) (n : Nat) (o : Tlv.Object) : Prop :=
  ((Tlv.Reader.start buffer).after n).next.1 = some o

theorem Tlv.yields_iff {buffer : Bytes} {n : Nat} {o : Tlv.Object} :
    Tlv.Yields buffer n o ↔ (Tlv.objects buffer)[n]? = some o := by
  unfold Tlv.Yields
  rw [(Tlv.Reader.reads_objects buffer n).1]

theorem pairwise_zipIdx {α : Type} (items : List α) :
    items.zipIdx.Pairwise fun a b => a.2 < b.2 := by
  rw [List.pairwise_iff_getElem]
  intro i j _ _ lt
  simpa using lt

namespace Reference

/-! ## Places -/

/-- Where a child stands. -/
structure Place where
  record : Nat
  /-- the place of its container among the objects of the record -/
  container : Nat
  /-- its place among the objects of the container -/
  ordinal : Nat
  deriving DecidableEq, Repr

namespace Place

/-- A reader that goes through the records, the containers and their children comes by `a`
before it comes by `b`. -/
def Before (a b : Place) : Prop :=
  a.record < b.record ∨ a.record = b.record ∧
    (a.container < b.container ∨ a.container = b.container ∧ a.ordinal < b.ordinal)

theorem Before.asymm {a b : Place} (h : a.Before b) : ¬ b.Before a := by
  unfold Before at *
  omega

end Place

/-- The child stands at the place, in the container. -/
structure Stands (records : List Bytes) (place : Place) (container child : Tlv.Object) : Prop where
  inside : ∃ record, records[place.record]? = some record ∧
    Tlv.Yields record place.container container
  tag : container.tag = 0xA8 ∨ container.tag = 0xA9 ∨ container.tag = 0xAA
  yields : Tlv.Yields container.value place.ordinal child

/-- The child is one of those asked for, and none of them stands behind it. -/
structure StandsLast (records : List Bytes) (Asked : Place → Tlv.Object → Tlv.Object → Prop)
    (place : Place) (container child : Tlv.Object) : Prop where
  stands : Stands records place container child
  asked : Asked place container child
  last : ∀ later container' child', Stands records later container' child' →
    place.Before later → ¬ Asked later container' child'

/-- The children of a record, with their places and containers. -/
def standingIn (index : Nat) (record : Bytes) : List (Place × Tlv.Object × Tlv.Object) :=
  ((Tlv.objects record).zipIdx.filter fun (container, _) => isContainer container.tag).flatMap
    fun (container, at') => (Tlv.objects container.value).zipIdx.map
      fun (child, ordinal) => (⟨index, at', ordinal⟩, container, child)

/-- The children of all records, with their places and containers. -/
def standing (records : List Bytes) : List (Place × Tlv.Object × Tlv.Object) :=
  records.zipIdx.flatMap fun (record, index) => standingIn index record

/-- A child without the record and the container that it stands in. -/
def childOf (found : Place × Tlv.Object × Tlv.Object) : Child :=
  ⟨found.2.1.tag, found.1.ordinal, found.2.2⟩

theorem isContainer_iff (tag : UInt8) :
    isContainer tag = true ↔ tag = 0xA8 ∨ tag = 0xA9 ∨ tag = 0xAA := by
  simp [isContainer, pointedContainer, or_assoc]

theorem mem_standingIn {index : Nat} {record : Bytes} {place : Place}
    {container child : Tlv.Object} :
    (place, container, child) ∈ standingIn index record ↔
      place.record = index ∧ Stands [record] { place with record := 0 } container child := by
  obtain ⟨i, p, q⟩ := place
  unfold standingIn
  simp only [List.mem_flatMap, List.mem_filter, List.mem_map, Prod.exists, Prod.mk.injEq,
    Place.mk.injEq, List.mem_zipIdx_iff_getElem?, isContainer_iff]
  constructor
  · rintro ⟨_, _, ⟨there, tag⟩, _, _, here, ⟨rfl, rfl, rfl⟩, rfl, rfl⟩
    exact ⟨rfl, ⟨record, rfl, Tlv.yields_iff.2 there⟩, tag, Tlv.yields_iff.2 here⟩
  · rintro ⟨rfl, ⟨_, only, there⟩, tag, here⟩
    cases only
    exact ⟨_, _, ⟨Tlv.yields_iff.1 there, tag⟩, _, _, Tlv.yields_iff.1 here, ⟨rfl, rfl, rfl⟩,
      rfl, rfl⟩

theorem mem_standing {records : List Bytes} {place : Place} {container child : Tlv.Object} :
    (place, container, child) ∈ standing records ↔ Stands records place container child := by
  unfold standing
  simp only [List.mem_flatMap, Prod.exists, List.mem_zipIdx_iff_getElem?, mem_standingIn]
  constructor
  · rintro ⟨record, _, here, rfl, ⟨_, only, there⟩, tag, yields⟩
    cases only
    exact ⟨⟨record, here, there⟩, tag, yields⟩
  · rintro ⟨⟨record, here, there⟩, tag, yields⟩
    exact ⟨record, _, here, rfl, ⟨record, rfl, there⟩, tag, yields⟩

/-- The children of a record are gone through in the order of their places. -/
theorem pairwise_standingIn (index : Nat) (record : Bytes) :
    (standingIn index record).Pairwise fun a b => a.1.Before b.1 := by
  unfold standingIn
  rw [List.pairwise_flatMap]
  constructor
  · rintro ⟨container, at'⟩ -
    rw [List.pairwise_map]
    exact (pairwise_zipIdx _).imp fun lt => .inr ⟨rfl, .inr ⟨rfl, lt⟩⟩
  · refine ((pairwise_zipIdx _).filter _).imp fun {a b} lt => ?_
    rintro x hx y hy
    obtain ⟨_, -, rfl⟩ := List.mem_map.1 hx
    obtain ⟨_, -, rfl⟩ := List.mem_map.1 hy
    exact .inr ⟨rfl, .inl lt⟩

theorem pairwise_standing (records : List Bytes) :
    (standing records).Pairwise fun a b => a.1.Before b.1 := by
  unfold standing
  rw [List.pairwise_flatMap]
  refine ⟨fun _ _ => pairwise_standingIn _ _, ?_⟩
  refine (pairwise_zipIdx _).imp fun {a b} lt => ?_
  intro x hx y hy
  have first : x.1.record = a.2 := (mem_standingIn.1 hx).1
  have second : y.1.record = b.2 := (mem_standingIn.1 hy).1
  rw [← first, ← second] at lt
  exact .inl lt

theorem children_eq (index : Nat) (record : Bytes) :
    children record = (standingIn index record).map childOf := by
  unfold children standingIn
  conv_lhs => rw [← List.zipIdx_map_fst 0 (Tlv.objects record)]
  rw [List.filter_map, List.flatMap_map, List.map_flatMap]
  refine List.flatMap_congr fun found _ => ?_
  rw [List.map_map]
  rfl

theorem flatMap_children (records : List Bytes) :
    records.flatMap children = (standing records).map childOf := by
  unfold standing
  conv_lhs => rw [← List.zipIdx_map_fst 0 records]
  rw [List.flatMap_map, List.map_flatMap]
  exact List.flatMap_congr fun found _ => children_eq found.2 found.1

theorem mem_standingIn_of_record {records : List Bytes} {i : Nat} {record : Bytes}
    (here : records[i]? = some record) {found : Place × Tlv.Object × Tlv.Object} :
    found ∈ standingIn i record ↔ found ∈ standing records ∧ found.1.record = i := by
  unfold standing
  simp only [List.mem_flatMap, Prod.exists, List.mem_zipIdx_iff_getElem?]
  constructor
  · intro mem
    exact ⟨⟨record, i, here, mem⟩, (mem_standingIn.1 mem).1⟩
  · rintro ⟨⟨record', i', here', mem⟩, rfl⟩
    obtain rfl := (mem_standingIn.1 mem).1
    cases here.symm.trans here'
    exact mem

/-- Going through one record is going through all of them and passing over the others. -/
theorem findSome?_standingIn {γ : Type} {records : List Bytes} {i : Nat} {record : Bytes}
    (here : records[i]? = some record) (f : Place × Tlv.Object × Tlv.Object → Option γ) :
    (standingIn i record).reverse.findSome? f =
      (standing records).reverse.findSome? fun found =>
        if found.1.record = i then f found else none := by
  have asymm (a b : Place × Tlv.Object × Tlv.Object) : a.1.Before b.1 → ¬ b.1.Before a.1 :=
    Place.Before.asymm
  refine Option.ext fun c => ?_
  rw [findSome?_reverse_eq_some_iff asymm (pairwise_standingIn i record),
    findSome?_reverse_eq_some_iff asymm (pairwise_standing records)]
  constructor
  · rintro ⟨a, mem, found, none⟩
    obtain ⟨mem, inside⟩ := (mem_standingIn_of_record here).1 mem
    refine ⟨a, mem, by rwa [if_pos inside], fun b mem' later => ?_⟩
    by_cases same : b.1.record = i
    · rw [if_pos same]
      exact none b ((mem_standingIn_of_record here).2 ⟨mem', same⟩) later
    · rw [if_neg same]
  · rintro ⟨a, mem, found, none⟩
    by_cases inside : a.1.record = i
    · rw [if_pos inside] at found
      refine ⟨a, (mem_standingIn_of_record here).2 ⟨mem, inside⟩, found, fun b mem' later => ?_⟩
      obtain ⟨mem', same⟩ := (mem_standingIn_of_record here).1 mem'
      have nothing := none b mem' later
      rwa [if_pos same] at nothing
    · rw [if_neg inside] at found
      cases found

/-- What is kept of all children comes from the last one that was asked for. -/
theorem findSome?_standing {γ : Type} {records : List Bytes}
    {f : Place × Tlv.Object × Tlv.Object → Option γ}
    {Asked : Place → Tlv.Object → Tlv.Object → Prop}
    (silent : ∀ place container child, f (place, container, child) = none ↔
      ¬ Asked place container child) (c : γ) :
    (standing records).reverse.findSome? f = some c ↔ ∃ place container child,
      StandsLast records Asked place container child ∧ f (place, container, child) = some c := by
  rw [findSome?_reverse_eq_some_iff (fun _ _ => Place.Before.asymm) (pairwise_standing records)]
  constructor
  · rintro ⟨⟨place, container, child⟩, mem, here, none⟩
    refine ⟨place, container, child, ⟨mem_standing.1 mem, ?_, ?_⟩, here⟩
    · refine Classical.byContradiction fun no => ?_
      rw [(silent place container child).2 no] at here
      cases here
    · intro later container' child' stands before
      exact (silent _ _ _).1 (none (later, container', child') (mem_standing.2 stands) before)
  · rintro ⟨place, container, child, ⟨stands, -, last⟩, here⟩
    refine ⟨_, mem_standing.2 stands, here, ?_⟩
    rintro ⟨later, container', child'⟩ mem before
    exact (silent _ _ _).2 (last later container' child' (mem_standing.1 mem) before)

theorem findSome?_standing_eq_none {γ : Type} {records : List Bytes}
    {f : Place × Tlv.Object × Tlv.Object → Option γ}
    {Asked : Place → Tlv.Object → Tlv.Object → Prop}
    (silent : ∀ place container child, f (place, container, child) = none ↔
      ¬ Asked place container child) :
    (standing records).reverse.findSome? f = none ↔ ∀ place container child,
      Stands records place container child → ¬ Asked place container child := by
  rw [List.findSome?_eq_none_iff]
  constructor
  · intro none place container child stands
    exact (silent _ _ _).1 (none _ (List.mem_reverse.2 (mem_standing.2 stands)))
  · rintro none ⟨place, container, child⟩ mem
    exact (silent _ _ _).2 (none _ _ _ (mem_standing.1 (List.mem_reverse.1 mem)))

/-! ## Blocks -/

/-- The child stands in this record and names a file for the tag. -/
def NamesFile (i : Nat) (tag : FileTag) (place : Place) (_container child : Tlv.Object) : Prop :=
  place.record = i ∧ child.tag = tag.byte ∧ 2 ≤ child.value.length

/-- The file that a child names for a tag. -/
def Child.fileFor? (tag : FileTag) (c : Child) : Option FileId :=
  if c.object.tag = tag.byte then FileId.ofBytes? c.object.value else none

namespace Block

theorem file?_addChild (tag : FileTag) (b : Block) (c : Child) :
    (b.addChild c).file? tag = (c.fileFor? tag).or (b.file? tag) := by
  unfold addChild Child.file? Child.fileFor?
  cases known : FileTag.ofByte? c.object.tag with
  | none =>
    have other : c.object.tag ≠ tag.byte := by
      intro same
      rw [same, FileTag.ofByte?_byte] at known
      cases known
    rw [if_neg other]
    rfl
  | some tag' =>
    have byte := FileTag.byte_of_ofByte? known
    cases named : FileId.ofBytes? c.object.value with
    | none =>
      simp only [ite_self, Option.none_or]
    | some file =>
      by_cases same : tag' = tag
      · subst same
        rw [if_pos byte.symm]
        exact SortedMap.find?_insert_self b.files tag' file
      · have other : c.object.tag ≠ tag.byte := by
          intro same'
          rw [same', FileTag.ofByte?_byte] at known
          exact same (Option.some.inj known).symm
        rw [if_neg other]
        exact SortedMap.find?_insert_of_ne b.files (Ne.symm same) file

theorem index_addChild (b : Block) (c : Child) : (b.addChild c).index = b.index := by
  unfold addChild
  split <;> rfl

theorem index_ofChildren (index : Nat) (cs : List Child) : (ofChildren index cs).index = index := by
  unfold ofChildren
  generalize start : ({ index } : Block) = b
  have : b.index = index := by rw [← start]
  clear start
  induction cs generalizing b with
  | nil => exact this
  | cons c rest ih => exact ih (b.addChild c) ((index_addChild b c).trans this)

theorem file?_ofChildren (index : Nat) (cs : List Child) (tag : FileTag) :
    (ofChildren index cs).file? tag = cs.reverse.findSome? (Child.fileFor? tag) := by
  unfold ofChildren
  have kept := foldl_override (file? · tag) (file?_addChild tag) { index } cs
  exact kept.trans Option.or_none

end Block

/-! ## Linkage -/

/-- The child links the kind through index-pointer records. -/
def LinksKind (kind : FieldKind) (_place : Place) (container child : Tlv.Object) : Prop :=
  container.tag = 0xA9 ∧ child.tag = (FileTag.ofKind kind).byte

theorem position?_linkageStep (kind : FieldKind) (linkage : Linkage) (c : Child) :
    (linkageStep kind linkage c).position? = (c.pointerOffset? kind).or linkage.position? := by
  unfold linkageStep
  cases c.pointerOffset? kind <;> rfl

theorem position?_foldl_linkageStep (kind : FieldKind) (linkage : Linkage) (cs : List Child) :
    (cs.foldl (linkageStep kind) linkage).position? =
      (cs.reverse.findSome? (Child.pointerOffset? kind)).or linkage.position? :=
  foldl_override Linkage.position? (position?_linkageStep kind) linkage cs

theorem position?_injective {a b : Linkage} (h : a.position? = b.position?) : a = b := by
  cases a <;> cases b <;> simp_all [Linkage.position?]

theorem linkageOf_append (kind : FieldKind) (first second : List Child) :
    linkageOf kind (first ++ second) =
      if (linkageOf kind second).isType2 then linkageOf kind second else linkageOf kind first := by
  apply position?_injective
  have settled := position?_foldl_linkageStep kind .type1 second
  unfold linkageOf
  rw [List.foldl_append, position?_foldl_linkageStep]
  cases later : second.foldl (linkageStep kind) .type1 with
  | type1 =>
    rw [later] at settled
    have nothing : second.reverse.findSome? (Child.pointerOffset? kind) = none := by
      simpa [Linkage.position?] using settled.symm
    rw [nothing]
    rfl
  | type2 offset =>
    rw [later] at settled
    have something : second.reverse.findSome? (Child.pointerOffset? kind) = some offset := by
      simpa [Linkage.position?] using settled.symm
    rw [something]
    rfl

/-! ## Tables -/

section

variable {place : Place} {container child : Tlv.Object}

theorem fileFor?_of_names {i : Nat} {tag : FileTag} (h : NamesFile i tag place container child) :
    (childOf (place, container, child)).fileFor? tag = FileId.ofBytes? child.value :=
  if_pos h.2.1

theorem fileFor?_eq_none_iff (i : Nat) (tag : FileTag) :
    (if place.record = i then (childOf (place, container, child)).fileFor? tag else none) = none ↔
      ¬ NamesFile i tag place container child := by
  have long (value : Bytes) : FileId.ofBytes? value = none ↔ ¬ 2 ≤ value.length := by
    match value with
    | [] | [_] => simp [FileId.ofBytes?]
    | _ :: _ :: _ => simp [FileId.ofBytes?]
  unfold NamesFile
  by_cases inside : place.record = i
  · by_cases same : child.tag = tag.byte
    · rw [if_pos inside, show (childOf (place, container, child)).fileFor? tag = _ from if_pos same,
        long]
      simp [inside, same, childOf]
    · rw [if_pos inside, show (childOf (place, container, child)).fileFor? tag = _ from if_neg same]
      simp [same]
  · rw [if_neg inside]
    simp [inside]

theorem pointerOffset?_of_links {kind : FieldKind} (h : LinksKind kind place container child) :
    (childOf (place, container, child)).pointerOffset? kind = some place.ordinal :=
  if_pos h

theorem pointerOffset?_eq_none_iff (kind : FieldKind) :
    (childOf (place, container, child)).pointerOffset? kind = none ↔
      ¬ LinksKind kind place container child := by
  constructor
  · intro nothing links
    rw [pointerOffset?_of_links links] at nothing
    cases nothing
  · exact fun other => if_neg other

end

namespace Block

/-- The block, its record some records later. -/
def renumber (n : Nat) (b : Block) : Block := { b with index := n + b.index }

theorem renumber_ofChildren (n index : Nat) (cs : List Child) :
    (ofChildren index cs).renumber n = ofChildren (n + index) cs := by
  unfold ofChildren
  generalize start : ({ index } : Block) = b
  have moved : ({ index := n + index } : Block) = b.renumber n := by rw [← start]; rfl
  rw [moved]
  clear moved start
  induction cs generalizing b with
  | nil => rfl
  | cons c rest ih =>
    have step : (b.renumber n).addChild c = (b.addChild c).renumber n := by
      unfold addChild
      split <;> rfl
    rw [List.foldl_cons, List.foldl_cons, step]
    exact ih (b.addChild c)

end Block

namespace Table

variable {records : List Bytes}

theorem getElem?_blocks_parse (i : Nat) : (parse records).blocks[i]? =
    records[i]?.map fun record => Block.ofChildren i (children record) := by
  unfold parse
  rw [List.getElem?_map, List.getElem?_zipIdx, Option.map_map, Nat.zero_add]
  rfl

theorem file?_block {i : Nat} {block : Block} (here : (parse records).blocks[i]? = some block)
    (tag : FileTag) : block.file? tag = (standing records).reverse.findSome? fun found =>
      if found.1.record = i then (childOf found).fileFor? tag else none := by
  rw [getElem?_blocks_parse] at here
  obtain ⟨record, inside, rfl⟩ := Option.map_eq_some_iff.1 here
  rw [Block.file?_ofChildren, children_eq i, ← List.map_reverse, List.findSome?_map,
    findSome?_standingIn inside]
  rfl

theorem position?_linkage (kind : FieldKind) : ((parse records).linkage kind).position? =
    (standing records).reverse.findSome? fun found => (childOf found).pointerOffset? kind := by
  have start : Linkage.type1.position? = none := rfl
  rw [linkage_parse, linkageOf, position?_foldl_linkageStep, flatMap_children, ← List.map_reverse,
    List.findSome?_map, start, Option.or_none]
  rfl

/-- Records that come later make blocks of their own, and settle the linkage if they can. -/
theorem parse_append (first second : List Bytes) :
    (parse (first ++ second)).blocks =
        (parse first).blocks ++ (parse second).blocks.map (Block.renumber first.length) ∧
      ∀ kind, (parse (first ++ second)).linkage kind =
        if ((parse second).linkage kind).isType2 then (parse second).linkage kind
        else (parse first).linkage kind := by
  constructor
  · refine List.ext_getElem? fun i => ?_
    rw [getElem?_blocks_parse]
    rcases Nat.lt_or_ge i first.length with inside | beyond
    · rw [List.getElem?_append_left inside, List.getElem?_append_left (by simpa using inside),
        getElem?_blocks_parse]
    · rw [List.getElem?_append_right beyond, List.getElem?_append_right (by simpa using beyond),
        length_blocks_parse, List.getElem?_map, getElem?_blocks_parse, Option.map_map]
      refine congrArg (Option.map · _) (funext fun record => ?_)
      rw [Function.comp_apply, Block.renumber_ofChildren, Nat.add_sub_cancel' beyond]
  · intro kind
    rw [linkage_parse, linkage_parse, linkage_parse, List.flatMap_append, linkageOf_append]

theorem ofBytes?_eq_some_iff {value : Bytes} {file : FileId} :
    FileId.ofBytes? value = some file ↔
      ∃ hi lo rest, value = hi :: lo :: rest ∧ file.toNat = hi.toNat * 256 + lo.toNat := by
  constructor
  · intro named
    unfold FileId.ofBytes? at named
    split at named
    · cases named
      exact ⟨_, _, _, rfl, Bytes.toNat_word _ _⟩
    · cases named
  · rintro ⟨hi, lo, rest, rfl, number⟩
    have same : Bytes.word hi lo = file.value :=
      UInt16.toNat_inj.1 ((Bytes.toNat_word hi lo).trans number.symm)
    rw [FileId.ofBytes?, same]

/-- Block `i` belongs to record `i`. It has for each tag the file in the first two bytes of the last
child of its record with this tag and that many bytes, and no file without such a child. A kind is
linked through the byte with the place, among all children of its container, of the last child with
its tag that stands in a container `0xA9` of any record, and by position without such a child. So
a table of more records has the blocks of the first ones and then those of the others, and the
linkage that the others settle or else that of the first ones. -/
theorem last_child_counts (records : List Bytes) :
    (parse records).blocks.length = records.length ∧
    (∀ i block, (parse records).blocks[i]? = some block → block.index = i ∧ ∀ tag : FileTag,
      (∀ file : FileId, block.file? tag = some file ↔
        ∃ place container child, StandsLast records (NamesFile i tag) place container child ∧
          ∃ hi lo rest, child.value = hi :: lo :: rest ∧
            file.toNat = hi.toNat * 256 + lo.toNat) ∧
      (block.file? tag = none ↔ ∀ place container child,
        Stands records place container child → ¬ NamesFile i tag place container child)) ∧
    (∀ kind,
      (∀ offset, (parse records).linkage kind = .type2 offset ↔
        ∃ place container child, StandsLast records (LinksKind kind) place container child ∧
          place.ordinal = offset) ∧
      ((parse records).linkage kind = .type1 ↔ ∀ place container child,
        Stands records place container child → ¬ LinksKind kind place container child)) ∧
    ∀ more : List Bytes,
      (parse (records ++ more)).blocks =
          (parse records).blocks ++ (parse more).blocks.map (Block.renumber records.length) ∧
        ∀ kind, (parse (records ++ more)).linkage kind =
          if ((parse more).linkage kind).isType2 then (parse more).linkage kind
          else (parse records).linkage kind := by
  refine ⟨length_blocks_parse records, fun i block here => ⟨?_, fun tag => ⟨fun file => ?_, ?_⟩⟩,
    fun kind => ⟨fun offset => ?_, ?_⟩, parse_append records⟩
  · rw [getElem?_blocks_parse] at here
    obtain ⟨record, -, rfl⟩ := Option.map_eq_some_iff.1 here
    exact Block.index_ofChildren i _
  · rw [file?_block here,
      findSome?_standing fun place container child => fileFor?_eq_none_iff i tag]
    refine exists_congr fun place => exists_congr fun container => exists_congr fun child =>
      and_congr_right fun last => ?_
    rw [if_pos last.asked.1, fileFor?_of_names last.asked, ofBytes?_eq_some_iff]
  · rw [file?_block here,
      findSome?_standing_eq_none fun place container child => fileFor?_eq_none_iff i tag]
  · rw [← Linkage.position?_eq_some_iff, position?_linkage,
      findSome?_standing fun place container child => pointerOffset?_eq_none_iff kind]
    refine exists_congr fun place => exists_congr fun container => exists_congr fun child =>
      and_congr_right fun last => ?_
    rw [pointerOffset?_of_links last.asked, Option.some.injEq]
  · have positional (linkage : Linkage) : linkage = .type1 ↔ linkage.position? = none := by
      cases linkage <;> simp [Linkage.position?]
    rw [positional, position?_linkage,
      findSome?_standing_eq_none fun place container child => pointerOffset?_eq_none_iff kind]

/-- An email file that is named twice, the second time behind a child of no known tag, and a record
that names it once more with too short a value. -/
def twiceNamed : List Bytes :=
  [[0xA8, 0x08, 0xC0, 0x02, 0x6F, 0x3A, 0xCA, 0x02, 0x6F, 0x50,
    0xA9, 0x07, 0xDD, 0x01, 0x00, 0xCA, 0x02, 0x6F, 0x51, 0xFF],
   [0xA9, 0x09, 0xC4, 0x02, 0x6F, 0x11, 0xC3, 0x00, 0xCA, 0x01, 0x6F]]

theorem last_child_counts_twiceNamed :
    (∃ block, (parse twiceNamed).blocks[0]? = some block ∧
      ∃ place container child, StandsLast twiceNamed (NamesFile 0 .email) place container child ∧
        ∃ hi lo rest, child.value = hi :: lo :: rest ∧ 0x6F51 = hi.toNat * 256 + lo.toNat) ∧
    (∃ block, (parse twiceNamed).blocks[1]? = some block ∧ ∀ place container child,
      Stands twiceNamed place container child → ¬ NamesFile 1 .email place container child) ∧
    ∃ place container child, StandsLast twiceNamed (LinksKind .email) place container child ∧
      place.ordinal = 2 := by
  obtain ⟨-, blocks, linkage, -⟩ := last_child_counts twiceNamed
  obtain ⟨first, here⟩ : ∃ block, (parse twiceNamed).blocks[0]? = some block :=
    Option.isSome_iff_exists.1 (by decide +kernel)
  obtain ⟨second, there⟩ : ∃ block, (parse twiceNamed).blocks[1]? = some block :=
    Option.isSome_iff_exists.1 (by decide +kernel)
  have named : (parse twiceNamed).blocks[0]?.bind (·.file? .email) = some (.ofNat 0x6F51) := by
    decide +kernel
  have unnamed : (parse twiceNamed).blocks[1]?.bind (·.file? .email) = none := by decide +kernel
  rw [here] at named
  rw [there] at unnamed
  exact ⟨⟨first, here, (((blocks 0 first here).2 .email).1 (.ofNat 0x6F51)).1 named⟩,
    ⟨second, there, ((blocks 1 second there).2 .email).2.1 unnamed⟩,
    ((linkage .email).1 2).1 (by decide +kernel)⟩

end Table

end Reference

end UsimPhonebook
