import UsimPhonebook.Proofs.Session.Stages
import UsimPhonebook.Proofs.Session.Turns

/-! # The requests of a load

`Card.Asked` says which requests a card has served until it became another one, and
`Card.requestsUntil` gives them. What is asked for a block is asked for files that the block names,
and only reads (`Desk.asked_load`). A load asks for nothing but the table and its blocks, one after
the other (`Session.asked_turns`).

The address records of a block take one request, and another one for the extension records if they
are asked for (`Desk.asked_loadEntries`). Nothing is asked for a kind whose records are held, or
which has no file (`Desk.complete_idle`).
-/

namespace UsimPhonebook

namespace Card

/-- Since it was `card`, the card has served these requests. -/
def Asked (card : Card) (requests : List Request) (later : Card) : Prop :=
  later.history.map Served.request = requests.reverse ++ card.history.map Served.request

/-- The requests that the card has served since it was `card`, the first one first. -/
def requestsUntil (card later : Card) : List Request :=
  ((later.history.take (later.requestCount - card.requestCount)).map Served.request).reverse

variable {a b c : Card} {requests more : List Request}

theorem Asked.refl (card : Card) : card.Asked [] card := rfl

theorem Asked.trans (h : a.Asked requests b) (h' : b.Asked more c) :
    a.Asked (requests ++ more) c := by
  unfold Asked at h h' ⊢
  rw [h', h, List.reverse_append, List.append_assoc]

theorem Asked.requestCount_eq (h : a.Asked requests b) :
    b.requestCount = requests.length + a.requestCount := by
  have lengths := congrArg List.length h
  rwa [List.length_append, List.length_reverse, List.length_map, List.length_map] at lengths

theorem Asked.requestsUntil_eq (h : a.Asked requests b) : a.requestsUntil b = requests := by
  have count := h.requestCount_eq
  unfold requestsUntil
  rw [List.map_take, h, count, Nat.add_sub_cancel, ← List.length_reverse, List.take_left,
    List.reverse_reverse]

theorem asked_serve (card : Card) (request : Request) :
    card.Asked [request] (card.serve request).2 := by
  show request :: (card.respond request).2.history.map Served.request = _
  rw [history_respond]
  rfl

end Card

/-! ## A block -/

namespace Desk

variable {refs : Reference.Block} {table : Reference.Table} {share : Bool}

theorem asked_ask (d : Desk) (request : Request) :
    d.card.Asked [request] (d.ask request).2.card := by
  rw [card_ask]
  exact Card.asked_serve d.card request

/-- All requests that were made have the property. -/
def Asks (P : Request → Prop) (d d' : Desk) : Prop :=
  ∃ requests, d.card.Asked requests d'.card ∧ ∀ request ∈ requests, P request

theorem asked_load (refs : Reference.Block) (table : Reference.Table) (share : Bool) (d : Desk) :
    Asks refs.Consults d ((load refs table share).perform d).2 := by
  have refl (d : Desk) : Asks refs.Consults d d := ⟨[], .refl _, nofun⟩
  have trans (a b c : Desk) : Asks refs.Consults a b → Asks refs.Consults b c →
      Asks refs.Consults a c := by
    rintro ⟨first, asked, each⟩ ⟨second, asked', each'⟩
    exact ⟨first ++ second, asked.trans asked', fun request member =>
      (List.mem_append.1 member).elim (each request) (each' request)⟩
  have ask (d : Desk) (request : Request) (consults : refs.Consults request) :
      Asks refs.Consults d (d.ask request).2 :=
    ⟨[request], asked_ask d request, fun _ member => List.mem_singleton.1 member ▸ consults⟩
  exact within_load refl trans ask
    (fun _ => within_loadPointers refl trans ask fun _ d => refl d) (fun _ _ d => refl d) share d

/-- The requests for the address records in a file, by what the first of them gives: another one
follows if some record names an extension record, and the block has a file of those. -/
def addressRequests (refs : Reference.Block) (id : FileId)
    (answer : Except TransportError (List Bytes)) : List Request :=
  match answer with
  | .ok records =>
    if (decodeEntries id records).any (·.extension.isSome) then
      .readAll id :: (refs.file? .ext1).toList.map .readAll
    else [.readAll id]
  | .error _ => [.readAll id]

theorem asked_extendEntries (refs : Reference.Block) (es : List Entry) (d : Desk) :
    d.card.Asked ((extensionFile? refs es).toList.map .readAll)
      ((extendEntries refs es).perform d).2.card := by
  unfold extendEntries
  cases extensionFile? refs es with
  | none => exact .refl _
  | some id =>
    have asked := asked_ask d (.readAll id)
    simp only [Action.perform_bind, Action.perform_attempt, perform_readAll]
    cases (d.ask (.readAll id)).1 <;> exact asked

theorem asked_loadEntries {id : FileId} (named : refs.file? .adn = some id) (d : Desk) :
    d.card.Asked (addressRequests refs id (d.card.serve (.readAll id)).1)
      ((loadEntries refs).perform d).2.card := by
  have asked := asked_ask d (.readAll id)
  have outcome := ask_fst d (.readAll id)
  unfold loadEntries fileOf addressRequests
  rw [Action.perform_bind, Action.perform_lift, named]
  dsimp only
  rw [Action.perform_bind, perform_readAll]
  rcases done : d.ask (.readAll id) with ⟨answer, d₁⟩
  rw [done] at asked outcome
  have outcome : answer = _ := outcome
  subst outcome
  cases (d.card.serve (.readAll id)).1 with
  | error cause => exact asked
  | ok records =>
    obtain ⟨es, d₂, extended, -⟩ := extendEntries_cases refs (decodeEntries id records) d₁
    have further := asked_extendEntries refs (decodeEntries id records) d₁
    dsimp only [Except.mapError]
    rw [Action.perform_bind]
    rw [extended] at further ⊢
    have both := asked.trans further
    unfold extensionFile? at both
    split
    · next some =>
      rw [if_pos some] at both
      exact both
    · next none =>
      rw [if_neg none] at both
      exact both

theorem load_unnamed (unnamed : refs.file? .adn = none) (d : Desk) :
    (load refs table share).perform d = (.error (.missingFile refs.index FileTag.adn.byte), d) := by
  rw [perform_load]
  unfold loadEntries fileOf
  rw [Action.perform_bind, Action.perform_lift, unnamed]

/-- Nothing is read of a kind that is held, or that has no file. -/
theorem complete_idle {kind : FieldKind} {d : Desk}
    (idle : (refs.file? (.ofKind kind)).isSome → (d.block.store kind).isSome) :
    complete refs table share kind d = d := by
  unfold complete completeField
  rw [Action.perform_bind, perform_current]
  dsimp only
  split
  · rfl
  · next missing =>
    have unnamed : refs.file? (.ofKind kind) = none := by
      rw [← Option.not_isSome_iff_eq_none]
      exact fun named => missing (idle named)
    unfold loadField
    rw [unnamed]
    rfl

end Desk

/-! ## A load -/

namespace Session

variable {s : Session} {table : Reference.Table} {refs : Reference.Block}

/-- The requests that a load makes when it comes to block `i`. -/
def requestsAt (s : Session) (i : Nat) : List Request :=
  (s.turn i).card.requestsUntil (s.turn (i + 1)).card

section

variable (start : (loadTable.perform s).2.Tabled table)

include start

theorem asked_turn (i : Nat) : ∃ requests, (s.turn i).card.Asked requests (s.turn (i + 1)).card ∧
    ∀ refs, table.block? i = some refs → ∀ request ∈ requests, refs.Consults request := by
  rw [turn_succ start]
  unfold visitBlock
  cases (s.turn i).blocks[i]? with
  | none => exact ⟨[], .refl _, nofun⟩
  | some b =>
    dsimp only
    split
    · exact ⟨[], .refl _, nofun⟩
    · cases table.block? i with
      | none => exact ⟨[], .refl _, nofun⟩
      | some refs =>
        obtain ⟨requests, asked, each⟩ :=
          Desk.asked_load refs table (s.turn i).options.sharePointers ⟨(s.turn i).channel, b⟩
        refine ⟨requests, asked, fun refs' same => ?_⟩
        cases same
        exact each

theorem asked_requestsAt (i : Nat) :
    (s.turn i).card.Asked (s.requestsAt i) (s.turn (i + 1)).card := by
  obtain ⟨requests, asked, -⟩ := asked_turn start i
  unfold requestsAt
  rwa [asked.requestsUntil_eq]

theorem consults_requestsAt {i : Nat} (named : table.block? i = some refs) :
    ∀ request ∈ s.requestsAt i, refs.Consults request := by
  obtain ⟨requests, asked, each⟩ := asked_turn start i
  unfold requestsAt
  rw [asked.requestsUntil_eq]
  exact each refs named

/-- Once the table is had, a load makes the requests for its blocks, one block after the other. -/
theorem asked_turns (n : Nat) :
    (s.turn 0).card.Asked ((List.range n).flatMap s.requestsAt) (s.turn n).card := by
  induction n with
  | zero => exact .refl _
  | succ n ih =>
    rw [List.range_succ, List.flatMap_append, List.flatMap_singleton]
    exact ih.trans (asked_requestsAt start n)

end

end Session

end UsimPhonebook
