/-! # Going through a list

By a function that may fail:

* `mapM_eq_some_iff`, `mapM_eq_some_map` : what comes out when every item has an image
* `isSome_mapM_iff` : when it comes out
* `exists_map_eq` : the way back, when every item is an image

By a step that may fail:

* `foldlM_induction` : what holds of the items so far, after every step

By a step in which an item may override what the items before it said:

* `foldl_override` : what the last of them said that said something is kept
* `findSome?_reverse_eq_some_iff` : in a list in order, which item that is
-/

namespace UsimPhonebook

variable {α β : Type} {f : α → Option β}

theorem mapM_cons_eq_some_iff {a : α} {rest : List α} {images : List β} :
    (a :: rest).mapM f = some images ↔
      ∃ b images', f a = some b ∧ rest.mapM f = some images' ∧ images = b :: images' := by
  simp only [List.mapM_cons, Option.bind_eq_bind, Option.bind_eq_some_iff, Option.pure_def,
    Option.some.injEq]
  constructor
  · rintro ⟨b, first, images', others, rfl⟩
    exact ⟨b, images', first, others, rfl⟩
  · rintro ⟨b, images', first, others, rfl⟩
    exact ⟨b, first, images', others, rfl⟩

theorem mapM_eq_some_iff {items : List α} {images : List β} :
    items.mapM f = some images ↔ items.map f = images.map some := by
  induction items generalizing images with
  | nil => cases images <;> simp
  | cons a rest ih =>
    rw [mapM_cons_eq_some_iff, List.map_cons]
    constructor
    · rintro ⟨b, images', first, others, rfl⟩
      rw [first, ih.1 others, List.map_cons]
    · intro known
      cases images with
      | nil => cases known
      | cons b images' =>
        obtain ⟨first, others⟩ := List.cons.inj known
        exact ⟨b, images', first, ih.2 others, rfl⟩

/-- By a function that gives an image of every item, all come out. -/
theorem mapM_eq_some_map {items : List α} {g : α → β} (h : ∀ a ∈ items, f a = some (g a)) :
    items.mapM f = some (items.map g) := by
  rw [mapM_eq_some_iff, List.map_map]
  exact List.map_congr_left h

theorem length_of_mapM {items : List α} {images : List β} (h : items.mapM f = some images) :
    images.length = items.length := by
  have lengths := congrArg List.length (mapM_eq_some_iff.1 h)
  rw [List.length_map, List.length_map] at lengths
  exact lengths.symm

theorem exists_of_mem_mapM {items : List α} {images : List β} (h : items.mapM f = some images)
    {b : β} (member : b ∈ images) : ∃ a ∈ items, f a = some b := by
  have there : some b ∈ images.map some := List.mem_map_of_mem member
  rw [← mapM_eq_some_iff.1 h] at there
  exact List.mem_map.1 there

theorem isSome_mapM_iff {items : List α} :
    (items.mapM f).isSome ↔ ∀ a ∈ items, (f a).isSome := by
  induction items with
  | nil => simp
  | cons a rest ih =>
    rw [List.forall_mem_cons, ← ih, Option.isSome_iff_exists, Option.isSome_iff_exists,
      Option.isSome_iff_exists]
    simp only [mapM_cons_eq_some_iff]
    constructor
    · rintro ⟨_, b, images, first, others, -⟩
      exact ⟨⟨b, first⟩, images, others⟩
    · rintro ⟨⟨b, first⟩, images, others⟩
      exact ⟨_, b, images, first, others, rfl⟩

/-- To look for something in what came out is to look for it in what went in. -/
theorem findSome?_of_mapM {γ : Type} {items : List α} {images : List β}
    (h : items.mapM f = some images) (g : β → Option γ) :
    images.reverse.findSome? g = items.reverse.findSome? fun a => (f a).bind g := by
  have same : items.reverse.map f = images.reverse.map some := by
    rw [List.map_reverse, mapM_eq_some_iff.1 h, List.map_reverse]
  calc images.reverse.findSome? g
      = (images.reverse.map some).findSome? (·.bind g) := by rw [List.findSome?_map]; rfl
    _ = (items.reverse.map f).findSome? (·.bind g) := by rw [same]
    _ = items.reverse.findSome? fun a => (f a).bind g := by rw [List.findSome?_map]; rfl

theorem exists_map_eq {g : β → α} {P : β → Prop} {items : List α}
    (each : ∀ a ∈ items, ∃ b, P b ∧ a = g b) :
    ∃ origins : List β, items = origins.map g ∧ ∀ b ∈ origins, P b := by
  induction items with
  | nil => exact ⟨[], rfl, nofun⟩
  | cons a rest ih =>
    obtain ⟨⟨b, here, rfl⟩, others⟩ := List.forall_mem_cons.1 each
    obtain ⟨origins, rfl, there⟩ := ih others
    exact ⟨b :: origins, rfl, List.forall_mem_cons.2 ⟨here, there⟩⟩

theorem foldlM_induction {σ ε : Type} {step : σ → α → Except ε σ} {motive : List α → σ → Prop}
    (next : ∀ seen state item state', motive seen state → step state item = .ok state' →
      motive (seen ++ [item]) state') {items : List α} {state state' : σ}
    (start : motive [] state) (ok : items.foldlM step state = .ok state') :
    motive items state' := by
  suffices onward : ∀ seen, motive seen state → motive (seen ++ items) state' from onward [] start
  clear start
  induction items generalizing state with
  | nil =>
    intro seen start
    cases ok
    rwa [List.append_nil]
  | cons item rest ih =>
    rw [List.foldlM_cons] at ok
    cases first : step state item with
    | error e =>
      rw [first] at ok
      cases ok
    | ok middle =>
      intro seen start
      rw [first] at ok
      have last := ih ok (seen ++ [item]) (next seen state item middle start first)
      rwa [List.append_assoc] at last

/-- Where each item overrides what is kept, the last one that says something is kept. -/
theorem foldl_override {α β γ : Type} {step : β → α → β} (view : β → Option γ) {f : α → Option γ}
    (h : ∀ b a, view (step b a) = (f a).or (view b)) (b : β) (items : List α) :
    view (items.foldl step b) = (items.reverse.findSome? f).or (view b) := by
  induction items generalizing b with
  | nil => rfl
  | cons a rest ih =>
    have only : [a].findSome? f = f a := by simp
    rw [List.foldl_cons, ih, h, List.reverse_cons, List.findSome?_append, only, Option.or_assoc]

/-- In a list in order, the last item that says something is the one with none behind it. -/
theorem findSome?_reverse_eq_some_iff {α γ : Type} {before : α → α → Prop}
    (asymm : ∀ a b, before a b → ¬ before b a) {items : List α} (sorted : items.Pairwise before)
    {f : α → Option γ} {c : γ} : items.reverse.findSome? f = some c ↔
      ∃ a ∈ items, f a = some c ∧ ∀ b ∈ items, before a b → f b = none := by
  rw [List.findSome?_eq_some_iff]
  constructor
  · rintro ⟨after, a, front, split, here, none⟩
    have split : items = front.reverse ++ a :: after.reverse := by
      rw [← List.reverse_reverse items, split]
      simp
    subst split
    obtain ⟨-, -, cross⟩ := List.pairwise_append.1 sorted
    refine ⟨a, by simp, here, fun b mem later => ?_⟩
    rcases List.mem_append.1 mem with earlier | mem
    · exact absurd later (asymm _ _ (cross b earlier a List.mem_cons_self))
    · rcases List.mem_cons.1 mem with rfl | mem
      · exact absurd later (asymm _ _ later)
      · exact none b (List.mem_reverse.1 mem)
  · rintro ⟨a, mem, here, none⟩
    obtain ⟨front, after, rfl⟩ := List.append_of_mem mem
    obtain ⟨-, sorted, -⟩ := List.pairwise_append.1 sorted
    refine ⟨after.reverse, a, front.reverse, by simp, here, fun b mem => ?_⟩
    have mem := List.mem_reverse.1 mem
    exact none b (by simp [mem]) ((List.pairwise_cons.1 sorted).1 b mem)

end UsimPhonebook
