import UsimPhonebook.Json.Reader
import UsimPhonebook.Proofs.Text.Numeral
import UsimPhonebook.Proofs.Text.Units

/-! # Reading what was printed

A document that is printed, on one line or on indented ones, reads back as the same document
(`read?_print`), provided that its numbers are written as numbers and that all its texts are
texts (`Printable`).

The reader does not know that a number is over before the next character. `Reader.Leads s t s'`
therefore says that the text `t` takes the reader from `s` to where it goes on like `s'`, at any
character that no number contains. A value leads to the state that it completes
(`Reader.leads_print`), whatever is open around it.
-/

namespace UsimPhonebook.Json

namespace Reader

def run (s : State) (t : Text) : Option State := t.foldlM step s

@[simp] theorem run_nil (s : State) : run s [] = some s := rfl

@[simp] theorem run_cons (s : State) (c : Char) (t : Text) :
    run s (c :: t) = (step s c).bind (run · t) := rfl

theorem run_append {s s' : State} {t : Text} (h : run s t = some s') (rest : Text) :
    run s (t ++ rest) = run s' rest := by
  unfold run at h ⊢
  rw [List.foldlM_append, h]
  rfl

variable {stack : List Frame} {isKey : Bool} {units : List UInt16} {c : Char}

/-! ## Blanks -/

/-- Blanks make no difference to the state. -/
def Skips (s : State) : Prop := ∀ c, isBlank c = true → step s c = some s

theorem skips_value (stack : List Frame) : Skips ⟨stack, .value⟩ := fun _ blank => if_pos blank

theorem skips_key (stack : List Frame) : Skips ⟨stack, .key⟩ := fun _ blank => if_pos blank

theorem skips_separator (stack : List Frame) : Skips ⟨stack, .separator⟩ :=
  fun _ blank => if_pos blank

theorem Skips.run_blanks {s : State} (skips : Skips s) {t : Text}
    (blank : ∀ c ∈ t, isBlank c = true) : run s t = some s := by
  induction t with
  | nil => rfl
  | cons c rest ih =>
    obtain ⟨here, there⟩ := List.forall_mem_cons.1 blank
    rw [run_cons, skips c here]
    exact ih there

theorem isBlank_of_mem_newLine (layout : Layout) : ∀ c ∈ layout.newLine, isBlank c = true := by
  cases layout with
  | inline => nofun
  | lines depth =>
    refine List.forall_mem_cons.2 ⟨rfl, fun c member => ?_⟩
    rw [List.eq_of_mem_replicate member]
    rfl

theorem isBlank_of_mem_space (layout : Layout) : ∀ c ∈ layout.space, isBlank c = true := by
  cases layout with
  | inline => nofun
  | lines depth => exact List.forall_mem_singleton.2 rfl

/-- Two ways to wait for a part of an array or object, of which the first one takes the end of it
as well: a part that comes makes them the same. -/
theorem run_first {first later : Mode} {s : State} {t : Text}
    (skips : Skips ⟨stack, first⟩ ∧ Skips ⟨stack, later⟩)
    (agree : ∀ c s, isBlank c = false → step ⟨stack, later⟩ c = some s →
      step ⟨stack, first⟩ c = some s)
    (h : run ⟨stack, later⟩ t = some s) (moved : s.mode ≠ later) :
    run ⟨stack, first⟩ t = some s := by
  induction t with
  | nil =>
    cases h
    exact absurd rfl moved
  | cons c rest ih =>
    rw [run_cons] at h ⊢
    cases blank : isBlank c with
    | true =>
      rw [skips.2 c blank] at h
      rw [skips.1 c blank]
      exact ih h
    | false =>
      obtain ⟨next, there, h⟩ := Option.bind_eq_some_iff.1 h
      rw [agree c next blank there]
      exact h

theorem run_firstItem {s : State} {t : Text} (h : run ⟨stack, .value⟩ t = some s)
    (moved : s.mode ≠ .value) : run ⟨stack, .firstItem⟩ t = some s := by
  refine run_first ⟨fun c blank => if_pos blank, skips_value stack⟩ (fun c s solid there => ?_) h
    moved
  have open_ : c ≠ ']' := by
    rintro rfl
    cases there
  simp only [step, solid] at there ⊢
  rw [if_neg Bool.false_ne_true, if_neg open_]
  exact there

theorem run_firstKey {s : State} {t : Text} (h : run ⟨stack, .key⟩ t = some s)
    (moved : s.mode ≠ .key) : run ⟨stack, .firstKey⟩ t = some s := by
  refine run_first ⟨fun c blank => if_pos blank, skips_key stack⟩ (fun c s solid there => ?_) h
    moved
  simp only [step, solid] at there ⊢
  by_cases opens : c = quote
  · rw [if_pos opens] at there ⊢
    exact there
  · rw [if_neg opens] at there
    cases there

/-! ## Strings -/

theorem unescape?_of_shortEscape? {letter : Char} (h : shortEscape? c = some letter) :
    letter ≠ 'u' ∧ unescape? letter = some c := by
  unfold shortEscape? at h
  repeat' split at h
  · next special =>
    cases h
    rcases special with rfl | rfl <;> decide
  all_goals
    cases h
    try subst c
    try decide

theorem shortEscape?_eq_none_iff : shortEscape? c = none →
    c ≠ quote ∧ c ≠ backslash := by
  intro h
  constructor <;> rintro rfl <;> cases h

theorem digitValue?_lowerDigit {n : Nat} (h : n < 16) :
    Hex.digitValue? (lowerDigit n) = some n := by
  have table : ∀ k : Fin 16, Hex.digitValue? (lowerDigit k.val) = some k.val := by decide
  exact table ⟨n, h⟩

theorem run_escaped (c : Char) : run ⟨stack, .string isKey units .plain⟩ (escaped c) =
    some ⟨stack, .string isKey ((Units.ofChar c).reverse ++ units) .plain⟩ := by
  have escape : step ⟨stack, .string isKey units .plain⟩ backslash =
      some ⟨stack, .string isKey units .escape⟩ := rfl
  unfold escaped
  cases short : shortEscape? c with
  | some letter =>
    obtain ⟨notUnit, back⟩ := unescape?_of_shortEscape? short
    dsimp only
    rw [run_cons, escape, Option.bind_some, run_cons]
    simp [step, stepString, notUnit, back]
  | none =>
    obtain ⟨notQuote, notBackslash⟩ := shortEscape?_eq_none_iff short
    dsimp only
    by_cases control : c.toNat < 0x20
    · have halves : c.toNat / 16 * 16 + c.toNat % 16 = c.toNat := by omega
      have unit : Units.ofChar c = [UInt16.ofNat (c.toNat / 16 * 16 + c.toNat % 16)] := by
        unfold Units.ofChar
        rw [if_pos (by omega), halves]
      have zero : Hex.digitValue? '0' = some 0 := by decide
      rw [if_pos control, run_cons, escape, Option.bind_some, unit]
      simp [step, stepString, zero, digitValue?_lowerDigit (n := c.toNat / 16) (by omega),
        digitValue?_lowerDigit (n := c.toNat % 16) (by omega)]
    · rw [if_neg control]
      simp [step, stepString, notQuote, notBackslash, control]

theorem run_flatMap_escaped (t : Text) :
    run ⟨stack, .string isKey units .plain⟩ (t.flatMap escaped) =
      some ⟨stack, .string isKey ((Units.ofText t).reverse ++ units) .plain⟩ := by
  induction t generalizing units with
  | nil => rfl
  | cons c rest ih =>
    have first : Units.ofText (c :: rest) = Units.ofChar c ++ Units.ofText rest := rfl
    rw [List.flatMap_cons, run_append (run_escaped c), ih, first, List.reverse_append,
      List.append_assoc]

theorem run_quoted {s : State} (opens : step s quote = some ⟨stack, .string isKey [] .plain⟩)
    (t : Text) : run s (quoted t) = endString stack isKey (Units.ofText t).reverse := by
  have ends (units : List UInt16) : step ⟨stack, .string isKey units .plain⟩ quote =
      endString stack isKey units := rfl
  unfold quoted
  rw [List.cons_append, run_cons, opens, Option.bind_some, run_append (run_flatMap_escaped t),
    List.append_nil, run_cons, ends]
  cases endString stack isKey (Units.ofText t).reverse <;> rfl

theorem run_quoted_value (t : Text) :
    run ⟨stack, .value⟩ (quoted t) = some (complete (.string t) stack) := by
  have opens : step ⟨stack, .value⟩ quote = some ⟨stack, .string false [] .plain⟩ := rfl
  rw [run_quoted opens]
  unfold endString
  rw [List.reverse_reverse, Units.toText?_ofText]
  rfl

theorem run_quoted_key (members : List (Option Text × Json)) (key : Option Text) (t : Text) :
    run ⟨.object members key :: stack, .key⟩ (quoted t) =
      some ⟨.object members (some t) :: stack, .colon⟩ := by
  have opens : step ⟨.object members key :: stack, .key⟩ quote =
      some ⟨.object members key :: stack, .string true [] .plain⟩ := rfl
  rw [run_quoted opens]
  unfold endString
  rw [List.reverse_reverse, Units.toText?_ofText]
  rfl

/-! ## Numbers -/

/-- No number goes on with this character. -/
def EndsNumber (c : Char) : Prop := ∀ part, nextPart part c = none

theorem endsNumber_comma : EndsNumber ',' := by
  intro part
  cases part <;> rfl

theorem endsNumber_newline : EndsNumber '\n' := by
  intro part
  cases part <;> rfl

/-- Two states that cannot be told apart at the end of the document or of a number. -/
structure Alike (s s' : State) : Prop where
  result : result? s = result? s'
  step : ∀ c, EndsNumber c → step s c = step s' c

theorem Alike.refl (s : State) : Alike s s := ⟨rfl, fun _ _ => rfl⟩

/-- A number that may end here is like the number that has ended. -/
theorem alike_number {part : NumberPart} (whole : part.isWhole = true) (read : Text)
    (stack : List Frame) :
    Alike ⟨stack, .number read part⟩ (complete (.number read.reverse) stack) := by
  constructor
  · cases stack with
    | nil => simp [result?, complete, whole]
    | cons frame rest => cases frame <;> rfl
  · intro c ends
    have ended : step ⟨stack, .number read part⟩ c =
        afterComplete (complete (.number read.reverse) stack) c := by
      simp only [step, ends part, whole, if_true]
    rw [ended]
    cases stack with
    | nil => rfl
    | cons frame rest => cases frame <;> rfl

theorem endsNumber_closing {c : Char} (h : c = ']' ∨ c = '\x7d') : EndsNumber c := by
  intro part
  rcases h with rfl | rfl <;> cases part <;> rfl

/-- A bracket closes a number, with or without a new line before it. -/
theorem exists_newLine_append (layout : Layout) (ends : EndsNumber c) :
    ∃ c' rest, layout.newLine ++ [c] = c' :: rest ∧ EndsNumber c' := by
  cases layout with
  | inline => exact ⟨c, [], rfl, ends⟩
  | lines depth => exact ⟨_, _, rfl, endsNumber_newline⟩

theorem run_number {part last : NumberPart} {rest : Text} (read : Text)
    (h : rest.foldlM nextPart part = some last) :
    run ⟨stack, .number read part⟩ rest = some ⟨stack, .number (rest.reverse ++ read) last⟩ := by
  induction rest generalizing part read with
  | nil =>
    cases h
    rfl
  | cons c rest ih =>
    obtain ⟨part', next, h⟩ := Option.bind_eq_some_iff.1 h
    have there : step ⟨stack, .number read part⟩ c = some ⟨stack, .number (c :: read) part'⟩ := by
      simp only [step, next]
    rw [run_cons, there, Option.bind_some, ih (c :: read) h, List.reverse_cons,
      List.append_assoc]
    rfl

theorem step_of_startNumber {first : NumberPart} (h : startNumber c = some first) :
    step ⟨stack, .value⟩ c = some ⟨stack, .number [c] first⟩ := by
  have ne (other : Char) (no : startNumber other = none) : c ≠ other := by
    rintro rfl
    rw [h] at no
    cases no
  have word : startWord c = none := by
    unfold startWord
    rw [if_neg (ne _ rfl), if_neg (ne _ rfl), if_neg (ne _ rfl)]
  have solid : isBlank c = false := by
    simp [isBlank, ne ' ' rfl, ne '\n' rfl, ne '\t' rfl, ne '\r' rfl]
  simp only [step, solid, beginValue, word, h]
  rw [if_neg Bool.false_ne_true, if_neg (ne _ rfl), if_neg (ne _ rfl), if_neg (ne _ rfl)]

/-! ## Values -/

/-- The text takes the reader from `s` to a state like `s'`. -/
def Leads (s : State) (t : Text) (s' : State) : Prop :=
  ∃ there, run s t = some there ∧ Alike there s'

theorem leads_of_run {s s' : State} {t : Text} (h : run s t = some s') : Leads s t s' :=
  ⟨s', h, .refl s'⟩

theorem Leads.after {s s' s'' : State} {t t' : Text} (first : run s t = some s')
    (h : Leads s' t' s'') : Leads s (t ++ t') s'' := by
  obtain ⟨there, done, alike⟩ := h
  exact ⟨there, by rw [run_append first, done], alike⟩

/-- The reader goes on as from the state to which it was led. -/
theorem Leads.run_append {s s' : State} {t : Text} (h : Leads s t s') (ends : EndsNumber c)
    (rest : Text) : run s (t ++ c :: rest) = run s' (c :: rest) := by
  obtain ⟨there, done, alike⟩ := h
  rw [Reader.run_append done, run_cons, run_cons, alike.step c ends]

end Reader

/-- A number as it may stand in a document. -/
def IsNumber (literal : Text) : Prop :=
  ∃ c rest first last, literal = c :: rest ∧ Reader.startNumber c = some first ∧
    rest.foldlM Reader.nextPart first = some last ∧ last.isWhole = true

/-- A document all of whose numbers and texts can be written. -/
inductive Printable : Json → Prop
  | null : Printable .null
  | bool (b : Bool) : Printable (.bool b)
  | number (literal : Text) (valid : IsNumber literal) : Printable (.number literal)
  | string (t : Text) : Printable (.string t)
  | array (items : List Json) (each : ∀ j ∈ items, Printable j) : Printable (.array items)
  | object (members : List (Text × Json)) (each : ∀ m ∈ members, Printable m.2) :
    Printable (.object members)

theorem printItems_eq (layout : Layout) (items : List Json) :
    printItems layout items = items.map (print layout) := by
  induction items with
  | nil => rfl
  | cons j rest ih => rw [printItems, ih, List.map_cons]

def printMember (layout : Layout) (m : Text × Json) : Text :=
  quoted m.1 ++ ':' :: (layout.space ++ m.2.print layout)

theorem printMembers_eq (layout : Layout) (members : List (Text × Json)) :
    printMembers layout members = members.map (printMember layout) := by
  induction members with
  | nil => rfl
  | cons m rest ih =>
    rw [printMembers, ih, List.map_cons]
    rfl

namespace Reader

theorem leads_number {literal : Text} (h : IsNumber literal) (stack : List Frame) :
    Leads ⟨stack, .value⟩ literal (complete (.number literal) stack) := by
  obtain ⟨c, rest, first, last, rfl, starts, goes, whole⟩ := h
  refine ⟨⟨stack, .number (rest.reverse ++ [c]) last⟩, ?_, ?_⟩
  · rw [run_cons, step_of_startNumber starts]
    exact run_number [c] goes
  · have alike := alike_number whole (rest.reverse ++ [c]) stack
    rwa [List.reverse_append, List.reverse_reverse] at alike

/-! ## Parts -/

section

/- The parts of an array or of an object, which are read from the state `⟨frame done :: _, later⟩`
when the parts `done`, last one first, are read already. -/
variable {β : Type} (frame : List β → Frame) {first later : Mode} {part : β → Text}
  (skips : ∀ done, Skips ⟨frame done :: stack, later⟩)
  (comma : ∀ done, step ⟨frame done :: stack, .separator⟩ ',' = some ⟨frame done :: stack, later⟩)

include skips comma

/-- Parts are read one after the other, up to a character that ends the last one. -/
theorem run_parts {parts : List β} (some : parts ≠ []) {blanks : Text}
    (blank : ∀ c ∈ blanks, isBlank c = true)
    (each : ∀ b ∈ parts, ∀ done,
      Leads ⟨frame done :: stack, later⟩ (part b) ⟨frame (b :: done) :: stack, .separator⟩)
    (ends : EndsNumber c) (done : List β) (rest : Text) :
    run ⟨frame done :: stack, later⟩
        (Text.joinWith [','] (parts.map fun b => blanks ++ part b) ++ c :: rest) =
      run ⟨frame (parts.reverse ++ done) :: stack, .separator⟩ (c :: rest) := by
  induction parts generalizing done with
  | nil => exact absurd rfl some
  | cons b others ih =>
    obtain ⟨here, there⟩ := List.forall_mem_cons.1 each
    cases others with
    | nil =>
      simp only [List.map_cons, List.map_nil, Text.joinWith, List.append_assoc]
      rw [run_append ((skips done).run_blanks blank), (here done).run_append ends]
      rfl
    | cons b' others =>
      have next := ih (List.cons_ne_nil _ _) there (b :: done)
      rw [List.map_cons] at next
      simp only [List.map_cons, Text.joinWith, List.append_assoc, List.cons_append,
        List.nil_append]
      rw [run_append ((skips done).run_blanks blank), (here done).run_append endsNumber_comma,
        run_cons, comma, Option.bind_some, next, List.reverse_cons (a := b), List.append_assoc]
      rfl

/-- An array or object is read from its brackets and its parts. -/
theorem leads_enclose {opening closing : Char} {value : Json} {parts : List β} (layout : Layout)
    (each : ∀ b ∈ parts, ∀ done,
      Leads ⟨frame done :: stack, later⟩ (part b) ⟨frame (b :: done) :: stack, .separator⟩)
    (ends : EndsNumber closing)
    (opens : step ⟨stack, .value⟩ opening = some ⟨frame [] :: stack, first⟩)
    (start : ∀ {t s}, run ⟨frame [] :: stack, later⟩ t = some s → s.mode ≠ later →
      run ⟨frame [] :: stack, first⟩ t = some s)
    (moved : (complete value stack).mode ≠ later)
    (empty : parts = [] → step ⟨frame [] :: stack, first⟩ closing = some (complete value stack))
    (closes : step ⟨frame parts.reverse :: stack, .separator⟩ closing =
      some (complete value stack)) :
    Leads ⟨stack, .value⟩ (layout.enclose opening closing (parts.map part))
      (complete value stack) := by
  apply leads_of_run
  unfold Layout.enclose
  by_cases none : parts = []
  · subst none
    show run ⟨stack, .value⟩ [opening, closing] = _
    rw [run_cons, opens, Option.bind_some, run_cons, empty rfl]
    rfl
  · rw [if_neg (by simpa using none), List.cons_append, run_cons, opens, Option.bind_some,
      List.map_map]
    refine start ?_ moved
    obtain ⟨c, rest, close, ended⟩ := exists_newLine_append layout ends
    rw [close]
    refine (run_parts frame skips comma none (isBlank_of_mem_newLine _) each ended [] _).trans ?_
    rw [← close, List.append_nil, run_append ((skips_separator _).run_blanks
      (isBlank_of_mem_newLine _)), run_cons, closes]
    rfl

end

theorem mode_complete (j : Json) (stack : List Frame) :
    (complete j stack).mode ≠ .value ∧ (complete j stack).mode ≠ .key := by
  cases stack with
  | nil => exact ⟨nofun, nofun⟩
  | cons frame rest => cases frame <;> exact ⟨nofun, nofun⟩

theorem leads_array {layout : Layout} {items : List Json}
    (each : ∀ j ∈ items, ∀ stack,
      Leads ⟨stack, .value⟩ (j.print layout.inner) (complete j stack))
    (stack : List Frame) :
    Leads ⟨stack, .value⟩ (print layout (.array items)) (complete (.array items) stack) := by
  rw [print, printItems_eq]
  refine leads_enclose .array (fun _ => skips_value _) (fun _ => rfl) layout
    (fun j member done => each j member _) (endsNumber_closing (.inl rfl)) rfl run_firstItem
    (mode_complete _ _).1 ?_ ?_
  · rintro rfl
    rfl
  · show some (complete (.array items.reverse.reverse) stack) = _
    rw [List.reverse_reverse]

theorem objectOf_reverse (members : List (Text × Json)) :
    objectOf (members.reverse.map fun m => (some m.1, m.2)) = .object members := by
  have back : ((members.map fun m => (some m.1, m.2)).mapM fun (m : Option Text × Json) =>
      m.1.map fun key => (key, m.2)) = some members := by
    rw [mapM_eq_some_iff, List.map_map]
    rfl
  unfold objectOf
  rw [← List.map_reverse, List.reverse_reverse]
  simp only [back]

theorem leads_object {layout : Layout} {members : List (Text × Json)}
    (each : ∀ m ∈ members, ∀ stack,
      Leads ⟨stack, .value⟩ (m.2.print layout.inner) (complete m.2 stack))
    (stack : List Frame) :
    Leads ⟨stack, .value⟩ (print layout (.object members))
      (complete (.object members) stack) := by
  rw [print, printMembers_eq]
  refine leads_enclose (fun done => .object (done.map fun m => (some m.1, m.2)) none)
    (fun _ => skips_key _) (fun _ => rfl) layout (fun m member done => ?_)
    (endsNumber_closing (.inr rfl)) rfl run_firstKey (mode_complete _ _).2 ?_ ?_
  · refine .after (run_quoted_key _ _ m.1) (.after (t := [':']) rfl ?_)
    refine .after ((skips_value _).run_blanks (isBlank_of_mem_space _)) ?_
    exact each m member _
  · rintro rfl
    rfl
  · show some (complete (objectOf _) stack) = _
    rw [objectOf_reverse]

theorem leads_print {j : Json} (h : j.Printable) (layout : Layout) (stack : List Frame) :
    Leads ⟨stack, .value⟩ (j.print layout) (complete j stack) := by
  induction h generalizing layout stack with
  | null => exact leads_of_run rfl
  | bool b => cases b <;> exact leads_of_run rfl
  | number literal valid => exact leads_number valid stack
  | string t => exact leads_of_run (run_quoted_value t)
  | array items _ ih => exact leads_array (fun j member => ih j member layout.inner) stack
  | object members _ ih => exact leads_object (fun m member => ih m member layout.inner) stack

end Reader

/-- A document that was printed reads back, in whatever layout. -/
theorem read?_print {j : Json} (h : j.Printable) (layout : Layout) :
    read? (j.print layout) = some j := by
  obtain ⟨s, done, alike⟩ := Reader.leads_print h layout []
  show (Reader.run ⟨[], .value⟩ (j.print layout)).bind Reader.result? = _
  rw [done]
  exact alike.result

theorem read?_pretty {j : Json} (h : j.Printable) : read? j.pretty = some j := read?_print h _

theorem read?_compact {j : Json} (h : j.Printable) : read? j.compact = some j := read?_print h _

/-! ## Natural numbers -/

theorem nextPart_whole {d : Nat} (h : d < 10) :
    Reader.nextPart .whole d.digitChar = some .whole := by
  have table : ∀ k : Fin 10, Reader.nextPart .whole (Nat.digitChar k.val) = some .whole := by decide
  exact table ⟨d, h⟩

theorem decimal_cases {n : Nat} (h : 1 ≤ n) :
    ∃ c rest, decimal n = c :: rest ∧ Reader.startNumber c = some .whole ∧
      rest.foldlM Reader.nextPart .whole = some .whole := by
  induction n using Nat.strongRecOn with
  | ind n ih =>
    by_cases small : n < 10
    · have table : ∀ k : Fin 10, 1 ≤ k.val →
          Reader.startNumber (Nat.digitChar k.val) = some .whole := by decide
      exact ⟨_, [], decimal_of_lt small, table ⟨n, small⟩ h, rfl⟩
    · obtain ⟨c, rest, digits, starts, goes⟩ := ih (n / 10) (by omega) (by omega)
      refine ⟨c, rest ++ [(n % 10).digitChar], ?_, starts, ?_⟩
      · rw [decimal_of_le (by omega), digits, List.cons_append]
      · rw [List.foldlM_append, goes]
        exact congrArg (Option.bind · pure) (nextPart_whole (Nat.mod_lt n (by decide)))

theorem isNumber_decimal (n : Nat) : IsNumber (decimal n) := by
  cases n with
  | zero => exact ⟨'0', [], .zero, .zero, rfl, rfl, rfl, rfl⟩
  | succ n =>
    obtain ⟨c, rest, digits, starts, goes⟩ := decimal_cases (n := n + 1) (by omega)
    exact ⟨c, rest, .whole, .whole, digits, starts, goes, rfl⟩

theorem machineWord?_ofNat {n : Nat} (h : n < wordLimit) : (ofNat n).machineWord? = some n := by
  show (readDigits? 10 0 (decimal n)).filter isMachineWord = some n
  rw [readDigits?_decimal]
  simp [isMachineWord, h]

end UsimPhonebook.Json
