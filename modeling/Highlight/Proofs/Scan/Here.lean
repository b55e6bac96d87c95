import Highlight.Proofs.Pattern.Place
import Highlight.Proofs.Scan.Direct
import Highlight.Proofs.Scan.Solid

/-! # What a walk does at its place

Read character by character, a walk takes an opening that matches at its place
(`Highlight.Scan.DirectWalk.step_opening`) or else a closing that does
(`Highlight.Scan.DirectWalk.step_closing`). Where nothing matches it may as well stand behind the next
character (`Highlight.Scan.DirectWalk.complete_skip`).
-/

namespace Highlight.Scan

open Pattern (Hit)

section Nearest

variable {α : Type} {pattern : α → Pattern} {front rest : List Char} {c : Char} {item : α} {hit : Hit}

/-- Where each pattern has the same match from two places, the nearest of them is the same. -/
theorem nearest?_congr {items : List α} {text : List Char} {position other : Nat}
    (same : ∀ item ∈ items, (pattern item).find? text position = (pattern item).find? text other) :
    nearest? pattern text position items = nearest? pattern text other items := by
  induction items with
  | nil => rfl
  | cons item items ih =>
      obtain ⟨first, later⟩ := List.forall_mem_cons.mp same
      rw [nearest?, nearest?, first, ih later]

theorem nearest?_skip {items : List α}
    (absent : ∀ item ∈ items, (pattern item).here? front (c :: rest) = none) :
    nearest? pattern (front ++ c :: rest) (Text.byteLength front) items =
      nearest? pattern (front ++ c :: rest) (Text.byteLength front + c.utf8Size) items :=
  nearest?_congr fun item listed => Pattern.find?_of_here?_eq_none (absent item listed)

/-- At the end of a text nothing is near. -/
theorem nearest?_byteLength {items : List α} {text : List Char}
    (solid : ∀ item ∈ items, (pattern item).SolidOn text) :
    nearest? pattern text (Text.byteLength text) items = none := by
  induction items with
  | nil => rfl
  | cons item items ih =>
      obtain ⟨first, later⟩ := List.forall_mem_cons.mp solid
      rw [nearest?, first.find?_byteLength, ih later]
      rfl

/-- The first item that matches at a place is the one that matches first from there on. -/
theorem nearest?_of_here? {earlier later : List α}
    (first : ∀ other ∈ earlier, (pattern other).here? front rest = none)
    (matched : (pattern item).here? front rest = some hit) :
    nearest? pattern (front ++ rest) (Text.byteLength front) (earlier ++ item :: later) =
      some (earlier.length, item, hit) := by
  have start := Pattern.start_of_here? matched
  induction earlier with
  | nil =>
      rw [List.nil_append, nearest?, Pattern.find?_of_here? matched]
      cases found : nearest? pattern (front ++ rest) (Text.byteLength front) later with
      | none => rfl
      | some nearest =>
          obtain ⟨index, other, next⟩ := nearest
          have ahead := (within_of_nearest? found).1
          exact if_neg (by omega)
  | cons other earlier ih =>
      obtain ⟨absent, rest⟩ := List.forall_mem_cons.mp first
      rw [List.cons_append, nearest?, ih rest]
      cases found : (pattern other).find? (front ++ _) (Text.byteLength front) with
      | none => rfl
      | some next =>
          have ahead := Pattern.lt_start_of_here?_eq_none absent found
          exact if_pos (by omega)

end Nearest

theorem paintFrom_skip {rules : List Rule} {front rest : List Char} {c : Char}
    (absent : ∀ rule ∈ rules, rule.pattern.here? front (c :: rest) = none) (painter : Painter) :
    paintFrom rules (front ++ c :: rest) (Text.byteLength front) painter =
      paintFrom rules (front ++ c :: rest) (Text.byteLength front + c.utf8Size) painter := by
  rw [paintFrom_eq, nearest?_skip absent, ← paintFrom_eq]

theorem paintFrom_byteLength {rules : List Rule} {text : List Char}
    (solid : ∀ rule ∈ rules, rule.pattern.SolidOn text) (painter : Painter) :
    paintFrom rules text (Text.byteLength text) painter = .ok painter := by
  rw [paintFrom_eq, nearest?_byteLength solid]

namespace DirectWalk

variable {grammar : Grammar} {front rest : List Char} {c : Char} {walk : DirectWalk}

/-- Whether nothing matches where a walk stands before a character: no opening of the active rule set, not
the closing of the innermost span, and no rule unless the line is not painted. -/
structure Silent (grammar : Grammar) (walk : DirectWalk) (front : List Char) (c : Char)
    (rest : List Char) : Prop where
  openings : ∀ span ∈ (grammar.active walk.stack).spans, span.opening.here? front (c :: rest) = none
  closing : ∀ top span, walk.stack.top? = some top → grammar.span? top = some span →
    span.closing.here? front (c :: rest) = none
  rules : walk.painter = none ∨ ∀ rule ∈ (grammar.active walk.stack).rules, ∀ more,
    rule.pattern.here? front (c :: more) = none

/-- The walk at another place. -/
def moveTo (walk : DirectWalk) (position : Nat) : DirectWalk := { walk with position := position }

section Advance

variable {text : List Char} {stop : Nat}

theorem advance_of_le (reached : stop ≤ walk.position) :
    walk.advance grammar text stop = .ok walk :=
  if_pos reached

theorem advance_unpainted (unpainted : walk.painter = none) (ahead : walk.position < stop) :
    walk.advance grammar text stop = .ok (walk.moveTo stop) := by
  rw [advance, if_neg (Nat.not_le_of_lt ahead), unpainted, moveTo, unpainted]

/-- With a painter, moving ahead applies the active rules to the text up to there. -/
theorem advance_painted {painter : Painter} (painted : walk.painter = some painter)
    (ahead : walk.position < stop) :
    walk.advance grammar text stop =
      (paintFrom (grammar.active walk.stack).rules (Text.takeBytes stop text) walk.position
        painter).map fun painter => { walk with position := stop, painter := some painter } := by
  rw [advance, if_neg (Nat.not_le_of_lt ahead), painted]
  rfl

end Advance

section Skip

variable (there : walk.position = Text.byteLength front) (silent : Silent grammar walk front c rest)
include there silent

/-- The next opening is looked for behind a character at which none is. -/
theorem opening?_skip :
    walk.opening? grammar (front ++ c :: rest) =
      (walk.moveTo (walk.position + c.utf8Size)).opening? grammar (front ++ c :: rest) := by
  have openings := silent.openings
  simp only [opening?, moveTo, there]
  rw [Grammar.active] at openings
  cases active : grammar.activeId walk.stack with
  | none => rfl
  | some id =>
      rw [active] at openings
      rw [Option.bind_eq_bind, Option.bind_some, nearest?_skip openings]
      rfl

/-- So is the next closing. -/
theorem closing?_skip :
    walk.closing? grammar (front ++ c :: rest) =
      (walk.moveTo (walk.position + c.utf8Size)).closing? grammar (front ++ c :: rest) := by
  simp only [closing?, moveTo, there]
  cases innermost : walk.stack.top? with
  | none => rfl
  | some top =>
      cases declared : grammar.span? top with
      | none => simp [declared]
      | some span =>
          simp [declared, Pattern.find?_of_here?_eq_none (silent.closing top span innermost declared)]

theorem delimiter?_skip :
    walk.delimiter? grammar (front ++ c :: rest) =
      (walk.moveTo (walk.position + c.utf8Size)).delimiter? grammar (front ++ c :: rest) := by
  rw [delimiter?, delimiter?, opening?_skip there silent, closing?_skip there silent]

/-- Moving ahead over such a character first comes to the same, since no match covers the place behind it
without starting there. -/
theorem advance_skip (solid : grammar.Solid) {stop : Nat}
    (boundary : Text.IsBoundary (front ++ c :: rest) stop) (behind : walk.position + c.utf8Size ≤ stop) :
    walk.advance grammar (front ++ c :: rest) stop =
      (walk.moveTo (walk.position + c.utf8Size)).advance grammar (front ++ c :: rest) stop := by
  have ahead : walk.position < stop := Nat.lt_of_lt_of_le (Nat.lt_add_of_pos_right c.utf8Size_pos) behind
  have still : (walk.moveTo (walk.position + c.utf8Size)).painter = walk.painter := rfl
  cases painted : walk.painter with
  | none =>
      rw [painted] at still
      rw [advance_unpainted painted ahead]
      rcases Nat.eq_or_lt_of_le behind with rfl | beyond
      · exact (advance_of_le (Nat.le_refl _)).symm
      · rw [advance_unpainted still beyond]
        rfl
  | some painter =>
      rw [painted] at still
      obtain ⟨more, cut, length⟩ := Text.exists_takeBytes_eq boundary (there ▸ ahead)
      have absent := silent.rules.resolve_left (by simp [painted])
      have skipped := paintFrom_skip (fun rule listed => absent rule listed more) painter
      rw [← there] at skipped
      rw [advance_painted painted ahead, cut, skipped]
      rcases Nat.eq_or_lt_of_le behind with rfl | beyond
      · -- Only the character is left to style, and it is the end of what the rules see.
        have filled := (solid.rulesSolid (front ++ c :: rest)).active walk.stack
          (walk.position + c.utf8Size)
        rw [cut] at filled
        have last := paintFrom_byteLength filled painter
        rw [length] at last
        rw [last, Except.map, ← painted]
        exact (advance_of_le (Nat.le_refl _)).symm
      · rw [advance_painted still beyond, cut]
        rfl

/-- The delimiter ahead may be taken from behind such a character. -/
theorem take_skip {delimiter : Delimiter} (solid : grammar.Solid)
    (nearest : (walk.moveTo (walk.position + c.utf8Size)).delimiter? grammar (front ++ c :: rest) =
      some delimiter) :
    walk.take grammar (front ++ c :: rest) delimiter =
      (walk.moveTo (walk.position + c.utf8Size)).take grammar (front ++ c :: rest) delimiter := by
  rcases of_delimiter? nearest with ⟨ref, span, hit, rfl, found⟩ | ⟨span, hit, rfl, found⟩
  · obtain ⟨late, within⟩ := within_of_nearest? (of_opening? found).2
    rw [take, take, advance_skip there silent solid within.opens late]
  · obtain ⟨_, _, _, _, matched⟩ := of_closing? found
    obtain ⟨late, within⟩ := Pattern.find?_within matched
    rw [take, take, advance_skip there silent solid within.opens late]

/-- **Skipping a character.** Where nothing matches, a walk goes on as from behind the next character. -/
theorem complete_skip (solid : grammar.Solid) :
    walk.complete grammar (front ++ c :: rest) =
      (walk.moveTo (walk.position + c.utf8Size)).complete grammar (front ++ c :: rest) := by
  rw [complete, complete, run_eq, run_eq, step, step, delimiter?_skip there silent]
  cases nearest : (walk.moveTo (walk.position + c.utf8Size)).delimiter? grammar (front ++ c :: rest) with
  | none =>
      have inside : walk.position + c.utf8Size ≤ Text.byteLength (front ++ c :: rest) := by
        simp only [there, Text.byteLength_append, Text.byteLength_cons]
        omega
      have finished := advance_skip there silent solid (Text.isBoundary_byteLength _) inside
      show walk.finish grammar _ = (walk.moveTo _).finish grammar _
      rw [finish, finish, finished]
  | some delimiter =>
      dsimp only
      rw [take_skip there silent solid nearest]
      cases (walk.moveTo (walk.position + c.utf8Size)).take grammar (front ++ c :: rest) delimiter with
      | error fault => rfl
      | ok next => rfl

end Skip

/-! ## Taking delimiters -/

section Take

variable {text : List Char} {next : DirectWalk} {span : Span} {hit : Hit}

theorem complete_of_step (stepped : walk.step grammar text = .ok (some next)) :
    walk.complete grammar text = next.complete grammar text := by
  rw [complete, run_eq, stepped]
  rfl

theorem complete_of_done (stepped : walk.step grammar text = .ok none) :
    walk.complete grammar text = walk.finish grammar text := by
  rw [complete, run_eq, stepped]
  rfl

/-- **Opening a span.** The first opening of the active rule set that matches where a walk stands is
taken. -/
theorem step_opening {id : Nat} {earlier later : List Span}
    (there : walk.position = Text.byteLength front) (active : grammar.activeId walk.stack = some id)
    (listed : (grammar.active walk.stack).spans = earlier ++ span :: later)
    (first : ∀ other ∈ earlier, other.opening.here? front rest = none)
    (matched : span.opening.here? front rest = some hit) (filled : hit.isEmpty = false) :
    walk.step grammar (front ++ rest) = .ok (some {
      position := hit.stop
      stack := walk.stack.push ⟨id, earlier.length⟩
      openedAt := walk.position :: walk.openedAt
      emptyOpenAt := walk.emptyOpenAt
      painter := walk.painter.map (·.draw (Walk.openStrokes span walk.position hit.stop)) }) := by
  have start := Pattern.start_of_here? matched
  have opening : walk.opening? grammar (front ++ rest) = some (⟨id, earlier.length⟩, span, hit) := by
    rw [Grammar.active, active] at listed
    rw [opening?, active, Option.bind_eq_bind, Option.bind_some, listed, there,
      nearest?_of_here? first matched]
    rfl
  have nearest : walk.delimiter? grammar (front ++ rest) =
      some (.opening ⟨id, earlier.length⟩ span hit) := by
    rw [delimiter?, opening]
    cases found : walk.closing? grammar (front ++ rest) with
    | none => rfl
    | some closing =>
        obtain ⟨innermost, last⟩ := closing
        obtain ⟨_, _, _, _, ends⟩ := of_closing? found
        have late := (Pattern.find?_within ends).1
        exact if_neg (by omega)
  rw [step, nearest]
  dsimp only
  rw [take, advance_of_le (by omega)]
  show (walk.openSpan _ span hit).map some = _
  rw [openSpan, filled]
  rfl

/-- **Closing a span.** Where no opening of the active rule set matches, a closing of the innermost span is
taken. -/
theorem step_closing {top : SpanRef} (there : walk.position = Text.byteLength front)
    (innermost : walk.stack.top? = some top) (declared : grammar.span? top = some span)
    (absent : ∀ other ∈ (grammar.active walk.stack).spans, other.opening.here? front rest = none)
    (matched : span.closing.here? front rest = some hit)
    (apart : walk.openedAt.head? ≠ some hit.stop) :
    walk.step grammar (front ++ rest) = .ok (some {
      walk with
      position := hit.stop
      stack := walk.stack.pop?.getD .empty
      openedAt := walk.openedAt.tail
      painter := walk.painter.map (·.draw (Walk.closeStrokes span walk.position hit.stop)) }) := by
  have start := Pattern.start_of_here? matched
  have closing : walk.closing? grammar (front ++ rest) = some (span, hit) := by
    rw [closing?, innermost, Option.bind_eq_bind, Option.bind_some, declared, Option.bind_eq_bind,
      Option.bind_some, there, Pattern.find?_of_here? matched]
    rfl
  have nearest : walk.delimiter? grammar (front ++ rest) = some (.closing span hit) := by
    rw [delimiter?, closing]
    cases found : walk.opening? grammar (front ++ rest) with
    | none => rfl
    | some opening =>
        obtain ⟨ref, other, later⟩ := opening
        obtain ⟨listed, ends⟩ := find?_of_nearest? (of_opening? found).2
        rw [there] at ends
        have late := Pattern.lt_start_of_here?_eq_none (absent _ (List.mem_of_getElem? listed)) ends
        exact if_pos (by omega)
  rw [step, nearest]
  dsimp only
  rw [take, advance_of_le (by omega)]
  show (walk.close span hit).map some = _
  rw [close, if_neg apart]
  rfl

/-- **Passing a token.** A span that closes right behind its opening is passed in two steps. -/
theorem complete_token {id : Nat} {earlier later : List Span} {token : List Char}
    (there : walk.position = Text.byteLength front) (active : grammar.activeId walk.stack = some id)
    (listed : (grammar.active walk.stack).spans = earlier ++ span :: later)
    (declared : grammar.span? ⟨id, earlier.length⟩ = some span)
    (bare : (grammar.active (walk.stack.push ⟨id, earlier.length⟩)).spans = [])
    (first : ∀ other ∈ earlier, other.opening.here? front (token ++ rest) = none) (filled : token ≠ [])
    (matched : span.opening.here? front (token ++ rest) =
      some ⟨Text.byteLength front, Text.byteLength (front ++ token)⟩)
    (closing : span.closing.here? (front ++ token) rest =
      some ⟨Text.byteLength (front ++ token), Text.byteLength (front ++ token)⟩) :
    walk.complete grammar (front ++ token ++ rest) =
      DirectWalk.complete grammar (front ++ token ++ rest) {
        walk with
        position := Text.byteLength (front ++ token)
        painter := walk.painter.map fun painter =>
          (painter.draw (Walk.openStrokes span (Text.byteLength front)
            (Text.byteLength (front ++ token)))).draw
              (Walk.closeStrokes span (Text.byteLength (front ++ token))
                (Text.byteLength (front ++ token))) } := by
  have ahead : Text.byteLength front < Text.byteLength (front ++ token) := by
    have positive := Nat.pos_of_ne_zero (mt Text.byteLength_eq_zero_iff.mp filled)
    rw [Text.byteLength_append]
    omega
  have opened := step_opening there active listed first matched (Pattern.Hit.isEmpty_eq_false ahead)
  have absent : ∀ other ∈ (grammar.active (walk.stack.push ⟨id, earlier.length⟩)).spans,
      other.opening.here? (front ++ token) rest = none := by
    rw [bare]
    exact List.forall_mem_nil _
  have apart : (walk.position :: walk.openedAt).head? ≠ some (Text.byteLength (front ++ token)) := by
    rw [List.head?_cons, there, Ne, Option.some.injEq]
    omega
  rw [List.append_assoc, complete_of_step opened, ← List.append_assoc]
  refine (complete_of_step (step_closing rfl (SpanStack.top?_push _ _) declared absent closing
    apart)).trans ?_
  rw [Option.map_map, there]
  rfl

/-- At the end of a line there is nothing to take but a closing that matches nothing. -/
theorem step_byteLength (there : walk.position = Text.byteLength text)
    (openings : grammar.OpeningsSolid text)
    (closing : ∀ top span, walk.stack.top? = some top → grammar.span? top = some span →
      span.closing.SolidOn text) :
    walk.step grammar text = .ok none := by
  have opened : walk.opening? grammar text = none := by
    have solid := openings.active walk.stack
    rw [Grammar.active] at solid
    rw [opening?, there]
    cases active : grammar.activeId walk.stack with
    | none => rfl
    | some id =>
        rw [active] at solid
        rw [Option.bind_eq_bind, Option.bind_some, nearest?_byteLength solid]
        rfl
  have closed : walk.closing? grammar text = none := by
    rw [closing?, there]
    cases innermost : walk.stack.top? with
    | none => rfl
    | some top =>
        cases declared : grammar.span? top with
        | none => simp [declared]
        | some span => simp [declared, (closing top span innermost declared).find?_byteLength]
  rw [step, delimiter?, opened, closed]

end Take

end DirectWalk

end Highlight.Scan
