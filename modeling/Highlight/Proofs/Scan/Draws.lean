import Highlight.Proofs.Scan.Pending
import Highlight.Proofs.Scan.Stroke
import Highlight.Scan.Walk

/-! # What a walk draws

The painter of a walk never steers it. Where a walk styles text, opens a span or closes one, it does with
a painter what it does without, and the strokes that the painter makes do not depend on what has been
painted (`Highlight.Scan.Walk.advance_withPainter`, `close_withPainter`, `openSpan_withPainter`). Only a
rule that matches nothing makes a difference, since without a painter rules are not looked at.
-/

namespace Highlight

namespace Scan

open Pattern (Hit)

/-- Whether `paint` does the same with every painter: it fails because of an empty rule, or it makes the
same strokes from `start` up to `stop`. -/
def Draws (text : List Char) (start stop : Nat) (paint : Painter → Except Fault Painter) : Prop :=
  (∃ pattern, ∀ painter, paint painter = .error (.emptyRule pattern)) ∨
    ∃ strokes, InOrder text start strokes stop ∧ ∀ painter, paint painter = .ok (painter.draw strokes)

/-- The rules draw the same with every painter, by induction on the bound of the loop. What is known of the
next matches is sound throughout, so that each of them lies ahead and on the line. -/
theorem applyRules_draws (rules : List Rule) {text whole : List Char} (starts : text <+: whole)
    {stop : Nat} (covers : Text.byteLength text ≤ stop) (bound : Nat) {position : Nat}
    (ahead : position ≤ stop) {pending : List Pending} (sound : AllSound text pending) :
    Draws whole position stop (applyRules rules text bound position pending) := by
  induction bound generalizing position pending with
  | zero => exact .inr ⟨[], .nil ahead, fun _ => rfl⟩
  | succ bound ih =>
      have refreshed : AllSound text (refreshAll (rules.map Rule.pattern) text position pending) :=
        refreshAll_sound sound
      rcases first : earliest? (refreshAll (rules.map Rule.pattern) text position pending) with
        _ | ⟨index, hit⟩
      · exact .inr ⟨[], .nil ahead, fun painter => by simp [applyRules, first]⟩
      · -- One match is two strokes; the matches behind it are those of the bound below.
        have within := sound_of_earliest? refreshed first
        have late := le_start_of_earliest? first
        have onLine := within.of_prefix starts
        have inside : hit.stop ≤ stop := Nat.le_trans within.closes.le_byteLength covers
        rcases declared : rules[index]? with _ | rule
        · exact .inr ⟨[], .nil ahead, fun painter => by simp [applyRules, first, declared]⟩
        · by_cases empty : hit.isEmpty
          · exact .inl ⟨rule.pattern.source, fun painter => by
              simp [applyRules, first, declared, empty]⟩
          · rcases ih inside refreshed with ⟨pattern, fails⟩ | ⟨strokes, ordered, draws⟩
            · exact .inl ⟨pattern, fun painter => by
                simp [applyRules, first, declared, empty, fails]⟩
            · refine .inr ⟨.push rule.style hit.start :: .pop hit.stop :: strokes, ?_, ?_⟩
              · exact .cons late onLine.opens (.cons onLine.ordered onLine.closes ordered)
              · intro painter
                simp [applyRules, first, declared, empty, draws, Painter.paint, Stroke.apply]

/-- Styling a part of the line draws within that part. -/
theorem paintRules_draws (rules : List Rule) (text : List Char) {start stop : Nat}
    (ahead : start ≤ stop) : Draws text start stop (paintRules rules text start stop) := by
  unfold paintRules
  by_cases nothing : stop ≤ start
  · exact .inr ⟨[], .nil ahead, fun painter => by simp [nothing]⟩
  · simp only [nothing, ↓reduceIte]
    exact applyRules_draws rules (Text.takeBytes_prefix stop text)
      (Text.byteLength_takeBytes_le stop text) _ ahead (allSound_unknown _ rules)

namespace Walk

/-- The walk with the given painter. -/
def withPainter (walk : Walk) (painter : Painter) : Walk := { walk with painter := some painter }

/-- A walk without a painter, standing between characters, that knows of matches in its text only. -/
structure Sound (text : List Char) (walk : Walk) : Prop where
  unpainted : walk.painter = none
  boundary : Text.IsBoundary text walk.position
  openings : AllSound text walk.openings
  saved : ∀ openings ∈ walk.saved, AllSound text openings

section WithPainter

variable (walk : Walk) (painter : Painter)

@[simp] theorem withPainter_position : (walk.withPainter painter).position = walk.position := rfl

@[simp] theorem withPainter_stack : (walk.withPainter painter).stack = walk.stack := rfl

@[simp] theorem withPainter_activeId : (walk.withPainter painter).activeId = walk.activeId := rfl

end WithPainter

variable {grammar : Grammar} {text : List Char} {walk : Walk} {span : Span} {hit : Hit}

/-- Without a painter a walk just moves ahead. -/
theorem advance_of_unpainted (unpainted : walk.painter = none) {stop : Nat}
    (ahead : walk.position ≤ stop) : walk.advance grammar text stop = .ok (walk.moveTo stop) := by
  unfold advance
  split
  · rename_i reached
    rw [Nat.le_antisymm reached ahead]
    rfl
  · rw [unpainted]

/-- With a painter it moves to the same place after some strokes, or a rule fails on the way. -/
theorem advance_withPainter (grammar : Grammar) (text : List Char) {stop : Nat}
    (ahead : walk.position ≤ stop) :
    (∃ pattern, ∀ painter,
        (walk.withPainter painter).advance grammar text stop = .error (.emptyRule pattern)) ∨
      ∃ strokes, InOrder text walk.position strokes stop ∧ ∀ painter,
        (walk.withPainter painter).advance grammar text stop =
          .ok ((walk.moveTo stop).withPainter (painter.draw strokes)) := by
  by_cases reached : stop ≤ walk.position
  · refine .inr ⟨[], .nil ahead, fun painter => ?_⟩
    have here : walk.moveTo stop = walk := by
      rw [Nat.le_antisymm reached ahead]
      rfl
    simp [advance, reached, here]
  · rcases paintRules_draws (grammar.resolve walk.activeId).rules text ahead with
      ⟨pattern, fails⟩ | ⟨strokes, ordered, draws⟩
    · refine .inl ⟨pattern, fun painter => ?_⟩
      simp only [advance, withPainter, reached, ↓reduceIte, fails]
      rfl
    · refine .inr ⟨strokes, ordered, fun painter => ?_⟩
      simp only [advance, withPainter, reached, ↓reduceIte, draws]
      rfl

/-- Opening a style does nothing to a walk without a painter. -/
theorem push_of_unpainted (unpainted : walk.painter = none) (style : Option Style) :
    walk.push style = walk := by
  cases walk
  cases unpainted
  rfl

/-- Closing one does nothing either. -/
theorem pop_of_unpainted (unpainted : walk.painter = none) : walk.pop = walk := by
  cases walk
  cases unpainted
  rfl

/-- The walk after the innermost span was closed, back among the openings around that span. -/
def resume (grammar : Grammar) (walk : Walk) (top : SpanRef) (span : Span) : Except Fault Walk :=
  match walk.saved with
  | [] => .ok { walk with openings := unknownOpenings (grammar.resolve walk.activeId) }
  | openings :: saved =>
    if (openings[top.index]?.bind Pending.hit?).any (·.start = walk.position) then
      .error (emptySpanFault span)
    else .ok { walk with openings := openings, saved := saved }

/-- Whether a span may be closed does not depend on the painter. -/
theorem resume_withPainter (painter : Painter) (top : SpanRef) :
    (walk.withPainter painter).resume grammar top span =
      (walk.resume grammar top span).map (·.withPainter painter) := by
  obtain ⟨position, stack, activeId, openings, saved, emptyOpenAt, inner⟩ := walk
  unfold resume withPainter
  rcases saved with _ | ⟨earlier, saved⟩
  · rfl
  · dsimp only
    split <;> rfl

/-- The strokes that style a closing delimiter. -/
def closeStrokes (span : Span) (start stop : Nat) : List Stroke :=
  if span.bodyCoversClose then [.push span.closeStyle start, .pop stop, .pop stop]
  else [.pop start, .push span.closeStyle start, .pop stop]

/-- The strokes that close a span lie at the ends of the match of its closing. -/
theorem closeStrokes_inOrder (within : hit.Within text) (span : Span) :
    InOrder text hit.start (closeStrokes span hit.start hit.stop) hit.stop := by
  have last : InOrder text hit.stop [] hit.stop := .nil (Nat.le_refl _)
  unfold closeStrokes
  split
  · exact .cons (Nat.le_refl _) within.opens
      (.cons within.ordered within.closes (.cons (Nat.le_refl _) within.closes last))
  · exact .cons (Nat.le_refl _) within.opens
      (.cons (Nat.le_refl _) within.opens (.cons within.ordered within.closes last))

/-- Closing a span without a painter: the walk moves behind the match, out of the span, and is back among
the openings around it. -/
theorem close_of_unpainted (unpainted : walk.painter = none) (top : SpanRef) :
    walk.close grammar top span hit =
      ((walk.moveTo hit.stop).withStack grammar (walk.stack.pop?.getD .empty)).resume grammar top
        span := by
  have moved : (walk.moveTo hit.stop).painter = none := unpainted
  unfold close
  simp only [push_of_unpainted unpainted, pop_of_unpainted unpainted, pop_of_unpainted moved,
    ite_self]
  rfl

theorem close_withPainter (painter : Painter) (top : SpanRef) :
    (walk.withPainter painter).close grammar top span hit =
      (((walk.moveTo hit.stop).withStack grammar (walk.stack.pop?.getD .empty)).withPainter
        (painter.draw (closeStrokes span walk.position hit.stop))).resume grammar top span := by
  unfold close closeStrokes
  cases span.bodyCoversClose <;> rfl

/-- The walk inside of a span that it has opened. -/
def entered (grammar : Grammar) (walk : Walk) (ref : SpanRef) (span : Span) (hit : Hit) : Walk where
  position := hit.stop
  stack := walk.stack.push ref
  activeId := span.inner
  openings := unknownOpenings (grammar.resolve span.inner)
  saved := walk.openings :: walk.saved
  emptyOpenAt := if hit.isEmpty then some walk.position else walk.emptyOpenAt
  painter := walk.painter

/-- The strokes that style an opening delimiter. -/
def openStrokes (span : Span) (start stop : Nat) : List Stroke :=
  if span.bodyCoversOpen then [.push span.bodyStyle start, .push span.openStyle start, .pop stop]
  else [.push span.openStyle start, .pop stop, .push span.bodyStyle stop]

/-- The strokes that open a span lie at the ends of the match of its opening. -/
theorem openStrokes_inOrder (within : hit.Within text) (span : Span) :
    InOrder text hit.start (openStrokes span hit.start hit.stop) hit.stop := by
  have last : InOrder text hit.stop [] hit.stop := .nil (Nat.le_refl _)
  unfold openStrokes
  split
  · exact .cons (Nat.le_refl _) within.opens
      (.cons (Nat.le_refl _) within.opens (.cons within.ordered within.closes last))
  · exact .cons (Nat.le_refl _) within.opens
      (.cons within.ordered within.closes (.cons (Nat.le_refl _) within.closes last))

/-- Opening a span without a painter: the walk enters it, unless it has entered one over nothing at this
place before. -/
theorem openSpan_of_unpainted (unpainted : walk.painter = none) (ref : SpanRef) :
    walk.openSpan grammar ref span hit =
      if hit.isEmpty && walk.emptyOpenAt = some walk.position then .error (emptySpanFault span)
      else .ok (walk.entered grammar ref span hit) := by
  cases walk
  cases unpainted
  unfold openSpan entered
  congr 1
  cases hit.isEmpty <;> cases span.bodyCoversOpen <;> rfl

/-- Opening it with a painter is the same, after the strokes for the opening delimiter. -/
theorem openSpan_withPainter (painter : Painter) (ref : SpanRef) :
    (walk.withPainter painter).openSpan grammar ref span hit =
      if hit.isEmpty && walk.emptyOpenAt = some walk.position then .error (emptySpanFault span)
      else .ok ((walk.entered grammar ref span hit).withPainter
        (painter.draw (openStrokes span walk.position hit.stop))) := by
  unfold openSpan openStrokes entered
  congr 1
  cases hit.isEmpty <;> cases span.bodyCoversOpen <;> rfl

/-! ## Sound walks -/

theorem Sound.moveTo (sound : walk.Sound text) {stop : Nat} (boundary : Text.IsBoundary text stop) :
    (walk.moveTo stop).Sound text :=
  ⟨sound.unpainted, boundary, sound.openings, sound.saved⟩

theorem Sound.withStack (sound : walk.Sound text) (grammar : Grammar) (stack : SpanStack) :
    (walk.withStack grammar stack).Sound text :=
  ⟨sound.unpainted, sound.boundary, sound.openings, sound.saved⟩

/-- A walk that is back among earlier openings stands where it stood, and what it knows of them is sound. -/
theorem Sound.resume (sound : walk.Sound text) {top : SpanRef} {next : Walk}
    (resumed : walk.resume grammar top span = .ok next) :
    next.Sound text ∧ next.position = walk.position := by
  unfold Walk.resume at resumed
  split at resumed
  · cases resumed
    exact ⟨⟨sound.unpainted, sound.boundary, allSound_unknown text _, sound.saved⟩, rfl⟩
  · rename_i openings saved around
    split at resumed
    · cases resumed
    · cases resumed
      have all := around ▸ sound.saved
      exact ⟨⟨sound.unpainted, sound.boundary, all openings List.mem_cons_self,
        fun other inside => all other (List.mem_cons_of_mem _ inside)⟩, rfl⟩

/-- Of the openings inside of a span nothing is known yet, which is sound. -/
theorem Sound.entered (sound : walk.Sound text) (within : hit.Within text) (ref : SpanRef) :
    (walk.entered grammar ref span hit).Sound text := by
  refine ⟨sound.unpainted, within.closes, allSound_unknown text _, ?_⟩
  intro openings member
  rcases List.mem_cons.mp member with rfl | outer
  · exact sound.openings
  · exact sound.saved openings outer

end Walk

end Scan

end Highlight
