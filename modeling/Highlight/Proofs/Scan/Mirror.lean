import Highlight.Proofs.Scan.Draws

/-! # A painted walk mirrors the plain one

Step by step a walk with a painter is the walk without one, together with strokes made in order along the
line (`Highlight.Scan.Step.Mirrors`). So is a run of steps, and so is the walk over a whole line
(`Highlight.Scan.Walk.Sound.complete_draws`), until a rule that matches nothing stops the painted walk.
-/

namespace Highlight.Scan

open Pattern (Hit)

namespace Step

/-- The walk that a step ends in, unless it fails. -/
def walk? : Step → Option Walk
  | next walk | done walk | stuck walk => some walk
  | failed _ => none

/-- The step with the given painter. -/
def withPainter (painter : Painter) : Step → Step
  | next walk => next (walk.withPainter painter)
  | done walk => done (walk.withPainter painter)
  | stuck walk => stuck (walk.withPainter painter)
  | failed fault => failed fault

/-- The step followed by another one, if the walk goes on. -/
def andThen (step : Step) (further : Walk → Step) : Step :=
  match step with
  | next walk => further walk
  | last => last

/-- What comes of the walk that the step ends in, unless it fails. -/
def conclude (step : Step) (last : Walk → Except Fault Walk) : Except Fault Walk :=
  match step with
  | next walk | done walk | stuck walk => last walk
  | failed fault => .error fault

/-- What steps with a painter have to do with the step without one. The step without a painter ends in a
sound walk. With a painter it fails because of an empty rule, or it is the same step and the painter has
made strokes between the two places that the walk has stood at. -/
structure Mirrors (text : List Char) (start : Nat) (plain : Step) (painted : Painter → Step) :
    Prop where
  sound : ∀ walk, plain.walk? = some walk → walk.Sound text
  draws : (∃ pattern, ∀ painter, painted painter = .failed (.emptyRule pattern)) ∨
    ∃ strokes, (∀ walk, plain.walk? = some walk → InOrder text start strokes walk.position) ∧
      ∀ painter, painted painter = plain.withPainter (painter.draw strokes)

/-- A step that ends in a walk is concluded by what comes of the walk, with a painter or without. -/
theorem conclude_of_walk? {step : Step} {walk : Walk} (reached : step.walk? = some walk)
    (last : Walk → Except Fault Walk) :
    step.conclude last = last walk ∧
      ∀ painter, (step.withPainter painter).conclude last = last (walk.withPainter painter) := by
  cases step with
  | next _ | done _ | stuck _ =>
      cases reached
      exact ⟨rfl, fun _ => rfl⟩
  | failed _ => cases reached

theorem exists_failed_of_walk?_eq_none {step : Step} (failing : step.walk? = none) :
    ∃ fault, step = .failed fault := by
  cases step with
  | next _ | done _ | stuck _ => cases failing
  | failed fault => exact ⟨fault, rfl⟩

theorem ofExcept_map_withPainter (result : Except Fault Walk) (painter : Painter) :
    ofExcept (result.map (·.withPainter painter)) = (ofExcept result).withPainter painter := by
  cases result <;> rfl

/-- A step made of a result ends in a walk only if the result is one. -/
theorem ok_of_walk?_ofExcept {result : Except Fault Walk} {walk : Walk}
    (reached : (ofExcept result).walk? = some walk) : result = .ok walk := by
  cases result with
  | error fault => cases reached
  | ok found =>
      cases reached
      rfl

namespace Mirrors

variable {text : List Char} {start middle : Nat} {plain : Step} {painted : Painter → Step}

/-- The same step with any painter, after strokes that do not depend on the painter. -/
theorem of_strokes (strokes : List Stroke)
    (sound : ∀ walk, plain.walk? = some walk →
      walk.Sound text ∧ InOrder text start strokes walk.position)
    (same : ∀ painter, painted painter = plain.withPainter (painter.draw strokes)) :
    Mirrors text start plain painted :=
  ⟨fun walk reached => (sound walk reached).1,
    .inr ⟨strokes, fun walk reached => (sound walk reached).2, same⟩⟩

/-- A step that is begun with strokes already made. -/
theorem after {strokes : List Stroke} (ordered : InOrder text start strokes middle)
    (mirrors : Mirrors text middle plain painted) :
    Mirrors text start plain fun painter => painted (painter.draw strokes) := by
  refine ⟨mirrors.sound, ?_⟩
  rcases mirrors.draws with ⟨pattern, fails⟩ | ⟨later, far, same⟩
  · exact .inl ⟨pattern, fun painter => fails _⟩
  · refine .inr ⟨strokes ++ later, fun walk reached => ordered.append (far walk reached), ?_⟩
    intro painter
    rw [same, Painter.draw_append]

theorem congr {other : Painter → Step} (mirrors : Mirrors text start plain painted)
    (equal : ∀ painter, other painter = painted painter) : Mirrors text start plain other := by
  rwa [show other = painted from funext equal]

/-- A step that goes on, if it does, with a step that mirrors its own. -/
theorem andThen (mirrors : Mirrors text start plain painted) {further : Walk → Step}
    (goesOn : ∀ walk, plain = .next walk →
      Mirrors text walk.position (further walk) fun painter => further (walk.withPainter painter)) :
    Mirrors text start (plain.andThen further) fun painter => (painted painter).andThen further := by
  cases plain with
  | next walk =>
      have later := goesOn walk rfl
      rcases mirrors.draws with ⟨pattern, fails⟩ | ⟨strokes, ordered, same⟩
      · exact ⟨later.sound, .inl ⟨pattern, fun painter => by rw [fails]; rfl⟩⟩
      · exact (later.after (ordered walk rfl)).congr fun painter => by rw [same]; rfl
  | done walk | stuck walk | failed fault =>
      rcases mirrors.draws with ⟨pattern, fails⟩ | ⟨strokes, ordered, same⟩
      · exact ⟨mirrors.sound, .inl ⟨pattern, fun painter => by rw [fails]; rfl⟩⟩
      · exact ⟨mirrors.sound, .inr ⟨strokes, ordered, fun painter => by rw [same]; rfl⟩⟩

end Mirrors

end Step

namespace Walk

variable {grammar : Grammar} {text : List Char} {walk : Walk} {hit : Hit}

/-- The walk with the openings of its active rule set refreshed. -/
def refreshed (grammar : Grammar) (text : List Char) (walk : Walk) : Walk :=
  { walk with
    openings :=
      refreshAll ((grammar.resolve walk.activeId).spans.map Span.opening) text walk.position
        walk.openings }

/-- The innermost open span, if it is declared. -/
def innermost? (grammar : Grammar) (walk : Walk) : Option (SpanRef × Span) :=
  walk.stack.top?.bind fun top => (grammar.span? top).map fun span => (top, span)

/-- The next match that closes the innermost open span. -/
def closing? (grammar : Grammar) (text : List Char) (walk : Walk) : Option Hit :=
  (walk.innermost? grammar).bind fun (_, span) => span.closing.find? text walk.position

/-- The move made over a match that the walk has come to. -/
def act (grammar : Grammar) (ruleSet : RuleSet) (innermost? : Option (SpanRef × Span)) (move : Move)
    (hit : Hit) (walk : Walk) : Step :=
  match move with
  | .closing =>
    match innermost? with
    | some (top, span) => .ofExcept (walk.close grammar top span hit)
    | none => .stuck walk
  | .opening index =>
    match walk.activeId, ruleSet.spans[index]? with
    | some id, some span => .ofExcept (walk.openSpan grammar ⟨id, index⟩ span hit)
    | _, _ => .stuck walk

/-- A step looks for the nearest delimiter, styles the text before it and acts on it. -/
theorem step_eq (grammar : Grammar) (text : List Char) (walk : Walk) :
    walk.step grammar text =
      match nextMove? (walk.refreshed grammar text).openings (walk.closing? grammar text) with
      | none => .done (walk.refreshed grammar text)
      | some (move, hit) =>
        match (walk.refreshed grammar text).advance grammar text hit.start with
        | .error fault => .failed fault
        | .ok there =>
          there.act grammar (grammar.resolve walk.activeId) (walk.innermost? grammar) move hit :=
  rfl

/-- The painter is not asked where the nearest delimiter is. -/
theorem step_withPainter (grammar : Grammar) (text : List Char) (walk : Walk) (painter : Painter) :
    (walk.withPainter painter).step grammar text =
      match nextMove? (walk.refreshed grammar text).openings (walk.closing? grammar text) with
      | none => .done ((walk.refreshed grammar text).withPainter painter)
      | some (move, hit) =>
        match ((walk.refreshed grammar text).withPainter painter).advance grammar text hit.start with
        | .error fault => .failed fault
        | .ok there =>
          there.act grammar (grammar.resolve walk.activeId) (walk.innermost? grammar) move hit :=
  rfl

section Mirroring

variable (sound : walk.Sound text) (grammar : Grammar)

include sound

theorem Sound.stuck_mirrors :
    (Step.stuck walk).Mirrors text walk.position fun painter => .stuck (walk.withPainter painter) :=
  .of_strokes [] (fun _ same => Option.some.inj same ▸ ⟨sound, .nil (Nat.le_refl _)⟩) fun _ => rfl

variable (within : hit.Within text) (reached : walk.position = hit.start)

include within reached

/-- Closing a span mirrors the same without a painter. -/
theorem Sound.close_mirrors (top : SpanRef) (span : Span) :
    (Step.ofExcept (walk.close grammar top span hit)).Mirrors text walk.position
      fun painter => .ofExcept ((walk.withPainter painter).close grammar top span hit) := by
  refine .of_strokes (closeStrokes span walk.position hit.stop) ?_ ?_
  · intro next outcome
    have closed := Step.ok_of_walk?_ofExcept outcome
    rw [close_of_unpainted sound.unpainted] at closed
    obtain ⟨soundNext, stands⟩ := ((sound.moveTo within.closes).withStack grammar _).resume closed
    refine ⟨soundNext, ?_⟩
    rw [stands, reached]
    exact closeStrokes_inOrder within span
  · intro painter
    rw [close_withPainter, resume_withPainter, close_of_unpainted sound.unpainted,
      Step.ofExcept_map_withPainter]

/-- Opening a span mirrors the same without a painter. -/
theorem Sound.openSpan_mirrors (ref : SpanRef) (span : Span) :
    (Step.ofExcept (walk.openSpan grammar ref span hit)).Mirrors text walk.position
      fun painter => .ofExcept ((walk.withPainter painter).openSpan grammar ref span hit) := by
  refine .of_strokes (openStrokes span walk.position hit.stop) ?_ ?_
  · intro next outcome
    have opened := Step.ok_of_walk?_ofExcept outcome
    rw [openSpan_of_unpainted sound.unpainted] at opened
    split at opened
    · cases opened
    · cases opened
      refine ⟨sound.entered within ref, ?_⟩
      rw [reached]
      exact openStrokes_inOrder within span
  · intro painter
    rw [openSpan_withPainter, openSpan_of_unpainted sound.unpainted]
    split <;> rfl

/-- Each move made over a match mirrors the same without a painter. -/
theorem Sound.act_mirrors (ruleSet : RuleSet) (innermost? : Option (SpanRef × Span))
    (move : Move) :
    (walk.act grammar ruleSet innermost? move hit).Mirrors text walk.position
      fun painter => (walk.withPainter painter).act grammar ruleSet innermost? move hit := by
  cases move with
  | closing =>
      rcases innermost? with _ | ⟨top, span⟩
      · exact sound.stuck_mirrors
      · exact sound.close_mirrors grammar within reached top span
  | opening index =>
      simp only [act, withPainter_activeId]
      rcases walk.activeId with _ | id
      · exact sound.stuck_mirrors
      · rcases ruleSet.spans[index]? with _ | span
        · exact sound.stuck_mirrors
        · exact sound.openSpan_mirrors grammar within reached ⟨id, index⟩ span

end Mirroring

theorem closing?_within (found : walk.closing? grammar text = some hit) :
    walk.position ≤ hit.start ∧ hit.Within text := by
  obtain ⟨innermost, _, matched⟩ := Option.bind_eq_some_iff.mp found
  exact Pattern.find?_within matched

theorem Sound.refreshed (sound : walk.Sound text) (grammar : Grammar) :
    (walk.refreshed grammar text).Sound text :=
  ⟨sound.unpainted, sound.boundary, refreshAll_sound sound.openings, sound.saved⟩

/-- **One step.** A painter makes no difference to a step but that a rule may fail. -/
theorem Sound.step_mirrors (sound : walk.Sound text) (grammar : Grammar) :
    (walk.step grammar text).Mirrors text walk.position
      fun painter => (walk.withPainter painter).step grammar text := by
  have fresh := sound.refreshed grammar
  simp only [step_withPainter]
  rw [step_eq]
  rcases next : nextMove? (walk.refreshed grammar text).openings (walk.closing? grammar text) with
    _ | ⟨move, hit⟩
  · exact .of_strokes [] (fun _ same => Option.some.inj same ▸ ⟨fresh, .nil (Nat.le_refl _)⟩)
      fun _ => rfl
  · obtain ⟨late, within⟩ := within_of_nextMove? sound.openings (fun _ => closing?_within) next
    have ahead : (walk.refreshed grammar text).position ≤ hit.start := late
    dsimp only
    rw [advance_of_unpainted fresh.unpainted ahead]
    have acts := (fresh.moveTo within.opens).act_mirrors grammar within rfl
      (grammar.resolve walk.activeId) (walk.innermost? grammar) move
    rcases advance_withPainter grammar text ahead with ⟨pattern, fails⟩ | ⟨strokes, ordered, same⟩
    · exact ⟨acts.sound, .inl ⟨pattern, fun painter => by rw [fails]⟩⟩
    · exact (acts.after ordered).congr fun painter => by rw [same]

/-! ## Runs -/

theorem run_succ (grammar : Grammar) (text : List Char) (bound : Nat) (walk : Walk) :
    walk.run grammar text (bound + 1) =
      (walk.step grammar text).andThen fun next => next.run grammar text bound := by
  rw [run]
  cases walk.step grammar text <;> rfl

/-- **A whole run.** A painter makes no difference to a run but that a rule may fail. -/
theorem Sound.run_mirrors (sound : walk.Sound text) (grammar : Grammar) (bound : Nat) :
    (walk.run grammar text bound).Mirrors text walk.position
      fun painter => (walk.withPainter painter).run grammar text bound := by
  induction bound generalizing walk with
  | zero =>
      exact .of_strokes [] (fun _ same => Option.some.inj same ▸ ⟨sound, .nil (Nat.le_refl _)⟩)
        fun _ => rfl
  | succ bound ih =>
      simp only [run_succ]
      have first := sound.step_mirrors grammar
      exact first.andThen fun next outcome => ih (first.sound next (by rw [outcome]; rfl))

/-- Without a painter the end of a line is just moved to. -/
theorem finish_of_unpainted (unpainted : walk.painter = none)
    (within : walk.position ≤ Text.byteLength text) :
    walk.finish grammar text = .ok (walk.moveTo (Text.byteLength text)) := by
  unfold finish
  rw [advance_of_unpainted unpainted within]
  cases walk
  cases unpainted
  rfl

/-- With a painter the rest of the line is styled and all styles are closed there, or a rule fails. -/
theorem finish_withPainter (grammar : Grammar) (within : walk.position ≤ Text.byteLength text) :
    (∃ pattern, ∀ painter,
        (walk.withPainter painter).finish grammar text = .error (.emptyRule pattern)) ∨
      ∃ strokes, InOrder text walk.position strokes (Text.byteLength text) ∧ ∀ painter,
        (walk.withPainter painter).finish grammar text =
          .ok ((walk.moveTo (Text.byteLength text)).withPainter
            ((painter.draw strokes).popAll (Text.byteLength text))) := by
  rcases advance_withPainter grammar text within with
    ⟨pattern, fails⟩ | ⟨strokes, ordered, same⟩
  · refine .inl ⟨pattern, fun painter => ?_⟩
    unfold finish
    rw [fails]
    rfl
  · refine .inr ⟨strokes, ordered, fun painter => ?_⟩
    unfold finish
    rw [same]
    rfl

theorem complete_eq (grammar : Grammar) (text : List Char) (walk : Walk) :
    walk.complete grammar text =
      (walk.run grammar text (stepBound walk.stack.length (Text.byteLength text))).conclude
        fun last => last.finish grammar text := by
  unfold complete
  cases walk.run grammar text (stepBound walk.stack.length (Text.byteLength text)) <;> rfl

/-- **A whole line.** With a painter the walk over a line fails because of an empty rule, or it ends as
it does without one and the painter has made strokes in order along the line. -/
theorem Sound.complete_draws (sound : walk.Sound text) (grammar : Grammar) :
    (∃ pattern, ∀ painter,
        (walk.withPainter painter).complete grammar text = .error (.emptyRule pattern)) ∨
      ∃ strokes, InOrder text walk.position strokes (Text.byteLength text) ∧ ∀ painter,
        (walk.withPainter painter).complete grammar text =
          (walk.complete grammar text).map
            (·.withPainter ((painter.draw strokes).popAll (Text.byteLength text))) := by
  have run := sound.run_mirrors grammar (stepBound walk.stack.length (Text.byteLength text))
  simp only [complete_eq, withPainter_stack]
  generalize walk.run grammar text (stepBound walk.stack.length (Text.byteLength text)) = plain
    at run
  rcases run.draws with ⟨pattern, fails⟩ | ⟨strokes, ordered, same⟩
  · exact .inl ⟨pattern, fun painter => by rw [fails]; rfl⟩
  · simp only [same]
    rcases reached : plain.walk? with _ | last
    · obtain ⟨fault, rfl⟩ := Step.exists_failed_of_walk?_eq_none reached
      exact .inr ⟨[], .nil sound.boundary.le_byteLength, fun _ => rfl⟩
    · obtain ⟨ends, endsPainted⟩ :=
        Step.conclude_of_walk? reached fun last => last.finish grammar text
      have soundLast := run.sound last reached
      have within := soundLast.boundary.le_byteLength
      simp only [ends, endsPainted, finish_of_unpainted soundLast.unpainted within]
      rcases finish_withPainter grammar within with ⟨pattern, fails⟩ | ⟨later, further, finishes⟩
      · exact .inl ⟨pattern, fun painter => fails _⟩
      · refine .inr ⟨strokes ++ later, (ordered last reached).append further, fun painter => ?_⟩
        rw [finishes, Painter.draw_append]
        rfl

end Walk

end Highlight.Scan
