import Highlight.Proofs.Pattern.Search
import Highlight.Proofs.Scan.Direct
import Highlight.Proofs.Scan.Rounds
import Mathlib.Data.List.Forall2

/-! # Keeping matches changes nothing

What is kept of a match stays true while the walk goes on, at every level of nesting: refreshing it gives
what searching again would give, from there on (`Highlight.Scan.Pending.Current`). A walk that keeps
matches therefore goes step by step with the walk that keeps none
(`Highlight.Scan.DirectWalk.Keeps.step`), with which it comes to its end
(`Highlight.Scan.DirectWalk.Keeps.rounds`), and so the two scans of a line agree
(`Highlight.Grammar.scan_eq_direct`).
-/

namespace Highlight

namespace Scan

open Pattern (Hit)

/-- Whether refreshing what is known, at `position` or further on, gives what a search gives. -/
def Pending.Current (text : List Char) (position : Nat) (pattern : Pattern) (pending : Pending) :
    Prop :=
  ∀ later, position ≤ later →
    pending.refresh text later pattern = .ofSearch (pattern.find? text later)

namespace Pending.Current

variable {text : List Char} {position later : Nat} {pattern : Pattern} {pending : Pending}

theorem unknown (text : List Char) (position : Nat) (pattern : Pattern) :
    Current text position pattern .unknown :=
  fun _ _ => rfl

theorem of_le (current : pending.Current text position pattern) (forward : position ≤ later) :
    pending.Current text later pattern :=
  fun place ahead => current place (Nat.le_trans forward ahead)

/-- The outcome of a search serves until its match lies behind, when the search is made again. -/
theorem ofSearch (text : List Char) (position : Nat) (pattern : Pattern) :
    Current text position pattern (.ofSearch (pattern.find? text position)) := by
  intro later forward
  cases found : pattern.find? text position with
  | none =>
      rw [Pattern.find?_eq_none_of_le found forward]
      rfl
  | some hit =>
      by_cases behind : hit.start < later
      · simp [Pending.ofSearch, refresh, isStale, behind]
      · have again := Pattern.find?_of_le found forward (Nat.le_of_not_lt behind)
        simp [Pending.ofSearch, refresh, isStale, behind, again]

end Pending.Current

section Known

variable {α : Type} {pattern : α → Pattern} {text : List Char} {position later : Nat}
  {items : List α} {pending : List Pending}

/-- Whether what is known of each item's pattern is current. -/
def Known (pattern : α → Pattern) (text : List Char) (position : Nat) (items : List α)
    (pending : List Pending) : Prop :=
  List.Forall₂ (fun item known => known.Current text position (pattern item)) items pending

/-- What searches for the patterns give. -/
def searches (pattern : α → Pattern) (text : List Char) (position : Nat) (items : List α) :
    List Pending :=
  items.map fun item => .ofSearch ((pattern item).find? text position)

theorem known_unknown (pattern : α → Pattern) (text : List Char) (position : Nat) (items : List α) :
    Known pattern text position items (items.map fun _ => .unknown) := by
  induction items with
  | nil => exact .nil
  | cons item rest ih => exact .cons (Pending.Current.unknown text position _) ih

theorem known_searches (pattern : α → Pattern) (text : List Char) (position : Nat) (items : List α) :
    Known pattern text position items (searches pattern text position items) := by
  induction items with
  | nil => exact .nil
  | cons item rest ih => exact .cons (Pending.Current.ofSearch text position _) ih

theorem Known.of_le (known : Known pattern text position items pending)
    (forward : position ≤ later) : Known pattern text later items pending :=
  List.Forall₂.imp (fun _ _ current => current.of_le forward) known

theorem Known.refreshAll (known : Known pattern text position items pending)
    (forward : position ≤ later) :
    refreshAll (items.map pattern) text later pending = searches pattern text later items := by
  induction known with
  | nil => rfl
  | cons current rest ih => exact congrArg₂ List.cons (current later forward) ih

/-- The earliest of the matches that searches give is that of the nearest item. -/
theorem earliest?_searches (pattern : α → Pattern) (text : List Char) (position : Nat)
    (items : List α) :
    earliest? (searches pattern text position items) =
      (nearest? pattern text position items).map fun (index, _, hit) => (index, hit) := by
  induction items with
  | nil => rfl
  | cons item rest ih =>
      have expanded : searches pattern text position (item :: rest) =
          .ofSearch ((pattern item).find? text position) :: searches pattern text position rest := rfl
      rw [expanded, earliest?, ih, nearest?, Pending.hit?_ofSearch]
      rcases (pattern item).find? text position with _ | hit <;>
        rcases nearest? pattern text position rest with _ | ⟨index, other, later⟩
      · rfl
      · rfl
      · rfl
      · by_cases before : later.start < hit.start <;> simp [before]

end Known

/-! ## Rules -/

/-- The loop over the matches of rules comes to its end where one does that searches again each time, and
each round but the last one moves over some of the text. -/
theorem Known.ruleRounds {rules : List Rule} {text : List Char} {position : Nat}
    {pending : List Pending} (known : Known Rule.pattern text position rules pending)
    (painter : Painter) :
    ∃ count, count ≤ Text.byteLength text - position + 1 ∧
      RuleRounds rules text position pending painter count
        (paintFrom rules text position painter) := by
  have earliest := earliest?_searches Rule.pattern text position rules
  rw [← known.refreshAll (Nat.le_refl position)] at earliest
  fun_induction paintFrom rules text position painter generalizing pending with
  | case1 position painter absent =>
      rw [absent] at earliest
      exact ⟨1, Nat.le_add_left 1 _, .done earliest⟩
  | case2 position painter index rule hit first empty =>
      rw [first] at earliest
      exact ⟨1, Nat.le_add_left 1 _, .failed earliest (find?_of_nearest? first).1 empty⟩
  | case3 position painter index rule hit first filled ih =>
      rw [first] at earliest
      obtain ⟨late, within⟩ := within_of_nearest? first
      have moves := Hit.lt_of_not_isEmpty filled
      have inside := within.closes.le_byteLength
      have found := known_searches Rule.pattern text position rules
      rw [← known.refreshAll (Nat.le_refl position)] at found
      have later := found.of_le (Nat.le_trans late within.ordered)
      obtain ⟨count, few, rounds⟩ := ih later (by
        rw [later.refreshAll (Nat.le_refl hit.stop), earliest?_searches])
      exact ⟨count + 1, by omega, .next earliest (find?_of_nearest? first).1 filled rounds⟩

/-- Styling a part of the line is styling all of a text that ends where the part does. -/
theorem paintRules_eq_paintFrom (rules : List Rule) (text : List Char) {start stop : Nat}
    (ahead : start < stop) (painter : Painter) :
    paintRules rules text start stop painter =
      paintFrom rules (Text.takeBytes stop text) start painter := by
  have short := Text.byteLength_takeBytes_le stop text
  rw [paintRules, if_neg (Nat.not_le_of_lt ahead)]
  obtain ⟨count, few, rounds⟩ :=
    (known_unknown Rule.pattern (Text.takeBytes stop text) start rules).ruleRounds painter
  exact rounds.applyRules_eq (by omega)

/-! ## Steps -/

namespace Walk

variable {grammar : Grammar} {text : List Char} {walk : Walk} {span : Span} {hit : Hit}

/-- Closing a span is to leave it, with the strokes for its closing delimiter, and to be back among the
openings around it. -/
theorem close_eq_resume (walk : Walk) (top : SpanRef) (span : Span) (hit : Hit) :
    walk.close grammar top span hit =
      { position := hit.stop
        stack := walk.stack.pop?.getD .empty
        activeId := grammar.activeId (walk.stack.pop?.getD .empty)
        openings := walk.openings
        saved := walk.saved
        emptyOpenAt := walk.emptyOpenAt
        painter := walk.painter.map (·.draw (closeStrokes span walk.position hit.stop)) :
        Walk }.resume grammar top span := by
  obtain ⟨position, stack, activeId, openings, saved, emptyOpenAt, painter⟩ := walk
  unfold close closeStrokes
  cases painter <;> cases span.bodyCoversClose <;> rfl

/-- Opening a span is to enter it, with the strokes for its opening delimiter, unless one was entered over
nothing at this place. -/
theorem openSpan_eq_entered (walk : Walk) (ref : SpanRef) (span : Span) (hit : Hit) :
    walk.openSpan grammar ref span hit =
      if hit.isEmpty && walk.emptyOpenAt = some walk.position then .error (emptySpanFault span)
      else .ok { walk.entered grammar ref span hit with
        painter := walk.painter.map (·.draw (openStrokes span walk.position hit.stop)) } := by
  obtain ⟨position, stack, activeId, openings, saved, emptyOpenAt, painter⟩ := walk
  unfold openSpan openStrokes entered
  congr 1
  cases painter <;> cases hit.isEmpty <;> cases span.bodyCoversOpen <;> rfl

end Walk

/-- What is kept for the rule sets around a walk, one entry for each span opened on the line and still
open: what is known of the openings there, among them the one at which the span was opened. -/
inductive Saved (grammar : Grammar) (text : List Char) (position : Nat) :
    SpanStack → List Nat → List (List Pending) → Prop where
  | nil (stack : SpanStack) : Saved grammar text position stack [] []
  | cons {top : SpanRef} {stack : SpanStack} {places : List Nat} {openings : List Pending}
      {saved : List (List Pending)} {hit : Hit}
      (known : Known Span.opening text position (grammar.active stack).spans openings)
      (opened : openings[top.index]?.bind Pending.hit? = some hit)
      (outer : Saved grammar text position stack places saved) :
      Saved grammar text position (top :: stack) (hit.start :: places) (openings :: saved)

/-- What is kept for the rule sets around a walk serves further on as well. -/
theorem Saved.of_le {grammar : Grammar} {text : List Char} {position later : Nat}
    {stack : SpanStack} {places : List Nat} {saved : List (List Pending)}
    (kept : Saved grammar text position stack places saved) (forward : position ≤ later) :
    Saved grammar text later stack places saved := by
  induction kept with
  | nil stack => exact .nil stack
  | cons known opened _ ih => exact .cons (known.of_le forward) opened ih

/-- What a delimiter does, as a walk that keeps matches names it. -/
def Delimiter.move : Delimiter → Move × Hit
  | .opening ref _ hit => (.opening ref.index, hit)
  | .closing _ hit => (.closing, hit)

namespace DirectWalk

/-- The walk that stands at the same place and keeps matches. -/
def keeping (grammar : Grammar) (openings : List Pending) (saved : List (List Pending))
    (walk : DirectWalk) : Walk where
  position := walk.position
  stack := walk.stack
  activeId := grammar.activeId walk.stack
  openings := openings
  saved := saved
  emptyOpenAt := walk.emptyOpenAt
  painter := walk.painter

section Keeping

variable (grammar : Grammar) (openings : List Pending) (saved : List (List Pending))
  (walk : DirectWalk)

@[simp] theorem keeping_position :
    (walk.keeping grammar openings saved).position = walk.position := rfl

@[simp] theorem keeping_stack : (walk.keeping grammar openings saved).stack = walk.stack := rfl

@[simp] theorem keeping_activeId :
    (walk.keeping grammar openings saved).activeId = grammar.activeId walk.stack := rfl

@[simp] theorem keeping_openings : (walk.keeping grammar openings saved).openings = openings := rfl

@[simp] theorem keeping_saved : (walk.keeping grammar openings saved).saved = saved := rfl

@[simp] theorem keeping_emptyOpenAt :
    (walk.keeping grammar openings saved).emptyOpenAt = walk.emptyOpenAt := rfl

end Keeping

/-- Whether matches that are kept are true where the walk stands, and will be further on. -/
structure Keeps (grammar : Grammar) (text : List Char) (walk : DirectWalk) (openings : List Pending)
    (saved : List (List Pending)) : Prop where
  openings : Known Span.opening text walk.position (grammar.active walk.stack).spans openings
  saved : Saved grammar text walk.position walk.stack walk.openedAt saved

/-- Two results that are the same fault, or walks at the same place of which one keeps matches. -/
inductive Matches (grammar : Grammar) (text : List Char) :
    Except Fault Walk → Except Fault DirectWalk → Prop where
  | failed (fault : Fault) : Matches grammar text (.error fault) (.error fault)
  | reached {walk : DirectWalk} {openings : List Pending} {saved : List (List Pending)}
      (keeps : walk.Keeps grammar text openings saved) :
      Matches grammar text (.ok (walk.keeping grammar openings saved)) (.ok walk)

variable {grammar : Grammar} {text : List Char} {walk : DirectWalk} {openings : List Pending}
  {saved : List (List Pending)} {span : Span} {hit : Hit} {index : Nat} {top ref : SpanRef}
  {rest : SpanStack}

/-- Both walks style the text before a place in the same way. -/
theorem advance_keeping (grammar : Grammar) (text : List Char) (walk : DirectWalk)
    (openings : List Pending) (saved : List (List Pending)) (stop : Nat) :
    (walk.keeping grammar openings saved).advance grammar text stop =
      (walk.advance grammar text stop).map (·.keeping grammar openings saved) := by
  obtain ⟨position, stack, openedAt, emptyOpenAt, painter⟩ := walk
  by_cases reached : stop ≤ position
  · simp only [Walk.advance, advance, keeping, reached, ↓reduceIte]
    rfl
  · have same := fun painter => paintRules_eq_paintFrom
      (grammar.resolve (grammar.activeId stack)).rules text (Nat.lt_of_not_le reached) painter
    simp only [Walk.advance, advance, keeping, reached, ↓reduceIte, same, Grammar.active]
    cases painter with
    | none => rfl
    | some painter =>
        dsimp only
        cases paintFrom (grammar.resolve (grammar.activeId stack)).rules (Text.takeBytes stop text)
          position painter <;> rfl

/-- Moving ahead leaves what is kept as true as it was. -/
theorem Keeps.advance {next : DirectWalk} {stop : Nat}
    (keeps : walk.Keeps grammar text openings saved) (ahead : walk.position ≤ stop)
    (advanced : walk.advance grammar text stop = .ok next) :
    next.Keeps grammar text openings saved := by
  obtain ⟨there, stack, opened, _⟩ := of_advance ahead advanced
  have forward : walk.position ≤ next.position := there ▸ ahead
  constructor
  · rw [stack]
    exact keeps.openings.of_le forward
  · rw [stack, opened]
    exact keeps.saved.of_le forward

theorem Matches.of_keeps {kept : Walk} (keeps : walk.Keeps grammar text openings saved)
    (same : kept = walk.keeping grammar openings saved) :
    Matches grammar text (.ok kept) (.ok walk) :=
  same ▸ .reached keeps

/-- A span that is closed gives back what was known around it, and that is still true. -/
theorem Keeps.close (keeps : walk.Keeps grammar text openings saved)
    (inside : walk.stack = top :: rest) (forward : walk.position ≤ hit.stop) (span : Span) :
    Matches grammar text ((walk.keeping grammar openings saved).close grammar top span hit)
      (walk.close span hit) := by
  obtain ⟨position, _, openedAt, emptyOpenAt, painter⟩ := walk
  cases inside
  rw [Walk.close_eq_resume, Walk.resume, close]
  cases keeps.saved with
  | nil =>
      refine .of_keeps ⟨?_, ?_⟩ rfl
      · exact known_unknown _ text _ _
      · exact .nil rest
  | @cons _ _ places earlier saved opening known opened outer =>
      have same : ((earlier[top.index]?.bind Pending.hit?).any fun found =>
          found.start = hit.stop) = decide (opening.start = hit.stop) := by
        rw [opened]
        rfl
      have starts : (opening.start :: places).head? = some opening.start := rfl
      simp only [keeping_saved, same, starts, decide_eq_true_eq, Option.some.injEq]
      split
      · exact .failed _
      · refine .of_keeps ⟨?_, ?_⟩ rfl
        · exact known.of_le forward
        · exact outer.of_le forward

/-- A span that is opened keeps what is known around it, and nothing is known inside of it. -/
theorem Keeps.openSpan (keeps : walk.Keeps grammar text openings saved)
    (inner : grammar.activeId (walk.stack.push ref) = span.inner)
    (opened : openings[ref.index]?.bind Pending.hit? = some hit)
    (here : walk.position = hit.start) (forward : hit.start ≤ hit.stop) :
    Matches grammar text ((walk.keeping grammar openings saved).openSpan grammar ref span hit)
      (walk.openSpan ref span hit) := by
  have known := keeps.openings.of_le (here ▸ forward)
  have outer := keeps.saved.of_le (here ▸ forward)
  rw [Walk.openSpan_eq_entered, DirectWalk.openSpan, keeping_emptyOpenAt, keeping_position]
  split
  · exact .failed _
  · refine .of_keeps (?_ : Keeps grammar text _
      (unknownOpenings (grammar.active (walk.stack.push ref))) (openings :: saved)) ?_
    · constructor
      · exact known_unknown Span.opening text _ _
      · show Saved grammar text hit.stop (ref :: walk.stack) (walk.position :: walk.openedAt) _
        rw [here]
        exact .cons known opened outer
    · simp only [Walk.entered, keeping, inner, Grammar.active]

/-! ## Steps -/

/-- Two steps of a walk that are the same fault, or both find no delimiter, or lead to the same place. -/
inductive StepMatches (grammar : Grammar) (text : List Char) (walk : DirectWalk) :
    Step → Except Fault (Option DirectWalk) → Prop where
  | failed (fault : Fault) : StepMatches grammar text walk (.failed fault) (.error fault)
  | done {openings : List Pending} {saved : List (List Pending)}
      (keeps : walk.Keeps grammar text openings saved) :
      StepMatches grammar text walk (.done (walk.keeping grammar openings saved)) (.ok none)
  | next {next : DirectWalk} {openings : List Pending} {saved : List (List Pending)}
      (keeps : next.Keeps grammar text openings saved) :
      StepMatches grammar text walk (.next (next.keeping grammar openings saved)) (.ok (some next))

theorem Matches.step {result : Except Fault Walk} {plain : Except Fault DirectWalk}
    (together : Matches grammar text result plain) (walk : DirectWalk) :
    StepMatches grammar text walk (.ofExcept result) (plain.map some) := by
  cases together with
  | failed fault => exact .failed fault
  | reached keeps => exact .next keeps

/-- The earliest of the openings searched for is the first one that opens a span of the active rule set. -/
theorem earliest?_opening (grammar : Grammar) (text : List Char) (walk : DirectWalk) :
    earliest? (searches Span.opening text walk.position (grammar.active walk.stack).spans) =
      (walk.opening? grammar text).map fun (ref, _, hit) => (ref.index, hit) := by
  rw [earliest?_searches, opening?, Grammar.active]
  cases grammar.activeId walk.stack with
  | none => rfl
  | some id =>
      simp only [Option.bind_eq_bind, Option.bind_some]
      cases nearest? Span.opening text walk.position (grammar.resolve (some id)).spans <;> rfl

/-- The match that closes the innermost span is looked for without what is kept. -/
theorem closing?_keeping (grammar : Grammar) (text : List Char) (walk : DirectWalk)
    (openings : List Pending) (saved : List (List Pending)) :
    (walk.keeping grammar openings saved).closing? grammar text =
      (walk.closing? grammar text).map Prod.snd := by
  simp only [Walk.closing?, Walk.innermost?, closing?, keeping_stack, keeping_position]
  cases walk.stack.top? with
  | none => rfl
  | some top =>
      cases declared : grammar.span? top with
      | none => simp [declared]
      | some span => cases found : span.closing.find? text walk.position <;> simp [declared, found]

/-- With the openings searched for, the next move is made over the nearest delimiter. -/
theorem nextMove?_eq_delimiter? (grammar : Grammar) (text : List Char) (walk : DirectWalk)
    (openings : List Pending) (saved : List (List Pending)) :
    nextMove? (searches Span.opening text walk.position (grammar.active walk.stack).spans)
        ((walk.keeping grammar openings saved).closing? grammar text) =
      (walk.delimiter? grammar text).map Delimiter.move := by
  unfold nextMove? delimiter?
  rw [earliest?_opening, closing?_keeping]
  rcases walk.opening? grammar text with _ | ⟨ref, span, hit⟩ <;>
    rcases walk.closing? grammar text with _ | ⟨innermost, last⟩
  · rfl
  · rfl
  · rfl
  · by_cases before : last.start < hit.start <;> simp [before, Delimiter.move]

/-- A span of a numbered rule set is declared under the number of the set and its place there. -/
theorem span?_of_declared {id index : Nat} {span : Span}
    (declared : (grammar.resolve (some id)).spans[index]? = some span) :
    grammar.span? ⟨id, index⟩ = some span := by
  rw [Grammar.resolve, Option.bind_some] at declared
  rw [Grammar.span?]
  cases known : grammar.ruleSet? id with
  | none =>
      rw [known] at declared
      cases declared
  | some ruleSet =>
      rw [known] at declared
      exact declared

theorem activeId_push {id index : Nat} {stack : SpanStack} {span : Span}
    (declared : (grammar.resolve (some id)).spans[index]? = some span) :
    grammar.activeId (stack.push ⟨id, index⟩) = span.inner := by
  rw [SpanStack.push, Grammar.activeId, span?_of_declared declared, Option.bind_some]

/-- The search for the opening that is nearest gives its match. -/
theorem hit?_searches {index : Nat}
    (first : nearest? Span.opening text walk.position (grammar.active walk.stack).spans =
      some (index, span, hit)) :
    (searches Span.opening text walk.position (grammar.active walk.stack).spans)[index]?.bind
      Pending.hit? = some hit := by
  obtain ⟨declared, found⟩ := find?_of_nearest? first
  rw [searches, List.getElem?_map, declared, Option.map_some, Option.bind_some, found]
  rfl

/-- Refreshing what is kept of the openings gives what searching for them again gives, and this may be
kept in its place. -/
theorem Keeps.refreshed (keeps : walk.Keeps grammar text openings saved) :
    (walk.keeping grammar openings saved).refreshed grammar text =
        walk.keeping grammar
          (searches Span.opening text walk.position (grammar.active walk.stack).spans) saved ∧
      walk.Keeps grammar text
        (searches Span.opening text walk.position (grammar.active walk.stack).spans) saved := by
  have again := keeps.openings.refreshAll (Nat.le_refl walk.position)
  constructor
  · simp only [Walk.refreshed, keeping, Grammar.active] at again ⊢
    rw [again]
  · exact ⟨known_searches Span.opening text walk.position _, keeps.saved⟩

/-- **One step.** Keeping matches makes no difference to a step. -/
theorem Keeps.step (keeps : walk.Keeps grammar text openings saved) :
    StepMatches grammar text walk ((walk.keeping grammar openings saved).step grammar text)
      (walk.step grammar text) := by
  obtain ⟨refreshed, known⟩ := keeps.refreshed
  rw [Walk.step_eq, refreshed, keeping_openings, nextMove?_eq_delimiter?, DirectWalk.step]
  rcases nearest : walk.delimiter? grammar text with _ | delimiter
  · exact .done known
  · rcases of_delimiter? nearest with ⟨ref, span, hit, rfl, found⟩ | ⟨span, hit, rfl, found⟩
    · obtain ⟨active, first⟩ := of_opening? found
      obtain ⟨late, within⟩ := within_of_nearest? first
      have declared := (find?_of_nearest? first).1
      simp only [Option.map_some, Delimiter.move, advance_keeping, take]
      cases advanced : walk.advance grammar text hit.start with
      | error fault => exact .failed fault
      | ok there =>
          obtain ⟨reached, stack, _⟩ := of_advance late advanced
          rw [Grammar.active, active] at declared
          have inner : grammar.activeId (there.stack.push ref) = span.inner :=
            activeId_push declared
          have opens := (known.advance late advanced).openSpan inner (hit?_searches first) reached
            within.ordered
          simp only [Except.map, Walk.act, keeping_activeId, stack, active, declared]
          exact opens.step walk
    · obtain ⟨top, rest, inside, innermost, matched⟩ := of_closing? found
      obtain ⟨late, within⟩ := Pattern.find?_within matched
      have declared : (walk.keeping grammar openings saved).innermost? grammar = some (top, span) := by
        rw [Walk.innermost?, keeping_stack, inside, SpanStack.top?, List.head?_cons,
          Option.bind_some, innermost, Option.map_some]
      simp only [Option.map_some, Delimiter.move, advance_keeping, take, declared]
      cases advanced : walk.advance grammar text hit.start with
      | error fault => exact .failed fault
      | ok there =>
          obtain ⟨reached, stack, _⟩ := of_advance late advanced
          have forward : there.position ≤ hit.stop := reached ▸ within.ordered
          have closes := (known.advance late advanced).close (stack.trans inside) forward span
          exact closes.step walk

/-! ## Runs -/

/-- **A whole run.** A walk that keeps matches comes to its end where one does that keeps none, and each
round but the last one uses up some of the budget. -/
theorem Keeps.rounds (keeps : walk.Keeps grammar text openings saved) :
    ∃ count outcome, count ≤ walk.budget text + 1 ∧
      Walk.Rounds grammar text (walk.keeping grammar openings saved) count outcome ∧
      ((∃ fault, outcome = .failed fault ∧ walk.run grammar text = .error fault) ∨
        ∃ last openings' saved', outcome = .done (last.keeping grammar openings' saved') ∧
          walk.run grammar text = .ok last) := by
  have together := keeps.step
  generalize steps : (walk.keeping grammar openings saved).step grammar text = step at together
  fun_induction DirectWalk.run grammar text walk generalizing openings saved step with
  | case1 walk fault fails =>
      rw [fails] at together
      cases together with
      | failed => exact ⟨1, _, Nat.le_add_left 1 _, .failed steps, .inl ⟨fault, rfl, rfl⟩⟩
  | case2 walk ends =>
      rw [ends] at together
      cases together with
      | done => exact ⟨1, _, Nat.le_add_left 1 _, .done steps, .inr ⟨walk, _, _, rfl, rfl⟩⟩
  | case3 walk next stepped ih =>
      rw [stepped] at together
      cases together with
      | next kept =>
          have uses := budget_lt_of_step stepped
          obtain ⟨count, outcome, few, rounds, ends⟩ := ih kept _ rfl kept.step
          exact ⟨count + 1, outcome, by omega, .next steps rounds, ends⟩

theorem finish_keeping (grammar : Grammar) (text : List Char) (walk : DirectWalk)
    (openings : List Pending) (saved : List (List Pending)) :
    (walk.keeping grammar openings saved).finish grammar text =
      (walk.finish grammar text).map (·.keeping grammar openings saved) := by
  rw [Walk.finish, finish, advance_keeping]
  cases walk.advance grammar text (Text.byteLength text) <;> rfl

/-- **A whole line.** Keeping matches makes no difference to a line, whatever is read off the walk at its
end that does not tell what was kept. -/
theorem Keeps.complete {α : Type} (keeps : walk.Keeps grammar text openings saved)
    (early : walk.position = 0) (fresh : walk.emptyOpenAt = none) (read : DirectWalk → α)
    (readKept : Walk → α)
    (same : ∀ last openings saved, readKept (keeping grammar openings saved last) = read last) :
    ((walk.keeping grammar openings saved).complete grammar text).map readKept =
      (walk.complete grammar text).map read := by
  have enough : walk.budget text + 1 ≤ Walk.stepBound walk.stack.length (Text.byteLength text) := by
    simp only [budget, early, fresh, Walk.stepBound]
    split <;> omega
  rw [Walk.complete_eq, DirectWalk.complete]
  obtain ⟨count, outcome, few, rounds, ends⟩ := keeps.rounds
  rw [keeping_stack, rounds.run_eq (Nat.le_trans few enough)]
  rcases ends with ⟨fault, rfl, fails⟩ | ⟨last, openings', saved', rfl, endsToo⟩
  · rw [fails]
    rfl
  · rw [endsToo]
    show ((last.keeping grammar openings' saved').finish grammar text).map readKept = _
    rw [finish_keeping]
    show _ = (last.finish grammar text).map read
    cases last.finish grammar text with
    | error fault => rfl
    | ok walk => exact congrArg Except.ok (same walk openings' saved')

/-- A walk at the start of a line keeps nothing yet. -/
theorem keeps_start (grammar : Grammar) (text : List Char) (stack : SpanStack)
    (painter : Option Painter) :
    (start grammar stack painter).Keeps grammar text (unknownOpenings (grammar.active stack)) [] :=
  ⟨known_unknown Span.opening text 0 _, .nil stack⟩

theorem start_eq_keeping (grammar : Grammar) (stack : SpanStack) (painter : Option Painter) :
    Walk.start grammar stack painter =
      (start grammar stack painter).keeping grammar (unknownOpenings (grammar.active stack)) [] := by
  cases painter with
  | none => exact Walk.start_none grammar stack
  | some painter => exact Walk.start_some grammar stack painter

end DirectWalk

end Scan

namespace Grammar

open Scan

variable (grammar : Grammar) (stack : SpanStack) (number offset : Nat) (text : String)

theorem scanLine_eq_directly : grammar.scanLine stack text = grammar.scanLineDirectly stack text := by
  rw [scanLine, DirectWalk.start_eq_keeping]
  exact (DirectWalk.keeps_start grammar _ stack none).complete rfl rfl _ _ fun _ _ _ => rfl

theorem highlightLine_eq_directly :
    grammar.highlightLine stack number offset text =
      grammar.highlightLineDirectly stack number offset text := by
  rw [highlightLine, DirectWalk.start_eq_keeping]
  exact (DirectWalk.keeps_start grammar _ stack (some { origin := offset })).complete rfl rfl _ _
    fun _ _ _ => rfl

/-- **Keeping matches changes nothing.** Both scans of a line give, for every grammar, stack, offset and
text, what they give when everything is searched again at each step: the same stack, the same sections
and the same faults. -/
theorem scan_eq_direct :
    grammar.scanLine stack text = grammar.scanLineDirectly stack text ∧
      grammar.highlightLine stack number offset text =
        grammar.highlightLineDirectly stack number offset text :=
  ⟨grammar.scanLine_eq_directly stack text,
    grammar.highlightLine_eq_directly stack number offset text⟩

end Grammar

end Highlight
