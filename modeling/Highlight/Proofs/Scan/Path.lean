import Highlight.Proofs.Pattern.TextEnd
import Highlight.Proofs.Scan.Cached

/-! # Open spans are paths of the grammar

Each open span was opened by the rule set that is active inside of those around it, so that a stack is a
path through the rule sets of its grammar (`Highlight.Grammar.IsPath`). Every step of a walk keeps this, and
so does every line (`Highlight.Grammar.IsPath.scanLine`). Where a walk ends, the innermost open span is one
whose closing may fail to match (`Highlight.Grammar.not_closes_of_scanLine`).
-/

namespace Highlight

namespace Scan.DirectWalk

variable {grammar : Grammar} {text : List Char} {walk next last : DirectWalk}

/-- What every step keeps holds at the end of a run, where no delimiter is left. -/
theorem invariant_of_run (invariant : DirectWalk → Prop)
    (kept : ∀ walk next, invariant walk → walk.step grammar text = .ok (some next) → invariant next)
    (begins : invariant walk) (ends : walk.run grammar text = .ok last) :
    invariant last ∧ last.step grammar text = .ok none := by
  fun_induction DirectWalk.run grammar text walk with
  | case1 walk fault fails => cases ends
  | case2 walk stops =>
      cases ends
      exact ⟨begins, stops⟩
  | case3 walk next stepped ih => exact ih (kept walk next begins stepped) ends

/-- What a step does to the stack: it opens a span of the active rule set or closes the innermost one. -/
theorem step_cases (stepped : walk.step grammar text = .ok (some next)) :
    next.position ≤ Text.byteLength text ∧
      ((∃ ref span, grammar.activeId walk.stack = some ref.ruleSet ∧
          grammar.span? ref = some span ∧ span ∈ (grammar.active walk.stack).spans ∧
          next.stack = walk.stack.push ref) ∨
        ∃ top, walk.stack = top :: next.stack) := by
  obtain ⟨there, hit, late, within, advanced, delimiter⟩ := of_step stepped
  obtain ⟨_, same, _⟩ := of_advance late advanced
  have inside := within.closes.le_byteLength
  rcases delimiter with ⟨ref, span, active, listed, opened⟩ | ⟨top, rest, span, stack, closed⟩
  · obtain ⟨reached, pushed⟩ := of_openSpan opened
    refine ⟨reached ▸ inside, .inl ⟨ref, span, active, ?_, List.mem_of_getElem? listed, ?_⟩⟩
    · rw [Grammar.active, active] at listed
      exact span?_of_declared listed
    · rw [pushed, same]
  · obtain ⟨reached, popped⟩ := of_close closed
    refine ⟨reached ▸ inside, .inr ⟨top, ?_⟩⟩
    rw [popped, same, stack]
    rfl

/-- Where a walk ends, the closing of the innermost open span finds no match. -/
theorem not_closes_of_step_none (inside : walk.position ≤ Text.byteLength text)
    (ends : walk.step grammar text = .ok none) {top : SpanRef} {rest : SpanStack}
    (stack : walk.stack = top :: rest) {span : Span} (declared : grammar.span? top = some span) :
    ¬ span.closing.Closes := by
  intro closes
  obtain ⟨hit, found⟩ := closes text walk.position inside
  have closing : walk.closing? grammar text = some (span, hit) := by
    rw [closing?, stack]
    simp [SpanStack.top?, declared, found]
  rw [step] at ends
  split at ends
  · rename_i absent
    rw [delimiter?, closing] at absent
    split at absent <;> grind
  · obtain ⟨_, _, same⟩ := exists_ok_of_map ends
    cases same

end Scan.DirectWalk

namespace Grammar

open Scan

variable {grammar : Grammar} {stack final rest : SpanStack} {ref top : SpanRef} {span : Span}
  {text : String}

/-- The walk of which the stack at the end of a line is read, with what every step on the line keeps. -/
theorem exists_last_of_scanLine (invariant : DirectWalk → Prop)
    (kept : ∀ walk next, invariant walk → walk.step grammar text.toList = .ok (some next) →
      invariant next)
    (begins : invariant (DirectWalk.start grammar stack none))
    (scanned : grammar.scanLine stack text = .ok final) :
    ∃ last : DirectWalk, last.stack = final ∧ invariant last ∧
      last.position ≤ Text.byteLength text.toList ∧ last.step grammar text.toList = .ok none := by
  rw [scanLine_eq_directly] at scanned
  obtain ⟨whole, completes, rfl⟩ := exists_ok_of_map scanned
  obtain ⟨last, runs, finishes⟩ := exists_ok_of_bind completes
  obtain ⟨there, advanced, same⟩ := exists_ok_of_bind finishes
  cases same
  obtain ⟨⟨inside, still⟩, ends⟩ :=
    DirectWalk.invariant_of_run
      (fun walk => walk.position ≤ Text.byteLength text.toList ∧ invariant walk)
      (fun walk next before stepped =>
        ⟨(DirectWalk.step_cases stepped).1, kept walk next before.2 stepped⟩)
      ⟨Nat.zero_le _, begins⟩ runs
  exact ⟨last, (DirectWalk.of_advance inside advanced).2.1.symm, still, inside, ends⟩

/-! ## Paths -/

/-- Whether each open span is declared in the rule set that is active inside of the spans around it. -/
inductive IsPath (grammar : Grammar) : SpanStack → Prop where
  | nil : IsPath grammar []
  | cons {stack : SpanStack} {ref : SpanRef} {span : Span} (outer : IsPath grammar stack)
      (active : grammar.activeId stack = some ref.ruleSet)
      (declared : grammar.span? ref = some span) : IsPath grammar (ref :: stack)

/-- A step leaves the open spans a path: it opens a span of the active rule set or closes the innermost
one. -/
theorem IsPath.step {walk next : DirectWalk} {text : List Char} (path : grammar.IsPath walk.stack)
    (stepped : walk.step grammar text = .ok (some next)) : grammar.IsPath next.stack := by
  obtain ⟨_, ⟨ref, span, active, declared, _, stack⟩ | ⟨top, stack⟩⟩ := DirectWalk.step_cases stepped
  · rw [stack]
    exact path.cons active declared
  · rw [stack] at path
    cases path with
    | cons outer _ _ => exact outer

/-- A line that starts inside of a path ends inside of one. -/
theorem IsPath.scanLine (path : grammar.IsPath stack) (scanned : grammar.scanLine stack text = .ok final) :
    grammar.IsPath final := by
  obtain ⟨last, rfl, still, _⟩ :=
    exists_last_of_scanLine (fun walk => grammar.IsPath walk.stack)
      (fun _ _ before stepped => before.step stepped) path scanned
  exact still

/-- A span that a line leaves open innermost has a closing that need not match. -/
theorem not_closes_of_scanLine (scanned : grammar.scanLine stack text = .ok (top :: rest))
    (declared : grammar.span? top = some span) : ¬ span.closing.Closes := by
  obtain ⟨last, stack, _, inside, ends⟩ :=
    exists_last_of_scanLine (fun _ => True) (fun _ _ _ _ => trivial) trivial scanned
  exact DirectWalk.not_closes_of_step_none inside ends stack declared

/-- Whether the spans form a path whose innermost span, if there is one, has a closing that need not
match. -/
structure LeftOpen (grammar : Grammar) (stack : SpanStack) : Prop where
  path : grammar.IsPath stack
  innermost : ∀ top span, stack.top? = some top → grammar.span? top = some span →
    ¬ span.closing.Closes

theorem leftOpen_nil (grammar : Grammar) : grammar.LeftOpen [] :=
  ⟨.nil, fun _ _ innermost => by cases innermost⟩

/-- **What lines leave open** is a path whose innermost span has a closing that need not match. -/
theorem LeftOpen.scanLines {lines : List String} (leftOpen : grammar.LeftOpen stack)
    (scanned : grammar.scanLines stack lines = .ok final) : grammar.LeftOpen final := by
  induction lines generalizing stack with
  | nil =>
      rw [Grammar.scanLines] at scanned
      cases scanned
      exact leftOpen
  | cons line later ih =>
      rw [Grammar.scanLines] at scanned
      obtain ⟨next, here, there⟩ := exists_ok_of_bind scanned
      refine ih ⟨leftOpen.path.scanLine here, fun top span innermost declared => ?_⟩ there
      obtain ⟨rest, rfl⟩ := List.head?_eq_some_iff.mp innermost
      exact not_closes_of_scanLine here declared

end Grammar

end Highlight
