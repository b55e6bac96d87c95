import Highlight.Languages.Fragments
import Highlight.Proofs.Pattern.Width
import Highlight.Proofs.Scan.Cached
import Mathlib.Data.List.Infix

/-! # Grammars that never fail

A grammar fails on a line only where a rule matches nothing or a span does. If no opening matches nothing
in a text, then every span opened on the line lies open some bytes behind its opening
(`Highlight.Scan.DirectWalk.Beyond`), so that it may close over nothing, and the stack at the end of the
line is found. If no rule matches nothing either, in what the rules see of the text, then the line can be
highlighted as well (`Highlight.Grammar.unfailing`). If no opening and no rule of a grammar can match
nothing at all, this is so for every line (`Highlight.Grammar.Solid.highlights`).
-/

namespace Highlight

namespace Grammar

/-- Whether no opening of the grammar matches nothing in the text. -/
def OpeningsSolid (grammar : Grammar) (text : List Char) : Prop :=
  ∀ ruleSet ∈ grammar.ruleSets, ∀ span ∈ ruleSet.spans, span.opening.SolidOn text

/-- Whether no rule of the grammar matches nothing in the text up to any place in it. -/
def RulesSolid (grammar : Grammar) (text : List Char) : Prop :=
  ∀ ruleSet ∈ grammar.ruleSets, ∀ rule ∈ ruleSet.rules, ∀ front, front <+: text →
    rule.pattern.SolidOn front

instance (grammar : Grammar) (text : List Char) : Decidable (grammar.OpeningsSolid text) :=
  inferInstanceAs (Decidable (∀ ruleSet ∈ grammar.ruleSets, ∀ span ∈ ruleSet.spans,
    span.opening.SolidOn text))

instance (grammar : Grammar) (text : List Char) : Decidable (grammar.RulesSolid text) :=
  decidable_of_iff (∀ ruleSet ∈ grammar.ruleSets, ∀ rule ∈ ruleSet.rules, ∀ front ∈ text.inits,
    rule.pattern.SolidOn front) (by simp only [List.mem_inits, RulesSolid])

/-- Whether no opening and no rule of the grammar matches nothing. -/
structure Solid (grammar : Grammar) : Prop where
  openings : ∀ ruleSet ∈ grammar.ruleSets, ∀ span ∈ ruleSet.spans, span.opening.Solid
  rules : ∀ ruleSet ∈ grammar.ruleSets, ∀ rule ∈ ruleSet.rules, rule.pattern.Solid

variable {grammar : Grammar} {text : List Char}

theorem Solid.openingsSolid (solid : grammar.Solid) (text : List Char) : grammar.OpeningsSolid text :=
  fun ruleSet known span listed => solid.openings ruleSet known span listed text

theorem Solid.rulesSolid (solid : grammar.Solid) (text : List Char) : grammar.RulesSolid text :=
  fun ruleSet known rule listed front _ => solid.rules ruleSet known rule listed front

/-- A rule set is one of those of the grammar or has neither spans nor rules. -/
theorem resolve_mem_or (grammar : Grammar) (id : Option Nat) :
    grammar.resolve id ∈ grammar.ruleSets ∨ grammar.resolve id = .empty := by
  rw [resolve]
  cases known : id.bind grammar.ruleSet? with
  | none => exact .inr rfl
  | some ruleSet =>
      obtain ⟨number, _, found⟩ := Option.bind_eq_some_iff.mp known
      exact .inl (List.mem_of_getElem? found)

/-- Whichever rule set is active, its openings match something. -/
theorem OpeningsSolid.active (openings : grammar.OpeningsSolid text) (stack : SpanStack) :
    ∀ span ∈ (grammar.active stack).spans, span.opening.SolidOn text := by
  rw [Grammar.active]
  rcases resolve_mem_or grammar (grammar.activeId stack) with member | empty
  · exact openings _ member
  · rw [empty]
    exact List.forall_mem_nil _

theorem RulesSolid.active (rules : grammar.RulesSolid text) (stack : SpanStack) (stop : Nat) :
    ∀ rule ∈ (grammar.active stack).rules, rule.pattern.SolidOn (Text.takeBytes stop text) := by
  rw [Grammar.active]
  rcases resolve_mem_or grammar (grammar.activeId stack) with member | empty
  · exact fun rule listed => rules _ member rule listed _ (Text.takeBytes_prefix stop text)
  · rw [empty]
    exact List.forall_mem_nil _

end Grammar

namespace Scan

open Pattern (Hit)

/-- Rules that match something do not fail. -/
theorem exists_paintFrom {rules : List Rule} {text : List Char}
    (solid : ∀ rule ∈ rules, rule.pattern.SolidOn text) (position : Nat) (painter : Painter) :
    ∃ painted, paintFrom rules text position painter = .ok painted := by
  fun_induction paintFrom rules text position painter with
  | case1 position painter absent => exact ⟨painter, rfl⟩
  | case2 position painter index rule hit first empty =>
      obtain ⟨listed, found⟩ := find?_of_nearest? first
      have filled := solid rule (List.mem_of_getElem? listed) position hit found
      rw [filled] at empty
      contradiction
  | case3 position painter index rule hit first filled ih => exact ih

namespace DirectWalk

variable {grammar : Grammar} {text : List Char} {walk : DirectWalk} {span : Span} {hit : Hit}
  {ref : SpanRef}

/-- Whether every span opened on the line was opened before the place where the walk stands. -/
def Beyond (walk : DirectWalk) : Prop := ∀ place ∈ walk.openedAt, place < walk.position

/-- Whether nothing that the walk comes to can fail: no span closes where it was opened, and the rules are
not consulted or match something. -/
structure Unfailing (grammar : Grammar) (text : List Char) (walk : DirectWalk) : Prop where
  beyond : walk.Beyond
  rules : walk.painter = none ∨ grammar.RulesSolid text

namespace Unfailing

/-- A walk that cannot fail moves ahead to any place. -/
theorem advance (unfailing : walk.Unfailing grammar text) (stop : Nat) :
    ∃ there, walk.advance grammar text stop = .ok there ∧ there.Unfailing grammar text := by
  rw [DirectWalk.advance]
  by_cases reached : stop ≤ walk.position
  · rw [if_pos reached]
    exact ⟨walk, rfl, unfailing⟩
  · have further : ∀ place ∈ walk.openedAt, place < stop := fun place member =>
      Nat.lt_trans (unfailing.beyond place member) (Nat.lt_of_not_le reached)
    rw [if_neg reached]
    rcases unfailing.rules with plain | rules
    · rw [plain]
      exact ⟨_, rfl, further, .inl rfl⟩
    · cases walk.painter with
      | none => exact ⟨_, rfl, further, .inl rfl⟩
      | some painter =>
          obtain ⟨painted, paints⟩ :=
            exists_paintFrom (rules.active walk.stack stop) walk.position painter
          dsimp only
          rw [paints]
          exact ⟨_, rfl, further, .inr rules⟩

/-- A span is closed behind the place where it was opened, even if its closing matches nothing. -/
theorem close (unfailing : walk.Unfailing grammar text) (forward : walk.position ≤ hit.stop)
    (span : Span) : ∃ next, walk.close span hit = .ok next ∧ next.Unfailing grammar text := by
  have apart : ¬ walk.openedAt.head? = some hit.stop := by
    intro same
    have before := unfailing.beyond hit.stop (List.mem_of_head? same)
    omega
  rw [DirectWalk.close, if_neg apart]
  refine ⟨_, rfl, fun place member => ?_, unfailing.rules.imp_left Option.map_eq_none_iff.mpr⟩
  have before := unfailing.beyond place (List.mem_of_mem_tail member)
  exact Nat.lt_of_lt_of_le before forward

/-- It opens a span over any match that is not empty. -/
theorem openSpan (unfailing : walk.Unfailing grammar text) (forward : walk.position < hit.stop)
    (filled : hit.isEmpty = false) (ref : SpanRef) (span : Span) :
    ∃ next, walk.openSpan ref span hit = .ok next ∧ next.Unfailing grammar text := by
  have allowed : ¬ (hit.isEmpty && decide (walk.emptyOpenAt = some walk.position)) = true := by
    rw [filled]
    exact Bool.false_ne_true
  rw [DirectWalk.openSpan, if_neg allowed]
  refine ⟨_, rfl, List.forall_mem_cons.mpr ⟨forward, fun place member => ?_⟩,
    unfailing.rules.imp_left Option.map_eq_none_iff.mpr⟩
  exact Nat.lt_trans (unfailing.beyond place member) forward

/-- A step does not fail where no opening matches nothing. -/
theorem step (unfailing : walk.Unfailing grammar text) (openings : grammar.OpeningsSolid text) :
    ∃ outcome, walk.step grammar text = .ok outcome ∧
      ∀ next, outcome = some next → next.Unfailing grammar text := by
  rw [DirectWalk.step]
  rcases nearest : walk.delimiter? grammar text with _ | delimiter
  · refine ⟨none, rfl, fun next taken => ?_⟩
    contradiction
  · suffices taken : ∃ next, walk.take grammar text delimiter = .ok next ∧
        next.Unfailing grammar text by
      obtain ⟨next, takes, still⟩ := taken
      refine ⟨some next, by simp only [takes]; rfl, fun other same => ?_⟩
      rwa [← Option.some.inj same]
    rcases of_delimiter? nearest with ⟨ref, span, hit, rfl, found⟩ | ⟨span, hit, rfl, found⟩
    · obtain ⟨listed, matched⟩ := find?_of_nearest? (of_opening? found).2
      obtain ⟨late, within⟩ := Pattern.find?_within matched
      have filled := openings.active walk.stack span (List.mem_of_getElem? listed) _ _ matched
      have moves := Hit.lt_of_not_isEmpty (Bool.eq_false_iff.mp filled)
      obtain ⟨there, advanced, still⟩ := unfailing.advance hit.start
      have reached := (of_advance late advanced).1
      have opens := still.openSpan (reached ▸ moves) filled ref span
      simp only [take, advanced]
      exact opens
    · obtain ⟨top, rest, _, _, matched⟩ := of_closing? found
      obtain ⟨late, within⟩ := Pattern.find?_within matched
      obtain ⟨there, advanced, still⟩ := unfailing.advance hit.start
      have reached := (of_advance late advanced).1
      have closes := still.close (reached ▸ within.ordered) span
      simp only [take, advanced]
      exact closes

/-- Its run comes to an end, by induction on the steps. -/
theorem run (unfailing : walk.Unfailing grammar text) (openings : grammar.OpeningsSolid text) :
    ∃ last, walk.run grammar text = .ok last ∧ last.Unfailing grammar text := by
  fun_induction DirectWalk.run grammar text walk with
  | case1 walk fault fails =>
      obtain ⟨outcome, steps, _⟩ := unfailing.step openings
      rw [steps] at fails
      contradiction
  | case2 walk ends => exact ⟨walk, rfl, unfailing⟩
  | case3 walk next stepped ih =>
      obtain ⟨outcome, steps, still⟩ := unfailing.step openings
      rw [stepped] at steps
      exact ih (still next (Except.ok.inj steps).symm)

theorem complete (unfailing : walk.Unfailing grammar text) (openings : grammar.OpeningsSolid text) :
    ∃ last, walk.complete grammar text = .ok last := by
  obtain ⟨last, runs, still⟩ := unfailing.run openings
  obtain ⟨there, advances, _⟩ := still.advance (Text.byteLength text)
  refine ⟨{ there with painter := there.painter.map (·.popAll there.position) }, ?_⟩
  rw [DirectWalk.complete, runs]
  show last.finish grammar text = _
  rw [finish, advances]
  rfl

end Unfailing

end DirectWalk

end Scan

namespace Grammar

open Scan

variable {grammar : Grammar}

/-- A line on which the openings match something is scanned. -/
theorem OpeningsSolid.scans {text : String} (openings : grammar.OpeningsSolid text.toList)
    (stack : SpanStack) : ∃ final, grammar.scanLine stack text = .ok final := by
  have begins : (DirectWalk.start grammar stack none).Unfailing grammar text.toList :=
    ⟨List.forall_mem_nil _, .inl rfl⟩
  obtain ⟨last, completes⟩ := begins.complete openings
  refine ⟨last.stack, ?_⟩
  rw [scanLine_eq_directly, scanLineDirectly, completes]
  rfl

theorem OpeningsSolid.highlights {text : String} (openings : grammar.OpeningsSolid text.toList)
    (rules : grammar.RulesSolid text.toList) (stack : SpanStack) (number offset : Nat) :
    ∃ line final, grammar.highlightLine stack number offset text = .ok (line, final) := by
  have begins : (DirectWalk.start grammar stack (some { origin := offset })).Unfailing grammar
      text.toList := ⟨List.forall_mem_nil _, .inr rules⟩
  obtain ⟨last, completes⟩ := begins.complete openings
  rw [highlightLine_eq_directly, highlightLineDirectly, completes]
  exact ⟨_, _, rfl⟩

/-- **No false alarms.** Where no opening of a grammar matches nothing in the text of a line, the stack at
its end is found from every stack at its start, whatever the closings match and wherever the rule sets lead.
Where no rule matches nothing either, in the text up to any place in it, the line is highlighted. -/
theorem unfailing {text : String} (openings : grammar.OpeningsSolid text.toList)
    (stack : SpanStack) :
    (∃ final, grammar.scanLine stack text = .ok final) ∧
      (grammar.RulesSolid text.toList → ∀ number offset, ∃ line final,
        grammar.highlightLine stack number offset text = .ok (line, final)) :=
  ⟨openings.scans stack, fun rules => openings.highlights rules stack⟩

/-- Spans whose closings match nothing, and an opening and a rule that match nothing only in a text without
characters. -/
def hasty : Grammar where
  name := "hasty"
  main :=
    { name := "hasty"
      spans :=
        [{ opening := .literal "^$|<" rfl (by decide +kernel), closing := Languages.nothing
           inner := some 0 },
          { opening := Languages.hash, closing := Languages.lineEnd, multiline := false }]
      rules := [{ pattern := .literal "[a-z]+" rfl (by decide +kernel), style := none }] }

/-- On this line a span that the line before has opened, two of which one is opened inside of the other, and
one at the end of the line all close over nothing. -/
theorem unfailing_hasty :
    hasty.OpeningsSolid "a<<b#".toList ∧ hasty.RulesSolid "a<<b#".toList ∧
      (∃ final, hasty.scanLine [⟨0, 0⟩] "a<<b#" = .ok final) ∧
      ∃ line final, hasty.highlightLine [⟨0, 0⟩] 1 0 "a<<b#" = .ok (line, final) := by
  have openings : hasty.OpeningsSolid "a<<b#".toList := by decide +kernel
  have rules : hasty.RulesSolid "a<<b#".toList := by decide +kernel
  obtain ⟨scans, highlights⟩ := unfailing openings [⟨0, 0⟩]
  exact ⟨openings, rules, scans, highlights rules 1 0⟩

theorem Solid.scans (solid : grammar.Solid) (stack : SpanStack) (text : String) :
    ∃ final, grammar.scanLine stack text = .ok final :=
  (solid.openingsSolid text.toList).scans stack

/-- **Solid grammars.** A grammar whose openings and rules match something highlights every line. -/
theorem Solid.highlights (solid : grammar.Solid) (stack : SpanStack) (number offset : Nat)
    (text : String) :
    ∃ line final, grammar.highlightLine stack number offset text = .ok (line, final) :=
  (solid.openingsSolid text.toList).highlights (solid.rulesSolid text.toList) stack number offset

end Grammar

end Highlight
