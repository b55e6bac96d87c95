import Highlight.Scan.Walk

/-! # The loops of a scan without a bound

The two loops of a scan, along the delimiters of a line and along the matches of rules between two of
them, are run with a bound on their rounds. Here they are given without one, as relations that hold only of
a loop that comes to its end (`Highlight.Scan.Walk.Rounds`, `Highlight.Scan.RuleRounds`). A bound that
allows for all rounds of such a loop makes no difference to it (`Highlight.Scan.Walk.Rounds.run_eq`,
`Highlight.Scan.RuleRounds.applyRules_eq`).
-/

namespace Highlight.Scan

open Pattern (Hit)

/-- The loop over the matches of rules, with the number of its rounds and what it ends with. -/
inductive RuleRounds (rules : List Rule) (text : List Char) :
    Nat → List Pending → Painter → Nat → Except Fault Painter → Prop where
  | done {position : Nat} {pending : List Pending} {painter : Painter}
      (absent : earliest? (refreshAll (rules.map Rule.pattern) text position pending) = none) :
      RuleRounds rules text position pending painter 1 (.ok painter)
  | failed {position index : Nat} {pending : List Pending} {painter : Painter} {rule : Rule}
      {hit : Hit}
      (first : earliest? (refreshAll (rules.map Rule.pattern) text position pending) =
        some (index, hit))
      (listed : rules[index]? = some rule) (empty : hit.isEmpty = true) :
      RuleRounds rules text position pending painter 1 (.error (.emptyRule rule.pattern.source))
  | next {position index count : Nat} {pending : List Pending} {painter : Painter} {rule : Rule}
      {hit : Hit} {outcome : Except Fault Painter}
      (first : earliest? (refreshAll (rules.map Rule.pattern) text position pending) =
        some (index, hit))
      (listed : rules[index]? = some rule) (filled : ¬ hit.isEmpty = true)
      (later : RuleRounds rules text hit.stop
        (refreshAll (rules.map Rule.pattern) text position pending)
        (painter.paint rule.style hit.start hit.stop) count outcome) :
      RuleRounds rules text position pending painter (count + 1) outcome

namespace RuleRounds

variable {rules : List Rule} {text : List Char} {position count bound : Nat} {pending : List Pending}
  {painter : Painter} {outcome : Except Fault Painter}

/-- A bound that allows for all rounds of the loop makes no difference to it. -/
theorem applyRules_eq (rounds : RuleRounds rules text position pending painter count outcome)
    (enough : count ≤ bound) : applyRules rules text bound position pending painter = outcome := by
  induction rounds generalizing bound with
  | done absent =>
      obtain ⟨smaller, rfl⟩ := Nat.exists_eq_add_of_le' enough
      simp only [applyRules, absent]
  | failed first listed empty =>
      obtain ⟨smaller, rfl⟩ := Nat.exists_eq_add_of_le' enough
      simp only [applyRules, first, listed, if_pos empty]
  | next first listed filled _ ih =>
      obtain ⟨smaller, rfl⟩ := Nat.exists_eq_add_of_le' (Nat.le_of_add_left_le enough)
      simp only [applyRules, first, listed, if_neg filled]
      exact ih (Nat.le_of_succ_le_succ enough)

end RuleRounds

/-- The loop along the delimiters of a line, with the number of its rounds and what it ends with. A walk
that is stuck has no such end. -/
inductive Walk.Rounds (grammar : Grammar) (text : List Char) : Walk → Nat → Step → Prop where
  | done {walk last : Walk} (ends : walk.step grammar text = .done last) :
      Rounds grammar text walk 1 (.done last)
  | failed {walk : Walk} {fault : Fault} (fails : walk.step grammar text = .failed fault) :
      Rounds grammar text walk 1 (.failed fault)
  | next {walk next : Walk} {count : Nat} {outcome : Step}
      (goes : walk.step grammar text = .next next) (later : Rounds grammar text next count outcome) :
      Rounds grammar text walk (count + 1) outcome

/-- A bound that allows for all rounds of the loop makes no difference to it. -/
theorem Walk.Rounds.run_eq {grammar : Grammar} {text : List Char} {walk : Walk} {count bound : Nat}
    {outcome : Step} (rounds : Walk.Rounds grammar text walk count outcome)
    (enough : count ≤ bound) : walk.run grammar text bound = outcome := by
  induction rounds generalizing bound with
  | done ends =>
      obtain ⟨smaller, rfl⟩ := Nat.exists_eq_add_of_le' enough
      simp only [Walk.run, ends]
  | failed fails =>
      obtain ⟨smaller, rfl⟩ := Nat.exists_eq_add_of_le' enough
      simp only [Walk.run, fails]
  | next goes _ ih =>
      obtain ⟨smaller, rfl⟩ := Nat.exists_eq_add_of_le' (Nat.le_of_add_left_le enough)
      simp only [Walk.run, goes]
      exact ih (Nat.le_of_succ_le_succ enough)

end Highlight.Scan
