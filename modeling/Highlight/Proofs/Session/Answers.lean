import Highlight.Proofs.Languages.Solid
import Highlight.Proofs.Session.Lasting
import Highlight.Proofs.Session.Replay

/-! # Sessions that always answer

A session with a solid grammar highlights every line that its document has, and gives the stack at its end,
whatever it has kept and whatever its listeners and its probe do meanwhile. The built-in grammars are solid
(`Highlight.Languages.answers_of_mem_all`).
-/

namespace Highlight

namespace Session

/-- The grammar of a session never changes. -/
theorem lasting_grammar : Lasting fun before after => after.grammar = before.grammar where
  refl _ := rfl
  trans near far := far.trans near
  working same _ _ := by rw [same]
  enclose _ inside := inside
  probed _ _ _ inside := inside
  listen _ _ := rfl
  discard _ _ _ := rfl
  fire keeps session first last := by
    refine Keeps.fire ?_ ?_ keeps ?_ ?_ session first last
    · exact fun _ => rfl
    · exact fun near far => far.trans near
    · exact fun _ _ _ _ _ => rfl
    · exact fun _ _ => rfl

section Solid

variable {react : Reaction} {session : Session} {line : Nat}
  (keeps : Keeps (fun before after => after.grammar = before.grammar) react)
include keeps

/-- A replay with a solid grammar comes to its end. -/
theorem replay_eq_ok_of_solid (lineCount count : Nat) (solid : session.grammar.Solid) :
    (session.replay react lineCount count).2.2 = .ok () := by
  induction count generalizing session with
  | zero => rfl
  | succ count ih =>
      have same := lasting_grammar.readLine keeps session session.cache.stale
      obtain ⟨stack, scanned⟩ := solid.scans (session.cache.stackAt (session.cache.stale - 1))
        (session.readLine react session.cache.stale).2
      rw [replay]
      dsimp only
      rw [same, scanned]
      exact ih (same ▸ solid)

/-- With a solid grammar a line can always be shown. -/
theorem exists_showLine_of_solid (solid : session.grammar.Solid) :
    ∃ styled, (session.showLine react line).2.2 = .ok styled := by
  have same := lasting_grammar.readLine keeps session line
  obtain ⟨styled, stack, highlighted⟩ := solid.highlights (session.cache.stackAt (line - 1)) line
    ((session.readLine react line).1.document.startOffset line) (session.readLine react line).2
  refine ⟨styled, ?_⟩
  rw [showLine]
  dsimp only
  rw [same, highlighted]

end Solid

section Solid

variable {react : Reaction} {session : Session} {line : Nat}
  (keeps : Keeps (fun before after => after.grammar = before.grammar) react)
  (solid : session.grammar.Solid) (alive : session.disposed = false)
  (idle : session.passing = false)
include keeps solid alive idle

/-- With one, every line of the document has a styled line for its answer. -/
theorem exists_highlight_of_solid (above : 1 ≤ line) (inside : line ≤ session.document.lineCount) :
    ∃ styled, (session.highlight react line).2 = .ok styled := by
  rw [highlight, check_of_inside alive above inside, guarded, snd_pass react idle]
  have replays := lasting_grammar.replay keeps session.document.lineCount
    (line - session.cache.stale) { session with passing := true }
  have succeeds := @replay_eq_ok_of_solid react { session with passing := true } keeps
    session.document.lineCount (line - session.cache.stale) solid
  dsimp only
  rw [replayTo]
  rcases same : replay react _ _ _ with ⟨after, changed, outcome⟩
  rw [same] at replays succeeds
  obtain rfl : outcome = .ok () := succeeds
  exact exists_showLine_of_solid keeps (replays ▸ solid)

theorem exists_stackAt_of_solid (inside : line ≤ session.document.lineCount) :
    ∃ stack, (session.stackAt react line).2 = .ok stack := by
  rw [stackAt, check_of_inside alive (Nat.zero_le line) inside, guarded, snd_pass react idle]
  have succeeds := @replay_eq_ok_of_solid react { session with passing := true } keeps
    session.document.lineCount (line + 1 - session.cache.stale) solid
  dsimp only
  rw [replayTo]
  rw [succeeds]
  exact ⟨_, rfl⟩

end Solid

end Session

namespace Languages

open Session

/-- **The built-in grammars always answer.** In whatever spans a line starts, a built-in grammar scans and
highlights it, and a session with that grammar, in whatever state it is and whatever its listeners and its
probe do, highlights every line of its document and gives the stack at its end. -/
theorem answers_of_mem_all {theme : Theme} {grammar : Grammar} (builtIn : grammar ∈ all theme) :
    (∀ stack text, ∃ final, grammar.scanLine stack text = .ok final) ∧
    (∀ stack number offset text, ∃ line final,
      grammar.highlightLine stack number offset text = .ok (line, final)) ∧
    ∀ session : Session, session.grammar = grammar → session.disposed = false →
      session.passing = false → ∀ line ≤ session.document.lineCount,
        (1 ≤ line → ∃ styled, (session.handle (.highlight line)).2 = .line styled) ∧
        ∃ stack, (session.handle (.stackAt line)).2 = .stack stack := by
  have solid := solid_of_mem_all builtIn
  refine ⟨solid.scans, solid.highlights, ?_⟩
  rintro session rfl alive idle line inside
  have keeps := lasting_grammar.reaction nestingLimit
  constructor
  · intro above
    obtain ⟨styled, answered⟩ := exists_highlight_of_solid keeps solid alive idle above inside
    refine ⟨styled, ?_⟩
    rw [handle_highlight, answered]
    rfl
  · obtain ⟨stack, answered⟩ := exists_stackAt_of_solid keeps solid alive idle inside
    refine ⟨stack, ?_⟩
    rw [handle_stackAt, answered]
    rfl

/-- A formatted string that is left open together with a string inside of it is highlighted on the next
line, while a listener tries to highlight a line itself. -/
theorem answers_in_open_format :
    Python.grammar .standard ∈ all .standard ∧
      ∃ styled, ((((start (Python.grammar .standard) (.ofLines ["f\"\x7b\"\"\"", "\\"])).handle
        (.listen [.highlight 1])).1).handle (.highlight 2)).2 = .line styled :=
  have builtIn : Python.grammar .standard ∈ all .standard := by simp [all]
  ⟨builtIn, ((answers_of_mem_all builtIn).2.2 _ rfl rfl rfl 2 (by decide)).1 (by decide)⟩

end Languages

end Highlight
