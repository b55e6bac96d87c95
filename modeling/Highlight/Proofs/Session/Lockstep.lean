import Highlight.Proofs.Session.Lasting
import Highlight.Proofs.Session.Replay

/-! # Passes in step

What a pass answers and what it keeps depends on the grammar, the text and the stacks kept before. Two passes
that agree on these, and still do after each line that they read, give one answer and notice of the same
lines, whatever else their sessions hold and however their scripts are carried out
(`Highlight.Session.Lockstep.perform`).
-/

namespace Highlight.Session

/-- Whether two results are the same and leave related sessions. -/
def InStep {Result : Type} (relation : Session → Session → Prop) (first second : Session × Result) :
    Prop :=
  ∃ near far result, first = (near, result) ∧ second = (far, result) ∧ relation near far

/-- Whether two sessions that are related agree on what a pass works on, and stay related while a line is read
and a stack is kept. -/
structure Lockstep (react other : Reaction) (relation : Session → Session → Prop) : Prop where
  grammar : ∀ {first second}, relation first second → first.grammar = second.grammar
  document : ∀ {first second}, relation first second → first.document = second.document
  cache : ∀ {first second}, relation first second → first.cache = second.cache
  stored : ∀ {first second}, relation first second → ∀ cache,
    relation { first with cache := cache } { second with cache := cache }
  read : ∀ {first second}, relation first second → ∀ line,
    InStep relation (first.readLine react line) (second.readLine other line)

/-- What comes of a request that scans in two sessions: either both refuse it, or both do it in a pass, which
ends with the same notices. -/
inductive Matched {Result : Type} (react other : Reaction) (relation : Session → Session → Prop)
    (first second : Session) : Session × Result → Session × Result → Prop where
  | refused (refusal : Result) :
      Matched react other relation first second (first, refusal) (second, refusal)
  | passed {acted actedOther : Session} (related : relation acted actedOther) (changed : List Nat)
      (result : Result) :
      Matched react other relation first second
        ({ acted.notifyEach react changed with passing := false }, result)
        ({ actedOther.notifyEach other changed with passing := false }, result)

/-- The answers may be put in other words in both sessions. -/
theorem Matched.map {Result Answered : Type} {react other : Reaction}
    {relation : Session → Session → Prop} {first second : Session}
    {near far : Session × Result} (matched : Matched react other relation first second near far)
    (wrap : Result → Answered) :
    Matched react other relation first second (near.1, wrap near.2) (far.1, wrap far.2) := by
  cases matched with
  | refused refusal => exact .refused (wrap refusal)
  | passed related changed result => exact .passed related changed (wrap result)

/-- Actions in step are done in one pass each, or refused in both sessions. -/
theorem InStep.pass {Result : Type} {react other : Reaction} {relation : Session → Session → Prop}
    {first second : Session} {action actionOther : Session → Session × List Nat × Except Failure Result}
    (acts : InStep relation (action { first with passing := true })
      (actionOther { second with passing := true }))
    (idle : first.passing = false) (idleOther : second.passing = false) :
    Matched react other relation first second (first.pass react action)
      (second.pass other actionOther) := by
  obtain ⟨near, far, ⟨changed, result⟩, same, sameOther, after⟩ := acts
  rw [Session.pass, Session.pass, if_neg (Bool.eq_false_iff.mp idle),
    if_neg (Bool.eq_false_iff.mp idleOther), same, sameOther]
  exact .passed after changed result

namespace Lockstep

variable {react other : Reaction} {relation : Session → Session → Prop}
  (lockstep : Lockstep react other relation) {first second : Session}
include lockstep

/-- Related sessions replay in step, by induction on the lines that are left: they read the same text and
keep the same stack. -/
theorem replay (lineCount count : Nat) (related : relation first second) :
    InStep relation (first.replay react lineCount count) (second.replay other lineCount count) := by
  induction count generalizing first second with
  | zero => exact ⟨first, second, _, rfl, rfl, related⟩
  | succ count ih =>
      obtain ⟨near, far, text, reads, readsOther, after⟩ :=
        lockstep.read related second.cache.stale
      have same : near.grammar.scanLine = far.grammar.scanLine := by rw [lockstep.grammar after]
      rw [Session.replay, Session.replay, lockstep.cache related, reads, readsOther]
      dsimp only
      rw [same, lockstep.cache after]
      split
      · exact ⟨near, far, _, rfl, rfl, after⟩
      · obtain ⟨_, _, _, replays, replaysOther, last⟩ := ih (lockstep.stored after _)
        rw [replays, replaysOther]
        exact ⟨_, _, _, rfl, rfl, last⟩

theorem replayTo (line : Nat) (related : relation first second) :
    InStep relation (first.replayTo react line) (second.replayTo other line) := by
  rw [Session.replayTo, Session.replayTo, lockstep.document related, lockstep.cache related]
  exact lockstep.replay _ _ related

/-- Related sessions show a line in step. -/
theorem showLine (line : Nat) (related : relation first second) :
    InStep relation (first.showLine react line) (second.showLine other line) := by
  obtain ⟨near, far, text, reads, readsOther, after⟩ := lockstep.read related line
  have same : near.grammar.highlightLine = far.grammar.highlightLine := by
    rw [lockstep.grammar after]
  have count : near.document.lineCount = far.document.lineCount := by rw [lockstep.document after]
  have offset : near.document.startOffset line = far.document.startOffset line := by
    rw [lockstep.document after]
  rw [Session.showLine, Session.showLine, lockstep.cache related, reads, readsOther]
  simp only [same, count, offset, lockstep.cache after]
  split
  · exact ⟨near, far, _, rfl, rfl, after⟩
  · exact ⟨_, _, _, rfl, rfl, lockstep.stored after _⟩

/-- They do in step all that the pass for a line does. -/
theorem highlighting (line : Nat) (related : relation first second) :
    InStep relation (first.highlighting react line) (second.highlighting other line) := by
  obtain ⟨near, far, ⟨changed, outcome⟩, replays, replaysOther, after⟩ :=
    lockstep.replayTo line related
  rw [Session.highlighting, Session.highlighting, replays, replaysOther]
  cases outcome with
  | error failure => exact ⟨near, far, _, rfl, rfl, after⟩
  | ok _ =>
      obtain ⟨_, _, _, shows, showsOther, last⟩ := lockstep.showLine line after
      dsimp only
      rw [shows, showsOther]
      exact ⟨_, _, _, rfl, rfl, last⟩

theorem tracing (line : Nat) (related : relation first second) :
    InStep relation (first.tracing react line) (second.tracing other line) := by
  obtain ⟨near, far, _, replays, replaysOther, after⟩ := lockstep.replayTo (line + 1) related
  rw [Session.tracing, Session.tracing, replays, replaysOther]
  dsimp only
  rw [lockstep.cache after]
  exact ⟨near, far, _, rfl, rfl, after⟩

/-- Sessions that agree on what a check looks at refuse the same requests. -/
theorem check (disposed : first.disposed = second.disposed)
    (related : relation { first with passing := true } { second with passing := true })
    (line least : Nat) :
    (first.checkAlive *> first.checkLine line least) =
      (second.checkAlive *> second.checkLine line least) := by
  have document := lockstep.document related
  dsimp only at document
  simp only [checkAlive, checkLine, disposed, document]

variable (idle : first.passing = false) (idleOther : second.passing = false)
  (disposed : first.disposed = second.disposed)
  (related : relation { first with passing := true } { second with passing := true })
include idle idleOther disposed related

/-- A request for a line is matched. -/
theorem highlight (line : Nat) :
    Matched react other relation first second (first.highlight react line)
      (second.highlight other line) := by
  rw [highlight_eq, highlight_eq, lockstep.check disposed related]
  rcases second.checkAlive *> second.checkLine line 1 with failure | ⟨⟩
  · exact .refused _
  · exact (lockstep.highlighting line related).pass idle idleOther

theorem stackAt (line : Nat) :
    Matched react other relation first second (first.stackAt react line)
      (second.stackAt other line) := by
  rw [stackAt_eq, stackAt_eq, lockstep.check disposed related]
  rcases second.checkAlive *> second.checkLine line 0 with failure | ⟨⟩
  · exact .refused _
  · exact (lockstep.tracing line related).pass idle idleOther

/-- **Two passes in step** answer the same and give notice of the same lines. -/
theorem perform (line : Nat) :
    ∀ request ∈ [Request.highlight line, .stackAt line],
      Matched react other relation first second (first.perform react request)
        (second.perform other request) := by
  simp only [List.forall_mem_cons]
  refine ⟨?_, ?_, nofun⟩
  · rw [perform_highlight, perform_highlight]
    exact (lockstep.highlight idle idleOther disposed related line).map _
  · rw [perform_stackAt, perform_stackAt]
    exact (lockstep.stackAt idle idleOther disposed related line).map _

end Lockstep

end Highlight.Session
