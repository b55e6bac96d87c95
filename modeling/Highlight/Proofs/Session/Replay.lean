import Highlight.Languages.Toml
import Highlight.Proofs.Session.Operation
import Highlight.Proofs.Session.Trusted

/-! # Replay gives what scanning from the start gives

However an editor has worked on a document, its session answers as if it had kept nothing
(`Highlight.Session.run_answers_fresh`). The invariant is that the kept stacks are trusted: every operation
keeps it, and it is all that an answer depends on.
-/

namespace Highlight

/-- A line highlighted by scanning the document from its start. -/
def Grammar.freshLine (grammar : Grammar) (initial : SpanStack) (document : Document) (line : Nat) :
    Except Scan.Fault StyledLine :=
  (grammar.freshStack initial document (line - 1)).bind fun input =>
    (grammar.highlightLine input line (document.startOffset line) (document.line line)).map Prod.fst

namespace Cache.Trusted

variable {grammar : Grammar} {initial : SpanStack} {document : Document} {cache last : Cache}
  {line : Nat} {changed : List Nat}

/-- The fault at which scans from trusted stacks stop is the first one of the document. -/
theorem freshStack_of_stopped (trusted : last.Trusted grammar initial document) {fault : Scan.Fault}
    (inside : last.stale ≤ document.lineCount) (before : last.stale ≤ line)
    (fails : grammar.scanLine (last.stackAt (last.stale - 1)) (document.line last.stale) =
      .error fault) :
    grammar.freshStack initial document line = .error fault := by
  have positive := trusted.positive
  refine Grammar.freshStack_of_error before ?_
  rw [Grammar.freshStack_of_before positive inside (trusted.freshStack_eq (by omega))]
  exact fails

/-- A replay that keeps trusted stacks up to a line ends with the fresh one there, or fails as scanning from
the start does. -/
theorem of_replays (trusted : cache.Trusted grammar initial document)
    (inside : line ≤ document.lineCount) {outcome : Except Session.Failure Unit}
    (replays : Replays grammar document (line + 1) cache changed last outcome) :
    (outcome.map fun () => last.stackAt line) =
      (grammar.freshStack initial document line).mapError .malformedGrammar := by
  have later := trusted.scans replays.scans
  cases replays with
  | reached _ behind =>
      rw [later.freshStack_eq behind]
      rfl
  | stopped _ before fails =>
      rw [later.freshStack_of_stopped (by omega) (Nat.le_of_lt_succ before) fails]
      rfl

/-- Showing a line after such a replay gives the fresh line. -/
theorem of_shows (trusted : cache.Trusted grammar initial document) (positive : 1 ≤ line)
    (inside : line ≤ document.lineCount) {outcome : Except Session.Failure StyledLine}
    (shows : Shows grammar document line cache changed last outcome) :
    outcome = (grammar.freshLine initial document line).mapError .malformedGrammar := by
  rw [Grammar.freshLine]
  cases shows with
  | unreached replays =>
      have later := trusted.scans replays.scans
      cases replays with
      | stopped _ before fails =>
          rw [later.freshStack_of_stopped (by omega) (by omega) fails]
          rfl
  | failed scans behind fails =>
      rw [(trusted.scans scans).freshStack_eq (by omega), Except.bind, fails]
      rfl
  | shown scans behind highlighted =>
      rw [(trusted.scans scans).freshStack_eq (by omega), Except.bind, highlighted]
      rfl

end Cache.Trusted

namespace Session

/-- The answer that gives a value or tells of a failure. -/
def Answer.ofExcept {α : Type} (wrap : α → Answer) : Except Failure α → Answer
  | .ok value => wrap value
  | .error failure => .failed failure

theorem perform_highlight (react : Reaction) (session : Session) (line : Nat) :
    session.perform react (.highlight line) =
      ((session.highlight react line).1, .ofExcept .line (session.highlight react line).2) := by
  rw [perform]
  rcases session.highlight react line with ⟨after, failure | styled⟩ <;> rfl

theorem perform_stackAt (react : Reaction) (session : Session) (line : Nat) :
    session.perform react (.stackAt line) =
      ((session.stackAt react line).1, .ofExcept .stack (session.stackAt react line).2) := by
  rw [perform]
  rcases session.stackAt react line with ⟨after, failure | stack⟩ <;> rfl

theorem handle_highlight (session : Session) (line : Nat) :
    session.handle (.highlight line) =
      ((session.highlight (reaction nestingLimit) line).1,
        .ofExcept .line (session.highlight (reaction nestingLimit) line).2) :=
  perform_highlight _ session line

theorem handle_stackAt (session : Session) (line : Nat) :
    session.handle (.stackAt line) =
      ((session.stackAt (reaction nestingLimit) line).1,
        .ofExcept .stack (session.stackAt (reaction nestingLimit) line).2) :=
  perform_stackAt _ session line

/-- A quiet session on a document, whose kept stacks can be trusted up to the marker. -/
structure Sound (session : Session) (grammar : Grammar) (initial : SpanStack)
    (document : Document) : Prop where
  quiet : session.Quiet
  grammar_eq : session.grammar = grammar
  document_eq : session.document = document
  trusted : session.cache.Trusted grammar initial document

variable {session : Session} {grammar : Grammar} {initial : SpanStack} {document : Document}

theorem sound_start (grammar : Grammar) (document : Document) :
    (start grammar document).Sound grammar .empty document :=
  ⟨quiet_start grammar document, rfl, rfl, Cache.trusted_starting⟩

namespace Sound

variable (sound : session.Sound grammar initial document)
include sound

/-- An update to stacks that can be trusted leaves the session sound. -/
theorem update {newInitial : SpanStack} {newDocument : Document} {cache : Cache}
    (trusted : cache.Trusted grammar newInitial newDocument) (ranges : List (Nat × Nat)) :
    (session.update newDocument cache ranges).Sound grammar newInitial newDocument := by
  have quiet := sound.quiet.update newDocument cache ranges
  obtain ⟨held, log, same⟩ := session.exists_update_eq newDocument cache ranges
  rw [same] at quiet ⊢
  exact ⟨quiet, sound.grammar_eq, rfl, trusted⟩

/-- The invariant does not read what a batch holds back. -/
theorem rebatched (batching : Bool) (held : Option (Nat × Nat)) (log : List Event) :
    { session with batching := batching, held := held, log := log }.Sound grammar initial
      document :=
  ⟨⟨sound.quiet.alive, sound.quiet.idle, sound.quiet.unprobed, sound.quiet.silent⟩,
    sound.grammar_eq, sound.document_eq, sound.trusted⟩

theorem beginBatch : (session.handle .beginBatch).1.Sound grammar initial document := by
  simp only [handle, perform, Session.beginBatch, checkAlive_of_alive sound.quiet.alive, guarded]
  split
  · exact sound
  · exact sound.rebatched true session.held session.log

theorem endBatch : (session.handle .endBatch).1.Sound grammar initial document := by
  simp only [handle, perform, Session.endBatch, checkAlive_of_alive sound.quiet.alive, guarded]
  split
  · split
    · exact sound.rebatched false session.held session.log
    · rw [fire_of_silent]
      · exact sound.rebatched false none _
      · exact sound.quiet.silent
  · exact sound

theorem listen : (session.handle (.listen [])).1.Sound grammar initial document := by
  refine ⟨⟨sound.quiet.alive, sound.quiet.idle, sound.quiet.unprobed, ?_⟩, sound.grammar_eq,
    sound.document_eq, sound.trusted⟩
  intro listener member
  rcases List.mem_append.mp member with before | new
  · exact sound.quiet.silent listener before
  · rw [List.mem_singleton.mp new]

/-- A line of the document is highlighted as by scanning from the start. -/
theorem exists_highlight {line : Nat} (positive : 1 ≤ line) (inside : line ≤ document.lineCount) :
    ∃ after : Session,
      session.highlight (reaction nestingLimit) line =
        (after, (grammar.freshLine initial document line).mapError .malformedGrammar) ∧
      after.Sound grammar initial document := by
  obtain ⟨changed, cache, outcome, same, shows⟩ :=
    sound.quiet.calm.highlight nestingLimit sound.trusted.positive positive
      (sound.document_eq ▸ inside)
  rw [sound.grammar_eq, sound.document_eq] at shows
  rw [sound.document_eq, sound.trusted.of_shows positive inside shows] at same
  exact ⟨_, same, sound.update (sound.trusted.scans (shows.scans positive inside)) _⟩

/-- A request for a line, which keeps what it scans, leaves the session sound. -/
theorem highlight (line : Nat) :
    (session.handle (.highlight line)).1.Sound grammar initial document := by
  rw [handle_highlight]
  by_cases inside : 1 ≤ line ∧ line ≤ document.lineCount
  · obtain ⟨after, same, still⟩ := sound.exists_highlight inside.1 inside.2
    rw [same]
    exact still
  · rw [← sound.document_eq] at inside
    rw [sound.quiet.calm.highlight_of_outside _ (by omega)]
    exact sound

/-- So does a request for a stack. -/
theorem stackAt (line : Nat) :
    (session.handle (.stackAt line)).1.Sound grammar initial document := by
  rw [handle_stackAt]
  by_cases inside : line ≤ session.document.lineCount
  · obtain ⟨changed, cache, outcome, same, replays⟩ :=
      sound.quiet.calm.stackAt nestingLimit sound.trusted.positive inside
    rw [same, sound.document_eq]
    rw [sound.grammar_eq, sound.document_eq] at replays
    exact sound.update (sound.trusted.scans replays.scans) _
  · rw [sound.quiet.calm.stackAt_of_outside _ (by omega)]
    exact sound

theorem highlight_answer {line : Nat} (positive : 1 ≤ line) (inside : line ≤ document.lineCount) :
    (session.handle (.highlight line)).2 =
      .ofExcept .line
        ((grammar.freshLine initial document line).mapError .malformedGrammar) := by
  obtain ⟨after, same, _⟩ := sound.exists_highlight positive inside
  rw [handle_highlight, same]

/-- The answer to a request for a stack is the fresh one. -/
theorem stackAt_answer {line : Nat} (inside : line ≤ document.lineCount) :
    (session.handle (.stackAt line)).2 =
      .ofExcept .stack
        ((grammar.freshStack initial document line).mapError .malformedGrammar) := by
  obtain ⟨changed, cache, outcome, same, replays⟩ :=
    sound.quiet.calm.stackAt nestingLimit sound.trusted.positive (sound.document_eq ▸ inside)
  rw [sound.grammar_eq, sound.document_eq] at replays
  rw [handle_stackAt, same, ← sound.trusted.of_replays inside replays]

/-- A notice after which the stacks can be trusted leaves the session sound. -/
theorem notice {newInitial : SpanStack} {request : Request} {cache : Cache}
    {ranges : List (Nat × Nat)}
    (noticing : noticed session.document session.cache request = some (cache, ranges))
    (trusted : cache.Trusted grammar newInitial document) :
    (session.handleAll [request]).Sound grammar newInitial document := by
  rw [Session.handleAll, List.foldl_cons, sound.quiet.calm.free.handle_of_noticed noticing,
    sound.document_eq]
  exact sound.update trusted ranges

/-- Every operation keeps the invariant. -/
theorem handleAll (operation : Operation) :
    (session.handleAll operation.requests).Sound grammar (operation.initial initial)
      (operation.edited document) := by
  cases operation with
  | replaceLine line text =>
      rw [Operation.requests, sound.quiet.calm.free.handleAll_of_edit rfl rfl, sound.document_eq]
      exact sound.update (sound.trusted.replaceLine line text) _
  | insertLine after text =>
      rw [Operation.requests, sound.quiet.calm.free.handleAll_of_edit rfl rfl, sound.document_eq]
      exact sound.update (sound.trusted.insertLine after text) _
  | removeLine line =>
      rw [Operation.requests, sound.quiet.calm.free.handleAll_of_edit rfl rfl, sound.document_eq]
      exact sound.update (sound.trusted.removeLine line) _
  | invalidate line => exact sound.notice rfl (sound.trusted.invalidate line)
  | invalidateAll => exact sound.notice rfl sound.trusted.forget
  | rebuild => exact sound.notice rfl sound.trusted.forget
  | setInitialStack stack => exact sound.notice rfl Cache.trusted_starting
  | beginBatch => exact sound.beginBatch
  | endBatch => exact sound.endBatch
  | highlight line => exact sound.highlight line
  | stackAt line => exact sound.stackAt line
  | listen => exact sound.listen

end Sound

/-- The invariant holds after every run of operations. -/
theorem Sound.run (operations : List Operation) (sound : session.Sound grammar initial document) :
    (session.run operations).Sound grammar (operations.foldl Operation.initial initial)
      (documentAfter document operations) := by
  induction operations generalizing session initial document with
  | nil => exact sound
  | cons operation rest ih => exact ih (sound.handleAll operation)

/-- **Replay.** After any operations on a new session a line is highlighted, or refused, as it would be
by scanning the current text from its start, and so is the stack at the end of a line found. -/
theorem run_answers_fresh (grammar : Grammar) (document : Document) (operations : List Operation)
    (line : Nat) :
    (1 ≤ line → line ≤ (documentAfter document operations).lineCount →
      (((start grammar document).run operations).handle (.highlight line)).2 =
        .ofExcept .line ((grammar.freshLine (initialAfter operations)
          (documentAfter document operations) line).mapError .malformedGrammar)) ∧
    (line ≤ (documentAfter document operations).lineCount →
      (((start grammar document).run operations).handle (.stackAt line)).2 =
        .ofExcept .stack ((grammar.freshStack (initialAfter operations)
          (documentAfter document operations) line).mapError .malformedGrammar)) := by
  have sound := (sound_start grammar document).run operations
  exact ⟨sound.highlight_answer, sound.stackAt_answer⟩

/-- The line below one that opens a string is shown as part of that string once the edit is known. -/
theorem run_answers_fresh_open_string :
    (((start (Languages.Toml.grammar .standard) (.ofLines ["k = 1", "v"])).run
      [.highlight 2, .replaceLine 1 "k = \"\"\"", .stackAt 0]).handle (.highlight 2)).2 =
      .line ⟨2, 8, 1, [⟨8, 1, Theme.standard.token .string⟩]⟩ :=
  ((run_answers_fresh (Languages.Toml.grammar .standard) (.ofLines ["k = 1", "v"])
    [.highlight 2, .replaceLine 1 "k = \"\"\"", .stackAt 0] 2).1 (by decide) (by decide)).trans
    (by decide +kernel)

end Session

end Highlight
