import Highlight.Languages.Toml
import Highlight.Proofs.Scan.Origin
import Highlight.Proofs.Session.Faithful

/-! # Stale lines are reported

An editor that draws again the lines that it is told of shows every line before the marker as it is
(`Highlight.Session.unreported_eq_fresh`). The invariant is that its session can be trusted and that its
screen is faithful to what the session keeps (`Highlight.Session.Tracked`).
-/

namespace Highlight

namespace Session

/-- A session, watched by an editor, that can be trusted and whose editor has been told of every line that
is not drawn as it is kept. -/
structure Tracked (observed : Observed) (grammar : Grammar) (initial : SpanStack)
    (document : Document) : Prop where
  sound : observed.session.Sound grammar initial document
  watched : observed.session.Watched
  faithful : observed.screen.Faithful grammar document observed.session.cache

/-- At first nothing is drawn. -/
theorem tracked_start (grammar : Grammar) (document : Document) :
    Tracked (.start grammar document) grammar .empty document where
  sound := (sound_start grammar document).listen
  watched := ⟨rfl, Nat.one_ne_zero, [], rfl, nofun⟩
  faithful := by
    intro line styled unreported
    cases unreported

namespace Tracked

variable {observed : Observed} {grammar : Grammar} {initial newInitial : SpanStack}
  {document newDocument : Document} {cache : Cache} {ranges : List (Nat × Nat)}

/-- A request that updates the session is tracked, if the new stacks can be trusted and the screen is
faithful to them. -/
theorem of_update (tracked : Tracked observed grammar initial document) {request : Request}
    {answer : Answer}
    (updates : observed.session.handle request =
      (observed.session.update newDocument cache ranges, answer))
    (trusted : cache.Trusted grammar newInitial newDocument)
    (faithful : (((observed.screen.move request answer).reportAll ranges).receive request
      answer).Faithful grammar newDocument cache) :
    Tracked (observed.handle request) grammar newInitial newDocument := by
  rw [Observed.handle_of_update tracked.watched updates]
  refine ⟨tracked.sound.update trusted ranges, tracked.watched.update _ _ _, ?_⟩
  obtain ⟨held, log, same⟩ := observed.session.exists_update_eq newDocument cache ranges
  show Screen.Faithful _ _ _ (observed.session.update newDocument cache ranges).cache
  rw [same]
  exact faithful

/-- A notice draws nothing, so the screen is what it was but for the ranges that are reported. -/
theorem of_notice (tracked : Tracked observed grammar initial document) (request : Request)
    (noticing : noticed observed.session.document observed.session.cache request =
      some (cache, ranges))
    (trusted : cache.Trusted grammar newInitial document)
    (faithful : (observed.screen.reportAll ranges).Faithful grammar document cache) :
    Tracked (observed.handle request) grammar newInitial document := by
  have updates := tracked.sound.quiet.calm.free.handle_of_noticed noticing
  rw [tracked.sound.document_eq] at updates
  exact tracked.of_update updates trusted (by simpa using faithful)

/-- An edit moves the lines on the screen, and its notice reports what it names. -/
theorem of_edit (tracked : Tracked observed grammar initial document) (edit notice : Request)
    {edited : Option Document} (edits : observed.session.handle edit = observed.session.edit edited)
    (noticing : noticed (edited.getD observed.session.document) observed.session.cache notice =
      some (cache, ranges))
    (trusted : cache.Trusted grammar initial (edited.getD document))
    (faithful : ((observed.screen.move edit (.flag edited.isSome)).reportAll ranges).Faithful grammar
      (edited.getD document) cache) :
    Tracked ((observed.handle edit).handle notice) grammar initial (edited.getD document) := by
  rw [Observed.handle_of_edit tracked.watched tracked.sound.quiet edits noticing,
    tracked.sound.document_eq]
  refine ⟨tracked.sound.update trusted ranges, tracked.watched.update _ _ _, ?_⟩
  obtain ⟨held, log, same⟩ :=
    observed.session.exists_update_eq (edited.getD document) cache ranges
  show Screen.Faithful _ _ _ (observed.session.update (edited.getD document) cache ranges).cache
  rw [same]
  exact faithful

/-- A request that is refused changes neither the session nor the screen. -/
theorem of_refused (tracked : Tracked observed grammar initial document) {request : Request}
    {failure : Failure}
    (refuses : observed.session.handle request = (observed.session, .failed failure)) :
    Tracked (observed.handle request) grammar initial document := by
  have unchanged : observed.session.handle request =
      (observed.session.update observed.session.document observed.session.cache [],
        .failed failure) := refuses
  rw [tracked.sound.document_eq] at unchanged
  exact tracked.of_update unchanged tracked.sound.trusted
    (by simpa [Screen.reportAll] using tracked.faithful)

/-- A line that is drawn is drawn as it is kept, and lines that this changes are reported. -/
theorem highlight (tracked : Tracked observed grammar initial document) (line : Nat) :
    Tracked (observed.handle (.highlight line)) grammar initial document := by
  have trusted := tracked.sound.trusted
  have quiet := tracked.sound.quiet
  have answers := handle_highlight observed.session line
  by_cases inside : 1 ≤ line ∧ line ≤ observed.session.document.lineCount
  · obtain ⟨changed, cache, outcome, same, shows⟩ :=
      quiet.calm.highlight nestingLimit trusted.positive inside.1 inside.2
    rw [tracked.sound.document_eq] at same inside
    rw [tracked.sound.grammar_eq, tracked.sound.document_eq] at shows
    rw [same] at answers
    exact tracked.of_update answers (trusted.scans (shows.scans inside.1 inside.2))
      (tracked.faithful.shows trusted inside.1 inside.2 shows)
  · rw [quiet.calm.highlight_of_outside _ (by omega)] at answers
    exact tracked.of_refused answers

/-- A stack is asked for without drawing, and lines that this changes are reported. -/
theorem stackAt (tracked : Tracked observed grammar initial document) (line : Nat) :
    Tracked (observed.handle (.stackAt line)) grammar initial document := by
  have trusted := tracked.sound.trusted
  have quiet := tracked.sound.quiet
  have answers := handle_stackAt observed.session line
  by_cases inside : line ≤ observed.session.document.lineCount
  · obtain ⟨changed, cache, outcome, same, replays⟩ :=
      quiet.calm.stackAt nestingLimit trusted.positive inside
    rw [tracked.sound.document_eq] at same
    rw [tracked.sound.grammar_eq, tracked.sound.document_eq] at replays
    rw [same] at answers
    exact tracked.of_update answers (trusted.scans replays.scans)
      (tracked.faithful.scans trusted replays.scans)
  · rw [quiet.calm.stackAt_of_outside _ (by omega)] at answers
    exact tracked.of_refused answers

/-- A listener that is registered later hears what the editor hears. -/
theorem listen (tracked : Tracked observed grammar initial document) :
    Tracked (observed.handle (.listen [])) grammar initial document := by
  obtain ⟨others, listeners, distinct⟩ := tracked.watched.first
  refine ⟨tracked.sound.listen, ⟨tracked.watched.unbatched, Nat.succ_ne_zero _, ?_⟩, ?_⟩
  · refine ⟨others ++ [⟨observed.session.registered, []⟩], ?_, fun listener member => ?_⟩
    · show observed.session.listeners ++ _ = _
      rw [listeners]
      rfl
    · rcases List.mem_append.mp member with before | new
      · exact distinct listener before
      · rw [List.mem_singleton.mp new]
        exact tracked.watched.registered
  · have unheard : (observed.handle (.listen [])).screen = observed.screen := by
      show observed.screen.follow (.listen []) (.number observed.session.registered)
        (observed.session.events.drop observed.session.events.length) = _
      rw [List.drop_length]
      rfl
    rw [unheard]
    exact tracked.faithful

/-- An insertion and its notice are tracked. -/
theorem insertLine (tracked : Tracked observed grammar initial document) (after : Nat)
    (text : String) :
    Tracked ((observed.handle (.insertLine after text)).handle (.lineInserted after (after + 1)))
      grammar initial ((document.insertLine? after text).getD document) := by
  have trusted := tracked.sound.trusted
  obtain rfl := tracked.sound.document_eq
  refine tracked.of_edit (.insertLine after text) (.lineInserted after (after + 1)) rfl rfl
    (trusted.insertLine after text) ?_
  cases possible : observed.session.document.insertLine? after text with
  | none => exact (tracked.faithful.insertLine_of_none trusted possible).reportAll _
  | some edited => exact (tracked.faithful.insertLine possible).reportAll _

/-- A removal and its notice are. -/
theorem removeLine (tracked : Tracked observed grammar initial document) (line : Nat) :
    Tracked ((observed.handle (.removeLine line)).handle (.lineRemoved line)) grammar initial
      ((document.removeLine? line).getD document) := by
  have trusted := tracked.sound.trusted
  obtain rfl := tracked.sound.document_eq
  refine tracked.of_edit (.removeLine line) (.lineRemoved line) rfl rfl (trusted.removeLine line) ?_
  cases possible : observed.session.document.removeLine? line with
  | none => exact tracked.faithful.removeLine_of_none trusted possible
  | some edited => exact tracked.faithful.removeLine trusted possible

/-- Every operation that does not touch a batch keeps the invariant. -/
theorem handleAll (tracked : Tracked observed grammar initial document) {operation : Operation}
    (unbatched : operation.isBatch = false) :
    Tracked (operation.requests.foldl Observed.handle observed) grammar (operation.initial initial)
      (operation.edited document) := by
  have trusted := tracked.sound.trusted
  have faithful := tracked.faithful
  obtain rfl := tracked.sound.document_eq
  cases operation with
  | replaceLine line text =>
      exact tracked.of_edit (.replaceLine line text) (.lineChanged line) rfl rfl
        (trusted.replaceLine line text) (faithful.replaceLine line text)
  | insertLine after text => exact tracked.insertLine after text
  | removeLine line => exact tracked.removeLine line
  | invalidate line =>
      exact tracked.of_notice (.invalidate line) rfl (trusted.invalidate line)
        ((faithful.invalidate line).reportAll _)
  | invalidateAll =>
      exact tracked.of_notice .invalidateAll rfl trusted.forget
        (faithful.reportAll_allRanges trusted _)
  | rebuild =>
      exact tracked.of_notice .rebuild rfl trusted.forget (faithful.reportAll_allRanges trusted _)
  | setInitialStack stack =>
      exact tracked.of_notice (.setInitialStack stack) rfl Cache.trusted_starting
        (faithful.reportAll_allRanges trusted _)
  | beginBatch => contradiction
  | endBatch => contradiction
  | highlight line => exact tracked.highlight line
  | stackAt line => exact tracked.stackAt line
  | listen => exact tracked.listen

theorem run {operations : List Operation} (tracked : Tracked observed grammar initial document)
    (unbatched : ∀ operation ∈ operations, operation.isBatch = false) :
    Tracked (observed.run operations) grammar (operations.foldl Operation.initial initial)
      (documentAfter document operations) := by
  induction operations generalizing observed initial document with
  | nil => exact tracked
  | cons operation rest ih =>
      obtain ⟨first, later⟩ := List.forall_mem_cons.mp unbatched
      exact ih (tracked.handleAll first) later

end Tracked

/-- **No stale line goes unreported.** After any operations outside of batches on a new session, a line
before the marker or at it that the editor has drawn and not been told to draw again looks as it would if it
were highlighted now from the start of the document. -/
theorem unreported_eq_fresh (grammar : Grammar) (document : Document) (operations : List Operation)
    (unbatched : ∀ operation ∈ operations, operation.isBatch = false) (line : Nat)
    (styled : StyledLine)
    (current : line ≤ min ((Observed.start grammar document).run operations).session.marker
      (documentAfter document operations).lineCount)
    (drawn : ((Observed.start grammar document).run operations).screen line =
      some ⟨styled, false⟩) :
    ∃ fresh, grammar.freshLine (initialAfter operations) (documentAfter document operations) line =
        .ok fresh ∧
      fresh.relative = styled.relative := by
  obtain ⟨sound, _, faithful⟩ := (tracked_start grammar document).run unbatched
  obtain ⟨positive, _, source⟩ := faithful line styled drawn
  have known : line - 1 < ((Observed.start grammar document).run operations).session.cache.stale := by
    have marked : line ≤ ((Observed.start grammar document).run operations).session.cache.stale :=
      Nat.le_trans current (Nat.min_le_left _ _)
    omega
  -- The slot before the line is trusted, so the stack that the line was drawn with is the fresh one.
  obtain ⟨input, kept, scanned⟩ := sound.trusted.fresh (line - 1) known
  obtain ⟨number, offset, final, highlighted⟩ := source input kept
  obtain ⟨fresh, again, same⟩ := Grammar.relative_of_highlightLine highlighted line
    ((documentAfter document operations).startOffset line)
  refine ⟨fresh, ?_, same⟩
  rw [Grammar.freshLine, initialAfter, scanned, Except.bind, again]
  rfl

/-- A line of a string stays as it is drawn when a line is inserted far above it and the stacks have been
brought up to date. -/
theorem unreported_eq_fresh_in_string :
    ∃ fresh, (Languages.Toml.grammar .standard).freshLine .empty
        (.ofLines ["a = 1", "k = \"\"\"", "v"]) 3 = .ok fresh ∧
      fresh.relative =
        StyledLine.relative ⟨2, 8, 1, [⟨8, 1, Theme.standard.token .string⟩]⟩ :=
  unreported_eq_fresh (Languages.Toml.grammar .standard) (.ofLines ["k = \"\"\"", "v"])
    [.highlight 1, .highlight 2, .insertLine 0 "a = 1", .stackAt 3] (by decide) 3
    ⟨2, 8, 1, [⟨8, 1, Theme.standard.token .string⟩]⟩ (by decide +kernel) (by decide +kernel)

end Session

end Highlight
