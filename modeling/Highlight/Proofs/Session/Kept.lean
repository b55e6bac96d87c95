import Highlight.Proofs.Session.Watch

/-! # What is always true of the kept stacks

The kept stacks change in three ways: the session starts anew, it takes note of an edit, and a pass keeps the
stack at the end of a line that it has scanned from the stack kept for the line before. A property that each
of them leaves holds in every state of a session, however the scripts of listeners and of the probe are nested
(`Highlight.Session.CacheInvariant.performAll`), since no script changes the kept stacks between the moment at
which a pass looks one up and the moment at which it keeps the next.
-/

namespace Highlight.Session

/-- A property of the kept stacks that a new session has and that notices and scans leave. -/
structure CacheInvariant (grammar : Grammar) (property : Cache → Prop) : Prop where
  starting : property (.starting .empty)
  noticed : ∀ {document before request after ranges}, property before →
    noticed document before request = some (after, ranges) → property after
  stored : ∀ {cache : Cache} {line stale : Nat} {text : String} {stack : SpanStack}, property cache →
    1 ≤ line → grammar.scanLine (cache.stackAt (line - 1)) text = .ok stack →
    property { (cache.store line stack).1 with stale := stale }

/-- Whether a session with the grammar has the property, and its marker is not in front of the first line. -/
def Holds (grammar : Grammar) (property : Cache → Prop) (session : Session) : Prop :=
  session.grammar = grammar ∧ 1 ≤ session.marker ∧ property session.cache

/-- Whether a session has the property if it had it before. -/
def Upholds (grammar : Grammar) (property : Cache → Prop) (before after : Session) : Prop :=
  before.Holds grammar property → after.Holds grammar property

/-- A check of a line that does not fail has found the session alive and the line late enough. -/
theorem of_check {session : Session} {line least : Nat}
    (checks : (session.checkAlive *> session.checkLine line least) = .ok ()) :
    session.disposed = false ∧ least ≤ line := by
  cases disposed : session.disposed with
  | true =>
      have refused : session.checkAlive = .error .disposed := if_pos disposed
      rw [refused] at checks
      cases checks
  | false =>
      refine ⟨rfl, Nat.le_of_not_lt fun early => ?_⟩
      rw [check_of_outside disposed (.inl early)] at checks
      cases checks

section Passes

variable {grammar : Grammar} {property : Cache → Prop} {session : Session}

/-- Only the grammar and the kept stacks matter to the property. -/
theorem Holds.of_eq {after : Session} (holds : session.Holds grammar property)
    (sameGrammar : after.grammar = session.grammar) (sameCache : after.cache = session.cache) :
    after.Holds grammar property := by
  obtain ⟨known, positive, kept⟩ := holds
  refine ⟨sameGrammar.trans known, ?_, sameCache ▸ kept⟩
  rw [marker, sameCache]
  exact positive

namespace CacheInvariant

variable (invariant : CacheInvariant grammar property)
include invariant

/-- Keeping the stack at the end of a line that has been scanned. -/
theorem storing (holds : session.Holds grammar property) {line stale : Nat} {text : String}
    {stack : SpanStack} (above : 1 ≤ line) (raised : 1 ≤ stale)
    (scanned : grammar.scanLine (session.cache.stackAt (line - 1)) text = .ok stack) :
    { session with cache := { (session.cache.store line stack).1 with stale := stale } }.Holds
      grammar property :=
  ⟨holds.1, raised, invariant.stored holds.2.2 above scanned⟩

variable (depth : Nat) (holds : session.Holds grammar property) (passing : session.passing = true)
  (alive : session.disposed = false)
include holds passing alive

/-- Each round of a replay keeps the property. -/
theorem replay (lineCount count : Nat) :
    (session.replay (reaction depth) lineCount count).1.passing = true ∧
      (session.replay (reaction depth) lineCount count).1.disposed = false ∧
      (session.replay (reaction depth) lineCount count).1.Holds grammar property := by
  induction count generalizing session with
  | zero => exact ⟨passing, alive, holds⟩
  | succ count ih =>
      obtain ⟨after, text, reads, advanced, cache, _⟩ :=
        exists_readLine_eq passing alive depth session.cache.stale
      have still := holds.of_eq advanced.grammar cache
      rw [Session.replay, reads]
      dsimp only
      split
      · exact ⟨advanced.passing, advanced.alive, still⟩
      · rename_i stack scanned
        have above : 1 ≤ session.cache.stale := holds.2.1
        have found : grammar.scanLine (after.cache.stackAt (session.cache.stale - 1)) text =
            .ok stack := by
          rw [cache, ← still.1]
          exact scanned
        have kept := invariant.storing still above (Nat.le_add_left 1 session.cache.stale) found
        exact ih kept advanced.passing advanced.alive

/-- Showing a line keeps at most the stack at its end. -/
theorem showLine {line : Nat} (above : 1 ≤ line) :
    (session.showLine (reaction depth) line).1.Holds grammar property := by
  obtain ⟨after, text, reads, advanced, cache, _⟩ := exists_readLine_eq passing alive depth line
  have still := holds.of_eq advanced.grammar cache
  rw [Session.showLine, reads]
  dsimp only
  split
  · exact still
  · rename_i styled stack highlighted
    rw [still.1, ← cache] at highlighted
    apply invariant.storing still above
    · exact Nat.le_trans above (Nat.le_trans (Nat.le_succ line) (Nat.le_max_right _ _))
    · exact (Grammar.strokes_of_highlightLine highlighted).1

/-- Highlighting a line replays up to it and shows it, and both uphold the property. -/
theorem highlighting {line : Nat} (above : 1 ≤ line) :
    (session.highlighting (reaction depth) line).1.Holds grammar property := by
  obtain ⟨still, living, replayed⟩ := invariant.replay depth holds passing alive
    session.document.lineCount (line - session.cache.stale)
  rw [Session.highlighting, replayTo]
  split
  · rename_i ends
    rw [ends] at replayed
    exact replayed
  · rename_i ends
    rw [ends] at still living replayed
    exact invariant.showLine depth replayed still living above

theorem tracing (line : Nat) :
    (session.tracing (reaction depth) line).1.Holds grammar property :=
  (invariant.replay depth holds passing alive session.document.lineCount _).2.2

end CacheInvariant

end Passes

/-! ## From passes to requests -/

namespace CacheInvariant

variable {grammar : Grammar} {property : Cache → Prop}

section Notices

variable {react : Reaction} (keeps : Keeps (Upholds grammar property) react)
include keeps

/-- Telling the listeners upholds it, if their scripts do. -/
theorem fire (session : Session) (first last : Nat) :
    Upholds grammar property session (session.fire react first last) := by
  apply keeps.fire
  · exact fun _ => id
  · exact fun near far => far ∘ near
  · exact fun _ _ _ _ _ => id
  · exact fun _ _ => id

theorem notifyRanges (session : Session) (ranges : List (Nat × Nat)) :
    Upholds grammar property session (session.notifyRanges react ranges) := by
  apply notifyRanges_of_fire
  · exact fun _ => id
  · exact fun near far => far ∘ near
  · exact fun _ _ _ => id
  · exact fire keeps

/-- The end of a batch, which tells of what was held back, upholds the property. -/
theorem endBatch (session : Session) :
    Upholds grammar property session (session.endBatch react).1 := by
  intro holds
  unfold Session.endBatch guarded
  split
  · exact holds
  · dsimp only
    split
    · split
      · exact holds
      · exact fire keeps _ _ _ holds
    · exact holds

end Notices

variable (invariant : CacheInvariant grammar property)
include invariant

theorem dispose (session : Session) : Upholds grammar property session session.dispose.1 := by
  intro holds
  unfold Session.dispose guarded
  split
  · exact holds
  · exact ⟨holds.1, Nat.le_refl 1, invariant.starting⟩

section Requests

variable {depth : Nat} (keeps : Keeps (Upholds grammar property) (reaction depth))
include keeps

/-- A notice of the editor. -/
theorem notice (session : Session) {request : Request} {cache : Cache} {ranges : List (Nat × Nat)}
    (noticing : Session.noticed session.document session.cache request = some (cache, ranges)) :
    Upholds grammar property session (session.perform (reaction depth) request).1 := by
  rintro ⟨known, positive, kept⟩
  rw [perform_eq_of_noticed noticing]
  split
  · exact ⟨known, positive, kept⟩
  · apply notifyRanges keeps
    exact ⟨known, (stale_of_noticed noticing positive).1, invariant.noticed kept noticing⟩

omit invariant in
/-- A pass upholds what its action upholds. -/
theorem pass {Result : Type} {session : Session}
    {action : Session → Session × List Nat × Except Failure Result}
    (holds : session.Holds grammar property)
    (acts : (action { session with passing := true }).1.Holds grammar property) :
    (session.pass (reaction depth) action).1.Holds grammar property := by
  rw [Session.pass]
  split
  · exact holds
  · dsimp only
    rw [notifyEach_eq]
    exact notifyRanges keeps _ _ acts

/-- A request for a line upholds the property, refused or not. -/
theorem highlight (session : Session) (line : Nat) :
    Upholds grammar property session (session.perform (reaction depth) (.highlight line)).1 := by
  intro holds
  rw [perform_highlight, highlight_eq]
  unfold guarded
  split
  · exact holds
  · rename_i checks
    obtain ⟨alive, above⟩ := of_check checks
    have entered : { session with passing := true }.Holds grammar property := holds
    exact pass keeps holds (invariant.highlighting depth entered rfl alive above)

/-- So does a request for a stack. -/
theorem stackAt (session : Session) (line : Nat) :
    Upholds grammar property session (session.perform (reaction depth) (.stackAt line)).1 := by
  intro holds
  rw [perform_stackAt, stackAt_eq]
  unfold guarded
  split
  · exact holds
  · rename_i checks
    have entered : { session with passing := true }.Holds grammar property := holds
    exact pass keeps holds (invariant.tracing depth entered rfl (of_check checks).1 line)

/-- **Requests.** Every request upholds the property. -/
theorem perform (session : Session) (request : Request) :
    Upholds grammar property session (session.perform (reaction depth) request).1 := by
  have edits : ∀ edited, Upholds grammar property session (session.edit edited).1 := by
    intro edited
    cases edited <;> exact id
  cases request with
  | highlight line => exact invariant.highlight keeps session line
  | stackAt line => exact invariant.stackAt keeps session line
  | invalidate line => exact invariant.notice keeps session rfl
  | invalidateAll => exact invariant.notice keeps session rfl
  | lineChanged line => exact invariant.notice keeps session rfl
  | lineInserted after line => exact invariant.notice keeps session rfl
  | lineRemoved line => exact invariant.notice keeps session rfl
  | rebuild => exact invariant.notice keeps session rfl
  | setInitialStack stack => exact invariant.notice keeps session rfl
  | beginBatch =>
      intro holds
      simp only [Session.perform, beginBatch, guarded]
      split
      · exact holds
      · split <;> exact holds
  | endBatch => exact endBatch keeps session
  | dispose => exact invariant.dispose session
  | replaceLine line text => exact edits _
  | insertLine after text => exact edits _
  | removeLine line => exact edits _
  | initialStack => exact id
  | marker => exact id
  | namedStyle name => exact id
  | describeText => exact id
  | listen script => exact id
  | probe script => exact id

theorem runScript : Keeps (Upholds grammar property) (Session.runScript (reaction depth)) := by
  intro script
  induction script with
  | nil => exact fun _ => id
  | cons request rest ih =>
      exact fun session => ih _ ∘ invariant.perform keeps session request

end Requests

/-- **Scripts.** Every script upholds the property, however deep scripts cause one another. -/
theorem reaction (depth : Nat) : Keeps (Upholds grammar property) (Session.reaction depth) := by
  induction depth with
  | zero => exact fun _ _ => id
  | succ depth ih => exact invariant.runScript ih

/-- **Sessions.** The property holds after all requests that a new session is given, to whatever depth
scripts may cause one another. -/
theorem performAll (document : Document) (depth : Nat) (requests : List Request) :
    ((start grammar document).performAll (Session.reaction depth) requests).Holds grammar property := by
  have upholds : ∀ session, Upholds grammar property session
      (session.performAll (Session.reaction depth) requests) := by
    induction requests with
    | nil => exact fun _ => id
    | cons request rest ih =>
        exact fun session =>
          ih _ ∘ invariant.perform (invariant.reaction depth) session request
  exact upholds _ ⟨rfl, Nat.le_refl 1, invariant.starting⟩

end CacheInvariant

end Highlight.Session
