import Highlight.Proofs.Session.Operation

/-! # What lasts from one request to the next

Requests are made of a few elementary acts: fields of the session change, a line is read under a probe, a
listener is registered, the session is disposed, or listeners are told of a range of lines. A relation that
holds over each of them holds over every request, however the scripts of listeners and of the probe are
nested (`Highlight.Session.Lasting.handleAll`).
-/

namespace Highlight.Session

/-- Whether the relation holds over every script that is carried out. -/
def Keeps (relation : Session → Session → Prop) (react : Reaction) : Prop :=
  ∀ script session, relation session (react script session).1

/-- A relation between a session before and after that holds over every elementary act. Nothing is held back
anew but in a batch, and the marker is never moved in front of the document. A pass counts as an act where
the relation holds inside of it, reading a line under a probe where it holds over the script of the probe,
and telling listeners where the scripts that they run keep the relation. -/
structure Lasting (relation : Session → Session → Prop) : Prop where
  refl : ∀ session, relation session session
  trans : ∀ {first second third}, relation first second → relation second third →
    relation first third
  working : ∀ {before after : Session},
    after =
      { before with
        document := after.document, cache := after.cache, batching := after.batching
        held := after.held, probe := after.probe } →
    after.batching = before.batching ∧ after.held = before.held ∨ after.batching = true ∨
      after.held = none →
    (1 ≤ before.marker → 1 ≤ after.marker) →
    relation before after
  enclose : ∀ {before after : Session}, before.passing = false →
    relation { before with passing := true } after → relation before { after with passing := false }
  probed : ∀ {before after : Session} line answers, before.probing = false →
    relation { before with probing := true } after →
    relation before ({ after with probing := false }.record (.read line answers))
  listen : ∀ session script, relation session (session.listen script)
  discard : ∀ session : Session, session.disposed = false → session.passing = false →
    relation session { session with disposed := true, listeners := [], cache := .starting .empty }
  fire : ∀ {react}, Keeps relation react → ∀ session first last,
    relation session (session.fire react first last)

/-! ## The inside of a pass -/

/-- What is done inside of the pass that highlights a line. -/
def highlighting (react : Reaction) (line : Nat) (session : Session) :
    Session × List Nat × Except Failure StyledLine :=
  match replayTo react line session with
  | (session, changed, .error failure) => (session, changed, .error failure)
  | (session, changed, .ok ()) =>
    let (session, later, result) := showLine react line session
    (session, changed ++ later, result)

/-- What is done inside of the pass that finds the stack at the end of a line. -/
def tracing (react : Reaction) (line : Nat) (session : Session) :
    Session × List Nat × Except Failure SpanStack :=
  let (session, changed, outcome) := replayTo react (line + 1) session
  (session, changed, outcome.map fun () => session.cache.stackAt line)

theorem highlight_eq (react : Reaction) (line : Nat) (session : Session) :
    session.highlight react line =
      guarded (session.checkAlive *> session.checkLine line 1) session fun session =>
        session.pass react (highlighting react line) :=
  rfl

theorem stackAt_eq (react : Reaction) (line : Nat) (session : Session) :
    session.stackAt react line =
      guarded (session.checkAlive *> session.checkLine line 0) session fun session =>
        session.pass react (tracing react line) :=
  rfl

theorem snd_pass {α : Type} (react : Reaction) {session : Session} (idle : session.passing = false)
    (action : Session → Session × List Nat × Except Failure α) :
    (session.pass react action).2 = (action { session with passing := true }).2.2 := by
  rw [pass, idle, if_neg Bool.false_ne_true]

/-! ## Telling listeners -/

section Telling

variable {relation : Session → Session → Prop} {react : Reaction}
  (refl : ∀ session, relation session session)
  (trans : ∀ {first second third}, relation first second → relation second third →
    relation first third)
include refl trans

/-- Notices of several ranges, each of which is held back by a batch or delivered. -/
theorem notifyRanges_of_fire
    (holding : ∀ session held, session.batching = true →
      relation session { session with held := held })
    (fires : ∀ session first last, relation session (session.fire react first last))
    (ranges : List (Nat × Nat)) (session : Session) :
    relation session (session.notifyRanges react ranges) := by
  induction ranges generalizing session with
  | nil => exact refl session
  | cons range rest ih =>
      have told : relation session (session.notify react range.1 range.2) := by
        rw [notify]
        split
        · rename_i batching
          exact holding session _ batching
        · exact fires session range.1 range.2
      exact trans told (ih _)

variable (keeps : Keeps relation react)
  (recorded : ∀ session number first last answers,
    relation session (session.record (.delivered number first last answers)))
include keeps recorded

/-- Telling listeners one after another, for a relation that holds over the record of a delivery. -/
theorem Keeps.foldl_deliver (first last : Nat) (listeners : List Listener) (session : Session) :
    relation session (listeners.foldl (deliver react first last) session) := by
  induction listeners generalizing session with
  | nil => exact refl session
  | cons listener rest ih =>
      have delivered : relation session (session.deliver react first last listener) :=
        trans (keeps listener.script session) (recorded _ _ _ _ _)
      exact trans delivered (ih _)

/-- Telling listeners counts as an elementary act for every such relation that does not read the
listeners. -/
theorem Keeps.fire
    (unheard : ∀ (session : Session) listeners,
      relation session { session with listeners := listeners })
    (session : Session) (first last : Nat) : relation session (session.fire react first last) := by
  have aside := unheard session []
  have told := keeps.foldl_deliver refl trans recorded first last session.listeners
    { session with listeners := [] }
  exact trans (trans aside told) (unheard _ _)

end Telling

/-! ## From elementary acts to requests -/

namespace Lasting

variable {relation : Session → Session → Prop} (lasting : Lasting relation)
include lasting

/-- A request that is refused changes nothing. -/
theorem guarded {α : Type} (check : Except Failure Unit) (session : Session)
    {action : Session → Session × Except Failure α}
    (acts : ∀ session, relation session (action session).1) :
    relation session (guarded check session action).1 := by
  unfold Session.guarded
  split
  · exact lasting.refl session
  · exact acts session

theorem working_unbatched {before after : Session}
    (same : after =
      { before with document := after.document, cache := after.cache, probe := after.probe })
    (positive : 1 ≤ before.marker → 1 ≤ after.marker) : relation before after := by
  rw [same] at positive ⊢
  exact lasting.working rfl (.inl ⟨rfl, rfl⟩) positive

theorem edit (session : Session) (edited : Option Document) :
    relation session (session.edit edited).1 := by
  cases edited with
  | none => exact lasting.refl session
  | some document => exact lasting.working_unbatched rfl id

theorem beginBatch (session : Session) : relation session session.beginBatch.1 := by
  refine lasting.guarded _ session fun session => ?_
  split
  · exact lasting.refl session
  · exact lasting.working rfl (.inr (.inl rfl)) id

/-- The relation holds over the disposal of the session. -/
theorem dispose (session : Session) : relation session session.dispose.1 := by
  unfold Session.dispose Session.guarded
  split
  · exact lasting.refl session
  · rename_i editable
    obtain ⟨alive, idle⟩ := checkEditable_eq_ok_iff.mp editable
    exact lasting.discard session alive idle

section Reacting

variable {react : Reaction} (keeps : Keeps relation react)
include keeps

theorem notifyRanges (session : Session) (ranges : List (Nat × Nat)) :
    relation session (session.notifyRanges react ranges) :=
  notifyRanges_of_fire lasting.refl lasting.trans
    (fun _ _ batching => lasting.working rfl (.inr (.inl batching)) id) (lasting.fire keeps) ranges
    session

theorem notifyEach (session : Session) (lines : List Nat) :
    relation session (session.notifyEach react lines) := by
  rw [notifyEach_eq]
  exact lasting.notifyRanges keeps session _

/-- A notice of the editor. -/
theorem notice (session : Session) {request : Request} {cache : Cache} {ranges : List (Nat × Nat)}
    (noticing : noticed session.document session.cache request = some (cache, ranges)) :
    relation session (session.perform react request).1 := by
  rw [perform_eq_of_noticed noticing]
  split
  · exact lasting.refl session
  · refine lasting.trans (lasting.working_unbatched rfl fun positive => ?_)
      (lasting.notifyRanges keeps { session with cache := cache } ranges)
    exact (stale_of_noticed noticing positive).1

/-- It holds over the end of a batch and the notice that is given there. -/
theorem endBatch (session : Session) : relation session (session.endBatch react).1 := by
  refine lasting.guarded _ session fun session => ?_
  split
  · dsimp only
    split
    · rename_i unheld
      exact lasting.working rfl (.inr (.inr unheld)) id
    · refine lasting.trans (lasting.working rfl (.inr (.inr ?_)) ?_) (lasting.fire keeps _ _ _)
      · rfl
      · exact id
  · exact lasting.refl session

/-- It holds over the reading of a line, whose probe may run a script. -/
theorem readLine (session : Session) (line : Nat) :
    relation session (session.readLine react line).1 := by
  rw [Session.readLine]
  split
  · rename_i script _ unread
    exact lasting.probed line _ unread (keeps script { session with probing := true })
  · exact lasting.refl session

/-- It holds over a replay, by induction on the lines that are left. -/
theorem replay (lineCount count : Nat) (session : Session) :
    relation session (session.replay react lineCount count).1 := by
  induction count generalizing session with
  | zero => exact lasting.refl session
  | succ count ih =>
      have reads := lasting.readLine keeps session session.cache.stale
      rw [Session.replay]
      dsimp only
      split
      · exact reads
      · refine lasting.trans (lasting.trans reads (lasting.working_unbatched rfl fun _ => ?_)) (ih _)
        exact Nat.le_add_left 1 session.cache.stale

/-- It holds over the showing of a line. -/
theorem showLine (session : Session) (line : Nat) :
    relation session (session.showLine react line).1 := by
  have reads := lasting.readLine keeps session line
  rw [Session.showLine]
  dsimp only
  split
  · exact reads
  · refine lasting.trans reads (lasting.working_unbatched rfl fun _ => ?_)
    exact Nat.le_trans (Nat.le_add_left 1 line) (Nat.le_max_right _ _)

/-- It holds over a pass if it holds over what is done inside of it. -/
theorem pass {α : Type} (session : Session)
    {action : Session → Session × List Nat × Except Failure α}
    (acts : ∀ session, relation session (action session).1) :
    relation session (session.pass react action).1 := by
  rw [Session.pass]
  split
  · exact lasting.refl session
  · rename_i idle
    have acted := acts { session with passing := true }
    exact lasting.enclose (Bool.eq_false_iff.mpr idle)
      (lasting.trans acted (lasting.notifyEach keeps _ _))

/-- It holds over what the pass for a line does. -/
theorem highlighting (session : Session) (line : Nat) :
    relation session (session.highlighting react line).1 := by
  have replays := lasting.replay keeps session.document.lineCount (line - session.cache.stale) session
  rw [Session.highlighting, replayTo]
  split
  · rename_i replayed
    rwa [replayed] at replays
  · rename_i replayed
    rw [replayed] at replays
    exact lasting.trans replays (lasting.showLine keeps _ line)

theorem tracing (session : Session) (line : Nat) :
    relation session (session.tracing react line).1 :=
  lasting.replay keeps session.document.lineCount (line + 1 - session.cache.stale) session

theorem highlight (session : Session) (line : Nat) :
    relation session (session.highlight react line).1 :=
  lasting.guarded _ session fun session => lasting.pass keeps session fun session =>
    lasting.highlighting keeps session line

theorem stackAt (session : Session) (line : Nat) :
    relation session (session.stackAt react line).1 :=
  lasting.guarded _ session fun session => lasting.pass keeps session fun session =>
    lasting.tracing keeps session line

/-- **Requests.** A lasting relation holds over every request. -/
theorem perform (session : Session) (request : Request) :
    relation session (session.perform react request).1 := by
  cases request with
  | highlight line =>
      have highlights := lasting.highlight keeps session line
      unfold Session.perform
      dsimp only
      split <;> rename_i same <;> rwa [same] at highlights
  | stackAt line =>
      have answers := lasting.stackAt keeps session line
      unfold Session.perform
      dsimp only
      split <;> rename_i same <;> rwa [same] at answers
  | invalidate line => exact lasting.notice keeps session rfl
  | invalidateAll => exact lasting.notice keeps session rfl
  | lineChanged line => exact lasting.notice keeps session rfl
  | lineInserted _ line => exact lasting.notice keeps session rfl
  | lineRemoved line => exact lasting.notice keeps session rfl
  | rebuild => exact lasting.notice keeps session rfl
  | beginBatch => exact lasting.beginBatch session
  | endBatch => exact lasting.endBatch keeps session
  | dispose => exact lasting.dispose session
  | setInitialStack stack => exact lasting.notice keeps session rfl
  | initialStack => exact lasting.refl session
  | marker => exact lasting.refl session
  | namedStyle name => exact lasting.refl session
  | replaceLine line text => exact lasting.edit session _
  | insertLine after text => exact lasting.edit session _
  | removeLine line => exact lasting.edit session _
  | describeText => exact lasting.refl session
  | listen script => exact lasting.listen session script
  | probe script => exact lasting.working_unbatched rfl id

theorem runScript : Keeps relation (Session.runScript react) := by
  intro script
  induction script with
  | nil => exact lasting.refl
  | cons request rest ih =>
      exact fun session => lasting.trans (lasting.perform keeps session request) (ih _)

end Reacting

/-- **Scripts.** A lasting relation holds over every script, however deep scripts cause one another. -/
theorem reaction (depth : Nat) : Keeps relation (Session.reaction depth) := by
  induction depth with
  | zero => exact fun _ session => lasting.refl session
  | succ depth ih => exact lasting.runScript ih

/-- **Requests.** A lasting relation holds over any requests, if it holds over the scripts they run. -/
theorem performAll {react : Reaction} (keeps : Keeps relation react) (session : Session)
    (requests : List Request) : relation session (session.performAll react requests) := by
  induction requests generalizing session with
  | nil => exact lasting.refl session
  | cons request rest ih => exact lasting.trans (lasting.perform keeps session request) (ih _)

theorem handleAll (session : Session) (requests : List Request) :
    relation session (session.handleAll requests) :=
  lasting.performAll (lasting.reaction nestingLimit) session requests

end Lasting

/-- No request leaves a pass running that was not running before. -/
theorem lasting_passing : Lasting fun before after => after.passing = before.passing where
  refl _ := rfl
  trans near far := far.trans near
  working same _ _ := by rw [same]
  enclose idle _ := idle.symm
  probed _ _ _ inside := inside
  listen _ _ := rfl
  discard _ _ _ := rfl
  fire keeps session first last := by
    refine Keeps.fire ?_ ?_ keeps ?_ ?_ session first last
    · exact fun _ => rfl
    · exact fun near far => far.trans near
    · exact fun _ _ _ _ _ => rfl
    · exact fun _ _ => rfl

/-- No request leaves a line half read that was not half read before. -/
theorem lasting_probing : Lasting fun before after => after.probing = before.probing where
  refl _ := rfl
  trans near far := far.trans near
  working same _ _ := by rw [same]
  enclose _ inside := inside
  probed _ _ unread _ := unread.symm
  listen _ _ := rfl
  discard _ _ _ := rfl
  fire keeps session first last := by
    refine Keeps.fire ?_ ?_ keeps ?_ ?_ session first last
    · exact fun _ => rfl
    · exact fun near far => far.trans near
    · exact fun _ _ _ _ _ => rfl
    · exact fun _ _ => rfl

/-- The marker is never in front of the first line. -/
theorem lasting_positive : Lasting fun before after => 1 ≤ before.marker → 1 ≤ after.marker where
  refl _ := id
  trans near far := far ∘ near
  working _ _ positive := positive
  enclose _ inside := inside
  probed _ _ _ inside := inside
  listen _ _ := id
  discard _ _ _ _ := Nat.le_refl 1
  fire keeps session first last := by
    refine Keeps.fire ?_ ?_ keeps ?_ ?_ session first last
    · exact fun _ => id
    · exact fun near far => far ∘ near
    · exact fun _ _ _ _ _ => id
    · exact fun _ _ => id

end Highlight.Session
