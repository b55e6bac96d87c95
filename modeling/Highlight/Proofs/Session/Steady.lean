import Highlight.Proofs.Session.Refusal

/-! # What scripts of a kind keep

A script may be limited in what it requests, and with it the scripts that it sets up in turn
(`Highlight.Session.everyRequest`). A relation between a session before and after that holds over what a
session does at an allowed request by itself then holds over whole scripts, however the scripts of listeners
cause one another (`Highlight.Session.Steady.reaction`).
-/

namespace Highlight.Session

mutual

/-- Whether the request is allowed, and so is all that a script which it sets up requests. -/
def Request.every (allows : Request → Bool) : Request → Bool
  | .listen script => allows (.listen script) && everyRequest allows script
  | .probe (some script) => allows (.probe (some script)) && everyRequest allows script
  | request => allows request

/-- Whether all that the script requests is allowed, and all that a script which it sets up requests. -/
def everyRequest (allows : Request → Bool) : Script → Bool
  | [] => true
  | request :: rest => request.every allows && everyRequest allows rest

end

/-- What is allowed with all that it sets up is allowed itself. -/
theorem allows_of_every {allows : Request → Bool} {request : Request}
    (every : request.every allows = true) : allows request = true := by
  unfold Request.every at every
  split at every
  · exact (Bool.and_eq_true_iff.mp every).1
  · exact (Bool.and_eq_true_iff.mp every).1
  · exact every

/-- The line that an event records the reading of. -/
def Event.lineRead? : Event → Option Nat
  | .delivered _ _ _ _ => none
  | .read line _ => some line

/-- The lines that have been read under a probe, in the order in which they were. -/
def linesRead (session : Session) : List Nat := session.events.filterMap Event.lineRead?

theorem linesRead_record (session : Session) (event : Event) :
    (session.record event).linesRead = session.linesRead ++ event.lineRead?.toList := by
  rw [linesRead, linesRead, events, events, record, List.reverse_cons, List.filterMap_append]
  cases event <;> rfl

/-- A relation between a session before and after, for sessions of a kind whose listeners request only what
is allowed. It holds over changes of the text, the listeners, the batch and the log that add no line to
those read, and over what a session that is not stuck does at a request by itself; to scan a line is not
allowed to a script of such a session. -/
structure Steady (allows : Request → Bool) (kind : Session → Prop)
    (relation : Session → Session → Prop) : Prop where
  trans : ∀ {first second third}, relation first second → relation second third →
    relation first third
  kept : ∀ {before after}, relation before after → kind after
  listeners : ∀ {session}, kind session →
    ∀ listener ∈ session.listeners, everyRequest allows listener.script = true
  noting : ∀ {before after : Session}, kind before →
    after =
      { before with
        document := after.document, listeners := after.listeners, registered := after.registered
        batching := after.batching, held := after.held, log := after.log } →
    (∀ listener ∈ after.listeners, everyRequest allows listener.script = true) →
    after.linesRead = before.linesRead → relation before after
  probe : ∀ {session script}, kind session → Request.every allows (.probe script) = true →
    relation session { session with probe := script }
  lower : ∀ {session request cache ranges}, kind session → ¬ session.Stuck →
    noticed session.document session.cache request = some (cache, ranges) →
    relation session { session with cache := cache }
  discard : ∀ {session : Session}, kind session → ¬ session.Stuck →
    relation session { session with disposed := true, listeners := [], cache := .starting .empty }
  scan : ∀ {session line}, kind session → ¬ session.Stuck →
    allows (.highlight line) = false ∧ allows (.stackAt line) = false

namespace Steady

/-- Whether the relation holds over every script that requests only what is allowed. -/
def Follows (allows : Request → Bool) (kind : Session → Prop) (relation : Session → Session → Prop)
    (react : Reaction) : Prop :=
  ∀ script session, everyRequest allows script = true → kind session →
    relation session (react script session).1

variable {allows : Request → Bool} {kind : Session → Prop} {relation : Session → Session → Prop}
  (steady : Steady allows kind relation)
include steady

theorem refl {session : Session} (known : kind session) : relation session session :=
  steady.noting known rfl (steady.listeners known) rfl

/-- A change of the batch and of the log that adds no line to those read. -/
theorem jotting {session : Session} (known : kind session) (batching : Bool)
    (held : Option (Nat × Nat)) {log : List Event}
    (unread : { session with log := log }.linesRead = session.linesRead) :
    relation session { session with batching := batching, held := held, log := log } := by
  have every := steady.listeners known
  exact steady.noting known rfl every unread

theorem edit {session : Session} (known : kind session) (edited : Option Document) :
    relation session (session.edit edited).1 := by
  have every := steady.listeners known
  cases edited with
  | none => exact steady.refl known
  | some document => exact steady.noting known rfl every rfl

/-- The relation holds over the beginning of a batch. -/
theorem beginBatch {session : Session} (known : kind session) :
    relation session session.beginBatch.1 := by
  unfold Session.beginBatch guarded
  split
  · exact steady.refl known
  · dsimp only
    split
    · exact steady.refl known
    · exact steady.jotting known true session.held rfl

/-- It holds over the registration of a listener whose script requests what is allowed. -/
theorem listen {session : Session} (known : kind session) {script : Script}
    (every : everyRequest allows script = true) : relation session (session.listen script) := by
  refine steady.noting known rfl (fun listener member => ?_) rfl
  rcases List.mem_append.mp member with before | new
  · exact steady.listeners known listener before
  · rw [List.mem_singleton.mp new]
    exact every

/-- It holds over a request to dispose of the session. -/
theorem dispose {session : Session} (known : kind session) (react : Reaction) :
    relation session (session.perform react .dispose).1 := by
  by_cases stuck : session.Stuck
  · rw [perform_dispose_of_stuck stuck]
    exact steady.refl known
  · obtain ⟨alive, idle⟩ := not_or.mp stuck
    have editable := checkEditable_eq_ok_iff.mpr
      ⟨Bool.eq_false_iff.mpr alive, Bool.eq_false_iff.mpr idle⟩
    simp only [perform, Session.dispose, editable, guarded]
    exact steady.discard known stuck

/-- It holds over a request that scans, which a session of this kind refuses. -/
theorem scans {session : Session} (known : kind session) (react : Reaction) {request : Request}
    {line : Nat} (scans : request ∈ [Request.highlight line, .stackAt line])
    (allowed : allows request = true) : relation session (session.perform react request).1 := by
  by_cases stuck : session.Stuck
  · have refused : (session.perform react request).1 = session := by
      simp only [List.mem_cons, List.not_mem_nil, or_false] at scans
      rcases scans with rfl | rfl
      · rw [perform_highlight_of_stuck stuck]
      · rw [perform_stackAt_of_stuck stuck]
    rw [refused]
    exact steady.refl known
  · obtain ⟨unshown, untraced⟩ :
        allows (.highlight line) = false ∧ allows (.stackAt line) = false :=
      steady.scan known stuck
    simp only [List.mem_cons, List.not_mem_nil, or_false] at scans
    rcases scans with rfl | rfl
    · rw [unshown] at allowed
      contradiction
    · rw [untraced] at allowed
      contradiction

section Telling

variable {react : Reaction} (follows : Follows allows kind relation react) {session : Session}
include follows

/-- It holds over a delivery to a listener. -/
theorem deliver (known : kind session) (first last : Nat) {listener : Listener}
    (every : everyRequest allows listener.script = true) :
    relation session (session.deliver react first last listener) := by
  have acted := follows listener.script session every known
  have unread : ∀ answers, ((react listener.script session).1.record
      (.delivered listener.number first last answers)).linesRead =
        (react listener.script session).1.linesRead :=
    fun answers => (linesRead_record _ _).trans (List.append_nil _)
  exact steady.trans acted (steady.jotting (steady.kept acted) _ _ (unread _))

/-- It holds over several deliveries. -/
theorem foldl_deliver (known : kind session) (first last : Nat) {listeners : List Listener}
    (every : ∀ listener ∈ listeners, everyRequest allows listener.script = true) :
    relation session (listeners.foldl (Session.deliver react first last) session) := by
  induction listeners generalizing session with
  | nil => exact steady.refl known
  | cons listener rest ih =>
      obtain ⟨here, later⟩ := List.forall_mem_cons.mp every
      have told := steady.deliver follows known first last here
      exact steady.trans told (ih (steady.kept told) later)

/-- It holds over a notice to the whole list. -/
theorem fire (known : kind session) (first last : Nat) :
    relation session (session.fire react first last) := by
  have called := steady.listeners known
  have aside : relation session { session with listeners := [] } :=
    steady.noting known rfl (List.forall_mem_nil _) rfl
  have told := steady.foldl_deliver follows (steady.kept aside) first last called
  have known' := steady.kept told
  refine steady.trans (steady.trans aside told) (steady.noting known' rfl ?_ rfl)
  exact List.forall_mem_append.mpr ⟨called, steady.listeners known'⟩

/-- It holds over notices given one after another. -/
theorem notifyRanges (known : kind session) (ranges : List (Nat × Nat)) :
    relation session (session.notifyRanges react ranges) := by
  refine @notifyRanges_of_fire (fun before after => kind before → relation before after) react
    (fun _ => steady.refl) (fun near far before => ?_)
    (fun session held _ before => steady.jotting before session.batching held rfl)
    (fun _ first last before => steady.fire follows before first last) ranges session known
  have sooner := near before
  exact steady.trans sooner (far (steady.kept sooner))

theorem notifyEach (known : kind session) (lines : List Nat) :
    relation session (session.notifyEach react lines) := by
  rw [notifyEach_eq]
  exact steady.notifyRanges follows known _

/-- The relation holds over the end of a batch. -/
theorem endBatch (known : kind session) : relation session (session.endBatch react).1 := by
  unfold Session.endBatch guarded
  split
  · exact steady.refl known
  · dsimp only
    split
    · split
      · exact steady.jotting known false _ rfl
      · rename_i first last _
        have ended : relation session { session with batching := false, held := none } :=
          steady.jotting known false none rfl
        exact steady.trans ended (steady.fire follows (steady.kept ended) first last)
    · exact steady.refl known

/-- A notice of the editor. -/
theorem notice (known : kind session) {request : Request} {cache : Cache}
    {ranges : List (Nat × Nat)}
    (noticing : noticed session.document session.cache request = some (cache, ranges)) :
    relation session (session.perform react request).1 := by
  by_cases stuck : session.Stuck
  · rw [perform_notice_of_stuck stuck react (by rw [noticing]; rfl)]
    exact steady.refl known
  · obtain ⟨alive, idle⟩ := not_or.mp stuck
    rw [perform_of_noticed (Bool.eq_false_iff.mpr alive) (Bool.eq_false_iff.mpr idle) noticing]
    have lowered := steady.lower known stuck noticing
    exact steady.trans lowered (steady.notifyRanges follows (steady.kept lowered) ranges)

/-- **Requests.** A steady relation holds over every request that is allowed. -/
theorem perform (known : kind session) {request : Request} (every : request.every allows = true) :
    relation session (session.perform react request).1 := by
  have allowed := allows_of_every every
  cases request with
  | highlight line => exact steady.scans known react List.mem_cons_self allowed
  | stackAt line =>
      exact steady.scans known react (List.mem_cons_of_mem _ List.mem_cons_self) allowed
  | invalidate line => exact steady.notice follows known rfl
  | invalidateAll => exact steady.notice follows known rfl
  | lineChanged line => exact steady.notice follows known rfl
  | lineInserted after line => exact steady.notice follows known rfl
  | lineRemoved line => exact steady.notice follows known rfl
  | rebuild => exact steady.notice follows known rfl
  | setInitialStack stack => exact steady.notice follows known rfl
  | beginBatch => exact steady.beginBatch known
  | endBatch => exact steady.endBatch follows known
  | dispose => exact steady.dispose known react
  | initialStack => exact steady.refl known
  | marker => exact steady.refl known
  | namedStyle name => exact steady.refl known
  | describeText => exact steady.refl known
  | replaceLine line text => exact steady.edit known _
  | insertLine after text => exact steady.edit known _
  | removeLine line => exact steady.edit known _
  | listen script =>
      rw [Request.every] at every
      exact steady.listen known (Bool.and_eq_true_iff.mp every).2
  | probe script => exact steady.probe known every

/-- It holds over a script that requests only what is allowed. -/
theorem runScript : Follows allows kind relation (Session.runScript react) := by
  intro script
  induction script with
  | nil => exact fun session _ known => steady.refl known
  | cons request rest ih =>
      intro session every known
      rw [everyRequest] at every
      obtain ⟨here, later⟩ := Bool.and_eq_true_iff.mp every
      have acted := steady.perform follows known here
      exact steady.trans acted (ih _ later (steady.kept acted))

end Telling

/-- **Scripts.** A steady relation holds over every script that requests only what is allowed, however deep
scripts cause one another. -/
theorem reaction (depth : Nat) : Follows allows kind relation (Session.reaction depth) := by
  induction depth with
  | zero => exact fun _ session _ known => steady.refl known
  | succ depth ih => exact steady.runScript ih

end Steady

end Highlight.Session
