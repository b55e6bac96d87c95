import Highlight.Proofs.Session.Lockstep

/-! # What a session refuses

A session that is disposed or in a pass refuses to scan a line and to take note of an edit, and refusing
changes nothing (`Highlight.Session.perform_of_disturbs`, `Highlight.Session.perform_of_disposed`).
-/

namespace Highlight.Session

/-- Whether a session carries out no request that can fail, because it is disposed or a pass is running. -/
def Stuck (session : Session) : Prop := session.disposed = true ∨ session.passing = true

/-- Why a session that is stuck refuses to scan a line. -/
def refusal (session : Session) (line least : Nat) : Failure :=
  match session.checkAlive *> session.checkLine line least with
  | .error failure => failure
  | .ok () => .reentrant

/-- Why a session that is stuck refuses to take note of an edit. -/
def editRefusal (session : Session) : Failure := if session.disposed then .disposed else .reentrant

theorem pass_of_passing {α : Type} {session : Session} (passing : session.passing = true)
    (react : Reaction) (action : Session → Session × List Nat × Except Failure α) :
    session.pass react action = (session, .error .reentrant) :=
  if_pos passing

section Stuck

variable {session : Session} (stuck : session.Stuck)
include stuck

/-- A session that is stuck refuses to take note of an edit. -/
theorem checkEditable_of_stuck : session.checkEditable = .error session.editRefusal := by
  cases disposed : session.disposed with
  | true =>
      rw [checkEditable, checkAlive, editRefusal, disposed]
      rfl
  | false =>
      have passing : session.passing = true := stuck.resolve_left (Bool.eq_false_iff.mp disposed)
      rw [checkEditable, checkAlive, editRefusal, disposed, passing]
      rfl

/-- A request to scan a line is refused where the check of the line fails, or else by the pass. -/
theorem guarded_pass_of_stuck {α : Type} (react : Reaction) (line least : Nat)
    (action : Session → Session × List Nat × Except Failure α) :
    guarded (session.checkAlive *> session.checkLine line least) session
        (fun session => session.pass react action) =
      (session, .error (session.refusal line least)) := by
  unfold refusal
  cases disposed : session.disposed with
  | true =>
      have refused : session.checkAlive = .error .disposed := if_pos disposed
      rw [refused]
      rfl
  | false =>
      have passing : session.passing = true := stuck.resolve_left (Bool.eq_false_iff.mp disposed)
      rcases session.checkAlive *> session.checkLine line least with failure | ⟨⟩
      · rfl
      · rw [guarded, pass_of_passing passing]

theorem perform_highlight_of_stuck (react : Reaction) (line : Nat) :
    session.perform react (.highlight line) = (session, .failed (session.refusal line 1)) := by
  rw [perform_highlight, highlight_eq, guarded_pass_of_stuck stuck]
  rfl

theorem perform_stackAt_of_stuck (react : Reaction) (line : Nat) :
    session.perform react (.stackAt line) = (session, .failed (session.refusal line 0)) := by
  rw [perform_stackAt, stackAt_eq, guarded_pass_of_stuck stuck]
  rfl

/-- A session that is stuck takes note of no edit. -/
theorem perform_notice_of_stuck (react : Reaction) {request : Request}
    (notice : (noticed session.document session.cache request).isSome = true) :
    session.perform react request = (session, .failed session.editRefusal) := by
  obtain ⟨⟨cache, ranges⟩, noticing⟩ := Option.isSome_iff_exists.mp notice
  rw [perform_eq_of_noticed noticing, checkEditable_of_stuck stuck]

theorem perform_dispose_of_stuck (react : Reaction) :
    session.perform react .dispose = (session, .failed session.editRefusal) := by
  simp only [perform, dispose, checkEditable_of_stuck stuck, guarded, Answer.ofUnit]

end Stuck

/-- Whether the request can fail. -/
def Request.fallible : Request → Bool
  | .initialStack | .marker | .namedStyle _ | .replaceLine _ _ | .insertLine _ _ | .removeLine _
  | .describeText | .listen _ | .probe _ => false
  | _ => true

theorem fallible_of_scans {request : Request} {line : Nat}
    (scans : request ∈ [Request.highlight line, .stackAt line]) : request.fallible = true := by
  simp only [List.mem_cons, List.not_mem_nil, or_false] at scans
  rcases scans with rfl | rfl <;> rfl

/-- A disposed session refuses every request that can fail and keeps as it is. -/
theorem perform_of_disposed {session : Session} (disposed : session.disposed = true)
    (react : Reaction) {request : Request} (fallible : request.fallible = true) :
    session.perform react request = (session, .failed .disposed) := by
  have stuck : session.Stuck := .inl disposed
  have refused : session.checkAlive = .error .disposed := if_pos disposed
  have gone : session.editRefusal = .disposed := if_pos disposed
  have unread : ∀ line least, session.refusal line least = .disposed := by
    intro line least
    rw [refusal, refused]
    rfl
  cases request
  case highlight line => rw [perform_highlight_of_stuck stuck, unread]
  case stackAt line => rw [perform_stackAt_of_stuck stuck, unread]
  case dispose => rw [perform_dispose_of_stuck stuck, gone]
  case beginBatch => simp only [perform, beginBatch, refused, guarded, Answer.ofUnit]
  case endBatch => simp only [perform, endBatch, refused, guarded, Answer.ofUnit]
  all_goals first
    | rw [perform_notice_of_stuck stuck react rfl, gone]
    | cases fallible

/-- Whether the request changes the kept stacks, runs a pass of its own or ends the session. -/
def Request.disturbs (document : Document) : Request → Bool
  | .highlight line => 1 ≤ line && line ≤ document.lineCount
  | .stackAt line => line ≤ document.lineCount
  | .invalidate _ | .invalidateAll | .lineChanged _ | .lineInserted _ _ | .lineRemoved _ | .rebuild
  | .dispose | .setInitialStack _ => true
  | _ => false

/-- A running pass refuses the request and keeps the session as it is. -/
theorem perform_of_disturbs {session : Session} (passing : session.passing = true)
    (alive : session.disposed = false) (react : Reaction) {request : Request}
    (disturbs : request.disturbs session.document = true) :
    session.perform react request = (session, .failed .reentrant) := by
  have stuck : session.Stuck := .inr passing
  have reentrant : session.editRefusal = .reentrant := by rw [editRefusal, alive]; rfl
  cases request
  case highlight line =>
    simp only [Request.disturbs, Bool.and_eq_true, decide_eq_true_eq] at disturbs
    rw [perform_highlight_of_stuck stuck, refusal, check_of_inside alive disturbs.1 disturbs.2]
  case stackAt line =>
    have inside := of_decide_eq_true disturbs
    rw [perform_stackAt_of_stuck stuck, refusal, check_of_inside alive (Nat.zero_le line) inside]
  case dispose => rw [perform_dispose_of_stuck stuck, reentrant]
  all_goals first
    | rw [perform_notice_of_stuck stuck react rfl, reentrant]
    | cases disturbs

end Highlight.Session
