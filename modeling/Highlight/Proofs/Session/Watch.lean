import Highlight.Proofs.Session.Shelter
import Highlight.Proofs.Session.Steady

/-! # Watching a pass

A probe records each line that a pass reads. While the pass runs no script changes what has been read or kept
(`Highlight.Session.steady_undisturbed`), and unless a script takes the probe away every line that is read is
recorded, once and in its turn (`Highlight.Session.exists_readLine_eq`).
-/

namespace Highlight.Session

/-- Whether a pass is running whose listeners and probe request only what is allowed. -/
structure Attended (allows : Request → Bool) (session : Session) : Prop where
  passing : session.passing = true
  alive : session.disposed = false
  listeners : ∀ listener ∈ session.listeners, everyRequest allows listener.script = true
  probe : ∀ script ∈ session.probe, everyRequest allows script = true

/-- Whether a running pass goes on and finds what it has read and kept as it was, and its probe still set
unless scripts may take it away. -/
structure Undisturbed (allows : Request → Bool) (before after : Session) : Prop where
  attended : after.Attended allows
  grammar : after.grammar = before.grammar
  cache : after.cache = before.cache
  probing : after.probing = before.probing
  linesRead : after.linesRead = before.linesRead
  probed : allows (.probe none) = false → before.probe.isSome = true → after.probe.isSome = true

/-- No script disturbs a running pass. -/
theorem steady_undisturbed (allows : Request → Bool) :
    Steady allows (Attended allows) (Undisturbed allows) where
  trans near far :=
    { attended := far.attended
      grammar := far.grammar.trans near.grammar
      cache := far.cache.trans near.cache
      probing := far.probing.trans near.probing
      linesRead := far.linesRead.trans near.linesRead
      probed := fun kept probed => far.probed kept (near.probed kept probed) }
  kept near := near.attended
  listeners attended := attended.listeners
  noting := by
    intro before after attended same every unread
    rw [same] at unread ⊢
    exact ⟨⟨attended.passing, attended.alive, every, attended.probe⟩, rfl, rfl, rfl, unread,
      fun _ probed => probed⟩
  probe := by
    intro session script attended every
    have allowed := allows_of_every every
    cases script with
    | none =>
        refine ⟨⟨attended.passing, attended.alive, attended.listeners, nofun⟩, rfl, rfl, rfl, rfl,
          fun kept => ?_⟩
        rw [kept] at allowed
        contradiction
    | some script =>
        rw [Request.every, Bool.and_eq_true] at every
        refine ⟨⟨attended.passing, attended.alive, attended.listeners, fun inner member => ?_⟩, rfl,
          rfl, rfl, rfl, fun _ _ => rfl⟩
        rw [← Option.some.inj member]
        exact every.2
  lower attended free := absurd (.inr attended.passing) free
  discard attended free := absurd (.inr attended.passing) free
  scan attended free := absurd (.inr attended.passing) free

mutual

/-- Where everything is allowed, so is every request with all that it sets up. -/
theorem every_of_forall {allows : Request → Bool} (all : ∀ request, allows request = true) :
    ∀ request : Request, request.every allows = true
  | .listen script => by rw [Request.every, all, everyRequest_of_forall all script]; rfl
  | .probe (some script) => by rw [Request.every, all, everyRequest_of_forall all script]; rfl
  | .probe none | .highlight _ | .stackAt _ | .invalidate _ | .invalidateAll | .lineChanged _
  | .lineInserted _ _ | .lineRemoved _ | .rebuild | .beginBatch | .endBatch | .dispose
  | .setInitialStack _ | .initialStack | .marker | .namedStyle _ | .replaceLine _ _
  | .insertLine _ _ | .removeLine _ | .describeText => all _

theorem everyRequest_of_forall {allows : Request → Bool} (all : ∀ request, allows request = true) :
    ∀ script : Script, everyRequest allows script = true
  | [] => rfl
  | request :: rest => by
      rw [everyRequest, every_of_forall all request, everyRequest_of_forall all rest]; rfl

end

/-- Anything that scripts may request. -/
def anything (_ : Request) : Bool := true

theorem attended_of_passing {session : Session} (passing : session.passing = true)
    (alive : session.disposed = false) : session.Attended anything :=
  ⟨passing, alive, fun _ _ => everyRequest_of_forall (fun _ => rfl) _,
    fun _ _ => everyRequest_of_forall (fun _ => rfl) _⟩

/-! ## Lines read under a probe -/

/-- Whether the request does not take the probe away. -/
def Request.keepsProbe : Request → Bool
  | .probe none => false
  | _ => true

/-- Whether no script of a listener or of the probe takes the probe away. -/
structure KeepsProbe (session : Session) : Prop where
  listeners : ∀ listener ∈ session.listeners,
    everyRequest Request.keepsProbe listener.script = true
  probe : ∀ script ∈ session.probe, everyRequest Request.keepsProbe script = true

/-- Whether the lines that a pass reads are recorded: a probe is set whose script is empty, or which no
script takes away. -/
structure Recording (session : Session) : Prop where
  unread : session.probing = false
  probed : session.probe.isSome = true
  kept : session.probe = some [] ∨ session.KeepsProbe

/-- What has become of a session in a pass that has read some lines. -/
structure Advanced (before : Session) (lines : List Nat) (after : Session) : Prop where
  passing : after.passing = true
  alive : after.disposed = false
  grammar : after.grammar = before.grammar
  recorded : before.Recording → after.Recording ∧ after.linesRead = before.linesRead ++ lines
  spared : before.SparesText → after.SparesText ∧ after.document = before.document

/-- A pass that has read some lines and then others has read them all, in this order. -/
theorem Advanced.trans {first second third : Session} {near far : List Nat}
    (sooner : Advanced first near second) (later : Advanced second far third) :
    Advanced first (near ++ far) third where
  passing := later.passing
  alive := later.alive
  grammar := later.grammar.trans sooner.grammar
  recorded := by
    intro recording
    obtain ⟨still, read⟩ := sooner.recorded recording
    obtain ⟨last, readLater⟩ := later.recorded still
    exact ⟨last, by rw [readLater, read, List.append_assoc]⟩
  spared := by
    intro spares
    obtain ⟨still, same⟩ := sooner.spared spares
    obtain ⟨last, sameLater⟩ := later.spared still
    exact ⟨last, sameLater.trans same⟩

/-- Keeping stacks reads no line. -/
theorem Advanced.storing {before after : Session} {lines : List Nat}
    (advanced : Advanced before lines after) (cache : Cache) :
    Advanced before lines { after with cache := cache } where
  passing := advanced.passing
  alive := advanced.alive
  grammar := advanced.grammar
  recorded recording :=
    have ⟨still, read⟩ := advanced.recorded recording
    ⟨⟨still.unread, still.probed, still.kept.imp_right fun keeps => ⟨keeps.listeners, keeps.probe⟩⟩,
      read⟩
  spared spares :=
    have ⟨still, same⟩ := advanced.spared spares
    ⟨⟨still.listeners, still.probe⟩, same⟩

theorem advanced_nil {session : Session} (passing : session.passing = true)
    (alive : session.disposed = false) : Advanced session [] session :=
  ⟨passing, alive, rfl, fun recording => ⟨recording, (List.append_nil _).symm⟩,
    fun spares => ⟨spares, rfl⟩⟩

section Reading

variable {session : Session} (passing : session.passing = true) (alive : session.disposed = false)
include passing alive

/-- The script of a probe leaves the recording on. -/
theorem Recording.acted (recording : session.Recording) (depth : Nat) {script : Script}
    (probe : session.probe = some script) :
    ((reaction depth script { session with probing := true }).1.probe.isSome = true ∧
      ((reaction depth script { session with probing := true }).1.probe = some [] ∨
        (reaction depth script { session with probing := true }).1.KeepsProbe)) := by
  rcases recording.kept with silent | keeps
  · have empty : script = [] := Option.some.inj (probe.symm.trans silent)
    rw [empty, reaction_nil]
    exact ⟨recording.probed, .inl silent⟩
  · have attended : { session with probing := true }.Attended Request.keepsProbe :=
      ⟨passing, alive, keeps.listeners, keeps.probe⟩
    have acted := (steady_undisturbed Request.keepsProbe).reaction depth script _
      (keeps.probe script probe) attended
    exact ⟨acted.probed rfl recording.probed,
      .inr ⟨acted.attended.listeners, acted.attended.probe⟩⟩

/-- **Reading a line.** Whatever the script of the probe does, the pass goes on with what it has kept, and
the line is recorded behind those read before. -/
theorem exists_readLine_eq (depth line : Nat) :
    ∃ after text, session.readLine (reaction depth) line = (after, text) ∧
      Advanced session [line] after ∧ after.cache = session.cache ∧
      (session.SparesText → text = session.document.line line) := by
  have spared : session.SparesText → ∃ after,
      session.readLine (reaction depth) line = (after, session.document.line line) ∧
        after.SparesText ∧ after.document = session.document := by
    intro spares
    obtain ⟨_, after, reads, shelters⟩ :=
      (sheltering_reaction depth).readLine line ⟨passing, alive, spares⟩
    exact ⟨after, reads, shelters.sheltered.spares, shelters.document⟩
  rcases session.readLine_eq line with ⟨off, reads⟩ | ⟨script, probe, reads⟩
  · refine ⟨session, _, reads _, ⟨passing, alive, rfl, fun recording => ?_,
      fun spares => ⟨spares, rfl⟩⟩, rfl, fun _ => rfl⟩
    have unread := recording.unread
    have probed := recording.probed
    rcases off with absent | probing
    · rw [absent] at probed
      contradiction
    · rw [probing] at unread
      contradiction
  · have opened : { session with probing := true }.Attended anything :=
      attended_of_passing passing alive
    have acted := (steady_undisturbed anything).reaction depth script _
      (everyRequest_of_forall (fun _ => rfl) script) opened
    have recorded := fun recording : session.Recording =>
      recording.acted passing alive depth probe
    rw [reads] at spared ⊢
    generalize reaction depth script { session with probing := true } = outcome
      at acted recorded spared
    refine ⟨(probed line outcome).1, (probed line outcome).2, rfl,
      ⟨acted.attended.passing, acted.attended.alive, acted.grammar, ?_, ?_⟩, acted.cache, ?_⟩
    · intro recording
      obtain ⟨still, kept⟩ := recorded recording
      refine ⟨⟨rfl, still, kept.imp_right fun keeps => ⟨keeps.listeners, keeps.probe⟩⟩, ?_⟩
      rw [probed, linesRead_record]
      exact congrArg (· ++ [line]) acted.linesRead
    · intro spares
      obtain ⟨after, same, still⟩ := spared spares
      rw [same]
      exact still
    · intro spares
      obtain ⟨after, same, _⟩ := spared spares
      rw [same]

end Reading

end Highlight.Session
