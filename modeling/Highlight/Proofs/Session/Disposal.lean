import Highlight.Languages.Toml
import Highlight.Proofs.Session.Refusal

/-! # The end of a session

A session that is disposed refuses every request that can fail and tells nobody of anything
(`Highlight.Session.perform_of_disposed`, `Highlight.Session.settles_perform`). If it is disposed by a script
of one of its listeners, deliveries are under way (`Highlight.Session.Disposes`), and what remains of them is
still carried out: those who have not been told yet are told. Nothing else is left of the session
(`Highlight.Session.disposed_for_good`).
-/

namespace Highlight.Session

/-- The listener and the range of lines that the event tells it of. -/
def Event.call? : Event → Option (Nat × Nat × Nat)
  | .delivered listener first last _ => some (listener, first, last)
  | .read _ _ => none

/-- The deliveries recorded so far, the earliest first. -/
def calls (session : Session) : List (Nat × Nat × Nat) := session.events.filterMap Event.call?

theorem runScript_fst (react : Reaction) (script : Script) (session : Session) :
    (runScript react script session).1 = session.performAll react script := by
  induction script generalizing session with
  | nil => rfl
  | cons request rest ih => exact ih (session.perform react request).1

theorem calls_record (session : Session) (event : Event) :
    (session.record event).calls = session.calls ++ event.call?.toList := by
  rw [calls, events, record, List.reverse_cons, List.filterMap_append]
  cases event <;> rfl

/-! ## Disposed sessions -/

/-- Whether deliveries are recorded and nothing else changes but the text, the listeners and the probe. -/
structure Settles (told : List (Nat × Nat × Nat)) (before after : Session) : Prop where
  grammar : after.grammar = before.grammar
  cache : after.cache = before.cache
  passing : after.passing = before.passing
  batching : after.batching = before.batching
  held : after.held = before.held
  disposed : after.disposed = before.disposed
  probing : after.probing = before.probing
  calls : after.calls = before.calls ++ told

namespace Settles

variable {told more : List (Nat × Nat × Nat)} {first second third : Session}

theorem refl (session : Session) : Settles [] session session :=
  ⟨rfl, rfl, rfl, rfl, rfl, rfl, rfl, (List.append_nil _).symm⟩

/-- Deliveries recorded one after another are recorded in this order. -/
theorem trans (near : Settles told first second) (far : Settles more second third) :
    Settles (told ++ more) first third where
  grammar := far.grammar.trans near.grammar
  cache := far.cache.trans near.cache
  passing := far.passing.trans near.passing
  batching := far.batching.trans near.batching
  held := far.held.trans near.held
  disposed := far.disposed.trans near.disposed
  probing := far.probing.trans near.probing
  calls := by rw [far.calls, near.calls, List.append_assoc]

end Settles

section Disposed

variable {session : Session} (disposed : session.disposed = true)
include disposed

/-- A session that is disposed records no delivery at a request. -/
theorem settles_perform (react : Reaction) (request : Request) :
    Settles [] session (session.perform react request).1 := by
  by_cases fallible : request.fallible = true
  · rw [perform_of_disposed disposed react fallible]
    exact .refl session
  · have nothing : session.calls = session.calls ++ [] := (List.append_nil _).symm
    have edits : ∀ edited, Settles [] session (session.edit edited).1 := by
      intro edited
      cases edited with
      | none => exact .refl session
      | some document => exact ⟨rfl, rfl, rfl, rfl, rfl, rfl, rfl, nothing⟩
    cases request
    case replaceLine line text => exact edits _
    case insertLine after text => exact edits _
    case removeLine line => exact edits _
    all_goals first
      | exact ⟨rfl, rfl, rfl, rfl, rfl, rfl, rfl, nothing⟩
      | exact absurd rfl fallible

theorem settles_performAll (react : Reaction) (requests : List Request) :
    Settles [] session (session.performAll react requests) := by
  induction requests generalizing session with
  | nil => exact .refl session
  | cons request rest ih =>
      have here := settles_perform disposed react request
      exact here.trans (ih (here.disposed.trans disposed))

theorem settles_reaction (depth : Nat) (script : Script) :
    Settles [] session (reaction depth script session).1 := by
  cases depth with
  | zero => exact .refl session
  | succ depth =>
      rw [reaction, runScript_fst]
      exact settles_performAll disposed _ script

/-- A listener whose turn it still is gets told. -/
theorem settles_deliver (depth first last : Nat) (listener : Listener) :
    Settles [(listener.number, first, last)] session
      (session.deliver (reaction depth) first last listener) := by
  have scripted := settles_reaction disposed depth listener.script
  refine { scripted with calls := ?_ }
  rw [deliver, calls_record, scripted.calls, List.append_nil]
  rfl

/-- The listeners still to be called are all told of the range, in their order. -/
theorem settles_foldl_deliver (depth first last : Nat) (listeners : List Listener) :
    Settles (listeners.map fun listener => (listener.number, first, last)) session
      (listeners.foldl (deliver (reaction depth) first last) session) := by
  induction listeners generalizing session with
  | nil => exact .refl session
  | cons listener rest ih =>
      have here := settles_deliver disposed depth first last listener
      exact here.trans (ih (here.disposed.trans disposed))

end Disposed

/-! ## How a session is disposed -/

/-- A range of lines of which some listeners have been told, while the script of one of them runs and the
others wait. -/
structure Underway where
  first : Nat
  last : Nat
  current : Listener
  waiting : List Listener

/-- What is still recorded of a delivery that is under way. -/
def Underway.calls (underway : Underway) : List (Nat × Nat × Nat) :=
  (underway.current :: underway.waiting).map fun listener =>
    (listener.number, underway.first, underway.last)

/-- Whether the request makes the session tell its listeners of a range of lines, and in which state it does
so. -/
inductive Fires : Request → Session → Session → Nat → Nat → Prop where
  | notice {request : Request} {session : Session} {cache : Cache} {first last : Nat}
      (alive : session.disposed = false) (idle : session.passing = false)
      (unbatched : session.batching = false)
      (noticing : noticed session.document session.cache request = some (cache, [(first, last)])) :
      Fires request session { session with cache := cache } first last
  | release {session : Session} {first last : Nat} (alive : session.disposed = false)
      (batching : session.batching = true) (held : session.held = some (first, last)) :
      Fires .endBatch session { session with batching := false, held := none } first last

/-- Whether a session is disposed while it carries out a request, what it is right after that, and which
deliveries are under way then, the innermost first. Either the request itself disposes the session, or a
request does in the script of a listener that is told of a range of lines. -/
inductive Disposes : Nat → Request → Session → Session → List Underway → Prop where
  | here {depth : Nat} {session : Session} (alive : session.disposed = false)
      (idle : session.passing = false) : Disposes depth .dispose session session.dispose.1 []
  | told {depth : Nat} {request inner : Request} {session prepared moment : Session}
      {first last : Nat} {called waiting : List Listener} {current : Listener}
      {before after : List Request} {underway : List Underway}
      (fires : Fires request session prepared first last)
      (listening : prepared.listeners = called ++ current :: waiting)
      (script : current.script = before ++ inner :: after)
      (nested : Disposes depth inner
        ((called.foldl (deliver (reaction (depth + 1)) first last)
          { prepared with listeners := [] }).performAll (reaction depth) before) moment underway) :
      Disposes (depth + 1) request session moment (underway ++ [⟨first, last, current, waiting⟩])

/-- A request takes note of an edit with one range at most. -/
theorem noticed_cases {session : Session} {request : Request} {cache : Cache}
    {ranges : List (Nat × Nat)}
    (noticing : noticed session.document session.cache request = some (cache, ranges)) :
    ranges = [] ∨ ∃ first last, ranges = [(first, last)] := by
  have one : ∀ line, lineRanges session.document line = [] ∨
      ∃ first last, lineRanges session.document line = [(first, last)] := by
    intro line
    rw [lineRanges]
    split
    · exact .inr ⟨line, line, rfl⟩
    · exact .inl rfl
  have all : allRanges session.document = [] ∨
      ∃ first last, allRanges session.document = [(first, last)] := .inr ⟨_, _, rfl⟩
  cases request <;> cases noticing <;> first | exact one _ | exact all

/-- A request that fires ranges over calling the listeners of the session prepared for it. -/
theorem Fires.perform_eq {request : Request} {session prepared : Session} {first last : Nat}
    (fires : Fires request session prepared first last) (react : Reaction) :
    (session.perform react request).1 = prepared.fire react first last := by
  cases fires with
  | notice alive idle unbatched noticing =>
      rw [perform_of_noticed alive idle noticing]
      exact if_neg (Bool.eq_false_iff.mp unbatched)
  | release alive batching held =>
      simp only [perform, endBatch, checkAlive_of_alive alive, guarded, batching, if_true, held]

theorem dispose_eq {session : Session} (alive : session.disposed = false)
    (idle : session.passing = false) :
    session.dispose =
      ({ session with disposed := true, listeners := [], cache := .starting .empty }, .ok ()) := by
  rw [dispose, checkEditable_eq_ok_iff.mpr ⟨alive, idle⟩]
  rfl

/-- From the moment at which a session is disposed only what is under way goes on. -/
theorem Disposes.settles {depth : Nat} {request : Request} {session moment : Session}
    {underway : List Underway} (disposes : Disposes depth request session moment underway) :
    moment.disposed = true ∧ moment.cache = .starting .empty ∧
      Settles (underway.flatMap Underway.calls) moment
        (session.perform (reaction depth) request).1 := by
  induction disposes with
  | @here depth session alive idle =>
      have same : (session.perform (reaction depth) .dispose).1 = session.dispose.1 := rfl
      rw [same, dispose_eq alive idle]
      exact ⟨rfl, rfl, .refl _⟩
  | @told depth request inner session prepared moment first last called waiting current before after
      underway fires listening script nested ih =>
      obtain ⟨disposed, cache, settles⟩ := ih
      refine ⟨disposed, cache, ?_⟩
      rw [fires.perform_eq, fire, listening, List.foldl_append, List.foldl_cons]
      generalize called.foldl (deliver (reaction (depth + 1)) first last)
        { prepared with listeners := [] } = turn at settles
      have scripted : (reaction (depth + 1) current.script turn).1 =
          ((turn.performAll (reaction depth) before).perform (reaction depth)
            inner).1.performAll (reaction depth) after := by
        rw [reaction, runScript_fst, script, performAll_append]
        rfl
      have ended := settles.trans
        (settles_performAll (settles.disposed.trans disposed) (reaction depth) after)
      rw [← scripted, List.append_nil] at ended
      have delivered : Settles (underway.flatMap Underway.calls ++ [(current.number, first, last)])
          moment (turn.deliver (reaction (depth + 1)) first last current) := by
        refine { ended with calls := ?_ }
        rw [deliver, calls_record, ended.calls, List.append_assoc]
        rfl
      have others := delivered.trans
        (settles_foldl_deliver (delivered.disposed.trans disposed) (depth + 1) first last waiting)
      have told : (underway ++ [Underway.mk first last current waiting]).flatMap Underway.calls =
          underway.flatMap Underway.calls ++ [(current.number, first, last)] ++
            waiting.map fun listener => (listener.number, first, last) := by
        rw [List.flatMap_append, List.flatMap_singleton, List.append_assoc]
        rfl
      rw [told]
      exact { others with }

/-! ## No other way -/

/-- Whether a running pass goes on and the session is not disposed. -/
def Running (before after : Session) : Prop :=
  before.disposed = false → before.passing = true → after.disposed = false ∧ after.passing = true

theorem Running.trans {first second third : Session} (near : Running first second)
    (far : Running second third) : Running first third := by
  intro alive passing
  obtain ⟨still, running⟩ := near alive passing
  exact far still running

theorem running_of_eq {before after : Session} (disposed : after.disposed = before.disposed)
    (passing : after.passing = before.passing) : Running before after :=
  fun alive running => ⟨disposed.trans alive, passing.trans running⟩

theorem running_of_idle {before after : Session} (idle : before.passing = false) :
    Running before after :=
  fun _ running => absurd running (Bool.eq_false_iff.mp idle)

/-- Nothing that happens during a pass disposes the session. -/
theorem lasting_running : Lasting Running where
  refl _ := running_of_eq rfl rfl
  trans := Running.trans
  working same _ _ := by
    rw [same]
    exact running_of_eq rfl rfl
  enclose idle _ := running_of_idle idle
  probed _ _ _ inside := inside
  listen _ _ := running_of_eq rfl rfl
  discard _ _ idle := running_of_idle idle
  fire keeps :=
    Keeps.fire (fun _ => running_of_eq rfl rfl) Running.trans keeps
      (fun _ _ _ _ _ => running_of_eq rfl rfl) fun _ _ => running_of_eq rfl rfl

section Alive

variable {session : Session} (alive : session.disposed = false)
include alive

/-- A request that is checked first disposes of nothing if what it does does not. -/
theorem alive_of_guarded {Result : Type} (check : Except Failure Unit)
    {action : Session → Session × Except Failure Result}
    (acts : (action session).1.disposed = false) :
    (guarded check session action).1.disposed = false := by
  unfold guarded
  split
  · exact alive
  · exact acts

/-- No pass disposes of the session, since its guard is up until it ends. -/
theorem alive_of_pass {Result : Type} {react : Reaction} (keeps : Keeps Running react)
    {action : Session → Session × List Nat × Except Failure Result}
    (acts : ∀ session, Running session (action session).1) :
    (session.pass react action).1.disposed = false := by
  rw [pass]
  split
  · exact alive
  · have acted := acts { session with passing := true }
    exact (acted.trans (lasting_running.notifyEach keeps _ _) alive rfl).1

theorem alive_of_highlight (depth line : Nat) :
    (session.perform (reaction depth) (.highlight line)).1.disposed = false := by
  have keeps := lasting_running.reaction depth
  rw [perform_highlight, highlight_eq]
  apply alive_of_guarded alive
  exact alive_of_pass alive keeps fun session => lasting_running.highlighting keeps session line

theorem alive_of_stackAt (depth line : Nat) :
    (session.perform (reaction depth) (.stackAt line)).1.disposed = false := by
  have keeps := lasting_running.reaction depth
  rw [perform_stackAt, stackAt_eq]
  apply alive_of_guarded alive
  exact alive_of_pass alive keeps fun session => lasting_running.tracing keeps session line

/-- A notice disposes the session only by what it tells the listeners. -/
theorem fires_of_noticed {react : Reaction} {request : Request} {cache : Cache}
    {ranges : List (Nat × Nat)}
    (noticing : noticed session.document session.cache request = some (cache, ranges))
    (disposed : (session.perform react request).1.disposed = true) :
    ∃ prepared first last, Fires request session prepared first last := by
  cases idle : session.passing with
  | true =>
      rw [perform_notice_of_stuck (.inr idle) react (by rw [noticing]; rfl), alive] at disposed
      cases disposed
  | false =>
      rw [perform_of_noticed alive idle noticing] at disposed
      rcases noticed_cases noticing with rfl | ⟨first, last, rfl⟩
      · exact absurd disposed (Bool.eq_false_iff.mp alive)
      · cases batching : session.batching with
        | true =>
            have held : ({ session with cache := cache }.notifyRanges react
                [(first, last)]).disposed = session.disposed := by
              rw [notifyRanges, List.foldl_cons, List.foldl_nil, notify, if_pos batching]
            rw [held, alive] at disposed
            cases disposed
        | false => exact ⟨_, first, last, .notice alive idle batching noticing⟩

/-- The end of a batch disposes of the session only while it tells the listeners of what was held back. -/
theorem fires_of_endBatch {react : Reaction}
    (disposed : (session.perform react .endBatch).1.disposed = true) :
    ∃ prepared first last, Fires .endBatch session prepared first last := by
  have answers : (session.perform react .endBatch).1 = (session.endBatch react).1 := rfl
  rw [answers, endBatch, checkAlive_of_alive alive, guarded] at disposed
  cases batching : session.batching with
  | false =>
      rw [batching, if_neg Bool.false_ne_true, alive] at disposed
      cases disposed
  | true =>
      cases held : session.held with
      | none =>
          rw [batching, if_pos rfl, held] at disposed
          exact absurd disposed (Bool.eq_false_iff.mp alive)
      | some range => exact ⟨_, range.1, range.2, .release alive batching held⟩

/-- A request that disposes the session does so itself or by what it tells the listeners. -/
theorem dispose_or_fires {depth : Nat} {request : Request}
    (disposed : (session.perform (reaction depth) request).1.disposed = true) :
    (request = .dispose ∧ session.passing = false) ∨
      ∃ prepared first last, Fires request session prepared first last := by
  have still : ∀ edited, (session.edit edited).1.disposed = false := by
    intro edited
    cases edited <;> exact alive
  cases request
  case highlight line =>
    exact absurd disposed (Bool.eq_false_iff.mp (alive_of_highlight alive depth line))
  case stackAt line =>
    exact absurd disposed (Bool.eq_false_iff.mp (alive_of_stackAt alive depth line))
  case dispose =>
    cases idle : session.passing with
    | false => exact .inl ⟨rfl, rfl⟩
    | true =>
        rw [perform_dispose_of_stuck (.inr idle), alive] at disposed
        cases disposed
  case endBatch => exact .inr (fires_of_endBatch alive disposed)
  case beginBatch =>
    have begun : session.beginBatch.1.disposed = false := by
      apply alive_of_guarded alive
      split <;> exact alive
    exact absurd disposed (Bool.eq_false_iff.mp begun)
  case replaceLine line text => exact absurd disposed (Bool.eq_false_iff.mp (still _))
  case insertLine after text => exact absurd disposed (Bool.eq_false_iff.mp (still _))
  case removeLine line => exact absurd disposed (Bool.eq_false_iff.mp (still _))
  all_goals first
    | exact .inr (fires_of_noticed alive rfl disposed)
    | exact absurd disposed (Bool.eq_false_iff.mp alive)

/-- Acts one after another that end up disposing the session have a first one that does. -/
theorem exists_disposing {Act : Type} {act : Session → Act → Session} {acts : List Act}
    (disposed : (acts.foldl act session).disposed = true) :
    ∃ before last after, acts = before ++ last :: after ∧
      (before.foldl act session).disposed = false ∧
      (act (before.foldl act session) last).disposed = true := by
  induction acts generalizing session with
  | nil => exact absurd disposed (Bool.eq_false_iff.mp alive)
  | cons first rest ih =>
      cases here : (act session first).disposed with
      | true => exact ⟨[], first, rest, rfl, alive, here⟩
      | false =>
          obtain ⟨before, last, after, split, still, ends⟩ := ih here disposed
          exact ⟨first :: before, last, after, congrArg (first :: ·) split, still, ends⟩

end Alive

/-- If telling the listeners disposes of the session, it is disposed in the turn of one of them, and the
ones after it are still waiting then. -/
theorem Fires.exists_turn {react : Reaction} {request : Request} {session prepared : Session}
    {first last : Nat} (fires : Fires request session prepared first last)
    (disposed : (session.perform react request).1.disposed = true) :
    ∃ called current waiting, prepared.listeners = called ++ current :: waiting ∧
      (called.foldl (deliver react first last) { prepared with listeners := [] }).disposed = false ∧
      (react current.script
        (called.foldl (deliver react first last) { prepared with listeners := [] })).1.disposed =
          true := by
  have alive : { prepared with listeners := [] }.disposed = false := by
    cases fires with
    | notice alive idle unbatched noticing => exact alive
    | release alive batching held => exact alive
  rw [fires.perform_eq, fire] at disposed
  exact exists_disposing alive disposed

/-- A session is disposed in no other way. -/
theorem exists_disposes {session : Session} (alive : session.disposed = false) {depth : Nat}
    {request : Request} (disposed : (session.perform (reaction depth) request).1.disposed = true) :
    ∃ moment underway, Disposes depth request session moment underway := by
  induction depth generalizing session request with
  | zero =>
      rcases dispose_or_fires alive disposed with ⟨rfl, idle⟩ | ⟨prepared, first, last, fires⟩
      · exact ⟨_, [], .here alive idle⟩
      · -- Scripts at this depth make no requests.
        obtain ⟨_, _, _, _, still, ends⟩ := fires.exists_turn disposed
        exact absurd ends (Bool.eq_false_iff.mp still)
  | succ depth ih =>
      rcases dispose_or_fires alive disposed with ⟨rfl, idle⟩ | ⟨prepared, first, last, fires⟩
      · exact ⟨_, [], .here alive idle⟩
      · obtain ⟨called, current, waiting, listening, turn, ends⟩ := fires.exists_turn disposed
        rw [reaction, runScript_fst] at ends
        obtain ⟨before, inner, after, script, still, nested⟩ := exists_disposing turn ends
        obtain ⟨moment, underway, disposes⟩ := ih still nested
        exact ⟨moment, _, .told fires listening script disposes⟩

namespace Disposes

variable {request : Request} {session moment : Session} {underway : List Underway}

/-- Nothing is under way where the session is not disposed by a script. -/
theorem underway_eq_nil {depth : Nat} (disposes : Disposes depth .dispose session moment underway) :
    underway = [] := by
  cases disposes with
  | here alive idle => rfl
  | told fires listening script nested =>
      cases fires with
      | notice alive idle unbatched noticing => cases noticing

/-- Requests that follow on the disposal add nothing to the deliveries under way. -/
theorem settles_performAll {depth : Nat} (disposes : Disposes depth request session moment underway)
    (after : List Request) :
    Settles (underway.flatMap Underway.calls) moment
      ((session.perform (reaction depth) request).1.performAll (reaction depth) after) := by
  obtain ⟨disposed, _, settles⟩ := disposes.settles
  have rest := Session.settles_performAll (settles.disposed.trans disposed) (reaction depth) after
  rw [← List.append_nil (underway.flatMap _)]
  exact settles.trans rest

end Disposes

/-- **Disposal.** Let requests be made of a session that is not disposed, while scripts may cause one another
to some depth. It ends up disposed just if one
of them disposes it, be it itself or in the script of a listener that is told of something outside of a
pass. From this moment on the marker is 1, the initial stack is empty, and a batch goes on if there is one.
No listener is told of anything any more, but for the deliveries under way at the moment, which go on; there
are none if it is no script that disposes the session. Every request that can fail is refused. -/
theorem disposed_for_good {session : Session} (alive : session.disposed = false) (depth : Nat)
    (requests : List Request) :
    let last := session.performAll (reaction depth) requests
    (last.disposed = true ↔ ∃ before request after moment underway,
      requests = before ++ request :: after ∧
        Disposes depth request (session.performAll (reaction depth) before) moment underway) ∧
    (∀ before request after moment underway, requests = before ++ request :: after →
      Disposes depth request (session.performAll (reaction depth) before) moment underway →
      moment.marker = 1 ∧ moment.cache.stackAt 0 = .empty ∧ moment.disposed = true ∧
        (request = .dispose → underway = []) ∧
        Settles (underway.flatMap Underway.calls) moment last) ∧
    ∀ later : Session, later.disposed = true → ∀ depth request,
      Settles [] later (later.perform (reaction depth) request).1 ∧
      (request.fallible = true →
        later.perform (reaction depth) request = (later, .failed .disposed)) := by
  intro last
  have settles : ∀ before request after moment underway, requests = before ++ request :: after →
      Disposes depth request (session.performAll (reaction depth) before) moment underway →
      Settles (underway.flatMap Underway.calls) moment last := by
    rintro before request after moment underway rfl disposes
    have whole : last = (session.performAll (reaction depth) before).performAll (reaction depth)
        (request :: after) := performAll_append _ before (request :: after) session
    rw [whole]
    exact disposes.settles_performAll after
  refine ⟨⟨fun disposed => ?_, ?_⟩, ?_, fun later disposed depth request => ⟨?_, ?_⟩⟩
  · obtain ⟨before, request, after, split, still, ends⟩ := exists_disposing alive disposed
    obtain ⟨moment, underway, disposes⟩ := exists_disposes still ends
    exact ⟨before, request, after, moment, underway, split, disposes⟩
  · rintro ⟨before, request, after, moment, underway, split, disposes⟩
    exact (settles before request after moment underway split disposes).disposed.trans
      disposes.settles.1
  · intro before request after moment underway split disposes
    obtain ⟨disposed, cache, _⟩ := disposes.settles
    refine ⟨congrArg Cache.stale cache, ?_, disposed, ?_, settles _ _ _ _ _ split disposes⟩
    · rw [cache]
      rfl
    · rintro rfl
      exact disposes.underway_eq_nil
  · exact settles_perform disposed _ request
  · exact perform_of_disposed disposed _

/-- A listener begins a batch and disposes the session while another one waits to be told of the same. The
batch goes on, and its end is refused. -/
theorem disposed_for_good_in_batch :
    let session := (start (Languages.Toml.grammar .standard) (.ofLines ["a"])).handleAll
      [.listen [.beginBatch, .dispose], .listen []]
    let last := session.handleAll [.invalidate 1, .endBatch]
    session.disposed = false ∧
      (∃ moment, Disposes nestingLimit (.invalidate 1) session moment
        [⟨1, 1, ⟨0, [.beginBatch, .dispose]⟩, [⟨1, []⟩]⟩] ∧ moment.calls = [] ∧
          last.calls = moment.calls ++ [(0, 1, 1), (1, 1, 1)]) ∧
      last.batching = true ∧ last.handle .endBatch = (last, .failed .disposed) := by
  intro session last
  have alive : session.disposed = false := by decide +kernel
  have disposes : ∃ moment, Disposes nestingLimit (.invalidate 1) session moment
      [⟨1, 1, ⟨0, [.beginBatch, .dispose]⟩, [⟨1, []⟩]⟩] ∧ moment.calls = [] ∧
        moment.batching = true := by
    have listening : session.listeners = [] ++ ⟨0, [.beginBatch, .dispose]⟩ :: [⟨1, []⟩] := rfl
    have script : [Request.beginBatch, .dispose] = [.beginBatch] ++ .dispose :: [] := rfl
    exact ⟨_, .told (.notice rfl rfl rfl rfl) listening script (.here rfl rfl), rfl, rfl⟩
  obtain ⟨moment, disposing, untold, batching⟩ := disposes
  obtain ⟨⟨_, disposed⟩, later, refused⟩ := disposed_for_good alive nestingLimit [.invalidate 1, .endBatch]
  obtain ⟨_, _, _, _, settles⟩ := later [] (.invalidate 1) [.endBatch] moment _ rfl disposing
  have ended := disposed ⟨[], .invalidate 1, [.endBatch], moment, _, rfl, disposing⟩
  exact ⟨alive, ⟨moment, disposing, untold, settles.calls⟩, settles.batching.trans batching,
    (refused last ended nestingLimit .endBatch).2 rfl⟩

/-- A session is disposed by the first of two listeners, and yet the second one is told afterwards: its own
request is refused as one to a session that is disposed. -/
theorem told_after_disposal :
    let session := (start (Languages.Toml.grammar .standard) (.ofLines ["a"])).handleAll
      [.listen [.dispose], .listen [.highlight 1]]
    (session.handle (.invalidate 1)).1.disposed = true ∧
      (session.handle (.invalidate 1)).1.events =
        [.delivered 0 1 1 [.done], .delivered 1 1 1 [.failed .disposed]] := by
  decide +kernel

end Highlight.Session
