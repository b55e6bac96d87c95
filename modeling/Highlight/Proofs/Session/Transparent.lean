import Highlight.Proofs.Session.Batch
import Highlight.Proofs.Session.Lasting
import Highlight.Proofs.Session.Refusal

/-! # Batches are transparent

A batch changes nothing but when listeners are told. Two runs of the same requests, one of them in a batch,
answer the same and keep the same text and stacks, and the range that the batch holds back is the smallest
one that covers the ranges of which the other run tells at once (`Highlight.Session.Bracketed.handle`).
-/

namespace Highlight.Session

/-! ## Ranges -/

/-- The smallest range that covers several ranges, if there are any. -/
def hull (ranges : List (Nat × Nat)) : Option (Nat × Nat) := do
  return (← (ranges.map Prod.fst).min?, ← (ranges.map Prod.snd).max?)

theorem widenAll_some (first last : Nat) (ranges : List (Nat × Nat)) :
    widenAll (some (first, last)) ranges =
      some ((ranges.map Prod.fst).foldl min first, (ranges.map Prod.snd).foldl max last) := by
  induction ranges generalizing first last with
  | nil => rfl
  | cons range rest ih => exact ih (min first range.1) (max last range.2)

/-- What a batch holds back is the hull of the ranges of its notices. -/
theorem widenAll_eq_hull (ranges : List (Nat × Nat)) : widenAll none ranges = hull ranges := by
  cases ranges with
  | nil => rfl
  | cons range rest => exact widenAll_some range.1 range.2 rest

theorem widenAll_append (held : Option (Nat × Nat)) (ranges more : List (Nat × Nat)) :
    widenAll held (ranges ++ more) = widenAll (widenAll held ranges) more :=
  List.foldl_append

/-! ## Requests that are work -/

/-- Whether the request neither begins or ends a batch, nor sets up a script, nor ends the session. -/
def Request.isWork : Request → Bool
  | .beginBatch | .endBatch | .dispose | .listen _ | .probe _ => false
  | _ => true

/-- Whether the event is a delivery to a listener. -/
def Event.isDelivery : Event → Bool
  | .delivered _ _ _ _ => true
  | .read _ _ => false

/-- The deliveries recorded so far, the earliest first. -/
def told (session : Session) : List Event := session.events.filter Event.isDelivery

theorem told_append (session : Session) (log : List Event) :
    { session with log := log ++ session.log }.told =
      session.told ++ (log.filter Event.isDelivery).reverse := by
  simp only [told, events, List.reverse_append, List.filter_append, List.filter_reverse]

theorem filter_deliveries (listeners : List Listener) (first last : Nat) :
    (deliveries listeners first last).filter Event.isDelivery = deliveries listeners first last := by
  refine List.filter_eq_self.mpr fun event member => ?_
  obtain ⟨listener, _, rfl⟩ := List.mem_map.mp member
  rfl

/-- Whether the request does the same, and no more than edit the text, whatever the batch and the log hold. -/
def Edits (request : Request) (session : Session) : Prop :=
  ∃ document answer, ∀ react batching held log,
    { session with batching := batching, held := held, log := log }.perform react request =
      ({ session with document := document, batching := batching, held := held, log := log }, answer)

/-- An edit answers and changes the text as it does whatever the batch and the log hold. -/
theorem exists_edit_eq (session : Session) (edited : Option Document) :
    ∃ document answer, ∀ batching held log,
      { session with batching := batching, held := held, log := log }.edit edited =
        ({ session with document := document, batching := batching, held := held, log := log },
          answer) := by
  cases edited with
  | none => exact ⟨session.document, .flag false, fun _ _ _ => rfl⟩
  | some document => exact ⟨document, .flag true, fun _ _ _ => rfl⟩

/-- Work scans a line, gives notice or at most edits the text. -/
theorem Request.work_cases {request : Request} (work : request.isWork = true) (session : Session) :
    (∃ line, request ∈ [highlight line, stackAt line]) ∨
      (noticed session.document session.cache request).isSome = true ∨ session.Edits request := by
  cases request with
  | highlight line => exact .inl ⟨line, List.mem_cons_self⟩
  | stackAt line => exact .inl ⟨line, List.mem_cons_of_mem _ List.mem_cons_self⟩
  | invalidate line => exact .inr (.inl rfl)
  | invalidateAll => exact .inr (.inl rfl)
  | lineChanged line => exact .inr (.inl rfl)
  | lineInserted after inserted => exact .inr (.inl rfl)
  | lineRemoved line => exact .inr (.inl rfl)
  | rebuild => exact .inr (.inl rfl)
  | setInitialStack stack => exact .inr (.inl rfl)
  | replaceLine line text =>
      obtain ⟨document, answer, same⟩ :=
        session.exists_edit_eq (session.document.replaceLine? line text)
      exact .inr (.inr ⟨document, answer, fun _ => same⟩)
  | insertLine after text =>
      obtain ⟨document, answer, same⟩ :=
        session.exists_edit_eq (session.document.insertLine? after text)
      exact .inr (.inr ⟨document, answer, fun _ => same⟩)
  | removeLine line =>
      obtain ⟨document, answer, same⟩ := session.exists_edit_eq (session.document.removeLine? line)
      exact .inr (.inr ⟨document, answer, fun _ => same⟩)
  | initialStack =>
      exact .inr (.inr ⟨session.document, .stack (session.cache.stackAt 0), fun _ _ _ _ => rfl⟩)
  | marker => exact .inr (.inr ⟨session.document, .number session.marker, fun _ _ _ _ => rfl⟩)
  | namedStyle name =>
      exact .inr (.inr ⟨session.document, .style (session.grammar.namedStyle? name),
        fun _ _ _ _ => rfl⟩)
  | describeText =>
      exact .inr (.inr ⟨session.document, (session.perform (reaction 0) .describeText).2,
        fun _ _ _ _ => rfl⟩)
  | beginBatch => cases work
  | endBatch => cases work
  | dispose => cases work
  | listen script => cases work
  | probe script => cases work

section Stuck

variable {session : Session} (stuck : session.Stuck)
include stuck

/-- A session that is stuck at most edits the text at a request that is work. -/
theorem edits_of_stuck {request : Request} (work : request.isWork = true) : session.Edits request := by
  have still : ∀ batching held log,
      { session with batching := batching, held := held, log := log }.Stuck := fun _ _ _ => stuck
  rcases request.work_cases work session with ⟨line, scans⟩ | notice | edits
  · simp only [List.mem_cons, List.not_mem_nil, or_false] at scans
    rcases scans with rfl | rfl
    · exact ⟨session.document, .failed (session.refusal line 1), fun react _ _ _ =>
        perform_highlight_of_stuck (still _ _ _) react line⟩
    · exact ⟨session.document, .failed (session.refusal line 0), fun react _ _ _ =>
        perform_stackAt_of_stuck (still _ _ _) react line⟩
  · exact ⟨session.document, .failed session.editRefusal, fun react _ _ _ =>
      perform_notice_of_stuck (still _ _ _) react notice⟩
  · exact edits

/-- A script of a session that is stuck edits the text at most if all its requests are work. -/
theorem exists_reaction_of_stuck (depth : Nat) {script : Script}
    (work : ∀ request ∈ script, request.isWork = true) :
    ∃ document answers, ∀ batching held log,
      reaction depth script { session with batching := batching, held := held, log := log } =
        ({ session with document := document, batching := batching, held := held, log := log },
          answers) := by
  cases depth with
  | zero => exact ⟨session.document, [], fun _ _ _ => rfl⟩
  | succ depth =>
      induction script generalizing session with
      | nil => exact ⟨session.document, [], fun _ _ _ => rfl⟩
      | cons request rest ih =>
          obtain ⟨here, later⟩ := List.forall_mem_cons.mp work
          obtain ⟨document, answer, performs⟩ := edits_of_stuck stuck here
          obtain ⟨last, answers, runs⟩ := @ih { session with document := document } stuck later
          refine ⟨last, answer :: answers, fun batching held log => ?_⟩
          rw [reaction, runScript, performs]
          dsimp only
          rw [← reaction, runs]

/-- Reading a line edits the text at most, and records nothing but itself. -/
theorem exists_readLine_of_stuck (works : ∀ script ∈ session.probe, ∀ request ∈ script,
    request.isWork = true) (depth line : Nat) :
    ∃ document text noted, noted.filter Event.isDelivery = [] ∧ ∀ batching held log,
      { session with batching := batching, held := held, log := log }.readLine (reaction depth) line =
        ({ session with
          document := document, batching := batching, held := held, log := noted ++ log }, text) := by
  rcases Option.eq_none_or_eq_some session.probe with probe | ⟨script, probe⟩
  · refine ⟨session.document, session.document.line line, [], rfl, fun batching held log => ?_⟩
    exact @readLine_of_unprobed { session with batching := batching, held := held, log := log } _
      probe line
  rcases Bool.eq_false_or_eq_true session.probing with probing | probing
  · refine ⟨session.document, session.document.line line, [], rfl, fun batching held log => ?_⟩
    simp only [readLine, probe, probing]
    rfl
  · obtain ⟨document, answers, runs⟩ :=
      @exists_reaction_of_stuck { session with probing := true } stuck depth script
        (works script probe)
    refine ⟨document, document.line line, [.read line answers], rfl, fun batching held log => ?_⟩
    rw [probe] at runs
    simp only [readLine, probe, probing, runs]
    rfl

end Stuck

/-! ## Two runs -/

/-- The session in a batch that holds ranges back, with another log. -/
def batched (ranges : List (Nat × Nat)) (log : List Event) (session : Session) : Session :=
  { session with batching := true, held := widenAll none ranges, log := log }

/-- Whether a session that has been without a batch since the given one has told of exactly the ranges, and
the log, which is that of the run in a batch, of nothing yet. -/
structure Bracketed (session : Session) (ranges : List (Nat × Nat)) (plain : Session)
    (log : List Event) : Prop where
  unbatched : plain.batching = false
  alive : plain.disposed = false
  listeners : plain.listeners = session.listeners
  works : ∀ script ∈ plain.probe, ∀ request ∈ script, request.isWork = true
  told : plain.told =
    session.told ++ ranges.flatMap fun range => deliveries session.listeners range.1 range.2
  untold : { plain with log := log }.told = session.told

namespace Bracketed

variable {session plain : Session} {ranges : List (Nat × Nat)} {log : List Event}
  (bracketed : Bracketed session ranges plain log)
include bracketed

/-- What is told does not depend on what a pass works on. -/
theorem working (document : Document) (cache : Cache) (passing : Bool) :
    Bracketed session ranges
      { plain with document := document, cache := cache, passing := passing } log :=
  ⟨bracketed.unbatched, bracketed.alive, bracketed.listeners, bracketed.works, bracketed.told,
    bracketed.untold⟩

/-- Events that are no deliveries make no difference to what has been told. -/
theorem noted {events : List Event} (silent : events.filter Event.isDelivery = []) :
    Bracketed session ranges { plain with log := events ++ plain.log } (events ++ log) := by
  refine ⟨bracketed.unbatched, bracketed.alive, bracketed.listeners, bracketed.works, ?_, ?_⟩
  · rw [told_append, silent, bracketed.told]
    exact List.append_nil _
  · have added := told_append { plain with log := log } events
    rw [silent, bracketed.untold] at added
    exact added.trans (List.append_nil _)

/-- Notices are told of at once in the one run and held back in the other. -/
theorem announceAll (more : List (Nat × Nat)) :
    (plain.batched ranges log).announceAll more =
        (plain.announceAll more).batched (ranges ++ more) log ∧
      Bracketed session (ranges ++ more) (plain.announceAll more) log := by
  rw [announceAll_of_not_batching more bracketed.unbatched, announceAll_of_batching more rfl]
  constructor
  · simp only [batched, widenAll_append]
  · refine ⟨bracketed.unbatched, bracketed.alive, bracketed.listeners, bracketed.works, ?_,
      bracketed.untold⟩
    have deliver : ∀ range : Nat × Nat,
        (deliveries session.listeners range.1 range.2).filter Event.isDelivery =
          deliveries session.listeners range.1 range.2 :=
      fun range => filter_deliveries session.listeners range.1 range.2
    rw [told_append, bracketed.told, bracketed.listeners, List.filter_reverse, List.reverse_reverse,
      List.filter_flatMap, List.flatMap_append, List.append_assoc]
    simp only [deliver]

end Bracketed

/-- Passes of the two runs stay in step. -/
theorem lockstep_bracketed (session : Session) (ranges : List (Nat × Nat)) (depth : Nat) :
    Lockstep (reaction depth) (reaction depth) fun first second =>
      first.passing = true ∧ ∃ log, second = first.batched ranges log ∧
        Bracketed session ranges first log where
  grammar := by
    rintro first _ ⟨_, log, rfl, _⟩
    rfl
  document := by
    rintro first _ ⟨_, log, rfl, _⟩
    rfl
  cache := by
    rintro first _ ⟨_, log, rfl, _⟩
    rfl
  stored := by
    rintro first _ ⟨passing, log, rfl, inside⟩ cache
    exact ⟨passing, log, rfl, inside.working first.document cache first.passing⟩
  read := by
    rintro first _ ⟨passing, log, rfl, inside⟩ line
    obtain ⟨document, text, events, silent, reads⟩ :=
      exists_readLine_of_stuck (.inr passing) inside.works depth line
    exact ⟨_, _, text, reads first.batching first.held first.log,
      reads true (widenAll none ranges) log, passing, events ++ log, rfl,
      (inside.working document first.cache first.passing).noted silent⟩

namespace Bracketed

variable {session plain : Session} {ranges : List (Nat × Nat)} {log : List Event}
  (bracketed : Bracketed session ranges plain log)
  (silent : ∀ listener ∈ session.listeners, listener.script = []) (idle : plain.passing = false)
include bracketed silent idle

/-- A line is scanned alike in the two runs. -/
theorem handle_scan {request : Request} {line : Nat}
    (scans : request ∈ [Request.highlight line, .stackAt line]) :
    ∃ more log', ((plain.batched ranges log).handle request).2 = (plain.handle request).2 ∧
      ((plain.batched ranges log).handle request).1 =
        (plain.handle request).1.batched (ranges ++ more) log' ∧
      Bracketed session (ranges ++ more) (plain.handle request).1 log' := by
  have idleBatched : (plain.batched ranges log).passing = false := idle
  have matched := (lockstep_bracketed session ranges nestingLimit).perform idle idleBatched rfl
    ⟨rfl, log, rfl, bracketed.working plain.document plain.cache true⟩ line request scans
  simp only [Session.handle]
  generalize plain.perform (reaction nestingLimit) request = near,
    (plain.batched ranges log).perform (reaction nestingLimit) request = far at matched ⊢
  cases matched with
  | refused refusal =>
      refine ⟨[], log, rfl, ?_, ?_⟩
      · rw [List.append_nil]
      · rwa [List.append_nil]
  | @passed acted _ related changed result =>
      obtain ⟨_, log', rfl, inside⟩ := related
      have muted : acted.Muted := .inr (inside.listeners ▸ silent)
      have idling := inside.working acted.document acted.cache false
      obtain ⟨same, after⟩ := idling.announceAll (oneByOne changed)
      have ends : ∀ session : Session,
          { session.announceAll (oneByOne changed) with passing := false } =
            { session with passing := false }.announceAll (oneByOne changed) :=
        fun session => passing_announceAll (oneByOne changed) session session.passing false
      rw [notifyEach_of_muted _ _ muted, notifyEach_of_muted _ _ (.inl rfl), ends, ends]
      exact ⟨oneByOne changed, log', rfl, same, after⟩

/-- One request of the two runs. -/
theorem handle {request : Request} (work : request.isWork = true) :
    ∃ more log', ((plain.batched ranges log).handle request).2 = (plain.handle request).2 ∧
      ((plain.batched ranges log).handle request).1 =
        (plain.handle request).1.batched (ranges ++ more) log' ∧
      Bracketed session (ranges ++ more) (plain.handle request).1 log' := by
  rcases request.work_cases work plain with ⟨line, scans⟩ | notice | ⟨document, answer, edits⟩
  · exact bracketed.handle_scan silent idle scans
  · obtain ⟨⟨cache, more⟩, noticing⟩ := Option.isSome_iff_exists.mp notice
    have free : plain.Free := ⟨bracketed.alive, idle, .inr (bracketed.listeners ▸ silent)⟩
    have freeBatched : (plain.batched ranges log).Free := ⟨bracketed.alive, idle, .inl rfl⟩
    have changed := bracketed.working plain.document cache plain.passing
    obtain ⟨same, after⟩ := changed.announceAll more
    rw [free.handle_of_noticed noticing, freeBatched.handle_of_noticed noticing]
    exact ⟨more, log, rfl, same, after⟩
  · have plainly : plain.handle request = ({ plain with document := document }, answer) :=
      edits (reaction nestingLimit) plain.batching plain.held plain.log
    have batchedly : (plain.batched ranges log).handle request =
        ({ plain with document := document }.batched ranges log, answer) :=
      edits (reaction nestingLimit) true (widenAll none ranges) log
    have still := bracketed.working document plain.cache plain.passing
    rw [plainly, batchedly]
    refine ⟨[], log, rfl, ?_, ?_⟩
    · rw [List.append_nil]
    · rwa [List.append_nil]

end Bracketed

/-- What each of several requests is answered, with the text and the kept stacks after it. -/
def steps : List Request → Session → List (Answer × Document × Cache)
  | [], _ => []
  | request :: rest, session =>
    let (session, answer) := session.handle request
    (answer, session.document, session.cache) :: steps rest session

/-- Two runs of several requests. -/
theorem Bracketed.handleAll {session plain : Session} {ranges : List (Nat × Nat)} {log : List Event}
    (bracketed : Bracketed session ranges plain log)
    (silent : ∀ listener ∈ session.listeners, listener.script = []) (idle : plain.passing = false)
    {requests : List Request} (work : ∀ request ∈ requests, request.isWork = true) :
    steps requests (plain.batched ranges log) = steps requests plain ∧
      ∃ more log', (plain.batched ranges log).handleAll requests =
          (plain.handleAll requests).batched (ranges ++ more) log' ∧
        Bracketed session (ranges ++ more) (plain.handleAll requests) log' := by
  induction requests generalizing plain ranges log with
  | nil =>
      refine ⟨rfl, [], log, ?_, ?_⟩
      · rw [List.append_nil]
        rfl
      · rwa [List.append_nil]
  | cons request rest ih =>
      obtain ⟨here, later⟩ := List.forall_mem_cons.mp work
      obtain ⟨more, log', answer, same, after⟩ := bracketed.handle silent idle here
      have released := (lasting_passing.handleAll plain [request]).trans idle
      obtain ⟨stepsLater, further, last, sameLater, afterLater⟩ := ih after released later
      refine ⟨?_, more ++ further, last, ?_, ?_⟩
      · simp only [steps, answer, same, stepsLater]
        rfl
      · rw [Session.handleAll, List.foldl_cons, same, ← List.append_assoc]
        exact sameLater
      · rw [← List.append_assoc]
        exact afterLater

/-- A batch that ends tells of the hull of the ranges held back. -/
theorem Bracketed.endBatch {session plain : Session} {ranges : List (Nat × Nat)} {log : List Event}
    (bracketed : Bracketed session ranges plain log)
    (silent : ∀ listener ∈ session.listeners, listener.script = []) :
    ∃ log', (plain.batched ranges log).handle .endBatch =
        ({ plain with batching := false, held := none, log := log' }, .done) ∧
      { plain with log := log' }.told =
        session.told ++
          (hull ranges).toList.flatMap fun range =>
            deliveries session.listeners range.1 range.2 := by
  have alive : (plain.batched ranges log).disposed = false := bracketed.alive
  have ended : (plain.batched ranges log).batching = true := rfl
  have held : (plain.batched ranges log).held = hull ranges := widenAll_eq_hull ranges
  rw [Session.handle, perform, Session.endBatch, checkAlive_of_alive alive, guarded, if_pos ended]
  dsimp only
  rw [held]
  cases hull ranges with
  | none =>
      refine ⟨log, rfl, ?_⟩
      rw [bracketed.untold]
      exact (List.append_nil _).symm
  | some range =>
      have mute : ∀ listener ∈ (plain.batched ranges log).listeners, listener.script = [] :=
        show ∀ listener ∈ plain.listeners, _ from bracketed.listeners ▸ silent
      dsimp only
      rw [fire_of_silent]
      case silent => exact mute
      refine ⟨(deliveries plain.listeners range.1 range.2).reverse ++ log, rfl, ?_⟩
      refine (told_append { plain with log := log } _).trans ?_
      rw [bracketed.untold, List.filter_reverse, List.reverse_reverse, filter_deliveries,
        bracketed.listeners, Option.toList_some, List.flatMap_singleton]

/-! ## Reachable sessions -/

/-- Outside of a batch nothing is held back. -/
theorem lasting_held :
    Lasting fun before after =>
      (before.batching = false → before.held = none) → after.batching = false → after.held = none where
  refl _ := id
  trans near far := far ∘ near
  working same kept _ held unbatched := by
    rcases kept with ⟨batching, still⟩ | batching | released
    · rw [still]
      exact held (batching ▸ unbatched)
    · rw [batching] at unbatched
      cases unbatched
    · exact released
  enclose _ inside := inside
  probed _ _ _ inside := inside
  listen _ _ := id
  discard _ _ _ := id
  fire keeps session first last := by
    refine Keeps.fire ?_ ?_ keeps ?_ ?_ session first last
    · exact fun _ => id
    · exact fun near far => far ∘ near
    · exact fun _ _ _ _ _ => id
    · exact fun _ _ => id

/-- A session that is disposed takes note of no request that is work but for edits of the text. -/
theorem handleAll_of_disposed {session : Session} (disposed : session.disposed = true)
    {requests : List Request} (work : ∀ request ∈ requests, request.isWork = true) :
    ∃ document, session.handleAll requests = { session with document := document } := by
  induction requests generalizing session with
  | nil => exact ⟨session.document, rfl⟩
  | cons request rest ih =>
      obtain ⟨here, later⟩ := List.forall_mem_cons.mp work
      obtain ⟨document, answer, edits⟩ := edits_of_stuck (.inl disposed) here
      have handled : session.handle request = ({ session with document := document }, answer) :=
        edits (reaction nestingLimit) session.batching session.held session.log
      obtain ⟨last, same⟩ := @ih { session with document := document } disposed later
      rw [Session.handleAll, List.foldl_cons, handled]
      exact ⟨last, same⟩

/-- A session that is disposed tells nobody of anything more. -/
theorem told_handleAll_of_disposed {session : Session} (disposed : session.disposed = true)
    {requests : List Request} (work : ∀ request ∈ requests, request.isWork = true) :
    (session.handleAll requests).disposed = true ∧
      (session.handleAll requests).told = session.told := by
  obtain ⟨document, same⟩ := handleAll_of_disposed disposed work
  rw [same]
  exact ⟨disposed, rfl⟩

/-- A session that is disposed begins no batch and ends none. -/
theorem handle_batch_of_disposed {session : Session} (disposed : session.disposed = true) :
    (session.handle .beginBatch).1 = session ∧ (session.handle .endBatch).1 = session := by
  rw [handle, handle, perform_of_disposed disposed _ rfl, perform_of_disposed disposed _ rfl]
  exact ⟨rfl, rfl⟩

/-- A batch that begins holds nothing back yet. -/
theorem bracketed_beginBatch {session : Session} (alive : session.disposed = false)
    (unbatched : session.batching = false) (unheld : session.held = none)
    (probe : ∀ script ∈ session.probe, ∀ request ∈ script, request.isWork = true) :
    (session.handle .beginBatch).1 = session.batched [] session.log ∧
      Bracketed session [] session session.log := by
  constructor
  · simp only [handle, perform, beginBatch, checkAlive_of_alive alive, guarded, unbatched, batched,
      unheld, widenAll]
    rfl
  · exact ⟨unbatched, alive, rfl, probe, (List.append_nil _).symm, rfl⟩

/-- **Batches are transparent.** Take a session outside of a batch whose listeners have empty scripts and
whose probe, if it has one, only asks for work. Requests that are work are answered the same inside of a
batch as outside of one, with the same text and the same kept stacks after each of them. No listener is
told before the batch ends, and its end tells every listener once of the smallest range that covers all
ranges of which the run without a batch tells, or not at all if there is none. -/
theorem batch_transparent {grammar : Grammar} {document : Document} {before : List Request}
    {session : Session} (reached : session = (start grammar document).handleAll before)
    (unbatched : session.batching = false)
    (silent : ∀ listener ∈ session.listeners, listener.script = [])
    (probe : ∀ script ∈ session.probe, ∀ request ∈ script, request.isWork = true)
    {requests : List Request} (work : ∀ request ∈ requests, request.isWork = true) :
    let begun := (session.handle .beginBatch).1
    let ended := ((begun.handleAll requests).handle .endBatch).1
    let plain := session.handleAll requests
    steps requests begun = steps requests session ∧
      (ended.document = plain.document ∧ ended.cache = plain.cache) ∧
      (∀ count, (begun.handleAll (requests.take count)).told = session.told) ∧
      ∃ ranges : List (Nat × Nat),
        plain.told =
            session.told ++ ranges.flatMap (fun range =>
              deliveries session.listeners range.1 range.2) ∧
          ended.told =
            session.told ++ (hull ranges).toList.flatMap fun range =>
              deliveries session.listeners range.1 range.2 := by
  intro begun ended plain
  have early : ∀ count, ∀ request ∈ requests.take count, request.isWork = true :=
    fun count request member => work request (List.mem_of_mem_take member)
  cases disposed : session.disposed with
  | true =>
      have alike : begun = session := (handle_batch_of_disposed disposed).1
      obtain ⟨still, untold⟩ := told_handleAll_of_disposed disposed work
      have same : ended = plain := by
        show ((begun.handleAll requests).handle .endBatch).1 = session.handleAll requests
        rw [alike]
        exact (handle_batch_of_disposed still).2
      have nothing : session.told = session.told ++ [] := (List.append_nil _).symm
      rw [alike, same]
      refine ⟨rfl, ⟨rfl, rfl⟩, fun count => ?_, [], untold.trans nothing, untold.trans nothing⟩
      exact (told_handleAll_of_disposed disposed (early count)).2
  | false =>
      have idle : session.passing = false := by
        rw [reached]
        exact lasting_passing.handleAll (start grammar document) before
      have unheld : session.held = none := by
        rw [reached] at unbatched ⊢
        exact lasting_held.handleAll (start grammar document) before (fun _ => rfl) unbatched
      obtain ⟨begins, bracketed⟩ : begun = session.batched [] session.log ∧ _ :=
        bracketed_beginBatch disposed unbatched unheld probe
      obtain ⟨answers, ranges, log, same, after⟩ := bracketed.handleAll silent idle work
      obtain ⟨last, ends, told⟩ := after.endBatch silent
      rw [← begins] at answers same
      rw [← same] at ends
      have finished : ended = { plain with batching := false, held := none, log := last } :=
        congrArg Prod.fst ends
      rw [finished]
      refine ⟨answers, ⟨rfl, rfl⟩, fun count => ?_, ranges, after.told, told⟩
      obtain ⟨_, _, between, reaches, within⟩ := bracketed.handleAll silent idle (early count)
      rw [begins, reaches]
      exact within.untold

/-- A line that opens a string changes how those below it are shown. Without a batch the listener is told of
the line and of both below it one after another; the end of the batch tells of all three at once. -/
theorem batch_transparent_open_string :
    let session := (start (Languages.Toml.grammar .standard) (.ofLines ["k = 1", "v", "w"])).handleAll
      [.listen [], .probe (some [.marker]), .stackAt 3]
    let requests : List Request :=
      [.replaceLine 1 "k = \"\"\"", .lineChanged 1, .highlight 4, .highlight 3]
    let ended := (((session.handle .beginBatch).1.handleAll requests).handle .endBatch).1
    session.batching = false ∧ (∀ listener ∈ session.listeners, listener.script = []) ∧
      (∀ script ∈ session.probe, ∀ request ∈ script, request.isWork = true) ∧
      (∀ request ∈ requests, request.isWork = true) ∧
      steps requests (session.handle .beginBatch).1 = steps requests session ∧
      (session.handleAll requests).told =
        [.delivered 0 1 1 [], .delivered 0 2 2 [], .delivered 0 3 3 []] ∧
      ended.told = [.delivered 0 1 3 []] := by
  intro session requests ended
  have unbatched : session.batching = false := by decide +kernel
  have empty : ∀ listener ∈ session.listeners, listener.script.isEmpty = true := by decide +kernel
  have silent : ∀ listener ∈ session.listeners, listener.script = [] :=
    fun listener member => List.isEmpty_iff.mp (empty listener member)
  have probe : ∀ script ∈ session.probe, ∀ request ∈ script, request.isWork = true := by
    decide +kernel
  have work : ∀ request ∈ requests, request.isWork = true := by decide
  have transparent := batch_transparent rfl unbatched silent probe work
  exact ⟨unbatched, silent, probe, work, transparent.1, by decide +kernel, by decide +kernel⟩

end Highlight.Session
