import Highlight.Session.Perform

/-! # Quiet sessions

A session is free while it is neither disposed nor in a pass and its notices are held back by a batch or
reach only listeners with empty scripts. Notices that a free session gives only leave a trace in its log or
in what is held back (`Highlight.Session.announce`). It is calm if no probe is set either, so that nothing
that it does makes requests of its own. A quiet session, whose listeners all have empty scripts, stays calm
over every request.
-/

namespace Highlight.Session

/-- Whether notices make no requests: a batch holds them back, or the scripts of all listeners are empty. -/
def Muted (session : Session) : Prop :=
  session.batching = true ∨ ∀ listener ∈ session.listeners, listener.script = []

/-- Whether the session carries out requests and no notice that it gives makes requests. -/
structure Free (session : Session) : Prop where
  alive : session.disposed = false
  idle : session.passing = false
  muted : session.Muted

/-- Whether nothing that the session does makes requests, neither a notice nor the reading of a line. -/
structure Calm (session : Session) : Prop where
  alive : session.disposed = false
  idle : session.passing = false
  unprobed : session.probe = none
  muted : session.Muted

/-- Whether no notice that the session gives makes requests, be it held back at first or not. -/
structure Quiet (session : Session) : Prop where
  alive : session.disposed = false
  idle : session.passing = false
  unprobed : session.probe = none
  silent : ∀ listener ∈ session.listeners, listener.script = []

theorem quiet_start (grammar : Grammar) (document : Document) : (start grammar document).Quiet :=
  ⟨rfl, rfl, rfl, nofun⟩

variable {session : Session}

theorem Quiet.calm (quiet : session.Quiet) : session.Calm :=
  ⟨quiet.alive, quiet.idle, quiet.unprobed, .inr quiet.silent⟩

theorem checkAlive_of_alive (alive : session.disposed = false) : session.checkAlive = .ok () := by
  rw [checkAlive, alive]
  rfl

theorem Calm.free (calm : session.Calm) : session.Free :=
  ⟨calm.alive, calm.idle, calm.muted⟩

theorem checkEditable_eq_ok_iff :
    session.checkEditable = .ok () ↔ session.disposed = false ∧ session.passing = false := by
  rw [checkEditable, checkAlive]
  cases session.disposed <;> cases session.passing
  · exact iff_of_true rfl ⟨rfl, rfl⟩
  all_goals simp [Bind.bind, Except.bind]

/-! ## Notices -/

/-- The deliveries of a range of lines to listeners with empty scripts. -/
def deliveries (listeners : List Listener) (first last : Nat) : List Event :=
  listeners.map fun listener => .delivered listener.number first last []

/-- The session after a notice to listeners with empty scripts. -/
def announce (first last : Nat) (session : Session) : Session :=
  if session.batching then
    { session with held := some (widen session.held first last) }
  else
    { session with log := (deliveries session.listeners first last).reverse ++ session.log }

/-- The session after several notices. -/
def announceAll (ranges : List (Nat × Nat)) (session : Session) : Session :=
  ranges.foldl (fun session range => session.announce range.1 range.2) session

theorem reaction_nil (depth : Nat) (session : Session) : reaction depth [] session = (session, []) := by
  cases depth <;> rfl

/-- Listeners with empty scripts are told, and nothing else happens. -/
theorem foldl_deliver (depth first last : Nat) {listeners : List Listener}
    (silent : ∀ listener ∈ listeners, listener.script = []) (session : Session) :
    listeners.foldl (deliver (reaction depth) first last) session =
      { session with log := (deliveries listeners first last).reverse ++ session.log } := by
  induction listeners generalizing session with
  | nil => rfl
  | cons listener rest ih =>
      obtain ⟨here, later⟩ := List.forall_mem_cons.mp silent
      rw [List.foldl_cons, ih later, deliver, here, reaction_nil]
      simp [deliveries, record]

theorem fire_of_silent (depth first last : Nat)
    (silent : ∀ listener ∈ session.listeners, listener.script = []) :
    session.fire (reaction depth) first last =
      { session with
        log := (deliveries session.listeners first last).reverse ++ session.log } := by
  simp [fire, foldl_deliver depth first last silent]

theorem notify_of_muted (depth first last : Nat) (muted : session.Muted) :
    session.notify (reaction depth) first last = session.announce first last := by
  rcases muted with batching | silent
  · rw [notify, announce, if_pos batching, if_pos batching]
  · simp only [notify, announce, fire_of_silent depth first last silent]

/-- Notices that make no requests change nothing but what is held back and the log. -/
theorem exists_announceAll_eq (ranges : List (Nat × Nat)) (session : Session) :
    ∃ held log, session.announceAll ranges = { session with held := held, log := log } := by
  induction ranges generalizing session with
  | nil => exact ⟨session.held, session.log, rfl⟩
  | cons range rest ih =>
      obtain ⟨held, log, later⟩ := ih (session.announce range.1 range.2)
      refine ⟨held, log, later.trans ?_⟩
      unfold announce
      split <;> rfl

/-- Notices do not depend on whether a pass is running. -/
theorem passing_announceAll (ranges : List (Nat × Nat)) (session : Session) (passing after : Bool) :
    { ({ session with passing := passing }.announceAll ranges) with passing := after } =
      { session with passing := after }.announceAll ranges := by
  induction ranges generalizing session with
  | nil => rfl
  | cons range rest ih =>
      have first : ∀ passing, { session with passing := passing }.announce range.1 range.2 =
          { session.announce range.1 range.2 with passing := passing } := by
        intro passing
        unfold announce
        split <;> rfl
      rw [announceAll, announceAll, List.foldl_cons, List.foldl_cons, first passing, first after]
      exact ih _

/-- Outside of a batch notices are recorded one after another, the latest first. -/
theorem announceAll_of_not_batching (ranges : List (Nat × Nat)) (unbatched : session.batching = false) :
    session.announceAll ranges =
      { session with
        log := (ranges.flatMap fun range => deliveries session.listeners range.1 range.2).reverse ++
          session.log } := by
  induction ranges generalizing session with
  | nil => rfl
  | cons range rest ih =>
      have first : session.announce range.1 range.2 =
          { session with
            log := (deliveries session.listeners range.1 range.2).reverse ++ session.log } := by
        rw [announce, unbatched]
        rfl
      rw [announceAll, List.foldl_cons, ← announceAll, first, ih]
      · simp
      · exact unbatched

/-- Notices are given of a line only if the document has it. -/
def lineRanges (document : Document) (line : Nat) : List (Nat × Nat) :=
  if line ≤ document.lineCount then [(line, line)] else []

/-- The range of all lines. -/
def allRanges (document : Document) : List (Nat × Nat) := [(1, document.lineCount)]

/-- The ranges that hold the lines one by one. -/
def oneByOne (lines : List Nat) : List (Nat × Nat) := lines.map fun line => (line, line)

/-- Gives notice of several ranges of lines. -/
def notifyRanges (react : Reaction) (ranges : List (Nat × Nat)) (session : Session) : Session :=
  ranges.foldl (fun session range => session.notify react range.1 range.2) session

theorem notifyLine_eq (react : Reaction) (line : Nat) (session : Session) :
    session.notifyLine react line =
      session.notifyRanges react (lineRanges session.document line) := by
  rw [notifyLine, lineRanges]
  split <;> rfl

theorem notifyAll_eq (react : Reaction) (session : Session) :
    session.notifyAll react = session.notifyRanges react (allRanges session.document) := rfl

theorem notifyEach_eq (react : Reaction) (lines : List Nat) (session : Session) :
    session.notifyEach react lines = session.notifyRanges react (oneByOne lines) := by
  rw [notifyRanges, oneByOne, List.foldl_map]
  rfl

/-- Several notices that make no requests are announced one after another. -/
theorem notifyRanges_of_muted (depth : Nat) (ranges : List (Nat × Nat)) (muted : session.Muted) :
    session.notifyRanges (reaction depth) ranges = session.announceAll ranges := by
  induction ranges generalizing session with
  | nil => rfl
  | cons range rest ih =>
      have still : (session.announce range.1 range.2).Muted := by
        obtain ⟨held, log, same⟩ := session.exists_announceAll_eq [range]
        rw [show session.announce range.1 range.2 = _ from same]
        exact muted
      rw [notifyRanges, List.foldl_cons, ← notifyRanges, notify_of_muted depth _ _ muted, ih still]
      rfl

theorem notifyEach_of_muted (depth : Nat) (lines : List Nat) (muted : session.Muted) :
    session.notifyEach (reaction depth) lines = session.announceAll (oneByOne lines) := by
  rw [notifyEach_eq, notifyRanges_of_muted depth _ muted]

/-! ## Requests -/

/-- The session with another text, other kept stacks, and notices given of ranges of lines. -/
def update (session : Session) (document : Document) (cache : Cache) (ranges : List (Nat × Nat)) :
    Session :=
  { session with document := document, cache := cache }.announceAll ranges

theorem exists_update_eq (session : Session) (document : Document) (cache : Cache)
    (ranges : List (Nat × Nat)) :
    ∃ held log, session.update document cache ranges =
      { session with document := document, cache := cache, held := held, log := log } :=
  exists_announceAll_eq ranges _

theorem Free.update (free : session.Free) (document : Document) (cache : Cache)
    (ranges : List (Nat × Nat)) : (session.update document cache ranges).Free := by
  obtain ⟨held, log, same⟩ := session.exists_update_eq document cache ranges
  rw [same]
  exact ⟨free.alive, free.idle, free.muted⟩

theorem Quiet.update (quiet : session.Quiet) (document : Document) (cache : Cache)
    (ranges : List (Nat × Nat)) : (session.update document cache ranges).Quiet := by
  obtain ⟨held, log, same⟩ := session.exists_update_eq document cache ranges
  rw [same]
  exact ⟨quiet.alive, quiet.idle, quiet.unprobed, quiet.silent⟩

end Highlight.Session
