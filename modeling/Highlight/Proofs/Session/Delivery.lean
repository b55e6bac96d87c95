import Highlight.Languages.Toml
import Highlight.Proofs.Session.Lasting

/-! # Who hears a notice

A notice given outside of a batch, and the range that a batch has held back, reach every listener in the
session's list exactly once, whatever scripts the listeners run meanwhile
(`Highlight.Session.notices_told`). While listeners are told of something they are not in that list. A notice
that comes from a script of one of them is therefore lost to those who listened before
(`Highlight.Session.removal_untold`).
-/

namespace Highlight.Session

/-- The range of lines that an event delivers to the listener with the given number. -/
def Event.rangeFor? (number : Nat) : Event → Option (Nat × Nat)
  | .delivered listener first last _ => if listener = number then some (first, last) else none
  | .read _ _ => none

/-- The ranges of lines that the listener with the given number has been told of, the earliest first. -/
def heard (session : Session) (number : Nat) : List (Nat × Nat) :=
  session.events.filterMap (Event.rangeFor? number)

/-- The numbers of the listeners in the list of the session. -/
def audience (session : Session) : List Nat := session.listeners.map Listener.number

theorem heard_record (session : Session) (event : Event) (number : Nat) :
    (session.record event).heard number =
      session.heard number ++ (event.rangeFor? number).toList := by
  simp only [heard, events, record, List.reverse_cons, List.filterMap_append]
  cases told : event.rangeFor? number <;> simp [told]

/-! ## Listeners that are set aside -/

/-- Whether a registered listener that is not in the list hears nothing, and is not put back on it. -/
structure Secluding (before after : Session) : Prop where
  registered : before.registered ≤ after.registered
  audience : ∀ number ∈ after.audience, number ∈ before.audience ∨ before.registered ≤ number
  heard : ∀ number < before.registered, number ∉ before.audience →
    after.heard number = before.heard number

/-- Whether all listeners in the list were registered as the given number or later. -/
structure Newcomers (least : Nat) (session : Session) : Prop where
  registered : least ≤ session.registered
  audience : ∀ number ∈ session.audience, least ≤ number

theorem newcomers_aside (session : Session) :
    { session with listeners := [] }.Newcomers session.registered :=
  ⟨Nat.le_refl _, nofun⟩

section Delivery

variable {react : Reaction} (keeps : Keeps Secluding react) {session : Session} {least : Nat}
  (first last : Nat)
include keeps

/-- A delivery to a listener leaves only newcomers in the list. -/
theorem Newcomers.deliver (newcomers : session.Newcomers least) (listener : Listener) :
    (session.deliver react first last listener).Newcomers least := by
  obtain ⟨registered, audience, _⟩ := keeps listener.script session
  refine ⟨Nat.le_trans newcomers.registered registered, fun number member => ?_⟩
  rcases audience number member with before | new
  · exact newcomers.audience number before
  · exact Nat.le_trans newcomers.registered new

/-- A delivery made while only newcomers are in the list is heard by the listener that it is for, and by no
other that was registered before them. -/
theorem Newcomers.heard_deliver (newcomers : session.Newcomers least) (listener : Listener)
    {number : Nat} (earlier : number < least) :
    (session.deliver react first last listener).heard number =
      session.heard number ++ if listener.number = number then [(first, last)] else [] := by
  have absent : number ∉ session.audience := fun member =>
    Nat.not_lt_of_le (newcomers.audience number member) earlier
  have unheard := (keeps listener.script session).heard number
    (Nat.lt_of_lt_of_le earlier newcomers.registered) absent
  rw [Session.deliver, heard_record, unheard, Event.rangeFor?]
  split <;> rfl

theorem Newcomers.foldl_deliver (newcomers : session.Newcomers least) (listeners : List Listener) :
    (listeners.foldl (Session.deliver react first last) session).Newcomers least := by
  induction listeners generalizing session with
  | nil => exact newcomers
  | cons listener rest ih => exact ih (newcomers.deliver keeps first last listener)

/-- A listener registered earlier hears of the range as often as it is among those called, whatever the
newcomers hear of. -/
theorem Newcomers.heard_foldl_deliver (newcomers : session.Newcomers least)
    (listeners : List Listener) {number : Nat} (earlier : number < least) :
    (listeners.foldl (Session.deliver react first last) session).heard number =
      session.heard number ++
        List.replicate ((listeners.map Listener.number).count number) (first, last) := by
  induction listeners generalizing session with
  | nil => simp
  | cons listener rest ih =>
      rw [List.foldl_cons, ih (newcomers.deliver keeps first last listener),
        newcomers.heard_deliver keeps first last listener earlier, List.map_cons, List.count_cons]
      split <;> simp_all [List.replicate_succ]

/-- Telling listeners reaches each registered one as often as it is in the list. -/
theorem heard_fire (session : Session) {number : Nat} (given : number < session.registered) :
    (session.fire react first last).heard number =
      session.heard number ++ List.replicate (session.audience.count number) (first, last) :=
  (newcomers_aside session).heard_foldl_deliver keeps first last session.listeners given

/-- While the listeners are called their list is empty, so that none is called from within but those
registered meanwhile. -/
theorem secluding_fire (session : Session) : Secluding session (session.fire react first last) := by
  have told := (newcomers_aside session).foldl_deliver keeps first last session.listeners
  refine ⟨told.registered, fun number member => ?_, fun number given absent => ?_⟩
  · rw [audience, fire, List.map_append] at member
    exact (List.mem_append.mp member).imp_right (told.audience number)
  · rw [heard_fire keeps first last session given, List.count_eq_zero_of_not_mem absent]
    exact List.append_nil _

end Delivery

/-- Whatever a session does, a listener that is not in the list stays out of it. -/
theorem lasting_secluding : Lasting Secluding where
  refl _ := ⟨Nat.le_refl _, fun _ member => .inl member, fun _ _ _ => rfl⟩
  trans near far := by
    refine ⟨Nat.le_trans near.registered far.registered, fun number member => ?_,
      fun number given absent => ?_⟩
    · rcases far.audience number member with middle | new
      · exact near.audience number middle
      · exact .inr (Nat.le_trans near.registered new)
    · have still := mt (near.audience number) (not_or.mpr ⟨absent, Nat.not_le_of_lt given⟩)
      rw [far.heard number (Nat.lt_of_lt_of_le given near.registered) still,
        near.heard number given absent]
  working same _ _ := by
    rw [same]
    exact ⟨Nat.le_refl _, fun _ member => .inl member, fun _ _ _ => rfl⟩
  enclose _ inside := ⟨inside.registered, inside.audience, inside.heard⟩
  probed line answers _ inside := by
    refine ⟨inside.registered, inside.audience, fun number given absent => ?_⟩
    rw [heard_record]
    exact (List.append_nil _).trans (inside.heard number given absent)
  listen session script := by
    refine ⟨Nat.le_succ _, fun number member => ?_, fun _ _ _ => rfl⟩
    rw [audience, listen, List.map_append] at member
    rcases List.mem_append.mp member with before | new
    · exact .inl before
    · exact .inr (Nat.le_of_eq (List.mem_singleton.mp new).symm)
  discard _ _ _ := ⟨Nat.le_refl _, nofun, fun _ _ _ => rfl⟩
  fire keeps session first last := secluding_fire keeps first last session

/-! ## Listeners that are in the list -/

/-- Whether, unless the session is disposed, its list is kept and gets those listeners behind it that are
registered meanwhile. -/
def Enlisting (before after : Session) : Prop :=
  after.disposed = false → before.disposed = false ∧
    ∃ count, after.registered = before.registered + count ∧
      after.audience = before.audience ++ List.range' before.registered count

theorem enlisting_of_eq {before after : Session} (disposed : after.disposed = before.disposed)
    (registered : after.registered = before.registered) (listeners : after.listeners = before.listeners) :
    Enlisting before after :=
  fun alive => ⟨disposed ▸ alive, 0, registered, by rw [audience, listeners]; simp [audience]⟩

/-- Lists that only grow do so one after another. -/
theorem Enlisting.trans {first second third : Session} (near : Enlisting first second)
    (far : Enlisting second third) : Enlisting first third := by
  intro alive
  obtain ⟨middle, later, counted, enlisted⟩ := far alive
  obtain ⟨living, sooner, countedFirst, enlistedFirst⟩ := near middle
  refine ⟨living, sooner + later, by omega, ?_⟩
  rw [enlisted, enlistedFirst, countedFirst, List.append_assoc, List.range'_append_1]

/-- Once all are called, the list has those that were in it and the ones registered meanwhile. -/
theorem enlisting_fire {react : Reaction} (keeps : Keeps Enlisting react) (session : Session)
    (first last : Nat) : Enlisting session (session.fire react first last) := by
  intro alive
  have told := keeps.foldl_deliver (fun _ => enlisting_of_eq rfl rfl rfl) Enlisting.trans
    (fun _ _ _ _ _ => enlisting_of_eq rfl rfl rfl) first last session.listeners
    { session with listeners := [] }
  obtain ⟨living, count, counted, enlisted⟩ := told alive
  refine ⟨living, count, counted, ?_⟩
  rw [audience, fire, List.map_append]
  exact congrArg (session.audience ++ ·) enlisted

/-- Whatever a session does, short of being disposed, its list only grows. -/
theorem lasting_enlisting : Lasting Enlisting where
  refl _ := enlisting_of_eq rfl rfl rfl
  trans := Enlisting.trans
  working same _ _ := by
    rw [same]
    exact enlisting_of_eq rfl rfl rfl
  enclose _ inside := inside
  probed _ _ _ inside := inside
  listen session script alive := ⟨alive, 1, rfl, List.map_append⟩
  discard _ _ _ disposed := absurd disposed Bool.true_eq_false.mp
  fire := enlisting_fire

/-- Between requests every listener of a session that is not disposed is in its list. -/
theorem audience_performAll {grammar : Grammar} {document : Document} {depth : Nat}
    {requests : List Request}
    (alive : ((start grammar document).performAll (reaction depth) requests).disposed = false) :
    ((start grammar document).performAll (reaction depth) requests).audience =
      List.range ((start grammar document).performAll (reaction depth) requests).registered := by
  obtain ⟨_, count, counted, enlisted⟩ :=
    lasting_enlisting.performAll (lasting_enlisting.reaction depth) (start grammar document) requests
      alive
  rw [enlisted, counted, List.range_eq_range']
  simp [start, audience]

/-- Whether a listener hears of a range once if it is in the list and else not at all, and stays in the
list. -/
def Tells (first last number : Nat) (before after : Session) : Prop :=
  after.heard number =
      before.heard number ++ (if number ∈ before.audience then [(first, last)] else []) ∧
    (number ∈ before.audience → number ∈ after.audience)

/-- A notice tells every listener in the list once. -/
theorem tells_fire {session : Session} (distinct : session.audience.Nodup) (depth first last : Nat)
    {number : Nat} (given : number < session.registered) :
    Tells first last number session (session.fire (reaction depth) first last) := by
  have keeps := lasting_secluding.reaction depth
  constructor
  · rw [heard_fire keeps first last session given, distinct.count]
    split <;> rfl
  · intro member
    rw [audience, fire, List.map_append]
    exact List.mem_append_left _ member

/-- **Notices.** Whatever scripts the listeners run, a notice that a session gives outside of a batch, and the
range that the end of a batch lets go, reach each listener in its list exactly once and no other one that
is registered. Between requests, every registered listener is in the list. -/
theorem notices_told {session : Session} (distinct : session.audience.Nodup) (depth first last : Nat)
    {number : Nat} (given : number < session.registered) :
    (session.batching = false →
      Tells first last number session (session.notify (reaction depth) first last)) ∧
    (session.disposed = false → session.batching = true → session.held = some (first, last) →
      Tells first last number session (session.endBatch (reaction depth)).1) ∧
    ∀ grammar document limit requests,
      session = (start grammar document).performAll (reaction limit) requests →
      session.disposed = false → session.audience = List.range session.registered := by
  refine ⟨fun unbatched => ?_, fun alive batching held => ?_, ?_⟩
  · rw [notify, unbatched, if_neg Bool.false_ne_true]
    exact tells_fire distinct depth first last given
  · rw [endBatch, checkAlive_of_alive alive, guarded, batching, if_pos rfl, held]
    exact @tells_fire { session with batching := false, held := none } distinct depth first last
      number given
  · rintro grammar document limit requests rfl alive
    exact audience_performAll alive

/-- A script of the second listener, which removes a line, and the notice of it change nothing about the
range that both are being told of. -/
theorem notices_told_removal :
    ((start (Languages.Toml.grammar .standard) (.ofLines ["a", "b", "c"])).handleAll
        [.listen [], .listen [.removeLine 2, .lineRemoved 2]]).audience.Nodup ∧
      Tells 1 1 1
        ((start (Languages.Toml.grammar .standard) (.ofLines ["a", "b", "c"])).handleAll
          [.listen [], .listen [.removeLine 2, .lineRemoved 2]])
        (((start (Languages.Toml.grammar .standard) (.ofLines ["a", "b", "c"])).handleAll
          [.listen [], .listen [.removeLine 2, .lineRemoved 2]]).notify (reaction nestingLimit) 1 1) :=
  have distinct : ((start (Languages.Toml.grammar .standard) (.ofLines ["a", "b", "c"])).handleAll
      [.listen [], .listen [.removeLine 2, .lineRemoved 2]]).audience.Nodup := by decide +kernel
  ⟨distinct, (notices_told distinct nestingLimit 1 1 (by decide +kernel)).1 (by decide +kernel)⟩

/-- The notice of that removal is carried out while both listeners are set aside, so that neither hears that
the line which has moved up is to be drawn again. -/
theorem removal_untold :
    let session := (start (Languages.Toml.grammar .standard) (.ofLines ["a", "b", "c"])).handleAll
      [.listen [], .listen [.removeLine 2, .lineRemoved 2]]
    let after := (session.handle (.invalidate 1)).1
    after.document = .ofLines ["a", "c"] ∧
      after.events = [.delivered 0 1 1 [], .delivered 1 1 1 [.flag true, .done]] ∧
      after.heard 0 = [(1, 1)] ∧ after.heard 1 = [(1, 1)] := by
  decide +kernel

end Highlight.Session
