import Highlight.Proofs.Session.Disposal

/-! # The list of listeners

While listeners are told of something they are not in the list of their session. A script that registers
listeners puts them on an empty list, and if it makes the session give notice of more, they are set aside in
turn, and so on to any depth. What is done with listeners in the course of this is written down as a nest of
deeds (`Highlight.Session.Nest`). In the end the list is that of the beginning with the listeners behind it
that have been registered since, and each listener of the beginning has been told once
(`Highlight.Session.fire_keeps_listeners`).
-/

namespace Highlight.Session

/-! ## Deeds -/

/-- What is done with a listener: it is registered, or told of a range of lines. -/
inductive Deed where
  | registers (listener : Listener)
  | tells (listener : Listener) (first last : Nat)

namespace Deed

/-- The listener that is registered. -/
def registered? : Deed → Option Listener
  | registers listener => some listener
  | tells _ _ _ => none

/-- The listener that is told. -/
def told? : Deed → Option Listener
  | registers _ => none
  | tells listener _ _ => some listener

/-- What is recorded of the deed. -/
def call? : Deed → Option (Nat × Nat × Nat)
  | registers _ => none
  | tells listener first last => some (listener.number, first, last)

end Deed

/-- Deeds one after another, each with the number of scripts that it is done inside of. A listener counts as
told once its script has been carried out, so that it stands behind what the script does. -/
abbrev Nest := List (Nat × Deed)

namespace Nest

/-- The listeners that are registered, in order. -/
def registered (nest : Nest) : List Listener := nest.filterMap fun entry => entry.2.registered?

/-- The listeners that are told of something outside of all scripts, in order. -/
def outermost (nest : Nest) : List Listener :=
  nest.filterMap fun entry => if entry.1 = 0 then entry.2.told? else none

/-- What is recorded of the deeds. -/
def calls (nest : Nest) : List (Nat × Nat × Nat) := nest.filterMap fun entry => entry.2.call?

/-- The same deeds done inside of one more script. -/
def deeper (nest : Nest) : Nest := nest.map fun entry => (entry.1 + 1, entry.2)

variable (near far nest : Nest)

theorem registered_append : (near ++ far).registered = near.registered ++ far.registered :=
  List.filterMap_append

theorem outermost_append : (near ++ far).outermost = near.outermost ++ far.outermost :=
  List.filterMap_append

theorem calls_append : (near ++ far).calls = near.calls ++ far.calls :=
  List.filterMap_append

theorem registered_deeper : nest.deeper.registered = nest.registered :=
  List.filterMap_map

theorem outermost_deeper : nest.deeper.outermost = [] := by
  rw [outermost, deeper, List.filterMap_map, List.filterMap_eq_nil_iff]
  intro entry _
  rw [Function.comp_apply, if_neg (Nat.succ_ne_zero entry.1)]

theorem calls_deeper : nest.deeper.calls = nest.calls :=
  List.filterMap_map

variable {nest}

theorem mem_outermost {listener : Listener} {first last : Nat}
    (member : (0, .tells listener first last) ∈ nest) : listener ∈ nest.outermost :=
  List.mem_filterMap.mpr ⟨_, member, rfl⟩

end Nest

/-- Whether two sessions agree in all that has to do with listeners. -/
structure Still (before after : Session) : Prop where
  listeners : after.listeners = before.listeners
  registered : after.registered = before.registered
  disposed : after.disposed = before.disposed
  calls : after.calls = before.calls

mutual

/-- Whether the deeds are those that are done on the way from one session to another. What has nothing to do
with listeners is left open. -/
inductive Does : Session → Nest → Session → Prop where
  | still {before after : Session} (same : Still before after) : Does before [] after
  | andThen {first second third : Session} {near far : Nest} (sooner : Does first near second)
      (later : Does second far third) : Does first (near ++ far) third
  | registers (session : Session) (script : Script) :
      Does session [(0, .registers ⟨session.registered, script⟩)] (session.listen script)
  | ends (session : Session) (alive : session.disposed = false) :
      Does session [] { session with disposed := true, listeners := [], cache := .starting .empty }
  | fires {react : Reaction} {session : Session} {nest : Nest} (first last : Nat)
      (delivers : Delivers react first last session.listeners { session with listeners := [] } nest) :
      Does session nest (session.fire react first last)

/-- Whether the deeds are those that are done while listeners are told of a range of lines, one after
another. -/
inductive Delivers : Reaction → Nat → Nat → List Listener → Session → Nest → Prop where
  | nil (react : Reaction) (first last : Nat) (session : Session) :
      Delivers react first last [] session []
  | cons {react : Reaction} {first last : Nat} {listener : Listener} {waiting : List Listener}
      {session : Session} {inside later : Nest}
      (runs : Does session inside (react listener.script session).1)
      (rest : Delivers react first last waiting (session.deliver react first last listener) later) :
      Delivers react first last (listener :: waiting) session
        (inside.deeper ++ (0, .tells listener first last) :: later)

end

/-! ## Every script is a nest of deeds -/

/-- Whether scripts do nothing but make requests, in whatever way they are carried out, and cause one another
to a finite depth only. The requests may depend on the session, and so on all that is recorded. -/
inductive Requesting : Reaction → Prop where
  | idle {react : Reaction} (nothing : ∀ script session, (react script session).1 = session) :
      Requesting react
  | nested {react inner : Reaction} (inside : Requesting inner)
      (requests : ∀ script session, ∃ requests,
        (react script session).1 = session.performAll inner requests) : Requesting react

theorem requesting_reaction (depth : Nat) : Requesting (reaction depth) := by
  induction depth with
  | zero => exact .idle fun _ _ => rfl
  | succ depth ih => exact .nested ih fun script session => ⟨script, runScript_fst _ script session⟩

/-- A reaction that only makes requests keeps whatever lasts, by induction on how it came about. -/
theorem Requesting.keeps {react : Reaction} (requesting : Requesting react)
    {relation : Session → Session → Prop} (lasting : Lasting relation) : Keeps relation react := by
  induction requesting with
  | idle nothing =>
      intro script session
      rw [nothing]
      exact lasting.refl session
  | nested inside requests ih =>
      intro script session
      obtain ⟨made, same⟩ := requests script session
      rw [same]
      exact lasting.performAll ih session made

/-- Deeds with nothing done before and after. -/
theorem Does.between {before first second after : Session} {nest : Nest}
    (does : Does first nest second) (opening : Still before first) (closing : Still second after) :
    Does before nest after := by
  have framed := (Does.still opening).andThen (does.andThen (.still closing))
  rwa [List.append_nil] at framed

/-- Listeners are called one after another, and each call does what the listener's script does. -/
theorem exists_delivers {react : Reaction}
    (keeps : Keeps (fun before after => ∃ nest, Does before nest after) react) (first last : Nat)
    (listeners : List Listener) (session : Session) :
    ∃ nest, Delivers react first last listeners session nest := by
  induction listeners generalizing session with
  | nil => exact ⟨[], .nil react first last session⟩
  | cons listener waiting ih =>
      obtain ⟨inside, runs⟩ := keeps listener.script session
      obtain ⟨later, rest⟩ := ih (session.deliver react first last listener)
      exact ⟨_, .cons runs rest⟩

/-- What is done over any request is a nest of deeds. -/
theorem lasting_does : Lasting fun before after => ∃ nest, Does before nest after where
  refl _ := ⟨[], .still ⟨rfl, rfl, rfl, rfl⟩⟩
  trans := fun ⟨near, sooner⟩ ⟨far, later⟩ => ⟨near ++ far, sooner.andThen later⟩
  working same _ _ := by
    rw [same]
    exact ⟨[], .still ⟨rfl, rfl, rfl, rfl⟩⟩
  enclose _ := fun ⟨nest, does⟩ => ⟨nest, does.between ⟨rfl, rfl, rfl, rfl⟩ ⟨rfl, rfl, rfl, rfl⟩⟩
  probed line answers _ := by
    rintro ⟨nest, does⟩
    refine ⟨nest, does.between ⟨rfl, rfl, rfl, rfl⟩ ⟨rfl, rfl, rfl, ?_⟩⟩
    rw [calls_record]
    exact List.append_nil _
  listen session script := ⟨_, .registers session script⟩
  discard session alive _ := ⟨[], .ends session alive⟩
  fire keeps session first last := by
    obtain ⟨nest, delivers⟩ :=
      exists_delivers keeps first last session.listeners { session with listeners := [] }
    exact ⟨nest, .fires first last delivers⟩

/-! ## What a nest of deeds leaves -/

/-- What deeds leave behind: a record of all that was told, new listeners that are numbered one after another
and, unless the session was disposed in between, the list with these at its end. -/
structure Leaves (before : Session) (nest : Nest) (after : Session) : Prop where
  ended : before.disposed = true → after.disposed = true
  listeners : after.disposed = before.disposed →
    after.listeners = before.listeners ++ nest.registered
  known : ∀ listener ∈ after.listeners, listener ∈ before.listeners ∨ listener ∈ nest.registered
  registered : after.registered = before.registered + nest.registered.length
  numbers : nest.registered.map Listener.number =
    List.range' before.registered nest.registered.length
  calls : after.calls = before.calls ++ nest.calls

/-- Whether all listeners that are told of something inside of at least so many scripts were in the list or
are new. -/
def Acquainted (least : Nat) (before : Session) (nest : Nest) : Prop :=
  ∀ level listener first last, least ≤ level → (level, .tells listener first last) ∈ nest →
    listener ∈ before.listeners ∨ listener ∈ nest.registered

namespace Leaves

variable {session first second third : Session} {near far nest : Nest}

/-- Where nothing changes that has to do with listeners, no deeds are left. -/
theorem of_still (same : Still first second) : Leaves first [] second where
  ended := same.disposed.trans
  listeners _ := same.listeners.trans (List.append_nil _).symm
  known _ member := .inl (same.listeners ▸ member)
  registered := same.registered
  numbers := rfl
  calls := same.calls.trans (List.append_nil _).symm

/-- Registering a listener is a deed, and puts it at the end of the list. -/
theorem of_listen (session : Session) (script : Script) :
    Leaves session [(0, .registers ⟨session.registered, script⟩)] (session.listen script) where
  ended := id
  listeners _ := rfl
  known _ := List.mem_append.mp
  registered := rfl
  numbers := rfl
  calls := (List.append_nil _).symm

/-- A session that is disposed has an empty list, whatever was in it. -/
theorem of_dispose (alive : session.disposed = false) :
    Leaves session []
      { session with disposed := true, listeners := [], cache := .starting .empty } where
  ended _ := rfl
  listeners same := absurd (same.trans alive) Bool.true_eq_false.mp
  known := nofun
  registered := rfl
  numbers := rfl
  calls := (List.append_nil _).symm

/-- What two stretches leave they leave together, with the deeds of both in order. -/
theorem trans (sooner : Leaves first near second) (later : Leaves second far third) :
    Leaves first (near ++ far) third where
  ended disposed := later.ended (sooner.ended disposed)
  listeners same := by
    have middle : second.disposed = first.disposed :=
      Bool.eq_iff_iff.mpr ⟨fun ended => same ▸ later.ended ended, sooner.ended⟩
    rw [later.listeners (same.trans middle.symm), sooner.listeners middle, Nest.registered_append,
      List.append_assoc]
  known listener member := by
    rw [Nest.registered_append, List.mem_append]
    rcases later.known listener member with between | new
    · exact (sooner.known listener between).imp_right .inl
    · exact .inr (.inr new)
  registered := by
    rw [later.registered, sooner.registered, Nest.registered_append, List.length_append,
      Nat.add_assoc]
  numbers := by
    rw [Nest.registered_append, List.map_append, List.length_append, sooner.numbers, later.numbers,
      sooner.registered, List.range'_append_1]
  calls := by rw [later.calls, sooner.calls, Nest.calls_append, List.append_assoc]

/-- Deeds leave the same behind inside of a script. -/
theorem deeper (leaves : Leaves first nest second) : Leaves first nest.deeper second := by
  obtain ⟨ended, listeners, known, registered, numbers, calls⟩ := leaves
  rw [← nest.registered_deeper] at listeners known registered numbers
  rw [← nest.calls_deeper] at calls
  exact ⟨ended, listeners, known, registered, numbers, calls⟩

/-- Telling a listener is a deed, and is recorded. -/
theorem of_record (session : Session) (listener : Listener) (first last : Nat)
    (answers : List Answer) :
    Leaves session [(0, .tells listener first last)]
      (session.record (.delivered listener.number first last answers)) where
  ended := id
  listeners _ := (List.append_nil _).symm
  known _ := .inl
  registered := rfl
  numbers := rfl
  calls := session.calls_record _

/-- Once all listeners have been told, they are put back in front of the new ones. -/
theorem fire {react : Reaction} {first last : Nat}
    (leaves : Leaves { session with listeners := [] } nest
      (session.listeners.foldl (deliver react first last) { session with listeners := [] })) :
    Leaves session nest (session.fire react first last) where
  ended := leaves.ended
  listeners same := congrArg (session.listeners ++ ·) (leaves.listeners same)
  known listener member := by
    refine (List.mem_append.mp member).imp_right fun between => ?_
    exact (leaves.known listener between).resolve_left List.not_mem_nil
  registered := leaves.registered
  numbers := leaves.numbers
  calls := leaves.calls

end Leaves

namespace Acquainted

variable {first second : Session} {near far nest : Nest} {least : Nat}

theorem nil (least : Nat) (session : Session) : Acquainted least session [] := nofun

theorem of_registers (session : Session) (listener : Listener) :
    Acquainted least session [(0, .registers listener)] := by
  intro level other start stop _ member
  cases List.mem_singleton.mp member

theorem of_tells (session : Session) (listener : Listener) (start stop : Nat) :
    Acquainted 1 session [(0, .tells listener start stop)] := by
  intro level other _ _ reached member
  cases List.mem_singleton.mp member
  cases reached

/-- Scripts of two stretches tell only listeners that are new, if those of each do. -/
theorem append (sooner : Acquainted least first near) (leaves : Leaves first near second)
    (later : Acquainted least second far) : Acquainted least first (near ++ far) := by
  intro level listener start stop reached member
  rw [Nest.registered_append, List.mem_append]
  rcases List.mem_append.mp member with before | after
  · exact (sooner level listener start stop reached before).imp_right .inl
  · rcases later level listener start stop reached after with between | new
    · exact (leaves.known listener between).imp_right .inl
    · exact .inr (.inr new)

theorem deeper (acquainted : Acquainted 0 first nest) : Acquainted 1 first nest.deeper := by
  intro level listener start stop _ member
  obtain ⟨⟨outer, deed⟩, done, same⟩ := List.mem_map.mp member
  cases same
  rw [nest.registered_deeper]
  exact acquainted outer listener start stop (Nat.zero_le outer) done

/-- Outside of all scripts those in the list are told, and inside of scripts only new ones. -/
theorem fire {session : Session} (acquainted : Acquainted 1 { session with listeners := [] } nest)
    (outermost : nest.outermost = session.listeners) : Acquainted 0 session nest := by
  intro level listener start stop _ member
  cases level with
  | zero => exact .inl (outermost ▸ Nest.mem_outermost member)
  | succ level =>
      have met := acquainted (level + 1) listener start stop (Nat.le_add_left 1 level) member
      exact .inr (met.resolve_left List.not_mem_nil)

end Acquainted

mutual

/-- What deeds leave behind, by induction on how they are nested. A listener that is told inside of a script
is new to the outer delivery, as that one began with an empty list. -/
theorem Does.leaves {before after : Session} {nest : Nest} (does : Does before nest after) :
    Leaves before nest after ∧ Acquainted 0 before nest := by
  match does with
  | .still same => exact ⟨.of_still same, .nil 0 before⟩
  | .andThen sooner later =>
      obtain ⟨near, met⟩ := sooner.leaves
      obtain ⟨far, meets⟩ := later.leaves
      exact ⟨near.trans far, met.append near meets⟩
  | .registers session script => exact ⟨.of_listen session script, .of_registers session _⟩
  | .ends session alive => exact ⟨.of_dispose alive, .nil 0 session⟩
  | .fires first last delivers =>
      obtain ⟨leaves, met, outermost⟩ := delivers.leaves
      exact ⟨leaves.fire, met.fire outermost⟩
termination_by structural does

/-- The listeners of a list are told in order, and outside of their scripts nobody else is. What the scripts
do comes in between. -/
theorem Delivers.leaves {react : Reaction} {first last : Nat} {listeners : List Listener}
    {session : Session} {nest : Nest}
    (delivers : Delivers react first last listeners session nest) :
    Leaves session nest (listeners.foldl (deliver react first last) session) ∧
      Acquainted 1 session nest ∧ nest.outermost = listeners := by
  match delivers with
  | .nil react first last session => exact ⟨.of_still ⟨rfl, rfl, rfl, rfl⟩, .nil 1 session, rfl⟩
  | @Delivers.cons react first last listener waiting session inside later runs rest =>
      obtain ⟨scripted, met⟩ := runs.leaves
      obtain ⟨others, meets, outermost⟩ := rest.leaves
      have told : Leaves (react listener.script session).1 [(0, .tells listener first last)]
          (session.deliver react first last listener) := .of_record _ listener first last _
      have turn := (Acquainted.of_tells _ listener first last).append told meets
      refine ⟨scripted.deeper.trans (told.trans others), met.deeper.append scripted.deeper turn, ?_⟩
      rw [Nest.outermost_append, Nest.outermost_deeper, ← outermost]
      rfl
termination_by structural delivers

end

/-- **The list of listeners.** Let the listeners in the list be told of a range of lines, and let their
scripts request whatever they like, so long as they do not dispose the session. In the end the list is that
of the beginning, with all listeners behind it that have been registered since, in order of registration:
they have the numbers that were given meanwhile. Outside of scripts exactly the listeners of the beginning
are told, each of them once and in order. Whoever is told of something inside of a script has been registered
since. The record holds all who have been told. -/
theorem fire_keeps_listeners {react : Reaction} (requesting : Requesting react) {session : Session}
    {first last : Nat}
    (kept : (session.fire react first last).disposed = session.disposed) :
    ∃ nest : Nest,
      Delivers react first last session.listeners { session with listeners := [] } nest ∧
      (session.fire react first last).listeners = session.listeners ++ nest.registered ∧
      nest.registered.map Listener.number =
        List.range' session.registered nest.registered.length ∧
      (session.fire react first last).registered =
        session.registered + nest.registered.length ∧
      nest.outermost = session.listeners ∧
      (∀ level listener first last, (level + 1, .tells listener first last) ∈ nest →
        listener ∈ nest.registered) ∧
      (session.fire react first last).calls = session.calls ++ nest.calls := by
  obtain ⟨nest, delivers⟩ := exists_delivers (requesting.keeps lasting_does) first last
    session.listeners { session with listeners := [] }
  obtain ⟨leaves, met, outermost⟩ := delivers.leaves
  refine ⟨nest, delivers, leaves.fire.listeners kept, leaves.numbers, leaves.registered, outermost,
    ?_, leaves.calls⟩
  intro level listener start stop member
  have known := met (level + 1) listener start stop (Nat.le_add_left 1 level) member
  exact known.resolve_left List.not_mem_nil

/-- The first listener registers another one and invalidates a line, of which only the new one is told. The
second listener ends a batch, and all those are told that have been registered since. -/
theorem fire_keeps_listeners_batch :
    let session := (start (Languages.Toml.grammar .standard) (.ofLines ["a", "b"])).handleAll
      [.listen [.listen [.listen []], .invalidate 2, .listen []],
        .listen [.beginBatch, .lineChanged 2, .endBatch]]
    let after := session.fire (reaction nestingLimit) 1 1
    after.disposed = session.disposed ∧
      ∃ nest : Nest,
        Delivers (reaction nestingLimit) 1 1 session.listeners { session with listeners := [] } nest ∧
        nest.outermost = [⟨0, [.listen [.listen []], .invalidate 2, .listen []]⟩,
          ⟨1, [.beginBatch, .lineChanged 2, .endBatch]⟩] ∧
        after.listeners = session.listeners ++ nest.registered ∧
        nest.registered.map Listener.number = [2, 3, 4, 5] ∧
        nest.calls =
          [(2, 2, 2), (0, 1, 1), (2, 2, 2), (3, 2, 2), (4, 2, 2), (1, 1, 1)] := by
  intro session after
  have kept : after.disposed = session.disposed := by decide +kernel
  obtain ⟨nest, delivers, listeners, _, _, outermost, _, calls⟩ :=
    fire_keeps_listeners (requesting_reaction nestingLimit) kept
  have untold : session.calls = [] := by decide +kernel
  have told : after.calls =
      [(2, 2, 2), (0, 1, 1), (2, 2, 2), (3, 2, 2), (4, 2, 2), (1, 1, 1)] := by decide +kernel
  have numbers : after.listeners.map Listener.number =
      session.listeners.map Listener.number ++ [2, 3, 4, 5] := by decide +kernel
  refine ⟨kept, nest, delivers, outermost, listeners, ?_, ?_⟩
  · rw [listeners, List.map_append] at numbers
    exact List.append_cancel_left numbers
  · rw [untold] at calls
    exact calls.symm.trans told

end Highlight.Session
