import Highlight.Languages.Toml
import Highlight.Proofs.Session.Lasting
import Highlight.Proofs.Session.Refusal

/-! # Scripts cannot disturb a pass

While a pass runs, its session refuses every request that would change what the pass works on. A script of a
listener or of the probe that does not edit the document itself leaves the kept stacks, the grammar and the
text alone, so that the pass gives what it would give if all scripts were empty
(`Highlight.Session.pass_undisturbed`).
-/

namespace Highlight.Session

/-! ## Refusing -/

/-- Carries out the requests of a script one after another, refusing those that would disturb a pass. -/
def refuseScript (react : Reaction) : Reaction
  | [], session => (session, [])
  | request :: rest, session =>
    let (session, answer) :=
      if request.disturbs session.document then (session, .failed .reentrant)
      else session.perform react request
    let (session, answers) := refuseScript react rest session
    (session, answer :: answers)

/-- The reaction in which scripts may cause one another to the given depth and are refused whatever would
disturb a pass. -/
def refusing : Nat → Reaction
  | 0 => fun _ session => (session, [])
  | depth + 1 => refuseScript (refusing depth)

/-! ## Scripts that leave the text alone -/

mutual

/-- Whether neither the request nor a script that it sets up edits the document. -/
def Request.sparesText : Request → Bool
  | .replaceLine _ _ | .insertLine _ _ | .removeLine _ => false
  | .listen script => sparesText script
  | .probe (some script) => sparesText script
  | _ => true

/-- Whether no request of the script edits the document, nor one of a script that it sets up. -/
def sparesText : Script → Bool
  | [] => true
  | request :: rest => request.sparesText && sparesText rest

end

/-- Whether neither the listeners nor the probe edit the document. -/
structure SparesText (session : Session) : Prop where
  listeners : ∀ listener ∈ session.listeners, sparesText listener.script = true
  probe : ∀ script ∈ session.probe, sparesText script = true

/-- Whether a pass is running whose listeners and probe do not edit the document. -/
structure Sheltered (session : Session) : Prop where
  passing : session.passing = true
  alive : session.disposed = false
  spares : session.SparesText

/-- Whether a running pass goes on and finds all that it works on as it was. -/
structure Shelters (before after : Session) : Prop where
  sheltered : after.Sheltered
  grammar : after.grammar = before.grammar
  document : after.document = before.document
  cache : after.cache = before.cache

theorem Sheltered.refl {session : Session} (sheltered : session.Sheltered) :
    Shelters session session :=
  ⟨sheltered, rfl, rfl, rfl⟩

/-- What a pass works on is neither the batch nor the log. -/
theorem Sheltered.noting {session : Session} (sheltered : session.Sheltered) (batching : Bool)
    (held : Option (Nat × Nat)) (probing : Bool) (log : List Event) :
    Shelters session
      { session with batching := batching, held := held, probing := probing, log := log } :=
  ⟨⟨sheltered.passing, sheltered.alive, sheltered.spares.listeners, sheltered.spares.probe⟩, rfl,
    rfl, rfl⟩

theorem Shelters.trans {first second third : Session} (near : Shelters first second)
    (far : Shelters second third) : Shelters first third :=
  ⟨far.sheltered, far.grammar.trans near.grammar, far.document.trans near.document,
    far.cache.trans near.cache⟩

/-- What comes of reading a line once the script of the probe has been carried out. -/
def probed (line : Nat) (acted : Session × List Answer) : Session × String :=
  ({ acted.1 with probing := false }.record (.read line acted.2), acted.1.document.line line)

/-- A line is read without a script just if no probe is set or its script is running. -/
theorem readLine_eq (session : Session) (line : Nat) :
    (session.probe = none ∨ session.probing = true) ∧
        (∀ react, session.readLine react line = (session, session.document.line line)) ∨
      ∃ script ∈ session.probe, ∀ react,
        session.readLine react line = probed line (react script { session with probing := true }) := by
  cases probe : session.probe with
  | none => exact .inl ⟨.inl rfl, fun react => readLine_of_unprobed react probe line⟩
  | some script =>
      cases probing : session.probing with
      | true => exact .inl ⟨.inr rfl, fun react => by simp only [readLine, probe, probing]⟩
      | false =>
          refine .inr ⟨script, rfl, fun react => ?_⟩
          simp only [readLine, probed, probe, probing]
          rfl

/-- Whether scripts that do not edit the document shelter a running pass, and are carried out by both
reactions alike. -/
def Sheltering (react other : Reaction) : Prop :=
  ∀ script session, sparesText script = true → session.Sheltered →
    react script session = other script session ∧ Shelters session (react script session).1

namespace Sheltering

variable {react other : Reaction} (sheltering : Sheltering react other) {session : Session}
include sheltering

/-- A listener that does not edit the document is called alike by both reactions, and shelters the pass. -/
theorem deliver (first last : Nat) {listener : Listener} (spares : sparesText listener.script = true)
    (sheltered : session.Sheltered) :
    session.deliver react first last listener = session.deliver other first last listener ∧
      Shelters session (session.deliver react first last listener) := by
  obtain ⟨same, shelters⟩ := sheltering listener.script session spares sheltered
  rw [Session.deliver, Session.deliver, ← same]
  exact ⟨rfl, shelters.trans (shelters.sheltered.noting _ _ _ _)⟩

/-- So are several of them, one after another. -/
theorem foldl_deliver (first last : Nat) {listeners : List Listener}
    (spares : ∀ listener ∈ listeners, sparesText listener.script = true)
    (sheltered : session.Sheltered) :
    listeners.foldl (Session.deliver react first last) session =
        listeners.foldl (Session.deliver other first last) session ∧
      Shelters session (listeners.foldl (Session.deliver react first last) session) := by
  induction listeners generalizing session with
  | nil => exact ⟨rfl, sheltered.refl⟩
  | cons listener rest ih =>
      obtain ⟨here, later⟩ := List.forall_mem_cons.mp spares
      obtain ⟨same, shelters⟩ := sheltering.deliver first last here sheltered
      obtain ⟨sameLater, sheltersLater⟩ := ih later shelters.sheltered
      rw [List.foldl_cons, List.foldl_cons, ← same]
      exact ⟨sameLater, shelters.trans sheltersLater⟩

/-- So is the whole list. -/
theorem fire (first last : Nat) (sheltered : session.Sheltered) :
    session.fire react first last = session.fire other first last ∧
      Shelters session (session.fire react first last) := by
  have spares := sheltered.spares.listeners
  have aside : { session with listeners := [] }.Sheltered :=
    ⟨sheltered.passing, sheltered.alive, nofun, sheltered.spares.probe⟩
  obtain ⟨same, shelters⟩ := sheltering.foldl_deliver first last spares aside
  have still := shelters.sheltered
  rw [Session.fire, Session.fire, ← same]
  refine ⟨rfl, ⟨still.passing, still.alive, fun listener member => ?_, still.spares.probe⟩,
    shelters.grammar, shelters.document, shelters.cache⟩
  rcases List.mem_append.mp member with before | new
  · exact spares listener before
  · exact still.spares.listeners listener new

/-- Notices are given alike, be they held back or not. -/
theorem notify (first last : Nat) (sheltered : session.Sheltered) :
    session.notify react first last = session.notify other first last ∧
      Shelters session (session.notify react first last) := by
  rw [Session.notify, Session.notify]
  split
  · exact ⟨rfl, sheltered.noting _ _ _ _⟩
  · exact sheltering.fire first last sheltered

/-- So are notices of several lines. -/
theorem notifyEach (lines : List Nat) (sheltered : session.Sheltered) :
    session.notifyEach react lines = session.notifyEach other lines ∧
      Shelters session (session.notifyEach react lines) := by
  induction lines generalizing session with
  | nil => exact ⟨rfl, sheltered.refl⟩
  | cons line rest ih =>
      obtain ⟨same, shelters⟩ := sheltering.notify line line sheltered
      obtain ⟨sameLater, sheltersLater⟩ := ih shelters.sheltered
      rw [Session.notifyEach, List.foldl_cons, Session.notifyEach, List.foldl_cons, ← same]
      exact ⟨sameLater, shelters.trans sheltersLater⟩

/-- A line is read alike, and its text is that of the document. -/
theorem readLine (line : Nat) (sheltered : session.Sheltered) :
    session.readLine react line = session.readLine other line ∧
      ∃ after, session.readLine react line = (after, session.document.line line) ∧
        Shelters session after := by
  rcases session.readLine_eq line with ⟨_, unprobed⟩ | ⟨script, member, reads⟩
  · rw [unprobed, unprobed]
    exact ⟨rfl, session, rfl, sheltered.refl⟩
  · have opened := sheltered.noting session.batching session.held true session.log
    obtain ⟨same, shelters⟩ :=
      sheltering script _ (sheltered.spares.probe script member) opened.sheltered
    have after := opened.trans shelters
    rw [reads, reads, ← same]
    refine ⟨rfl, _, Prod.ext rfl (congrArg (Document.line · line) after.document), ?_⟩
    exact after.trans (after.sheltered.noting _ _ _ _)

/-- A batch that ends inside of a pass ends alike. -/
theorem endBatch (sheltered : session.Sheltered) :
    session.endBatch react = session.endBatch other ∧
      Shelters session (session.endBatch react).1 := by
  rw [Session.endBatch, Session.endBatch, checkAlive_of_alive sheltered.alive, guarded, guarded]
  split
  · dsimp only
    split
    · exact ⟨rfl, sheltered.noting _ _ _ _⟩
    · rename_i first last _
      have ended := sheltered.noting false none session.probing session.log
      obtain ⟨same, shelters⟩ := sheltering.fire first last ended.sheltered
      exact ⟨Prod.ext same rfl, ended.trans shelters⟩
  · exact ⟨rfl, sheltered.refl⟩

/-- What a running pass does with one request does not depend on the reaction beyond what scripts do. -/
theorem perform {request : Request} (spares : request.sparesText = true)
    (sheltered : session.Sheltered) :
    session.perform react request = session.perform other request ∧
      Shelters session (session.perform react request).1 := by
  have unmoved : ∀ {request answer},
      (∀ react, session.perform react request = (session, answer)) →
        session.perform react request = session.perform other request ∧
          Shelters session (session.perform react request).1 := by
    intro request answer still
    rw [still, still]
    exact ⟨rfl, sheltered.refl⟩
  have refused : ∀ {request}, request.disturbs session.document = true →
      ∀ react, session.perform react request = (session, .failed .reentrant) :=
    fun disturbs react => perform_of_disturbs sheltered.passing sheltered.alive react disturbs
  cases request with
  | highlight line =>
      exact unmoved fun react => perform_highlight_of_stuck (.inr sheltered.passing) react line
  | stackAt line =>
      exact unmoved fun react => perform_stackAt_of_stuck (.inr sheltered.passing) react line
  | invalidate line => exact unmoved (refused rfl)
  | invalidateAll => exact unmoved (refused rfl)
  | lineChanged line => exact unmoved (refused rfl)
  | lineInserted after inserted => exact unmoved (refused rfl)
  | lineRemoved line => exact unmoved (refused rfl)
  | rebuild => exact unmoved (refused rfl)
  | dispose => exact unmoved (refused rfl)
  | setInitialStack stack => exact unmoved (refused rfl)
  | initialStack => exact unmoved fun _ => rfl
  | marker => exact unmoved fun _ => rfl
  | namedStyle name => exact unmoved fun _ => rfl
  | describeText => exact unmoved fun _ => rfl
  | beginBatch =>
      refine ⟨rfl, ?_⟩
      rw [Session.perform, Session.beginBatch, checkAlive_of_alive sheltered.alive, guarded]
      split
      · exact sheltered.refl
      · exact sheltered.noting _ _ _ _
  | endBatch =>
      obtain ⟨same, shelters⟩ := sheltering.endBatch sheltered
      rw [Session.perform, Session.perform, ← same]
      exact ⟨rfl, shelters⟩
  | replaceLine line text => cases spares
  | insertLine after text => cases spares
  | removeLine line => cases spares
  | listen script =>
      refine ⟨rfl, ⟨sheltered.passing, sheltered.alive, ?_, sheltered.spares.probe⟩, rfl, rfl, rfl⟩
      intro listener member
      rcases List.mem_append.mp member with before | new
      · exact sheltered.spares.listeners listener before
      · rw [List.mem_singleton.mp new]
        exact spares
  | probe script =>
      refine ⟨rfl, ⟨sheltered.passing, sheltered.alive, sheltered.spares.listeners, ?_⟩, rfl, rfl,
        rfl⟩
      rintro script rfl
      exact spares

/-- A script does the same whether or not its disturbing requests are looked at. -/
theorem runScript : Sheltering (Session.runScript react) (refuseScript other) := by
  intro script
  induction script with
  | nil => exact fun session _ sheltered => ⟨rfl, sheltered.refl⟩
  | cons request rest ih =>
      intro session spares sheltered
      obtain ⟨here, later⟩ := Bool.and_eq_true_iff.mp spares
      obtain ⟨same, shelters⟩ := sheltering.perform here sheltered
      obtain ⟨sameLater, sheltersLater⟩ := ih _ later shelters.sheltered
      rw [Session.runScript, refuseScript]
      by_cases disturbs : request.disturbs session.document = true
      · have refused := perform_of_disturbs sheltered.passing sheltered.alive react disturbs
        rw [refused] at sameLater sheltersLater ⊢
        rw [if_pos disturbs]
        dsimp only
        rw [← sameLater]
        exact ⟨rfl, sheltersLater⟩
      · rw [if_neg disturbs, ← same]
        dsimp only
        rw [← sameLater]
        exact ⟨rfl, shelters.trans sheltersLater⟩

end Sheltering

/-- However deep scripts cause one another, a running pass refuses all that would disturb it. -/
theorem sheltering_reaction (depth : Nat) : Sheltering (reaction depth) (refusing depth) := by
  induction depth with
  | zero => exact fun _ session _ sheltered => ⟨rfl, sheltered.refl⟩
  | succ depth ih => exact ih.runScript

/-! ## Passes -/

section Passes

variable {react other : Reaction} (sheltering : Sheltering react other)
include sheltering

/-- A pass is the same whether or not disturbing requests are looked at, and keeps the text. -/
theorem Sheltering.lockstep_eq (document : Document) :
    Lockstep react other fun first second =>
      first = second ∧ first.Sheltered ∧ first.document = document where
  grammar related := congrArg Session.grammar related.1
  document related := congrArg Session.document related.1
  cache related := congrArg Session.cache related.1
  stored := by
    rintro session _ ⟨rfl, sheltered, text⟩ cache
    exact ⟨rfl, ⟨sheltered.passing, sheltered.alive, sheltered.spares.listeners,
      sheltered.spares.probe⟩, text⟩
  read := by
    rintro session _ ⟨rfl, sheltered, text⟩ line
    obtain ⟨same, after, reads, shelters⟩ := sheltering.readLine line sheltered
    exact ⟨after, after, _, reads, same ▸ reads, rfl, shelters.sheltered,
      shelters.document.trans text⟩

/-- Passes over the same kept stacks and text keep the same stacks, whatever their scripts are. -/
theorem Sheltering.lockstep :
    Lockstep react react fun first second =>
      (first.Sheltered ∧ second.Sheltered) ∧ first.grammar = second.grammar ∧
        first.document = second.document ∧ first.cache = second.cache where
  grammar related := related.2.1
  document related := related.2.2.1
  cache related := related.2.2.2
  stored := by
    rintro first second ⟨⟨near, far⟩, grammar, document, _⟩ cache
    exact ⟨⟨⟨near.passing, near.alive, near.spares.listeners, near.spares.probe⟩, far.passing,
      far.alive, far.spares.listeners, far.spares.probe⟩, grammar, document, rfl⟩
  read := by
    rintro first second ⟨⟨near, far⟩, grammar, document, cache⟩ line
    obtain ⟨_, after, reads, shelters⟩ := sheltering.readLine line near
    obtain ⟨_, last, readsOther, sheltersOther⟩ := sheltering.readLine line far
    refine ⟨after, last, _, reads, document ▸ readsOther,
      ⟨shelters.sheltered, sheltersOther.sheltered⟩, ?_, ?_, ?_⟩
    · rw [shelters.grammar, sheltersOther.grammar, grammar]
    · rw [shelters.document, sheltersOther.document, document]
    · rw [shelters.cache, sheltersOther.cache, cache]

end Passes

/-- The session with the scripts of all listeners and of the probe empty. -/
def silenced (session : Session) : Session :=
  { session with
    listeners := session.listeners.map fun listener => ⟨listener.number, []⟩
    probe := session.probe.map fun _ => [] }

/-- A silenced session has no script that could edit the document. -/
theorem sparesText_silenced (session : Session) : session.silenced.SparesText := by
  constructor
  · intro listener member
    obtain ⟨_, _, rfl⟩ := List.mem_map.mp member
    rfl
  · intro script member
    obtain ⟨_, _, rfl⟩ := Option.map_eq_some_iff.mp member
    rfl

section Idle

variable {session : Session} {line : Nat} {request : Request}
  (idle : session.passing = false) (spares : session.SparesText)
  (scans : request ∈ [Request.highlight line, .stackAt line])
include idle spares scans

/-- A request that scans does the same if its scripts are refused what would disturb the pass, and it leaves
the text alone. -/
theorem perform_eq_refusing (depth : Nat) :
    session.perform (reaction depth) request = session.perform (refusing depth) request ∧
      (session.perform (reaction depth) request).1.document = session.document := by
  have sheltering := sheltering_reaction depth
  cases disposed : session.disposed with
  | true =>
      rw [perform_of_disposed disposed _ (fallible_of_scans scans),
        perform_of_disposed disposed _ (fallible_of_scans scans)]
      exact ⟨rfl, rfl⟩
  | false =>
      have entered : { session with passing := true }.Sheltered :=
        ⟨rfl, disposed, spares.listeners, spares.probe⟩
      have matched := (sheltering.lockstep_eq session.document).perform idle idle rfl
        ⟨rfl, entered, rfl⟩ line request scans
      generalize session.perform (reaction depth) request = performed,
        session.perform (refusing depth) request = refused at matched ⊢
      cases matched with
      | refused refusal => exact ⟨rfl, rfl⟩
      | passed related changed result =>
          obtain ⟨rfl, sheltered, text⟩ := related
          obtain ⟨same, shelters⟩ := sheltering.notifyEach changed sheltered
          rw [same] at shelters ⊢
          exact ⟨rfl, shelters.document.trans text⟩

/-- It is answered, and keeps stacks, as it does with no scripts at all. -/
theorem perform_eq_silenced (depth : Nat) :
    (session.perform (reaction depth) request).2 =
        (session.silenced.perform (reaction depth) request).2 ∧
      (session.perform (reaction depth) request).1.cache =
        (session.silenced.perform (reaction depth) request).1.cache := by
  have sheltering := sheltering_reaction depth
  cases disposed : session.disposed with
  | true =>
      have alike : session.silenced.disposed = true := disposed
      rw [perform_of_disposed disposed _ (fallible_of_scans scans),
        perform_of_disposed alike _ (fallible_of_scans scans)]
      exact ⟨rfl, rfl⟩
  | false =>
      have silent := session.sparesText_silenced
      have idleSilenced : session.silenced.passing = false := idle
      have matched := sheltering.lockstep.perform idle idleSilenced rfl
        ⟨⟨⟨rfl, disposed, spares.listeners, spares.probe⟩, rfl, disposed, silent.listeners,
          silent.probe⟩, rfl, rfl, rfl⟩ line request scans
      generalize session.perform (reaction depth) request = performed,
        session.silenced.perform (reaction depth) request = silenced at matched ⊢
      cases matched with
      | refused refusal => exact ⟨rfl, rfl⟩
      | passed related changed result =>
          obtain ⟨⟨near, far⟩, _, _, cache⟩ := related
          have shelters := (sheltering.notifyEach changed near).2
          have sheltersOther := (sheltering.notifyEach changed far).2
          exact ⟨rfl, shelters.cache.trans (cache.trans sheltersOther.cache.symm)⟩

end Idle

/-- **Scripts cannot disturb a pass.** Where neither the listeners nor the probe edit the document, a request
to highlight a line or for the stack at its end is answered, and the stacks and the marker are kept, as if
all scripts were empty. Whatever the scripts request that would disturb the pass is refused and changes
nothing, and once the request is answered no pass is running. Between the requests of an editor none
ever is. -/
theorem pass_undisturbed {session : Session} (idle : session.passing = false)
    (spares : session.SparesText) (depth line : Nat) :
    (∀ request ∈ [Request.highlight line, .stackAt line],
      (session.perform (reaction depth) request).2 =
          (session.silenced.perform (reaction depth) request).2 ∧
        (session.perform (reaction depth) request).1.cache =
          (session.silenced.perform (reaction depth) request).1.cache ∧
        (session.perform (reaction depth) request).1.document = session.document ∧
        (session.perform (reaction depth) request).1.passing = false ∧
        session.perform (reaction depth) request = session.perform (refusing depth) request) ∧
    (∀ react (inner : Session) (request : Request), inner.passing = true → inner.disposed = false →
      request.disturbs inner.document = true →
      inner.perform react request = (inner, .failed .reentrant)) ∧
    ∀ grammar document limit requests,
      ((start grammar document).performAll (reaction limit) requests).passing = false := by
  refine ⟨fun request scans => ?_, ?_, fun grammar document limit requests => ?_⟩
  · obtain ⟨answer, cache⟩ := perform_eq_silenced idle spares scans depth
    obtain ⟨same, text⟩ := perform_eq_refusing idle spares scans depth
    have released := lasting_passing.perform (lasting_passing.reaction depth) session request
    exact ⟨answer, cache, text, released.trans idle, same⟩
  · exact fun react inner request passing alive => perform_of_disturbs passing alive react
  · exact lasting_passing.performAll (lasting_passing.reaction limit) (start grammar document) requests

/-- The probe ends a batch in the middle of a pass, and the range held back is delivered to a listener that
tries to end the session. -/
theorem pass_undisturbed_dispose :
    let session := (start (Languages.Toml.grammar .standard) (.ofLines ["a", "b"])).handleAll
      [.listen [.dispose, .stackAt 1], .probe (some [.highlight 1, .endBatch, .lineChanged 1]),
        .beginBatch, .invalidate 1]
    session.passing = false ∧ session.SparesText ∧
      (session.handle (.highlight 2)).2 = (session.silenced.handle (.highlight 2)).2 ∧
      (session.handle (.highlight 2)).1.events =
        [.delivered 0 1 1 [.failed .reentrant, .failed .reentrant],
          .read 1 [.failed .reentrant, .done, .failed .reentrant],
          .read 2 [.failed .reentrant, .failed (.unbalancedBatch .notBegun), .failed .reentrant]] := by
  intro session
  have idle : session.passing = false := by decide +kernel
  have spares : session.SparesText :=
    ⟨List.forall_mem_singleton.mpr rfl, fun script member => Option.some_inj.mp member ▸ rfl⟩
  have undisturbed := (pass_undisturbed idle spares nestingLimit 2).1 _ List.mem_cons_self
  exact ⟨idle, spares, undisturbed.1, by decide +kernel⟩

end Highlight.Session
