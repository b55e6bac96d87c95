import Highlight.Proofs.Session.Watch

/-! # Scanning again

Replaying scans the lines from the marker on, keeps the stack at the end of each, and stops at a line whose
scan fails (`Highlight.Session.replay_rescans`). The lines that it reads are those from the marker to where it
stops, and the marker has been moved behind those whose scan has succeeded
(`Highlight.Session.Rescans.rescanned`).
-/

namespace Highlight.Session

/-- The session once the stack at the end of a line is kept and the marker is moved behind it. -/
def keepStack (session : Session) (line : Nat) (stack : SpanStack) : Session :=
  { session with cache := { (session.cache.store line stack).1 with stale := line + 1 } }

/-- Scans of lines from the marker on, each of which succeeds, with the texts that are read. -/
inductive Rescans (react : Reaction) : Session → List String → Session → Prop where
  | nil (session : Session) : Rescans react session [] session
  | cons {session after last : Session} {text : String} {stack : SpanStack} {texts : List String}
      (reads : session.readLine react session.marker = (after, text))
      (scanned : after.grammar.scanLine (session.cache.stackAt (session.marker - 1)) text = .ok stack)
      (later : Rescans react (after.keepStack session.marker stack) texts last) :
      Rescans react session (text :: texts) last

/-- The scan of the line at the marker fails. -/
structure Stops (react : Reaction) (session : Session) (text : String) (fault : Scan.Fault)
    (after : Session) : Prop where
  reads : session.readLine react session.marker = (after, text)
  fails : after.grammar.scanLine (session.cache.stackAt (session.marker - 1)) text = .error fault

/-- Replaying comes to its end, or to a line whose scan fails. -/
theorem replay_rescans (react : Reaction) (lineCount count : Nat) (session : Session) :
    ∃ texts middle, Rescans react session texts middle ∧
      (texts.length = count ∧ (session.replay react lineCount count).1 = middle ∧
          (session.replay react lineCount count).2.2 = .ok () ∨
        texts.length < count ∧ ∃ text fault after, Stops react middle text fault after ∧
          (session.replay react lineCount count).1 = after ∧
          (session.replay react lineCount count).2.2 = .error (.malformedGrammar fault)) := by
  induction count generalizing session with
  | zero => exact ⟨[], session, .nil session, .inl ⟨rfl, rfl, rfl⟩⟩
  | succ count ih =>
      rcases reads : session.readLine react session.marker with ⟨after, text⟩
      have here : session.readLine react session.cache.stale = (after, text) := reads
      rw [replay, here]
      dsimp only
      cases scanned : after.grammar.scanLine (session.cache.stackAt (session.marker - 1)) text with
      | error fault =>
          have failed : after.grammar.scanLine (session.cache.stackAt (session.cache.stale - 1)) text =
            .error fault := scanned
          rw [failed]
          exact ⟨[], session, .nil session, .inr ⟨Nat.succ_pos count, text, fault, after,
            ⟨reads, scanned⟩, rfl, rfl⟩⟩
      | ok stack =>
          have kept : after.grammar.scanLine (session.cache.stackAt (session.cache.stale - 1)) text =
            .ok stack := scanned
          rw [kept]
          obtain ⟨texts, middle, rescans, ends⟩ := ih (after.keepStack session.marker stack)
          refine ⟨text :: texts, middle, .cons reads scanned rescans, ?_⟩
          rcases ends with ⟨all, last, outcome⟩ | ⟨short, stops⟩
          · exact .inl ⟨congrArg (· + 1) all, last, outcome⟩
          · exact .inr ⟨Nat.succ_lt_succ short, stops⟩

/-- What lines that have been scanned from the marker on leave. -/
structure Rescanned (session : Session) (texts : List String) (last : Session) : Prop where
  advanced : Advanced session (List.range' session.marker texts.length) last
  marker : last.marker = session.marker + texts.length
  scanned : session.grammar.scanLines (session.cache.stackAt (session.marker - 1)) texts =
    .ok (last.cache.stackAt (last.marker - 1))
  earlier : ∀ line < session.marker, last.cache.stackAt line = session.cache.stackAt line
  own : session.SparesText →
    texts = (List.range' session.marker texts.length).map session.document.line

/-- Scanning lines one after another advances the pass over them, and the marker behind them. -/
theorem Rescans.rescanned {depth : Nat} {session last : Session} {texts : List String}
    (rescans : Rescans (reaction depth) session texts last) (passing : session.passing = true)
    (alive : session.disposed = false) : Rescanned session texts last := by
  induction rescans with
  | nil session => exact ⟨advanced_nil passing alive, rfl, rfl, fun _ _ => rfl, fun _ => rfl⟩
  | @cons session after last text stack texts reads scanned _ ih =>
      obtain ⟨_, _, same, advanced, cache, own⟩ :=
        exists_readLine_eq passing alive depth session.marker
      cases reads.symm.trans same
      have later := ih advanced.passing advanced.alive
      have marker : (after.keepStack session.marker stack).marker = session.marker + 1 := rfl
      have here : (after.keepStack session.marker stack).cache.stackAt session.marker = stack :=
        after.cache.stackAt_store session.marker stack
      constructor
      · have whole := (advanced.storing _).trans later.advanced
        rwa [marker] at whole
      · rw [later.marker, marker, List.length_cons, Nat.add_assoc, Nat.add_comm 1]
      · have onwards := later.scanned
        rw [marker, Nat.add_sub_cancel, here] at onwards
        rw [advanced.grammar] at scanned
        rw [Grammar.scanLines, scanned, ← onwards, ← advanced.grammar]
        rfl
      · intro line before
        rw [later.earlier line (Nat.lt_succ_of_lt before), ← cache]
        exact after.cache.stackAt_store_of_ne (Nat.ne_of_lt before) stack
      · intro spares
        obtain ⟨still, document⟩ := advanced.spared spares
        have others := later.own ⟨still.listeners, still.probe⟩
        have text : (after.keepStack session.marker stack).document = session.document := document
        rw [marker, text] at others
        rw [List.length_cons, List.range'_succ, List.map_cons, ← own spares, ← others]

/-- A pass begins with the lines that it finds. -/
theorem advanced_enter {session : Session} (alive : session.disposed = false) :
    Advanced session [] { session with passing := true } where
  passing := rfl
  alive := alive
  grammar := rfl
  recorded recording :=
    ⟨⟨recording.unread, recording.probed,
      recording.kept.imp_right fun keeps => ⟨keeps.listeners, keeps.probe⟩⟩,
      (List.append_nil _).symm⟩
  spared spares := ⟨⟨spares.listeners, spares.probe⟩, rfl⟩

/-- What lines leave inside of a pass is said of the session before it. -/
theorem Rescanned.of_entered {session last : Session} {texts : List String}
    (alive : session.disposed = false)
    (rescanned : Rescanned { session with passing := true } texts last) :
    Rescanned session texts last where
  advanced := (advanced_enter alive).trans rescanned.advanced
  marker := rescanned.marker
  scanned := rescanned.scanned
  earlier := rescanned.earlier
  own spares := rescanned.own ⟨spares.listeners, spares.probe⟩

end Highlight.Session
