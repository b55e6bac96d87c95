import Highlight.Proofs.Scan.Solid
import Highlight.Proofs.Session.Rescan

/-! # The work of a pass

A pass reads the lines from the marker up to the one that is asked for, each once and in their order, and
stops at the first one whose scan fails. It moves the marker behind the lines whose scan has succeeded and
never behind one whose scan has failed (`Highlight.Session.work_is_stale_part`). What a session is told of
edits reads no line and does not raise the marker.
-/

namespace Highlight.Session

/-! ## Requests for lines -/

/-- Whether the texts are those of the lines from the marker up to a line, and scanning them ends in the
stack that the line starts with. Where the marker lies behind the line, that stack is kept already. -/
structure UpTo (session : Session) (last : Nat) (texts : List String) (input : SpanStack) : Prop where
  count : texts.length = last - session.marker
  scanned : session.grammar.scanLines (session.cache.stackAt (min session.marker last - 1)) texts =
    .ok input
  own : session.SparesText →
    texts = (List.range' session.marker (last - session.marker)).map session.document.line

/-- Lines that have been scanned from the marker up to a line end in the stack it starts with. -/
theorem Rescanned.upTo {session middle : Session} {texts : List String} {last : Nat}
    (rescanned : Rescanned session texts middle) (count : texts.length = last - session.marker) :
    session.UpTo last texts (middle.cache.stackAt (last - 1)) := by
  refine ⟨count, ?_, fun spares => count ▸ rescanned.own spares⟩
  by_cases reached : session.marker ≤ last
  · have there : middle.marker = last := by
      rw [rescanned.marker, count]
      exact Nat.add_sub_of_le reached
    rw [Nat.min_eq_left reached, ← there]
    exact rescanned.scanned
  · have nothing : texts = [] := by
      apply List.eq_nil_of_length_eq_zero
      omega
    rw [Nat.min_eq_right (Nat.le_of_not_le reached), nothing,
      rescanned.earlier (last - 1) (by omega)]
    rfl

/-- What a request for a line comes to: the lines that are read, the answer, and the marker afterwards. -/
inductive Work (session : Session) : Request → List Nat → Answer → Nat → Prop where
  | shown {line offset : Nat} {texts : List String} {text : String} {input stack : SpanStack}
      {styled : StyledLine} (upTo : session.UpTo line texts input)
      (own : session.SparesText →
        text = session.document.line line ∧ offset = session.document.startOffset line)
      (shows : session.grammar.highlightLine input line offset text = .ok (styled, stack)) :
      Work session (.highlight line)
        (List.range' session.marker (line - session.marker) ++ [line])
        (.line styled) (max session.marker (line + 1))
  | unshown {line offset : Nat} {texts : List String} {text : String} {input : SpanStack}
      {fault : Scan.Fault} (upTo : session.UpTo line texts input)
      (own : session.SparesText →
        text = session.document.line line ∧ offset = session.document.startOffset line)
      (fails : session.grammar.highlightLine input line offset text = .error fault) :
      Work session (.highlight line)
        (List.range' session.marker (line - session.marker) ++ [line])
        (.failed (.malformedGrammar fault)) (max session.marker line)
  | traced {line : Nat} {texts : List String} {input : SpanStack}
      (upTo : session.UpTo (line + 1) texts input) :
      Work session (.stackAt line) (List.range' session.marker (line + 1 - session.marker))
        (.stack input) (max session.marker (line + 1))
  | stopped {request : Request} {line last : Nat} {texts : List String} {text : String}
      {input : SpanStack} {fault : Scan.Fault}
      (before : request = .highlight line ∧ last < line ∨ request = .stackAt line ∧ last ≤ line)
      (stale : session.marker ≤ last) (upTo : session.UpTo last texts input)
      (own : session.SparesText → text = session.document.line last)
      (fails : session.grammar.scanLine input text = .error fault) :
      Work session request (List.range' session.marker (last + 1 - session.marker))
        (.failed (.malformedGrammar fault)) (max session.marker last)

section Passes

variable {session : Session} (alive : session.disposed = false) (depth : Nat)
include alive

/-- Replaying up to a line scans all the lines before it, or stops before one whose scan fails. -/
theorem exists_replayTo (line : Nat) :
    ∃ texts middle changed, Rescanned session texts middle ∧
      (texts.length = line - session.marker ∧
          replayTo (reaction depth) line { session with passing := true } = (middle, changed, .ok ()) ∨
        session.marker + texts.length < line ∧ ∃ text fault after,
          Stops (reaction depth) middle text fault after ∧
          replayTo (reaction depth) line { session with passing := true } =
            (after, changed, .error (.malformedGrammar fault))) := by
  obtain ⟨texts, middle, rescans, ends⟩ := replay_rescans (reaction depth)
    session.document.lineCount (line - session.marker) { session with passing := true }
  refine ⟨texts, middle, (replayTo (reaction depth) line { session with passing := true }).2.1,
    (rescans.rescanned rfl alive).of_entered alive, ?_⟩
  rcases ends with ⟨all, last, outcome⟩ | ⟨short, text, fault, after, stops, last, outcome⟩
  · exact .inl ⟨all, Prod.ext last (Prod.ext rfl outcome)⟩
  · exact .inr ⟨by omega, text, fault, after, stops, Prod.ext last (Prod.ext rfl outcome)⟩

omit alive in
/-- A line whose scan fails is the last one read, and the marker stays before it. -/
theorem work_of_stops {middle after : Session} {texts : List String} {text : String}
    {fault : Scan.Fault} {request : Request} {line : Nat}
    (rescanned : Rescanned session texts middle)
    (stops : Stops (reaction depth) middle text fault after)
    (before : request = .highlight line ∧ session.marker + texts.length < line ∨
      request = .stackAt line ∧ session.marker + texts.length ≤ line) :
    ∃ reads, Advanced session reads after ∧
      Work session request reads (.failed (.malformedGrammar fault)) after.marker := by
  obtain ⟨_, _, same, advanced, cache, own⟩ :=
    exists_readLine_eq rescanned.advanced.passing rescanned.advanced.alive depth middle.marker
  cases stops.reads.symm.trans same
  have stale := Nat.le_add_right session.marker texts.length
  have fails := stops.fails
  rw [advanced.grammar, rescanned.advanced.grammar, rescanned.marker] at fails
  have marker : after.marker = max session.marker (session.marker + texts.length) := by
    rw [Nat.max_eq_right stale, ← rescanned.marker, Session.marker, cache]
    rfl
  have lines : List.range' session.marker texts.length ++ [middle.marker] =
      List.range' session.marker (session.marker + texts.length + 1 - session.marker) := by
    rw [rescanned.marker, Nat.add_assoc, Nat.add_sub_cancel_left, List.range'_concat, Nat.one_mul]
  refine ⟨_, lines ▸ rescanned.advanced.trans advanced, ?_⟩
  rw [marker]
  refine .stopped before stale (rescanned.upTo (Nat.add_sub_cancel_left _ _).symm) (fun spares => ?_)
    fails
  obtain ⟨still, document⟩ := rescanned.advanced.spared spares
  rw [own still, document, rescanned.marker]

omit alive in
/-- Showing a line once the stale lines before it are scanned. -/
theorem exists_showLine {middle : Session} {texts : List String} {line : Nat}
    (rescanned : Rescanned session texts middle) (all : texts.length = line - session.marker) :
    ∃ acted changed result reads,
      showLine (reaction depth) line middle = (acted, changed, result) ∧
      Advanced session reads acted ∧
      Work session (.highlight line) reads (.ofExcept .line result) acted.marker := by
  obtain ⟨after, text, reads, advanced, cache, own⟩ := exists_readLine_eq
    rescanned.advanced.passing rescanned.advanced.alive depth line
  have upTo := rescanned.upTo all
  have marker : after.cache.stale = max session.marker line := by
    have reached := rescanned.marker
    rw [Session.marker] at reached
    rw [cache, reached]
    omega
  have grammar : after.grammar = session.grammar := advanced.grammar.trans rescanned.advanced.grammar
  have owns : session.SparesText → text = session.document.line line ∧
      after.document.startOffset line = session.document.startOffset line := by
    intro spares
    obtain ⟨still, document⟩ := rescanned.advanced.spared spares
    rw [own still, (advanced.spared still).2, document]
    exact ⟨rfl, rfl⟩
  rw [showLine, reads]
  dsimp only
  cases outcome : after.grammar.highlightLine (middle.cache.stackAt (line - 1)) line
      (after.document.startOffset line) text with
  | error fault =>
      have fails := outcome
      rw [grammar] at fails
      have work := Work.unshown upTo owns fails
      rw [← marker, ← all] at work
      exact ⟨after, _, _, _, rfl, rescanned.advanced.trans advanced, work⟩
  | ok result =>
      obtain ⟨styled, stack⟩ := result
      have shows := outcome
      rw [grammar] at shows
      have work := Work.shown upTo owns shows
      have raised : max session.marker (line + 1) =
          max (after.cache.store line stack).1.stale (line + 1) := by
        rw [Cache.stale_store, marker]
        omega
      rw [raised, ← all] at work
      exact ⟨_, _, _, _, rfl, (rescanned.advanced.trans advanced).storing _, work⟩

/-- The inside of a pass that highlights a line. -/
theorem exists_highlighting (line : Nat) :
    ∃ acted changed result reads,
      highlighting (reaction depth) line { session with passing := true } =
        (acted, changed, result) ∧
      Advanced session reads acted ∧
      Work session (.highlight line) reads (.ofExcept .line result) acted.marker := by
  obtain ⟨texts, middle, changed, rescanned, ⟨all, replays⟩ |
    ⟨short, text, fault, after, stops, replays⟩⟩ := exists_replayTo alive depth line
  · obtain ⟨acted, later, result, lines, shows, advanced, work⟩ :=
      exists_showLine depth rescanned all
    rw [highlighting, replays]
    dsimp only
    rw [shows]
    exact ⟨acted, changed ++ later, result, lines, rfl, advanced, work⟩
  · obtain ⟨lines, advanced, work⟩ := work_of_stops depth rescanned stops (.inl ⟨rfl, short⟩)
    rw [highlighting, replays]
    exact ⟨after, changed, _, lines, rfl, advanced, work⟩

/-- The inside of a pass that finds the stack at the end of a line. -/
theorem exists_tracing (line : Nat) :
    ∃ acted changed result reads,
      tracing (reaction depth) line { session with passing := true } = (acted, changed, result) ∧
      Advanced session reads acted ∧
      Work session (.stackAt line) reads (.ofExcept .stack result) acted.marker := by
  obtain ⟨texts, middle, changed, rescanned, ⟨all, replays⟩ |
    ⟨short, text, fault, after, stops, replays⟩⟩ := exists_replayTo alive depth (line + 1)
  · rw [tracing, replays]
    refine ⟨middle, changed, _, _, rfl, rescanned.advanced, ?_⟩
    have marker : middle.marker = max session.marker (line + 1) := by
      rw [rescanned.marker]
      omega
    rw [marker, all]
    exact .traced (rescanned.upTo all)
  · obtain ⟨lines, advanced, work⟩ :=
      work_of_stops depth rescanned stops (.inr ⟨rfl, Nat.le_of_lt_succ short⟩)
    rw [tracing, replays]
    exact ⟨after, changed, _, lines, rfl, advanced, work⟩

omit alive in
/-- At the end of a pass the listeners are told, and nothing that they request reads a line or moves the
marker. -/
theorem pass_advanced {Result : Type} (idle : session.passing = false)
    {action : Session → Session × List Nat × Except Failure Result} {acted : Session}
    {changed lines : List Nat} {result : Except Failure Result}
    (acts : action { session with passing := true } = (acted, changed, result))
    (advanced : Advanced session lines acted) :
    (session.pass (reaction depth) action).2 = result ∧
      (session.pass (reaction depth) action).1.cache = acted.cache ∧
      (session.Recording →
        (session.pass (reaction depth) action).1.linesRead = session.linesRead ++ lines) := by
  have told := (steady_undisturbed anything).notifyEach
    ((steady_undisturbed anything).reaction depth)
    (attended_of_passing advanced.passing advanced.alive) changed
  rw [pass, idle, if_neg Bool.false_ne_true, acts]
  exact ⟨rfl, told.cache, fun recording => told.linesRead.trans (advanced.recorded recording).2⟩

/-- **Requests for lines.** -/
theorem exists_work (idle : session.passing = false) {line : Nat}
    (inside : line ≤ session.document.lineCount) {request : Request}
    (asks : request = .highlight line ∧ 1 ≤ line ∨ request = .stackAt line) :
    ∃ reads,
      Work session request reads (session.perform (reaction depth) request).2
        (session.perform (reaction depth) request).1.marker ∧
      (session.Recording → (session.perform (reaction depth) request).1.linesRead =
        session.linesRead ++ reads) := by
  rcases asks with ⟨rfl, above⟩ | rfl
  · obtain ⟨acted, changed, result, reads, acts, advanced, work⟩ :=
      exists_highlighting alive depth line
    obtain ⟨answer, cache, recorded⟩ := pass_advanced depth idle acts advanced
    rw [perform_highlight, highlight_eq, check_of_inside alive above inside]
    refine ⟨reads, ?_, recorded⟩
    simp only [guarded, answer, Session.marker, cache]
    exact work
  · obtain ⟨acted, changed, result, reads, acts, advanced, work⟩ := exists_tracing alive depth line
    obtain ⟨answer, cache, recorded⟩ := pass_advanced depth idle acts advanced
    rw [perform_stackAt, stackAt_eq, check_of_inside alive (Nat.zero_le line) inside]
    refine ⟨reads, ?_, recorded⟩
    simp only [guarded, answer, Session.marker, cache]
    exact work

end Passes

/-! ## Sessions without a probe -/

/-- The session with a probe that only records the lines that are read, unless it has a probe. -/
def observed (session : Session) : Session :=
  { session with probe := some (session.probe.getD []) }

section Observed

variable {session : Session}

theorem observed_of_probed {script : Script} (probe : session.probe = some script) :
    session.observed = session := by
  rw [observed, probe, Option.getD_some, ← probe]

theorem SparesText.observed (spares : session.SparesText) : session.observed.SparesText := by
  refine ⟨spares.listeners, fun script member => ?_⟩
  rw [← Option.some.inj member]
  cases probe : session.probe with
  | none => rfl
  | some script => exact spares.probe script probe

theorem KeepsProbe.observed (keeps : session.KeepsProbe) : session.observed.KeepsProbe := by
  refine ⟨keeps.listeners, fun script member => ?_⟩
  rw [← Option.some.inj member]
  cases probe : session.probe with
  | none => rfl
  | some script => exact keeps.probe script probe

/-- An observed session records the lines that are read. -/
theorem recording_observed (unread : session.probing = false)
    (kept : session.probe = none ∨ session.KeepsProbe) : session.observed.Recording := by
  refine ⟨unread, rfl, ?_⟩
  rcases kept with unprobed | keeps
  · left
    rw [observed, unprobed]
    rfl
  · exact .inr keeps.observed

theorem UpTo.of_observed {last : Nat} {texts : List String} {input : SpanStack}
    (upTo : session.observed.UpTo last texts input) : session.UpTo last texts input :=
  ⟨upTo.count, upTo.scanned, fun spares => upTo.own spares.observed⟩

/-- The work of an observed session is that of the session itself. -/
theorem Work.of_observed {request : Request} {reads : List Nat} {answer : Answer} {marker : Nat}
    (work : session.observed.Work request reads answer marker) :
    session.Work request reads answer marker := by
  cases work with
  | shown upTo own shows => exact .shown upTo.of_observed (fun spares => own spares.observed) shows
  | unshown upTo own fails =>
      exact .unshown upTo.of_observed (fun spares => own spares.observed) fails
  | traced upTo => exact .traced upTo.of_observed
  | stopped before stale upTo own fails =>
      exact .stopped before stale upTo.of_observed (fun spares => own spares.observed) fails

/-- A pass without a probe goes in step with one whose probe only records. -/
theorem lockstep_observed (depth : Nat) :
    Lockstep (reaction depth) (reaction depth) fun first second =>
      (first.passing = true ∧ first.disposed = false ∧ first.probe = none) ∧
        ∃ log, second = { first with probe := some [], log := log } where
  grammar := by
    rintro first _ ⟨_, log, rfl⟩
    rfl
  document := by
    rintro first _ ⟨_, log, rfl⟩
    rfl
  cache := by
    rintro first _ ⟨_, log, rfl⟩
    rfl
  stored := by
    rintro first _ ⟨running, log, rfl⟩ cache
    exact ⟨running, log, rfl⟩
  read := by
    rintro first _ ⟨running, log, rfl⟩ line
    refine ⟨first, _, first.document.line line, readLine_of_unprobed _ running.2.2 line, ?_, running,
      if first.probing then log else .read line [] :: log, rfl⟩
    rw [readLine]
    cases unread : first.probing with
    | true => rfl
    | false =>
        dsimp only
        rw [reaction_nil]
        rfl

/-- A probe that only records changes neither what is answered nor what is kept. -/
theorem perform_observed (alive : session.disposed = false) (idle : session.passing = false)
    (depth line : Nat) :
    ∀ request ∈ [Request.highlight line, .stackAt line],
      (session.observed.perform (reaction depth) request).2 =
          (session.perform (reaction depth) request).2 ∧
        (session.observed.perform (reaction depth) request).1.cache =
          (session.perform (reaction depth) request).1.cache := by
  intro request scans
  cases probe : session.probe with
  | some script =>
      rw [observed_of_probed probe]
      exact ⟨rfl, rfl⟩
  | none =>
      have same : session.observed = { session with probe := some [], log := session.log } := by
        rw [observed, probe]
        rfl
      have matched := (lockstep_observed depth).perform idle
        (show session.observed.passing = false from idle) rfl
        ⟨⟨rfl, alive, probe⟩, session.log, by rw [same]⟩ line request scans
      generalize session.observed.perform (reaction depth) request = recorded,
        session.perform (reaction depth) request = performed at matched ⊢
      cases matched with
      | refused refusal => exact ⟨rfl, rfl⟩
      | @passed acted _ related changed result =>
          obtain ⟨⟨passing, living, _⟩, log, rfl⟩ := related
          have steady := steady_undisturbed anything
          have told := steady.notifyEach (steady.reaction depth)
            (attended_of_passing passing living) changed
          have toldToo := steady.notifyEach (steady.reaction depth)
            (@attended_of_passing { acted with probe := some [], log := log } passing living) changed
          exact ⟨rfl, toldToo.cache.trans told.cache.symm⟩

end Observed

/-! ## Notices -/

/-- Whether no line has been read and the marker has not been raised. -/
structure Lowered (before after : Session) : Prop where
  linesRead : after.linesRead = before.linesRead
  marker : after.marker ≤ before.marker

theorem Lowered.trans {first second third : Session} (near : Lowered first second)
    (far : Lowered second third) : Lowered first third :=
  ⟨far.linesRead.trans near.linesRead, Nat.le_trans far.marker near.marker⟩

/-- Listeners are told without a line being read, unless their scripts have one read. -/
theorem lowered_notifyRanges {react : Reaction} (keeps : Keeps Lowered react)
    (ranges : List (Nat × Nat)) (session : Session) :
    Lowered session (session.notifyRanges react ranges) := by
  have refl : ∀ session, Lowered session session := fun _ => ⟨rfl, Nat.le_refl _⟩
  refine notifyRanges_of_fire refl Lowered.trans (fun _ _ _ => ⟨rfl, Nat.le_refl _⟩) ?_ ranges session
  refine keeps.fire refl Lowered.trans (fun session _ _ _ _ => ⟨?_, Nat.le_refl _⟩) fun _ _ =>
    ⟨rfl, Nat.le_refl _⟩
  rw [linesRead_record]
  exact List.append_nil _

/-- Whether the request scans no line. -/
def Request.sparesLines : Request → Bool
  | .highlight _ | .stackAt _ => false
  | _ => true

/-- Whether no script of a listener asks for a line, and the marker is not in front of the first line. -/
structure SparesLines (session : Session) : Prop where
  listeners : ∀ listener ∈ session.listeners,
    everyRequest Request.sparesLines listener.script = true
  positive : 1 ≤ session.marker

/-- Scripts that ask for no line read none and do not raise the marker. -/
theorem steady_lowered :
    Steady Request.sparesLines SparesLines fun before after =>
      after.SparesLines ∧ Lowered before after where
  trans near far := ⟨far.1, near.2.trans far.2⟩
  kept near := near.1
  listeners spares := spares.listeners
  noting := by
    intro before after spares same every unread
    rw [same] at unread ⊢
    exact ⟨⟨every, spares.positive⟩, unread, Nat.le_refl _⟩
  probe spares _ := ⟨⟨spares.listeners, spares.positive⟩, rfl, Nat.le_refl _⟩
  lower spares _ noticing :=
    have ⟨positive, lower⟩ := stale_of_noticed noticing spares.positive
    ⟨⟨spares.listeners, positive⟩, rfl, lower⟩
  discard spares _ := ⟨⟨List.forall_mem_nil _, Nat.le_refl 1⟩, rfl, spares.positive⟩
  scan _ _ := ⟨rfl, rfl⟩

/-- In a batch notices are only held back. -/
theorem notifyRanges_of_batching {session : Session} (batching : session.batching = true)
    (react : Reaction) (ranges : List (Nat × Nat)) :
    ∃ held, session.notifyRanges react ranges = { session with held := held } := by
  induction ranges generalizing session with
  | nil => exact ⟨session.held, rfl⟩
  | cons range rest ih =>
      obtain ⟨held, later⟩ :=
        @ih { session with held := some (widen session.held range.1 range.2) } batching
      refine ⟨held, ?_⟩
      rw [notifyRanges, List.foldl_cons, notify, if_pos batching]
      exact later

section Noticed

variable {session : Session} (alive : session.disposed = false) (idle : session.passing = false)
  (positive : 1 ≤ session.marker) {request : Request} {cache : Cache} {ranges : List (Nat × Nat)}
  (noticing : noticed session.document session.cache request = some (cache, ranges))
include alive idle positive noticing

/-- A notice itself reads no line and does not raise the marker. -/
theorem lowered_perform {react : Reaction} (keeps : Keeps Lowered react) :
    Lowered session (session.perform react request).1 := by
  rw [perform_of_noticed alive idle noticing]
  have lower : Lowered session { session with cache := cache } :=
    ⟨rfl, (stale_of_noticed noticing positive).2⟩
  exact lower.trans (lowered_notifyRanges keeps ranges _)

/-- Nor do the scripts of listeners that it reaches, unless one asks for a line. -/
theorem lowered_of_noticed (depth : Nat) (spares : session.batching = true ∨ session.SparesLines) :
    Lowered session (session.perform (reaction depth) request).1 := by
  rcases spares with batching | spares
  · obtain ⟨held, same⟩ := @notifyRanges_of_batching { session with cache := cache } batching
      (reaction depth) ranges
    rw [perform_of_noticed alive idle noticing, same]
    exact ⟨rfl, (stale_of_noticed noticing positive).2⟩
  · exact (steady_lowered.notice (steady_lowered.reaction depth) spares noticing).2

end Noticed

/-- **Work is just the stale part.** Where a session that is not disposed is asked for a line outside of a
pass, it reads the lines from the marker up to that one, each once and in their order, and stops at the
first one whose scan fails. It answers with what scanning them gives, and the marker is moved behind those
whose scan has succeeded. This is so whatever its listeners and its probe request, as long as a probe that
is set is left in its place to record what is read, and a session without a probe gives the answers, and
keeps the marker, of one that is observed by a probe. A notice of an edit lowers the marker and then only
tells the listeners: unless these have lines read, it reads none and leaves the marker no higher. Between
the requests of an editor a session is never in a pass, and its marker is not in front of the first line. -/
theorem work_is_stale_part {session : Session} (alive : session.disposed = false)
    (idle : session.passing = false) (unread : session.probing = false)
    (positive : 1 ≤ session.marker) (depth : Nat) :
    (∀ line ≤ session.document.lineCount, ∀ request : Request,
      request = .highlight line ∧ 1 ≤ line ∨ request = .stackAt line →
      ∃ reads,
        Work session request reads (session.perform (reaction depth) request).2
          (session.perform (reaction depth) request).1.marker ∧
        (session.probe = none ∨ session.KeepsProbe →
          (session.observed.perform (reaction depth) request).1.linesRead =
            session.linesRead ++ reads) ∧
        (session.observed.perform (reaction depth) request).2 =
          (session.perform (reaction depth) request).2 ∧
        (session.observed.perform (reaction depth) request).1.marker =
          (session.perform (reaction depth) request).1.marker) ∧
    (∀ request cache ranges,
      noticed session.document session.cache request = some (cache, ranges) →
      cache.stale ≤ session.marker ∧
      (∀ react, session.perform react request =
        ({ session with cache := cache }.notifyRanges react ranges, .done)) ∧
      (∀ react, Keeps Lowered react → Lowered session (session.perform react request).1) ∧
      (session.batching = true ∨ session.SparesLines →
        Lowered session (session.perform (reaction depth) request).1)) ∧
    ∀ grammar document limit requests,
      let reached := (start grammar document).performAll (reaction limit) requests
      reached.passing = false ∧ reached.probing = false ∧ 1 ≤ reached.marker := by
  refine ⟨fun line inside request asks => ?_, fun request cache ranges noticing => ?_,
    fun grammar document limit requests => ?_⟩
  · have scans : request ∈ [Request.highlight line, .stackAt line] := by
      rcases asks with ⟨rfl, _⟩ | rfl
      · exact List.mem_cons_self
      · exact List.mem_cons_of_mem _ List.mem_cons_self
    obtain ⟨answer, cache⟩ := perform_observed alive idle depth line request scans
    have marker := congrArg Cache.stale cache
    obtain ⟨reads, work, recorded⟩ :=
      exists_work (show session.observed.disposed = false from alive) depth idle inside asks
    rw [answer, Session.marker, marker] at work
    exact ⟨reads, work.of_observed, fun kept => recorded (recording_observed unread kept), answer,
      marker⟩
  · exact ⟨(stale_of_noticed noticing positive).2, perform_of_noticed alive idle noticing,
      fun _ => lowered_perform alive idle positive noticing,
      lowered_of_noticed alive idle positive noticing depth⟩
  · refine ⟨?_, ?_, ?_⟩
    · exact lasting_passing.performAll (lasting_passing.reaction limit) _ requests
    · exact lasting_probing.performAll (lasting_probing.reaction limit) _ requests
    · exact lasting_positive.performAll (lasting_positive.reaction limit) _ requests (Nat.le_refl 1)

/-- The first line has been highlighted. The third one can be, and the fifth one cannot, since the scan of the
fourth one fails. -/
theorem work_is_stale_part_empty_line :
    let session := (start .hasty (.ofLines ["a", "b<", "#", "", "c"])).handleAll
      [.highlight 1, .probe (some [.marker])]
    session.disposed = false ∧ session.passing = false ∧ session.probing = false ∧
      session.marker = 2 ∧ session.KeepsProbe ∧
      (∀ line ∈ [3, 5], ∃ reads,
        session.Work (.highlight line) reads (session.handle (.highlight line)).2
            (session.handle (.highlight line)).1.marker ∧
          (session.handle (.highlight line)).1.linesRead = session.linesRead ++ reads) ∧
      (session.handle (.highlight 3)).1.linesRead = [2, 3] ∧
      (session.handle (.highlight 3)).1.marker = 4 ∧
      (session.handle (.highlight 5)).1.linesRead = [2, 3, 4] ∧
      (session.handle (.highlight 5)).1.marker = 4 := by
  intro session
  have alive : session.disposed = false := by decide +kernel
  have idle : session.passing = false := by decide +kernel
  have unread : session.probing = false := by decide +kernel
  have marker : session.marker = 2 := by decide +kernel
  have unheard : session.listeners = [] := List.length_eq_zero_iff.mp (by decide +kernel)
  have probe : session.probe = some [.marker] := rfl
  have keeps : session.KeepsProbe :=
    ⟨unheard ▸ List.forall_mem_nil _, fun script member => Option.some_inj.mp member ▸ rfl⟩
  refine ⟨alive, idle, unread, marker, keeps, fun line asked => ?_, ?_⟩
  · have inside : line ≤ session.document.lineCount ∧ 1 ≤ line := by
      revert line
      decide +kernel
    obtain ⟨reads, work, recorded, _⟩ :=
      (work_is_stale_part alive idle unread (marker ▸ Nat.le_succ 1) nestingLimit).1 line inside.1
        (.highlight line) (.inl ⟨rfl, inside.2⟩)
    rw [observed_of_probed probe] at recorded
    exact ⟨reads, work, recorded (.inr keeps)⟩
  · decide +kernel

end Highlight.Session
