import Highlight.Proofs.Session.Replay

/-! # What the end of a batch tells

A batch holds the ranges of its notices back as the smallest range that covers them all, and its end tells of
that range. The numbers in it stay as they are while lines move. A removal gives notice of a line above those
that it moves up, so that they stay covered; an insertion moves lines down and possibly out of the range, by
one line each (`Highlight.Session.endBatch_reports`).
-/

namespace Highlight.Session

/-! ## Ranges held back -/

/-- What is held back once several ranges have been added to it. -/
def widenAll (held : Option (Nat × Nat)) (ranges : List (Nat × Nat)) : Option (Nat × Nat) :=
  ranges.foldl (fun held range => some (widen held range.1 range.2)) held

/-- Whether what is held back covers a range. -/
def Covers (held : Option (Nat × Nat)) (range : Nat × Nat) : Prop :=
  ∃ first last, held = some (first, last) ∧ first ≤ range.1 ∧ range.2 ≤ last

/-- In a batch ranges are only held back, in one that is widened to cover them all. -/
theorem announceAll_of_batching {session : Session} (ranges : List (Nat × Nat))
    (batching : session.batching = true) :
    session.announceAll ranges = { session with held := widenAll session.held ranges } := by
  induction ranges generalizing session with
  | nil => rfl
  | cons range rest ih =>
      have first : session.announce range.1 range.2 =
          { session with held := some (widen session.held range.1 range.2) } := if_pos batching
      rw [announceAll, List.foldl_cons, ← announceAll, first]
      exact ih batching

section Ranges

variable {held : Option (Nat × Nat)} {range new : Nat × Nat}

theorem Covers.mono (covers : Covers held range) (first : range.1 ≤ new.1) (last : new.2 ≤ range.2) :
    Covers held new := by
  obtain ⟨low, high, same, above, below⟩ := covers
  exact ⟨low, high, same, Nat.le_trans above first, Nat.le_trans last below⟩

theorem covers_widen (held : Option (Nat × Nat)) (new : Nat × Nat) :
    Covers (some (widen held new.1 new.2)) new := by
  rcases held with _ | ⟨first, last⟩
  · exact ⟨new.1, new.2, rfl, Nat.le_refl _, Nat.le_refl _⟩
  · exact ⟨_, _, rfl, Nat.min_le_right _ _, Nat.le_max_right _ _⟩

theorem Covers.widen (covers : Covers held range) (new : Nat × Nat) :
    Covers (some (widen held new.1 new.2)) range := by
  obtain ⟨first, last, rfl, above, below⟩ := covers
  exact ⟨_, _, rfl, Nat.le_trans (Nat.min_le_left _ _) above, Nat.le_trans below (Nat.le_max_left _ _)⟩

theorem Covers.widenAll (covers : Covers held range) (ranges : List (Nat × Nat)) :
    Covers (widenAll held ranges) range := by
  induction ranges generalizing held with
  | nil => exact covers
  | cons new rest ih => exact ih (covers.widen new)

/-- Each of the ranges that are added is covered in the end. -/
theorem covers_widenAll {ranges : List (Nat × Nat)} (member : range ∈ ranges)
    (held : Option (Nat × Nat)) : Covers (widenAll held ranges) range := by
  induction ranges generalizing held with
  | nil => cases member
  | cons new rest ih =>
      rcases List.mem_cons.mp member with rfl | later
      · exact (covers_widen held range).widenAll rest
      · exact ih later _

theorem Covers.both (covers : Covers held range) (other : Covers held new) :
    Covers held (min range.1 new.1, max range.2 new.2) := by
  obtain ⟨first, last, rfl, above, below⟩ := covers
  obtain ⟨_, _, ⟨⟩, above', below'⟩ := other
  exact ⟨first, last, rfl, Nat.le_min.mpr ⟨above, above'⟩, Nat.max_le.mpr ⟨below, below'⟩⟩

end Ranges

/-! ## Lines that move -/

/-- Where a line stands, and how many insertions have moved it down. -/
structure Place where
  line : Nat
  pushed : Nat
  deriving DecidableEq

namespace Operation

/-- Where an operation leaves a line, unless it removes that line. -/
def follow (document : Document) (place : Place) : Operation → Option Place
  | insertLine after text =>
    match document.insertLine? after text with
    | none => some place
    | some _ => if after < place.line then some ⟨place.line + 1, place.pushed + 1⟩ else some place
  | removeLine removed =>
    match document.removeLine? removed with
    | none => some place
    | some _ =>
      if removed = place.line then none
      else if removed < place.line then some ⟨place.line - 1, place.pushed⟩
      else some place
  | _ => some place

/-- The ranges of lines that an operation gives notice of, whatever has been kept. Scans give notice of
further lines. -/
def named (document : Document) (operation : Operation) : List (Nat × Nat) :=
  match operation with
  | replaceLine line _ | removeLine line | invalidate line =>
    lineRanges (operation.edited document) (max line 1)
  | insertLine after _ => lineRanges (operation.edited document) (max (after + 1) 1)
  | invalidateAll | rebuild | setInitialStack _ => allRanges document
  | beginBatch | endBatch | highlight _ | stackAt _ | listen => []

/-- A line of the document stays one and takes its text along, unless the text is replaced. -/
theorem follow_sound {document : Document} {operation : Operation} {place next : Place}
    (inside : 1 ≤ place.line ∧ place.line ≤ document.lineCount)
    (follows : operation.follow document place = some next) :
    (1 ≤ next.line ∧ next.line ≤ (operation.edited document).lineCount) ∧
      ((∀ text, operation ≠ .replaceLine place.line text) →
        (operation.edited document).line next.line = document.line place.line) := by
  cases operation
  case replaceLine line text =>
    cases follows
    rw [edited]
    cases possible : document.replaceLine? line text with
    | none => exact ⟨inside, fun _ => rfl⟩
    | some changed =>
        obtain ⟨_, _, count⟩ := Document.lineCount_of_replaceLine? possible
        refine ⟨⟨inside.1, count ▸ inside.2⟩, fun kept => ?_⟩
        refine Document.line_of_replaceLine? possible ?_
        rintro rfl
        exact kept text rfl
  case insertLine after text =>
    rw [edited]
    cases possible : document.insertLine? after text with
    | none =>
        simp only [follow, possible] at follows
        cases follows
        exact ⟨inside, fun _ => rfl⟩
    | some changed =>
        have count := (Document.lineCount_of_insertLine? possible).2
        simp only [follow, possible] at follows
        rw [Option.getD_some, count, Document.line_of_insertLine? possible]
        split at follows <;> cases follows
        · refine ⟨⟨by dsimp only; omega, by dsimp only; omega⟩, fun _ => ?_⟩
          rw [if_neg (by dsimp only; omega), if_neg (by dsimp only; omega)]
          rfl
        · exact ⟨⟨inside.1, by omega⟩, fun _ => if_pos (by omega)⟩
  case removeLine removed =>
    rw [edited]
    cases possible : document.removeLine? removed with
    | none =>
        simp only [follow, possible] at follows
        cases follows
        exact ⟨inside, fun _ => rfl⟩
    | some changed =>
        obtain ⟨positive, _, count⟩ := Document.lineCount_of_removeLine? possible
        simp only [follow, possible] at follows
        rw [Option.getD_some]
        split at follows
        · cases follows
        · split at follows <;> cases follows
          · refine ⟨⟨by dsimp only; omega, by dsimp only; omega⟩, fun _ => ?_⟩
            rw [Document.line_of_removeLine? possible (by dsimp only; omega),
              if_neg (by dsimp only; omega)]
            exact congrArg document.line (Nat.sub_add_cancel inside.1)
          · refine ⟨⟨inside.1, by omega⟩, fun _ => ?_⟩
            rw [Document.line_of_removeLine? possible inside.1, if_pos (by omega)]
  all_goals
    cases follows
    exact ⟨inside, fun _ => rfl⟩

end Operation

/-- What covers a line still covers it, but for the insertions that have moved it down, once the ranges
that an operation names have been added. -/
theorem Covers.follow {held : Option (Nat × Nat)} {ranges : List (Nat × Nat)} {document : Document}
    {operation : Operation} {place next : Place} (inside : place.line ≤ document.lineCount)
    (told : ∀ range ∈ operation.named document, range ∈ ranges)
    (covers : Covers held (place.line, place.line - place.pushed))
    (follows : operation.follow document place = some next) :
    Covers (Session.widenAll held ranges) (next.line, next.line - next.pushed) := by
  have still := covers.widenAll ranges
  cases operation
  case insertLine after text =>
    simp only [Operation.follow] at follows
    split at follows
    · cases follows
      exact still
    · split at follows <;> cases follows
      · refine still.mono (Nat.le_succ _) ?_
        dsimp only
        omega
      · exact still
  case removeLine removed =>
    simp only [Operation.named, Operation.edited] at told
    simp only [Operation.follow] at follows
    cases possible : document.removeLine? removed with
    | none =>
        rw [possible] at follows
        cases follows
        exact still
    | some edited =>
        obtain ⟨positive, below, count⟩ := Document.lineCount_of_removeLine? possible
        simp only [possible, Option.getD_some] at told follows
        split at follows
        · cases follows
        · split at follows <;> cases follows
          · -- The removal gives notice of its own place, which is above that of the line.
            have known : max removed 1 ≤ edited.lineCount := by omega
            rw [lineRanges, if_pos known] at told
            have named := covers_widenAll (told _ List.mem_cons_self) held
            refine (still.both named).mono ?_ ?_
            · dsimp only
              omega
            · dsimp only
              omega
          · exact still
  all_goals
    cases follows
    exact still

/-- Where several operations leave a line, unless one of them removes it. -/
def followAll (document : Document) (place : Place) : List Operation → Option Place
  | [] => some place
  | operation :: rest =>
    (operation.follow document place).bind fun place =>
      followAll (operation.edited document) place rest

/-! ## Batches -/

/-- A session in a batch that no script disturbs. -/
structure Holding (session : Session) : Prop where
  alive : session.disposed = false
  idle : session.passing = false
  unprobed : session.probe = none
  batching : session.batching = true

section Passes

variable {session : Session} {react : Reaction}

/-- A replay that no probe watches changes the kept stacks alone. -/
theorem exists_replay_eq (unprobed : session.probe = none) (lineCount count : Nat) :
    ∃ cache changed outcome, session.replay react lineCount count =
      ({ session with cache := cache }, changed, outcome) := by
  induction count generalizing session with
  | zero => exact ⟨session.cache, [], .ok (), rfl⟩
  | succ count ih =>
      simp only [replay, readLine_of_unprobed react unprobed]
      split
      · exact ⟨session.cache, [], _, rfl⟩
      · rename_i stack _
        have scanned := @ih { session with
          cache := { (session.cache.store session.cache.stale stack).1 with
            stale := session.cache.stale + 1 } } unprobed
        obtain ⟨cache, changed, outcome, same⟩ := scanned
        rw [same]
        exact ⟨cache, _, outcome, rfl⟩

theorem exists_showLine_eq (unprobed : session.probe = none) (line : Nat) :
    ∃ cache changed outcome, session.showLine react line =
      ({ session with cache := cache }, changed, outcome) := by
  simp only [showLine, readLine_of_unprobed react unprobed]
  split
  · exact ⟨session.cache, [], _, rfl⟩
  · exact ⟨_, _, _, rfl⟩

end Passes

namespace Holding

variable {session : Session} (holding : session.Holding)
include holding

theorem calm : session.Calm :=
  ⟨holding.alive, holding.idle, holding.unprobed, .inl holding.batching⟩

/-- A request for a line changes the kept stacks and gives notice of some ranges. -/
theorem exists_highlight_eq (depth line : Nat) :
    ∃ cache ranges outcome, session.highlight (reaction depth) line =
      (session.update session.document cache ranges, outcome) := by
  rw [highlight]
  rcases session.checkAlive *> session.checkLine line 1 with failure | ⟨⟩
  · exact ⟨session.cache, [], _, rfl⟩
  · rw [guarded]
    obtain ⟨cache, changed, outcome, replayed⟩ :=
      @exists_replay_eq { session with passing := true } (reaction depth) holding.unprobed
        session.document.lineCount (line - session.cache.stale)
    obtain ⟨last, later, shown, shows⟩ :=
      @exists_showLine_eq { session with passing := true, cache := cache } (reaction depth)
        holding.unprobed line
    rcases outcome with failure | _
    · refine ⟨cache, oneByOne changed, .error failure, holding.calm.pass depth ?_⟩
      rw [replayTo, replayed]
    · refine ⟨last, oneByOne (changed ++ later), shown, holding.calm.pass depth ?_⟩
      rw [replayTo, replayed]
      dsimp only
      rw [shows]

/-- A request for a stack changes the kept stacks and gives notice of some ranges, too. -/
theorem exists_stackAt_eq (depth line : Nat) :
    ∃ cache ranges outcome, session.stackAt (reaction depth) line =
      (session.update session.document cache ranges, outcome) := by
  rw [stackAt]
  rcases session.checkAlive *> session.checkLine line 0 with failure | ⟨⟩
  · exact ⟨session.cache, [], _, rfl⟩
  · rw [guarded]
    obtain ⟨cache, changed, outcome, replayed⟩ :=
      @exists_replay_eq { session with passing := true } (reaction depth) holding.unprobed
        session.document.lineCount (line + 1 - session.cache.stale)
    refine ⟨cache, oneByOne changed, outcome.map fun () => cache.stackAt line,
      holding.calm.pass depth ?_⟩
    rw [replayTo, replayed]

/-- In a batch an operation changes the text as an edit of it would, and adds the ranges that it names to
what is held back. -/
theorem exists_handleAll_eq {operation : Operation} (unbracketed : operation.isBatch = false) :
    ∃ cache ranges listeners registered,
      session.handleAll operation.requests =
        { session with
          document := operation.edited session.document, cache := cache
          held := widenAll session.held ranges, listeners := listeners
          registered := registered } ∧
      ∀ range ∈ operation.named session.document, range ∈ ranges := by
  have updates : ∀ document cache ranges,
      session.update document cache ranges =
        { session with
          document := document, cache := cache, held := widenAll session.held ranges } :=
    fun document cache ranges => announceAll_of_batching ranges holding.batching
  have notice : ∀ {request cache ranges},
      noticed session.document session.cache request = some (cache, ranges) →
        session.handleAll [request] = session.update session.document cache ranges :=
    fun noticing => congrArg Prod.fst (holding.calm.free.handle_of_noticed noticing)
  cases operation
  case replaceLine line text =>
    exact ⟨_, _, _, _, (holding.calm.free.handleAll_of_edit rfl rfl).trans (updates _ _ _), fun _ => id⟩
  case insertLine after text =>
    exact ⟨_, _, _, _, (holding.calm.free.handleAll_of_edit rfl rfl).trans (updates _ _ _), fun _ => id⟩
  case removeLine line =>
    exact ⟨_, _, _, _, (holding.calm.free.handleAll_of_edit rfl rfl).trans (updates _ _ _), fun _ => id⟩
  case highlight line =>
    obtain ⟨cache, ranges, outcome, same⟩ := holding.exists_highlight_eq nestingLimit line
    refine ⟨cache, ranges, _, _, Eq.trans ?_ (updates _ _ _), List.forall_mem_nil _⟩
    rw [Operation.requests, handleAll, List.foldl_cons, List.foldl_nil, handle_highlight, same]
    rfl
  case stackAt line =>
    obtain ⟨cache, ranges, outcome, same⟩ := holding.exists_stackAt_eq nestingLimit line
    refine ⟨cache, ranges, _, _, Eq.trans ?_ (updates _ _ _), List.forall_mem_nil _⟩
    rw [Operation.requests, handleAll, List.foldl_cons, List.foldl_nil, handle_stackAt, same]
    rfl
  case listen => exact ⟨_, [], _, _, rfl, List.forall_mem_nil _⟩
  case beginBatch => cases unbracketed
  case endBatch => cases unbracketed
  all_goals exact ⟨_, _, _, _, (notice rfl).trans (updates _ _ _), fun _ => id⟩

end Holding

/-- Whether a line is in the document and what is held back covers it, but for the insertions that have
moved it down. -/
structure Tracks (session : Session) (place : Place) : Prop where
  inside : 1 ≤ place.line ∧ place.line ≤ session.document.lineCount
  covered : Covers session.held (place.line, place.line - place.pushed)

namespace Holding

variable {session : Session} (holding : session.Holding)
include holding

theorem handleAll {operation : Operation} (unbracketed : operation.isBatch = false) :
    (session.handleAll operation.requests).Holding := by
  obtain ⟨cache, ranges, listeners, registered, same, -⟩ := holding.exists_handleAll_eq unbracketed
  rw [same]
  exact ⟨holding.alive, holding.idle, holding.unprobed, holding.batching⟩

/-- The line is tracked through such an operation: what it names is held back, as the line was numbered
then, and an insertion above moves the line down by one. -/
theorem tracks_handleAll {operation : Operation} (unbracketed : operation.isBatch = false)
    {place next : Place} (tracks : session.Tracks place)
    (follows : operation.follow session.document place = some next) :
    (session.handleAll operation.requests).Tracks next := by
  obtain ⟨cache, ranges, listeners, registered, same, told⟩ :=
    holding.exists_handleAll_eq unbracketed
  rw [same]
  exact ⟨(Operation.follow_sound tracks.inside follows).1,
    tracks.covered.follow tracks.inside.2 told follows⟩

/-- A batch stays undisturbed, records nothing, and edits the document as it would be without it. -/
theorem run {operations : List Operation}
    (unbracketed : ∀ operation ∈ operations, operation.isBatch = false) :
    (session.run operations).Holding ∧
      (session.run operations).document = documentAfter session.document operations ∧
      (session.run operations).log = session.log := by
  induction operations generalizing session with
  | nil => exact ⟨holding, rfl, rfl⟩
  | cons operation rest ih =>
      obtain ⟨here, later⟩ := List.forall_mem_cons.mp unbracketed
      obtain ⟨cache, ranges, listeners, registered, same, -⟩ := holding.exists_handleAll_eq here
      have next := ih (holding.handleAll here) later
      rw [same] at next
      rw [Session.run, List.foldl_cons, ← Session.run, same]
      exact next

/-- A line is tracked through any number of operations, as long as none removes it. -/
theorem tracks_run {operations : List Operation}
    (unbracketed : ∀ operation ∈ operations, operation.isBatch = false) {place next : Place}
    (tracks : session.Tracks place)
    (follows : followAll session.document place operations = some next) :
    (session.run operations).Tracks next := by
  induction operations generalizing session place with
  | nil =>
      cases follows
      exact tracks
  | cons operation rest ih =>
      obtain ⟨here, later⟩ := List.forall_mem_cons.mp unbracketed
      obtain ⟨middle, moves, rest_follows⟩ := Option.bind_eq_some_iff.mp follows
      have edited : (session.handleAll operation.requests).document =
          operation.edited session.document := by
        obtain ⟨cache, ranges, listeners, registered, same, -⟩ := holding.exists_handleAll_eq here
        rw [same]
      exact ih (holding.handleAll here) later (holding.tracks_handleAll here tracks moves)
        (edited ▸ rest_follows)

end Holding

theorem run_append (first second : List Operation) (session : Session) :
    session.run (first ++ second) = (session.run first).run second :=
  List.foldl_append

/-- An editor that begins a batch goes on with the operations inside of it. -/
theorem run_beginBatch {session : Session} (alive : session.disposed = false)
    (unbatched : session.batching = false) (operations : List Operation) :
    session.run (.beginBatch :: operations) = { session with batching := true }.run operations := by
  have opens : session.handleAll [.beginBatch] = { session with batching := true } := by
    simp only [Session.handleAll, List.foldl_cons, List.foldl_nil, handle, perform, beginBatch,
      checkAlive_of_alive alive, guarded, unbatched, if_neg Bool.false_ne_true]
  rw [run, List.foldl_cons, Operation.requests, opens]
  rfl

/-- **Batches.** Nothing is told during a batch, and its end tells of one range. That range reaches every line
that was covered by what was held back at some point of the batch and still exists, except that each insertion
above the line since then may have moved it out of the range by one line. -/
theorem endBatch_reports {session : Session} (alive : session.disposed = false)
    (idle : session.passing = false) (unprobed : session.probe = none)
    (unbatched : session.batching = false) {before after : List Operation}
    (unbracketed : ∀ operation ∈ before ++ after, operation.isBatch = false) {line : Nat}
    (inside : 1 ≤ line ∧ line ≤ (documentAfter session.document before).lineCount)
    (named : Covers (session.run (.beginBatch :: before)).held (line, line)) {place : Place}
    (follows : followAll (documentAfter session.document before) ⟨line, 0⟩ after = some place) :
    let ended := session.run (.beginBatch :: (before ++ after))
    ended.log = session.log ∧
      ∃ first last, ended.handle .endBatch =
          ({ ended with batching := false, held := none }.fire (reaction nestingLimit) first last,
            .done) ∧
        first ≤ place.line ∧ place.line ≤ last + place.pushed := by
  obtain ⟨early, late⟩ := List.forall_mem_append.mp unbracketed
  have holding : { session with batching := true }.Holding := ⟨alive, idle, unprobed, rfl⟩
  obtain ⟨middle, document, -⟩ := holding.run early
  obtain ⟨ended, -, log⟩ := holding.run unbracketed
  rw [run_beginBatch alive unbatched] at named
  obtain ⟨-, first, last, held, above, below⟩ :=
    middle.tracks_run late ⟨document ▸ inside, named⟩ (document ▸ follows)
  rw [← run_append] at held
  rw [run_beginBatch alive unbatched]
  refine ⟨log, first, last, ?_, above, ?_⟩
  · simp only [handle, perform, endBatch, checkAlive_of_alive ended.alive, guarded, ended.batching,
      if_true, held, Answer.ofUnit]
  · dsimp only at below
    omega

/-- A line that is replaced, moved up by a removal and down again by an insertion is in the range, though the
listener that is told of it would remove lines itself. -/
theorem endBatch_reports_replaced_line :
    let session := (start (Languages.Toml.grammar .standard) (.ofLines ["a", "b", "c"])).handleAll
      [.listen [.removeLine 1, .lineRemoved 1]]
    let ended := session.run [.beginBatch, .replaceLine 3 "d", .removeLine 1, .insertLine 1 "e"]
    ended.log = session.log ∧
      ∃ first last, ended.handle .endBatch =
          ({ ended with batching := false, held := none }.fire (reaction nestingLimit) first last,
            .done) ∧
        first ≤ 3 ∧ 3 ≤ last + 1 :=
  have unbracketed : ∀ operation ∈ [.replaceLine 3 "d"] ++ [.removeLine 1, .insertLine 1 "e"],
      Operation.isBatch operation = false := by
    simp [Operation.isBatch]
  @endBatch_reports
    ((start (Languages.Toml.grammar .standard) (.ofLines ["a", "b", "c"])).handleAll
      [.listen [.removeLine 1, .lineRemoved 1]])
    rfl rfl rfl rfl _ _ unbracketed 3 (by decide +kernel)
    ⟨3, 3, by decide +kernel, Nat.le_refl 3, Nat.le_refl 3⟩ ⟨3, 1⟩ (by decide +kernel)

/-- An insertion at the top moves the replaced line to the third place, which is not in the range that is
told. -/
theorem pushed_line_unreported :
    let session := (start (Languages.Toml.grammar .standard) (.ofLines ["a", "b"])).handleAll [.listen []]
    let named := session.run [.beginBatch, .replaceLine 2 "c"]
    let ended := named.run [.insertLine 0 "d"]
    named.held = some (2, 2) ∧
      followAll named.document ⟨2, 0⟩ [.insertLine 0 "d"] = some ⟨3, 1⟩ ∧
      ended.document = .ofLines ["d", "a", "c"] ∧
      (ended.handle .endBatch).1.events = [.delivered 0 1 2 []] := by
  decide +kernel

end Highlight.Session
