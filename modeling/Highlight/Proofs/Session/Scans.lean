import Highlight.Proofs.Scan.Line
import Highlight.Proofs.Session.Quiet
import Highlight.Proofs.Session.Slots

/-! # What a pass does to the kept stacks

A pass scans lines one after another, each at or before the marker and from the stack that is kept for the
line before it (`Highlight.Cache.Scans`). Highlighting a line of a quiet session and asking for the stack
at its end are such passes, and what comes out of them is read off the stacks they leave
(`Highlight.Session.Calm.highlight`, `Highlight.Session.Calm.stackAt`).
-/

namespace Highlight

namespace Cache

/-- Keeps the stack at the end of a line and raises the marker behind the line. The second component is
that of `store`. -/
def advance (cache : Cache) (line : Nat) (stack : SpanStack) : Cache × Bool :=
  ({ (cache.store line stack).1 with stale := max cache.stale (line + 1) },
    (cache.store line stack).2)

/-- The line to be drawn again once the stack at the end of a line is kept. -/
def redrawn (document : Document) (line : Nat) (changed : Bool) : List Nat :=
  if changed && line < document.lineCount then [line + 1] else []

theorem redrawn_append (document : Document) (line : Nat) (changed : Bool) (later : List Nat) :
    redrawn document line changed ++ later =
      if changed && line < document.lineCount then (line + 1) :: later else later := by
  unfold redrawn
  split <;> rfl

/-- Scans of lines of a document, one after another, with the lines that have to be drawn again. -/
inductive Scans (grammar : Grammar) (document : Document) : Cache → List Nat → Cache → Prop where
  | nil (cache : Cache) : Scans grammar document cache [] cache
  | cons {cache last : Cache} {line : Nat} {stack : SpanStack} {later : List Nat}
      (positive : 1 ≤ line) (known : line ≤ cache.stale) (inside : line ≤ document.lineCount)
      (scanned : grammar.scanLine (cache.stackAt (line - 1)) (document.line line) = .ok stack)
      (rest : Scans grammar document (cache.advance line stack).1 later last) :
      Scans grammar document cache
        (redrawn document line (cache.advance line stack).2 ++ later) last

variable {grammar : Grammar} {document : Document} {cache middle last : Cache}
  {first second : List Nat}

/-- Scans may follow one another. -/
theorem Scans.append (near : Scans grammar document cache first middle)
    (far : Scans grammar document middle second last) :
    Scans grammar document cache (first ++ second) last := by
  induction near with
  | nil _ => exact far
  | cons positive known inside scanned _ ih =>
      rw [List.append_assoc]
      exact .cons positive known inside scanned (ih far)

/-- Scanning one line keeps the stack at its end. -/
theorem Scans.single {line : Nat} {stack : SpanStack} (positive : 1 ≤ line)
    (known : line ≤ cache.stale) (inside : line ≤ document.lineCount)
    (scanned : grammar.scanLine (cache.stackAt (line - 1)) (document.line line) = .ok stack) :
    Scans grammar document cache (redrawn document line (cache.advance line stack).2)
      (cache.advance line stack).1 := by
  have alone := Scans.cons positive known inside scanned (.nil _)
  rwa [List.append_nil] at alone

/-- Scans that bring every line before `line` up to date, or stop at the first one that fails. -/
inductive Replays (grammar : Grammar) (document : Document) (line : Nat) (cache : Cache) :
    List Nat → Cache → Except Session.Failure Unit → Prop where
  | reached {changed : List Nat} {last : Cache} (scans : Scans grammar document cache changed last)
      (behind : line ≤ last.stale) : Replays grammar document line cache changed last (.ok ())
  | stopped {changed : List Nat} {last : Cache} {fault : Scan.Fault}
      (scans : Scans grammar document cache changed last) (before : last.stale < line)
      (fails : grammar.scanLine (last.stackAt (last.stale - 1)) (document.line last.stale) =
        .error fault) :
      Replays grammar document line cache changed last (.error (.malformedGrammar fault))

theorem Replays.scans {line : Nat} {changed : List Nat} {outcome : Except Session.Failure Unit}
    (replays : Replays grammar document line cache changed last outcome) :
    Scans grammar document cache changed last := by
  cases replays with
  | reached scans _ => exact scans
  | stopped scans _ _ => exact scans

/-- Lines that are scanned before a replay belong to it. -/
theorem Replays.after {line : Nat} {outcome : Except Session.Failure Unit}
    (near : Scans grammar document cache first middle)
    (replays : Replays grammar document line middle second last outcome) :
    Replays grammar document line cache (first ++ second) last outcome := by
  cases replays with
  | reached scans behind => exact .reached (near.append scans) behind
  | stopped scans before fails => exact .stopped (near.append scans) before fails

/-- Scans that bring every line before `line` up to date and then scan that line in full. -/
inductive Shows (grammar : Grammar) (document : Document) (line : Nat) (cache : Cache) :
    List Nat → Cache → Except Session.Failure StyledLine → Prop where
  | unreached {changed : List Nat} {last : Cache} {failure : Session.Failure}
      (replays : Replays grammar document line cache changed last (.error failure)) :
      Shows grammar document line cache changed last (.error failure)
  | failed {changed : List Nat} {last : Cache} {fault : Scan.Fault}
      (scans : Scans grammar document cache changed last) (behind : line ≤ last.stale)
      (fails : grammar.highlightLine (last.stackAt (line - 1)) line (document.startOffset line)
        (document.line line) = .error fault) :
      Shows grammar document line cache changed last (.error (.malformedGrammar fault))
  | shown {changed : List Nat} {middle : Cache} {styled : StyledLine} {stack : SpanStack}
      (scans : Scans grammar document cache changed middle) (behind : line ≤ middle.stale)
      (highlighted : grammar.highlightLine (middle.stackAt (line - 1)) line
        (document.startOffset line) (document.line line) = .ok (styled, stack)) :
      Shows grammar document line cache
        (changed ++ redrawn document line (middle.advance line stack).2)
        (middle.advance line stack).1 (.ok styled)

/-- The full scan of a line keeps what the cheap one would. -/
theorem Shows.scans {line : Nat} {changed : List Nat} {outcome : Except Session.Failure StyledLine}
    (positive : 1 ≤ line) (inside : line ≤ document.lineCount)
    (shows : Shows grammar document line cache changed last outcome) :
    Scans grammar document cache changed last := by
  cases shows with
  | unreached replays => exact replays.scans
  | failed scans _ _ => exact scans
  | shown scans behind highlighted =>
      have scanned := (Grammar.strokes_of_highlightLine highlighted).1
      exact scans.append (.single positive behind inside scanned)

end Cache

namespace Session

open Cache (Replays Shows)

variable {session : Session}

/-- A session that is not disposed carries out requests for the lines that its document has. -/
theorem check_of_inside (alive : session.disposed = false) {line least : Nat} (above : least ≤ line)
    (inside : line ≤ session.document.lineCount) :
    (session.checkAlive *> session.checkLine line least) = .ok () := by
  have known : session.checkLine line least = .ok () := if_neg (by omega)
  rw [checkAlive_of_alive alive, known]
  rfl

theorem check_of_outside (alive : session.disposed = false) {line least : Nat}
    (outside : line < least ∨ session.document.lineCount < line) :
    (session.checkAlive *> session.checkLine line least) =
      .error (.lineOutOfRange line least session.document.lineCount) := by
  rw [checkAlive_of_alive alive, checkLine, if_pos outside]
  rfl

theorem readLine_of_unprobed (react : Reaction) (unprobed : session.probe = none) (line : Nat) :
    session.readLine react line = (session, session.document.line line) := by
  rw [readLine, unprobed]

/-- The loop that replays is a replay: by induction on the number of lines between the marker and the line
asked for, each round scans the line at the marker and moves it on, or stops at a fault. -/
theorem replay_replays (react : Reaction) {line : Nat} (count : Nat) (session : Session)
    (exactly : count = line - session.cache.stale) (unprobed : session.probe = none)
    (positive : 1 ≤ session.cache.stale) (inside : line ≤ session.document.lineCount + 1) :
    ∃ changed cache outcome,
      session.replay react session.document.lineCount count =
        ({ session with cache := cache }, changed, outcome) ∧
      Replays session.grammar session.document line session.cache changed cache outcome := by
  induction count generalizing session with
  | zero => exact ⟨[], session.cache, .ok (), rfl, .reached (.nil _) (by omega)⟩
  | succ count ih =>
      simp only [replay, readLine_of_unprobed react unprobed]
      cases scanned : session.grammar.scanLine (session.cache.stackAt (session.cache.stale - 1))
          (session.document.line session.cache.stale) with
      | error fault =>
          exact ⟨[], session.cache, _, rfl, .stopped (.nil _) (by omega) scanned⟩
      | ok stack =>
          have raised : max session.cache.stale (session.cache.stale + 1) =
              session.cache.stale + 1 := by omega
          obtain ⟨changed, cache, outcome, same, replays⟩ :=
            ih { session with cache := (session.cache.advance session.cache.stale stack).1 }
              (by simp only [Cache.advance]; omega) unprobed
              (by simp only [Cache.advance]; omega) inside
          -- What the round keeps is one scan; the rounds after it start from a raised marker.
          have step := Cache.Scans.single positive (Nat.le_refl _) (by omega) scanned
          refine ⟨_, cache, outcome, ?_, replays.after step⟩
          simp only [Cache.advance, raised] at same
          dsimp only
          rw [same, Cache.redrawn_append]
          rfl

/-- A line shown by a session in whose pass the lines before it have been brought up to date. -/
theorem showLine_shows (react : Reaction) (line : Nat) (unprobed : session.probe = none)
    {before : Cache} {changed : List Nat}
    (scans : Cache.Scans session.grammar session.document before changed session.cache)
    (behind : line ≤ session.cache.stale) :
    ∃ later cache outcome,
      session.showLine react line = ({ session with cache := cache }, later, outcome) ∧
      Shows session.grammar session.document line before (changed ++ later) cache outcome := by
  simp only [showLine, readLine_of_unprobed react unprobed]
  split
  · rename_i fault fails
    refine ⟨[], session.cache, _, rfl, ?_⟩
    rw [List.append_nil]
    exact .failed scans behind fails
  · rename_i styled stack highlighted
    refine ⟨_, _, _, ?_, .shown scans behind highlighted⟩
    rw [Cache.stale_store]
    rfl

/-- A pass of a calm session leaves a trace only where its action does, in the kept stacks, and in the
notices that it gives. -/
theorem Calm.pass {α : Type} (calm : session.Calm) (depth : Nat)
    {action : Session → Session × List Nat × Except Failure α} {cache : Cache}
    {changed : List Nat} {result : Except Failure α}
    (acts : action { session with passing := true } =
      ({ session with passing := true, cache := cache }, changed, result)) :
    session.pass (reaction depth) action =
      (session.update session.document cache (oneByOne changed), result) := by
  rw [Session.pass, calm.idle, if_neg Bool.false_ne_true, acts]
  dsimp only
  rw [notifyEach_of_muted]
  · refine Prod.ext ((passing_announceAll _ { session with cache := cache } true false).trans ?_) rfl
    rw [Session.update, ← calm.idle]
  · exact calm.muted

namespace Calm

variable (calm : session.Calm)
include calm

/-- Highlighting a line of the document brings the lines before it up to date and scans it in full. -/
theorem highlight (depth : Nat) (positive : 1 ≤ session.cache.stale) {line : Nat} (above : 1 ≤ line)
    (inside : line ≤ session.document.lineCount) :
    ∃ changed cache outcome,
      session.highlight (reaction depth) line =
        (session.update session.document cache (oneByOne changed), outcome) ∧
      Shows session.grammar session.document line session.cache changed cache outcome := by
  obtain ⟨changed, cache, outcome, same, replays⟩ :=
    replay_replays (reaction depth) _ { session with passing := true } rfl calm.unprobed positive
      (Nat.le_succ_of_le inside)
  rw [Session.highlight, check_of_inside calm.alive above inside, guarded]
  cases replays with
  | reached scans behind =>
      obtain ⟨later, last, shown, shows, result⟩ :=
        @showLine_shows { session with passing := true, cache := cache } (reaction depth) line
          calm.unprobed _ _ scans behind
      refine ⟨changed ++ later, last, shown, calm.pass depth ?_, result⟩
      rw [replayTo, same]
      dsimp only
      rw [shows]
  | stopped scans before fails =>
      refine ⟨changed, cache, _, calm.pass depth ?_, .unreached (.stopped scans before fails)⟩
      rw [replayTo, same]

theorem highlight_of_outside (react : Reaction) {line : Nat}
    (outside : line < 1 ∨ session.document.lineCount < line) :
    session.highlight react line =
      (session, .error (.lineOutOfRange line 1 session.document.lineCount)) := by
  rw [Session.highlight, check_of_outside calm.alive outside]
  rfl

/-- Asking for the stack at the end of a line brings that line and those before it up to date. -/
theorem stackAt (depth : Nat) (positive : 1 ≤ session.cache.stale) {line : Nat}
    (inside : line ≤ session.document.lineCount) :
    ∃ changed cache outcome,
      session.stackAt (reaction depth) line =
        (session.update session.document cache (oneByOne changed),
          outcome.map fun () => cache.stackAt line) ∧
      Replays session.grammar session.document (line + 1) session.cache changed cache outcome := by
  obtain ⟨changed, cache, outcome, same, replays⟩ :=
    replay_replays (reaction depth) _ { session with passing := true } rfl calm.unprobed positive
      (Nat.succ_le_succ inside)
  rw [Session.stackAt, check_of_inside calm.alive (Nat.zero_le line) inside, guarded]
  refine ⟨changed, cache, outcome, calm.pass depth ?_, replays⟩
  rw [replayTo, same]

theorem stackAt_of_outside (react : Reaction) {line : Nat}
    (outside : session.document.lineCount < line) :
    session.stackAt react line =
      (session, .error (.lineOutOfRange line 0 session.document.lineCount)) := by
  rw [Session.stackAt, check_of_outside calm.alive (.inr outside)]
  rfl

end Calm

end Session

end Highlight
