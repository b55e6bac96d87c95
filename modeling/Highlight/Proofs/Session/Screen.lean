import Highlight.Proofs.Session.Operation

/-! # What an editor has on its screen

An editor draws the lines that its session answers with, moves what it has drawn along with insertions and
removals, and takes note of the ranges of lines that it is told to draw again
(`Highlight.Session.Observed`). The editor is the first listener of its session.
-/

namespace Highlight

/-- A line as it was last drawn, and whether it has since been in a range to be drawn again. -/
structure Shown where
  line : StyledLine
  reported : Bool
  deriving DecidableEq

/-- What has been drawn for each line of a document. -/
def Screen : Type := Nat → Option Shown

namespace Screen

/-- Nothing drawn. -/
def blank : Screen := fun _ => none

/-- The screen after a line has been inserted. -/
def insertLine (screen : Screen) (after : Nat) : Screen := fun line =>
  if line ≤ after then screen line else if line = after + 1 then none else screen (line - 1)

/-- The screen after a line has been removed. -/
def removeLine (screen : Screen) (removed : Nat) : Screen := fun line =>
  if line < removed then screen line else screen (line + 1)

/-- The screen once a range of lines has been reported. -/
def report (screen : Screen) (range : Nat × Nat) : Screen := fun line =>
  (screen line).map fun shown =>
    { shown with reported := shown.reported || decide (range.1 ≤ line ∧ line ≤ range.2) }

/-- The screen once several ranges of lines have been reported. -/
def reportAll (screen : Screen) (ranges : List (Nat × Nat)) : Screen :=
  ranges.foldl report screen

/-- The screen with a line drawn. -/
def draw (screen : Screen) (number : Nat) (styled : StyledLine) : Screen := fun line =>
  if line = number then some ⟨styled, false⟩ else screen line

/-- The screen after an event. The editor is the listener with number 0. -/
def hear (screen : Screen) : Session.Event → Screen
  | .delivered 0 first last _ => screen.report (first, last)
  | _ => screen

/-- The screen after an edit that was possible. -/
def move (screen : Screen) : Session.Request → Session.Answer → Screen
  | .insertLine after _, .flag true => screen.insertLine after
  | .removeLine line, .flag true => screen.removeLine line
  | _, _ => screen

/-- The screen after an answer that gives a line. -/
def receive (screen : Screen) : Session.Request → Session.Answer → Screen
  | .highlight number, .line styled => screen.draw number styled
  | _, _ => screen

/-- The screen after a request, with the events that were recorded until it was answered. -/
def follow (screen : Screen) (request : Session.Request) (answer : Session.Answer)
    (events : List Session.Event) : Screen :=
  (events.foldl hear (screen.move request answer)).receive request answer

/-- Whether a line is on the screen as it was drawn and has not been reported. -/
def Unreported (screen : Screen) (line : Nat) (styled : StyledLine) : Prop :=
  screen line = some ⟨styled, false⟩

variable {screen : Screen} {line : Nat} {styled : StyledLine}

/-- A line is still unreported unless the range has it. -/
theorem unreported_report (range : Nat × Nat) :
    (screen.report range).Unreported line styled ↔
      screen.Unreported line styled ∧ ¬(range.1 ≤ line ∧ line ≤ range.2) := by
  unfold Unreported report
  rcases screen line with _ | ⟨drawn, reported⟩
  · simp
  · cases reported <;> simp

theorem unreported_reportAll (ranges : List (Nat × Nat)) :
    (screen.reportAll ranges).Unreported line styled ↔
      screen.Unreported line styled ∧ ∀ range ∈ ranges, ¬(range.1 ≤ line ∧ line ≤ range.2) := by
  induction ranges generalizing screen with
  | nil => simp [reportAll]
  | cons range rest ih =>
      rw [reportAll, List.foldl_cons, ← reportAll, ih, unreported_report, List.forall_mem_cons,
        and_assoc]

theorem reportAll_append (screen : Screen) (first second : List (Nat × Nat)) :
    screen.reportAll (first ++ second) = (screen.reportAll first).reportAll second :=
  List.foldl_append

@[simp] theorem move_done (screen : Screen) (request : Session.Request) :
    screen.move request .done = screen := by
  cases request <;> rfl

@[simp] theorem move_failed (screen : Screen) (request : Session.Request)
    (failure : Session.Failure) : screen.move request (.failed failure) = screen := by
  cases request <;> rfl

@[simp] theorem receive_failed (screen : Screen) (request : Session.Request)
    (failure : Session.Failure) : screen.receive request (.failed failure) = screen := by
  cases request <;> rfl

@[simp] theorem receive_done (screen : Screen) (request : Session.Request) :
    screen.receive request .done = screen := by
  cases request <;> rfl

@[simp] theorem receive_flag (screen : Screen) (request : Session.Request) (value : Bool) :
    screen.receive request (.flag value) = screen := by
  cases request <;> rfl

end Screen

namespace Session

/-- A session and the screen of an editor that follows it. -/
structure Observed where
  session : Session
  screen : Screen

namespace Observed

/-- A new session that the editor listens to from the start, and an empty screen. -/
def start (grammar : Grammar) (document : Document) : Observed where
  session := ((Session.start grammar document).handle (.listen [])).1
  screen := .blank

/-- The session and the screen after a request. -/
def handle (observed : Observed) (request : Request) : Observed :=
  let (session, answer) := observed.session.handle request
  { session := session
    screen := observed.screen.follow request answer
      (session.events.drop observed.session.events.length) }

/-- The session and the screen after several operations. -/
def run (observed : Observed) (operations : List Operation) : Observed :=
  operations.foldl (fun observed operation => operation.requests.foldl handle observed) observed

end Observed

/-- A session outside of a batch that the editor listens to with an empty script. -/
structure Watched (session : Session) : Prop where
  unbatched : session.batching = false
  registered : session.registered ≠ 0
  first : ∃ others, session.listeners = ⟨0, []⟩ :: others ∧
    ∀ listener ∈ others, listener.number ≠ 0

/-- The screen does not hear of deliveries to others than the editor. -/
theorem foldl_hear_deliveries {listeners : List Listener}
    (others : ∀ listener ∈ listeners, listener.number ≠ 0) (first last : Nat) (screen : Screen) :
    (deliveries listeners first last).foldl Screen.hear screen = screen := by
  induction listeners with
  | nil => rfl
  | cons listener rest ih =>
      obtain ⟨different, later⟩ := List.forall_mem_cons.mp others
      have deaf : screen.hear (.delivered listener.number first last []) = screen := by
        unfold Screen.hear
        split
        · rename_i same
          exact absurd (Event.delivered.inj same).1 different
        · rfl
      rw [deliveries, List.map_cons, List.foldl_cons, deaf]
      exact ih later

theorem ne_of_spared {document : Document} {line other : Nat} (inside : line ≤ document.lineCount)
    (spared : ∀ range ∈ lineRanges document line, ¬(range.1 ≤ other ∧ other ≤ range.2)) :
    other ≠ line := by
  rintro rfl
  rw [lineRanges, if_pos inside] at spared
  exact spared (other, other) List.mem_cons_self ⟨Nat.le_refl _, Nat.le_refl _⟩

namespace Watched

variable {session : Session} (watched : session.Watched)
include watched

/-- The editor hears of every range that the session gives notice of. -/
theorem foldl_hear (ranges : List (Nat × Nat)) (screen : Screen) :
    (ranges.flatMap fun range => deliveries session.listeners range.1 range.2).foldl Screen.hear
      screen = screen.reportAll ranges := by
  obtain ⟨others, listeners, distinct⟩ := watched.first
  induction ranges generalizing screen with
  | nil => rfl
  | cons range rest ih =>
      rw [List.flatMap_cons, List.foldl_append, ih, listeners]
      exact congrArg (Screen.reportAll · rest)
        (foldl_hear_deliveries distinct range.1 range.2 (screen.report range))

theorem update (document : Document) (cache : Cache) (ranges : List (Nat × Nat)) :
    (session.update document cache ranges).Watched := by
  obtain ⟨held, log, same⟩ := session.exists_update_eq document cache ranges
  rw [same]
  exact ⟨watched.unbatched, watched.registered, watched.first⟩

theorem drop_events (document : Document) (cache : Cache) (ranges : List (Nat × Nat)) :
    (session.update document cache ranges).events.drop session.events.length =
      ranges.flatMap fun range => deliveries session.listeners range.1 range.2 := by
  rw [Session.update, announceAll_of_not_batching]
  · simp [events]
  · exact watched.unbatched

end Watched

namespace Observed

variable {observed : Observed} {cache : Cache} {ranges : List (Nat × Nat)}

/-- What the editor sees of a request that changes text and kept stacks and gives notices. -/
theorem handle_of_update (watched : observed.session.Watched) {request : Request} {answer : Answer}
    {document : Document}
    (updates : observed.session.handle request =
      (observed.session.update document cache ranges, answer)) :
    observed.handle request =
      { session := observed.session.update document cache ranges
        screen := ((observed.screen.move request answer).reportAll ranges).receive request
          answer } := by
  simp only [handle, updates, Screen.follow, watched.drop_events, watched.foldl_hear]

/-- What the editor sees of an edit and the notice of it. -/
theorem handle_of_edit (watched : observed.session.Watched) (quiet : observed.session.Quiet)
    {edit notice : Request} {edited : Option Document}
    (edits : observed.session.handle edit = observed.session.edit edited)
    (noticing : noticed (edited.getD observed.session.document) observed.session.cache notice =
      some (cache, ranges)) :
    (observed.handle edit).handle notice =
      { session :=
          observed.session.update (edited.getD observed.session.document) cache ranges
        screen := (observed.screen.move edit (.flag edited.isSome)).reportAll ranges } := by
  have still := quiet.update (edited.getD observed.session.document) observed.session.cache []
  rw [handle_of_update watched (edits.trans (edit_eq edited observed.session)),
    handle_of_update (watched.update _ _ _) (still.calm.free.handle_of_noticed noticing)]
  simp only [Screen.receive_flag, Screen.move_done, Screen.receive_done]
  rfl

end Observed

end Session

end Highlight
