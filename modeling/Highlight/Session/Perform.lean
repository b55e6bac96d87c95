import Highlight.Session.Pass

/-! # Carrying out requests

Every request has an answer, and a script is carried out request by request. Scripts that listeners and the
probe run may cause further deliveries and so run further scripts. How deep this may go is bounded: past
the bound a delivery is still recorded, but its script makes no requests.
-/

namespace Highlight.Session

/-- Lowers the marker to a line and gives notice of that line. -/
def invalidate (react : Reaction) (line : Nat) (session : Session) :
    Session × Except Failure Unit :=
  guarded session.checkEditable session fun session =>
    let session := { session with cache := session.cache.invalidate line }
    (session.notifyLine react (max line 1), .ok ())

/-- Forgets all stacks but that at the start of the document, and gives notice of all lines. -/
def invalidateAll (react : Reaction) (session : Session) : Session × Except Failure Unit :=
  guarded session.checkEditable session fun session =>
    ({ session with cache := session.cache.forget }.notifyAll react, .ok ())

/-- Takes note of an inserted line. -/
def lineInserted (react : Reaction) (line : Nat) (session : Session) :
    Session × Except Failure Unit :=
  guarded session.checkEditable session fun session =>
    let session := { session with cache := (session.cache.insertSlot line).invalidate line }
    (session.notifyLine react (max line 1), .ok ())

/-- Takes note of a removed line. The line that has moved up into its place is to be drawn again. -/
def lineRemoved (react : Reaction) (line : Nat) (session : Session) :
    Session × Except Failure Unit :=
  guarded session.checkEditable session fun session =>
    let session := { session with cache := (session.cache.removeSlot line).invalidate line }
    (session.notifyLine react (max line 1), .ok ())

/-- Starts the document inside of the given spans. -/
def setInitialStack (react : Reaction) (stack : SpanStack) (session : Session) :
    Session × Except Failure Unit :=
  guarded session.checkEditable session fun session =>
    ({ session with cache := .starting stack }.notifyAll react, .ok ())

/-- Begins a batch, in which notices are held back. -/
def beginBatch (session : Session) : Session × Except Failure Unit :=
  guarded session.checkAlive session fun session =>
    if session.batching then (session, .error (.unbalancedBatch .begunTwice))
    else ({ session with batching := true }, .ok ())

/-- Ends a batch. The range held back, if any, is delivered. -/
def endBatch (react : Reaction) (session : Session) : Session × Except Failure Unit :=
  guarded session.checkAlive session fun session =>
    if session.batching then
      let session := { session with batching := false }
      match session.held with
      | none => (session, .ok ())
      | some (first, last) => ({ session with held := none }.fire react first last, .ok ())
    else (session, .error (.unbalancedBatch .notBegun))

/-- Ends the session. -/
def dispose (session : Session) : Session × Except Failure Unit :=
  guarded session.checkEditable session fun session =>
    ({ session with disposed := true, listeners := [], cache := .starting .empty }, .ok ())

/-- Registers a listener. -/
def listen (script : Script) (session : Session) : Session :=
  { session with
    listeners := session.listeners ++ [⟨session.registered, script⟩]
    registered := session.registered + 1 }

/-- Edits the document, if the edit is possible, and says whether it was. -/
def edit (edited : Option Document) (session : Session) : Session × Answer :=
  match edited with
  | some document => ({ session with document := document }, .flag true)
  | none => (session, .flag false)

/-- Carries out one request. -/
def perform (react : Reaction) (request : Request) (session : Session) : Session × Answer :=
  let plain := fun ((session, outcome) : Session × Except Failure Unit) =>
    (session, Answer.ofUnit outcome)
  match request with
  | .highlight line =>
    match session.highlight react line with
    | (session, .ok styled) => (session, .line styled)
    | (session, .error failure) => (session, .failed failure)
  | .stackAt line =>
    match session.stackAt react line with
    | (session, .ok stack) => (session, .stack stack)
    | (session, .error failure) => (session, .failed failure)
  | .invalidate line => plain (session.invalidate react line)
  | .invalidateAll => plain (session.invalidateAll react)
  | .lineChanged line => plain (session.invalidate react line)
  | .lineInserted _ inserted => plain (session.lineInserted react inserted)
  | .lineRemoved line => plain (session.lineRemoved react line)
  | .rebuild => plain (session.invalidateAll react)
  | .beginBatch => plain session.beginBatch
  | .endBatch => plain (session.endBatch react)
  | .dispose => plain session.dispose
  | .setInitialStack stack => plain (session.setInitialStack react stack)
  | .initialStack => (session, .stack (session.cache.stackAt 0))
  | .marker => (session, .number session.marker)
  | .namedStyle name => (session, .style (session.grammar.namedStyle? name))
  | .replaceLine line text => session.edit (session.document.replaceLine? line text)
  | .insertLine after text => session.edit (session.document.insertLine? after text)
  | .removeLine line => session.edit (session.document.removeLine? line)
  | .describeText =>
    (session, .text session.document.text session.document.lineCount
      (session.document.endOffset session.document.lineCount))
  | .listen script => (session.listen script, .number session.registered)
  | .probe script => ({ session with probe := script }, .done)

/-- Carries out the requests of a script one after another. -/
def runScript (react : Reaction) : Reaction
  | [], session => (session, [])
  | request :: rest, session =>
    let (session, answer) := session.perform react request
    let (session, answers) := runScript react rest session
    (session, answer :: answers)

/-- The reaction in which scripts may cause one another to the given depth. -/
def reaction : Nat → Reaction
  | 0 => fun _ session => (session, [])
  | depth + 1 => runScript (reaction depth)

/-- How deep scripts may cause one another. -/
def nestingLimit : Nat := 1000

/-- Carries out a request of the editor. -/
def handle (request : Request) (session : Session) : Session × Answer :=
  session.perform (reaction nestingLimit) request

end Highlight.Session
