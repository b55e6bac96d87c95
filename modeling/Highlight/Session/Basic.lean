import Highlight.Document
import Highlight.Session.Cache
import Highlight.Session.Request

/-! # Sessions

A session highlights one document incrementally. It keeps the stacks of the lines it has scanned, the
listeners to tell of lines to be drawn again, and the flags that guard a running pass and a batch.
-/

namespace Highlight

/-- The state of a session. `passing` holds during a highlight pass and `batching` between the ends of a
batch, whose notices are held back as one range in `held`. The log has the latest event first. -/
structure Session where
  grammar : Grammar
  document : Document
  cache : Cache
  listeners : List Session.Listener
  registered : Nat
  passing : Bool
  batching : Bool
  held : Option (Nat × Nat)
  disposed : Bool
  probe : Option Session.Script
  probing : Bool
  log : List Session.Event

namespace Session

/-- A new session on a document. -/
def start (grammar : Grammar) (document : Document) : Session where
  grammar := grammar
  document := document
  cache := .starting .empty
  listeners := []
  registered := 0
  passing := false
  batching := false
  held := none
  disposed := false
  probe := none
  probing := false
  log := []

/-- How the requests of a script are carried out. -/
abbrev Reaction := Script → Session → Session × List Answer

/-- The first line that is not up to date. -/
def marker (session : Session) : Nat := session.cache.stale

/-- The events recorded so far, the earliest first. -/
def events (session : Session) : List Event := session.log.reverse

/-- The session with one more event recorded. -/
def record (session : Session) (event : Event) : Session :=
  { session with log := event :: session.log }

/-- A disposed session refuses every request that can fail. -/
def checkAlive (session : Session) : Except Failure Unit :=
  if session.disposed then .error .disposed else .ok ()

/-- Notices of edits are refused while a pass is running. -/
def checkEditable (session : Session) : Except Failure Unit := do
  session.checkAlive
  if session.passing then throw .reentrant

/-- Lines are refused that the document does not have. -/
def checkLine (session : Session) (line least : Nat) : Except Failure Unit :=
  let most := session.document.lineCount
  if line < least ∨ most < line then .error (.lineOutOfRange line least most) else .ok ()

/-- Carries out `action` unless the check fails. -/
def guarded (check : Except Failure Unit) (session : Session)
    (action : Session → Session × Except Failure α) : Session × Except Failure α :=
  match check with
  | .error failure => (session, .error failure)
  | .ok () => action session

end Session

end Highlight
