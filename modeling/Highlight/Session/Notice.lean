import Highlight.Session.Basic

/-! # Notices to listeners

A range of lines to be drawn again is delivered to the listeners at once, or held back while a batch is
open. The listeners are set aside during a delivery, so that a delivery which one of them causes reaches
only the listeners registered since then.
-/

namespace Highlight.Session

/-- Tells one listener of a range of lines. Its script is carried out before the delivery is recorded. -/
def deliver (react : Reaction) (first last : Nat) (session : Session) (listener : Listener) :
    Session :=
  let (session, answers) := react listener.script session
  session.record (.delivered listener.number first last answers)

/-- Tells every listener of a range of lines, in order of registration. Listeners registered meanwhile are
kept behind those that were there before. -/
def fire (react : Reaction) (first last : Nat) (session : Session) : Session :=
  let called := session.listeners
  let session := called.foldl (deliver react first last) { session with listeners := [] }
  { session with listeners := called ++ session.listeners }

/-- The range that covers both a range held back before, if there is one, and a new one. -/
def widen : Option (Nat × Nat) → Nat → Nat → Nat × Nat
  | none, first, last => (first, last)
  | some (first', last'), first, last => (min first' first, max last' last)

/-- Gives notice of a range of lines. -/
def notify (react : Reaction) (first last : Nat) (session : Session) : Session :=
  if session.batching then
    { session with held := some (widen session.held first last) }
  else
    fire react first last session

/-- Gives notice of a single line, if the document has it. -/
def notifyLine (react : Reaction) (line : Nat) (session : Session) : Session :=
  if line ≤ session.document.lineCount then notify react line line session else session

/-- Gives notice of every line of the document. -/
def notifyAll (react : Reaction) (session : Session) : Session :=
  notify react 1 session.document.lineCount session

/-- Gives notice of several lines, one by one. -/
def notifyEach (react : Reaction) (lines : List Nat) (session : Session) : Session :=
  lines.foldl (fun session line => notify react line line session) session

end Highlight.Session
