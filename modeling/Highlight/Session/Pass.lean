import Highlight.Session.Notice

/-! # Highlight passes

A pass replays the cheap scan over the lines that are out of date and then, to show a line, scans that line
in full. A flag is held for the time of the pass, notices included, so that whatever the document or a
listener asks for meanwhile cannot disturb it.
-/

namespace Highlight.Session

/-- Reads a line for the pass. If a probe is set, its script is carried out before the text is taken. -/
def readLine (react : Reaction) (line : Nat) (session : Session) : Session × String :=
  match session.probe, session.probing with
  | some script, false =>
    let (session, answers) := react script { session with probing := true }
    let session := { session with probing := false }.record (.read line answers)
    (session, session.document.line line)
  | _, _ => (session, session.document.line line)

/-- Scans the given number of lines from the marker on. The marker moves behind each line that is scanned
and stays before one that fails. Gives also the lines that have to be drawn again. -/
def replay (react : Reaction) (lineCount : Nat) :
    Nat → Session → Session × List Nat × Except Failure Unit
  | 0, session => (session, [], .ok ())
  | count + 1, session =>
    let line := session.cache.stale
    let input := session.cache.stackAt (line - 1)
    let (session, text) := session.readLine react line
    match session.grammar.scanLine input text with
    | .error fault => (session, [], .error (.malformedGrammar fault))
    | .ok stack =>
      let (cache, changed) := session.cache.store line stack
      let session := { session with cache := { cache with stale := line + 1 } }
      let (session, later, outcome) := replay react lineCount count session
      (session, if changed && line < lineCount then (line + 1) :: later else later, outcome)

/-- Brings every line before `line` up to date. -/
def replayTo (react : Reaction) (line : Nat) (session : Session) :
    Session × List Nat × Except Failure Unit :=
  replay react session.document.lineCount (line - session.cache.stale) session

/-- Scans a line in full, inside of a pass that has brought the lines before it up to date. -/
def showLine (react : Reaction) (line : Nat) (session : Session) :
    Session × List Nat × Except Failure StyledLine :=
  let input := session.cache.stackAt (line - 1)
  let (session, text) := session.readLine react line
  let offset := session.document.startOffset line
  match session.grammar.highlightLine input line offset text with
  | .error fault => (session, [], .error (.malformedGrammar fault))
  | .ok (styled, stack) =>
    let (cache, changed) := session.cache.store line stack
    let session := { session with cache := { cache with stale := max cache.stale (line + 1) } }
    (session, if changed && line < session.document.lineCount then [line + 1] else [], .ok styled)

/-- Carries out a pass: an action that gives lines to be drawn again and a result. Notices are given at the
end of the pass, also where it fails. -/
def pass (react : Reaction) (session : Session)
    (action : Session → Session × List Nat × Except Failure α) : Session × Except Failure α :=
  if session.passing then
    (session, .error .reentrant)
  else
    let (session, changed, result) := action { session with passing := true }
    ({ session.notifyEach react changed with passing := false }, result)

/-- Highlights a line. -/
def highlight (react : Reaction) (line : Nat) (session : Session) :
    Session × Except Failure StyledLine :=
  guarded (session.checkAlive *> session.checkLine line 1) session fun session =>
    pass react session fun session =>
      match replayTo react line session with
      | (session, changed, .error failure) => (session, changed, .error failure)
      | (session, changed, .ok ()) =>
        let (session, later, result) := showLine react line session
        (session, changed ++ later, result)

/-- The stack at the end of a line, or at the start of the document for line 0. -/
def stackAt (react : Reaction) (line : Nat) (session : Session) :
    Session × Except Failure SpanStack :=
  guarded (session.checkAlive *> session.checkLine line 0) session fun session =>
    pass react session fun session =>
      let (session, changed, outcome) := replayTo react (line + 1) session
      (session, changed, outcome.map fun () => session.cache.stackAt line)

end Highlight.Session
