import Highlight.Line.Section
import Highlight.Scan.Line

/-! # Requests and answers

What may be asked of a session, by the editor as well as by the scripts that listeners and the probe run,
and what the session answers.
-/

namespace Highlight.Session

/-- A request to a session. Edits change only the text; a session learns of them by the notices that
follow. A listener is told of ranges of lines whose highlighting is out of date and then makes the requests
of its script; the probe makes those of its script each time a pass reads a line. -/
inductive Request where
  | highlight (line : Nat)
  | stackAt (line : Nat)
  | invalidate (line : Nat)
  | invalidateAll
  | lineChanged (line : Nat)
  | lineInserted (after inserted : Nat)
  | lineRemoved (line : Nat)
  | rebuild
  | beginBatch
  | endBatch
  | dispose
  | setInitialStack (stack : SpanStack)
  | initialStack
  | marker
  | namedStyle (name : String)
  | replaceLine (line : Nat) (text : String)
  | insertLine (after : Nat) (text : String)
  | removeLine (line : Nat)
  | describeText
  | listen (script : List Request)
  | probe (script : Option (List Request))

/-- Requests made one after another. -/
abbrev Script := List Request

/-- A batch that was begun twice or ended without having been begun. -/
inductive BatchMisuse where
  | begunTwice
  | notBegun
  deriving DecidableEq

/-- Why a request is not carried out. -/
inductive Failure where
  | disposed
  | reentrant
  | unbalancedBatch (misuse : BatchMisuse)
  | lineOutOfRange (line least most : Nat)
  | malformedGrammar (fault : Scan.Fault)
  deriving DecidableEq

/-- A description of the failure. -/
def Failure.message : Failure → String
  | disposed => "Highlighter has been disposed"
  | reentrant => "Reentrant highlighting: a highlight pass is already running on this document"
  | unbalancedBatch .begunTwice => "Unbalanced batch: begin_batch called inside a batch"
  | unbalancedBatch .notBegun => "Unbalanced batch: end_batch called without begin_batch"
  | lineOutOfRange line least most =>
    "Line " ++ toString line ++ " out of range (" ++ toString least ++ "..=" ++ toString most ++ ")"
  | malformedGrammar fault => fault.message

/-- The answer to a request. -/
inductive Answer where
  | done
  | flag (value : Bool)
  | number (value : Nat)
  | line (line : StyledLine)
  | stack (stack : SpanStack)
  | style (style : Option Style)
  | text (text : String) (lineCount endOffset : Nat)
  | failed (failure : Failure)
  deriving DecidableEq

/-- The answer to a request that gives nothing back. -/
def Answer.ofUnit : Except Failure Unit → Answer
  | .ok () => done
  | .error failure => failed failure

/-- What is recorded while requests are carried out: a range of lines delivered to a listener, or a line
read by a pass under a probe, each with the answers to its script. -/
inductive Event where
  | delivered (listener first last : Nat) (answers : List Answer)
  | read (line : Nat) (answers : List Answer)
  deriving DecidableEq

/-- A listener, numbered in order of registration. -/
structure Listener where
  number : Nat
  script : Script

end Highlight.Session
