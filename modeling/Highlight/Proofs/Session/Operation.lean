import Highlight.Proofs.Session.Quiet
import Highlight.Proofs.Session.Slots

/-! # Operations of an editor

An editor that keeps to the rules tells its session of every edit at once. What a notice of the editor
does to a free session is read off a table (`Highlight.Session.Free.handle_of_noticed`).
-/

namespace Highlight.Session

/-- What an editor does with a session. Each edit is followed by the notice of it. -/
inductive Operation where
  | replaceLine (line : Nat) (text : String)
  | insertLine (after : Nat) (text : String)
  | removeLine (line : Nat)
  | invalidate (line : Nat)
  | invalidateAll
  | rebuild
  | setInitialStack (stack : SpanStack)
  | beginBatch
  | endBatch
  | highlight (line : Nat)
  | stackAt (line : Nat)
  | listen

namespace Operation

/-- The requests that make up an operation. -/
def requests : Operation → List Request
  | replaceLine line text => [.replaceLine line text, .lineChanged line]
  | insertLine after text => [.insertLine after text, .lineInserted after (after + 1)]
  | removeLine line => [.removeLine line, .lineRemoved line]
  | invalidate line => [.invalidate line]
  | invalidateAll => [.invalidateAll]
  | rebuild => [.rebuild]
  | setInitialStack stack => [.setInitialStack stack]
  | beginBatch => [.beginBatch]
  | endBatch => [.endBatch]
  | highlight line => [.highlight line]
  | stackAt line => [.stackAt line]
  | listen => [.listen []]

/-- Whether the operation begins or ends a batch. -/
def isBatch : Operation → Bool
  | beginBatch | endBatch => true
  | _ => false

/-- The stack that the document starts with after an operation. -/
def initial (before : SpanStack) : Operation → SpanStack
  | setInitialStack stack => stack
  | _ => before

/-- The document after an operation. An edit that is not possible changes nothing. -/
def edited (before : Document) : Operation → Document
  | replaceLine line text => (before.replaceLine? line text).getD before
  | insertLine after text => (before.insertLine? after text).getD before
  | removeLine line => (before.removeLine? line).getD before
  | _ => before

end Operation

/-- The stack that the document starts with after several operations on a new session. -/
def initialAfter (operations : List Operation) : SpanStack :=
  operations.foldl Operation.initial .empty

/-- The document after several operations. -/
def documentAfter (document : Document) (operations : List Operation) : Document :=
  operations.foldl Operation.edited document

/-- The session after some requests, while scripts are carried out in a given way. -/
def performAll (react : Reaction) (requests : List Request) (session : Session) : Session :=
  requests.foldl (fun session request => (session.perform react request).1) session

theorem performAll_append (react : Reaction) (before after : List Request) (session : Session) :
    session.performAll react (before ++ after) =
      (session.performAll react before).performAll react after :=
  List.foldl_append

/-- The session after requests of the editor. -/
def handleAll (requests : List Request) (session : Session) : Session :=
  requests.foldl (fun session request => (session.handle request).1) session

/-- The session after several operations. -/
def run (operations : List Operation) (session : Session) : Session :=
  operations.foldl (fun session operation => session.handleAll operation.requests) session

/-- What a notice of the editor makes of the kept stacks, and the ranges of lines that listeners are told
of. -/
def noticed (document : Document) (cache : Cache) : Request → Option (Cache × List (Nat × Nat))
  | .invalidate line | .lineChanged line =>
    some (cache.invalidate line, lineRanges document (max line 1))
  | .lineInserted _ line =>
    some ((cache.insertSlot line).invalidate line, lineRanges document (max line 1))
  | .lineRemoved line =>
    some ((cache.removeSlot line).invalidate line, lineRanges document (max line 1))
  | .invalidateAll | .rebuild => some (cache.forget, allRanges document)
  | .setInitialStack stack => some (.starting stack, allRanges document)
  | _ => none

/-- A notice does not raise the marker, nor move it in front of the first line. -/
theorem stale_of_noticed {document : Document} {before after : Cache} {request : Request}
    {ranges : List (Nat × Nat)} (noticing : noticed document before request = some (after, ranges))
    (positive : 1 ≤ before.stale) : 1 ≤ after.stale ∧ after.stale ≤ before.stale := by
  have lowered : ∀ (cache : Cache) line, cache.stale = before.stale →
      1 ≤ (cache.invalidate line).stale ∧ (cache.invalidate line).stale ≤ before.stale :=
    fun cache line same => ⟨Cache.one_le_stale_invalidate line (same.symm ▸ positive),
      same ▸ cache.stale_invalidate_le line⟩
  cases request <;> cases noticing
  case invalidate line => exact lowered before line rfl
  case invalidateAll => exact ⟨Nat.le_refl 1, positive⟩
  case lineChanged line => exact lowered before line rfl
  case lineInserted after line => exact lowered _ line (before.stale_insertSlot line)
  case lineRemoved line => exact lowered _ line (before.stale_removeSlot line)
  case rebuild => exact ⟨Nat.le_refl 1, positive⟩
  case setInitialStack stack => exact ⟨Nat.le_refl 1, positive⟩

/-- A notice is refused, or what it makes of the kept stacks is kept and the listeners are told. -/
theorem perform_eq_of_noticed {session : Session} {request : Request} {cache : Cache}
    {ranges : List (Nat × Nat)}
    (noticing : noticed session.document session.cache request = some (cache, ranges))
    (react : Reaction) :
    session.perform react request =
      match session.checkEditable with
      | .error failure => (session, .failed failure)
      | .ok () => ({ session with cache := cache }.notifyRanges react ranges, .done) := by
  cases request <;> cases noticing
  case invalidate line =>
    simp only [perform, invalidate, guarded, notifyLine_eq]
    cases session.checkEditable <;> rfl
  case invalidateAll =>
    simp only [perform, invalidateAll, guarded, notifyAll_eq]
    cases session.checkEditable <;> rfl
  case lineChanged line =>
    simp only [perform, invalidate, guarded, notifyLine_eq]
    cases session.checkEditable <;> rfl
  case lineInserted after line =>
    simp only [perform, lineInserted, guarded, notifyLine_eq]
    cases session.checkEditable <;> rfl
  case lineRemoved line =>
    simp only [perform, lineRemoved, guarded, notifyLine_eq]
    cases session.checkEditable <;> rfl
  case rebuild =>
    simp only [perform, invalidateAll, guarded, notifyAll_eq]
    cases session.checkEditable <;> rfl
  case setInitialStack stack =>
    simp only [perform, setInitialStack, guarded, notifyAll_eq]
    cases session.checkEditable <;> rfl

/-- A session that is neither disposed nor in a pass takes note of an edit. -/
theorem perform_of_noticed {session : Session} (alive : session.disposed = false)
    (idle : session.passing = false) {request : Request} {cache : Cache} {ranges : List (Nat × Nat)}
    (notice : noticed session.document session.cache request = some (cache, ranges))
    (react : Reaction) :
    session.perform react request =
      ({ session with cache := cache }.notifyRanges react ranges, .done) := by
  rw [perform_eq_of_noticed notice, checkEditable_eq_ok_iff.mpr ⟨alive, idle⟩]

/-- A free session takes note of an edit by lowering the marker, moving the slots and giving its notices. -/
theorem Free.handle_of_noticed {session : Session} (free : session.Free) {request : Request}
    {cache : Cache} {ranges : List (Nat × Nat)}
    (notice : noticed session.document session.cache request = some (cache, ranges)) :
    session.handle request = (session.update session.document cache ranges, .done) := by
  have muted : { session with cache := cache }.Muted := free.muted
  rw [handle, perform_of_noticed free.alive free.idle notice, notifyRanges_of_muted _ _ muted]
  rfl

theorem edit_eq (edited : Option Document) (session : Session) :
    session.edit edited =
      (session.update (edited.getD session.document) session.cache [], .flag edited.isSome) := by
  cases edited <;> rfl

/-- An edit and the notice of it change the text and the kept stacks together. -/
theorem Free.handleAll_of_edit {session : Session} (free : session.Free) {edit notice : Request}
    {edited : Option Document} (edits : session.handle edit = session.edit edited) {cache : Cache}
    {ranges : List (Nat × Nat)}
    (noticing : noticed (edited.getD session.document) session.cache notice =
      some (cache, ranges)) :
    session.handleAll [edit, notice] =
      session.update (edited.getD session.document) cache ranges := by
  have still := free.update (edited.getD session.document) session.cache []
  rw [handleAll, List.foldl_cons, List.foldl_cons, List.foldl_nil, edits, edit_eq,
    still.handle_of_noticed noticing]
  rfl

end Highlight.Session
