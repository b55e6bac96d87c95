import Highlight.Proofs.Document
import Highlight.Proofs.Scan.Line
import Highlight.Proofs.Session.Scans

/-! # Trusted stacks

The stacks kept for the lines before the marker are those that scanning the document from its start would
give. Scans keep this true because they start from a stack that is trusted, and edits because they lower
the marker to the first line whose place or text has changed (`Highlight.Cache.Trusted`).
-/

namespace Highlight

namespace Grammar

/-- The stack at the end of a line, found by scanning the document from its start. -/
def freshStack (grammar : Grammar) (initial : SpanStack) (document : Document) (line : Nat) :
    Except Scan.Fault SpanStack :=
  grammar.scanLines initial (document.lines.take line)

/-- Lines are scanned from the stack that those before them end in. -/
theorem scanLines_append (grammar : Grammar) (stack : SpanStack) (first second : List String) :
    grammar.scanLines stack (first ++ second) =
      (grammar.scanLines stack first).bind fun middle => grammar.scanLines middle second := by
  induction first generalizing stack with
  | nil => rfl
  | cons line rest ih =>
      simp only [List.cons_append, scanLines]
      cases grammar.scanLine stack line with
      | error fault => rfl
      | ok next => exact ih next

variable {grammar : Grammar} {initial stack : SpanStack} {document : Document} {line : Nat}

/-- The stack at the end of a line comes from scanning the line from the one before it. -/
theorem freshStack_of_before (positive : 1 ≤ line) (inside : line ≤ document.lineCount)
    (before : grammar.freshStack initial document (line - 1) = .ok stack) :
    grammar.freshStack initial document line = grammar.scanLine stack (document.line line) := by
  rw [freshStack] at before
  rw [freshStack, Document.take_lines positive inside, scanLines_append, before]
  simp only [Except.bind, scanLines]
  cases grammar.scanLine stack (document.line line) <;> rfl

/-- A fault stops the scan of all lines behind it. -/
theorem freshStack_of_error {fault : Scan.Fault} {later : Nat} (behind : line ≤ later)
    (fails : grammar.freshStack initial document line = .error fault) :
    grammar.freshStack initial document later = .error fault := by
  rw [freshStack] at fails
  rw [freshStack, ← Nat.add_sub_of_le behind, List.take_add, scanLines_append, fails]
  rfl

end Grammar

namespace Cache

/-- Whether the stacks before the marker are those of the document. -/
structure Trusted (cache : Cache) (grammar : Grammar) (initial : SpanStack) (document : Document) :
    Prop where
  positive : 1 ≤ cache.stale
  bounded : cache.slots.length ≤ document.lineCount + 1
  fresh : ∀ line < cache.stale, ∃ stack, cache.slots[line]? = some (some stack) ∧
    grammar.freshStack initial document line = .ok stack

variable {grammar : Grammar} {initial : SpanStack} {document : Document} {cache : Cache}

/-- Nothing is kept at first, so there is nothing to trust. -/
theorem trusted_starting : (starting initial).Trusted grammar initial document where
  positive := Nat.le_refl 1
  bounded := Nat.le_add_left 1 _
  fresh := by
    intro line before
    obtain rfl := Nat.lt_one_iff.mp before
    exact ⟨initial, rfl, rfl⟩

namespace Trusted

theorem freshStack_eq (trusted : cache.Trusted grammar initial document) {line : Nat}
    (before : line < cache.stale) :
    grammar.freshStack initial document line = .ok (cache.stackAt line) := by
  obtain ⟨stack, found, fresh⟩ := trusted.fresh line before
  rw [fresh, stackAt, found]
  rfl

theorem stale_le_length (trusted : cache.Trusted grammar initial document) :
    cache.stale ≤ cache.slots.length := by
  have positive := trusted.positive
  obtain ⟨stack, found, _⟩ := trusted.fresh (cache.stale - 1) (by omega)
  have inside := (List.getElem?_eq_some_iff.mp found).1
  omega

/-- An edit that leaves the lines and the stacks before a line alone is made good by lowering the marker to
that line. -/
theorem edited (trusted : cache.Trusted grammar initial document) {line : Nat}
    {newCache : Cache} {newDocument : Document} (marker : newCache.stale = cache.stale)
    (text : ∀ other < max line 1, newDocument.lines.take other = document.lines.take other)
    (kept : ∀ other < max line 1, newCache.slots[other]? = cache.slots[other]?)
    (bounded : newCache.slots.length ≤ newDocument.lineCount + 1) :
    (newCache.invalidate line).Trusted grammar initial newDocument where
  positive := by
    have positive := trusted.positive
    simp only [invalidate, marker]
    omega
  bounded := bounded
  fresh := by
    intro other before
    simp only [invalidate, marker] at before ⊢
    obtain ⟨stack, found, fresh⟩ := trusted.fresh other (by omega)
    refine ⟨stack, (kept other (by omega)).trans found, ?_⟩
    rw [Grammar.freshStack, text other (by omega)]
    exact fresh

theorem invalidate (trusted : cache.Trusted grammar initial document) (line : Nat) :
    (cache.invalidate line).Trusted grammar initial document :=
  trusted.edited rfl (fun _ _ => rfl) (fun _ _ => rfl) trusted.bounded

/-- Once the stacks are forgotten, only that at the start of the document is trusted. -/
theorem forget (trusted : cache.Trusted grammar initial document) :
    cache.forget.Trusted grammar initial document where
  positive := Nat.le_refl 1
  bounded := by
    simp only [Cache.forget, List.length_take]
    omega
  fresh := by
    intro line before
    obtain rfl := Nat.lt_one_iff.mp before
    obtain ⟨stack, found, fresh⟩ := trusted.fresh 0 trusted.positive
    exact ⟨stack, by simpa [Cache.forget] using found, fresh⟩

/-- A replaced line and the notice of it leave the stacks in front of the line to be trusted. -/
theorem replaceLine (trusted : cache.Trusted grammar initial document) (line : Nat)
    (text : String) :
    (cache.invalidate line).Trusted grammar initial
      ((document.replaceLine? line text).getD document) := by
  rw [Document.replaceLine?]
  split
  · refine trusted.edited rfl (fun other before => ?_) (fun _ _ => rfl) ?_
    · exact List.take_set_of_le (by omega)
    · simpa [Document.lineCount] using trusted.bounded
  · exact trusted.invalidate line

/-- So do an inserted line and its notice: the slots behind it are moved down, and the marker is in front of
them. -/
theorem insertLine (trusted : cache.Trusted grammar initial document) (after : Nat)
    (text : String) :
    ((cache.insertSlot (after + 1)).invalidate (after + 1)).Trusted grammar initial
      ((document.insertLine? after text).getD document) := by
  have bounded := trusted.bounded
  rw [Document.insertLine?]
  split
  · rename_i inside
    rw [Document.lineCount] at inside
    refine trusted.edited (stale_insertSlot cache _) (fun other before => ?_)
      (fun other before => getElem?_insertSlot_of_lt (by omega)) ?_
    · have short : other ≤ (document.lines.take after).length := by
        rw [List.length_take]
        omega
      rw [Option.getD_some, Document.lines_recomputed, List.take_append_of_le_length short, List.take_take,
        Nat.min_eq_left (by omega)]
    · have grown : (cache.insertSlot (after + 1)).slots.length ≤ cache.slots.length + 1 := by
        unfold insertSlot
        split
        · exact List.length_insertIdx_le_succ
        · exact Nat.le_succ _
      simp only [Option.getD_some, Document.lineCount, Document.lines_recomputed, List.length_append,
        List.length_cons, List.length_take, List.length_drop] at bounded ⊢
      omega
  · rename_i outside
    rw [insertSlot_of_length_le (by omega)]
    exact trusted.invalidate _

/-- So do a removed line and its notice: the slots behind it are moved up. -/
theorem removeLine (trusted : cache.Trusted grammar initial document) (line : Nat) :
    ((cache.removeSlot line).invalidate line).Trusted grammar initial
      ((document.removeLine? line).getD document) := by
  have bounded := trusted.bounded
  have shrunk : (cache.removeSlot line).slots.length =
      if 1 ≤ line ∧ line < cache.slots.length then cache.slots.length - 1
      else cache.slots.length := by
    unfold removeSlot
    split
    · rename_i inside
      exact List.length_eraseIdx_of_lt inside.2
    · rfl
  rw [Document.removeLine?]
  split
  · rename_i inside
    refine trusted.edited (stale_removeSlot cache _) (fun other before => ?_)
      (fun other before => ?_) ?_
    · exact List.take_eraseIdx_eq_take_of_le _ _ _ (by omega)
    · exact getElem?_removeSlot_of_lt (by omega)
    · simp only [Option.getD_some, Document.lineCount, Document.lines_recomputed] at bounded inside ⊢
      rw [shrunk, List.length_eraseIdx_of_lt (by omega)]
      split <;> omega
  · refine trusted.edited (stale_removeSlot cache _) (fun _ _ => rfl) (fun other before => ?_) ?_
    · rcases Nat.eq_zero_or_pos line with rfl | positive
      · rfl
      · exact getElem?_removeSlot_of_lt (by omega)
    · rw [shrunk]
      split
      · exact Nat.le_trans (Nat.sub_le _ _) bounded
      · exact bounded

/-- Scanning the line at the marker, or one in front of it, keeps a stack to be trusted. -/
theorem advance (trusted : cache.Trusted grammar initial document) {line : Nat} {stack : SpanStack}
    (positive : 1 ≤ line) (known : line ≤ cache.stale) (inside : line ≤ document.lineCount)
    (scanned : grammar.scanLine (cache.stackAt (line - 1)) (document.line line) = .ok stack) :
    (cache.advance line stack).1.Trusted grammar initial document := by
  have bounded := trusted.bounded
  have reached : line ≤ cache.slots.length := Nat.le_trans known trusted.stale_le_length
  constructor
  · simp only [Cache.advance]
    omega
  · simp only [Cache.advance, length_store reached]
    omega
  · intro other before
    simp only [Cache.advance, getElem?_store reached] at before ⊢
    -- The slot of the line is new; the marker may have been beyond it, so later slots are old ones.
    by_cases same : other = line
    · subst same
      refine ⟨stack, if_pos rfl, ?_⟩
      rw [Grammar.freshStack_of_before positive inside (trusted.freshStack_eq (by omega))]
      exact scanned
    · rw [if_neg same]
      exact trusted.fresh other (by omega)

theorem scans {changed : List Nat} {last : Cache} (trusted : cache.Trusted grammar initial document)
    (scans : Scans grammar document cache changed last) :
    last.Trusted grammar initial document := by
  induction scans with
  | nil _ => exact trusted
  | cons positive known inside scanned _ ih =>
      exact ih (trusted.advance positive known inside scanned)

end Trusted

end Cache

end Highlight
