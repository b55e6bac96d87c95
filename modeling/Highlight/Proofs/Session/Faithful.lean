import Highlight.Proofs.Document
import Highlight.Proofs.Session.Replay
import Highlight.Proofs.Session.Screen

/-! # Faithful screens

What relates a screen to the kept stacks, trusted or not, is that a line that has not been reported was
drawn with the stack that is kept for the line before it (`Highlight.Screen.Faithful`). Edits move lines
and slots together, and a scan that keeps another stack reports the line below it.
-/

namespace Highlight

/-- Whether a line was drawn with the text that it has and with the stack in the slot before it, if that
slot has one. A slot left open by an inserted line says nothing: filling it reports the line. -/
structure Drawn (grammar : Grammar) (document : Document) (cache : Cache) (line : Nat)
    (styled : StyledLine) : Prop where
  positive : 1 ≤ line
  inside : line < cache.slots.length
  source : ∀ input, cache.slots[line - 1]? = some (some input) → ∃ number offset final,
    grammar.highlightLine input number offset (document.line line) = .ok (styled, final)

/-- A line stays as it was drawn when it moves together with its text and the slot before it, or behind a
slot that is open. -/
theorem Drawn.moved {grammar : Grammar} {document newDocument : Document} {cache newCache : Cache}
    {line newLine : Nat} {styled : StyledLine} (drawn : Drawn grammar document cache line styled)
    (positive : 1 ≤ newLine) (inside : newLine < newCache.slots.length)
    (text : newDocument.line newLine = document.line line)
    (slot : newCache.slots[newLine - 1]? = cache.slots[line - 1]? ∨
      newCache.slots[newLine - 1]? = some none) :
    Drawn grammar newDocument newCache newLine styled := by
  refine ⟨positive, inside, fun input found => ?_⟩
  rcases slot with same | vacant
  · rw [text]
    exact drawn.source input (same.symm.trans found)
  · rw [vacant] at found
    cases found

/-- Whether every line on the screen that has not been reported was drawn as it is kept. -/
def Screen.Faithful (screen : Screen) (grammar : Grammar) (document : Document) (cache : Cache) :
    Prop :=
  ∀ line styled, screen.Unreported line styled → Drawn grammar document cache line styled

namespace Screen.Faithful

variable {grammar : Grammar} {initial : SpanStack} {document : Document} {cache last : Cache}
  {screen : Screen}

theorem reportAll (faithful : screen.Faithful grammar document cache) (ranges : List (Nat × Nat)) :
    (screen.reportAll ranges).Faithful grammar document cache :=
  fun line styled unreported =>
    faithful line styled ((unreported_reportAll ranges).mp unreported).1

/-- Keeping the stack at the end of a line reports the next line if it was drawn with another one. -/
theorem advance (faithful : screen.Faithful grammar document cache)
    (trusted : cache.Trusted grammar initial document) {line : Nat} {stack : SpanStack}
    (known : line ≤ cache.stale) :
    (screen.reportAll
      (Session.oneByOne (Cache.redrawn document line (cache.advance line stack).2))).Faithful grammar
        document (cache.advance line stack).1 := by
  have reached : line ≤ cache.slots.length := Nat.le_trans known trusted.stale_le_length
  have bounded := trusted.bounded
  intro other styled unreported
  obtain ⟨before, spared⟩ := (unreported_reportAll _).mp unreported
  obtain ⟨positive, inside, source⟩ := faithful other styled before
  refine ⟨positive, ?_, fun input found => ?_⟩
  · simp only [Cache.advance, Cache.length_store reached]
    omega
  · simp only [Cache.advance, Cache.getElem?_store reached] at found
    split at found
    · rename_i next
      cases found
      -- `other` is the line below, so the slot is overwritten unless it held the same stack.
      have below : other = line + 1 := by omega
      obtain ⟨old, kept⟩ : ∃ old, cache.slots[line]? = some old :=
        ⟨_, List.getElem?_eq_getElem (by omega)⟩
      by_cases same : old = some stack
      · refine source stack ?_
        rw [next, kept, same]
      · have changed : (cache.advance line stack).2 = true := by
          rw [Cache.advance, Cache.store_of_some kept]
          simpa using same
        have redrawn : (other, other) ∈
            Session.oneByOne (Cache.redrawn document line (cache.advance line stack).2) := by
          rw [changed, Cache.redrawn, if_pos (by simp; omega), below]
          exact List.mem_singleton.mpr rfl
        exact absurd ⟨Nat.le_refl other, Nat.le_refl other⟩ (spared _ redrawn)
    · exact source input found

/-- Scans report every line that they find drawn with another stack. -/
theorem scans {changed : List Nat} (faithful : screen.Faithful grammar document cache)
    (trusted : cache.Trusted grammar initial document)
    (scans : Cache.Scans grammar document cache changed last) :
    (screen.reportAll (Session.oneByOne changed)).Faithful grammar document last := by
  induction scans generalizing screen with
  | nil _ => exact faithful
  | cons positive known inside scanned _ ih =>
      rw [Session.oneByOne, List.map_append, reportAll_append]
      exact ih (faithful.advance trusted known) (trusted.advance positive known inside scanned)

/-- A range of all lines spares none. -/
theorem reportAll_allRanges (faithful : screen.Faithful grammar document cache)
    (trusted : cache.Trusted grammar initial document) (newCache : Cache) :
    (screen.reportAll (Session.allRanges document)).Faithful grammar document newCache := by
  intro line styled unreported
  obtain ⟨before, spared⟩ := (unreported_reportAll _).mp unreported
  have drawn := faithful line styled before
  have bounded := trusted.bounded
  have inside := drawn.inside
  exact absurd ⟨drawn.positive, by omega⟩ (spared _ List.mem_cons_self)

theorem invalidate (faithful : screen.Faithful grammar document cache) (line : Nat) :
    screen.Faithful grammar document (cache.invalidate line) := by
  intro other styled unreported
  have drawn := faithful other styled unreported
  exact drawn.moved drawn.positive drawn.inside rfl (.inl rfl)

/-- After a replacement the line itself is reported, and the lines in front of it are drawn as they are
kept. -/
theorem replaceLine (faithful : screen.Faithful grammar document cache) (line : Nat)
    (text : String) :
    (screen.reportAll (Session.lineRanges ((document.replaceLine? line text).getD document)
      (max line 1))).Faithful grammar ((document.replaceLine? line text).getD document)
        (cache.invalidate line) := by
  cases possible : document.replaceLine? line text with
  | none => exact (faithful.invalidate line).reportAll _
  | some edited =>
      obtain ⟨above, inside, sameCount⟩ := Document.lineCount_of_replaceLine? possible
      intro other styled unreported
      obtain ⟨before, spared⟩ := (unreported_reportAll _).mp unreported
      have drawn := faithful other styled before
      have apart := Session.ne_of_spared (by rw [Option.getD_some]; omega) spared
      have different : other ≠ line := by omega
      exact drawn.moved drawn.positive drawn.inside
        (Document.line_of_replaceLine? possible different) (.inl rfl)

/-- The lines behind an inserted one move with their slots, and the first of them comes to stand behind a
slot that is open. -/
theorem insertLine (faithful : screen.Faithful grammar document cache) {after : Nat} {text : String}
    {edited : Document} (possible : document.insertLine? after text = some edited) :
    (screen.insertLine after).Faithful grammar edited
      ((cache.insertSlot (after + 1)).invalidate (after + 1)) := by
  intro line styled unreported
  simp only [Unreported, Screen.insertLine] at unreported
  have text := Document.line_of_insertLine? possible line
  split at unreported
  · rename_i above
    have drawn := faithful line styled unreported
    have grown : cache.slots.length ≤ (cache.insertSlot (after + 1)).slots.length := by
      unfold Cache.insertSlot
      split
      · exact List.length_le_length_insertIdx
      · exact Nat.le_refl _
    rw [if_pos above] at text
    exact drawn.moved drawn.positive (Nat.lt_of_lt_of_le drawn.inside grown) text
      (.inl (Cache.getElem?_insertSlot_of_lt (by omega)))
  · rename_i behind
    split at unreported
    · contradiction
    · rename_i different
      have drawn := faithful (line - 1) styled unreported
      have inside := drawn.inside
      -- A line behind the inserted one has a slot, so there was a place to insert one.
      have slots : (cache.insertSlot (after + 1)).slots =
          cache.slots.insertIdx (after + 1) none := by
        rw [Cache.insertSlot, if_pos (by omega)]
      rw [if_neg behind, if_neg different] at text
      refine drawn.moved (by omega) ?_ text ?_
      · show line < (cache.insertSlot (after + 1)).slots.length
        rw [slots, List.length_insertIdx_of_le_length (by omega)]
        omega
      · show (cache.insertSlot (after + 1)).slots[line - 1]? = _ ∨
          (cache.insertSlot (after + 1)).slots[line - 1]? = _
        rw [slots]
        by_cases next : line - 1 = after + 1
        · rw [next, List.getElem?_insertIdx_self, if_pos (by omega)]
          exact .inr rfl
        · rw [List.getElem?_insertIdx_of_gt (by omega)]
          exact .inl rfl

/-- The lines behind a removed one move with their slots, but the first of them, which has lost the slot
before it, is reported. -/
theorem removeLine (faithful : screen.Faithful grammar document cache)
    (trusted : cache.Trusted grammar initial document) {removed : Nat} {edited : Document}
    (possible : document.removeLine? removed = some edited) :
    ((screen.removeLine removed).reportAll (Session.lineRanges edited (max removed 1))).Faithful
      grammar edited ((cache.removeSlot removed).invalidate removed) := by
  obtain ⟨above, below, count⟩ := Document.lineCount_of_removeLine? possible
  have bounded := trusted.bounded
  intro line styled unreported
  obtain ⟨before, spared⟩ := (unreported_reportAll _).mp unreported
  simp only [Unreported, Screen.removeLine] at before
  split at before
  · rename_i inFront
    have drawn := faithful line styled before
    have inside := drawn.inside
    have text := Document.line_of_removeLine? possible drawn.positive
    rw [if_pos inFront] at text
    refine drawn.moved drawn.positive ?_ text (.inl (Cache.getElem?_removeSlot_of_lt (by omega)))
    show line < (cache.removeSlot removed).slots.length
    unfold Cache.removeSlot
    split
    · rw [List.length_eraseIdx_of_lt (by omega)]
      omega
    · exact inside
  · rename_i behind
    have drawn := faithful (line + 1) styled before
    have inside := drawn.inside
    -- A line behind the removed one has a slot, so the removed one had one, too.
    have text := Document.line_of_removeLine? possible (show 1 ≤ line by omega)
    have slots : (cache.removeSlot removed).slots = cache.slots.eraseIdx removed := by
      rw [Cache.removeSlot, if_pos (by omega)]
    have apart := Session.ne_of_spared (by omega) spared
    rw [if_neg behind] at text
    refine drawn.moved (by omega) ?_ text (.inl ?_)
    · show line < (cache.removeSlot removed).slots.length
      rw [slots, List.length_eraseIdx_of_lt (by omega)]
      omega
    · show (cache.removeSlot removed).slots[line - 1]? = _
      rw [slots, List.getElem?_eraseIdx_of_ge (by omega), Nat.sub_add_cancel (by omega)]
      rfl

/-- The notice of an insertion that was not possible finds no slot to insert one before. -/
theorem insertLine_of_none (faithful : screen.Faithful grammar document cache)
    (trusted : cache.Trusted grammar initial document) {after : Nat} {text : String}
    (impossible : document.insertLine? after text = none) :
    screen.Faithful grammar document
      ((cache.insertSlot (after + 1)).invalidate (after + 1)) := by
  have bounded := trusted.bounded
  unfold Document.insertLine? at impossible
  split at impossible
  · contradiction
  · rename_i outside
    rw [Cache.insertSlot_of_length_le (by omega)]
    exact faithful.invalidate _

/-- The notice of a removal that was not possible drops a slot only where the document has a single line,
and that line is reported. -/
theorem removeLine_of_none (faithful : screen.Faithful grammar document cache)
    (trusted : cache.Trusted grammar initial document) {removed : Nat}
    (impossible : document.removeLine? removed = none) :
    (screen.reportAll (Session.lineRanges document (max removed 1))).Faithful grammar document
      ((cache.removeSlot removed).invalidate removed) := by
  have bounded := trusted.bounded
  unfold Document.removeLine? at impossible
  split at impossible
  · contradiction
  · rename_i refused
    by_cases outside : removed = 0 ∨ cache.slots.length ≤ removed
    · rw [Cache.removeSlot_of_outside outside]
      exact (faithful.invalidate _).reportAll _
    · intro line styled unreported
      obtain ⟨before, spared⟩ := (unreported_reportAll _).mp unreported
      have drawn := faithful line styled before
      have apart := Session.ne_of_spared (by omega) spared
      have positive := drawn.positive
      have inside := drawn.inside
      omega

/-- A line is drawn as a pass has kept it. -/
theorem shows (faithful : screen.Faithful grammar document cache)
    (trusted : cache.Trusted grammar initial document) {line : Nat} (positive : 1 ≤ line)
    (inside : line ≤ document.lineCount) {changed : List Nat}
    {outcome : Except Session.Failure StyledLine}
    (shows : Cache.Shows grammar document line cache changed last outcome) :
    ((screen.reportAll (Session.oneByOne changed)).receive (.highlight line)
      (.ofExcept .line outcome)).Faithful grammar document last := by
  have told := faithful.scans trusted (shows.scans positive inside)
  cases shows with
  | unreached replays => exact told
  | failed scans behind fails => exact told
  | @shown changed middle styled stack scans behind highlighted =>
      have before := trusted.scans scans
      have reached : line ≤ middle.slots.length := Nat.le_trans behind before.stale_le_length
      intro other drawn unreported
      by_cases same : other = line
      · subst same
        obtain rfl : styled = drawn := by
          simpa [Unreported, receive, Session.Answer.ofExcept, draw] using unreported
        refine ⟨positive, ?_, fun input found => ?_⟩
        · simp only [Cache.advance, Cache.length_store reached]
          omega
        · simp only [Cache.advance, Cache.getElem?_store reached] at found
          rw [if_neg (by omega)] at found
          rw [Cache.stackAt, found] at highlighted
          exact ⟨other, document.startOffset other, stack, highlighted⟩
      · refine told other drawn ?_
        simpa [Unreported, receive, Session.Answer.ofExcept, draw, same] using unreported

end Screen.Faithful

end Highlight
