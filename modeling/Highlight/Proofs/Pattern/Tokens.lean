import Highlight.Pattern.Token
import Highlight.Proofs.Except
import Mathlib.Data.List.Basic

/-! # How far a token reads

A token takes its first character and, of what follows, nothing or a single character, or it ends with a
character that is neither a bar nor a dollar sign (`Highlight.Pattern.token_reads`). A bar behind a closing
parenthesis is therefore always a token of its own, and so is a dollar sign behind that
(`Highlight.Pattern.exists_tokens_eq`).
-/

namespace Highlight.Pattern

/-- Whether `after` follows a character of `rest` that is neither a bar nor a dollar sign. -/
def Behind (rest after : List Char) : Prop :=
  ∃ c, c ≠ '|' ∧ c ≠ '$' ∧ (c :: after) <:+ rest

/-- How much of a text may be read: nothing, one character, or up to a character that is neither a bar nor
a dollar sign. -/
inductive Reads (rest after : List Char) : Prop where
  | nothing (same : after = rest)
  | one (c : Char) (first : rest = c :: after)
  | behind (behind : Behind rest after)

theorem Behind.of_suffix {whole rest after : List Char} (behind : Behind rest after)
    (suffix : rest <:+ whole) : Behind whole after := by
  obtain ⟨c, bar, dollar, inside⟩ := behind
  exact ⟨c, bar, dollar, inside.trans suffix⟩

theorem Behind.suffix {rest after : List Char} (behind : Behind rest after) : after <:+ rest := by
  obtain ⟨c, _, _, inside⟩ := behind
  exact (List.suffix_cons c after).trans inside

theorem Reads.suffix {rest after : List Char} (reads : Reads rest after) : after <:+ rest := by
  cases reads with
  | nothing same => exact same ▸ List.suffix_rfl
  | one c first => exact first ▸ List.suffix_cons c after
  | behind behind => exact behind.suffix

section Escapes

variable {width : Nat} {rest after : List Char} {escaped : Escape}

/-- Hexadecimal digits are neither bars nor dollar signs. -/
theorem behind_of_digits (filled : (rest.take width).isEmpty = false)
    (digits : (rest.take width).all (Text.isDigitOf 16) = true) (inside : width ≤ rest.length) :
    Behind rest (rest.drop width) := by
  have positive : width ≠ 0 := by
    rintro rfl
    contradiction
  have last : rest.drop (width - 1) = rest[width - 1] :: rest.drop width := by
    rw [List.drop_eq_getElem_cons (by omega), Nat.sub_add_cancel (by omega)]
  have digit : Text.isDigitOf 16 rest[width - 1] = true :=
    List.all_eq_true.mp digits _ (List.mem_take_iff_getElem.mpr ⟨width - 1, by omega, rfl⟩)
  refine ⟨rest[width - 1], ?_, ?_, last ▸ List.drop_suffix _ rest⟩
  · intro bar
    rw [bar] at digit
    exact absurd digit (by decide)
  · intro dollar
    rw [dollar] at digit
    exact absurd digit (by decide)

theorem behind_of_dropWhile {c : Char} (bar : c ≠ '|') (dollar : c ≠ '$') {keep : Char → Bool}
    (stops : rest.dropWhile keep = c :: after) : Behind rest after :=
  ⟨c, bar, dollar, stops ▸ List.dropWhile_suffix keep⟩

theorem eq_of_dropWhile_ne {c stop : Char} (stops : rest.dropWhile (· != stop) = c :: after) :
    c = stop := by
  have head := List.head?_dropWhile_not (· != stop) rest
  rw [stops] at head
  simpa using head

/-- A code point is read up to a digit or a closing brace. -/
theorem codePoint_behind (read : codePoint width rest = .ok (escaped, after)) :
    Behind rest after := by
  rw [codePoint.eq_def] at read
  split at read
  rename_i digits found spelled
  split at read
  · cases read
  · split at read
    · cases read
    · rename_i valid
      obtain ⟨filled, hexadecimal⟩ : digits.isEmpty = false ∧
          digits.all (Text.isDigitOf 16) = true := by
        simpa using valid
      split at read
      · cases read
        split at spelled
        · rename_i body
          obtain ⟨-, closes⟩ := Prod.mk.inj spelled
          cases stops : body.dropWhile (· != '\x7d') with
          | nil =>
              rw [stops] at closes
              cases closes
          | cons c after' =>
              rw [stops] at closes
              cases closes
              obtain rfl := eq_of_dropWhile_ne stops
              have behind := behind_of_dropWhile (by decide) (by decide) stops
              exact behind.of_suffix (List.suffix_cons _ _)
        · obtain ⟨rfl, drops⟩ := Prod.mk.inj spelled
          split at drops
          · rename_i inside
            cases drops
            exact behind_of_digits filled hexadecimal inside
          · cases drops
      · cases read

/-- A word boundary reads nothing more, or the name of one side up to its closing brace. -/
theorem boundaryEscape_reads (read : boundaryEscape rest = .ok (escaped, after)) :
    after = rest ∨ Behind rest after := by
  rw [boundaryEscape.eq_def] at read
  split at read
  · rename_i body
    split at read
    · split at read
      · rename_i after' stops
        have behind := behind_of_dropWhile (by decide) (by decide) stops
        split at read <;> cases read
        all_goals exact .inr (behind.of_suffix (List.suffix_cons _ _))
      · cases read
    · cases read
      exact .inl rfl
  · cases read
    exact .inl rfl

/-- An escape reads one character, or up to a digit or a brace. -/
theorem escape_reads (read : escape rest = .ok (escaped, after)) : Reads rest after := by
  unfold escape at read
  split at read
  · cases read
  · rename_i c rest
    have further : ∀ {width}, codePoint width rest = .ok (escaped, after) →
        Reads (c :: rest) after :=
      fun read => .behind ((codePoint_behind read).of_suffix (List.suffix_cons _ _))
    split at read <;> try (cases read; exact .one _ rfl)
    · exact further read
    · exact further read
    · exact further read
    · rcases boundaryEscape_reads read with rfl | behind
      · exact .one _ rfl
      · exact .behind (behind.of_suffix (List.suffix_cons _ _))
    · split at read
      · cases read
      · split at read
        · cases read
        · cases read
          exact .one _ rfl

end Escapes

section Classes

variable {rest after : List Char}

/-- An item of a class is read from the front of the text. -/
theorem classItem_suffix {escaped : Escape} (read : classItem rest = .ok (escaped, after)) :
    after <:+ rest := by
  unfold classItem at read
  split at read
  · cases read
  · exact (escape_reads read).suffix.trans (List.suffix_cons _ _)
  · cases read
    exact List.suffix_cons _ _

/-- So is the opening of a class. -/
theorem openClass_suffix {negated : Bool} {items : CharSet}
    (read : openClass rest = .ok (negated, items, after)) : after <:+ rest := by
  have opened : (if rest.head? == some '^' then rest.tail else rest) <:+ rest := by
    split
    · exact List.tail_suffix rest
    · exact List.suffix_rfl
  unfold openClass at read
  dsimp only at read
  have further := (List.dropWhile_suffix (· == '-')).trans opened
  split at read
  · cases read
  · rename_i stops
    split at read
    · cases read
    · cases read
      rw [stops] at further
      exact (List.suffix_cons _ _).trans further
  · cases read
    exact further
  · cases read
    exact further

/-- So is a class by name. -/
theorem namedClass?_suffix {set : CharSet} (read : namedClass? rest = some (set, after)) :
    after <:+ rest := by
  unfold namedClass? at read
  split at read
  · rename_i body
    dsimp only at read
    have named : (if body.head? == some '^' then body.tail else body) <:+ body := by
      split
      · exact List.tail_suffix body
      · exact List.suffix_rfl
    have further := (List.dropWhile_suffix (· != ':')).trans named
    split at read
    · rename_i stops
      obtain ⟨_, _, same⟩ := Option.map_eq_some_iff.mp read
      cases same
      rw [stops] at further
      have closed := (List.suffix_cons _ _).trans ((List.suffix_cons _ _).trans further)
      exact closed.trans (List.suffix_cons _ _)
    · cases read
  · cases read

/-- The items of a class end with its closing bracket. -/
theorem classItems_behind {bound : Nat} {negated : Bool} {pending : Option (SetOp × CharSet)}
    {items set : CharSet} (read : classItems bound negated pending items rest = .ok (set, after)) :
    Behind rest after := by
  induction bound generalizing negated pending items set rest after with
  | zero => cases read
  | succ bound ih =>
      rw [classItems.eq_def] at read
      dsimp only at read
      split at read
      · cases read
      · cases read
        exact ⟨']', by decide, by decide, List.suffix_rfl⟩
      · split at read
        · rename_i named
          have inside := (namedClass?_suffix named).trans (List.suffix_cons '[' _)
          exact (ih read).of_suffix inside
        · obtain ⟨⟨innerNegated, innerItems, inner⟩, opened, read⟩ := exists_ok_of_bind read
          obtain ⟨⟨innerSet, later⟩, nested, read⟩ := exists_ok_of_bind read
          have inside := (openClass_suffix opened).trans (List.suffix_cons '[' _)
          exact (ih read).of_suffix ((ih nested).suffix.trans inside)
      · exact (ih read).of_suffix ((List.suffix_cons _ _).trans (List.suffix_cons _ _))
      · exact (ih read).of_suffix ((List.suffix_cons _ _).trans (List.suffix_cons _ _))
      · exact (ih read).of_suffix ((List.suffix_cons _ _).trans (List.suffix_cons _ _))
      · obtain ⟨⟨first, later⟩, item, read⟩ := exists_ok_of_bind read
        have inside := classItem_suffix item
        dsimp only at read
        split at read
        · split at read
          · obtain ⟨_, _, read⟩ := exists_ok_of_bind read
            exact (ih read).of_suffix inside
          · obtain ⟨⟨second, last⟩, other, read⟩ := exists_ok_of_bind read
            obtain ⟨_, _, read⟩ := exists_ok_of_bind read
            obtain ⟨_, _, read⟩ := exists_ok_of_bind read
            split at read
            · have further := (classItem_suffix other).trans (List.suffix_cons '-' _)
              exact (ih read).of_suffix (further.trans inside)
            · cases read
        · obtain ⟨_, _, read⟩ := exists_ok_of_bind read
          exact (ih read).of_suffix inside

theorem bracketedClass_behind {first : Token} (read : bracketedClass rest = .ok (first, after)) :
    Behind rest after := by
  obtain ⟨⟨negated, items, inner⟩, opened, read⟩ := exists_ok_of_bind read
  obtain ⟨⟨set, last⟩, closed, read⟩ := exists_ok_of_bind read
  cases read
  exact (classItems_behind closed).of_suffix (openClass_suffix opened)

end Classes

section Tokens

variable {rest after : List Char} {first : Token}

theorem count?_suffix (rest : List Char) : (count? rest).2 <:+ rest := by
  unfold count?
  exact (List.dropWhile_suffix _).trans ((List.dropWhile_suffix _).trans (List.dropWhile_suffix _))

/-- A question mark behind a repetition belongs to it. -/
theorem repetition_reads {least : Nat} {most : Option Nat}
    (read : repetition least most rest = (first, after)) : after = rest ∨ rest = '?' :: after := by
  unfold repetition at read
  split at read
  · cases read
    exact .inr rfl
  · cases read
    exact .inl rfl

theorem behind_of_repetition {least : Nat} {most : Option Nat} {middle : List Char}
    (read : repetition least most middle = (first, after)) (closes : ('\x7d' :: middle) <:+ rest) :
    Behind rest after := by
  rcases repetition_reads read with rfl | rfl
  · exact ⟨'\x7d', by decide, by decide, closes⟩
  · exact ⟨'?', by decide, by decide, (List.suffix_cons _ _).trans closes⟩

/-- A counted repetition is read up to its closing brace. -/
theorem countedRepetition_behind (read : countedRepetition rest = .ok (first, after)) :
    Behind rest after := by
  have counted := count?_suffix rest
  unfold countedRepetition at read
  split at read
  · rename_i found
    rw [found] at counted
    exact behind_of_repetition (Except.ok.inj read) counted
  · rename_i found
    rw [found] at counted
    exact behind_of_repetition (Except.ok.inj read) ((List.suffix_cons _ _).trans counted)
  · rename_i middle _ found
    rw [found] at counted
    split at read
    · rename_i again
      have further := count?_suffix middle
      rw [again] at further
      split at read
      · exact behind_of_repetition (Except.ok.inj read)
          (further.trans ((List.suffix_cons _ _).trans counted))
      · cases read
    · cases read
  · cases read

/-- The name of a group is read up to its closing bracket. -/
theorem groupName_behind (read : groupName rest = .ok (first, after)) : Behind rest after := by
  unfold groupName at read
  dsimp only at read
  split at read
  · rename_i stops
    split at read
    · cases read
      obtain rfl := eq_of_dropWhile_ne stops
      exact behind_of_dropWhile (by decide) (by decide) stops
    · cases read
  · cases read

/-- The opening of a group reads nothing more, or up to the end of its flags or its name. -/
theorem groupOpening_reads (read : groupOpening rest = .ok (first, after)) :
    after = rest ∨ Behind rest after := by
  unfold groupOpening at read
  split at read <;> try contradiction
  · exact .inr ((groupName_behind read).of_suffix
      ((List.suffix_cons _ _).trans ((List.suffix_cons _ _).trans (List.suffix_cons _ _))))
  · exact .inr ((groupName_behind read).of_suffix
      ((List.suffix_cons _ _).trans (List.suffix_cons _ _)))
  · rename_i body _ _ _ _ _ _
    right
    dsimp only at read
    split at read
    · rename_i stops
      obtain ⟨_, _, read⟩ := exists_ok_of_bind read
      cases read
      have behind := behind_of_dropWhile (by decide) (by decide) stops
      exact behind.of_suffix (List.suffix_cons _ _)
    · rename_i c after' different stops
      have closing : c = ')' := by
        have head := List.head?_dropWhile_not (fun c => c != ':' && c != ')') body
        rw [stops] at head
        simpa [show c ≠ ':' from different] using head
      subst closing
      split at read
      · cases read
      · obtain ⟨_, _, read⟩ := exists_ok_of_bind read
        cases read
        have behind := behind_of_dropWhile (by decide) (by decide) stops
        exact behind.of_suffix (List.suffix_cons _ _)
    · cases read
  · cases read
    exact .inl rfl

/-- **A token** takes its first character and reads from what follows. -/
theorem token_reads {c : Char} (read : token c rest = .ok (first, after)) : Reads rest after := by
  have repeats : ∀ {least most}, repetition least most rest = (first, after) → Reads rest after := by
    intro least most read
    rcases repetition_reads read with same | lazy
    · exact .nothing same
    · exact .one _ lazy
  unfold token at read
  split at read <;> try (cases read; exact .nothing rfl)
  · rcases groupOpening_reads read with same | behind
    · exact .nothing same
    · exact .behind behind
  · exact .behind (bracketedClass_behind read)
  · exact repeats (Except.ok.inj read)
  · exact repeats (Except.ok.inj read)
  · exact repeats (Except.ok.inj read)
  · exact .behind (countedRepetition_behind read)
  · obtain ⟨⟨escaped, after'⟩, escapes, read⟩ := exists_ok_of_bind read
    cases read
    exact escape_reads escapes

/-- What stands behind the source in a pattern that also matches at the end of a text. -/
def textEndSuffix : List Char := [')', '|', '$']

theorem textEndSuffix_of_cons {c : Char} (closes : textEndSuffix <:+ c :: after) :
    textEndSuffix <:+ after ∨ after = ['|', '$'] := by
  rcases List.suffix_cons_iff.mp closes with same | inside
  · cases same
    exact .inr rfl
  · exact .inl inside

/-- Behind a token that begins in front of the closing parenthesis there is still the bar, since the
parenthesis can be read at most as the last character of the token. -/
theorem Reads.textEndSuffix (reads : Reads rest after) (closes : textEndSuffix <:+ rest) :
    textEndSuffix <:+ after ∨ after = ['|', '$'] := by
  cases reads with
  | nothing same => exact .inl (same ▸ closes)
  | one c first => exact textEndSuffix_of_cons (first ▸ closes)
  | behind behind =>
      obtain ⟨c, bar, dollar, read⟩ := behind
      rcases List.suffix_or_suffix_of_suffix closes read with before | inside
      · exact textEndSuffix_of_cons before
      · rcases List.suffix_cons_iff.mp inside with same | further
        · cases same
          exact .inr rfl
        · -- Only the bar and the dollar sign stand behind the parenthesis.
          have member := further.subset List.mem_cons_self
          simp [bar, dollar] at member

theorem tokens_bar_dollar {bound : Nat} (enough : 2 ≤ bound) :
    tokens bound ['|', '$'] = .ok [.bar, .dollar] := by
  obtain ⟨more, rfl⟩ := Nat.exists_eq_add_of_le' enough
  cases more <;> rfl

/-- **The end of an alternative.** A bar and a dollar sign that follow a closing parenthesis at the end of a
pattern are always tokens. -/
theorem exists_tokens_eq {bound : Nat} {text : List Char} {all : List Token}
    (enough : text.length ≤ bound) (closes : textEndSuffix <:+ text) (read : tokens bound text = .ok all) :
    ∃ earlier, all = earlier ++ [.bar, .dollar] := by
  induction bound generalizing text all with
  | zero =>
      have long := closes.length_le
      simp [textEndSuffix] at long
      omega
  | succ bound ih =>
      cases text with
      | nil => cases closes.length_le
      | cons c rest =>
          obtain ⟨⟨first, after⟩, begins, read⟩ := exists_ok_of_bind read
          obtain ⟨others, continues, read⟩ := exists_ok_of_bind read
          cases read
          have reads := token_reads begins
          have shorter : after.length ≤ bound := by
            have fewer := reads.suffix.length_le
            rw [List.length_cons] at enough
            omega
          have next : textEndSuffix <:+ after ∨ after = ['|', '$'] := by
            rcases List.suffix_cons_iff.mp closes with same | before
            · cases same
              cases begins
              exact .inr rfl
            · exact reads.textEndSuffix before
          rcases next with before | rfl
          · obtain ⟨earlier, rfl⟩ := ih shorter before continues
            exact ⟨first :: earlier, rfl⟩
          · rw [tokens_bar_dollar shorter] at continues
            cases continues
            exact ⟨[first], rfl⟩

end Tokens

end Highlight.Pattern
