import Highlight.Proofs.Languages.Solid
import Highlight.Proofs.Pattern.First
import Highlight.Proofs.Scan.Cached
import Highlight.Proofs.Scan.Here
import Highlight.Proofs.Scan.Painted

/-! # Character literals of C

A line of character literals with commas between them gets one section for each literal but the one of an
apostrophe behind a backslash, which the pattern for literals misses
(`Highlight.Languages.CFamily.highlightLine_charLiterals`). Whatever the literals hold, none of them hides
another one.
-/

namespace Highlight

open Pattern Scan

namespace Scan.Painter

variable {painter : Painter}

/-- The painter with one more section that is finished. -/
def mark (painter : Painter) (sec : Section) : Painter :=
  { painter with
    sections := painter.sections ++ [sec]
    lastClosed := some painter.sections.length }

/-- A section that ends elsewhere is not continued. -/
theorem continuable?_eq_none {offset : Nat} (clear : ∀ sec ∈ painter.sections, sec.stop ≠ offset)
    (style : Style) : painter.continuable? style offset = none := by
  cases candidate : painter.continuable? style offset with
  | none => rfl
  | some place =>
      obtain ⟨sec, listed, _, stop⟩ := of_continuable? candidate
      exact absurd stop (clear sec (List.mem_of_getElem? listed))

/-- A style that continues no section begins one. -/
theorem push_of_fresh {style : Style} {position : Nat}
    (fresh : painter.continuable? style (painter.origin + position) = none) :
    painter.push (some style) position =
      { painter with
        sections := painter.sections ++ [⟨painter.origin + position, 0, style⟩]
        opened := some painter.sections.length :: painter.opened
        lastClosed := none } := by
  rw [push]
  simp only [fresh]

/-- The strokes for a whole token make a section of it. -/
theorem draw_token (closed : painter.opened = []) {start stop : Nat} (filled : start < stop)
    (clear : ∀ sec ∈ painter.sections, sec.stop ≠ painter.origin + start) (theme : Theme)
    (pattern : Pattern) (kind : TokenKind) :
    (painter.draw (Walk.openStrokes (Languages.tokenSpan theme pattern kind) start stop)).draw
        (Walk.closeStrokes (Languages.tokenSpan theme pattern kind) stop stop) =
      painter.mark ⟨painter.origin + start, stop - start, theme.token kind⟩ := by
  have fresh : ({ painter with opened := none :: painter.opened } : Painter).continuable?
      (theme.token kind) (painter.origin + start) = none := continuable?_eq_none clear _
  have moves : ¬ stop - start = 0 := by omega
  have length : painter.origin + stop - (painter.origin + start) = stop - start := by omega
  have opened : painter.draw (Walk.openStrokes (Languages.tokenSpan theme pattern kind) start stop) =
      { painter.mark ⟨painter.origin + start, stop - start, theme.token kind⟩ with
        opened := [none] } := by
    show (({ painter with opened := none :: painter.opened } : Painter).push
      (some (theme.token kind)) start).pop stop = _
    rw [push_of_fresh fresh]
    simp [pop, mark, closed, moves, length]
  rw [opened]
  show ((({ painter.mark ⟨painter.origin + start, stop - start, theme.token kind⟩ with
    opened := [none, none] } : Painter).pop stop).pop stop) = _
  simp [pop, mark, closed]

end Scan.Painter

namespace Languages.CFamily

/-- What may stand between the apostrophes of a character literal: a character, or an escape. -/
inductive IsCharBody : List Char → Prop where
  | plain {c : Char} (notQuote : c ≠ '\'') (notBackslash : c ≠ '\\') (notLineFeed : c ≠ '\n') :
      IsCharBody [c]
  | escape {c : Char} (known : c ∈ ['\'', '\x22', '?', '\\', 'a', 'b', 'f', 'n', 'r', 't', 'v']) :
      IsCharBody ['\\', c]
  | octal {digits : List Char} (filled : digits ≠ []) (few : digits.length ≤ 3)
      (each : ∀ d ∈ digits, '0' ≤ d ∧ d ≤ '7') : IsCharBody ('\\' :: digits)
  | hexadecimal {digits : List Char} (filled : digits ≠ [])
      (each : ∀ d ∈ digits, ('0' ≤ d ∧ d ≤ '9') ∨ ('a' ≤ d ∧ d ≤ 'f') ∨ ('A' ≤ d ∧ d ≤ 'F')) :
      IsCharBody ('\\' :: 'x' :: digits)

/-- The literal with the given body. -/
def charLiteral (body : List Char) : List Char := '\'' :: body ++ ['\'']

/-- The body of the literal that is missed. -/
def escapedQuote : List Char := ['\\', '\'']

/-- The line of the literals with the given bodies. -/
def charLine (bodies : List (List Char)) : List Char :=
  [',', ' '].intercalate (bodies.map charLiteral)

/-- The sections of literals that begin at an offset, with two bytes between one and the next. -/
def charSections (style : Style) : Nat → List (List Char) → List Section
  | _, [] => []
  | offset, body :: rest =>
    let length := Text.byteLength (charLiteral body)
    let later := charSections style (offset + length + 2) rest
    if body = escapedQuote then later else ⟨offset, length, style⟩ :: later

variable {theme : Theme} {front rest body : List Char}

theorem charLine_nil : charLine [] = [] := rfl

theorem charLine_singleton (body : List Char) : charLine [body] = charLiteral body := by
  simp [charLine]

theorem charLine_cons (body following : List Char) (bodies : List (List Char)) :
    charLine (body :: following :: bodies) =
      charLiteral body ++ ([',', ' '] ++ charLine (following :: bodies)) := by
  simp [charLine, List.intercalate]

theorem charSections_cons (style : Style) (offset : Nat) (body : List Char)
    (bodies : List (List Char)) :
    charSections style offset (body :: bodies) = charSections style offset [body] ++
      charSections style (offset + Text.byteLength (charLiteral body) + 2) bodies := by
  by_cases same : body = escapedQuote <;> simp [charSections, same]

/-! ## What the patterns match -/

/-- A body is a single character, or a backslash with a run of characters that has no apostrophe. -/
theorem IsCharBody.plain_or_run (wellFormed : IsCharBody body) (other : body ≠ escapedQuote) :
    (∃ c, body = [c] ∧ c ≠ '\'' ∧ c ≠ '\\') ∨
      ∃ run, body = '\\' :: run ∧ run ≠ [] ∧ ∀ d ∈ run, d ≠ '\'' := by
  cases wellFormed with
  | plain notQuote notBackslash _ => exact .inl ⟨_, rfl, notQuote, notBackslash⟩
  | @escape c known =>
      refine .inr ⟨[c], rfl, List.cons_ne_nil _ _, List.forall_mem_singleton.mpr ?_⟩
      rintro rfl
      exact other rfl
  | octal filled _ each =>
      refine .inr ⟨_, rfl, filled, fun d listed => ?_⟩
      rintro rfl
      exact absurd (each _ listed) (by decide)
  | hexadecimal _ each =>
      refine .inr ⟨_, rfl, List.cons_ne_nil _ _, List.forall_mem_cons.mpr ⟨by decide, fun d listed => ?_⟩⟩
      rintro rfl
      exact absurd (each _ listed) (by decide)

/-- A character that is neither an apostrophe nor a backslash. -/
def plainSet : CharSet := .compl (.union (.union .none (.single '\'')) (.single '\\'))

/-- A character that is no apostrophe. -/
def unquotedSet : CharSet := .compl (.union .none (.single '\''))

/-- What stands between the apostrophes, as the pattern has it. -/
def bodyExpr : Expr :=
  .alt (.chars plainSet) (.seq (.chars (.single '\\')) (.repeated (.chars unquotedSet) 1 none true))

/-- A body between two apostrophes. -/
def characterExpr : Expr :=
  .seq (.chars (.single '\'')) (.seq bodyExpr (.chars (.single '\'')))

theorem expr?_character : character.expr? = some characterExpr := rfl

theorem contains_plainSet {c : Char} : plainSet.contains c = true ↔ c ≠ '\'' ∧ c ≠ '\\' := by
  simp [plainSet, CharSet.contains, ← Bool.not_eq_true]

theorem contains_unquotedSet {c : Char} : unquotedSet.contains c = true ↔ c ≠ '\'' := by
  simp [unquotedSet, CharSet.contains, ← Bool.not_eq_true]

/-- A body that is matched at all is preferred to the end, up to the apostrophe behind it. -/
theorem prefers_body (wellFormed : IsCharBody body) (other : body ≠ escapedQuote)
    (before : Option Char) (offset : Nat) (rest : List Char) :
    ∃ last, bodyExpr.Prefers ⟨before, offset, body ++ '\'' :: rest⟩
      ⟨last, offset + Text.byteLength body, '\'' :: rest⟩ := by
  rcases wellFormed.plain_or_run other with ⟨c, rfl, notQuote, notBackslash⟩ |
    ⟨run, rfl, filled, unquoted⟩
  · exact ⟨some c, .left (.chars (contains_plainSet.mpr ⟨notQuote, notBackslash⟩))⟩
  · refine ⟨run.getLast?, .right (Expr.ends_eq_nil (by decide) (by decide) rfl)
      (.seq (.chars (by simp)) ?_)⟩
    rw [Text.byteLength_cons, ← Nat.add_assoc]
    refine .run filled (fun d listed => contains_unquotedSet.mpr (unquoted d listed)) ?_ _ _
    rintro d ⟨⟩
    decide

/-- The pattern for literals matches a whole literal. -/
theorem here?_charLiteral (wellFormed : IsCharBody body) (other : body ≠ escapedQuote)
    (front rest : List Char) :
    character.here? front (charLiteral body ++ rest) =
      some ⟨Text.byteLength front, Text.byteLength (front ++ charLiteral body)⟩ := by
  obtain ⟨last, inner⟩ := prefers_body wellFormed other (some '\'')
    (Text.byteLength front + '\''.utf8Size) rest
  have whole : characterExpr.Prefers (.behind front (charLiteral body ++ rest))
      ⟨some '\'', Text.byteLength front + '\''.utf8Size + Text.byteLength body + '\''.utf8Size,
        rest⟩ := by
    rw [charLiteral, List.append_assoc]
    exact .seq (.chars (by simp)) (.seq inner (.chars (by simp)))
  rw [here?_eq_matchAt? expr?_character, Expr.matchAt?_of_prefers whole, charLiteral]
  simp [Cursor.behind, Nat.add_assoc]

/-- Whether no body that ends before an apostrophe begins a text. -/
def Unclosed (rest : List Char) : Prop :=
  ∀ before offset, ∀ next ∈ bodyExpr.ends ⟨before, offset, rest⟩, next.rest.head? ≠ some '\''

/-- Behind an apostrophe the pattern needs a body, and another apostrophe behind that. -/
theorem here?_character_eq_none (unclosed : Unclosed rest) (front : List Char) :
    character.here? front ('\'' :: rest) = none := by
  have none : characterExpr.ends (.behind front ('\'' :: rest)) = [] := by
    refine List.eq_nil_iff_forall_not_mem.mpr fun stop member => ?_
    obtain ⟨first, opening, further⟩ := List.mem_flatMap.mp (mem_of_mem_distinct member)
    obtain ⟨next, inside, closing⟩ := List.mem_flatMap.mp (mem_of_mem_distinct further)
    rw [Cursor.behind, Expr.ends_chars (by simp), List.mem_singleton] at opening
    subst opening
    have apart := unclosed _ _ next inside
    obtain ⟨before, offset, rest⟩ := next
    cases rest with
    | nil => simp [Expr.ends] at closing
    | cons c rest =>
        have other : c ≠ '\'' := fun same => apart (congrArg some same)
        simp [Expr.ends, other] at closing
  rw [here?_eq_matchAt? expr?_character, Expr.matchAt?, none]
  rfl

theorem unclosed_nil : Unclosed [] := by
  intro before offset next member
  simp [bodyExpr, Expr.ends, distinct] at member

/-- A body does not begin with an apostrophe. -/
theorem unclosed_quote (rest : List Char) : Unclosed ('\'' :: rest) := by
  intro before offset next member
  have none : bodyExpr.ends ⟨before, offset, '\'' :: rest⟩ = [] :=
    Expr.ends_eq_nil (by decide) (by decide) rfl
  rw [none] at member
  cases member

/-- A backslash with an apostrophe behind it begins no body, since the pattern looks for other characters
there. -/
theorem unclosed_escapedQuote (rest : List Char) : Unclosed (escapedQuote ++ rest) := by
  intro before offset next member
  have plain : (Expr.chars plainSet).ends ⟨before, offset, escapedQuote ++ rest⟩ = [] :=
    Expr.ends_eq_nil (by decide) (by decide) rfl
  have run : (Expr.repeated (.chars unquotedSet) 1 none true).ends
      ⟨some '\\', offset + '\\'.utf8Size, '\'' :: rest⟩ = [] :=
    Expr.ends_eq_nil (by decide) (by decide) rfl
  have backslash : (Expr.chars (.single '\\')).ends ⟨before, offset, escapedQuote ++ rest⟩ =
      [⟨some '\\', offset + '\\'.utf8Size, '\'' :: rest⟩] := Expr.ends_chars (by simp)
  rw [bodyExpr, Expr.ends, plain, Expr.ends, backslash, List.flatMap_singleton, run] at member
  cases member

/-- A comma is a body, but not with a blank behind it. -/
theorem unclosed_separator (rest : List Char) : Unclosed (',' :: ' ' :: rest) := by
  intro before offset next member
  have comma : (Expr.chars plainSet).ends ⟨before, offset, ',' :: ' ' :: rest⟩ =
      [⟨some ',', offset + ','.utf8Size, ' ' :: rest⟩] := Expr.ends_chars (by decide)
  have escape : (Expr.seq (.chars (.single '\\')) (.repeated (.chars unquotedSet) 1 none true)).ends
      ⟨before, offset, ',' :: ' ' :: rest⟩ = [] := Expr.ends_eq_nil (by decide) (by decide) rfl
  rw [bodyExpr, Expr.ends, comma, escape] at member
  rw [List.mem_singleton.mp member]
  simp

/-! ## Characters that mean nothing -/

/-- The characters between literals, and those of the literal that is missed. -/
def dull : List Char := ['\'', '\\', ',', ' ']

theorem character_avoids : character.avoids ['\\', ',', ' '] = true := by
  decide

/-- The patterns that are tried in plain code, but for the one for literals. -/
theorem others_avoid (theme : Theme) :
    ∀ pattern ∈ [commentOpening, slashes, quote] ++ (grammar theme).main.rules.map Rule.pattern,
      pattern.avoids dull = true ∨
        pattern.isSame directive = true ∧ directive.avoids ['\'', '\\', ','] = true := by
  show ∀ pattern ∈ [commentOpening, slashes, quote] ++
    (grammar .standard).main.rules.map Rule.pattern, _
  decide +kernel

/-- A directive stands at the start of a line. -/
theorem here?_directive {front : List Char} (behind : front ≠ []) (rest : List Char) :
    directive.here? front rest = none := by
  obtain ⟨further, form⟩ : ∃ further, directive.expr? = some (.seq (.anchor .textStart) further) :=
    ⟨_, rfl⟩
  have before : front.getLast?.isNone = false := by
    cases last : front.getLast? with
    | none => exact absurd (List.getLast?_eq_none_iff.mp last) behind
    | some c => rfl
  simp [here?_eq_matchAt? form, Expr.matchAt?, Expr.ends, Anchor.holds, Cursor.behind, before, distinct]

/-- No other pattern matches at a character that means nothing. -/
theorem here?_dull (theme : Theme) {pattern : Pattern}
    (member : pattern ∈ [commentOpening, slashes, quote] ++ (grammar theme).main.rules.map Rule.pattern)
    {c : Char} (listed : c ∈ dull) (later : c = ' ' → front ≠ []) (rest : List Char) :
    pattern.here? front (c :: rest) = none := by
  rcases others_avoid theme pattern member with avoids | ⟨same, avoids⟩
  · exact here?_eq_none_of_avoids avoids listed front rest
  · rw [eq_of_isSame same]
    by_cases blank : c = ' '
    · exact here?_directive (later blank) _
    · have mark : c ∈ ['\'', '\\', ','] := by simpa [dull, blank] using listed
      exact here?_eq_none_of_avoids avoids mark front rest

/-- The empty text is found at every place. -/
theorem here?_nothing (front rest : List Char) :
    nothing.here? front rest = some ⟨Text.byteLength front, Text.byteLength front⟩ := by
  have empty : nothing.expr? = some .empty := rfl
  rw [here?_eq_matchAt? empty]
  rfl

/-! ## Lines of literals -/

theorem solid (theme : Theme) : (grammar theme).Solid :=
  solid_of_mem_all (List.mem_cons_of_mem _ List.mem_cons_self)

/-- A walk in plain code behind the front of a line, whose painter has finished all sections some way back. -/
structure Plain (front : List Char) (back : Nat) (painter : Painter) (walk : DirectWalk) : Prop where
  there : walk.position = Text.byteLength front
  stack : walk.stack = []
  painted : walk.painter = some painter
  closed : painter.opened = []
  clear : ∀ sec ∈ painter.sections, sec.stop + back ≤ painter.origin + Text.byteLength front

/-- Whether a walk passes a piece of the line and stands in plain code behind it. -/
def Passes (theme : Theme) (front piece rest : List Char) (back : Nat) (painter : Painter)
    (walk : DirectWalk) : Prop :=
  ∃ next, walk.complete (grammar theme) (front ++ piece ++ rest) =
      next.complete (grammar theme) (front ++ piece ++ rest) ∧
    Plain (front ++ piece) back painter next

/-- Two pieces of a line are passed one after the other. -/
theorem Passes.andThen {front piece more rest : List Char} {back further : Nat}
    {painter last : Painter} {walk : DirectWalk}
    (first : Passes theme front piece (more ++ rest) back painter walk)
    (second : ∀ next, Plain (front ++ piece) back painter next →
      Passes theme (front ++ piece) more rest further last next) :
    Passes theme front (piece ++ more) rest further last walk := by
  obtain ⟨next, same, plain⟩ := first
  obtain ⟨final, beyond, done⟩ := second next plain
  simp only [List.append_assoc] at same beyond done
  refine ⟨final, ?_, done⟩
  simp only [List.append_assoc]
  rw [same, beyond]

namespace Plain

variable {front rest body : List Char} {back : Nat} {painter : Painter} {walk : DirectWalk}

/-- A character that means nothing is passed. -/
theorem skip {c : Char} (plain : Plain front back painter walk) (listed : c ∈ dull)
    (later : c = ' ' → front ≠ []) (missed : character.here? front (c :: rest) = none) :
    Passes theme front [c] rest (back + c.utf8Size) painter walk := by
  have openings : ∀ pattern ∈ (grammar theme).main.spans.map Span.opening,
      pattern.here? front (c :: rest) = none := by
    show ∀ pattern ∈ [commentOpening, slashes, quote] ++ [character], _
    exact List.forall_mem_append.mpr ⟨fun pattern member =>
      here?_dull theme (List.mem_append_left _ member) listed later rest,
      List.forall_mem_singleton.mpr missed⟩
  have rules : ∀ pattern ∈ (grammar theme).main.rules.map Rule.pattern, ∀ more,
      pattern.here? front (c :: more) = none := fun pattern member more =>
    here?_dull theme (List.mem_append_right _ member) listed later more
  have main : (grammar theme).active walk.stack = (grammar theme).main := by
    rw [plain.stack]
    rfl
  have silent : DirectWalk.Silent (grammar theme) walk front c rest := {
    openings := by
      rw [main]
      exact fun span declared => openings _ (List.mem_map_of_mem declared)
    closing := by
      intro top span innermost
      rw [plain.stack] at innermost
      cases innermost
    rules := by
      rw [main]
      exact .inr fun rule declared => rules _ (List.mem_map_of_mem declared) }
  have skipped := DirectWalk.complete_skip plain.there silent (solid theme)
  rw [Passes, List.append_assoc, List.singleton_append]
  refine ⟨_, skipped, ?_, plain.stack, plain.painted, plain.closed, fun sec member => ?_⟩
  · simp [DirectWalk.moveTo, plain.there]
  · have clear := plain.clear sec member
    simp only [Text.byteLength_append, Text.byteLength_cons, Text.byteLength_nil]
    omega

/-- So is a character before a piece that is passed. -/
theorem skipThen {c : Char} {more : List Char} {further : Nat} {last : Painter}
    (plain : Plain front back painter walk) (listed : c ∈ dull) (later : c = ' ' → front ≠ [])
    (missed : character.here? front (c :: (more ++ rest)) = none)
    (beyond : ∀ next, Plain (front ++ [c]) (back + c.utf8Size) painter next →
      Passes theme (front ++ [c]) more rest further last next) :
    Passes theme front (c :: more) rest further last walk := by
  have first : Passes theme front [c] (more ++ rest) (back + c.utf8Size) painter walk :=
    plain.skip listed later missed
  exact first.andThen beyond

/-- The literal that the pattern misses is passed character by character. -/
theorem missed (plain : Plain front back painter walk) (unclosed : Unclosed rest) :
    Passes theme front (charLiteral escapedQuote) rest (back + 4) painter walk := by
  have first := here?_character_eq_none (unclosed_escapedQuote ('\'' :: rest))
  have third := here?_character_eq_none (unclosed_quote rest)
  have fourth := here?_character_eq_none unclosed
  show Passes theme front ['\'', '\\', '\'', '\''] rest (back + 4) painter walk
  exact plain.skipThen (by simp [dull]) (by simp) (first _) fun _ plain =>
    plain.skipThen (by simp [dull]) (by simp)
        (here?_eq_none_of_avoids character_avoids (by simp) _ _) fun _ plain =>
      plain.skipThen (by simp [dull]) (by simp) (third _) fun _ plain =>
        plain.skip (by simp [dull]) (by simp) (fourth _)

/-- So is what stands between two literals. -/
theorem separator (plain : Plain front back painter walk) :
    Passes theme front [',', ' '] rest (back + 2) painter walk :=
  plain.skipThen (by simp [dull]) (by simp)
    (here?_eq_none_of_avoids character_avoids (by simp) _ _) fun _ plain =>
      plain.skip (by simp [dull]) (by simp)
        (here?_eq_none_of_avoids character_avoids (by simp) _ _)

/-- A literal that the pattern matches gets a section. -/
theorem token (plain : Plain front (back + 1) painter walk)
    (matched : character.here? front (charLiteral body ++ rest) =
      some ⟨Text.byteLength front, Text.byteLength (front ++ charLiteral body)⟩) :
    Passes theme front (charLiteral body) rest 0
      (painter.mark ⟨painter.origin + Text.byteLength front,
        Text.byteLength (charLiteral body), theme.token .char⟩) walk := by
  have length : Text.byteLength (front ++ charLiteral body) =
      Text.byteLength front + Text.byteLength (charLiteral body) := Text.byteLength_append _ _
  have positive : 0 < Text.byteLength (charLiteral body) :=
    Nat.lt_of_lt_of_le '\''.utf8Size_pos (Nat.le_add_right _ _)
  have active : (grammar theme).activeId walk.stack = some 0 := by
    rw [plain.stack]
    rfl
  have listed : ((grammar theme).active walk.stack).spans =
      [blockComment theme, lineComment theme slashes (some 2),
        lineString theme quote quoteOrLineEnd (some 1)] ++ tokenSpan theme character .char :: [] := by
    rw [plain.stack]
    rfl
  have bare : ((grammar theme).active (walk.stack.push ⟨0, 3⟩)).spans = [] := by
    rw [plain.stack]
    rfl
  have first : ∀ other ∈ [blockComment theme, lineComment theme slashes (some 2),
      lineString theme quote quoteOrLineEnd (some 1)],
      other.opening.here? front (charLiteral body ++ rest) = none := by
    intro other declared
    have member : other.opening ∈ [commentOpening, slashes, quote] :=
      List.mem_map_of_mem (f := Span.opening) declared
    exact here?_dull theme (List.mem_append_left _ member) List.mem_cons_self (by simp) _
  have passed := DirectWalk.complete_token plain.there active listed rfl bare first
    (List.cons_ne_nil _ _) matched (here?_nothing _ _)
  refine ⟨_, passed, rfl, plain.stack, ?_, plain.closed, fun sec member => ?_⟩
  · have clear : ∀ sec ∈ painter.sections, sec.stop ≠ painter.origin + Text.byteLength front := by
      intro sec member
      have before := plain.clear sec member
      omega
    have drawn := Painter.draw_token plain.closed
      (show Text.byteLength front < Text.byteLength (front ++ charLiteral body) by omega) clear theme
      character .char
    rw [plain.painted, Option.map_some, drawn, length, Nat.add_sub_cancel_left]
  · rcases List.mem_append.mp member with earlier | last
    · have before := plain.clear sec earlier
      show _ ≤ painter.origin + _
      omega
    · rw [List.mem_singleton.mp last]
      show painter.origin + Text.byteLength front + Text.byteLength (charLiteral body) + 0 ≤
        painter.origin + Text.byteLength (front ++ charLiteral body)
      omega

theorem mono {less : Nat} (plain : Plain front back painter walk) (fewer : less ≤ back) :
    Plain front less painter walk :=
  { plain with clear := fun sec member =>
      Nat.le_trans (Nat.add_le_add_left fewer _) (plain.clear sec member) }

/-- A literal is passed and gets its section, if there is one for it. -/
theorem literal (theme : Theme) (plain : Plain front (back + 1) painter walk)
    (wellFormed : IsCharBody body) (unclosed : Unclosed rest) :
    ∃ last, Passes theme front (charLiteral body) rest 0 last walk ∧ last.origin = painter.origin ∧
      last.sections = painter.sections ++
        charSections (theme.token .char) (painter.origin + Text.byteLength front) [body] := by
  by_cases same : body = escapedQuote
  · -- The last apostrophe could open a literal, were it not for what stands behind it.
    subst same
    obtain ⟨next, passed, still⟩ :
        Passes theme front (charLiteral escapedQuote) rest (back + 1 + 4) painter walk :=
      plain.missed unclosed
    refine ⟨painter, ⟨next, passed, still.mono (Nat.zero_le _)⟩, rfl, ?_⟩
    simp [charSections]
  · refine ⟨_, plain.token (here?_charLiteral wellFormed same front rest), rfl, ?_⟩
    simp [Painter.mark, charSections, same]

/-- At the end of a line no span is open. -/
theorem finish (plain : Plain front back painter walk) :
    walk.complete (grammar theme) front = .ok walk := by
  have ended : walk.step (grammar theme) front = .ok none := by
    refine DirectWalk.step_byteLength plain.there ((solid theme).openingsSolid front) ?_
    intro top span innermost
    rw [plain.stack] at innermost
    cases innermost
  have reached : Text.byteLength front ≤ walk.position := Nat.le_of_eq plain.there.symm
  have still : walk.painter.map (Painter.popAll · walk.position) = walk.painter := by
    rw [plain.painted, Option.map_some, Painter.popAll, plain.closed]
    rfl
  rw [DirectWalk.complete_of_done ended, DirectWalk.finish, DirectWalk.advance_of_le reached]
  show Except.ok { walk with painter := walk.painter.map (Painter.popAll · walk.position) } = _
  rw [still]

/-- A walk to the end of a line of literals marks them one by one. -/
theorem complete (theme : Theme) {bodies : List (List Char)}
    (wellFormed : ∀ body ∈ bodies, IsCharBody body) (plain : Plain front (back + 1) painter walk) :
    ∃ final, walk.complete (grammar theme) (front ++ charLine bodies) = .ok final ∧
      final.stack = [] ∧ final.painter.map Painter.sections = some (painter.sections ++
        charSections (theme.token .char) (painter.origin + Text.byteLength front) bodies) := by
  induction bodies generalizing front back painter walk with
  | nil =>
      rw [charLine_nil, List.append_nil]
      refine ⟨walk, plain.finish, plain.stack, ?_⟩
      simp [plain.painted, charSections]
  | cons body bodies ih =>
      obtain ⟨first, later⟩ := List.forall_mem_cons.mp wellFormed
      -- Behind a literal the line ends or a separator follows: neither closes one that is missed.
      cases bodies with
      | nil =>
          obtain ⟨last, ⟨next, passed, still⟩, _, sections⟩ := plain.literal theme first unclosed_nil
          rw [List.append_nil] at passed
          rw [charLine_singleton, passed]
          refine ⟨next, still.finish, still.stack, ?_⟩
          rw [still.painted, Option.map_some, sections]
      | cons following bodies =>
          obtain ⟨marked, passed, origin, sections⟩ := plain.literal theme first
            (unclosed_separator (charLine (following :: bodies)))
          obtain ⟨next, same, still⟩ : Passes theme front (charLiteral body ++ [',', ' '])
              (charLine (following :: bodies)) 2 marked walk :=
            passed.andThen fun _ plain => plain.separator
          obtain ⟨final, completed, stack, painted⟩ := ih later still
          have line : charLine (body :: following :: bodies) =
              charLiteral body ++ [',', ' '] ++ charLine (following :: bodies) := by
            rw [charLine_cons, List.append_assoc]
          have there : Text.byteLength (front ++ (charLiteral body ++ [',', ' '])) =
              Text.byteLength front + Text.byteLength (charLiteral body) + 2 := by
            rw [Text.byteLength_append, Text.byteLength_append, ← Nat.add_assoc]
            rfl
          rw [line, ← List.append_assoc, same]
          refine ⟨final, completed, stack, ?_⟩
          rw [painted, sections, origin, there, charSections_cons _ _ body (following :: bodies),
            List.append_assoc]
          simp only [Nat.add_assoc]

end Plain

/-- **Character literals.** On a line of literals with commas between them, each literal has a section of its
own, but for the one that is missed, and the line leaves nothing open. -/
theorem highlightLine_charLiterals (theme : Theme) (number offset : Nat) {text : String}
    {bodies : List (List Char)} (wellFormed : ∀ body ∈ bodies, IsCharBody body)
    (line : text.toList = charLine bodies) :
    (grammar theme).highlightLine [] number offset text =
      .ok (⟨number, offset, Text.byteLength text.toList,
        charSections (theme.token .char) offset bodies⟩, []) := by
  have plain : Plain [] 1 { origin := offset }
      (DirectWalk.start (grammar theme) [] (some { origin := offset })) :=
    ⟨rfl, rfl, rfl, rfl, List.forall_mem_nil _⟩
  obtain ⟨final, completed, stack, painted⟩ := plain.complete theme wellFormed
  rw [Grammar.highlightLine_eq_directly, Grammar.highlightLineDirectly, line]
  rw [List.nil_append] at completed
  rw [completed, Except.map, painted, stack]
  simp

/-- Literals of a double quote, of an escaped apostrophe and of a comma. -/
theorem highlightLine_charLiterals_mixed :
    (∀ body ∈ [['\x22'], ['\\', '\''], [',']], IsCharBody body) ∧
      "'\x22', '\\'', ','".toList = charLine [['\x22'], ['\\', '\''], [',']] ∧
      (grammar .standard).highlightLine [] 1 0 "'\x22', '\\'', ','" =
        .ok (⟨1, 0, 14, [⟨0, 3, Theme.standard.token .char⟩, ⟨11, 3, Theme.standard.token .char⟩]⟩, []) :=
  have wellFormed : ∀ body ∈ [['\x22'], ['\\', '\''], [',']], IsCharBody body := by
    simp only [List.forall_mem_cons]
    exact ⟨.plain (by decide) (by decide) (by decide), .escape (by decide),
      .plain (by decide) (by decide) (by decide), List.forall_mem_nil _⟩
  have line : "'\x22', '\\'', ','".toList = charLine [['\x22'], ['\\', '\''], [',']] := by decide
  ⟨wellFormed, line, highlightLine_charLiterals .standard 1 0 wellFormed line⟩

/-- The literal of an escaped apostrophe has no section, though it is well formed. -/
theorem highlightLine_escapedQuote :
    IsCharBody escapedQuote ∧ "'\\''".toList = charLiteral escapedQuote ∧
      (grammar .standard).highlightLine [] 1 0 "'\\''" = .ok (⟨1, 0, 4, []⟩, []) :=
  ⟨.escape (by decide), by decide, by decide +kernel⟩

end Languages.CFamily

end Highlight
