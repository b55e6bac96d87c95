import Highlight.Proofs.Scan.Painted
import Highlight.Proofs.Scan.Path
import Mathlib.Data.List.Forall2

/-! # Styles never steer a scan

Two grammars that differ in nothing but their styles scan every line alike (`Highlight.Grammar.ScansAlike`):
both scans end with the same stack or with the same fault, and at each byte the styles differ as those of
the grammars do. The sections need not correspond, since runs are joined where their styles are the same.
The strokes do: the two walks stand at the same places, and their painters have made strokes that differ in
the styles that are pushed only (`Highlight.Scan.Painter.Recolored`). What sections show depends on the
strokes and not on how runs were joined.
-/

namespace Highlight

/-! ## Grammars that differ in their styles -/

/-- Two rules that differ in their styles only, which are related. -/
structure Rule.Restyled (related : Style → Style → Prop) (rule other : Rule) : Prop where
  pattern : rule.pattern = other.pattern
  style : Option.Rel related rule.style other.style

/-- Two spans that differ in their styles only, which are related. -/
structure Span.Restyled (related : Style → Style → Prop) (span other : Span) : Prop where
  opening : span.opening = other.opening
  closing : span.closing = other.closing
  openStyle : Option.Rel related span.openStyle other.openStyle
  bodyStyle : Option.Rel related span.bodyStyle other.bodyStyle
  closeStyle : Option.Rel related span.closeStyle other.closeStyle
  inner : span.inner = other.inner
  multiline : span.multiline = other.multiline
  bodyCoversOpen : span.bodyCoversOpen = other.bodyCoversOpen
  bodyCoversClose : span.bodyCoversClose = other.bodyCoversClose

/-- Two rule sets whose rules and spans differ in their styles only. -/
structure RuleSet.Restyled (related : Style → Style → Prop) (ruleSet other : RuleSet) : Prop where
  rules : List.Forall₂ (Rule.Restyled related) ruleSet.rules other.rules
  spans : List.Forall₂ (Span.Restyled related) ruleSet.spans other.spans

/-- Two grammars whose rule sets differ in the styles only, which are related place by place. Their themes
and what they are called make no difference to a scan. -/
def Grammar.Restyled (related : Style → Style → Prop) (grammar other : Grammar) : Prop :=
  List.Forall₂ (RuleSet.Restyled related) grammar.ruleSets other.ruleSets

/-- Lists that are related place by place have related items at every place. -/
theorem rel_getElem? {α β : Type} {related : α → β → Prop} {items : List α} {others : List β}
    (same : List.Forall₂ related items others) (index : Nat) :
    Option.Rel related items[index]? others[index]? := by
  induction same generalizing index with
  | nil => exact .none
  | cons here _ ih =>
      cases index with
      | zero => exact .some here
      | succ index => exact ih index

namespace Grammar.Restyled

variable {related : Style → Style → Prop} {grammar other : Grammar}
  (restyled : grammar.Restyled related other)
include restyled

theorem span? (ref : SpanRef) :
    Option.Rel (Span.Restyled related) (grammar.span? ref) (other.span? ref) :=
  rel_bind (rel_getElem? restyled ref.ruleSet) fun _ _ ruleSets =>
    rel_getElem? ruleSets.spans ref.index

theorem activeId (stack : SpanStack) : grammar.activeId stack = other.activeId stack := by
  cases stack with
  | nil => rfl
  | cons top rest =>
      rw [Grammar.activeId, Grammar.activeId]
      rcases rel_cases (restyled.span? top) with ⟨first, second⟩ | ⟨_, _, first, second, same⟩
      · rw [first, second]
      · rw [first, second]
        exact same.inner

/-- The rule set with a number differs in the styles only. -/
theorem resolve (id : Option Nat) :
    RuleSet.Restyled related (grammar.resolve id) (other.resolve id) := by
  have empty : RuleSet.Restyled related .empty .empty := ⟨.nil, .nil⟩
  cases id with
  | none => exact empty
  | some number =>
      simp only [Grammar.resolve, Grammar.ruleSet?, Option.bind_some]
      rcases rel_cases (rel_getElem? restyled number) with
        ⟨first, second⟩ | ⟨_, _, first, second, same⟩
      · rw [first, second]
        exact empty
      · rw [first, second]
        exact same

theorem active (stack : SpanStack) :
    RuleSet.Restyled related (grammar.active stack) (other.active stack) := by
  rw [Grammar.active, Grammar.active, restyled.activeId stack]
  exact restyled.resolve _

end Grammar.Restyled

namespace Scan

open Pattern (Hit)

variable {related : Style → Style → Prop} {text : List Char}

/-! ## Strokes and painters -/

/-- Two strokes at one place that push related styles or both pop. -/
inductive Stroke.Restyled (related : Style → Style → Prop) : Stroke → Stroke → Prop where
  | push {style other : Option Style} (position : Nat) (styles : Option.Rel related style other) :
      Restyled related (.push style position) (.push other position)
  | pop (position : Nat) : Restyled related (.pop position) (.pop position)

theorem Stroke.Restyled.position {stroke other : Stroke} (restyled : stroke.Restyled related other) :
    stroke.position = other.position := by
  cases restyled <;> rfl

section Strokes

variable {strokes others : List Stroke}
  (alike : List.Forall₂ (Stroke.Restyled related) strokes others)
include alike

/-- Strokes that differ in their styles only are made at the same places. -/
theorem InOrder.restyled {start stop : Nat} (ordered : InOrder text start strokes stop) :
    InOrder text start others stop := by
  induction ordered generalizing others with
  | nil forward =>
      cases alike
      exact .nil forward
  | cons forward boundary _ ih =>
      cases alike with
      | cons here rest =>
          rw [here.position] at forward boundary ih
          exact .cons forward boundary (ih rest)

/-- Strokes that differ in their styles only leave as many styles open, which are related one by one. -/
theorem openStyles_restyled :
    List.Forall₂ (Option.Rel related) (openStyles strokes) (openStyles others) := by
  refine List.rel_foldl (R := Stroke.Restyled related) ?_ .nil alike
  intro opened outer nested stroke other here
  cases here with
  | push position styles => exact .cons styles nested
  | pop position =>
      cases nested with
      | nil => exact .nil
      | cons _ rest => exact rest

/-- What is shown differs as the strokes do. -/
theorem shownAt_restyled (position : Nat) :
    List.Forall₂ related (shownAt strokes position) (shownAt others position) := by
  have early : List.Forall₂ (Stroke.Restyled related)
      (strokes.filter (·.position ≤ position)) (others.filter (·.position ≤ position)) := by
    refine List.rel_filter (fun stroke other here => ?_) alike
    simp only [here.position]
  apply List.rel_reverse
  apply List.rel_filterMap (fun _ _ styles => styles)
  exact openStyles_restyled early

end Strokes

/-- Two painters that have made strokes in order up to `position`, which differ in the styles only. -/
def Painter.Recolored (related : Style → Style → Prop) (text : List Char) (position : Nat)
    (painter other : Painter) : Prop :=
  ∃ origin strokes others, InOrder text 0 strokes position ∧
    List.Forall₂ (Stroke.Restyled related) strokes others ∧
    painter = ({ origin := origin } : Painter).draw strokes ∧
    other = ({ origin := origin } : Painter).draw others

namespace Painter

variable {painter other : Painter} {position stop : Nat}

theorem recolored_blank (related : Style → Style → Prop) (text : List Char) (origin : Nat) :
    Recolored related text 0 { origin := origin } { origin := origin } :=
  ⟨origin, [], [], .nil (Nat.le_refl 0), .nil, rfl, rfl⟩

/-- Painters that differ in the styles only still do so after such strokes. -/
theorem Recolored.draw (recolored : painter.Recolored related text position other)
    {strokes others : List Stroke} (ordered : InOrder text position strokes stop)
    (restyled : List.Forall₂ (Stroke.Restyled related) strokes others) :
    (painter.draw strokes).Recolored related text stop (other.draw others) := by
  obtain ⟨origin, made, others', before, alike, rfl, rfl⟩ := recolored
  refine ⟨origin, made ++ strokes, others' ++ others, before.append ordered, ?_, ?_, ?_⟩
  · exact List.rel_append alike restyled
  · exact (draw_append _ made strokes).symm
  · exact (draw_append _ others' others).symm

theorem Recolored.of_le (recolored : painter.Recolored related text position other)
    (ahead : position ≤ stop) : painter.Recolored related text stop other :=
  recolored.draw (.nil ahead) .nil

/-- Painters that differ in the styles only still do so after each has painted the same run. -/
theorem Recolored.paint (recolored : painter.Recolored related text position other) {hit : Hit}
    (late : position ≤ hit.start) (within : hit.Within text) {style restyled : Option Style}
    (styles : Option.Rel related style restyled) :
    (painter.paint style hit.start hit.stop).Recolored related text hit.stop
      (other.paint restyled hit.start hit.stop) := by
  have ordered : InOrder text position [.push style hit.start, .pop hit.stop] hit.stop :=
    .cons late within.opens (.cons within.ordered within.closes (.nil (Nat.le_refl _)))
  exact recolored.draw ordered (.cons (.push _ styles) (.cons (.pop _) .nil))

/-- At the end of the line painters that have made such strokes show related styles at each byte. -/
theorem Recolored.stylesAt
    (recolored : painter.Recolored related text (Text.byteLength text) other) (offset : Nat) :
    List.Forall₂ related
      (Section.stylesAt (painter.popAll (Text.byteLength text)).sections offset)
      (Section.stylesAt (other.popAll (Text.byteLength text)).sections offset) := by
  obtain ⟨origin, strokes, others, ordered, restyled, rfl, rfl⟩ := recolored
  have first := stylesAt_paintedSections ordered origin offset
  have second := stylesAt_paintedSections (ordered.restyled restyled) origin offset
  rw [paintedSections] at first second
  rw [first, second]
  split
  · exact shownAt_restyled restyled _
  · exact .nil

end Painter

/-! ## Walks -/

/-- The nearest match is the same where the patterns are, and it is one of related items. -/
theorem nearest?_rel {α : Type} {alike : α → α → Prop} {pattern : α → Pattern}
    (same : ∀ item other, alike item other → pattern item = pattern other) {items others : List α}
    (each : List.Forall₂ alike items others) (text : List Char) (position : Nat) :
    Option.Rel (fun first second =>
        first.1 = second.1 ∧ alike first.2.1 second.2.1 ∧ first.2.2 = second.2.2)
      (nearest? pattern text position items) (nearest? pattern text position others) := by
  induction each with
  | nil => exact .none
  | @cons item other rest remaining here _ ih =>
      rw [nearest?, nearest?, same item other here]
      cases (pattern other).find? text position with
      | none => exact rel_map ih fun _ _ found => ⟨congrArg (· + 1) found.1, found.2⟩
      | some hit =>
          rcases rel_cases ih with ⟨absent, absentToo⟩ | ⟨later, last, found, foundToo, both⟩
          · rw [absent, absentToo]
            exact .some ⟨rfl, here, rfl⟩
          · obtain ⟨index, further, start⟩ := later
            obtain ⟨_, partner, _⟩ := last
            obtain ⟨rfl, beyond, rfl⟩ := both
            rw [found, foundToo]
            dsimp only
            split
            · exact .some ⟨rfl, beyond, rfl⟩
            · exact .some ⟨rfl, here, rfl⟩

section Rules

variable {rules others : List Rule} (restyled : List.Forall₂ (Rule.Restyled related) rules others)
  {front : List Char} {position : Nat}
include restyled

/-- Where no rule matches, none of the others does. -/
theorem nearest?_rule_none (absent : nearest? Rule.pattern front position rules = none) :
    nearest? Rule.pattern front position others = none := by
  have nearest := nearest?_rel (fun _ _ same => Rule.Restyled.pattern same) restyled front position
  rcases rel_cases nearest with ⟨_, absentToo⟩ | ⟨_, _, found, _, _⟩
  · exact absentToo
  · rw [absent] at found
    contradiction

/-- Where a rule matches first, its partner does, over the same match. -/
theorem exists_nearest?_rule {index : Nat} {rule : Rule} {hit : Hit}
    (first : nearest? Rule.pattern front position rules = some (index, rule, hit)) :
    ∃ other, nearest? Rule.pattern front position others = some (index, other, hit) ∧
      rule.Restyled related other := by
  have nearest := nearest?_rel (fun _ _ same => Rule.Restyled.pattern same) restyled front position
  rcases rel_cases nearest with ⟨absent, _⟩ | ⟨_, ⟨_, other, _⟩, found, foundToo, both⟩
  · rw [absent] at first
    contradiction
  · rw [first] at found
    cases found
    obtain ⟨rfl, alike, rfl⟩ := both
    exact ⟨other, foundToo, alike⟩

end Rules

/-- Rules that differ in their styles paint the same runs, by induction on the runs. -/
theorem paintFrom_recolored {rules others : List Rule}
    (restyled : List.Forall₂ (Rule.Restyled related) rules others) {front : List Char}
    (starts : front <+: text) {stop position : Nat} (covers : Text.byteLength front ≤ stop)
    (ahead : position ≤ stop) {painter other : Painter}
    (recolored : painter.Recolored related text position other) :
    Agree (Painter.Recolored related text stop) (paintFrom rules front position painter)
      (paintFrom others front position other) := by
  fun_induction paintFrom rules front position painter generalizing other with
  | case1 position painter absent =>
      have absentToo := nearest?_rule_none restyled absent
      rw [paintFrom_eq, absentToo]
      exact .ok (recolored.of_le ahead)
  | case2 position painter index rule hit first empty =>
      obtain ⟨partner, firstToo, alike⟩ := exists_nearest?_rule restyled first
      rw [paintFrom_eq, firstToo, alike.pattern]
      dsimp only
      rw [if_pos empty]
      exact .error _
  | case3 position painter index rule hit first filled ih =>
      obtain ⟨partner, firstToo, alike⟩ := exists_nearest?_rule restyled first
      obtain ⟨late, within⟩ := within_of_nearest? first
      have onLine := within.of_prefix starts
      have inside := Nat.le_trans within.closes.le_byteLength covers
      rw [paintFrom_eq others, firstToo]
      dsimp only
      rw [if_neg filled]
      exact ih inside (recolored.paint late onLine alike.style)

/-- A fault names the patterns of a span and not its styles. -/
theorem emptySpanFault_restyled {span other : Span} (restyled : span.Restyled related other) :
    emptySpanFault span = emptySpanFault other := by
  rw [emptySpanFault, emptySpanFault, restyled.opening, restyled.closing]

/-- Spans that differ in their styles only are closed by strokes that do. -/
theorem closeStrokes_restyled {span other : Span} (restyled : span.Restyled related other)
    (start stop : Nat) :
    List.Forall₂ (Stroke.Restyled related) (Walk.closeStrokes span start stop)
      (Walk.closeStrokes other start stop) := by
  rw [Walk.closeStrokes, Walk.closeStrokes, restyled.bodyCoversClose]
  split
  · exact .cons (.push _ restyled.closeStyle) (.cons (.pop _) (.cons (.pop _) .nil))
  · exact .cons (.pop _) (.cons (.push _ restyled.closeStyle) (.cons (.pop _) .nil))

/-- Spans that differ in their styles only are opened by such strokes, too. -/
theorem openStrokes_restyled {span other : Span} (restyled : span.Restyled related other)
    (start stop : Nat) :
    List.Forall₂ (Stroke.Restyled related) (Walk.openStrokes span start stop)
      (Walk.openStrokes other start stop) := by
  rw [Walk.openStrokes, Walk.openStrokes, restyled.bodyCoversOpen]
  split
  · exact .cons (.push _ restyled.bodyStyle) (.cons (.push _ restyled.openStyle) (.cons (.pop _) .nil))
  · exact .cons (.push _ restyled.openStyle) (.cons (.pop _) (.cons (.push _ restyled.bodyStyle) .nil))

/-- The spans that are open at the start of a line are styled by strokes that differ in the styles only. -/
theorem startStrokes_restyled {grammar other : Grammar} (restyled : grammar.Restyled related other)
    (stack : SpanStack) :
    List.Forall₂ (Stroke.Restyled related) (Walk.startStrokes grammar stack)
      (Walk.startStrokes other stack) := by
  rw [Walk.startStrokes, Walk.startStrokes, List.forall₂_map_left_iff, List.forall₂_map_right_iff]
  refine List.forall₂_same.mpr fun ref _ => .push 0 ?_
  exact rel_bind (restyled.span? ref) fun _ _ spans => spans.bodyStyle

/-- Two delimiters of one kind with one match, whose spans differ in their styles only. -/
inductive Delimiter.Restyled (related : Style → Style → Prop) : Delimiter → Delimiter → Prop where
  | opening (ref : SpanRef) (hit : Hit) {span other : Span} (spans : span.Restyled related other) :
      Restyled related (.opening ref span hit) (.opening ref other hit)
  | closing (hit : Hit) {span other : Span} (spans : span.Restyled related other) :
      Restyled related (.closing span hit) (.closing other hit)

namespace DirectWalk

/-- Two walks that stand at the same place inside of the same spans, whose painters have made strokes that
differ in the styles only. -/
structure Restyled (related : Style → Style → Prop) (text : List Char) (walk partner : DirectWalk) :
    Prop where
  position : walk.position = partner.position
  stack : walk.stack = partner.stack
  openedAt : walk.openedAt = partner.openedAt
  emptyOpenAt : walk.emptyOpenAt = partner.emptyOpenAt
  painter : Option.Rel (Painter.Recolored related text walk.position) walk.painter partner.painter

namespace Restyled

variable {grammar other : Grammar} {walk partner : DirectWalk}

/-- If there are painters at all, such strokes leave them as different as they were. -/
theorem draw {position stop : Nat} {painter partner : Option Painter}
    (recolored : Option.Rel (Painter.Recolored related text position) painter partner)
    {strokes others : List Stroke} (ordered : InOrder text position strokes stop)
    (restyled : List.Forall₂ (Stroke.Restyled related) strokes others) :
    Option.Rel (Painter.Recolored related text stop) (painter.map (·.draw strokes))
      (partner.map (·.draw others)) :=
  rel_map recolored fun _ _ same => same.draw ordered restyled

/-- Walks start at the same place inside of the same spans. -/
theorem start (grammars : grammar.Restyled related other) (stack : SpanStack)
    {painter partner : Option Painter}
    (recolored : Option.Rel (Painter.Recolored related text 0) painter partner) :
    (DirectWalk.start grammar stack painter).Restyled related text
      (DirectWalk.start other stack partner) :=
  ⟨rfl, rfl, rfl, rfl,
    draw recolored (Walk.startStrokes_inOrder grammar stack text) (startStrokes_restyled grammars stack)⟩

section Step

variable (walks : walk.Restyled related text partner) (grammars : grammar.Restyled related other)
include walks

/-- Over one match both walks close the innermost span, or neither may. -/
theorem close {span restyled : Span} (spans : span.Restyled related restyled) {hit : Hit}
    (within : hit.Within text) (there : walk.position = hit.start) :
    Agree (Restyled related text) (walk.close span hit) (partner.close restyled hit) := by
  have strokes := closeStrokes_restyled spans hit.start hit.stop
  rw [DirectWalk.close, DirectWalk.close, ← walks.openedAt, ← walks.position, ← walks.stack, there,
    emptySpanFault_restyled spans]
  split
  · exact .error _
  · have painters := there ▸ walks.painter
    exact .ok ⟨rfl, rfl, rfl, walks.emptyOpenAt,
      draw painters (Walk.closeStrokes_inOrder within span) strokes⟩

/-- Over one match both walks open the span, or neither may. -/
theorem openSpan {span restyled : Span} (spans : span.Restyled related restyled) {hit : Hit}
    (within : hit.Within text) (there : walk.position = hit.start) (ref : SpanRef) :
    Agree (Restyled related text) (walk.openSpan ref span hit) (partner.openSpan ref restyled hit) := by
  have strokes := openStrokes_restyled spans hit.start hit.stop
  rw [DirectWalk.openSpan, DirectWalk.openSpan, ← walks.openedAt, ← walks.position, ← walks.stack,
    ← walks.emptyOpenAt, there, emptySpanFault_restyled spans]
  split
  · exact .error _
  · have painters := there ▸ walks.painter
    exact .ok ⟨rfl, rfl, rfl, rfl,
      draw painters (Walk.openStrokes_inOrder within span) strokes⟩

include grammars

/-- Up to one place both walks style the text, or the same rule fails. -/
theorem advance {stop : Nat} (ahead : walk.position ≤ stop) :
    Agree (fun there across => there.Restyled related text across ∧ there.position = stop)
      (walk.advance grammar text stop) (partner.advance other text stop) := by
  obtain ⟨position, stack, openedAt, emptyOpenAt, painter⟩ := walk
  obtain ⟨_, _, _, _, recolored⟩ := partner
  obtain ⟨rfl, rfl, rfl, rfl, painters⟩ := walks
  dsimp only at ahead painters
  rw [DirectWalk.advance, DirectWalk.advance]
  split
  · exact .ok ⟨⟨rfl, rfl, rfl, rfl, painters⟩, Nat.le_antisymm ahead ‹_›⟩
  · cases painters with
    | none => exact .ok ⟨⟨rfl, rfl, rfl, rfl, .none⟩, rfl⟩
    | some same =>
        have painted := paintFrom_recolored (grammars.active stack).rules
          (Text.takeBytes_prefix stop text) (Text.byteLength_takeBytes_le stop text) ahead same
        exact painted.bind fun _ _ drawn => .ok ⟨⟨rfl, rfl, rfl, rfl, .some drawn⟩, rfl⟩

/-- Both walks come to the same opening first. -/
theorem opening? :
    Option.Rel (fun first second =>
        first.1 = second.1 ∧ Span.Restyled related first.2.1 second.2.1 ∧ first.2.2 = second.2.2)
      (walk.opening? grammar text) (partner.opening? other text) := by
  rw [DirectWalk.opening?, DirectWalk.opening?, ← walks.position, ← walks.stack,
    grammars.activeId walk.stack]
  cases other.activeId walk.stack with
  | none => exact .none
  | some id =>
      have nearest := nearest?_rel (fun _ _ same => Span.Restyled.opening same)
        (grammars.resolve (some id)).spans text walk.position
      refine rel_bind nearest ?_
      rintro ⟨index, span, hit⟩ ⟨_, restyled, _⟩ ⟨rfl, spans, rfl⟩
      exact .some ⟨rfl, spans, rfl⟩

/-- Both walks come to the same closing first. -/
theorem closing? :
    Option.Rel (fun first second => Span.Restyled related first.1 second.1 ∧ first.2 = second.2)
      (walk.closing? grammar text) (partner.closing? other text) := by
  rw [DirectWalk.closing?, DirectWalk.closing?, ← walks.position, ← walks.stack]
  cases walk.stack.top? with
  | none => exact .none
  | some top =>
      refine rel_bind (grammars.span? top) fun span restyled spans => ?_
      rw [spans.closing]
      cases restyled.closing.find? text walk.position with
      | none => exact .none
      | some hit => exact .some ⟨spans, rfl⟩

/-- Both walks take the same delimiter next. -/
theorem delimiter? :
    Option.Rel (Delimiter.Restyled related) (walk.delimiter? grammar text)
      (partner.delimiter? other text) := by
  rw [DirectWalk.delimiter?, DirectWalk.delimiter?]
  rcases rel_cases (walks.opening? grammars) with
    ⟨opens, opensToo⟩ | ⟨⟨ref, span, hit⟩, ⟨_, restyled, _⟩, opens, opensToo, rfl, spans, rfl⟩
  · rcases rel_cases (walks.closing? grammars) with
      ⟨closes, closesToo⟩ | ⟨⟨last, ending⟩, ⟨partner, _⟩, closes, closesToo, lasts, rfl⟩
    · rw [opens, opensToo, closes, closesToo]
      exact .none
    · rw [opens, opensToo, closes, closesToo]
      exact .some (.closing ending lasts)
  · rcases rel_cases (walks.closing? grammars) with
      ⟨closes, closesToo⟩ | ⟨⟨last, ending⟩, ⟨partner, _⟩, closes, closesToo, lasts, rfl⟩
    · rw [opens, opensToo, closes, closesToo]
      exact .some (.opening ref hit spans)
    · rw [opens, opensToo, closes, closesToo]
      dsimp only
      split
      · exact .some (.closing ending lasts)
      · exact .some (.opening ref hit spans)

/-- Having taken it, both are at the same place again, or fail with the same fault. -/
theorem take {delimiter restyled : Delimiter} (delimiters : delimiter.Restyled related restyled)
    (nearest : walk.delimiter? grammar text = some delimiter) :
    Agree (Restyled related text) (walk.take grammar text delimiter)
      (partner.take other text restyled) := by
  rcases of_delimiter? nearest with ⟨ref, span, hit, rfl, found⟩ | ⟨span, hit, rfl, found⟩
  · cases delimiters with
    | opening _ _ spans =>
        obtain ⟨late, within⟩ := within_of_nearest? (of_opening? found).2
        exact (walks.advance grammars late).bind fun _ _ advanced =>
          advanced.1.openSpan spans within advanced.2 ref
  · cases delimiters with
    | closing _ spans =>
        obtain ⟨_, _, _, _, matched⟩ := of_closing? found
        obtain ⟨late, within⟩ := Pattern.find?_within matched
        exact (walks.advance grammars late).bind fun _ _ advanced =>
          advanced.1.close spans within advanced.2

/-- Each step of two such walks leaves two such walks, or both fail with the same fault. -/
theorem step :
    Agree (Option.Rel (Restyled related text)) (walk.step grammar text) (partner.step other text) := by
  rw [DirectWalk.step, DirectWalk.step]
  rcases rel_cases (walks.delimiter? grammars) with
    ⟨absent, absentToo⟩ | ⟨delimiter, restyled, nearest, nearestToo, same⟩
  · rw [absent, absentToo]
    exact .ok .none
  · rw [nearest, nearestToo]
    exact (walks.take grammars same nearest).map fun _ _ taken => .some taken

omit walks

/-- So does a whole run, by induction on its steps. -/
theorem run (walks : walk.Restyled related text partner)
    (inside : walk.position ≤ Text.byteLength text) :
    Agree (fun last across =>
        last.Restyled related text across ∧ last.position ≤ Text.byteLength text)
      (walk.run grammar text) (partner.run other text) := by
  fun_induction DirectWalk.run grammar text walk generalizing partner with
  | case1 walk fault fails =>
      have steps := walks.step grammars
      rw [fails] at steps
      rw [run_eq, steps.eq_error]
      exact .error fault
  | case2 walk ends =>
      have steps := walks.step grammars
      rw [ends] at steps
      obtain ⟨outcome, endsToo, same⟩ := steps.exists_ok
      cases same
      rw [run_eq, endsToo]
      exact .ok ⟨walks, inside⟩
  | case3 walk next stepped ih =>
      have steps := walks.step grammars
      rw [stepped] at steps
      obtain ⟨outcome, steppedToo, same⟩ := steps.exists_ok
      cases same with
      | some following =>
          rw [run_eq other, steppedToo]
          exact ih following (step_cases stepped).1

/-- At the end of a line the walks are inside of the same spans, and their painters show related styles at
each byte. -/
theorem complete (walks : walk.Restyled related text partner)
    (inside : walk.position ≤ Text.byteLength text) :
    Agree (fun last across => last.stack = across.stack ∧
        Option.Rel (fun painter recolored => ∀ offset, List.Forall₂ related
          (Section.stylesAt painter.sections offset) (Section.stylesAt recolored.sections offset))
          last.painter across.painter)
      (walk.complete grammar text) (partner.complete other text) := by
  refine (run grammars walks inside).bind fun last across ended => ?_
  refine (ended.1.advance grammars ended.2).bind fun there beyond advanced => ?_
  obtain ⟨still, reached⟩ := advanced
  refine .ok ⟨still.stack, ?_⟩
  dsimp only
  rw [← still.position, reached]
  refine rel_map still.painter fun _ _ painters => ?_
  rw [reached] at painters
  exact painters.stylesAt

end Step

end Restyled

end DirectWalk

end Scan

namespace Grammar

open Scan

/-- Whether two grammars scan every line alike, inside of whatever spans it starts: the scans fail with the
same fault or end inside of the same spans, and at each byte the sections of the one have as many styles as
those of the other, which are related one by one. -/
structure ScansAlike (related : Style → Style → Prop) (grammar other : Grammar) : Prop where
  scans : ∀ stack text, grammar.scanLine stack text = other.scanLine stack text
  highlights : ∀ stack number offset text,
    Agree (fun (first : StyledLine × SpanStack) second => first.2 = second.2 ∧
        ∀ place, List.Forall₂ related (first.1.stylesAt place) (second.1.stylesAt place))
      (grammar.highlightLine stack number offset text) (other.highlightLine stack number offset text)

/-- Grammars that differ in their styles only scan every line alike. -/
theorem Restyled.scansAlike {related : Style → Style → Prop} {grammar other : Grammar}
    (restyled : grammar.Restyled related other) : grammar.ScansAlike related other where
  scans stack text := by
    have start : (DirectWalk.start grammar stack none).Restyled related text.toList
        (DirectWalk.start other stack none) := .start restyled stack .none
    have ends := start.complete restyled (Nat.zero_le _)
    rw [scanLine_eq_directly, scanLine_eq_directly]
    exact (ends.map fun _ _ same => same.1).eq
  highlights stack number offset text := by
    have start : (DirectWalk.start grammar stack (some { origin := offset })).Restyled related
        text.toList (DirectWalk.start other stack (some { origin := offset })) :=
      .start restyled stack (.some (Painter.recolored_blank related text.toList offset))
    have ends := start.complete restyled (Nat.zero_le _)
    rw [highlightLine_eq_directly, highlightLine_eq_directly]
    refine ends.map fun last across same => ⟨same.1, fun place => ?_⟩
    obtain ⟨_, painters⟩ := same
    dsimp only [StyledLine.stylesAt]
    rcases rel_cases painters with ⟨first, second⟩ | ⟨_, _, first, second, shown⟩
    · rw [first, second]
      exact .nil
    · rw [first, second]
      exact shown place

end Grammar

end Highlight
