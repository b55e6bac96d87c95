import Highlight.Style.Token

/-! # Themes

A theme assigns styles to names. The standard theme holds the default style of every token kind;
entries may be replaced and new names added.
-/

namespace Highlight

/-- Named styles; of several entries with one name the first counts. -/
structure Theme where
  entries : List (String × Style)

namespace Theme

/-- The default styles of the token kinds. -/
def standard : Theme := ⟨TokenKind.all.map fun kind => (kind.name, kind.defaultStyle)⟩

/-- The style with the given name. -/
def get? (theme : Theme) (name : String) : Option Style := theme.entries.lookup name

/-- The theme with `name` assigned to `style`. -/
def set (theme : Theme) (name : String) (style : Style) : Theme :=
  ⟨(name, style) :: theme.entries⟩

/-- The style of a token kind, its default where the theme has no entry for it. -/
def token (theme : Theme) (kind : TokenKind) : Style :=
  (theme.get? kind.name).getD kind.defaultStyle

theorem get?_set (theme : Theme) (name other : String) (style : Style) :
    (theme.set name style).get? other = if other = name then some style else theme.get? other := by
  by_cases same : other = name
  · simp [set, get?, same]
  · simp [set, get?, List.lookup_cons, same, beq_eq_false_iff_ne.mpr same]

end Theme

instance : Inhabited Theme := ⟨Theme.standard⟩

end Highlight
