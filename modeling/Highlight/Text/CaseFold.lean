import Highlight.Text.Lowercase

/-! # Letters in any case

Which characters a search that does not look at letter case takes for one another: those with the same simple
case fold in version 15 of the Unicode standard. Besides a small letter and its capitals these are a few
further small letters, such as the final sigma.
-/

namespace Highlight.Text

/-- Small letters that are taken for another one, with that one. -/
def smallVariants : List (Char × Char) :=
  [('\u00B5', '\u03BC'), ('\u017F', 's'), ('\u0345', '\u03B9'), ('\u03C2', '\u03C3'),
    ('\u03D0', '\u03B2'), ('\u03D1', '\u03B8'), ('\u03D5', '\u03C6'), ('\u03D6', '\u03C0'),
    ('\u03F0', '\u03BA'), ('\u03F1', '\u03C1'), ('\u03F5', '\u03B5'), ('\u1C80', '\u0432'),
    ('\u1C81', '\u0434'), ('\u1C82', '\u043E'), ('\u1C83', '\u0441'), ('\u1C84', '\u0442'),
    ('\u1C85', '\u0442'), ('\u1C86', '\u044A'), ('\u1C87', '\u0463'), ('\u1C88', '\uA64B'),
    ('\u1E9B', '\u1E61'), ('\u1FBE', '\u03B9')]

/-- The small letter that a letter is taken for; any other character is unchanged. -/
def caseFold (c : Char) : Char := (smallVariants.lookup (smallLetter c)).getD (smallLetter c)

/-- The capitals of a small letter. -/
def capitals (small : Char) : List Char :=
  (if small.isLower then [small.toUpper] else []) ++
    capitalRuns.filterMap fun (first, last, step, form) =>
      let distance := small.toNat - form
      if form ≤ small.toNat && distance ≤ last - first && distance % step == 0 then
        some (Char.ofNat (first + distance))
      else none

/-- All characters that are taken for the same one as `c`. -/
def caseForms (c : Char) : List Char :=
  let folded := caseFold c
  folded :: capitals folded ++ (smallVariants.filter (·.2 == folded)).map Prod.fst

end Highlight.Text
