import Highlight.Text.Lowercase
import Mathlib.Data.List.Basic

/-! # Words in lower case

The lower-case form of a character above ASCII is a letter of ASCII only for a capital I with a dot and for
the Kelvin sign. So a word of lower-case letters without an i or a k is the lower-case form of just the ASCII
texts that spell it, whatever the case of their letters (`Highlight.Text.lowercase_eq_iff`).
-/

namespace Highlight.Text

/-- Whether a character is a lower-case ASCII letter that is the lower-case form of ASCII letters only. -/
structure IsPlainLetter (letter : Char) : Prop where
  low : 97 ≤ letter.toNat
  high : letter.toNat ≤ 122
  ne_i : letter ≠ 'i'
  ne_k : letter ≠ 'k'

/-- Whether a text spells a word, up to the case of ASCII letters. -/
def Spells (text word : String) : Prop := text.toList.map Char.toLower = word.toList

instance (text word : String) : Decidable (Spells text word) :=
  inferInstanceAs (Decidable (text.toList.map Char.toLower = word.toList))

variable {c letter : Char}

theorem lowerChar_of_ascii (ascii : c.toNat < 128) : lowerChar c = [c.toLower] := by
  have plain : c ≠ 'İ' := by
    rintro rfl
    exact absurd ascii (by decide)
  rw [lowerChar, if_neg plain, smallLetter, if_pos ascii]

theorem toLower_of_not_ascii (wide : 128 ≤ c.toNat) : c.toLower = c := by
  refine dif_neg fun capital => ?_
  have : c.toNat ≤ 90 := capital.2
  omega

/-- The small letters of the listed capitals are above ASCII, but for that of the Kelvin sign. -/
theorem le_of_mem_capitalRuns :
    ∀ run ∈ capitalRuns, 128 ≤ run.2.2.2 ∨ run = (0x212A, 0x212A, 1, 0x6B) := by
  decide +kernel

theorem not_isPlainLetter_of_le (wide : 128 ≤ letter.toNat) : ¬ IsPlainLetter letter :=
  fun plain => by
    have := plain.high
    omega

/-- What a number denotes is no plain letter if the number is above ASCII, or no character at all. -/
theorem not_isPlainLetter_ofNat {code : Nat} (wide : 128 ≤ code) : ¬ IsPlainLetter (Char.ofNat code) := by
  by_cases valid : code.isValidChar
  · apply not_isPlainLetter_of_le
    rw [Char.ofNat, dif_pos valid]
    exact wide
  · intro plain
    have := plain.low
    rw [Char.ofNat, dif_neg valid] at this
    exact absurd this (by decide)

/-- The lower case of a character beyond the plain ones does not begin with a plain letter. -/
theorem exists_lowerChar (wide : 128 ≤ c.toNat) :
    ∃ letter rest, lowerChar c = letter :: rest ∧ ¬ IsPlainLetter letter := by
  by_cases dotted : c = 'İ'
  · exact ⟨'i', _, if_pos dotted, fun plain => plain.ne_i rfl⟩
  · refine ⟨smallLetter c, [], if_neg dotted, ?_⟩
    rw [smallLetter, if_neg (Nat.not_lt_of_le wide)]
    split
    · rename_i run found
      rcases le_of_mem_capitalRuns run (List.mem_of_find?_eq_some found) with high | kelvin
      · exact not_isPlainLetter_ofNat (by omega)
      · have within := List.find?_some found
        subst kelvin
        have exactly : c.toNat = 0x212A := by
          simp only [Bool.and_eq_true, decide_eq_true_eq] at within
          omega
        rw [exactly]
        exact fun plain => plain.ne_k rfl
    · exact not_isPlainLetter_of_le wide

/-- Before a word of plain letters can stand only letters of ASCII. -/
theorem lowerAfter_eq_iff {text word : List Char} (plain : ∀ letter ∈ word, IsPlainLetter letter)
    (before : List Char) : lowerAfter before text = word ↔ text.map Char.toLower = word := by
  induction text generalizing before word with
  | nil => simp [lowerAfter]
  | cons c rest ih =>
      by_cases ascii : c.toNat < 128
      · have small : c ≠ 'Σ' := by
          rintro rfl
          exact absurd ascii (by decide)
        rw [lowerAfter, if_neg small, lowerChar_of_ascii ascii, List.singleton_append, List.map_cons]
        cases word with
        | nil => simp
        | cons letter word => simp [ih (List.forall_mem_cons.mp plain).2]
      · have wide : 128 ≤ c.toNat := by omega
        obtain ⟨letter, more, form, other⟩ : ∃ letter more,
            lowerAfter before (c :: rest) = letter :: more ∧ ¬ IsPlainLetter letter := by
          rw [lowerAfter]
          by_cases sigma : c = 'Σ'
          · rw [if_pos sigma]
            split
            · exact ⟨'ς', _, rfl, not_isPlainLetter_of_le (by decide)⟩
            · exact ⟨'σ', _, rfl, not_isPlainLetter_of_le (by decide)⟩
          · obtain ⟨letter, more, form, other⟩ := exists_lowerChar wide
            exact ⟨letter, more ++ _, by rw [if_neg sigma, form, List.cons_append], other⟩
        rw [form, List.map_cons, toLower_of_not_ascii wide]
        constructor
        · rintro rfl
          exact absurd (plain letter List.mem_cons_self) other
        · rintro rfl
          exact absurd (plain c List.mem_cons_self) (not_isPlainLetter_of_le wide)

/-- **Words in lower case.** A text has a word of plain letters as its lower-case form if and only if it
spells the word, up to the case of ASCII letters. -/
theorem lowercase_eq_iff {text word : String} (plain : ∀ letter ∈ word.toList, IsPlainLetter letter) :
    lowercase text = word ↔ Spells text word := by
  rw [lowercase, Spells, ← lowerAfter_eq_iff plain [], ← String.toList_inj, String.toList_ofList]

end Highlight.Text
