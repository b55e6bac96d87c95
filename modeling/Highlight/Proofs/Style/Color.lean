import Highlight.Style.Color
import Mathlib.Data.List.Nodup

/-! # Which texts name a color

A name of a color is a name of the palette, spelled with hyphens, underscores and capital letters as one
likes, or a hash sign and three channels (`Highlight.Color.named_iff`). A channel has two hexadecimal
digits, but is read as well where a plus sign stands in place of the first of them.
-/

namespace Highlight

namespace Text

/-- The hexadecimal digits in the order of their values. -/
def hexDigits : List Char := "0123456789abcdef".toList

/-- Whether a character, in either case, is the hexadecimal digit of a value. -/
def IsHexDigit (c : Char) (value : Nat) : Prop := hexDigits.idxOf? c.toLower = some value

instance (c : Char) (value : Nat) : Decidable (IsHexDigit c value) :=
  inferInstanceAs (Decidable (_ = _))

theorem hexDigit?_of_ascii :
    ∀ code < 128, hexDigit? (Char.ofNat code) = hexDigits.idxOf? (Char.ofNat code).toLower := by
  decide +kernel

/-- No character above ASCII is a digit, as it is or in lower case. -/
theorem hexDigit?_of_above {c : Char} (above : 128 ≤ c.toNat) :
    hexDigit? c = none ∧ hexDigits.idxOf? c.toLower = none := by
  have apart : ∀ d : Char, d.toNat < 128 → ¬ c ≤ d := by
    intro d small least
    have ordered : c.toNat ≤ d.toNat := UInt32.le_iff_toNat_le.mp least
    omega
  constructor
  · simp only [hexDigit?, apart '9' (by decide), apart 'f' (by decide), apart 'F' (by decide),
      and_false, ↓reduceIte]
  · have same : c.toLower = c := dif_neg fun letter => apart 'Z' (by decide) letter.2
    rw [same, List.idxOf?_eq_none_iff]
    intro listed
    have small : (hexDigits.all fun d => d.toNat < 128) = true := by decide
    have below := of_decide_eq_true (List.all_eq_true.mp small c listed)
    omega

/-- The digits are read as written. -/
theorem hexDigit?_eq_some_iff {c : Char} {value : Nat} :
    hexDigit? c = some value ↔ IsHexDigit c value := by
  suffices same : hexDigit? c = hexDigits.idxOf? c.toLower by
    rw [same, IsHexDigit]
  by_cases ascii : c.toNat < 128
  · simpa only [Char.ofNat_toNat] using hexDigit?_of_ascii c.toNat ascii
  · obtain ⟨first, second⟩ := hexDigit?_of_above (Nat.le_of_not_lt ascii)
    rw [first, second]

theorem not_isHexDigit_plus (value : Nat) : ¬ IsHexDigit '+' value := by
  have absent : hexDigits.idxOf? '+'.toLower = none := by decide
  rw [IsHexDigit, absent]
  exact nofun

end Text

namespace Color

open Text (IsHexDigit)

/-- Whether two hexadecimal digits write a channel. -/
def IsChannel (high low : Char) (channel : UInt8) : Prop :=
  ∃ first second, IsHexDigit high first ∧ IsHexDigit low second ∧
    channel = UInt8.ofNat (16 * first + second)

/-- Whether a plus sign and a hexadecimal digit write a channel. -/
def IsSigned (high low : Char) (channel : UInt8) : Prop :=
  high = '+' ∧ ∃ value, IsHexDigit low value ∧ channel = UInt8.ofNat value

/-- Whether a text is a hash sign and six characters, in pairs that each write a channel of the color. -/
def IsTriple (writes : Char → Char → UInt8 → Prop) (name : String) (color : Color) : Prop :=
  ∃ r₁ r₀ g₁ g₀ b₁ b₀ red green blue, name.toList = ['#', r₁, r₀, g₁, g₀, b₁, b₀] ∧
    writes r₁ r₀ red ∧ writes g₁ g₀ green ∧ writes b₁ b₀ blue ∧ color = rgb red green blue

/-- Whether a text does not begin with a hash sign and is in the palette under the color, once hyphens and
underscores are dropped from it and its ASCII letters put in lower case. -/
def IsPaletteName (name : String) (color : Color) : Prop :=
  name.toList.head? ≠ some '#' ∧
    (String.ofList ((name.toList.filter fun c => c ≠ '-' ∧ c ≠ '_').map Char.toLower), color) ∈ palette

instance (name : String) (color : Color) : Decidable (IsPaletteName name color) :=
  inferInstanceAs (Decidable (_ ∧ _))

/-- A pair of characters is read as a channel exactly if it is two digits, or a plus sign and one. -/
theorem channel?_eq_some_iff {high low : Char} {channel : UInt8} :
    channel? high low = some channel ↔ IsChannel high low channel ∨ IsSigned high low channel := by
  simp only [channel?, Option.bind_eq_bind, Option.bind_eq_some_iff, IsChannel, IsSigned,
    ← Text.hexDigit?_eq_some_iff]
  by_cases plus : high = '+'
  · have unsigned : Text.hexDigit? '+' = none := by decide
    simp [plus, unsigned, eq_comm]
  · simp only [plus, ↓reduceIte, false_and, or_false, Option.bind_eq_some_iff, Option.pure_def,
      Option.some.injEq]
    constructor
    · rintro ⟨second, last, first, leading, same⟩
      exact ⟨first, second, leading, last, same.symm⟩
    · rintro ⟨first, second, leading, last, same⟩
      exact ⟨second, last, first, leading, same.symm⟩

/-- Where no two entries have the same key, what is found under a key is what is listed under it. -/
theorem lookup_eq_some_iff_mem {α β : Type} [BEq α] [LawfulBEq α] {entries : List (α × β)}
    (distinct : (entries.map Prod.fst).Nodup) {key : α} {value : β} :
    entries.lookup key = some value ↔ (key, value) ∈ entries := by
  induction entries with
  | nil => simp
  | cons entry rest ih =>
      obtain ⟨other, listed⟩ := entry
      obtain ⟨fresh, distinct⟩ := List.nodup_cons.mp distinct
      rw [List.lookup_cons]
      by_cases same : key = other
      · subst same
        have apart : (key, value) ∉ rest := fun member =>
          fresh (List.mem_map.mpr ⟨_, member, rfl⟩)
        simp [apart, eq_comm]
      · simp [beq_eq_false_iff_ne.mpr same, same, ih distinct]

theorem palette_distinct : (palette.map Prod.fst).Nodup := by
  decide +kernel

variable {name : String} {color : Color}

/-- Behind a hash sign only three channels of two digits make a color. -/
theorem ofName?_of_hash {digits : List Char} (hash : name.toList = '#' :: digits) :
    ofName? name = some color ↔
      IsTriple (fun high low channel => channel? high low = some channel) name color := by
  simp only [ofName?, IsTriple, hash, List.cons.injEq, true_and]
  constructor
  · intro read
    split at read
    · rename_i r₁ r₀ g₁ g₀ b₁ b₀
      obtain ⟨red, isRed, read⟩ := Option.bind_eq_some_iff.mp read
      obtain ⟨green, isGreen, read⟩ := Option.bind_eq_some_iff.mp read
      obtain ⟨blue, isBlue, read⟩ := Option.bind_eq_some_iff.mp read
      cases read
      exact ⟨r₁, r₀, g₁, g₀, b₁, b₀, red, green, blue, rfl, isRed, isGreen, isBlue, rfl⟩
    · cases read
  · rintro ⟨r₁, r₀, g₁, g₀, b₁, b₀, red, green, blue, rfl, isRed, isGreen, isBlue, rfl⟩
    simp [isRed, isGreen, isBlue]

/-- The palette spelling of a name, with the characters that are kept said in words of logic. -/
theorem canonicalName_eq (letters : List Char) :
    canonicalName letters =
      String.ofList ((letters.filter fun c => c ≠ '-' ∧ c ≠ '_').map Char.toLower) := by
  have kept : letters.filter (fun c => c != '-' && c != '_') =
      letters.filter fun c => c ≠ '-' ∧ c ≠ '_' := by
    apply List.filter_congr
    intro c _
    by_cases hyphen : c = '-' <;> by_cases low : c = '_' <;> simp [hyphen, low]
  rw [canonicalName, kept]

/-- Without a hash sign a color is found under the palette spelling of the text. -/
theorem ofName?_of_not_hash (plain : name.toList.head? ≠ some '#') :
    ofName? name = some color ↔ IsPaletteName name color := by
  rw [IsPaletteName, ← canonicalName_eq, and_iff_right plain, ofName?,
    ← lookup_eq_some_iff_mem palette_distinct]
  split
  · rename_i hash
    simp [hash] at plain
  · rfl

theorem IsTriple.head? {writes : Char → Char → UInt8 → Prop} (triple : IsTriple writes name color) :
    name.toList.head? = some '#' := by
  obtain ⟨_, _, _, _, _, _, _, _, _, spelled, _⟩ := triple
  rw [spelled]
  rfl

/-- The channels may be read in another way that holds of the same digits. -/
theorem IsTriple.imp {writes other : Char → Char → UInt8 → Prop} (triple : IsTriple writes name color)
    (every : ∀ high ∈ name.toList, ∀ low channel, writes high low channel → other high low channel) :
    IsTriple other name color := by
  obtain ⟨r₁, r₀, g₁, g₀, b₁, b₀, red, green, blue, spelled, isRed, isGreen, isBlue, same⟩ := triple
  rw [spelled] at every
  refine ⟨r₁, r₀, g₁, g₀, b₁, b₀, red, green, blue, spelled, ?_, ?_, ?_, same⟩
  · exact every r₁ (by simp) r₀ red isRed
  · exact every g₁ (by simp) g₀ green isGreen
  · exact every b₁ (by simp) b₀ blue isBlue

/-- A triple without a plus sign has two digits in each channel. -/
theorem IsTriple.unsigned_iff (unsigned : '+' ∉ name.toList) :
    IsTriple (fun high low channel => IsChannel high low channel ∨ IsSigned high low channel) name
      color ↔ IsTriple IsChannel name color := by
  constructor
  · intro triple
    refine triple.imp fun high listed low channel writes => writes.resolve_right fun signed => ?_
    exact unsigned (signed.1 ▸ listed)
  · intro triple
    exact triple.imp fun high listed low channel digits => .inl digits

/-- **Names of colors.** A text that begins with a hash sign names a color exactly if three channels follow,
each of two hexadecimal digits or of a plus sign and one, and then the one with these channels. Any other
text names the color that the palette lists under it, once hyphens and underscores are dropped and ASCII
letters are put in lower case. Without a plus sign, only six hexadecimal digits may follow a hash sign. -/
theorem named_iff (name : String) (color : Color) :
    (ofName? name = some color ↔
      IsTriple (fun high low channel => IsChannel high low channel ∨ IsSigned high low channel) name
          color ∨
        IsPaletteName name color) ∧
      ('+' ∉ name.toList →
        (ofName? name = some color ↔ IsTriple IsChannel name color ∨ IsPaletteName name color)) := by
  suffices named : ofName? name = some color ↔
      IsTriple (fun high low channel => IsChannel high low channel ∨ IsSigned high low channel) name
          color ∨
        IsPaletteName name color by
    refine ⟨named, fun unsigned => ?_⟩
    rw [named, IsTriple.unsigned_iff unsigned]
  simp only [← channel?_eq_some_iff]
  by_cases hash : name.toList.head? = some '#'
  · have hashed : ¬ IsPaletteName name color := fun plain => plain.1 hash
    obtain ⟨digits, spelled⟩ := List.head?_eq_some_iff.mp hash
    rw [ofName?_of_hash spelled, or_iff_left hashed]
  · have plain : ¬ IsTriple (fun high low channel => channel? high low = some channel) name color :=
      fun triple => hash triple.head?
    rw [ofName?_of_not_hash hash, or_iff_right plain]

/-- A triple in both cases, and a name of the palette with a hyphen and capital letters. -/
theorem named_iff_mixed_case :
    ('+' ∉ "#fF8000".toList ∧ ofName? "#fF8000" = some (rgb 255 128 0) ∧
      (IsTriple IsChannel "#fF8000" (rgb 255 128 0) ∨ IsPaletteName "#fF8000" (rgb 255 128 0))) ∧
      '+' ∉ "Bright-Red".toList ∧ IsPaletteName "Bright-Red" brightRed ∧
        ofName? "Bright-Red" = some brightRed := by
  have unsigned : '+' ∉ "#fF8000".toList := by decide
  have named : ofName? "#fF8000" = some (rgb 255 128 0) := by decide
  have plain : '+' ∉ "Bright-Red".toList := by decide
  have listed : IsPaletteName "Bright-Red" brightRed := by decide
  constructor
  · exact ⟨unsigned, named, ((named_iff "#fF8000" (rgb 255 128 0)).2 unsigned).mp named⟩
  · exact ⟨plain, listed, ((named_iff "Bright-Red" brightRed).2 plain).mpr (.inr listed)⟩

/-- After this hash sign six characters name a color that are not all hexadecimal digits. -/
theorem signed_triple_named :
    ofName? "#+f+f+f" = some (rgb 15 15 15) ∧
      ¬ ∀ c ∈ "+f+f+f".toList, ∃ value, IsHexDigit c value := by
  refine ⟨by decide, fun digits => ?_⟩
  obtain ⟨value, isDigit⟩ := digits '+' (by decide)
  exact Text.not_isHexDigit_plus value isDigit

end Color

end Highlight
