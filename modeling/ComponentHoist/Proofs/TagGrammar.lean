import ComponentHoist.Proofs.ElementName

/-!
# ComponentHoist.Proofs.TagGrammar — the language of tags

The rules on tags are tried one after the other, and those on white space and on case speak of all of Unicode.  What
they let through together is a small language all the same, over an alphabet of 38 ASCII characters.

* `Tag.InGrammar`: the language, without the rules.
* `Tag.isTagChar_eq`, `Tag.isLowered_eq_isUpper`: the rule on characters lets capital letters pass and the rule on case
  refuses them, so that no character falls between the two.
* `Tag.InGrammar.trim_eq_self`, `Tag.InGrammar.isLowerCase`: the rules on all of Unicode refuse nothing else.
* `Tag.isValid_iff_inGrammar`, `Tag.firstViolation_eq_invalidChars_iff`: the two outcomes that speak of characters.
* `Tag.firstViolation_grammar`: a tag breaks no rule if and only if it is in the language, and one that fails by its
  characters alone is told exactly the characters outside of the alphabet.
-/

namespace ComponentHoist
namespace Tag

/-! ### The language -/

/-- The alphabet of tags: lower-case letters, digits, the underscore and the dash. -/
def isGrammarChar (c : Char) : Bool :=
  c.isLower || c.isDigit || c == '_' || c == '-'

/-- The language of tags. -/
structure InGrammar (tag : String) : Prop where
  chars : ∀ c ∈ tag.toList, isGrammarChar c = true
  dash : '-' ∈ tag.toList
  dashesApart : ¬['-', '-'] <:+: tag.toList
  noDashFirst : ¬['-'] <+: tag.toList
  noDashLast : ¬['-'] <:+ tag.toList
  notReserved : tag ∉ reservedNames

/-- The characters of the tag outside of the alphabet, in their order. -/
def strayChars (tag : String) : List Char :=
  tag.toList.filter fun c => !isGrammarChar c

/-! ### The alphabet among all characters -/

section Characters

variable {c : Char}

/-- A fact about all ASCII characters is checked one by one. -/
theorem forall_of_ascii {P : Char → Prop} (each : ∀ n < 128, P (Char.ofNat n)) (ascii : c.toNat < 128) : P c := by
  have checked : P (Char.ofNat c.toNat) := each c.toNat ascii
  rwa [Char.ofNat_toNat] at checked

/-- Besides the alphabet, the rule on characters lets capital letters pass. -/
theorem isTagChar_eq (c : Char) : isTagChar c = (c.isUpper || isGrammarChar c) := by
  have letters : c.isAlphanum = (c.isUpper || c.isLower || c.isDigit) := rfl
  simp [isTagChar, isGrammarChar, letters, Bool.or_assoc]

theorem isTagChar_of_not_isUpper (small : c.isUpper = false) : isTagChar c = isGrammarChar c := by
  rw [isTagChar_eq, small, Bool.false_or]

theorem toNat_lt_of_isGrammarChar (h : isGrammarChar c = true) : c.toNat < 128 := by
  simp only [isGrammarChar, Bool.or_eq_true, beq_iff_eq] at h
  rcases h with ((lower | digit) | rfl) | rfl
  · exact Nat.lt_of_le_of_lt (isLower_iff.mp lower).2 (by decide)
  · exact Nat.lt_of_le_of_lt (Char.isDigit_iff_toNat.mp digit).2 (by decide)
  · decide
  · decide

/-- Of the ASCII characters, lower-casing changes the capital letters and no others. -/
theorem isLowered_eq_isUpper (ascii : c.toNat < 128) : Text.isLowered c = c.isUpper :=
  forall_of_ascii (P := fun c => Text.isLowered c = c.isUpper) (by decide +kernel) ascii

theorem not_isUpper_of_isGrammarChar (h : isGrammarChar c = true) : c.isUpper = false :=
  forall_of_ascii (P := fun c => isGrammarChar c = true → c.isUpper = false) (by decide +kernel)
    (toNat_lt_of_isGrammarChar h) h

theorem not_isSpace_of_isGrammarChar (h : isGrammarChar c = true) : Text.isSpace c = false :=
  forall_of_ascii (P := fun c => isGrammarChar c = true → Text.isSpace c = false) (by decide +kernel)
    (toNat_lt_of_isGrammarChar h) h

theorem not_isLowered_of_isGrammarChar (h : isGrammarChar c = true) : Text.isLowered c = false := by
  rw [isLowered_eq_isUpper (toNat_lt_of_isGrammarChar h), not_isUpper_of_isGrammarChar h]

end Characters

/-! ### The rules on all of Unicode -/

theorem isLowerCase_iff {s : String} : Text.isLowerCase s = true ↔ ∀ c ∈ s.toList, Text.isLowered c = false := by
  rw [Text.isLowerCase, Bool.not_eq_true', List.any_eq_false]
  simp

/-- A list without white space is left as it is. -/
theorem trimChars_eq_self {cs : List Char} (solid : ∀ c ∈ cs, Text.isSpace c = false) : Text.trimChars cs = cs := by
  have front {cs : List Char} (solid : ∀ c ∈ cs, Text.isSpace c = false) : cs.dropWhile Text.isSpace = cs := by
    rw [List.dropWhile_eq_self_iff]
    intro long
    rw [solid _ (List.getElem_mem long)]
    exact Bool.false_ne_true
  have back : ∀ c ∈ cs.reverse, Text.isSpace c = false := fun c mem => solid c (List.mem_reverse.mp mem)
  rw [Text.trimChars, front solid, front back, List.reverse_reverse]

namespace InGrammar

variable {tag : String}

theorem trim_eq_self (h : InGrammar tag) : Text.trim tag = tag :=
  (Text.trim_eq_self_iff tag).mpr (trimChars_eq_self fun c mem => not_isSpace_of_isGrammarChar (h.chars c mem))

theorem isLowerCase (h : InGrammar tag) : Text.isLowerCase tag = true :=
  isLowerCase_iff.mpr fun c mem => not_isLowered_of_isGrammarChar (h.chars c mem)

theorem not_mem_of_stray (h : InGrammar tag) {c : Char} (stray : isGrammarChar c = false) : c ∉ tag.toList := by
  intro mem
  rw [h.chars c mem] at stray
  cases stray

end InGrammar

/-- In a lower-case text the rule on characters asks for the alphabet. -/
theorem isTagChar_of_mem {tag : String} (lowerCase : Text.isLowerCase tag = true) {c : Char} (mem : c ∈ tag.toList) :
    isTagChar c = isGrammarChar c :=
  isTagChar_of_not_isUpper (isUpper_of_isLowered (isLowerCase_iff.mp lowerCase c mem))

/-! ### The rules on dashes -/

theorem hasDoubleDash_iff (cs : List Char) : hasDoubleDash cs = true ↔ ['-', '-'] <:+: cs := by
  induction cs with
  | nil => simp [hasDoubleDash]
  | cons a rest ih =>
    rw [List.infix_cons_iff, ← ih]
    cases rest with
    | nil => simp [hasDoubleDash]
    | cons b rest =>
      have front : ['-', '-'] <+: a :: b :: rest ↔ a = '-' ∧ b = '-' := by
        rw [List.cons_prefix_cons, List.cons_prefix_cons, eq_comm, and_iff_left List.nil_prefix, @eq_comm _ '-' b]
      rw [hasDoubleDash, Bool.or_eq_true, Bool.and_eq_true, beq_iff_eq, beq_iff_eq, front]

theorem head?_eq_dash_iff (cs : List Char) : cs.head? = some '-' ↔ ['-'] <+: cs := by
  cases cs with
  | nil => simp
  | cons c rest => simp [eq_comm]

theorem getLast?_eq_dash_iff (cs : List Char) : cs.getLast? = some '-' ↔ ['-'] <:+ cs := by
  rw [← List.head?_reverse, head?_eq_dash_iff, ← List.reverse_suffix, List.reverse_reverse, List.reverse_singleton]

/-! ### All rules together -/

/-- A tag breaks no rule if and only if it is in the language. -/
theorem isValid_iff_inGrammar (tag : String) : IsValid tag ↔ InGrammar tag := by
  rw [isValid_iff, ← Bool.not_eq_true, hasDoubleDash_iff, ne_eq, ne_eq, ne_eq, head?_eq_dash_iff, getLast?_eq_dash_iff]
  constructor
  · rintro ⟨-, lowerCase, -, -, -, allowed, dash, apart, first, last, free⟩
    exact ⟨fun c mem => isTagChar_of_mem lowerCase mem ▸ allowed c mem, dash, apart, first, last, free⟩
  · intro h
    refine ⟨h.trim_eq_self, h.isLowerCase, List.ne_nil_of_mem h.dash, h.not_mem_of_stray rfl, h.not_mem_of_stray rfl,
      fun c mem => ?_, h.dash, h.dashesApart, h.noDashFirst, h.noDashLast, h.notReserved⟩
    rw [isTagChar_of_mem h.isLowerCase mem]
    exact h.chars c mem

theorem refused_eq_some_iff {p : Prop} [Decidable p] {violation found : Violation} {later : Option Violation} :
    (if p then some violation else later) = some found ↔ p ∧ violation = found ∨ ¬p ∧ later = some found := by
  by_cases broken : p <;> simp [broken]

/-- The rule on characters is the first one to be broken if all rules before it are kept. -/
theorem firstViolation_eq_invalidChars (tag : String) (chars : List Char) :
    firstViolation tag = some (.invalidChars chars) ↔
      Text.trim tag = tag ∧ Text.isLowerCase tag = true ∧ tag.toList ≠ [] ∧ ' ' ∉ tag.toList ∧ ',' ∉ tag.toList ∧
        (tag.toList.filter fun c => !isTagChar c) ≠ [] ∧ (tag.toList.filter fun c => !isTagChar c) = chars := by
  unfold firstViolation
  simp only [refused_eq_some_iff]
  simp

/-- Characters are complained about if some are outside of the alphabet, and if neither white space at the ends nor case
nor a space or a comma has been noticed before. -/
theorem firstViolation_eq_invalidChars_iff (tag : String) (chars : List Char) :
    firstViolation tag = some (.invalidChars chars) ↔
      (Text.trim tag = tag ∧ Text.isLowerCase tag = true ∧ ' ' ∉ tag.toList ∧ ',' ∉ tag.toList) ∧
        chars ≠ [] ∧ chars = strayChars tag := by
  have stray (lowerCase : Text.isLowerCase tag = true) : (tag.toList.filter fun c => !isTagChar c) = strayChars tag :=
    List.filter_congr fun c mem => by rw [isTagChar_of_mem lowerCase mem]
  rw [firstViolation_eq_invalidChars]
  constructor
  · rintro ⟨trimmed, lowerCase, -, noSpace, noComma, some, rfl⟩
    exact ⟨⟨trimmed, lowerCase, noSpace, noComma⟩, some, stray lowerCase⟩
  · rintro ⟨⟨trimmed, lowerCase, noSpace, noComma⟩, some, rfl⟩
    have nonempty : tag.toList ≠ [] := fun empty => some (by rw [strayChars, empty, List.filter_nil])
    exact ⟨trimmed, lowerCase, nonempty, noSpace, noComma, by rwa [stray lowerCase], stray lowerCase⟩

/-- A tag breaks no rule if and only if it is in the language.  A tag that fails by its characters alone, being trimmed,
lower-case and without spaces and commas, is told exactly those outside of the alphabet, in their order. -/
theorem firstViolation_grammar (tag : String) :
    (firstViolation tag = none ↔ InGrammar tag) ∧
      (∀ chars, firstViolation tag = some (.invalidChars chars) ↔
        (Text.trim tag = tag ∧ Text.isLowerCase tag = true ∧ ' ' ∉ tag.toList ∧ ',' ∉ tag.toList) ∧
          chars ≠ [] ∧ chars = strayChars tag) ∧
      ∀ chars, (Violation.invalidChars chars).message tag =
        "\"" ++ tag ++ "\" tag contains invalid characters: " ++ String.ofList chars :=
  ⟨isValid_iff_inGrammar tag, firstViolation_eq_invalidChars_iff tag, fun _ => rfl⟩

/-- Letters beyond ASCII and characters that are no letters are complained about alike. -/
example : firstViolation "x-ñ.b" = some (.invalidChars ['ñ', '.']) := by decide

end Tag
end ComponentHoist
