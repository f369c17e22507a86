import ComponentHoist.Proofs.Canonical
import ComponentHoist.Proofs.RepeatedDecorator

/-!
# ComponentHoist.Proofs.ElementName — tags and the names that the HTML standard allows

A tag names a custom element, so it should be what the HTML standard calls a valid custom element name.  The rules on
tags ask for all of that but one thing: the standard wants a letter in front, and the rules only refuse a dash there.

* `Tag.IsElementName`: a valid custom element name, as the standard has it.
* `Tag.isValid_iff`: what a tag is like that breaks no rule.
* `Tag.IsValid.hasElementNameForm`, `Tag.IsValid.isElementName_iff`: such a tag is a valid name up to its first
  character, which must be neither a digit nor an underscore.
* `Tag.elementName_of_accepted`: the same for all tags that are let through, those of components included.
-/

namespace ComponentHoist
namespace Tag

/-! ### Valid custom element names -/

/-- Ranges of characters beyond ASCII that names can have. -/
def nameCharRanges : List (Nat × Nat) :=
  [(0xb7, 0xb7), (0xc0, 0xd6), (0xd8, 0xf6), (0xf8, 0x37d), (0x37f, 0x1fff), (0x200c, 0x200d), (0x203f, 0x2040),
    (0x2070, 0x218f), (0x2c00, 0x2fef), (0x3001, 0xd7ff), (0xf900, 0xfdcf), (0xfdf0, 0xfffd), (0x10000, 0xeffff)]

/-- The characters of names: the standard's production `PCENChar`. -/
def isElementNameChar (c : Char) : Bool :=
  c == '-' || c == '.' || c.isDigit || c == '_' || c.isLower ||
    nameCharRanges.any fun (first, last) => first ≤ c.toNat && c.toNat ≤ last

/-- Names with a hyphen that elements of other specifications have. -/
def reservedElementNames : List String :=
  ["annotation-xml", "color-profile", "font-face", "font-face-format", "font-face-name", "font-face-src",
    "font-face-uri", "missing-glyph"]

/-- What the standard asks of a name, apart from its first character. -/
structure HasElementNameForm (name : String) : Prop where
  hyphen : '-' ∈ name.toList
  noCapital : ∀ c ∈ name.toList, c.isUpper = false
  nameChars : ∀ c ∈ name.toList, isElementNameChar c = true
  notReserved : name ∉ reservedElementNames

/-- Whether the standard allows the name for a custom element. -/
structure IsElementName (name : String) : Prop extends HasElementNameForm name where
  letterFirst : ∃ c rest, name.toList = c :: rest ∧ c.isLower = true

/-! ### Tags that break no rule -/

theorem refused_eq_none_iff {p : Prop} [Decidable p] {violation : Violation} {later : Option Violation} :
    (if p then some violation else later) = none ↔ ¬p ∧ later = none := by
  by_cases broken : p <;> simp [broken]

/-- A tag breaks no rule if it keeps to each of them, whatever their order. -/
theorem isValid_iff (tag : String) :
    IsValid tag ↔
      Text.trim tag = tag ∧ Text.isLowerCase tag = true ∧ tag.toList ≠ [] ∧ ' ' ∉ tag.toList ∧ ',' ∉ tag.toList ∧
        (∀ c ∈ tag.toList, isTagChar c = true) ∧ '-' ∈ tag.toList ∧ hasDoubleDash tag.toList = false ∧
        tag.toList.head? ≠ some '-' ∧ tag.toList.getLast? ≠ some '-' ∧ tag ∉ reservedNames := by
  unfold IsValid firstViolation
  simp only [refused_eq_none_iff]
  simp

/-! ### Characters of tags -/

theorem isUpper_iff {c : Char} : c.isUpper = true ↔ 0x41 ≤ c.toNat ∧ c.toNat ≤ 0x5a := by
  show decide (c.val ≥ 65 ∧ c.val ≤ 90) = true ↔ _
  simp [UInt32.le_iff_toNat_le, ← Char.toNat_val]

theorem isLower_iff {c : Char} : c.isLower = true ↔ 0x61 ≤ c.toNat ∧ c.toNat ≤ 0x7a := by
  show (decide (c.val ≥ 97) && decide (c.val ≤ 122)) = true ↔ _
  simp [UInt32.le_iff_toNat_le, ← Char.toNat_val]

/-- Lower-casing changes capital letters. -/
theorem isUpper_of_isLowered {c : Char} (kept : Text.isLowered c = false) : c.isUpper = false := by
  refine Bool.eq_false_iff.mpr fun upper => ?_
  have listed : (0x41, 0x5a) ∈ Text.loweredRanges := List.mem_cons_self
  have lowered : Text.isLowered c = true := by
    rw [Text.isLowered, Bool.or_eq_true, List.any_eq_true]
    exact .inl ⟨_, listed, by simpa using isUpper_iff.mp upper⟩
  rw [lowered] at kept
  cases kept

/-- A lower-case letter is no digit and not the underscore. -/
theorem isDigit_eq_false_of_isLower {c : Char} (lower : c.isLower = true) : c.isDigit = false ∧ c ≠ '_' := by
  refine ⟨Bool.eq_false_iff.mpr fun digit => ?_, ?_⟩
  · have letters : 0x61 ≤ c.toNat := (isLower_iff.mp lower).1
    have digits : c.toNat ≤ 0x39 := (Char.isDigit_iff_toNat.mp digit).2
    omega
  · rintro rfl
    cases lower

section Valid

variable {tag : String} {c : Char}

/-- The characters of a tag that breaks no rule are lower-case letters, digits, underscores and dashes. -/
theorem IsValid.char_cases (valid : IsValid tag) (h : c ∈ tag.toList) :
    c.isUpper = false ∧ (c.isLower = true ∨ c.isDigit = true ∨ c = '_' ∨ c = '-') := by
  obtain ⟨-, lowerCase, -, -, -, allowed, -⟩ := (isValid_iff tag).mp valid
  have kept : Text.isLowered c = false := by
    rw [Text.isLowerCase, Bool.not_eq_true', List.any_eq_false] at lowerCase
    simpa using lowerCase c h
  have noCapital : c.isUpper = false := isUpper_of_isLowered kept
  have kind : ((c.isUpper || c.isLower) || c.isDigit || c == '_' || c == '-') = true := allowed c h
  refine ⟨noCapital, ?_⟩
  simpa [noCapital, or_assoc] using kind

theorem IsValid.hasElementNameForm (valid : IsValid tag) : HasElementNameForm tag where
  hyphen := by
    obtain ⟨-, -, -, -, -, -, dash, -⟩ := (isValid_iff tag).mp valid
    exact dash
  noCapital _ h := (valid.char_cases h).1
  nameChars c h := by
    rcases (valid.char_cases h).2 with lower | digit | rfl | rfl
    · simp [isElementNameChar, lower]
    · simp [isElementNameChar, digit]
    · rfl
    · rfl
  notReserved := by
    obtain ⟨-, -, -, -, -, -, -, -, -, -, free⟩ := (isValid_iff tag).mp valid
    exact fun reserved => free ((List.Perm.mem_iff (by decide)).mp reserved)

/-- A tag that breaks no rule is a valid custom element name unless it begins with a digit or an underscore. -/
theorem IsValid.isElementName_iff (valid : IsValid tag) :
    IsElementName tag ↔ ∀ c, tag.toList.head? = some c → c.isDigit = false ∧ c ≠ '_' := by
  constructor
  · rintro ⟨-, first, rest, begins, lower⟩ c head
    obtain rfl : first = c := by simpa [begins] using head
    exact isDigit_eq_false_of_isLower lower
  · intro free
    obtain ⟨-, -, nonempty, -, -, -, -, -, noDash, -⟩ := (isValid_iff tag).mp valid
    obtain ⟨c, rest, begins⟩ := List.exists_cons_of_ne_nil nonempty
    have head : tag.toList.head? = some c := by rw [begins, List.head?_cons]
    obtain ⟨noDigit, noUnderscore⟩ := free c head
    have letter : c.isLower = true := by
      rcases (valid.char_cases (List.mem_of_mem_head? head)).2 with lower | digit | rfl | rfl
      · exact lower
      · rw [digit] at noDigit
        cases noDigit
      · exact absurd rfl noUnderscore
      · exact absurd head noDash
    exact ⟨valid.hasElementNameForm, c, rest, begins, letter⟩

end Valid

end Tag

/-! ### Tags of components -/

/-- The tag of a component breaks no rule. -/
theorem Program.isValid_tag_of_mem_components {config : Config} {path source : String} {p : Program}
    {declaration : Declaration} (h : declaration ∈ (p.output config path source).components) :
    Tag.IsValid declaration.tag := by
  rw [components_output] at h
  obtain ⟨cls, -, hoisted⟩ := List.mem_filterMap.mp h
  obtain ⟨decorator, options, index, -, -, rfl, met⟩ := Class.exists_options_of_hoisted? hoisted
  have canonical : (Declaration.ofOptions cls.head.name options).Canonical options :=
    Declaration.canonical_ofOptions cls.head.name (met .encapsulation) (met .tagMissing) (met .tagInvalid)
  exact canonical.tag_valid

/-- Whether the tag is let through: it breaks no rule, or some component in some output has it. -/
def Tag.IsAccepted (tag : String) : Prop :=
  IsValid tag ∨
    ∃ config path source, ∃ p : Program, ∃ declaration ∈ (p.output config path source).components, declaration.tag = tag

/-- A tag that is let through is what the HTML standard asks of a custom element name, up to its first character.  It is
a valid name if and only if that is neither a digit nor an underscore. -/
theorem Tag.elementName_of_accepted (tag : String) (accepted : IsAccepted tag) :
    HasElementNameForm tag ∧
      (IsElementName tag ↔ ∀ c, tag.toList.head? = some c → c.isDigit = false ∧ c ≠ '_') := by
  have valid : IsValid tag := by
    rcases accepted with valid | ⟨config, path, source, p, declaration, collected, rfl⟩
    · exact valid
    · exact Program.isValid_tag_of_mem_components collected
  exact ⟨valid.hasElementNameForm, valid.isElementName_iff⟩

/-- A class whose tag begins with a digit. -/
def numberedClass : Class :=
  decoratedClass 37 [⟨⟨0, 26⟩, .call ⟨1, 26⟩ (.ident ⟨1, 10⟩ "Component") []
    [.object ⟨11, 25⟩ [.property ⟨13, 23⟩ (.label (.bare "tag")) .plain (.string ⟨18, 23⟩ "1-a")]]⟩]

/-- What it is declared as. -/
def numberedDeclaration : Declaration :=
  Declaration.ofOptions (some "A") { tag := some ⟨"1-a", ⟨18, 23⟩⟩ }

theorem Program.components_numberedClass :
    (numberedClass.toModule.output {} "a.tsx" "").components = [numberedDeclaration] := by
  have visited : numberedClass.toModule.visited {} = [numberedClass] := visited_of_outer rfl rfl
  rw [components_output, visited]
  decide

/-- A letter in front makes a valid name, whatever stands behind it.  The tag of the component only lacks that. -/
theorem Tag.elementName_of_accepted_numberedClass :
    (IsAccepted "x-1_b" ∧ IsElementName "x-1_b") ∧
      IsAccepted numberedDeclaration.tag ∧ HasElementNameForm numberedDeclaration.tag := by
  have lettered : IsAccepted "x-1_b" := .inl (by decide)
  have numbered : IsAccepted numberedDeclaration.tag :=
    .inr ⟨{}, "a.tsx", "", numberedClass.toModule, numberedDeclaration, by simp [Program.components_numberedClass], rfl⟩
  refine ⟨⟨lettered, (elementName_of_accepted "x-1_b" lettered).2.mpr fun c head => ?_⟩, numbered,
    (elementName_of_accepted _ numbered).1⟩
  obtain rfl : 'x' = c := Option.some.inj head
  decide

/-- The tag breaks no rule and the component is declared with it, although it is no valid custom element name. -/
theorem Tag.numberedTag_accepted :
    IsValid "1-a" ∧ ¬IsElementName "1-a" ∧
      ∃ declaration ∈ (numberedClass.toModule.output {} "a.tsx" "").components, declaration.tag = "1-a" := by
  refine ⟨by decide, ?_, numberedDeclaration, by simp [Program.components_numberedClass], by decide⟩
  rintro ⟨-, first, rest, begins, lower⟩
  obtain rfl : '1' = first := (List.cons.inj begins).1
  cases lower

end ComponentHoist
