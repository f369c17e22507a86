import ComponentHoist.Proofs.Tokens
import Mathlib.Data.List.DropRight

/-!
# ComponentHoist.Proofs.SkippedValue — values are passed over

Whatever value stands in a text, `Json.skip` stops right behind it: at any depth, with any white space, whether or not
keys repeat and surrogates come in pairs.

* `Json.IsPadded.quoted`, `Json.IsMember.colon`: where a name and its colon stand in the text of a member.
* `Json.Skips`: a value is passed over by any reader with enough fuel.
* `Json.skipElements_listed`, `Json.skipMembers_listed`: the elements of an array and the members of an object, by
  induction on the list.
* `Json.skipValue_array`, `Json.skipValue_object`: what stands behind an opening bracket decides how it goes on.
* `Json.IsValue.skips`: any value, by induction on the value.
* `Json.IsPadded.skip`: the same for the reader of the whole, with white space around the value.
-/

namespace ComponentHoist
namespace Json

variable {c mark : Char} {cs inner space rest : List Char} {fuel : Nat}

/-! ### White space and marks -/

theorem isSpace_of_isDigit (digit : c.isDigit = true) : isSpace c = false := by
  by_contra blank
  simp only [isSpace, Bool.not_eq_false, Bool.or_eq_true, beq_iff_eq] at blank
  rcases blank with ((rfl | rfl) | rfl) | rfl <;> cases digit

/-- The marks that stand behind a value. -/
def IsEnd (mark : Char) : Prop :=
  mark = ',' ∨ mark = ']' ∨ mark = '\x7d'

theorem IsEnd.isSpace (ends : IsEnd mark) : Json.isSpace mark = false := by
  rcases ends with rfl | rfl | rfl <;> rfl

/-- What stands behind a value does not go on with a number. -/
theorem IsEnd.endsNumber (blank : IsBlank space) (ends : IsEnd mark) (rest : List Char) :
    EndsNumber (space ++ mark :: rest) := by
  have front : ∀ c ∈ (space ++ mark :: rest).head?, Json.isSpace c = true ∨ IsEnd c := by
    intro c front
    cases space with
    | nil =>
      cases front
      exact .inr ends
    | cons d space =>
      cases front
      exact .inl (blank _ List.mem_cons_self)
  have other : ∀ c, Json.isSpace c = true ∨ IsEnd c → c.isDigit = false ∧ c ≠ '.' ∧ c ≠ 'e' ∧ c ≠ 'E' := by
    intro c cases
    simp only [Json.isSpace, Bool.or_eq_true, beq_iff_eq, IsEnd] at cases
    rcases cases with (((rfl | rfl) | rfl) | rfl) | rfl | rfl | rfl <;> decide
  exact
    { noDigit := fun c mem => (other c (front c mem)).1
      noPoint := fun mem => (other '.' (front '.' mem)).2.1 rfl
      noMark := fun c mem => not_or.mpr (other c (front c mem)).2.2 }

/-- White space is dropped up to the first mark behind it. -/
theorem dropSpace_blank (blank : IsBlank space) (visible : isSpace c = false) (rest : List Char) :
    dropSpace (space ++ c :: rest) = c :: rest := by
  rw [dropSpace_append blank, dropSpace_cons visible]

theorem dropSpace_dropSpace (cs : List Char) : dropSpace (dropSpace cs) = dropSpace cs :=
  List.dropWhile_idempotent isSpace cs

/-! ### Where things stand -/

/-- Behind white space a quoted name begins, and behind it is more white space. -/
theorem IsPadded.quoted {quoted : List Char} {units : List Nat} (padded : IsPadded quoted cs)
    (isQuoted : IsQuoted units quoted) (rest : List Char) : ∃ body behind, Spells body units ∧
      dropSpace (cs ++ rest) = '"' :: (body ++ '"' :: behind) ∧ dropSpace behind = dropSpace rest := by
  obtain ⟨before, after, blankBefore, blankAfter, rfl⟩ := padded
  obtain ⟨body, spells, rfl⟩ := isQuoted
  refine ⟨body, after ++ rest, spells, ?_, dropSpace_append blankAfter rest⟩
  have written : before ++ ('"' :: (body ++ ['"']) ++ after) ++ rest =
      before ++ '"' :: (body ++ '"' :: (after ++ rest)) := by simp
  rw [written, dropSpace_blank blankBefore rfl]

/-- A member is a name, a colon and a value. -/
theorem IsMember.colon {member : List Nat × List Char} (isMember : IsMember member cs) (rest : List Char) :
    ∃ body behind value, Spells body member.1 ∧ IsPadded member.2 value ∧ value.length < cs.length ∧
      dropSpace (cs ++ rest) = '"' :: (body ++ '"' :: behind) ∧ dropSpace behind = ':' :: (value ++ rest) := by
  obtain ⟨quoted, name, value, isQuoted, paddedName, paddedValue, rfl⟩ := isMember
  obtain ⟨body, behind, spells, begins, colon⟩ := paddedName.quoted isQuoted (':' :: (value ++ rest))
  refine ⟨body, behind, value, spells, paddedValue, ?_, ?_, ?_⟩
  · rw [List.length_append, List.length_cons]
    omega
  · rw [List.append_assoc, List.cons_append, begins]
  · rw [colon, dropSpace_cons (by decide)]

theorem IsNumber.exists_cons (number : IsNumber cs) : ∃ c tail, cs = c :: tail ∧ (c = '-' ∨ c.isDigit = true) := by
  obtain ⟨sign, integer, fraction, exponent, isSign, isInteger, -, -, rfl⟩ := number
  rcases isSign with rfl | rfl
  · obtain ⟨c, tail, rfl⟩ := List.exists_cons_of_ne_nil isInteger.1.1
    exact ⟨c, _, rfl, .inr (isInteger.1.2 c List.mem_cons_self)⟩
  · exact ⟨'-', _, rfl, .inl rfl⟩

theorem IsQuoted.exists_cons {units : List Nat} (quoted : IsQuoted units cs) :
    ∃ c tail, cs = c :: tail ∧ isSpace c = false ∧ c ≠ ']' := by
  obtain ⟨body, -, rfl⟩ := quoted
  exact ⟨_, _, rfl, by decide⟩

/-- A value begins neither with white space nor with a closing bracket. -/
theorem IsValue.exists_cons (value : IsValue cs) : ∃ c tail, cs = c :: tail ∧ isSpace c = false ∧ c ≠ ']' := by
  cases value with
  | null => exact ⟨_, _, rfl, by decide⟩
  | bool value => cases value <;> exact ⟨_, _, rfl, by decide⟩
  | string quoted => exact quoted.exists_cons
  | number number =>
    obtain ⟨c, tail, rfl, first⟩ := number.exists_cons
    refine ⟨c, tail, rfl, ?_⟩
    rcases first with rfl | digit
    · decide
    · exact ⟨isSpace_of_isDigit digit, fun same => by cases same; cases digit⟩
  | array array => cases array <;> exact ⟨_, _, rfl, by decide⟩
  | object object => cases object <;> exact ⟨_, _, rfl, by decide⟩

/-- If the items of an array begin so, no closing bracket stands behind the opening one. -/
theorem IsListed.dropSpace_ne {α : Type} {item : α → List Char → Prop} {as : List α}
    (listed : IsListed (IsElement item) as cs)
    (begins : ∀ a ∈ as, ∀ text, item a text → ∃ c tail, text = c :: tail ∧ isSpace c = false ∧ c ≠ ']')
    (rest rest' : List Char) : dropSpace (cs ++ rest) ≠ ']' :: rest' := by
  have front : ∃ a element tail, a ∈ as ∧ IsElement item a element ∧ cs ++ rest = element ++ tail := by
    cases listed with
    | last only => exact ⟨_, _, rest, List.mem_cons_self, only, rfl⟩
    | more element others => exact ⟨_, _, _, List.mem_cons_self, element, List.append_assoc _ _ rest⟩
  obtain ⟨a, element, tail, mem, ⟨text, isItem, before, after, blank, -, rfl⟩, whole⟩ := front
  obtain ⟨c, body, rfl, noSpace, noEnd⟩ := begins a mem text isItem
  rw [whole, List.append_assoc, List.append_assoc, List.cons_append, dropSpace_blank blank noSpace]
  exact fun same => noEnd (List.cons.inj same).1

/-- No closing brace stands in front of the members of an object. -/
theorem IsListed.dropSpace_ne_brace {members : List (List Nat × List Char)} (listed : IsListed IsMember members cs)
    (rest rest' : List Char) : dropSpace (cs ++ rest) ≠ '\x7d' :: rest' := by
  have quote : ∃ tail, dropSpace (cs ++ rest) = '"' :: tail := by
    cases listed with
    | last only =>
      obtain ⟨body, behind, value, -, -, -, begins, -⟩ := only.colon rest
      exact ⟨_, begins⟩
    | @more _ _ cs cs' first _ =>
      obtain ⟨body, behind, value, -, -, -, begins, -⟩ := first.colon (',' :: cs' ++ rest)
      exact ⟨_, by rw [List.append_assoc, begins]⟩
  obtain ⟨tail, begins⟩ := quote
  rw [begins]
  exact fun same => absurd (List.cons.inj same).1 (by decide)

/-! ### Passing over -/

/-- The value is passed over, up to what stands behind it, with more than two units of fuel for each of its
characters. -/
def Skips (cs : List Char) : Prop :=
  ∀ fuel rest, EndsNumber rest → 2 * cs.length < fuel → skipValue fuel (cs ++ rest) = .ok rest

theorem skipValue_dropSpace (fuel : Nat) (cs : List Char) : skipValue fuel (dropSpace cs) = skipValue fuel cs := by
  cases fuel with
  | zero => rw [skipValue, skipValue]
  | succ fuel => rw [skipValue, skipValue, dropSpace_dropSpace]

theorem skipElements_dropSpace (fuel : Nat) (cs : List Char) :
    skipElements fuel (dropSpace cs) = skipElements fuel cs := by
  cases fuel with
  | zero => rw [skipElements, skipElements]
  | succ fuel => rw [skipElements, skipElements, skipValue_dropSpace]

theorem skipMembers_dropSpace (fuel : Nat) (cs : List Char) :
    skipMembers fuel (dropSpace cs) = skipMembers fuel cs := by
  cases fuel with
  | zero => rw [skipMembers, skipMembers]
  | succ fuel => rw [skipMembers, skipMembers, dropSpace_dropSpace]

/-- Passing over an array without elements. -/
theorem skipValue_array_nil {tail : List Char} (begins : dropSpace cs = '[' :: tail)
    (closed : dropSpace tail = ']' :: rest) : skipValue (fuel + 1) cs = .ok rest := by
  simp only [skipValue, begins, closed]

/-- Passing over an array with elements. -/
theorem skipValue_array {tail : List Char} (begins : dropSpace cs = '[' :: tail)
    (noEnd : ∀ rest, dropSpace tail ≠ ']' :: rest) : skipValue (fuel + 1) cs = skipElements fuel tail := by
  rw [← skipElements_dropSpace]
  simp only [skipValue, begins]

/-- Passing over an object without members. -/
theorem skipValue_object_nil {tail : List Char} (begins : dropSpace cs = '\x7b' :: tail)
    (closed : dropSpace tail = '\x7d' :: rest) : skipValue (fuel + 1) cs = .ok rest := by
  simp only [skipValue, begins, closed]

/-- Passing over an object with members. -/
theorem skipValue_object {tail : List Char} (begins : dropSpace cs = '\x7b' :: tail)
    (noEnd : ∀ rest, dropSpace tail ≠ '\x7d' :: rest) : skipValue (fuel + 1) cs = skipMembers fuel tail := by
  rw [← skipMembers_dropSpace]
  simp only [skipValue, begins]

/-- A value with white space around it is passed over up to the mark behind it. -/
theorem IsPadded.skipValue (padded : IsPadded inner cs) (skips : Skips inner) (ends : IsEnd mark)
    (enough : 2 * cs.length < fuel) (rest : List Char) : ∃ behind,
      Json.skipValue fuel (cs ++ mark :: rest) = .ok behind ∧ dropSpace behind = mark :: rest := by
  obtain ⟨before, after, blankBefore, blankAfter, rfl⟩ := padded
  refine ⟨after ++ mark :: rest, ?_, ?_⟩
  · have written : before ++ (inner ++ after) ++ mark :: rest = before ++ (inner ++ (after ++ mark :: rest)) := by simp
    rw [List.length_append, List.length_append] at enough
    rw [written, ← skipValue_dropSpace, dropSpace_append blankBefore, skipValue_dropSpace]
    exact skips fuel _ (ends.endsNumber blankAfter rest) (by omega)
  · exact dropSpace_blank blankAfter ends.isSpace rest

theorem skipElements_listed {α : Type} {item : α → List Char → Prop} {as : List α}
    (listed : IsListed (IsElement item) as cs) (skips : ∀ a ∈ as, ∀ text, item a text → Skips text)
    (enough : 2 * cs.length + 1 < fuel) (rest : List Char) : skipElements fuel (cs ++ ']' :: rest) = .ok rest := by
  induction listed generalizing fuel with
  | @last a cs only =>
    obtain ⟨fuel, rfl⟩ := Nat.exists_eq_add_one_of_ne_zero (Nat.ne_zero_of_lt enough)
    obtain ⟨text, isItem, padded⟩ := only
    obtain ⟨behind, skipped, closed⟩ := padded.skipValue (skips a List.mem_cons_self text isItem) (.inr (.inl rfl))
      (Nat.lt_of_succ_lt_succ enough) rest
    simp only [skipElements, skipped, closed, bind, Except.bind]
  | @more a as cs cs' first _ ih =>
    obtain ⟨fuel, rfl⟩ := Nat.exists_eq_add_one_of_ne_zero (Nat.ne_zero_of_lt enough)
    obtain ⟨text, isItem, padded⟩ := first
    rw [List.length_append, List.length_cons] at enough
    obtain ⟨behind, skipped, comma⟩ := padded.skipValue (skips a List.mem_cons_self text isItem) (.inl rfl)
      (show 2 * cs.length < fuel by omega) (cs' ++ ']' :: rest)
    have others := ih (fun a mem => skips a (List.mem_cons_of_mem _ mem)) (show 2 * cs'.length + 1 < fuel by omega)
    rw [List.append_assoc, List.cons_append]
    simp only [skipElements, skipped, comma, bind, Except.bind, others]

theorem skipMembers_listed {members : List (List Nat × List Char)} (listed : IsListed IsMember members cs)
    (skips : ∀ member ∈ members, Skips member.2) (enough : 2 * cs.length + 1 < fuel) (rest : List Char) :
    skipMembers fuel (cs ++ '\x7d' :: rest) = .ok rest := by
  induction listed generalizing fuel with
  | @last member cs only =>
    obtain ⟨fuel, rfl⟩ := Nat.exists_eq_add_one_of_ne_zero (Nat.ne_zero_of_lt enough)
    obtain ⟨body, behind, value, spells, padded, shorter, begins, colon⟩ := only.colon ('\x7d' :: rest)
    obtain ⟨behind', skipped, closed⟩ := padded.skipValue (skips member List.mem_cons_self) (.inr (.inr rfl))
      (show 2 * value.length < fuel by omega) rest
    simp only [skipMembers, begins, spells.skipString, colon, skipped, closed, bind, Except.bind]
  | @more member members cs cs' first _ ih =>
    obtain ⟨fuel, rfl⟩ := Nat.exists_eq_add_one_of_ne_zero (Nat.ne_zero_of_lt enough)
    rw [List.length_append, List.length_cons] at enough
    obtain ⟨body, behind, value, spells, padded, shorter, begins, colon⟩ := first.colon (',' :: (cs' ++ '\x7d' :: rest))
    obtain ⟨behind', skipped, comma⟩ := padded.skipValue (skips member List.mem_cons_self) (.inl rfl)
      (show 2 * value.length < fuel by omega) (cs' ++ '\x7d' :: rest)
    have others := ih (fun member mem => skips member (List.mem_cons_of_mem _ mem))
      (show 2 * cs'.length + 1 < fuel by omega)
    rw [List.append_assoc, List.cons_append]
    simp only [skipMembers, begins, spells.skipString, colon, skipped, comma, bind, Except.bind, others]

/-! ### Any value -/

theorem expectWord_append (word rest : List Char) : expectWord word (word ++ rest) = .ok rest := by
  induction word with
  | nil => rfl
  | cons c word ih => rw [List.cons_append, expectWord, if_pos rfl, ih]

theorem skips_of_succ (each : ∀ fuel rest, EndsNumber rest → 2 * cs.length ≤ fuel →
    skipValue (fuel + 1) (cs ++ rest) = .ok rest) : Skips cs := by
  intro fuel rest ends enough
  obtain ⟨fuel, rfl⟩ := Nat.exists_eq_add_one_of_ne_zero (Nat.ne_zero_of_lt enough)
  exact each fuel rest ends (Nat.le_of_lt_succ enough)

theorem IsNumber.skips (number : IsNumber cs) : Skips cs := by
  refine skips_of_succ fun fuel rest ends _ => ?_
  obtain ⟨numeral, scanned⟩ := number.scanNumeral .malformed ends
  obtain ⟨c, tail, rfl, first⟩ := number.exists_cons
  have noSpace : isSpace c = false := by
    rcases first with rfl | digit
    · rfl
    · exact isSpace_of_isDigit digit
  have noToken : c ≠ 'n' ∧ c ≠ 't' ∧ c ≠ 'f' ∧ c ≠ '"' ∧ c ≠ '[' ∧ c ≠ '\x7b' := by
    rcases first with rfl | digit
    · decide
    · refine ⟨?_, ?_, ?_, ?_, ?_, ?_⟩ <;>
      · rintro rfl
        cases digit
  rw [List.cons_append] at scanned ⊢
  simp [skipValue, dropSpace_cons noSpace, noToken, first, scanned, Except.map]

theorem IsArray.skips {elements : List (List Char)} (array : IsArray Eq elements cs)
    (values : ∀ element ∈ elements, IsValue element) (skips : ∀ element ∈ elements, Skips element) : Skips cs := by
  refine skips_of_succ fun fuel rest _ enough => ?_
  cases array with
  | none blank =>
    rw [List.cons_append, List.append_assoc]
    exact skipValue_array_nil (dropSpace_cons rfl _) (dropSpace_blank blank rfl rest)
  | @some _ inner listed =>
    rw [List.length_cons, List.length_append] at enough
    rw [List.cons_append, List.append_assoc, skipValue_array (dropSpace_cons rfl _)
      (listed.dropSpace_ne (fun element mem _ same => same ▸ (values element mem).exists_cons) _)]
    exact skipElements_listed listed (fun element mem _ same => same ▸ skips element mem)
      (show 2 * inner.length + 1 < fuel by omega) rest

theorem IsObject.skips {members : List (List Nat × List Char)} (object : IsObject members cs)
    (skips : ∀ member ∈ members, Skips member.2) : Skips cs := by
  refine skips_of_succ fun fuel rest _ enough => ?_
  cases object with
  | none blank =>
    rw [List.cons_append, List.append_assoc]
    exact skipValue_object_nil (dropSpace_cons rfl _) (dropSpace_blank blank rfl rest)
  | @some _ inner listed =>
    rw [List.length_cons, List.length_append] at enough
    rw [List.cons_append, List.append_assoc, skipValue_object (dropSpace_cons rfl _) (listed.dropSpace_ne_brace _)]
    exact skipMembers_listed listed skips (show 2 * inner.length + 1 < fuel by omega) rest

/-- Every value is passed over. -/
theorem IsValue.skips (value : IsValue cs) : Skips cs := by
  induction value with
  | null =>
    refine skips_of_succ fun fuel rest _ _ => ?_
    rw [skipValue, List.cons_append, dropSpace_cons (by decide)]
    exact expectWord_append _ rest
  | bool value =>
    refine skips_of_succ fun fuel rest _ _ => ?_
    cases value <;>
    · rw [skipValue, boolText, List.cons_append, dropSpace_cons (by decide)]
      exact expectWord_append _ rest
  | string quoted =>
    refine skips_of_succ fun fuel rest _ _ => ?_
    obtain ⟨body, spells, rfl⟩ := quoted
    rw [skipValue, List.cons_append, dropSpace_cons (by decide), List.append_assoc]
    exact spells.skipString rest
  | number number => exact number.skips
  | array array values ih => exact array.skips values ih
  | object object _ ih => exact object.skips ih

/-- A value with white space around it is passed over up to the mark behind it. -/
theorem IsPadded.skip (padded : IsPadded inner cs) (value : IsValue inner) (ends : IsEnd mark) (rest : List Char) :
    ∃ behind, Json.skip (cs ++ mark :: rest) = .ok behind ∧ dropSpace behind = mark :: rest :=
  padded.skipValue value.skips ends (by rw [List.length_append]; omega) rest

end Json
end ComponentHoist
