import ComponentHoist.Proofs.ConfigText
import ComponentHoist.Proofs.JsonGrammar

/-!
# ComponentHoist.Proofs.Tokens — string literals and numbers are read to their ends

The readers of the tokens against the grammar: they stop behind the token, whatever follows it, and give what it stands
for.

* `Json.Spells.scan`: a string literal is scanned into pieces with its code units.
* `Json.Spells.decode_eq_ok_iff`: it is read as a text if and only if it stands for the code units of that text.
* `Json.Spells.skipString`: it can be passed over in any case.
* `Json.isQuoted_quoteChars`: what is written for a text is a literal that stands for it.
* `Json.skipString_of_decode`: what is read as a text is passed over up to the same place.
* `Json.IsNumber.scanNumeral`: a number is read to its end if no character behind it could go on with it.
-/

namespace ComponentHoist
namespace Json

/-! ### String literals -/

section Literals

variable {c letter : Char} {body rest rest' : List Char} {units : List Nat} {n : Nat} {s : String}

theorem IsHexDigit.lt (digit : IsHexDigit c n) : n < 16 := by
  rcases digit with lower | upper
  · exact (List.getElem?_eq_some_iff.mp lower).1
  · exact (List.getElem?_eq_some_iff.mp upper).1

theorem map_hexValue?_lower : "0123456789abcdef".toList.map hexValue? = (List.range 16).map some := by
  decide

theorem map_hexValue?_upper : "0123456789ABCDEF".toList.map hexValue? = (List.range 16).map some := by
  decide

theorem hexValue?_of_map {digits : List Char} (table : digits.map Json.hexValue? = (List.range 16).map some)
    (small : n < 16) (digit : digits[n]? = some c) : Json.hexValue? c = some n := by
  have mapped := congrArg (·[n]?) table
  simp only [List.getElem?_map, digit, List.getElem?_range small, Option.map_some] at mapped
  exact Option.some.inj mapped

theorem IsHexDigit.hexValue? (digit : IsHexDigit c n) : hexValue? c = some n := by
  have small := digit.lt
  rcases digit with lower | upper
  · exact hexValue?_of_map map_hexValue?_lower small lower
  · exact hexValue?_of_map map_hexValue?_upper small upper

/-- The table of the short escapes is the one that the reader goes by. -/
theorem shortEscape?_of_mem : ∀ escape ∈ shortEscapes, escape.1 ≠ 'u' ∧ shortEscape? escape.1 = some escape.2 := by
  decide

theorem scan_short (noUnit : letter ≠ 'u') (short : shortEscape? letter = some c) (rest : List Char) :
    scan ('\\' :: letter :: rest) = (scan rest).cons (.char c) := by
  rw [scan.eq_def]
  simp_all

theorem scan_plain (noQuote : c ≠ '"') (noSlash : c ≠ '\\') (noControl : ¬c.toNat < 0x20) (rest : List Char) :
    scan (c :: rest) = (scan rest).cons (.char c) := by
  rw [scan.eq_def]
  simp [noSlash, noControl]

/-- A string literal is scanned to its closing quote, into pieces with the code units for which it stands. -/
theorem Spells.scan (spells : Spells body units) (rest : List Char) :
    ∃ pieces, Json.scan (body ++ '"' :: rest) = ⟨pieces, .ok rest⟩ ∧ pieces.flatMap Piece.units = units ∧
      ∀ n, .unit n ∈ pieces → n < 0x10000 := by
  induction spells with
  | nil => exact ⟨[], rfl, rfl, by simp⟩
  | @plain c cs units noQuote noSlash noControl _ ih =>
    obtain ⟨pieces, found, same, small⟩ := ih
    refine ⟨.char c :: pieces, ?_, congrArg (charUnits c ++ ·) same, by simpa using small⟩
    rw [List.cons_append, scan_plain noQuote noSlash noControl, found]
    rfl
  | @short letter c cs units escape _ ih =>
    obtain ⟨pieces, found, same, small⟩ := ih
    obtain ⟨noUnit, short⟩ := shortEscape?_of_mem _ escape
    refine ⟨.char c :: pieces, ?_, congrArg (charUnits c ++ ·) same, by simpa using small⟩
    rw [List.cons_append, List.cons_append, scan_short noUnit short, found]
    rfl
  | @hex a b c d n₁ n₂ n₃ n₄ cs units first second third fourth _ ih =>
    obtain ⟨pieces, found, same, small⟩ := ih
    refine ⟨.unit (((n₁ * 16 + n₂) * 16 + n₃) * 16 + n₄) :: pieces, ?_, congrArg (List.cons _) same, ?_⟩
    · have unit : codeUnit? a b c d = some (((n₁ * 16 + n₂) * 16 + n₃) * 16 + n₄) := by
        simp [codeUnit?, first.hexValue?, second.hexValue?, third.hexValue?, fourth.hexValue?]
      simp only [List.cons_append, Json.scan, unit, found]
      rfl
    · intro n mem
      rcases List.mem_cons.mp mem with here | there
      · have := first.lt
        have := second.lt
        have := third.lt
        have := fourth.lt
        cases here
        omega
      · exact small n there

/-- A string literal is read as a text if and only if it stands for the code units of that text. -/
theorem Spells.decode_eq_ok_iff (spells : Spells body units) :
    decode (body ++ '"' :: rest) = .ok (s, rest') ↔ rest' = rest ∧ units = textUnits s := by
  obtain ⟨pieces, found, same, small⟩ := spells.scan rest
  have text : decode (body ++ '"' :: rest) = .ok (s, rest') ↔
      decodePieces (.ok rest) pieces = .ok (s.toList, rest') := by
    rw [decode, found]
    cases decodePieces (.ok rest) pieces with
    | error fault => simp [Except.map]
    | ok read =>
      have texts : String.ofList read.1 = s ↔ read.1 = s.toList := by rw [← String.toList_inj, String.toList_ofList]
      simp [Except.map, Prod.ext_iff, texts]
  rw [text, decodePieces_eq_ok_iff small, same, textUnits]

theorem Spells.decode (spells : Spells body (textUnits s)) (rest : List Char) :
    Json.decode (body ++ '"' :: rest) = .ok (s, rest) :=
  spells.decode_eq_ok_iff.mpr ⟨rfl, rfl⟩

/-- A string literal can be passed over, whether or not it stands for a text. -/
theorem Spells.skipString (spells : Spells body units) (rest : List Char) :
    Json.skipString (body ++ '"' :: rest) = .ok rest := by
  obtain ⟨pieces, found, -⟩ := spells.scan rest
  rw [Json.skipString, found]

theorem Spells.append {body' : List Char} {units' : List Nat} (spells : Spells body units)
    (spells' : Spells body' units') : Spells (body ++ body') (units ++ units') := by
  induction spells with
  | nil => exact spells'
  | plain noQuote noSlash noControl _ ih =>
    rw [List.append_assoc]
    exact .plain noQuote noSlash noControl ih
  | short escape _ ih =>
    rw [List.append_assoc]
    exact .short escape ih
  | hex first second third fourth _ ih => exact .hex first second third fourth ih

theorem isHexDigit_hexDigit : ∀ n < 16, "0123456789abcdef".toList[n]? = some (hexDigit n) := by
  decide

theorem mem_shortEscapes (short : shortEscape? letter = some c) : (letter, c) ∈ shortEscapes := by
  unfold shortEscape? at short
  split at short <;> cases short <;> decide

/-- What is written for a character stands for its units. -/
theorem spells_escape (c : Char) : Spells (escape c) (charUnits c) := by
  rcases escape_cases c with ⟨letter, written, -, short⟩ | ⟨control, written⟩ | ⟨noQuote, noSlash, plain, written⟩
  · rw [written, ← List.append_nil (charUnits c)]
    exact .short (mem_shortEscapes short) .nil
  · have units : charUnits c = [((0 * 16 + 0) * 16 + c.toNat / 16) * 16 + c.toNat % 16] := by
      rw [charUnits, if_pos (by omega)]
      exact congrArg (fun n => [n]) (by omega)
    rw [written, units]
    exact .hex (.inl rfl) (.inl rfl) (.inl (isHexDigit_hexDigit _ (by omega)))
      (.inl (isHexDigit_hexDigit _ (by omega))) .nil
  · rw [written, ← List.append_nil (charUnits c)]
    exact .plain noQuote noSlash plain .nil

theorem spells_flatMap_escape (cs : List Char) : Spells (cs.flatMap escape) (cs.flatMap charUnits) := by
  induction cs with
  | nil => exact .nil
  | cons c cs ih => exact (spells_escape c).append ih

/-- The quoted form of a text is a literal that stands for it. -/
theorem isQuoted_quoteChars (cs : List Char) : IsQuoted (cs.flatMap charUnits) (quoteChars cs) :=
  ⟨_, spells_flatMap_escape cs, rfl⟩

/-- If the pieces of a literal are read as a text, then up to the closing quote. -/
theorem ending_of_decodePieces {ending : Except Fault (List Char)} {pieces : List Piece} {cs : List Char}
    (read : decodePieces ending pieces = .ok (cs, rest)) : ending = .ok rest := by
  fun_induction decodePieces ending pieces generalizing cs with
  | case1 =>
    obtain ⟨_, ended, same⟩ := map_eq_ok_iff.mp read
    cases same
    exact ended
  | case2 _ _ ih | case4 _ _ _ _ _ _ ih | case8 _ _ _ _ ih =>
    obtain ⟨_, others, same⟩ := map_eq_ok_iff.mp read
    cases same
    exact ih others
  | case3 | case5 | case6 | case7 => cases read

theorem skipString_of_decode {cs : List Char} (read : Json.decode cs = .ok (s, rest)) :
    Json.skipString cs = .ok rest := by
  obtain ⟨_, pieces, same⟩ := map_eq_ok_iff.mp read
  cases same
  exact ending_of_decodePieces pieces

end Literals

/-! ### Numbers -/

section Numbers

variable {cs rest : List Char}

theorem spanDigits_append (digits : ∀ c ∈ cs, c.isDigit = true) (ends : ∀ c ∈ rest.head?, c.isDigit = false) :
    spanDigits (cs ++ rest) = (cs.map fun c => c.toNat - '0'.toNat, rest) := by
  have nothing : rest.takeWhile Char.isDigit = [] ∧ rest.dropWhile Char.isDigit = rest := by
    cases rest with
    | nil => exact ⟨rfl, rfl⟩
    | cons c rest =>
      have noDigit : ¬c.isDigit = true := Bool.eq_false_iff.mp (ends c rfl)
      exact ⟨List.takeWhile_cons_of_neg noDigit, List.dropWhile_cons_of_neg noDigit⟩
  rw [spanDigits, List.takeWhile_append_of_pos digits, List.dropWhile_append_of_pos digits, nothing.1, nothing.2,
    List.append_nil]

theorem IsDigits.someDigits (digits : IsDigits cs) (fault : Fault) (ends : ∀ c ∈ rest.head?, c.isDigit = false) :
    Json.someDigits fault (cs ++ rest) = .ok (cs.map fun c => c.toNat - '0'.toNat, rest) := by
  rw [Json.someDigits, spanDigits_append digits.2 ends]
  obtain ⟨c, tail, rfl⟩ := List.exists_cons_of_ne_nil digits.1
  rfl

/-- Among the digits before the point no zero stands in front of others. -/
theorem IsInteger.ne_zero_cons (integer : IsInteger cs) (d : Nat) (tail : List Nat) :
    cs.map (fun c => c.toNat - '0'.toNat) ≠ 0 :: d :: tail := by
  intro leading
  obtain ⟨c, cs, rfl, zero, others⟩ := List.map_eq_cons_iff.mp leading
  have range := Char.isDigit_iff_toNat.mp (integer.1.2 c List.mem_cons_self)
  have same : c.toNat = '0'.toNat := Nat.le_antisymm (Nat.le_of_sub_eq_zero zero) range.1
  obtain rfl := Char.toNat_inj.mp same
  obtain rfl : cs = [] := (List.cons.inj (integer.2 rfl)).2
  cases others

theorem IsInteger.scanInteger (integer : IsInteger cs) (fault : Fault) (ends : ∀ c ∈ rest.head?, c.isDigit = false) :
    ∃ digits, Json.scanInteger fault (cs ++ rest) = .ok (digits, rest) := by
  refine ⟨cs.map fun c => c.toNat - '0'.toNat, ?_⟩
  rw [Json.scanInteger, integer.1.someDigits fault ends]
  simp only [bind, Except.bind]
  split
  next d tail _ leading => exact absurd (Prod.mk.inj leading).1 (integer.ne_zero_cons d tail)
  next => rfl

/-- What may stand behind a number. -/
structure EndsNumber (rest : List Char) : Prop where
  noDigit : ∀ c ∈ rest.head?, c.isDigit = false
  noPoint : '.' ∉ rest.head?
  noMark : ∀ c ∈ rest.head?, ¬(c = 'e' ∨ c = 'E')

theorem IsExponent.head (exponent : IsExponent cs) (ends : EndsNumber rest) :
    ∀ c ∈ (cs ++ rest).head?, c.isDigit = false ∧ c ≠ '.' := by
  rcases exponent with rfl | ⟨mark, sign, digits, isMark, -, -, rfl⟩
  · exact fun c front => ⟨ends.noDigit c front, fun point => ends.noPoint (point ▸ front)⟩
  · intro c front
    cases front
    rcases isMark with rfl | rfl <;> decide

theorem IsFraction.head (fraction : IsFraction cs) (ends : ∀ c ∈ rest.head?, c.isDigit = false) :
    ∀ c ∈ (cs ++ rest).head?, c.isDigit = false := by
  rcases fraction with rfl | ⟨digits, -, rfl⟩
  · exact ends
  · intro c front
    cases front
    rfl

/-- A digit is no sign. -/
theorem IsDigits.exists_cons (digits : IsDigits cs) : ∃ c tail, cs = c :: tail ∧ c ≠ '-' ∧ c ≠ '+' := by
  obtain ⟨c, tail, rfl⟩ := List.exists_cons_of_ne_nil digits.1
  have digit := digits.2 c List.mem_cons_self
  refine ⟨c, tail, rfl, ?_, ?_⟩ <;>
  · rintro rfl
    cases digit

theorem IsFraction.scanFraction (fraction : IsFraction cs) (fault : Fault)
    (ends : ∀ c ∈ rest.head?, c.isDigit = false) (noPoint : '.' ∉ rest.head?) :
    ∃ digits, Json.scanFraction fault (cs ++ rest) = .ok (digits, rest) := by
  rcases fraction with rfl | ⟨digits, some, rfl⟩
  · cases rest with
    | nil => exact ⟨_, rfl⟩
    | cons c rest =>
      have other : c ≠ '.' := fun same => noPoint (same ▸ rfl)
      exact ⟨[], by simp [Json.scanFraction, other]⟩
  · exact ⟨_, some.someDigits fault ends⟩

theorem IsDigits.spanSign (digits : IsDigits cs) {sign : List Char} (isSign : sign = [] ∨ sign = ['+'] ∨ sign = ['-'])
    (rest : List Char) : ∃ negative, Json.spanSign (sign ++ (cs ++ rest)) = (negative, cs ++ rest) := by
  rcases isSign with rfl | rfl | rfl
  · obtain ⟨c, tail, rfl, noMinus, noPlus⟩ := digits.exists_cons
    exact ⟨false, by simp [Json.spanSign, noMinus, noPlus]⟩
  · exact ⟨_, rfl⟩
  · exact ⟨_, rfl⟩

theorem IsExponent.scanExponent (exponent : IsExponent cs) (fault : Fault) (ends : EndsNumber rest) :
    ∃ negative digits, Json.scanExponent fault (cs ++ rest) = .ok (negative, digits, rest) := by
  rcases exponent with rfl | ⟨mark, sign, digits, isMark, isSign, some, rfl⟩
  · cases rest with
    | nil => exact ⟨_, _, rfl⟩
    | cons c rest => exact ⟨_, _, if_neg (ends.noMark c rfl)⟩
  · obtain ⟨negative, signed⟩ := some.spanSign isSign rest
    refine ⟨negative, digits.map fun c => c.toNat - '0'.toNat, ?_⟩
    rw [List.cons_append, List.append_assoc, Json.scanExponent, if_pos isMark, signed]
    simp only [some.someDigits fault ends.noDigit]
    rfl

/-- A number is read to its end if no character behind it could go on with it. -/
theorem IsNumber.scanNumeral (number : IsNumber cs) (fault : Fault) (ends : EndsNumber rest) :
    ∃ numeral, Json.scanNumeral fault (cs ++ rest) = .ok (numeral, rest) := by
  obtain ⟨sign, integer, fraction, exponent, isSign, isInteger, isFraction, isExponent, rfl⟩ := number
  have behindFraction := isExponent.head ends
  have behindInteger := isFraction.head fun c front => (behindFraction c front).1
  obtain ⟨whole, first⟩ := isInteger.scanInteger fault behindInteger
  obtain ⟨digits, second⟩ := isFraction.scanFraction fault (fun c front => (behindFraction c front).1)
    fun point => (behindFraction '.' point).2 rfl
  obtain ⟨negative, power, third⟩ := isExponent.scanExponent fault ends
  rcases isSign with rfl | rfl
  · obtain ⟨c, tail, rfl, noMinus, -⟩ := isInteger.1.exists_cons
    refine ⟨⟨false, whole, digits, negative, power⟩, ?_⟩
    rw [List.cons_append] at first
    simp [Json.scanNumeral, noMinus, first, second, third, bind, Except.bind, pure, Except.pure]
  · refine ⟨⟨true, whole, digits, negative, power⟩, ?_⟩
    simp [Json.scanNumeral, first, second, third, bind, Except.bind, pure, Except.pure]

end Numbers

end Json
end ComponentHoist
