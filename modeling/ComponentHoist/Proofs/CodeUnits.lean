import ComponentHoist.Json.Quoted

/-!
# ComponentHoist.Proofs.CodeUnits — the 16-bit code units of texts

A string literal of JSON stands for a sequence of 16-bit code units: a character beyond the first plane is two of them,
and an escape may give one half without the other.  The reader of literals is exact on that: it gives a text if and
only if the code units of the literal are those of the text.

* `Json.charUnits`, `Json.textUnits`: the code units of characters and texts.
* `Json.charUnits_cases`: a character is one unit that is no surrogate, or a pair of surrogates.
* `Json.charUnits_append_inj`, `Json.textUnits_injective`: texts can be told apart by their units.
* `Json.decodePieces_eq_ok_iff`: the pieces of a literal are read as a text if and only if they have its units.
-/

namespace ComponentHoist
namespace Json

/-- The code units of a character. -/
def charUnits (c : Char) : List Nat :=
  if c.toNat < 0x10000 then [c.toNat]
  else [0xd800 + (c.toNat - 0x10000) / 0x400, 0xdc00 + (c.toNat - 0x10000) % 0x400]

/-- The code units of a text. -/
def textUnits (text : String) : List Nat :=
  text.toList.flatMap charUnits

/-- The code units of a piece of a literal. -/
def Piece.units : Piece → List Nat
  | char c => charUnits c
  | unit n => [n]

/-! ### One character -/

section Characters

variable {c d : Char} {n m : Nat} {us vs : List Nat}

theorem isLeading_iff : isLeading n = true ↔ 0xd800 ≤ n ∧ n ≤ 0xdbff := by
  simp [isLeading]

theorem isTrailing_iff : isTrailing n = true ↔ 0xdc00 ≤ n ∧ n ≤ 0xdfff := by
  simp [isTrailing]

theorem isTrailing_of_isLeading (leading : isLeading n = true) : isTrailing n = false := by
  have := isLeading_iff.mp leading
  exact Bool.eq_false_iff.mpr fun trailing => by
    have := isTrailing_iff.mp trailing
    omega

theorem toNat_ofNat (valid : n.isValidChar) : (Char.ofNat n).toNat = n := by
  rw [Char.ofNat, dif_pos valid]
  rfl

theorem charUnits_ofNat (small : n < 0x10000) (notLeading : isLeading n = false) (notTrailing : isTrailing n = false) :
    charUnits (Char.ofNat n) = [n] := by
  have valid : n.isValidChar := by
    rw [← Bool.not_eq_true, isLeading_iff] at notLeading
    rw [← Bool.not_eq_true, isTrailing_iff] at notTrailing
    unfold Nat.isValidChar
    omega
  rw [charUnits, toNat_ofNat valid, if_pos small]

theorem charUnits_joinPair (leading : isLeading n = true) (trailing : isTrailing m = true) :
    charUnits (joinPair n m) = [n, m] := by
  have first := isLeading_iff.mp leading
  have second := isTrailing_iff.mp trailing
  have valid : (0x10000 + (n - 0xd800) * 0x400 + (m - 0xdc00)).isValidChar := .inr (by omega)
  rw [charUnits, joinPair, toNat_ofNat valid, if_neg (by omega)]
  have quotient : 0xd800 + (0x10000 + (n - 0xd800) * 0x400 + (m - 0xdc00) - 0x10000) / 0x400 = n := by omega
  have remainder : 0xdc00 + (0x10000 + (n - 0xd800) * 0x400 + (m - 0xdc00) - 0x10000) % 0x400 = m := by omega
  rw [quotient, remainder]

/-- A character is one unit that is no surrogate, or a pair of surrogates. -/
theorem charUnits_cases (c : Char) :
    (charUnits c = [c.toNat] ∧ isLeading c.toNat = false ∧ isTrailing c.toNat = false) ∨
      ∃ n m, charUnits c = [n, m] ∧ isLeading n = true ∧ isTrailing m = true := by
  have valid : c.toNat.isValidChar := c.valid
  by_cases small : c.toNat < 0x10000
  · have notLeading : isLeading c.toNat = false := Bool.eq_false_iff.mpr fun leading => by
      have := isLeading_iff.mp leading
      omega
    have notTrailing : isTrailing c.toNat = false := Bool.eq_false_iff.mpr fun trailing => by
      have := isTrailing_iff.mp trailing
      omega
    exact .inl ⟨if_pos small, notLeading, notTrailing⟩
  · exact .inr ⟨_, _, if_neg small, isLeading_iff.mpr (by omega), isTrailing_iff.mpr (by omega)⟩

theorem charUnits_injective : Function.Injective charUnits := by
  intro c d same
  rw [← Char.toNat_inj]
  unfold charUnits at same
  split at same <;> split at same
  · exact (List.cons.inj same).1
  · exact absurd (congrArg List.length same) (by simp)
  · exact absurd (congrArg List.length same) (by simp)
  · obtain ⟨quotient, remainder⟩ := List.cons.inj same
    have := (List.cons.inj remainder).1
    omega

/-- The units of a character end where its first unit says. -/
theorem charUnits_append_inj : charUnits c ++ us = charUnits d ++ vs ↔ c = d ∧ us = vs := by
  constructor
  · intro same
    have lengths : (charUnits c).length = (charUnits d).length := by
      rcases charUnits_cases c with ⟨one, notLeading, -⟩ | ⟨n, m, two, leading, -⟩ <;>
        rcases charUnits_cases d with ⟨one', notLeading', -⟩ | ⟨n', m', two', leading', -⟩
      · rw [one, one']
        rfl
      · rw [one, two'] at same
        rw [(List.cons.inj same).1, leading'] at notLeading
        cases notLeading
      · rw [two, one'] at same
        rw [← (List.cons.inj same).1, leading] at notLeading'
        cases notLeading'
      · rw [two, two']
        rfl
    obtain ⟨units, rest⟩ := List.append_inj same lengths
    exact ⟨charUnits_injective units, rest⟩
  · rintro ⟨rfl, rfl⟩
    rfl

end Characters

/-! ### A whole literal -/

section Literals

variable {c : Char} {cs : List Char} {n : Nat} {us vs : List Nat}

/-- Whoever begins with the units of a character begins with the character. -/
theorem charUnits_append_eq_iff :
    charUnits c ++ us = cs.flatMap charUnits ↔ ∃ tail, cs = c :: tail ∧ us = tail.flatMap charUnits := by
  constructor
  · intro same
    cases cs with
    | nil =>
      have short := congrArg List.length same
      rcases charUnits_cases c with ⟨one, -⟩ | ⟨n, m, two, -⟩
      · simp [one] at short
      · simp [two] at short
    | cons d tail =>
      obtain ⟨rfl, rest⟩ := charUnits_append_inj.mp (same.trans List.flatMap_cons)
      exact ⟨tail, rfl, rest⟩
  · rintro ⟨tail, rfl, rfl⟩
    rfl

theorem flatMap_charUnits_injective : Function.Injective (List.flatMap charUnits) := by
  intro cs
  induction cs with
  | nil =>
    intro ds same
    cases ds with
    | nil => rfl
    | cons d ds =>
      obtain ⟨tail, split, -⟩ := charUnits_append_eq_iff.mp (List.flatMap_cons.symm.trans same.symm)
      cases split
  | cons c cs ih =>
    intro ds same
    obtain ⟨tail, rfl, rest⟩ := charUnits_append_eq_iff.mp (List.flatMap_cons.symm.trans same)
    rw [ih rest]

theorem textUnits_injective : Function.Injective textUnits := fun _ _ same =>
  String.toList_injective (flatMap_charUnits_injective same)

/-- No character begins with the second half of a pair. -/
theorem not_isTrailing_of_charUnits (units : charUnits c ++ us = n :: vs) : isTrailing n = false := by
  rcases charUnits_cases c with ⟨one, -, notTrailing⟩ | ⟨n', m, two, leading, -⟩
  · rw [one] at units
    obtain rfl := (List.cons.inj units).1
    exact notTrailing
  · rw [two] at units
    obtain rfl := (List.cons.inj units).1
    exact isTrailing_of_isLeading leading

/-- In the units of a text no second half of a pair comes first. -/
theorem not_isTrailing_of_text (units : n :: us = cs.flatMap charUnits) : isTrailing n = false := by
  cases cs with
  | nil => cases units
  | cons c tail => exact not_isTrailing_of_charUnits (List.flatMap_cons.symm.trans units.symm)

/-- In the units of a text the first half of a pair is followed by the second one. -/
theorem exists_trailing_of_text (leading : isLeading n = true) (units : n :: us = cs.flatMap charUnits) :
    ∃ m vs, us = m :: vs ∧ isTrailing m = true := by
  cases cs with
  | nil => cases units
  | cons c tail =>
    rcases charUnits_cases c with ⟨one, notLeading, -⟩ | ⟨n', m, two, -, trailing⟩
    · rw [List.flatMap_cons, one] at units
      rw [(List.cons.inj units).1, notLeading] at leading
      cases leading
    · rw [List.flatMap_cons, two] at units
      exact ⟨m, _, (List.cons.inj units).2, trailing⟩

theorem map_eq_ok_iff {α β : Type} {f : α → β} {read : Except Fault α} {b : β} :
    read.map f = .ok b ↔ ∃ a, read = .ok a ∧ f a = b := by
  cases read <;> simp [Except.map]

/-- If the rest is read as the text that has its units, then so it is with a character in front. -/
theorem map_cons_eq_ok_iff {read : Except Fault (List Char × List Char)} {rest rest' : List Char}
    (exact_rest : ∀ tail, read = .ok (tail, rest') ↔ rest' = rest ∧ us = tail.flatMap charUnits) :
    (read.map fun (tail, rest) => (c :: tail, rest)) = .ok (cs, rest') ↔
      rest' = rest ∧ charUnits c ++ us = cs.flatMap charUnits := by
  rw [map_eq_ok_iff, charUnits_append_eq_iff]
  constructor
  · rintro ⟨⟨tail, _⟩, found, same⟩
    cases same
    obtain ⟨same, units⟩ := (exact_rest tail).mp found
    exact ⟨same, tail, rfl, units⟩
  · rintro ⟨same, tail, split, units⟩
    exact ⟨(tail, rest'), (exact_rest tail).mpr ⟨same, units⟩, by rw [split]⟩

/-- The pieces of a literal are read as a text if and only if they have its units. -/
theorem decodePieces_eq_ok_iff {rest rest' : List Char} {pieces : List Piece}
    (small : ∀ n, .unit n ∈ pieces → n < 0x10000) :
    decodePieces (.ok rest) pieces = .ok (cs, rest') ↔
      rest' = rest ∧ pieces.flatMap Piece.units = cs.flatMap charUnits := by
  fun_induction decodePieces (.ok rest) pieces generalizing cs with
  | case1 =>
    have nothing : [] = cs.flatMap charUnits ↔ [] = cs := flatMap_charUnits_injective.eq_iff (a := [])
    simp [Except.map, nothing, and_comm, eq_comm]
  | case2 c ps ih =>
    rw [List.flatMap_cons, Piece.units]
    exact map_cons_eq_ok_iff fun tail => ih fun n mem => small n (List.mem_cons_of_mem _ mem)
  | case3 n ps trailing =>
    refine iff_of_false (by simp) fun ⟨_, units⟩ => ?_
    rw [not_isTrailing_of_text units] at trailing
    cases trailing
  | case4 n _ leading m ps trailing ih =>
    have pair : (Piece.unit n :: .unit m :: ps).flatMap Piece.units =
        charUnits (joinPair n m) ++ ps.flatMap Piece.units := by
      rw [charUnits_joinPair leading trailing]
      rfl
    rw [pair]
    exact map_cons_eq_ok_iff fun tail =>
      ih fun n mem => small n (List.mem_cons_of_mem _ (List.mem_cons_of_mem _ mem))
  | case5 n _ leading m ps notTrailing =>
    refine iff_of_false (by simp) fun ⟨_, units⟩ => ?_
    obtain ⟨m', vs, next, trailing⟩ := exists_trailing_of_text leading units
    obtain rfl := (List.cons.inj next).1
    exact notTrailing trailing
  | case6 n _ leading c ps =>
    refine iff_of_false (by simp) fun ⟨_, units⟩ => ?_
    obtain ⟨m, vs, next, trailing⟩ := exists_trailing_of_text leading units
    rw [not_isTrailing_of_charUnits next] at trailing
    cases trailing
  | case7 n _ leading =>
    refine iff_of_false (by simp) fun ⟨_, units⟩ => ?_
    obtain ⟨m, vs, next, -⟩ := exists_trailing_of_text leading units
    cases next
  | case8 n ps notTrailing notLeading ih =>
    have one : (Piece.unit n :: ps).flatMap Piece.units = charUnits (Char.ofNat n) ++ ps.flatMap Piece.units := by
      rw [charUnits_ofNat (small n List.mem_cons_self) (Bool.eq_false_iff.mpr notLeading)
        (Bool.eq_false_iff.mpr notTrailing)]
      rfl
    rw [one]
    exact map_cons_eq_ok_iff fun tail => ih fun n mem => small n (List.mem_cons_of_mem _ mem)

end Literals

end Json
end ComponentHoist
