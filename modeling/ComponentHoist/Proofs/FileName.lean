import ComponentHoist.FileName
import Mathlib.Data.List.Basic
import Mathlib.Tactic.SplitIfs

/-!
# ComponentHoist.Proofs.FileName — what a name consists of

* `splitLastDot_eq_some_iff`: the last dot is the one that no other follows.
* `snd_split_eq_some_iff`: the extension of a name, said by what the name consists of.
* `HasBase`, `hasBase_iff`: the base name, said in the same way.
* `base_append_extension`: a base name that is given an extension is found again.
-/

namespace ComponentHoist
namespace FileName

/-! ### The last dot -/

section

variable {α : Type} [DecidableEq α] {dot : α}

theorem splitLastDot_eq_none_iff {name : List α} : splitLastDot dot name = none ↔ dot ∉ name := by
  induction name with
  | nil => simp [splitLastDot]
  | cons c cs ih =>
    rw [splitLastDot]
    cases later : splitLastDot dot cs with
    | none =>
      have clear : dot ∉ cs := ih.mp later
      simp [clear, eq_comm]
    | some parts =>
      have dotted : dot ∈ cs := by
        by_contra clear
        rw [ih.mpr clear] at later
        cases later
      simp [dotted]

theorem splitLastDot_eq_some_iff {name before after : List α} :
    splitLastDot dot name = some (before, after) ↔ name = before ++ dot :: after ∧ dot ∉ after := by
  induction name generalizing before with
  | nil => simp [splitLastDot]
  | cons c cs ih =>
    rw [splitLastDot]
    cases later : splitLastDot dot cs with
    | none =>
      have clear : dot ∉ cs := splitLastDot_eq_none_iff.mp later
      cases before with
      | nil =>
        by_cases first : c = dot
        · simp only [first, if_true, Option.some.injEq, Prod.mk.injEq, true_and, List.nil_append, List.cons.injEq]
          exact ⟨fun same => ⟨same, same ▸ clear⟩, And.left⟩
        · simp [first]
      | cons b bs =>
        have dotless : cs ≠ bs ++ dot :: after := by
          rintro rfl
          exact clear (List.mem_append_right bs List.mem_cons_self)
        simp [dotless]
    | some parts =>
      cases before with
      | nil =>
        have dotted : dot ∈ cs := by
          by_contra clear
          rw [splitLastDot_eq_none_iff.mpr clear] at later
          cases later
        simp only [Option.some.injEq, Prod.mk.injEq, reduceCtorEq, false_and, List.nil_append, List.cons.injEq,
          false_iff]
        rintro ⟨⟨-, rfl⟩, clear⟩
        exact clear dotted
      | cons b bs =>
        obtain ⟨front, back⟩ := parts
        have rest : (front, back) = (bs, after) ↔ cs = bs ++ dot :: after ∧ dot ∉ after := by
          rw [← ih, later, Option.some.injEq]
        rw [Prod.mk.injEq] at rest
        simp only [Option.some.injEq, Prod.mk.injEq, List.cons.injEq, List.cons_append, and_assoc, rest]

/-! ### The extension -/

theorem snd_split_eq_some_iff {name extension : List α} (nonempty : extension ≠ []) :
    (split dot name).2 = some extension ↔
      ∃ base, base ≠ [] ∧ name = base ++ dot :: extension ∧ dot ∉ extension := by
  rw [split]
  split_ifs with parent
  · subst parent
    refine ⟨fun h => ?_, fun ⟨base, base_ne, whole, clear⟩ => ?_⟩
    · cases h
    · have parted : splitLastDot dot [dot, dot] = some ([dot], []) := by simp [splitLastDot]
      rw [splitLastDot_eq_some_iff.mpr ⟨whole, clear⟩] at parted
      cases parted
      exact absurd rfl nonempty
  · cases last : splitLastDot dot name with
    | none =>
      have clear : dot ∉ name := splitLastDot_eq_none_iff.mp last
      refine ⟨fun h => ?_, fun ⟨base, base_ne, whole, _⟩ => ?_⟩
      · cases h
      · exact absurd (whole ▸ List.mem_append_right base List.mem_cons_self) clear
    | some parts =>
      obtain ⟨front, back⟩ := parts
      have whole : ∀ base, name = base ++ dot :: extension ∧ dot ∉ extension ↔ front = base ∧ back = extension := by
        intro base
        rw [← splitLastDot_eq_some_iff, last, Option.some.injEq, Prod.mk.injEq]
      simp only [whole]
      cases front with
      | nil => simp
      | cons c cs => simp

end

/-! ### The base name -/

/-- Whether a name has the base name: all of it if there is no dot behind its first character, or if it is that of the
parent directory, and else what stands in front of its last dot. -/
inductive HasBase : List Char → List Char → Prop where
  | undotted {name : List Char} (clear : '.' ∉ name.tail) : HasBase name name
  | parent : HasBase ['.', '.'] ['.', '.']
  | extended {stem extension : List Char} (given : stem ≠ []) (last : '.' ∉ extension)
      (other : stem ++ '.' :: extension ≠ ['.', '.']) : HasBase (stem ++ '.' :: extension) stem

theorem base_of_undotted {name : List Char} (clear : '.' ∉ name.tail) : base name = name := by
  have notParent : name ≠ ['.', '.'] := by
    rintro rfl
    exact clear List.mem_cons_self
  rw [base, split, if_neg notParent]
  cases name with
  | nil => rfl
  | cons c cs =>
    have later : splitLastDot '.' cs = none := splitLastDot_eq_none_iff.mpr clear
    rw [splitLastDot, later]
    by_cases dot : c = '.'
    · rw [if_pos dot]
    · rw [if_neg dot]

theorem base_of_extended {stem extension : List Char} (given : stem ≠ []) (last : '.' ∉ extension)
    (other : stem ++ '.' :: extension ≠ ['.', '.']) : base (stem ++ '.' :: extension) = stem := by
  have found : splitLastDot '.' (stem ++ '.' :: extension) = some (stem, extension) :=
    splitLastDot_eq_some_iff.mpr ⟨rfl, last⟩
  obtain ⟨c, cs, rfl⟩ := List.exists_cons_of_ne_nil given
  rw [base, split, if_neg other, found]

/-- Each name has a base name. -/
theorem hasBase_base (name : List Char) : HasBase name (base name) := by
  by_cases parent : name = ['.', '.']
  · subst parent
    exact .parent
  · cases found : splitLastDot '.' name with
    | none =>
      have clear : '.' ∉ name.tail := fun dotted =>
        splitLastDot_eq_none_iff.mp found (List.mem_of_mem_tail dotted)
      rw [base_of_undotted clear]
      exact .undotted clear
    | some parts =>
      obtain ⟨front, extension⟩ := parts
      obtain ⟨rfl, last⟩ := splitLastDot_eq_some_iff.mp found
      by_cases hidden : front = []
      · -- The last dot is the first character, so it parts nothing.
        have clear : '.' ∉ (front ++ '.' :: extension).tail := by
          rw [hidden]
          exact last
        rw [base_of_undotted clear]
        exact .undotted clear
      · rw [base_of_extended hidden last parent]
        exact .extended hidden last parent

/-- It has no other one. -/
theorem hasBase_iff {name stem : List Char} : HasBase name stem ↔ base name = stem := by
  constructor
  · intro has
    cases has with
    | undotted clear => exact base_of_undotted clear
    | parent => rfl
    | extended given last other => exact base_of_extended given last other
  · rintro rfl
    exact hasBase_base name

/-- A base name begins the name that has it. -/
theorem HasBase.isPrefix {name stem : List Char} (has : HasBase name stem) : stem <+: name := by
  cases has with
  | undotted => exact List.prefix_rfl
  | parent => exact List.prefix_rfl
  | extended => exact List.prefix_append _ _

/-- Only the empty name has an empty base name. -/
theorem HasBase.eq_nil_iff {name stem : List Char} (has : HasBase name stem) : stem = [] ↔ name = [] := by
  cases has with
  | undotted => rfl
  | parent => rfl
  | extended given => exact iff_of_false given (List.append_ne_nil_of_left_ne_nil given _)

/-- A base name that is given an extension is found again, unless it is empty. -/
theorem base_append_extension {stem extension : List Char} (given : stem ≠ []) (nonempty : extension ≠ [])
    (last : '.' ∉ extension) : base (stem ++ '.' :: extension) = stem := by
  refine base_of_extended given last fun parent => ?_
  have long := congrArg List.length parent
  have front := List.length_pos_iff.mpr given
  have back := List.length_pos_iff.mpr nonempty
  rw [List.length_append, List.length_cons] at long
  simp only [List.length_cons, List.length_nil] at long
  omega

end FileName
end ComponentHoist
