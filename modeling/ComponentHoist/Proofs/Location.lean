import ComponentHoist.Text.Offset
import Mathlib.Data.List.DropRight

/-!
# ComponentHoist.Proofs.Location — the line and the column of an offset

* `Text.splitAtByte_append`, `Text.splitAtByte_sound`: an offset is the same as a split of the text.
* `Text.Location.line_after`, `Text.Location.column_after`: the place behind a text, by its line feeds.
* `Text.exists_locate_eq`: the location of any offset is the place behind a beginning of the text.
* `Text.locate_bounds`, `Text.not_overflows_locate`: in a text that is short enough for 32-bit numbers, lines and
  columns count from one, and no further than the text is long.
-/

namespace ComponentHoist
namespace Text

/-! ### Offsets and splits -/

theorem byteLength_append (before after : List Char) :
    byteLength (before ++ after) = byteLength before + byteLength after := by
  induction before with
  | nil => simp [byteLength]
  | cons c before ih =>
    rw [List.cons_append, byteLength, byteLength, ih]
    omega

theorem length_le_byteLength (cs : List Char) : cs.length ≤ byteLength cs := by
  induction cs with
  | nil => exact Nat.le_refl 0
  | cons c cs ih =>
    have wide := c.utf8Size_pos
    rw [List.length_cons, byteLength]
    omega

/-- Splitting behind a beginning of the text gives that beginning. -/
theorem splitAtByte_append (before after : List Char) :
    splitAtByte (byteLength before) (before ++ after) = some (before, after) := by
  induction before with
  | nil => simp [byteLength, splitAtByte]
  | cons c before ih =>
    obtain ⟨n, width⟩ : ∃ n, c.utf8Size + byteLength before = n + 1 :=
      Nat.exists_eq_add_one.mpr (Nat.add_pos_left c.utf8Size_pos _)
    have inside : c.utf8Size ≤ n + 1 := by omega
    have remaining : n + 1 - c.utf8Size = byteLength before := by omega
    rw [byteLength, width, List.cons_append, splitAtByte, if_pos inside, remaining, ih]
    rfl

/-- A split puts the text together again, and its first part has as many bytes as the offset says. -/
theorem splitAtByte_sound {offset : Nat} {cs before after : List Char}
    (split : splitAtByte offset cs = some (before, after)) : cs = before ++ after ∧ byteLength before = offset := by
  induction cs generalizing offset before with
  | nil =>
    cases offset with
    | zero =>
      cases split
      exact ⟨rfl, rfl⟩
    | succ n => cases split
  | cons c cs ih =>
    cases offset with
    | zero =>
      cases split
      exact ⟨rfl, rfl⟩
    | succ n =>
      rw [splitAtByte] at split
      by_cases inside : c.utf8Size ≤ n + 1
      · rw [if_pos inside] at split
        obtain ⟨⟨before', after'⟩, later, same⟩ := Option.map_eq_some_iff.mp split
        cases same
        obtain ⟨rfl, length⟩ := ih later
        refine ⟨rfl, ?_⟩
        rw [byteLength, length]
        omega
      · rw [if_neg inside] at split
        cases split

/-! ### The place behind a text -/

namespace Location

theorem after_append_singleton (cs : List Char) (c : Char) : after (cs ++ [c]) = (after cs).next c := by
  rw [after, List.foldl_append]
  rfl

theorem succ_succ (n : Nat) : succ (succ n) = succ (n + 1) :=
  Nat.mod_add_mod (n + 1) UInt32.size 1

theorem line_after (cs : List Char) : (after cs).line = succ (cs.count '\n') := by
  induction cs using List.reverseRecOn with
  | nil => rfl
  | append_singleton cs c ih =>
    rw [after_append_singleton, next, List.count_append]
    by_cases feed : c = '\n'
    · subst feed
      rw [if_pos rfl, ih, List.count_singleton_self]
      exact succ_succ _
    · rw [if_neg feed, List.count_singleton, if_neg (by simpa using feed)]
      exact ih

theorem column_after (cs : List Char) : (after cs).column = succ (cs.rtakeWhile fun c => c ≠ '\n').length := by
  induction cs using List.reverseRecOn with
  | nil => rfl
  | append_singleton cs c ih =>
    rw [after_append_singleton, next]
    by_cases feed : c = '\n'
    · rw [if_pos feed, List.rtakeWhile_concat_neg _ _ _ (by simpa using feed)]
      rfl
    · rw [if_neg feed, List.rtakeWhile_concat_pos _ _ _ (by simpa using feed), List.length_append, ih]
      exact succ_succ _

/-- Numbers that fit are counted as they are. -/
theorem succ_of_lt {n : Nat} (fits : n < UInt32.size - 1) : succ n = n + 1 :=
  Nat.mod_eq_of_lt (Nat.add_lt_of_lt_sub fits)

theorem line_after_of_short {cs : List Char} (short : cs.length < UInt32.size - 1) :
    (after cs).line = cs.count '\n' + 1 := by
  rw [line_after, succ_of_lt (Nat.lt_of_le_of_lt List.count_le_length short)]

theorem column_after_of_short {cs : List Char} (short : cs.length < UInt32.size - 1) :
    (after cs).column = (cs.rtakeWhile fun c => c ≠ '\n').length + 1 := by
  rw [column_after, succ_of_lt (Nat.lt_of_le_of_lt (List.rtakeWhile_suffix _ cs).length_le short)]

end Location

/-! ### Locations in a source text -/

theorem locate_of_split {source : String} {before after : List Char} (split : source.toList = before ++ after) :
    locate source (byteLength before) = Location.after before := by
  rw [locate, split, splitAtByte_append]

/-- An offset that is no split has the location of the end of the text. -/
theorem exists_locate_eq (source : String) (offset : Nat) :
    ∃ before after, source.toList = before ++ after ∧ locate source offset = Location.after before ∧
      (byteLength before = offset ∨ after = []) := by
  cases split : splitAtByte offset source.toList with
  | some parts =>
    obtain ⟨whole, length⟩ := splitAtByte_sound split
    exact ⟨parts.1, parts.2, whole, by rw [locate, split], .inl length⟩
  | none => exact ⟨source.toList, [], (List.append_nil _).symm, by rw [locate, split], .inr rfl⟩

theorem length_le_of_split {source : String} {before after : List Char} (split : source.toList = before ++ after) :
    before.length ≤ byteLength source.toList := by
  rw [split, byteLength_append]
  exact Nat.le_trans (length_le_byteLength before) (Nat.le_add_right _ _)

/-- In a text that is not too long, lines and columns count from one, and no further than the text is long. -/
theorem locate_bounds {source : String} (short : byteLength source.toList < UInt32.size - 1) (offset : Nat) :
    let place := locate source offset
    let longest := byteLength source.toList + 1
    (1 ≤ place.line ∧ place.line ≤ longest) ∧ 1 ≤ place.column ∧ place.column ≤ longest := by
  intro place longest
  obtain ⟨before, after, whole, (located : place = _), -⟩ := exists_locate_eq source offset
  have inside := length_le_of_split whole
  have lines : before.count '\n' ≤ before.length := List.count_le_length
  have columns : (before.rtakeWhile fun c => c ≠ '\n').length ≤ before.length :=
    (List.rtakeWhile_suffix _ before).length_le
  have fits : before.length < UInt32.size - 1 := Nat.lt_of_le_of_lt inside short
  rw [located, Location.line_after_of_short fits, Location.column_after_of_short fits]
  omega

/-- So no number of a location in it overflows. -/
theorem not_overflows_locate {source : String} (short : byteLength source.toList < UInt32.size - 1) (offset : Nat) :
    ¬(locate source offset).Overflows := by
  obtain ⟨⟨line, -⟩, column, -⟩ := locate_bounds short offset
  rintro (zero | zero)
  · exact absurd (zero ▸ line) (by decide)
  · exact absurd (zero ▸ column) (by decide)

end Text
end ComponentHoist
