import ComponentHoist.Proofs.Location

/-!
# ComponentHoist.Proofs.Cursor — a line and a column lead back to their offset

An editor that is told a line and a column skips lines and then characters.  Every offset between two characters has a
location of its own, and skipping as it says leads back to that offset.

* `Text.isValid_iff_exists_split`: the offsets between characters are those of the splits of a text.
* `Text.offsetAt?`: the offset to which a line and a column lead, found by skipping.
* `Text.offsetAt?_eq_some_iff`: it is the offset of the beginning of the text behind which that place is.
* `Text.Location.after_lt_after_append`: the place moves on with every character.
* `Text.locate_identifies`: locations tell offsets apart, in the order in which these are.
-/

namespace ComponentHoist
namespace Text

/-! ### Offsets between characters -/

theorem utf8ByteSize_ofList_eq (cs : List Char) : (String.ofList cs).utf8ByteSize = byteLength cs := by
  induction cs with
  | nil => rfl
  | cons c cs ih => rw [String.ofList_cons, String.utf8ByteSize_append, String.utf8ByteSize_singleton, ih, byteLength]

theorem byteLength_toList (source : String) : byteLength source.toList = source.utf8ByteSize := by
  rw [← utf8ByteSize_ofList_eq, String.ofList_toList]

theorem isValid_iff_exists_split (source : String) (offset : Nat) :
    String.Pos.Raw.IsValid source ⟨offset⟩ ↔
      ∃ before after, source.toList = before ++ after ∧ byteLength before = offset := by
  rw [String.Pos.Raw.isValid_iff_exists_append]
  constructor
  · rintro ⟨before, after, rfl, same⟩
    have length : offset = before.utf8ByteSize := congrArg String.Pos.Raw.byteIdx same
    exact ⟨before.toList, after.toList, String.toList_append, by rw [byteLength_toList, length]⟩
  · rintro ⟨before, after, split, rfl⟩
    refine ⟨String.ofList before, String.ofList after, ?_, ?_⟩
    · rw [← String.ofList_append, ← split, String.ofList_toList]
    · rw [← utf8ByteSize_ofList_eq]
      rfl

/-- There is one split for each offset. -/
theorem locate_of_isValid {source : String} {offset : Nat} (valid : String.Pos.Raw.IsValid source ⟨offset⟩) :
    ∃ before after, source.toList = before ++ after ∧ byteLength before = offset ∧
      locate source offset = Location.after before := by
  obtain ⟨before, after, split, rfl⟩ := (isValid_iff_exists_split source offset).mp valid
  exact ⟨before, after, split, rfl, locate_of_split split⟩

/-! ### Skipping lines and characters -/

/-- The first lines of a text, each with the line feed that ends it, and the text behind them. -/
def splitLines : Nat → List Char → Option (List Char × List Char)
  | 0, cs => some ([], cs)
  | _ + 1, [] => none
  | n + 1, c :: cs => (splitLines (if c = '\n' then n else n + 1) cs).map fun (lines, rest) => (c :: lines, rest)

/-- The first characters of a text, if they all stand on its first line, and the text behind them. -/
def splitColumns : Nat → List Char → Option (List Char × List Char)
  | 0, cs => some ([], cs)
  | _ + 1, [] => none
  | n + 1, c :: cs => if c = '\n' then none else (splitColumns n cs).map fun (start, rest) => (c :: start, rest)

/-- The offset to which a line and a column lead, both counted from one, if the text has such a line and the line is
that long. -/
def offsetAt? (source : String) : Location → Option Nat
  | ⟨line + 1, column + 1⟩ => do
    let (lines, rest) ← splitLines line source.toList
    let (start, _) ← splitColumns column rest
    return byteLength lines + byteLength start
  | _ => none

/-- Whether a text consists of lines that all end in a line feed. -/
def EndsLine (lines : List Char) : Prop :=
  ∀ c, lines.getLast? = some c → c = '\n'

theorem endsLine_nil : EndsLine [] := by
  intro c last
  cases last

theorem endsLine_concat (cs : List Char) : EndsLine (cs ++ ['\n']) := by
  intro c last
  rw [List.getLast?_concat] at last
  exact (Option.some.inj last).symm

theorem EndsLine.eq_nil_of_count {lines : List Char} (ends : EndsLine lines) (none : lines.count '\n' = 0) :
    lines = [] := by
  by_contra nonempty
  have feed : lines.getLast nonempty = '\n' := ends _ (List.getLast?_eq_some_getLast nonempty)
  exact List.count_eq_zero.mp none (feed ▸ List.getLast_mem nonempty)

theorem endsLine_cons_iff {c : Char} {lines : List Char} :
    EndsLine (c :: lines) ↔ (lines = [] → c = '\n') ∧ EndsLine lines := by
  cases lines with
  | nil => simp [EndsLine]
  | cons c' lines => simp [EndsLine, List.getLast?_cons_cons]

theorem splitLines_zero (cs : List Char) : splitLines 0 cs = some ([], cs) := by
  cases cs <;> rfl

theorem splitLines_zero_eq_some_iff {cs lines rest : List Char} :
    splitLines 0 cs = some (lines, rest) ↔ cs = lines ++ rest ∧ lines.count '\n' = 0 ∧ EndsLine lines := by
  rw [splitLines_zero]
  constructor
  · intro split
    cases split
    exact ⟨rfl, rfl, endsLine_nil⟩
  · rintro ⟨rfl, feeds, ends⟩
    obtain rfl : lines = [] := ends.eq_nil_of_count feeds
    rfl

theorem splitLines_eq_some_iff {n : Nat} {cs lines rest : List Char} :
    splitLines n cs = some (lines, rest) ↔ cs = lines ++ rest ∧ lines.count '\n' = n ∧ EndsLine lines := by
  induction cs generalizing n lines with
  | nil =>
    cases n with
    | zero => exact splitLines_zero_eq_some_iff
    | succ n =>
      constructor
      · intro split
        cases split
      · rintro ⟨whole, feeds, -⟩
        obtain ⟨rfl, -⟩ := List.append_eq_nil_iff.mp whole.symm
        cases feeds
  | cons c cs ih =>
    cases n with
    | zero => exact splitLines_zero_eq_some_iff
    | succ n =>
      rw [splitLines, Option.map_eq_some_iff]
      constructor
      · rintro ⟨⟨later, rest'⟩, split, same⟩
        cases same
        obtain ⟨rfl, feeds, ends⟩ := ih.mp split
        refine ⟨rfl, ?_, endsLine_cons_iff.mpr ⟨fun empty => ?_, ends⟩⟩
        · rw [List.count_cons, feeds]
          by_cases feed : c = '\n' <;> simp [feed]
        · -- Without a line feed here there would be one to come.
          by_contra other
          rw [if_neg other, empty] at feeds
          cases feeds
      · rintro ⟨whole, feeds, ends⟩
        cases lines with
        | nil => cases feeds
        | cons c' later =>
          obtain ⟨rfl, rfl⟩ := List.cons.inj whole
          refine ⟨(later, rest), ih.mpr ⟨rfl, ?_, (endsLine_cons_iff.mp ends).2⟩, rfl⟩
          rw [List.count_cons] at feeds
          by_cases feed : c = '\n'
          · simpa [feed] using feeds
          · simpa [feed] using feeds

theorem splitColumns_eq_some_iff {n : Nat} {cs start rest : List Char} :
    splitColumns n cs = some (start, rest) ↔ cs = start ++ rest ∧ start.length = n ∧ '\n' ∉ start := by
  induction cs generalizing n start with
  | nil =>
    cases n <;> cases start <;> simp [splitColumns, eq_comm]
  | cons c cs ih =>
    cases n with
    | zero => cases start <;> simp [splitColumns, eq_comm]
    | succ n =>
      rw [splitColumns]
      by_cases feed : c = '\n'
      · rw [if_pos feed]
        constructor
        · intro split
          cases split
        · rintro ⟨whole, length, free⟩
          cases start with
          | nil => cases length
          | cons c' later =>
            obtain ⟨rfl, -⟩ := List.cons.inj whole
            exact absurd (feed ▸ List.mem_cons_self) free
      · rw [if_neg feed, Option.map_eq_some_iff]
        constructor
        · rintro ⟨⟨later, rest'⟩, split, same⟩
          cases same
          obtain ⟨rfl, rfl, free⟩ := ih.mp split
          exact ⟨rfl, rfl, by simpa [eq_comm] using And.intro feed free⟩
        · rintro ⟨whole, length, free⟩
          cases start with
          | nil => cases length
          | cons c' later =>
            obtain ⟨rfl, rfl⟩ := List.cons.inj whole
            exact ⟨(later, rest), ih.mpr ⟨rfl, Nat.succ.inj length, fun h => free (List.mem_cons_of_mem _ h)⟩, rfl⟩

/-! ### The place behind whole lines and a part of one -/

namespace Location

theorem after_of_endsLine {lines : List Char} (ends : EndsLine lines) :
    after lines = ⟨succ (lines.count '\n'), 1⟩ := by
  induction lines using List.reverseRecOn with
  | nil => rfl
  | append_singleton cs c ih =>
    obtain rfl : c = '\n' := ends c List.getLast?_concat
    rw [after_append_singleton, next, if_pos rfl, line_after, List.count_append, List.count_singleton_self,
      succ_succ]

theorem after_append_of_free {lines start : List Char} (ends : EndsLine lines) (free : '\n' ∉ start) :
    after (lines ++ start) = ⟨succ (lines.count '\n'), succ start.length⟩ := by
  induction start using List.reverseRecOn with
  | nil =>
    rw [List.append_nil, after_of_endsLine ends]
    rfl
  | append_singleton cs c ih =>
    obtain ⟨free, other⟩ : '\n' ∉ cs ∧ c ≠ '\n' := by simpa [not_or, eq_comm] using free
    rw [← List.append_assoc, after_append_singleton, ih free, next, if_neg other, List.length_append,
      List.length_singleton, succ_succ]

theorem after_append_of_short {lines start : List Char} (ends : EndsLine lines) (free : '\n' ∉ start)
    (short : (lines ++ start).length < UInt32.size - 1) :
    after (lines ++ start) = ⟨lines.count '\n' + 1, start.length + 1⟩ := by
  have feeds : lines.count '\n' ≤ lines.length := List.count_le_length
  rw [List.length_append] at short
  rw [after_append_of_free ends free, succ_of_lt (by omega), succ_of_lt (by omega)]

/-- A text is made of whole lines and a part of one. -/
theorem exists_lines (cs : List Char) :
    ∃ lines start, cs = lines ++ start ∧ EndsLine lines ∧ '\n' ∉ start := by
  induction cs using List.reverseRecOn with
  | nil => exact ⟨[], [], rfl, endsLine_nil, List.not_mem_nil⟩
  | append_singleton cs c ih =>
    by_cases feed : c = '\n'
    · subst feed
      exact ⟨cs ++ ['\n'], [], (List.append_nil _).symm, endsLine_concat cs, List.not_mem_nil⟩
    · obtain ⟨lines, start, rfl, ends, free⟩ := ih
      refine ⟨lines, start ++ [c], List.append_assoc .., ends, ?_⟩
      simpa [not_or, eq_comm] using And.intro free feed

end Location

/-- A line and a column lead to an offset if and only if they are the place behind the beginning of the text that is as
long as that. -/
theorem offsetAt?_eq_some_iff {source : String} (short : byteLength source.toList < UInt32.size - 1)
    {place : Location} {offset : Nat} :
    offsetAt? source place = some offset ↔
      ∃ before after, source.toList = before ++ after ∧ byteLength before = offset ∧
        Location.after before = place := by
  constructor
  · intro found
    obtain ⟨_ | line, _ | column⟩ := place
    · cases found
    · cases found
    · cases found
    · simp only [offsetAt?, Option.bind_eq_bind, Option.bind_eq_some_iff] at found
      obtain ⟨⟨lines, rest⟩, skipped, ⟨start, after⟩, walked, length⟩ := found
      obtain ⟨whole, rfl, ends⟩ := splitLines_eq_some_iff.mp skipped
      obtain ⟨rfl, rfl, free⟩ := splitColumns_eq_some_iff.mp walked
      have split : source.toList = lines ++ start ++ after := by rw [whole, List.append_assoc]
      have fits := Nat.lt_of_le_of_lt (length_le_of_split split) short
      refine ⟨lines ++ start, after, split, ?_, Location.after_append_of_short ends free fits⟩
      · rw [byteLength_append]
        exact Option.some.inj length
  · rintro ⟨before, after, whole, rfl, rfl⟩
    obtain ⟨lines, start, rfl, ends, free⟩ := Location.exists_lines before
    have fits := Nat.lt_of_le_of_lt (length_le_of_split whole) short
    have skipped : splitLines (lines.count '\n') source.toList = some (lines, start ++ after) :=
      splitLines_eq_some_iff.mpr ⟨by rw [whole, List.append_assoc], rfl, ends⟩
    have walked : splitColumns start.length (start ++ after) = some (start, after) :=
      splitColumns_eq_some_iff.mpr ⟨rfl, rfl, free⟩
    rw [Location.after_append_of_short ends free fits, offsetAt?, skipped, byteLength_append]
    show (splitColumns start.length (start ++ after)).bind _ = _
    rw [walked]
    rfl

/-! ### The order of places -/

namespace Location

/-- Places are ordered by line, and by column within a line. -/
instance : LT Location :=
  ⟨fun place later => place.line < later.line ∨ place.line = later.line ∧ place.column < later.column⟩

theorem lt_iff {place later : Location} :
    place < later ↔ place.line < later.line ∨ place.line = later.line ∧ place.column < later.column :=
  Iff.rfl

theorem lt_trans {a b c : Location} (first : a < b) (second : b < c) : a < c := by
  rw [lt_iff] at first second ⊢
  omega

theorem lt_next {place : Location} (line : place.line < UInt32.size - 1) (column : place.column < UInt32.size - 1)
    (c : Char) : place < place.next c := by
  rw [lt_iff, next]
  by_cases feed : c = '\n'
  · rw [if_pos feed, succ_of_lt line]
    exact .inl (Nat.lt_succ_self _)
  · rw [if_neg feed, succ_of_lt column]
    exact .inr ⟨rfl, Nat.lt_succ_self _⟩

theorem after_lt_next {cs : List Char} {c : Char} (short : (cs ++ [c]).length < UInt32.size - 1) :
    after cs < (after cs).next c := by
  rw [List.length_append, List.length_singleton] at short
  have feeds : cs.count '\n' ≤ cs.length := List.count_le_length
  have columns : (cs.rtakeWhile fun c => c ≠ '\n').length ≤ cs.length := (List.rtakeWhile_suffix _ cs).length_le
  have fits : cs.length < UInt32.size - 1 := by omega
  refine lt_next ?_ ?_ c
  · rw [line_after_of_short fits]
    omega
  · rw [column_after_of_short fits]
    omega

/-- Every character moves the place on. -/
theorem after_lt_after_append (before : List Char) {more : List Char} (nonempty : more ≠ [])
    (short : (before ++ more).length < UInt32.size - 1) : after before < after (before ++ more) := by
  induction more using List.reverseRecOn with
  | nil => exact absurd rfl nonempty
  | append_singleton more c ih =>
    rw [← List.append_assoc] at short ⊢
    have step : after (before ++ more) < after (before ++ more ++ [c]) := by
      rw [after_append_singleton]
      exact after_lt_next short
    by_cases last : more = []
    · rw [last, List.append_nil] at step ⊢
      exact step
    · refine lt_trans (ih last ?_) step
      rw [List.length_append] at short
      exact Nat.lt_of_le_of_lt (Nat.le_add_right _ _) short

end Location

/-- Of two beginnings of a text the one with fewer bytes is the beginning of the other. -/
theorem exists_append_of_byteLength_lt {before after before' after' : List Char}
    (same : before ++ after = before' ++ after') (shorter : byteLength before < byteLength before') :
    ∃ more, before' = before ++ more ∧ more ≠ [] := by
  rcases List.append_eq_append_iff.mp same with ⟨more, rfl, -⟩ | ⟨more, rfl, -⟩
  · refine ⟨more, rfl, ?_⟩
    rintro rfl
    rw [List.append_nil] at shorter
    exact absurd shorter (Nat.lt_irrefl _)
  · rw [byteLength_append] at shorter
    omega

theorem locate_lt_locate {source : String} (short : byteLength source.toList < UInt32.size - 1)
    {offset later : Nat} (valid : String.Pos.Raw.IsValid source ⟨offset⟩)
    (valid' : String.Pos.Raw.IsValid source ⟨later⟩) (less : offset < later) :
    locate source offset < locate source later := by
  obtain ⟨before, after, split, rfl, located⟩ := locate_of_isValid valid
  obtain ⟨before', after', split', rfl, located'⟩ := locate_of_isValid valid'
  obtain ⟨more, rfl, nonempty⟩ := exists_append_of_byteLength_lt (split.symm.trans split') less
  rw [located, located']
  exact Location.after_lt_after_append before nonempty (Nat.lt_of_le_of_lt (length_le_of_split split') short)

theorem offsetAt?_locate {source : String} (short : byteLength source.toList < UInt32.size - 1) {offset : Nat}
    (valid : String.Pos.Raw.IsValid source ⟨offset⟩) : offsetAt? source (locate source offset) = some offset := by
  obtain ⟨before, after, split, length, located⟩ := locate_of_isValid valid
  exact (offsetAt?_eq_some_iff short).mpr ⟨before, after, split, length, located.symm⟩

/-- An offset past the end has the location of the end. -/
theorem locate_of_le {source : String} {offset : Nat} (past : source.utf8ByteSize ≤ offset) :
    locate source offset = Location.after source.toList := by
  obtain ⟨before, after, split, located, length | rfl⟩ := exists_locate_eq source offset
  · have none : byteLength after = 0 := by
      have total : byteLength before + byteLength after = source.utf8ByteSize := by
        rw [← byteLength_append, ← split, byteLength_toList]
      omega
    have empty : after = [] := List.length_eq_zero_iff.mp (Nat.le_zero.mp (none ▸ length_le_byteLength after))
    rw [located, split, empty, List.append_nil]
  · rw [located, split, List.append_nil]

/-- Whatever a text is made of, each of its offsets between characters is where its line and its column lead, and no
other line and column lead there.  So locations are in the order of the offsets and differ where these do.  An offset
past the end has the location of the end.  Locations in a text that is shorter than 32-bit counters reach fit these. -/
theorem locate_identifies (source : String) (short : source.utf8ByteSize < UInt32.size - 1) :
    (∀ offset place, offsetAt? source place = some offset ↔
      String.Pos.Raw.IsValid source ⟨offset⟩ ∧ locate source offset = place) ∧
    (∀ offset later, String.Pos.Raw.IsValid source ⟨offset⟩ → String.Pos.Raw.IsValid source ⟨later⟩ →
      offset < later → locate source offset < locate source later) ∧
    (∀ offset offset', String.Pos.Raw.IsValid source ⟨offset⟩ → String.Pos.Raw.IsValid source ⟨offset'⟩ →
      locate source offset = locate source offset' → offset = offset') ∧
    (∀ offset, source.utf8ByteSize ≤ offset → locate source offset = locate source source.utf8ByteSize) ∧
    ∀ offset, (locate source offset).line < UInt32.size ∧ (locate source offset).column < UInt32.size := by
  rw [← byteLength_toList] at short
  refine ⟨fun offset place => ⟨fun leads => ?_, ?_⟩, fun offset later => locate_lt_locate short, ?_, ?_, ?_⟩
  · obtain ⟨before, after, split, rfl, rfl⟩ := (offsetAt?_eq_some_iff short).mp leads
    exact ⟨(isValid_iff_exists_split source _).mpr ⟨before, after, split, rfl⟩, locate_of_split split⟩
  · rintro ⟨valid, rfl⟩
    exact offsetAt?_locate short valid
  · intro offset offset' valid valid' same
    have leads : offsetAt? source (locate source offset) = some offset' := by rw [same, offsetAt?_locate short valid']
    exact Option.some.inj ((offsetAt?_locate short valid).symm.trans leads)
  · intro offset past
    rw [locate_of_le past, locate_of_le (Nat.le_refl _)]
  · intro offset
    obtain ⟨⟨-, line⟩, -, column⟩ := locate_bounds short offset
    omega

/-- A text of two lines with characters of one, two and four bytes, a carriage return and a line feed at its end. -/
def mixedText : String :=
  "é\r\nx😀\n"

/-- The last line feed stands on the second line, and the end of the text is the beginning of a third one. -/
theorem locate_identifies_mixedText :
    mixedText.utf8ByteSize < UInt32.size - 1 ∧
      (String.Pos.Raw.IsValid mixedText ⟨9⟩ ∧ locate mixedText 9 = ⟨2, 3⟩) ∧
      offsetAt? mixedText ⟨2, 4⟩ ≠ some 10 ∧ locate mixedText 9 < locate mixedText 10 ∧
      locate mixedText 99 = ⟨3, 1⟩ := by
  have size : mixedText.utf8ByteSize = 10 := by decide
  have short : mixedText.utf8ByteSize < UInt32.size - 1 := by rw [size]; decide
  obtain ⟨leads, ordered, -, past, -⟩ := locate_identifies mixedText short
  have ninth : String.Pos.Raw.IsValid mixedText ⟨9⟩ ∧ locate mixedText 9 = ⟨2, 3⟩ :=
    (leads 9 ⟨2, 3⟩).mp (by decide)
  have tenth : String.Pos.Raw.IsValid mixedText ⟨10⟩ ∧ locate mixedText 10 = ⟨3, 1⟩ :=
    (leads 10 ⟨3, 1⟩).mp (by decide)
  refine ⟨short, ninth, ?_, ordered 9 10 ninth.1 tenth.1 (by decide), ?_⟩
  · intro wrong
    have impossible : locate mixedText 10 = ⟨2, 4⟩ := ((leads 10 ⟨2, 4⟩).mp wrong).2
    rw [tenth.2] at impossible
    cases impossible
  · rw [past 99 (by rw [size]; decide), size, tenth.2]

end Text
end ComponentHoist
