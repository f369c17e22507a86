import ComponentHoist.PathName
import Mathlib.Data.List.Basic

/-!
# ComponentHoist.Proofs.PathOrder — paths compared by their components

Paths are compared component by component, and names byte by byte.  So `a/z.ts` comes before `a-b.ts`, although the
dash has a smaller code than the slash.

* `PathName.Component`, `PathName.parts`: the components of a path, without those that lead nowhere.
* `PathName.Precedes`: the order of paths.
* `PathName.parts_join`: a place below a directory has the components of the directory in front of its own names.
* `PathName.precedes_join`: so below one directory, paths are in the order of their places.
-/

namespace ComponentHoist

namespace PathName

/-! ### Components and their order -/

/-- A component of a path, as it counts in comparisons. -/
inductive Component where
  /-- The slash that a path begins with. -/
  | root
  /-- The dot that a path begins with. -/
  | here
  | parent
  | name (bytes : Name)
deriving DecidableEq

namespace Component

/-- The place of the kind of a component among the kinds. -/
def rank : Component → Nat
  | root => 0
  | here => 1
  | parent => 2
  | name _ => 3

/-- The bytes of the component, if it is a name. -/
def bytes : Component → List UInt8
  | name bytes => bytes
  | _ => []

/-- Components are ordered by their kinds, and names by their bytes. -/
instance : LT Component :=
  ⟨fun a b => a.rank < b.rank ∨ a.rank = b.rank ∧ a.bytes < b.bytes⟩

instance (a b : Component) : Decidable (a < b) :=
  inferInstanceAs (Decidable (a.rank < b.rank ∨ a.rank = b.rank ∧ a.bytes < b.bytes))

/-- A component that leads to another place. -/
def ofStep (step : Name) : Component :=
  if step = Name.parent then parent else name step

theorem name_lt_name {a b : Name} (less : a < b) : name a < name b :=
  .inr ⟨rfl, less⟩

theorem name_injective : Function.Injective name := by
  intro a b same
  cases same
  rfl

end Component

/-- The component in front that leads nowhere, but counts. -/
def leading : List Name → List Component
  | [] => []
  | first :: rest =>
    if first = [] ∧ rest ≠ [] then [.root] else if first = Name.here then [.here] else []

/-- The components of a path that count in comparisons.  Slashes that follow a slash or the last name do not count, nor
do dots behind the first component. -/
def parts (path : PathName) : List Component :=
  leading path.components ++ (path.components.filter isStep).map .ofStep

/-- Whether a path comes before another one: at the first component in which they differ it has the smaller one, or it
has none there. -/
def Precedes (path later : PathName) : Prop :=
  path.parts < later.parts

instance (path later : PathName) : Decidable (Precedes path later) :=
  inferInstanceAs (Decidable (path.parts < later.parts))

/-! ### Places below a directory -/

/-- Whether a directory can have an entry of that name. -/
structure IsName (name : Name) : Prop where
  isStep : isStep name = true
  notParent : name ≠ Name.parent
  noSlash : slash ∉ name

instance (name : Name) : Decidable (IsName name) :=
  decidable_of_iff (isStep name = true ∧ name ≠ Name.parent ∧ slash ∉ name)
    ⟨fun ⟨step, below, whole⟩ => ⟨step, below, whole⟩, fun ⟨step, below, whole⟩ => ⟨step, below, whole⟩⟩

theorem components_ne_nil (path : PathName) : path.components ≠ [] :=
  pieces_ne_nil _

theorem pieces_intercalate {place : List Name} (names : ∀ name ∈ place, IsName name) (below : place ≠ []) :
    pieces ([slash].intercalate place) = place := by
  induction place with
  | nil => exact absurd rfl below
  | cons name rest ih =>
    have first : pieces name = [name] := pieces_of_notMem (names name List.mem_cons_self).noSlash
    cases rest with
    | nil =>
      rw [List.intercalate_singleton]
      exact first
    | cons next rest =>
      have later := ih (fun n h => names n (List.mem_cons_of_mem _ h)) (List.cons_ne_nil _ _)
      rw [List.intercalate_cons_cons, List.append_assoc, List.singleton_append, pieces_append_slash, first, later]
      rfl

theorem bytes_join {root : PathName} {place : List Name} (below : place ≠ []) :
    (root.join place).bytes =
      root.bytes ++ (if root.endsInSlash then [] else [slash]) ++ [slash].intercalate place := by
  cases place with
  | nil => exact absurd rfl below
  | cons name rest => rfl

/-- The names of a place follow the components of the directory.  A slash at the end of the directory's path makes an
empty component, which is gone then. -/
theorem components_join (root : PathName) {place : List Name} (names : ∀ name ∈ place, IsName name)
    (below : place ≠ []) :
    ∃ front, front ≠ [] ∧ (root.components = front ∨ root.components = front ++ [[]]) ∧
      (root.join place).components = front ++ place := by
  rw [components, components, bytes_join below]
  by_cases slashed : root.endsInSlash
  · obtain ⟨front, ends⟩ : ∃ front, root.bytes = front ++ [slash] := by
      rw [endsInSlash, decide_eq_true_iff, List.getLast?_eq_some_iff] at slashed
      exact slashed
    refine ⟨pieces front, pieces_ne_nil _, .inr ?_, ?_⟩
    · rw [ends, pieces_append_slash]
      rfl
    · rw [if_pos slashed, List.append_nil, ends, List.append_assoc, List.singleton_append, pieces_append_slash,
        pieces_intercalate names below]
  · refine ⟨pieces root.bytes, pieces_ne_nil _, .inl rfl, ?_⟩
    rw [if_neg slashed, List.append_assoc, List.singleton_append, pieces_append_slash, pieces_intercalate names below]

theorem leading_cons_append (first : Name) (rest : List Name) {more more' : List Name} (more_ne : more ≠ [])
    (more'_ne : more' ≠ []) : leading (first :: rest ++ more) = leading (first :: rest ++ more') := by
  simp [leading, more_ne, more'_ne]

theorem eq_nil_of_pieces {bs : List UInt8} (bare : pieces bs = [[]]) : bs = [] := by
  cases bs with
  | nil => rfl
  | cons b bs =>
    rw [pieces] at bare
    by_cases slashed : b = slash
    · rw [if_pos slashed] at bare
      exact absurd (List.cons.inj bare).2 (pieces_ne_nil bs)
    · obtain ⟨first, rest, split⟩ := List.exists_cons_of_ne_nil (pieces_ne_nil bs)
      rw [if_neg slashed, split] at bare
      cases bare

theorem leading_append_of_path {path : PathName} (nonempty : path.bytes ≠ []) (more : List Name) :
    leading (path.components ++ more) = leading path.components := by
  obtain ⟨first, rest, split⟩ := List.exists_cons_of_ne_nil (components_ne_nil path)
  have known : first ≠ [] ∨ rest ≠ [] := by
    by_contra both
    obtain ⟨rfl, rfl⟩ : first = [] ∧ rest = [] := by simpa using both
    exact nonempty (eq_nil_of_pieces split)
  rw [split, List.cons_append, leading, leading]
  rcases known with known | known
  · simp [known]
  · simp [known]

theorem steps_of_isName {place : List Name} (names : ∀ name ∈ place, IsName name) :
    (place.filter isStep).map Component.ofStep = place.map .name := by
  rw [List.filter_eq_self.mpr fun name h => (names name h).isStep]
  exact List.map_congr_left fun name h => if_neg (names name h).notParent

/-- A place below a directory has the components of the directory in front of its own names. -/
theorem parts_join {root : PathName} {place : List Name} (nonempty : root.bytes ≠ [])
    (names : ∀ name ∈ place, IsName name) : (root.join place).parts = root.parts ++ place.map .name := by
  by_cases below : place = []
  · rw [below]
    exact (List.append_nil _).symm
  · obtain ⟨front, front_ne, slashed, joined⟩ := components_join root names below
    have same : leading (front ++ place) = leading root.components := by
      rcases slashed with whole | whole
      · rw [← whole, leading_append_of_path nonempty]
      · obtain ⟨first, rest, rfl⟩ := List.exists_cons_of_ne_nil front_ne
        rw [whole, leading_cons_append first rest below (List.cons_ne_nil [] [])]
    have steps : front.filter isStep = root.components.filter isStep := by
      rcases slashed with whole | whole
      · rw [whole]
      · rw [whole, List.filter_append]
        exact (List.append_nil _).symm
    rw [parts, parts, joined, same, List.filter_append, List.map_append, steps_of_isName names, steps,
      List.append_assoc]

theorem join_injOn {root : PathName} {place place' : List Name} (nonempty : root.bytes ≠ [])
    (names : ∀ name ∈ place, IsName name) (names' : ∀ name ∈ place', IsName name)
    (same : root.join place = root.join place') : place = place' := by
  have parts_eq : root.parts ++ place.map .name = root.parts ++ place'.map .name := by
    rw [← parts_join nonempty names, same, parts_join nonempty names']
  exact List.map_injective_iff.mpr Component.name_injective (List.append_cancel_left parts_eq)

/-- Below one directory, paths are in the order of their places. -/
theorem precedes_join {root : PathName} {place later : List Name} (nonempty : root.bytes ≠ [])
    (names : ∀ name ∈ place, IsName name) (names' : ∀ name ∈ later, IsName name) (less : place < later) :
    Precedes (root.join place) (root.join later) := by
  rw [Precedes, parts_join nonempty names, parts_join nonempty names']
  exact List.append_left_lt (List.map_lt (fun _ _ => Component.name_lt_name) less)

/-- The names decide one after the other, so that the slash counts for less than any character. -/
example : Precedes "src/a/z.ts" "src/a-b.ts" := by
  decide

end PathName
end ComponentHoist
