import ComponentHoist.Proofs.Normal

/-!
# ComponentHoist.Proofs.Members — static members tell the whole declaration

A member is left out if there is nothing to say with it.  Which ones there are, and what they say, still settles the
declaration up to the name of the class.

* `MemberName`: the members that there can be, `Declaration.member?`: the one of a name, if the declaration has it.
* `Declaration.members_eq_filterMap`: the members of a declaration are those of all names, in one fixed order.
* `Declaration.find?_members`: so each of them is found under its name, and a name that is not found has no member.
* `Declaration.eq_of_value?`: normal declarations that have the same values under all names are the same.
* `Declaration.members_faithful`: what the members of two declarations that come from options have in common.
-/

namespace ComponentHoist

/-! ### The members by name -/

/-- The static members that a component can have. -/
inductive MemberName where
  | is
  | encapsulation
  | originalStyleUrls
  | styleUrls
  | assetsDirs
  | styles
deriving DecidableEq, Repr

namespace MemberName

/-- All of them, in the order in which they are written. -/
def all : List MemberName :=
  [is, encapsulation, originalStyleUrls, styleUrls, assetsDirs, styles]

/-- The name of the member in the class. -/
def text : MemberName → String
  | is => "is"
  | encapsulation => "encapsulation"
  | originalStyleUrls => "originalStyleUrls"
  | styleUrls => "styleUrls"
  | assetsDirs => "assetsDirs"
  | styles => "styles"

theorem mem_all (name : MemberName) : name ∈ all := by
  cases name <;> decide

theorem text_injective : Function.Injective text := by
  intro name name' same
  cases name <;> cases name' <;> simp_all [text]

end MemberName

namespace Declaration

variable {d d' : Declaration} {name : MemberName}

/-- The value of the member, if there is anything to say with it. -/
def value? (d : Declaration) : MemberName → Option Literal
  | .is => some (.string d.tag)
  | .encapsulation => d.encapsulation.map fun e => .string e.text
  | .originalStyleUrls => if d.originalStyleUrls.isEmpty then none else some (.ofModeMap d.originalStyleUrls)
  -- The sheets are left out with their sources, whether or not they are empty themselves.
  | .styleUrls => if d.originalStyleUrls.isEmpty then none else some (.ofModeMap d.styleUrls)
  | .assetsDirs => if d.assetsDirs.isEmpty then none else some (.ofStrings d.assetsDirs)
  | .styles => d.styles.map .string

/-- The member of the name, if the declaration has it. -/
def member? (d : Declaration) (name : MemberName) : Option StaticMember :=
  (d.value? name).map fun value => ⟨name.text, value⟩

theorem members_eq_filterMap (d : Declaration) : d.members = MemberName.all.filterMap d.member? := by
  cases encapsulation : d.encapsulation <;> cases sources : d.originalStyleUrls.isEmpty <;>
    cases directories : d.assetsDirs.isEmpty <;> cases styles : d.styles <;>
    simp [members, memberIf, MemberName.all, MemberName.text, member?, value?, *]

theorem name_of_member? {member : StaticMember} (h : d.member? name = some member) : member.name = name.text := by
  obtain ⟨value, -, rfl⟩ := Option.map_eq_some_iff.mp h
  rfl

/-- In the members of any names, the one of a name is found under it. -/
theorem find?_filterMap_member? (d : Declaration) (name : MemberName) (names : List MemberName) :
    (names.filterMap d.member?).find? (fun member => member.name == name.text) =
      if name ∈ names then d.member? name else none := by
  induction names with
  | nil => rfl
  | cons first rest ih =>
    by_cases same : name = first
    · subst same
      rw [if_pos List.mem_cons_self]
      cases present : d.member? name with
      | none =>
        -- The name may come again, but there is no member of it then either.
        rw [List.filterMap_cons_none present, ih, present, ite_self]
      | some member =>
        have found : (member.name == name.text) = true := by rw [name_of_member? present, beq_self_eq_true]
        rw [List.filterMap_cons_some present, List.find?_cons, found]
    · have later : name ∈ first :: rest ↔ name ∈ rest := by rw [List.mem_cons, or_iff_right same]
      simp only [later]
      cases present : d.member? first with
      | none => rw [List.filterMap_cons_none present, ih]
      | some member =>
        have other : (member.name == name.text) = false := by
          rw [name_of_member? present, beq_eq_false_iff_ne]
          exact fun equal => same (MemberName.text_injective equal).symm
        rw [List.filterMap_cons_some present, List.find?_cons, other, ih]

theorem find?_members (d : Declaration) (name : MemberName) :
    d.members.find? (fun member => member.name == name.text) = d.member? name := by
  rw [members_eq_filterMap, find?_filterMap_member?, if_pos name.mem_all]

/-- Declarations with the same members have the same values. -/
theorem value?_eq_of_members (same : d.members = d'.members) (name : MemberName) : d.value? name = d'.value? name := by
  have member : d.member? name = d'.member? name := by rw [← find?_members, same, find?_members]
  refine Option.map_injective (fun value value' equal => ?_) member
  cases equal
  rfl

/-! ### The names of the members -/

theorem map_name_members (d : Declaration) :
    d.members.map StaticMember.name =
      (MemberName.all.filter fun name => (d.value? name).isSome).map MemberName.text := by
  rw [members_eq_filterMap]
  induction MemberName.all with
  | nil => rfl
  | cons name names ih =>
    cases present : d.value? name with
    | none => simp [member?, present, ih]
    | some value => simp [member?, present, ih]

theorem text_mem_map_name_members (d : Declaration) (name : MemberName) :
    name.text ∈ d.members.map StaticMember.name ↔ (d.value? name).isSome = true := by
  rw [map_name_members, List.mem_map_of_injective MemberName.text_injective, List.mem_filter]
  exact and_iff_right name.mem_all

theorem map_name_members_sublist (d : Declaration) :
    (d.members.map StaticMember.name).Sublist (MemberName.all.map MemberName.text) := by
  rw [map_name_members]
  exact List.filter_sublist.map _

theorem nodup_map_name_members (d : Declaration) : (d.members.map StaticMember.name).Nodup := by
  have distinct : (MemberName.all.map MemberName.text).Nodup := by decide
  exact distinct.sublist (map_name_members_sublist d)

/-! ### From the values to the declaration -/

/-- A value that is left out if it is empty tells what it is, as there is one empty value only. -/
theorem eq_of_unless_empty {α : Type} {isEmpty : α → Bool} {write : α → Literal} {a b : α}
    (sole : isEmpty a = true → isEmpty b = true → a = b) (faithful : Function.Injective write)
    (same : (if isEmpty a then none else some (write a)) = if isEmpty b then none else some (write b)) : a = b := by
  cases left : isEmpty a <;> cases right : isEmpty b <;> simp only [left, right] at same
  · exact faithful (Option.some.inj same)
  · cases same
  · cases same
  · exact sole left right

theorem ofStrings_injective : Function.Injective Literal.ofStrings := by
  intro texts texts' same
  have strings : Function.Injective Literal.string := fun _ _ => Literal.string.inj
  exact strings.list_map (Literal.list.inj same)

theorem ofModeMap_injective : Function.Injective Literal.ofModeMap := by
  intro m m' same
  have entries : Function.Injective fun entry : String × List String => (entry.1, Literal.ofStrings entry.2) := by
    intro entry entry' equal
    obtain ⟨mode, paths⟩ := Prod.mk.inj equal
    exact Prod.ext mode (ofStrings_injective paths)
  obtain ⟨listed⟩ := m
  obtain ⟨listed'⟩ := m'
  exact congrArg ModeMap.mk (entries.list_map (Literal.map.inj same))

theorem encapsulation_text_injective : Function.Injective fun e : Encapsulation => Literal.string e.text := by
  intro e e' same
  cases e <;> cases e' <;> simp_all [Encapsulation.text]

/-- The values tell a normal declaration up to the name of the class. -/
theorem eq_of_value? (normal : d.Normal) (normal' : d'.Normal) (same : ∀ name, d.value? name = d'.value? name) :
    { d with className := d'.className } = d' := by
  have tag : d.tag = d'.tag := Literal.string.inj (Option.some.inj (same .is))
  have encapsulation : d.encapsulation = d'.encapsulation :=
    Option.map_injective encapsulation_text_injective (same .encapsulation)
  have urls : d.originalStyleUrls = d'.originalStyleUrls := by
    refine eq_of_unless_empty (fun left right => ?_) ofModeMap_injective (same .originalStyleUrls)
    exact congrArg ModeMap.mk ((List.isEmpty_iff.mp left).trans (List.isEmpty_iff.mp right).symm)
  -- The sheets that are left out are known from their sources.
  have sheets : d.styleUrls = d'.styleUrls := by rw [normal.compiled, normal'.compiled, urls]
  have directories : d.assetsDirs = d'.assetsDirs := by
    refine eq_of_unless_empty (fun left right => ?_) ofStrings_injective (same .assetsDirs)
    exact (List.isEmpty_iff.mp left).trans (List.isEmpty_iff.mp right).symm
  have styles : d.styles = d'.styles :=
    Option.map_injective (fun _ _ => Literal.string.inj) (same .styles)
  exact Declaration.ext rfl tag encapsulation urls sheets directories styles

/-- Two declarations that come from options have the same members if and only if they say the same, up to the names of
their classes.  No member is written twice, they stand in a fixed order, and compiled sheets come with their sources. -/
theorem members_faithful (className className' : Option String) (o o' : Options) :
    let d := ofOptions className o
    let d' := ofOptions className' o'
    let names := d.members.map StaticMember.name
    (d.members = d'.members ↔ { d with className := d'.className } = d') ∧
      names.Nodup ∧
      names.Sublist ["is", "encapsulation", "originalStyleUrls", "styleUrls", "assetsDirs", "styles"] ∧
      ("originalStyleUrls" ∈ names ↔ "styleUrls" ∈ names) := by
  intro d d' names
  refine ⟨⟨fun same => ?_, fun same => ?_⟩, nodup_map_name_members d, map_name_members_sublist d, ?_⟩
  · exact eq_of_value? (normal_ofOptions className o) (normal_ofOptions className' o') (value?_eq_of_members same)
  · -- The members do not say what the class is called.
    show ({ d with className := d'.className } : Declaration).members = d'.members
    rw [same]
  · have sources : "originalStyleUrls" ∈ names ↔ _ := text_mem_map_name_members d .originalStyleUrls
    have sheets : "styleUrls" ∈ names ↔ _ := text_mem_map_name_members d .styleUrls
    rw [sources, sheets, value?, value?]
    cases d.originalStyleUrls.isEmpty <;> rfl

end Declaration
end ComponentHoist
