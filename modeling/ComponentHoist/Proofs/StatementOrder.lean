import ComponentHoist.Proofs.ExportForms

/-!
# ComponentHoist.Proofs.StatementOrder — what is exported when statements change places

A name can be exported in front of its declaration or behind it.  If no name is declared by two statements, then what a
name stands for is the same in every order of the statements, and so is what each statement exports.

* `Program.DeclaresApart`: no name is declared by two statements.
* `Program.resolve?_eq_some_iff`: in such a module a name stands for what some statement declares it as, wherever that
  statement is.
* `Stmt.exports_congr`: a statement looks at nothing else of the other statements.
* `Program.exports_permuted`: the exports of a module whose statements have changed places.
-/

namespace ComponentHoist

variable {p q : Program} {name : String} {l : Local}

/-- Whether no name is declared or imported by two statements. -/
def Program.DeclaresApart (p : Program) : Prop :=
  p.statements.Pairwise Stmt.Apart

/-! ### What a name stands for -/

/-- Two statements that declare no name in common do not both say what a name stands for. -/
theorem Stmt.Apart.resolve?_eq_none {s t : Stmt} (apart : s.Apart t) (found : t.locals.resolve? name = some l) :
    s.locals.resolve? name = none := by
  apply Option.eq_none_iff_forall_ne_some.mpr
  intro l' found'
  obtain ⟨a, ha, named⟩ := Stmt.exists_declared_of_local (Locals.mem_of_resolve? found')
  obtain ⟨b, hb, named'⟩ := Stmt.exists_declared_of_local (Locals.mem_of_resolve? found)
  exact apart a ha b hb (named.trans named'.symm)

theorem Stmt.resolve?_flatMap_eq_some_iff {statements : List Stmt} (apart : statements.Pairwise Stmt.Apart) :
    Locals.resolve? (statements.flatMap Stmt.locals) name = some l ↔
      ∃ s ∈ statements, s.locals.resolve? name = some l := by
  induction statements generalizing l with
  | nil => simp [Locals.resolve?]
  | cons s statements ih =>
    obtain ⟨first, rest⟩ := List.pairwise_cons.mp apart
    rw [List.flatMap_cons, Locals.resolve?_append, Option.or_eq_some_iff, ih rest]
    constructor
    · rintro (⟨t, ht, found⟩ | ⟨-, found⟩)
      · exact ⟨t, List.mem_cons_of_mem s ht, found⟩
      · exact ⟨s, List.mem_cons_self, found⟩
    · rintro ⟨t, ht, found⟩
      rcases List.mem_cons.mp ht with rfl | later
      · -- No later statement takes the name away from the first one.
        refine .inr ⟨?_, found⟩
        apply Option.eq_none_iff_forall_ne_some.mpr
        intro l' found'
        obtain ⟨u, hu, taken⟩ := (ih rest).mp found'
        rw [(first u hu).resolve?_eq_none taken] at found
        cases found
      · exact .inl ⟨t, later, found⟩

/-- A name stands for what some statement declares it as, whatever stands in front of that statement and behind it. -/
theorem Program.resolve?_eq_some_iff (apart : p.DeclaresApart) :
    p.locals.resolve? name = some l ↔ ∃ s ∈ p.statements, s.locals.resolve? name = some l :=
  Stmt.resolve?_flatMap_eq_some_iff apart

theorem Program.DeclaresApart.of_perm (apart : p.DeclaresApart) (permuted : q.statements.Perm p.statements) :
    q.DeclaresApart :=
  (permuted.pairwise_iff fun {s t} h => Std.Symm.symm s t h).mpr apart

theorem Program.resolve?_permuted (apart : p.DeclaresApart) (permuted : q.statements.Perm p.statements)
    (name : String) : q.locals.resolve? name = p.locals.resolve? name := by
  apply Option.ext
  intro l
  rw [resolve?_eq_some_iff (apart.of_perm permuted), resolve?_eq_some_iff apart]
  exact exists_congr fun s => and_congr_left' permuted.mem_iff

/-! ### What a statement exports -/

section Congruence

variable {locals locals' : Locals} (same : ∀ name, locals.resolve? name = locals'.resolve? name)
include same

theorem ExportSpecifier.toExport_congr (list : ExportList) (specifier : ExportSpecifier) :
    specifier.toExport locals list = specifier.toExport locals' list := by
  simp only [toExport, same]

theorem Expr.toDefaultExport_congr (span : Span) (e : Expr) :
    e.toDefaultExport locals span = e.toDefaultExport locals' span := by
  cases e with
  | ident place name => rw [toDefaultExport_ident, toDefaultExport_ident, same]
  | _ => rfl

/-- All that a statement exports depends on what the names of the module stand for, and on nothing else in the table of
these names. -/
theorem Stmt.exports_congr (s : Stmt) : s.exports locals = s.exports locals' := by
  cases s with
  | exportList list => exact List.map_congr_left fun specifier _ => specifier.toExport_congr same list
  | exportDefault span value => exact congrArg (fun symbol => [symbol]) (value.toDefaultExport_congr same span)
  | _ => rfl

end Congruence

/-! ### Statements that change places -/

/-- The exports of a module in which no name is declared by two statements, and of the same statements in another order:
each statement exports the same symbols in both, so the exports are put together from the same groups, in the order of
the statements.  In particular a name in an export list stands for what its statement declares it as, in front of that
statement and behind it. -/
theorem Program.exports_permuted (apart : p.DeclaresApart) (permuted : q.statements.Perm p.statements) :
    let group := Stmt.exports p.locals
    (p.exports = p.statements.flatMap group ∧ q.exports = q.statements.flatMap group ∧ q.exports.Perm p.exports) ∧
      ∀ s ∈ p.statements, ∀ name l, s.locals.resolve? name = some l →
        ∀ (list : ExportList) (specifier : ExportSpecifier), list.source = none → specifier.name.text = name →
          let symbol := specifier.toExport p.locals list
          specifier.toExport q.locals list = symbol ∧ symbol.localName = some name ∧ symbol.kind = l.kind ∧
            symbol.declaration = l.declaration ∧
            symbol.isMarkedTypeOnly = (list.isTypeOnly || specifier.isTypeOnly || l.isTypeOnly) := by
  intro group
  have same := resolve?_permuted apart permuted
  have groups : q.exports = q.statements.flatMap group := by
    rw [exports]
    exact List.flatMap_congr fun s _ => Stmt.exports_congr same s
  refine ⟨⟨rfl, groups, ?_⟩, ?_⟩
  · rw [groups]
    exact permuted.flatMap_right group
  · intro s hs name l declared list specifier source named symbol
    have found : p.locals.resolve? name = some l := (resolve?_eq_some_iff apart).mpr ⟨s, hs, declared⟩
    have resolved : symbol =
        ⟨specifier.exported.text, some name, l.kind, list.isTypeOnly || specifier.isTypeOnly || l.isTypeOnly,
          l.declaration, none⟩ := by
      simp [symbol, ExportSpecifier.toExport_eq source, named, found]
    refine ⟨specifier.toExport_congr same list, ?_⟩
    rw [resolved]
    exact ⟨rfl, rfl, rfl, rfl⟩

/-! ### An export in front of the declarations -/

/-- The statement `export { Helper, Shape as Renamed };`. -/
def helperList : ExportList where
  span := ⟨0, 36⟩
  isTypeOnly := false
  specifiers := [⟨⟨9, 15⟩, false, .bare "Helper", .bare "Helper"⟩, ⟨⟨17, 33⟩, false, .bare "Shape", .bare "Renamed"⟩]
  source := none

/-- The statement `function Helper() {}`. -/
def helperFunction : Stmt :=
  .decl (.function { head := { span := ⟨37, 57⟩, name := some "Helper" }, generics := [], params := [], result := none,
                     body := .block [] })

/-- The statement `interface Shape {}`. -/
def shapeInterface : Stmt :=
  .decl (.interface { span := ⟨58, 76⟩, name := "Shape" } [] [] ⟨[]⟩)

/-- The list stands in front of both declarations, and when it is put behind them it exports the same. -/
theorem Program.exports_permuted_helperList :
    let p : Program := { statements := [.exportList helperList, helperFunction, shapeInterface] }
    let q : Program := { statements := [shapeInterface, helperFunction, .exportList helperList] }
    p.DeclaresApart ∧ q.statements.Perm p.statements ∧
      q.exports = [⟨"Helper", some "Helper", .function, false, ⟨37, 57⟩, none⟩,
        ⟨"Renamed", some "Shape", .interface, false, ⟨58, 76⟩, none⟩] := by
  intro p q
  have apart : p.DeclaresApart := by
    simp [p, DeclaresApart, Stmt.Apart, Stmt.declared, helperFunction, shapeInterface, Decl.declared]
  have permuted : q.statements.Perm p.statements := List.reverse_perm p.statements
  refine ⟨apart, permuted, ?_⟩
  rw [(exports_permuted apart permuted).1.2.1]
  decide

end ComponentHoist
