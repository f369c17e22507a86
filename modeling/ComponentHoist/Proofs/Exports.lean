import ComponentHoist.Exports

/-!
# ComponentHoist.Proofs.Exports — where exported symbols come from

* `Locals.resolve?_eq_getLast?`, `Locals.resolve?_append`: a name stands for what it was last declared as.
* `Program.isDeclaredIn_of_export`: an exported class, function or enumeration that has a name in the module is one of
  the top-level declarations of that name.
-/

namespace ComponentHoist

variable {locals : Locals} {name : String} {l : Local}

/-! ### Resolution -/

theorem Locals.resolve?_eq_getLast? :
    locals.resolve? name = (locals.filterMap fun b => if b.1 = name then some b.2 else none).getLast? := by
  rw [resolve?, List.lookup_eq_findSome?, List.getLast?_filterMap]
  congr 1
  funext b
  rcases Decidable.em (b.1 = name) with rfl | other
  · simp
  · simp [other, Ne.symm other]

/-- Of two parts of a module the later one is asked first. -/
theorem Locals.resolve?_append (front back : Locals) (name : String) :
    Locals.resolve? (front ++ back) name = (back.resolve? name).or (front.resolve? name) := by
  rw [resolve?, List.reverse_append, List.lookup_append]
  rfl

theorem Locals.mem_of_resolve? (h : locals.resolve? name = some l) : (name, l) ∈ locals := by
  rw [resolve?_eq_getLast?] at h
  obtain ⟨b, hb, found⟩ := List.mem_filterMap.mp (List.mem_of_getLast? h)
  split at found
  · next same =>
    cases found
    rw [← same]
    exact hb
  · cases found

/-! ### The declaration of an exported symbol -/

/-- Whether things of the kind are classes, functions or enumerations. -/
def SymbolKind.isConstruct : SymbolKind → Bool
  | cls | function | enumeration => true
  | _ => false

/-- Whether the symbol stands for a top-level declaration of its name in the module. -/
def ExportedSymbol.IsDeclaredIn (locals : Locals) (s : ExportedSymbol) : Prop :=
  ∃ name l, s.localName = some name ∧ (name, l) ∈ locals ∧ l.kind = s.kind ∧ l.declaration = s.declaration

variable {s : ExportedSymbol} {statement : Stmt}

theorem ExportSpecifier.toExport_isDeclaredIn {list : ExportList} {specifier : ExportSpecifier}
    (kind : (specifier.toExport locals list).kind.isConstruct = true) :
    (specifier.toExport locals list).IsDeclaredIn locals := by
  unfold toExport at kind ⊢
  cases source : list.source with
  | some _ => simp [source, SymbolKind.isConstruct] at kind
  | none =>
    cases found : locals.resolve? specifier.name.text with
    | none => simp [source, found, SymbolKind.isConstruct] at kind
    | some l =>
      simp only [found]
      exact ⟨_, l, rfl, Locals.mem_of_resolve? found, rfl, rfl⟩

theorem Expr.toDefaultExport_isDeclaredIn {span : Span} {value : Expr}
    (kind : (value.toDefaultExport locals span).kind.isConstruct = true) :
    (value.toDefaultExport locals span).IsDeclaredIn locals := by
  unfold toDefaultExport at kind ⊢
  cases value with
  | ident place name =>
    cases found : locals.resolve? name with
    | none => simp [found, SymbolKind.isConstruct] at kind
    | some l =>
      simp only [found]
      exact ⟨_, l, rfl, Locals.mem_of_resolve? found, rfl, rfl⟩
  | _ => cases kind

/-- A declaration behind `export default` is exported under the name that it has, if it has one. -/
theorem Decl.toDefaultExport_isDeclaredIn {span : Span} {d : Decl} (own : ∀ b ∈ d.defaultLocals, b ∈ locals)
    (kind : (d.toDefaultExport span).kind.isConstruct = true) :
    (d.toDefaultExport span).IsDeclaredIn locals ∨
      ((d.toDefaultExport span).localName = none ∧ (d.toDefaultExport span).name = defaultExportName) := by
  cases d with
  | classDecl cls =>
    cases name : cls.head.name with
    | none => exact .inr ⟨name, rfl⟩
    | some n =>
      have declared : (n, ⟨.cls, false, cls.head.span⟩) ∈ locals := own _ (by simp [defaultLocals, name])
      exact .inl ⟨n, _, name, declared, rfl, rfl⟩
  | function func =>
    cases name : func.head.name with
    | none => exact .inr ⟨name, rfl⟩
    | some n =>
      have declared : (n, ⟨.function, false, func.head.span⟩) ∈ locals := own _ (by simp [defaultLocals, name])
      exact .inl ⟨n, _, name, declared, rfl, rfl⟩
  | _ => cases kind

/-- A symbol of a statement stands for a top-level declaration, or it is a default export without a name. -/
theorem Stmt.isDeclaredIn_of_export (own : ∀ b ∈ statement.locals, b ∈ locals) (hs : s ∈ statement.exports locals)
    (kind : s.kind.isConstruct = true) :
    s.IsDeclaredIn locals ∨ (s.localName = none ∧ s.name = defaultExportName) := by
  cases statement with
  | exportDecl span isTypeOnly d =>
    obtain ⟨b, hb, rfl⟩ := List.mem_map.mp hs
    have declared : b.toLocal ∈ locals := own _ (List.mem_map_of_mem hb)
    exact .inl ⟨b.name, _, rfl, declared, rfl, rfl⟩
  | exportList list =>
    obtain ⟨specifier, _, rfl⟩ := List.mem_map.mp hs
    exact .inl (ExportSpecifier.toExport_isDeclaredIn kind)
  | exportDefault span value =>
    obtain rfl := List.mem_singleton.mp hs
    exact .inl (Expr.toDefaultExport_isDeclaredIn kind)
  | exportDefaultDecl span d =>
    obtain rfl := List.mem_singleton.mp hs
    exact Decl.toDefaultExport_isDeclaredIn own kind
  | exportAll data =>
    obtain rfl := List.mem_singleton.mp hs
    cases kind
  | exportAssignment span value =>
    obtain rfl := List.mem_singleton.mp hs
    cases kind
  | _ => cases hs

theorem Program.isDeclaredIn_of_export {p : Program} (hs : s ∈ p.exports) (kind : s.kind.isConstruct = true) :
    s.IsDeclaredIn p.locals ∨ (s.localName = none ∧ s.name = defaultExportName) := by
  obtain ⟨statement, hst, hs⟩ := List.mem_flatMap.mp hs
  have own : ∀ b ∈ statement.locals, b ∈ p.locals := fun b hb => List.mem_flatMap.mpr ⟨statement, hst, hb⟩
  exact statement.isDeclaredIn_of_export own hs kind

/-! ### A module with one statement more -/

/-- A statement that declares nothing leaves the top-level names as they are. -/
theorem Program.locals_insert (p : Program) {front back : List Stmt} (silent : statement.locals = []) :
    Program.locals { p with statements := front ++ statement :: back } =
      Program.locals { p with statements := front ++ back } := by
  simp [locals, silent]

theorem Program.exports_insert (p : Program) (front back : List Stmt) (statement : Stmt) :
    let whole : Program := { p with statements := front ++ statement :: back }
    whole.exports =
      front.flatMap (Stmt.exports whole.locals) ++ statement.exports whole.locals ++
        back.flatMap (Stmt.exports whole.locals) := by
  simp [exports]

end ComponentHoist
