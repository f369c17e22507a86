import ComponentHoist.Proofs.Location
import ComponentHoist.Proofs.RepeatedDecorator

/-!
# ComponentHoist.Proofs.Accounting — every candidate is hoisted or reported

A class that is given options by its first component decorator is a candidate.  The pass answers for each candidate
that it visits, with a declaration or with a report and never with both, and it says nothing about other classes.

* `Class.options?`, `Program.candidates`: the options of a class, and the candidates of a module.
* `Class.answered`: the answer for one candidate.
* `Program.hasErrors_eq_false_iff`: failure is seen by counting.
* `Diagnostic.Placed`: what holds of every report in an output.
* `transformSource_accounts`: all of it, for the source text of a file.
-/

namespace ComponentHoist

variable {config : Config} {exports : List ExportedSymbol} {cls : Class} {options : Options}

/-! ### One class -/

namespace Class

/-- The options that a class is given by its first component decorator. -/
def options? (config : Config) (cls : Class) : Option Options :=
  (cls.componentDecorator? config).bind Decorator.options?

theorem outcome_of_options?_eq_none (exports : List ExportedSymbol) (bare : cls.options? config = none) :
    cls.outcome config exports = none ∨ cls.outcome config exports = some .skipped := by
  cases found : cls.componentDecorator? config with
  | none => exact .inl (outcome_of_no_component exports found)
  | some decorator =>
    rw [options?, found] at bare
    exact .inr (outcome_of_no_options found bare)

/-- With options a class is hoisted by them, or refused for a reason. -/
theorem outcome_of_options?_eq_some (exports : List ExportedSymbol) (given : cls.options? config = some options) :
    cls.outcome config exports = some (.hoisted (Declaration.ofOptions cls.head.name options)) ∨
      ∃ problems, problems ≠ [] ∧ cls.outcome config exports = some (.refused problems) := by
  obtain ⟨decorator, found, decoded⟩ := Option.bind_eq_some_iff.mp given
  obtain ⟨index, -, outcome⟩ := outcome_of_options exports found decoded
  rw [outcome]
  split
  · exact .inl rfl
  · next wrong => exact .inr ⟨_, by simpa using wrong, rfl⟩

theorem hoisted?_of_options?_eq_none (exports : List ExportedSymbol) (bare : cls.options? config = none) :
    cls.hoisted? config exports = none := by
  rcases outcome_of_options?_eq_none exports bare with outcome | outcome
  · rw [hoisted?, outcome, Option.bind_none]
  · rw [hoisted?, outcome]
    rfl

theorem reported_of_options?_eq_none (exports : List ExportedSymbol) (path source : String)
    (bare : cls.options? config = none) : cls.reported config exports path source = [] := by
  rcases outcome_of_options?_eq_none exports bare with outcome | outcome
  · rw [reported, outcome]
    rfl
  · rw [reported, outcome]
    rfl

/-- A candidate has a declaration and no report, or no declaration and a report. -/
theorem answered (exports : List ExportedSymbol) (path source : String) (given : cls.options? config = some options) :
    (cls.hoisted? config exports = some (Declaration.ofOptions cls.head.name options) ∧
        cls.reported config exports path source = []) ∨
      (cls.hoisted? config exports = none ∧ cls.reported config exports path source ≠ []) := by
  rcases outcome_of_options?_eq_some exports given with outcome | ⟨problems, wrong, outcome⟩
  · refine .inl ⟨?_, ?_⟩
    · rw [hoisted?, outcome]
      rfl
    · rw [reported, outcome]
      rfl
  · refine .inr ⟨?_, ?_⟩
    · rw [hoisted?, outcome]
      rfl
    · rw [reported, outcome, Ne, List.map_eq_nil_iff]
      exact wrong

theorem isSome_hoisted?_iff (exports : List ExportedSymbol) (path source : String)
    (given : cls.options? config = some options) :
    (cls.hoisted? config exports).isSome ↔ cls.reported config exports path source = [] := by
  rcases answered exports path source given with ⟨declared, silent⟩ | ⟨refused, loud⟩
  · rw [declared]
    exact iff_of_true rfl silent
  · rw [refused]
    exact iff_of_false Bool.false_ne_true loud

end Class

/-! ### One report -/

/-- What holds of every report in the output for a source text: it means failure, names the file, and has the location
of the beginning of its span. -/
structure Diagnostic.Placed (path source : String) (d : Diagnostic) : Prop where
  level : d.level = "error"
  file : d.file = path
  location : d.location = Text.locate source d.span.start

theorem Diagnostic.Placed.isError {path source : String} {d : Diagnostic} (h : d.Placed path source) :
    d.isError = true := by
  rw [Diagnostic.isError, h.level]
  rfl

theorem Class.placed_of_mem_reported {path source : String} {d : Diagnostic}
    (h : d ∈ cls.reported config exports path source) : d.Placed path source := by
  obtain ⟨problem, -, rfl⟩ := List.mem_map.mp h
  -- The report of a problem has neither a file nor a location of its own.
  exact ⟨rfl, rfl, rfl⟩

/-! ### A module -/

/-- What is filtered out does not count in a list of contributions if it contributes nothing. -/
theorem flatMap_filter_of_eq_nil {α β : Type} {keeps : α → Bool} {f : α → List β}
    (silent : ∀ a, keeps a = false → f a = []) (items : List α) : (items.filter keeps).flatMap f = items.flatMap f := by
  induction items with
  | nil => rfl
  | cons a items ih =>
    cases kept : keeps a with
    | true => rw [List.filter_cons_of_pos kept, List.flatMap_cons, List.flatMap_cons, ih]
    | false => rw [List.filter_cons_of_neg (by simp [kept]), List.flatMap_cons, silent a kept, List.nil_append, ih]

namespace Program

/-- The classes to which the pass gets and that are given options. -/
def candidates (config : Config) (p : Program) : List Class :=
  (p.visited config).filter fun c => (c.options? config).isSome

theorem exists_options_of_mem_candidates {p : Program} (h : cls ∈ p.candidates config) :
    ∃ options, cls.options? config = some options :=
  Option.isSome_iff_exists.mp (List.mem_filter.mp h).2

theorem components_candidates (config : Config) (path source : String) (p : Program) :
    (p.output config path source).components = (p.candidates config).filterMap (Class.hoisted? config p.exports) := by
  rw [components_output, candidates, List.filterMap_filter]
  refine List.filterMap_congr fun c _ => ?_
  cases given : c.options? config with
  | some options => rfl
  | none => exact Class.hoisted?_of_options?_eq_none p.exports given

theorem diagnostics_candidates (config : Config) (path source : String) (p : Program) :
    (p.output config path source).diagnostics =
      (p.candidates config).flatMap (Class.reported config p.exports path source) := by
  rw [diagnostics_output, candidates]
  refine (flatMap_filter_of_eq_nil (fun c bare => ?_) _).symm
  exact Class.reported_of_options?_eq_none p.exports path source (Option.not_isSome_iff_eq_none.mp (by simp [bare]))

theorem placed_of_mem_diagnostics {path source : String} {p : Program} {d : Diagnostic}
    (h : d ∈ (p.output config path source).diagnostics) : d.Placed path source := by
  rw [diagnostics_candidates] at h
  obtain ⟨c, -, reported⟩ := List.mem_flatMap.mp h
  exact Class.placed_of_mem_reported reported

/-- As all reports mean failure, the pass has failed unless there is none. -/
theorem hasErrors_eq_false_iff_diagnostics (config : Config) (path source : String) (p : Program) :
    (p.output config path source).hasErrors = false ↔ (p.output config path source).diagnostics = [] := by
  rw [Output.hasErrors, List.any_eq_false]
  constructor
  · intro none
    refine List.eq_nil_iff_forall_not_mem.mpr fun d reported => ?_
    exact none d reported (placed_of_mem_diagnostics reported).isError
  · intro silent d reported
    rw [silent] at reported
    cases reported

/-- The pass has not failed if and only if it has made as many declarations as there are candidates. -/
theorem hasErrors_eq_false_iff (config : Config) (path source : String) (p : Program) :
    (p.output config path source).hasErrors = false ↔
      (p.output config path source).components.length = (p.candidates config).length := by
  rw [hasErrors_eq_false_iff_diagnostics, diagnostics_candidates, components_candidates,
    List.filterMap_length_eq_length, List.flatMap_eq_nil_iff]
  refine forall₂_congr fun c candidate => ?_
  obtain ⟨options, given⟩ := exists_options_of_mem_candidates candidate
  exact (Class.isSome_hoisted?_iff p.exports path source given).symm

end Program

/-! ### The ledger of one class -/

/-- The ledger in which nothing but a single class has been entered. -/
def Class.alone (config : Config) (exports : List ExportedSymbol) (path : String) (cls : Class) : Ledger :=
  ((cls.transform config exports).run (Ledger.start path)).2

theorem Class.alone_eq (path : String) :
    cls.alone config exports path = (Ledger.start path).enter config exports cls := by
  rw [alone, transform_run]
  rfl

theorem Class.components_alone (path : String) :
    (cls.alone config exports path).components = (cls.hoisted? config exports).toList := by
  rw [alone_eq, Ledger.enter_start]

theorem Class.reports_alone (path source : String) :
    ((cls.alone config exports path).reports.resolve source).items = cls.reported config exports path source := by
  rw [alone_eq, Ledger.enter_start, Diagnostics.resolve, List.map_map]
  rfl

/-! ### A source text -/

/-- What the pass says about the source text of a file, if it can be parsed: the output is put together from what each
candidate gives alone, and each gives a declaration or a report but never both.  So the pass has not failed if and only
if there are as many declarations as candidates.  Each report means failure, names the file, and has the line and the
column of the beginning of its span, which count from one and stay in range. -/
theorem transformSource_accounts (parse : Parser) (config : Config) (path source : String) (p : Program)
    (short : Text.byteLength source.toList < 4294967295) (parsed : parse (allowsMarkup path) source = some p) :
    ∃ output, transformSource parse config path source = .ok output ∧
      let candidates := (p.visited config).filter fun c => (c.options? config).isSome
      let alone := Class.alone config p.exports path
      output.components = candidates.flatMap (fun c => (alone c).components) ∧
        output.diagnostics = candidates.flatMap (fun c => ((alone c).reports.resolve source).items) ∧
        (∀ c ∈ candidates,
          ((alone c).components.length = 1 ∧ ((alone c).reports.resolve source).items = []) ∨
            ((alone c).components = [] ∧ ((alone c).reports.resolve source).items ≠ [])) ∧
        (output.hasErrors = false ↔ output.components.length = candidates.length) ∧
        ∀ d ∈ output.diagnostics,
          d.level = "error" ∧ d.file = path ∧ d.location = Text.locate source d.span.start ∧
            (1 ≤ d.location.line ∧ d.location.line < 4294967296) ∧
            (1 ≤ d.location.column ∧ d.location.column < 4294967296) ∧
            ∀ before after, source.toList = before ++ after → Text.byteLength before = d.span.start →
              d.location.line = before.count '\n' + 1 ∧
                d.location.column = (before.rtakeWhile fun c => c ≠ '\n').length + 1 := by
  let output := p.output config path source
  have ran : transformSource parse config path source = .ok output := by rw [transformSource, parsed]
  refine ⟨output, ran, ?_, ?_, fun c candidate => ?_, p.hasErrors_eq_false_iff config path source,
    fun d reported => ?_⟩
  · simp only [Class.components_alone, ← List.filterMap_eq_flatMap_toList]
    exact p.components_candidates config path source
  · simp only [Class.reports_alone]
    exact p.diagnostics_candidates config path source
  · obtain ⟨options, given⟩ := Program.exists_options_of_mem_candidates candidate
    rw [Class.components_alone, Class.reports_alone]
    rcases Class.answered p.exports path source given with ⟨declared, silent⟩ | ⟨refused, loud⟩
    · exact .inl ⟨by rw [declared]; rfl, silent⟩
    · exact .inr ⟨by rw [refused]; rfl, loud⟩
  · obtain ⟨level, file, location⟩ := Program.placed_of_mem_diagnostics reported
    obtain ⟨⟨firstLine, lastLine⟩, firstColumn, lastColumn⟩ := Text.locate_bounds short d.span.start
    rw [← location] at firstLine lastLine firstColumn lastColumn
    refine ⟨level, file, location, ⟨firstLine, by omega⟩, ⟨firstColumn, by omega⟩, fun before after split start => ?_⟩
    rw [location, ← start, Text.locate_of_split split]
    have fits : before.length < UInt32.size - 1 := Nat.lt_of_le_of_lt (Text.length_le_of_split split) short
    exact ⟨Text.Location.line_after_of_short fits, Text.Location.column_after_of_short fits⟩

/-- The one candidate of this text has a second decorator, so it is not hoisted, and the second decorator is reported
in the column behind the first one. -/
theorem transformSource_accounts_twoDecorators :
    let source := "@Component(\x7b tag: \x27a-b\x27 \x7d) @Component class A \x7b\x7d"
    let cls := decoratedClass 48 [tagDecorator 0, bareDecorator 27]
    let parse : Parser := fun _ text => if text = source then some cls.toModule else none
    Text.byteLength source.toList < 4294967295 ∧ parse (allowsMarkup "a.tsx") source = some cls.toModule ∧
      ∃ output, transformSource parse {} "a.tsx" source = .ok output ∧ output.components = [] ∧
        output.hasErrors = true ∧ output.diagnostics.map (fun d => (d.file, d.location)) = [("a.tsx", ⟨1, 28⟩)] := by
  intro source cls parse
  have short : Text.byteLength source.toList < 4294967295 := by decide
  have parsed : parse (allowsMarkup "a.tsx") source = some cls.toModule := if_pos rfl
  have visited : cls.toModule.visited {} = [cls] := Program.visited_of_outer rfl rfl
  obtain ⟨output, ran, components, diagnostics, -, counted, -⟩ :=
    transformSource_accounts parse {} "a.tsx" source cls.toModule short parsed
  rw [visited] at components diagnostics counted
  have none : output.components = [] := components.trans rfl
  refine ⟨short, parsed, output, ran, none, ?_, ?_⟩
  · rw [← Bool.not_eq_false, counted, none]
    decide
  · rw [diagnostics]
    decide

end ComponentHoist
