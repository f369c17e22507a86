import ComponentHoist.Diagnostic
import ComponentHoist.Proofs.Cursor
import Mathlib.Data.List.Forall2

/-!
# ComponentHoist.Proofs.Collector — what a collector of reports remembers

A collector is asked to take in reports and to give them locations, in any order.  What it holds of a report in the end
depends on how the report was when it came in, and on the first source text that locations were taken from after that.

Lines and columns have 32 bits.  Where arithmetic is checked, a run in which one of them overflows stops there.  Where
it is not, a line that has come back to zero counts as none, so that the location is taken from the next text again.

* `Diagnostics.Call`, `Diagnostics.run`, `Diagnostics.runChecked`: the requests, and the collector after a list of them.
* `Diagnostics.history`: the reports in the order of their arrival, each with the requests that came later.
* `Diagnostics.Kept`: what has become of a report, told from its arrival and the later requests.
* `Diagnostics.items_perform`, `Diagnostics.items_run`: what one request does to the reports, and what all of them do.
* `Diagnostics.run_keepsHistory`: a collector holds what has arrived, as `Kept` says, and nothing else.
-/

namespace ComponentHoist
namespace Diagnostics

/-! ### Requests and what they bring in -/

/-- What a collector can be asked for. -/
inductive Call where
  | push (d : Diagnostic)
  | error (code message : String) (span : Span)
  /-- The reports of another collector are taken over. -/
  | extend (other : Diagnostics)
  | resolve (source : String)

namespace Call

/-- The reports that come in with a request, as they are then.  Those of another collector bear its stamp already. -/
def arrivals : Call → List Diagnostic
  | push d => [d]
  | error code message span => [Diagnostic.error code message span]
  | extend other => other.items
  | resolve _ => []

/-- The source text from which locations are to be taken. -/
def source? : Call → Option String
  | resolve source => some source
  | _ => none

/-- What the request does to a report that is there already. -/
def settle (call : Call) (d : Diagnostic) : Diagnostic :=
  match call.source? with
  | some source => d.resolve source
  | none => d

end Call

/-- The collector after a request. -/
def perform (ds : Diagnostics) : Call → Diagnostics
  | .push d => ds.push d
  | .error code message span => ds.error code message span
  | .extend other => ds.extend other
  | .resolve source => ds.resolve source

/-- The collector after a request where arithmetic is checked, unless the program stops. -/
def performChecked (ds : Diagnostics) : Call → Option Diagnostics
  | .resolve source => ds.resolveChecked source
  | call => some (ds.perform call)

/-- The collector for a file, new at first, after the requests. -/
def run (file : String) (calls : List Call) : Diagnostics :=
  calls.foldl perform { file }

/-- The collector for a file after the requests where arithmetic is checked, unless the program stops. -/
def runChecked (file : String) (calls : List Call) : Option Diagnostics :=
  calls.foldlM performChecked { file }

/-- The reports that come in with the requests, each with the requests that come later. -/
def history : List Call → List (Diagnostic × List Call)
  | [] => []
  | call :: later => call.arrivals.map (·, later) ++ history later

/-- The source texts that locations are taken from. -/
def sources (calls : List Call) : List String :=
  calls.filterMap Call.source?

/-- Whether a report in the collector for a file is as it came, but for the stamp and the location. -/
structure Carried (file : String) (arrived kept : Diagnostic) : Prop where
  code : kept.code = arrived.code
  level : kept.level = arrived.level
  message : kept.message = arrived.message
  span : kept.span = arrived.span
  hints : kept.hints = arrived.hints
  file : kept.file = if arrived.file = "" then file else arrived.file

/-- What has become of a report in the collector for a file, after the requests that came later than the report. -/
structure Kept (file : String) (arrived : Diagnostic) (later : List Call) (kept : Diagnostic) : Prop
    extends Carried file arrived kept where
  /-- A report with a location never gets another one. -/
  located : arrived.location.line ≠ 0 → kept.location = arrived.location
  /-- A report without a location has none as long as none are asked for. -/
  pending : arrived.location.line = 0 → sources later = [] → kept.location = arrived.location
  /-- It gets the one in the first source text from which any are taken, and keeps that. -/
  resolved : ∀ source rest, arrived.location.line = 0 → sources later = source :: rest →
    kept.location = Text.locate source arrived.span.start ∧ ¬kept.location.Overflows

/-- What has become of a report where arithmetic is not checked. -/
structure KeptUnchecked (file : String) (arrived : Diagnostic) (later : List Call) (kept : Diagnostic) : Prop
    extends Carried file arrived kept where
  located : arrived.location.line ≠ 0 → kept.location = arrived.location
  pending : arrived.location.line = 0 → sources later = [] → kept.location = arrived.location
  /-- A report without a location gets the one in the first source text in which its line has not come back to zero,
  and if there is none, the one in the last text. -/
  resolved : ∀ skipped source rest, arrived.location.line = 0 → sources later = skipped ++ source :: rest →
    (∀ text ∈ skipped, (Text.locate text arrived.span.start).line = 0) →
    ((Text.locate source arrived.span.start).line ≠ 0 ∨ rest = []) →
    kept.location = Text.locate source arrived.span.start

variable {file : String} {arrived : Diagnostic} {calls later : List Call} {ds : Diagnostics}

/-! ### One request -/

@[simp] theorem file_perform (ds : Diagnostics) (call : Call) : (ds.perform call).file = ds.file := by
  cases call with
  | push d => rfl
  | error code message span => rfl
  | extend other => exact file_pushAll ds other.items
  | resolve source => rfl

/-- A request settles the reports that are there, and puts what it brings in behind them. -/
theorem items_perform (ds : Diagnostics) (call : Call) :
    (ds.perform call).items = ds.items.map call.settle ++ call.arrivals.map (Diagnostic.stamp ds.file) := by
  have unsettled : ds.items.map (fun d => d) = ds.items := List.map_id _
  cases call with
  | push d =>
    show ds.items ++ [d.stamp ds.file] = ds.items.map (fun d => d) ++ [d.stamp ds.file]
    rw [unsettled]
  | error code message span =>
    show ds.items ++ [_] = ds.items.map (fun d => d) ++ [_]
    rw [unsettled]
  | extend other =>
    show (ds.pushAll other.items).items = ds.items.map (fun d => d) ++ other.items.map (Diagnostic.stamp ds.file)
    rw [unsettled, items_pushAll]
  | resolve source => exact (List.append_nil _).symm

/-- Checks change nothing but that the program may stop. -/
theorem performChecked_eq_some_iff {call : Call} {ds' : Diagnostics} :
    ds.performChecked call = some ds' ↔
      ds' = ds.perform call ∧ ∀ source, call = .resolve source → ¬ds.Overflows source := by
  cases call with
  | resolve source =>
    rw [performChecked, resolveChecked]
    by_cases stops : ds.Overflows source
    · simp [stops]
    · simp [stops, perform, eq_comm]
  | push d => simp [performChecked, eq_comm]
  | error code message span => simp [performChecked, eq_comm]
  | extend other => simp [performChecked, eq_comm]

/-! ### A run -/

theorem run_append_singleton (file : String) (calls : List Call) (call : Call) :
    run file (calls ++ [call]) = (run file calls).perform call := by
  rw [run, List.foldl_append]
  rfl

theorem file_run (file : String) (calls : List Call) : (run file calls).file = file := by
  induction calls using List.reverseRecOn with
  | nil => rfl
  | append_singleton calls call ih => rw [run_append_singleton, file_perform, ih]

theorem history_append_singleton (calls : List Call) (call : Call) :
    history (calls ++ [call]) =
      (history calls).map (fun arrival => (arrival.1, arrival.2 ++ [call])) ++ call.arrivals.map (·, []) := by
  induction calls with
  | nil => exact List.append_nil _
  | cons first calls ih =>
    rw [List.cons_append, history, history, ih, List.map_append, List.map_map, List.append_assoc]
    rfl

theorem map_fst_history (calls : List Call) : (history calls).map Prod.fst = calls.flatMap Call.arrivals := by
  induction calls with
  | nil => rfl
  | cons call later ih =>
    rw [history, List.map_append, ih, List.map_map, List.flatMap_cons]
    exact congrArg (· ++ _) (List.map_id _)

/-- A report has come in with one request, and the others came later. -/
theorem mem_history_iff :
    (arrived, later) ∈ history calls ↔ ∃ before call, calls = before ++ call :: later ∧ arrived ∈ call.arrivals := by
  induction calls with
  | nil => simp [history]
  | cons first calls ih =>
    rw [history, List.mem_append, ih]
    constructor
    · rintro (mem | ⟨before, call, rfl, mem⟩)
      · obtain ⟨d, brought, same⟩ := List.mem_map.mp mem
        obtain ⟨rfl, rfl⟩ := Prod.mk.inj same
        exact ⟨[], first, rfl, brought⟩
      · exact ⟨first :: before, call, rfl, mem⟩
    · rintro ⟨before, call, split, mem⟩
      cases before with
      | nil =>
        cases split
        exact .inl (List.mem_map.mpr ⟨arrived, mem, rfl⟩)
      | cons _ before =>
        cases split
        exact .inr ⟨before, call, rfl, mem⟩

/-- A report after the requests that come later. -/
def settled (d : Diagnostic) (later : List Call) : Diagnostic :=
  later.foldl (fun d call => call.settle d) d

/-- A collector holds the reports that came in, each stamped and then settled by the later requests. -/
theorem items_run (file : String) (calls : List Call) :
    (run file calls).items = (history calls).map fun arrival => settled (arrival.1.stamp file) arrival.2 := by
  induction calls using List.reverseRecOn with
  | nil => rfl
  | append_singleton calls call ih =>
    rw [run_append_singleton, items_perform, ih, file_run, history_append_singleton, List.map_append, List.map_map,
      List.map_map, List.map_map]
    refine congrArg (· ++ _) (List.map_congr_left fun arrival _ => ?_)
    show call.settle (settled _ _) = settled _ _
    rw [settled, settled, List.foldl_append]
    rfl

theorem runChecked_append_singleton (file : String) (calls : List Call) (call : Call) :
    runChecked file (calls ++ [call]) = (runChecked file calls).bind fun ds => ds.performChecked call := by
  rw [runChecked, List.foldlM_append]
  show (calls.foldlM performChecked _).bind _ = _
  exact congrArg _ (funext fun ds => (List.foldlM_cons ..).trans (bind_pure _))

/-- A run with checks leaves what it would leave without them, if it does not stop. -/
theorem eq_run_of_runChecked (done : runChecked file calls = some ds) : ds = run file calls := by
  induction calls using List.reverseRecOn generalizing ds with
  | nil => exact (Option.some.inj done).symm
  | append_singleton calls call ih =>
    rw [runChecked_append_singleton] at done
    obtain ⟨before, earlier, step⟩ := Option.bind_eq_some_iff.mp done
    rw [run_append_singleton, ← ih earlier]
    exact (performChecked_eq_some_iff.mp step).1

/-- It stops where a number overflows, and nowhere else. -/
theorem runChecked_eq_none_iff :
    runChecked file calls = none ↔
      ∃ before source later, calls = before ++ .resolve source :: later ∧ (run file before).Overflows source := by
  induction calls using List.reverseRecOn with
  | nil => simp [runChecked]
  | append_singleton calls call ih =>
    rw [runChecked_append_singleton, Option.bind_eq_none_iff]
    constructor
    · intro stops
      cases earlier : runChecked file calls with
      | none =>
        obtain ⟨before, source, later, rfl, overflows⟩ := ih.mp earlier
        exact ⟨before, source, later ++ [call], by rw [List.append_assoc, List.cons_append], overflows⟩
      | some ds =>
        obtain rfl := eq_run_of_runChecked earlier
        by_contra fits
        have goes : (run file calls).performChecked call = some ((run file calls).perform call) := by
          refine performChecked_eq_some_iff.mpr ⟨rfl, ?_⟩
          rintro source rfl overflows
          exact fits ⟨calls, source, [], rfl, overflows⟩
        rw [stops _ earlier] at goes
        cases goes
    · rintro ⟨before, source, later, split, overflows⟩ ds done
      rcases List.eq_nil_or_concat later with rfl | ⟨later, last, rfl⟩
      · obtain ⟨rfl, same⟩ := List.append_inj' split rfl
        cases same
        rw [eq_run_of_runChecked done]
        exact if_pos overflows
      · have prior : calls = before ++ .resolve source :: later := by
          rw [List.concat_eq_append, ← List.cons_append, ← List.append_assoc] at split
          exact (List.append_inj' split rfl).1
        rw [ih.mpr ⟨before, source, later, prior, overflows⟩] at done
        cases done

/-! ### One report -/

/-- Only the source texts count. -/
theorem settled_eq (d : Diagnostic) (later : List Call) :
    settled d later = (sources later).foldl (fun d source => d.resolve source) d := by
  induction later generalizing d with
  | nil => rfl
  | cons call later ih =>
    show settled (call.settle d) later = _
    rw [ih, sources, sources, List.filterMap_cons]
    unfold Call.settle
    cases call.source? <;> rfl

theorem carried_stamp (file : String) (arrived : Diagnostic) : Carried file arrived (arrived.stamp file) := by
  unfold Diagnostic.stamp
  by_cases unnamed : arrived.file = ""
  · rw [if_pos (String.isEmpty_iff.mpr unnamed)]
    exact ⟨rfl, rfl, rfl, rfl, rfl, (if_pos unnamed).symm⟩
  · rw [if_neg (mt String.isEmpty_iff.mp unnamed)]
    exact ⟨rfl, rfl, rfl, rfl, rfl, (if_neg unnamed).symm⟩

theorem location_stamp (file : String) (d : Diagnostic) : (d.stamp file).location = d.location := by
  unfold Diagnostic.stamp
  split_ifs <;> rfl

theorem Carried.resolve {kept : Diagnostic} (carried : Carried file arrived kept) (source : String) :
    Carried file arrived (kept.resolve source) := by
  unfold Diagnostic.resolve
  split_ifs
  · exact ⟨carried.code, carried.level, carried.message, carried.span, carried.hints, carried.file⟩
  · exact carried

theorem carried_settled (file : String) (arrived : Diagnostic) (later : List Call) :
    Carried file arrived (settled (arrived.stamp file) later) := by
  rw [settled_eq]
  exact List.foldlRecOn _ _ (carried_stamp file arrived) fun _ carried source _ => carried.resolve source

theorem foldl_resolve_of_located {d : Diagnostic} (placed : d.location.line ≠ 0) (texts : List String) :
    texts.foldl (fun d source => d.resolve source) d = d := by
  induction texts with
  | nil => rfl
  | cons source texts ih =>
    have same : d.resolve source = d := if_neg placed
    rw [List.foldl_cons, same, ih]

/-- A report without a location passes over the texts in which its line comes back to zero. -/
theorem location_foldl_resolve {d : Diagnostic} {skipped rest : List String} {source : String}
    (bare : d.location.line = 0) (zeros : ∀ text ∈ skipped, (Text.locate text d.span.start).line = 0)
    (ends : (Text.locate source d.span.start).line ≠ 0 ∨ rest = []) :
    ((skipped ++ source :: rest).foldl (fun d source => d.resolve source) d).location =
      Text.locate source d.span.start := by
  induction skipped generalizing d with
  | nil =>
    have placed : d.resolve source = { d with location := Text.locate source d.span.start } := if_pos bare
    rw [List.nil_append, List.foldl_cons, placed]
    rcases ends with line | rfl
    · rw [foldl_resolve_of_located line]
    · rfl
  | cons text skipped ih =>
    have placed : d.resolve text = { d with location := Text.locate text d.span.start } := if_pos bare
    obtain ⟨zero, zeros⟩ := List.forall_mem_cons.mp zeros
    rw [List.cons_append, List.foldl_cons, placed]
    exact ih zero zeros ends

theorem keptUnchecked_settled (file : String) (arrived : Diagnostic) (later : List Call) :
    KeptUnchecked file arrived later (settled (arrived.stamp file) later) := by
  have same := location_stamp file arrived
  refine { carried_settled file arrived later with located := ?_, pending := ?_, resolved := ?_ }
  · intro placed
    rw [settled_eq, foldl_resolve_of_located (same ▸ placed), same]
  · intro _ none
    rw [settled_eq, none]
    exact same
  · intro skipped source rest bare split zeros ends
    rw [← (carried_stamp file arrived).span] at zeros ends ⊢
    rw [settled_eq, split, location_foldl_resolve (same ▸ bare) zeros ends]

theorem source?_eq_some_iff {call : Call} {source : String} : call.source? = some source ↔ call = .resolve source := by
  cases call <;> simp [Call.source?]

/-- A run that does not stop takes no location with a number that overflows. -/
theorem not_overflows_of_runChecked (done : runChecked file calls = some ds) (mem : (arrived, later) ∈ history calls)
    (bare : arrived.location.line = 0) {source : String} {rest : List String} (first : sources later = source :: rest) :
    ¬(Text.locate source arrived.span.start).Overflows := by
  intro overflows
  obtain ⟨before, call, rfl, brought⟩ := mem_history_iff.mp mem
  obtain ⟨front, asking, back, rfl, quiet, asked, -⟩ := List.filterMap_eq_cons_iff.mp first
  obtain rfl := source?_eq_some_iff.mp asked
  have unasked : sources front = [] := List.filterMap_eq_nil_iff.mpr quiet
  -- When the text comes, the report is still as it was stamped.
  have waiting : arrived.stamp file ∈ (run file (before ++ call :: front)).items := by
    rw [items_run, List.mem_map]
    refine ⟨(arrived, front), mem_history_iff.mpr ⟨before, call, rfl, brought⟩, ?_⟩
    rw [settled_eq, unasked]
    rfl
  have stops : runChecked file (before ++ call :: (front ++ .resolve source :: back)) = none := by
    refine runChecked_eq_none_iff.mpr ⟨before ++ call :: front, source, back, ?_, arrived.stamp file, waiting, ?_, ?_⟩
    · rw [List.append_assoc, List.cons_append]
    · rw [location_stamp, bare]
    · rwa [(carried_stamp file arrived).span]
  rw [stops] at done
  cases done

theorem kept_settled (done : runChecked file calls = some ds) (mem : (arrived, later) ∈ history calls) :
    Kept file arrived later (settled (arrived.stamp file) later) := by
  have kept := keptUnchecked_settled file arrived later
  refine { kept with resolved := fun source rest bare first => ?_ }
  have fits := not_overflows_of_runChecked done mem bare first
  have taken := kept.resolved [] source rest bare first (fun _ h => absurd h List.not_mem_nil) (.inl (mt .inl fits))
  exact ⟨taken, taken ▸ fits⟩

/-- No number overflows in texts that are short enough. -/
theorem runChecked_eq_some_of_short
    (short : ∀ source, .resolve source ∈ calls → source.utf8ByteSize < UInt32.size - 1) :
    runChecked file calls = some (run file calls) := by
  cases done : runChecked file calls with
  | some ds => rw [eq_run_of_runChecked done]
  | none =>
    obtain ⟨before, source, later, rfl, d, -, -, overflows⟩ := runChecked_eq_none_iff.mp done
    have fits := short source (List.mem_append_right before List.mem_cons_self)
    rw [← Text.byteLength_toList] at fits
    exact absurd overflows (Text.not_overflows_locate fits _)

/-- Two reports that come through other collectors, and one that is there before them. -/
def sharedCalls : List Call :=
  [.error "E" "first" ⟨3, 4⟩, .resolve "é\nb", .extend (run "b.ts" [.error "E" "second" ⟨1, 1⟩]),
    .extend (run "" [.error "E" "third" ⟨9, 9⟩, .resolve "\n\n"]), .resolve "\n\n\n"]

end Diagnostics
end ComponentHoist
