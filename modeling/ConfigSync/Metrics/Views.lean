import Mathlib.Data.Rat.Defs
import ConfigSync.Declared.Metrics
-- The metrics of the reconciler (`pkg/metrics`). A record function tags its measurements
-- with the tags of its context after its upserts, and a view exports, for each row (the
-- values of its tag keys), the count, the last value or the values of the measurements of
-- its measure in that row. The laws below hold over every run of record calls.

namespace config_sync.metrics

/-! ## Tags -/

/-- The tag keys of `pkg/metrics`; their names are declared outside the source. -/
inductive Key where
  | KeyOperation | KeyStatus | KeyComponent | KeyErrorClass | KeyName | KeyReconcilerType
  | KeyTrigger | KeyParserSource | KeyCommit | KeyController | KeyInternalErrorSource
deriving DecidableEq, Repr

/-- The tags of a context: a key's first entry is its value. -/
abbrev TagMap := List (Key × String)

/-- `tag.Upsert(k, v)` on a tag map. -/
def upsert (tags : TagMap) (k : Key) (v : String) : TagMap :=
  (k, v) :: tags.filter fun t => t.1 != k

theorem lookup_filter_ne (tags : TagMap) {k k' : Key} (h : k' ≠ k) :
    (tags.filter fun t => t.1 != k).lookup k' = tags.lookup k' := by
  induction tags with
  | nil => rfl
  | cons t tags ih =>
    obtain ⟨tk, tv⟩ := t
    by_cases ht : tk = k
    · subst ht
      simp [List.filter_cons, List.lookup_cons, ih, beq_false_of_ne h]
    · simp [List.filter_cons, ht, List.lookup_cons, ih]

@[simp]
theorem lookup_upsert (tags : TagMap) (k k' : Key) (v : String) :
    (upsert tags k v).lookup k' = if k' = k then some v else tags.lookup k' := by
  by_cases h : k' = k
  · simp [upsert, List.lookup_cons, h]
  · simp [upsert, List.lookup_cons, h, lookup_filter_ne tags h, beq_false_of_ne h]

section record

variable (checkValue : String → Bool)

/-- `tag.New(ctx, tag.Upsert(k, v)...)`, whose error every caller discards: when the tag
library (`checkValue`, not in the source) rejects a value, `New` returns the context it was
given. -/
def tagNew (ctx : TagMap) (mutators : List (Key × String)) : TagMap :=
  if mutators.all fun m => checkValue m.2 then
    mutators.foldl (fun tags m => upsert tags m.1 m.2) ctx
  else ctx

/-! ## Measurements -/

/-- The measures of `pkg/metrics`, declared outside the source. -/
inductive Measure where
  | APICallDuration | ReconcilerErrors | PipelineError | ReconcileDuration | ParserDuration
  | LastSync | DeclaredResources | ApplyOperations | ApplyDuration | LastApply | ResourceFights
  | RemediateDuration | ResourceConflicts | InternalErrors
deriving DecidableEq, Repr

/-- A `stats.Measurement`, with the tags of the context it was recorded in. An int64 measure
records an integer; a duration records its seconds (the rounding of a float is left out). -/
structure Measurement where
  measure : Measure
  tags : TagMap
  value : ℚ

/-- `record(ctx, ms...)`: `stats.Record` under the tags of `ctx`; the klog line is left out. -/
def record (ctx : TagMap) (ms : List (Measure × ℚ)) : List Measurement :=
  ms.map fun m => ⟨m.1, ctx, m.2⟩

/-! ## The record functions

A time is its seconds since the epoch. `time.Since` and `time.Now` read the clock; their
reading is the argument `now`, and `Unix()` is its floor. -/

def RecordAPICallDuration (ctx : TagMap) (operation status : String) (startTime now : ℚ) :
    List Measurement :=
  record (tagNew checkValue ctx [(.KeyOperation, operation), (.KeyStatus, status)])
    [(.APICallDuration, now - startTime)]

/-- The error classes that `RecordReconcilerErrors` reports. -/
def supportedErrorClasses : List String := ["1xxx", "2xxx", "9xxx"]

/-- `RecordReconcilerErrors`: one measurement for each supported class, its count or 0. The
map `status.CountErrorByClass(errs)`, not in the source, is the argument. -/
def RecordReconcilerErrors (ctx : TagMap) (component : String)
    (errorCountByClass : String → Option Int) : List Measurement :=
  supportedErrorClasses.flatMap fun errorclass =>
    let errorCount := (errorCountByClass errorclass).getD 0
    record (tagNew checkValue ctx [(.KeyComponent, component), (.KeyErrorClass, errorclass)])
      [(.ReconcilerErrors, errorCount)]

/-- `RecordPipelineError`; the reconciler's name, read from the environment, is the
argument. -/
def RecordPipelineError (reconcilerName : String) (ctx : TagMap)
    (reconcilerType component : String) (errLen : Int) : List Measurement :=
  let tagCtx := tagNew checkValue ctx
    [(.KeyName, reconcilerName), (.KeyReconcilerType, reconcilerType), (.KeyComponent, component)]
  if errLen > 0 then record tagCtx [(.PipelineError, 1)] else record tagCtx [(.PipelineError, 0)]

def RecordReconcileDuration (ctx : TagMap) (status : String) (startTime now : ℚ) :
    List Measurement :=
  record (tagNew checkValue ctx [(.KeyStatus, status)]) [(.ReconcileDuration, now - startTime)]

def RecordParserDuration (ctx : TagMap) (trigger source status : String) (startTime now : ℚ) :
    List Measurement :=
  record (tagNew checkValue ctx
      [(.KeyStatus, status), (.KeyTrigger, trigger), (.KeyParserSource, source)])
    [(.ParserDuration, now - startTime)]

def RecordLastSync (ctx : TagMap) (status commit : String) (timestamp : ℚ) :
    List Measurement :=
  record (tagNew checkValue ctx [(.KeyStatus, status), (.KeyCommit, commit)])
    [(.LastSync, Rat.floor timestamp)]

def RecordDeclaredResources (ctx : TagMap) (commit : String) (numResources : Int) :
    List Measurement :=
  record (tagNew checkValue ctx [(.KeyCommit, commit)]) [(.DeclaredResources, numResources)]

def RecordApplyOperation (ctx : TagMap) (controller operation status : String) :
    List Measurement :=
  record (tagNew checkValue ctx
      [(.KeyOperation, operation), (.KeyController, controller), (.KeyStatus, status)])
    [(.ApplyOperations, 1)]

/-- `RecordApplyDuration`: an empty commit is tagged `CommitNone`, a constant declared outside
the source, and both measurements read the clock once. -/
def RecordApplyDuration (CommitNone : String) (ctx : TagMap) (status commit : String)
    (startTime now : ℚ) : List Measurement :=
  let commit := if commit = "" then CommitNone else commit
  record (tagNew checkValue ctx [(.KeyStatus, status), (.KeyCommit, commit)])
    [(.ApplyDuration, now - startTime), (.LastApply, Rat.floor now)]

/-- `RecordResourceFight`: under the tags of `ctx` as they are; its string is unused. -/
def RecordResourceFight (ctx : TagMap) (_ : String) : List Measurement :=
  record ctx [(.ResourceFights, 1)]

def RecordRemediateDuration (ctx : TagMap) (status : String) (startTime now : ℚ) :
    List Measurement :=
  record (tagNew checkValue ctx [(.KeyStatus, status)]) [(.RemediateDuration, now - startTime)]

def RecordResourceConflict (ctx : TagMap) (commit : String) : List Measurement :=
  record (tagNew checkValue ctx [(.KeyCommit, commit)]) [(.ResourceConflicts, 1)]

def RecordInternalError (ctx : TagMap) (source : String) : List Measurement :=
  record (tagNew checkValue ctx [(.KeyInternalErrorSource, source)]) [(.InternalErrors, 1)]

/-! ## A run of record calls -/

/-- A call of a record function, with its arguments. -/
inductive RecordCall where
  | APICallDuration (ctx : TagMap) (operation status : String) (startTime now : ℚ)
  | ReconcilerErrors (ctx : TagMap) (component : String) (errorCountByClass : String → Option Int)
  | PipelineError (ctx : TagMap) (reconcilerType component : String) (errLen : Int)
  | ReconcileDuration (ctx : TagMap) (status : String) (startTime now : ℚ)
  | ParserDuration (ctx : TagMap) (trigger source status : String) (startTime now : ℚ)
  | LastSync (ctx : TagMap) (status commit : String) (timestamp : ℚ)
  | DeclaredResources (ctx : TagMap) (commit : String) (numResources : Int)
  | ApplyOperation (ctx : TagMap) (controller operation status : String)
  | ApplyDuration (ctx : TagMap) (status commit : String) (startTime now : ℚ)
  | ResourceFight (ctx : TagMap) (name : String)
  | RemediateDuration (ctx : TagMap) (status : String) (startTime now : ℚ)
  | ResourceConflict (ctx : TagMap) (commit : String)
  | InternalError (ctx : TagMap) (source : String)

variable (reconcilerName CommitNone : String)

/-- The measurements a call records. -/
def RecordCall.measurements : RecordCall → List Measurement
  | .APICallDuration ctx o s t n => RecordAPICallDuration checkValue ctx o s t n
  | .ReconcilerErrors ctx c counts => RecordReconcilerErrors checkValue ctx c counts
  | .PipelineError ctx t c e => RecordPipelineError checkValue reconcilerName ctx t c e
  | .ReconcileDuration ctx s t n => RecordReconcileDuration checkValue ctx s t n
  | .ParserDuration ctx tr so s t n => RecordParserDuration checkValue ctx tr so s t n
  | .LastSync ctx s c ts => RecordLastSync checkValue ctx s c ts
  | .DeclaredResources ctx c n => RecordDeclaredResources checkValue ctx c n
  | .ApplyOperation ctx co o s => RecordApplyOperation checkValue ctx co o s
  | .ApplyDuration ctx s c t n => RecordApplyDuration checkValue CommitNone ctx s c t n
  | .ResourceFight ctx name => RecordResourceFight ctx name
  | .RemediateDuration ctx s t n => RecordRemediateDuration checkValue ctx s t n
  | .ResourceConflict ctx c => RecordResourceConflict checkValue ctx c
  | .InternalError ctx s => RecordInternalError checkValue ctx s

/-- The measurements of a run of calls, in the order they were recorded. -/
def stream (calls : List RecordCall) : List Measurement :=
  calls.flatMap (RecordCall.measurements checkValue reconcilerName CommitNone)

theorem stream_append_singleton (calls : List RecordCall) (call : RecordCall) :
    stream checkValue reconcilerName CommitNone (calls ++ [call]) =
      stream checkValue reconcilerName CommitNone calls ++
        call.measurements checkValue reconcilerName CommitNone := by
  simp [stream]

/-- The measures a call records. -/
def RecordCall.measures : RecordCall → List Measure
  | .APICallDuration .. => [.APICallDuration]
  | .ReconcilerErrors .. => [.ReconcilerErrors]
  | .PipelineError .. => [.PipelineError]
  | .ReconcileDuration .. => [.ReconcileDuration]
  | .ParserDuration .. => [.ParserDuration]
  | .LastSync .. => [.LastSync]
  | .DeclaredResources .. => [.DeclaredResources]
  | .ApplyOperation .. => [.ApplyOperations]
  | .ApplyDuration .. => [.ApplyDuration, .LastApply]
  | .ResourceFight .. => [.ResourceFights]
  | .RemediateDuration .. => [.RemediateDuration]
  | .ResourceConflict .. => [.ResourceConflicts]
  | .InternalError .. => [.InternalErrors]

theorem measure_mem_measures (call : RecordCall) :
    ∀ m ∈ call.measurements checkValue reconcilerName CommitNone, m.measure ∈ call.measures := by
  cases call <;>
    simp [RecordCall.measurements, RecordAPICallDuration, RecordReconcilerErrors,
      RecordPipelineError, RecordReconcileDuration, RecordParserDuration, RecordLastSync,
      RecordDeclaredResources, RecordApplyOperation, RecordApplyDuration, RecordResourceFight,
      RecordRemediateDuration, RecordResourceConflict, RecordInternalError, record,
      RecordCall.measures]
  all_goals first | (rintro _ _ _ rfl; rfl) | (split <;> simp)

end record

/-! ## The views -/

/-- `view.Count()`, `view.LastValue()` or `view.Distribution(bounds...)`. -/
inductive Aggregation where
  | Count
  | LastValue
  | Distribution (bounds : List ℚ)

/-- A `view.View`: the measure it aggregates, the tag keys of its rows and its aggregation.
`Name` and `Description` are left out. -/
structure View where
  Measure : Measure
  TagKeys : List Key
  Aggregation : Aggregation

def distributionBounds : List ℚ := [0.005, 0.01, 0.025, 0.05, 0.1, 0.25, 0.5, 1, 2.5, 5, 10]

def longDistributionBounds : List ℚ := [1, 5, 10, 30, 60, 300, 600, 1200, 1800, 3600, 5400]

def APICallDurationView : View :=
  ⟨.APICallDuration, [.KeyOperation, .KeyStatus], .Distribution distributionBounds⟩

def ReconcilerErrorsView : View := ⟨.ReconcilerErrors, [.KeyComponent, .KeyErrorClass], .LastValue⟩

def PipelineErrorView : View :=
  ⟨.PipelineError, [.KeyName, .KeyReconcilerType, .KeyComponent], .LastValue⟩

def ReconcileDurationView : View :=
  ⟨.ReconcileDuration, [.KeyStatus], .Distribution distributionBounds⟩

def ParserDurationView : View :=
  ⟨.ParserDuration, [.KeyStatus, .KeyTrigger, .KeyParserSource],
    .Distribution longDistributionBounds⟩

def LastSyncTimestampView : View := ⟨.LastSync, [.KeyCommit, .KeyStatus], .LastValue⟩

def DeclaredResourcesView : View := ⟨.DeclaredResources, [.KeyCommit], .LastValue⟩

def ApplyOperationsView : View :=
  ⟨.ApplyOperations, [.KeyController, .KeyOperation, .KeyStatus], .Count⟩

def ApplyDurationView : View :=
  ⟨.ApplyDuration, [.KeyCommit, .KeyStatus], .Distribution longDistributionBounds⟩

def LastApplyTimestampView : View := ⟨.LastApply, [.KeyCommit, .KeyStatus], .LastValue⟩

def ResourceFightsView : View := ⟨.ResourceFights, [], .Count⟩

def RemediateDurationView : View :=
  ⟨.RemediateDuration, [.KeyStatus], .Distribution distributionBounds⟩

def ResourceConflictsView : View := ⟨.ResourceConflicts, [.KeyCommit], .Count⟩

def InternalErrorsView : View := ⟨.InternalErrors, [.KeyInternalErrorSource], .Count⟩

/-- The row of a context's tags in a view: the value of each of its tag keys. The library
encodes a key the context does not tag with the empty value, so the two are one row. -/
def View.rowOf (v : View) (tags : TagMap) : List String :=
  v.TagKeys.map fun k => (tags.lookup k).getD ""

/-- The values a view aggregates in a row, in the order they were recorded. -/
def View.values (v : View) (ms : List Measurement) (row : List String) : List ℚ :=
  (ms.filter fun m => m.measure == v.Measure && v.rowOf m.tags == row).map (·.value)

/-- What a view exports for a row. The buckets of a distribution, by its bounds, are the
library's; the model keeps the values it buckets. -/
inductive RowData where
  | count (n : Nat)
  | lastValue (x : Option ℚ)
  | distribution (bounds : List ℚ) (values : List ℚ)

def View.row (v : View) (ms : List Measurement) (row : List String) : RowData :=
  match v.Aggregation with
  | .Count => .count (v.values ms row).length
  | .LastValue => .lastValue (v.values ms row).getLast?
  | .Distribution bounds => .distribution bounds (v.values ms row)

@[simp]
theorem values_append (v : View) (ms ms' : List Measurement) (row : List String) :
    v.values (ms ++ ms') row = v.values ms row ++ v.values ms' row := by
  simp [View.values]

@[simp]
theorem values_record (v : View) (tags : TagMap) (ms : List (Measure × ℚ))
    (row : List String) :
    v.values (record tags ms) row =
      if v.rowOf tags = row then (ms.filter fun m => m.1 == v.Measure).map (·.2) else [] := by
  unfold View.values record
  rw [List.filter_map, List.map_map]
  by_cases h : v.rowOf tags = row <;> simp [h, Function.comp_def]

section
variable (checkValue : String → Bool) (reconcilerName CommitNone : String)

/-- A view has no value from a call that does not record its measure. -/
theorem values_of_not_mem_measures (v : View) {call : RecordCall} (h : v.Measure ∉ call.measures)
    (row : List String) :
    v.values (call.measurements checkValue reconcilerName CommitNone) row = [] := by
  simp only [View.values, List.map_eq_nil_iff, List.filter_eq_nil_iff, Bool.and_eq_true,
    beq_iff_eq, not_and]
  intro m hm hv
  exact absurd (hv ▸ measure_mem_measures checkValue reconcilerName CommitNone call m hm) h

end

/-! ## The error gauges are never stale -/

section errors

variable (checkValue : String → Bool) (reconcilerName CommitNone : String)

/-- The error counts that the row of a component keeps after `call`, from `last`. -/
def errorCountsStep (component : String) (last : Option (String → Option Int)) :
    RecordCall → Option (String → Option Int)
  | .ReconcilerErrors _ c counts => if c = component then some counts else last
  | _ => last

/-- The error counts of the last `RecordReconcilerErrors` call of a run for `component`. -/
def latestErrorCounts (component : String) (calls : List RecordCall) :
    Option (String → Option Int) :=
  calls.foldl (errorCountsStep component) none

/-- What the row of `errorclass` holds after a call that counted `errorCountByClass`. -/
def errorClassValue (errorclass : String) (errorCountByClass : String → Option Int) :
    Option ℚ :=
  if errorclass ∈ supportedErrorClasses then some ((errorCountByClass errorclass).getD 0 : Int)
  else none

theorem errorCountsStep_other {call : RecordCall}
    (h : ∀ ctx c counts, call ≠ .ReconcilerErrors ctx c counts) (component : String) (last) :
    errorCountsStep component last call = last := by
  cases call <;> first | rfl | exact absurd rfl (h _ _ _)

theorem reconcilerErrors_values_other {call : RecordCall}
    (h : ∀ ctx c counts, call ≠ .ReconcilerErrors ctx c counts) (row : List String) :
    ReconcilerErrorsView.values (call.measurements checkValue reconcilerName CommitNone) row =
      [] :=
  values_of_not_mem_measures checkValue reconcilerName CommitNone _
    (by cases call <;> first | exact absurd rfl (h _ _ _) | simp [RecordCall.measures,
      ReconcilerErrorsView]) row

theorem reconcilerErrors_values_record (ctx : TagMap) (c : String)
    (counts : String → Option Int) (hc : checkValue c = true)
    (hclasses : ∀ k ∈ supportedErrorClasses, checkValue k = true)
    (component errorclass : String) :
    ReconcilerErrorsView.values (RecordReconcilerErrors checkValue ctx c counts)
        [component, errorclass] =
      if c = component then (errorClassValue errorclass counts).toList else [] := by
  simp only [supportedErrorClasses, List.mem_cons, List.mem_singleton, List.not_mem_nil,
    forall_eq_or_imp, forall_eq, or_false] at hclasses
  by_cases h : c = component
  · subst h
    simp [RecordReconcilerErrors, supportedErrorClasses, tagNew, hc, hclasses, View.rowOf,
      ReconcilerErrorsView, errorClassValue]
    by_cases hk : errorclass = "1xxx" ∨ errorclass = "2xxx" ∨ errorclass = "9xxx"
    · rcases hk with rfl | rfl | rfl <;> simp
    · simp only [not_or] at hk
      simp [hk, Ne.symm hk.1, Ne.symm hk.2.1, Ne.symm hk.2.2]
  · simp [RecordReconcilerErrors, supportedErrorClasses, tagNew, hc, hclasses, View.rowOf,
      ReconcilerErrorsView, h]

theorem latestErrorCounts_append_singleton (component : String) (calls : List RecordCall)
    (call : RecordCall) :
    latestErrorCounts component (calls ++ [call]) =
      errorCountsStep component (latestErrorCounts component calls) call := by
  simp [latestErrorCounts]

/-- After any run of record calls, the ReconcilerErrors row of a component and an error class
holds what the latest call for the component counted for the class, or 0 when it counted
none; a class outside the supported ones has no row. So a class whose errors are gone is set
back to 0, never left at an old count. -/
theorem reconciler_errors_rows_hold_the_latest_counts (calls : List RecordCall)
    (hclasses : ∀ k ∈ supportedErrorClasses, checkValue k = true)
    (hvalid : ∀ call ∈ calls, ∀ ctx c counts, call = .ReconcilerErrors ctx c counts →
      checkValue c = true)
    (component errorclass : String) :
    ReconcilerErrorsView.row (stream checkValue reconcilerName CommitNone calls)
        [component, errorclass] =
      .lastValue ((latestErrorCounts component calls).bind (errorClassValue errorclass)) := by
  show RowData.lastValue _ = _
  congr 1
  induction calls using List.reverseRecOn with
  | nil => rfl
  | append_singleton calls call ih =>
    rw [stream_append_singleton, values_append, List.getLast?_append,
      latestErrorCounts_append_singleton, ih fun c hc => hvalid c (by simp [hc])]
    by_cases hre : ∃ ctx c counts, call = .ReconcilerErrors ctx c counts
    · obtain ⟨ctx, c, counts, rfl⟩ := hre
      rw [RecordCall.measurements, reconcilerErrors_values_record checkValue ctx c counts
        (hvalid _ (by simp) ctx c counts rfl) hclasses]
      by_cases h : c = component
      · by_cases hk : errorclass ∈ supportedErrorClasses <;>
          simp [errorCountsStep, h, errorClassValue, hk]
      · simp [errorCountsStep, h]
    · push_neg at hre
      rw [reconcilerErrors_values_other checkValue reconcilerName CommitNone hre,
        errorCountsStep_other hre]
      rfl

theorem reconciler_errors_after_the_errors_are_fixed :
    (∀ k ∈ supportedErrorClasses, (fun _ => true : String → Bool) k = true) ∧
    (∀ call ∈ [RecordCall.ReconcilerErrors [] "parser" fun k => if k = "1xxx" then some 2 else none,
        .ReconcilerErrors [] "parser" fun _ => none],
      ∀ ctx c counts, call = .ReconcilerErrors ctx c counts → (fun _ => true : String → Bool) c = true) ∧
    ReconcilerErrorsView.row (stream (fun _ => true) "" ""
        [.ReconcilerErrors [] "parser" fun k => if k = "1xxx" then some 2 else none,
          .ReconcilerErrors [] "parser" fun _ => none])
        ["parser", "1xxx"] = .lastValue (some 0) :=
  ⟨fun _ _ => rfl, fun _ _ _ _ _ _ => rfl,
    (reconciler_errors_rows_hold_the_latest_counts (fun _ => true) "" "" _ (fun _ _ => rfl)
      (fun _ _ _ _ _ _ => rfl) "parser" "1xxx").trans rfl⟩

end errors

/-! ## The apply rows -/

section apply

variable (checkValue : String → Bool) (reconcilerName CommitNone : String)

theorem apply_values_of_other {call : RecordCall}
    (h : ∀ ctx status commit startTime now, call ≠ .ApplyDuration ctx status commit startTime now)
    (row : List String) :
    ApplyDurationView.values (call.measurements checkValue reconcilerName CommitNone) row = [] ∧
      LastApplyTimestampView.values (call.measurements checkValue reconcilerName CommitNone) row =
        [] := by
  have hm : ApplyDurationView.Measure ∉ call.measures ∧
      LastApplyTimestampView.Measure ∉ call.measures := by
    cases call <;> first | exact absurd rfl (h _ _ _ _ _) |
      simp [RecordCall.measures, ApplyDurationView, LastApplyTimestampView]
  exact ⟨values_of_not_mem_measures checkValue reconcilerName CommitNone _ hm.1 row,
    values_of_not_mem_measures checkValue reconcilerName CommitNone _ hm.2 row⟩

/-- With a non-empty `CommitNone`, no apply is recorded under an empty commit. -/
theorem apply_values_empty_commit {call : RecordCall} (hnone : CommitNone ≠ "")
    (hv : ∀ ctx status commit startTime now,
      call = .ApplyDuration ctx status commit startTime now →
        checkValue status = true ∧ checkValue (if commit = "" then CommitNone else commit) = true)
    (status : String) :
    ApplyDurationView.values (call.measurements checkValue reconcilerName CommitNone)
        ["", status] = [] ∧
      LastApplyTimestampView.values (call.measurements checkValue reconcilerName CommitNone)
        ["", status] = [] := by
  by_cases h : ∃ ctx status commit startTime now,
      call = .ApplyDuration ctx status commit startTime now
  · obtain ⟨ctx, st, c, startTime, now, rfl⟩ := h
    obtain ⟨hs, hc⟩ := hv ctx st c startTime now rfl
    have hne : (if c = "" then CommitNone else c) ≠ "" := by split_ifs with h <;> assumption
    simp only [RecordCall.measurements, RecordApplyDuration]
    generalize (if c = "" then CommitNone else c) = cm at hc hne ⊢
    simp [values_record, tagNew, hs, hc, View.rowOf, ApplyDurationView, LastApplyTimestampView,
      hne]
  · push_neg at h
    exact apply_values_of_other checkValue reconcilerName CommitNone h _

/-- Over any run of record calls in which `CommitNone` is not empty and the tag library accepts
the status and the commit of every apply, the ApplyDuration and LastApplyTimestamp rows of an
empty commit hold nothing: the default that `RecordApplyDuration` puts in place of an empty
commit reaches every row. -/
theorem apply_rows_never_carry_an_empty_commit (calls : List RecordCall)
    (hnone : CommitNone ≠ "")
    (hvalid : ∀ call ∈ calls, ∀ ctx status commit startTime now,
      call = .ApplyDuration ctx status commit startTime now →
        checkValue status = true ∧ checkValue (if commit = "" then CommitNone else commit) = true)
    (status : String) :
    ApplyDurationView.values (stream checkValue reconcilerName CommitNone calls) ["", status] = [] ∧
      LastApplyTimestampView.values (stream checkValue reconcilerName CommitNone calls)
        ["", status] = [] := by
  induction calls using List.reverseRecOn with
  | nil => exact ⟨rfl, rfl⟩
  | append_singleton calls call ih =>
    obtain ⟨hd, hl⟩ := ih fun c hc => hvalid c (by simp [hc])
    obtain ⟨hd', hl'⟩ := apply_values_empty_commit checkValue reconcilerName CommitNone hnone
      (hvalid call (by simp)) status
    simp only [stream_append_singleton, values_append, hd, hl, hd', hl', List.append_nil,
      and_self]

theorem an_apply_with_no_commit :
    "NONE" ≠ "" ∧
    (∀ call ∈ [RecordCall.ApplyDuration [] "success" "" 0 5],
      ∀ ctx status commit startTime now, call = .ApplyDuration ctx status commit startTime now →
        (fun _ => true : String → Bool) status = true ∧
          (fun _ => true : String → Bool) (if commit = "" then "NONE" else commit) = true) ∧
    ApplyDurationView.values (stream (fun _ => true) "" "NONE"
        [RecordCall.ApplyDuration [] "success" "" 0 5]) ["", "success"] = [] ∧
      LastApplyTimestampView.values (stream (fun _ => true) "" "NONE"
        [RecordCall.ApplyDuration [] "success" "" 0 5]) ["", "success"] = [] :=
  ⟨by decide, fun _ _ _ _ _ _ _ _ => ⟨rfl, rfl⟩,
    apply_rows_never_carry_an_empty_commit (fun _ => true) "" "NONE" _ (by decide)
      (fun _ _ _ _ _ _ _ _ => ⟨rfl, rfl⟩) "success"⟩

end apply

/-! ## The store's measurements are rows of their views -/

section declared

variable (checkValue : String → Bool) (reconcilerName CommitNone : String)

/-- The record call behind a measurement of the store, made in the context `ctx`. -/
def ofDeclared (ctx : TagMap) : declared.Measurement → RecordCall
  | .internalErrors source => .InternalError ctx source
  | .declaredResources commit n => .DeclaredResources ctx commit n

/-- The tag value a measurement of the store is recorded under. -/
def declaredTag : declared.Measurement → String
  | .internalErrors source => source
  | .declaredResources commit _ => commit

theorem declared_values_ofDeclared (ctx : TagMap) (m : declared.Measurement)
    (hv : ∀ c n, m = .declaredResources c n → checkValue c = true) (commit : String) :
    DeclaredResourcesView.values ((ofDeclared ctx m).measurements checkValue reconcilerName
        CommitNone) [commit] =
      (declared.lastDeclaredResources [m] commit).toList.map (fun n : Nat => ((n : Int) : ℚ)) := by
  cases m with
  | internalErrors s =>
    simp [ofDeclared, RecordCall.measurements, RecordInternalError, DeclaredResourcesView,
      declared.lastDeclaredResources]
  | declaredResources c n =>
    simp [ofDeclared, RecordCall.measurements, RecordDeclaredResources, tagNew,
      hv c n rfl, View.rowOf, DeclaredResourcesView, declared.lastDeclaredResources]
    split_ifs <;> rfl

theorem internal_values_ofDeclared (ctx : TagMap) (m : declared.Measurement)
    (hv : ∀ s, m = .internalErrors s → checkValue s = true) (source : String) :
    InternalErrorsView.values ((ofDeclared ctx m).measurements checkValue reconcilerName
        CommitNone) [source] =
      List.replicate ([m].count (.internalErrors source)) 1 := by
  cases m with
  | internalErrors s =>
    simp [ofDeclared, RecordCall.measurements, RecordInternalError, tagNew, hv s rfl,
      View.rowOf, InternalErrorsView, List.count_cons]
    split_ifs <;> rfl
  | declaredResources c n =>
    simp [ofDeclared, RecordCall.measurements, RecordDeclaredResources, InternalErrorsView]

theorem lastDeclaredResources_append_singleton (ms : List declared.Measurement)
    (m : declared.Measurement) (commit : String) :
    declared.lastDeclaredResources (ms ++ [m]) commit =
      (declared.lastDeclaredResources [m] commit).or
        (declared.lastDeclaredResources ms commit) := by
  cases m with
  | internalErrors s =>
    rw [declared.lastDeclaredResources_append_internal ms _ commit fun m hm => ⟨s, by simpa using hm⟩]
    rfl
  | declaredResources c n =>
    rw [declared.lastDeclaredResources_append_declared]
    split_ifs <;> simp [declared.lastDeclaredResources, *]

/-- The DeclaredResources row of a commit holds the last declared_resources value the store
recorded under it, when the tag library accepts every commit it was recorded under. -/
theorem declared_row_getLast (ctx : TagMap) (ms : List declared.Measurement)
    (hv : ∀ c n, .declaredResources c n ∈ ms → checkValue c = true) (commit : String) :
    (DeclaredResourcesView.values (stream checkValue reconcilerName CommitNone
        (ms.map (ofDeclared ctx))) [commit]).getLast? =
      (declared.lastDeclaredResources ms commit).map (fun n : Nat => ((n : Int) : ℚ)) := by
  induction ms using List.reverseRecOn with
  | nil => rfl
  | append_singleton ms m ih =>
    rw [List.map_append, List.map_singleton, stream_append_singleton, values_append,
      List.getLast?_append, ih fun c n h => hv c n (by simp [h]),
      declared_values_ofDeclared checkValue reconcilerName CommitNone ctx m
        (fun c n h => hv c n (by simp [h])), lastDeclaredResources_append_singleton]
    cases declared.lastDeclaredResources [m] commit <;> simp

/-- The InternalErrors row of a source counts the internal errors the store recorded for it,
when the tag library accepts every source. -/
theorem internal_row_length (ctx : TagMap) (ms : List declared.Measurement)
    (hv : ∀ s, .internalErrors s ∈ ms → checkValue s = true) (source : String) :
    (InternalErrorsView.values (stream checkValue reconcilerName CommitNone
        (ms.map (ofDeclared ctx))) [source]).length = ms.count (.internalErrors source) := by
  induction ms using List.reverseRecOn with
  | nil => rfl
  | append_singleton ms m ih =>
    rw [List.map_append, List.map_singleton, stream_append_singleton, values_append,
      List.length_append, ih fun s h => hv s (by simp [h]),
      internal_values_ofDeclared checkValue reconcilerName CommitNone ctx m
        (fun s h => hv s (by simp [h])), List.length_replicate, List.count_append]

/-- The measurements of the store's model are what the views of `pkg/metrics` export, for
every sequence of them whose tags the tag library accepts: the declared_resources stream of a
commit is the LastValue row of the commit in DeclaredResourcesView, and the internal errors of
a source are the Count row of the source in InternalErrorsView. -/
theorem declared_streams_are_the_rows_of_their_views (ctx : TagMap)
    (ms : List declared.Measurement) (hvalid : ∀ m ∈ ms, checkValue (declaredTag m) = true) :
    let s := stream checkValue reconcilerName CommitNone (ms.map (ofDeclared ctx))
    (∀ commit, DeclaredResourcesView.row s [commit] =
      .lastValue ((declared.lastDeclaredResources ms commit).map fun n : Nat => ((n : Int) : ℚ))) ∧
    ∀ source, InternalErrorsView.row s [source] = .count (ms.count (.internalErrors source)) := by
  refine ⟨fun commit => congrArg RowData.lastValue ?_, fun source => congrArg RowData.count ?_⟩
  · exact declared_row_getLast checkValue reconcilerName CommitNone ctx ms
      (fun c n h => hvalid _ h) commit
  · exact internal_row_length checkValue reconcilerName CommitNone ctx ms
      (fun s h => hvalid _ h) source

theorem declared_streams_of_two_commits :
    (∀ m ∈ [declared.Measurement.declaredResources "a" 3, .internalErrors "parser",
        .declaredResources "b" 2, .declaredResources "a" 0],
      (fun _ => true : String → Bool) (declaredTag m) = true) ∧
    let s := stream (fun _ => true) "" ""
      ([declared.Measurement.declaredResources "a" 3, .internalErrors "parser",
        .declaredResources "b" 2, .declaredResources "a" 0].map (ofDeclared []))
    (∀ commit, DeclaredResourcesView.row s [commit] =
      .lastValue ((declared.lastDeclaredResources [.declaredResources "a" 3,
        .internalErrors "parser", .declaredResources "b" 2, .declaredResources "a" 0] commit).map
          fun n : Nat => ((n : Int) : ℚ))) ∧
    ∀ source, InternalErrorsView.row s [source] =
      .count ([declared.Measurement.declaredResources "a" 3, .internalErrors "parser",
        .declaredResources "b" 2, .declaredResources "a" 0].count (.internalErrors source)) :=
  ⟨fun _ _ => rfl,
    declared_streams_are_the_rows_of_their_views (fun _ => true) "" "" [] _ fun _ _ => rfl⟩

end declared

end config_sync.metrics
