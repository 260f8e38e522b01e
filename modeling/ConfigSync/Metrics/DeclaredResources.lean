import Mathlib.Algebra.Order.Ring.Rat
import Mathlib.Data.Nat.Cast.Order.Ring
import Mathlib.Data.List.Dedup
import Mathlib.Data.List.MinMax
import ConfigSync.Metrics.Views
-- The metrics of a run of `Resources.Update` calls as the views of `pkg/metrics` export them.
-- Each row of DeclaredResourcesView is one stream, of one commit tag, and the collector's
-- `aggregate_labels` with `aggregation_type: max` keeps the greatest of their last values.
-- When every commit of the run is non-empty and the tag library accepts it, that maximum is
-- the count of the last call, also when the count goes down. The reset of the previous commit
-- skips an empty one, so the stream of an empty commit keeps its count for ever and the
-- maximum stays above the count of every smaller commit after it.

namespace config_sync.metrics

open config_sync.core config_sync.declared

/-! ## The collector's MAX -/

/-- The rows of a view that hold a value: the streams its exporter sends. -/
def View.streams (v : View) (ms : List Measurement) : List (List String) :=
  ((ms.filter fun m => m.measure == v.Measure).map fun m => v.rowOf m.tags).dedup

/-- The collector's `aggregate_labels` with `aggregation_type: max` over a LastValue view whose
tag keys it all drops: the greatest last value of the view's streams, `⊥` when there is none. -/
def View.maxOfLastValues (v : View) (ms : List Measurement) : WithBot ℚ :=
  ((v.streams ms).map fun row => ((v.values ms row).getLast?).getD 0).maximum

theorem mem_streams {v : View} {ms : List Measurement} {row : List String} :
    row ∈ v.streams ms ↔ v.values ms row ≠ [] := by
  simp [View.streams, View.values, List.mem_dedup, List.filter_eq_nil_iff, and_assoc, and_left_comm]

/-- The maximum is `a` when some stream ends at `a` and none ends above it. -/
theorem maxOfLastValues_eq {v : View} {ms : List Measurement} {a : ℚ}
    (hmem : ∃ row, (v.values ms row).getLast? = some a)
    (hle : ∀ row x, (v.values ms row).getLast? = some x → x ≤ a) :
    v.maxOfLastValues ms = a := by
  obtain ⟨row, hrow⟩ := hmem
  rw [View.maxOfLastValues, List.maximum_eq_coe_iff, List.mem_map]
  refine ⟨⟨row, mem_streams.mpr fun h => by simp [h] at hrow, by rw [hrow]; rfl⟩, ?_⟩
  · simp only [List.mem_map]
    rintro _ ⟨row', hr, rfl⟩
    obtain ⟨x, hx⟩ := Option.ne_none_iff_exists'.mp
      (List.getLast?_eq_none_iff.not.mpr (mem_streams.mp hr))
    rw [hx]
    exact hle row' x hx

/-- DeclaredResourcesView has one tag key, so every row that holds a value is one commit. -/
theorem declared_row_singleton {ms : List Measurement} {row : List String}
    (h : DeclaredResourcesView.values ms row ≠ []) : ∃ t, row = [t] := by
  obtain ⟨x, hx⟩ := List.exists_mem_of_ne_nil _ h
  obtain ⟨m, hm, -⟩ := List.mem_map.mp hx
  simp only [List.mem_filter, Bool.and_eq_true, beq_iff_eq] at hm
  exact ⟨_, hm.2.2.symm⟩

/-! ## The declared_resources streams of a run -/

section run

variable (asUnstructuredSanitized : Object → Except String Object) (checkValue : String → Bool)
  (reconcilerName CommitNone : String) (ctx : TagMap)

/-- What the views get from a run of `Resources.Update` calls made in the context `ctx`. -/
def declaredStream (r : Resources) (calls : List UpdateCall) : List Measurement :=
  stream checkValue reconcilerName CommitNone
    ((runUpdates asUnstructuredSanitized r calls).recorded.map (ofDeclared ctx))

/-- The DeclaredResources row of every commit of a run ends at the last value recorded under
it, when the tag library accepts every commit. -/
theorem declaredStream_getLast (r : Resources) (calls : List UpdateCall)
    (hc : ∀ call ∈ calls, Converts asUnstructuredSanitized call)
    (hv : ∀ call ∈ calls, checkValue call.commit = true) (t : String) :
    (DeclaredResourcesView.values
        (declaredStream asUnstructuredSanitized checkValue reconcilerName CommitNone ctx r calls)
        [t]).getLast? =
      (lastDeclaredResources (runUpdates asUnstructuredSanitized r calls).recorded t).map
        fun n : Nat => ((n : Int) : ℚ) :=
  declared_row_getLast checkValue reconcilerName CommitNone ctx _
    (runUpdates_tags asUnstructuredSanitized (fun c => checkValue c = true) r calls hc hv).1 t

/-- After every call of a run in which every object converts and every commit is non-empty and
accepted by the tag library, the DeclaredResources row of the call's commit ends at the call's
count of objects that are not `nil`, the row of every other commit ends at 0 or holds nothing,
so the collector's MAX over the rows is that count, also when it goes down. -/
theorem declared_resources_rows_hold_only_the_current_count (r : Resources)
    (calls : List UpdateCall) (call : UpdateCall)
    (hc : ∀ c ∈ calls ++ [call], Converts asUnstructuredSanitized c)
    (hcommit : ∀ c ∈ calls ++ [call], c.commit ≠ "" ∧ checkValue c.commit = true) :
    let s := declaredStream asUnstructuredSanitized checkValue reconcilerName CommitNone ctx r
      (calls ++ [call])
    DeclaredResourcesView.row s [call.commit] =
        .lastValue (some ((call.objects.reduceOption.length : Int) : ℚ)) ∧
      (∀ t, t ≠ call.commit → DeclaredResourcesView.row s [t] = .lastValue none ∨
        DeclaredResourcesView.row s [t] = .lastValue (some 0)) ∧
      DeclaredResourcesView.maxOfLastValues s = ((call.objects.reduceOption.length : Int) : ℚ) := by
  intro s
  have hrow := declaredStream_getLast asUnstructuredSanitized checkValue reconcilerName CommitNone
    ctx r _ hc fun c h => (hcommit c h).2
  have hcur := currentOnly_runUpdates asUnstructuredSanitized r calls call hc
  have hother : ∀ t, t ≠ call.commit →
      lastDeclaredResources (runUpdates asUnstructuredSanitized r (calls ++ [call])).recorded t =
        none ∨
      lastDeclaredResources (runUpdates asUnstructuredSanitized r (calls ++ [call])).recorded t =
        some 0 := by
    intro t ht
    by_cases he : t = ""
    · exact .inl (lastDeclaredResources_eq_none _ fun n h =>
        (runUpdates_tags asUnstructuredSanitized (· ≠ "") r _ hc fun c h => (hcommit c h).1).1
          t n h he)
    · exact hcur.others t ht he
  have hlast : (DeclaredResourcesView.values s [call.commit]).getLast? =
      some ((call.objects.reduceOption.length : Int) : ℚ) := by
    rw [hrow, hcur.current]
    rfl
  refine ⟨congrArg RowData.lastValue hlast, fun t ht => ?_, maxOfLastValues_eq ⟨_, hlast⟩ ?_⟩
  · exact (hother t ht).imp (fun h => congrArg RowData.lastValue (by rw [hrow, h]; rfl))
      fun h => congrArg RowData.lastValue (by rw [hrow, h]; rfl)
  · intro row x hx
    have hne : DeclaredResourcesView.values s row ≠ [] := fun h => by simp [h] at hx
    obtain ⟨t, rfl⟩ := declared_row_singleton hne
    rw [hrow] at hx
    by_cases ht : t = call.commit
    · subst ht
      rw [hcur.current] at hx
      exact (Option.some.inj hx).ge
    · rcases hother t ht with h | h <;> rw [h] at hx <;> cases hx
      beta_reduce
      exact_mod_cast Nat.cast_nonneg _

theorem declared_resources_over_a_smaller_commit :
    (∀ c ∈ [(⟨[some ⟨⟨"", "v1", "ConfigMap"⟩, "ns", "a", []⟩,
          some ⟨⟨"", "v1", "ConfigMap"⟩, "ns", "b", []⟩], "c1", fun _ _ => none⟩ : UpdateCall)] ++
        [(⟨[some ⟨⟨"", "v1", "ConfigMap"⟩, "ns", "a", []⟩], "c2", fun _ _ => none⟩ : UpdateCall)],
        Converts Except.ok c) ∧
    (∀ c ∈ [(⟨[some ⟨⟨"", "v1", "ConfigMap"⟩, "ns", "a", []⟩,
          some ⟨⟨"", "v1", "ConfigMap"⟩, "ns", "b", []⟩], "c1", fun _ _ => none⟩ : UpdateCall)] ++
        [(⟨[some ⟨⟨"", "v1", "ConfigMap"⟩, "ns", "a", []⟩], "c2", fun _ _ => none⟩ : UpdateCall)],
        c.commit ≠ "" ∧ (fun _ => true : String → Bool) c.commit = true) ∧
    let s := declaredStream Except.ok (fun _ => true) "" "" []  Resources.empty
      ([⟨[some ⟨⟨"", "v1", "ConfigMap"⟩, "ns", "a", []⟩,
          some ⟨⟨"", "v1", "ConfigMap"⟩, "ns", "b", []⟩], "c1", fun _ _ => none⟩] ++
        [⟨[some ⟨⟨"", "v1", "ConfigMap"⟩, "ns", "a", []⟩], "c2", fun _ _ => none⟩])
    DeclaredResourcesView.row s ["c2"] = .lastValue (some ((1 : Int) : ℚ)) ∧
      (∀ t, t ≠ "c2" → DeclaredResourcesView.row s [t] = .lastValue none ∨
        DeclaredResourcesView.row s [t] = .lastValue (some 0)) ∧
      DeclaredResourcesView.maxOfLastValues s = ((1 : Int) : ℚ) :=
  ⟨fun _ _ o _ => ⟨o, rfl⟩, by decide,
    declared_resources_rows_hold_only_the_current_count Except.ok (fun _ => true) "" "" [] _ _ _
      (fun _ _ o _ => ⟨o, rfl⟩) (by decide)⟩

/-- The store's internal errors reach the InternalErrors row of the source "parser", one for
each `nil` object of a run in which every object converts, and no other row, when the tag
library accepts "parser". -/
theorem internal_errors_rows_count_the_nil_objects (r : Resources) (calls : List UpdateCall)
    (hc : ∀ call ∈ calls, Converts asUnstructuredSanitized call)
    (hp : checkValue "parser" = true) (source : String) :
    InternalErrorsView.row
        (declaredStream asUnstructuredSanitized checkValue reconcilerName CommitNone ctx r calls)
        [source] =
      .count (if source = "parser" then (calls.flatMap fun call => call.objects).count none
        else 0) := by
  have hcount := count_internalErrors_runUpdates asUnstructuredSanitized r calls hc
  refine congrArg RowData.count ((internal_row_length checkValue reconcilerName CommitNone ctx _
    (fun s hs => ?_) source).trans (hcount source))
  by_cases h : s = "parser"
  · exact h ▸ hp
  · have := List.count_pos_iff.mpr hs
    rw [hcount s, if_neg h] at this
    exact absurd this (Nat.lt_irrefl 0)

theorem internal_errors_of_two_calls_with_nil_objects :
    (∀ call ∈ [(⟨[none, some ⟨⟨"", "v1", "ConfigMap"⟩, "ns", "cm", []⟩, none], "a",
          fun _ _ => none⟩ : UpdateCall), ⟨[none], "b", fun _ _ => none⟩],
        Converts Except.ok call) ∧
      (fun _ => true : String → Bool) "parser" = true ∧
      InternalErrorsView.row (declaredStream Except.ok (fun _ => true) "" "" [] Resources.empty
          [⟨[none, some ⟨⟨"", "v1", "ConfigMap"⟩, "ns", "cm", []⟩, none], "a", fun _ _ => none⟩,
            ⟨[none], "b", fun _ _ => none⟩]) ["parser"] = .count 3 :=
  ⟨fun _ _ o _ => ⟨o, rfl⟩, rfl,
    internal_errors_rows_count_the_nil_objects Except.ok (fun _ => true) "" "" [] _ _
      (fun _ _ o _ => ⟨o, rfl⟩) rfl "parser"⟩

/-! ## The stream of an empty commit -/

/-- A run of two commits: an empty one that declares one object, then `b`, which declares
none. The reset that the comment of `Resources.Update` asks for, so that the MAX follows a
decrease, skips the empty commit: its stream keeps 1 while the store holds nothing, and the
collector's MAX reports 1 declared object. -/
theorem the_empty_commit_stream_is_never_reset (hempty : checkValue "" = true)
    (hb : checkValue "b" = true) :
    let calls : List UpdateCall :=
      [⟨[some ⟨⟨"", "v1", "ConfigMap"⟩, "ns", "cm", []⟩], "", fun _ _ => none⟩,
        ⟨[], "b", fun _ _ => none⟩]
    let s := declaredStream Except.ok checkValue reconcilerName CommitNone ctx Resources.empty
      calls
    (runUpdates Except.ok Resources.empty calls).resources.DeclaredObjects = ([], "b") ∧
      DeclaredResourcesView.row s [""] = .lastValue (some 1) ∧
      DeclaredResourcesView.row s ["b"] = .lastValue (some 0) ∧
      DeclaredResourcesView.maxOfLastValues s = (1 : ℚ) := by
  intro calls s
  have hrec : (runUpdates Except.ok Resources.empty calls).recorded =
      [.declaredResources "" 1, .declaredResources "b" 0] := rfl
  have hrow : ∀ t, (DeclaredResourcesView.values s [t]).getLast? =
      (lastDeclaredResources [.declaredResources "" 1, .declaredResources "b" 0] t).map
        fun n : Nat => ((n : Int) : ℚ) := by
    intro t
    rw [← hrec]
    refine declaredStream_getLast Except.ok checkValue reconcilerName CommitNone ctx _ _
      (fun _ _ o _ => ⟨o, rfl⟩) ?_ t
    simp only [calls, List.mem_cons, List.mem_singleton, List.not_mem_nil, or_false]
    rintro _ (rfl | rfl)
    · exact hempty
    · exact hb
  have hlast : (DeclaredResourcesView.values s [""]).getLast? = some 1 := by
    rw [hrow]
    rfl
  refine ⟨rfl, congrArg RowData.lastValue hlast, congrArg RowData.lastValue
    (by rw [hrow]; rfl), maxOfLastValues_eq ⟨_, hlast⟩ fun row x hx => ?_⟩
  have hne : DeclaredResourcesView.values s row ≠ [] := fun h => by simp [h] at hx
  obtain ⟨t, rfl⟩ := declared_row_singleton hne
  rw [hrow] at hx
  simp only [lastDeclaredResources, List.foldl_cons, List.foldl_nil] at hx
  split_ifs at hx <;> cases hx <;> decide

theorem the_empty_commit_stream_with_every_tag_accepted :
    (fun _ => true : String → Bool) "" = true ∧ (fun _ => true : String → Bool) "b" = true ∧
    (runUpdates Except.ok Resources.empty
        [⟨[some ⟨⟨"", "v1", "ConfigMap"⟩, "ns", "cm", []⟩], "", fun _ _ => none⟩,
          ⟨[], "b", fun _ _ => none⟩]).resources.DeclaredObjects = ([], "b") ∧
      DeclaredResourcesView.row (declaredStream Except.ok (fun _ => true) "" "" []
        Resources.empty [⟨[some ⟨⟨"", "v1", "ConfigMap"⟩, "ns", "cm", []⟩], "", fun _ _ => none⟩,
          ⟨[], "b", fun _ _ => none⟩]) [""] = .lastValue (some 1) ∧
      DeclaredResourcesView.row (declaredStream Except.ok (fun _ => true) "" "" []
        Resources.empty [⟨[some ⟨⟨"", "v1", "ConfigMap"⟩, "ns", "cm", []⟩], "", fun _ _ => none⟩,
          ⟨[], "b", fun _ _ => none⟩]) ["b"] = .lastValue (some 0) ∧
      DeclaredResourcesView.maxOfLastValues (declaredStream Except.ok (fun _ => true) "" "" []
        Resources.empty [⟨[some ⟨⟨"", "v1", "ConfigMap"⟩, "ns", "cm", []⟩], "", fun _ _ => none⟩,
          ⟨[], "b", fun _ _ => none⟩]) = (1 : ℚ) :=
  ⟨rfl, rfl, the_empty_commit_stream_is_never_reset (fun _ => true) "" "" [] rfl rfl⟩

end run

end config_sync.metrics
