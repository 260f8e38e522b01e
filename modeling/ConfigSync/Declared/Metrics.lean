import ConfigSync.Declared.Resources
-- The measurements of a run of `Resources.Update` calls, each passing the commit of the
-- call before it as `oldCommit`. Each call records its count under its commit and resets
-- the stream of the previous commit to 0; the reset skips an empty previous commit, and a
-- call whose objects do not convert records nothing. The rows these calls reach in the
-- views of `pkg/metrics` are `ConfigSync.Metrics.DeclaredResources`.

namespace config_sync.declared

open config_sync.core config_sync.orderedmap

/-! ## The streams -/

/-- The last declared_resources value recorded under the tag `commit`, if any. -/
def lastDeclaredResources (ms : List Measurement) (commit : String) : Option Nat :=
  ms.foldl (fun last m => match m with
    | .declaredResources c n => if c = commit then some n else last
    | .internalErrors _ => last) none

@[simp]
theorem lastDeclaredResources_nil (commit : String) : lastDeclaredResources [] commit = none :=
  rfl

@[simp]
theorem lastDeclaredResources_append_declared (ms : List Measurement) (c t : String) (n : Nat) :
    lastDeclaredResources (ms ++ [.declaredResources c n]) t =
      if c = t then some n else lastDeclaredResources ms t := by
  simp [lastDeclaredResources]

theorem lastDeclaredResources_append_internal (ms pre : List Measurement) (t : String)
    (h : ∀ m ∈ pre, ∃ s, m = .internalErrors s) :
    lastDeclaredResources (ms ++ pre) t = lastDeclaredResources ms t := by
  induction pre using List.reverseRecOn with
  | nil => simp
  | append_singleton pre m ih =>
    obtain ⟨s, rfl⟩ := h m (by simp)
    rw [← List.append_assoc, lastDeclaredResources, List.foldl_append, ← lastDeclaredResources,
      ih fun m hm => h m (by simp [hm])]
    rfl

/-- The streams after a call at `commit` with `n` objects: the stream of `commit` holds `n`,
and the stream of every other non-empty commit holds 0 or nothing. -/
structure CurrentOnly (ms : List Measurement) (commit : String) (n : Nat) : Prop where
  current : lastDeclaredResources ms commit = some n
  others : ∀ t, t ≠ commit → t ≠ "" →
    lastDeclaredResources ms t = none ∨ lastDeclaredResources ms t = some 0

/-! ## What one `Update` records -/

section run

variable (asUnstructuredSanitized : Object → Except String Object)

/-- When every object converts, the loop of `Update` records one parser internal error for
each `nil` object and nothing else. -/
theorem updateLoop_converts (objects : List (Option Object)) (newSet : OrderedMap ID Object)
    (newObjects : List Object) (ms : List Measurement)
    (h : ∀ o ∈ objects.reduceOption, ∃ u, asUnstructuredSanitized o = .ok u) :
    ∃ newSet', updateLoop asUnstructuredSanitized objects newSet newObjects ms =
      (.ok (newSet', newObjects ++ objects.reduceOption),
        ms ++ List.replicate (objects.count none) (.internalErrors "parser")) := by
  induction objects generalizing newSet newObjects ms with
  | nil => exact ⟨newSet, by simp [updateLoop]⟩
  | cons o objects ih =>
    cases o with
    | none =>
      obtain ⟨newSet', h'⟩ := ih newSet newObjects (ms ++ [.internalErrors "parser"])
        (by simpa using h)
      exact ⟨newSet', by simp [updateLoop, h', List.replicate_succ]⟩
    | some obj =>
      obtain ⟨u, hu⟩ := h obj (by simp)
      obtain ⟨newSet', h'⟩ := ih (newSet.Set (IDOf obj) u) (newObjects ++ [obj]) ms
        fun o ho => h o (by simp [ho])
      exact ⟨newSet', by simp [updateLoop, hu, h']⟩

/-- When every object converts, `Update` records a parser internal error for each `nil`
object, then its count under `commit`, then 0 under a previous commit that differs and is not
empty, whether or not the namespace check passes. -/
theorem update_recorded
    (deletesAllNamespaces : Option (OrderedMap ID Object) → OrderedMap ID Object → Option Error)
    (r : Resources) (objects : List (Option Object)) (commit oldCommit : String)
    (h : ∀ o ∈ objects.reduceOption, ∃ u, asUnstructuredSanitized o = .ok u) :
    (r.Update asUnstructuredSanitized deletesAllNamespaces objects commit oldCommit).recorded =
      List.replicate (objects.count none) (.internalErrors "parser") ++
        [.declaredResources commit objects.reduceOption.length] ++
          if oldCommit ≠ commit ∧ oldCommit ≠ "" then [.declaredResources oldCommit 0] else [] := by
  obtain ⟨newSet, hl⟩ := updateLoop_converts asUnstructuredSanitized objects NewOrderedMap [] [] h
  simp only [Resources.Update, hl, List.nil_append]
  split <;> split_ifs <;> simp

theorem lastDeclaredResources_update
    (deletesAllNamespaces : Option (OrderedMap ID Object) → OrderedMap ID Object → Option Error)
    (r : Resources) (objects : List (Option Object)) (commit oldCommit : String)
    (h : ∀ o ∈ objects.reduceOption, ∃ u, asUnstructuredSanitized o = .ok u)
    (ms : List Measurement) (t : String) :
    lastDeclaredResources (ms ++ (r.Update asUnstructuredSanitized deletesAllNamespaces objects
      commit oldCommit).recorded) t =
      if oldCommit ≠ commit ∧ oldCommit ≠ "" ∧ oldCommit = t then some 0
      else if commit = t then some objects.reduceOption.length
      else lastDeclaredResources ms t := by
  have hm : ∀ m ∈ List.replicate (objects.count none) (Measurement.internalErrors "parser"),
      ∃ s, m = .internalErrors s := fun m hm => ⟨_, List.eq_of_mem_replicate hm⟩
  rw [update_recorded asUnstructuredSanitized deletesAllNamespaces r objects commit oldCommit h]
  by_cases hr : oldCommit ≠ commit ∧ oldCommit ≠ ""
  · simp only [if_pos hr, ← List.append_assoc, lastDeclaredResources_append_declared,
      lastDeclaredResources_append_internal _ _ _ hm]
    by_cases ht : oldCommit = t
    · subst ht
      simp [hr]
    · simp [ht]
  · simp only [if_neg hr, List.append_nil, ← List.append_assoc,
      lastDeclaredResources_append_declared, lastDeclaredResources_append_internal _ _ _ hm]
    have : ¬(oldCommit ≠ commit ∧ oldCommit ≠ "" ∧ oldCommit = t) := fun h => hr ⟨h.1, h.2.1⟩
    simp only [this, if_false]

/-! ## A run of `Update` calls -/

/-- One call of a run: its objects, its commit, and what the namespace check answers. -/
structure UpdateCall where
  objects : List (Option Object)
  commit : String
  deletesAllNamespaces : Option (OrderedMap ID Object) → OrderedMap ID Object → Option Error

/-- Where a run stands: the store, the commit of the last call, which the next call passes as
`oldCommit`, and everything recorded so far. -/
structure MetricRun where
  resources : Resources
  oldCommit : String
  recorded : List Measurement

/-- One call of the run. -/
def MetricRun.step (s : MetricRun) (call : UpdateCall) : MetricRun :=
  let res := s.resources.Update asUnstructuredSanitized call.deletesAllNamespaces call.objects
    call.commit s.oldCommit
  ⟨res.resources, call.commit, s.recorded ++ res.recorded⟩

/-- A run from the store `r`, with nothing recorded and `""` as the first `oldCommit`. -/
def runUpdates (r : Resources) (calls : List UpdateCall) : MetricRun :=
  calls.foldl (MetricRun.step asUnstructuredSanitized) ⟨r, "", []⟩

/-- Every object of the call that is not `nil` converts. -/
def Converts (call : UpdateCall) : Prop :=
  ∀ o ∈ call.objects.reduceOption, ∃ u, asUnstructuredSanitized o = .ok u

/-- The streams of the non-empty commits other than the last one hold 0 or nothing. -/
def StaleReset (s : MetricRun) : Prop :=
  ∀ t, t ≠ s.oldCommit → t ≠ "" →
    lastDeclaredResources s.recorded t = none ∨ lastDeclaredResources s.recorded t = some 0

theorem currentOnly_step (s : MetricRun) (call : UpdateCall)
    (hc : Converts asUnstructuredSanitized call) (hs : StaleReset s) :
    CurrentOnly (s.step asUnstructuredSanitized call).recorded call.commit
      call.objects.reduceOption.length := by
  have hl := lastDeclaredResources_update asUnstructuredSanitized call.deletesAllNamespaces
    s.resources call.objects call.commit s.oldCommit hc s.recorded
  refine ⟨by simp +contextual [MetricRun.step, hl], fun t htc hte => ?_⟩
  simp only [MetricRun.step, hl, Ne.symm htc, if_false]
  by_cases ho : s.oldCommit = t
  · subst ho
    simp [htc, hte]
  · simpa [ho] using hs t (Ne.symm ho) hte

theorem staleReset_runUpdates (r : Resources) (calls : List UpdateCall)
    (hc : ∀ call ∈ calls, Converts asUnstructuredSanitized call) :
    StaleReset (runUpdates asUnstructuredSanitized r calls) := by
  induction calls using List.reverseRecOn with
  | nil => intro t _ _; simp [runUpdates]
  | append_singleton calls call ih =>
    have h := currentOnly_step asUnstructuredSanitized _ call (hc call (by simp))
      (ih fun c hc' => hc c (by simp [hc']))
    rw [runUpdates, List.foldl_append, List.foldl_cons, List.foldl_nil, ← runUpdates]
    exact h.others

/-- After the last call of a run in which every object converts, the stream of its commit holds
its count and the stream of every other non-empty commit holds 0 or nothing. -/
theorem currentOnly_runUpdates (r : Resources) (calls : List UpdateCall) (call : UpdateCall)
    (hc : ∀ c ∈ calls ++ [call], Converts asUnstructuredSanitized c) :
    CurrentOnly (runUpdates asUnstructuredSanitized r (calls ++ [call])).recorded call.commit
      call.objects.reduceOption.length := by
  rw [runUpdates, List.foldl_append, List.foldl_cons, List.foldl_nil, ← runUpdates]
  exact currentOnly_step asUnstructuredSanitized _ call (hc call (by simp))
    (staleReset_runUpdates asUnstructuredSanitized r calls fun c hc' => hc c (by simp [hc']))

/-- Every tag a run records declared_resources under is the commit of one of its calls, so
what holds of every commit holds of every such tag. -/
theorem runUpdates_tags (Q : String → Prop) (r : Resources) (calls : List UpdateCall)
    (hc : ∀ call ∈ calls, Converts asUnstructuredSanitized call)
    (hq : ∀ call ∈ calls, Q call.commit) :
    (∀ c n, .declaredResources c n ∈ (runUpdates asUnstructuredSanitized r calls).recorded →
      Q c) ∧
    ((runUpdates asUnstructuredSanitized r calls).oldCommit = "" ∨
      Q (runUpdates asUnstructuredSanitized r calls).oldCommit) := by
  induction calls using List.reverseRecOn with
  | nil => exact ⟨fun c n h => by simp [runUpdates] at h, .inl rfl⟩
  | append_singleton calls call ih =>
    obtain ⟨hr, ho⟩ := ih (fun c h => hc c (by simp [h])) fun c h => hq c (by simp [h])
    rw [runUpdates, List.foldl_append, List.foldl_cons, List.foldl_nil, ← runUpdates]
    refine ⟨fun c n h => ?_, .inr (hq call (by simp))⟩
    simp only [MetricRun.step, update_recorded asUnstructuredSanitized _ _ _ _ _ (hc call (by simp)),
      List.mem_append, List.mem_replicate, List.mem_singleton] at h
    rcases h with h | (⟨-, ⟨⟩⟩ | h) | h
    · exact hr c n h
    · exact (Measurement.declaredResources.inj h).1 ▸ hq call (by simp)
    · split_ifs at h with hs
      · cases List.mem_singleton.mp h
        exact ho.resolve_left hs.2
      · cases h

theorem lastDeclaredResources_eq_none (ms : List Measurement) {t : String}
    (h : ∀ n, .declaredResources t n ∉ ms) : lastDeclaredResources ms t = none := by
  induction ms using List.reverseRecOn with
  | nil => rfl
  | append_singleton ms m ih =>
    have ih := ih fun n hn => h n (by simp [hn])
    cases m with
    | internalErrors s =>
      rw [lastDeclaredResources_append_internal ms _ t (by simp)]
      exact ih
    | declaredResources c n =>
      rw [lastDeclaredResources_append_declared, if_neg fun hc => h n (by simp [hc]), ih]

/-- Over a run in which every object converts, the internal errors recorded for the source
"parser" are the `nil` objects of the calls, one for each, and no other source has any. -/
theorem count_internalErrors_runUpdates (r : Resources) (calls : List UpdateCall)
    (hc : ∀ call ∈ calls, Converts asUnstructuredSanitized call) (source : String) :
    (runUpdates asUnstructuredSanitized r calls).recorded.count (.internalErrors source) =
      if source = "parser" then (calls.flatMap fun call => call.objects).count none else 0 := by
  induction calls using List.reverseRecOn with
  | nil => split_ifs <;> rfl
  | append_singleton calls call ih =>
    rw [runUpdates, List.foldl_append, List.foldl_cons, List.foldl_nil, ← runUpdates]
    simp only [MetricRun.step, List.count_append, ih fun c hc' => hc c (by simp [hc']),
      update_recorded asUnstructuredSanitized _ _ _ _ _ (hc call (by simp)),
      List.count_replicate, beq_iff_eq, Measurement.internalErrors.injEq, List.flatMap_append,
      List.flatMap_singleton]
    by_cases hs : source = "parser"
    · subst hs
      split_ifs <;> simp
    · simp only [hs, Ne.symm hs, if_false]
      split_ifs <;> simp

end run

end config_sync.declared
