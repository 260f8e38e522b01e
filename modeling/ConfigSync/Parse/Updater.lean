import ConfigSync.Declared.Resources
-- `parse.Updater` (`Update`, `update`, `declare`, `apply`, `watch`). A cycle pauses the
-- remediator, then declares the objects of the commit, applies them and updates the
-- watches, each step skipped once the cache marks it done and marked done only when it
-- passed with no parse errors, and resumes the remediator only when all three passed.

namespace config_sync.parse

open config_sync.core config_sync.orderedmap config_sync.declared

/-! ## The cycle -/

/-- `sourceState`, of which the cycle reads the commit. -/
structure SourceState where
  commit : String

/-- `cacheForCommit`: what the cycle reads of the parse of one commit, and the flags of its
partial progress. -/
structure CacheForCommit (FileObject : Type) where
  source : SourceState
  objsToApply : List FileObject
  parserErrs : MultiError
  declaredResourcesUpdated : Bool
  applied : Bool
  watchesUpdated : Bool

/-- `Updater`: the store, the last validation and watch errors, and `updating`. -/
structure Updater where
  Resources : Resources
  validationErrs : MultiError
  watchErrs : MultiError
  updating : Bool

/-- A call that a cycle makes to the store, the applier or the remediator, with what it
returned. -/
inductive Call where
  | pause
  | resourcesUpdate (objects : List (Option Object)) (commit oldCommit : String)
      (err : Option Error)
  | apply (objs : List Object) (errs : MultiError)
  | updateWatches (gvks : List GroupVersionKind) (errs : MultiError)
  | resume
deriving DecidableEq

/-- What the collaborators answer in one cycle. Each may fail or pass on any call. -/
structure Outcomes where
  deletesAllNamespaces : Option (OrderedMap ID Object) → OrderedMap ID Object → Option Error
  Apply : List Object → MultiError
  UpdateWatches : List GroupVersionKind → MultiError
  ConflictErrors : MultiError
  FightErrors : MultiError

/-- What a cycle runs on: the updater, the cache, and the calls made and measurements
recorded so far. -/
structure Cycle (FileObject : Type) where
  updater : Updater
  cache : CacheForCommit FileObject
  calls : List Call
  recorded : List Measurement

variable {FileObject : Type}

/-- Make the call `c`. -/
def Cycle.call (s : Cycle FileObject) (c : Call) : Cycle FileObject :=
  { s with calls := s.calls ++ [c] }

/-- `f`, then `g` unless `f` returned an error: Go's `if err != nil { return err }`. -/
def andThen (f g : Cycle FileObject → Cycle FileObject × MultiError) (s : Cycle FileObject) :
    Cycle FileObject × MultiError :=
  match f s with
  | (s, []) => g s
  | r => r

/-- One of the three steps of `update`: skipped when the cache marks it `done`; otherwise
run, and marked done when it passed and the cache holds no parse errors. -/
def stage (done : CacheForCommit FileObject → Bool)
    (mark : CacheForCommit FileObject → CacheForCommit FileObject)
    (run : Cycle FileObject → Cycle FileObject × MultiError) (s : Cycle FileObject) :
    Cycle FileObject × MultiError :=
  if done s.cache then (s, []) else
  match run s with
  | (s, []) => (if s.cache.parserErrs = [] then { s with cache := mark s.cache } else s, [])
  | r => r

section cycle

variable (asUnstructuredSanitized : Object → Except String Object)
  (AsCoreObjects : List FileObject → List (Option Object))

/-- `declare`: `Resources.Update`, then `setValidationErrs` with its error. -/
def Cycle.declare (o : Outcomes) (objs : List (Option Object)) (commit oldCommit : String)
    (s : Cycle FileObject) : Cycle FileObject × MultiError :=
  let res := s.updater.Resources.Update asUnstructuredSanitized o.deletesAllNamespaces objs
    commit oldCommit
  ({ s.call (.resourcesUpdate objs commit oldCommit res.err) with
      updater := { s.updater with Resources := res.resources, validationErrs := res.err.toList }
      recorded := s.recorded ++ res.recorded }, res.err.toList)

/-- `apply`: `Applier.Apply` on `objs`. -/
def Cycle.apply (o : Outcomes) (objs : List Object) (s : Cycle FileObject) :
    Cycle FileObject × MultiError :=
  (s.call (.apply objs (o.Apply objs)), o.Apply objs)

/-- `watch`: `Remediator.UpdateWatches` on `gvks`, then `setWatchErrs` with its errors. -/
def Cycle.watch (o : Outcomes) (gvks : List GroupVersionKind) (s : Cycle FileObject) :
    Cycle FileObject × MultiError :=
  ({ s.call (.updateWatches gvks (o.UpdateWatches gvks)) with
      updater := { s.updater with watchErrs := o.UpdateWatches gvks } }, o.UpdateWatches gvks)

/-- Step 3 of `update`: declare the objects of the cache. -/
def Cycle.declareStep (o : Outcomes) (oldCommit : String) :
    Cycle FileObject → Cycle FileObject × MultiError :=
  stage (·.declaredResourcesUpdated) ({ · with declaredResourcesUpdated := true })
    fun s => s.declare asUnstructuredSanitized o (AsCoreObjects s.cache.objsToApply)
      s.cache.source.commit oldCommit

/-- Step 4 of `update`: apply the declared objects. -/
def Cycle.applyStep (o : Outcomes) : Cycle FileObject → Cycle FileObject × MultiError :=
  stage (·.applied) ({ · with applied := true })
    fun s => s.apply o s.updater.Resources.DeclaredObjects.1

/-- Step 5 of `update`: watch the declared GroupVersionKinds. -/
def Cycle.watchStep (o : Outcomes) : Cycle FileObject → Cycle FileObject × MultiError :=
  stage (·.watchesUpdated) ({ · with watchesUpdated := true })
    fun s => s.watch o s.updater.Resources.DeclaredGVKs.1

/-- Step 6 of `update`: resume the remediator. -/
def Cycle.resumeStep (s : Cycle FileObject) : Cycle FileObject × MultiError :=
  (s.call .resume, [])

/-- `Updater.update`. -/
def Cycle.update (o : Outcomes) (oldCommit : String) (s : Cycle FileObject) :
    Cycle FileObject × MultiError :=
  andThen (Cycle.declareStep asUnstructuredSanitized AsCoreObjects o oldCommit)
    (andThen (Cycle.applyStep o) (andThen (Cycle.watchStep o) Cycle.resumeStep))
    (s.call .pause)

/-- `Updater.Update`: `update` under `updating`, its errors after the remediator's conflict
and fight errors. -/
def Cycle.Update (o : Outcomes) (oldCommit : String) (s : Cycle FileObject) :
    Cycle FileObject × MultiError :=
  let r := Cycle.update asUnstructuredSanitized AsCoreObjects o oldCommit
    { s with updater := { s.updater with updating := true } }
  ({ r.1 with updater := { r.1.updater with updating := false } },
    o.ConflictErrors ++ o.FightErrors ++ r.2)

end cycle

/-! ## The specs of the steps -/

/-- A call of a declare, an apply or a watch update: neither `Pause` nor `Resume`. -/
def Call.Collab : Call → Prop
  | .pause | .resume => False
  | _ => True

@[simp]
theorem call_calls (s : Cycle FileObject) (c : Call) : (s.call c).calls = s.calls ++ [c] := rfl

@[simp]
theorem call_cache (s : Cycle FileObject) (c : Call) : (s.call c).cache = s.cache := rfl

@[simp]
theorem call_updater (s : Cycle FileObject) (c : Call) : (s.call c).updater = s.updater := rfl

theorem andThen_ok {f g : Cycle FileObject → Cycle FileObject × MultiError} {s : Cycle FileObject}
    (h : (f s).2 = []) : andThen f g s = g (f s).1 := by
  unfold andThen
  rcases hf : f s with ⟨s', _ | ⟨e, es⟩⟩
  · rfl
  · simp [hf] at h

theorem andThen_err {f g : Cycle FileObject → Cycle FileObject × MultiError} {s : Cycle FileObject}
    (h : (f s).2 ≠ []) : andThen f g s = f s := by
  unfold andThen
  rcases hf : f s with ⟨s', _ | ⟨e, es⟩⟩
  · simp [hf] at h
  · rfl

/-- Everything a step can do: be skipped, fail, or pass and be marked when the cache holds no
parse errors. -/
theorem stage_cases (done : CacheForCommit FileObject → Bool)
    (mark : CacheForCommit FileObject → CacheForCommit FileObject)
    (run : Cycle FileObject → Cycle FileObject × MultiError) (s : Cycle FileObject) :
    (done s.cache = true ∧ stage done mark run s = (s, [])) ∨
    (done s.cache = false ∧ (run s).2 ≠ [] ∧ stage done mark run s = run s) ∨
    (done s.cache = false ∧ (run s).2 = [] ∧ stage done mark run s =
      (if (run s).1.cache.parserErrs = [] then { (run s).1 with cache := mark (run s).1.cache }
        else (run s).1, [])) := by
  unfold stage
  cases hd : done s.cache
  · rcases hr : run s with ⟨s', _ | ⟨e, es⟩⟩ <;> simp
  · simp

/-- A step that appends only calls of the collaborators. -/
def Appends (f : Cycle FileObject → Cycle FileObject × MultiError) : Prop :=
  ∀ s, ∃ cs, (f s).1.calls = s.calls ++ cs ∧ ∀ c ∈ cs, c.Collab

/-- A step that appends calls of the collaborators, then `Resume` exactly when it returns no
error. -/
def ResumesIffOk (f : Cycle FileObject → Cycle FileObject × MultiError) : Prop :=
  ∀ s, ∃ cs, (∀ c ∈ cs, c.Collab) ∧
    (f s).1.calls = s.calls ++ cs ++ if (f s).2 = [] then [.resume] else []

theorem appends_stage (done : CacheForCommit FileObject → Bool)
    (mark : CacheForCommit FileObject → CacheForCommit FileObject)
    {run : Cycle FileObject → Cycle FileObject × MultiError} (h : Appends run) :
    Appends (stage done mark run) := by
  intro s
  obtain ⟨cs, hcs, hc⟩ := h s
  rcases stage_cases done mark run s with ⟨-, he⟩ | ⟨-, -, he⟩ | ⟨-, -, he⟩ <;> rw [he]
  · exact ⟨[], by simp, by simp⟩
  · exact ⟨cs, hcs, hc⟩
  · exact ⟨cs, by split_ifs <;> exact hcs, hc⟩

theorem resumesIffOk_andThen {f g : Cycle FileObject → Cycle FileObject × MultiError}
    (hf : Appends f) (hg : ResumesIffOk g) : ResumesIffOk (andThen f g) := by
  intro s
  obtain ⟨cs, hcs, hc⟩ := hf s
  by_cases h : (f s).2 = []
  · obtain ⟨cs', hc', hcs'⟩ := hg (f s).1
    rw [andThen_ok h]
    refine ⟨cs ++ cs', fun c hm => ?_, by rw [hcs', hcs]; simp only [List.append_assoc]⟩
    rcases List.mem_append.mp hm with hm | hm
    · exact hc c hm
    · exact hc' c hm
  · rw [andThen_err h]
    exact ⟨cs, hc, by simp [hcs, h]⟩

theorem resumesIffOk_resumeStep : ResumesIffOk (@Cycle.resumeStep FileObject) :=
  fun s => ⟨[], by simp, by simp [Cycle.resumeStep]⟩

section specs

variable (asUnstructuredSanitized : Object → Except String Object)
  (AsCoreObjects : List FileObject → List (Option Object))

theorem appends_declareStep (o : Outcomes) (oldCommit : String) :
    Appends (@Cycle.declareStep FileObject asUnstructuredSanitized AsCoreObjects o
      oldCommit) :=
  appends_stage _ _ fun _ => ⟨_, rfl, by simp [Call.Collab]⟩

theorem appends_applyStep (o : Outcomes) :
    Appends (@Cycle.applyStep FileObject o) :=
  appends_stage _ _ fun _ => ⟨_, rfl, by simp [Call.Collab]⟩

theorem appends_watchStep (o : Outcomes) :
    Appends (@Cycle.watchStep FileObject o) :=
  appends_stage _ _ fun _ => ⟨_, rfl, by simp [Call.Collab]⟩

/-- The calls of a cycle: `Pause`, then calls of the collaborators, then `Resume` exactly
when `update` returned no error. -/
theorem update_calls (o : Outcomes) (oldCommit : String) (s : Cycle FileObject) :
    ∃ cs, (∀ c ∈ cs, c.Collab) ∧
      (Cycle.update asUnstructuredSanitized AsCoreObjects o oldCommit s).1.calls =
        s.calls ++ [.pause] ++ cs ++
          if (Cycle.update asUnstructuredSanitized AsCoreObjects o oldCommit s).2 = [] then
            [.resume] else [] :=
  resumesIffOk_andThen (appends_declareStep asUnstructuredSanitized AsCoreObjects o oldCommit)
    (resumesIffOk_andThen (appends_applyStep o)
      (resumesIffOk_andThen (appends_watchStep o) resumesIffOk_resumeStep)) (s.call .pause)

theorem toList_eq_nil_iff (e : Option Error) : e.toList = [] ↔ e = none := by
  cases e <;> simp

theorem stage_of_not_done {done : CacheForCommit FileObject → Bool}
    {mark : CacheForCommit FileObject → CacheForCommit FileObject}
    {run : Cycle FileObject → Cycle FileObject × MultiError} {s : Cycle FileObject}
    (h : done s.cache = false) :
    stage done mark run s =
      (if (run s).2 = [] ∧ (run s).1.cache.parserErrs = [] then
        { (run s).1 with cache := mark (run s).1.cache } else (run s).1, (run s).2) := by
  unfold stage
  rw [if_neg (by simp [h])]
  rcases run s with ⟨s', _ | ⟨e, es⟩⟩ <;> simp

/-- Everything a step whose run keeps the cache can do: be skipped, or run, and be marked
exactly when the run passed and the cache holds no parse errors. -/
theorem stage_inv {done : CacheForCommit FileObject → Bool}
    {mark : CacheForCommit FileObject → CacheForCommit FileObject}
    {run : Cycle FileObject → Cycle FileObject × MultiError}
    (f : Cycle FileObject → Cycle FileObject × MultiError)
    (hf : ∀ s, f s = stage done mark run s) {s : Cycle FileObject}
    (hrun : (run s).1.cache = s.cache) :
    (done s.cache = true ∧ f s = (s, [])) ∨
    (done s.cache = false ∧ f s =
      ({ (run s).1 with
        cache := if (run s).2 = [] ∧ s.cache.parserErrs = [] then mark s.cache else s.cache },
        (run s).2)) := by
  cases hd : done s.cache
  · refine .inr ⟨rfl, ?_⟩
    rw [hf, stage_of_not_done hd]
    generalize run s = r at hrun ⊢
    obtain ⟨⟨u, c, cs, rec⟩, errs⟩ := r
    dsimp only at hrun
    subst hrun
    split_ifs <;> rfl
  · exact .inl ⟨rfl, by simp [hf, stage, hd]⟩

/-- Everything the declare step can do. -/
theorem declareStep_inv (o : Outcomes) (oldCommit : String) (s : Cycle FileObject) :
    let res := s.updater.Resources.Update asUnstructuredSanitized o.deletesAllNamespaces
      (AsCoreObjects s.cache.objsToApply) s.cache.source.commit oldCommit
    let d := Cycle.declareStep asUnstructuredSanitized AsCoreObjects o oldCommit s
    (s.cache.declaredResourcesUpdated = true ∧ d = (s, [])) ∨
    (s.cache.declaredResourcesUpdated = false ∧ d.2 = res.err.toList ∧
      d.1.calls = s.calls ++ [.resourcesUpdate (AsCoreObjects s.cache.objsToApply)
        s.cache.source.commit oldCommit res.err] ∧
      d.1.updater = { s.updater with Resources := res.resources, validationErrs := res.err.toList } ∧
      d.1.cache = if res.err = none ∧ s.cache.parserErrs = [] then
        { s.cache with declaredResourcesUpdated := true } else s.cache) :=
  (stage_inv (Cycle.declareStep asUnstructuredSanitized AsCoreObjects o oldCommit)
    (fun _ => rfl) rfl).imp id fun ⟨hd, h⟩ => ⟨hd, by
      simp only [h, Cycle.declare, toList_eq_nil_iff, call_calls, call_updater, and_self]⟩

/-- Everything the apply step can do. -/
theorem applyStep_inv (o : Outcomes) (s : Cycle FileObject) :
    let objs := s.updater.Resources.DeclaredObjects.1
    let a := Cycle.applyStep o s
    (s.cache.applied = true ∧ a = (s, [])) ∨
    (s.cache.applied = false ∧ a.2 = o.Apply objs ∧
      a.1.calls = s.calls ++ [.apply objs (o.Apply objs)] ∧ a.1.updater = s.updater ∧
      a.1.cache = if o.Apply objs = [] ∧ s.cache.parserErrs = [] then
        { s.cache with applied := true } else s.cache) :=
  (stage_inv (Cycle.applyStep o) (fun _ => rfl) rfl).imp id fun ⟨hd, h⟩ => ⟨hd, by
    simp only [h, Cycle.apply, call_calls, call_updater, and_self]⟩

/-- Everything the watch step can do. -/
theorem watchStep_inv (o : Outcomes) (s : Cycle FileObject) :
    let gvks := s.updater.Resources.DeclaredGVKs.1
    let w := Cycle.watchStep o s
    (s.cache.watchesUpdated = true ∧ w = (s, [])) ∨
    (s.cache.watchesUpdated = false ∧ w.2 = o.UpdateWatches gvks ∧
      w.1.calls = s.calls ++ [.updateWatches gvks (o.UpdateWatches gvks)] ∧
      w.1.updater = { s.updater with watchErrs := o.UpdateWatches gvks } ∧
      w.1.cache = if o.UpdateWatches gvks = [] ∧ s.cache.parserErrs = [] then
        { s.cache with watchesUpdated := true } else s.cache) :=
  (stage_inv (Cycle.watchStep o) (fun _ => rfl) rfl).imp id fun ⟨hd, h⟩ => ⟨hd, by
    simp only [h, Cycle.watch, call_calls, call_updater, and_self]⟩

/-- The four ways a cycle ends: at a failing declare, apply or watch step, or resumed. -/
theorem update_cases (o : Outcomes) (oldCommit : String) (s : Cycle FileObject) :
    let d := Cycle.declareStep asUnstructuredSanitized AsCoreObjects o oldCommit (s.call .pause)
    let a := Cycle.applyStep o d.1
    let w := Cycle.watchStep o a.1
    let u := Cycle.update asUnstructuredSanitized AsCoreObjects o oldCommit s
    (d.2 ≠ [] ∧ u = d) ∨ (d.2 = [] ∧ a.2 ≠ [] ∧ u = a) ∨
    (d.2 = [] ∧ a.2 = [] ∧ w.2 ≠ [] ∧ u = w) ∨
    (d.2 = [] ∧ a.2 = [] ∧ w.2 = [] ∧ u = (w.1.call .resume, [])) := by
  simp only [Cycle.update]
  by_cases hd : (Cycle.declareStep asUnstructuredSanitized AsCoreObjects o oldCommit
    (s.call .pause)).2 = []
  · rw [andThen_ok hd]
    by_cases ha : (Cycle.applyStep o (Cycle.declareStep asUnstructuredSanitized AsCoreObjects o
      oldCommit (s.call .pause)).1).2 = []
    · rw [andThen_ok ha]
      by_cases hw : (Cycle.watchStep o (Cycle.applyStep o (Cycle.declareStep
        asUnstructuredSanitized AsCoreObjects o oldCommit (s.call .pause)).1).1).2 = []
      · exact .inr (.inr (.inr ⟨hd, ha, hw, andThen_ok hw⟩))
      · exact .inr (.inr (.inl ⟨hd, ha, hw, andThen_err hw⟩))
    · exact .inr (.inl ⟨hd, ha, andThen_err ha⟩)
  · exact .inl ⟨hd, andThen_err hd⟩

/-- What the declare step does to the cache: nothing, or mark it after a passing call made with
no parse errors. -/
theorem declareStep_cache (o : Outcomes) (oldCommit : String) (s : Cycle FileObject) :
    let d := Cycle.declareStep asUnstructuredSanitized AsCoreObjects o oldCommit s
    d.1.cache = s.cache ∨
    (s.cache.declaredResourcesUpdated = false ∧ s.cache.parserErrs = [] ∧ d.2 = [] ∧
      d.1.cache = { s.cache with declaredResourcesUpdated := true } ∧
      ∃ objs commit oldCommit, d.1.calls = s.calls ++ [.resourcesUpdate objs commit oldCommit none]) := by
  rcases declareStep_inv asUnstructuredSanitized AsCoreObjects o oldCommit s with
    ⟨-, he⟩ | ⟨hd, h2, hc, -, hcache⟩
  · exact .inl (by rw [he])
  · split_ifs at hcache with h
    · exact .inr ⟨hd, h.2, by simp [h2, h.1], hcache, _, _, _, by rw [hc, h.1]⟩
    · exact .inl hcache

/-- What the apply step does to the cache. -/
theorem applyStep_cache (o : Outcomes) (s : Cycle FileObject) :
    let a := Cycle.applyStep o s
    a.1.cache = s.cache ∨
    (s.cache.applied = false ∧ s.cache.parserErrs = [] ∧ a.2 = [] ∧
      a.1.cache = { s.cache with applied := true } ∧
      ∃ objs, a.1.calls = s.calls ++ [.apply objs []]) := by
  rcases applyStep_inv o s with ⟨-, he⟩ | ⟨ha, h2, hc, -, hcache⟩
  · exact .inl (by rw [he])
  · split_ifs at hcache with h
    · exact .inr ⟨ha, h.2, by rw [h2, h.1], hcache, _, by rw [hc, h.1]⟩
    · exact .inl hcache

/-- What the watch step does to the cache. -/
theorem watchStep_cache (o : Outcomes) (s : Cycle FileObject) :
    let w := Cycle.watchStep o s
    w.1.cache = s.cache ∨
    (s.cache.watchesUpdated = false ∧ s.cache.parserErrs = [] ∧ w.2 = [] ∧
      w.1.cache = { s.cache with watchesUpdated := true } ∧
      ∃ gvks, w.1.calls = s.calls ++ [.updateWatches gvks []]) := by
  rcases watchStep_inv o s with ⟨-, he⟩ | ⟨hw, h2, hc, -, hcache⟩
  · exact .inl (by rw [he])
  · split_ifs at hcache with h
    · exact .inr ⟨hw, h.2, by rw [h2, h.1], hcache, _, by rw [hc, h.1]⟩
    · exact .inl hcache

theorem Update_calls (o : Outcomes) (oldCommit : String) (s : Cycle FileObject) :
    (Cycle.Update asUnstructuredSanitized AsCoreObjects o oldCommit s).1.calls =
      (Cycle.update asUnstructuredSanitized AsCoreObjects o oldCommit
        { s with updater := { s.updater with updating := true } }).1.calls := rfl

/-! ## The flags of partial progress -/

/-- The flags of `c'` are at least those of `c`. -/
structure FlagsLe (c c' : CacheForCommit FileObject) : Prop where
  declared : c.declaredResourcesUpdated = true → c'.declaredResourcesUpdated = true
  applied : c.applied = true → c'.applied = true
  watches : c.watchesUpdated = true → c'.watchesUpdated = true

theorem FlagsLe.refl (c : CacheForCommit FileObject) : FlagsLe c c := ⟨id, id, id⟩

theorem FlagsLe.trans {c₁ c₂ c₃ : CacheForCommit FileObject} (h₁ : FlagsLe c₁ c₂)
    (h₂ : FlagsLe c₂ c₃) : FlagsLe c₁ c₃ :=
  ⟨h₂.declared ∘ h₁.declared, h₂.applied ∘ h₁.applied, h₂.watches ∘ h₁.watches⟩

/-- The invariant of the flags: a step is marked done only after the step before it, and a
step marked done left no errors of its own. -/
structure FlagInv (s : Cycle FileObject) : Prop where
  applied_declared : s.cache.applied = true → s.cache.declaredResourcesUpdated = true
  watches_applied : s.cache.watchesUpdated = true → s.cache.applied = true
  validation_clean : s.cache.declaredResourcesUpdated = true → s.updater.validationErrs = []
  watch_clean : s.cache.watchesUpdated = true → s.updater.watchErrs = []

theorem declareStep_flagsLe (o : Outcomes) (oldCommit : String) (s : Cycle FileObject) :
    FlagsLe s.cache
      (Cycle.declareStep asUnstructuredSanitized AsCoreObjects o oldCommit s).1.cache := by
  rcases declareStep_cache asUnstructuredSanitized AsCoreObjects o oldCommit s with
    he | ⟨-, -, -, he, -⟩ <;> rw [he]
  · exact .refl _
  · exact ⟨fun _ => rfl, id, id⟩

theorem applyStep_flagsLe (o : Outcomes) (s : Cycle FileObject) :
    FlagsLe s.cache (Cycle.applyStep o s).1.cache := by
  rcases applyStep_cache o s with he | ⟨-, -, -, he, -⟩ <;> rw [he]
  · exact .refl _
  · exact ⟨id, fun _ => rfl, id⟩

theorem watchStep_flagsLe (o : Outcomes) (s : Cycle FileObject) :
    FlagsLe s.cache (Cycle.watchStep o s).1.cache := by
  rcases watchStep_cache o s with he | ⟨-, -, -, he, -⟩ <;> rw [he]
  · exact .refl _
  · exact ⟨id, id, fun _ => rfl⟩

theorem declareStep_flagInv (o : Outcomes) (oldCommit : String) (s : Cycle FileObject)
    (h : FlagInv s) :
    let d := Cycle.declareStep asUnstructuredSanitized AsCoreObjects o oldCommit s
    FlagInv d.1 ∧ (d.2 = [] → d.1.cache.declaredResourcesUpdated = true ∨ s.cache.parserErrs ≠ []) := by
  rcases declareStep_inv asUnstructuredSanitized AsCoreObjects o oldCommit s with
    ⟨hd, he⟩ | ⟨hd, h2, -, hu, hcache⟩
  · rw [he]
    exact ⟨h, fun _ => .inl hd⟩
  · split_ifs at hcache with hc
    · refine ⟨⟨?_, ?_, ?_, ?_⟩, fun _ => .inl (by rw [hcache])⟩ <;> simp only [hcache, hu]
      · exact fun _ => trivial
      · exact h.watches_applied
      · simp [hc.1]
      · exact h.watch_clean
    · refine ⟨⟨?_, ?_, ?_, ?_⟩, fun h0 => ?_⟩ <;> simp only [hcache, hu]
      · exact h.applied_declared
      · exact h.watches_applied
      · simp [hd]
      · exact h.watch_clean
      · rw [h2, toList_eq_nil_iff] at h0
        exact .inr fun hp => hc ⟨h0, hp⟩

theorem applyStep_flagInv (o : Outcomes) (s : Cycle FileObject) (h : FlagInv s)
    (hd : s.cache.declaredResourcesUpdated = true ∨ s.cache.parserErrs ≠ []) :
    let a := Cycle.applyStep o s
    FlagInv a.1 ∧ (a.2 = [] → a.1.cache.applied = true ∨ s.cache.parserErrs ≠ []) := by
  rcases applyStep_inv o s with ⟨ha, he⟩ | ⟨ha, h2, -, hu, hcache⟩
  · rw [he]
    exact ⟨h, fun _ => .inl ha⟩
  · split_ifs at hcache with hc
    · refine ⟨⟨?_, ?_, ?_, ?_⟩, fun _ => .inl (by rw [hcache])⟩ <;> simp only [hcache, hu]
      · exact fun _ => hd.resolve_right (by simp [hc.2])
      · exact fun _ => trivial
      · exact h.validation_clean
      · exact h.watch_clean
    · refine ⟨⟨?_, ?_, ?_, ?_⟩, fun h0 => ?_⟩ <;> simp only [hcache, hu]
      · exact h.applied_declared
      · exact h.watches_applied
      · exact h.validation_clean
      · exact h.watch_clean
      · exact .inr fun hp => hc ⟨h2 ▸ h0, hp⟩

theorem watchStep_flagInv (o : Outcomes) (s : Cycle FileObject) (h : FlagInv s)
    (ha : s.cache.applied = true ∨ s.cache.parserErrs ≠ []) :
    FlagInv (Cycle.watchStep o s).1 := by
  rcases watchStep_inv o s with ⟨-, he⟩ | ⟨hw, -, -, hu, hcache⟩
  · rw [he]
    exact h
  · split_ifs at hcache with hc
    · refine ⟨?_, ?_, ?_, ?_⟩ <;> simp only [hcache, hu]
      · exact h.applied_declared
      · exact fun _ => ha.resolve_right (by simp [hc.2])
      · exact h.validation_clean
      · simp [hc.1]
    · refine ⟨?_, ?_, ?_, ?_⟩ <;> simp only [hcache, hu]
      · exact h.applied_declared
      · exact h.watches_applied
      · exact h.validation_clean
      · simp [hw]

theorem declareStep_parserErrs (o : Outcomes) (oldCommit : String) (s : Cycle FileObject) :
    (Cycle.declareStep asUnstructuredSanitized AsCoreObjects o oldCommit s).1.cache.parserErrs =
      s.cache.parserErrs := by
  rcases declareStep_cache asUnstructuredSanitized AsCoreObjects o oldCommit s with
    he | ⟨-, -, -, he, -⟩ <;> rw [he]

theorem applyStep_parserErrs (o : Outcomes) (s : Cycle FileObject) :
    (Cycle.applyStep o s).1.cache.parserErrs = s.cache.parserErrs := by
  rcases applyStep_cache o s with he | ⟨-, -, -, he, -⟩ <;> rw [he]

/-- A cycle keeps the invariant of the flags. -/
theorem update_flagInv (o : Outcomes) (oldCommit : String) (s : Cycle FileObject)
    (h : FlagInv s) : FlagInv (Cycle.update asUnstructuredSanitized AsCoreObjects o oldCommit s).1 := by
  obtain ⟨hd, hd'⟩ := declareStep_flagInv asUnstructuredSanitized AsCoreObjects o oldCommit
    (s.call .pause) ⟨h.1, h.2, h.3, h.4⟩
  rcases update_cases asUnstructuredSanitized AsCoreObjects o oldCommit s with
    ⟨-, he⟩ | ⟨h1, -, he⟩ | ⟨h1, h2, -, he⟩ | ⟨h1, h2, -, he⟩ <;> rw [he]
  · exact hd
  · exact (applyStep_flagInv o _ hd (by rw [declareStep_parserErrs]; simpa using hd' h1)).1
  all_goals
    obtain ⟨ha, ha'⟩ := applyStep_flagInv o _ hd
      (by rw [declareStep_parserErrs]; simpa using hd' h1)
    have hw := watchStep_flagInv o _ ha (by
      rw [applyStep_parserErrs]; simpa [declareStep_parserErrs] using ha' h2)
  · exact hw
  · exact ⟨hw.1, hw.2, hw.3, hw.4⟩

/-- A flag that goes to true between `s` and `s'` does so with no parse errors, and with a
call `P` made in between. -/
def SetWith (flag : CacheForCommit FileObject → Bool) (P : Call → Prop)
    (s s' : Cycle FileObject) : Prop :=
  flag s.cache = false → flag s'.cache = true →
    s.cache.parserErrs = [] ∧ ∃ cs, s'.calls = s.calls ++ cs ∧ ∃ c ∈ cs, P c

/-- How a state may move within a cycle: calls are only added, the parse errors stay, no flag
goes back, and a flag goes to true only with a passing call of its step, made with no parse
errors. -/
structure Moves (s s' : Cycle FileObject) : Prop where
  calls : ∃ cs, s'.calls = s.calls ++ cs
  parserErrs : s'.cache.parserErrs = s.cache.parserErrs
  flags : FlagsLe s.cache s'.cache
  declared : SetWith (·.declaredResourcesUpdated)
    (fun c => ∃ objs commit oldCommit, c = .resourcesUpdate objs commit oldCommit none) s s'
  applied : SetWith (·.applied) (fun c => ∃ objs, c = .apply objs []) s s'
  watches : SetWith (·.watchesUpdated) (fun c => ∃ gvks, c = .updateWatches gvks []) s s'

/-- A flag that a step leaves as it was is not set by it. -/
theorem setWith_of_eq {flag : CacheForCommit FileObject → Bool} {P : Call → Prop}
    {s s' : Cycle FileObject} (h : flag s'.cache = flag s.cache) : SetWith flag P s s' :=
  fun h1 h3 => nomatch h3.symm.trans (h.trans h1)

theorem SetWith.trans {flag : CacheForCommit FileObject → Bool} {P : Call → Prop}
    {s₁ s₂ s₃ : Cycle FileObject} (h₁₂ : SetWith flag P s₁ s₂) (h₂₃ : SetWith flag P s₂ s₃)
    (hc₁₂ : ∃ cs, s₂.calls = s₁.calls ++ cs) (hc₂₃ : ∃ cs, s₃.calls = s₂.calls ++ cs)
    (hp : s₂.cache.parserErrs = s₁.cache.parserErrs) : SetWith flag P s₁ s₃ := by
  intro h1 h3
  obtain ⟨cs₁, hcs₁⟩ := hc₁₂
  obtain ⟨cs₂, hcs₂⟩ := hc₂₃
  cases h2 : flag s₂.cache
  · obtain ⟨hp2, cs, hcs, c, hc, hPc⟩ := h₂₃ h2 h3
    exact ⟨hp ▸ hp2, cs₁ ++ cs, by rw [hcs, hcs₁, List.append_assoc], c,
      List.mem_append_right _ hc, hPc⟩
  · obtain ⟨hp1, cs, hcs, c, hc, hPc⟩ := h₁₂ h1 h2
    exact ⟨hp1, cs ++ cs₂, by rw [hcs₂, hcs, List.append_assoc], c,
      List.mem_append_left _ hc, hPc⟩

theorem Moves.trans {s₁ s₂ s₃ : Cycle FileObject} (h₁₂ : Moves s₁ s₂) (h₂₃ : Moves s₂ s₃) :
    Moves s₁ s₃ where
  calls := by
    obtain ⟨cs₁, h₁⟩ := h₁₂.calls
    obtain ⟨cs₂, h₂⟩ := h₂₃.calls
    exact ⟨cs₁ ++ cs₂, by rw [h₂, h₁, List.append_assoc]⟩
  parserErrs := h₂₃.parserErrs.trans h₁₂.parserErrs
  flags := h₁₂.flags.trans h₂₃.flags
  declared := h₁₂.declared.trans h₂₃.declared h₁₂.calls h₂₃.calls h₁₂.parserErrs
  applied := h₁₂.applied.trans h₂₃.applied h₁₂.calls h₂₃.calls h₁₂.parserErrs
  watches := h₁₂.watches.trans h₂₃.watches h₁₂.calls h₂₃.calls h₁₂.parserErrs

/-- A step that leaves the cache as it was and adds calls moves. -/
theorem moves_of_cache {s s' : Cycle FileObject} (hc : s'.cache = s.cache)
    (hcalls : ∃ cs, s'.calls = s.calls ++ cs) : Moves s s' :=
  ⟨hcalls, by rw [hc], hc ▸ .refl _, setWith_of_eq (by rw [hc]), setWith_of_eq (by rw [hc]),
    setWith_of_eq (by rw [hc])⟩

theorem moves_andThen {f g : Cycle FileObject → Cycle FileObject × MultiError}
    (hf : ∀ s, Moves s (f s).1) (hg : ∀ s, Moves s (g s).1) (s : Cycle FileObject) :
    Moves s (andThen f g s).1 := by
  by_cases h : (f s).2 = []
  · rw [andThen_ok h]
    exact (hf s).trans (hg _)
  · rw [andThen_err h]
    exact hf s

theorem moves_declareStep (o : Outcomes) (oldCommit : String) (s : Cycle FileObject) :
    Moves s (Cycle.declareStep asUnstructuredSanitized AsCoreObjects o oldCommit s).1 := by
  have hcalls := appends_declareStep asUnstructuredSanitized AsCoreObjects o oldCommit s
  rcases declareStep_cache asUnstructuredSanitized AsCoreObjects o oldCommit s with
    he | ⟨hd, hp, -, he, objs, commit, oldCommit', hc⟩
  · exact moves_of_cache he ⟨_, hcalls.choose_spec.1⟩
  · refine ⟨⟨_, hc⟩, by rw [he], ⟨fun _ => by rw [he], by simp [he], by simp [he]⟩,
      fun _ _ => ⟨hp, _, hc, _, List.mem_singleton_self _, objs, commit, oldCommit', rfl⟩,
      setWith_of_eq (by rw [he]), setWith_of_eq (by rw [he])⟩

theorem moves_applyStep (o : Outcomes) (s : Cycle FileObject) :
    Moves s (Cycle.applyStep o s).1 := by
  have hcalls := appends_applyStep o s
  rcases applyStep_cache o s with he | ⟨ha, hp, -, he, objs, hc⟩
  · exact moves_of_cache he ⟨_, hcalls.choose_spec.1⟩
  · refine ⟨⟨_, hc⟩, by rw [he], ⟨by simp [he], fun _ => by rw [he], by simp [he]⟩,
      setWith_of_eq (by rw [he]), fun _ _ => ⟨hp, _, hc, _, List.mem_singleton_self _, objs, rfl⟩,
      setWith_of_eq (by rw [he])⟩

theorem moves_watchStep (o : Outcomes) (s : Cycle FileObject) :
    Moves s (Cycle.watchStep o s).1 := by
  have hcalls := appends_watchStep o s
  rcases watchStep_cache o s with he | ⟨hw, hp, -, he, gvks, hc⟩
  · exact moves_of_cache he ⟨_, hcalls.choose_spec.1⟩
  · refine ⟨⟨_, hc⟩, by rw [he], ⟨by simp [he], by simp [he], fun _ => by rw [he]⟩,
      setWith_of_eq (by rw [he]), setWith_of_eq (by rw [he]),
      fun _ _ => ⟨hp, _, hc, _, List.mem_singleton_self _, gvks, rfl⟩⟩

/-- What a cycle may do to the calls, the parse errors and the flags. -/
theorem moves_update (o : Outcomes) (oldCommit : String) (s : Cycle FileObject) :
    Moves s (Cycle.update asUnstructuredSanitized AsCoreObjects o oldCommit s).1 :=
  (moves_of_cache (call_cache s .pause) ⟨_, call_calls s .pause⟩).trans
    (moves_andThen (moves_declareStep asUnstructuredSanitized AsCoreObjects o oldCommit)
      (moves_andThen (moves_applyStep o) (moves_andThen (moves_watchStep o)
        fun s => moves_of_cache (call_cache s .resume) ⟨_, call_calls s .resume⟩)) _)

/-- A cycle that returned the errors `errs` ended with the call of the step that failed, which
returned those errors, and left the flags of that step and of the later ones as they were. -/
def FailedAt (s s' : Cycle FileObject) (errs : MultiError) : Prop :=
  (∃ objs commit oldCommit e,
    s'.calls.getLast? = some (.resourcesUpdate objs commit oldCommit (some e)) ∧ errs = [e] ∧
    s'.cache.declaredResourcesUpdated = s.cache.declaredResourcesUpdated ∧
    s'.cache.applied = s.cache.applied ∧ s'.cache.watchesUpdated = s.cache.watchesUpdated) ∨
  (∃ objs, s'.calls.getLast? = some (.apply objs errs) ∧
    s'.cache.applied = s.cache.applied ∧ s'.cache.watchesUpdated = s.cache.watchesUpdated) ∨
  (∃ gvks, s'.calls.getLast? = some (.updateWatches gvks errs) ∧
    s'.cache.watchesUpdated = s.cache.watchesUpdated)

theorem declareStep_frame (o : Outcomes) (oldCommit : String) (s : Cycle FileObject) :
    let d := Cycle.declareStep asUnstructuredSanitized AsCoreObjects o oldCommit s
    d.1.cache.applied = s.cache.applied ∧ d.1.cache.watchesUpdated = s.cache.watchesUpdated := by
  rcases declareStep_cache asUnstructuredSanitized AsCoreObjects o oldCommit s with
    he | ⟨-, -, -, he, -⟩ <;> simp [he]

theorem applyStep_frame (o : Outcomes) (s : Cycle FileObject) :
    (Cycle.applyStep o s).1.cache.watchesUpdated = s.cache.watchesUpdated := by
  rcases applyStep_cache o s with he | ⟨-, -, -, he, -⟩ <;> simp [he]

theorem update_failedAt (o : Outcomes) (oldCommit : String) (s : Cycle FileObject)
    (h : (Cycle.update asUnstructuredSanitized AsCoreObjects o oldCommit s).2 ≠ []) :
    FailedAt s (Cycle.update asUnstructuredSanitized AsCoreObjects o oldCommit s).1
      (Cycle.update asUnstructuredSanitized AsCoreObjects o oldCommit s).2 := by
  have hf := declareStep_frame asUnstructuredSanitized AsCoreObjects o oldCommit (s.call .pause)
  simp only [call_cache] at hf
  rcases update_cases asUnstructuredSanitized AsCoreObjects o oldCommit s with
    ⟨hd, he⟩ | ⟨-, ha, he⟩ | ⟨-, -, hw, he⟩ | ⟨-, -, -, he⟩ <;> rw [he] at h ⊢
  · rcases declareStep_inv asUnstructuredSanitized AsCoreObjects o oldCommit (s.call .pause) with
      ⟨-, he'⟩ | ⟨-, h2, hc, -, hcache⟩
    · simp [he'] at hd
    · rw [h2] at hd ⊢
      obtain ⟨e, hse⟩ := Option.ne_none_iff_exists'.mp (mt (toList_eq_nil_iff _).mpr hd)
      rw [hse] at hc hcache ⊢
      simp only [reduceCtorEq, false_and, if_false] at hcache
      exact .inl ⟨_, _, _, e, by rw [hc, List.getLast?_concat], rfl, by simp [hcache],
        by simp [hcache], by simp [hcache]⟩
  · rcases applyStep_inv o (Cycle.declareStep asUnstructuredSanitized AsCoreObjects o oldCommit
      (s.call .pause)).1 with ⟨-, he'⟩ | ⟨-, h2, hc, -, hcache⟩
    · simp [he'] at ha
    · rw [h2] at ha h ⊢
      rw [if_neg fun h' => ha h'.1] at hcache
      exact .inr (.inl ⟨_, by rw [hc, List.getLast?_concat], by rw [hcache, hf.1],
        by rw [hcache, hf.2]⟩)
  · rcases watchStep_inv o (Cycle.applyStep o (Cycle.declareStep asUnstructuredSanitized
      AsCoreObjects o oldCommit (s.call .pause)).1).1 with ⟨-, he'⟩ | ⟨-, h2, hc, -, hcache⟩
    · simp [he'] at hw
    · rw [h2] at hw h ⊢
      rw [if_neg fun h' => hw h'.1] at hcache
      exact .inr (.inr ⟨_, by rw [hc, List.getLast?_concat], by rw [hcache, applyStep_frame, hf.2]⟩)
  · exact absurd rfl h

end specs

/-! ## Runs of cycles -/

/-- What the caller does to the cache before a call: it keeps the cache, which holds the parse
errors `parserErrs` by now, or it passes a new cache, for another commit. -/
inductive CacheChange (FileObject : Type) where
  | keep (parserErrs : MultiError)
  | fresh (cache : CacheForCommit FileObject)

/-- The cache the call gets. -/
def CacheChange.apply : CacheChange FileObject → CacheForCommit FileObject →
    CacheForCommit FileObject
  | .keep parserErrs, c => { c with parserErrs }
  | .fresh c, _ => c

/-- One `Update` call of a run: how the caller changed the cache, what the collaborators
answer, and the old commit it passes. -/
structure CallInput (FileObject : Type) where
  change : CacheChange FileObject
  outcomes : Outcomes
  oldCommit : String

/-- The state a call starts from: the cache as the caller changed it. -/
def Cycle.prepare (s : Cycle FileObject) (i : CallInput FileObject) : Cycle FileObject :=
  { s with cache := i.change.apply s.cache }

/-- Whether the remediator runs after the calls `cs`, from `r`, when `Pause` and `Resume` are
the only calls that change it. -/
def running (r : Bool) (cs : List Call) : Bool :=
  cs.foldl (fun r c => match c with | .pause => false | .resume => true | _ => r) r

/-- No call of a collaborator is made while the remediator runs. -/
def PausedDuring : Bool → List Call → Prop
  | _, [] => True
  | r, c :: cs => (c.Collab → r = false) ∧ PausedDuring (running r [c]) cs

theorem running_append (r : Bool) (xs ys : List Call) :
    running r (xs ++ ys) = running (running r xs) ys := by
  simp [running, List.foldl_append]

theorem running_collab (r : Bool) (cs : List Call) (h : ∀ c ∈ cs, c.Collab) :
    running r cs = r := by
  induction cs with
  | nil => rfl
  | cons c cs ih =>
    have hc : running r [c] = r := by
      cases c <;> first | rfl | exact False.elim (h _ (List.mem_cons_self _ _))
    rw [show c :: cs = [c] ++ cs from rfl, running_append, hc]
    exact ih fun c' hc' => h c' (List.mem_cons_of_mem _ hc')

theorem pausedDuring_append (r : Bool) (xs ys : List Call) :
    PausedDuring r (xs ++ ys) ↔ PausedDuring r xs ∧ PausedDuring (running r xs) ys := by
  induction xs generalizing r with
  | nil => simp [PausedDuring, running]
  | cons c xs ih =>
    rw [List.cons_append, PausedDuring, PausedDuring, ih, ← running_append]
    simp [and_assoc]

theorem pausedDuring_collab (cs : List Call) (h : ∀ c ∈ cs, c.Collab) :
    PausedDuring false cs := by
  induction cs with
  | nil => trivial
  | cons c cs ih =>
    refine ⟨fun _ => rfl, ?_⟩
    rw [running_collab false [c] (by simpa using h c (by simp))]
    exact ih fun c' hc' => h c' (by simp [hc'])

/-- The calls of one cycle keep the remediator paused, and leave it running exactly when the
cycle's `update` passed. -/
theorem cycle_block (r : Bool) (p : Prop) [Decidable p] (cs : List Call)
    (h : ∀ c ∈ cs, c.Collab) :
    PausedDuring r ([.pause] ++ cs ++ if p then [.resume] else []) ∧
      running r ([.pause] ++ cs ++ if p then [.resume] else []) = decide p := by
  have hp : running r [.pause] = false := rfl
  refine ⟨?_, ?_⟩
  · rw [pausedDuring_append, pausedDuring_append, running_append, hp, running_collab _ _ h]
    refine ⟨⟨⟨by simp [Call.Collab], trivial⟩, pausedDuring_collab cs h⟩, ?_⟩
    by_cases hq : p <;> simp [hq, PausedDuring, Call.Collab]
  · rw [running_append, running_append, hp, running_collab _ _ h]
    by_cases hq : p <;> simp [hq, running]

theorem pausedDuring_iff (r : Bool) (cs : List Call) :
    PausedDuring r cs ↔
      ∀ pre c post, cs = pre ++ c :: post → c.Collab → running r pre = false := by
  induction cs generalizing r with
  | nil => simp [PausedDuring]
  | cons c cs ih =>
    rw [PausedDuring, ih]
    constructor
    · rintro ⟨hc, hcs⟩ pre c' post he hc'
      rcases pre with _ | ⟨d, pre⟩
      · simp only [List.nil_append, List.cons.injEq] at he
        obtain ⟨rfl, -⟩ := he
        exact hc hc'
      · simp only [List.cons_append, List.cons.injEq] at he
        obtain ⟨rfl, rfl⟩ := he
        rw [show c :: pre = [c] ++ pre from rfl, running_append]
        exact hcs pre c' post rfl hc'
    · intro h
      refine ⟨fun hc => h [] c cs rfl hc, fun pre c' post he hc' => ?_⟩
      rw [← running_append]
      exact h (c :: pre) c' post (by simp [he]) hc'

section run

variable (asUnstructuredSanitized : Object → Except String Object)
  (AsCoreObjects : List FileObject → List (Option Object))

/-- One call of a run. -/
def Cycle.step (s : Cycle FileObject) (i : CallInput FileObject) : Cycle FileObject :=
  (Cycle.Update asUnstructuredSanitized AsCoreObjects i.outcomes i.oldCommit (s.prepare i)).1

/-- The errors of the `update` of one call of a run. -/
def Cycle.updateErrs (s : Cycle FileObject) (i : CallInput FileObject) : MultiError :=
  (Cycle.update asUnstructuredSanitized AsCoreObjects i.outcomes i.oldCommit
    { s.prepare i with updater := { s.updater with updating := true } }).2

/-- A run of calls from the updater `u` and the cache `c`, with no call made yet. -/
def runCycles (u : Updater) (c : CacheForCommit FileObject) (inputs : List (CallInput FileObject)) :
    Cycle FileObject :=
  inputs.foldl (Cycle.step asUnstructuredSanitized AsCoreObjects) ⟨u, c, [], []⟩

theorem runCycles_append_singleton (u : Updater) (c : CacheForCommit FileObject)
    (inputs : List (CallInput FileObject)) (i : CallInput FileObject) :
    runCycles asUnstructuredSanitized AsCoreObjects u c (inputs ++ [i]) =
      (runCycles asUnstructuredSanitized AsCoreObjects u c inputs).step asUnstructuredSanitized
        AsCoreObjects i := by
  simp [runCycles]

theorem step_calls (s : Cycle FileObject) (i : CallInput FileObject) :
    ∃ cs, (∀ c ∈ cs, c.Collab) ∧
      (s.step asUnstructuredSanitized AsCoreObjects i).calls = s.calls ++ ([.pause] ++ cs ++
        if s.updateErrs asUnstructuredSanitized AsCoreObjects i = [] then [.resume] else []) := by
  obtain ⟨cs, hc, he⟩ := update_calls asUnstructuredSanitized AsCoreObjects i.outcomes
    i.oldCommit { s.prepare i with updater := { s.updater with updating := true } }
  exact ⟨cs, hc, by simpa [Cycle.step, Update_calls, Cycle.updateErrs, Cycle.prepare] using he⟩

theorem pausedDuring_runCycles (u : Updater) (c : CacheForCommit FileObject)
    (inputs : List (CallInput FileObject)) (r : Bool) :
    PausedDuring r (runCycles asUnstructuredSanitized AsCoreObjects u c inputs).calls := by
  induction inputs using List.reverseRecOn with
  | nil => trivial
  | append_singleton inputs i ih =>
    obtain ⟨cs, hc, he⟩ := step_calls asUnstructuredSanitized AsCoreObjects
      (runCycles asUnstructuredSanitized AsCoreObjects u c inputs) i
    rw [runCycles_append_singleton, he, pausedDuring_append]
    exact ⟨ih, (cycle_block _ _ cs hc).1⟩

/-- `Update` pauses the remediator before any declare, apply or watch update and resumes it
once, last, exactly when `update` returned no error; its errors are the remediator's
conflict and fight errors, then those of `update`. So over any run the remediator never runs
while a declare, an apply or a watch update is made, and after each cycle it runs exactly
when that cycle's `update` passed. -/
theorem the_remediator_is_paused_for_the_whole_cycle :
    (∀ (o : Outcomes) (oldCommit : String) (s : Cycle FileObject),
      ∃ cs, (∀ c ∈ cs, c.Collab) ∧
        (Cycle.Update asUnstructuredSanitized AsCoreObjects o oldCommit s).1.calls =
          s.calls ++ [.pause] ++ cs ++
            (if (Cycle.update asUnstructuredSanitized AsCoreObjects o oldCommit
              { s with updater := { s.updater with updating := true } }).2 = [] then
              [.resume] else []) ∧
        (Cycle.Update asUnstructuredSanitized AsCoreObjects o oldCommit s).2 =
          o.ConflictErrors ++ o.FightErrors ++ (Cycle.update asUnstructuredSanitized AsCoreObjects
            o oldCommit { s with updater := { s.updater with updating := true } }).2) ∧
    (∀ (u : Updater) (c : CacheForCommit FileObject) (inputs : List (CallInput FileObject))
      (r : Bool),
      (∀ pre call post, (runCycles asUnstructuredSanitized AsCoreObjects u c inputs).calls =
        pre ++ call :: post → call.Collab → running r pre = false) ∧
      ∀ i, running r (runCycles asUnstructuredSanitized AsCoreObjects u c (inputs ++ [i])).calls =
        decide ((runCycles asUnstructuredSanitized AsCoreObjects u c inputs).updateErrs
          asUnstructuredSanitized AsCoreObjects i = [])) := by
  refine ⟨fun o oldCommit s => ?_, fun u c inputs r => ⟨?_, fun i => ?_⟩⟩
  · obtain ⟨cs, hc, he⟩ := update_calls asUnstructuredSanitized AsCoreObjects o oldCommit
      { s with updater := { s.updater with updating := true } }
    exact ⟨cs, hc, by rw [Update_calls, he], rfl⟩
  · exact (pausedDuring_iff r _).mp (pausedDuring_runCycles asUnstructuredSanitized
      AsCoreObjects u c inputs r)
  · obtain ⟨cs, hc, he⟩ := step_calls asUnstructuredSanitized AsCoreObjects
      (runCycles asUnstructuredSanitized AsCoreObjects u c inputs) i
    rw [runCycles_append_singleton, he, running_append]
    exact (cycle_block _ _ cs hc).2

theorem flagInv_prepare_keep (s : Cycle FileObject) (i : CallInput FileObject) (p : MultiError)
    (hp : i.change = .keep p) (h : FlagInv s) : FlagInv (s.prepare i) := by
  simp only [Cycle.prepare, hp, CacheChange.apply]
  exact ⟨h.1, h.2, h.3, h.4⟩

theorem flagInv_step (s : Cycle FileObject) (i : CallInput FileObject) (h : FlagInv (s.prepare i)) :
    FlagInv (s.step asUnstructuredSanitized AsCoreObjects i) := by
  have := update_flagInv asUnstructuredSanitized AsCoreObjects i.outcomes i.oldCommit
    { s.prepare i with updater := { (s.prepare i).updater with updating := true } } ⟨h.1, h.2, h.3, h.4⟩
  exact ⟨this.1, this.2, this.3, this.4⟩

/-- The flags of partial progress of one cache over a run of `Update` calls that keep it,
from a cache with no flag set, whatever the collaborators answer and whatever parse errors
the cache holds at each call. Every state of the run keeps the invariant of the flags. No
call takes a flag back; a call sets a flag only with a passing call of its step, made with no
parse errors; and a call whose `update` fails ends with the call of the failing step, which
returned those errors, leaving the flags of that step and the later ones as they were. -/
theorem partial_progress_flags_form_an_invariant (u : Updater) (c : CacheForCommit FileObject)
    (hc : c.declaredResourcesUpdated = false ∧ c.applied = false ∧ c.watchesUpdated = false)
    (inputs : List (CallInput FileObject)) (hkeep : ∀ i ∈ inputs, ∃ p, i.change = .keep p) :
    FlagInv (runCycles asUnstructuredSanitized AsCoreObjects u c inputs) ∧
    ∀ l i, l ++ [i] <+: inputs →
      let s := runCycles asUnstructuredSanitized AsCoreObjects u c l
      FlagsLe s.cache (s.step asUnstructuredSanitized AsCoreObjects i).cache ∧
      Moves (s.prepare i) (s.step asUnstructuredSanitized AsCoreObjects i) ∧
      (s.updateErrs asUnstructuredSanitized AsCoreObjects i ≠ [] →
        FailedAt (s.prepare i) (s.step asUnstructuredSanitized AsCoreObjects i)
          (s.updateErrs asUnstructuredSanitized AsCoreObjects i)) := by
  refine ⟨?_, fun l i hl => ?_⟩
  · induction inputs using List.reverseRecOn with
    | nil => exact ⟨by simp [runCycles, hc.2.1], by simp [runCycles, hc.2.2],
        by simp [runCycles, hc.1], by simp [runCycles, hc.2.2]⟩
    | append_singleton inputs i ih =>
      obtain ⟨p, hp⟩ := hkeep i (by simp)
      rw [runCycles_append_singleton]
      exact flagInv_step asUnstructuredSanitized AsCoreObjects _ i (flagInv_prepare_keep _ i p hp
        (ih fun j hj => hkeep j (by simp [hj])))
  · obtain ⟨p, hp⟩ := hkeep i (hl.subset (by simp))
    have hm := moves_update asUnstructuredSanitized AsCoreObjects i.outcomes i.oldCommit
      { (runCycles asUnstructuredSanitized AsCoreObjects u c l).prepare i with
        updater := { (runCycles asUnstructuredSanitized AsCoreObjects u c l).updater with
          updating := true } }
    have hmoves : Moves ((runCycles asUnstructuredSanitized AsCoreObjects u c l).prepare i)
        ((runCycles asUnstructuredSanitized AsCoreObjects u c l).step asUnstructuredSanitized
          AsCoreObjects i) :=
      ⟨hm.calls, hm.parserErrs, hm.flags, hm.declared, hm.applied, hm.watches⟩
    refine ⟨?_, hmoves, fun he => ?_⟩
    · have hf := hmoves.flags
      simp only [Cycle.prepare, hp, CacheChange.apply] at hf
      exact ⟨hf.1, hf.2, hf.3⟩
    · exact update_failedAt asUnstructuredSanitized AsCoreObjects i.outcomes i.oldCommit
        { (runCycles asUnstructuredSanitized AsCoreObjects u c l).prepare i with
          updater := { (runCycles asUnstructuredSanitized AsCoreObjects u c l).updater with
            updating := true } } he

theorem partial_progress_over_a_failed_and_a_passing_call :
    ((⟨⟨"c1"⟩, [], [], false, false, false⟩ : CacheForCommit Object).declaredResourcesUpdated =
        false ∧ (⟨⟨"c1"⟩, [], [], false, false, false⟩ : CacheForCommit Object).applied = false ∧
      (⟨⟨"c1"⟩, [], [], false, false, false⟩ : CacheForCommit Object).watchesUpdated = false) ∧
    (∀ i ∈ ([⟨.keep [], ⟨fun _ _ => none, fun _ => [.external "apply"], fun _ => [], [], []⟩, ""⟩,
        ⟨.keep [], ⟨fun _ _ => none, fun _ => [], fun _ => [], [], []⟩, ""⟩] :
          List (CallInput Object)), ∃ p, i.change = .keep p) ∧
    (FlagInv (runCycles Except.ok (List.map some) ⟨Resources.empty, [], [], false⟩
        ⟨⟨"c1"⟩, [], [], false, false, false⟩
        [⟨.keep [], ⟨fun _ _ => none, fun _ => [.external "apply"], fun _ => [], [], []⟩, ""⟩,
          ⟨.keep [], ⟨fun _ _ => none, fun _ => [], fun _ => [], [], []⟩, ""⟩]) ∧
    ∀ l i, l ++ [i] <+: [⟨.keep [], ⟨fun _ _ => none, fun _ => [.external "apply"], fun _ => [],
        [], []⟩, ""⟩, ⟨.keep [], ⟨fun _ _ => none, fun _ => [], fun _ => [], [], []⟩, ""⟩] →
      let s := runCycles Except.ok (List.map some) ⟨Resources.empty, [], [], false⟩
        ⟨⟨"c1"⟩, [], [], false, false, false⟩ l
      FlagsLe s.cache (s.step Except.ok (List.map some) i).cache ∧
      Moves (s.prepare i) (s.step Except.ok (List.map some) i) ∧
      (s.updateErrs Except.ok (List.map some) i ≠ [] →
        FailedAt (s.prepare i) (s.step Except.ok (List.map some) i)
          (s.updateErrs Except.ok (List.map some) i))) :=
  ⟨⟨rfl, rfl, rfl⟩, fun _ hi => ⟨[], by simp at hi; rcases hi with rfl | rfl <;> rfl⟩,
    partial_progress_flags_form_an_invariant Except.ok (List.map some) _ _ ⟨rfl, rfl, rfl⟩ _
      fun _ hi => ⟨[], by simp at hi; rcases hi with rfl | rfl <;> rfl⟩⟩

end run

end config_sync.parse
