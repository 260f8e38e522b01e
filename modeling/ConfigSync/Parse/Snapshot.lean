import ConfigSync.Parse.Updater
-- Which snapshot the steps of a cycle act on (`Updater.update`, `declare`, `apply`, `watch`).
-- Once the declare step of a cache passed, the store holds the map that `Resources.Update`
-- builds from the objects of that cache, with its commit, and only a declare of the same
-- cache changes it. So every apply gets the objects of that map, every watch update its
-- GroupVersionKinds, and `Resume` comes only when the store holds it.

namespace config_sync.parse

open config_sync.core config_sync.orderedmap config_sync.declared

variable {FileObject : Type}

/-- `c'` is a cache of the same parse as `c`: the same objects, from the same commit. -/
structure SameSource (c c' : CacheForCommit FileObject) : Prop where
  objsToApply : c'.objsToApply = c.objsToApply
  source : c'.source = c.source

theorem SameSource.trans {c₁ c₂ c₃ : CacheForCommit FileObject} (h₁₂ : SameSource c₁ c₂)
    (h₂₃ : SameSource c₂ c₃) : SameSource c₁ c₃ :=
  ⟨h₂₃.objsToApply.trans h₁₂.objsToApply, h₂₃.source.trans h₁₂.source⟩

section snapshot

variable (asUnstructuredSanitized : Object → Except String Object)
  (AsCoreObjects : List FileObject → List (Option Object))

/-! ## The snapshot of a cache -/

/-- The map that `Resources.Update` builds from the objects of the cache `c`. -/
def snapshotOf (c : CacheForCommit FileObject) : Except Error (OrderedMap ID Object) :=
  buildNewSet asUnstructuredSanitized (AsCoreObjects c.objsToApply)

/-- The store holds the snapshot of `c`, with the commit of `c`. -/
def Holds (c : CacheForCommit FileObject) (r : Resources) : Prop :=
  ∃ S, snapshotOf asUnstructuredSanitized AsCoreObjects c = .ok S ∧
    r = ⟨some S, c.source.commit⟩

/-- A call made while processing the cache `c` acts on `c`: a declare is of its objects at its
commit, an apply gets the objects of its snapshot and a watch update the GroupVersionKinds of
its snapshot. -/
def OnSnapshot (c : CacheForCommit FileObject) : Call → Prop
  | .resourcesUpdate objs commit _ _ => objs = AsCoreObjects c.objsToApply ∧ commit = c.source.commit
  | .apply objs _ => ∃ S, snapshotOf asUnstructuredSanitized AsCoreObjects c = .ok S ∧
      objs = S.values
  | .updateWatches gvks _ => ∃ S, snapshotOf asUnstructuredSanitized AsCoreObjects c = .ok S ∧
      gvks = gvkSet S
  | _ => True

/-- The invariant of a cache: once its declare step is marked done, the store holds its
snapshot. -/
def Sound (s : Cycle FileObject) : Prop :=
  s.cache.declaredResourcesUpdated = true →
    Holds asUnstructuredSanitized AsCoreObjects s.cache s.updater.Resources

theorem holds_of_sameSource {c c' : CacheForCommit FileObject} {r : Resources}
    (hc : SameSource c c') (h : Holds asUnstructuredSanitized AsCoreObjects c r) :
    Holds asUnstructuredSanitized AsCoreObjects c' r := by
  rwa [Holds, snapshotOf, hc.objsToApply, hc.source]

/-- A step after a passing declare: from a store holding the snapshot of `c`, it keeps the
store, keeps the objects and the commit of the cache, and makes only calls on that
snapshot. -/
def Acts (c : CacheForCommit FileObject) (f : Cycle FileObject → Cycle FileObject × MultiError) :
    Prop :=
  ∀ s, Holds asUnstructuredSanitized AsCoreObjects c s.updater.Resources →
    (f s).1.updater.Resources = s.updater.Resources ∧ SameSource s.cache (f s).1.cache ∧
      ∃ cs, (f s).1.calls = s.calls ++ cs ∧
        ∀ x ∈ cs, OnSnapshot asUnstructuredSanitized AsCoreObjects c x

/-! ## The steps -/

theorem acts_andThen {c : CacheForCommit FileObject}
    {f g : Cycle FileObject → Cycle FileObject × MultiError}
    (hf : Acts asUnstructuredSanitized AsCoreObjects c f)
    (hg : Acts asUnstructuredSanitized AsCoreObjects c g) :
    Acts asUnstructuredSanitized AsCoreObjects c (andThen f g) := by
  intro s hs
  obtain ⟨hr₁, hsame₁, cs₁, hc₁, ho₁⟩ := hf s hs
  by_cases h : (f s).2 = []
  · obtain ⟨hr₂, hsame₂, cs₂, hc₂, ho₂⟩ := hg (f s).1 (hr₁ ▸ hs)
    rw [andThen_ok h]
    exact ⟨hr₂.trans hr₁, hsame₁.trans hsame₂, cs₁ ++ cs₂, by rw [hc₂, hc₁, List.append_assoc],
      fun x hx => (List.mem_append.mp hx).elim (ho₁ x) (ho₂ x)⟩
  · rw [andThen_err h]
    exact ⟨hr₁, hsame₁, cs₁, hc₁, ho₁⟩

theorem acts_applyStep (o : Outcomes) (c : CacheForCommit FileObject) :
    Acts asUnstructuredSanitized AsCoreObjects c (Cycle.applyStep o) := by
  rintro s ⟨S, hS, hr⟩
  rcases applyStep_inv o s with ⟨-, he⟩ | ⟨-, -, hc, hu, hcache⟩
  · rw [he]
    exact ⟨rfl, ⟨rfl, rfl⟩, [], by simp, by simp⟩
  · refine ⟨by rw [hu], by split_ifs at hcache <;> rw [hcache] <;> exact ⟨rfl, rfl⟩, _, hc, ?_⟩
    simp only [List.mem_singleton, forall_eq, OnSnapshot, hr, declaredObjects_some]
    exact ⟨S, hS, rfl⟩

theorem acts_watchStep (o : Outcomes) (c : CacheForCommit FileObject) :
    Acts asUnstructuredSanitized AsCoreObjects c (Cycle.watchStep o) := by
  rintro s ⟨S, hS, hr⟩
  rcases watchStep_inv o s with ⟨-, he⟩ | ⟨-, -, hc, hu, hcache⟩
  · rw [he]
    exact ⟨rfl, ⟨rfl, rfl⟩, [], by simp, by simp⟩
  · refine ⟨by rw [hu], by split_ifs at hcache <;> rw [hcache] <;> exact ⟨rfl, rfl⟩, _, hc, ?_⟩
    simp only [List.mem_singleton, forall_eq, OnSnapshot, hr, declaredGVKs_some]
    exact ⟨S, hS, rfl⟩

theorem acts_resumeStep (c : CacheForCommit FileObject) :
    Acts asUnstructuredSanitized AsCoreObjects c (@Cycle.resumeStep FileObject) :=
  fun _ _ => ⟨rfl, ⟨rfl, rfl⟩, [.resume], rfl, by simp [OnSnapshot]⟩

/-- The declare step: it declares the objects of the cache at its commit, and the store holds
the snapshot of the cache after it, unless it ran, failed and left the step unmarked. -/
theorem declareStep_snapshot (o : Outcomes) (oldCommit : String) (s : Cycle FileObject)
    (h : Sound asUnstructuredSanitized AsCoreObjects s) :
    let d := Cycle.declareStep asUnstructuredSanitized AsCoreObjects o oldCommit s
    SameSource s.cache d.1.cache ∧
    (Holds asUnstructuredSanitized AsCoreObjects s.cache d.1.updater.Resources ∨
      (d.1.cache.declaredResourcesUpdated = false ∧ d.2 ≠ [])) ∧
    ∃ cs, d.1.calls = s.calls ++ cs ∧
      ∀ x ∈ cs, OnSnapshot asUnstructuredSanitized AsCoreObjects s.cache x := by
  rcases declareStep_inv asUnstructuredSanitized AsCoreObjects o oldCommit s with
    ⟨hd, he⟩ | ⟨hd, h2, hc, hu, hcache⟩
  · rw [he]
    exact ⟨⟨rfl, rfl⟩, .inl (h hd), [], by simp, by simp⟩
  · refine ⟨by split_ifs at hcache <;> rw [hcache] <;> exact ⟨rfl, rfl⟩, ?_, _, hc,
      by simp [OnSnapshot]⟩
    rcases declared.update_cases asUnstructuredSanitized o.deletesAllNamespaces
        s.updater.Resources (AsCoreObjects s.cache.objsToApply) s.cache.source.commit oldCommit
      with ⟨hne, -, -⟩ | ⟨-, -, S, hS, hres⟩
    · refine .inr ⟨?_, by rwa [h2, Ne, toList_eq_nil_iff]⟩
      rw [hcache, if_neg fun h => hne h.1, hd]
    · exact .inl ⟨S, hS, by rw [hu]; exact hres⟩

/-- A cycle on the cache of `s`: every call it makes after `Pause` acts on that cache, and
the store holds the snapshot of the cache after it, unless its declare step failed and was
left unmarked. -/
theorem update_snapshot (o : Outcomes) (oldCommit : String) (s : Cycle FileObject)
    (h : Sound asUnstructuredSanitized AsCoreObjects s) :
    let u := Cycle.update asUnstructuredSanitized AsCoreObjects o oldCommit s
    SameSource s.cache u.1.cache ∧
    (Holds asUnstructuredSanitized AsCoreObjects s.cache u.1.updater.Resources ∨
      (u.1.cache.declaredResourcesUpdated = false ∧ u.2 ≠ [])) ∧
    ∃ cs, u.1.calls = s.calls ++ .pause :: cs ∧
      ∀ x ∈ cs, OnSnapshot asUnstructuredSanitized AsCoreObjects s.cache x := by
  obtain ⟨hsame, hd, cs, hc, ho⟩ :=
    declareStep_snapshot asUnstructuredSanitized AsCoreObjects o oldCommit (s.call .pause) h
  simp only [Cycle.update]
  by_cases h2 : (Cycle.declareStep asUnstructuredSanitized AsCoreObjects o oldCommit
    (s.call .pause)).2 = []
  · have hh := hd.resolve_right fun h => h.2 h2
    obtain ⟨hr', hsame', cs', hc', ho'⟩ := acts_andThen asUnstructuredSanitized AsCoreObjects
      (acts_applyStep asUnstructuredSanitized AsCoreObjects o s.cache)
      (acts_andThen asUnstructuredSanitized AsCoreObjects
        (acts_watchStep asUnstructuredSanitized AsCoreObjects o s.cache)
        (acts_resumeStep asUnstructuredSanitized AsCoreObjects s.cache)) _ hh
    rw [andThen_ok h2]
    exact ⟨hsame.trans hsame', .inl (hr' ▸ hh), cs ++ cs', by simp [hc', hc],
      fun x hx => (List.mem_append.mp hx).elim (ho x) (ho' x)⟩
  · rw [andThen_err h2]
    exact ⟨hsame, hd, cs, by simp [hc], ho⟩

/-! ## Runs -/

theorem sound_prepare (s : Cycle FileObject) (i : CallInput FileObject)
    (hi : ∀ c, i.change = .fresh c → c.declaredResourcesUpdated = false)
    (h : Sound asUnstructuredSanitized AsCoreObjects s) :
    Sound asUnstructuredSanitized AsCoreObjects (s.prepare i) := by
  rcases hc : i.change with p | c
  · simp only [Sound, Cycle.prepare, hc, CacheChange.apply]
    exact h
  · simp [Sound, Cycle.prepare, hc, CacheChange.apply, hi c hc]

theorem sound_step (s : Cycle FileObject) (i : CallInput FileObject)
    (h : Sound asUnstructuredSanitized AsCoreObjects (s.prepare i)) :
    Sound asUnstructuredSanitized AsCoreObjects (s.step asUnstructuredSanitized AsCoreObjects i) := by
  obtain ⟨hsame, hh, -⟩ := update_snapshot asUnstructuredSanitized AsCoreObjects i.outcomes
    i.oldCommit { s.prepare i with updater := { s.updater with updating := true } } h
  intro hd
  rcases hh with hh | ⟨hf, -⟩
  · exact holds_of_sameSource asUnstructuredSanitized AsCoreObjects hsame hh
  · exact absurd (hf.symm.trans hd) Bool.false_ne_true

theorem sound_runCycles (u : Updater) (c : CacheForCommit FileObject)
    (hc : c.declaredResourcesUpdated = false) (inputs : List (CallInput FileObject))
    (hfresh : ∀ i ∈ inputs, ∀ c, i.change = .fresh c → c.declaredResourcesUpdated = false) :
    Sound asUnstructuredSanitized AsCoreObjects
      (runCycles asUnstructuredSanitized AsCoreObjects u c inputs) := by
  induction inputs using List.reverseRecOn with
  | nil => simp [Sound, runCycles, hc]
  | append_singleton inputs i ih =>
    rw [runCycles_append_singleton]
    exact sound_step asUnstructuredSanitized AsCoreObjects _ i
      (sound_prepare asUnstructuredSanitized AsCoreObjects _ i (hfresh i (by simp))
        (ih fun j hj => hfresh j (by simp [hj])))

/-- Over a run of `Update` calls in which every cache comes with its declare step unmarked,
whatever the collaborators answer and whatever parse errors the caches hold, every call of
a cycle acts on the cache of that cycle: after `Pause`, its declare is of the objects of the
cache at its commit, its apply gets exactly the objects of the snapshot that
`Resources.Update` builds from them, its watch update exactly the GroupVersionKinds of that
snapshot, and it calls `Resume` only when the store holds that snapshot with the commit of
the cache. -/
theorem apply_watch_and_resume_act_on_the_current_snapshot (u : Updater)
    (c : CacheForCommit FileObject) (hc : c.declaredResourcesUpdated = false)
    (inputs : List (CallInput FileObject))
    (hfresh : ∀ i ∈ inputs, ∀ c, i.change = .fresh c → c.declaredResourcesUpdated = false) :
    ∀ l i, l ++ [i] <+: inputs →
      let s := runCycles asUnstructuredSanitized AsCoreObjects u c l
      ∃ cs, (s.step asUnstructuredSanitized AsCoreObjects i).calls = s.calls ++ .pause :: cs ∧
        (∀ x ∈ cs, OnSnapshot asUnstructuredSanitized AsCoreObjects (s.prepare i).cache x) ∧
        (.resume ∈ cs → Holds asUnstructuredSanitized AsCoreObjects (s.prepare i).cache
          (s.step asUnstructuredSanitized AsCoreObjects i).updater.Resources) := by
  intro l i hl
  have hs := sound_prepare asUnstructuredSanitized AsCoreObjects _ i
    (hfresh i (hl.subset (by simp))) (sound_runCycles asUnstructuredSanitized AsCoreObjects u c hc
      l fun j hj => hfresh j (hl.subset (by simp [hj])))
  obtain ⟨-, hh, cs, hcs, ho⟩ := update_snapshot asUnstructuredSanitized AsCoreObjects
    i.outcomes i.oldCommit { (runCycles asUnstructuredSanitized AsCoreObjects u c l).prepare i with
      updater := { (runCycles asUnstructuredSanitized AsCoreObjects u c l).updater with
        updating := true } } hs
  obtain ⟨cs₁, hcol, hcs₁⟩ := update_calls asUnstructuredSanitized AsCoreObjects i.outcomes
    i.oldCommit { (runCycles asUnstructuredSanitized AsCoreObjects u c l).prepare i with
      updater := { (runCycles asUnstructuredSanitized AsCoreObjects u c l).updater with
        updating := true } }
  refine ⟨cs, hcs, ho, fun hr => ?_⟩
  have he := hcs₁.symm.trans hcs
  simp only [List.append_assoc, List.singleton_append, List.append_cancel_left_eq,
    List.cons_append, List.cons.injEq, true_and] at he
  split_ifs at he with h0
  · exact hh.resolve_right fun h => h.2 h0
  · rw [List.append_nil] at he
    exact absurd (hcol _ (he ▸ hr)) (by simp [Call.Collab])

theorem snapshots_of_two_commits_over_a_failed_apply :
    (⟨⟨"c1"⟩, [⟨⟨"", "v1", "ConfigMap"⟩, "ns", "a", []⟩], [], false, false, false⟩ :
        CacheForCommit Object).declaredResourcesUpdated = false ∧
    (∀ i ∈ ([⟨.keep [], ⟨fun _ _ => none, fun _ => [.external "apply"], fun _ => [], [], []⟩, ""⟩,
        ⟨.fresh ⟨⟨"c2"⟩, [⟨⟨"", "v1", "ConfigMap"⟩, "ns", "b", []⟩], [], false, false, false⟩,
          ⟨fun _ _ => none, fun _ => [], fun _ => [], [], []⟩, "c1"⟩] : List (CallInput Object)),
      ∀ c, i.change = .fresh c → c.declaredResourcesUpdated = false) ∧
    ∀ l i, l ++ [i] <+: [⟨.keep [], ⟨fun _ _ => none, fun _ => [.external "apply"], fun _ => [],
        [], []⟩, ""⟩, ⟨.fresh ⟨⟨"c2"⟩, [⟨⟨"", "v1", "ConfigMap"⟩, "ns", "b", []⟩], [], false, false,
          false⟩, ⟨fun _ _ => none, fun _ => [], fun _ => [], [], []⟩, "c1"⟩] →
      let s := runCycles Except.ok (List.map some) ⟨Resources.empty, [], [], false⟩
        ⟨⟨"c1"⟩, [⟨⟨"", "v1", "ConfigMap"⟩, "ns", "a", []⟩], [], false, false, false⟩ l
      ∃ cs, (s.step Except.ok (List.map some) i).calls = s.calls ++ .pause :: cs ∧
        (∀ x ∈ cs, OnSnapshot Except.ok (List.map some) (s.prepare i).cache x) ∧
        (.resume ∈ cs → Holds Except.ok (List.map some) (s.prepare i).cache
          (s.step Except.ok (List.map some) i).updater.Resources) :=
  ⟨rfl, fun _ hi _ h => by simp at hi; rcases hi with rfl | rfl <;> cases h; rfl,
    apply_watch_and_resume_act_on_the_current_snapshot Except.ok (List.map some) _ _ rfl _
      fun _ hi _ h => by simp at hi; rcases hi with rfl | rfl <;> cases h; rfl⟩

end snapshot

/-! ## The store over a run -/

section replay

variable (asUnstructuredSanitized : Object → Except String Object)
  (AsCoreObjects : List FileObject → List (Option Object))

/-- The store after the calls of a log, replayed on `r`: a `Resources.Update` call that passed
installs the map built from its objects, at its commit; every other call leaves the store. -/
def replayDeclares (r : Resources) (calls : List Call) : Resources :=
  calls.foldl (fun r c => match c with
    | .resourcesUpdate objects commit _ none =>
      match buildNewSet asUnstructuredSanitized objects with
      | .ok newSet => r.setObjectMap newSet commit
      | .error _ => r
    | _ => r) r

theorem replayDeclares_append (r : Resources) (xs ys : List Call) :
    replayDeclares asUnstructuredSanitized r (xs ++ ys) =
      replayDeclares asUnstructuredSanitized (replayDeclares asUnstructuredSanitized r xs) ys :=
  List.foldl_append _ _ _ _

/-- A step whose calls, replayed on the store it started from, give the store it ends with. -/
def Replays (f : Cycle FileObject → Cycle FileObject × MultiError) : Prop :=
  ∀ s, ∃ cs, (f s).1.calls = s.calls ++ cs ∧
    (f s).1.updater.Resources = replayDeclares asUnstructuredSanitized s.updater.Resources cs

/-- A step that keeps the store and makes only calls that are not `Resources.Update` calls
replays. -/
theorem replays_of_keeps (f : Cycle FileObject → Cycle FileObject × MultiError)
    (h : ∀ s, (f s).1.updater.Resources = s.updater.Resources ∧ ∃ c, (f s).1.calls = s.calls ++ [c] ∧
      ∀ objects commit oldCommit err, c ≠ .resourcesUpdate objects commit oldCommit err) :
    Replays asUnstructuredSanitized f := fun s => by
  obtain ⟨hr, c, hc, hne⟩ := h s
  refine ⟨[c], hc, ?_⟩
  cases c <;> first | exact hr | exact absurd rfl (hne _ _ _ _)

theorem replays_andThen {f g : Cycle FileObject → Cycle FileObject × MultiError}
    (hf : Replays asUnstructuredSanitized f) (hg : Replays asUnstructuredSanitized g) :
    Replays asUnstructuredSanitized (andThen f g) := by
  intro s
  obtain ⟨cs₁, hc₁, hr₁⟩ := hf s
  by_cases h : (f s).2 = []
  · obtain ⟨cs₂, hc₂, hr₂⟩ := hg (f s).1
    rw [andThen_ok h]
    exact ⟨cs₁ ++ cs₂, by rw [hc₂, hc₁, List.append_assoc],
      by rw [hr₂, hr₁, replayDeclares_append]⟩
  · rw [andThen_err h]
    exact ⟨cs₁, hc₁, hr₁⟩

theorem replays_declareStep (o : Outcomes) (oldCommit : String) :
    Replays asUnstructuredSanitized
      (Cycle.declareStep asUnstructuredSanitized AsCoreObjects o oldCommit) := fun s => by
  rcases declareStep_inv asUnstructuredSanitized AsCoreObjects o oldCommit s with
    ⟨-, he⟩ | ⟨-, -, hc, hu, -⟩
  · exact ⟨[], by rw [he, List.append_nil], by rw [he]; rfl⟩
  refine ⟨_, hc, ?_⟩
  rw [hu]
  rcases declared.update_cases asUnstructuredSanitized o.deletesAllNamespaces s.updater.Resources
    (AsCoreObjects s.cache.objsToApply) s.cache.source.commit oldCommit with
    ⟨hne, -, hr⟩ | ⟨hn, -, newSet, hb, hr⟩
  · obtain ⟨e, he⟩ := Option.ne_none_iff_exists'.mp hne
    simp [replayDeclares, he, hr]
  · simp [replayDeclares, hn, hb, hr]

theorem replays_applyStep (o : Outcomes) :
    Replays asUnstructuredSanitized (@Cycle.applyStep FileObject o) := fun s => by
  rcases applyStep_inv o s with ⟨-, he⟩ | ⟨-, -, hc, hu, -⟩
  · exact ⟨[], by rw [he, List.append_nil], by rw [he]; rfl⟩
  · exact ⟨_, hc, by rw [hu]; rfl⟩

theorem replays_watchStep (o : Outcomes) :
    Replays asUnstructuredSanitized (@Cycle.watchStep FileObject o) := fun s => by
  rcases watchStep_inv o s with ⟨-, he⟩ | ⟨-, -, hc, hu, -⟩
  · exact ⟨[], by rw [he, List.append_nil], by rw [he]; rfl⟩
  · exact ⟨_, hc, by rw [hu]; rfl⟩

/-- A cycle's calls, replayed on the store it started from, give the store it ends with. -/
theorem replays_update (o : Outcomes) (oldCommit : String) (s : Cycle FileObject) :
    ∃ cs, (Cycle.update asUnstructuredSanitized AsCoreObjects o oldCommit s).1.calls =
        s.calls ++ cs ∧
      (Cycle.update asUnstructuredSanitized AsCoreObjects o oldCommit s).1.updater.Resources =
        replayDeclares asUnstructuredSanitized s.updater.Resources cs := by
  obtain ⟨cs, hc, hr⟩ := replays_andThen asUnstructuredSanitized
    (replays_declareStep asUnstructuredSanitized AsCoreObjects o oldCommit)
    (replays_andThen asUnstructuredSanitized (replays_applyStep asUnstructuredSanitized o)
      (replays_andThen asUnstructuredSanitized (replays_watchStep asUnstructuredSanitized o)
        (replays_of_keeps asUnstructuredSanitized Cycle.resumeStep fun s =>
          ⟨rfl, .resume, rfl, fun _ _ _ _ => nofun⟩))) (s.call .pause)
  exact ⟨.pause :: cs, by simpa [Cycle.update] using hc, hr⟩

/-- Over any run of `Update` calls, whatever caches the caller passes and whatever the
collaborators answer, the store is what the call log gives when replayed on the store the run
started from: each `Resources.Update` call that passed installed the map built from its
objects, at its commit, and no apply, watch update, failed declare, pause or resume changed
the store. -/
theorem the_store_is_the_replay_of_the_passing_declares (u : Updater) (c : CacheForCommit FileObject)
    (inputs : List (CallInput FileObject)) :
    (runCycles asUnstructuredSanitized AsCoreObjects u c inputs).updater.Resources =
      replayDeclares asUnstructuredSanitized u.Resources
        (runCycles asUnstructuredSanitized AsCoreObjects u c inputs).calls := by
  induction inputs using List.reverseRecOn with
  | nil => rfl
  | append_singleton inputs i ih =>
    rw [runCycles_append_singleton]
    obtain ⟨cs, hc, hr⟩ := replays_update asUnstructuredSanitized AsCoreObjects i.outcomes
      i.oldCommit { (runCycles asUnstructuredSanitized AsCoreObjects u c inputs).prepare i with
        updater := { (runCycles asUnstructuredSanitized AsCoreObjects u c inputs).updater with
          updating := true } }
    simp only [Cycle.step, Cycle.Update, Cycle.prepare] at hc hr ⊢
    rw [hc, hr, replayDeclares_append, ← ih]

end replay

/-! ## The CustomResourceDefinitions of the store -/

section crds

variable {CRD : Type} (AsCRD : Object → Except Error CRD)

/-- `obj.GroupVersionKind().GroupKind() == kinds.CustomResourceDefinition()`. The kind is not
in the source; it is the GroupKind of the `apiextensions.k8s.io` CustomResourceDefinition. -/
def IsCRD (obj : Object) : Bool :=
  obj.gvk.group == "apiextensions.k8s.io" && obj.gvk.kind == "CustomResourceDefinition"

/-- The loop of `declaredCRDs`, from the CRDs converted so far: an object of another kind is
skipped, and the first CRD that `clusterconfig.AsCRD` does not convert ends it with its error. -/
def declaredCRDsLoop : List Object → List CRD → Except Error (List CRD)
  | [], crds => .ok crds
  | obj :: objs, crds =>
    if !IsCRD obj then declaredCRDsLoop objs crds else
    match AsCRD obj with
    | .error err => .error err
    | .ok crd => declaredCRDsLoop objs (crds ++ [crd])

/-- `Updater.declaredCRDs`, over the objects of `DeclaredUnstructureds`; a `nil` slice is
`[]`. `clusterconfig.AsCRD` is not in the source; it is the parameter `AsCRD`. -/
def Updater.declaredCRDs (u : Updater) : Except Error (List CRD) :=
  declaredCRDsLoop AsCRD u.Resources.DeclaredUnstructureds.1 []

section
variable {AsCRD} {obj : Object} {objs : List Object} {acc : List CRD}

theorem declaredCRDsLoop_skip (h : IsCRD obj = false) :
    declaredCRDsLoop AsCRD (obj :: objs) acc = declaredCRDsLoop AsCRD objs acc := by
  simp [declaredCRDsLoop, h]

theorem declaredCRDsLoop_convert {crd} (h : IsCRD obj = true) (hc : AsCRD obj = .ok crd) :
    declaredCRDsLoop AsCRD (obj :: objs) acc = declaredCRDsLoop AsCRD objs (acc ++ [crd]) := by
  simp [declaredCRDsLoop, h, hc]

theorem declaredCRDsLoop_fail {err} (h : IsCRD obj = true) (hc : AsCRD obj = .error err) :
    declaredCRDsLoop AsCRD (obj :: objs) acc = .error err := by
  simp [declaredCRDsLoop, h, hc]

end

theorem declaredCRDsLoop_ok : ∀ (objs : List Object) (acc crds : List CRD),
    declaredCRDsLoop AsCRD objs acc = .ok crds ↔
      ∃ rest, crds = acc ++ rest ∧
        List.Forall₂ (fun o crd => AsCRD o = .ok crd) (objs.filter IsCRD) rest
  | [], acc, crds => by simp [declaredCRDsLoop, eq_comm]
  | obj :: objs, acc, crds => by
    cases h : IsCRD obj
    case false =>
      simp [declaredCRDsLoop_skip h, declaredCRDsLoop_ok objs acc crds, h]
    case true =>
      rw [List.filter_cons_of_pos h]
      rcases hc : AsCRD obj with err | crd
      · simp [declaredCRDsLoop_fail h hc, List.forall₂_cons_left_iff, hc]
      · rw [declaredCRDsLoop_convert h hc, declaredCRDsLoop_ok objs]
        constructor
        · rintro ⟨rest, rfl, hr⟩
          exact ⟨crd :: rest, by simp, .cons hc hr⟩
        · rintro ⟨_, rfl, hr⟩
          obtain ⟨crd', rest, hc', hrest, rfl⟩ := List.forall₂_cons_left_iff.mp hr
          obtain rfl : crd = crd' := Except.ok.inj (hc.symm.trans hc')
          exact ⟨rest, by simp, hrest⟩

theorem declaredCRDsLoop_error : ∀ (objs : List Object) (acc : List CRD) (err : Error),
    declaredCRDsLoop AsCRD objs acc = .error err ↔
      ∃ pre o post, objs.filter IsCRD = pre ++ o :: post ∧
        (∀ p ∈ pre, ∃ crd, AsCRD p = .ok crd) ∧ AsCRD o = .error err
  | [], acc, err => by simp [declaredCRDsLoop]
  | obj :: objs, acc, err => by
    cases h : IsCRD obj
    case false =>
      simp [declaredCRDsLoop_skip h, declaredCRDsLoop_error objs acc err, h]
    case true =>
      rw [List.filter_cons_of_pos h]
      constructor
      · intro he
        rcases hc : AsCRD obj with e | crd
        · rw [declaredCRDsLoop_fail h hc] at he
          cases he
          exact ⟨[], obj, _, rfl, by simp, hc⟩
        · rw [declaredCRDsLoop_convert h hc, declaredCRDsLoop_error] at he
          obtain ⟨pre, o, post, hf, hpre, ho⟩ := he
          exact ⟨obj :: pre, o, post, by rw [hf]; rfl,
            fun p hp => (List.mem_cons.mp hp).elim (fun e => ⟨crd, e ▸ hc⟩) (hpre p), ho⟩
      · rintro ⟨_ | ⟨p, pre⟩, o, post, hf, hpre, ho⟩
        · obtain ⟨rfl, -⟩ := List.cons.inj hf
          exact declaredCRDsLoop_fail h ho
        · obtain ⟨rfl, htail⟩ := List.cons.inj hf
          obtain ⟨crd, hc⟩ := hpre obj (List.mem_cons_self _ _)
          rw [declaredCRDsLoop_convert h hc, declaredCRDsLoop_error]
          exact ⟨pre, o, post, htail, fun q hq => hpre q (List.mem_cons_of_mem _ hq), ho⟩

/-- `declaredCRDs` converts, in order, every CustomResourceDefinition among the objects the
store declares and no other object; and it fails exactly when one of them does not convert,
with the error of the first such one, every one before it having converted. -/
theorem declaredCRDs_converts_exactly_the_declared_CRDs (u : Updater) :
    (∀ crds, u.declaredCRDs AsCRD = .ok crds ↔
      List.Forall₂ (fun o crd => AsCRD o = .ok crd)
        (u.Resources.DeclaredUnstructureds.1.filter IsCRD) crds) ∧
    ∀ err, u.declaredCRDs AsCRD = .error err ↔
      ∃ pre o post, u.Resources.DeclaredUnstructureds.1.filter IsCRD = pre ++ o :: post ∧
        (∀ p ∈ pre, ∃ crd, AsCRD p = .ok crd) ∧ AsCRD o = .error err :=
  ⟨fun crds => (declaredCRDsLoop_ok AsCRD _ [] crds).trans (by simp),
    fun err => declaredCRDsLoop_error AsCRD _ [] err⟩

end crds

end config_sync.parse
