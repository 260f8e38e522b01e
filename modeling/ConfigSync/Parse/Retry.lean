import ConfigSync.Parse.Updater
-- What a retry of `Updater.Update` on the same cache does, and the errors a cycle leaves for
-- `Updater.Errors`. A cycle skips each step its cache marks done, so a commit whose steps
-- are all done only pauses and resumes the remediator; and a cycle that passes leaves no
-- validation or watch error behind, whichever steps it skipped.

namespace config_sync.parse

open config_sync.core config_sync.declared

variable {FileObject : Type}

/-! ## The steps a cycle skips -/

section steps

variable (asUnstructuredSanitized : Object → Except String Object)
  (AsCoreObjects : List FileObject → List (Option Object)) (o : Outcomes) (oldCommit : String)

theorem declareStep_skip (s : Cycle FileObject) (h : s.cache.declaredResourcesUpdated = true) :
    Cycle.declareStep asUnstructuredSanitized AsCoreObjects o oldCommit s = (s, []) := by
  rcases declareStep_inv asUnstructuredSanitized AsCoreObjects o oldCommit s with
    ⟨-, he⟩ | ⟨hf, -⟩
  · exact he
  · simp [h] at hf

theorem applyStep_skip (s : Cycle FileObject) (h : s.cache.applied = true) :
    Cycle.applyStep o s = (s, []) := by
  rcases applyStep_inv o s with ⟨-, he⟩ | ⟨hf, -⟩
  · exact he
  · simp [h] at hf

theorem watchStep_skip (s : Cycle FileObject) (h : s.cache.watchesUpdated = true) :
    Cycle.watchStep o s = (s, []) := by
  rcases watchStep_inv o s with ⟨-, he⟩ | ⟨hf, -⟩
  · exact he
  · simp [h] at hf

end steps

/-! ## The errors a cycle leaves -/

/-- `Updater.Errors`, given the remediator's conflict and fight errors and the applier's
errors at the time of the call. -/
def Updater.Errors (u : Updater) (conflictErrors fightErrors applierErrors : MultiError) :
    MultiError :=
  conflictErrors ++ fightErrors ++ u.validationErrs ++ applierErrors ++ u.watchErrs

section errors

variable (asUnstructuredSanitized : Object → Except String Object)
  (AsCoreObjects : List FileObject → List (Option Object)) (o : Outcomes) (oldCommit : String)

/-- The declare step keeps the watch errors and the watch flag. -/
theorem declareStep_watch (s : Cycle FileObject) :
    let d := Cycle.declareStep asUnstructuredSanitized AsCoreObjects o oldCommit s
    d.1.updater.watchErrs = s.updater.watchErrs ∧
      d.1.cache.watchesUpdated = s.cache.watchesUpdated := by
  rcases declareStep_inv asUnstructuredSanitized AsCoreObjects o oldCommit s with
    ⟨-, he⟩ | ⟨-, -, -, hu, hcache⟩
  · rw [he]
    exact ⟨rfl, rfl⟩
  · refine ⟨by rw [hu], ?_⟩
    split_ifs at hcache <;> rw [hcache]

/-- A declare step that passed leaves no validation error, from a state that keeps the
invariant of the flags. -/
theorem declareStep_validationErrs (s : Cycle FileObject) (h : FlagInv s)
    (hd : (Cycle.declareStep asUnstructuredSanitized AsCoreObjects o oldCommit s).2 = []) :
    (Cycle.declareStep asUnstructuredSanitized AsCoreObjects o oldCommit s).1.updater.validationErrs
      = [] := by
  rcases declareStep_inv asUnstructuredSanitized AsCoreObjects o oldCommit s with
    ⟨hf, he⟩ | ⟨-, h2, -, hu, -⟩
  · rw [he]
    exact h.validation_clean hf
  · rw [hu]
    exact h2 ▸ hd

/-- The apply step keeps the updater and the watch flag. -/
theorem applyStep_keeps_updater (s : Cycle FileObject) :
    (Cycle.applyStep o s).1.updater = s.updater ∧
      (Cycle.applyStep o s).1.cache.watchesUpdated = s.cache.watchesUpdated := by
  rcases applyStep_inv o s with ⟨-, he⟩ | ⟨-, -, -, hu, hcache⟩
  · rw [he]
    exact ⟨rfl, rfl⟩
  · refine ⟨hu, ?_⟩
    split_ifs at hcache <;> rw [hcache]

/-- A watch step that passed leaves no watch error when a watch flag that is set means no
watch error, and it keeps the validation errors. -/
theorem watchStep_errs (s : Cycle FileObject)
    (h : s.cache.watchesUpdated = true → s.updater.watchErrs = [])
    (hw : (Cycle.watchStep o s).2 = []) :
    (Cycle.watchStep o s).1.updater.watchErrs = [] ∧
      (Cycle.watchStep o s).1.updater.validationErrs = s.updater.validationErrs := by
  rcases watchStep_inv o s with ⟨hf, he⟩ | ⟨-, h2, -, hu, -⟩
  · rw [he]
    exact ⟨h hf, rfl⟩
  · rw [hu]
    exact ⟨h2 ▸ hw, rfl⟩

/-- A cycle that passes leaves no validation error and no watch error, whichever steps it
skipped, from any state that keeps the invariant of the flags: `Errors` then reports only
the remediator's conflict and fight errors and the applier's errors. -/
theorem a_passing_cycle_leaves_no_stale_error (s : Cycle FileObject) (h : FlagInv s)
    (hp : (Cycle.update asUnstructuredSanitized AsCoreObjects o oldCommit s).2 = [])
    (conflictErrors fightErrors applierErrors : MultiError) :
    (Cycle.update asUnstructuredSanitized AsCoreObjects o oldCommit s).1.updater.validationErrs
      = [] ∧
    (Cycle.update asUnstructuredSanitized AsCoreObjects o oldCommit s).1.updater.watchErrs = [] ∧
    (Cycle.update asUnstructuredSanitized AsCoreObjects o oldCommit s).1.updater.Errors
      conflictErrors fightErrors applierErrors = conflictErrors ++ fightErrors ++ applierErrors := by
  rcases update_cases asUnstructuredSanitized AsCoreObjects o oldCommit s with
    ⟨hd, he⟩ | ⟨-, ha, he⟩ | ⟨-, -, hw, he⟩ | ⟨hd, ha, hw, he⟩ <;> rw [he] at hp ⊢
  · exact absurd hp hd
  · exact absurd hp ha
  · exact absurd hp hw
  have hv := declareStep_validationErrs asUnstructuredSanitized AsCoreObjects o oldCommit
    (s.call .pause) ⟨h.1, h.2, h.3, h.4⟩ hd
  obtain ⟨hdw, hdf⟩ := declareStep_watch asUnstructuredSanitized AsCoreObjects o oldCommit
    (s.call .pause)
  obtain ⟨hau, haf⟩ := applyStep_keeps_updater o
    (Cycle.declareStep asUnstructuredSanitized AsCoreObjects o oldCommit (s.call .pause)).1
  obtain ⟨hww, hwv⟩ := watchStep_errs o _ (fun hf => by
    rw [hau, hdw]
    exact h.watch_clean (by rw [haf, hdf] at hf; exact hf)) hw
  have hvalid : (Cycle.watchStep o (Cycle.applyStep o (Cycle.declareStep asUnstructuredSanitized
      AsCoreObjects o oldCommit (s.call .pause)).1).1).1.updater.validationErrs = [] := by
    rw [hwv, hau, hv]
  exact ⟨hvalid, hww, by simp [Updater.Errors, call_updater, hvalid, hww]⟩

theorem a_passing_cycle_after_a_failed_watch :
    FlagInv (⟨⟨Resources.empty, [], [.external "watch"], false⟩,
      ⟨⟨"c1"⟩, [], [], true, true, false⟩, [], []⟩ : Cycle Object) ∧
    (Cycle.update Except.ok (List.map some) ⟨fun _ _ => none, fun _ => [], fun _ => [], [], []⟩ ""
      ⟨⟨Resources.empty, [], [.external "watch"], false⟩,
        ⟨⟨"c1"⟩, [], [], true, true, false⟩, [], []⟩).2 = [] ∧
    (Cycle.update Except.ok (List.map some) ⟨fun _ _ => none, fun _ => [], fun _ => [], [], []⟩ ""
      ⟨⟨Resources.empty, [], [.external "watch"], false⟩,
        ⟨⟨"c1"⟩, [], [], true, true, false⟩, [], []⟩).1.updater.validationErrs = [] ∧
    (Cycle.update Except.ok (List.map some) ⟨fun _ _ => none, fun _ => [], fun _ => [], [], []⟩ ""
      ⟨⟨Resources.empty, [], [.external "watch"], false⟩,
        ⟨⟨"c1"⟩, [], [], true, true, false⟩, [], []⟩).1.updater.watchErrs = [] ∧
    (Cycle.update Except.ok (List.map some) ⟨fun _ _ => none, fun _ => [], fun _ => [], [], []⟩ ""
      ⟨⟨Resources.empty, [], [.external "watch"], false⟩,
        ⟨⟨"c1"⟩, [], [], true, true, false⟩, [], []⟩).1.updater.Errors
      [.external "conflict"] [] [] = [.external "conflict"] :=
  have hinv : FlagInv (⟨⟨Resources.empty, [], [.external "watch"], false⟩,
      ⟨⟨"c1"⟩, [], [], true, true, false⟩, [], []⟩ : Cycle Object) :=
    ⟨fun _ => rfl, fun h => (by cases h), fun _ => rfl, fun h => (by cases h)⟩
  ⟨hinv, rfl, a_passing_cycle_leaves_no_stale_error Except.ok (List.map some) _ _ _ hinv (by rfl)
    _ _ _⟩

end errors

/-! ## A finished commit -/

section finished

variable (asUnstructuredSanitized : Object → Except String Object)
  (AsCoreObjects : List FileObject → List (Option Object))

/-- A cache whose three steps are marked done. -/
structure Finished (c : CacheForCommit FileObject) : Prop where
  declared : c.declaredResourcesUpdated = true
  applied : c.applied = true
  watches : c.watchesUpdated = true

/-- A step that passed on a cache with no parse errors ends marked done. -/
theorem stage_marks {done : CacheForCommit FileObject → Bool}
    {mark : CacheForCommit FileObject → CacheForCommit FileObject}
    {run : Cycle FileObject → Cycle FileObject × MultiError}
    (f : Cycle FileObject → Cycle FileObject × MultiError)
    (hf : ∀ s, f s = stage done mark run s) (hmark : ∀ c, done (mark c) = true)
    {s : Cycle FileObject} (hrun : (run s).1.cache = s.cache)
    (hp : (f s).2 = []) (hparse : s.cache.parserErrs = []) : done (f s).1.cache = true := by
  rcases stage_inv f hf hrun with ⟨hd, he⟩ | ⟨-, he⟩ <;> rw [he] at hp ⊢
  · exact hd
  · dsimp only at hp ⊢
    rw [if_pos ⟨hp, hparse⟩]
    exact hmark _

/-- A cycle that passes on a cache with no parse errors finishes the commit. -/
theorem finished_of_pass (o : Outcomes) (oldCommit : String) (s : Cycle FileObject)
    (hp : (Cycle.update asUnstructuredSanitized AsCoreObjects o oldCommit s).2 = [])
    (hparse : s.cache.parserErrs = []) :
    Finished (Cycle.update asUnstructuredSanitized AsCoreObjects o oldCommit s).1.cache := by
  rcases update_cases asUnstructuredSanitized AsCoreObjects o oldCommit s with
    ⟨hd, he⟩ | ⟨-, ha, he⟩ | ⟨-, -, hw, he⟩ | ⟨hd, ha, hw, he⟩ <;> rw [he] at hp ⊢
  · exact absurd hp hd
  · exact absurd hp ha
  · exact absurd hp hw
  have hpd := declareStep_parserErrs asUnstructuredSanitized AsCoreObjects o oldCommit
    (s.call .pause)
  have hd' := stage_marks (Cycle.declareStep asUnstructuredSanitized AsCoreObjects o oldCommit)
    (fun _ => rfl) (fun _ => rfl) rfl hd hparse
  have hpa := applyStep_parserErrs o
    (Cycle.declareStep asUnstructuredSanitized AsCoreObjects o oldCommit (s.call .pause)).1
  have ha' := stage_marks (Cycle.applyStep o) (fun _ => rfl) (fun _ => rfl) rfl ha
    (hpd.trans hparse)
  have hw' := stage_marks (Cycle.watchStep o) (fun _ => rfl) (fun _ => rfl) rfl hw
    ((hpa.trans hpd).trans hparse)
  have hla := applyStep_flagsLe o
    (Cycle.declareStep asUnstructuredSanitized AsCoreObjects o oldCommit (s.call .pause)).1
  have hlw := watchStep_flagsLe o (Cycle.applyStep o
    (Cycle.declareStep asUnstructuredSanitized AsCoreObjects o oldCommit (s.call .pause)).1).1
  exact ⟨hlw.declared (hla.declared hd'), hlw.applied ha', hw'⟩

/-- On a finished cache, a cycle only pauses and resumes the remediator. -/
theorem update_of_finished (o : Outcomes) (oldCommit : String) (s : Cycle FileObject)
    (h : Finished s.cache) :
    Cycle.update asUnstructuredSanitized AsCoreObjects o oldCommit s =
      ((s.call .pause).call .resume, []) := by
  simp only [Cycle.update, andThen,
    declareStep_skip asUnstructuredSanitized AsCoreObjects o oldCommit (s.call .pause) h.declared,
    applyStep_skip o (s.call .pause) h.applied, watchStep_skip o (s.call .pause) h.watches]
  rfl

/-- A call that keeps a finished cache, on an updater not in `Update`, only pauses and resumes
the remediator and returns the remediator's conflict and fight errors. -/
theorem step_of_finished (s : Cycle FileObject) (i : CallInput FileObject) {p : MultiError}
    (hp : i.change = .keep p) (hf : Finished s.cache) (hu : s.updater.updating = false) :
    s.step asUnstructuredSanitized AsCoreObjects i =
      { s.prepare i with calls := s.calls ++ [.pause, .resume] } ∧
    (Cycle.Update asUnstructuredSanitized AsCoreObjects i.outcomes i.oldCommit (s.prepare i)).2 =
      i.outcomes.ConflictErrors ++ i.outcomes.FightErrors := by
  obtain ⟨⟨r, v, w, upd⟩, c, cs, rec⟩ := s
  simp only at hu
  subst hu
  have hup := update_of_finished asUnstructuredSanitized AsCoreObjects i.outcomes i.oldCommit
    ⟨⟨r, v, w, true⟩, i.change.apply c, cs, rec⟩
    (by simp only [hp, CacheChange.apply]; exact ⟨hf.1, hf.2, hf.3⟩)
  exact ⟨by simp [Cycle.step, Cycle.Update, Cycle.prepare, hup, Cycle.call],
    by simp [Cycle.Update, Cycle.prepare, hup]⟩

theorem finished_step (s : Cycle FileObject) (i : CallInput FileObject) {p : MultiError}
    (hp : i.change = .keep p) (hf : Finished s.cache) (hu : s.updater.updating = false) :
    Finished (s.step asUnstructuredSanitized AsCoreObjects i).cache ∧
      (s.step asUnstructuredSanitized AsCoreObjects i).updater.updating = false := by
  rw [(step_of_finished asUnstructuredSanitized AsCoreObjects s i hp hf hu).1]
  simp only [Cycle.prepare, hp, CacheChange.apply]
  exact ⟨⟨hf.1, hf.2, hf.3⟩, hu⟩

/-- Once a call of a run passes on a cache with no parse errors, the commit is finished:
every later call that keeps the cache, whatever its collaborators answer and whatever parse
errors the cache holds by then, only pauses and resumes the remediator, returns only the
remediator's conflict and fight errors, and leaves the store, the updater's errors, the flags
and the recorded measurements as they were. -/
theorem a_finished_commit_only_pauses_and_resumes (u : Updater) (c : CacheForCommit FileObject)
    (l : List (CallInput FileObject)) (i : CallInput FileObject)
    (hpass : (runCycles asUnstructuredSanitized AsCoreObjects u c l).updateErrs
      asUnstructuredSanitized AsCoreObjects i = [])
    (hparse : ((runCycles asUnstructuredSanitized AsCoreObjects u c l).prepare i).cache.parserErrs
      = [])
    (l' : List (CallInput FileObject)) (j : CallInput FileObject)
    (hkeep : ∀ k ∈ l' ++ [j], ∃ p, k.change = .keep p) :
    let s := runCycles asUnstructuredSanitized AsCoreObjects u c (l ++ i :: l')
    Finished s.cache ∧
      s.step asUnstructuredSanitized AsCoreObjects j =
        { s.prepare j with calls := s.calls ++ [.pause, .resume] } ∧
      (Cycle.Update asUnstructuredSanitized AsCoreObjects j.outcomes j.oldCommit (s.prepare j)).2 =
        j.outcomes.ConflictErrors ++ j.outcomes.FightErrors := by
  have hrun : ∀ l' : List (CallInput FileObject), (∀ k ∈ l', ∃ p, k.change = .keep p) →
      Finished (runCycles asUnstructuredSanitized AsCoreObjects u c (l ++ i :: l')).cache ∧
      (runCycles asUnstructuredSanitized AsCoreObjects u c (l ++ i :: l')).updater.updating =
        false := by
    intro l' hk
    induction l' using List.reverseRecOn with
    | nil =>
      rw [← List.concat_eq_append, List.concat_eq_append, runCycles_append_singleton]
      exact ⟨finished_of_pass asUnstructuredSanitized AsCoreObjects i.outcomes i.oldCommit _
        hpass hparse, rfl⟩
    | append_singleton l' k ih =>
      obtain ⟨p, hp⟩ := hk k (by simp)
      obtain ⟨hf, hu⟩ := ih fun k' hk' => hk k' (by simp [hk'])
      rw [show l ++ i :: (l' ++ [k]) = l ++ i :: l' ++ [k] by simp, runCycles_append_singleton]
      exact finished_step asUnstructuredSanitized AsCoreObjects _ k hp hf hu
  obtain ⟨hf, hu⟩ := hrun l' fun k hk => hkeep k (by simp [hk])
  obtain ⟨p, hp⟩ := hkeep j (by simp)
  exact ⟨hf, step_of_finished asUnstructuredSanitized AsCoreObjects _ j hp hf hu⟩

theorem a_finished_commit_with_failing_collaborators :
    let u : Updater := ⟨Resources.empty, [], [], false⟩
    let c : CacheForCommit Object := ⟨⟨"c1"⟩, [], [], false, false, false⟩
    let i : CallInput Object :=
      ⟨.keep [], ⟨fun _ _ => none, fun _ => [], fun _ => [], [], []⟩, ""⟩
    let j : CallInput Object := ⟨.keep [.external "parse"], ⟨fun _ _ => some (.external "namespaces"),
      fun _ => [.external "apply"], fun _ => [.external "watch"], [.external "conflict"], []⟩, "c1"⟩
    (runCycles Except.ok (List.map some) u c []).updateErrs Except.ok (List.map some) i = [] ∧
    ((runCycles Except.ok (List.map some) u c []).prepare i).cache.parserErrs = [] ∧
    (∀ k ∈ [] ++ [j], ∃ p, k.change = .keep p) ∧
    let s := runCycles Except.ok (List.map some) u c ([] ++ i :: [])
    Finished s.cache ∧
      s.step Except.ok (List.map some) j = { s.prepare j with calls := s.calls ++ [.pause, .resume] } ∧
      (Cycle.Update Except.ok (List.map some) j.outcomes j.oldCommit (s.prepare j)).2 =
        j.outcomes.ConflictErrors ++ j.outcomes.FightErrors := by
  intro u c i j
  have hkeep : ∀ k ∈ [] ++ [j], ∃ p, k.change = .keep p := fun k hk => by
    simp only [List.nil_append, List.mem_singleton] at hk
    subst hk
    exact ⟨_, rfl⟩
  exact ⟨by decide, rfl, hkeep, a_finished_commit_only_pauses_and_resumes Except.ok (List.map some)
    u c [] i (by decide) rfl [] j hkeep⟩

end finished

end config_sync.parse
