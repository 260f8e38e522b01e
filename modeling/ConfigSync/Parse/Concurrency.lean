import ConfigSync.Declared.Resources
-- `Updater.Update` calls and readers of the store running concurrently. Each step that
-- touches shared state is one atomic move: taking `updateMux`, `u.updating = true`,
-- `getObjectMap` and `setObjectMap` in `Resources.Update`, the deferred `u.updating = false`,
-- releasing `updateMux`, and the `getObjectMap` of a reader. Every interleaving keeps one
-- invariant: only the holder of `updateMux` is in `update` or has the flag set, the store is
-- still what a `Resources.Update` sampled until it installs, and the store is the initial one
-- or one that was installed whole. Over it, the installs are linearizable: the store, and
-- every store a reader samples, is the sequential run of the installs logged before.

namespace config_sync.parse

open config_sync.core config_sync.orderedmap config_sync.declared

/-! ## Goroutines and moves -/

/-- Where the goroutine of one `Updater.Update` call is: waiting for `updateMux`; holding it
before `u.updating = true`; in `update`, its declare step over once `declared`, or in
`Resources.Update` between the `getObjectMap` that sampled `previous` and the `setObjectMap`
of `newSet`; prepending the conflict and fight errors after `update` returned; in the deferred
function after `u.updating = false`; or returned, with `updateMux` released. -/
inductive UpdatePc where
  | waiting
  | locked
  | running (declared : Bool)
  | sampled (previous : Resources) (newSet : OrderedMap ID Object)
  | prepending
  | deferred
  | returned

/-- The goroutine is inside `update`. -/
def UpdatePc.InUpdate : UpdatePc → Prop
  | .running _ | .sampled _ _ => True
  | _ => False

/-- The goroutine is past `u.updating = true` and before the deferred `u.updating = false`. -/
def UpdatePc.Flagged : UpdatePc → Prop
  | .running _ | .sampled _ _ | .prepending => True
  | _ => False

/-- The goroutine holds `updateMux`: past `Lock` and before `Unlock`. -/
def UpdatePc.HoldsLock : UpdatePc → Prop
  | .waiting | .returned => False
  | _ => True

theorem UpdatePc.InUpdate.flagged {p : UpdatePc} (h : p.InUpdate) : p.Flagged := by
  cases p <;> simp_all [InUpdate, Flagged]

theorem UpdatePc.Flagged.holdsLock {p : UpdatePc} (h : p.Flagged) : p.HoldsLock := by
  cases p <;> simp_all [Flagged, HoldsLock]

/-- The arguments of the `Resources.Update` call of one `Update` call. -/
structure UpdateCall where
  objects : List (Option Object)
  commit : String
  oldCommit : String

/-- What a run logs: each install, with the store that `Resources.Update` sampled, the store
it replaced and the store after it; and each read, with the store the reader sampled. -/
inductive Entry where
  | install (t : Nat) (sampled replaced installed : Resources)
  | read (t : Nat) (snapshot : Resources)

/-- The shared state: the store, `updateMux` with the goroutine that holds it, `updating`,
where each goroutine is, and the log. -/
structure World where
  store : Resources
  updateMux : Option Nat
  updating : Bool
  pc : Nat → UpdatePc
  log : List Entry

/-- An atomic move of the goroutine `t`: `updateMux.Lock()`; `u.updating = true`; the end of
the declare step with no store access (skipped by its flag, or an object did not convert);
`getObjectMap` in `Resources.Update`; `deletesAllNamespaces` and, when it passed,
`setObjectMap`; the return of `update`, after which the errors are prepended; the deferred
`u.updating = false`; the deferred `updateMux.Unlock()`; and the `getObjectMap` of a reader
(`Get`, `DeclaredObjects`, `DeclaredUnstructureds` or `DeclaredGVKs`), which then reads only
what it sampled. -/
inductive Move where
  | lock (t : Nat)
  | setUpdating (t : Nat)
  | skipDeclare (t : Nat)
  | sample (t : Nat)
  | install (t : Nat)
  | finish (t : Nat)
  | clearUpdating (t : Nat)
  | unlock (t : Nat)
  | read (t : Nat)

/-- The state before any move: the empty store, `updateMux` free, every goroutine waiting. -/
def World.init : World := ⟨Resources.empty, none, false, fun _ => .waiting, []⟩

/-- The goroutine `t` moves to `p`. -/
def World.setPc (w : World) (t : Nat) (p : UpdatePc) : World :=
  { w with pc := Function.update w.pc t p }

section world

variable (asUnstructuredSanitized : Object → Except String Object)
  (deletesAllNamespaces : Option (OrderedMap ID Object) → OrderedMap ID Object → Option Error)
  (calls : Nat → UpdateCall)

/-- One move, when the goroutine can make it, and `none` when it is blocked. -/
def World.step (w : World) : Move → Option World
  | .lock t =>
    match w.pc t, w.updateMux with
    | .waiting, none => some { w.setPc t .locked with updateMux := some t }
    | _, _ => none
  | .setUpdating t =>
    match w.pc t with
    | .locked => some { w.setPc t (.running false) with updating := true }
    | _ => none
  | .skipDeclare t =>
    match w.pc t with
    | .running false => some (w.setPc t (.running true))
    | _ => none
  | .sample t =>
    match w.pc t, buildNewSet asUnstructuredSanitized (calls t).objects with
    | .running false, .ok newSet => some (w.setPc t (.sampled w.store newSet))
    | _, _ => none
  | .install t =>
    match w.pc t with
    | .sampled previous newSet =>
      match deletesAllNamespaces previous.objectMap newSet with
      | some _ => some (w.setPc t (.running true))
      | none =>
        let store := w.store.setObjectMap newSet (calls t).commit
        some { w.setPc t (.running true) with
          store, log := w.log ++ [.install t previous w.store store] }
    | _ => none
  | .finish t =>
    match w.pc t with
    | .running true => some (w.setPc t .prepending)
    | _ => none
  | .clearUpdating t =>
    match w.pc t with
    | .prepending => some { w.setPc t .deferred with updating := false }
    | _ => none
  | .unlock t =>
    match w.pc t with
    | .deferred => some { w.setPc t .returned with updateMux := none }
    | _ => none
  | .read t => some { w with log := w.log ++ [.read t w.store] }

/-- A run of the moves `ms`, in order; a blocked goroutine's move changes nothing. -/
def World.run (w : World) (ms : List Move) : World :=
  ms.foldl (fun w m => (w.step asUnstructuredSanitized deletesAllNamespaces calls m).getD w) w

/-! ## The invariant -/

/-- The store `snapshot` is the initial one, or one that the log shows installed whole over
the store its `Resources.Update` sampled. -/
def Installed (log : List Entry) (snapshot : Resources) : Prop :=
  snapshot = Resources.empty ∨ ∃ t previous, .install t previous previous snapshot ∈ log

theorem Installed.append {log : List Entry} {snapshot : Resources} (h : Installed log snapshot)
    (es : List Entry) : Installed (log ++ es) snapshot :=
  h.imp_right fun ⟨t, previous, hi⟩ => ⟨t, previous, List.mem_append_left _ hi⟩

/-- The invariant of every interleaving: a goroutine holds `updateMux` exactly when the mutex
names it; `updating` is set exactly while a goroutine is between its `u.updating = true` and
its deferred `u.updating = false`; a `Resources.Update`, between its `getObjectMap` and its
`setObjectMap`, finds the store as it sampled it, and will install the map built from its
objects; the store is the initial one or one installed over the store that was sampled; each
install replaced the store it sampled, with what the sequential `Resources.Update` returns on
that store; and each reader sampled the initial store or an installed one. -/
structure Safe (w : World) : Prop where
  mutex : ∀ t, (w.pc t).HoldsLock ↔ w.updateMux = some t
  updating : w.updating = true ↔ ∃ t, (w.pc t).Flagged
  sampled : ∀ t previous newSet, w.pc t = .sampled previous newSet →
    w.store = previous ∧ buildNewSet asUnstructuredSanitized (calls t).objects = .ok newSet
  store : Installed w.log w.store
  installs : ∀ t sampled replaced installed, .install t sampled replaced installed ∈ w.log →
    sampled = replaced ∧
      (sampled.Update asUnstructuredSanitized deletesAllNamespaces (calls t).objects
        (calls t).commit (calls t).oldCommit).err = none ∧
      (sampled.Update asUnstructuredSanitized deletesAllNamespaces (calls t).objects
        (calls t).commit (calls t).oldCommit).resources = installed
  reads : ∀ t snapshot, .read t snapshot ∈ w.log → Installed w.log snapshot

/-- Everything a move that fires can do, with its guard. -/
inductive Fires (w : World) : World → Prop where
  | lock (t : Nat) (hp : w.pc t = .waiting) (hm : w.updateMux = none) :
    Fires w { w.setPc t .locked with updateMux := some t }
  | setUpdating (t : Nat) (hp : w.pc t = .locked) :
    Fires w { w.setPc t (.running false) with updating := true }
  | skipDeclare (t : Nat) (hp : w.pc t = .running false) : Fires w (w.setPc t (.running true))
  | sample (t : Nat) (newSet : OrderedMap ID Object) (hp : w.pc t = .running false)
    (hb : buildNewSet asUnstructuredSanitized (calls t).objects = .ok newSet) :
    Fires w (w.setPc t (.sampled w.store newSet))
  | reject (t : Nat) (previous : Resources) (newSet : OrderedMap ID Object) (e : Error)
    (hp : w.pc t = .sampled previous newSet)
    (hd : deletesAllNamespaces previous.objectMap newSet = some e) :
    Fires w (w.setPc t (.running true))
  | install (t : Nat) (previous : Resources) (newSet : OrderedMap ID Object)
    (hp : w.pc t = .sampled previous newSet)
    (hd : deletesAllNamespaces previous.objectMap newSet = none) :
    Fires w { w.setPc t (.running true) with
      store := w.store.setObjectMap newSet (calls t).commit,
      log := w.log ++ [.install t previous w.store (w.store.setObjectMap newSet (calls t).commit)] }
  | finish (t : Nat) (hp : w.pc t = .running true) : Fires w (w.setPc t .prepending)
  | clearUpdating (t : Nat) (hp : w.pc t = .prepending) :
    Fires w { w.setPc t .deferred with updating := false }
  | unlock (t : Nat) (hp : w.pc t = .deferred) :
    Fires w { w.setPc t .returned with updateMux := none }
  | read (t : Nat) : Fires w { w with log := w.log ++ [.read t w.store] }

/-! ## The sequential store -/

/-- The goroutines whose `Resources.Update` installed a store, in the order of the log. -/
def installers (log : List Entry) : List Nat :=
  log.filterMap fun
    | .install t .. => some t
    | .read .. => none

@[simp]
theorem installers_append (l₁ l₂ : List Entry) :
    installers (l₁ ++ l₂) = installers l₁ ++ installers l₂ :=
  List.filterMap_append _ _ _

@[simp]
theorem installers_install (t : Nat) (sampled replaced installed : Resources) :
    installers [.install t sampled replaced installed] = [t] := rfl

@[simp]
theorem installers_read (t : Nat) (snapshot : Resources) : installers [.read t snapshot] = [] :=
  rfl

/-- The sequential store: from `s`, the `Resources.Update` calls of the goroutines `ts`, run one
after another with nothing between them and each passing on the store the one before it left,
end at `s'`. -/
def SequentialRun : Resources → List Nat → Resources → Prop
  | s, [], s' => s' = s
  | s, t :: ts, s' =>
    (s.Update asUnstructuredSanitized deletesAllNamespaces (calls t).objects (calls t).commit
      (calls t).oldCommit).err = none ∧
    SequentialRun (s.Update asUnstructuredSanitized deletesAllNamespaces (calls t).objects
      (calls t).commit (calls t).oldCommit).resources ts s'

/-- The goroutine is past its declare step. -/
def UpdatePc.PastDeclare : UpdatePc → Prop
  | .running true | .prepending | .deferred | .returned => True
  | _ => False

/-- The linear view of a run: the store, and the store each reader sampled, are the sequential
store after the installs logged before them, and no goroutine installs twice. -/
structure Linear (w : World) : Prop where
  store : SequentialRun asUnstructuredSanitized deletesAllNamespaces calls Resources.empty
    (installers w.log) w.store
  reads : ∀ pre t snapshot post, w.log = pre ++ .read t snapshot :: post →
    SequentialRun asUnstructuredSanitized deletesAllNamespaces calls Resources.empty
      (installers pre) snapshot
  pastDeclare : ∀ t ∈ installers w.log, (w.pc t).PastDeclare
  nodup : (installers w.log).Nodup

theorem safe_init : Safe asUnstructuredSanitized deletesAllNamespaces calls World.init :=
  ⟨fun _ => by simp [World.init, UpdatePc.HoldsLock], by simp [World.init, UpdatePc.Flagged],
    fun _ _ _ h => (by cases h), .inl rfl, fun _ _ _ _ h => (by cases h),
    fun _ _ h => (by cases h)⟩

@[simp]
theorem setPc_pc (w : World) (t u : Nat) (p : UpdatePc) :
    (w.setPc t p).pc u = if u = t then p else w.pc u := by
  simp [World.setPc, Function.update_apply]

variable {asUnstructuredSanitized deletesAllNamespaces calls} {w : World} {t : Nat}

/-- Only one goroutine holds `updateMux`. -/
theorem eq_of_holdsLock (h : Safe asUnstructuredSanitized deletesAllNamespaces calls w)
    {u : Nat} (ht : (w.pc t).HoldsLock) (hu : (w.pc u).HoldsLock) : t = u :=
  Option.some_injective _ (((h.mutex t).mp ht).symm.trans ((h.mutex u).mp hu))

/-- A move of `t` from one place that holds `updateMux` to another. -/
theorem mutex_setPc (h : Safe asUnstructuredSanitized deletesAllNamespaces calls w)
    (ht : (w.pc t).HoldsLock) {p : UpdatePc} (hp : p.HoldsLock) (u : Nat) :
    ((w.setPc t p).pc u).HoldsLock ↔ w.updateMux = some u := by
  by_cases hu : u = t
  · subst hu
    simp only [setPc_pc, if_true]
    exact ⟨fun _ => (h.mutex u).mp ht, fun _ => hp⟩
  · simp only [setPc_pc, hu, if_false]
    exact h.mutex u

/-- A move of `t` between two places on the same side of the flag. -/
theorem flagged_setPc {p : UpdatePc} (hf : (w.pc t).Flagged ↔ p.Flagged) :
    (∃ u, ((w.setPc t p).pc u).Flagged) ↔ ∃ u, (w.pc u).Flagged := by
  refine exists_congr fun u => ?_
  by_cases he : u = t
  · subst he
    simpa using hf.symm
  · simp [he]

/-- A move of `t` to a place outside `Resources.Update` keeps every sampled store. -/
theorem sampled_setPc (h : Safe asUnstructuredSanitized deletesAllNamespaces calls w)
    {p : UpdatePc} (hp : ∀ previous newSet, p ≠ .sampled previous newSet) :
    ∀ u previous newSet, (w.setPc t p).pc u = .sampled previous newSet →
      w.store = previous ∧
        buildNewSet asUnstructuredSanitized (calls u).objects = .ok newSet := by
  intro u previous newSet hu
  by_cases he : u = t
  · subst he
    simp only [setPc_pc, if_true] at hu
    exact absurd hu (hp _ _)
  · simp only [setPc_pc, he, if_false] at hu
    exact h.sampled u previous newSet hu

/-! ## The moves keep the invariant -/

/-- A move of `t` that keeps it flagged, to a place outside `Resources.Update`. -/
theorem safe_setPc (h : Safe asUnstructuredSanitized deletesAllNamespaces calls w)
    (ht : (w.pc t).Flagged) {p : UpdatePc} (hp : p.Flagged)
    (hs : ∀ previous newSet, p ≠ .sampled previous newSet) :
    Safe asUnstructuredSanitized deletesAllNamespaces calls (w.setPc t p) :=
  ⟨mutex_setPc h ht.holdsLock hp.holdsLock,
    h.updating.trans (flagged_setPc (iff_of_true ht hp)).symm,
    sampled_setPc h hs, h.store, h.installs, h.reads⟩

theorem safe_lock (h : Safe asUnstructuredSanitized deletesAllNamespaces calls w)
    (hp : w.pc t = .waiting) (hm : w.updateMux = none) :
    Safe asUnstructuredSanitized deletesAllNamespaces calls
      { w.setPc t .locked with updateMux := some t } := by
  refine ⟨fun u => ?_, h.updating.trans (flagged_setPc (by simp [hp, UpdatePc.Flagged])).symm,
    sampled_setPc h (by simp), h.store, h.installs, h.reads⟩
  by_cases hu : u = t
  · simp [hu, UpdatePc.HoldsLock]
  · simpa [hu, hm, Ne.symm hu] using h.mutex u

theorem safe_setUpdating (h : Safe asUnstructuredSanitized deletesAllNamespaces calls w)
    (hp : w.pc t = .locked) :
    Safe asUnstructuredSanitized deletesAllNamespaces calls
      { w.setPc t (.running false) with updating := true } :=
  ⟨mutex_setPc h (by simp [hp, UpdatePc.HoldsLock]) trivial,
    iff_of_true rfl ⟨t, by simp [UpdatePc.Flagged]⟩, sampled_setPc h (by simp), h.store,
    h.installs, h.reads⟩

theorem safe_sample (h : Safe asUnstructuredSanitized deletesAllNamespaces calls w)
    (hp : w.pc t = .running false) {newSet : OrderedMap ID Object}
    (hb : buildNewSet asUnstructuredSanitized (calls t).objects = .ok newSet) :
    Safe asUnstructuredSanitized deletesAllNamespaces calls (w.setPc t (.sampled w.store newSet)) := by
  refine ⟨mutex_setPc h (by simp [hp, UpdatePc.HoldsLock]) trivial,
    h.updating.trans (flagged_setPc (by simp [hp, UpdatePc.Flagged])).symm,
    fun u previous newSet' hu => ?_, h.store, h.installs, h.reads⟩
  by_cases he : u = t
  · subst he
    simp only [setPc_pc, if_true, UpdatePc.sampled.injEq] at hu
    obtain ⟨rfl, rfl⟩ := hu
    exact ⟨rfl, hb⟩
  · simp only [setPc_pc, he, if_false] at hu
    exact h.sampled u previous newSet' hu

theorem safe_install (h : Safe asUnstructuredSanitized deletesAllNamespaces calls w)
    {previous : Resources} {newSet : OrderedMap ID Object}
    (hp : w.pc t = .sampled previous newSet)
    (hd : deletesAllNamespaces previous.objectMap newSet = none) :
    Safe asUnstructuredSanitized deletesAllNamespaces calls
      { w.setPc t (.running true) with
        store := w.store.setObjectMap newSet (calls t).commit,
        log := w.log ++ [.install t previous w.store (w.store.setObjectMap newSet (calls t).commit)] } := by
  obtain ⟨hs, hb⟩ := h.sampled t previous newSet hp
  have ht : (w.pc t).Flagged := by simp [hp, UpdatePc.Flagged]
  refine ⟨mutex_setPc h ht.holdsLock trivial,
    h.updating.trans (flagged_setPc (iff_of_true ht (show UpdatePc.Flagged (.running true) from
      trivial))).symm,
    fun u previous' newSet' hu => ?_, .inr ⟨t, previous, by simp [hs]⟩,
    fun u sampled replaced installed hi => ?_, fun u snapshot hr => ?_⟩
  · by_cases he : u = t
    · simp [he] at hu
    · simp only [setPc_pc, he, if_false] at hu
      exact absurd (eq_of_holdsLock h (by simp [hu, UpdatePc.HoldsLock]) ht.holdsLock) he
  · rcases List.mem_append.mp hi with hi | hi
    · exact h.installs u sampled replaced installed hi
    · simp only [List.mem_singleton, Entry.install.injEq] at hi
      obtain ⟨rfl, rfl, rfl, rfl⟩ := hi
      obtain ⟨he, hr⟩ := update_of_buildNewSet asUnstructuredSanitized deletesAllNamespaces sampled
        (calls u).objects (calls u).commit (calls u).oldCommit newSet hb hd
      exact ⟨hs.symm, he, hr⟩
  · rcases List.mem_append.mp hr with hr | hr
    · exact (h.reads u snapshot hr).append _
    · simp at hr

/-- The deferred `u.updating = false`: no other goroutine is flagged, since it would hold
`updateMux` too. -/
theorem safe_clearUpdating (h : Safe asUnstructuredSanitized deletesAllNamespaces calls w)
    (hp : w.pc t = .prepending) :
    Safe asUnstructuredSanitized deletesAllNamespaces calls
      { w.setPc t .deferred with updating := false } := by
  have ht : (w.pc t).HoldsLock := by simp [hp, UpdatePc.HoldsLock]
  refine ⟨mutex_setPc h ht trivial, iff_of_false (by simp) ?_, sampled_setPc h (by simp),
    h.store, h.installs, h.reads⟩
  rintro ⟨u, hu⟩
  by_cases he : u = t
  · simp [he, UpdatePc.Flagged] at hu
  · simp only [setPc_pc, he, if_false] at hu
    exact he (eq_of_holdsLock h hu.holdsLock ht)

theorem safe_unlock (h : Safe asUnstructuredSanitized deletesAllNamespaces calls w)
    (hp : w.pc t = .deferred) :
    Safe asUnstructuredSanitized deletesAllNamespaces calls
      { w.setPc t .returned with updateMux := none } := by
  have hm := (h.mutex t).mp (by simp [hp, UpdatePc.HoldsLock])
  refine ⟨fun u => ?_, h.updating.trans (flagged_setPc (by simp [hp, UpdatePc.Flagged])).symm,
    sampled_setPc h (by simp), h.store, h.installs, h.reads⟩
  by_cases he : u = t
  · simp [he, UpdatePc.HoldsLock]
  · simpa [he, hm, Ne.symm he] using h.mutex u

theorem safe_read (h : Safe asUnstructuredSanitized deletesAllNamespaces calls w) :
    Safe asUnstructuredSanitized deletesAllNamespaces calls
      { w with log := w.log ++ [.read t w.store] } := by
  refine ⟨h.mutex, h.updating, h.sampled, h.store.append _,
    fun u sampled replaced installed hi => ?_, fun u snapshot hr => ?_⟩
  · rcases List.mem_append.mp hi with hi | hi
    · exact h.installs u sampled replaced installed hi
    · simp at hi
  · rcases List.mem_append.mp hr with hr | hr
    · exact (h.reads u snapshot hr).append _
    · simp only [List.mem_singleton, Entry.read.injEq] at hr
      obtain ⟨-, rfl⟩ := hr
      exact h.store.append _

/-- Every move that fires, with its guard. -/
theorem step_cases {m : Move} {w' : World}
    (hs : w.step asUnstructuredSanitized deletesAllNamespaces calls m = some w') :
    Fires asUnstructuredSanitized deletesAllNamespaces calls w w' := by
  cases m with
  | read t => cases hs; exact .read t
  | install t =>
    simp only [World.step] at hs
    split at hs
    · rename_i previous newSet hp
      split at hs
      · cases hs; exact .reject t previous newSet _ hp ‹_›
      · cases hs; exact .install t previous newSet hp ‹_›
    · cases hs
  | _ t =>
    simp only [World.step] at hs
    split at hs <;> cases hs
    first
    | exact .lock t ‹_› ‹_› | exact .setUpdating t ‹_› | exact .skipDeclare t ‹_›
    | exact .sample t _ ‹_› ‹_› | exact .finish t ‹_› | exact .clearUpdating t ‹_›
    | exact .unlock t ‹_›

theorem safe_step {m : Move} {w' : World}
    (h : Safe asUnstructuredSanitized deletesAllNamespaces calls w)
    (hs : w.step asUnstructuredSanitized deletesAllNamespaces calls m = some w') :
    Safe asUnstructuredSanitized deletesAllNamespaces calls w' := by
  cases step_cases hs with
  | lock t hp hm => exact safe_lock h hp hm
  | setUpdating t hp => exact safe_setUpdating h hp
  | skipDeclare t hp => exact safe_setPc h (by simp [hp, UpdatePc.Flagged]) trivial (by simp)
  | sample t newSet hp hb => exact safe_sample h hp hb
  | reject t previous newSet e hp hd =>
    exact safe_setPc h (by simp [hp, UpdatePc.Flagged]) trivial (by simp)
  | install t previous newSet hp hd => exact safe_install h hp hd
  | finish t hp => exact safe_setPc h (by simp [hp, UpdatePc.Flagged]) trivial (by simp)
  | clearUpdating t hp => exact safe_clearUpdating h hp
  | unlock t hp => exact safe_unlock h hp
  | read t => exact safe_read h

/-- What every move keeps holds in every world a run reaches. -/
theorem run_induction (P : World → Prop) (h0 : P World.init)
    (hstep : ∀ w m w', P w →
      w.step asUnstructuredSanitized deletesAllNamespaces calls m = some w' → P w')
    (ms : List Move) : P (World.init.run asUnstructuredSanitized deletesAllNamespaces calls ms) := by
  induction ms using List.reverseRecOn with
  | nil => exact h0
  | append_singleton ms m ih =>
    rw [World.run, List.foldl_append, List.foldl_cons, List.foldl_nil, ← World.run]
    rcases hs : (World.init.run asUnstructuredSanitized deletesAllNamespaces calls ms).step
      asUnstructuredSanitized deletesAllNamespaces calls m with _ | w'
    · exact ih
    · exact hstep _ m w' ih hs

theorem safe_run (ms : List Move) :
    Safe asUnstructuredSanitized deletesAllNamespaces calls
      (World.init.run asUnstructuredSanitized deletesAllNamespaces calls ms) :=
  run_induction _ (safe_init asUnstructuredSanitized deletesAllNamespaces calls)
    (fun _ _ _ h hs => safe_step h hs) ms

/-! ## The moves keep the linear view -/

theorem sequentialRun_snoc {s s' : Resources} {ts : List Nat}
    (h : SequentialRun asUnstructuredSanitized deletesAllNamespaces calls s ts s')
    (ht : (s'.Update asUnstructuredSanitized deletesAllNamespaces (calls t).objects
      (calls t).commit (calls t).oldCommit).err = none) :
    SequentialRun asUnstructuredSanitized deletesAllNamespaces calls s (ts ++ [t])
      (s'.Update asUnstructuredSanitized deletesAllNamespaces (calls t).objects
        (calls t).commit (calls t).oldCommit).resources := by
  induction ts generalizing s with
  | nil =>
    cases (h : s' = s)
    exact ⟨ht, rfl⟩
  | cons u ts ih => exact ⟨h.1, ih h.2⟩

/-- A split of a log that grew by `e` at a read is the new entry or a split of the old log. -/
theorem split_snoc {log pre post : List Entry} {e x : Entry}
    (h : log ++ [e] = pre ++ x :: post) : (pre = log ∧ x = e) ∨ ∃ post', log = pre ++ x :: post' := by
  rcases List.eq_nil_or_concat post with rfl | ⟨post', y, rfl⟩
  · obtain ⟨h1, h2⟩ := List.append_inj' h rfl
    exact .inl ⟨h1.symm, (List.singleton_inj.mp h2).symm⟩
  · rw [List.concat_eq_append, ← List.cons_append, ← List.append_assoc] at h
    exact .inr ⟨post', (List.append_inj' h rfl).1⟩

theorem linear_init : Linear asUnstructuredSanitized deletesAllNamespaces calls World.init :=
  ⟨rfl, fun pre _ _ _ h => by simp [World.init] at h, fun _ h => absurd h (List.not_mem_nil _),
    List.nodup_nil⟩

/-- A move of `t` to a place past its declare step, or of a goroutine that has not installed,
keeps every installer past its declare step. -/
theorem pastDeclare_setPc {l : List Nat} (h : ∀ u ∈ l, (w.pc u).PastDeclare) {p : UpdatePc}
    (hp : p.PastDeclare ∨ t ∉ l) : ∀ u ∈ l, ((w.setPc t p).pc u).PastDeclare := by
  intro u hu
  by_cases he : u = t
  · subst he
    simpa using hp.resolve_right (not_not_intro hu)
  · simpa [he] using h u hu

/-- A move of `t` that leaves the log and the store alone keeps the linear view, when it moves
`t` past its declare step or `t` has not installed yet. -/
theorem linear_setPc (hl : Linear asUnstructuredSanitized deletesAllNamespaces calls w)
    {p : UpdatePc} {w' : World} (hlog : w'.log = w.log) (hstore : w'.store = w.store)
    (hpc : w'.pc = (w.setPc t p).pc) (hp : p.PastDeclare ∨ ¬(w.pc t).PastDeclare) :
    Linear asUnstructuredSanitized deletesAllNamespaces calls w' := by
  refine ⟨by rw [hlog, hstore]; exact hl.store, by rw [hlog]; exact hl.reads, ?_,
    by rw [hlog]; exact hl.nodup⟩
  rw [hlog, hpc]
  exact pastDeclare_setPc hl.pastDeclare (hp.imp_right fun hn hu => hn (hl.pastDeclare _ hu))

theorem linear_step {m : Move} {w' : World}
    (h : Safe asUnstructuredSanitized deletesAllNamespaces calls w)
    (hl : Linear asUnstructuredSanitized deletesAllNamespaces calls w)
    (hs : w.step asUnstructuredSanitized deletesAllNamespaces calls m = some w') :
    Linear asUnstructuredSanitized deletesAllNamespaces calls w' := by
  cases step_cases hs with
  | lock t hp | setUpdating t hp | sample t _ hp =>
    exact linear_setPc hl rfl rfl rfl (.inr (by simp [hp, UpdatePc.PastDeclare]))
  | skipDeclare t => exact linear_setPc hl rfl rfl rfl (.inl trivial)
  | reject t => exact linear_setPc hl rfl rfl rfl (.inl trivial)
  | finish t => exact linear_setPc hl rfl rfl rfl (.inl trivial)
  | clearUpdating t => exact linear_setPc hl rfl rfl rfl (.inl trivial)
  | unlock t => exact linear_setPc hl rfl rfl rfl (.inl trivial)
  | install t previous newSet hp hd =>
    obtain ⟨hs', hb⟩ := h.sampled t previous newSet hp
    subst hs'
    obtain ⟨he, hr⟩ := update_of_buildNewSet asUnstructuredSanitized deletesAllNamespaces w.store
      (calls t).objects (calls t).commit (calls t).oldCommit newSet hb hd
    have ht : t ∉ installers w.log := fun hu => by
      simpa [hp, UpdatePc.PastDeclare] using hl.pastDeclare t hu
    refine ⟨?_, fun pre u snapshot post hlog => ?_, fun u hu => ?_, ?_⟩
    · simp only [installers_append, installers_install]
      rw [← hr]
      exact sequentialRun_snoc hl.store he
    · rcases split_snoc hlog with ⟨-, hx⟩ | ⟨post', hlog'⟩
      · cases hx
      · exact hl.reads pre u snapshot post' hlog'
    · simp only [installers_append, installers_install, List.mem_append, List.mem_singleton] at hu
      by_cases he : u = t
      · simp [he, UpdatePc.PastDeclare]
      · simpa [he] using hl.pastDeclare u (hu.resolve_right he)
    · simpa [List.nodup_append] using ⟨hl.nodup, ht⟩
  | read t =>
    refine ⟨by simpa using hl.store, fun pre u snapshot post hlog => ?_,
      by simpa using hl.pastDeclare, by simpa using hl.nodup⟩
    rcases split_snoc hlog with ⟨rfl, hx⟩ | ⟨post', hlog'⟩
    · cases hx
      exact hl.store
    · exact hl.reads pre u snapshot post' hlog'

variable (asUnstructuredSanitized deletesAllNamespaces calls)

/-- Over every interleaving of `Update` calls and readers of the store, each mutex-protected
section one atomic move: (i) at most one goroutine is in `update`; (ii) a `Resources.Update`,
between its `getObjectMap` and its `setObjectMap`, finds the store as it sampled it, so each
install replaces exactly the store its namespace check was made against, with what the
sequential `Resources.Update` returns on that store; (iii) every reader samples, in one move,
the initial empty store or one store that an install put there whole. -/
theorem cycles_are_serialized_and_readers_see_one_snapshot (ms : List Move) :
    (∀ t u, ((World.init.run asUnstructuredSanitized deletesAllNamespaces calls ms).pc t).InUpdate →
      ((World.init.run asUnstructuredSanitized deletesAllNamespaces calls ms).pc u).InUpdate →
      t = u) ∧
    (∀ t previous newSet,
      (World.init.run asUnstructuredSanitized deletesAllNamespaces calls ms).pc t =
        .sampled previous newSet →
      (World.init.run asUnstructuredSanitized deletesAllNamespaces calls ms).store = previous) ∧
    (∀ t sampled replaced installed, .install t sampled replaced installed ∈
        (World.init.run asUnstructuredSanitized deletesAllNamespaces calls ms).log →
      sampled = replaced ∧
      (sampled.Update asUnstructuredSanitized deletesAllNamespaces (calls t).objects
        (calls t).commit (calls t).oldCommit).err = none ∧
      (sampled.Update asUnstructuredSanitized deletesAllNamespaces (calls t).objects
        (calls t).commit (calls t).oldCommit).resources = installed) ∧
    (∀ t snapshot, .read t snapshot ∈
        (World.init.run asUnstructuredSanitized deletesAllNamespaces calls ms).log →
      snapshot = Resources.empty ∨ ∃ t' previous, .install t' previous previous snapshot ∈
        (World.init.run asUnstructuredSanitized deletesAllNamespaces calls ms).log) := by
  have h := @safe_run asUnstructuredSanitized deletesAllNamespaces calls ms
  exact ⟨fun t u ht hu => eq_of_holdsLock h ht.flagged.holdsLock hu.flagged.holdsLock,
    fun t previous newSet hp => (h.sampled t previous newSet hp).1, h.installs, h.reads⟩

/-- `Updating()` reads a flag that `Update` sets after it takes `updateMux` and clears, in its
deferred func, before it releases it: over every interleaving the flag is set while an `Update`
call is inside `update`, it is clear while the holder of `updateMux` is before the set or in the
deferred func, and when it is set the goroutine that set it still holds `updateMux`. -/
theorem updating_is_set_while_an_update_is_running (ms : List Move) :
    (∀ t, ((World.init.run asUnstructuredSanitized deletesAllNamespaces calls ms).pc t).InUpdate →
      (World.init.run asUnstructuredSanitized deletesAllNamespaces calls ms).updating = true) ∧
    (∀ t, (World.init.run asUnstructuredSanitized deletesAllNamespaces calls ms).pc t = .locked ∨
        (World.init.run asUnstructuredSanitized deletesAllNamespaces calls ms).pc t = .deferred →
      (World.init.run asUnstructuredSanitized deletesAllNamespaces calls ms).updating = false) ∧
    ((World.init.run asUnstructuredSanitized deletesAllNamespaces calls ms).updating = true →
      ∃ t, (World.init.run asUnstructuredSanitized deletesAllNamespaces calls ms).updateMux =
        some t ∧
        ((World.init.run asUnstructuredSanitized deletesAllNamespaces calls ms).pc t).Flagged) := by
  have h := @safe_run asUnstructuredSanitized deletesAllNamespaces calls ms
  generalize World.init.run asUnstructuredSanitized deletesAllNamespaces calls ms = w at h ⊢
  refine ⟨fun t ht => h.updating.mpr ⟨t, ht.flagged⟩, fun t ht => ?_,
    fun hu => (h.updating.mp hu).imp fun t ht => ⟨(h.mutex t).mp ht.holdsLock, ht⟩⟩
  have hl : (w.pc t).HoldsLock := by rcases ht with ht | ht <;> simp [ht, UpdatePc.HoldsLock]
  rw [Bool.eq_false_iff]
  intro hu
  obtain ⟨u, hf⟩ := h.updating.mp hu
  cases eq_of_holdsLock h hf.holdsLock hl
  rcases ht with ht | ht <;> simp [ht, UpdatePc.Flagged] at hf

/-- Over every interleaving, the installs of `Update` calls are linearizable: the store is
what the `Resources.Update` calls that installed give when run one after another from the empty
store, in the order they installed, each passing on the store the one before it left, so no
install is lost or made over a stale store; every reader sampled that sequential store after
the installs logged before its read; and no `Update` call installs twice. -/
theorem the_store_is_the_sequential_run_of_its_installs (ms : List Move) :
    SequentialRun asUnstructuredSanitized deletesAllNamespaces calls Resources.empty
        (installers (World.init.run asUnstructuredSanitized deletesAllNamespaces calls ms).log)
        (World.init.run asUnstructuredSanitized deletesAllNamespaces calls ms).store ∧
      (∀ pre t snapshot post,
        (World.init.run asUnstructuredSanitized deletesAllNamespaces calls ms).log =
          pre ++ .read t snapshot :: post →
        SequentialRun asUnstructuredSanitized deletesAllNamespaces calls Resources.empty
          (installers pre) snapshot) ∧
      (installers (World.init.run asUnstructuredSanitized deletesAllNamespaces calls ms).log).Nodup := by
  have h := run_induction
    (fun w => Safe asUnstructuredSanitized deletesAllNamespaces calls w ∧
      Linear asUnstructuredSanitized deletesAllNamespaces calls w)
    ⟨safe_init asUnstructuredSanitized deletesAllNamespaces calls,
      linear_init⟩
    (fun _ _ _ h hs => ⟨safe_step h.1 hs, linear_step h.1 h.2 hs⟩) ms
  exact ⟨h.2.store, h.2.reads, h.2.nodup⟩

end world

end config_sync.parse
