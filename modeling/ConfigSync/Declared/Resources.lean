import Mathlib.Data.List.ReduceOption
import ConfigSync.Core
import ConfigSync.OrderedMap
-- `declared.Resources`, the store of the declared objects (`pkg/declared/resources.go`).
-- `Update` builds a whole new map and installs it with its commit in one step, or leaves
-- the store as it was; the four readers all read the one map that is installed.

namespace config_sync.declared

open config_sync.core config_sync.orderedmap

/-! ## The store -/

/-- A call of `pkg/metrics/record.go` that `Update` makes, with its arguments:
`RecordInternalError(ctx, source)` and `RecordDeclaredResources(ctx, commit, n)`. The rows
these calls reach are `config_sync.metrics.View.row`. -/
inductive Measurement where
  | internalErrors (source : String)
  | declaredResources (commit : String) (n : Nat)
deriving DecidableEq, Repr

/-- `declared.Resources`: the map of the declared objects, `nil` before the first install,
and the commit of the source they were declared in. -/
structure Resources where
  objectMap : Option (OrderedMap ID Object)
  commit : String

/-- The store before any `Update`: Go's zero value. -/
def Resources.empty : Resources := ⟨none, ""⟩

/-- `getObjectMap`, under the read lock. -/
def Resources.getObjectMap (r : Resources) : Option (OrderedMap ID Object) × String :=
  (r.objectMap, r.commit)

/-- `setObjectMap`, under the write lock: the map and the commit are replaced together. -/
def Resources.setObjectMap (_r : Resources) (objectMap : OrderedMap ID Object)
    (commit : String) : Resources :=
  ⟨some objectMap, commit⟩

/-- What `Update` returns, the store after it, and what it recorded, in order. -/
structure UpdateResult where
  accepted : List Object
  err : Option Error
  resources : Resources
  recorded : List Measurement

section update

variable (asUnstructuredSanitized : Object → Except String Object)

/-- The loop of `Update`, from the map, the accepted objects and the measurements so far: a
`nil` object is counted and skipped, and the first object that does not convert ends the
loop with an internal error. -/
def updateLoop : List (Option Object) → OrderedMap ID Object → List Object →
    List Measurement → Except Error (OrderedMap ID Object × List Object) × List Measurement
  | [], newSet, newObjects, ms => (.ok (newSet, newObjects), ms)
  | none :: objects, newSet, newObjects, ms =>
    updateLoop objects newSet newObjects (ms ++ [.internalErrors "parser"])
  | some obj :: objects, newSet, newObjects, ms =>
    match asUnstructuredSanitized obj with
    | .error err => (.error (.internalError err (IDOf obj)), ms)
    | .ok u => updateLoop objects (newSet.Set (IDOf obj) u) (newObjects ++ [obj]) ms

/-- `Resources.Update`. The namespace check `deletesAllNamespaces` is not in the source; it
is a parameter, given the previous map and the new one. -/
def Resources.Update
    (deletesAllNamespaces : Option (OrderedMap ID Object) → OrderedMap ID Object → Option Error)
    (r : Resources) (objects : List (Option Object)) (commit oldCommit : String) :
    UpdateResult :=
  match updateLoop asUnstructuredSanitized objects NewOrderedMap [] [] with
  | (.error err, ms) => ⟨[], some err, r, ms⟩
  | (.ok (newSet, newObjects), ms) =>
    -- Record the declared_resources metric, after parsing but before validation.
    let ms := ms ++ [.declaredResources commit newObjects.length]
    -- Reset the stream of the previous commit to 0.
    let ms := if oldCommit ≠ commit ∧ oldCommit ≠ "" then
      ms ++ [.declaredResources oldCommit 0] else ms
    match deletesAllNamespaces r.getObjectMap.1 newSet with
    | some err => ⟨[], some err, r, ms⟩
    | none => ⟨newObjects, none, r.setObjectMap newSet commit, ms⟩

/-- The map `Update` builds from `objects`, when every object converts. -/
def buildNewSet (objects : List (Option Object)) : Except Error (OrderedMap ID Object) :=
  (updateLoop asUnstructuredSanitized objects NewOrderedMap [] []).1.map Prod.fst

end update

/-! ## The readers -/

/-- The shape of the four readers: sample the map and the commit; a `nil` or empty map gives
`zero`, any other map is read by `f`. -/
def Resources.read {α : Type} (r : Resources) (zero : α) (f : OrderedMap ID Object → α) :
    α × String :=
  match r.getObjectMap with
  | (none, commit) => (zero, commit)
  | (some objSet, commit) => if objSet.Len = 0 then (zero, commit) else (f objSet, commit)

/-- `Get`: a copy of the object of `id`, the commit, and whether `id` was found. -/
def Resources.Get (r : Resources) (id : ID) : Option Object × String × Bool :=
  let (u, commit) := r.read (none, false) fun objSet => (objSet.Get id, (objSet.Get id).isSome)
  (u.1, commit, u.2)

/-- `DeclaredUnstructureds`. -/
def Resources.DeclaredUnstructureds (r : Resources) : List Object × String :=
  r.read [] OrderedMap.values

/-- `DeclaredObjects`. -/
def Resources.DeclaredObjects (r : Resources) : List Object × String :=
  r.read [] OrderedMap.values

/-- The set of the GroupVersionKinds of the values of a map, as the loop of `DeclaredGVKs`
fills its Go map. -/
def gvkSet (objSet : OrderedMap ID Object) : List GroupVersionKind :=
  objSet.values.foldl (fun s u => s.insert u.gvk) []

/-- `DeclaredGVKs`. -/
def Resources.DeclaredGVKs (r : Resources) : List GroupVersionKind × String :=
  r.read [] gvkSet

/-! ## The readers on an installed map -/

theorem read_some {α : Type} (m : OrderedMap ID Object) (c : String) (zero : α)
    (f : OrderedMap ID Object → α) (hf : m.pairs = [] → f m = zero) :
    (⟨some m, c⟩ : Resources).read zero f = (f m, c) := by
  simp only [Resources.read, Resources.getObjectMap]
  split_ifs with h
  · rw [hf (List.eq_nil_of_length_eq_zero h)]
  · rfl

@[simp]
theorem declaredObjects_some (m : OrderedMap ID Object) (c : String) :
    (⟨some m, c⟩ : Resources).DeclaredObjects = (m.values, c) :=
  read_some m c [] _ fun h => by simp [OrderedMap.values, h]

@[simp]
theorem declaredUnstructureds_some (m : OrderedMap ID Object) (c : String) :
    (⟨some m, c⟩ : Resources).DeclaredUnstructureds = (m.values, c) :=
  read_some m c [] _ fun h => by simp [OrderedMap.values, h]

@[simp]
theorem declaredGVKs_some (m : OrderedMap ID Object) (c : String) :
    (⟨some m, c⟩ : Resources).DeclaredGVKs = (gvkSet m, c) :=
  read_some m c [] _ fun h => by simp [gvkSet, OrderedMap.values, h]

@[simp]
theorem get_some (m : OrderedMap ID Object) (c : String) (id : ID) :
    (⟨some m, c⟩ : Resources).Get id = (m.Get id, c, (m.Get id).isSome) := by
  simp only [Resources.Get]
  rw [read_some m c _ _ fun h => by simp [OrderedMap.Get, h]]

theorem mem_foldl_insert (l : List Object) (s : List GroupVersionKind) (g : GroupVersionKind) :
    g ∈ l.foldl (fun s u => s.insert u.gvk) s ↔ g ∈ s ∨ ∃ u ∈ l, u.gvk = g := by
  induction l generalizing s with
  | nil => simp
  | cons u l ih =>
    simp only [List.foldl_cons, ih, List.mem_insert_iff, List.mem_cons, or_and_right, exists_or,
      exists_eq_left, @eq_comm _ g, or_assoc, or_left_comm]

theorem nodup_foldl_insert (l : List Object) (s : List GroupVersionKind) (h : s.Nodup) :
    (l.foldl (fun s u => s.insert u.gvk) s).Nodup := by
  induction l generalizing s with
  | nil => exact h
  | cons u l ih => exact ih _ (h.insert)

theorem mem_gvkSet (m : OrderedMap ID Object) (g : GroupVersionKind) :
    g ∈ gvkSet m ↔ ∃ u ∈ m.values, u.gvk = g := by
  simp [gvkSet, mem_foldl_insert]

theorem isSome_lookup {β : Type} (l : List (ID × β)) (k : ID) :
    (l.lookup k).isSome ↔ k ∈ l.map Prod.fst := by
  induction l with
  | nil => simp
  | cons p l ih => by_cases h : k = p.1 <;> simp [lookup_cons_eq, h, ih]

/-! ## The specs -/

/-- The last object of a list with the ID `id`. -/
def lastWithID (objs : List Object) (id : ID) : Option Object :=
  objs.reverse.find? fun o => IDOf o = id

section specs

variable (asUnstructuredSanitized : Object → Except String Object)

/-- An accepted object and the entry the loop sets for it: its ID and its sanitized form. -/
def Sanitized (o : Object) (p : ID × Object) : Prop :=
  p.1 = IDOf o ∧ asUnstructuredSanitized o = .ok p.2

theorem updateLoop_ok (objects : List (Option Object)) (newSet newSet' : OrderedMap ID Object)
    (newObjects newObjects' : List Object) (ms ms' : List Measurement)
    (h : updateLoop asUnstructuredSanitized objects newSet newObjects ms =
      (.ok (newSet', newObjects'), ms')) :
    ∃ ps, List.Forall₂ (Sanitized asUnstructuredSanitized) objects.reduceOption ps ∧
      newSet' = setAll newSet ps ∧ newObjects' = newObjects ++ objects.reduceOption := by
  induction objects generalizing newSet newObjects ms with
  | nil =>
    simp only [updateLoop, Prod.mk.injEq, Except.ok.injEq] at h
    obtain ⟨⟨rfl, rfl⟩, -⟩ := h
    exact ⟨[], .nil, rfl, by simp⟩
  | cons o objects ih =>
    cases o with
    | none => simpa using ih _ _ _ h
    | some obj =>
      simp only [updateLoop] at h
      split at h
      · simp at h
      · rename_i u hu
        obtain ⟨ps, hps, rfl, rfl⟩ := ih _ _ _ h
        exact ⟨(IDOf obj, u) :: ps, .cons ⟨rfl, hu⟩ hps, rfl, by simp⟩

theorem buildNewSet_ok (objects : List (Option Object)) (newSet : OrderedMap ID Object)
    (h : buildNewSet asUnstructuredSanitized objects = .ok newSet) :
    ∃ ps, List.Forall₂ (Sanitized asUnstructuredSanitized) objects.reduceOption ps ∧
      newSet = setAll NewOrderedMap ps := by
  unfold buildNewSet at h
  rcases hl : updateLoop asUnstructuredSanitized objects NewOrderedMap [] [] with ⟨_ | ⟨s, a⟩, ms⟩
  · simp [hl, Except.map] at h
  · simp only [hl, Except.map, Except.ok.injEq] at h
    obtain ⟨ps, hps, rfl, -⟩ := updateLoop_ok asUnstructuredSanitized _ _ _ _ _ _ _ hl
    exact ⟨ps, hps, h.symm⟩

/-- Everything `Update` can do: fail and change nothing, or install the map built from all
of `objects` with `commit` and accept the objects that are not `nil`. -/
theorem update_cases
    (deletesAllNamespaces : Option (OrderedMap ID Object) → OrderedMap ID Object → Option Error)
    (r : Resources) (objects : List (Option Object)) (commit oldCommit : String) :
    let res := r.Update asUnstructuredSanitized deletesAllNamespaces objects commit oldCommit
    (res.err ≠ none ∧ res.accepted = [] ∧ res.resources = r) ∨
    (res.err = none ∧ res.accepted = objects.reduceOption ∧
      ∃ newSet, buildNewSet asUnstructuredSanitized objects = .ok newSet ∧
        res.resources = r.setObjectMap newSet commit) := by
  simp only [Resources.Update, buildNewSet]
  rcases hl : updateLoop asUnstructuredSanitized objects NewOrderedMap [] [] with
    ⟨_ | ⟨newSet, newObjects⟩, ms⟩
  · simp
  · obtain ⟨-, -, -, rfl⟩ := updateLoop_ok asUnstructuredSanitized _ _ _ _ _ _ _ hl
    simp only [List.nil_append]
    split <;> simp [Except.map]

/-- `Update` passes when every object converts and the namespace check accepts the new map
against the map the store holds. -/
theorem update_of_buildNewSet
    (deletesAllNamespaces : Option (OrderedMap ID Object) → OrderedMap ID Object → Option Error)
    (r : Resources) (objects : List (Option Object)) (commit oldCommit : String)
    (newSet : OrderedMap ID Object)
    (hb : buildNewSet asUnstructuredSanitized objects = .ok newSet)
    (hd : deletesAllNamespaces r.objectMap newSet = none) :
    (r.Update asUnstructuredSanitized deletesAllNamespaces objects commit oldCommit).err = none ∧
      (r.Update asUnstructuredSanitized deletesAllNamespaces objects commit oldCommit).resources =
        r.setObjectMap newSet commit := by
  simp only [buildNewSet] at hb
  simp only [Resources.Update]
  rcases hl : updateLoop asUnstructuredSanitized objects NewOrderedMap [] [] with
    ⟨_ | ⟨newSet', newObjects⟩, ms⟩ <;> rw [hl] at hb <;> cases hb
  simp [Resources.getObjectMap, hd]

theorem lookup_of_forall₂ {os : List Object} {ps : List (ID × Object)}
    (h : List.Forall₂ (Sanitized asUnstructuredSanitized) os ps) (id : ID) :
    ps.lookup id = (os.find? fun o => IDOf o = id).bind
      fun o => (asUnstructuredSanitized o).toOption := by
  induction h with
  | nil => rfl
  | @cons o p os ps hp _ ih =>
    obtain ⟨hid, hu⟩ := hp
    by_cases he : id = IDOf o
    · simp [lookup_cons_eq, hid, he, hu, Except.toOption]
    · simp [lookup_cons_eq, hid, he, Ne.symm he, ih]

theorem map_fst_of_forall₂ {os : List Object} {ps : List (ID × Object)}
    (h : List.Forall₂ (Sanitized asUnstructuredSanitized) os ps) :
    ps.map Prod.fst = os.map IDOf := by
  induction h with
  | nil => rfl
  | cons hp _ ih => simp [hp.1, ih]

/-- What the readers of the store `r` return once it holds the objects `accepted`, converted
by `asUnstructuredSanitized`, at `commit`: one entry per distinct ID, at the place where the
ID first occurs, with the last object of that ID. -/
structure Serves (r : Resources) (accepted : List Object) (commit : String) : Prop where
  same_list : r.DeclaredObjects = r.DeclaredUnstructureds
  objects_commit : r.DeclaredObjects.2 = commit
  objects : List.Forall₂
    (fun id u => ∃ o, lastWithID accepted id = some o ∧ asUnstructuredSanitized o = .ok u)
    (firstOccurrences (accepted.map IDOf)) r.DeclaredObjects.1
  get : ∀ id, r.Get id = ((lastWithID accepted id).bind fun o =>
    (asUnstructuredSanitized o).toOption, commit, decide (id ∈ accepted.map IDOf))
  gvks_commit : r.DeclaredGVKs.2 = commit
  gvks_nodup : r.DeclaredGVKs.1.Nodup
  mem_gvks : ∀ g, g ∈ r.DeclaredGVKs.1 ↔ ∃ u ∈ r.DeclaredObjects.1, u.gvk = g

theorem serves_setAll {accepted : List Object} {ps : List (ID × Object)}
    (hps : List.Forall₂ (Sanitized asUnstructuredSanitized) accepted ps) (commit : String) :
    Serves asUnstructuredSanitized ⟨some (setAll NewOrderedMap ps), commit⟩ accepted commit := by
  have hget : ∀ id, (setAll NewOrderedMap ps).Get id = (lastWithID accepted id).bind
      fun o => (asUnstructuredSanitized o).toOption := fun id => by
    rw [get_setAll, lookup_of_forall₂ _ (List.forall₂_reverse_iff.mpr hps)]
    simp [lastWithID, NewOrderedMap, OrderedMap.Get]
  refine ⟨by simp, by simp, ?_, fun id => ?_, by simp, ?_, fun g => by simp [mem_gvkSet]⟩
  · have h₂ := forall₂_get (setAll NewOrderedMap ps)
    rw [keys_setAll, map_fst_of_forall₂ _ hps] at h₂
    rw [declaredObjects_some]
    refine h₂.imp fun id u hu => ?_
    rw [hget] at hu
    obtain ⟨o, ho, hu⟩ := Option.bind_eq_some.mp hu
    refine ⟨o, ho, ?_⟩
    cases hs : asUnstructuredSanitized o <;> simp_all [Except.toOption]
  · have hfound : ((setAll NewOrderedMap ps).Get id).isSome = decide (id ∈ accepted.map IDOf) := by
      rw [get_setAll]
      simp only [NewOrderedMap, OrderedMap.Get, List.lookup_nil, Option.or_none]
      rw [Bool.eq_iff_iff, isSome_lookup, List.map_reverse, List.mem_reverse,
        map_fst_of_forall₂ _ hps, decide_eq_true_iff]
    rw [get_some, hfound, hget]
  · simpa using nodup_foldl_insert _ _ List.nodup_nil

/-- A successful `Update` installs one entry per distinct ID of the objects that are not
`nil`, at the place where the ID first occurs, holding the sanitized form of the last object
with that ID; the four readers all read that snapshot and its commit, and the accepted
objects are the ones that are not `nil`, in their order. -/
theorem update_serves_each_id_once_with_its_last_object
    (deletesAllNamespaces : Option (OrderedMap ID Object) → OrderedMap ID Object → Option Error)
    (r : Resources) (objects : List (Option Object)) (commit oldCommit : String)
    (h : (r.Update asUnstructuredSanitized deletesAllNamespaces objects commit oldCommit).err =
      none) :
    Serves asUnstructuredSanitized
        (r.Update asUnstructuredSanitized deletesAllNamespaces objects commit oldCommit).resources
        objects.reduceOption commit ∧
      (r.Update asUnstructuredSanitized deletesAllNamespaces objects commit oldCommit).accepted =
        objects.reduceOption := by
  rcases update_cases asUnstructuredSanitized deletesAllNamespaces r objects commit oldCommit with
    ⟨hne, -⟩ | ⟨-, hacc, newSet, hb, hres⟩
  · exact absurd h hne
  · obtain ⟨ps, hps, rfl⟩ := buildNewSet_ok asUnstructuredSanitized objects newSet hb
    rw [hres, hacc]
    exact ⟨serves_setAll asUnstructuredSanitized hps commit, rfl⟩

theorem update_serves_a_repeated_id :
    (Resources.empty.Update Except.ok (fun _ _ => none)
        [some ⟨⟨"", "v1", "ConfigMap"⟩, "ns", "cm", []⟩, none,
          some ⟨⟨"", "v1", "ConfigMap"⟩, "ns", "cm", [("k", "v")]⟩] "c" "").err = none ∧
      Serves Except.ok (Resources.empty.Update Except.ok (fun _ _ => none)
          [some ⟨⟨"", "v1", "ConfigMap"⟩, "ns", "cm", []⟩, none,
            some ⟨⟨"", "v1", "ConfigMap"⟩, "ns", "cm", [("k", "v")]⟩] "c" "").resources
        [⟨⟨"", "v1", "ConfigMap"⟩, "ns", "cm", []⟩,
          ⟨⟨"", "v1", "ConfigMap"⟩, "ns", "cm", [("k", "v")]⟩] "c" ∧
      (Resources.empty.Update Except.ok (fun _ _ => none)
          [some ⟨⟨"", "v1", "ConfigMap"⟩, "ns", "cm", []⟩, none,
            some ⟨⟨"", "v1", "ConfigMap"⟩, "ns", "cm", [("k", "v")]⟩] "c" "").accepted =
        [⟨⟨"", "v1", "ConfigMap"⟩, "ns", "cm", []⟩,
          ⟨⟨"", "v1", "ConfigMap"⟩, "ns", "cm", [("k", "v")]⟩] :=
  ⟨rfl, update_serves_each_id_once_with_its_last_object Except.ok _ _ _ _ _ rfl⟩

/-- A failed `Update`, whether an object does not convert or the namespace check rejects the
new map, leaves the map and the commit as they were and accepts nothing. The only change
`Update` ever makes is to install the map built from all of `objects` together with
`commit`. -/
theorem a_failed_update_leaves_the_store_as_it_was
    (deletesAllNamespaces : Option (OrderedMap ID Object) → OrderedMap ID Object → Option Error)
    (r : Resources) (objects : List (Option Object)) (commit oldCommit : String) :
    let res := r.Update asUnstructuredSanitized deletesAllNamespaces objects commit oldCommit
    (res.err ≠ none → res.resources = r ∧ res.accepted = []) ∧
    (res.resources = r ∨ ∃ newSet, buildNewSet asUnstructuredSanitized objects = .ok newSet ∧
      res.resources = r.setObjectMap newSet commit) := by
  rcases update_cases asUnstructuredSanitized deletesAllNamespaces r objects commit oldCommit with
    ⟨hne, hacc, hres⟩ | ⟨hok, -, newSet, hb, hres⟩
  · exact ⟨fun _ => ⟨hres, hacc⟩, .inl hres⟩
  · exact ⟨fun hne => absurd hok hne, .inr ⟨newSet, hb, hres⟩⟩

end specs

end config_sync.declared
