import Mathlib.Data.List.Nodup
import ConfigSync.Core
-- `apply.Applier.Run`: validate the objects, get or create the inventory, check its ID,
-- annotate the objects and compute what to prune, build the task queue, handle the
-- validation errors by the policy, register the invalid objects, send the Init event and
-- run the tasks. Each guard that fails sends one Error event and ends the run, so the
-- tasks run only once every guard passed.

namespace config_sync.apply

open config_sync.core

/-! ## The objects and the inventory -/

/-- `object.ObjMetadata`: the namespace, name, group and kind of an object. -/
structure ObjMetadata where
  Namespace : String
  Name : String
  Group : String
  Kind : String
deriving DecidableEq, Repr

/-- `object.UnstructuredSetToObjMetadataSet`. -/
def UnstructuredSetToObjMetadataSet (objs : List Object) : List ObjMetadata :=
  objs.map fun o => ⟨o.ns, o.name, o.gvk.group, o.gvk.kind⟩

/-- `inventory.Info`, of which the applier reads the ID and the namespace. -/
structure Info where
  ID : String
  Namespace : String
deriving DecidableEq, Repr

/-- `inventory.Inventory`, of which the applier reads the `Info`. -/
structure Inventory where
  Info : Info
deriving DecidableEq, Repr

/-- `validation.Policy`, an `int`: `ExitEarly` is 0 and `SkipInvalid` is 1, and any other
value can be passed. -/
structure Policy where
  value : Int
deriving DecidableEq, Repr

/-- `validation.ExitEarly`. -/
def ExitEarly : Policy := ⟨0⟩

/-- `validation.SkipInvalid`. -/
def SkipInvalid : Policy := ⟨1⟩

/-- An error that reaches the applier or that it builds: one that `apierrors.IsNotFound`
recognises, any other error of a collaborator, a `*validation.Error` about the objects `ids`,
`inventory.MultipleInventoryObjError`, "the local inventory can't be nil", "expected inventory
object to have inventory-id %q but got %q", "invalid ValidationPolicy: %q", and the one error
that `Collector.ToError` makes of the errors collected. -/
inductive Err where
  | notFound (msg : String)
  | other (msg : String)
  | validation (ids : List ObjMetadata) (msg : String)
  | multipleInventoryObj (objs : List Object)
  | inventoryNil
  | inventoryIDMismatch (expected got : String)
  | invalidValidationPolicy (p : Policy)
  | collected (errs : List Err)

/-- `apierrors.IsNotFound`. -/
def Err.IsNotFound : Err → Bool
  | .notFound _ => true
  | _ => false

/-- `validation.Collector`: the errors and the invalid objects collected so far. -/
structure Collector where
  Errors : List Err
  InvalidIDs : List ObjMetadata

/-- `Collector.ToError`. Modelled from the spec: `nil` exactly when no error was collected. -/
def Collector.ToError (c : Collector) : Option Err :=
  match c.Errors with
  | [] => none
  | errs => some (.collected errs)

/-- `common.DryRunStrategy`. -/
inductive DryRunStrategy where
  | DryRunNone
  | DryRunClient
  | DryRunServer
deriving DecidableEq, Repr

/-- `DryRunStrategy.ClientOrServerDryRun`. Modelled from the spec: a dry run of either
kind. -/
def DryRunStrategy.ClientOrServerDryRun : DryRunStrategy → Bool
  | .DryRunNone => false
  | _ => true

/-- `ApplierOptions`, with the fields that `Run` reads itself. -/
structure ApplierOptions where
  NoPrune : Bool
  DryRunStrategy : DryRunStrategy
  PrunePropagationPolicy : String
  ValidationPolicy : Policy

/-- `metav1.DeletePropagationBackground`. -/
def DeletePropagationBackground : String := "Background"

/-- `setDefaults`. -/
def setDefaults (o : ApplierOptions) : ApplierOptions :=
  if o.PrunePropagationPolicy = "" then
    { o with PrunePropagationPolicy := DeletePropagationBackground } else o

/-- `solver.Options`, with the fields that `Run` sets from its options. -/
structure SolverOptions where
  Destroy : Bool
  Prune : Bool
  DryRunStrategy : DryRunStrategy
  PrunePropagationPolicy : String

/-- The task queue that the builder returns; the applier reads its action groups. -/
structure TaskQueue where
  ActionGroups : List String

/-- `TaskQueue.ToActionGroups`. -/
def TaskQueue.ToActionGroups (q : TaskQueue) : List String := q.ActionGroups

/-- `taskrunner.TaskContext`, of which the applier sets the invalid objects. -/
structure TaskContext where
  invalidObjects : List ObjMetadata

/-- `TaskContext.AddInvalidObject`. Modelled from the spec: registers `id` with the task
context, once. -/
def TaskContext.AddInvalidObject (tc : TaskContext) (id : ObjMetadata) : TaskContext :=
  ⟨tc.invalidObjects.insert id⟩

/-- An event sent on the event channel: `event.InitType`, `event.ErrorType`,
`event.ValidationType`, or one that the task runner sends. -/
inductive Event where
  | init (actionGroups : List String)
  | error (err : Err)
  | validation (identifiers : List ObjMetadata) (err : Err)
  | task (msg : String)

/-- What `Run` does, in order: send an event; ask the builder for the task queue, with the
objects to apply and to prune, the local namespaces of the `LocalNamespacesFilter` and the
solver options; start the task runner, with a blind watcher or not and the invalid objects of
the task context; or crash on a `nil` inventory. -/
inductive Action where
  | emit (e : Event)
  | build (applyObjs pruneObjs : List Object) (localNamespaces : List String)
      (opts : SolverOptions)
  | runTasks (allIDs : List ObjMetadata) (blind : Bool) (invalidObjects : List ObjMetadata)
  | panic

/-- Whether an action starts the task runner. -/
def Action.IsRunTasks : Action → Bool
  | .runTasks .. => true
  | _ => false

@[simp]
theorem isRunTasks_emit (e : Event) : (Action.emit e).IsRunTasks = false := rfl

@[simp]
theorem isRunTasks_build (applyObjs pruneObjs : List Object) (localNamespaces : List String)
    (opts : SolverOptions) : (Action.build applyObjs pruneObjs localNamespaces opts).IsRunTasks =
      false := rfl

@[simp]
theorem isRunTasks_runTasks (allIDs : List ObjMetadata) (blind : Bool)
    (invalidObjects : List ObjMetadata) :
    (Action.runTasks allIDs blind invalidObjects).IsRunTasks = true := rfl

/-- The collaborators of the applier, by what they answer: `validation.Validator.Validate`,
`invClient.Get`, `invClient.NewInventory`, `pruner.GetPruneObjs`,
`solver.TaskQueueBuilder.Build` (the queue, and the collector with what it collected) and
`TaskStatusRunner.Run` (the events the tasks send, and its error). -/
structure Applier where
  Validate : List Object → Collector
  Get : Info → Except Err (Option Inventory)
  NewInventory : Info → Except Err (Option Inventory)
  GetPruneObjs : Inventory → List Object → DryRunStrategy → Except Err (List Object)
  Build : Inventory → List Object → List Object → List String → SolverOptions → Collector →
    TaskQueue × Collector
  RunTasks : List ObjMetadata → Bool → TaskContext → TaskQueue → List Event × Option Err

/-! ## The model -/

/-- `handleError`. -/
def handleError (err : Err) : Action := .emit (.error err)

/-- `handleValidationError`: an error about specific objects names them. -/
def handleValidationError (err : Err) : Event :=
  match err with
  | .validation ids _ => .validation ids err
  | _ => .validation [] err

/-- `localNamespaces`. -/
def localNamespaces (localInv : Info) (localObjs : List ObjMetadata) : List String :=
  let namespaces := localObjs.foldl
    (fun namespaces obj => if obj.Namespace ≠ "" then namespaces.insert obj.Namespace
      else namespaces) []
  let invNamespace := localInv.Namespace
  if invNamespace ≠ "" then namespaces.insert invNamespace else namespaces

section applier

variable (IsInventoryObject : Object → Bool) (OwningInventoryKey : String)

/-- `inventory.ValidateNoInventory`. Modelled from the spec: it fails exactly when some local
object is an inventory object, with those objects. -/
def ValidateNoInventory (objs : List Object) : Option Err :=
  match objs.filter IsInventoryObject with
  | [] => none
  | invs => some (.multipleInventoryObj invs)

/-- `inventory.AddInventoryIDAnnotation`. Modelled from the spec: the object gets the
inventory-ID annotation `id`, in place of any it had. -/
def AddInventoryIDAnnotation (obj : Object) (id : String) : Object :=
  { obj with annotations :=
      (OwningInventoryKey, id) :: obj.annotations.filter fun a => a.1 ≠ OwningInventoryKey }

/-- `Applier.prepareObjects`: the annotated objects to apply and the objects to prune. -/
def Applier.prepareObjects (a : Applier) (inv : Option Inventory) (localObjs : List Object)
    (o : ApplierOptions) : Except Err (List Object × List Object) :=
  match inv with
  | none => .error .inventoryNil
  | some inv =>
    match ValidateNoInventory IsInventoryObject localObjs with
    | some err => .error err
    | none =>
      let localObjs := localObjs.map fun localObj =>
        AddInventoryIDAnnotation OwningInventoryKey localObj inv.Info.ID
      match a.GetPruneObjs inv localObjs o.DryRunStrategy with
      | .error err => .error err
      | .ok pruneObjs => .ok (localObjs, pruneObjs)

/-- The inventory that `Run` gets: `Get`, then `NewInventory` when `Get` did not find it. -/
def Applier.getInventory (a : Applier) (invInfo : Info) : Except Err (Option Inventory) :=
  match a.Get invInfo with
  | .error err => if err.IsNotFound then a.NewInventory invInfo else .error err
  | r => r

/-- The switch of `Run` on the validation policy: the Validation events to send, or the
error that ends the run. -/
def validationEvents (p : Policy) (c : Collector) : Except Err (List Event) :=
  if p = ExitEarly then
    match c.ToError with
    | some err => .error err
    | none => .ok []
  else if p = SkipInvalid then .ok (c.Errors.map handleValidationError)
  else .error (.invalidValidationPolicy p)

/-- `Applier.Run`, as the actions it takes, in order. -/
def Applier.Run (a : Applier) (invInfo : Info) (objects : List Object)
    (options : ApplierOptions) : List Action :=
  let options := setDefaults options
  let vCollector := a.Validate objects
  match a.getInventory invInfo with
  | .error err => [handleError err]
  | .ok none => [.panic]
  | .ok (some inv) =>
    if inv.Info.ID ≠ invInfo.ID then
      [handleError (.inventoryIDMismatch invInfo.ID inv.Info.ID)]
    else
    match a.prepareObjects IsInventoryObject OwningInventoryKey (some inv) objects options with
    | .error err => [handleError err]
    | .ok (applyObjs, pruneObjs) =>
      let pruneNamespaces := localNamespaces invInfo (UnstructuredSetToObjMetadataSet objects)
      let opts : SolverOptions := ⟨false, !options.NoPrune, options.DryRunStrategy,
        options.PrunePropagationPolicy⟩
      let (taskQueue, vCollector) :=
        a.Build inv applyObjs pruneObjs pruneNamespaces opts vCollector
      let built := Action.build applyObjs pruneObjs pruneNamespaces opts
      match validationEvents options.ValidationPolicy vCollector with
      | .error err => [built, handleError err]
      | .ok events =>
        let taskContext := vCollector.InvalidIDs.foldl TaskContext.AddInvalidObject ⟨[]⟩
        let allIDs := UnstructuredSetToObjMetadataSet (applyObjs ++ pruneObjs)
        let blind := opts.DryRunStrategy.ClientOrServerDryRun
        let (taskEvents, err) := a.RunTasks allIDs blind taskContext taskQueue
        built :: events.map .emit ++ [.emit (.init taskQueue.ToActionGroups),
          .runTasks allIDs blind taskContext.invalidObjects] ++ taskEvents.map .emit ++
          (err.map handleError).toList

/-! ## The local namespaces -/

theorem mem_foldl_namespaces (l : List ObjMetadata) (s : List String) (x : String) :
    x ∈ l.foldl (fun namespaces obj => if obj.Namespace ≠ "" then
        namespaces.insert obj.Namespace else namespaces) s ↔
      x ∈ s ∨ ∃ obj ∈ l, obj.Namespace ≠ "" ∧ obj.Namespace = x := by
  induction l generalizing s with
  | nil => simp
  | cons obj l ih =>
    rw [List.foldl_cons, ih]
    simp only [List.mem_cons, or_and_right, exists_or, exists_eq_left]
    split_ifs with h
    · simp only [List.mem_insert_iff, h, ne_eq, not_false_eq_true, true_and, @eq_comm _ x,
        or_assoc, or_left_comm]
    · simp [h]

theorem nodup_foldl_namespaces (l : List ObjMetadata) (s : List String) (h : s.Nodup) :
    (l.foldl (fun namespaces obj => if obj.Namespace ≠ "" then
        namespaces.insert obj.Namespace else namespaces) s).Nodup := by
  induction l generalizing s with
  | nil => exact h
  | cons obj l ih =>
    rw [List.foldl_cons]
    split_ifs
    · exact ih _ h.insert
    · exact ih _ h

theorem mem_localNamespaces (localInv : Info) (localObjs : List ObjMetadata) (ns : String) :
    ns ∈ localNamespaces localInv localObjs ↔
      ns ≠ "" ∧ ((∃ obj ∈ localObjs, obj.Namespace = ns) ∨ localInv.Namespace = ns) := by
  have hobjs : (∃ obj ∈ localObjs, obj.Namespace ≠ "" ∧ obj.Namespace = ns) ↔
      ns ≠ "" ∧ ∃ obj ∈ localObjs, obj.Namespace = ns :=
    ⟨fun ⟨obj, ho, hne, he⟩ => ⟨he ▸ hne, obj, ho, he⟩,
      fun ⟨hne, obj, ho, he⟩ => ⟨obj, ho, he ▸ hne, he⟩⟩
  simp only [localNamespaces]
  split_ifs with h
  · rw [List.mem_insert_iff, mem_foldl_namespaces, hobjs]
    constructor
    · rintro (rfl | hn | ⟨hne, hn⟩)
      · exact ⟨h, .inr rfl⟩
      · cases hn
      · exact ⟨hne, .inl hn⟩
    · rintro ⟨hne, hn | rfl⟩
      · exact .inr (.inr ⟨hne, hn⟩)
      · exact .inl rfl
  · rw [mem_foldl_namespaces, hobjs, or_iff_right (List.not_mem_nil ns)]
    exact ⟨fun ⟨hne, hn⟩ => ⟨hne, .inl hn⟩,
      fun ⟨hne, hn⟩ => ⟨hne, hn.resolve_right fun he => h (he ▸ hne)⟩⟩

/-! ## The guards -/

theorem validateNoInventory_eq_none (objs : List Object) :
    ValidateNoInventory IsInventoryObject objs = none ↔ ∀ o ∈ objs, IsInventoryObject o = false := by
  have h : objs.filter IsInventoryObject = [] ↔ ∀ o ∈ objs, IsInventoryObject o = false := by
    simp [List.filter_eq_nil_iff]
  unfold ValidateNoInventory
  split <;> simp_all

theorem prepareObjects_ok (a : Applier) (inv : Inventory) (localObjs : List Object)
    (o : ApplierOptions) (applyObjs pruneObjs : List Object) :
    a.prepareObjects IsInventoryObject OwningInventoryKey (some inv) localObjs o =
        .ok (applyObjs, pruneObjs) ↔
      (∀ obj ∈ localObjs, IsInventoryObject obj = false) ∧
      applyObjs = localObjs.map (fun obj =>
        AddInventoryIDAnnotation OwningInventoryKey obj inv.Info.ID) ∧
      a.GetPruneObjs inv applyObjs o.DryRunStrategy = .ok pruneObjs := by
  rw [← validateNoInventory_eq_none]
  unfold Applier.prepareObjects
  rcases ValidateNoInventory IsInventoryObject localObjs with _ | err
  · rcases hp : a.GetPruneObjs inv (localObjs.map fun obj =>
        AddInventoryIDAnnotation OwningInventoryKey obj inv.Info.ID) o.DryRunStrategy with e | p
    · simp only [hp, true_and, reduceCtorEq, false_iff, not_and]
      rintro rfl
      simp only [hp, reduceCtorEq, not_false_eq_true]
    · simp only [hp, Except.ok.injEq, Prod.mk.injEq, true_and]
      constructor
      · rintro ⟨rfl, rfl⟩
        exact ⟨rfl, hp⟩
      · rintro ⟨rfl, h⟩
        exact ⟨rfl, by rw [hp] at h; cases h; rfl⟩
  · simp only [reduceCtorEq, false_and]

@[simp]
theorem setDefaults_DryRunStrategy (o : ApplierOptions) :
    (setDefaults o).DryRunStrategy = o.DryRunStrategy := by
  unfold setDefaults; split <;> rfl

@[simp]
theorem setDefaults_ValidationPolicy (o : ApplierOptions) :
    (setDefaults o).ValidationPolicy = o.ValidationPolicy := by
  unfold setDefaults; split <;> rfl

/-- The guards of `Run` before the task queue is built, all passed: the inventory was
obtained with the ID of `invInfo`, no local object is an inventory object, the objects to
apply are the local objects with the inventory-ID annotation, and the objects to prune were
computed from them. -/
structure Prepared (a : Applier) (invInfo : Info) (objects : List Object)
    (options : ApplierOptions) (inv : Inventory) (applyObjs pruneObjs : List Object) : Prop where
  inventory : a.getInventory invInfo = .ok (some inv)
  inventoryID : inv.Info.ID = invInfo.ID
  noInventory : ∀ o ∈ objects, IsInventoryObject o = false
  annotated : applyObjs = objects.map fun o =>
    AddInventoryIDAnnotation OwningInventoryKey o invInfo.ID
  pruneObjs : a.GetPruneObjs inv applyObjs options.DryRunStrategy = .ok pruneObjs

/-- Everything `Run` can do: fail a guard before the task queue is built, with one Error
event or a crash; or pass them, build the task queue, and then fail the validation policy
with one Error event, or send the Validation events and the Init event and start the task
runner, once, after which only events follow. -/
theorem run_cases (a : Applier) (invInfo : Info) (objects : List Object)
    (options : ApplierOptions) :
    (∃ err, a.Run IsInventoryObject OwningInventoryKey invInfo objects options =
      [handleError err]) ∨
    (a.getInventory invInfo = .ok none ∧
      a.Run IsInventoryObject OwningInventoryKey invInfo objects options = [.panic]) ∨
    ∃ inv applyObjs pruneObjs opts queue c,
      Prepared IsInventoryObject OwningInventoryKey a invInfo objects options inv applyObjs
        pruneObjs ∧
      a.Build inv applyObjs pruneObjs
        (localNamespaces invInfo (UnstructuredSetToObjMetadataSet objects)) opts
        (a.Validate objects) = (queue, c) ∧
      ((∃ err, validationEvents options.ValidationPolicy c = .error err ∧
        a.Run IsInventoryObject OwningInventoryKey invInfo objects options =
          [.build applyObjs pruneObjs
            (localNamespaces invInfo (UnstructuredSetToObjMetadataSet objects)) opts,
            handleError err]) ∨
      (∃ events rest, validationEvents options.ValidationPolicy c = .ok events ∧
        (∀ x ∈ rest, ∃ e, x = .emit e) ∧
        a.Run IsInventoryObject OwningInventoryKey invInfo objects options =
          .build applyObjs pruneObjs
            (localNamespaces invInfo (UnstructuredSetToObjMetadataSet objects)) opts ::
          events.map .emit ++ [.emit (.init queue.ToActionGroups),
            .runTasks (UnstructuredSetToObjMetadataSet (applyObjs ++ pruneObjs))
              opts.DryRunStrategy.ClientOrServerDryRun
              (c.InvalidIDs.foldl TaskContext.AddInvalidObject ⟨[]⟩).invalidObjects] ++ rest)) := by
  unfold Applier.Run
  rcases hg : a.getInventory invInfo with err | _ | inv
  · exact .inl ⟨err, rfl⟩
  · exact .inr (.inl ⟨rfl, rfl⟩)
  by_cases hid : inv.Info.ID = invInfo.ID
  swap
  · exact .inl ⟨.inventoryIDMismatch invInfo.ID inv.Info.ID, by simp [hid]⟩
  rcases hp : a.prepareObjects IsInventoryObject OwningInventoryKey (some inv) objects
    (setDefaults options) with err | ⟨applyObjs, pruneObjs⟩
  · exact .inl ⟨err, by simp only [hid, hp, ne_eq, not_true_eq_false, if_false]⟩
  obtain ⟨hno, hann, hprune⟩ := (prepareObjects_ok IsInventoryObject OwningInventoryKey a inv
    objects _ applyObjs pruneObjs).mp hp
  rcases hb : a.Build inv applyObjs pruneObjs
    (localNamespaces invInfo (UnstructuredSetToObjMetadataSet objects))
    ⟨false, !(setDefaults options).NoPrune, options.DryRunStrategy,
      (setDefaults options).PrunePropagationPolicy⟩ (a.Validate objects) with ⟨queue, c⟩
  refine .inr (.inr ⟨inv, applyObjs, pruneObjs, _, queue, c,
    ⟨hg, hid, hno, hid ▸ hann, by simpa using hprune⟩, hb, ?_⟩)
  rcases hv : validationEvents options.ValidationPolicy c with err | events
  · exact .inl ⟨err, rfl, by simp only [hid, hp, hb, hv, ne_eq, not_true_eq_false, if_false,
      setDefaults_DryRunStrategy, setDefaults_ValidationPolicy]⟩
  · rcases hr : a.RunTasks (UnstructuredSetToObjMetadataSet (applyObjs ++ pruneObjs))
      options.DryRunStrategy.ClientOrServerDryRun
      (c.InvalidIDs.foldl TaskContext.AddInvalidObject ⟨[]⟩) queue with ⟨taskEvents, err⟩
    refine .inr ⟨events, taskEvents.map .emit ++ (err.map handleError).toList, rfl,
      fun x hx => ?_,
      by simp only [hid, hp, hb, hv, hr, ne_eq, not_true_eq_false, if_false,
        setDefaults_DryRunStrategy, setDefaults_ValidationPolicy, List.append_assoc]⟩
    rcases List.mem_append.mp hx with hx | hx
    · obtain ⟨e, -, rfl⟩ := List.mem_map.mp hx
      exact ⟨e, rfl⟩
    · cases err <;> simp_all [handleError]

theorem toError_eq_none (c : Collector) : c.ToError = none ↔ c.Errors = [] := by
  unfold Collector.ToError
  split <;> simp_all

theorem validationEvents_ok (p : Policy) (c : Collector) (events : List Event)
    (h : validationEvents p c = .ok events) :
    p = ExitEarly ∧ c.Errors = [] ∧ events = [] ∨
      p = SkipInvalid ∧ events = c.Errors.map handleValidationError := by
  unfold validationEvents at h
  split_ifs at h with h1 h2
  · rcases ht : c.ToError with _ | err <;> rw [ht] at h <;> cases h
    exact .inl ⟨h1, (toError_eq_none c).mp ht, rfl⟩
  · cases h
    exact .inr ⟨h2, rfl⟩

theorem mem_foldl_addInvalidObject (ids : List ObjMetadata) (tc : TaskContext)
    (id : ObjMetadata) :
    id ∈ (ids.foldl TaskContext.AddInvalidObject tc).invalidObjects ↔
      id ∈ tc.invalidObjects ∨ id ∈ ids := by
  induction ids generalizing tc with
  | nil => simp
  | cons x ids ih =>
    simp only [List.foldl_cons, ih, TaskContext.AddInvalidObject, List.mem_insert_iff,
      List.mem_cons, or_assoc, or_left_comm]

@[simp]
theorem lookup_addInventoryIDAnnotation (obj : Object) (id : String) :
    ( AddInventoryIDAnnotation OwningInventoryKey obj id).annotations.lookup OwningInventoryKey =
      some id := by
  simp [ AddInventoryIDAnnotation]

/-- A list of actions with one `runTasks`, `r`: the task runner starts at most once, and a
split of the list at a `runTasks` is the split at `r`. -/
theorem split_at_runTasks {pre rest : List Action} {r : Action}
    (hpre : ∀ x ∈ pre, x.IsRunTasks = false) (hrest : ∀ x ∈ rest, x.IsRunTasks = false) :
    ((pre ++ r :: rest).filter Action.IsRunTasks).length ≤ 1 ∧
    ∀ pre' allIDs blind invalidObjects post,
      pre ++ r :: rest = pre' ++ .runTasks allIDs blind invalidObjects :: post →
      pre = pre' ∧ r = .runTasks allIDs blind invalidObjects := by
  have hnot : ∀ {l : List Action}, (∀ x ∈ l, x.IsRunTasks = false) →
      ∀ allIDs blind invalidObjects, Action.runTasks allIDs blind invalidObjects ∉ l :=
    fun hl _ _ _ hm => by simpa using hl _ hm
  refine ⟨?_, fun pre' allIDs blind invalidObjects post h =>
    ((List.append_cons_inj_of_not_mem (hnot hpre _ _ _) (hnot hrest _ _ _)).mp h).imp_right
      And.left⟩
  rw [List.filter_append, List.filter_eq_nil_iff.mpr fun x hx => Bool.eq_false_iff.mp (hpre x hx),
    List.filter_cons, List.filter_eq_nil_iff.mpr fun x hx => Bool.eq_false_iff.mp (hrest x hx)]
  split <;> simp

/-- `Run` starts the task runner at most once, and only once every guard passed: the
inventory was obtained with the ID of `invInfo`, no local object is an inventory object, the
objects to prune were computed, and the policy is `ExitEarly` with no error collected or
`SkipInvalid`. By then the objects to apply are the local objects, each with the inventory-ID
annotation of `invInfo`, every invalid object is registered with the task context, and
`Run` has built the task queue and sent one Validation event per error collected, under
`SkipInvalid` only and in the collector's order, then the Init event. -/
theorem the_task_runner_starts_only_after_every_guard_passed (a : Applier) (invInfo : Info)
    (objects : List Object) (options : ApplierOptions) :
    ((a.Run IsInventoryObject OwningInventoryKey invInfo objects options).filter
      Action.IsRunTasks).length ≤ 1 ∧
    ∀ pre allIDs blind invalidObjects post,
      a.Run IsInventoryObject OwningInventoryKey invInfo objects options =
        pre ++ .runTasks allIDs blind invalidObjects :: post →
      ∃ inv applyObjs pruneObjs lns opts queue c,
        Prepared IsInventoryObject OwningInventoryKey a invInfo objects options inv applyObjs
          pruneObjs ∧
        (∀ o ∈ applyObjs, o.annotations.lookup OwningInventoryKey = some invInfo.ID) ∧
        a.Build inv applyObjs pruneObjs lns opts (a.Validate objects) = (queue, c) ∧
        (options.ValidationPolicy = ExitEarly ∧ c.Errors = [] ∨
          options.ValidationPolicy = SkipInvalid) ∧
        (∀ id ∈ c.InvalidIDs, id ∈ invalidObjects) ∧
        pre = .build applyObjs pruneObjs lns opts ::
          (if options.ValidationPolicy = SkipInvalid then
            c.Errors.map fun err => .emit (handleValidationError err) else []) ++
          [.emit (.init queue.ToActionGroups)] := by
  by_cases hnone : ∀ x ∈ a.Run IsInventoryObject OwningInventoryKey invInfo objects options,
    x.IsRunTasks = false
  · refine ⟨by rw [List.filter_eq_nil_iff.mpr fun x hx => by simp [hnone x hx]]; simp, ?_⟩
    intro pre allIDs blind invalidObjects post he
    have := hnone (.runTasks allIDs blind invalidObjects) (by simp [he])
    simp at this
  rcases run_cases IsInventoryObject OwningInventoryKey a invInfo objects options with
    ⟨err, he⟩ | ⟨-, he⟩ | ⟨inv, applyObjs, pruneObjs, opts, queue, c, hprep, hb, ⟨err, -, he⟩ |
      ⟨events, rest, hv, hrest, he⟩⟩
  · exact absurd (by simp [he, handleError]) hnone
  · exact absurd (by simp [he, Action.IsRunTasks]) hnone
  · exact absurd (by simp [he, handleError]) hnone
  have hpre : ∀ x ∈ Action.build applyObjs pruneObjs
      (localNamespaces invInfo (UnstructuredSetToObjMetadataSet objects)) opts ::
      events.map .emit ++ [.emit (.init queue.ToActionGroups)], x.IsRunTasks = false := by
    simp only [List.cons_append, List.mem_cons, List.mem_append, List.mem_map,
      List.not_mem_nil, or_false]
    rintro x (rfl | ⟨e, -, rfl⟩ | rfl) <;> rfl
  have hrest' : ∀ x ∈ rest, x.IsRunTasks = false := fun x hx => by
    obtain ⟨e, rfl⟩ := hrest x hx
    rfl
  rw [he, show ∀ (l : List Action) (i r : Action), l ++ [i, r] ++ rest = l ++ [i] ++ r :: rest
    by simp]
  refine ⟨(split_at_runTasks hpre hrest').1, fun pre allIDs blind invalidObjects post h => ?_⟩
  obtain ⟨rfl, hx⟩ := (split_at_runTasks hpre hrest').2 pre allIDs blind invalidObjects post h
  simp only [Action.runTasks.injEq] at hx
  refine ⟨inv, applyObjs, pruneObjs, _, opts, queue, c, hprep, fun o ho => ?_, hb, ?_,
    fun id hid => hx.2.2 ▸ (mem_foldl_addInvalidObject _ _ _).mpr (.inr hid), ?_⟩
  · rw [hprep.annotated] at ho
    obtain ⟨o', -, rfl⟩ := List.mem_map.mp ho
    exact lookup_addInventoryIDAnnotation OwningInventoryKey o' invInfo.ID
  · rcases validationEvents_ok _ _ _ hv with ⟨hp, he, -⟩ | ⟨hp, -⟩
    · exact .inl ⟨hp, he⟩
    · exact .inr hp
  · rcases validationEvents_ok _ _ _ hv with ⟨hp, -, rfl⟩ | ⟨hp, rfl⟩
    · simp [hp, ExitEarly, SkipInvalid]
    · simp [hp]

/-- The task queue that `Run` builds gets, for its `LocalNamespacesFilter`, the local
namespaces of `invInfo` and of the objects passed to `Run`. -/
theorem build_mem_run (a : Applier) (invInfo : Info) (objects : List Object)
    (options : ApplierOptions) (applyObjs pruneObjs : List Object) (lns : List String)
    (opts : SolverOptions)
    (hm : .build applyObjs pruneObjs lns opts ∈
      a.Run IsInventoryObject OwningInventoryKey invInfo objects options) :
    lns = localNamespaces invInfo (UnstructuredSetToObjMetadataSet objects) := by
  rcases run_cases IsInventoryObject OwningInventoryKey a invInfo objects options with
    ⟨err, he⟩ | ⟨-, he⟩ | ⟨inv, applyObjs, pruneObjs, opts, queue, c, -, -, ⟨err, -, he⟩ |
      ⟨events, rest, -, hrest, he⟩⟩ <;>
    simp only [he, handleError, List.mem_singleton, List.mem_cons, List.mem_append,
      List.mem_map, reduceCtorEq, List.not_mem_nil, or_false, false_or, Action.build.injEq,
      exists_and_right, exists_false, and_false] at hm
  · exact hm.2.2.1
  · rcases hm with hm | hm
    · exact hm.2.2.1
    · obtain ⟨e, he⟩ := hrest _ hm
      cases he

/-- `localNamespaces` returns the non-empty namespaces of the local objects, and the
namespace of the inventory when it is not empty, each once; so it never holds the empty
namespace. The `LocalNamespacesFilter` of the task queue that `Run` builds gets it from the
objects passed to `Run`, so it holds the namespace of every namespaced local object. -/
theorem localNamespaces_are_the_namespaces_of_the_sync :
    (∀ localInv localObjs, (localNamespaces localInv localObjs).Nodup ∧
      "" ∉ localNamespaces localInv localObjs ∧
      ∀ ns, ns ∈ localNamespaces localInv localObjs ↔
        ns ≠ "" ∧ ((∃ obj ∈ localObjs, obj.Namespace = ns) ∨ localInv.Namespace = ns)) ∧
    ∀ (a : Applier) invInfo objects options applyObjs pruneObjs lns opts,
      .build applyObjs pruneObjs lns opts ∈
        a.Run IsInventoryObject OwningInventoryKey invInfo objects options →
      lns = localNamespaces invInfo (UnstructuredSetToObjMetadataSet objects) ∧
      ∀ o ∈ objects, o.ns ≠ "" → o.ns ∈ lns := by
  refine ⟨fun localInv localObjs => ⟨?_, fun h => (mem_localNamespaces _ _ _).mp h |>.1 rfl,
    mem_localNamespaces localInv localObjs⟩, fun a invInfo objects options applyObjs pruneObjs
      lns opts hm => ?_⟩
  · simp only [localNamespaces]
    split_ifs
    · exact (nodup_foldl_namespaces _ _ List.nodup_nil).insert
    · exact nodup_foldl_namespaces _ _ List.nodup_nil
  · have hl := build_mem_run IsInventoryObject OwningInventoryKey a invInfo objects options
      applyObjs pruneObjs lns opts hm
    refine ⟨hl, fun o ho hns => ?_⟩
    rw [hl, mem_localNamespaces]
    exact ⟨hns, .inl ⟨_, List.mem_map_of_mem _ ho, rfl⟩⟩

end applier

end config_sync.apply
