import Mathlib.Data.List.Basic
-- What the reconcile core reads of a declared object: its type, its identity and its
-- annotations, and the errors the core builds or passes along (`pkg/core`,
-- `pkg/status`).

namespace config_sync.core

/-- `schema.GroupVersionKind`. -/
structure GroupVersionKind where
  group : String
  version : String
  kind : String
deriving DecidableEq, Repr

/-- `core.ID`: the group and kind of an object, with its namespace and name. -/
structure ID where
  group : String
  kind : String
  ns : String
  name : String
deriving DecidableEq, Repr

/-- An object in its unstructured form. The core reads its type, namespace, name and
annotations; the other fields it only passes along, so they are left out. -/
structure Object where
  gvk : GroupVersionKind
  ns : String
  name : String
  annotations : List (String × String)
deriving DecidableEq, Repr

/-- `core.IDOf`. -/
def IDOf (o : Object) : ID :=
  { group := o.gvk.group, kind := o.gvk.kind, ns := o.ns, name := o.name }

/-- A `status.Error`: the one the store builds itself,
`status.InternalErrorBuilder.Wrap(err).Sprintf("converting %v to unstructured.Unstructured", id)`,
or one that the namespace check, the applier or the remediator built, by its text. -/
inductive Error where
  | internalError (cause : String) (id : ID)
  | external (msg : String)
deriving DecidableEq, Repr

/-- `status.MultiError`; `[]` is `nil`, and `status.Append` is `++`. -/
abbrev MultiError := List Error

end config_sync.core
