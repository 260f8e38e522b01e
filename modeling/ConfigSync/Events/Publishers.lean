import Mathlib.Data.List.Basic
-- The publishers of the reconcile loop: `Build` starts a publisher for each
-- period that is positive and for no other, each with the period the builder holds, at most
-- one of each kind, in the order sync, namespace, retry, status.

namespace config_sync.events

/-- The event types of the timed publishers `Build` starts. -/
inductive EventType where
  | SyncEventType
  | NamespaceSyncEventType
  | StatusUpdateEventType
deriving DecidableEq, Repr

/-- `wait.Backoff`. `Build` reads only its first `Duration`, so the other fields are left out;
a `time.Duration` is a count of nanoseconds. -/
structure Backoff where
  Duration : Int
deriving DecidableEq, Repr

/-- A publisher, by the constructor that made it (`NewResetOnRunAttemptPublisher`,
`NewTimeDelayPublisher`, `NewRetrySyncPublisher`) and what that constructor got, the clock
that every one of them gets apart. -/
inductive Publisher where
  | ResetOnRunAttempt (eventType : EventType) (period : Int)
  | TimeDelay (eventType : EventType) (period : Int)
  | RetrySync (backoff : Backoff)
deriving DecidableEq, Repr

/-- `PublishingGroupBuilder`, without its `Clock`. -/
structure PublishingGroupBuilder where
  SyncPeriod : Int
  StatusUpdatePeriod : Int
  NamespaceControllerPeriod : Int
  RetryBackoff : Backoff
deriving DecidableEq, Repr

/-- `PublishingGroupBuilder.Build`; a `nil` slice is `[]`. -/
def PublishingGroupBuilder.Build (t : PublishingGroupBuilder) : List Publisher :=
  let publishers : List Publisher := []
  let publishers := if t.SyncPeriod > 0 then
    publishers ++ [.ResetOnRunAttempt .SyncEventType t.SyncPeriod] else publishers
  let publishers := if t.NamespaceControllerPeriod > 0 then
    publishers ++ [.TimeDelay .NamespaceSyncEventType t.NamespaceControllerPeriod]
    else publishers
  let publishers := if t.RetryBackoff.Duration > 0 then
    publishers ++ [.RetrySync t.RetryBackoff] else publishers
  let publishers := if t.StatusUpdatePeriod > 0 then
    publishers ++ [.TimeDelay .StatusUpdateEventType t.StatusUpdatePeriod] else publishers
  publishers

example : (⟨0, 5, 0, ⟨10⟩⟩ : PublishingGroupBuilder).Build =
    [.RetrySync ⟨10⟩, .TimeDelay .StatusUpdateEventType 5] := by decide

end config_sync.events
