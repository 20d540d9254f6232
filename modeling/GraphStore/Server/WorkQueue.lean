import GraphStore.Json.Basic

/-!
# Work queues

A bounded queue of items and the one worker that runs them in the order in which they were accepted.
An item that is offered to a full queue has to wait. After a shutdown no item is accepted and none
is started, but the one that runs may end.
-/

set_option autoImplicit false

namespace GraphStore

/-- How the run of an item ends. -/
inductive WorkOutcome where
  | completed
  | failed
  | panicked
  | cancelled
deriving Repr, DecidableEq, Inhabited

/-- How many items ended in each way. -/
structure WorkerStats where
  completed : Nat := 0
  failed : Nat := 0
  panicked : Nat := 0
  cancelled : Nat := 0
deriving Repr, DecidableEq, Inhabited

namespace WorkerStats

def count (stats : WorkerStats) : WorkOutcome → WorkerStats
  | .completed => { stats with completed := stats.completed + 1 }
  | .failed => { stats with failed := stats.failed + 1 }
  | .panicked => { stats with panicked := stats.panicked + 1 }
  | .cancelled => { stats with cancelled := stats.cancelled + 1 }

def toJson (stats : WorkerStats) : Json :=
  .ofMembers
    [("completed", .ofNat stats.completed), ("failed", .ofNat stats.failed),
      ("panicked", .ofNat stats.panicked), ("cancelled", .ofNat stats.cancelled)]

end WorkerStats

/-- Why an item is not accepted. -/
inductive QueueFault where
  | shutDown
  /-- The worker is gone. -/
  | closed
deriving Repr, DecidableEq

namespace QueueFault

/-- The stable code of a fault. -/
def code : QueueFault → String
  | shutDown => "CANCELLED"
  | closed => "CLOSED"

/-- The message of a fault. -/
def message : QueueFault → String
  | shutDown => "Queue shut down"
  | closed => "Worker has stopped"

end QueueFault

/-- A queue of items, its producers and its worker. -/
structure WorkQueue (α : Type) where
  /-- The greatest number of items that wait. -/
  capacity : Nat
  /-- The items that wait, the oldest first. -/
  waiting : List α
  /-- The item that the worker runs. -/
  running : Option α
  /-- The items that the worker has started, the oldest first. -/
  started : List α
  stats : WorkerStats
  /-- Whether the shutdown has begun. -/
  shutDown : Bool
  /-- Whether there is a producer who may still offer items. -/
  hasProducers : Bool
  /-- Whether the worker is gone. -/
  stopped : Bool
deriving Repr, DecidableEq

namespace WorkQueue

variable {α : Type}

/-- A queue without items. -/
def fresh (capacity : Nat) : WorkQueue α :=
  { capacity, waiting := [], running := none, started := [], stats := {}, shutDown := false
    hasProducers := true, stopped := false }

/-- The number of items that can be accepted at once. -/
def available (queue : WorkQueue α) : Nat := queue.capacity - queue.waiting.length

/-- Offers an item. There is no new queue if the item has to wait for room. -/
def offer (queue : WorkQueue α) (item : α) : Except QueueFault (Option (WorkQueue α)) :=
  if queue.shutDown then .error .shutDown
  else if queue.stopped then .error .closed
  else if queue.available = 0 then .ok none
  else .ok (some { queue with waiting := queue.waiting ++ [item] })

def beginShutdown (queue : WorkQueue α) : WorkQueue α := { queue with shutDown := true }

def release (queue : WorkQueue α) : WorkQueue α := { queue with hasProducers := false }

/-- Lets the worker go. Items that wait are given up. -/
def dismiss (queue : WorkQueue α) : WorkQueue α := { queue with waiting := [], stopped := true }

def isIdle (queue : WorkQueue α) : Bool := !queue.stopped && queue.running.isNone

/-- Lets the worker start the oldest item that waits. -/
def start? (queue : WorkQueue α) : Option (WorkQueue α) :=
  match queue.waiting with
  | [] => none
  | item :: rest =>
      if queue.isIdle && !queue.shutDown then
        some {
          queue with
          waiting := rest, running := some item, started := queue.started ++ [item] }
      else none

/-- Lets the worker stop, at a shutdown or where no item can come any more. -/
def stop? (queue : WorkQueue α) : Option (WorkQueue α) :=
  if queue.isIdle && (queue.shutDown || (queue.waiting.isEmpty && !queue.hasProducers)) then
    some queue.dismiss
  else none

def finish? (queue : WorkQueue α) (outcome : WorkOutcome) : Option (WorkQueue α) :=
  match queue.running with
  | none => none
  | some _ => some { queue with running := none, stats := queue.stats.count outcome }

/-- What happens to a queue. -/
inductive Event (α : Type) where
  | accept (item : α)
  /-- An item is offered and not accepted. -/
  | refuse (item : α) (fault : QueueFault)
  | shutdown
  | release
  | start
  | finish (outcome : WorkOutcome)
  | stop
deriving Repr, DecidableEq

def after? (queue : WorkQueue α) : Event α → Option (WorkQueue α)
  | .accept item =>
      match queue.offer item with
      | .ok next => next
      | .error _ => none
  | .refuse item fault =>
      match queue.offer item with
      | .ok _ => none
      | .error found => if found = fault then some queue else none
  | .shutdown => some queue.beginShutdown
  | .release => some queue.release
  | .start => queue.start?
  | .finish outcome => queue.finish? outcome
  | .stop => queue.stop?

/-- What an item does: how its run ends, and whether it begins the shutdown before. -/
structure Behaviour where
  outcome : WorkOutcome
  shutsDown : Bool := false
deriving Repr, DecidableEq

/-- The queue after the next step of its worker, if there is one. -/
def workerStep? (behaviour : α → Behaviour) (queue : WorkQueue α) : Option (WorkQueue α) :=
  match queue.running with
  | none => queue.stop? <|> queue.start?
  | some item =>
      let queue := if (behaviour item).shutsDown then queue.beginShutdown else queue
      queue.finish? (behaviour item).outcome

/-- Lets the worker make up to `steps` steps. -/
def runFor (behaviour : α → Behaviour) : (steps : Nat) → WorkQueue α → WorkQueue α
  | 0, queue => queue
  | steps + 1, queue =>
      match queue.workerStep? behaviour with
      | some next => runFor behaviour steps next
      | none => queue

/-- Lets the worker run until it stops or has to wait. Every item takes two steps. -/
def run (behaviour : α → Behaviour) (queue : WorkQueue α) : WorkQueue α :=
  queue.runFor behaviour (2 * queue.waiting.length + 2)

end WorkQueue

end GraphStore
