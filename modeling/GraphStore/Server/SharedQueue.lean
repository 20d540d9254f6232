import GraphStore.Server.WorkQueue

/-!
# Queues that are shared

A queue with any number of producers at work, and its worker. A call that offers an item, and the
worker where it waits for one, look whether the shutdown has begun and act on what they saw in a
second step, so that anything may come between the two. What has happened is kept with the state.
-/

set_option autoImplicit false

namespace GraphStore

/-- Where a call that offers an item stands. The item goes by the number of its call. -/
inductive OfferState where
  /-- The call goes on. What it saw of the shutdown is known until it acts on it. -/
  | pending (seen : Option Bool)
  | accepted
  | refused (fault : QueueFault)
  /-- The producer gave the call up. -/
  | abandoned
deriving Repr, DecidableEq

inductive WorkerState where
  /-- The worker runs an item, or it waits for one. -/
  | working (seen : Option Bool)
  /-- The worker takes no item any more, as it saw the shutdown or the end of all producers. -/
  | leaving (sawShutdown : Bool)
  | returned (sawShutdown : Bool) (stats : WorkerStats)
  /-- The worker was given up before it returned. -/
  | dropped
deriving Repr, DecidableEq

/-- The queue as it is for somebody who looked at the shutdown before. -/
def WorkQueue.seenAs {α : Type} (queue : WorkQueue α) (seen : Bool) : WorkQueue α :=
  { queue with shutDown := seen }

/-- A queue with its producers and its worker, and what has happened so far. -/
structure SharedQueue where
  queue : WorkQueue Nat
  /-- How many producers there are. -/
  producers : Nat
  /-- The calls, in the order in which they began. -/
  offers : List OfferState
  worker : WorkerState
  /-- The items that were accepted, in the order in which their calls returned. -/
  accepted : List Nat
  /-- The items that were run to their end, and how they ended. -/
  finished : List (Nat × WorkOutcome)
deriving Repr, DecidableEq

namespace SharedQueue

/-- A turn of a producer, of the worker or of somebody who begins the shutdown. -/
inductive Turn where
  | clone
  | release
  /-- A producer begins to offer a new item. -/
  | offer
  /-- A call looks whether the shutdown has begun. -/
  | look (number : Nat)
  /-- A call acts on what it saw. -/
  | act (number : Nat)
  | abandon (number : Nat)
  | shutDown
  | workerLook
  | workerAct
  | finish (outcome : WorkOutcome)
  | leave
  | drop
deriving Repr, DecidableEq

/-- A queue that was just made, with one producer. -/
def fresh (capacity : Nat) : SharedQueue where
  queue := .fresh capacity
  producers := 1
  offers := []
  worker := .working none
  accepted := []
  finished := []

def isPending (shared : SharedQueue) : Bool :=
  shared.offers.any fun offer => offer matches .pending _

def settle (shared : SharedQueue) (number : Nat) (offer : OfferState) : SharedQueue :=
  { shared with offers := shared.offers.set number offer }

/-- Lets a producer go. The last one stays as long as it offers an item. -/
def release? (shared : SharedQueue) : Option SharedQueue :=
  match shared.producers with
  | 0 => none
  | 1 =>
      if shared.isPending then none
      else some { shared with producers := 0, queue := shared.queue.release }
  | more + 2 => some { shared with producers := more + 1 }

def look? (shared : SharedQueue) (number : Nat) : Option SharedQueue :=
  match shared.offers[number]? with
  | some (.pending _) => some (shared.settle number (.pending (some shared.queue.shutDown)))
  | _ => none

/-- Refuses an item, takes it, or lets the call wait for room and look again. -/
def act? (shared : SharedQueue) (number : Nat) : Option SharedQueue :=
  match shared.offers[number]? with
  | some (.pending (some seen)) =>
      match (shared.queue.seenAs seen).offer number with
      | .error fault => some (shared.settle number (.refused fault))
      | .ok none => some (shared.settle number (.pending none))
      | .ok (some next) =>
          some {
            shared.settle number .accepted with
            queue := next.seenAs shared.queue.shutDown
            accepted := shared.accepted ++ [number] }
  | _ => none

def abandon? (shared : SharedQueue) (number : Nat) : Option SharedQueue :=
  match shared.offers[number]? with
  | some (.pending _) => some (shared.settle number .abandoned)
  | _ => none

def workerLook? (shared : SharedQueue) : Option SharedQueue :=
  match shared.worker, shared.queue.running with
  | .working _, none => some { shared with worker := .working (some shared.queue.shutDown) }
  | _, _ => none

/-- Lets the worker stop, start an item, or wait and look again. -/
def workerAct? (shared : SharedQueue) : Option SharedQueue :=
  match shared.worker with
  | .working (some seen) =>
      if (shared.queue.seenAs seen).stop?.isSome then some { shared with worker := .leaving seen }
      else
        match (shared.queue.seenAs seen).start? with
        | some next =>
            some {
              shared with
              queue := next.seenAs shared.queue.shutDown, worker := .working none }
        | none => some { shared with worker := .working none }
  | _ => none

def finish? (shared : SharedQueue) (outcome : WorkOutcome) : Option SharedQueue :=
  match shared.worker with
  | .working _ => do
      let item ← shared.queue.running
      let queue ← shared.queue.finish? outcome
      return { shared with queue, finished := shared.finished ++ [(item, outcome)] }
  | _ => none

def leave? (shared : SharedQueue) : Option SharedQueue :=
  match shared.worker with
  | .leaving sawShutdown =>
      some {
        shared with
        queue := shared.queue.dismiss, worker := .returned sawShutdown shared.queue.stats }
  | _ => none

def drop? (shared : SharedQueue) : Option SharedQueue :=
  match shared.worker with
  | .working _ | .leaving _ =>
      some { shared with queue := shared.queue.dismiss, worker := .dropped }
  | _ => none

def after? (shared : SharedQueue) : Turn → Option SharedQueue
  | .clone =>
      if shared.producers = 0 then none
      else some { shared with producers := shared.producers + 1 }
  | .release => shared.release?
  | .offer =>
      if shared.producers = 0 then none
      else some { shared with offers := shared.offers ++ [.pending none] }
  | .look number => shared.look? number
  | .act number => shared.act? number
  | .abandon number => shared.abandon? number
  | .shutDown => some { shared with queue := shared.queue.beginShutdown }
  | .workerLook => shared.workerLook?
  | .workerAct => shared.workerAct?
  | .finish outcome => shared.finish? outcome
  | .leave => shared.leave?
  | .drop => shared.drop?

/-- The queue behind some turns, if all of them are possible. -/
def run? (shared : SharedQueue) (turns : List Turn) : Option SharedQueue :=
  turns.foldlM after? shared

end SharedQueue

end GraphStore
