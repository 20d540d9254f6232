import GraphStore.Server.WorkQueue

/-!
# Steps of a work queue

What a queue is behind an item that it accepts, and behind a step of its worker.
-/

set_option autoImplicit false

namespace GraphStore.WorkQueue

variable {α : Type} {queue next : WorkQueue α} {item : α} {outcome : WorkOutcome}

theorem of_offer_eq_some (offered : queue.offer item = .ok (some next)) :
    queue.stopped = false ∧ queue.waiting.length < queue.capacity ∧
      next = { queue with waiting := queue.waiting ++ [item] } := by
  rw [offer] at offered
  split at offered
  · cases offered
  split at offered
  · cases offered
  next isThere =>
    split at offered
    · cases offered
    next room =>
      rw [available] at room
      exact ⟨by simpa using isThere, by omega, (Option.some.inj (Except.ok.inj offered)).symm⟩

theorem eq_of_accept (accepted : queue.after? (.accept item) = some next) :
    next = { queue with waiting := queue.waiting ++ [item] } := by
  simp only [after?] at accepted
  split at accepted
  next offered =>
    subst accepted
    exact (of_offer_eq_some offered).2.2
  next => cases accepted

theorem exists_of_start? (moved : queue.start? = some next) :
    ∃ item rest, queue.waiting = item :: rest ∧ queue.running = none ∧
      next = {
        queue with
        waiting := rest, running := some item, started := queue.started ++ [item] } := by
  rw [start?] at moved
  split at moved
  · cases moved
  next item rest waits =>
    split at moved
    next ready =>
      simp only [isIdle, Bool.and_eq_true, Option.isNone_iff_eq_none] at ready
      exact ⟨item, rest, waits, ready.1.2, (Option.some.inj moved).symm⟩
    · cases moved

theorem eq_of_finish? (moved : queue.finish? outcome = some next) :
    next = { queue with running := none, stats := queue.stats.count outcome } := by
  rw [finish?] at moved
  split at moved
  · cases moved
  · exact (Option.some.inj moved).symm

theorem shutDown_of_start? (moved : queue.start? = some next) : queue.shutDown = false := by
  rw [start?] at moved
  split at moved
  · cases moved
  · split at moved
    next ready => simpa using (Bool.and_eq_true_iff.mp ready).2
    · cases moved

theorem isSome_stop?_iff :
    queue.stop?.isSome ↔
      queue.stopped = false ∧ queue.running = none ∧
        (queue.shutDown = true ∨ queue.waiting = [] ∧ queue.hasProducers = false) := by
  simp [stop?, isIdle, and_assoc]

theorem eq_of_stop? (stops : queue.stop? = some next) : next = queue.dismiss := by
  rw [stop?] at stops
  split at stops
  · exact (Option.some.inj stops).symm
  · cases stops

theorem workerStep?_dismiss (behaviour : α → Behaviour) (free : queue.running = none) :
    queue.dismiss.workerStep? behaviour = none := by
  simp [workerStep?, dismiss, free, stop?, start?, isIdle]

end GraphStore.WorkQueue
