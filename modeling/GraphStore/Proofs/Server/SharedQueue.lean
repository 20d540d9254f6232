import GraphStore.Proofs.Server.WorkQueue
import GraphStore.Server.SharedQueue
import Mathlib.Data.List.Nodup

/-!
# Shared queues in order

Runs of a shared queue, whoever takes a turn when. Main statement: at any time the items that were
started are the first of those that were accepted, each once and one after the other, and what the
worker returns counts how they ended. What the worker of a queue does by itself is such a run, too.
-/

set_option autoImplicit false

namespace GraphStore

/-- The number of times that each outcome is among some. -/
def WorkerStats.ofOutcomes (outcomes : List WorkOutcome) : WorkerStats where
  completed := outcomes.count .completed
  failed := outcomes.count .failed
  panicked := outcomes.count .panicked
  cancelled := outcomes.count .cancelled

theorem WorkerStats.count_ofOutcomes (outcomes : List WorkOutcome) (outcome : WorkOutcome) :
    (ofOutcomes outcomes).count outcome = ofOutcomes (outcomes ++ [outcome]) := by
  cases outcome <;> simp [ofOutcomes, count]

@[simp]
theorem WorkQueue.seenAs_shutDown {α : Type} (queue : WorkQueue α) :
    queue.seenAs queue.shutDown = queue := rfl

/-- Whether the worker has seen the shutdown, or has stopped for another reason. -/
def WorkerState.isThrough : WorkerState → Bool
  | .working seen => seen = some true
  | _ => true

namespace SharedQueue

/-!
## Items in line
-/

/-- Whether items pass through a queue in line: from those that were accepted to those that wait, to
the one that runs, and to those that are finished. -/
structure InLine (capacity : Nat) (queue : WorkQueue Nat) (accepted : List Nat)
    (finished : List (Nat × WorkOutcome)) : Prop where
  capacity_eq : queue.capacity = capacity
  room : queue.waiting.length ≤ capacity
  whole : queue.stopped = false → accepted = queue.started ++ queue.waiting
  front : queue.started <+: accepted
  single : finished.map Prod.fst ++ queue.running.toList = queue.started
  counted : queue.stats = .ofOutcomes (finished.map Prod.snd)

namespace InLine

variable {capacity number item : Nat} {queue next : WorkQueue Nat} {accepted : List Nat}
  {finished : List (Nat × WorkOutcome)} {seen shutDown : Bool} {outcome : WorkOutcome}

theorem accept (inLine : InLine capacity queue accepted finished)
    (offered : (queue.seenAs seen).offer number = .ok (some next)) :
    InLine capacity (next.seenAs shutDown) (accepted ++ [number]) finished := by
  obtain ⟨isThere, room, rfl⟩ := WorkQueue.of_offer_eq_some offered
  have room : queue.waiting.length < queue.capacity := room
  constructor
  case capacity_eq => exact inLine.capacity_eq
  case room =>
    rw [inLine.capacity_eq] at room
    simpa [WorkQueue.seenAs, Nat.succ_le_iff] using room
  case whole =>
    intro _
    change accepted ++ [number] = queue.started ++ (queue.waiting ++ [number])
    rw [inLine.whole isThere, List.append_assoc]
  case front => exact inLine.front.trans (List.prefix_append _ _)
  case single => exact inLine.single
  case counted => exact inLine.counted

theorem start (inLine : InLine capacity queue accepted finished) (isThere : queue.stopped = false)
    (moved : (queue.seenAs seen).start? = some next) :
    InLine capacity (next.seenAs shutDown) accepted finished := by
  obtain ⟨item, rest, waits, free, rfl⟩ := WorkQueue.exists_of_start? moved
  have waits : queue.waiting = item :: rest := waits
  have free : queue.running = none := free
  have whole : accepted = (queue.started ++ [item]) ++ rest := by
    rw [inLine.whole isThere, waits, List.append_cons]
  constructor
  case capacity_eq => exact inLine.capacity_eq
  case room =>
    have room := inLine.room
    rw [waits, List.length_cons] at room
    exact Nat.le_of_succ_le room
  case whole => exact fun _ => whole
  case front => exact ⟨rest, whole.symm⟩
  case single =>
    have single := inLine.single
    rw [free, Option.toList_none, List.append_nil] at single
    change finished.map Prod.fst ++ [item] = queue.started ++ [item]
    rw [single]
  case counted => exact inLine.counted

theorem finish (inLine : InLine capacity queue accepted finished) (runs : queue.running = some item)
    (moved : queue.finish? outcome = some next) :
    InLine capacity next accepted (finished ++ [(item, outcome)]) := by
  obtain rfl := WorkQueue.eq_of_finish? moved
  constructor
  case capacity_eq => exact inLine.capacity_eq
  case room => exact inLine.room
  case whole => exact inLine.whole
  case front => exact inLine.front
  case single =>
    have single := inLine.single
    rw [runs] at single
    rw [List.map_append, Option.toList_none, List.append_nil]
    exact single
  case counted =>
    rw [List.map_append]
    change queue.stats.count outcome = _
    rw [inLine.counted, WorkerStats.count_ofOutcomes]
    rfl

/-- The flags of a queue do not count. -/
theorem flags (inLine : InLine capacity queue accepted finished) {hasProducers : Bool} :
    InLine capacity { queue with shutDown, hasProducers } accepted finished :=
  ⟨inLine.capacity_eq, inLine.room, inLine.whole, inLine.front, inLine.single, inLine.counted⟩

theorem dismiss (inLine : InLine capacity queue accepted finished) :
    InLine capacity queue.dismiss accepted finished where
  capacity_eq := inLine.capacity_eq
  room := Nat.zero_le _
  whole isThere := by cases isThere
  front := inLine.front
  single := inLine.single
  counted := inLine.counted

end InLine

/-!
## Calls
-/

/-- Whether the calls fit what was accepted, each item once, and each call under way has its
producer. -/
structure Booked (offers : List OfferState) (accepted : List Nat) (producers : Nat) : Prop where
  accepted_iff : ∀ number, number ∈ accepted ↔ offers[number]? = some .accepted
  distinct : accepted.Nodup
  held : producers = 0 → ∀ (number : Nat) (seen), offers[number]? ≠ some (.pending seen)

namespace Booked

variable {offers : List OfferState} {accepted : List Nat} {producers number : Nat}
  {seen : Option Bool} {offer : OfferState}

theorem not_mem (booked : Booked offers accepted producers)
    (stands : offers[number]? = some (.pending seen)) : number ∉ accepted := by
  rw [booked.accepted_iff, stands]
  nofun

theorem producers_ne_zero (booked : Booked offers accepted producers)
    (stands : offers[number]? = some (.pending seen)) : producers ≠ 0 :=
  fun nobody => booked.held nobody number seen stands

private theorem getElem?_settled (stands : offers[number]? = some (.pending seen))
    (offer : OfferState) (other : Nat) :
    (offers.set number offer)[other]? = if other = number then some offer else offers[other]? := by
  have inside := (List.getElem?_eq_some_iff.mp stands).1
  rw [List.getElem?_set]
  by_cases same : number = other
  · subst same
    simp [inside]
  · rw [if_neg same, if_neg (Ne.symm same)]

theorem settle (booked : Booked offers accepted producers)
    (stands : offers[number]? = some (.pending seen)) (unaccepted : offer ≠ .accepted) :
    Booked (offers.set number offer) accepted producers where
  accepted_iff other := by
    rw [getElem?_settled stands]
    split
    next same => simpa [same, unaccepted] using booked.not_mem stands
    next => exact booked.accepted_iff other
  distinct := booked.distinct
  held nobody := absurd nobody (booked.producers_ne_zero stands)

theorem accept (booked : Booked offers accepted producers)
    (stands : offers[number]? = some (.pending seen)) :
    Booked (offers.set number .accepted) (accepted ++ [number]) producers where
  accepted_iff other := by
    rw [getElem?_settled stands, List.mem_append, List.mem_singleton]
    split
    next same => simp [same]
    next different => rw [booked.accepted_iff, or_iff_left different]
  distinct := by
    rw [← List.concat_eq_append]
    exact booked.distinct.concat (booked.not_mem stands)
  held nobody := absurd nobody (booked.producers_ne_zero stands)

theorem concat (booked : Booked offers accepted producers) (any : producers ≠ 0) :
    Booked (offers ++ [.pending none]) accepted producers where
  accepted_iff other := by
    rw [booked.accepted_iff]
    rcases Nat.lt_trichotomy other offers.length with former | rfl | beyond
    · rw [List.getElem?_append_left former]
    · rw [List.getElem?_concat_length, List.getElem?_eq_none (Nat.le_refl _)]
      simp
    · rw [List.getElem?_eq_none (Nat.le_of_lt beyond), List.getElem?_eq_none]
      rw [List.length_append, List.length_singleton]
      exact beyond
  distinct := booked.distinct
  held nobody := absurd nobody any

theorem recount (booked : Booked offers accepted producers) {others : Nat} (any : others ≠ 0) :
    Booked offers accepted others :=
  ⟨booked.accepted_iff, booked.distinct, fun nobody => absurd nobody any⟩

end Booked

/-!
## The worker
-/

/-- Whether what the worker does fits its queue. -/
inductive WorkerFits (queue : WorkQueue Nat) (producers : Nat) (accepted : List Nat) :
    WorkerState → Prop where
  | working {seen : Option Bool} (isThere : queue.stopped = false)
      (free : seen ≠ none → queue.running = none)
      (begun : seen = some true → queue.shutDown = true) :
      WorkerFits queue producers accepted (.working seen)
  | leavingAtShutdown (isThere : queue.stopped = false) (free : queue.running = none)
      (begun : queue.shutDown = true) : WorkerFits queue producers accepted (.leaving true)
  | leavingAtEnd (isThere : queue.stopped = false) (free : queue.running = none)
      (empty : queue.waiting = []) (alone : producers = 0) :
      WorkerFits queue producers accepted (.leaving false)
  | returnedAtShutdown (gone : queue.stopped = true) (free : queue.running = none)
      (begun : queue.shutDown = true) :
      WorkerFits queue producers accepted (.returned true queue.stats)
  | returnedAtEnd (gone : queue.stopped = true) (free : queue.running = none)
      (alone : producers = 0) (all : accepted = queue.started) :
      WorkerFits queue producers accepted (.returned false queue.stats)
  | dropped (gone : queue.stopped = true) : WorkerFits queue producers accepted .dropped

namespace WorkerFits

variable {queue next : WorkQueue Nat} {producers number : Nat} {accepted : List Nat}
  {worker : WorkerState} {seen : Bool}

/-- The flags of a queue may change, as long as the shutdown stays and no producer comes back. -/
theorem imp (fits : WorkerFits queue producers accepted worker) {others : Nat}
    (stopped : next.stopped = queue.stopped) (running : next.running = queue.running)
    (waiting : next.waiting = queue.waiting) (started : next.started = queue.started)
    (stats : next.stats = queue.stats) (begins : queue.shutDown = true → next.shutDown = true)
    (nobody : producers = 0 → others = 0) : WorkerFits next others accepted worker := by
  cases fits with
  | working isThere free begun =>
      exact .working (stopped.trans isThere) (fun looked => running.trans (free looked))
        fun saw => begins (begun saw)
  | leavingAtShutdown isThere free begun =>
      exact .leavingAtShutdown (stopped.trans isThere) (running.trans free) (begins begun)
  | leavingAtEnd isThere free empty alone =>
      exact .leavingAtEnd (stopped.trans isThere) (running.trans free) (waiting.trans empty)
        (nobody alone)
  | returnedAtShutdown gone free begun =>
      rw [← stats]
      exact .returnedAtShutdown (stopped.trans gone) (running.trans free) (begins begun)
  | returnedAtEnd gone free alone all =>
      rw [← stats]
      exact .returnedAtEnd (stopped.trans gone) (running.trans free) (nobody alone)
        (all.trans started.symm)
  | dropped gone => exact .dropped (stopped.trans gone)

/-- Only a worker that is still there sees an item accepted, and not one that saw all producers
go. -/
theorem accept (fits : WorkerFits queue producers accepted worker) (any : producers ≠ 0)
    (offered : (queue.seenAs seen).offer number = .ok (some next)) :
    WorkerFits (next.seenAs queue.shutDown) producers (accepted ++ [number]) worker := by
  obtain ⟨isThere, -, rfl⟩ := WorkQueue.of_offer_eq_some offered
  have isThere : queue.stopped = false := isThere
  cases fits with
  | working isThere free begun => exact .working isThere free begun
  | leavingAtShutdown isThere free begun => exact .leavingAtShutdown isThere free begun
  -- The call that goes on has a producer, so the worker cannot have seen the last one go.
  | leavingAtEnd isThere free empty alone => exact absurd alone any
  | returnedAtShutdown gone free begun => simp [isThere] at gone
  | returnedAtEnd gone free alone all => exact absurd alone any
  | dropped gone => simp [isThere] at gone

end WorkerFits

/-!
## Steps
-/

/-- What a turn can do. -/
inductive Step (shared : SharedQueue) : SharedQueue → Prop where
  | cloned (any : shared.producers ≠ 0) :
      Step shared { shared with producers := shared.producers + 1 }
  | released {more : Nat} (several : shared.producers = more + 2) :
      Step shared { shared with producers := more + 1 }
  | lastReleased (idle : ∀ (number : Nat) (seen), shared.offers[number]? ≠ some (.pending seen)) :
      Step shared { shared with producers := 0, queue := shared.queue.release }
  | offered (any : shared.producers ≠ 0) :
      Step shared { shared with offers := shared.offers ++ [.pending none] }
  | settled {number : Nat} {seen : Option Bool} {offer : OfferState}
      (stands : shared.offers[number]? = some (.pending seen)) (unaccepted : offer ≠ .accepted) :
      Step shared (shared.settle number offer)
  | accepted {number : Nat} {seen : Bool} {later : WorkQueue Nat}
      (stands : shared.offers[number]? = some (.pending (some seen)))
      (taken : (shared.queue.seenAs seen).offer number = .ok (some later)) :
      Step shared {
        shared.settle number .accepted with
        queue := later.seenAs shared.queue.shutDown
        accepted := shared.accepted ++ [number] }
  | begun : Step shared { shared with queue := shared.queue.beginShutdown }
  | looked {seen : Option Bool} (works : shared.worker = .working seen)
      (free : shared.queue.running = none) :
      Step shared { shared with worker := .working (some shared.queue.shutDown) }
  | stopped {seen : Bool} (works : shared.worker = .working (some seen))
      (stops : (shared.queue.seenAs seen).stop?.isSome) :
      Step shared { shared with worker := .leaving seen }
  | started {seen : Bool} {later : WorkQueue Nat} (works : shared.worker = .working (some seen))
      (moved : (shared.queue.seenAs seen).start? = some later) :
      Step shared {
        shared with queue := later.seenAs shared.queue.shutDown, worker := .working none }
  | waited {seen : Bool} (works : shared.worker = .working (some seen))
      (stays : ¬(shared.queue.seenAs seen).stop?.isSome) :
      Step shared { shared with worker := .working none }
  | finished {seen : Option Bool} {item : Nat} {outcome : WorkOutcome} {later : WorkQueue Nat}
      (works : shared.worker = .working seen) (runs : shared.queue.running = some item)
      (ended : shared.queue.finish? outcome = some later) :
      Step shared {
        shared with queue := later, finished := shared.finished ++ [(item, outcome)] }
  | returned {sawShutdown : Bool} (leaves : shared.worker = .leaving sawShutdown) :
      Step shared {
        shared with
        queue := shared.queue.dismiss, worker := .returned sawShutdown shared.queue.stats }
  | dropped : Step shared { shared with queue := shared.queue.dismiss, worker := .dropped }

variable {shared next later : SharedQueue} {capacity number : Nat} {turn : Turn} {turns : List Turn}

theorem step_of_release? (moved : shared.release? = some next) : Step shared next := by
  rw [release?] at moved
  split at moved
  · cases moved
  · split at moved
    · cases moved
    next idle =>
      cases moved
      exact .lastReleased fun number seen stands =>
        idle (List.any_eq_true.mpr ⟨_, List.mem_of_getElem? stands, rfl⟩)
  next more several =>
    cases moved
    exact .released several

theorem step_of_act? (moved : shared.act? number = some next) : Step shared next := by
  rw [act?] at moved
  split at moved
  next seen stands =>
    split at moved
    next => cases moved; exact .settled stands nofun
    next => cases moved; exact .settled stands nofun
    next later taken =>
      cases moved
      exact .accepted stands taken
  · cases moved

theorem step_of_workerAct? (moved : shared.workerAct? = some next) : Step shared next := by
  rw [workerAct?] at moved
  split at moved
  next seen works =>
    split at moved
    next stops =>
      cases moved
      exact .stopped works stops
    next stays =>
      split at moved
      next later started =>
        cases moved
        exact .started works started
      next =>
        cases moved
        exact .waited works stays
  · cases moved

theorem step_of_finish? {outcome : WorkOutcome} (moved : shared.finish? outcome = some next) :
    Step shared next := by
  rw [finish?] at moved
  split at moved
  next seen works =>
    obtain ⟨item, runs, moved⟩ := Option.bind_eq_some_iff.mp moved
    obtain ⟨later, ended, moved⟩ := Option.bind_eq_some_iff.mp moved
    cases moved
    exact .finished works runs ended
  · cases moved

theorem step_of_after? (moved : shared.after? turn = some next) : Step shared next := by
  cases turn with
  | clone =>
      rw [after?] at moved
      split at moved
      · cases moved
      next any =>
        cases moved
        exact .cloned any
  | release => exact step_of_release? moved
  | offer =>
      rw [after?] at moved
      split at moved
      · cases moved
      next any =>
        cases moved
        exact .offered any
  | look number =>
      rw [after?, look?] at moved
      split at moved
      next stands =>
        cases moved
        exact .settled stands nofun
      · cases moved
  | act number => exact step_of_act? moved
  | abandon number =>
      rw [after?, abandon?] at moved
      split at moved
      next stands =>
        cases moved
        exact .settled stands nofun
      · cases moved
  | shutDown =>
      cases moved
      exact .begun
  | workerLook =>
      rw [after?, workerLook?] at moved
      split at moved
      next works free =>
        cases moved
        exact .looked works free
      · cases moved
  | workerAct => exact step_of_workerAct? moved
  | finish outcome => exact step_of_finish? moved
  | leave =>
      rw [after?, leave?] at moved
      split at moved
      next leaves =>
        cases moved
        exact .returned leaves
      · cases moved
  | drop =>
      rw [after?, drop?] at moved
      split at moved
      · cases moved
        exact .dropped
      · cases moved
        exact .dropped
      · cases moved

/-- What every step keeps is kept by a run. -/
theorem run_induction {keeps : SharedQueue → Prop} (ran : shared.run? turns = some later)
    (start : keeps shared) (step : ∀ {shared next}, keeps shared → Step shared next → keeps next) :
    keeps later := by
  induction turns generalizing shared with
  | nil =>
      cases ran
      exact start
  | cons turn rest ih =>
      rw [run?, List.foldlM_cons] at ran
      obtain ⟨middle, moved, ran⟩ := Option.bind_eq_some_iff.mp ran
      exact ih ran (step start (step_of_after? moved))

/-!
## Order
-/

/-- Whether a state can come about from a new queue for `capacity` items. -/
structure Orderly (capacity : Nat) (shared : SharedQueue) : Prop where
  inLine : InLine capacity shared.queue shared.accepted shared.finished
  booked : Booked shared.offers shared.accepted shared.producers
  hasProducers : shared.queue.hasProducers = decide (shared.producers ≠ 0)
  fits : WorkerFits shared.queue shared.producers shared.accepted shared.worker

theorem orderly_fresh (capacity : Nat) : Orderly capacity (.fresh capacity) where
  inLine := ⟨rfl, Nat.zero_le _, fun _ => rfl, List.prefix_refl _, rfl, rfl⟩
  booked := ⟨fun number => by simp [fresh], .nil, nofun⟩
  hasProducers := rfl
  fits := .working rfl (fun _ => rfl) nofun

theorem Orderly.step (orderly : Orderly capacity shared) (moved : Step shared next) :
    Orderly capacity next := by
  obtain ⟨inLine, booked, hasProducers, fits⟩ := orderly
  cases moved with
  | cloned any =>
      exact ⟨inLine, booked.recount (Nat.succ_ne_zero _), by simpa [any] using hasProducers,
        fits.imp rfl rfl rfl rfl rfl id fun nobody => absurd nobody any⟩
  | released several =>
      have any : shared.producers ≠ 0 := by omega
      exact ⟨inLine, booked.recount (Nat.succ_ne_zero _), by simpa [any] using hasProducers,
        fits.imp rfl rfl rfl rfl rfl id fun nobody => absurd nobody any⟩
  | lastReleased idle =>
      exact ⟨inLine.flags, ⟨booked.accepted_iff, booked.distinct, fun _ => idle⟩, rfl,
        fits.imp rfl rfl rfl rfl rfl id fun _ => rfl⟩
  | offered any => exact ⟨inLine, booked.concat any, hasProducers, fits⟩
  | settled stands unaccepted => exact ⟨inLine, booked.settle stands unaccepted, hasProducers, fits⟩
  | accepted stands taken =>
      have any := booked.producers_ne_zero stands
      refine ⟨inLine.accept taken, booked.accept stands, ?_, fits.accept any taken⟩
      obtain ⟨-, -, rfl⟩ := WorkQueue.of_offer_eq_some taken
      exact hasProducers
  | begun =>
      exact ⟨inLine.flags, booked, hasProducers, fits.imp rfl rfl rfl rfl rfl (fun _ => rfl) id⟩
  | looked works free =>
      rw [works] at fits
      cases fits with
      | working isThere =>
          exact ⟨inLine, booked, hasProducers, .working isThere (fun _ => free) Option.some.inj⟩
  | @stopped seen works stops =>
      rw [works] at fits
      refine ⟨inLine, booked, hasProducers, ?_⟩
      obtain ⟨-, free, why⟩ := WorkQueue.isSome_stop?_iff.mp stops
      cases fits with
      | working isThere _ begun =>
          cases seen with
          | true => exact .leavingAtShutdown isThere free (begun rfl)
          -- What was seen is no shutdown, whether or not one has begun since.
          | false =>
              obtain ⟨empty, alone⟩ := why.resolve_left nofun
              have alone : shared.queue.hasProducers = false := alone
              rw [hasProducers] at alone
              exact .leavingAtEnd isThere free empty (by simpa using alone)
  | started works moved =>
      rw [works] at fits
      cases fits with
      | working isThere =>
          refine ⟨inLine.start isThere moved, booked, ?_, ?_⟩
          · obtain ⟨_, _, -, -, rfl⟩ := WorkQueue.exists_of_start? moved
            exact hasProducers
          · obtain ⟨_, _, -, -, rfl⟩ := WorkQueue.exists_of_start? moved
            exact .working isThere (fun looked => absurd rfl looked) nofun
  | waited works =>
      rw [works] at fits
      cases fits with
      | working isThere =>
          exact ⟨inLine, booked, hasProducers,
            .working isThere (fun looked => absurd rfl looked) nofun⟩
  | finished works runs ended =>
      refine ⟨inLine.finish runs ended, booked, ?_, ?_⟩
      · rw [WorkQueue.eq_of_finish? ended]
        exact hasProducers
      · rw [works, WorkQueue.eq_of_finish? ended]
        rw [works] at fits
        cases fits with
        | working isThere _ begun => exact .working isThere (fun _ => rfl) begun
  | returned leaves =>
      rw [leaves] at fits
      refine ⟨inLine.dismiss, booked, hasProducers, ?_⟩
      cases fits with
      | leavingAtShutdown isThere free begun =>
          exact .returnedAtShutdown rfl free begun
      | leavingAtEnd isThere free empty alone =>
          -- Nothing waits when the worker leaves, so all that was accepted is started.
          refine .returnedAtEnd rfl free alone ?_
          rw [inLine.whole isThere, empty, List.append_nil]
          rfl
  | dropped => exact ⟨inLine.dismiss, booked, hasProducers, .dropped rfl⟩

theorem Orderly.run (orderly : Orderly capacity shared) (ran : shared.run? turns = some later) :
    Orderly capacity later := run_induction ran orderly .step

/-!
## What stays
-/

/-- A call that has returned stays as it is. -/
theorem offers_step {offer : OfferState} (stands : shared.offers[number]? = some offer)
    (settled : ∀ seen, offer ≠ .pending seen) (moved : Step shared next) :
    next.offers[number]? = some offer := by
  have keeps {other : Nat} {seen : Option Bool} (given : OfferState)
      (pending : shared.offers[other]? = some (.pending seen)) :
      (shared.offers.set other given)[number]? = some offer := by
    rw [List.getElem?_set_ne, stands]
    rintro rfl
    rw [pending] at stands
    exact settled seen (Option.some.inj stands).symm
  cases moved with
  | offered =>
      change (shared.offers ++ [_])[number]? = _
      rw [List.getElem?_append_left (List.getElem?_eq_some_iff.mp stands).1, stands]
  | settled pending => exact keeps _ pending
  | accepted pending => exact keeps _ pending
  | _ => exact stands

theorem offers_run {offer : OfferState} (stands : shared.offers[number]? = some offer)
    (settled : ∀ seen, offer ≠ .pending seen) (ran : shared.run? turns = some later) :
    later.offers[number]? = some offer :=
  run_induction ran stands fun stands moved => offers_step stands settled moved

/-- A worker that is through starts nothing: where it saw the shutdown it stops, and where it has
stopped it does not come back. -/
theorem started_step (through : shared.worker.isThrough) (orderly : Orderly capacity shared)
    (moved : Step shared next) :
    next.worker.isThrough ∧ next.queue.started = shared.queue.started := by
  have fits := orderly.fits
  have saw {seen : Option Bool} (works : shared.worker = .working seen) : seen = some true := by
    rw [works] at through
    exact of_decide_eq_true through
  cases moved with
  | accepted _ taken =>
      obtain ⟨-, -, rfl⟩ := WorkQueue.of_offer_eq_some taken
      exact ⟨through, rfl⟩
  | looked works =>
      obtain rfl := saw works
      rw [works] at fits
      cases fits with
      | working _ _ begun => exact ⟨by simp [WorkerState.isThrough, begun rfl], rfl⟩
  | started works started =>
      cases saw works
      exact absurd (WorkQueue.shutDown_of_start? started) nofun
  | waited works stays =>
      cases saw works
      rw [works] at fits
      cases fits with
      | working isThere free =>
          refine absurd ?_ stays
          exact WorkQueue.isSome_stop?_iff.mpr ⟨isThere, free nofun, .inl rfl⟩
  | finished _ _ ended =>
      rw [WorkQueue.eq_of_finish? ended]
      exact ⟨through, rfl⟩
  | stopped | returned | dropped => exact ⟨rfl, rfl⟩
  | _ => exact ⟨through, rfl⟩

theorem started_run (through : shared.worker.isThrough) (orderly : Orderly capacity shared)
    (ran : shared.run? turns = some later) : later.queue.started = shared.queue.started := by
  let keeps (later : SharedQueue) : Prop :=
    later.worker.isThrough ∧ Orderly capacity later ∧ later.queue.started = shared.queue.started
  have kept : keeps later := by
    refine run_induction ran ⟨through, orderly, rfl⟩ ?_
    rintro middle next ⟨through, orderly, same⟩ moved
    have ⟨through, step⟩ := started_step through orderly moved
    exact ⟨through, orderly.step moved, step.trans same⟩
  exact kept.2.2

/-!
## The worker alone
-/

theorem run?_append {more : List Turn} (ran : shared.run? turns = some next) :
    shared.run? (turns ++ more) = next.run? more := by
  rw [run?, List.foldlM_append]
  exact congrArg (Option.bind · _) ran

section

variable {queue : WorkQueue Nat} {behaviour : Nat → WorkQueue.Behaviour} {outcome : WorkOutcome}
  {item : Nat} {seen : Option Bool}

theorem run?_stop (works : shared.worker = .working seen)
    (stops : shared.queue.stop? = some queue) :
    shared.run? [.workerLook, .workerAct, .leave] =
      some {
        shared with
        queue, worker := .returned shared.queue.shutDown shared.queue.stats } := by
  have free := (WorkQueue.isSome_stop?_iff.mp (by rw [stops]; rfl)).2.1
  obtain rfl := WorkQueue.eq_of_stop? stops
  simp [run?, after?, workerLook?, workerAct?, leave?, works, free, stops]

theorem run?_start (works : shared.worker = .working seen) (stays : shared.queue.stop? = none)
    (starts : shared.queue.start? = some queue) :
    shared.run? [.workerLook, .workerAct] =
      some { shared with queue, worker := .working none } := by
  obtain ⟨_, _, -, free, next⟩ := WorkQueue.exists_of_start? starts
  have same : queue.seenAs shared.queue.shutDown = queue := by rw [next]; rfl
  simp [run?, after?, workerLook?, workerAct?, works, free, stays, starts, same]

theorem run?_finish (works : shared.worker = .working seen)
    (runs : shared.queue.running = some item) (ends : shared.queue.finish? outcome = some queue) :
    shared.run? [.finish outcome] =
      some { shared with queue, finished := shared.finished ++ [(item, outcome)] } := by
  simp [run?, after?, finish?, works, runs, ends]

/-- A step that the worker makes where nobody else takes a turn is made of turns. -/
theorem exists_run?_of_workerStep? (works : shared.worker = .working none)
    (moved : shared.queue.workerStep? behaviour = some queue) :
    ∃ turns later, shared.run? turns = some later ∧ later.queue = queue ∧
      (later.worker = .working none ∨ queue.workerStep? behaviour = none) := by
  rw [WorkQueue.workerStep?] at moved
  split at moved
  next free =>
    cases stops : shared.queue.stop? with
    | some next =>
        rw [stops] at moved
        cases moved
        refine ⟨_, _, run?_stop works stops, rfl, .inr ?_⟩
        rw [WorkQueue.eq_of_stop? stops, WorkQueue.workerStep?_dismiss behaviour free]
    | none =>
        rw [stops] at moved
        exact ⟨_, _, run?_start works stops moved, rfl, .inl rfl⟩
  next item runs =>
    split at moved
    next =>
      let begun := { shared with queue := shared.queue.beginShutdown }
      have ends := run?_finish (show begun.worker = _ from works) runs moved
      exact ⟨.shutDown :: [_], _, ends, rfl, .inl works⟩
    next => exact ⟨_, _, run?_finish works runs moved, rfl, .inl works⟩

/-- So is a run of the worker by itself. -/
theorem exists_run?_of_runFor (works : shared.worker = .working none) (steps : Nat) :
    ∃ turns later, shared.run? turns = some later ∧
      later.queue = shared.queue.runFor behaviour steps := by
  induction steps generalizing shared with
  | zero => exact ⟨[], shared, rfl, rfl⟩
  | succ steps ih =>
      rw [WorkQueue.runFor]
      cases moved : shared.queue.workerStep? behaviour with
      | none => exact ⟨[], shared, rfl, rfl⟩
      | some queue =>
          obtain ⟨turns, later, ran, rfl, goesOn | ends⟩ := exists_run?_of_workerStep? works moved
          · obtain ⟨more, last, goesOn, same⟩ := ih goesOn
            exact ⟨turns ++ more, last, (run?_append ran).trans goesOn, same⟩
          · refine ⟨turns, later, ran, ?_⟩
            cases steps with
            | zero => rfl
            | succ steps =>
                change _ = later.queue.runFor behaviour (steps + 1)
                rw [WorkQueue.runFor, ends]

/-- Whether the worker can start the items that wait. -/
structure IsReady (shared : SharedQueue) (waiting : List Nat) : Prop where
  works : ∃ seen, shared.worker = .working seen
  isThere : shared.queue.stopped = false
  goesOn : shared.queue.shutDown = false
  free : shared.queue.running = none
  waits : shared.queue.waiting = waiting

theorem IsReady.first {rest : List Nat} (ready : shared.IsReady (item :: rest))
    (outcome : WorkOutcome) :
    ∃ turns next, shared.run? turns = some next ∧ next.IsReady rest ∧
      next.accepted = shared.accepted ∧ next.finished = shared.finished ++ [(item, outcome)] := by
  obtain ⟨⟨seen, works⟩, isThere, goesOn, free, waits⟩ := ready
  have stays : shared.queue.stop? = none := by simp [WorkQueue.stop?, goesOn, waits]
  have starts : shared.queue.start? = some {
      shared.queue with
      waiting := rest, running := some item, started := shared.queue.started ++ [item] } := by
    simp [WorkQueue.start?, WorkQueue.isIdle, isThere, goesOn, free, waits]
  have started := run?_start works stays starts
  have ran := (run?_append started).trans (@run?_finish _ _ outcome _ _ rfl rfl rfl)
  exact ⟨_, _, ran, ⟨⟨none, rfl⟩, isThere, goesOn, rfl, rfl⟩, rfl, rfl⟩

theorem IsReady.all {waiting : List Nat} (ready : shared.IsReady waiting)
    (outcome : Nat → WorkOutcome) :
    ∃ turns later, shared.run? turns = some later ∧ later.accepted = shared.accepted ∧
      later.finished = shared.finished ++ waiting.map fun item => (item, outcome item) := by
  induction waiting generalizing shared with
  | nil => exact ⟨[], shared, rfl, rfl, (List.append_nil _).symm⟩
  | cons item rest ih =>
      obtain ⟨turns, next, ran, ready, same, ended⟩ := ready.first (outcome item)
      obtain ⟨more, later, ranOn, accepted, finished⟩ := ih ready
      refine ⟨turns ++ more, later, (run?_append ran).trans ranOn, accepted.trans same, ?_⟩
      rw [finished, ended, List.map_cons, ← List.append_cons]

theorem Orderly.exists_isReady (orderly : Orderly capacity shared)
    (works : shared.worker = .working seen) (goesOn : shared.queue.shutDown = false)
    (outcome : Nat → WorkOutcome) :
    ∃ turns next, shared.run? turns = some next ∧ next.IsReady shared.queue.waiting ∧
      next.accepted = shared.accepted ∧ next.finished = shared.finished ++
        shared.queue.running.toList.map fun item => (item, outcome item) := by
  have fits := orderly.fits
  rw [works] at fits
  cases fits with
  | working isThere =>
      cases runs : shared.queue.running with
      | none =>
          exact ⟨[], shared, rfl, ⟨⟨seen, works⟩, isThere, goesOn, runs, rfl⟩, rfl,
            (List.append_nil _).symm⟩
      | some item =>
          have ends : shared.queue.finish? (outcome item) = some {
              shared.queue with
              running := none, stats := shared.queue.stats.count (outcome item) } := by
            rw [WorkQueue.finish?, runs]
          have ran := run?_finish works runs ends
          exact ⟨_, _, ran, ⟨⟨seen, works⟩, isThere, goesOn, rfl, rfl⟩, rfl, rfl⟩

/-- Unless the shutdown has begun, the item that runs and those that wait can be run to their ends,
one after the other and whatever the ends are. -/
theorem Orderly.exists_run? (orderly : Orderly capacity shared)
    (works : shared.worker = .working seen) (goesOn : shared.queue.shutDown = false)
    (outcome : Nat → WorkOutcome) :
    ∃ turns later, shared.run? turns = some later ∧ later.accepted = shared.accepted ∧
      later.finished = shared.finished ++
        (shared.queue.running.toList ++ shared.queue.waiting).map fun item =>
          (item, outcome item) := by
  obtain ⟨turns, next, ran, ready, same, ended⟩ := orderly.exists_isReady works goesOn outcome
  obtain ⟨more, later, ranOn, accepted, finished⟩ := ready.all outcome
  refine ⟨turns ++ more, later, (run?_append ran).trans ranOn, accepted.trans same, ?_⟩
  rw [finished, ended, List.append_assoc, List.map_append]

end

/-!
## What callers may rely on
-/

/-- Whether a queue for `capacity` items keeps what it accepts, once and in order. -/
structure KeepsOrder (capacity : Nat) (shared : SharedQueue) : Prop where
  waiting_le : shared.queue.waiting.length ≤ capacity
  /-- The accepted items are those of the calls that succeeded, each once. -/
  accepted_iff : ∀ number, number ∈ shared.accepted ↔ shared.offers[number]? = some .accepted
  accepted_nodup : shared.accepted.Nodup
  /-- The items are started in the order in which they were accepted. -/
  started_prefix : shared.queue.started <+: shared.accepted
  /-- As long as the worker is there, an accepted item is started or waits. -/
  accepted_eq : shared.queue.stopped = false →
    shared.accepted = shared.queue.started ++ shared.queue.waiting
  /-- An item is started when those that were started before are finished. -/
  started_eq : shared.finished.map Prod.fst ++ shared.queue.running.toList = shared.queue.started
  /-- Unless the shutdown has begun, a worker that is there can run all that was accepted, whatever
  the ends of the items are. -/
  runs_on : ∀ seen, shared.worker = .working seen → shared.queue.shutDown = false →
    ∀ outcome : Nat → WorkOutcome, ∃ turns later, shared.run? turns = some later ∧
      later.accepted = shared.accepted ∧ later.finished = shared.finished ++
        (shared.queue.running.toList ++ shared.queue.waiting).map fun item => (item, outcome item)
  /-- No item is ever started whose call failed, or was given up. -/
  unaccepted : ∀ number offer, shared.offers[number]? = some offer →
    (∀ seen, offer ≠ .pending seen) → offer ≠ .accepted →
    ∀ turns later, shared.run? turns = some later → number ∉ later.queue.started
  /-- No item is started after the worker has seen the shutdown. -/
  through : shared.worker.isThrough →
    ∀ turns later, shared.run? turns = some later → later.queue.started = shared.queue.started
  /-- What the worker returns counts the items that were run, and without a shutdown these are all
  that were accepted from producers who are gone. -/
  returned : ∀ sawShutdown stats, shared.worker = .returned sawShutdown stats →
    stats = .ofOutcomes (shared.finished.map Prod.snd) ∧
      shared.finished.map Prod.fst = shared.queue.started ∧
      (sawShutdown = true → shared.queue.shutDown = true) ∧
      (sawShutdown = false →
        shared.producers = 0 ∧ shared.finished.map Prod.fst = shared.accepted)

theorem run_keepsOrder (ran : (fresh capacity).run? turns = some shared) :
    shared.KeepsOrder capacity := by
  have orderly := (orderly_fresh capacity).run ran
  have ⟨inLine, booked, _, fits⟩ := orderly
  constructor
  case waiting_le => exact inLine.room
  case accepted_iff => exact booked.accepted_iff
  case accepted_nodup => exact booked.distinct
  case started_prefix => exact inLine.front
  case accepted_eq => exact inLine.whole
  case started_eq => exact inLine.single
  case runs_on => exact fun _ works goesOn => orderly.exists_run? works goesOn
  case unaccepted =>
    intro number offer stands settled unaccepted turns later goesOn started
    have orderly := orderly.run goesOn
    have accepted := (orderly.booked.accepted_iff number).mp (orderly.inLine.front.subset started)
    rw [offers_run stands settled goesOn] at accepted
    exact unaccepted (Option.some.inj accepted)
  case through => exact fun through turns later => started_run through orderly
  case returned =>
    intro sawShutdown stats returned
    have single := inLine.single
    rw [returned] at fits
    cases fits with
    | returnedAtShutdown _ free begun =>
        rw [free, Option.toList_none, List.append_nil] at single
        exact ⟨inLine.counted, single, fun _ => begun, nofun⟩
    | returnedAtEnd _ free alone all =>
        rw [free, Option.toList_none, List.append_nil] at single
        exact ⟨inLine.counted, single, nofun, fun _ => ⟨alone, single.trans all.symm⟩⟩

/-- Three calls get an item in, the last on what it saw before the shutdown, and a fourth comes
behind it. The queue has room for one item only, so that the second call has to wait. -/
def hurriedTurns : List Turn :=
  [.clone, .offer, .offer, .look 0, .look 1, .act 0, .act 1, .workerLook, .workerAct, .look 1,
    .act 1, .offer, .look 2, .finish .panicked, .workerLook, .workerAct, .shutDown, .act 2, .offer,
    .look 3, .act 3, .finish .completed, .release, .workerLook, .workerAct, .leave]

theorem run_keepsOrder_hurried :
    ∃ shared, (fresh 1).run? hurriedTurns = some shared ∧
      shared.offers = [.accepted, .accepted, .accepted, .refused .shutDown] ∧
      shared.accepted = [0, 1, 2] ∧ shared.queue.started = [0, 1] ∧
      shared.worker = .returned true { completed := 1, panicked := 1 } ∧ shared.KeepsOrder 1 :=
  ⟨_, rfl, rfl, rfl, rfl, rfl, run_keepsOrder (show (fresh 1).run? hurriedTurns = some _ from rfl)⟩

/-- Without a shutdown the worker returns behind the last item. -/
example :
    ((fresh 2).run?
      [.offer, .look 0, .act 0, .offer, .look 1, .act 1, .release, .workerLook, .workerAct,
        .finish .failed, .workerLook, .workerAct, .finish .cancelled, .workerLook, .workerAct,
        .leave]).map (·.worker) =
      some (.returned false { failed := 1, cancelled := 1 }) := rfl

end SharedQueue

end GraphStore
