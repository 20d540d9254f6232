import GraphStore.Proofs.Server.Order
import Mathlib.Algebra.GroupWithZero.Nat

/-!
# The end of a run

A server that receives nothing more comes to a state in which nothing moves, since every move takes
some of its load off. Main statements: where nothing moves, all frames are answered; and a server
that makes all the moves it can comes to such a state.
-/

set_option autoImplicit false

namespace GraphStore

variable {σ : Type} {service : Service σ}

/-- The answer for which a writer waits is known once all queries that were accepted are executed, so
that a connection that cannot move has answered all. -/
theorem Connection.Follows.isComplete {connection : Connection} {place : Nat} {frames : List Frame}
    {queued : List Job} {executed : List (Job × Response)}
    (follows : connection.Follows service place frames queued executed)
    (done : queued ⊆ executed.map Prod.fst) (noJob : connection.reader.job? place = none)
    (noRead : connection.read? service = none) (noAnnounce : connection.announce? = none)
    (noTake : connection.take? = none) (noWrite : connection.write? = none) :
    connection.arrived = [] ∧ connection.unanswered = [] := by
  have noWriter : connection.writer = none := by
    cases waits : connection.writer with
    | none => rfl
    | some number =>
        exfalso
        have isRead : number < connection.frameCount := by
          rw [← List.mem_range, follows.inOrder]
          simp [Connection.unanswered, waits]
        have inside : number < (frames.take connection.frameCount).length := by
          rwa [follows.length_take]
        have answered := follows.answers number
        rw [List.getElem?_eq_getElem inside, Option.bind_some] at answered
        refine Service.answer?_ne_none (fun job isJob => done ?_) (answered.symm.trans ?_)
        · obtain ⟨-, rfl⟩ := Service.connection_of_job? isJob
          have isJob := Service.mem_jobs_iff.mpr ⟨_, List.getElem?_eq_getElem inside, isJob⟩
          rw [← follows.jobs, noJob, Option.toList_none, List.append_nil] at isJob
          exact (List.mem_filter.mp isJob).1
        · refine Option.eq_none_iff_forall_ne_some.mpr ?_
          simpa [Connection.write?, waits] using noWrite
  have noneAnnounced : connection.announced = [] := by
    cases announced : connection.announced with
    | nil => rfl
    | cons number rest => simp [Connection.take?, noWriter, announced] at noTake
  have free : connection.reader = .free := by
    cases reader : connection.reader with
    | free => rfl
    | submitting number query => simp [reader, ReaderState.job?] at noJob
    | announcing number =>
        simp [Connection.announce?, reader, noneAnnounced, maxAnnounced] at noAnnounce
  refine ⟨?_, by simp [Connection.unanswered, noWriter, noneAnnounced, free, ReaderState.number?]⟩
  cases arrived : connection.arrived with
  | nil => rfl
  | cons frame rest => cases frame <;> simp [Connection.read?, free, arrived] at noRead

namespace ServerState

variable {store : σ} {frames : Nat → List Frame} {finished : List Job} {state next : ServerState σ}
  {place capacity : Nat}

/-!
## Where nothing moves
-/

/-- Whether neither the worker nor the connection at a place can move. -/
def IsStill (service : Service σ) (state : ServerState σ) (place : Nat) : Prop :=
  ∀ move ∈ [.finish, .start, .write place, .take place, .announce place, .submit place,
    .read place], state.after? service move = none

/-- What never changes of the queue while a server runs. -/
structure IsOpen (capacity : Nat) (queue : WorkQueue Job) : Prop where
  capacity_eq : queue.capacity = capacity
  acceptsItems : queue.shutDown = false
  hasWorker : queue.stopped = false

theorem Reaches.isOpen (reaches : Reaches service store capacity frames state) :
    IsOpen capacity state.queue := by
  induction reaches with
  | fresh => exact ⟨rfl, rfl, rfl⟩
  | connect _ ih => exact ih
  | arrive _ _ _ ih => exact ih
  | @move _ _ _ move _ moved ih =>
      obtain ⟨capacityEq, accepts, hasWorker⟩ := ih
      cases move with
      | start =>
          obtain ⟨job, rest, -, -, rfl⟩ := exists_of_start moved
          exact ⟨capacityEq, accepts, hasWorker⟩
      | finish =>
          obtain ⟨job, -, rfl⟩ := exists_of_finish? moved
          exact ⟨capacityEq, accepts, hasWorker⟩
      | submit place =>
          obtain ⟨-, number, query, -, rfl⟩ := exists_of_submit? moved
          exact ⟨capacityEq, accepts, hasWorker⟩
      | read place | announce place | take place | write place =>
          obtain ⟨-, connection, -, rfl⟩ := exists_of_change? moved
          exact ⟨capacityEq, accepts, hasWorker⟩

section

variable {connection : Connection}

/-- A worker that cannot move has no job, and none waits for it. -/
theorem IsStill.queue_empty (still : state.IsStill service place)
    (isOpen : IsOpen capacity state.queue) :
    state.queue.running = none ∧ state.queue.waiting = [] := by
  have idle : state.queue.running = none := by
    have stays := still .finish (by simp)
    cases running : state.queue.running with
    | none => rfl
    | some job => simp [after?, finish?, running, WorkQueue.after?, WorkQueue.finish?] at stays
  refine ⟨idle, ?_⟩
  have stays := still .start (by simp)
  cases waits : state.queue.waiting with
  | nil => rfl
  | cons job rest =>
      simp [after?, WorkQueue.after?, WorkQueue.start?, waits, WorkQueue.isIdle, idle,
        isOpen.acceptsItems, isOpen.hasWorker] at stays

theorem change?_of_getElem? (stands : state.connections[place]? = some connection)
    (change : Connection → Option Connection) :
    state.change? place change = (change connection).map (state.put place) := by
  rw [change?, stands]
  cases moved : change connection <;> simp [moved, put]

theorem IsStill.change?_eq_none {change : Connection → Option Connection}
    (stands : state.connections[place]? = some connection)
    (stays : state.change? place change = none) : change connection = none := by
  rw [change?_of_getElem? stands] at stays
  exact Option.map_eq_none_iff.mp stays

theorem IsStill.noJob (still : state.IsStill service place) (isOpen : IsOpen capacity state.queue)
    (room : 0 < capacity) (stands : state.connections[place]? = some connection) :
    connection.reader.job? place = none := by
  obtain ⟨-, noneWaits⟩ := still.queue_empty isOpen
  have stays := still (.submit place) (by simp)
  cases reader : connection.reader with
  | submitting number query =>
      have free : state.queue.available ≠ 0 := by
        rw [WorkQueue.available, noneWaits, isOpen.capacity_eq]
        exact Nat.pos_iff_ne_zero.mp room
      simp [after?, submit?, stands, reader, WorkQueue.after?, WorkQueue.offer, isOpen.acceptsItems,
        isOpen.hasWorker, free] at stays
  | _ => rfl

theorem Follows.isComplete (follows : state.Follows service store frames finished)
    (isOpen : IsOpen capacity state.queue) (room : 0 < capacity)
    (stands : state.connections[place]? = some connection) (still : state.IsStill service place) :
    connection.arrived = [] ∧ connection.unanswered = [] := by
  obtain ⟨idle, noneWaits⟩ := still.queue_empty isOpen
  have done : state.accepted ⊆ (service.executeAll store finished).1.map Prod.fst := by
    rw [accepted, noneWaits, follows.started, idle, Service.map_fst_executeAll]
    simp
  have here := follows.connections place
  rw [connectionAt_of_getElem? stands] at here
  exact here.isComplete done (still.noJob isOpen room stands)
    (IsStill.change?_eq_none stands (still (.read place) (by simp)))
    (IsStill.change?_eq_none stands (still (.announce place) (by simp)))
    (IsStill.change?_eq_none stands (still (.take place) (by simp)))
    (IsStill.change?_eq_none stands (still (.write place) (by simp)))

end

/-!
## Moves come to an end
-/

end ServerState

/-- A bound for the moves that are left for the answer in hand. -/
def ReaderState.load : ReaderState → Nat
  | free => 0
  | submitting .. => 6
  | announcing _ => 3

/-- A bound for the moves that are left for a connection. Each move takes some of it off. -/
def Connection.load (connection : Connection) : Nat :=
  7 * connection.arrived.length + connection.reader.load + 2 * connection.announced.length +
    connection.writer.toList.length

namespace Connection

variable {connection later : Connection}

theorem load_lt_of_read? (moved : connection.read? service = some later) :
    later.load < connection.load := by
  rw [read?] at moved
  split at moved
  next frame rest free arrived =>
    cases frame <;> obtain rfl := Option.some.inj moved <;>
      simp [load, ReaderState.load, free, arrived] <;> omega
  · cases moved

theorem load_lt_of_announce? (moved : connection.announce? = some later) :
    later.load < connection.load := by
  rw [announce?] at moved
  split at moved
  next number announcing =>
    split at moved
    · obtain rfl := Option.some.inj moved
      simp [load, ReaderState.load, announcing]
      omega
    · cases moved
  · cases moved

theorem load_lt_of_take? (moved : connection.take? = some later) :
    later.load < connection.load := by
  rw [take?] at moved
  split at moved
  next number rest idle announced =>
    obtain rfl := Option.some.inj moved
    simp [load, idle, announced]
    omega
  · cases moved

theorem load_lt_of_write? (moved : connection.write? = some later) :
    later.load < connection.load := by
  obtain ⟨number, waits, moved⟩ := Option.bind_eq_some_iff.mp moved
  obtain ⟨response, -, same⟩ := Option.bind_eq_some_iff.mp moved
  obtain rfl := Option.some.inj same
  simp [load, waits]

end Connection

namespace ServerState

variable {store : σ} {frames : Nat → List Frame} {state next : ServerState σ} {place capacity : Nat}

def load (state : ServerState σ) : Nat :=
  (state.connections.map Connection.load).sum + 2 * state.queue.waiting.length +
    state.queue.running.toList.length

private theorem sum_map_set {α : Type} (f : α → Nat) (items : List α) (place : Nat) (item : α)
    (inside : place < items.length) :
    ((items.set place item).map f).sum + f items[place] = (items.map f).sum + f item := by
  induction items generalizing place with
  | nil => cases inside
  | cons first rest ih =>
      cases place with
      | zero =>
          simp
          omega
      | succ place =>
          have onward := ih place (by simpa using inside)
          simp only [List.set_cons_succ, List.map_cons, List.sum_cons, List.getElem_cons_succ]
          omega

private theorem map_modify_of_same {α β : Type} {f : α → β} {change : α → α} {items : List α}
    (same : ∀ item, f (change item) = f item) :
    (items.modify place change).map f = items.map f := by
  refine List.ext_getElem? fun index => ?_
  rw [List.getElem?_map, List.getElem?_modify, List.getElem?_map]
  by_cases here : place = index
  · cases items[index]? <;> simp [here, same]
  · cases items[index]? <;> simp [here]

theorem load_put (inside : place < state.connections.length) (connection : Connection) :
    (state.put place connection).load + (state.connectionAt place).load =
      state.load + connection.load := by
  have here : state.connectionAt place = state.connections[place] := by
    rw [connectionAt, List.getElem?_eq_getElem inside, Option.getD_some]
  have sum := sum_map_set Connection.load state.connections place connection inside
  rw [here]
  simp only [load, put]
  omega

theorem load_lt_of_change? {change : Connection → Option Connection}
    (moved : state.change? place change = some next)
    (less : ∀ connection later, change connection = some later → later.load < connection.load) :
    next.load < state.load := by
  obtain ⟨inside, connection, changed, rfl⟩ := exists_of_change? moved
  have sum := load_put inside connection
  have here := less _ _ changed
  omega

/-- Every move takes some of the load off. -/
theorem load_lt_of_after? {move : Move} (moved : state.after? service move = some next) :
    next.load < state.load := by
  cases move with
  | read place => exact load_lt_of_change? moved fun _ _ => Connection.load_lt_of_read?
  | announce place => exact load_lt_of_change? moved fun _ _ => Connection.load_lt_of_announce?
  | take place => exact load_lt_of_change? moved fun _ _ => Connection.load_lt_of_take?
  | write place => exact load_lt_of_change? moved fun _ _ => Connection.load_lt_of_write?
  | submit place =>
      obtain ⟨inside, number, query, submitting, rfl⟩ := exists_of_submit? moved
      have sum := load_put inside { state.connectionAt place with reader := .announcing number }
      simp only [load, Connection.load, submitting, ReaderState.load, put, List.length_append,
        List.length_singleton] at sum ⊢
      omega
  | start =>
      obtain ⟨job, rest, waits, idle, rfl⟩ := exists_of_start moved
      simp [load, waits, idle]
      omega
  | finish =>
      obtain ⟨job, running, rfl⟩ := exists_of_finish? moved
      have same : ∀ response : Response, (state.connections.modify job.connection fun connection => {
          connection with
          answers := (job.number, response) :: connection.answers }).map Connection.load =
          state.connections.map Connection.load :=
        fun _ => map_modify_of_same fun _ => rfl
      simp only [load, same, running, Option.toList_some, Option.toList_none, List.length_singleton,
        List.length_nil]
      omega

theorem exists_of_findSome? (moved : state.moves.findSome? (state.after? service) = some next) :
    ∃ move, state.after? service move = some next := by
  obtain ⟨front, move, rest, -, moved, -⟩ := List.findSome?_eq_some_iff.mp moved
  exact ⟨move, moved⟩

theorem Reaches.runFor (reaches : Reaches service store capacity frames state) (count : Nat) :
    Reaches service store capacity frames (state.runFor service count) := by
  induction count generalizing state with
  | zero => exact reaches
  | succ count ih =>
      rw [ServerState.runFor]
      split
      next next moved =>
        obtain ⟨move, moved⟩ := exists_of_findSome? moved
        exact ih (reaches.move moved)
      · exact reaches

/-- A server that makes enough moves comes to a state in which nothing moves. -/
theorem isStill_runFor (count : Nat) (enough : state.load ≤ count) :
    ∀ move ∈ (state.runFor service count).moves,
      (state.runFor service count).after? service move = none := by
  induction count generalizing state with
  | zero =>
      intro move _
      rw [ServerState.runFor]
      refine Option.eq_none_iff_forall_ne_some.mpr fun next moved => ?_
      have less := load_lt_of_after? moved
      omega
  | succ count ih =>
      rw [ServerState.runFor]
      split
      next next moved =>
        obtain ⟨move, moved⟩ := exists_of_findSome? moved
        have less := load_lt_of_after? moved
        exact ih (by omega)
      next nothing => exact List.findSome?_eq_none_iff.mp nothing

theorem load_le_movesLeft (state : ServerState σ) : state.load ≤ state.movesLeft := by
  have each : ∀ connection : Connection, connection.load ≤
      7 * (connection.arrived.length + connection.announced.length + 2) := by
    intro connection
    have reader : connection.reader.load ≤ 6 := by
      cases connection.reader <;> simp [ReaderState.load]
    have writer : connection.writer.toList.length ≤ 1 := by cases connection.writer <;> simp
    rw [Connection.load]
    omega
  have all : ∀ (connections : List Connection) (count : Nat),
      (connections.map Connection.load).sum + 7 * count ≤ 7 * connections.foldl (fun count connection =>
        count + connection.arrived.length + connection.announced.length + 2) count := by
    intro connections
    induction connections with
    | nil => intro count; simp
    | cons connection rest ih =>
        intro count
        have here := each connection
        have others := ih (count + connection.arrived.length + connection.announced.length + 2)
        rw [List.map_cons, List.sum_cons, List.foldl_cons]
        omega
  have running : state.queue.running.toList.length ≤ 1 := by cases state.queue.running <;> simp
  have connections := all state.connections (state.queue.waiting.length + 1)
  rw [load, movesLeft]
  omega

/-- A server that is left alone comes to a state in which nothing moves. -/
theorem isStill_settle (service : Service σ) (state : ServerState σ) (place : Nat) :
    (state.settle service).IsStill service place := by
  have nothing : ∀ move ∈ (state.settle service).moves,
      (state.settle service).after? service move = none :=
    isStill_runFor state.movesLeft state.load_le_movesLeft
  intro move member
  by_cases inside : place < (state.settle service).connections.length
  · refine nothing move ?_
    rw [moves, List.mem_append, List.mem_flatMap]
    simp only [List.mem_cons, List.not_mem_nil, or_false] at member ⊢
    rcases member with rfl | rfl | member
    · exact .inl (.inl rfl)
    · exact .inl (.inr rfl)
    · exact .inr ⟨place, List.mem_range.mpr inside, member⟩
  · have missing : (state.settle service).connections[place]? = none :=
      List.getElem?_eq_none (Nat.le_of_not_lt inside)
    simp only [List.mem_cons, List.not_mem_nil, or_false] at member
    rcases member with rfl | rfl | rfl | rfl | rfl | rfl | rfl
    · exact nothing _ (by simp [moves])
    · exact nothing _ (by simp [moves])
    all_goals simp [after?, change?, submit?, missing]

/-!
## The main statement
-/

section

variable {connection : Connection}

/-- What a connection has sent are the answers to its first frames. -/
theorem Reaches.written_prefix_answers (reaches : Reaches service store capacity frames state)
    (stands : state.connections[place]? = some connection) :
    connection.written.map some <+: service.answers
      (service.executeAll store state.queue.started).1 place (frames place) := by
  obtain ⟨finished, follows⟩ := reaches.exists_follows
  have here := follows.connections place
  rw [connectionAt_of_getElem? stands] at here
  obtain ⟨more, same⟩ := service.exists_executeAll_append store finished state.queue.running.toList
  rw [follows.started, same]
  exact Service.prefix_answers_append here.written_prefix_answers more

theorem Reaches.length_written (reaches : Reaches service store capacity frames state)
    (room : 0 < capacity) (stands : state.connections[place]? = some connection)
    (still : state.IsStill service place) : connection.written.length = (frames place).length := by
  obtain ⟨finished, follows⟩ := reaches.exists_follows
  obtain ⟨noneArrived, noneUnanswered⟩ := follows.isComplete reaches.isOpen room stands still
  have here := follows.connections place
  rw [connectionAt_of_getElem? stands] at here
  have inOrder := congrArg List.length here.inOrder
  have arrived := congrArg List.length here.arrived
  have inside := here.count_le
  simp only [noneUnanswered, noneArrived, List.append_nil, List.length_range, List.length_drop,
    List.length_nil] at inOrder arrived
  omega

end

/-- In whatever order readers, writers and the worker move, each query was executed at most once, the
queries of a connection in the order in which they arrived, and each connection has sent answers to
its first frames in their order. Where nothing moves any more it has sent all. -/
theorem Reaches.answers_in_order (reaches : Reaches service store capacity frames state)
    (room : 0 < capacity) :
    (state.queue.started.map Job.origin).Nodup ∧
    ∀ place connection, state.connections[place]? = some connection →
      state.queue.started.filter (·.connection = place) <+: service.jobs place (frames place) ∧
      connection.written.map some <+: service.answers
        (service.executeAll store state.queue.started).1 place (frames place) ∧
      (state.IsStill service place → connection.written.map some = service.answers
        (service.executeAll store state.queue.started).1 place (frames place)) := by
  obtain ⟨finished, follows⟩ := reaches.exists_follows
  refine ⟨?_, fun place connection stands => ?_⟩
  · exact follows.nodup_origins.sublist ((List.sublist_append_left _ _).map _)
  have here := follows.connections place
  rw [connectionAt_of_getElem? stands] at here
  have sent := reaches.written_prefix_answers stands
  refine ⟨?_, sent, fun still => sent.eq_of_length ?_⟩
  · have inFront : state.queue.started.filter (·.connection = place) <+:
        state.accepted.filter (·.connection = place) := (List.prefix_append _ _).filter _
    refine (inFront.trans ?_).trans (Service.jobs_prefix_jobs
      (List.take_prefix connection.frameCount _))
    rw [← here.jobs]
    exact List.prefix_append _ _
  · rw [List.length_map, Service.length_answers, reaches.length_written room stands still]

/-- A service that answers each query with its text and counts the queries. -/
def echo : Service Nat where
  separator := .both
  now := ⟨0, 0⟩
  execute query count := (.ofSuccess ⟨0, 0⟩ query none, count + 1)

/-- Two connections with four frames, and a queue in which one query can wait. -/
def twoConnections : ServerState Nat :=
  let connected : ServerState Nat := { (.fresh 0 1 : ServerState Nat) with connections := [{}, {}] }
  (((connected.arrive 0 (.text "a")).arrive 1 (.text "b")).arrive 0 (.rejected (.tooLong 4))).arrive 0
    (.text "c")

theorem twoConnections_answers_in_order :
    ((twoConnections.settle echo).connectionAt 0).written =
      [⟨true, "a\n", none, none, none, ⟨0, 0⟩⟩,
        ⟨false, "Frame exceeds the maximum length of 4 bytes", none, none, some "FRAME_TOO_LONG",
          ⟨0, 0⟩⟩,
        ⟨true, "c\n", none, none, none, ⟨0, 0⟩⟩] := by
  have reaches : Reaches echo 0 1 _ twoConnections :=
    .arrive _ (.arrive _ (.arrive _ (.arrive _ (.connect (.connect .fresh)) (by decide)) (by decide))
      (by decide)) (by decide)
  obtain ⟨-, each⟩ := (reaches.runFor twoConnections.movesLeft).answers_in_order Nat.zero_lt_one
  obtain ⟨-, -, all⟩ := each 0 ((twoConnections.settle echo).connectionAt 0) (by decide +kernel)
  refine List.map_injective_iff.mpr (fun _ _ => Option.some.inj)
    ((all (isStill_settle echo twoConnections 0)).trans ?_)
  decide +kernel

end ServerState

end GraphStore
