import GraphStore.Proofs.Server.WorkQueue
import GraphStore.Server.Connection
import Mathlib.Data.List.Induction
import Mathlib.Logic.Function.Basic

/-!
# Moves of a server

What each move of a reader, a writer or the worker does, the states to which a server comes, and the
responses that its queries get where they are executed one after the other. Main statements: the
inversion of each move, and that a query more leaves the answers to the former ones as they are.
-/

set_option autoImplicit false

namespace GraphStore

variable {σ : Type}

/-- Where a job comes from. -/
def Job.origin (job : Job) : Nat × Nat := (job.connection, job.number)

/-!
## Queries one after the other
-/

namespace Service

variable {service : Service σ} {store : σ} {place number : Nat} {frame : Frame}
  {frames : List Frame} {job : Job} {executed : List (Job × Response)} {response : Response}

/-- The responses of jobs that are executed one after the other, and the store behind them. -/
def executeAll (service : Service σ) (store : σ) : List Job → List (Job × Response) × σ
  | [] => ([], store)
  | job :: rest =>
      let (response, next) := service.execute job.query store
      let (later, last) := service.executeAll next rest
      ((job, response) :: later, last)

/-- The job for a text that has a number on the connection at a place. Where line breaks end
statements, the one behind the text belongs to the query. -/
def jobFor (service : Service σ) (place number : Nat) (text : String) : Job :=
  ⟨place, number, if service.separator.acceptsNewline then text ++ "\n" else text⟩

def job? (service : Service σ) (place number : Nat) : Frame → Option Job
  | .text text => some (service.jobFor place number text)
  | .rejected _ => none

def jobs (service : Service σ) (place : Nat) (frames : List Frame) : List Job :=
  frames.zipIdx.filterMap fun (frame, number) => service.job? place number frame

/-- The answer to a frame, unless it holds a query that was not executed. A frame that was rejected
gets a failure with the code of its fault. -/
def answer? (service : Service σ) (executed : List (Job × Response)) (place number : Nat) :
    Frame → Option Response
  | .text text => executed.lookup (service.jobFor place number text)
  | .rejected fault =>
      some {
        success := false
        message := fault.message
        result := none
        position := none
        code := some fault.code
        timestamp := service.now }

/-- The answers to the frames of the connection at a place, in the order of the frames. -/
def answers (service : Service σ) (executed : List (Job × Response)) (place : Nat)
    (frames : List Frame) : List (Option Response) :=
  frames.zipIdx.map fun (frame, number) => service.answer? executed place number frame

@[simp] theorem number_jobFor (service : Service σ) (place number : Nat) (text : String) :
    (service.jobFor place number text).number = number := rfl

theorem executeAll_concat (service : Service σ) (store : σ) (jobs : List Job) (job : Job) :
    service.executeAll store (jobs ++ [job]) =
      ((service.executeAll store jobs).1 ++
          [(job, (service.execute job.query (service.executeAll store jobs).2).1)],
        (service.execute job.query (service.executeAll store jobs).2).2) := by
  induction jobs generalizing store with
  | nil => rfl
  | cons first rest ih => simp only [List.cons_append, executeAll, ih]

/-- What is executed first does not depend on what comes later. -/
theorem exists_executeAll_append (service : Service σ) (store : σ) (jobs more : List Job) :
    ∃ later, (service.executeAll store (jobs ++ more)).1 =
      (service.executeAll store jobs).1 ++ later := by
  induction jobs generalizing store with
  | nil => exact ⟨_, rfl⟩
  | cons job rest ih =>
      obtain ⟨later, same⟩ := ih (service.execute job.query store).2
      exact ⟨later, congrArg _ same⟩

@[simp] theorem map_fst_executeAll (service : Service σ) (store : σ) (jobs : List Job) :
    (service.executeAll store jobs).1.map Prod.fst = jobs := by
  induction jobs generalizing store with
  | nil => rfl
  | cons job rest ih => simp only [executeAll, List.map_cons, ih]

theorem jobs_concat (service : Service σ) (place : Nat) (frames : List Frame) (frame : Frame) :
    service.jobs place (frames ++ [frame]) =
      service.jobs place frames ++ (service.job? place frames.length frame).toList := by
  rw [jobs, List.zipIdx_append, List.filterMap_append, ← jobs]
  cases frame <;> simp [job?]

theorem jobs_prefix_jobs {front : List Frame} (isFront : front <+: frames) :
    service.jobs place front <+: service.jobs place frames := by
  obtain ⟨rest, rfl⟩ := isFront
  rw [jobs, jobs, List.zipIdx_append, List.filterMap_append]
  exact List.prefix_append _ _

theorem mem_jobs_iff : job ∈ service.jobs place frames ↔
    ∃ frame, frames[job.number]? = some frame ∧ service.job? place job.number frame = some job := by
  simp only [jobs, List.mem_filterMap, Prod.exists, List.mem_zipIdx_iff_getElem?]
  constructor
  · intro given
    obtain ⟨frame, number, stands, isJob⟩ := given
    obtain rfl : number = job.number := by
      cases frame with
      | rejected fault => cases isJob
      | text text => rw [← Option.some.inj isJob, number_jobFor]
    exact ⟨frame, stands, isJob⟩
  · intro given
    obtain ⟨frame, stands, isJob⟩ := given
    exact ⟨frame, job.number, stands, isJob⟩

theorem connection_of_job? (isJob : service.job? place number frame = some job) :
    job.connection = place ∧ job.number = number := by
  cases frame with
  | rejected fault => cases isJob
  | text text =>
      obtain rfl := Option.some.inj isJob
      exact ⟨rfl, rfl⟩

/-- No two jobs of a connection have the same number. -/
theorem nodup_jobs (service : Service σ) (place : Nat) (frames : List Frame) :
    ((service.jobs place frames).map Job.number).Nodup := by
  have increasing : ((service.jobs place frames).map Job.number).Sublist
      (List.range frames.length) := by
    induction frames using List.reverseRecOn with
    | nil => exact .slnil
    | append_singleton front last ih =>
        rw [jobs_concat, List.map_append, List.length_append, List.length_singleton,
          List.range_succ]
        refine ih.append ?_
        cases last with
        | rejected fault => exact List.nil_sublist _
        | text text => exact List.Sublist.refl _
  exact increasing.nodup List.nodup_range

@[simp] theorem length_answers (service : Service σ) (executed : List (Job × Response))
    (place : Nat) (frames : List Frame) :
    (service.answers executed place frames).length = frames.length := by
  simp [answers]

theorem getElem?_answers (service : Service σ) (executed : List (Job × Response)) (place : Nat)
    (frames : List Frame) (number : Nat) :
    (service.answers executed place frames)[number]? =
      frames[number]?.map (service.answer? executed place number) := by
  simp only [answers, List.getElem?_map, List.getElem?_zipIdx, Option.map_map, Nat.zero_add]
  rfl

/-- A job more tells nothing about other frames. -/
theorem answer?_concat_of_ne (different : service.job? place number frame ≠ some job) :
    service.answer? (executed ++ [(job, response)]) place number frame =
      service.answer? executed place number frame := by
  cases frame with
  | rejected fault => rfl
  | text text =>
      have other : (service.jobFor place number text == job) = false :=
        beq_eq_false_iff_ne.mpr fun same => different (congrArg some same)
      rw [answer?, List.lookup_append, List.lookup_cons, other]
      simp [answer?]

theorem lookup_eq_none (new : job ∉ executed.map Prod.fst) : executed.lookup job = none := by
  rw [List.lookup_eq_none_iff]
  intro pair member
  refine bne_iff_ne.mpr fun same => new ?_
  rw [same]
  exact List.mem_map_of_mem member

theorem answer?_eq_none (new : job ∉ executed.map Prod.fst)
    (isJob : service.job? place number frame = some job) :
    service.answer? executed place number frame = none := by
  cases frame with
  | rejected fault => cases isJob
  | text text =>
      obtain rfl := Option.some.inj isJob
      exact lookup_eq_none new

theorem answer?_concat_self (new : job ∉ executed.map Prod.fst)
    (isJob : service.job? place number frame = some job) :
    service.answer? (executed ++ [(job, response)]) place number frame = some response := by
  cases frame with
  | rejected fault => cases isJob
  | text text =>
      obtain rfl := Option.some.inj isJob
      rw [answer?, List.lookup_append, lookup_eq_none new, Option.none_or, List.lookup_cons_self]

/-- A frame has an answer if it holds no query or if its query was executed. -/
theorem answer?_ne_none (done : ∀ job, service.job? place number frame = some job →
    job ∈ executed.map Prod.fst) : service.answer? executed place number frame ≠ none := by
  cases frame with
  | rejected fault => nofun
  | text text =>
      intro none
      rw [answer?, List.lookup_eq_none_iff] at none
      obtain ⟨pair, member, same⟩ := List.mem_map.mp (done _ rfl)
      exact bne_iff_ne.mp (none pair member) same.symm

/-- What is executed later leaves the answers that there are. -/
theorem answer?_append {response : Response}
    (answered : service.answer? executed place number frame = some response)
    (more : List (Job × Response)) :
    service.answer? (executed ++ more) place number frame = some response := by
  cases frame with
  | rejected fault => exact answered
  | text text =>
      rw [answer?] at answered ⊢
      rw [List.lookup_append, answered, Option.some_or]

theorem prefix_answers_append {responses : List Response}
    (first : responses.map some <+: service.answers executed place frames)
    (more : List (Job × Response)) :
    responses.map some <+: service.answers (executed ++ more) place frames := by
  rw [List.prefix_iff_getElem?] at first ⊢
  intro number inside
  have known := first number inside
  rw [getElem?_answers, List.getElem_map] at known ⊢
  obtain ⟨frame, stands, answered⟩ := Option.map_eq_some_iff.mp known
  rw [stands, Option.map_some, answer?_append answered]

end Service

/-!
## Moves
-/

namespace ServerState

variable {service : Service σ} {state next : ServerState σ} {place other : Nat}

/-- The connection at a place, or a new one if there is none yet. -/
def connectionAt (state : ServerState σ) (place : Nat) : Connection :=
  state.connections[place]?.getD {}

/-- The jobs that were accepted, the oldest first. -/
def accepted (state : ServerState σ) : List Job := state.queue.started ++ state.queue.waiting

/-- The state with another connection at a place. -/
def put (state : ServerState σ) (place : Nat) (connection : Connection) : ServerState σ :=
  { state with connections := state.connections.set place connection }

theorem connectionAt_put (inside : place < state.connections.length) (connection : Connection) :
    (state.put place connection).connectionAt =
      Function.update state.connectionAt place connection := by
  funext other
  by_cases same : other = place
  · subst same
    simp [connectionAt, put, inside]
  · simp [connectionAt, put, Function.update_of_ne same, Ne.symm same]

theorem connectionAt_modify (inside : place < state.connections.length)
    (change : Connection → Connection) :
    connectionAt { state with connections := state.connections.modify place change } =
      Function.update state.connectionAt place (change (state.connectionAt place)) := by
  funext other
  by_cases same : other = place
  · subst same
    simp [connectionAt, inside]
  · simp [connectionAt, Function.update_of_ne same, Ne.symm same]

/-- A new connection is as the one that was not there. -/
theorem connectionAt_connect (state : ServerState σ) :
    connectionAt { state with connections := state.connections ++ [{}] } = state.connectionAt := by
  funext place
  rw [connectionAt, connectionAt, List.getElem?_append]
  split
  · rfl
  next outside =>
    rw [List.getElem?_eq_none (Nat.le_of_not_lt outside)]
    cases place - state.connections.length <;> rfl

theorem connectionAt_of_getElem? {connection : Connection}
    (stands : state.connections[place]? = some connection) :
    state.connectionAt place = connection := by
  rw [connectionAt, stands, Option.getD_some]

theorem lt_of_getElem? {connection : Connection}
    (stands : state.connections[place]? = some connection) : place < state.connections.length :=
  (List.getElem?_eq_some_iff.mp stands).1

/-!
### What each move does
-/

theorem exists_of_change? {change : Connection → Option Connection}
    (changed : state.change? place change = some next) :
    place < state.connections.length ∧ ∃ connection,
      change (state.connectionAt place) = some connection ∧ next = state.put place connection := by
  obtain ⟨connection, stands, rest⟩ := Option.bind_eq_some_iff.mp changed
  obtain ⟨later, moved, same⟩ := Option.bind_eq_some_iff.mp rest
  rw [connectionAt_of_getElem? stands]
  exact ⟨lt_of_getElem? stands, later, moved, (Option.some.inj same).symm⟩

theorem exists_of_submit? (moved : state.submit? place = some next) :
    place < state.connections.length ∧ ∃ number query,
      (state.connectionAt place).reader = .submitting number query ∧
      next = {
        state.put place { state.connectionAt place with reader := .announcing number } with
        queue := {
          state.queue with waiting := state.queue.waiting ++ [⟨place, number, query⟩] } } := by
  obtain ⟨connection, stands, moved⟩ := Option.bind_eq_some_iff.mp moved
  rw [connectionAt_of_getElem? stands]
  refine ⟨lt_of_getElem? stands, ?_⟩
  cases reader : connection.reader with
  | submitting number query =>
      rw [reader] at moved
      obtain ⟨queue, accepted, same⟩ := Option.bind_eq_some_iff.mp moved
      obtain rfl := WorkQueue.eq_of_accept accepted
      exact ⟨number, query, rfl, (Option.some.inj same).symm⟩
  | free => simp [reader] at moved
  | announcing number => simp [reader] at moved

theorem exists_of_start (moved : state.after? service .start = some next) :
    ∃ job rest, state.queue.waiting = job :: rest ∧ state.queue.running = none ∧
      next = {
        state with
        queue := {
          state.queue with
          waiting := rest, running := some job, started := state.queue.started ++ [job] } } := by
  obtain ⟨queue, started, same⟩ := Option.bind_eq_some_iff.mp moved
  obtain ⟨job, rest, waits, idle, rfl⟩ := WorkQueue.exists_of_start? started
  exact ⟨job, rest, waits, idle, (Option.some.inj same).symm⟩

theorem exists_of_finish? (moved : state.finish? service = some next) :
    ∃ job, state.queue.running = some job ∧
      next = {
        store := (service.execute job.query state.store).2
        queue := {
          state.queue with running := none, stats := state.queue.stats.count .completed }
        connections := state.connections.modify job.connection fun connection => {
          connection with
          answers := (job.number, (service.execute job.query state.store).1) ::
            connection.answers } } := by
  obtain ⟨job, running, moved⟩ := Option.bind_eq_some_iff.mp moved
  obtain ⟨queue, finished, same⟩ := Option.bind_eq_some_iff.mp moved
  obtain rfl := WorkQueue.eq_of_finish? finished
  exact ⟨job, running, (Option.some.inj same).symm⟩

/-!
### Runs
-/

/-- The state with one more frame on a connection. -/
def arrive (state : ServerState σ) (place : Nat) (frame : Frame) : ServerState σ :=
  state.put place {
    state.connectionAt place with
    arrived := (state.connectionAt place).arrived ++ [frame] }

/-- The states to which a server comes that starts without connections, whatever happens in whatever
order, with the frames that have arrived on each connection so far. -/
inductive Reaches (service : Service σ) (store : σ) (capacity : Nat) :
    (Nat → List Frame) → ServerState σ → Prop where
  | fresh : Reaches service store capacity (fun _ => []) (.fresh store capacity)
  | connect {frames : Nat → List Frame} {state : ServerState σ}
      (former : Reaches service store capacity frames state) :
      Reaches service store capacity frames
        { state with connections := state.connections ++ [{}] }
  | arrive {frames : Nat → List Frame} {state : ServerState σ} {place : Nat} (frame : Frame)
      (former : Reaches service store capacity frames state)
      (inside : place < state.connections.length) :
      Reaches service store capacity (Function.update frames place (frames place ++ [frame]))
        (state.arrive place frame)
  | move {frames : Nat → List Frame} {state next : ServerState σ} {move : Move}
      (former : Reaches service store capacity frames state)
      (moved : state.after? service move = some next) :
      Reaches service store capacity frames next

end ServerState

end GraphStore
