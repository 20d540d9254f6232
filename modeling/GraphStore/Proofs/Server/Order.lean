import GraphStore.Proofs.Server.Moves
import Mathlib.Data.List.Nodup

/-!
# The order of responses

Readers, writers and the worker move in any order. Main statement: in every state to which a server
comes, each query was executed at most once, those of a connection in the order in which they
arrived, and each connection has sent answers to the first of its frames, in their order.
-/

set_option autoImplicit false

namespace GraphStore

variable {σ : Type} {service : Service σ}

namespace ReaderState

/-- The frame whose answer is not announced yet. -/
def number? : ReaderState → Option Nat
  | free => none
  | submitting number _ => some number
  | announcing number => some number

/-- The job that is not accepted yet. -/
def job? (place : Nat) : ReaderState → Option Job
  | submitting number query => some ⟨place, number, query⟩
  | _ => none

end ReaderState

namespace Connection

variable {connection later : Connection} {place number : Nat} {frames : List Frame}
  {queued : List Job} {job : Job} {executed : List (Job × Response)} {response : Response}

/-- The numbers of the frames that were read and are not answered. -/
def unanswered (connection : Connection) : List Nat :=
  connection.writer.toList ++ connection.announced ++ connection.reader.number?.toList

/-- What is known of a connection on which some frames have arrived, while some jobs were accepted
and some of these were executed. -/
structure Follows (service : Service σ) (place : Nat) (frames : List Frame) (queued : List Job)
    (executed : List (Job × Response)) (connection : Connection) : Prop where
  arrived : frames.drop connection.frameCount = connection.arrived
  count_le : connection.frameCount ≤ frames.length
  /-- The frames are answered in their order. -/
  inOrder : List.range connection.frameCount =
    List.range connection.written.length ++ connection.unanswered
  jobs : (queued.filter (·.connection = place)) ++ (connection.reader.job? place).toList =
    service.jobs place (frames.take connection.frameCount)
  /-- An answer is known if and only if there is one. -/
  answers : ∀ number, connection.answers.lookup number =
    (frames.take connection.frameCount)[number]?.bind (service.answer? executed place number)
  written : ∀ number response, connection.written[number]? = some response →
    connection.answers.lookup number = some response

/-!
### Lists read from the front
-/

section

variable {α : Type} {item : α} {items rest : List α}

private theorem take_and_drop_succ (shape : items.drop number = item :: rest) :
    number < items.length ∧ items.take (number + 1) = items.take number ++ [item] ∧
      items.drop (number + 1) = rest := by
  have stands : items[number]? = some item := by
    rw [← Nat.add_zero number, ← List.getElem?_drop, shape, List.getElem?_cons_zero]
  refine ⟨(List.getElem?_eq_some_iff.mp stands).1, ?_, ?_⟩
  · rw [List.take_add_one, stands, Option.toList_some]
  · rw [← List.tail_drop, shape, List.tail_cons]

private theorem getElem?_concat_of_length_eq (length : items.length = number) :
    (items ++ [item])[number]? = some item := by
  rw [← length, List.getElem?_concat_length]

private theorem getElem?_concat_of_ne (different : number ≠ items.length) :
    (items ++ [item])[number]? = items[number]? := by
  rcases Nat.lt_or_gt_of_ne different with before | behind
  · exact List.getElem?_append_left before
  · rw [List.getElem?_eq_none (by simp; omega), List.getElem?_eq_none (Nat.le_of_lt behind)]

end

/-!
### What moves keep
-/

namespace Follows

theorem fresh (service : Service σ) (executed : List (Job × Response))
    (noJobs : queued.filter (·.connection = place) = []) :
    ({} : Connection).Follows service place [] queued executed where
  arrived := rfl
  count_le := Nat.zero_le _
  inOrder := rfl
  jobs := by rw [noJobs]; rfl
  answers _ := rfl
  written _ _ impossible := by cases impossible

theorem length_take (follows : connection.Follows service place frames queued executed) :
    (frames.take connection.frameCount).length = connection.frameCount := by
  rw [List.length_take, Nat.min_eq_left follows.count_le]

theorem lookup_frameCount (follows : connection.Follows service place frames queued executed) :
    connection.answers.lookup connection.frameCount = none := by
  rw [follows.answers, List.getElem?_eq_none (Nat.le_of_eq follows.length_take)]
  rfl

theorem mem_jobs (follows : connection.Follows service place frames queued executed)
    (accepted : job ∈ queued) (isHere : job.connection = place) :
    job ∈ service.jobs place (frames.take connection.frameCount) := by
  rw [← follows.jobs]
  exact List.mem_append_left _ (List.mem_filter.mpr ⟨accepted, by simpa using isHere⟩)

theorem read (follows : connection.Follows service place frames queued executed)
    (done : executed.map Prod.fst ⊆ queued) (moved : connection.read? service = some later) :
    later.Follows service place frames queued executed := by
  rw [read?] at moved
  split at moved
  next frame rest free arrived =>
    have shape := follows.arrived.trans arrived
    obtain ⟨inside, taken, dropped⟩ := take_and_drop_succ shape
    have inOrder := follows.inOrder
    have jobs := follows.jobs
    simp only [unanswered, free, ReaderState.number?, ReaderState.job?, Option.toList_none,
      List.append_nil] at inOrder jobs
    have numbered := follows.length_take
    cases frame with
    | text text =>
        obtain rfl := Option.some.inj moved
        refine ⟨dropped, inside, ?_, ?_, fun number => ?_, follows.written⟩
        · simp [List.range_succ, inOrder, unanswered, ReaderState.number?]
        · rw [taken, Service.jobs_concat, numbered, ← jobs]
          rfl
        · by_cases isLast : number = connection.frameCount
          · subst isLast
            have new : service.jobFor place connection.frameCount text ∉
                executed.map Prod.fst := by
              intro member
              obtain ⟨other, stands, -⟩ := Service.mem_jobs_iff.mp (follows.mem_jobs (done member) rfl)
              rw [Service.number_jobFor, List.getElem?_eq_none (Nat.le_of_eq numbered)] at stands
              cases stands
            rw [taken, getElem?_concat_of_length_eq numbered, Option.bind_some,
              Service.answer?_eq_none new rfl]
            exact follows.lookup_frameCount
          · rw [taken, getElem?_concat_of_ne (by rw [numbered]; exact isLast)]
            exact follows.answers number
    | rejected fault =>
        obtain rfl := Option.some.inj moved
        refine ⟨dropped, inside, ?_, ?_, fun number => ?_, fun number response given => ?_⟩
        · simp [List.range_succ, inOrder, unanswered, ReaderState.number?]
        · rw [taken, Service.jobs_concat, ← jobs]
          rfl
        · rw [taken]
          by_cases isLast : number = connection.frameCount
          · subst isLast
            rw [getElem?_concat_of_length_eq numbered, Option.bind_some, List.lookup_cons_self]
            rfl
          · rw [getElem?_concat_of_ne (by rw [numbered]; exact isLast), ← follows.answers,
              List.lookup_cons, beq_eq_false_iff_ne.mpr isLast]
        · have known := follows.written number response given
          have other : number ≠ connection.frameCount := by
            rintro rfl
            rw [follows.lookup_frameCount] at known
            cases known
          rw [List.lookup_cons, beq_eq_false_iff_ne.mpr other]
          exact known
  · cases moved

theorem announce (follows : connection.Follows service place frames queued executed)
    (moved : connection.announce? = some later) :
    later.Follows service place frames queued executed := by
  rw [announce?] at moved
  split at moved
  next number announcing =>
    split at moved
    · obtain rfl := Option.some.inj moved
      refine ⟨follows.arrived, follows.count_le, ?_, ?_, follows.answers, follows.written⟩
      · rw [follows.inOrder]
        simp [unanswered, announcing, ReaderState.number?]
      · rw [← follows.jobs, announcing]
        rfl
    · cases moved
  · cases moved

theorem take (follows : connection.Follows service place frames queued executed)
    (moved : connection.take? = some later) :
    later.Follows service place frames queued executed := by
  rw [take?] at moved
  split at moved
  next number rest idle announced =>
    obtain rfl := Option.some.inj moved
    refine ⟨follows.arrived, follows.count_le, ?_, follows.jobs, follows.answers, follows.written⟩
    rw [follows.inOrder]
    simp [unanswered, idle, announced]
  · cases moved

/-- The writer waits for the answer that comes next. -/
theorem write (follows : connection.Follows service place frames queued executed)
    (moved : connection.write? = some later) :
    later.Follows service place frames queued executed := by
  obtain ⟨number, waits, moved⟩ := Option.bind_eq_some_iff.mp moved
  obtain ⟨response, known, same⟩ := Option.bind_eq_some_iff.mp moved
  obtain rfl := Option.some.inj same
  have inOrder := follows.inOrder
  rw [unanswered, waits] at inOrder
  simp only [Option.toList_some, List.cons_append, List.nil_append] at inOrder
  obtain rfl : number = connection.written.length := by
    have here := congrArg (·[connection.written.length]?) inOrder
    obtain ⟨-, same⟩ : connection.written.length < connection.frameCount ∧
        connection.written.length = number := by
      simpa [List.getElem?_append_right, List.getElem?_eq_some_iff] using here
    exact same.symm
  refine ⟨follows.arrived, follows.count_le, ?_, follows.jobs, follows.answers, ?_⟩
  · rw [inOrder, List.length_append, List.length_singleton, List.range_succ, List.append_assoc]
    rfl
  · intro number other given
    by_cases isLast : number = connection.written.length
    · rw [getElem?_concat_of_length_eq isLast.symm] at given
      rw [isLast, ← given]
      exact known
    · rw [getElem?_concat_of_ne isLast] at given
      exact follows.written number other given

theorem submit {query : String}
    (follows : connection.Follows service place frames queued executed)
    (submitting : connection.reader = .submitting number query) :
    ({ connection with reader := .announcing number } : Connection).Follows service place frames
      (queued ++ [⟨place, number, query⟩]) executed := by
  refine ⟨follows.arrived, follows.count_le, ?_, ?_, follows.answers, follows.written⟩
  · rw [follows.inOrder]
    simp [unanswered, submitting, ReaderState.number?]
  · rw [← follows.jobs, submitting]
    simp [ReaderState.job?]

theorem of_queued_elsewhere (follows : connection.Follows service place frames queued executed)
    (elsewhere : job.connection ≠ place) :
    connection.Follows service place frames (queued ++ [job]) executed := by
  refine ⟨follows.arrived, follows.count_le, follows.inOrder, ?_, follows.answers, follows.written⟩
  rw [← follows.jobs]
  simp [elsewhere]

theorem of_executed_elsewhere (follows : connection.Follows service place frames queued executed)
    (elsewhere : job.connection ≠ place) :
    connection.Follows service place frames queued (executed ++ [(job, response)]) := by
  refine ⟨follows.arrived, follows.count_le, follows.inOrder, follows.jobs, fun number => ?_,
    follows.written⟩
  rw [follows.answers]
  refine Option.bind_congr fun frame _ => (Service.answer?_concat_of_ne fun isJob => ?_).symm
  exact elsewhere (Service.connection_of_job? isJob).1

/-- The answer to a job is put where nothing was known. -/
theorem executed_here (follows : connection.Follows service place frames queued executed)
    (accepted : job ∈ queued) (isHere : job.connection = place)
    (new : job ∉ executed.map Prod.fst) :
    ({ connection with answers := (job.number, response) :: connection.answers } :
      Connection).Follows service place frames queued (executed ++ [(job, response)]) := by
  obtain ⟨frame, stands, isJob⟩ := Service.mem_jobs_iff.mp (follows.mem_jobs accepted isHere)
  have unknown : connection.answers.lookup job.number = none := by
    rw [follows.answers, stands, Option.bind_some, Service.answer?_eq_none new isJob]
  refine ⟨follows.arrived, follows.count_le, follows.inOrder, follows.jobs, fun number => ?_,
    fun number other given => ?_⟩
  · by_cases same : number = job.number
    · subst same
      rw [stands, Option.bind_some, Service.answer?_concat_self new isJob, List.lookup_cons_self]
    · rw [List.lookup_cons, beq_eq_false_iff_ne.mpr same]
      dsimp only
      rw [follows.answers]
      refine Option.bind_congr fun frame _ => (Service.answer?_concat_of_ne fun isJob => ?_).symm
      exact same (Service.connection_of_job? isJob).2.symm
  · have known := follows.written number other given
    have different : number ≠ job.number := by
      rintro rfl
      rw [unknown] at known
      cases known
    rw [List.lookup_cons, beq_eq_false_iff_ne.mpr different]
    exact known

theorem arrive (follows : connection.Follows service place frames queued executed)
    (frame : Frame) :
    ({ connection with arrived := connection.arrived ++ [frame] } : Connection).Follows service place
      (frames ++ [frame]) queued executed := by
  have taken : (frames ++ [frame]).take connection.frameCount =
      frames.take connection.frameCount := List.take_append_of_le_length follows.count_le
  refine ⟨?_, ?_, follows.inOrder, ?_, ?_, follows.written⟩
  · rw [List.drop_append_of_le_length follows.count_le, follows.arrived]
  · exact Nat.le_trans follows.count_le (by simp)
  · rw [taken]
    exact follows.jobs
  · rw [taken]
    exact follows.answers

/-- What was sent answers the first frames. -/
theorem written_prefix_answers (follows : connection.Follows service place frames queued executed) :
    connection.written.map some <+: service.answers executed place frames := by
  refine List.prefix_iff_getElem?.mpr fun number inside => ?_
  rw [List.length_map] at inside
  have known := follows.written number _ (List.getElem?_eq_getElem inside)
  rw [follows.answers, List.getElem?_take] at known
  split at known
  · obtain ⟨frame, stands, answered⟩ := Option.bind_eq_some_iff.mp known
    rw [Service.getElem?_answers, stands, Option.map_some, answered, List.getElem_map]
  · cases known

end Follows

end Connection

/-!
## The whole server
-/

namespace ServerState

variable {store : σ} {frames : Nat → List Frame} {finished : List Job} {state next : ServerState σ}
  {place capacity : Nat}

/-- What is known of a server that has executed some jobs and whose connections have received some
frames. -/
structure Follows (service : Service σ) (store : σ) (frames : Nat → List Frame)
    (finished : List Job) (state : ServerState σ) : Prop where
  started : state.queue.started = finished ++ state.queue.running.toList
  store_eq : state.store = (service.executeAll store finished).2
  noFrames : ∀ place, state.connections.length ≤ place → frames place = []
  connections : ∀ place, (state.connectionAt place).Follows service place (frames place)
    state.accepted (service.executeAll store finished).1

/-- Jobs come from different frames if those of each connection do. -/
private theorem nodup_origins_of_each {jobs : List Job}
    (each : ∀ place, ((jobs.filter (·.connection = place)).map Job.number).Nodup) :
    (jobs.map Job.origin).Nodup := by
  induction jobs with
  | nil => exact List.nodup_nil
  | cons job rest ih =>
      refine List.nodup_cons.mpr ⟨fun member => ?_, ih fun place => ?_⟩
      · obtain ⟨other, inside, same⟩ := List.mem_map.mp member
        obtain ⟨place, number⟩ := Prod.mk.inj same
        have here := each job.connection
        rw [List.filter_cons_of_pos (by simp), List.map_cons, List.nodup_cons] at here
        exact here.1 (List.mem_map.mpr
          ⟨other, List.mem_filter.mpr ⟨inside, by simpa using place⟩, number⟩)
      · exact (each place).sublist ((List.sublist_cons_self job rest).filter _ |>.map _)

namespace Follows

/-- No two jobs that were accepted come from one frame. -/
theorem nodup_origins (follows : state.Follows service store frames finished) :
    (state.accepted.map Job.origin).Nodup := by
  refine nodup_origins_of_each fun place => ?_
  have nodup := service.nodup_jobs place ((frames place).take (state.connectionAt place).frameCount)
  rw [← (follows.connections place).jobs, List.map_append] at nodup
  exact nodup.of_append_left

theorem done (follows : state.Follows service store frames finished) :
    (service.executeAll store finished).1.map Prod.fst ⊆ state.accepted := by
  rw [Service.map_fst_executeAll, accepted, follows.started]
  exact fun job member => List.mem_append_left _ (List.mem_append_left _ member)

theorem put {connection : Connection} (follows : state.Follows service store frames finished)
    (inside : place < state.connections.length)
    (changed : connection.Follows service place (frames place) state.accepted
      (service.executeAll store finished).1) :
    (state.put place connection).Follows service store frames finished where
  started := follows.started
  store_eq := follows.store_eq
  noFrames other outside := follows.noFrames other (by simpa [ServerState.put] using outside)
  connections other := by
    rw [connectionAt_put inside]
    by_cases same : other = place
    · subst same
      rw [Function.update_self]
      exact changed
    · rw [Function.update_of_ne same]
      exact follows.connections other

theorem change {change : Connection → Option Connection}
    (follows : state.Follows service store frames finished)
    (moved : state.change? place change = some next)
    (kept : ∀ connection later, connection.Follows service place (frames place) state.accepted
      (service.executeAll store finished).1 → change connection = some later →
        later.Follows service place (frames place) state.accepted
          (service.executeAll store finished).1) :
    next.Follows service store frames finished := by
  obtain ⟨inside, connection, changed, rfl⟩ := exists_of_change? moved
  exact follows.put inside (kept _ _ (follows.connections place) changed)

theorem submit (follows : state.Follows service store frames finished)
    (moved : state.submit? place = some next) : next.Follows service store frames finished := by
  obtain ⟨inside, number, query, submitting, rfl⟩ := exists_of_submit? moved
  refine ⟨follows.started, follows.store_eq, fun other outside => ?_, fun other => ?_⟩
  · exact follows.noFrames other (by simpa [ServerState.put] using outside)
  · have accepted : ∀ connection queue, accepted { state.put place connection with queue := queue } =
        queue.started ++ queue.waiting := fun _ _ => rfl
    rw [accepted]
    change ((state.put place _).connectionAt other).Follows _ _ _ _ _
    rw [connectionAt_put inside, ← List.append_assoc]
    by_cases same : other = place
    · subst same
      rw [Function.update_self]
      exact (follows.connections other).submit submitting
    · rw [Function.update_of_ne same]
      exact (follows.connections other).of_queued_elsewhere (Ne.symm same)

/-- What the worker starts was accepted before. -/
theorem start (follows : state.Follows service store frames finished)
    (moved : state.after? service .start = some next) :
    next.Follows service store frames finished := by
  obtain ⟨job, rest, waits, idle, rfl⟩ := exists_of_start moved
  have started := follows.started
  rw [idle, Option.toList_none, List.append_nil] at started
  refine ⟨by rw [started]; rfl, follows.store_eq, follows.noFrames, fun other => ?_⟩
  have same : state.accepted = state.queue.started ++ [job] ++ rest := by
    rw [accepted, waits, List.append_assoc]
    rfl
  have kept := follows.connections other
  rw [same] at kept
  exact kept

theorem finish (follows : state.Follows service store frames finished)
    (moved : state.finish? service = some next) :
    ∃ job, next.Follows service store frames (finished ++ [job]) := by
  obtain ⟨job, running, rfl⟩ := exists_of_finish? moved
  have started := follows.started
  rw [running, Option.toList_some] at started
  have isAccepted : job ∈ state.accepted := by simp [accepted, started]
  have new : job ∉ (service.executeAll store finished).1.map Prod.fst := by
    have nodup := follows.nodup_origins.of_map
    rw [accepted, started, List.append_assoc] at nodup
    rw [Service.map_fst_executeAll]
    exact fun member => List.disjoint_of_nodup_append nodup member (by simp)
  have inside : job.connection < state.connections.length := by
    by_contra outside
    have isJob := (follows.connections job.connection).mem_jobs isAccepted rfl
    rw [follows.noFrames _ (Nat.le_of_not_lt outside), List.take_nil] at isJob
    cases isJob
  refine ⟨job, ⟨by simp [started], ?_, fun other outside => ?_, fun other => ?_⟩⟩
  · rw [Service.executeAll_concat, ← follows.store_eq]
  · exact follows.noFrames other (by simpa using outside)
  · rw [Service.executeAll_concat, ← follows.store_eq]
    change (connectionAt { state with connections := _ } other).Follows _ _ _ state.accepted _
    rw [connectionAt_modify inside]
    by_cases same : other = job.connection
    · subst same
      rw [Function.update_self]
      exact (follows.connections job.connection).executed_here isAccepted rfl new
    · rw [Function.update_of_ne same]
      exact (follows.connections other).of_executed_elsewhere (Ne.symm same)

theorem after {move : Move} (follows : state.Follows service store frames finished)
    (moved : state.after? service move = some next) :
    ∃ finished, next.Follows service store frames finished := by
  cases move with
  | read place => exact ⟨_, follows.change moved fun _ _ held moved => held.read follows.done moved⟩
  | submit place => exact ⟨_, follows.submit moved⟩
  | announce place => exact ⟨_, follows.change moved fun _ _ held moved => held.announce moved⟩
  | start => exact ⟨_, follows.start moved⟩
  | finish =>
      obtain ⟨job, followed⟩ := follows.finish moved
      exact ⟨_, followed⟩
  | take place => exact ⟨_, follows.change moved fun _ _ held moved => held.take moved⟩
  | write place => exact ⟨_, follows.change moved fun _ _ held moved => held.write moved⟩

theorem connect (follows : state.Follows service store frames finished) :
    ({ state with connections := state.connections ++ [{}] } : ServerState σ).Follows service store
      frames finished := by
  refine ⟨follows.started, follows.store_eq, fun other outside => ?_, fun other => ?_⟩
  · exact follows.noFrames other (Nat.le_trans (by simp) outside)
  · rw [connectionAt_connect]
    exact follows.connections other

theorem arrive (follows : state.Follows service store frames finished) (frame : Frame)
    (inside : place < state.connections.length) :
    (state.arrive place frame).Follows service store
      (Function.update frames place (frames place ++ [frame])) finished := by
  refine ⟨follows.started, follows.store_eq, fun other outside => ?_, fun other => ?_⟩
  · have isOutside : state.connections.length ≤ other := by
      simpa [ServerState.arrive, ServerState.put] using outside
    rw [Function.update_of_ne (Nat.ne_of_gt (Nat.lt_of_lt_of_le inside isOutside))]
    exact follows.noFrames other isOutside
  · change (connectionAt (state.put place _) other).Follows _ _ _ state.accepted _
    rw [connectionAt_put inside]
    by_cases same : other = place
    · subst same
      rw [Function.update_self, Function.update_self]
      exact (follows.connections other).arrive frame
    · rw [Function.update_of_ne same, Function.update_of_ne same]
      exact follows.connections other

end Follows

/-- Whatever happens, the server has executed some jobs, and all that is known of it follows. -/
theorem Reaches.exists_follows (reaches : Reaches service store capacity frames state) :
    ∃ finished, state.Follows service store frames finished := by
  induction reaches with
  | fresh =>
      exact ⟨[], rfl, rfl, fun _ _ => rfl, fun place => .fresh service _ rfl⟩
  | connect _ ih =>
      obtain ⟨finished, follows⟩ := ih
      exact ⟨finished, follows.connect⟩
  | arrive frame _ inside ih =>
      obtain ⟨finished, follows⟩ := ih
      exact ⟨finished, follows.arrive frame inside⟩
  | move _ moved ih =>
      obtain ⟨finished, follows⟩ := ih
      exact follows.after moved

end ServerState

end GraphStore
