import GraphStore.Disk.Basic
import GraphStore.Proofs.Disk.FileSystem

/-!
# Traces of work on a disk

The file systems behind the changes that work attempts, one after the other. A whole run ends in
the last of them, and an interrupted one in any of them.
-/

set_option autoImplicit false

namespace GraphStore

namespace Disk

variable {α β : Type}

/-- The outcome of work, and the file system after each change that it attempts. -/
def trace (work : Disk α) (system : FileSystem) : α × List FileSystem :=
  match work with
  | done value => (value, [])
  | ask question next => (next (question.answer system)).trace system
  | attempt change next =>
      match system.change change with
      | .ok changed =>
          (((next (.ok ())).trace changed).1, changed :: ((next (.ok ())).trace changed).2)
      | .error refusal =>
          (((next (.error refusal)).trace system).1,
            system :: ((next (.error refusal)).trace system).2)

@[simp] theorem trace_pure (value : α) (system : FileSystem) :
    (pure value : Disk α).trace system = (value, []) := rfl

theorem trace_change (change : Change) (system : FileSystem) :
    (Disk.change change).trace system =
      match system.change change with
      | .ok changed => (.ok (), [changed])
      | .error refusal => (.error refusal, [system]) := by
  rw [Disk.change, trace]
  cases system.change change <;> rfl

private theorem getLastD_cons_append (first system : FileSystem) (front : List FileSystem) :
    (first :: front).getLastD system = front.getLastD first := by
  cases front <;> rfl

theorem run_eq_trace (work : Disk α) (system : FileSystem) :
    work.run system = ((work.trace system).1, (work.trace system).2.getLastD system) := by
  induction work generalizing system with
  | done value => rfl
  | ask question next ih => exact ih _ system
  | attempt change next ih =>
      rw [run, trace]
      cases system.change change with
      | ok changed =>
          simp only [getLastD_cons_append]
          exact ih _ changed
      | error refusal =>
          simp only [getLastD_cons_append]
          exact ih _ system

theorem trace_bind (work : Disk α) (next : α → Disk β) (system : FileSystem) :
    (work >>= next).trace system =
      (((next (work.trace system).1).trace ((work.trace system).2.getLastD system)).1,
        (work.trace system).2 ++
          ((next (work.trace system).1).trace ((work.trace system).2.getLastD system)).2) := by
  change (work.bind next).trace system = _
  induction work generalizing system with
  | done value => rfl
  | ask question rest ih =>
      simp only [bind, trace]
      exact ih _ system
  | attempt change rest ih =>
      simp only [bind, trace]
      cases system.change change with
      | ok changed => simp only [ih, getLastD_cons_append, List.cons_append]
      | error refusal => simp only [ih, getLastD_cons_append, List.cons_append]

/-- Interrupted work leaves the file system of some point of its trace. -/
theorem interrupted_mem_trace (count : Nat) (work : Disk α) (system : FileSystem) :
    work.interrupted count system ∈ system :: (work.trace system).2 := by
  induction work generalizing count system with
  | done value => exact List.mem_cons_self
  | ask question next ih =>
      rw [interrupted, trace]
      exact ih _ count system
  | attempt change next ih =>
      cases count with
      | zero => exact List.mem_cons_self
      | succ count =>
          rw [interrupted, trace]
          cases system.change change with
          | ok changed => exact List.mem_cons_of_mem _ (ih _ count changed)
          | error refusal => exact List.mem_cons_of_mem _ (ih _ count system)

end Disk

namespace Action

variable {α β : Type}

/-- The outcome of an action, and the file system after each change that it attempts. -/
def trace (action : Action α) (system : FileSystem) : Except Error α × List FileSystem :=
  action.outcome.trace system

@[simp] theorem trace_pure (value : α) (system : FileSystem) :
    (pure value : Action α).trace system = (.ok value, []) := rfl

@[simp] theorem trace_throw (error : Error) (system : FileSystem) :
    (throw error : Action α).trace system = (.error error, []) := rfl

@[simp] theorem trace_of (result : Except Error α) (system : FileSystem) :
    (Action.of result).trace system = (result, []) := rfl

theorem runOn_eq_trace (action : Action α) (system : FileSystem) :
    action.runOn system = ((action.trace system).1, (action.trace system).2.getLastD system) :=
  Disk.run_eq_trace action.outcome system

theorem trace_bind_of_ok {action : Action α} {system : FileSystem} {value : α}
    (succeeded : (action.trace system).1 = .ok value) (next : α → Action β) :
    (action >>= next).trace system =
      (((next value).trace ((action.trace system).2.getLastD system)).1,
        (action.trace system).2 ++
          ((next value).trace ((action.trace system).2.getLastD system)).2) := by
  change (action.outcome >>= ExceptT.bindCont next).trace system = _
  rw [Disk.trace_bind]
  change (action.outcome.trace system).1 = .ok value at succeeded
  rw [succeeded]
  rfl

theorem trace_bind_of_error {action : Action α} {system : FileSystem} {error : Error}
    (failed : (action.trace system).1 = .error error) (next : α → Action β) :
    (action >>= next).trace system = (.error error, (action.trace system).2) := by
  change (action.outcome >>= ExceptT.bindCont next).trace system = _
  rw [Disk.trace_bind]
  change (action.outcome.trace system).1 = .error error at failed
  rw [failed]
  simp only [ExceptT.bindCont, Disk.trace_pure, List.append_nil]
  rfl

/-- What work on a path gives: its value, or an error that names the path. -/
theorem trace_on (path : Path) (work : Disk (Except OsError α)) (system : FileSystem) :
    (Action.on path work).trace system =
      ((work.trace system).1.mapError (.storeAccess path.text), (work.trace system).2) := by
  rw [trace, outcome, on, ExceptT.run_mk, Disk.trace_bind]
  cases (work.trace system).1 <;> simp only [Disk.trace_pure, List.append_nil] <;> rfl

theorem trace_tryCatch_of_ok {action : Action α} {system : FileSystem} {value : α}
    (succeeded : (action.trace system).1 = .ok value) (handler : Error → Action α) :
    (tryCatch action handler).trace system = action.trace system := by
  change (ExceptT.tryCatch action handler).run.trace system = _
  rw [ExceptT.tryCatch, ExceptT.run_mk, Disk.trace_bind]
  change (Disk.trace action system).1 = .ok value at succeeded
  rw [succeeded]
  simp only [Disk.trace_pure, List.append_nil]
  exact Prod.ext succeeded.symm rfl

theorem trace_tryCatch_of_error {action : Action α} {system : FileSystem} {error : Error}
    (failed : (action.trace system).1 = .error error) (handler : Error → Action α) :
    (tryCatch action handler).trace system =
      (((handler error).trace ((action.trace system).2.getLastD system)).1,
        (action.trace system).2 ++
          ((handler error).trace ((action.trace system).2.getLastD system)).2) := by
  change (ExceptT.tryCatch action handler).run.trace system = _
  rw [ExceptT.tryCatch, ExceptT.run_mk, Disk.trace_bind]
  change (Disk.trace action system).1 = .error error at failed
  rw [failed]
  rfl

end Action

/-!
## Questions about a file
-/

namespace FileSystem.HasFile

variable {system : FileSystem} {path place : Path} {content : Content}

theorem trace_size (file : system.HasFile path place content) :
    (Disk.size path).trace system = (.ok content.size, []) := by
  change ((system.resolve path).map fun found => system.sizeOf found.1 found.2, []) = _
  rw [file.resolve_eq]
  rfl

theorem trace_content (file : system.HasFile path place content) :
    (Disk.content path).trace system = (.ok content.toList, []) := by
  change ((system.openFile path).map fun found => found.2.toList, []) = _
  rw [file.openFile_eq]
  rfl

theorem trace_slice (file : system.HasFile path place content) (offset count : Nat) :
    (Disk.slice path offset count).trace system = (.ok (content.slice offset count), []) := by
  change ((system.openFile path).map fun found => found.2.slice offset count, []) = _
  rw [file.openFile_eq]
  rfl

end FileSystem.HasFile

end GraphStore
