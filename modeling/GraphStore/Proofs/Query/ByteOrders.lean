import GraphStore.Proofs.Engine.Alike
import GraphStore.Proofs.Engine.Calls

/-!
# Histories in any byte order

Engines that are opened, one after the other, on one file system, and calls on them in any order.
Main statement: what the calls answer does not depend on the byte orders with which the engines were
opened, so that an engine reads and extends what one with another byte order has made.
-/

set_option autoImplicit false

namespace GraphStore

variable {engine other : Engine}

/-!
## Scripts
-/

namespace Query

theorem parallel_storeAll (alike : engine.Alike other) (collection : String) (nodes : List Node) :
    Disk.Parallel FileSystem.Alike Eq (storeAll engine collection nodes)
      (storeAll other collection nodes) := by
  induction nodes with
  | nil => exact .pure rfl
  | cons node rest ih =>
      refine Disk.Parallel.bind (alike.createNode collection node) fun stored _ agree => ?_
      obtain rfl := agree.eq
      cases stored with
      | error error => exact .pure rfl
      | ok => exact ih.bind fun later _ same => same ▸ .pure rfl

theorem stamped_outcome (now later time : Timestamp) (stored : List Node) (failure : Option Error) :
    { outcome now stored failure with timestamp := time } =
      { outcome later stored failure with timestamp := time } := by
  cases failure with
  | some error =>
      unfold outcome
      cases stored <;> rfl
  | none =>
      cases stored with
      | nil => rfl
      | cons node rest => cases rest <;> rfl

theorem parallel_execute (alike : engine.Alike other) (collection : String) (separator : Separator)
    (now later : Timestamp) (text : String) :
    Disk.Parallel FileSystem.Alike
      (fun here there => ∀ time, { here with timestamp := time } = { there with timestamp := time })
      (execute engine collection separator now text)
      (execute other collection separator later text) := by
  unfold execute
  split
  next => exact .pure fun _ => rfl
  next =>
    dsimp only
    split
    next error _ => exact .pure fun _ => rfl
    next nodes _ =>
      refine (parallel_storeAll alike collection nodes).bind fun stored _ same => ?_
      subst same
      exact .pure fun time => stamped_outcome now later time stored.1 stored.2

end Query

/-!
## Calls
-/

namespace EngineCall

/-- Whether two answers are the same but for the times of responses, and the engines behind them are
alike. -/
structure GoesAlike (here there : EngineAnswer × Engine) : Prop where
  answer (time : Timestamp) : here.1.stamped time = there.1.stamped time
  engine : here.2.Alike there.2

theorem parallel_tell (alike : engine.Alike other) {α : Type} {action others : Action α}
    (parallel : Action.Parallel FileSystem.Alike Eq action others)
    (give : Except Error α → EngineAnswer) :
    Disk.Parallel FileSystem.Alike GoesAlike (do return (give (← action.outcome), engine))
      (do return (give (← others.outcome), other)) :=
  Disk.Parallel.bind parallel fun _ _ agree => .pure ⟨fun _ => agree.eq ▸ rfl, alike⟩

theorem parallel_carryOut (alike : engine.Alike other) (first second : Occasion)
    (call : EngineCall) :
    Disk.Parallel FileSystem.Alike GoesAlike (call.carryOut first engine)
      (call.carryOut second other) := by
  cases call with
  | collections =>
      exact .pure ⟨fun _ => congrArg EngineAnswer.collections alike.catalog.names.symm, alike⟩
  | createCollection order name =>
      refine (alike.createCollectionIn order _ _ name).bind fun here there ⟨same, later⟩ => ?_
      exact .pure ⟨fun _ => congrArg EngineAnswer.done same, later⟩
  | deleteCollection name =>
      refine (alike.deleteCollection _ _ name).bind fun here there ⟨same, later⟩ => ?_
      exact .pure ⟨fun _ => congrArg EngineAnswer.done same, later⟩
  | createNode collection node =>
      exact parallel_tell alike (alike.createNode collection node) .stored
  | getNode collection id => exact parallel_tell alike (alike.getNode collection id) .node
  | createRelationship collection relationship =>
      exact parallel_tell alike (alike.createRelationship collection relationship) .relationship
  | getRelationship collection id =>
      exact parallel_tell alike (alike.getRelationship collection id) .relationship
  | execute collection separator text =>
      refine (Query.parallel_execute alike collection separator _ _ text).bind fun _ _ same => ?_
      exact .pure ⟨fun time => congrArg EngineAnswer.response (same time), alike⟩

end EngineCall

/-!
## Histories
-/

/-- The engines that are open, in the order in which they were opened, and the file system on which
they work. -/
structure Host where
  engines : List Engine
  system : FileSystem

/-- The opening of a database, or a call on an engine that is open. -/
inductive HostCall where
  | openAt (root : Path)
  | call (engine : Nat) (call : EngineCall)

namespace Host

def step (host : Host) (occasion : Occasion) : HostCall → EngineAnswer × Host
  | .openAt root =>
      match (Engine.openAt root occasion.options occasion.now).runOn host.system with
      | (.ok engine, system) => (.done (.ok ()), ⟨host.engines ++ [engine], system⟩)
      | (.error error, system) => (.done (.error error), { host with system })
  | .call index call =>
      match host.engines[index]? with
      | none => (.none, host)
      | some engine =>
          let run := (call.carryOut occasion engine).run host.system
          (run.1.1, ⟨host.engines.set index run.1.2, run.2⟩)

def run (host : Host) : List (HostCall × Occasion) → List EngineAnswer × Host
  | [] => ([], host)
  | (call, occasion) :: rest =>
      let first := host.step occasion call
      let onward := first.2.run rest
      (first.1 :: onward.1, onward.2)

/-- Whether as many engines are open in two hosts, each with its counterpart, on file systems that
hold the same. -/
structure Alike (host other : Host) : Prop where
  engines : List.Forall₂ Engine.Alike host.engines other.engines
  system : host.system.Alike other.system

private theorem rel_getElem? {α β : Type} {R : α → β → Prop} {left : List α} {right : List β}
    (related : List.Forall₂ R left right) (index : Nat) :
    Option.Rel R left[index]? right[index]? := by
  induction related generalizing index with
  | nil => exact .none
  | cons here _ ih =>
      cases index with
      | zero => exact .some here
      | succ index => exact ih index

private theorem forall₂_set {α β : Type} {R : α → β → Prop} {left : List α} {right : List β}
    (related : List.Forall₂ R left right) (index : Nat) {here : α} {there : β} (fit : R here there) :
    List.Forall₂ R (left.set index here) (right.set index there) := by
  induction related generalizing index with
  | nil => exact .nil
  | cons first rest ih =>
      cases index with
      | zero => exact .cons fit rest
      | succ index => exact .cons first (ih index)

/-- A call is answered alike on hosts that are alike, and leaves them alike. -/
theorem Alike.step {host other : Host} (alike : host.Alike other) (first second : Occasion)
    (call : HostCall) :
    (∀ time, (host.step first call).1.stamped time = (other.step second call).1.stamped time) ∧
      (host.step first call).2.Alike (other.step second call).2 := by
  cases call with
  | openAt root =>
      have opened := Engine.parallel_openAt root first.options second.options first.now second.now
        host.system other.system alike.system
      rw [← Action.runOn, ← Action.runOn] at opened
      rw [Host.step, Host.step]
      generalize (Engine.openAt root first.options first.now).runOn host.system = here,
        (Engine.openAt root second.options second.now).runOn other.system = there at opened
      obtain ⟨outcome, system⟩ := here
      obtain ⟨result, later⟩ := there
      obtain ⟨agree, same⟩ := opened
      cases agree with
      | error error => exact ⟨fun _ => rfl, alike.engines, same⟩
      | ok engines =>
          exact ⟨fun _ => rfl, List.rel_append alike.engines (.cons engines .nil), same⟩
  | call index call =>
      have found := rel_getElem? alike.engines index
      rw [Host.step, Host.step]
      generalize host.engines[index]? = here, other.engines[index]? = there at found
      cases found with
      | none => exact ⟨fun _ => rfl, alike⟩
      | some same =>
          obtain ⟨⟨answers, engines⟩, system⟩ :=
            call.parallel_carryOut same first second host.system other.system alike.system
          exact ⟨answers, forall₂_set alike.engines index engines, system⟩

theorem Alike.run {host other : Host} (alike : host.Alike other)
    (calls : List (HostCall × Occasion × Occasion)) :
    (∀ time, (host.run (calls.map fun call => (call.1, call.2.1))).1.map (·.stamped time) =
      (other.run (calls.map fun call => (call.1, call.2.2))).1.map (·.stamped time)) ∧
    (host.run (calls.map fun call => (call.1, call.2.1))).2.Alike
      (other.run (calls.map fun call => (call.1, call.2.2))).2 := by
  induction calls generalizing host other with
  | nil => exact ⟨fun _ => rfl, alike⟩
  | cons call rest ih =>
      obtain ⟨call, first, second⟩ := call
      obtain ⟨answers, later⟩ := alike.step first second call
      obtain ⟨others, last⟩ := ih later
      refine ⟨fun time => ?_, last⟩
      exact congrArg₂ List.cons (answers time) (others time)

/-- Calls that are made twice from the same file system, in each history on occasions of its own,
are answered the same, but for the times of responses: with whatever byte order each engine was
opened, and whatever the clock was. So engines with different byte orders read and extend what each
of them has made, as engines with one byte order do. -/
theorem run_stamped_eq (start : FileSystem) (calls : List (HostCall × Occasion × Occasion))
    (time : Timestamp) :
    ((Host.mk [] start).run (calls.map fun call => (call.1, call.2.1))).1.map (·.stamped time) =
      ((Host.mk [] start).run (calls.map fun call => (call.1, call.2.2))).1.map (·.stamped time) := by
  have alike : (Host.mk [] start).Alike ⟨[], start⟩ := ⟨.nil, FileSystem.Alike.refl start⟩
  exact (alike.run calls).1 time

end Host

end GraphStore
