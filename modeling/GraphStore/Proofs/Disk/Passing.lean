import GraphStore.Proofs.Disk.Tree

/-!
# What work passes through

Statements about all states in which work can be stopped, and about the ways in which the system can
refuse its changes. Main statements: whatever work passes through, whole runs, runs with refusals
and interrupted ones are all covered.
-/

set_option autoImplicit false

namespace GraphStore

variable {α β : Type} {mayRefuse : Prop}

namespace Disk

/-- Whether work passes only through file systems of a kind, one after each change that is made, and
ends with an outcome and a file system that fit. The system refuses changes that cannot be made and,
if it may, any others. -/
def Passes (mayRefuse : Prop) (passing : FileSystem → Prop) (ends : α → FileSystem → Prop)
    (work : Disk α) (system : FileSystem) : Prop :=
  match work with
  | done value => ends value system
  | ask question next => Passes mayRefuse passing ends (next (question.answer system)) system
  | attempt change next =>
      (∀ reason, mayRefuse ∨ system.change change = .error reason →
        Passes mayRefuse passing ends (next (.error reason)) system) ∧
      ∀ changed, system.change change = .ok changed →
        passing changed ∧ Passes mayRefuse passing ends (next (.ok ())) changed

variable {passing : FileSystem → Prop} {ends : α → FileSystem → Prop} {work : Disk α}
  {system : FileSystem}

theorem Passes.pure {value : α} (fits : ends value system) :
    (pure value : Disk α).Passes mayRefuse passing ends system := fits

theorem Passes.ask {question : Question} {ends : question.Answer → FileSystem → Prop}
    (fits : ends (question.answer system) system) :
    (Disk.ask question Disk.done).Passes mayRefuse passing ends system := fits

theorem Passes.change {change : Change} {ends : Except OsError Unit → FileSystem → Prop}
    (refused : ∀ reason, ends (.error reason) system)
    (made : ∀ changed, system.change change = .ok changed →
      passing changed ∧ ends (.ok ()) changed) :
    (Disk.change change).Passes mayRefuse passing ends system :=
  ⟨fun reason _ => refused reason, made⟩

theorem Passes.bind {next : α → Disk β} {last : β → FileSystem → Prop}
    (first : work.Passes mayRefuse passing ends system)
    (rest : ∀ value later, ends value later →
      (next value).Passes mayRefuse passing last later) :
    (work >>= next).Passes mayRefuse passing last system := by
  change (work.bind next).Passes mayRefuse passing last system
  -- The file system varies in the induction: each change hands its own one to the rest of the work.
  induction work generalizing system with
  | done value => exact rest value system first
  | ask question further ih => exact ih _ first
  | attempt change further ih =>
      obtain ⟨refused, made⟩ := first
      constructor
      · exact fun reason given => ih _ (refused reason given)
      · intro changed succeeded
        obtain ⟨passed, onward⟩ := made changed succeeded
        exact ⟨passed, ih _ onward⟩

theorem Passes.imp {onPassing : FileSystem → Prop} {onEnds : α → FileSystem → Prop}
    (passes : work.Passes mayRefuse passing ends system)
    (also : ∀ later, passing later → onPassing later)
    (fits : ∀ value later, ends value later → onEnds value later) :
    work.Passes mayRefuse onPassing onEnds system := by
  induction work generalizing system with
  | done value => exact fits value system passes
  | ask question further ih => exact ih _ passes
  | attempt change further ih =>
      obtain ⟨refused, made⟩ := passes
      constructor
      · exact fun reason given => ih _ (refused reason given)
      · intro changed succeeded
        obtain ⟨passed, onward⟩ := made changed succeeded
        exact ⟨also changed passed, ih _ onward⟩

/-- Whether work passes only through file systems of a kind and ends with one of them. -/
abbrev Stays (mayRefuse : Prop) (kept : FileSystem → Prop) (work : Disk α) (system : FileSystem) :
    Prop :=
  work.Passes mayRefuse kept (fun _ => kept) system

/-- What every change keeps is kept by all work. -/
theorem stays_of_forall_change {kept : FileSystem → Prop}
    (keeps : ∀ earlier change later, kept earlier → earlier.change change = .ok later → kept later)
    (held : kept system) : work.Stays mayRefuse kept system := by
  induction work generalizing system with
  | done value => exact held
  | ask question further ih => exact ih _ held
  | attempt change further ih =>
      constructor
      · exact fun reason _ => ih _ held
      · intro changed succeeded
        have onward := keeps _ _ _ held succeeded
        exact ⟨onward, ih _ onward⟩

/-- All work passes through some file systems and ends with one. -/
theorem stays_anywhere (work : Disk α) (system : FileSystem) :
    work.Stays mayRefuse (fun _ => True) system :=
  stays_of_forall_change (fun _ _ _ _ _ => trivial) trivial

theorem Passes.and {others : FileSystem → Prop} {finishes : α → FileSystem → Prop}
    (first : work.Passes mayRefuse passing ends system)
    (second : work.Passes mayRefuse others finishes system) :
    work.Passes mayRefuse (fun later => passing later ∧ others later)
      (fun value later => ends value later ∧ finishes value later) system := by
  induction work generalizing system with
  | done value => exact ⟨first, second⟩
  | ask question further ih => exact ih _ first second
  | attempt change further ih =>
      obtain ⟨refused, made⟩ := first
      obtain ⟨secondRefused, secondMade⟩ := second
      constructor
      · exact fun reason given => ih _ (refused reason given) (secondRefused reason given)
      · intro changed succeeded
        obtain ⟨passed, onward⟩ := made changed succeeded
        obtain ⟨secondPassed, secondOnward⟩ := secondMade changed succeeded
        exact ⟨⟨passed, secondPassed⟩, ih _ onward secondOnward⟩

theorem Stays.change {change : Change} {kept : FileSystem → Prop} (held : kept system)
    (keeps : ∀ changed, system.change change = .ok changed → kept changed) :
    (Disk.change change).Stays mayRefuse kept system :=
  Passes.change (fun _ => held) fun changed succeeded =>
    ⟨keeps changed succeeded, keeps changed succeeded⟩

/-!
## Runs
-/

theorem Passes.run (passes : work.Passes mayRefuse passing ends system) :
    ends (work.run system).1 (work.run system).2 := by
  induction work generalizing system with
  | done value => exact passes
  | ask question further ih => exact ih _ passes
  | attempt change further ih =>
      obtain ⟨refused, made⟩ := passes
      rw [Disk.run]
      cases outcome : system.change change with
      | ok changed => exact ih _ (made changed outcome).2
      | error reason => exact ih _ (refused reason (.inr outcome))

theorem Passes.ends_of_run (passes : work.Passes mayRefuse passing ends system) {value : α}
    {later : FileSystem} (ran : work.run system = (value, later)) : ends value later := by
  have ended := passes.run
  rwa [ran] at ended

/-- Work whose changes are refused only if they cannot be made ends as its run does. -/
theorem passes_run (work : Disk α) (system : FileSystem) :
    work.Passes False (fun _ => True) (fun value later => work.run system = (value, later))
      system := by
  induction work generalizing system with
  | done value => exact rfl
  | ask question further ih => exact ih _ system
  | attempt change further ih =>
      constructor
      · intro reason given
        rw [Disk.run, given.resolve_left id]
        exact ih _ system
      · intro changed succeeded
        rw [Disk.run, succeeded]
        exact ⟨trivial, ih _ changed⟩

theorem Passes.runRefusing (passes : work.Passes True passing ends system)
    (refusal : Nat → Change → Option OsError) (index : Nat) :
    ends (work.runRefusing refusal index system).1 (work.runRefusing refusal index system).2 := by
  induction work generalizing system index with
  | done value => exact passes
  | ask question further ih => exact ih _ passes index
  | attempt change further ih =>
      obtain ⟨refused, made⟩ := passes
      rw [Disk.runRefusing]
      cases refusal index change with
      | some reason => exact ih _ (refused reason (.inl trivial)) (index + 1)
      | none =>
          cases outcome : system.change change with
          | ok changed => exact ih _ (made changed outcome).2 (index + 1)
          | error reason => exact ih _ (refused reason (.inl trivial)) (index + 1)

theorem Passes.interrupted (passes : work.Passes mayRefuse passing ends system)
    (held : passing system) (count : Nat) : passing (work.interrupted count system) := by
  induction work generalizing system count with
  | done value => exact held
  | ask question further ih => exact ih _ passes held count
  | attempt change further ih =>
      obtain ⟨refused, made⟩ := passes
      cases count with
      | zero => exact held
      | succ count =>
          rw [Disk.interrupted]
          cases outcome : system.change change with
          | ok changed =>
              obtain ⟨passed, onward⟩ := made changed outcome
              exact ih _ onward passed count
          | error reason => exact ih _ (refused reason (.inr outcome)) held count

theorem stays_isTree (tree : system.IsTree) : work.Stays mayRefuse FileSystem.IsTree system :=
  stays_of_forall_change (fun _ _ _ held changed => held.change changed) tree

theorem isTree_of_run (tree : system.IsTree) {value : α} {later : FileSystem}
    (ran : work.run system = (value, later)) : later.IsTree :=
  (stays_isTree tree : work.Stays False FileSystem.IsTree system).ends_of_run ran

end Disk

namespace Action

open Disk

variable {passing : FileSystem → Prop} {ends : Except Error α → FileSystem → Prop}
  {action : Action α} {system : FileSystem}

/-- Whether the work of an action passes only through file systems of a kind. -/
def Passes (mayRefuse : Prop) (passing : FileSystem → Prop)
    (ends : Except Error α → FileSystem → Prop) (action : Action α) (system : FileSystem) : Prop :=
  action.outcome.Passes mayRefuse passing ends system

theorem Passes.pure {value : α} (fits : ends (.ok value) system) :
    Action.Passes mayRefuse passing ends (pure value) system := fits

theorem Passes.throw {error : Error} (fits : ends (.error error) system) :
    Action.Passes mayRefuse passing ends (throw error) system := fits

theorem Passes.of {result : Except Error α} (fits : ends result system) :
    Action.Passes mayRefuse passing ends (.of result) system := fits

theorem Passes.bind {next : α → Action β} {last : Except Error β → FileSystem → Prop}
    (first : action.Passes mayRefuse passing ends system)
    (rest : ∀ value later, ends (.ok value) later → (next value).Passes mayRefuse passing last later)
    (failed : ∀ error later, ends (.error error) later → last (.error error) later) :
    (action >>= next).Passes mayRefuse passing last system := by
  refine Disk.Passes.bind first fun outcome later ended => ?_
  cases outcome with
  | ok value => exact rest value later ended
  | error error => exact failed error later ended

theorem Passes.on {path : Path} {work : Disk (Except OsError α)}
    (passes : work.Passes mayRefuse passing
      (fun outcome later => ends (outcome.mapError (.storeAccess path.text)) later) system) :
    (Action.on path work).Passes mayRefuse passing ends system := by
  refine Disk.Passes.bind passes fun outcome later ended => ?_
  cases outcome with
  | ok value => exact ended
  | error cause => exact ended

theorem Passes.lift {work : Disk α}
    (passes : work.Passes mayRefuse passing (fun value later => ends (.ok value) later) system) :
    Action.Passes mayRefuse passing ends (ExceptT.lift work) system := by
  change ((fun value => Except.ok value) <$> work : Disk _).Passes mayRefuse passing ends system
  rw [map_eq_pure_bind]
  exact Disk.Passes.bind passes fun value later ended => ended

theorem Passes.tryCatch {handler : Error → Action α} {last : Except Error α → FileSystem → Prop}
    (first : action.Passes mayRefuse passing ends system)
    (done : ∀ value later, ends (.ok value) later → last (.ok value) later)
    (handled : ∀ error later, ends (.error error) later →
      (handler error).Passes mayRefuse passing last later) :
    (tryCatch action handler).Passes mayRefuse passing last system := by
  refine Disk.Passes.bind first fun outcome later ended => ?_
  cases outcome with
  | ok value => exact done value later ended
  | error error => exact handled error later ended

/-- Whether the work of an action passes only through file systems of a kind and ends with one of
them. -/
abbrev Stays (mayRefuse : Prop) (kept : FileSystem → Prop) (action : Action α)
    (system : FileSystem) : Prop :=
  action.Passes mayRefuse kept (fun _ => kept) system

variable {kept : FileSystem → Prop}

theorem Stays.bind {next : α → Action β} (first : action.Stays mayRefuse kept system)
    (rest : ∀ value later, kept later → (next value).Stays mayRefuse kept later) :
    (action >>= next).Stays mayRefuse kept system :=
  Passes.bind first rest fun _ _ held => held

theorem Stays.tryCatch {handler : Error → Action α} (first : action.Stays mayRefuse kept system)
    (handled : ∀ error later, kept later → (handler error).Stays mayRefuse kept later) :
    (tryCatch action handler).Stays mayRefuse kept system :=
  Passes.tryCatch first (fun _ _ held => held) handled

theorem Stays.on {path : Path} {work : Disk (Except OsError α)}
    (stays : work.Stays mayRefuse kept system) : (Action.on path work).Stays mayRefuse kept system :=
  Passes.on stays

theorem Stays.lift {work : Disk α} (stays : work.Stays mayRefuse kept system) :
    Action.Stays mayRefuse kept (ExceptT.lift work) system :=
  Passes.lift stays

end Action

end GraphStore
