import GraphStore.Disk.Basic
import Mathlib.Data.List.Forall2

/-!
# Work on two disks

Two pieces of work, each on a file system of its own, that go on in step. Main statements: rules by
which work that goes on in step is put together, one for each way to put work together.
-/

set_option autoImplicit false

namespace GraphStore

variable {α β γ δ ε : Type}

/-!
## Outcomes in step
-/

/-- Whether two computations fail with the same fault or give values that fit to each other. -/
inductive Agree (fits : α → β → Prop) : Except ε α → Except ε β → Prop where
  | ok {here : α} {there : β} (fit : fits here there) : Agree fits (.ok here) (.ok there)
  | error (fault : ε) : Agree fits (.error fault) (.error fault)

namespace Agree

variable {fits : α → β → Prop} {suits : γ → δ → Prop} {first : Except ε α} {second : Except ε β}

theorem same (result : Except ε α) : Agree Eq result result := by
  cases result with
  | ok value => exact .ok rfl
  | error fault => exact .error fault

theorem eq {other : Except ε α} (agree : Agree Eq first other) : first = other := by
  cases agree with
  | ok fit => exact congrArg Except.ok fit
  | error => rfl

theorem imp {last : α → β → Prop} (agree : Agree fits first second)
    (weaker : ∀ here there, fits here there → last here there) : Agree last first second := by
  cases agree with
  | ok fit => exact .ok (weaker _ _ fit)
  | error fault => exact .error fault

theorem bind {next : α → Except ε γ} {onward : β → Except ε δ} (agree : Agree fits first second)
    (rest : ∀ here there, fits here there → Agree suits (next here) (onward there)) :
    Agree suits (first >>= next) (second >>= onward) := by
  cases agree with
  | ok fit => exact rest _ _ fit
  | error fault => exact .error fault

theorem map {give : α → γ} {lend : β → δ} (agree : Agree fits first second)
    (keeps : ∀ here there, fits here there → suits (give here) (lend there)) :
    Agree suits (first.map give) (second.map lend) := by
  cases agree with
  | ok fit => exact .ok (keeps _ _ fit)
  | error fault => exact .error fault

end Agree

/-!
## Work in step
-/

variable {related : FileSystem → FileSystem → Prop} {fits : α → β → Prop} {suits : γ → δ → Prop}

/-- Whether two pieces of work, begun on file systems that are related, give values that fit to each
other and leave file systems that are related again. -/
def Disk.Parallel (related : FileSystem → FileSystem → Prop) (fits : α → β → Prop)
    (first : Disk α) (second : Disk β) : Prop :=
  ∀ system other, related system other →
    fits (first.run system).1 (second.run other).1 ∧
      related (first.run system).2 (second.run other).2

namespace Disk.Parallel

variable {first : Disk α} {second : Disk β}

theorem pure {here : α} {there : β} (fit : fits here there) :
    Disk.Parallel related fits (pure here) (pure there) :=
  fun _ _ held => ⟨fit, held⟩

theorem bind {next : α → Disk γ} {onward : β → Disk δ}
    (begun : Disk.Parallel related fits first second)
    (rest : ∀ here there, fits here there → Disk.Parallel related suits (next here) (onward there)) :
    Disk.Parallel related suits (first >>= next) (second >>= onward) := by
  intro system other held
  obtain ⟨fit, middle⟩ := begun system other held
  rw [Disk.run_bind, Disk.run_bind]
  exact rest _ _ fit _ _ middle

theorem imp {last : α → β → Prop} (parallel : Disk.Parallel related fits first second)
    (weaker : ∀ here there, fits here there → last here there) :
    Disk.Parallel related last first second := by
  intro system other held
  obtain ⟨fit, later⟩ := parallel system other held
  exact ⟨weaker _ _ fit, later⟩

theorem ask {question : Question} {fits : question.Answer → question.Answer → Prop}
    (answers : ∀ system other, related system other →
      fits (question.answer system) (question.answer other)) :
    Disk.Parallel related fits (.ask question .done) (.ask question .done) :=
  fun system other held => ⟨answers system other held, held⟩

theorem change {left right : Change}
    (changes : ∀ system other, related system other →
      Agree related (system.change left) (other.change right)) :
    Disk.Parallel related Eq (Disk.change left) (Disk.change right) := by
  intro system other held
  have agree := changes system other held
  simp only [Disk.change, Disk.run]
  cases here : system.change left with
  | error reason =>
      rw [here] at agree
      cases there : other.change right with
      | error refusal =>
          rw [there] at agree
          cases agree
          exact ⟨rfl, held⟩
      | ok later =>
          rw [there] at agree
          cases agree
  | ok changed =>
      rw [here] at agree
      cases there : other.change right with
      | error refusal =>
          rw [there] at agree
          cases agree
      | ok later =>
          rw [there] at agree
          cases agree with
          | ok fit => exact ⟨rfl, fit⟩

end Disk.Parallel

/-!
## Actions in step
-/

/-- Whether two actions fail with the same error or give values that fit to each other, and leave
file systems that are related again. -/
def Action.Parallel (related : FileSystem → FileSystem → Prop) (fits : α → β → Prop)
    (first : Action α) (second : Action β) : Prop :=
  Disk.Parallel related (Agree fits) first.outcome second.outcome

namespace Action.Parallel

variable {first : Action α} {second : Action β}

theorem pure {here : α} {there : β} (fit : fits here there) :
    Action.Parallel related fits (pure here) (pure there) := Disk.Parallel.pure (.ok fit)

theorem throw (error : Error) :
    Action.Parallel related fits (throw error : Action α) (throw error : Action β) :=
  Disk.Parallel.pure (.error error)

theorem of {here : Except Error α} {there : Except Error β} (agree : Agree fits here there) :
    Action.Parallel related fits (.of here) (.of there) := Disk.Parallel.pure agree

theorem bind {next : α → Action γ} {onward : β → Action δ}
    (begun : Action.Parallel related fits first second)
    (rest : ∀ here there, fits here there →
      Action.Parallel related suits (next here) (onward there)) :
    Action.Parallel related suits (first >>= next) (second >>= onward) := by
  refine Disk.Parallel.bind begun ?_
  intro here there agree
  cases agree with
  | ok fit => exact rest _ _ fit
  | error error => exact Disk.Parallel.pure (.error error)

theorem bind_same {start other : Action α} {next : α → Action γ} {onward : α → Action δ}
    (begun : Action.Parallel related Eq start other)
    (rest : ∀ value, Action.Parallel related suits (next value) (onward value)) :
    Action.Parallel related suits (start >>= next) (other >>= onward) :=
  begun.bind fun here _ same => same ▸ rest here

theorem of_bind (result : Except Error α) {next : α → Action γ} {onward : α → Action δ}
    (rest : ∀ value, result = .ok value → Action.Parallel related suits (next value) (onward value)) :
    Action.Parallel related suits (Action.of result >>= next) (Action.of result >>= onward) := by
  cases result with
  | ok value => exact rest value rfl
  | error error => exact Disk.Parallel.pure (.error error)

theorem ite {condition : Prop} [Decidable condition] {other : Action α} {others : Action β}
    (holds : condition → Action.Parallel related fits first second)
    (fails : ¬condition → Action.Parallel related fits other others) :
    Action.Parallel related fits (if condition then first else other)
      (if condition then second else others) := by
  split
  next given => exact holds given
  next given => exact fails given

theorem on {path : Path} {work : Disk (Except OsError α)} {others : Disk (Except OsError β)}
    (parallel : Disk.Parallel related (Agree fits) work others) :
    Action.Parallel related fits (.on path work) (.on path others) := by
  refine Disk.Parallel.bind parallel ?_
  intro here there agree
  cases agree with
  | ok fit => exact Disk.Parallel.pure (.ok fit)
  | error cause => exact Disk.Parallel.pure (.error _)

theorem on_same {path : Path} {work others : Disk (Except OsError α)}
    (parallel : Disk.Parallel related Eq work others) :
    Action.Parallel related Eq (.on path work) (.on path others) :=
  .on (parallel.imp fun here _ same => same ▸ .same here)

theorem lift {work : Disk α} {others : Disk β} (parallel : Disk.Parallel related fits work others) :
    Action.Parallel related fits (ExceptT.lift work) (ExceptT.lift others) := by
  change Disk.Parallel related (Agree fits) ((fun value => Except.ok value) <$> work)
    ((fun value => Except.ok value) <$> others)
  rw [map_eq_pure_bind, map_eq_pure_bind]
  exact Disk.Parallel.bind parallel fun here there fit => Disk.Parallel.pure (.ok fit)

theorem tryCatch {handler recovery : Error → Action _}
    (begun : Action.Parallel related fits first second)
    (handled : ∀ error, Action.Parallel related fits (handler error) (recovery error)) :
    Action.Parallel related fits (tryCatch first handler) (tryCatch second recovery) := by
  refine Disk.Parallel.bind begun ?_
  intro here there agree
  cases agree with
  | ok fit => exact Disk.Parallel.pure (.ok fit)
  | error error => exact handled error

theorem mapM {items : List γ} {work : γ → Action α} {others : γ → Action α}
    (each : ∀ item ∈ items, Action.Parallel related Eq (work item) (others item)) :
    Action.Parallel related Eq (items.mapM work) (items.mapM others) := by
  induction items with
  | nil => exact .pure rfl
  | cons item items ih =>
      obtain ⟨here, rest⟩ := List.forall_mem_cons.mp each
      rw [List.mapM_cons, List.mapM_cons]
      exact here.bind_same fun value => (ih rest).bind_same fun values => .pure rfl

end Action.Parallel

end GraphStore
