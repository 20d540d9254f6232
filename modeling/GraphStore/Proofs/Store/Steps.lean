import GraphStore.Proofs.Store.Site
import Mathlib.Data.List.Forall2

/-!
# Actions on the files of a collection

What an action does to the records in the files, read off its trace: an action that only asks gives
an outcome, and one that changes files passes through lists of records, one after each change. Both
are put together along `do` blocks.
-/

set_option autoImplicit false

namespace GraphStore

namespace Site

variable {site : Site} {α β : Type} {stores before : Stores}

/-!
## Actions that only ask
-/

/-- Whether an action gives an outcome wherever the files hold some records, without a change. -/
def Yields (site : Site) (action : Action α) (stores : Stores) (outcome : Except Error α) : Prop :=
  ∀ system, site.Holds stores system → action.trace system = (outcome, [])

theorem Yields.pure (value : α) : site.Yields (pure value) stores (.ok value) :=
  fun system _ => Action.trace_pure value system

theorem Yields.throw (error : Error) : site.Yields (throw error : Action α) stores (.error error) :=
  fun system _ => Action.trace_throw error system

theorem Yields.of {result outcome : Except Error α} (same : result = outcome) :
    site.Yields (.of result) stores outcome :=
  fun system _ => same ▸ Action.trace_of result system

theorem Yields.bind {action : Action α} {next : α → Action β} {value : α}
    {outcome : Except Error β} (first : site.Yields action stores (.ok value))
    (rest : site.Yields (next value) stores outcome) :
    site.Yields (action >>= next) stores outcome := by
  intro system held
  have given := first system held
  rw [Action.trace_bind_of_ok (by rw [given]), given]
  simp only [List.getLastD_nil, rest system held, List.append_nil]

theorem Yields.bind_error {action : Action α} {error : Error}
    (first : site.Yields action stores (.error error)) (next : α → Action β) :
    site.Yields (action >>= next) stores (.error error) := by
  intro system held
  have given := first system held
  rw [Action.trace_bind_of_error (by rw [given]), given]

theorem Yields.handled {action : Action α} {value : α}
    (first : site.Yields action stores (.ok value)) (handler : Error → Action α) :
    site.Yields (tryCatch action handler) stores (.ok value) := by
  intro system held
  have given := first system held
  rw [Action.trace_tryCatch_of_ok (by rw [given]), given]

theorem Yields.handled_error {action : Action α} {handler : Error → Action α} {error : Error}
    {outcome : Except Error α} (first : site.Yields action stores (.error error))
    (handled : site.Yields (handler error) stores outcome) :
    site.Yields (tryCatch action handler) stores outcome := by
  intro system held
  have given := first system held
  rw [Action.trace_tryCatch_of_error (by rw [given]), given]
  simp only [List.getLastD_nil, handled system held, List.append_nil]

/-- Work on a path whose refusal names the path. -/
theorem Yields.on {work : Disk (Except OsError α)} {path : Path} {value : α}
    (given : ∀ system, site.Holds stores system → work.trace system = (.ok value, [])) :
    site.Yields (.on path work) stores (.ok value) := by
  intro system held
  rw [Action.trace_on, given system held]
  rfl

theorem Yields.mapM {action : α → Action β} {items : List α} {values : List β}
    (each : List.Forall₂ (fun item value => site.Yields (action item) stores (.ok value)) items
      values) :
    site.Yields (items.mapM action) stores (.ok values) := by
  induction each with
  | nil =>
      rw [List.mapM_nil]
      exact .pure []
  | cons here _ ih =>
      rw [List.mapM_cons]
      exact here.bind (ih.bind (.pure _))

/-!
## Actions that change files
-/

/-- Whether file systems hold some lists of records, in order, and differ from a former one in the
files of the collection only. -/
def Follow (site : Site) (system : FileSystem) (path : List Stores) (systems : List FileSystem) :
    Prop :=
  List.Forall₂ (fun stores later => site.Holds stores later ∧ site.Beside system later) path systems

theorem Follow.last {system : FileSystem} {path : List Stores} {systems : List FileSystem}
    (followed : site.Follow system path systems) (held : site.Holds before system) :
    site.Holds (path.getLastD before) (systems.getLastD system) ∧
      site.Beside system (systems.getLastD system) := by
  suffices general : ∀ former formerStores, site.Holds formerStores former →
      site.Beside system former → site.Holds (path.getLastD formerStores) (systems.getLastD former) ∧
        site.Beside system (systems.getLastD former) from
    general system before held (.refl site system)
  induction followed with
  | nil => exact fun former formerStores formerHeld beside => ⟨formerHeld, beside⟩
  | cons here _ ih =>
      intro former formerStores formerHeld beside
      rw [List.getLastD_cons, List.getLastD_cons]
      exact ih _ _ here.1 here.2

theorem Follow.exists_of_mem {system later : FileSystem} {path : List Stores}
    {systems : List FileSystem} (followed : site.Follow system path systems)
    (member : later ∈ systems) :
    ∃ stores ∈ path, site.Holds stores later ∧ site.Beside system later := by
  induction followed with
  | nil => cases member
  | cons here _ ih =>
      rcases List.mem_cons.mp member with rfl | inside
      · exact ⟨_, List.mem_cons_self, here⟩
      · obtain ⟨stores, among, held⟩ := ih inside
        exact ⟨stores, List.mem_cons_of_mem _ among, held⟩

theorem Follow.append {system middle : FileSystem} {front back : List Stores}
    {frontSystems backSystems : List FileSystem} (first : site.Follow system front frontSystems)
    (beside : site.Beside system middle) (second : site.Follow middle back backSystems) :
    site.Follow system (front ++ back) (frontSystems ++ backSystems) := by
  apply List.rel_append first
  exact second.imp fun _ _ later => ⟨later.1, beside.trans later.2⟩

private theorem getLastD_append (front back : List Stores) (first : Stores) :
    (front ++ back).getLastD first = back.getLastD (front.getLastD first) := by
  induction front generalizing first with
  | nil => rfl
  | cons head rest ih => rw [List.cons_append, List.getLastD_cons, List.getLastD_cons, ih]

/-- Whether every run of an action from some records has only lists with `passing` behind its
changes, and ends with an outcome and lists that fit `after`. -/
def Ensures (site : Site) (action : Action α) (before : Stores) (passing : Stores → Prop)
    (after : Except Error α → Stores → Prop) : Prop :=
  ∀ system, site.Holds before system → ∃ path, site.Follow system path (action.trace system).2 ∧
    (∀ stores ∈ path, passing stores) ∧ after (action.trace system).1 (path.getLastD before)

variable {passing : Stores → Prop} {after : Except Error α → Stores → Prop}

theorem Yields.ensures {action : Action α} {outcome : Except Error α}
    (given : site.Yields action before outcome) (fits : after outcome before) :
    site.Ensures action before passing after := by
  intro system held
  rw [given system held]
  exact ⟨[], .nil, nofun, fits⟩

theorem Ensures.imp {action : Action α} {onPassing : Stores → Prop}
    {onAfter : Except Error α → Stores → Prop} (ensured : site.Ensures action before passing after)
    (passes : ∀ stores, passing stores → onPassing stores)
    (ends : ∀ outcome stores, after outcome stores → onAfter outcome stores) :
    site.Ensures action before onPassing onAfter := by
  intro system held
  obtain ⟨path, followed, passed, fits⟩ := ensured system held
  exact ⟨path, followed, fun stores member => passes stores (passed stores member),
    ends _ _ fits⟩

theorem Ensures.bind {action : Action α} {next : α → Action β}
    {last : Except Error β → Stores → Prop} (first : site.Ensures action before passing after)
    (rest : ∀ value stores, after (.ok value) stores →
      site.Ensures (next value) stores passing last)
    (failed : ∀ error stores, after (.error error) stores → last (.error error) stores) :
    site.Ensures (action >>= next) before passing last := by
  intro system held
  obtain ⟨front, followed, passed, fits⟩ := first system held
  cases outcome : (action.trace system).1 with
  | error error =>
      rw [Action.trace_bind_of_error outcome]
      rw [outcome] at fits
      exact ⟨front, followed, passed, failed error _ fits⟩
  | ok value =>
      rw [Action.trace_bind_of_ok outcome]
      rw [outcome] at fits
      obtain ⟨middleHeld, beside⟩ := followed.last held
      obtain ⟨back, backFollowed, backPassed, backFits⟩ := rest value _ fits _ middleHeld
      refine ⟨front ++ back, followed.append beside backFollowed, ?_, ?_⟩
      · intro stores member
        rcases List.mem_append.mp member with early | late
        · exact passed stores early
        · exact backPassed stores late
      · rw [getLastD_append]
        exact backFits

/-- An action that begins with a question goes on with the answer. -/
theorem Yields.bind_ensures {action : Action α} {next : α → Action β} {value : α}
    {last : Except Error β → Stores → Prop} (first : site.Yields action before (.ok value))
    (rest : site.Ensures (next value) before passing last) :
    site.Ensures (action >>= next) before passing last := by
  have asked : site.Ensures action before passing fun outcome stores =>
      outcome = .ok value ∧ stores = before := first.ensures ⟨rfl, rfl⟩
  refine asked.bind ?_ ?_
  · intro given stores ended
    obtain ⟨same, rfl⟩ := ended
    exact Except.ok.inj same ▸ rest
  · intro error stores ended
    obtain ⟨impossible, -⟩ := ended
    cases impossible

/-- An action that begins with a computation fails with it or goes on with its value. -/
theorem Ensures.of_bind {result : Except Error α} {next : α → Action β}
    {last : Except Error β → Stores → Prop}
    (rest : ∀ value, result = .ok value → site.Ensures (next value) before passing last)
    (failed : ∀ error, result = .error error → last (.error error) before) :
    site.Ensures (Action.of result >>= next) before passing last := by
  cases result with
  | error error => exact ((Yields.of rfl).bind_error next).ensures (failed error rfl)
  | ok value => exact (Yields.of rfl).bind_ensures (rest value rfl)

/-!
## Whole runs and interrupted ones
-/

theorem Yields.runOn_eq {action : Action α} {outcome : Except Error α} {system : FileSystem}
    (given : site.Yields action stores outcome) (held : site.Holds stores system) :
    action.runOn system = (outcome, system) := by
  rw [Action.runOn_eq_trace, given system held]
  rfl

theorem Ensures.runOn {action : Action α} {system : FileSystem}
    (ensured : site.Ensures action before passing after) (held : site.Holds before system) :
    ∃ stores, site.Holds stores (action.runOn system).2 ∧
      site.Beside system (action.runOn system).2 ∧ after (action.runOn system).1 stores := by
  obtain ⟨path, followed, -, fits⟩ := ensured system held
  rw [Action.runOn_eq_trace]
  obtain ⟨lastHeld, beside⟩ := followed.last held
  exact ⟨_, lastHeld, beside, fits⟩

/-- Wherever an action is interrupted, the files hold what they held before or lists through which
it passes. -/
theorem Ensures.interrupted {action : Action α} {system : FileSystem}
    (ensured : site.Ensures action before passing after) (held : site.Holds before system)
    (count : Nat) :
    ∃ stores, site.Holds stores (action.outcome.interrupted count system) ∧
      site.Beside system (action.outcome.interrupted count system) ∧
        (stores = before ∨ passing stores) := by
  obtain ⟨path, followed, passed, -⟩ := ensured system held
  rcases List.mem_cons.mp (Disk.interrupted_mem_trace count action.outcome system) with
    same | inside
  · rw [same]
    exact ⟨before, held, .refl site system, .inl rfl⟩
  · obtain ⟨stores, among, laterHeld, beside⟩ := followed.exists_of_mem inside
    exact ⟨stores, laterHeld, beside, .inr (passed stores among)⟩

end Site

end GraphStore
