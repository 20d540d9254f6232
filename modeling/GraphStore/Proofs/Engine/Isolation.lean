import GraphStore.Proofs.Collection.Bounds
import GraphStore.Proofs.Engine.Calls
import GraphStore.Proofs.Engine.Sparing

/-!
# Collections apart from each other

What a call on one collection leaves alone, whatever the text that names it and whatever the system
refuses. Main statement: nothing changes but the catalog and what is at and below the directory of
the collection, and that only under a name that a collection can have; the other collections stay
listed, and what is read from them is the same as long as the path of the database leads to its
directory.
-/

set_option autoImplicit false

namespace GraphStore

/-!
## Calls
-/

/-- Whether a call is about no other collection than the one that a text names. -/
def EngineCall.IsOn (name : String) : EngineCall → Prop
  | collections => True
  | createCollection _ other | deleteCollection other | createNode other _ | getNode other _
  | createRelationship other _ | getRelationship other _ | execute other _ _ => other = name

theorem EngineCall.exists_isOn (call : EngineCall) : ∃ name, call.IsOn name := by
  cases call with
  | collections => exact ⟨"", trivial⟩
  | _ => exact ⟨_, rfl⟩

namespace Engine

variable {α : Type} {engine : Engine} {name : String} {system later : FileSystem} {base : Path}
  {mayRefuse : Prop} {occasion : Occasion} {call : EngineCall}

/-- Whether an engine came from opening a database and from any calls, each on a file system of its
own that may refuse any changes. -/
inductive IsReached : Engine → Prop where
  | opened {engine : Engine} {root : Path} {options : EngineOptions} {now : Int64}
      {system : FileSystem} (succeeded : ((openAt root options now).runOn system).1 = .ok engine) :
      IsReached engine
  | called {engine : Engine} (former : IsReached engine) (occasion : Occasion) (call : EngineCall)
      (refusal : Nat → Change → Option OsError) (system : FileSystem) :
      IsReached ((call.carryOut occasion engine).runRefusing refusal 0 system).1.2

theorem hasCollection_iff : engine.hasCollection name = true ↔ name ∈ engine.collections :=
  List.contains_iff_mem

/-- Work on a collection keeps to its files, and changes nothing if the collection is not listed. -/
theorem keepsTo_collection {work : Collection → Action α}
    (keeps : ∀ collection : Collection, (work collection).KeepsTo collection True) :
    (Action.of (engine.collection name) >>= work).KeepsTo ⟨engine.directory name⟩
      (name ∈ engine.collections) := by
  unfold collection
  split
  next listed =>
    exact Disk.KeepsTo.imp (keeps ⟨engine.directory name⟩) fun _ => hasCollection_iff.mp listed
  next => trivial

theorem keepsTo_createNode (node : Node) :
    (engine.createNode name node).KeepsTo ⟨engine.directory name⟩ (name ∈ engine.collections) :=
  keepsTo_collection fun collection => collection.keepsTo_createNode node

theorem keepsTo_storeAll (nodes : List Node) :
    (Query.storeAll engine name nodes).KeepsTo ⟨engine.directory name⟩
      (name ∈ engine.collections) := by
  induction nodes with
  | nil => trivial
  | cons node rest ih =>
      refine Disk.KeepsTo.bind (keepsTo_createNode node) fun outcome => ?_
      cases outcome with
      | error error => trivial
      | ok stored => exact ih.bind fun _ => trivial

theorem keepsTo_execute (separator : Query.Separator) (now : Timestamp) (text : String) :
    (Query.execute engine name separator now text).KeepsTo ⟨engine.directory name⟩
      (name ∈ engine.collections) := by
  unfold Query.execute
  split
  · trivial
  · dsimp only
    split
    · trivial
    · exact (keepsTo_storeAll _).bind fun _ => trivial

/-- What calls do: they make the collection, delete it, or work with its files. -/
theorem passes_carryOut {passing : FileSystem → Prop} (ends : Engine → FileSystem → Prop)
    (creates : ∀ order now, (engine.createCollectionIn order now name).Passes mayRefuse passing
      (fun result => ends result.2) system)
    (deletes : ∀ now, (engine.deleteCollection now name).Passes mayRefuse passing
      (fun result => ends result.2) system)
    (works : ∀ {β : Type} (work : Disk β),
      work.KeepsTo ⟨engine.directory name⟩ (name ∈ engine.collections) →
        work.Passes mayRefuse passing (fun _ => ends engine) system) (isOn : call.IsOn name) :
    (call.carryOut occasion engine).Passes mayRefuse passing (fun result => ends result.2)
      system := by
  cases call with
  | collections => exact works (pure ()) trivial
  | createCollection order other =>
      obtain rfl := isOn
      exact (creates order.steps occasion.now).bind fun _ _ held => Disk.Passes.pure held
  | deleteCollection other =>
      obtain rfl := isOn
      exact (deletes occasion.now).bind fun _ _ held => Disk.Passes.pure held
  | createNode other node =>
      obtain rfl := isOn
      exact (works _ (keepsTo_createNode node)).bind fun _ _ held => Disk.Passes.pure held
  | getNode other id =>
      obtain rfl := isOn
      have keeps : (engine.getNode other id).KeepsTo ⟨engine.directory other⟩ _ :=
        keepsTo_collection fun collection => collection.keepsTo_getNode id
      exact (works _ keeps).bind fun _ _ held => Disk.Passes.pure held
  | createRelationship other relationship =>
      obtain rfl := isOn
      have keeps : (engine.createRelationship other relationship).KeepsTo
          ⟨engine.directory other⟩ _ :=
        keepsTo_collection fun collection => collection.keepsTo_createRelationship relationship
      exact (works _ keeps).bind fun _ _ held => Disk.Passes.pure held
  | getRelationship other id =>
      obtain rfl := isOn
      have keeps : (engine.getRelationship other id).KeepsTo ⟨engine.directory other⟩ _ :=
        keepsTo_collection fun collection => collection.keepsTo_getRelationship id
      exact (works _ keeps).bind fun _ _ held => Disk.Passes.pure held
  | execute other separator text =>
      obtain rfl := isOn
      exact (works _ (keepsTo_execute separator occasion.time text)).bind
        fun _ _ held => Disk.Passes.pure held

/-!
## Databases behind calls
-/

theorem KnowsCatalog.follows_carryOut (knows : engine.KnowsCatalog) (isOn : call.IsOn name) :
    (call.carryOut occasion engine).Passes mayRefuse (fun _ => True)
      (fun result _ => engine.Follows name result.2) system := by
  refine passes_carryOut (fun behind _ => engine.Follows name behind)
    (fun _ _ => knows.follows_createCollectionIn) (fun _ => knows.follows_deleteCollection)
    (fun work _ => ?_) isOn
  exact (Disk.stays_anywhere work system).imp (fun _ => id) fun _ _ _ => .refl knows

theorem IsReached.knowsCatalog (reached : engine.IsReached) : engine.KnowsCatalog := by
  induction reached with
  | opened succeeded => exact knowsCatalog_of_openAt succeeded
  | called _ occasion call refusal system knows =>
      obtain ⟨name, isOn⟩ := call.exists_isOn
      exact ((knows.follows_carryOut isOn).runRefusing refusal 0).knows

/-!
## Places that change
-/

/-- Whether two file systems differ at most in the catalog of a database and at and below the
directory of one of its collections. -/
structure Spares (base : Path) (name : String) (system later : FileSystem) : Prop where
  tree : later.IsTree
  outside : ∀ place, ¬base ++ [name] <+: place → place ≠ draftPlace base →
    place ≠ catalogPlace base → later.entry? place = system.entry? place

/-- The directory of the database and those above it are none of these places. -/
theorem Spares.above {above : Path} (spares : Spares base name system later)
    (isAbove : above <+: base) : later.entry? above = system.entry? above := by
  have apart {child : String} {below : Path} (inside : base ++ [child] <+: below) :
      above ≠ below := by
    rintro rfl
    exact not_concat_isPrefix_self base child (inside.trans isAbove)
  refine spares.outside above (fun inside => apart inside rfl) ?_ ?_
  · exact apart (List.prefix_refl _)
  · exact apart (List.prefix_refl _)

theorem EndsDeleting.outside {now : Int64} {result : Except Error Unit × Engine}
    (ended : engine.EndsDeleting base now name system result later) {place : Path}
    (away : ¬base ++ [name] <+: place) (notDraft : place ≠ draftPlace base)
    (notCatalog : place ≠ catalogPlace base) : later.entry? place = system.entry? place := by
  cases ended with
  | refused => rfl
  | deleted deletes =>
      obtain ⟨-, middle, relisted, touches⟩ := deletes
      rw [touches.outside place away notDraft, relisted.outside place notDraft notCatalog]
  | restored _ _ _ altered => exact altered.outside place notDraft

theorem spares_carryOut (knows : engine.KnowsCatalog)
    (located : system.locate engine.root = .ok base) (isName : isCollectionName name = true)
    (tree : system.IsTree) (isOn : call.IsOn name) :
    (call.carryOut occasion engine).Passes True (fun _ => True)
      (fun _ later => Spares base name system later) system := by
  have leads := leadsTo_of_locate located
  have isTree {β : Type} (work : Disk β) : work.Stays True FileSystem.IsTree system :=
    Disk.stays_isTree tree
  refine passes_carryOut (fun _ later => Spares base name system later) (fun order now => ?_)
    (fun now => ?_) (fun work keeps => ?_) isOn
  · have anything : Disk.Stays True (fun _ => True) (engine.prepareCollection order name).outcome
        system := Disk.stays_anywhere _ system
    have creates : (engine.createCollectionIn order now name).Passes True _
        (engine.EndsCreating base now name (fun _ => True) system) system :=
      passes_createCollectionIn knows leads tree (anything.imp (fun _ => id) fun _ _ _ _ => trivial)
    refine (creates.and (isTree _)).imp (fun _ _ => trivial) fun _ later given => ⟨given.2, ?_⟩
    intro place away notDraft notCatalog
    rcases given.1.outside with same | ⟨-, outside⟩
    · rw [same]
    · exact outside place away notDraft notCatalog
  · have deletes : (engine.deleteCollection now name).Passes True _
        (engine.EndsDeleting base now name system) system :=
      passes_deleteCollection knows leads tree
    refine (deletes.and (isTree _)).imp (fun _ _ => trivial) fun _ _ given => ⟨given.2, ?_⟩
    exact fun place => given.1.outside
  · have stays : work.Stays True (Confined (base ++ [name]) system) system :=
      keeps.stays (leads.child (isStep_of_isCollectionName isName)) (.refl tree)
    exact stays.imp (fun _ _ => trivial) fun _ later confined =>
      ⟨confined.tree, fun place away _ _ => confined.outside place away⟩

/-!
## Calls that change nothing
-/

/-- A catalog is not written where its directory is not found. -/
theorem passes_flush_of_missing {catalog : Catalog} {root : Path}
    (path : catalog.path = root.child Catalog.fileName)
    (missing : ∀ base, system.locate root ≠ .ok base) :
    catalog.flush.Passes True (fun _ => False)
      (fun outcome later => later = system ∧ ∃ error, outcome = .error error) system := by
  have refused : (Disk.change (.empty (root.child temporaryName))).Passes True (fun _ => False)
      (fun outcome later => later = system ∧ ∃ reason, outcome = .error reason) system := by
    refine Disk.Passes.change (fun reason => ⟨rfl, reason, rfl⟩) fun changed succeeded => ?_
    obtain ⟨place, located, -⟩ := FileSystem.put_of_change_empty succeeded
    obtain ⟨base, found⟩ := exists_locate_of_child located (by decide)
    exact absurd found (missing base)
  unfold Catalog.flush
  rw [path, temporaryPath_child]
  have drafted : (Action.on (root.child temporaryName)
      (Disk.write (root.child temporaryName) catalog.encode)).Passes True (fun _ => False)
      (fun outcome later => later = system ∧ ∃ error, outcome = .error error) system := by
    refine Action.Passes.on (refused.bind fun outcome later given => ?_)
    obtain ⟨same, reason, rfl⟩ := given
    exact Disk.Passes.pure ⟨same, _, rfl⟩
  refine drafted.bind (fun _ later given => ?_) fun error later given => ⟨given.1, error, rfl⟩
  obtain ⟨-, error, impossible⟩ := given
  cases impossible

theorem passes_deleteCollection_of_missing {now : Int64} (knows : engine.KnowsCatalog)
    (missing : ∀ base, system.locate engine.root ≠ .ok base) :
    (engine.deleteCollection now name).Passes True (fun _ => False) (fun _ later => later = system)
      system := by
  unfold deleteCollection
  split
  · exact Disk.Passes.pure rfl
  next unlisted removed =>
  have flushed : Disk.Passes True (fun _ => False) _ unlisted.flush.outcome system :=
    passes_flush_of_missing (knows.remove removed).path missing
  refine flushed.bind fun outcome later given => ?_
  obtain ⟨rfl, error, rfl⟩ := given
  dsimp only
  split
  · exact Disk.Passes.pure rfl
  · exact Disk.Passes.pure rfl

/-- Where the path of the database leads nowhere, nothing changes. -/
theorem stays_carryOut_of_missing (knows : engine.KnowsCatalog)
    (missing : ∀ base, system.locate engine.root ≠ .ok base) (isOn : call.IsOn name) :
    (call.carryOut occasion engine).Passes True (fun _ => True) (fun _ later => later = system)
      system := by
  have noChild {path : Path} {place : Path} {child : String} (step : FileSystem.isStep child = true)
      (nowhere : ∀ base, system.locate path ≠ .ok base) :
      system.locate (path.child child) ≠ .ok place := by
    intro located
    obtain ⟨base, found⟩ := exists_locate_of_child located step
    exact nowhere base found
  refine passes_carryOut (fun _ later => later = system) (fun order now => ?_) (fun now => ?_)
    (fun work keeps => ?_) isOn
  · refine (passes_createCollectionIn_of_isObstructed ?_).imp (fun _ => False.elim) fun _ _ => id
    exact fun base located => absurd located (missing base)
  · exact (passes_deleteCollection_of_missing knows missing).imp (fun _ => False.elim) fun _ _ => id
  · have stays : work.Stays True (fun later => later = system) system := by
      refine keeps.stays_same fun listed kind place => noChild kind.isStep_fileName fun base => ?_
      exact noChild (isStep_of_isCollectionName (knows.listable.valid name listed)) missing
    exact stays.imp (fun _ _ => trivial) fun _ _ => id

/-- Under a text that cannot name a collection, nothing changes. -/
theorem stays_carryOut_of_not_isCollectionName (knows : engine.KnowsCatalog)
    (noName : isCollectionName name = false) (isOn : call.IsOn name) :
    (call.carryOut occasion engine).Passes True (fun _ => True)
      (fun result later => result.2 = engine ∧ later = system) system := by
  have unlisted : name ∉ engine.collections := by
    intro listed
    rw [knows.listable.valid name listed] at noName
    cases noName
  refine passes_carryOut (fun behind later => behind = engine ∧ later = system)
    (fun order now => ?_) (fun now => ?_) (fun work keeps => ?_) isOn
  · rw [createCollectionIn, prepareCollection, checkCollectionName, noName]
    exact ⟨rfl, rfl⟩
  · have absent : engine.catalog.contains name = false :=
      Bool.eq_false_of_not_eq_true fun listed => unlisted (hasCollection_iff.mp listed)
    rw [deleteCollection, Catalog.remove, absent]
    exact ⟨rfl, rfl⟩
  · have stays : work.Stays True (fun later => later = system) system :=
      keeps.stays_same fun listed => absurd listed unlisted
    exact stays.imp (fun _ _ => trivial) fun _ _ same => ⟨rfl, same⟩

/-!
## What is read from other collections
-/

variable {behind : Engine} {other : String}

/-- Another collection is found where it was. -/
theorem Follows.collection_eq (follows : engine.Follows name behind) (different : other ≠ name) :
    behind.collection other = engine.collection other := by
  have listed : behind.hasCollection other = engine.hasCollection other := by
    rw [Bool.eq_iff_iff, hasCollection_iff, hasCollection_iff]
    exact follows.others other different
  rw [collection, collection, listed, directory, directory, follows.root]

/-- What is read from another collection stays the same. -/
theorem Follows.read_eq (follows : engine.Follows name behind) (knows : engine.KnowsCatalog)
    (spares : Spares base name system later) (tree : system.IsTree)
    (located : system.locate engine.root = .ok base) (again : later.locate engine.root = .ok base)
    (different : other ≠ name) {read : Collection → Action α}
    (keeps : ∀ collection : Collection, (read collection).KeepsTo collection False) :
    ((Action.of (behind.collection other) >>= read).runOn later).1 =
      ((Action.of (engine.collection other) >>= read).runOn system).1 := by
  rw [follows.collection_eq different]
  cases found : engine.collection other with
  | error error => rfl
  | ok opened =>
  obtain ⟨listed, rfl⟩ : engine.hasCollection other = true ∧ ⟨engine.directory other⟩ = opened := by
    rw [collection] at found
    split at found
    next listed => exact ⟨listed, Except.ok.inj found⟩
    next => cases found
  have isName : isCollectionName other = true :=
    knows.listable.valid other (hasCollection_iff.mp listed)
  have step := isStep_of_isCollectionName isName
  have spared {place : Path} (inside : base ++ [other] <+: place) :
      later.entry? place = system.entry? place := by
    have apart {file : String} (dotted : '.' ∈ file.toList) : place ≠ base ++ [file] := fun same =>
      not_below_of_isCollectionName isName dotted (same ▸ inside)
    refine spares.outside place (fun below => different ?_) (apart (by decide)) (apart (by decide))
    exact concat_prefix_concat_iff.mp (List.prefix_of_prefix_length_le inside below (by simp))
  have files (kind : StoreKind) :
      later.locate ((Collection.mk (engine.directory other)).pathOf kind) =
        system.locate ((Collection.mk (engine.directory other)).pathOf kind) :=
    locate_child_child_congr located again step (spares.above (List.prefix_refl base))
      (spared (List.prefix_refl _))
  refine Disk.KeepsTo.run_congr (keeps _) fun question asked => ?_
  refine asked.answer_congr tree spares.tree files fun kind place found _ inside => spared ?_
  have leads : ((Collection.mk (engine.directory other)).pathOf kind).LeadsTo _ :=
    Collection.leadsTo_pathOf ((leadsTo_of_locate located).child step) kind
  obtain rfl := leads.eq_of_locate found
  exact (List.prefix_append _ _).trans inside

/-!
## Calls that keep collections apart
-/

/-- What a call on the collection that a text names leaves alone. -/
structure KeepsApart (engine : Engine) (name : String) (system : FileSystem) (behind : Engine)
    (later : FileSystem) : Prop where
  /-- Under a text that cannot name a collection, nothing is touched. -/
  invalid : isCollectionName name = false → behind = engine ∧ later = system
  /-- The directory of a collection stands beside the files of the catalog. -/
  beside : isCollectionName name = true →
    ∀ base, base ++ [name] ≠ catalogPlace base ∧ base ++ [name] ≠ draftPlace base
  inside : ∀ place, later.entry? place ≠ system.entry? place →
    ∃ base, system.locate engine.root = .ok base ∧
      (place = catalogPlace base ∨ place = draftPlace base ∨ base ++ [name] <+: place)
  others : ∀ other, other ≠ name → (other ∈ behind.collections ↔ other ∈ engine.collections)
  /-- A path without a way back leads where it led. -/
  located : ".." ∉ engine.root → later.locate engine.root = system.locate engine.root
  answers : later.locate engine.root = system.locate engine.root → ∀ other, other ≠ name → ∀ id,
    ((behind.getNode other id).runOn later).1 = ((engine.getNode other id).runOn system).1 ∧
      ((behind.getRelationship other id).runOn later).1 =
        ((engine.getRelationship other id).runOn system).1

theorem beside_of_isCollectionName (isName : isCollectionName name = true) (base : Path) :
    base ++ [name] ≠ catalogPlace base ∧ base ++ [name] ≠ draftPlace base := by
  have apart {file : String} (dotted : '.' ∈ file.toList) : base ++ [name] ≠ base ++ [file] :=
    fun same => ne_of_isCollectionName isName dotted
      (List.singleton_inj.mp (List.append_cancel_left same))
  exact ⟨apart (by decide), apart (by decide)⟩

theorem keepsApart_of_spares (knows : engine.KnowsCatalog)
    (tree : system.IsTree) (isName : isCollectionName name = true)
    (located : system.locate engine.root = .ok base) (follows : engine.Follows name behind)
    (spares : Spares base name system later) :
    engine.KeepsApart name system behind later where
  invalid noName := by
    rw [isName] at noName
    cases noName
  beside := beside_of_isCollectionName
  inside place changed := by
    refine ⟨base, located, ?_⟩
    by_contra elsewhere
    simp only [not_or] at elsewhere
    obtain ⟨notCatalog, notDraft, away⟩ := elsewhere
    exact changed (spares.outside place away notDraft notCatalog)
  others := follows.others
  located down := by
    have followed := (follow_of_descending down (FileSystem.follow_of_locate located)
      fun _ => spares.above).2
    rw [located, locate_eq_follow (isAccepted_of_locate located), followed]
  answers same other different id := by
    have again := same.trans located
    exact ⟨follows.read_eq knows spares tree located again different
        fun collection => collection.keepsTo_getNode id,
      follows.read_eq knows spares tree located again different
        fun collection => collection.keepsTo_getRelationship id⟩

theorem keepsApart_of_same (invalid : isCollectionName name = false → behind = engine)
    (follows : engine.Follows name behind) : engine.KeepsApart name system behind system where
  invalid noName := ⟨invalid noName, rfl⟩
  beside := beside_of_isCollectionName
  inside place changed := absurd rfl changed
  others := follows.others
  located _ := rfl
  answers _ other different id := by
    rw [getNode, getNode, getRelationship, getRelationship, follows.collection_eq different]
    exact ⟨rfl, rfl⟩

/-- A call on one collection keeps away from the others. -/
theorem carryOut_keepsApart (reached : engine.IsReached) (tree : system.IsTree)
    (isOn : call.IsOn name) (occasion : Occasion) (refusal : Nat → Change → Option OsError)
    {ended : (EngineAnswer × Engine) × FileSystem}
    (ran : (call.carryOut occasion engine).runRefusing refusal 0 system = ended) :
    engine.KeepsApart name system ended.1.2 ended.2 := by
  have knows := reached.knowsCatalog
  have ends {ends : EngineAnswer × Engine → FileSystem → Prop}
      (passes : (call.carryOut occasion engine).Passes True (fun _ => True) ends system) :
      ends ended.1 ended.2 := ran ▸ passes.runRefusing refusal 0
  have follows : engine.Follows name ended.1.2 := ends (knows.follows_carryOut isOn)
  cases isName : isCollectionName name with
  | false =>
      have nothing := ends (stays_carryOut_of_not_isCollectionName knows isName isOn)
      rw [nothing.2]
      exact keepsApart_of_same (fun _ => nothing.1) follows
  | true =>
      by_cases found : ∃ base, system.locate engine.root = .ok base
      · obtain ⟨base, located⟩ := found
        exact keepsApart_of_spares knows tree isName located follows
          (ends (spares_carryOut knows located isName tree isOn))
      · have missing (base : Path) : system.locate engine.root ≠ .ok base := fun here =>
          found ⟨base, here⟩
        rw [ends (stays_carryOut_of_missing knows missing isOn)]
        exact keepsApart_of_same (fun noName => by rw [isName] at noName; cases noName) follows

end Engine

namespace Session

/-- A session behind a call of which nothing is refused. -/
def behind (session : Session) (call : EngineCall) : Session :=
  let ended := (call.carryOut ⟨session.engine.options, 0, default⟩ session.engine).runRefusing
    (fun _ _ => none) 0 session.system
  ⟨ended.1.2, ended.2⟩

theorem isReached_behind {session : Session} (reached : session.engine.IsReached)
    (call : EngineCall) : (session.behind call).engine.IsReached :=
  .called reached _ call (fun _ _ => none) session.system

theorem isTree_behind {session : Session} (tree : session.system.IsTree) (call : EngineCall) :
    (session.behind call).system.IsTree :=
  (Disk.stays_isTree tree : Disk.Stays True _ (call.carryOut _ session.engine) _).runRefusing _ 0

theorem isTree_of_openAt_nil (root : Path) (options : EngineOptions) (now : Int64) :
    FileSystem.IsTree ((Engine.openAt root options now).runOn ⟨[]⟩).2 :=
  (Disk.stays_isTree FileSystem.isTree_nil : Disk.Stays False _ _ _).run

/-- A database with a node in its only collection. -/
def firstNode : Session :=
  (firstDatabase.behind (.createCollection .oneByOne "c")).behind (.createNode "c" (.named "x"))

/-- A disk that is full after four changes. -/
def fullDisk : Nat → Change → Option OsError := fun index _ =>
  if 4 ≤ index then some (.reported 28) else none

/-- A second collection for which there is no room. -/
def withoutRoom : (EngineAnswer × Engine) × FileSystem :=
  ((EngineCall.createCollection .oneByOne "d").carryOut ⟨⟨.little, true⟩, 0, default⟩
    firstNode.engine).runRefusing fullDisk 0 firstNode.system

theorem withoutRoom_keepsApart :
    firstNode.engine.IsReached ∧ firstNode.system.IsTree ∧
      (EngineCall.createCollection .oneByOne "d").IsOn "d" ∧
      firstNode.engine.KeepsApart "d" firstNode.system withoutRoom.1.2 withoutRoom.2 ∧
      ((withoutRoom.1.2.getNode "c" 0).runOn withoutRoom.2).1 =
        .ok { Node.named "x" with id := some 0 } := by
  have opened : ((Engine.openAt ["db"] ⟨.little, true⟩ 0).runOn ⟨[]⟩).1 =
      .ok firstDatabase.engine := eq_ok_of_toOption (by decide +kernel)
  have reached : firstNode.engine.IsReached :=
    isReached_behind (isReached_behind (.opened opened) _) _
  have tree : firstNode.system.IsTree :=
    isTree_behind (isTree_behind (isTree_of_openAt_nil _ _ _) _) _
  have isOn : (EngineCall.createCollection .oneByOne "d").IsOn "d" := rfl
  have keeps : firstNode.engine.KeepsApart "d" firstNode.system withoutRoom.1.2 withoutRoom.2 :=
    Engine.carryOut_keepsApart reached tree isOn _ fullDisk rfl
  refine ⟨reached, tree, isOn, keeps, ?_⟩
  rw [(keeps.answers (keeps.located (by decide +kernel)) "c" (by decide) 0).1]
  exact eq_ok_of_toOption (by decide +kernel)

/-- A database whose path leads through a directory in it. -/
def windingDatabase : Session where
  engine := ⟨["db", "d", ".."], ⟨.little, true⟩, .fresh ["db", "d", "..", Catalog.fileName] 0⟩
  system := ((Engine.openAt ["db", "d", ".."] ⟨.little, true⟩ 0).runOn ⟨[]⟩).2

/-- The same database with a node in its only collection. -/
def windingNode : Session :=
  (windingDatabase.behind (.createCollection .oneByOne "c")).behind (.createNode "c" (.named "x"))

/-- The node cannot be read when that directory is taken for what is left of a collection. -/
theorem windingNode_loses_node :
    windingNode.engine.IsReached ∧ windingNode.system.IsTree ∧
      let last := windingNode.behind (.createCollection .oneByOne "d")
      ((windingNode.engine.getNode "c" 0).runOn windingNode.system).1 =
          .ok { Node.named "x" with id := some 0 } ∧
        ((last.engine.getNode "c" 0).runOn last.system).1 =
          .error (.storeAccess "db/d/../c/nodes.store" .noEntry) := by
  have opened : ((Engine.openAt ["db", "d", ".."] ⟨.little, true⟩ 0).runOn ⟨[]⟩).1 =
      .ok windingDatabase.engine := eq_ok_of_toOption (by decide +kernel)
  exact ⟨isReached_behind (isReached_behind (.opened opened) _) _,
    isTree_behind (isTree_behind (isTree_of_openAt_nil _ _ _) _) _, by decide +kernel⟩

end Session

end GraphStore
