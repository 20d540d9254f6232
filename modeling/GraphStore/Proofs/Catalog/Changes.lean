import GraphStore.Proofs.Catalog

/-!
# Catalogs that change

Sequences of calls that put names into a catalog and take names out of it, and the bytes behind
them. Main statement: the bytes are read back as the catalog they were made of, and which bytes are
read as a catalog is said exactly.
-/

set_option autoImplicit false

namespace GraphStore.Catalog

/-!
## Calls
-/

/-- A call that changes a catalog at some time. -/
inductive Change where
  | add (now : Int64) (name : String)
  | remove (now : Int64) (name : String)
deriving Repr, DecidableEq

namespace Change

def applyTo (catalog : Catalog) : Change → Except Error Catalog
  | .add now name => catalog.add now name
  | .remove now name => catalog.remove now name

/-- Whether a catalog with some names takes a call: a new name has to be one for a collection, and
only a name that is listed is taken out. -/
def Fits (names : List String) : Change → Prop
  | .add _ name => isCollectionName name = true ∧ name ∉ names
  | .remove _ name => name ∈ names

/-- What a call that fits does. -/
def effect (catalog : Catalog) : Change → Catalog
  | .add now name => { catalog with names := catalog.names ++ [name], updatedAt := now }
  | .remove now name => { catalog with names := catalog.names.erase name, updatedAt := now }

end Change

variable {catalog start : Catalog} {change : Change}

theorem applyTo_eq_ok (fits : change.Fits catalog.names) :
    change.applyTo catalog = .ok (change.effect catalog) := by
  cases change with
  | add now name => exact add_of_new fits.1 fits.2 now
  | remove now name =>
      have listed : catalog.contains name = true := by
        simpa [contains, Change.Fits] using fits
      rw [Change.applyTo, remove, if_pos listed]
      rfl

theorem applyTo_eq_ok_iff : (∃ later, change.applyTo catalog = .ok later) ↔
    change.Fits catalog.names := by
  refine ⟨?_, fun fits => ⟨_, applyTo_eq_ok fits⟩⟩
  rintro ⟨later, changed⟩
  cases change with
  | add now name =>
      obtain ⟨isName, new, -⟩ := add_eq_ok changed
      exact ⟨isName, new⟩
  | remove now name => exact mem_of_remove_eq_ok changed

/-- The catalog behind a call. A call that fails leaves it as it is. -/
def after (catalog : Catalog) (change : Change) : Catalog :=
  match change.applyTo catalog with
  | .ok later => later
  | .error _ => catalog

theorem after_eq_self (refused : ¬change.Fits catalog.names) : catalog.after change = catalog := by
  cases changed : change.applyTo catalog with
  | ok later => exact absurd (applyTo_eq_ok_iff.mp ⟨later, changed⟩) refused
  | error error => rw [after, changed]

theorem listable_after (listable : AreListable catalog.names) (change : Change) :
    AreListable (catalog.after change).names := by
  by_cases fits : change.Fits catalog.names
  · have changed := applyTo_eq_ok fits
    rw [after, changed]
    cases change with
    | add now name => exact listable_add listable changed
    | remove now name => exact listable_remove listable changed
  · rwa [after_eq_self fits]

/-- The catalog behind some calls. -/
def afterAll (catalog : Catalog) (changes : List Change) : Catalog := changes.foldl after catalog

theorem listable_afterAll (listable : AreListable catalog.names) (changes : List Change) :
    AreListable (catalog.afterAll changes).names := by
  induction changes generalizing catalog with
  | nil => exact listable
  | cons change rest ih => exact ih (listable_after listable change)

/-!
## Catalogs to begin with
-/

/-- Whether a catalog was made anew or loaded. -/
inductive IsOpened : Catalog → Prop where
  | fresh (path : Path) (now : Int64) : IsOpened (.fresh path now)
  | load {path : Path} {system later : FileSystem} {catalog : Catalog}
      (loaded : (Catalog.load path).runOn system = (.ok catalog, later)) : IsOpened catalog
  | loadOrCreate {directory : Path} {now : Int64} {system later : FileSystem} {catalog : Catalog}
      (opened : (Catalog.loadOrCreate directory now).runOn system = (.ok catalog, later)) :
      IsOpened catalog

theorem IsOpened.listable (opened : IsOpened catalog) : AreListable catalog.names := by
  cases opened with
  | fresh path now => exact areListable_nil
  | load loaded =>
      obtain ⟨bytes, decoded⟩ := exists_decode_of_load loaded
      exact (decode_eq_ok decoded).2
  | loadOrCreate opened =>
      rcases decode_or_fresh_of_loadOrCreate opened with ⟨bytes, decoded⟩ | rfl
      · exact (decode_eq_ok decoded).2
      · exact areListable_nil

/-!
## Bytes
-/

/-- Nothing depends on the recorded number of names and on the bytes behind the times. -/
theorem decode_congr_of_front {path : Path} {bytes other : List UInt8}
    (length : other.length = bytes.length) (front : other.take 6 = bytes.take 6)
    (times : (other.drop 10).take 16 = (bytes.drop 10).take 16)
    (back : other.drop metadataSize = bytes.drop metadataSize) :
    decode path other = decode path bytes := by
  have mark : other.take 4 = bytes.take 4 := by
    simpa [List.take_take] using congrArg (List.take 4) front
  have number : (other.drop 4).take 2 = (bytes.drop 4).take 2 := by
    simpa only [List.drop_take] using congrArg (List.drop 4) front
  have created : (other.drop 10).take 8 = (bytes.drop 10).take 8 := by
    simpa [List.take_take] using congrArg (List.take 8) times
  have updated : (other.drop 18).take 8 = (bytes.drop 18).take 8 := by
    simpa only [List.drop_take, List.drop_drop] using congrArg (List.drop 8) times
  rw [decode, decode, length, mark, number, created, updated, back]

/-- Calls leave a catalog with names that can stand in it, each once, and a call that the list does
not take leaves it as it is; the bytes of the catalog are read back as the catalog. Bytes are read as
a catalog just if they are a catalog file of some names, and then with these names. -/
theorem decodes_exactly (opened : IsOpened start) (changes : List Change) (path : Path)
    (bytes : List UInt8) :
    let catalog := start.afterAll changes
    (AreListable catalog.names ∧
      (∀ change : Change, change.Fits catalog.names →
        change.applyTo catalog = .ok (change.effect catalog)) ∧
      (∀ change : Change, ¬change.Fits catalog.names →
        (∃ error, change.applyTo catalog = .error error) ∧ catalog.after change = catalog) ∧
      decode path catalog.encode = .ok { catalog with path } ∧
      Heading.ofBytes catalog.encode =
        ⟨1, .ofNat catalog.names.length, catalog.createdAt, catalog.updatedAt⟩ ∧
      (catalog.names.length < UInt32.size →
        (Heading.ofBytes catalog.encode).count.toNat = catalog.names.length)) ∧
    ((∃ read, decode path bytes = .ok read) ↔ ∃ names, IsFileOf names bytes) ∧
    (∀ names, IsFileOf names bytes → decode path bytes = .ok {
      path, names
      createdAt := (Heading.ofBytes bytes).createdAt
      updatedAt := (Heading.ofBytes bytes).updatedAt }) ∧
    ∀ other : List UInt8, other.length = bytes.length → other.take 6 = bytes.take 6 →
      (other.drop 10).take 16 = (bytes.drop 10).take 16 →
      other.drop metadataSize = bytes.drop metadataSize → decode path other = decode path bytes := by
  intro catalog
  have listable : AreListable catalog.names := listable_afterAll opened.listable changes
  have refuses (change : Change) (refused : ¬change.Fits catalog.names) :
      ∃ error, change.applyTo catalog = .error error := by
    cases changed : change.applyTo catalog with
    | ok later => exact absurd (applyTo_eq_ok_iff.mp ⟨later, changed⟩) refused
    | error error => exact ⟨error, rfl⟩
  have reads (names : List String) (isFile : IsFileOf names bytes) : decode path bytes = .ok {
      path, names
      createdAt := (Heading.ofBytes bytes).createdAt
      updatedAt := (Heading.ofBytes bytes).updatedAt } :=
    decode_eq_ok_iff.mpr ⟨isFile, rfl, rfl, rfl⟩
  refine ⟨⟨listable, fun _ => applyTo_eq_ok,
    fun change refused => ⟨refuses change refused, after_eq_self refused⟩, ?_,
    ofBytes_encode catalog, fun few => ?_⟩, ⟨?_, ?_⟩, reads, fun _ => decode_congr_of_front⟩
  · let moved : Catalog := { catalog with path }
    exact decode_encode (show AreListable moved.names from listable)
  · rw [ofBytes_encode]
    exact UInt32.toNat_ofNat_of_lt' few
  · rintro ⟨read, decoded⟩
    exact ⟨read.names, (decode_eq_ok_iff.mp decoded).1⟩
  · rintro ⟨names, isFile⟩
    exact ⟨_, reads names isFile⟩

/-- A name that is taken out and put in again comes last. Empty lines, a wrong number of names and
bytes that should be zero do no harm. -/
theorem decodes_exactly_careless_file :
    let changes : List Change :=
      [.add 1 "a", .add 2 "b", .add 3 "a", .remove 4 "a", .remove 5 "c", .add 6 "a"]
    let catalog := (fresh ["db"] 0).afterAll changes
    let bytes := magic ++ [1, 0] ++ List.replicate 4 0xFF ++ List.replicate 16 0 ++
      List.replicate 66 0x2A ++ [0x0A, 0x61, 0x0A, 0x0A, 0x62, 0x0A]
    catalog.names = ["b", "a"] ∧ decode ["db"] catalog.encode = .ok catalog ∧
      IsFileOf ["a", "b"] bytes ∧ decode ["db"] bytes = .ok ⟨["db"], 0, 0, ["a", "b"]⟩ := by
  intro changes catalog bytes
  have isFile : IsFileOf ["a", "b"] bytes :=
    ⟨by decide, by decide, by decide, .inr (by decide), by decide, by decide, by decide⟩
  obtain ⟨⟨-, -, -, again, -⟩, -, reads, -⟩ :=
    decodes_exactly (.fresh ["db"] 0) changes ["db"] bytes
  exact ⟨by decide, again, isFile, reads _ isFile⟩

end GraphStore.Catalog
