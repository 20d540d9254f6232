import GraphStore.Catalog
import GraphStore.Proofs.Bytes.Fields
import GraphStore.Proofs.Bytes.Pieces
import GraphStore.Proofs.Disk.Runs
import GraphStore.Proofs.Text.Utf8
import Mathlib.Data.List.Nodup

/-!
# Catalogs that are read back

Main statements: a catalog whose names can name collections, each listed once, is read back from its
bytes, and adding, taking out and reading names gives only such catalogs.
-/

set_option autoImplicit false

namespace GraphStore

/-!
## Names of collections
-/

private theorem bounds_of_isNameCharacter {c : Char} (isName : isNameCharacter c = true) :
    45 ≤ c.val.toNat ∧ c.val.toNat ≤ 122 ∧ c ≠ '.' := by
  have zero : '0'.val.toNat = 48 := rfl
  have nine : '9'.val.toNat = 57 := rfl
  have upperA : 'A'.val.toNat = 65 := rfl
  have upperZ : 'Z'.val.toNat = 90 := rfl
  have lowerA : 'a'.val.toNat = 97 := rfl
  have lowerZ : 'z'.val.toNat = 122 := rfl
  change (decide ('A'.val ≤ c.val ∧ c.val ≤ 'Z'.val) ||
    (decide ('a'.val ≤ c.val) && decide (c.val ≤ 'z'.val)) ||
    (decide ('0'.val ≤ c.val) && decide (c.val ≤ '9'.val)) ||
    decide (c = '_') || decide (c = '-')) = true at isName
  simp only [Bool.or_eq_true, Bool.and_eq_true, decide_eq_true_eq, UInt32.le_iff_toNat_le]
    at isName
  rcases isName with (range | rfl) | rfl
  · refine ⟨by omega, by omega, ?_⟩
    intro same
    subst same
    have dot : '.'.val.toNat = 46 := rfl
    omega
  · decide
  · decide

theorem Text.Utf8.size_eq_utf8ByteSize (text : String) :
    Text.Utf8.size text = text.utf8ByteSize := by
  rw [Text.Utf8.size, Text.Utf8.encode, ← String.size_toByteArray, ← String.utf8Encode_toList,
    List.utf8Encode, List.size_toByteArray]

section

variable {name : String}

theorem filled_of_isCollectionName (isName : isCollectionName name = true) : name ≠ "" := by
  intro same
  subst same
  revert isName
  decide

theorem getLast?_child_ne_of_isCollectionName (isName : isCollectionName name = true)
    (path : Path) : (path.child name).getLast? ≠ some "" := by
  rw [Path.getLast?_child]
  exact fun same => filled_of_isCollectionName isName (Option.some.inj same)

theorem isNameCharacter_of_mem (isName : isCollectionName name = true) {c : Char}
    (member : c ∈ name.toList) : isNameCharacter c = true := by
  rw [isCollectionName, Bool.and_eq_true] at isName
  exact List.all_eq_true.mp isName.2 c member

theorem lineBreak_not_mem_encode (isName : isCollectionName name = true) :
    Catalog.lineBreak ∉ Text.Utf8.encode name := by
  intro inside
  obtain ⟨c, member, same⟩ := Text.Utf8.exists_of_mem_encode inside (by decide)
  obtain ⟨low, -, -⟩ := bounds_of_isNameCharacter (isNameCharacter_of_mem isName member)
  have number : c.val.toNat = 10 := same
  omega

theorem ne_of_isCollectionName (isName : isCollectionName name = true) {other : String}
    (dotted : '.' ∈ other.toList) : name ≠ other := by
  intro same
  subst same
  exact (bounds_of_isNameCharacter (isNameCharacter_of_mem isName dotted)).2.2 rfl

theorem isStep_of_isCollectionName (isName : isCollectionName name = true) :
    FileSystem.isStep name = true := by
  have short : name.utf8ByteSize ≤ FileSystem.nameLimit := by
    rw [isCollectionName, Bool.and_eq_true, Bool.and_eq_true, decide_eq_true_eq,
      Text.Utf8.size_eq_utf8ByteSize, maxNameLength] at isName
    exact isName.1.2.trans (by decide)
  simp only [FileSystem.isStep, Bool.and_eq_true, bne_iff_ne, ne_eq, decide_eq_true_eq]
  exact ⟨⟨⟨filled_of_isCollectionName isName, ne_of_isCollectionName isName (by decide)⟩,
    ne_of_isCollectionName isName (by decide)⟩, short⟩

theorem checkCollectionName_eq_ok_iff :
    checkCollectionName name = .ok () ↔ isCollectionName name = true := by
  rw [checkCollectionName]
  split
  next isName => simp [isName]
  next noName => simp [noName]

end

/-- Whether names can stand in a catalog: each can name a collection and is there once. -/
structure AreListable (names : List String) : Prop where
  valid : ∀ name ∈ names, isCollectionName name = true
  nodup : names.Nodup

theorem areListable_nil : AreListable [] := ⟨nofun, .nil⟩

theorem AreListable.concat {names : List String} {name : String} (listable : AreListable names)
    (isName : isCollectionName name = true) (new : name ∉ names) :
    AreListable (names ++ [name]) where
  valid other member := by
    rcases List.mem_append.mp member with former | isNew
    · exact listable.valid other former
    · exact List.mem_singleton.mp isNew ▸ isName
  nodup := by
    rw [← List.concat_eq_append]
    exact listable.nodup.concat new

/-!
## Catalogs
-/

namespace Catalog

variable {catalog later : Catalog} {name : String} {now : Int64}

/-- What is listed behind a success of adding a name. -/
theorem add_eq_ok (added : catalog.add now name = .ok later) :
    isCollectionName name = true ∧ name ∉ catalog.names ∧
      later = { catalog with names := catalog.names ++ [name], updatedAt := now } := by
  obtain ⟨_, checked, rest⟩ := exists_of_bind_eq_ok added
  by_cases listed : catalog.contains name = true
  · rw [if_pos listed] at rest
    cases rest
  · rw [if_neg listed] at rest
    refine ⟨checkCollectionName_eq_ok_iff.mp checked, ?_, (Except.ok.inj rest).symm⟩
    simpa [contains] using listed

theorem add_of_new (isName : isCollectionName name = true) (new : name ∉ catalog.names)
    (now : Int64) : catalog.add now name =
      .ok { catalog with names := catalog.names ++ [name], updatedAt := now } := by
  have unlisted : catalog.contains name = false := by simpa [contains] using new
  rw [add, checkCollectionName_eq_ok_iff.mpr isName, unlisted]
  rfl

theorem listable_add (listable : AreListable catalog.names)
    (added : catalog.add now name = .ok later) : AreListable later.names := by
  obtain ⟨isName, new, rfl⟩ := add_eq_ok added
  exact listable.concat isName new

theorem remove_eq_ok (removed : catalog.remove now name = .ok later) :
    later = { catalog with names := catalog.names.erase name, updatedAt := now } := by
  unfold remove at removed
  split at removed
  · exact (Except.ok.inj removed).symm
  · cases removed

theorem mem_of_remove_eq_ok (removed : catalog.remove now name = .ok later) :
    name ∈ catalog.names := by
  by_contra unlisted
  rw [remove, if_neg (by simpa [contains] using unlisted)] at removed
  cases removed

theorem not_mem_of_remove_eq_error {error : Error}
    (refused : catalog.remove now name = .error error) : name ∉ catalog.names := by
  intro listed
  rw [remove, if_pos (by simpa [contains] using listed)] at refused
  cases refused

theorem listable_remove (listable : AreListable catalog.names)
    (removed : catalog.remove now name = .ok later) : AreListable later.names := by
  obtain rfl := remove_eq_ok removed
  exact ⟨fun other member => listable.valid other (List.mem_of_mem_erase member),
    listable.nodup.erase name⟩

/-!
## Names in bytes
-/

theorem addRead_eq_ok_iff {names result : List String} {bytes : List UInt8} :
    addRead names bytes = .ok result ↔
      ∃ name, Text.Utf8.encode name = bytes ∧ isCollectionName name = true ∧ name ∉ names ∧
        result = names ++ [name] := by
  constructor
  · intro succeeded
    obtain ⟨name, decoded, rest⟩ := exists_of_bind_eq_ok succeeded
    obtain ⟨_, checked, rest⟩ := exists_of_bind_eq_ok rest
    have spelled : Text.Utf8.encode name = bytes := by
      cases given : Text.Utf8.decode bytes with
      | error fault =>
          rw [given] at decoded
          cases decoded
      | ok text =>
          rw [given] at decoded
          cases decoded
          exact Text.Utf8.decode_eq_ok_iff.mp given
    have isName : isCollectionName name = true := by
      by_contra noName
      simp only [checkCollectionName, noName] at checked
      cases checked
    by_cases listed : names.contains name = true
    · rw [if_pos listed] at rest
      cases rest
    · rw [if_neg listed] at rest
      exact ⟨name, spelled, isName, by simpa using listed, (Except.ok.inj rest).symm⟩
  · rintro ⟨name, rfl, isName, new, rfl⟩
    have unlisted : names.contains name = false := by simpa using new
    rw [addRead, Text.Utf8.decode_encode]
    change (do
      (checkCollectionName name).mapError Error.message
      if names.contains name then throw s!"collection '{name}' listed twice"
      return names ++ [name]) = _
    rw [checkCollectionName_eq_ok_iff.mpr isName, unlisted]
    rfl

/-- Names are put behind those that are there, whatever their bytes are, just if all of them can
stand in a catalog. -/
theorem foldlM_addRead_eq_ok_iff {names result : List String} {parts : List (List UInt8)}
    (listable : AreListable names) : parts.foldlM addRead names = .ok result ↔
      ∃ more, more.map Text.Utf8.encode = parts ∧ result = names ++ more ∧ AreListable result := by
  induction parts generalizing names with
  | nil =>
      constructor
      · intro succeeded
        cases succeeded
        exact ⟨[], rfl, (List.append_nil _).symm, listable⟩
      · rintro ⟨more, none, rfl, -⟩
        rw [List.map_eq_nil_iff.mp none, List.append_nil]
        rfl
  | cons part rest ih =>
      rw [List.foldlM_cons]
      constructor
      · intro succeeded
        obtain ⟨longer, here, onward⟩ := exists_of_bind_eq_ok succeeded
        obtain ⟨name, spelled, isName, new, rfl⟩ := addRead_eq_ok_iff.mp here
        obtain ⟨more, others, same, all⟩ := (ih (listable.concat isName new)).mp onward
        refine ⟨name :: more, ?_, ?_, all⟩
        · rw [List.map_cons, spelled, others]
        · rw [same, List.append_assoc, List.singleton_append]
      · rintro ⟨more, spelled, rfl, all⟩
        cases more with
        | nil => cases spelled
        | cons name more =>
            obtain ⟨here, others⟩ := List.cons.inj spelled
            have isName := all.valid name (List.mem_append_right _ List.mem_cons_self)
            have new : name ∉ names := fun member =>
              (List.nodup_append.mp all.nodup).2.2 name member name List.mem_cons_self rfl
            rw [addRead_eq_ok_iff.mpr ⟨name, here, isName, new, rfl⟩]
            have longer := names.append_cons name more
            exact (ih (listable.concat isName new)).mpr ⟨more, others, longer, all⟩

theorem decodeNames_eq_ok_iff {bytes : List UInt8} {names : List String} :
    decodeNames bytes = .ok names ↔
      (bytes = [] ∨ bytes.getLast? = some lineBreak) ∧
        names.map Text.Utf8.encode = nonemptyPieces lineBreak bytes ∧ AreListable names := by
  have read : (nonemptyPieces lineBreak bytes).foldlM addRead [] = .ok names ↔
      names.map Text.Utf8.encode = nonemptyPieces lineBreak bytes ∧ AreListable names := by
    rw [foldlM_addRead_eq_ok_iff areListable_nil]
    constructor
    · rintro ⟨more, spelled, rfl, all⟩
      exact ⟨spelled, all⟩
    · rintro ⟨spelled, all⟩
      exact ⟨names, spelled, rfl, all⟩
  rw [decodeNames]
  by_cases terminated : bytes = [] ∨ bytes.getLast? = some lineBreak
  · rw [if_neg (by rcases terminated with rfl | ends <;> simp_all)]
    exact read.trans (and_iff_right terminated).symm
  · rw [if_pos (by simpa [not_or] using terminated)]
    exact ⟨nofun, fun given => absurd given.1 terminated⟩

/-!
## The bytes of a catalog
-/

/-- What is recorded in front of the names in a catalog file. -/
structure Heading where
  version : Nat
  count : UInt32
  createdAt : Int64
  updatedAt : Int64
deriving Repr, DecidableEq

namespace Heading

def ofBytes (bytes : List UInt8) : Heading where
  version := Endian.little.read ((bytes.drop 4).take 2)
  count := .ofNat (Endian.little.read ((bytes.drop 6).take 4))
  createdAt := decodeTime ((bytes.drop 10).take 8)
  updatedAt := decodeTime ((bytes.drop 18).take 8)

end Heading

/-- The heading of a catalog. The number of names is one of 32 bits. -/
def heading (catalog : Catalog) : Heading where
  version := version
  count := .ofNat catalog.names.length
  createdAt := catalog.createdAt
  updatedAt := catalog.updatedAt

/-- Whether bytes are a catalog file that lists some names. The recorded number of names and the
bytes behind the times may be any. -/
structure IsFileOf (names : List String) (bytes : List UInt8) : Prop where
  long : metadataSize ≤ bytes.length
  marked : bytes.take 4 = magic
  version : (Heading.ofBytes bytes).version = version
  terminated : bytes.drop metadataSize = [] ∨
    (bytes.drop metadataSize).getLast? = some lineBreak
  pieces : names.map Text.Utf8.encode = nonemptyPieces lineBreak (bytes.drop metadataSize)
  listable : AreListable names

theorem decode_eq_ok_iff {path : Path} {bytes : List UInt8} :
    decode path bytes = .ok catalog ↔
      IsFileOf catalog.names bytes ∧ catalog.path = path ∧
        catalog.createdAt = (Heading.ofBytes bytes).createdAt ∧
          catalog.updatedAt = (Heading.ofBytes bytes).updatedAt := by
  rw [decode]
  constructor
  · intro succeeded
    split at succeeded
    · cases succeeded
    next long =>
      split at succeeded
      · cases succeeded
      next marked =>
        dsimp only at succeeded
        split at succeeded
        · cases succeeded
        next numbered =>
          obtain ⟨names, read, rest⟩ := exists_of_bind_eq_ok succeeded
          cases rest
          obtain ⟨terminated, spelled, listable⟩ := decodeNames_eq_ok_iff.mp read
          exact ⟨⟨Nat.le_of_not_lt long, not_not.mp marked, not_not.mp numbered, terminated,
            spelled, listable⟩, rfl, rfl, rfl⟩
  · rintro ⟨isFile, rfl, created, updated⟩
    have read := decodeNames_eq_ok_iff.mpr ⟨isFile.terminated, isFile.pieces, isFile.listable⟩
    have numbered : Endian.little.read ((bytes.drop 4).take 2) = version := isFile.version
    rw [if_neg (Nat.not_lt.mpr isFile.long), if_neg (not_not.mpr isFile.marked)]
    dsimp only
    rw [if_neg (not_not.mpr numbered), read]
    obtain ⟨path, createdAt, updatedAt, names⟩ := catalog
    obtain rfl : createdAt = _ := created
    obtain rfl : updatedAt = _ := updated
    rfl

theorem decodeTime_encodeTime (time : Int64) : decodeTime (encodeTime time) = time := by
  have number : Endian.little.read (encodeTime time) = time.toBitVec.toNat := by
    rw [encodeTime, Endian.read_write, Nat.mod_eq_of_lt time.toBitVec.isLt]
  rw [decodeTime, number, BitVec.ofNat_toNat, BitVec.setWidth_eq, Int64.ofBitVec_toBitVec]

theorem encode_eq (catalog : Catalog) :
    catalog.encode = magic ++ (Endian.little.write 2 version ++
      (Endian.little.write 4 catalog.names.length ++
        (encodeTime catalog.createdAt ++ (encodeTime catalog.updatedAt ++
          (List.replicate 66 0 ++
            catalog.names.flatMap fun name => Text.Utf8.encode name ++ [lineBreak]))))) := by
  have width : (magic ++ Endian.little.write 2 version ++
      Endian.little.write 4 catalog.names.length ++ encodeTime catalog.createdAt ++
        encodeTime catalog.updatedAt).length = 26 := by
    simp [magic, encodeTime]
  rw [encode, metadata, Field.padded, width]
  simp only [List.append_assoc]
  rfl

theorem ofBytes_encode (catalog : Catalog) : Heading.ofBytes catalog.encode = catalog.heading := by
  have shape := encode_eq catalog
  have mark : magic.length = 4 := rfl
  have numbered : (Endian.little.write 2 version).length = 2 := Endian.length_write ..
  have counted : (Endian.little.write 4 catalog.names.length).length = 4 := Endian.length_write ..
  have created : (encodeTime catalog.createdAt).length = 8 := Endian.length_write ..
  have updated : (encodeTime catalog.updatedAt).length = 8 := Endian.length_write ..
  have versionRead : (catalog.encode.drop 4).take 2 = Endian.little.write 2 version := by
    rw [shape, List.drop_left' mark, List.take_left' numbered]
  have countRead : (catalog.encode.drop 6).take 4 = Endian.little.write 4 catalog.names.length := by
    rw [shape, ← List.append_assoc, List.drop_left', List.take_left' counted]
    simp only [List.length_append, mark, numbered]
  have createdRead : (catalog.encode.drop 10).take 8 = encodeTime catalog.createdAt := by
    rw [shape, ← List.append_assoc, ← List.append_assoc, List.drop_left', List.take_left' created]
    simp only [List.length_append, mark, numbered, counted]
  have updatedRead : (catalog.encode.drop 18).take 8 = encodeTime catalog.updatedAt := by
    rw [shape, ← List.append_assoc, ← List.append_assoc, ← List.append_assoc, List.drop_left',
      List.take_left' updated]
    simp only [List.length_append, mark, numbered, counted, created]
  have number : UInt32.ofNat (catalog.names.length % Nat.pow 256 4) =
      .ofNat catalog.names.length := by
    apply UInt32.toNat_inj.mp
    simp
  rw [Heading.ofBytes, versionRead, countRead, createdRead, updatedRead, Endian.read_write,
    Endian.read_write, number, decodeTime_encodeTime, decodeTime_encodeTime]
  rfl

/-- The names stand in their lines behind the first 92 bytes. -/
theorem drop_encode (catalog : Catalog) : catalog.encode.drop metadataSize =
    (catalog.names.map Text.Utf8.encode).flatMap (· ++ [lineBreak]) := by
  rw [encode_eq, ← List.append_assoc, ← List.append_assoc, ← List.append_assoc,
    ← List.append_assoc, ← List.append_assoc, List.drop_left', List.flatMap_map]
  simp [magic, encodeTime, metadataSize]

theorem isFileOf_encode (listable : AreListable catalog.names) :
    IsFileOf catalog.names catalog.encode where
  long := by
    rw [encode_eq]
    simp [magic, encodeTime, metadataSize]
    omega
  marked := by
    rw [encode_eq]
    rfl
  version := by rw [ofBytes_encode, heading]
  terminated := by
    rw [drop_encode]
    rcases List.eq_nil_or_concat catalog.names with none | ⟨front, last, shape⟩
    · exact .inl (by rw [none]; rfl)
    · exact .inr (by simp [shape])
  pieces := by
    rw [drop_encode, nonemptyPieces_flatMap]
    · intro part member
      obtain ⟨name, listed, rfl⟩ := List.mem_map.mp member
      exact fun empty => filled_of_isCollectionName (listable.valid name listed)
        (Text.Utf8.encode_eq_nil_iff.mp empty)
    · intro part member
      obtain ⟨name, listed, rfl⟩ := List.mem_map.mp member
      exact lineBreak_not_mem_encode (listable.valid name listed)
  listable := listable

theorem decode_encode {catalog : Catalog} (listable : AreListable catalog.names) :
    decode catalog.path catalog.encode = .ok catalog := by
  refine decode_eq_ok_iff.mpr ⟨isFileOf_encode listable, rfl, ?_, ?_⟩
  · rw [ofBytes_encode, heading]
  · rw [ofBytes_encode, heading]

/-- What is read names the file it was read from and can be written again. -/
theorem decode_eq_ok {path : Path} {bytes : List UInt8}
    (succeeded : decode path bytes = .ok catalog) :
    catalog.path = path ∧ AreListable catalog.names := by
  obtain ⟨isFile, same, -⟩ := decode_eq_ok_iff.mp succeeded
  exact ⟨same, isFile.listable⟩

/-!
## Catalogs from a disk
-/

variable {system last : FileSystem}

theorem exists_decode_of_load {path : Path}
    (loaded : (load path).runOn system = (.ok catalog, last)) :
    ∃ bytes, decode path bytes = .ok catalog := by
  obtain ⟨bytes, middle, -, rest⟩ := Action.exists_of_runOn_bind loaded
  split at rest
  next decoded =>
    cases rest
    exact ⟨bytes, decoded⟩
  · cases rest

theorem decode_or_fresh_of_loadOrCreate {directory : Path}
    (opened : (loadOrCreate directory now).runOn system = (.ok catalog, last)) :
    (∃ bytes, decode (directory.child fileName) bytes = .ok catalog) ∨
      catalog = fresh (directory.child fileName) now := by
  obtain ⟨present, middle, -, rest⟩ := Action.exists_of_runOn_bind opened
  cases present with
  | true => exact .inl (exists_decode_of_load rest)
  | false =>
      change Disk.run (_ >>= _) _ = _ at rest
      rw [Disk.run_bind] at rest
      split at rest
      · cases rest
        exact .inr rfl
      · cases rest

end Catalog

end GraphStore
