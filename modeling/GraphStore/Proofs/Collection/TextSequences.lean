import GraphStore.Proofs.Collection.Histories

/-!
# Texts written one after another

Each text gets records of its own, behind all others. Main statement: in whatever state work has left
a collection, a text of any length is written there as long as its records have numbers, and it is
read back however many texts are written later; otherwise it is refused and nothing has changed.
-/

set_option autoImplicit false

namespace GraphStore

open Text

namespace Collection

/-- The numbers of the records of a text that begins at `head`. -/
def pieceNumbers (head : RecordId) (text : String) : List Nat :=
  List.range' head.toNat (pieceCount text)

/-- The file system behind texts that are written one after another. Writing one may fail. -/
def writeTexts (collection : Collection) (texts : List String) (system : FileSystem) :
    FileSystem :=
  texts.foldl (fun system text => ((collection.writeText text).runOn system).2) system

/-- Whether the records `before` were there and those of a text were added, linked one to the next
and no more of them than the text needs. However many texts are written behind it, the text is read
back and shares no record with them. -/
structure KeepsText (collection : Collection) (before : List TextRecord) (text : String)
    (head : RecordId) (system : FileSystem) : Prop where
  number : head.toNat = before.length
  appended : ∃ run, (collection.records .string).runOn system = (.ok (before ++ run), system) ∧
    run.length = pieceCount text ∧ run.flatMap TextRecord.data = Utf8.encode text ∧
    IsTextRun before.length run
  readBack : ∀ texts, (collection.readText head).runOn (collection.writeTexts texts system) =
    (.ok text, collection.writeTexts texts system)
  apart : ∀ texts other next last,
    (collection.writeText other).runOn (collection.writeTexts texts system) = (.ok next, last) →
    (pieceNumbers head text).Disjoint (pieceNumbers next other)

end Collection

open Collection (pieceCount pieceNumbers textRecords textChunks KeepsText)

namespace Site

variable {site : Site} {stores : Stores} {system : FileSystem}

/-!
## One text
-/

/-- Writing a text adds the records of its pieces. -/
theorem Holds.runOn_writeText (held : site.Holds stores system) (text : String) :
    ∃ run, textRecords (stores .string).length (textChunks text) = .ok run ∧
      run.length = pieceCount text ∧
      (site.collection.writeText text).runOn system =
        ((site.file .string).appendAll run).runOn system := by
  have short : ∀ chunk ∈ textChunks text, chunk.length ≤ textChunkSize :=
    fun _ member => length_le_of_mem_slices member
  obtain ⟨run, made, length⟩ := Collection.exists_textRecords (stores .string).length short
  have opened : site.collection.texts.runOn system = (.ok (site.file .string), system) :=
    (yields_openAs .string).runOn_eq held
  have counted : (site.file .string).count.runOn system =
      (.ok (stores .string).length, system) := (yields_count .string).runOn_eq held
  refine ⟨run, made, length.trans (Collection.length_textChunks text), ?_⟩
  unfold Collection.writeText
  rw [Action.runOn_bind_of_ok _ system opened, Action.runOn_bind_of_ok _ system counted, made]
  exact Action.runOn_bind_of_ok run system rfl _

theorem Holds.writeText_of_lt (held : site.Holds stores system) (text : String)
    (room : (stores .string).length + pieceCount text < RecordFile.idLimit) :
    ∃ head later run, (site.collection.writeText text).runOn system = (.ok head, later) ∧
      head.toNat = (stores .string).length ∧
      site.Holds (stores.set .string (stores .string ++ run)) later ∧
      run.length = pieceCount text ∧ run.flatMap TextRecord.data = Utf8.encode text ∧
      IsTextRun (stores .string).length run := by
  obtain ⟨run, made, length, ran⟩ := held.runOn_writeText text
  rw [← length] at room
  have counted := (held .string).countOf_eq (site.file .string).path
  obtain ⟨⟨content, stands, written⟩, faithful, short⟩ := held .string
  rw [← written] at counted
  rw [RecordFile.runOn_appendAll_of_lt stands counted room] at ran
  obtain ⟨-, spelled, -, present⟩ :=
    Collection.textRecords_spec made (Collection.textChunks_ne_nil text)
  refine ⟨_, _, run, ran, toNat_ofNat_of_lt short, held.put ?_ ?_ ?_, length, ?_,
    Collection.isTextRun_of_textRecords made room⟩
  · rw [Content.toList_append, written, fileBytes, fileBytes, List.flatMap_append,
      List.append_assoc]
    rfl
  · intro record member
    rcases List.mem_append.mp member with former | new
    · exact faithful record former
    · exact TextRecord.faithful (present room record new)
  · rwa [List.length_append]
  · rw [List.flatMap_def, spelled, Collection.flatten_textChunks]

theorem Holds.writeText_of_le (held : site.Holds stores system) (text : String)
    (crowded : RecordFile.idLimit ≤ (stores .string).length + pieceCount text) :
    (site.collection.writeText text).runOn system =
      (.error (.payloadTooLarge "record id" (RecordFile.idLimit - 1)
        ((stores .string).length + pieceCount text)), system) := by
  obtain ⟨run, -, length, ran⟩ := held.runOn_writeText text
  rw [← length] at crowded ⊢
  have counted := (held .string).countOf_eq (site.file .string).path
  obtain ⟨content, stands, written⟩ := (held .string).file
  rw [← written] at counted
  rw [ran, RecordFile.runOn_appendAll_of_le stands counted crowded]

/-!
## Many texts
-/

/-- Texts are only added, whether or not they can be written. -/
theorem Holds.writeTexts (held : site.Holds stores system) (texts : List String) :
    ∃ later, site.Holds later (site.collection.writeTexts texts system) ∧ Grows stores later := by
  induction texts generalizing stores system with
  | nil => exact ⟨stores, held, fun _ _ => List.prefix_refl _⟩
  | cons text rest ih =>
      obtain ⟨middle, middleHeld, -, enriched, -⟩ := (enriching_writeText text).runOn held
      obtain ⟨later, laterHeld, grown⟩ := ih middleHeld
      exact ⟨later, laterHeld, enriched.grows.trans grown⟩

/-- All of some texts are written, as long as there are numbers for the records of all. -/
theorem Holds.writeTexts_of_lt (held : site.Holds stores system) (texts : List String)
    (room : (stores .string).length + (texts.map pieceCount).sum < RecordFile.idLimit) :
    ∃ later, site.Holds later (site.collection.writeTexts texts system) ∧
      (later .string).length = (stores .string).length + (texts.map pieceCount).sum := by
  induction texts generalizing stores system with
  | nil => exact ⟨stores, held, rfl⟩
  | cons text rest ih =>
      rw [List.map_cons, List.sum_cons] at room ⊢
      obtain ⟨head, middle, run, ran, -, middleHeld, length, -⟩ :=
        held.writeText_of_lt text (by omega)
      have width : (stores.set .string (stores .string ++ run) .string).length =
          (stores .string).length + pieceCount text := by
        rw [Stores.set_self, List.length_append, length]
      obtain ⟨later, laterHeld, laterLength⟩ := ih middleHeld (by omega)
      refine ⟨later, ?_, by omega⟩
      rw [Collection.writeTexts, List.foldl_cons, ran]
      exact laterHeld

theorem Built.writeTexts (built : site.Built system) (texts : List String) :
    site.Built (site.collection.writeTexts texts system) := by
  induction texts generalizing system with
  | nil => exact built
  | cons text rest ih =>
      have step := Action.runOn_map (site.collection.writeText text) (fun _ => ()) system
      have stepped := Built.written built (.writeText text)
      rw [Collection.Write.action, step] at stepped
      exact ih stepped

theorem Holds.disjoint_of_writeText (held : site.Holds stores system) {head next : RecordId}
    {text other : String} {last : FileSystem}
    (behind : head.toNat + pieceCount text ≤ (stores .string).length)
    (ran : (site.collection.writeText other).runOn system = (.ok next, last)) :
    (pieceNumbers head text).Disjoint (pieceNumbers next other) := by
  have number : (stores .string).length ≤ next.toNat := by
    rcases Nat.lt_or_ge ((stores .string).length + pieceCount other) RecordFile.idLimit with
      room | crowded
    · obtain ⟨_, _, _, succeeded, number, -⟩ := held.writeText_of_lt _ room
      rw [succeeded] at ran
      cases ran
      exact Nat.le_of_eq number.symm
    · rw [held.writeText_of_le _ crowded] at ran
      cases ran
  intro place inside outside
  have below := (List.mem_range'_1.mp inside).2
  have above := (List.mem_range'_1.mp outside).1
  omega

/-- In whatever state work on its records has left a collection, a text is written in records of
its own, as long as these have numbers, and stays readable while other texts are written. Otherwise
it is refused. -/
theorem Built.keeps_texts (built : site.Built system) (text : String) :
    ∃ before, (site.collection.records .string).runOn system = (.ok before, system) ∧
      (before.length + pieceCount text < RecordFile.idLimit →
        ∃ head later, (site.collection.writeText text).runOn system = (.ok head, later) ∧
          site.collection.KeepsText before text head later) ∧
      (RecordFile.idLimit ≤ before.length + pieceCount text →
        (site.collection.writeText text).runOn system =
          (.error (.payloadTooLarge "record id" (RecordFile.idLimit - 1)
            (before.length + pieceCount text)), system)) := by
  obtain ⟨before, held⟩ := built.exists_holds
  refine ⟨before .string, held.records_eq .string, fun room => ?_, held.writeText_of_le text⟩
  obtain ⟨head, later, run, ran, number, laterHeld, length, spelled, isRun⟩ :=
    held.writeText_of_lt _ room
  -- The records are known from the run; that they are read as the text is known from what any
  -- writing ensures, which describes the same file system by lists of its own.
  obtain ⟨stores, storesHeld, -, -, reads⟩ := (enriching_writeText text).runOn held
  rw [ran] at storesHeld reads
  have textAt := reads head rfl
  refine ⟨head, later, ran, number, ⟨run, ?_, length, spelled, isRun⟩, fun texts => ?_, ?_⟩
  · have records := laterHeld.records_eq .string
    rwa [Stores.set_self] at records
  · obtain ⟨last, lastHeld, grown⟩ := storesHeld.writeTexts texts
    exact (yields_readText (textAt.grown grown)).runOn_eq lastHeld
  · intro texts other next last wrote
    obtain ⟨behind, behindHeld, grown⟩ := laterHeld.writeTexts texts
    refine behindHeld.disjoint_of_writeText ?_ wrote
    have longer := (grown .string (by decide)).length_le
    rw [Stores.set_self, List.length_append, length] at longer
    omega

private theorem texts_smallSystem :
    (smallSite.collection.records .string).runOn smallSystem = (.ok [], smallSystem) := by
  have given : ((smallSite.collection.records .string).runOn smallSystem).1 = .ok [] :=
    eq_ok_of_toOption (by decide +kernel)
  obtain ⟨stores, held⟩ := built_smallSystem.exists_holds
  have records := held.records_eq .string
  rw [records] at given ⊢
  rw [Except.ok.inj given]

/-- A text of 59 bytes, the last two of which are one letter. -/
def straddlingText : String := "".pushn 'x' 57 ++ "é"

/-- The bytes of a letter stand in two records. -/
theorem keeps_texts_straddling :
    ∃ head later, smallSite.Built smallSystem ∧ pieceCount straddlingText = 2 ∧
      (smallSite.collection.writeText straddlingText).runOn smallSystem = (.ok head, later) ∧
      smallSite.collection.KeepsText [] straddlingText head later := by
  have pieces : pieceCount straddlingText = 2 := by decide +kernel
  obtain ⟨before, records, written, -⟩ := built_smallSystem.keeps_texts straddlingText
  obtain rfl : [] = before :=
    Except.ok.inj (congrArg Prod.fst (texts_smallSystem.symm.trans records))
  obtain ⟨head, later, ran, kept⟩ := written (by rw [pieces]; decide)
  exact ⟨head, later, built_smallSystem, pieces, ran, kept⟩

/-- Behind as many texts as there are numbers, not even the empty text is written. -/
theorem refuses_text_without_number :
    smallSite.Built
        (smallSite.collection.writeTexts (List.replicate 4294967294 "") smallSystem) ∧
      (smallSite.collection.writeText "").runOn
          (smallSite.collection.writeTexts (List.replicate 4294967294 "") smallSystem) =
        (.error (.payloadTooLarge "record id" 4294967294 4294967295),
          smallSite.collection.writeTexts (List.replicate 4294967294 "") smallSystem) := by
  obtain ⟨stores, held⟩ := built_smallSystem.exists_holds
  have none : stores .string = [] := Except.ok.inj
    (congrArg Prod.fst ((held.records_eq .string).symm.trans texts_smallSystem))
  -- So many runs cannot be evaluated: the number of records comes from the sum of the pieces.
  have single : pieceCount "" = 1 := by decide
  have total (count : Nat) : ((List.replicate count "").map pieceCount).sum = count := by
    rw [List.map_replicate, List.sum_replicate, single, smul_eq_mul, Nat.mul_one]
  obtain ⟨later, laterHeld, length⟩ :=
    held.writeTexts_of_lt (List.replicate 4294967294 "") (by
      rw [none, total]
      decide)
  rw [none, total, List.length_nil, Nat.zero_add] at length
  refine ⟨built_smallSystem.writeTexts _, ?_⟩
  have refused := laterHeld.writeText_of_le "" (by
    rw [length, single]
    decide)
  rw [length, single] at refused
  exact refused

end Site

end GraphStore
