import GraphStore.Collection.Texts
import GraphStore.Proofs.Collection.Growth
import GraphStore.Proofs.Success

/-!
# Texts that are read back

A text is written as a chain of consecutive pieces, and stays readable whatever is added behind it.
-/

set_option autoImplicit false

namespace GraphStore

open Text

/-- Whether a text begins in a record. -/
def TextAt (stores : Stores) (head : RecordId) (text : String) : Prop :=
  ∃ visited, Chain (stores .string) TextRecord.next (some head) visited ∧
    (∀ entry ∈ visited, entry.2.inUse = true) ∧
    visited.flatMap (fun entry => entry.2.data) = Utf8.encode text

theorem TextAt.grown {before stores : Stores} {head : RecordId} {text : String}
    (held : TextAt before head text) (grows : Grows before stores) :
    TextAt stores head text := by
  obtain ⟨visited, chain, taken, spelled⟩ := held
  exact ⟨visited, chain.extended (grows .string (by decide)), taken, spelled⟩

namespace Collection

/-- How many records a text takes. The empty text takes one. -/
def pieceCount (text : String) : Nat :=
  max 1 (sliceCount textChunkSize (Utf8.encode text).length)

theorem length_textChunks (text : String) : (textChunks text).length = pieceCount text :=
  length_slices ..

theorem textChunks_ne_nil (text : String) : textChunks text ≠ [] := by
  rw [← List.length_pos_iff, length_textChunks, pieceCount]
  omega

theorem flatten_textChunks (text : String) : (textChunks text).flatten = Utf8.encode text := by
  apply flatten_slices
  rw [sliceCount, textChunkSize]
  omega

theorem ofData_eq_ok {data : List UInt8} {next : Option RecordId} {record : TextRecord}
    (made : TextRecord.ofData data next = .ok record) :
    record.inUse = true ∧ record.next = next ∧ record.data = data := by
  rw [TextRecord.ofData] at made
  split at made
  · cases made
    exact ⟨rfl, rfl, rfl⟩
  · cases made

theorem textRecords_spec {first : Nat} {chunks : List (List UInt8)} {records : List TextRecord}
    (made : textRecords first chunks = .ok records) (filled : chunks ≠ []) :
    Linked TextRecord.next first records ∧ records.map TextRecord.data = chunks ∧
      (∀ record ∈ records, record.inUse = true) ∧
      (first + records.length < RecordFile.idLimit →
        ∀ record ∈ records, record.next ≠ some absentId) := by
  fun_induction textRecords first chunks generalizing records with
  | case1 => exact absurd rfl filled
  | case2 first last =>
      obtain ⟨record, given, made⟩ := exists_of_bind_eq_ok made
      cases made
      obtain ⟨taken, link, data⟩ := ofData_eq_ok given
      refine ⟨link, by rw [List.map_cons, data, List.map_nil], by simpa using taken, fun _ => ?_⟩
      simp [link]
  | case3 first chunk rest more ih =>
      obtain ⟨record, given, made⟩ := exists_of_bind_eq_ok made
      obtain ⟨others, onward, made⟩ := exists_of_bind_eq_ok made
      cases made
      obtain ⟨taken, link, data⟩ := ofData_eq_ok given
      obtain ⟨linked, spelled, othersTaken, present⟩ := ih onward more
      refine ⟨?_, by rw [List.map_cons, data, spelled], ?_, fun room => ?_⟩
      · cases others with
        | nil => exact linked.elim
        | cons => exact ⟨link, linked⟩
      · exact List.forall_mem_cons.mpr ⟨taken, othersTaken⟩
      · rw [List.length_cons] at room
        refine List.forall_mem_cons.mpr ⟨?_, present (by omega)⟩
        have more : 0 < others.length := by
          rw [← List.length_map (f := TextRecord.data), spelled]
          exact List.length_pos_iff.mpr (by assumption)
        rw [link]
        exact ofNat_ne_absentId (by omega)

end Collection

namespace Site

variable {site : Site} {stores before : Stores}

theorem yields_readText {head : RecordId} {text : String} (held : TextAt stores head text) :
    site.Yields (site.collection.readText head) stores (.ok text) := by
  obtain ⟨visited, chain, taken, spelled⟩ := held
  refine (yields_openAs .string).bind ((yields_count .string).bind ?_)
  have visits : List.Forall₂ (fun entry data => site.Yields (do
      let record ← (site.file .string).readInUse entry.1
      pure (record.data, record.next)) stores (.ok (data, entry.2.next))) visited
      (visited.map fun entry => entry.2.data) := by
    refine List.forall₂_map_right_iff.mpr (List.forall₂_same.mpr fun entry member => ?_)
    exact (yields_readInUse (chain.found entry member) (taken entry member)).bind (.pure _)
  refine (chain.yields_walk visits _ chain.length_le).bind ?_
  · rw [← List.flatMap_def, spelled, Utf8.decode_encode]
    exact .pure text

theorem enriching_writeText (text : String) :
    site.Enriching (site.collection.writeText text) before fun head stores =>
      TextAt stores head text := by
  refine (yields_openAs .string).bind_ensures ((yields_count .string).bind_ensures ?_)
  refine Enriching.of_bind fun records made => ?_
  obtain ⟨linked, spelled, taken, present⟩ :=
    Collection.textRecords_spec made (Collection.textChunks_ne_nil text)
  refine enriching_appendAll (by decide) ?_ fun room => ?_
  · exact fun room record member => TextRecord.faithful (present room record member)
  · obtain ⟨visited, chain, held⟩ := linked.exists_chain room
    refine ⟨visited, by rw [Stores.set_self]; exact chain, ?_, ?_⟩
    · intro entry member
      exact taken entry.2 (held ▸ List.mem_map_of_mem member)
    · have data : visited.map (fun entry => entry.2.data) = records.map TextRecord.data := by
        rw [← held, List.map_map]
        rfl
      rw [List.flatMap_def, data, spelled, Collection.flatten_textChunks]

end Site

end GraphStore
