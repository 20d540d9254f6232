import GraphStore.Bytes.Pieces

/-!
# Cutting joined sequences

How the pieces of a sequence come from the pieces of its parts.
-/

set_option autoImplicit false

namespace GraphStore

variable {α : Type} [DecidableEq α] {separator : α}

theorem pieces_of_not_mem {items : List α} (absent : separator ∉ items) :
    pieces separator items = [items] := by
  induction items with
  | nil => rfl
  | cons item rest ih =>
      have different : item ≠ separator := fun same => absent (same ▸ List.mem_cons_self)
      have onward := ih fun member => absent (List.mem_cons_of_mem _ member)
      rw [pieces, if_neg different, onward]

theorem pieces_append_cons {front : List α} (absent : separator ∉ front) (rest : List α) :
    pieces separator (front ++ separator :: rest) = front :: pieces separator rest := by
  induction front with
  | nil => simp [pieces]
  | cons item front ih =>
      have different : item ≠ separator := fun same => absent (same ▸ List.mem_cons_self)
      have onward := ih fun member => absent (List.mem_cons_of_mem _ member)
      rw [List.cons_append, pieces, if_neg different, onward]

/-- A sequence without a separator, or one whose first piece ends at one. -/
theorem exists_first_piece (separator : α) (items : List α) :
    separator ∉ items ∨
      ∃ front rest, items = front ++ separator :: rest ∧ separator ∉ front := by
  by_cases member : separator ∈ items
  · obtain ⟨front, rest, rfl, absent⟩ := List.eq_append_cons_of_mem member
    exact .inr ⟨front, rest, rfl, absent⟩
  · exact .inl member

theorem not_mem_of_mem_pieces {items piece : List α} (member : piece ∈ pieces separator items) :
    separator ∉ piece := by
  rcases exists_first_piece separator items with absent | ⟨front, rest, shape, absent⟩
  · rw [pieces_of_not_mem absent, List.mem_singleton] at member
    exact member ▸ absent
  · rw [shape, pieces_append_cons absent, List.mem_cons] at member
    rcases member with same | later
    · exact same ▸ absent
    · exact not_mem_of_mem_pieces later
  termination_by items.length
  decreasing_by
    rw [shape, List.length_append, List.length_cons]
    omega

/-- What is joined to a sequence only goes on with its last piece. -/
theorem pieces_append {items last : List α} {complete : List (List α)}
    (cut : pieces separator items = complete ++ [last]) (more : List α) :
    pieces separator (items ++ more) = complete ++ pieces separator (last ++ more) := by
  rcases exists_first_piece separator items with absent | ⟨front, rest, shape, absent⟩
  · rw [pieces_of_not_mem absent] at cut
    cases complete with
    | nil => rw [List.cons.inj cut |>.1, List.nil_append]
    | cons piece complete => simp at cut
  · rw [shape, pieces_append_cons absent] at cut
    cases complete with
    | nil => exact absurd (List.cons.inj cut).2 (pieces_ne_nil separator rest)
    | cons piece complete =>
        obtain ⟨same, onward⟩ := List.cons.inj cut
        rw [shape, List.append_assoc, List.cons_append, pieces_append_cons absent,
          pieces_append onward more, List.cons_append, same]
  termination_by items.length
  decreasing_by
    rw [shape, List.length_append, List.length_cons]
    omega

/-- Pieces with a separator behind each are found again, with nothing behind the last separator. -/
theorem pieces_flatMap {parts : List (List α)} (absent : ∀ part ∈ parts, separator ∉ part) :
    pieces separator (parts.flatMap (· ++ [separator])) = parts ++ [[]] := by
  induction parts with
  | nil => rfl
  | cons part rest ih =>
      obtain ⟨partAbsent, restAbsent⟩ := List.forall_mem_cons.mp absent
      rw [List.flatMap_cons, List.append_assoc, List.cons_append, List.nil_append,
        pieces_append_cons partAbsent, ih restAbsent, List.cons_append]

/-- What has begun can only be completed by what comes behind. -/
theorem prefix_dropLast_pieces (separator : α) (items more : List α) :
    (pieces separator items).dropLast <+: (pieces separator (items ++ more)).dropLast := by
  have cut := (List.dropLast_concat_getLast (pieces_ne_nil separator items)).symm
  rw [pieces_append cut more, List.dropLast_append_of_ne_nil (pieces_ne_nil separator _)]
  exact List.prefix_append _ _

/-!
## Pieces that are not empty
-/

theorem nonemptyPieces_append_cons {front : List α} (filled : front ≠ []) (absent : separator ∉ front)
    (rest : List α) :
    nonemptyPieces separator (front ++ separator :: rest) =
      front :: nonemptyPieces separator rest := by
  have kept : (!front.isEmpty) = true := by simpa using filled
  rw [nonemptyPieces, pieces_append_cons absent, List.filter_cons, if_pos kept, nonemptyPieces]

theorem nonemptyPieces_replicate (separator : α) (count : Nat) :
    nonemptyPieces separator (List.replicate count separator) = [] := by
  induction count with
  | zero => rfl
  | succ count ih =>
      rw [nonemptyPieces, List.replicate_succ, pieces, if_pos rfl]
      exact ih

/-- Pieces with a separator behind each are found again. -/
theorem nonemptyPieces_flatMap {parts : List (List α)} (filled : ∀ part ∈ parts, part ≠ [])
    (absent : ∀ part ∈ parts, separator ∉ part) :
    nonemptyPieces separator (parts.flatMap (· ++ [separator])) = parts := by
  induction parts with
  | nil => rfl
  | cons part rest ih =>
      obtain ⟨partFilled, restFilled⟩ := List.forall_mem_cons.mp filled
      obtain ⟨partAbsent, restAbsent⟩ := List.forall_mem_cons.mp absent
      rw [List.flatMap_cons, List.append_assoc, List.cons_append, List.nil_append,
        nonemptyPieces_append_cons partFilled partAbsent, ih restFilled restAbsent]

/-- Pieces with a separator between neighbours and any number behind the last are found again. -/
theorem nonemptyPieces_intercalate {parts : List (List α)} (filled : ∀ part ∈ parts, part ≠ [])
    (absent : ∀ part ∈ parts, separator ∉ part) (count : Nat) :
    nonemptyPieces separator
      ([separator].intercalate parts ++ List.replicate count separator) = parts := by
  induction parts with
  | nil => exact nonemptyPieces_replicate separator count
  | cons part rest ih =>
      obtain ⟨partFilled, restFilled⟩ := List.forall_mem_cons.mp filled
      obtain ⟨partAbsent, restAbsent⟩ := List.forall_mem_cons.mp absent
      have onward := ih restFilled restAbsent
      cases rest with
      | nil =>
          cases count with
          | zero =>
              have kept : (!part.isEmpty) = true := by simpa using partFilled
              rw [List.intercalate_singleton, List.replicate_zero, List.append_nil, nonemptyPieces,
                pieces_of_not_mem partAbsent, List.filter_cons, if_pos kept, List.filter_nil]
          | succ count =>
              rw [List.intercalate_singleton, List.replicate_succ,
                nonemptyPieces_append_cons partFilled partAbsent, nonemptyPieces_replicate]
      | cons next others =>
          have joined : [separator].intercalate (part :: next :: others) =
              part ++ separator :: [separator].intercalate (next :: others) := by
            simp [List.intercalate]
          rw [joined, List.append_assoc, List.cons_append,
            nonemptyPieces_append_cons partFilled partAbsent, onward]

/-!
## How long joined pieces are
-/

omit [DecidableEq α] in
private theorem length_intercalate_cons (part : List α) (rest : List (List α)) :
    ([separator].intercalate (part :: rest)).length =
      part.length + if rest = [] then 0 else 1 + ([separator].intercalate rest).length := by
  cases rest with
  | nil => simp [List.intercalate]
  | cons next others =>
      simp [List.intercalate]
      omega

omit [DecidableEq α] in
theorem length_intercalate_le {few many : List (List α)} (sublist : few.Sublist many) :
    ([separator].intercalate few).length ≤ ([separator].intercalate many).length := by
  induction sublist with
  | slnil => exact Nat.le_refl _
  | cons part sublist ih =>
      rw [length_intercalate_cons]
      split
      next none =>
        rw [none] at ih
        simpa using Nat.le_trans ih (by simp [List.intercalate])
      next => omega
  | @cons_cons few many part sublist ih =>
      rw [length_intercalate_cons, length_intercalate_cons]
      split
      · omega
      next filled =>
        have manyFilled : many ≠ [] := by
          intro none
          subst none
          exact filled (List.sublist_nil.mp sublist)
        rw [if_neg manyFilled]
        omega

/-- Pieces that are left when the empty ones are passed over are joined in no more room. -/
theorem length_intercalate_nonemptyPieces_le (separator : α) (items : List α) :
    ([separator].intercalate (nonemptyPieces separator items)).length ≤ items.length := by
  calc ([separator].intercalate (nonemptyPieces separator items)).length
      ≤ ([separator].intercalate (pieces separator items)).length :=
        length_intercalate_le List.filter_sublist
    _ = items.length := by rw [intercalate_pieces]

end GraphStore
