/-!
# Pieces between separators

Cutting a sequence at every separator. Main statement: joining the pieces gives the sequence back.
-/

set_option autoImplicit false

namespace GraphStore

/-- The pieces of a sequence between its separators. There is always one more than separators. -/
def pieces {α : Type} [DecidableEq α] (separator : α) : List α → List (List α)
  | [] => [[]]
  | item :: rest =>
      if item = separator then [] :: pieces separator rest
      else
        match pieces separator rest with
        | [] => [[item]]
        | piece :: others => (item :: piece) :: others

def nonemptyPieces {α : Type} [DecidableEq α] (separator : α) (items : List α) : List (List α) :=
  (pieces separator items).filter (!·.isEmpty)

theorem pieces_ne_nil {α : Type} [DecidableEq α] (separator : α) (items : List α) :
    pieces separator items ≠ [] := by
  cases items with
  | nil => simp [pieces]
  | cons item rest =>
      rw [pieces]
      split
      · simp
      · split <;> simp

theorem intercalate_pieces {α : Type} [DecidableEq α] (separator : α) (items : List α) :
    [separator].intercalate (pieces separator items) = items := by
  induction items with
  | nil => simp [pieces, List.intercalate]
  | cons item rest ih =>
      rw [pieces]
      split
      next isSeparator =>
        cases found : pieces separator rest with
        | nil => exact absurd found (pieces_ne_nil separator rest)
        | cons piece others =>
            rw [found] at ih
            simp [List.intercalate, List.intersperse] at ih ⊢
            exact ⟨isSeparator.symm, ih⟩
      next =>
        cases found : pieces separator rest with
        | nil => exact absurd found (pieces_ne_nil separator rest)
        | cons piece others =>
            rw [found] at ih
            cases others with
            | nil => simpa [List.intercalate] using ih
            | cons other others =>
                simp only [List.intercalate, List.intersperse, List.flatten_cons,
                  List.cons_append] at ih ⊢
                rw [ih]

end GraphStore
