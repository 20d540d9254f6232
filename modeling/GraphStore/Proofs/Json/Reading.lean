import GraphStore.Proofs.Json.Scalars
import GraphStore.Proofs.Text.Reader

/-!
# Reading what was written as JSON

Values are written without blanks. Main statement: a document is read as the value that it was written
for, as long as its numbers are in range and its texts stand for something.
-/

set_option autoImplicit false

namespace GraphStore

open Text Text.Reader

namespace Json

/-- Values whose texts stand for something and whose numbers are in range. -/
inductive IsPlain : Json → Prop where
  | null : IsPlain .null
  | bool (value : Bool) : IsPlain (.bool value)
  | integer {value : Int} (small : value.natAbs < 2 ^ 64) : IsPlain (.integer value)
  | ofString (text : String) : IsPlain (.ofString text)
  | array {items : List Json} (each : ∀ item ∈ items, IsPlain item) : IsPlain (.array items)
  | ofMembers {members : List (String × Json)} (each : ∀ member ∈ members, IsPlain member.2) :
      IsPlain (.ofMembers members)

/-- Whether some characters are cut into pieces, whatever comes behind them. -/
def IsCutInto (characters : List Char) (pieces : List Piece) : Prop :=
  ∀ read rest, Ends isScalarCharacter rest →
    piecesFrom read (characters ++ rest) = piecesFrom (pieces.reverse ++ read) rest

section

variable {json : Json} {characters more rest : List Char} {first : Char} {read pieces : List Piece}
  {piece : Piece} {stack : List Open} {awaited : Awaited}

theorem piecesFrom_cons {beyond : Nat} (notSpace : isSpace first = false)
    (found : piece? first rest = some (piece, beyond)) :
    piecesFrom read (first :: rest) = piecesFrom (piece :: read) (rest.drop beyond) := by
  rw [piecesFrom, notSpace]
  simp [found]

theorem isCutInto_scalar {value : Json} (spelled : scalar? (first :: more) = some value)
    (clean : ∀ c ∈ first :: more, isScalarCharacter c = true) :
    IsCutInto (first :: more) [.scalar value] := by
  intro read rest ends
  have isFirst := clean first List.mem_cons_self
  have notSign : ∀ c, isScalarCharacter c = false → first ≠ c := by
    rintro c notScalar rfl
    rw [isFirst] at notScalar
    cases notScalar
  obtain ⟨taken, -⟩ :=
    takeWhile_append (fun c member => clean c (List.mem_cons_of_mem _ member)) ends
  have found : piece? first (more ++ rest) = some (.scalar value, more.length) := by
    simp [piece?, taken, spelled, notSign '{' rfl, notSign '}' rfl, notSign '[' rfl, notSign ']' rfl,
      notSign ':' rfl, notSign ',' rfl, notSign '"' rfl]
  have notSpace : isSpace first = false := by
    simp [isSpace, notSign ' ' rfl, notSign '\n' rfl, notSign '\r' rfl, notSign '\t' rfl]
  rw [List.cons_append, piecesFrom_cons notSpace found, List.drop_left]
  rfl

/-- A piece that is one character. -/
theorem IsCutInto.cons_sign {signCharacter : Char} (notSpace : isSpace signCharacter = false)
    (isSign : ∀ rest, piece? signCharacter rest = some (piece, 0))
    (onward : IsCutInto more pieces) : IsCutInto (signCharacter :: more) (piece :: pieces) := by
  intro read rest ends
  rw [List.cons_append, piecesFrom_cons notSpace (isSign _), List.drop_zero, onward _ _ ends,
    List.reverse_cons, List.append_assoc]
  rfl

theorem isScalarCharacter_of_mem_toString {value : Int} {c : Char}
    (member : c ∈ (toString value).toList) : isScalarCharacter c = true := by
  have ofDigit : ∀ {n : Nat}, c ∈ Nat.toDigits 10 n → isScalarCharacter c = true := fun digit => by
    simp [isScalarCharacter, Char.isAlphanum, isDigit_of_mem_toDigits digit]
  rcases toString_cases value with ⟨n, -, written⟩ | ⟨n, -, -, written⟩
  · exact ofDigit (written ▸ member)
  · rw [written] at member
    rcases List.mem_cons.mp member with rfl | digit
    · rfl
    · exact ofDigit digit

theorem isCutInto_text (text : String) :
    IsCutInto ('"' :: (JsonText.ofString text).written ++ ['"']) [.text (.ofString text)] := by
  intro read rest ends
  have found : piece? '"' ((JsonText.ofString text).written ++ ['"'] ++ rest) =
      some (.text (.ofString text), (JsonText.ofString text).written.length + 1) := by
    rw [List.append_assoc]
    simp [piece?, JsonText.textLength_ofString]
  rw [List.cons_append, List.cons_append, piecesFrom_cons rfl found, List.append_assoc]
  simp

theorem IsCutInto.append {front : List Piece} (first : IsCutInto characters front)
    (onward : IsCutInto more pieces) (ends : ∀ rest, Ends isScalarCharacter (more ++ rest)) :
    IsCutInto (characters ++ more) (front ++ pieces) := by
  intro read rest endsRest
  rw [List.append_assoc, first _ _ (ends rest), onward _ _ endsRest, List.reverse_append,
    List.append_assoc]

theorem isCutInto_sign {c : Char} (notSpace : isSpace c = false)
    (isSign : ∀ rest, piece? c rest = some (piece, 0)) : IsCutInto [c] [piece] :=
  IsCutInto.cons_sign notSpace isSign fun _ _ _ => rfl

/-!
### Putting values together
-/

theorem assemble_cons (awaited : Awaited) (stack : List Open) (piece : Piece) (rest : List Piece) :
    assemble awaited stack (piece :: rest) =
      match following awaited stack piece with
      | none => none
      | some (next, stack) => assemble next stack rest := by
  cases awaited <;> cases stack <;> rfl

/-- Whether a value is written so that it is cut into some pieces, and these are put together to it,
as the first item of an array or anywhere else. -/
structure IsMadeOf (pieces : List Piece) (json : Json) : Prop where
  cut : IsCutInto json.characters pieces
  value : ∀ stack rest, assemble .value stack (pieces ++ rest) = assemble (.after json) stack rest
  firstItem : ∀ stack rest,
    assemble .firstItem stack (pieces ++ rest) = assemble (.after json) (.array [] :: stack) rest

theorem isMadeOf_singleton (cut : IsCutInto json.characters [piece])
    (opens : ∀ stack, opening stack piece = some (.after json, stack)) : IsMadeOf [piece] json := by
  refine ⟨cut, fun stack rest => ?_, fun stack rest => ?_⟩
  · rw [List.singleton_append, assemble_cons, following, opens]
  · have starts : following .firstItem stack piece = opening (.array [] :: stack) piece := by
      cases piece with
      | closeBracket => cases opens []
      | _ => rfl
    rw [List.singleton_append, assemble_cons, starts, opens]

/-- Items up to the end of their array, which may hold others in front. -/
theorem exists_pieces_items {items : List Json} (filled : items ≠ [])
    (each : ∀ item ∈ items, ∃ pieces, IsMadeOf pieces item) :
    ∃ pieces, IsCutInto (itemCharacters items ++ [']']) (pieces ++ [.closeBracket]) ∧
      (∀ done stack rest, assemble .value (.array done :: stack) (pieces ++ .closeBracket :: rest) =
        assemble (.after (.array (done.reverse ++ items))) stack rest) ∧
      ∀ stack rest, assemble .firstItem stack (pieces ++ .closeBracket :: rest) =
        assemble (.after (.array items)) stack rest := by
  have close : IsCutInto [']'] [.closeBracket] := isCutInto_sign rfl fun _ => rfl
  induction items with
  | nil => exact absurd rfl filled
  | cons item others ih =>
      obtain ⟨⟨pieces, made⟩, eachOther⟩ := List.forall_mem_cons.mp each
      cases others with
      | nil =>
          refine ⟨pieces, made.cut.append close (ends_cons rfl), fun done stack rest => ?_,
            fun stack rest => ?_⟩
          · rw [made.value, assemble_cons, ← List.reverse_cons]
            rfl
          · rw [made.firstItem, assemble_cons]
            rfl
      | cons second others =>
          obtain ⟨more, cut, value, -⟩ := ih (List.cons_ne_nil _ _) eachOther
          have comma : IsCutInto (',' :: (itemCharacters (second :: others) ++ [']']))
              (.comma :: (more ++ [.closeBracket])) := .cons_sign rfl (fun _ => rfl) cut
          refine ⟨pieces ++ .comma :: more, ?_, fun done stack rest => ?_, fun stack rest => ?_⟩
          · simpa [itemCharacters] using made.cut.append comma (ends_cons rfl)
          · rw [List.append_assoc, List.cons_append, made.value, assemble_cons]
            change assemble .value (.array (item :: done) :: stack) _ = _
            rw [value, List.reverse_cons, List.append_assoc]
            rfl
          · rw [List.append_assoc, List.cons_append, made.firstItem, assemble_cons]
            exact value [item] stack rest

theorem exists_pieces_array {items : List Json}
    (each : ∀ item ∈ items, ∃ pieces, IsMadeOf pieces item) :
    ∃ pieces, IsMadeOf pieces (.array items) := by
  cases items with
  | nil =>
      have cut : IsCutInto ['[', ']'] [.openBracket, .closeBracket] :=
        .cons_sign rfl (fun _ => rfl) (isCutInto_sign rfl fun _ => rfl)
      exact ⟨_, cut, fun _ _ => rfl, fun _ _ => rfl⟩
  | cons item others =>
      obtain ⟨pieces, cut, -, firstItem⟩ := exists_pieces_items (List.cons_ne_nil _ _) each
      have whole : IsCutInto ('[' :: (itemCharacters (item :: others) ++ [']']))
          (.openBracket :: (pieces ++ [.closeBracket])) := .cons_sign rfl (fun _ => rfl) cut
      refine ⟨.openBracket :: (pieces ++ [.closeBracket]), ?_, fun stack rest => ?_,
        fun stack rest => ?_⟩
      · simpa [characters] using whole
      · rw [List.cons_append, assemble_cons, List.append_assoc]
        exact firstItem stack rest
      · rw [List.cons_append, assemble_cons, List.append_assoc]
        exact firstItem (.array [] :: stack) rest

theorem assemble_name (done : List (JsonText × Json)) (name : JsonText) (stack : List Open)
    (rest : List Piece) :
    assemble (.name done) stack (.text name :: .colon :: rest) =
      assemble .value (.object done name :: stack) rest := by
  rw [assemble_cons]
  exact assemble_cons (.colon done name) stack .colon rest

theorem assemble_firstName (name : JsonText) (stack : List Open) (rest : List Piece) :
    assemble .firstName stack (.text name :: .colon :: rest) =
      assemble .value (.object [] name :: stack) rest := by
  rw [assemble_cons]
  exact assemble_cons (.colon [] name) stack .colon rest

/-- Members up to the end of their object, which may hold others in front. -/
theorem exists_pieces_members {members : List (String × Json)} (filled : members ≠ [])
    (each : ∀ member ∈ members, ∃ pieces, IsMadeOf pieces member.2) :
    let texts := members.map fun member => (JsonText.ofString member.1, member.2)
    ∃ pieces, IsCutInto (memberCharacters texts ++ ['}']) (pieces ++ [.closeBrace]) ∧
      (∀ done stack rest, assemble (.name done) stack (pieces ++ .closeBrace :: rest) =
        assemble (.after (.object (done.reverse ++ texts))) stack rest) ∧
      ∀ stack rest, assemble .firstName stack (pieces ++ .closeBrace :: rest) =
        assemble (.after (.object texts)) stack rest := by
  have close : IsCutInto ['}'] [.closeBrace] := isCutInto_sign rfl fun _ => rfl
  induction members with
  | nil => exact absurd rfl filled
  | cons member others ih =>
      obtain ⟨⟨pieces, made⟩, eachOther⟩ := List.forall_mem_cons.mp each
      obtain ⟨name, json⟩ := member
      have head : ∀ {characters pieces}, IsCutInto (json.characters ++ characters) pieces →
          IsCutInto ('"' :: (JsonText.ofString name).written ++ ['"'] ++
            ':' :: (json.characters ++ characters))
            (.text (.ofString name) :: .colon :: pieces) := fun onward =>
        (isCutInto_text name).append (.cons_sign rfl (fun _ => rfl) onward) (ends_cons rfl)
      cases others with
      | nil =>
          refine ⟨.text (.ofString name) :: .colon :: pieces, ?_, fun done stack rest => ?_,
            fun stack rest => ?_⟩
          · simpa [memberCharacters] using head (made.cut.append close (ends_cons rfl))
          · rw [List.cons_append, List.cons_append, assemble_name, made.value, assemble_cons]
            change assemble (.after (.object ((_, json) :: done).reverse)) stack rest = _
            rw [List.reverse_cons]
            rfl
          · rw [List.cons_append, List.cons_append, assemble_firstName, made.value, assemble_cons]
            rfl
      | cons second others =>
          obtain ⟨more, cut, onward, -⟩ := ih (List.cons_ne_nil _ _) eachOther
          have comma : IsCutInto (',' :: (memberCharacters _ ++ ['}']))
              (.comma :: (more ++ [.closeBrace])) := .cons_sign rfl (fun _ => rfl) cut
          refine ⟨.text (.ofString name) :: .colon :: (pieces ++ .comma :: more), ?_,
            fun done stack rest => ?_, fun stack rest => ?_⟩
          · simpa [memberCharacters] using head (made.cut.append comma (ends_cons rfl))
          · rw [List.cons_append, List.cons_append, List.append_assoc, assemble_name,
              List.cons_append, made.value, assemble_cons]
            change assemble (.name ((_, json) :: done)) stack _ = _
            rw [onward, List.reverse_cons, List.append_assoc]
            rfl
          · rw [List.cons_append, List.cons_append, List.append_assoc, assemble_firstName,
              List.cons_append, made.value, assemble_cons]
            exact onward [(_, json)] stack rest

theorem exists_pieces_object {members : List (String × Json)}
    (each : ∀ member ∈ members, ∃ pieces, IsMadeOf pieces member.2) :
    ∃ pieces, IsMadeOf pieces (.ofMembers members) := by
  cases members with
  | nil =>
      have cut : IsCutInto ['{', '}'] [.openBrace, .closeBrace] :=
        .cons_sign rfl (fun _ => rfl) (isCutInto_sign rfl fun _ => rfl)
      exact ⟨_, cut, fun _ _ => rfl, fun _ _ => rfl⟩
  | cons member others =>
      obtain ⟨pieces, cut, -, firstName⟩ := exists_pieces_members (List.cons_ne_nil _ _) each
      have whole : IsCutInto ('{' :: (memberCharacters _ ++ ['}']))
          (.openBrace :: (pieces ++ [.closeBrace])) := .cons_sign rfl (fun _ => rfl) cut
      refine ⟨.openBrace :: (pieces ++ [.closeBrace]), ?_, fun stack rest => ?_,
        fun stack rest => ?_⟩
      · simpa [ofMembers, characters] using whole
      · rw [List.cons_append, assemble_cons, List.append_assoc]
        exact firstName stack rest
      · rw [List.cons_append, assemble_cons, List.append_assoc]
        exact firstName (.array [] :: stack) rest

/-- A plain value is written so that it can be read. -/
theorem IsPlain.exists_pieces (plain : json.IsPlain) : ∃ pieces, IsMadeOf pieces json := by
  induction plain with
  | null =>
      exact ⟨_, isMadeOf_singleton (isCutInto_scalar rfl (List.all_eq_true.mp rfl)) fun _ => rfl⟩
  | bool value =>
      cases value <;>
        exact ⟨_, isMadeOf_singleton (isCutInto_scalar rfl (List.all_eq_true.mp rfl)) fun _ => rfl⟩
  | @integer value small =>
      have spelled := scalar?_toString small
      obtain ⟨first, more, written⟩ : ∃ first more, (toString value).toList = first :: more := by
        rcases toString_cases value with ⟨n, -, written⟩ | ⟨n, -, -, written⟩
        · rw [written]
          exact List.exists_cons_of_ne_nil Nat.toDigits_ne_nil
        · exact ⟨_, _, written⟩
      rw [written] at spelled
      have cut := isCutInto_scalar spelled fun c member =>
        isScalarCharacter_of_mem_toString (written ▸ member)
      refine ⟨[.scalar (.integer value)], isMadeOf_singleton ?_ fun _ => rfl⟩
      rwa [← written] at cut
  | ofString text => exact ⟨_, isMadeOf_singleton (isCutInto_text text) fun _ => rfl⟩
  | array _ ih => exact exists_pieces_array ih
  | ofMembers _ ih => exact exists_pieces_object ih

theorem isPrinted_itemCharacters {items : List Json}
    (each : ∀ item ∈ items, ∀ c ∈ item.characters, 0x20 ≤ c.toNat) :
    ∀ c ∈ itemCharacters items, 0x20 ≤ c.toNat := by
  induction items with
  | nil => nofun
  | cons item others ih =>
      obtain ⟨here, behind⟩ := List.forall_mem_cons.mp each
      cases others with
      | nil => exact here
      | cons second others =>
          rw [itemCharacters]
          · exact List.forall_mem_append.mpr ⟨here, List.forall_mem_cons.mpr ⟨by decide, ih behind⟩⟩
          · exact List.cons_ne_nil _ _

theorem isPrinted_memberCharacters {members : List (JsonText × Json)}
    (each : ∀ member ∈ members, (∀ c ∈ member.1.written, 0x20 ≤ c.toNat) ∧
      ∀ c ∈ member.2.characters, 0x20 ≤ c.toNat) :
    ∀ c ∈ memberCharacters members, 0x20 ≤ c.toNat := by
  induction members with
  | nil => nofun
  | cons member others ih =>
      obtain ⟨⟨name, value⟩, behind⟩ := List.forall_mem_cons.mp each
      cases others with
      | nil => simpa [memberCharacters, or_imp, forall_and] using ⟨name, value⟩
      | cons second others =>
          have onward := ih behind
          rw [memberCharacters]
          · simpa [or_imp, forall_and] using ⟨name, value, onward⟩
          · exact List.cons_ne_nil _ _

/-- The document of a plain value has no control characters, so that it stands on one line. -/
theorem IsPlain.isPrinted (plain : json.IsPlain) : ∀ c ∈ json.characters, 0x20 ≤ c.toNat := by
  have isText : ∀ text, ∀ c ∈ '"' :: (JsonText.ofString text).written ++ ['"'], 0x20 ≤ c.toNat := by
    simpa [or_imp, forall_and] using fun text => JsonText.isPrinted_ofString text
  induction plain with
  | null => simp [characters]
  | bool value => cases value <;> simp [characters]
  | @integer value small =>
      intro c member
      rcases toString_cases value with ⟨n, -, written⟩ | ⟨n, -, -, written⟩
      · rw [characters, written] at member
        exact JsonText.isPrinted_of_isHexDigit (by simp [isHexDigit, isDigit_of_mem_toDigits member])
      · rw [characters, written] at member
        rcases List.mem_cons.mp member with rfl | digit
        · decide
        · exact JsonText.isPrinted_of_isHexDigit (by simp [isHexDigit, isDigit_of_mem_toDigits digit])
  | ofString text => exact isText text
  | array _ ih => simpa [characters, or_imp, forall_and] using isPrinted_itemCharacters ih
  | @ofMembers members _ ih =>
      have each : ∀ member ∈ members.map fun member => (JsonText.ofString member.1, member.2),
          (∀ c ∈ member.1.written, 0x20 ≤ c.toNat) ∧ ∀ c ∈ member.2.characters, 0x20 ≤ c.toNat :=
        List.forall_mem_map.mpr fun member given =>
          ⟨JsonText.isPrinted_ofString member.1, ih member given⟩
      simpa [Json.ofMembers, characters, or_imp, forall_and] using isPrinted_memberCharacters each

/-- A plain value is read from its document. -/
theorem IsPlain.parse?_render (plain : json.IsPlain) : parse? json.render = some json := by
  obtain ⟨pieces, made⟩ := plain.exists_pieces
  have cut := made.cut [] [] (by nofun)
  have assembled := made.value [] []
  rw [List.append_nil, List.append_nil] at cut
  rw [List.append_nil] at assembled
  rw [parse?, render, String.toList_ofList, cut, piecesFrom, List.reverse_reverse, Option.bind_eq_bind,
    Option.bind_some, assembled]
  rfl

end

end Json

end GraphStore
