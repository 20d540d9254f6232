import GraphStore.Text.Utf8
import Mathlib.Data.List.TakeWhile

/-!
# UTF-8 both ways

Decoding takes one character after the other from the front. It succeeds exactly on the bytes of a
text, and a fault stands behind the longest front part that is the bytes of a text.
-/

set_option autoImplicit false

namespace GraphStore.Text.Utf8

/-!
## The bytes of one character
-/

private theorem ofNat_eq_iff (number : Nat) (byte : UInt8) (small : number < 256) :
    UInt8.ofNat number = byte ↔ number = byte.toNat := by
  rw [← UInt8.toNat_inj, UInt8.toNat_ofNat']
  omega

private theorem width_cases (lead : UInt8) :
    (width lead = 1 ∧ lead.toNat < 0x80) ∨ width lead = 0 ∨
      (width lead = 2 ∧ 0xC2 ≤ lead.toNat ∧ lead.toNat < 0xE0) ∨
      (width lead = 3 ∧ 0xE0 ≤ lead.toNat ∧ lead.toNat < 0xF0) ∨
      (width lead = 4 ∧ 0xF0 ≤ lead.toNat ∧ lead.toNat < 0xF5) := by
  simp only [width, UInt8.lt_iff_toNat_lt, UInt8.reduceToNat]
  repeat' split
  all_goals omega

private theorem width_eq_one {lead : UInt8} (small : lead.toNat < 0x80) : width lead = 1 := by
  simp only [width, UInt8.lt_iff_toNat_lt, UInt8.reduceToNat, small, ↓reduceIte]

private theorem mayFollow_iff (lead byte : UInt8) :
    mayFollow lead byte = true ↔
      0x80 ≤ byte.toNat ∧ byte.toNat ≤ 0xBF ∧
        (lead.toNat = 0xE0 → 0xA0 ≤ byte.toNat) ∧ (lead.toNat = 0xED → byte.toNat ≤ 0x9F) ∧
        (lead.toNat = 0xF0 → 0x90 ≤ byte.toNat) ∧ (lead.toNat = 0xF4 → byte.toNat ≤ 0x8F) := by
  simp only [mayFollow, ← UInt8.toNat_inj, UInt8.reduceToNat]
  repeat' split
  all_goals
    simp only [Bool.and_eq_true, decide_eq_true_eq, UInt8.le_iff_toNat_le, UInt8.reduceToNat]
    omega

private theorem isContinuation_iff (byte : UInt8) :
    isContinuation byte = true ↔ 0x80 ≤ byte.toNat ∧ byte.toNat ≤ 0xBF := by
  simp only [isContinuation, Bool.and_eq_true, decide_eq_true_eq, UInt8.le_iff_toNat_le,
    UInt8.reduceToNat]

private theorem toNat_ofNat_of_isValidChar (number : Nat) (valid : number.isValidChar) :
    (Char.ofNat number).val.toNat = number := by
  rw [Char.ofNat, dif_pos valid]
  rfl

/-- Whether bytes may stand behind a first byte in a character. -/
private def Follow (lead : UInt8) : List UInt8 → Prop
  | [] => True
  | byte :: more => mayFollow lead byte = true ∧ ∀ other ∈ more, isContinuation other = true

private theorem continued_eq_iff (lead : UInt8) (wanted : Nat) (rest : List UInt8) :
    continued lead wanted rest = wanted ↔
      ∃ followers after, rest = followers ++ after ∧ followers.length = wanted ∧
        Follow lead followers := by
  cases wanted with
  | zero => exact ⟨fun _ => ⟨[], rest, rfl, rfl, trivial⟩, fun _ => rfl⟩
  | succ wanted =>
      constructor
      · intro found
        cases rest with
        | nil => simp [continued] at found
        | cons byte tail =>
            have short := List.takeWhile_sublist isContinuation (l := tail.take wanted)
            have bound := short.length_le
            simp only [continued] at found
            split at found
            next allowed =>
              have count : ((tail.take wanted).takeWhile isContinuation).length = wanted := by
                omega
              have whole : (tail.take wanted).takeWhile isContinuation = tail.take wanted := by
                refine short.eq_of_length_le ?_
                rw [count, List.length_take]
                exact Nat.min_le_left _ _
              refine ⟨byte :: tail.take wanted, tail.drop wanted, ?_, ?_, allowed, ?_⟩
              · rw [List.cons_append, List.take_append_drop]
              · rw [List.length_cons, ← whole, count]
              · exact List.takeWhile_eq_self_iff.mp whole
            next => omega
      · intro given
        obtain ⟨followers, after, rfl, count, follow⟩ := given
        cases followers with
        | nil => simp at count
        | cons byte more =>
            obtain ⟨allowed, continuing⟩ := follow
            have count : more.length = wanted := by simpa using count
            have taken : (more ++ after).take wanted = more := by rw [← count, List.take_left]
            rw [List.cons_append, continued, if_pos allowed, taken,
              List.takeWhile_eq_self_iff.mpr continuing, count]
            omega

private theorem width_eq_two {lead : UInt8} (low : 0xC2 ≤ lead.toNat)
    (high : lead.toNat < 0xE0) : width lead = 2 := by
  simp only [width, UInt8.lt_iff_toNat_lt, UInt8.reduceToNat]
  rw [if_neg (by omega), if_neg (by omega), if_pos high]

private theorem width_eq_three {lead : UInt8} (low : 0xE0 ≤ lead.toNat)
    (high : lead.toNat < 0xF0) : width lead = 3 := by
  simp only [width, UInt8.lt_iff_toNat_lt, UInt8.reduceToNat]
  rw [if_neg (by omega), if_neg (by omega), if_neg (by omega), if_pos high]

private theorem width_eq_four {lead : UInt8} (low : 0xF0 ≤ lead.toNat)
    (high : lead.toNat < 0xF5) : width lead = 4 := by
  simp only [width, UInt8.lt_iff_toNat_lt, UInt8.reduceToNat]
  rw [if_neg (by omega), if_neg (by omega), if_neg (by omega), if_neg (by omega), if_pos high]

private theorem codePoint_two (lead second : UInt8) :
    codePoint 2 lead [second] = lead.toNat % 32 * 64 + second.toNat % 64 := rfl

private theorem codePoint_three (lead second third : UInt8) :
    codePoint 3 lead [second, third] =
      (lead.toNat % 16 * 64 + second.toNat % 64) * 64 + third.toNat % 64 := rfl

private theorem codePoint_four (lead second third fourth : UInt8) :
    codePoint 4 lead [second, third, fourth] =
      ((lead.toNat % 8 * 64 + second.toNat % 64) * 64 + third.toNat % 64) * 64 +
        fourth.toNat % 64 := rfl

private theorem encodeChar_spec (c : Char) :
    ∃ lead followers, String.utf8EncodeChar c = lead :: followers ∧
      width lead = followers.length + 1 ∧ Follow lead followers ∧
      codePoint (width lead) lead followers = c.val.toNat := by
  have valid : c.val.toNat < 0xD800 ∨ (0xDFFF < c.val.toNat ∧ c.val.toNat < 0x110000) := c.valid
  generalize code : c.val.toNat = v at valid
  simp only [String.utf8EncodeChar, code]
  split
  next small =>
    have one : width (UInt8.ofNat v) = 1 := width_eq_one (by rw [UInt8.toNat_ofNat']; omega)
    refine ⟨_, _, rfl, one, trivial, ?_⟩
    rw [one]
    simp only [codePoint, Nat.le_refl, ↓reduceIte, List.foldl_nil, UInt8.toNat_ofNat']
    omega
  next =>
  split
  next =>
    refine ⟨_, _, rfl, width_eq_two ?_ ?_, ⟨?_, by simp⟩, ?_⟩
    · rw [UInt8.toNat_ofNat']; omega
    · rw [UInt8.toNat_ofNat']; omega
    · rw [mayFollow_iff, UInt8.toNat_ofNat', UInt8.toNat_ofNat']; omega
    · rw [width_eq_two, codePoint_two, UInt8.toNat_ofNat', UInt8.toNat_ofNat']
      all_goals (try rw [UInt8.toNat_ofNat']); omega
  next =>
  split
  next =>
    refine ⟨_, _, rfl, width_eq_three ?_ ?_, ⟨?_, ?_⟩, ?_⟩
    · rw [UInt8.toNat_ofNat']; omega
    · rw [UInt8.toNat_ofNat']; omega
    · rw [mayFollow_iff, UInt8.toNat_ofNat', UInt8.toNat_ofNat']; omega
    · simp only [List.forall_mem_cons, isContinuation_iff, UInt8.toNat_ofNat']
      exact ⟨by omega, by simp⟩
    · rw [width_eq_three, codePoint_three, UInt8.toNat_ofNat', UInt8.toNat_ofNat',
        UInt8.toNat_ofNat']
      all_goals (try rw [UInt8.toNat_ofNat']); omega
  next =>
    refine ⟨_, _, rfl, width_eq_four ?_ ?_, ⟨?_, ?_⟩, ?_⟩
    · rw [UInt8.toNat_ofNat']; omega
    · rw [UInt8.toNat_ofNat']; omega
    · rw [mayFollow_iff, UInt8.toNat_ofNat', UInt8.toNat_ofNat']; omega
    · simp only [List.forall_mem_cons, isContinuation_iff, UInt8.toNat_ofNat']
      exact ⟨by omega, by omega, by simp⟩
    · rw [width_eq_four, codePoint_four, UInt8.toNat_ofNat', UInt8.toNat_ofNat',
        UInt8.toNat_ofNat', UInt8.toNat_ofNat']
      all_goals (try rw [UInt8.toNat_ofNat']); omega

private theorem encodeChar_ofNat (v : Nat)
    (valid : v < 0xD800 ∨ (0xDFFF < v ∧ v < 0x110000)) :
    String.utf8EncodeChar (Char.ofNat v) =
      if v ≤ 0x7F then [UInt8.ofNat v]
      else if v ≤ 0x7FF then [UInt8.ofNat (v / 64 % 0x20 + 0xC0), UInt8.ofNat (v % 0x40 + 0x80)]
      else if v ≤ 0xFFFF then
        [UInt8.ofNat (v / 4096 % 0x10 + 0xE0), UInt8.ofNat (v / 64 % 0x40 + 0x80),
          UInt8.ofNat (v % 0x40 + 0x80)]
      else
        [UInt8.ofNat (v / 262144 % 0x08 + 0xF0), UInt8.ofNat (v / 4096 % 0x40 + 0x80),
          UInt8.ofNat (v / 64 % 0x40 + 0x80), UInt8.ofNat (v % 0x40 + 0x80)] := by
  simp only [String.utf8EncodeChar, toNat_ofNat_of_isValidChar v valid]

private theorem encodeChar_codePoint {lead : UInt8} {followers : List UInt8}
    (wide : width lead = followers.length + 1) (follow : Follow lead followers) :
    String.utf8EncodeChar (Char.ofNat (codePoint (width lead) lead followers)) =
      lead :: followers := by
  have bound := lead.toNat_lt
  have cases := width_cases lead
  rw [wide] at cases ⊢
  match followers with
  | [] =>
      have small : lead.toNat < 0x80 := by
        simp only [List.length_nil] at cases
        omega
      have code : codePoint 1 lead [] = lead.toNat := rfl
      rw [List.length_nil, code, encodeChar_ofNat _ (by omega), if_pos (by omega),
        UInt8.ofNat_toNat]
  | [second] =>
      simp only [List.length_cons, List.length_nil] at cases
      obtain ⟨allowed, -⟩ := follow
      rw [mayFollow_iff] at allowed
      rw [List.length_singleton, codePoint_two, encodeChar_ofNat _ (by omega), if_neg (by omega),
        if_pos (by omega)]
      simp only [List.cons.injEq, and_true]
      refine ⟨(ofNat_eq_iff _ _ ?_).mpr ?_, (ofNat_eq_iff _ _ ?_).mpr ?_⟩ <;> omega
  | [second, third] =>
      simp only [List.length_cons, List.length_nil] at cases
      obtain ⟨allowed, continuing⟩ := follow
      rw [mayFollow_iff] at allowed
      have thirdRange := (isContinuation_iff third).mp (continuing third (by simp))
      rw [List.length_cons, List.length_singleton, codePoint_three,
        encodeChar_ofNat _ (by omega), if_neg (by omega), if_neg (by omega), if_pos (by omega)]
      simp only [List.cons.injEq, and_true]
      refine ⟨(ofNat_eq_iff _ _ ?_).mpr ?_, (ofNat_eq_iff _ _ ?_).mpr ?_,
        (ofNat_eq_iff _ _ ?_).mpr ?_⟩ <;> omega
  | [second, third, fourth] =>
      simp only [List.length_cons, List.length_nil] at cases
      obtain ⟨allowed, continuing⟩ := follow
      rw [mayFollow_iff] at allowed
      have thirdRange := (isContinuation_iff third).mp (continuing third (by simp))
      have fourthRange := (isContinuation_iff fourth).mp (continuing fourth (by simp))
      rw [List.length_cons, List.length_cons, List.length_singleton, codePoint_four,
        encodeChar_ofNat _ (by omega), if_neg (by omega), if_neg (by omega), if_neg (by omega)]
      simp only [List.cons.injEq, and_true]
      refine ⟨(ofNat_eq_iff _ _ ?_).mpr ?_, (ofNat_eq_iff _ _ ?_).mpr ?_,
        (ofNat_eq_iff _ _ ?_).mpr ?_, (ofNat_eq_iff _ _ ?_).mpr ?_⟩ <;> omega
  | _ :: _ :: _ :: _ :: more =>
      simp only [List.length_cons] at cases
      omega

/-!
## One step of decoding
-/

theorem decodeFrom_encodeChar_append (index : Nat) (read : List Char) (c : Char)
    (rest : List UInt8) :
    decodeFrom index read (String.utf8EncodeChar c ++ rest) =
      decodeFrom (index + (String.utf8EncodeChar c).length) (c :: read) rest := by
  obtain ⟨lead, followers, shape, wide, follow, code⟩ := encodeChar_spec c
  have found : continued lead followers.length (followers ++ rest) = followers.length :=
    (continued_eq_iff lead followers.length (followers ++ rest)).mpr
      ⟨followers, rest, rfl, rfl, follow⟩
  rw [wide] at code
  rw [shape, List.cons_append, decodeFrom]
  simp only [wide, Nat.add_sub_cancel, found, Nat.succ_ne_zero, ↓reduceIte, List.take_left,
    List.drop_left, code, List.length_cons]
  congr
  exact Char.ofNat_toNat c

theorem decodeFrom_eq_error (index : Nat) (read : List Char) {bytes : List UInt8}
    (filled : bytes ≠ [])
    (none : ∀ c rest, bytes ≠ String.utf8EncodeChar c ++ rest) :
    ∃ width, decodeFrom index read bytes = .error ⟨index, width⟩ := by
  cases bytes with
  | nil => exact absurd rfl filled
  | cons lead rest =>
      rw [decodeFrom]
      simp only
      split
      next => exact ⟨_, rfl⟩
      next wide =>
      split
      next found =>
        obtain ⟨followers, after, rfl, count, follow⟩ := (continued_eq_iff _ _ _).mp found
        have encoded := encodeChar_codePoint (by omega) follow
        refine absurd ?_ (none (Char.ofNat (codePoint (width lead) lead followers)) after)
        rw [encoded, List.cons_append]
      next =>
      split <;> exact ⟨_, rfl⟩

/-!
## Decoding a whole text
-/

theorem decodeFrom_append (index : Nat) (read chars : List Char) (rest : List UInt8) :
    decodeFrom index read (chars.flatMap String.utf8EncodeChar ++ rest) =
      decodeFrom (index + (chars.flatMap String.utf8EncodeChar).length) (chars.reverse ++ read)
        rest := by
  induction chars generalizing index read with
  | nil => simp
  | cons c chars ih =>
      rw [List.flatMap_cons, List.append_assoc, decodeFrom_encodeChar_append, ih,
        List.length_append, Nat.add_assoc, List.reverse_cons, List.append_assoc,
        List.singleton_append]

@[simp] theorem decode_encode (text : String) : decode (encode text) = .ok text := by
  have steps := decodeFrom_append 0 [] text.toList []
  simp only [List.append_nil] at steps
  rw [decode, encode, steps, decodeFrom]
  simp [Except.map]

theorem encode_injective {left right : String} (same : encode left = encode right) :
    left = right := by
  have decoded := decode_encode left
  rw [same, decode_encode] at decoded
  exact (Except.ok.inj decoded).symm

/-- A byte below 0x80 is a character by itself. -/
theorem toNat_eq_of_mem_encodeChar {c : Char} {byte : UInt8}
    (member : byte ∈ String.utf8EncodeChar c) (ascii : byte.toNat < 0x80) :
    c.toNat = byte.toNat := by
  have code : c.toNat = c.val.toNat := rfl
  rw [code]
  simp only [String.utf8EncodeChar] at member
  split at member
  next small =>
    obtain rfl := List.mem_singleton.mp member
    rw [UInt8.toNat_ofNat']
    omega
  next =>
    exfalso
    revert member
    split
    · simp only [List.mem_cons, List.not_mem_nil, or_false, ← UInt8.toNat_inj, UInt8.toNat_ofNat']
      omega
    split
    · simp only [List.mem_cons, List.not_mem_nil, or_false, ← UInt8.toNat_inj, UInt8.toNat_ofNat']
      omega
    · simp only [List.mem_cons, List.not_mem_nil, or_false, ← UInt8.toNat_inj, UInt8.toNat_ofNat']
      omega

theorem exists_of_mem_encode {text : String} {byte : UInt8} (member : byte ∈ encode text)
    (ascii : byte.toNat < 0x80) : ∃ c ∈ text.toList, c.toNat = byte.toNat := by
  obtain ⟨c, inText, member⟩ := List.mem_flatMap.mp member
  exact ⟨c, inText, toNat_eq_of_mem_encodeChar member ascii⟩
theorem encode_eq_nil_iff {text : String} : encode text = [] ↔ text = "" := by
  constructor
  · intro empty
    exact encode_injective empty
  · intro same
    subst same
    rfl

/-- All bytes are a text, or a front part is and no character stands behind it. -/
private theorem exists_front (bytes : List UInt8) :
    ∃ text rest, bytes = encode text ++ rest ∧
      ∀ c after, rest ≠ String.utf8EncodeChar c ++ after := by
  by_cases starts : ∃ c after, bytes = String.utf8EncodeChar c ++ after
  · obtain ⟨c, after, rfl⟩ := starts
    have shorter : after.length < (String.utf8EncodeChar c ++ after).length := by
      have := c.utf8Size_pos
      rw [List.length_append, String.length_utf8EncodeChar]
      omega
    obtain ⟨text, rest, shape, stuck⟩ := exists_front after
    refine ⟨String.ofList [c] ++ text, rest, ?_, stuck⟩
    rw [encode_append, List.append_assoc, ← shape]
    simp [encode]
  · exact ⟨"", bytes, by simp [encode], fun c after shape => starts ⟨c, after, shape⟩⟩
  termination_by bytes.length

theorem decode_eq_ok_iff {bytes : List UInt8} {text : String} :
    decode bytes = .ok text ↔ encode text = bytes := by
  constructor
  · intro decoded
    obtain ⟨front, rest, rfl, stuck⟩ := exists_front bytes
    by_cases filled : rest = []
    · subst filled
      rw [List.append_nil, decode_encode] at decoded
      rw [List.append_nil, Except.ok.inj decoded]
    · obtain ⟨width, stopped⟩ := decodeFrom_eq_error (0 + (encode front).length)
        (front.toList.reverse ++ []) filled stuck
      have steps := decodeFrom_append 0 [] front.toList rest
      rw [encode] at stopped decoded
      rw [decode, steps, stopped] at decoded
      cases decoded
  · intro same
    subst same
    exact decode_encode text

/-- The number of bytes of the longest front part that is the bytes of a text. -/
structure IsTextUpTo (bytes : List UInt8) (index : Nat) : Prop where
  within : index ≤ bytes.length
  text : ∃ text, encode text = bytes.take index
  longest : ∀ longer, index < longer → longer ≤ bytes.length →
    ∀ text, encode text ≠ bytes.take longer

theorem IsTextUpTo.unique {bytes : List UInt8} {left right : Nat}
    (leftLongest : IsTextUpTo bytes left) (rightLongest : IsTextUpTo bytes right) :
    left = right := by
  obtain ⟨leftText, leftTake⟩ := leftLongest.text
  obtain ⟨rightText, rightTake⟩ := rightLongest.text
  rcases Nat.lt_trichotomy left right with less | same | greater
  · exact absurd rightTake (leftLongest.longest right less rightLongest.within rightText)
  · exact same
  · exact absurd leftTake (rightLongest.longest left greater leftLongest.within leftText)

private theorem decodeFrom_index_le {index : Nat} {read : List Char} {bytes : List UInt8}
    {fault : Fault} (stopped : decodeFrom index read bytes = .error fault) :
    index ≤ fault.index := by
  obtain ⟨front, rest, rfl, stuck⟩ := exists_front bytes
  rw [encode, decodeFrom_append] at stopped
  by_cases filled : rest = []
  · subst filled
    rw [decodeFrom] at stopped
    cases stopped
  · obtain ⟨width, here⟩ := decodeFrom_eq_error _ _ filled stuck
    rw [here] at stopped
    cases stopped
    exact Nat.le_add_right _ _

private theorem isTextUpTo_of_decode {bytes : List UInt8} {fault : Fault}
    (stopped : decode bytes = .error fault) :
    IsTextUpTo bytes fault.index ∧ fault.index < bytes.length := by
  have stoppedFrom : decodeFrom 0 [] bytes = .error fault := by
    rw [decode] at stopped
    cases found : decodeFrom 0 [] bytes with
    | ok chars => rw [found] at stopped; cases stopped
    | error other => rw [found] at stopped; cases stopped; rfl
  obtain ⟨front, rest, rfl, stuck⟩ := exists_front bytes
  have filled : rest ≠ [] := by
    intro same
    subst same
    rw [List.append_nil, decode_encode] at stopped
    cases stopped
  obtain ⟨width, here⟩ := decodeFrom_eq_error (0 + (encode front).length)
    (front.toList.reverse ++ []) filled stuck
  have steps := decodeFrom_append 0 [] front.toList rest
  rw [encode] at stoppedFrom here
  have same : fault = ⟨0 + (encode front).length, width⟩ := by
    rw [steps, here] at stoppedFrom
    exact (Except.error.inj stoppedFrom).symm
  have index : fault.index = (encode front).length := by rw [same, Nat.zero_add]
  have more := List.length_pos_iff.mpr filled
  refine ⟨⟨?_, ⟨front, ?_⟩, ?_⟩, ?_⟩
  · rw [index, List.length_append]
    omega
  · rw [index, List.take_left]
  · intro longer less _ text taken
    -- Decoding passes the longer text first, so that it cannot stop before its end.
    have split := List.take_append_drop longer (encode front ++ rest)
    rw [← taken] at split
    have size : (encode text).length = longer := by
      rw [taken, List.length_take]
      omega
    rw [← encode, ← split, encode, decodeFrom_append] at stoppedFrom
    have := decodeFrom_index_le stoppedFrom
    rw [← encode] at this
    omega
  · rw [index, List.length_append]
    omega

/-- Decoding fails exactly where the bytes are no text, and it names the end of the longest front
part that is one. -/
theorem decode_error_index_iff {bytes : List UInt8} {index : Nat} :
    (∃ fault, decode bytes = .error fault ∧ fault.index = index) ↔
      (∀ text, encode text ≠ bytes) ∧ IsTextUpTo bytes index := by
  constructor
  · intro given
    obtain ⟨fault, stopped, rfl⟩ := given
    refine ⟨?_, (isTextUpTo_of_decode stopped).1⟩
    intro text same
    subst same
    rw [decode_encode] at stopped
    cases stopped
  · intro given
    obtain ⟨noText, longest⟩ := given
    cases decoded : decode bytes with
    | ok text => exact absurd (decode_eq_ok_iff.mp decoded) (noText text)
    | error fault => exact ⟨fault, rfl, (isTextUpTo_of_decode decoded).1.unique longest⟩

end GraphStore.Text.Utf8
