import GraphStore.Proofs.Bytes.Pieces
import GraphStore.Proofs.Text.Utf8
import GraphStore.Wire.Frame

/-!
# Frames of a stream that arrives in parts

Between two reads a decoder knows nothing but the line that has begun: `waiting` computes its state
from the bytes of that line alone. Main statement: the frames of a stream do not depend on where it
is cut.
-/

set_option autoImplicit false

namespace GraphStore

open Text

/-!
## What a line is
-/

/-- What a line is, without the return and the line break at its end. -/
inductive Frame.IsOf (limit : Nat) (line : List UInt8) : Option Frame → Prop
  | tooLong (long : limit < line.length) : IsOf limit line (some (.rejected (.tooLong limit)))
  | invalidText {index : Nat} (fits : line.length ≤ limit)
      (noText : ∀ text, Utf8.encode text ≠ line) (upTo : Utf8.IsTextUpTo line index) :
      IsOf limit line (some (.rejected (.invalidText index)))
  | blank {text : String} (fits : line.length ≤ limit) (spelled : Utf8.encode text = line)
      (blank : ∀ c ∈ text.toList, isBlank c = true) : IsOf limit line none
  | text {text : String} (fits : line.length ≤ limit) (spelled : Utf8.encode text = line)
      (filled : ∃ c ∈ text.toList, isBlank c = false) : IsOf limit line (some (.text text))

private theorem isAllBlank_iff (text : String) :
    isAllBlank text = true ↔ ∀ c ∈ text.toList, isBlank c = true := by
  simp [isAllBlank]

private theorem Frame.isOf_ofLine (limit : Nat) (line : List UInt8) :
    Frame.IsOf limit (withoutReturn line) (ofLine limit line) := by
  simp only [ofLine]
  split
  next long => exact .tooLong long
  next short =>
    have fits := Nat.le_of_not_lt short
    cases decoded : Utf8.decode (withoutReturn line) with
    | ok content =>
        have spelled := Utf8.decode_eq_ok_iff.mp decoded
        simp only
        split
        next blank => exact .blank fits spelled ((isAllBlank_iff content).mp blank)
        next filled =>
          refine .text fits spelled ?_
          simpa [isAllBlank] using filled
    | error fault =>
        obtain ⟨noText, upTo⟩ := Utf8.decode_error_index_iff.mp ⟨fault, decoded, rfl⟩
        exact .invalidText fits noText upTo

private theorem Frame.IsOf.unique {limit : Nat} {line : List UInt8} {left right : Option Frame}
    (leftIs : Frame.IsOf limit line left) (rightIs : Frame.IsOf limit line right) :
    left = right := by
  cases leftIs with
  | tooLong long =>
      cases rightIs with
      | tooLong => rfl
      | invalidText fits => omega
      | blank fits => omega
      | text fits => omega
  | invalidText fits noText upTo =>
      cases rightIs with
      | tooLong long => omega
      | invalidText _ _ other => rw [upTo.unique other]
      | blank _ spelled => exact absurd spelled (noText _)
      | text _ spelled => exact absurd spelled (noText _)
  | blank fits spelled blank =>
      cases rightIs with
      | tooLong long => omega
      | invalidText _ noText => exact absurd spelled (noText _)
      | blank => rfl
      | text _ other filled =>
          obtain ⟨c, member, notBlank⟩ := filled
          rw [Utf8.encode_injective (other.trans spelled.symm)] at member
          rw [blank c member] at notBlank
          cases notBlank
  | text fits spelled filled =>
      cases rightIs with
      | tooLong long => omega
      | invalidText _ noText => exact absurd spelled (noText _)
      | blank _ other blank =>
          obtain ⟨c, member, notBlank⟩ := filled
          rw [Utf8.encode_injective (spelled.trans other.symm)] at member
          rw [blank c member] at notBlank
          cases notBlank
      | text _ other => rw [Utf8.encode_injective (spelled.trans other.symm)]

theorem Frame.ofLine_eq_iff {limit : Nat} {line : List UInt8} {answer : Option Frame} :
    ofLine limit line = answer ↔ Frame.IsOf limit (withoutReturn line) answer := by
  constructor
  · intro same
    subst same
    exact Frame.isOf_ofLine limit line
  · exact (Frame.isOf_ofLine limit line).unique

theorem Frame.ofLine_of_long {limit : Nat} {line : List UInt8} (long : limit + 1 < line.length) :
    ofLine limit line = some (.rejected (.tooLong limit)) := by
  have longer : limit < (withoutReturn line).length := by
    unfold withoutReturn
    split
    · rw [List.length_dropLast]
      omega
    · omega
  rw [ofLine, if_pos longer]

namespace LineDecoder

/-!
## A decoder between two reads
-/

/-- The decoder that has read `line`, in which no line ends, and found nothing more to do. -/
def waiting (limit : Nat) (line : List UInt8) : LineDecoder :=
  if line.length ≤ limit + 1 then
    { limit, buffer := line, searched := line.length, discarding := false }
  else { limit, buffer := [], searched := 0, discarding := true }

theorem waiting_nil (limit : Nat) : waiting limit [] = fresh limit := by
  simp [waiting, fresh]

theorem waiting_of_short {limit : Nat} {line : List UInt8} (short : line.length ≤ limit + 1) :
    waiting limit line = { limit, buffer := line, searched := line.length, discarding := false } :=
  if_pos short

theorem waiting_of_long {limit : Nat} {line : List UInt8} (long : limit + 1 < line.length) :
    waiting limit line = { limit, buffer := [], searched := 0, discarding := true } :=
  if_neg (by omega)

/-- A search that goes on behind the bytes already searched finds what a search from the front
would find. -/
private theorem lineEnd?_eq {decoder : LineDecoder} (line more : List UInt8)
    (buffer : decoder.buffer = line ++ more) (searched : decoder.searched = line.length) :
    decoder.lineEnd? = (more.findIdx? (· == Frame.lineEnd)).map (line.length + ·) := by
  rw [lineEnd?, buffer, searched, List.drop_left]

private theorem findIdx?_lineEnd {front : List UInt8} (absent : Frame.lineEnd ∉ front)
    (rest : List UInt8) :
    (front ++ Frame.lineEnd :: rest).findIdx? (· == Frame.lineEnd) = some front.length := by
  have here : front.findIdx? (· == Frame.lineEnd) = none := by
    rw [List.findIdx?_eq_none_iff]
    intro byte member
    simpa using fun same : byte = Frame.lineEnd => absent (same ▸ member)
  rw [List.findIdx?_append, here, List.findIdx?_cons]
  simp

private theorem findIdx?_eq_none {bytes : List UInt8} (absent : Frame.lineEnd ∉ bytes) :
    bytes.findIdx? (· == Frame.lineEnd) = none := by
  rw [List.findIdx?_eq_none_iff]
  intro byte member
  simpa using fun same : byte = Frame.lineEnd => absent (same ▸ member)

private theorem next_of_lineEnd?_eq_none {decoder : LineDecoder}
    (ended : decoder.lineEnd? = none) :
    decoder.next =
      if decoder.discarding then (none, { decoder with buffer := [], searched := 0 })
      else if decoder.limit + 1 < decoder.buffer.length then
        (none, { decoder with buffer := [], searched := 0, discarding := true })
      else (none, { decoder with searched := decoder.buffer.length }) := by
  rw [next]
  split
  next => rfl
  next place found =>
    rw [ended] at found
    cases found

private theorem next_of_lineEnd?_eq_some {decoder : LineDecoder} {place : Nat}
    (ended : decoder.lineEnd? = some place) :
    decoder.next =
      if decoder.discarding then
        (some (.rejected (.tooLong decoder.limit)), decoder.behind place)
      else
        match Frame.ofLine decoder.limit (decoder.buffer.take place) with
        | some frame => (some frame, decoder.behind place)
        | none => (decoder.behind place).next := by
  rw [next]
  split
  next found =>
    rw [ended] at found
    cases found
  next other found =>
    obtain rfl := Option.some.inj (ended.symm.trans found)
    rfl

/-- Bytes that end no line leave a decoder that waits for the rest of the longer line. -/
theorem next_push_of_not_mem (limit : Nat) (line : List UInt8) {more : List UInt8}
    (absent : Frame.lineEnd ∉ more) :
    ((waiting limit line).push more).next = (none, waiting limit (line ++ more)) := by
  have nothing := findIdx?_eq_none absent
  by_cases short : line.length ≤ limit + 1
  · rw [waiting_of_short short, next_of_lineEnd?_eq_none
      (by rw [lineEnd?_eq line more rfl rfl, nothing, Option.map_none])]
    by_cases long : limit + 1 < (line ++ more).length
    · rw [waiting_of_long long]
      simp only [push, Bool.false_eq_true, ↓reduceIte]
      exact if_pos long
    · rw [waiting_of_short (Nat.le_of_not_lt long)]
      simp only [push, Bool.false_eq_true, ↓reduceIte]
      exact if_neg long
  · have long : limit + 1 < line.length := by omega
    have longer : limit + 1 < (line ++ more).length := by
      rw [List.length_append]
      omega
    rw [waiting_of_long long, waiting_of_long longer, next_of_lineEnd?_eq_none
      (by rw [lineEnd?_eq [] more rfl rfl, nothing, Option.map_none])]
    rfl

/-- The end of a line gives what the whole line is, and the decoder goes on behind it. -/
theorem next_push_line (limit : Nat) (line : List UInt8) {front : List UInt8}
    (absent : Frame.lineEnd ∉ front) (rest : List UInt8) :
    ((waiting limit line).push (front ++ Frame.lineEnd :: rest)).next =
      match Frame.ofLine limit (line ++ front) with
      | some frame => (some frame, (waiting limit []).push rest)
      | none => ((waiting limit []).push rest).next := by
  have found := findIdx?_lineEnd absent rest
  rw [waiting_nil]
  by_cases short : line.length ≤ limit + 1
  · have shape : line ++ (front ++ Frame.lineEnd :: rest) =
        (line ++ front) ++ Frame.lineEnd :: rest := by rw [List.append_assoc]
    have ended : lineEnd? ((waiting limit line).push (front ++ Frame.lineEnd :: rest)) =
        some (line ++ front).length := by
      rw [waiting_of_short short, lineEnd?_eq line _ rfl rfl, found, Option.map_some,
        List.length_append]
    rw [next_of_lineEnd?_eq_some ended, waiting_of_short short]
    simp only [push, behind, fresh, Bool.false_eq_true, ↓reduceIte, shape, List.take_left,
      List.nil_append, ← List.drop_drop, List.drop_left, List.drop_succ_cons, List.drop_zero]
  · have long : limit + 1 < line.length := by omega
    have ended : lineEnd? ((waiting limit line).push (front ++ Frame.lineEnd :: rest)) =
        some front.length := by
      rw [waiting_of_long long, lineEnd?_eq [] (front ++ Frame.lineEnd :: rest) rfl rfl, found,
        Option.map_some, List.length_nil, Nat.zero_add]
    rw [Frame.ofLine_of_long (by rw [List.length_append]; omega),
      next_of_lineEnd?_eq_some ended, waiting_of_long long]
    simp only [push, behind, fresh, ↓reduceIte, List.nil_append, ← List.drop_drop,
      List.drop_left, List.drop_succ_cons, List.drop_zero]

/-!
## All frames of a read
-/

private theorem drain_of_next_eq_none {decoder later : LineDecoder}
    (nothing : decoder.next = (none, later)) : decoder.drain = ([], later) := by
  rw [drain]
  split
  next other found =>
    obtain ⟨-, rfl⟩ := Prod.mk.inj (nothing.symm.trans found)
    rfl
  next frame other found =>
    rw [nothing] at found
    cases found

private theorem drain_of_next_eq_some {decoder later : LineDecoder} {frame : Frame}
    (given : decoder.next = (some frame, later)) :
    decoder.drain = (frame :: later.drain.1, later.drain.2) := by
  rw [drain]
  split
  next other found =>
    rw [given] at found
    cases found
  next other last found =>
    obtain ⟨same, rfl⟩ := Prod.mk.inj (given.symm.trans found)
    rw [Option.some.inj same]

private theorem drain_congr {left right : LineDecoder} (same : left.next = right.next) :
    left.drain = right.drain := by
  cases found : right.next with
  | mk frame later =>
      cases frame with
      | none => rw [drain_of_next_eq_none found, drain_of_next_eq_none (same.trans found)]
      | some frame => rw [drain_of_next_eq_some found, drain_of_next_eq_some (same.trans found)]

private theorem drain_push_line (limit : Nat) (line : List UInt8) {front : List UInt8}
    (absent : Frame.lineEnd ∉ front) (rest : List UInt8) :
    ((waiting limit line).push (front ++ Frame.lineEnd :: rest)).drain =
      ((Frame.ofLine limit (line ++ front)).toList ++ ((waiting limit []).push rest).drain.1,
        ((waiting limit []).push rest).drain.2) := by
  have step := next_push_line limit line absent rest
  cases given : Frame.ofLine limit (line ++ front) with
  | none =>
      rw [given] at step
      rw [drain_congr step]
      rfl
  | some frame =>
      rw [given] at step
      rw [drain_of_next_eq_some step]
      rfl

/-- More bytes give the lines that they complete, and the decoder waits for the rest of the last
one. -/
theorem feed_waiting (limit : Nat) (line : List UInt8) (absent : Frame.lineEnd ∉ line)
    (bytes : List UInt8) :
    ∃ complete last, pieces Frame.lineEnd (line ++ bytes) = complete ++ [last] ∧
      (waiting limit line).feed bytes =
        (complete.filterMap (Frame.ofLine limit), waiting limit last) := by
  rcases exists_first_piece Frame.lineEnd bytes with none | ⟨front, rest, shape, inLine⟩
  · have absentBoth : Frame.lineEnd ∉ line ++ bytes := by simp [absent, none]
    refine ⟨[], line ++ bytes, pieces_of_not_mem absentBoth, ?_⟩
    exact drain_of_next_eq_none (next_push_of_not_mem limit line none)
  · obtain ⟨complete, last, cut, fed⟩ :=
      feed_waiting limit [] (by simp) rest
    unfold feed at fed
    refine ⟨(line ++ front) :: complete, last, ?_, ?_⟩
    · rw [shape, ← List.append_assoc, pieces_append_cons (by simp [absent, inLine]),
        List.cons_append, ← cut, List.nil_append]
    · rw [shape, feed, drain_push_line limit line inLine, fed, List.filterMap_cons]
      cases Frame.ofLine limit (line ++ front) <;> rfl
  termination_by bytes.length
  decreasing_by
    rw [shape, List.length_append, List.length_cons]
    omega

/-!
## The end of a stream
-/

private theorem drainAtEnd_of_nextAtEnd_eq_none {decoder later : LineDecoder}
    (nothing : decoder.nextAtEnd = (none, later)) : decoder.drainAtEnd = [] := by
  rw [drainAtEnd]
  split
  next => rfl
  next frame other found =>
    rw [nothing] at found
    cases found

private theorem drainAtEnd_of_nextAtEnd_eq_some {decoder later : LineDecoder} {frame : Frame}
    (given : decoder.nextAtEnd = (some frame, later)) :
    decoder.drainAtEnd = frame :: later.drainAtEnd := by
  rw [drainAtEnd]
  split
  next other found =>
    rw [given] at found
    cases found
  next other last found =>
    obtain ⟨same, rfl⟩ := Prod.mk.inj (given.symm.trans found)
    rw [Option.some.inj same]

/-- The line that has begun is given as a whole, and the decoder is as before the first byte. -/
theorem nextAtEnd_waiting (limit : Nat) (line : List UInt8) :
    (waiting limit line).nextAtEnd = (Frame.ofLine limit line, fresh limit) := by
  have step := next_push_of_not_mem limit line (List.not_mem_nil (a := Frame.lineEnd))
  have same : (waiting limit line).push [] = waiting limit line := by simp [push]
  rw [List.append_nil, same] at step
  rw [nextAtEnd, step]
  by_cases short : line.length ≤ limit + 1
  · rw [waiting_of_short short]
    rfl
  · have long : limit + 1 < line.length := by omega
    rw [waiting_of_long long, Frame.ofLine_of_long long]
    rfl

theorem drainAtEnd_waiting (limit : Nat) (line : List UInt8) :
    (waiting limit line).drainAtEnd = (Frame.ofLine limit line).toList := by
  have step := nextAtEnd_waiting limit line
  cases given : Frame.ofLine limit line with
  | none =>
      rw [given] at step
      exact drainAtEnd_of_nextAtEnd_eq_none step
  | some frame =>
      rw [given] at step
      have ended := nextAtEnd_waiting limit []
      rw [waiting_nil, Frame.ofLine_nil] at ended
      rw [drainAtEnd_of_nextAtEnd_eq_some step, drainAtEnd_of_nextAtEnd_eq_none ended]
      rfl

theorem framesOf_eq_filterMap (limit : Nat) (stream : List UInt8) :
    framesOf limit stream =
      (pieces Frame.lineEnd stream).filterMap (Frame.ofLine limit) := by
  rw [framesOf]
  split
  next ended =>
    obtain ⟨complete, cut⟩ := List.getLast?_eq_some_iff.mp ended
    rw [cut, List.dropLast_concat, List.filterMap_append]
    simp [Frame.ofLine_nil]
  next => rfl

/-!
## The parts of a stream
-/

/-- The frames that the parts of a stream complete, one part after the other. -/
def feedAll (decoder : LineDecoder) : List (List UInt8) → List Frame × LineDecoder
  | [] => ([], decoder)
  | part :: rest =>
      let (frames, later) := decoder.feed part
      let (more, last) := later.feedAll rest
      (frames ++ more, last)

/-- After any parts, the decoder waits for the rest of the last line of all that has arrived. -/
theorem feedAll_waiting (limit : Nat) (line : List UInt8) (absent : Frame.lineEnd ∉ line)
    (parts : List (List UInt8)) :
    ∃ complete last, pieces Frame.lineEnd (line ++ parts.flatten) = complete ++ [last] ∧
      (waiting limit line).feedAll parts =
        (complete.filterMap (Frame.ofLine limit), waiting limit last) := by
  induction parts generalizing line with
  | nil => exact ⟨[], line, by simp [pieces_of_not_mem absent], rfl⟩
  | cons part rest ih =>
      obtain ⟨before, middle, cut, fed⟩ := feed_waiting limit line absent part
      have open_ : Frame.lineEnd ∉ middle :=
        not_mem_of_mem_pieces (by rw [cut]; simp)
      obtain ⟨after, last, cutRest, fedRest⟩ := ih middle open_
      refine ⟨before ++ after, last, ?_, ?_⟩
      · rw [List.flatten_cons, ← List.append_assoc, pieces_append cut, cutRest, List.append_assoc]
      · rw [feedAll, fed]
        simp only
        rw [fedRest, List.filterMap_append]

/-- The decoders that come up while a stream is read with a limit. -/
inductive Reading (limit : Nat) : LineDecoder → Prop
  | fresh : Reading limit (.fresh limit)
  | push {decoder : LineDecoder} (bytes : List UInt8) :
      Reading limit decoder → Reading limit (decoder.push bytes)
  | next {decoder : LineDecoder} : Reading limit decoder → Reading limit decoder.next.2
  | nextAtEnd {decoder : LineDecoder} : Reading limit decoder → Reading limit decoder.nextAtEnd.2

private theorem limit_next (decoder : LineDecoder) : decoder.next.2.limit = decoder.limit := by
  fun_induction next decoder with
  | case6 decoder place ended keeping line ih => exact ih
  | _ => rfl

private theorem limit_nextAtEnd (decoder : LineDecoder) :
    decoder.nextAtEnd.2.limit = decoder.limit := by
  have kept := limit_next decoder
  unfold nextAtEnd
  split
  next frame later given => rwa [given] at kept
  next later nothing =>
    rw [nothing] at kept
    split <;> exact kept

theorem Reading.limit_eq {limit : Nat} {decoder : LineDecoder} (reading : Reading limit decoder) :
    decoder.limit = limit := by
  induction reading with
  | fresh => rfl
  | push bytes _ ih => exact ih
  | next _ ih => rw [limit_next, ih]
  | nextAtEnd _ ih => rw [limit_nextAtEnd, ih]

private theorem length_of_next_eq_none {decoder later : LineDecoder}
    (nothing : decoder.next = (none, later)) : later.buffer.length ≤ decoder.limit + 1 := by
  fun_induction next decoder with
  | case1 decoder ended discarding =>
      obtain ⟨_, rfl⟩ := Prod.mk.inj nothing
      simp
  | case2 decoder ended keeping long =>
      obtain ⟨_, rfl⟩ := Prod.mk.inj nothing
      simp
  | case3 decoder ended keeping short =>
      obtain ⟨_, rfl⟩ := Prod.mk.inj nothing
      exact Nat.le_of_not_lt short
  | case4 => simp at nothing
  | case5 => simp at nothing
  | case6 decoder place ended keeping line ih => exact ih nothing

private theorem length_of_nextAtEnd_eq_none {decoder later : LineDecoder}
    (nothing : decoder.nextAtEnd = (none, later)) : later.buffer = [] := by
  unfold nextAtEnd at nothing
  split at nothing
  next => cases nothing
  next =>
    split at nothing
    · cases nothing
    · obtain ⟨-, rfl⟩ := Prod.mk.inj nothing
      rfl

/-- Wherever a stream is cut into parts, its frames are those of its lines one by one, where a
line is what `Frame.IsOf` says. No call that finds nothing leaves more than one byte above the
limit in the buffer. -/
theorem frames_independent_of_cuts (limit : Nat) (parts : List (List UInt8)) :
    ((fresh limit).feedAll parts).1 ++ ((fresh limit).feedAll parts).2.drainAtEnd =
      framesOf limit parts.flatten ∧
    (∀ line answer, Frame.ofLine limit line = answer ↔
      Frame.IsOf limit (Frame.withoutReturn line) answer) ∧
    ∀ decoder, Reading limit decoder → ∀ later,
      decoder.next = (none, later) ∨ decoder.nextAtEnd = (none, later) →
        later.buffer.length ≤ limit + 1 := by
  refine ⟨?_, fun line answer => Frame.ofLine_eq_iff, ?_⟩
  · obtain ⟨complete, last, cut, fed⟩ :=
      feedAll_waiting limit [] (by simp) parts
    rw [waiting_nil] at fed
    rw [List.nil_append] at cut
    rw [fed, framesOf_eq_filterMap, cut, List.filterMap_append, List.filterMap_cons]
    simp only
    rw [drainAtEnd_waiting]
    cases Frame.ofLine limit last <;> rfl
  · intro decoder reading later ended
    rcases ended with nothing | nothing
    · rw [← reading.limit_eq]
      exact length_of_next_eq_none nothing
    · rw [length_of_nextAtEnd_eq_none nothing]
      exact Nat.zero_le _

/-- A line at the limit, cut before its last letter and between its return and its line break. -/
theorem frames_cut_before_line_break :
    ((fresh 4).feedAll [[0x61, 0x62, 0x63], [0x64, 0x0D], [0x0A]]).1 ++
        ((fresh 4).feedAll [[0x61, 0x62, 0x63], [0x64, 0x0D], [0x0A]]).2.drainAtEnd =
      [.text "abcd"] ∧
    Reading 4 ((fresh 4).push [0x61, 0x62, 0x63, 0x64, 0x0D]) ∧
    ((fresh 4).push [0x61, 0x62, 0x63, 0x64, 0x0D]).next =
      (none, waiting 4 [0x61, 0x62, 0x63, 0x64, 0x0D]) ∧
    (waiting 4 [0x61, 0x62, 0x63, 0x64, 0x0D]).buffer.length ≤ 4 + 1 := by
  obtain ⟨frames, report, bound⟩ :=
    frames_independent_of_cuts 4 [[0x61, 0x62, 0x63], [0x64, 0x0D], [0x0A]]
  have line : Frame.ofLine 4 [0x61, 0x62, 0x63, 0x64, 0x0D] = some (.text "abcd") :=
    (report _ _).mpr (.text (by decide) (by decide) ⟨'a', by decide, by decide⟩)
  have reading : Reading 4 ((fresh 4).push [0x61, 0x62, 0x63, 0x64, 0x0D]) := .push _ .fresh
  have absent : Frame.lineEnd ∉ [0x61, 0x62, 0x63, 0x64, 0x0D] := by decide
  have nothing := next_push_of_not_mem 4 [] absent
  rw [waiting_nil] at nothing
  refine ⟨?_, reading, nothing, bound _ reading _ (.inl nothing)⟩
  have cut : pieces Frame.lineEnd [0x61, 0x62, 0x63, 0x64, 0x0D, 0x0A] =
      [[0x61, 0x62, 0x63, 0x64, 0x0D], []] := by decide
  simp only [List.flatten_cons, List.flatten_nil, List.cons_append, List.nil_append] at frames
  rw [frames, framesOf_eq_filterMap, cut, List.filterMap_cons, line]
  simp [Frame.ofLine_nil]

end LineDecoder

end GraphStore
