import GraphStore.Bytes.Pieces
import GraphStore.Text.Blank
import GraphStore.Text.Utf8

/-!
# Frames

Queries and responses travel as lines of UTF-8 text. A return before the line break belongs to the
line's end, and blank lines are passed over. A line that is too long or no text is reported in its
place, so that the lines behind it can still be read.
-/

set_option autoImplicit false

namespace GraphStore

open Text

/-- Why a line is no frame. -/
inductive FrameFault where
  | tooLong (limit : Nat)
  /-- The bytes before `index` are text. -/
  | invalidText (index : Nat)
  /-- A text that was to be sent does not stand on one line. -/
  | lineBreak
deriving Repr, DecidableEq

namespace FrameFault

/-- The stable code of a fault. -/
def code : FrameFault → String
  | tooLong _ => "FRAME_TOO_LONG"
  | invalidText _ => "INVALID_UTF8"
  | lineBreak => "EMBEDDED_NEWLINE"

/-- The message of a fault. -/
def message : FrameFault → String
  | tooLong limit => s!"Frame exceeds the maximum length of {limit} bytes"
  | invalidText index => s!"Frame is not valid UTF-8 (valid up to byte {index})"
  | lineBreak => "Frame text contains a line break"

end FrameFault

/-- A line that was received. -/
inductive Frame where
  | text (text : String)
  | rejected (fault : FrameFault)
deriving Repr, DecidableEq

namespace Frame

def lineEnd : UInt8 := 0x0A

/-- The byte that may stand before the end of a line. -/
def carriageReturn : UInt8 := 0x0D

/-- The greatest number of bytes of a frame where nothing else is set. -/
def defaultLimit : Nat := 64 * 1024

/-- A line without the return at its end. -/
def withoutReturn (line : List UInt8) : List UInt8 :=
  if line.getLast? = some carriageReturn then line.dropLast else line

/-- What a line without its end is. A blank one is nothing. -/
def ofLine (limit : Nat) (line : List UInt8) : Option Frame :=
  let line := withoutReturn line
  if limit < line.length then some (.rejected (.tooLong limit))
  else
    match Utf8.decode line with
    | .ok content => if isAllBlank content then none else some (.text content)
    | .error fault => some (.rejected (.invalidText fault.index))

def encode (text : String) : Except FrameFault (List UInt8) :=
  if text.toList.contains '\n' then .error .lineBreak else .ok (Utf8.encode text ++ [lineEnd])

theorem ofLine_nil (limit : Nat) : ofLine limit [] = none := by
  have decoded : Utf8.decode [] = .ok "" := by simp [Utf8.decode, Utf8.decodeFrom]; rfl
  simp [ofLine, withoutReturn, decoded, isAllBlank]

end Frame

/-!
## Decoding a stream
-/

/-- Reads frames from a stream that arrives in parts. -/
structure LineDecoder where
  /-- The greatest number of bytes of a line. -/
  limit : Nat
  /-- The bytes that have arrived and belong to no frame yet. -/
  buffer : List UInt8
  /-- How many bytes at the front of the buffer have been searched for the end of a line. -/
  searched : Nat
  /-- Whether the line that has begun is too long, and its bytes are thrown away. -/
  discarding : Bool
deriving Repr, DecidableEq

namespace LineDecoder

/-- A decoder before the first byte. -/
def fresh (limit : Nat) : LineDecoder := { limit, buffer := [], searched := 0, discarding := false }

/-- The place of the first end of a line behind the bytes that have been searched. -/
def lineEnd? (decoder : LineDecoder) : Option Nat :=
  ((decoder.buffer.drop decoder.searched).findIdx? (· == Frame.lineEnd)).map
    (decoder.searched + ·)

/-- The decoder behind the end of a line at a place in the buffer. -/
def behind (decoder : LineDecoder) (place : Nat) : LineDecoder :=
  { decoder with buffer := decoder.buffer.drop (place + 1), searched := 0, discarding := false }

theorem length_behind {decoder : LineDecoder} {place : Nat}
    (found : decoder.lineEnd? = some place) :
    (decoder.behind place).buffer.length < decoder.buffer.length := by
  obtain ⟨offset, ended, rfl⟩ := Option.map_eq_some_iff.mp found
  obtain ⟨inside, -⟩ := List.findIdx?_eq_some_iff_getElem.mp ended
  rw [List.length_drop] at inside
  simp only [behind, List.length_drop]
  omega

/-- The next frame in the bytes that have arrived. Without the end of a line there is none; a line
that is already too long is then thrown away, where one byte more is kept for a return. -/
def next (decoder : LineDecoder) : Option Frame × LineDecoder :=
  match _found : decoder.lineEnd? with
  | none =>
      if decoder.discarding then (none, { decoder with buffer := [], searched := 0 })
      else if decoder.limit + 1 < decoder.buffer.length then
        (none, { decoder with buffer := [], searched := 0, discarding := true })
      else (none, { decoder with searched := decoder.buffer.length })
  | some place =>
      if decoder.discarding then
        (some (.rejected (.tooLong decoder.limit)), decoder.behind place)
      else
        match Frame.ofLine decoder.limit (decoder.buffer.take place) with
        | some frame => (some frame, decoder.behind place)
        | none => next (decoder.behind place)
  termination_by decoder.buffer.length
  decreasing_by exact length_behind _found

theorem length_next {decoder later : LineDecoder} {frame : Frame}
    (found : decoder.next = (some frame, later)) : later.buffer.length < decoder.buffer.length := by
  fun_induction next decoder with
  | case1 => simp at found
  | case2 => simp at found
  | case3 => simp at found
  | case4 decoder place ended discarding =>
      obtain ⟨_, rfl⟩ := Prod.mk.inj found
      exact length_behind ended
  | case5 decoder place ended keeping given line =>
      obtain ⟨_, rfl⟩ := Prod.mk.inj found
      exact length_behind ended
  | case6 decoder place ended keeping line ih =>
      exact Nat.lt_trans (ih found) (length_behind ended)

def drain (decoder : LineDecoder) : List Frame × LineDecoder :=
  match _found : decoder.next with
  | (none, later) => ([], later)
  | (some frame, later) =>
      let (frames, last) := later.drain
      (frame :: frames, last)
  termination_by decoder.buffer.length
  decreasing_by exact length_next _found

def push (decoder : LineDecoder) (bytes : List UInt8) : LineDecoder :=
  { decoder with buffer := decoder.buffer ++ bytes }

def feed (decoder : LineDecoder) (bytes : List UInt8) : List Frame × LineDecoder :=
  (decoder.push bytes).drain

/-- A bound for the frames that are left where no more bytes arrive. -/
def remaining (decoder : LineDecoder) : Nat :=
  2 * decoder.buffer.length + decoder.discarding.toNat

/-- Where there is no next frame, no byte is added, and a line is thrown away only if it was before
or had bytes. -/
theorem remaining_of_next_eq_none {decoder later : LineDecoder}
    (found : decoder.next = (none, later)) :
    later.buffer.length ≤ decoder.buffer.length ∧
      (later.discarding = true → later.buffer = [] ∧ 0 < decoder.remaining) := by
  fun_induction next decoder with
  | case1 decoder ended discarding =>
      obtain ⟨_, rfl⟩ := Prod.mk.inj found
      simp [remaining, discarding]
  | case2 decoder ended keeping long =>
      obtain ⟨_, rfl⟩ := Prod.mk.inj found
      simp only [List.length_nil, Nat.zero_le, remaining, true_and, forall_const]
      omega
  | case3 decoder ended keeping short =>
      obtain ⟨_, rfl⟩ := Prod.mk.inj found
      exact ⟨Nat.le_refl _, fun discarding => absurd discarding keeping⟩
  | case4 => simp at found
  | case5 => simp at found
  | case6 decoder place ended keeping line ih =>
      have shorter := length_behind ended
      obtain ⟨bound, thrown⟩ := ih found
      refine ⟨Nat.le_trans bound (Nat.le_of_lt shorter), fun discarding => ?_⟩
      refine ⟨(thrown discarding).1, ?_⟩
      unfold remaining
      omega

/-- The next frame where no more bytes arrive. A line without its end is a line nevertheless. -/
def nextAtEnd (decoder : LineDecoder) : Option Frame × LineDecoder :=
  match decoder.next with
  | (some frame, later) => (some frame, later)
  | (none, later) =>
      if later.discarding then
        (some (.rejected (.tooLong later.limit)), { later with discarding := false })
      else (Frame.ofLine later.limit later.buffer, { later with buffer := [], searched := 0 })

theorem remaining_nextAtEnd {decoder later : LineDecoder} {frame : Frame}
    (found : decoder.nextAtEnd = (some frame, later)) : later.remaining < decoder.remaining := by
  unfold nextAtEnd at found
  split at found
  next _ reached heard =>
    obtain ⟨_, rfl⟩ := Prod.mk.inj found
    have shorter := length_next heard
    have := Bool.toNat_le reached.discarding
    unfold remaining
    omega
  next reached heard =>
    obtain ⟨bound, thrown⟩ := remaining_of_next_eq_none heard
    split at found
    next discarding =>
      obtain ⟨_, rfl⟩ := Prod.mk.inj found
      obtain ⟨empty, positive⟩ := thrown discarding
      simpa [remaining, empty] using positive
    next keeping =>
      obtain ⟨line, rfl⟩ := Prod.mk.inj found
      have filled : reached.buffer ≠ [] := fun empty => by
        rw [empty, Frame.ofLine_nil] at line
        cases line
      have := List.length_pos_iff.2 filled
      have kept : reached.discarding = false := by simpa using keeping
      simp only [remaining, List.length_nil, kept, Bool.toNat_false]
      omega

/-- All frames that are left where no more bytes arrive. -/
def drainAtEnd (decoder : LineDecoder) : List Frame :=
  match _found : decoder.nextAtEnd with
  | (none, _) => []
  | (some frame, later) => frame :: later.drainAtEnd
  termination_by decoder.remaining
  decreasing_by exact remaining_nextAtEnd _found

/-!
## The frames of a whole stream
-/

/-- The frames of a stream that is there as a whole: its lines one by one. -/
def framesOf (limit : Nat) (stream : List UInt8) : List Frame :=
  let lines := pieces Frame.lineEnd stream
  (if lines.getLast? = some [] then lines.dropLast else lines).filterMap (Frame.ofLine limit)

end LineDecoder

end GraphStore
