import GraphStore.Proofs.Wire.Exchange

/-!
# Single responses over the wire

Main statement: whatever a response says, it travels as one line, and a client that gets the whole
line, in whatever parts, reads the response from it.
-/

set_option autoImplicit false

namespace GraphStore.Client

open Text

variable {response : Response}

theorem ofLine_line (readable : response.IsReadable)
    (fits : Utf8.size response.line ≤ responseLimit) :
    Frame.ofLine responseLimit (Utf8.encode response.line) = some (.text response.line) := by
  obtain ⟨printed, -⟩ := readable.read_line
  have kept : Frame.received response.line = response.line := by
    rw [Frame.received, if_neg]
    intro ended
    exact absurd (printed _ (List.mem_of_getLast? ended)) (by decide)
  have arrives := read_ofLine_line readable
  rw [Frame.ofLine_encode, kept] at arrives ⊢
  split at arrives
  next long => exact absurd fits (Nat.not_le.mpr long)
  next =>
    split at arrives
    next => cases arrives
    next filled => simp only [Nat.not_lt.mpr fits, filled, if_false, Bool.false_eq_true]

/-- A response is written on one line, which is taken as it is; where the line is not longer than a
client allows, the client gets one frame, however the line is cut, and reads the response from
it. -/
theorem response_travels_as_line (readable : response.IsReadable) :
    '\n' ∉ response.line.toList ∧ response.line.toList.getLast? ≠ some '\r' ∧
    Frame.encode response.line = .ok (Utf8.encode response.line ++ [Frame.lineEnd]) ∧
    (Utf8.size response.line ≤ responseLimit →
      read (.text response.line) = .ok response ∧
      ∀ parts : List (List UInt8), parts.flatten = reply response →
        ((LineDecoder.fresh responseLimit).feedAll parts).1 = [.text response.line] ∧
        received parts = [.ok response]) := by
  obtain ⟨printed, reads⟩ := readable.read_line
  have oneLine : '\n' ∉ response.line.toList := fun broken =>
    absurd (printed _ broken) (by decide)
  have encoded := Frame.encode_eq_ok_iff.mpr ⟨oneLine, rfl⟩
  refine ⟨oneLine, ?_, encoded, fun fits => ⟨reads, fun parts whole => ?_⟩⟩
  · intro ended
    exact absurd (printed _ (List.mem_of_getLast? ended)) (by decide)
  · have line : parts.flatten = linesOf [response.line] := by
      rw [whole, reply, encoded, linesOf, List.flatMap_singleton]
      rfl
    have frames : ((LineDecoder.fresh responseLimit).feedAll parts).1 = [.text response.line] := by
      rw [LineDecoder.frames_of_linesOf (by simpa using oneLine) line, List.filterMap_cons,
        ofLine_line readable fits]
      rfl
    refine ⟨frames, ?_⟩
    rw [received, frames, List.map_singleton, reads]

/-- A response whose texts hold line breaks, quotes and characters beyond 16 bits. -/
def brokenLines : Response :=
  let node : Node :=
    { id := some 7, name := some "\"\\\r\n", labels := ["\x00", "😀\r"],
      properties := [⟨"", .text "\n"⟩, ⟨"k\t", .int (-9223372036854775808)⟩, ⟨"", .bool false⟩],
      relationships := [4294967295, 0] }
  { success := true, message := "\r\n", result := some (.graph (Graph.empty.withNode node)),
    position := some ⟨1, 18446744073709551615⟩, code := some "\n\r", timestamp := ⟨0, 999⟩ }

theorem brokenLines_travels_as_line :
    '\n' ∉ brokenLines.line.toList ∧ Utf8.size brokenLines.line ≤ responseLimit ∧
      received [(reply brokenLines).take 100, (reply brokenLines).drop 100] = [.ok brokenLines] := by
  have readable : brokenLines.IsReadable := by
    refine ⟨⟨by decide +kernel, .inl (by decide)⟩, ?_⟩
    intro position given
    cases given
    exact ⟨by decide, by decide⟩
  have fits : Utf8.size brokenLines.line ≤ responseLimit := by
    rw [Utf8.size, Utf8.encode, Response.line, Json.render, String.toList_ofList]
    decide +kernel
  obtain ⟨oneLine, -, -, arrives⟩ := response_travels_as_line readable
  refine ⟨oneLine, fits, ((arrives fits).2 _ ?_).2⟩
  simp

end GraphStore.Client
