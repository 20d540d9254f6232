import GraphStore.Proofs.Json.Responses
import GraphStore.Proofs.Server.Progress
import GraphStore.Proofs.Success
import GraphStore.Proofs.Wire.Frames

/-!
# Queries and their responses over the wire

A client sends queries and receives responses, and both streams may be cut anywhere on their way. Main
statement: in whatever order the parts of the server move, the responses that a client receives are
those to its queries, one for each query that is not blank and in the order of the queries.
-/

set_option autoImplicit false

namespace GraphStore

open Text

/-!
## Texts as lines
-/

namespace Frame

variable {limit : Nat} {text : String}

/-- What arrives of a text that was sent: a return at its end belongs to the end of the line. -/
def received (text : String) : String :=
  if text.toList.getLast? = some '\r' then String.ofList text.toList.dropLast else text

theorem withoutReturn_encode (text : String) :
    withoutReturn (Utf8.encode text) = Utf8.encode (received text) := by
  rcases List.eq_nil_or_concat' text.toList with none | ⟨front, last, shape⟩
  · obtain rfl := String.toList_eq_nil_iff.mp none
    rfl
  · have encoded : Utf8.encode text = front.flatMap String.utf8EncodeChar ++
        String.utf8EncodeChar last := by simp [Utf8.encode, shape]
    by_cases ended : last = '\r'
    · subst ended
      have code : String.utf8EncodeChar '\r' = [carriageReturn] := by decide
      rw [withoutReturn, received, encoded, code, shape]
      simp [Utf8.encode]
    · have notEnded : (Utf8.encode text).getLast? ≠ some carriageReturn := by
        rw [encoded, List.getLast?_append_of_ne_nil _ String.utf8EncodeChar_ne_nil]
        intro ends
        have same := Utf8.toNat_eq_of_mem_encodeChar (List.mem_of_getLast? ends) (by decide)
        exact ended (Char.toNat_inj.mp same)
      rw [withoutReturn, if_neg notEnded, received, shape]
      simp [ended]

/-- What a line is that was sent as a text. -/
theorem ofLine_encode (limit : Nat) (text : String) :
    ofLine limit (Utf8.encode text) =
      if limit < Utf8.size (received text) then some (.rejected (.tooLong limit))
      else if isAllBlank (received text) then none else some (.text (received text)) := by
  rw [ofLine, withoutReturn_encode]
  simp only [Utf8.decode_encode]
  rfl

theorem size_received_le (text : String) : Utf8.size (received text) ≤ Utf8.size text := by
  rw [Utf8.size, ← withoutReturn_encode, withoutReturn]
  split
  · rw [List.length_dropLast]
    exact Nat.sub_le _ _
  · exact Nat.le_refl _

theorem isAllBlank_received (filled : isAllBlank text = false) :
    isAllBlank (received text) = false := by
  rw [received]
  split
  next ended =>
    obtain ⟨front, shape⟩ := List.getLast?_eq_some_iff.mp ended
    have blank : isBlank '\r' = true := by decide
    simpa [isAllBlank, shape, blank] using filled
  · exact filled

theorem ofLine_encode_of_filled (fits : Utf8.size text ≤ limit) (filled : isAllBlank text = false) :
    ofLine limit (Utf8.encode text) = some (.text (received text)) := by
  rw [ofLine_encode, if_neg (Nat.not_lt.mpr (Nat.le_trans (size_received_le text) fits)),
    isAllBlank_received filled, if_neg Bool.false_ne_true]

theorem lineEnd_not_mem_encode (oneLine : '\n' ∉ text.toList) : lineEnd ∉ Utf8.encode text := by
  intro member
  obtain ⟨c, inText, same⟩ := Utf8.exists_of_mem_encode member (by decide)
  have isBreak : c = '\n' := Char.toNat_inj.mp same
  exact oneLine (isBreak ▸ inText)

theorem encode_eq_ok_iff {bytes : List UInt8} :
    encode text = .ok bytes ↔ '\n' ∉ text.toList ∧ bytes = Utf8.encode text ++ [lineEnd] := by
  by_cases broken : '\n' ∈ text.toList
  · simp [encode, broken]
  · simp [encode, broken, eq_comm]

end Frame

/-- The bytes of some texts, each on a line of its own. -/
def linesOf (texts : List String) : List UInt8 :=
  texts.flatMap fun text => Utf8.encode text ++ [Frame.lineEnd]

namespace LineDecoder

variable {limit : Nat} {texts : List String} {parts : List (List UInt8)}

theorem frames_feedAll_fresh (limit : Nat) (parts : List (List UInt8)) :
    ((fresh limit).feedAll parts).1 =
      (pieces Frame.lineEnd parts.flatten).dropLast.filterMap (Frame.ofLine limit) := by
  obtain ⟨complete, last, cut, fed⟩ := feedAll_waiting limit [] (by simp) parts
  rw [waiting_nil] at fed
  rw [List.nil_append] at cut
  rw [fed, cut, List.dropLast_concat]

/-- Every text comes as a frame, if it is not too long or blank. -/
theorem frames_of_linesOf (oneLine : ∀ text ∈ texts, '\n' ∉ text.toList)
    (whole : parts.flatten = linesOf texts) :
    ((fresh limit).feedAll parts).1 =
      texts.filterMap fun text => Frame.ofLine limit (Utf8.encode text) := by
  have lines : linesOf texts = (texts.map Utf8.encode).flatMap (· ++ [Frame.lineEnd]) := by
    rw [linesOf, List.flatMap_map]
  have absent : ∀ line ∈ texts.map Utf8.encode, Frame.lineEnd ∉ line :=
    List.forall_mem_map.mpr fun text member => Frame.lineEnd_not_mem_encode (oneLine text member)
  rw [frames_feedAll_fresh, whole, lines, pieces_flatMap absent, List.dropLast_concat,
    List.filterMap_map]
  rfl

theorem frames_prefix_of_linesOf (oneLine : ∀ text ∈ texts, '\n' ∉ text.toList)
    (front : parts.flatten <+: linesOf texts) :
    ((fresh limit).feedAll parts).1 <+:
      texts.filterMap fun text => Frame.ofLine limit (Utf8.encode text) := by
  obtain ⟨rest, whole⟩ := front
  have all : (parts ++ [rest]).flatten = linesOf texts := by simpa using whole
  rw [← frames_of_linesOf oneLine all, frames_feedAll_fresh, frames_feedAll_fresh,
    List.flatten_append]
  exact (prefix_dropLast_pieces _ _ _).filterMap _

end LineDecoder

/-!
## What a client sends and receives
-/

namespace Client

variable {queries : List String} {lines : List (List UInt8)} {response : Response}

theorem send_eq_ok_iff {query : String} {line : List UInt8} :
    send query = .ok line ↔ '\n' ∉ query.toList ∧ line = Utf8.encode query ++ [Frame.lineEnd] := by
  rw [← Frame.encode_eq_ok_iff, send]
  cases Frame.encode query <;> simp [Except.mapError]

theorem flatten_of_send (sent : queries.mapM send = .ok lines) :
    (∀ query ∈ queries, '\n' ∉ query.toList) ∧ lines.flatten = linesOf queries := by
  have each := forall₂_of_mapM_eq_ok sent
  clear sent
  induction each with
  | nil => exact ⟨nofun, rfl⟩
  | cons first _ ih =>
      obtain ⟨oneLine, rfl⟩ := send_eq_ok_iff.mp first
      obtain ⟨oneLines, flat⟩ := ih
      refine ⟨List.forall_mem_cons.mpr ⟨oneLine, oneLines⟩, ?_⟩
      rw [List.flatten_cons, flat]
      rfl

/-- The result of a read where a response was sent: the response, or a fault if its line is too long
for the client. -/
def outcome (response : Response) : Except ClientFault Response :=
  if responseLimit < Utf8.size response.line then .error (.frame (.tooLong responseLimit))
  else .ok response

/-- The results of the reads of a stream that arrives in parts. -/
def received (parts : List (List UInt8)) : List (Except ClientFault Response) :=
  ((LineDecoder.fresh responseLimit).feedAll parts).1.map read

/-- A response is sent as one line, which arrives as a frame or is too long for the client. -/
theorem read_ofLine_line (readable : response.IsReadable) :
    (Frame.ofLine responseLimit (Utf8.encode response.line)).map read = some (outcome response) := by
  obtain ⟨printed, reads⟩ := readable.read_line
  have oneLine : Frame.received response.line = response.line := by
    rw [Frame.received, if_neg]
    intro ended
    exact absurd (printed _ (List.mem_of_getLast? ended)) (by decide)
  have filled : isAllBlank response.line = false := by
    have notBlank : isBlank '{' = false := by decide
    simp [isAllBlank, Response.line, Json.render, Response.toJson, Json.ofMembers, Json.characters,
      notBlank]
  rw [Frame.ofLine_encode, oneLine, outcome]
  split
  · rfl
  · rw [filled, if_neg Bool.false_ne_true, Option.map_some, reads]

variable {responses : List Response} {replies : List (List UInt8)}

theorem lines_of_responses (readable : ∀ response ∈ responses, response.IsReadable) :
    (∀ text ∈ responses.map Response.line, '\n' ∉ text.toList) ∧
      responses.flatMap reply = linesOf (responses.map Response.line) := by
  have each : ∀ response ∈ responses, '\n' ∉ response.line.toList := fun response member broken =>
    absurd ((readable response member).read_line.1 _ broken) (by decide)
  refine ⟨List.forall_mem_map.mpr each, ?_⟩
  rw [linesOf, List.flatMap_map]
  refine List.flatMap_congr fun response member => ?_
  rw [reply, Frame.encode_eq_ok_iff.mpr ⟨each response member, rfl⟩]
  rfl

theorem map_read_frames (readable : ∀ response ∈ responses, response.IsReadable) :
    ((responses.map Response.line).filterMap fun text =>
      Frame.ofLine responseLimit (Utf8.encode text)).map read = responses.map outcome := by
  rw [List.map_filterMap, List.filterMap_map, ← List.filterMap_eq_map]
  refine List.filterMap_congr fun response member => ?_
  rw [Function.comp_apply, Function.comp_apply, read_ofLine_line (readable response member)]

/-- Responses are received in the order in which they were sent. -/
theorem received_eq (readable : ∀ response ∈ responses, response.IsReadable)
    (whole : replies.flatten = responses.flatMap reply) :
    received replies = responses.map outcome := by
  obtain ⟨oneLine, lines⟩ := lines_of_responses readable
  rw [lines] at whole
  rw [received, LineDecoder.frames_of_linesOf oneLine whole, map_read_frames readable]

theorem prefix_received (readable : ∀ response ∈ responses, response.IsReadable)
    (front : replies.flatten <+: responses.flatMap reply) :
    received replies <+: responses.map outcome := by
  obtain ⟨oneLine, lines⟩ := lines_of_responses readable
  rw [lines] at front
  rw [received, ← map_read_frames readable]
  exact (LineDecoder.frames_prefix_of_linesOf oneLine front).map _

/-!
## The main statement
-/

open ServerState

variable {σ : Type} {service : Service σ} {store : σ} {capacity limit place : Nat}
  {frames : Nat → List Frame} {state : ServerState σ} {connection : Connection}
  {parts : List (List UInt8)}

theorem filterMap_ofLine_encode (fits : ∀ query ∈ queries, Utf8.size query ≤ limit)
    (filled : ∀ query ∈ queries, isAllBlank query = false) :
    (queries.filterMap fun query => Frame.ofLine limit (Utf8.encode query)) =
      queries.map fun query => .text (Frame.received query) := by
  rw [← List.filterMap_eq_map]
  refine List.filterMap_congr fun query member => ?_
  rw [Function.comp_apply, Frame.ofLine_encode_of_filled (fits query member) (filled query member)]

theorem exists_execute_of_mem {service : Service σ} {jobs : List Job} {job : Job}
    (member : (job, response) ∈ (service.executeAll store jobs).1) :
    ∃ store, response = (service.execute job.query store).1 := by
  induction jobs generalizing store with
  | nil => cases member
  | cons first rest ih =>
      rcases List.mem_cons.mp member with same | behind
      · obtain ⟨rfl, rfl⟩ := Prod.mk.inj same
        exact ⟨store, rfl⟩
      · exact ih behind

/-- Each response that a connection has sent is the one to the query with its number. -/
theorem exists_query_of_written (reaches : Reaches service store capacity frames state)
    (stands : state.connections[place]? = some connection)
    (texts : frames place <+: queries.map fun query => .text (Frame.received query))
    {number : Nat} (sends : connection.written[number]? = some response) :
    ∃ query, queries[number]? = some query ∧
      (service.executeAll store state.queue.started).1.lookup
        ⟨place, number, service.queryOf (Frame.received query)⟩ = some response := by
  obtain ⟨inside, isResponse⟩ := List.getElem?_eq_some_iff.mp sends
  have answered := List.prefix_iff_getElem?.mp (reaches.written_prefix_answers stands) number
    (by rwa [List.length_map])
  rw [List.getElem_map, isResponse, Service.getElem?_answers] at answered
  obtain ⟨frame, stands, answer⟩ := Option.map_eq_some_iff.mp answered
  obtain ⟨isRead, isFrame⟩ := List.getElem?_eq_some_iff.mp stands
  have isText := List.prefix_iff_getElem?.mp texts number isRead
  rw [isFrame, List.getElem?_map] at isText
  obtain ⟨query, isQuery, rfl⟩ := Option.map_eq_some_iff.mp isText
  exact ⟨query, isQuery, answer⟩

/-- The responses that a client receives are those to its queries, in the order of the queries. None
of them is left out once all has arrived and nothing moves on the server any more. -/
theorem receives_in_order (sent : queries.mapM send = .ok lines)
    (fits : ∀ query ∈ queries, Utf8.size query ≤ limit)
    (filled : ∀ query ∈ queries, isAllBlank query = false)
    (readable : ∀ query ∈ queries, ∀ store,
      (service.execute (service.queryOf (Frame.received query)) store).1.IsReadable)
    (arrived : parts.flatten <+: lines.flatten)
    (decoded : frames place = ((LineDecoder.fresh limit).feedAll parts).1)
    (reaches : Reaches service store capacity frames state) (room : 0 < capacity)
    (stands : state.connections[place]? = some connection)
    (replied : replies.flatten <+: connection.written.flatMap reply) :
    frames place <+: queries.map (fun query => .text (Frame.received query)) ∧
    (∀ number response, connection.written[number]? = some response →
      ∃ query, queries[number]? = some query ∧
        (service.executeAll store state.queue.started).1.lookup
          ⟨place, number, service.queryOf (Frame.received query)⟩ = some response) ∧
    received replies <+: connection.written.map outcome ∧
    (replies.flatten = connection.written.flatMap reply →
      received replies = connection.written.map outcome) ∧
    (parts.flatten = lines.flatten →
      frames place = queries.map (fun query => .text (Frame.received query)) ∧
      (state.IsStill service place → connection.written.length = queries.length)) := by
  obtain ⟨oneLine, flat⟩ := flatten_of_send sent
  have texts : frames place <+: queries.map fun query => .text (Frame.received query) := by
    rw [decoded, ← filterMap_ofLine_encode fits filled]
    exact LineDecoder.frames_prefix_of_linesOf oneLine (flat ▸ arrived)
  have each := fun number response (sends : connection.written[number]? = some response) =>
    exists_query_of_written reaches stands texts sends
  have readableAll : ∀ response ∈ connection.written, response.IsReadable := by
    intro response member
    obtain ⟨number, sends⟩ := List.mem_iff_getElem?.mp member
    obtain ⟨query, isQuery, answer⟩ := each number response sends
    obtain ⟨front, rest, shape, -⟩ := List.lookup_eq_some_iff.mp answer
    obtain ⟨store, rfl⟩ := exists_execute_of_mem (shape ▸ List.mem_append_cons_self)
    exact readable query (List.mem_of_getElem? isQuery) store
  refine ⟨texts, each, prefix_received readableAll replied, received_eq readableAll,
    fun whole => ?_⟩
  have all : frames place = queries.map fun query => .text (Frame.received query) := by
    rw [decoded, LineDecoder.frames_of_linesOf oneLine (whole.trans flat),
      filterMap_ofLine_encode fits filled]
  refine ⟨all, fun still => ?_⟩
  rw [reaches.length_written room stands still, all, List.length_map]

/-- A connection on which two queries have arrived. -/
def twoQueries : ServerState Nat :=
  let connected : ServerState Nat := { (.fresh 0 1 : ServerState Nat) with connections := [{}] }
  (connected.arrive 0 (.text "a")).arrive 0 (.text "b")

theorem twoQueries_receives_in_order :
    received [((twoQueries.settle echo).connectionAt 0).written.flatMap reply] =
      [.ok (.ofSuccess ⟨0, 0⟩ "a\n" none), .ok (.ofSuccess ⟨0, 0⟩ "b\n" none)] := by
  have fits : ∀ query ∈ ["a", "b"], Utf8.size query ≤ 4 := by decide
  have filled : ∀ query ∈ ["a", "b"], isAllBlank query = false := by decide
  have sent : ["a", "b"].mapM send = .ok [[0x61, 0x0A], [0x62, 0x0A]] := by rfl
  have readable : ∀ query ∈ ["a", "b"], ∀ store,
      (echo.execute (echo.queryOf (Frame.received query)) store).1.IsReadable := by
    have time : Timestamp.IsProper ⟨0, 0⟩ := ⟨by decide, .inl (by decide)⟩
    exact fun query _ store => ⟨time, fun _ none => nomatch none⟩
  have cut : [[0x61], [0x0A, 0x62, 0x0A]].flatten = linesOf ["a", "b"] := by decide
  have arrived : [[0x61], [0x0A, 0x62, 0x0A]].flatten <+:
      ([[0x61, 0x0A], [0x62, 0x0A]] : List (List UInt8)).flatten := List.prefix_rfl
  have decoded : ((LineDecoder.fresh 4).feedAll [[0x61], [0x0A, 0x62, 0x0A]]).1 =
      [.text "a", .text "b"] := by
    rw [LineDecoder.frames_of_linesOf (by decide) cut, filterMap_ofLine_encode fits filled]
    decide
  have reaches : Reaches echo 0 1 _ twoQueries :=
    .arrive _ (.arrive _ (.connect .fresh) (by decide)) (by decide)
  have stands : (twoQueries.settle echo).connections[0]? =
      some ((twoQueries.settle echo).connectionAt 0) := by decide +kernel
  have whole := @List.flatten_singleton _
    (((twoQueries.settle echo).connectionAt 0).written.flatMap reply)
  obtain ⟨-, -, -, all, -⟩ := receives_in_order sent fits filled readable
    arrived decoded.symm (reaches.runFor twoQueries.movesLeft) Nat.zero_lt_one stands
    ⟨[], by rw [whole, List.append_nil]⟩
  rw [all whole]
  decide +kernel

/-- A blank text is sent as a line, but no frame arrives. -/
theorem blank_query_is_no_frame :
    send " " = .ok [0x20, 0x0A] ∧ Utf8.size " " ≤ Frame.defaultLimit ∧
      ((LineDecoder.fresh Frame.defaultLimit).feedAll [[0x20, 0x0A]]).1 = [] := by
  have whole : [[0x20, 0x0A]].flatten = linesOf [" "] := by decide
  refine ⟨rfl, by decide, ?_⟩
  rw [LineDecoder.frames_of_linesOf (by decide) whole]
  simp [Frame.ofLine_encode]
  decide

end Client

end GraphStore
