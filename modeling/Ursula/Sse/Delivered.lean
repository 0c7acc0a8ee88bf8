import Ursula.Sse.Rendered

/-!
# What a session delivers

A client that reads the body of a session sees one `control` event for each served read, with at
most one `data` event before it, and at most one `error` event, which is the last: no byte of a
payload makes another event or field. On a base64 stream the decoded data of a read is exactly the
bytes of the stream between two offsets. On a text stream it is when no line of the payload begins
with a space, which the client strips, and when every read begins with a whole code point; a read
that begins inside one is sent with U+FFFD in its place.

## Main definitions

* `Served`, `Serves`: what the stream may answer a session's reads with
* `Delivery`, `deliveries`, `failure`: the reads a session sent, and the error it ended with
* `Exact`: the decoded data of each read is the stream's bytes between two offsets

## Main results

* `parse_body`: the events of a session's body
* `session_delivers_bytes`: a session delivers the stream's bytes exactly
-/

namespace Ursula.Sse

open List EventStream SseState

/-! ## Sessions and their reads -/

/-- One iteration: what the stream holds at the read, and the answer. -/
structure Round where
  held : Bytes
  answer : Except ErrorBody ReadStreamResponse

/-- A read of at most `maxLen` bytes of what a stream holds at the session's offset. -/
structure Served (state : SseState) (held : Bytes) (read : ReadStreamResponse) : Prop where
  offset : read.offset = state.offset
  payload : read.payload <+: held.drop state.offset
  length : read.payload.length ≤ state.maxLen
  nonempty : state.offset < held.length → read.payload ≠ []
  nextOffset : read.nextOffset = state.offset + read.payload.length
  word : read.nextOffset ≤ Word64.maxValue
  upToDate : read.upToDate = true → read.nextOffset = held.length

/-- Each read of a session is served from what the stream then holds, and nothing is read after the
session's end. -/
def Serves : Option SseState → List Round → Prop
  | _, [] => True
  | none, _ :: _ => False
  | some state, round :: rounds =>
    (∀ read, round.answer = .ok read → Served state round.held read) ∧
      Serves (state.next round.answer).2 rounds

/-- The answer as a session takes it: a read it sends, or the error it ends with. -/
def SseState.taken (state : SseState) (answer : Except ErrorBody ReadStreamResponse) :
    Except ErrorBody ReadStreamResponse :=
  match answer with
  | .error body => .error body
  | .ok read =>
    if state.incarnation.any (· ≠ read.incarnation) then .error replaced else .ok read

/-- A read that was sent: what the stream held, the read as it was served, and as it was cut. -/
structure Delivery where
  held : Bytes
  served : ReadStreamResponse
  read : ReadStreamResponse
  deriving DecidableEq

/-- The reads a session sends. -/
def deliveries : Option SseState → List Round → List Delivery
  | some state, round :: rounds =>
    match state.taken round.answer with
    | .ok served =>
      ⟨round.held, served, clampSseTextRead served state.encodeBase64⟩ ::
        deliveries (state.next round.answer).2 rounds
    | .error _ => []
  | _, _ => []

/-- The error a session ends with. -/
def failure : Option SseState → List Round → Option ErrorBody
  | some state, round :: rounds =>
    match state.taken round.answer with
    | .ok _ => failure (state.next round.answer).2 rounds
    | .error body => some body
  | _, _ => none

section Next

variable {state : SseState} {answer : Except ErrorBody ReadStreamResponse}

theorem SseState.next_of_error {body : ErrorBody} (h : state.taken answer = .error body) :
    state.next answer = (sseErrorEvent body, none) := by
  cases answer with
  | error other =>
    cases h
    rfl
  | ok read =>
    simp only [taken] at h
    split at h
    case isTrue hpin =>
      cases h
      exact if_pos hpin
    case isFalse => exact nomatch h

/-- The session after a read it sent. -/
def SseState.after (state : SseState) (read : ReadStreamResponse) : Option SseState :=
  if read.end' = .closedTail then none else some { state with offset := read.nextOffset }

theorem SseState.next_of_ok {served : ReadStreamResponse} (h : state.taken answer = .ok served) :
    state.next answer =
      (renderSseRead (clampSseTextRead served state.encodeBase64) state.encodeBase64 state.cursor,
        state.after (clampSseTextRead served state.encodeBase64)) := by
  cases answer with
  | error other => exact nomatch h
  | ok read =>
    simp only [taken] at h
    split at h
    case isTrue => exact nomatch h
    case isFalse hpin =>
      cases h
      exact if_neg hpin

/-- What a session sends was served. -/
theorem SseState.taken_ok {served : ReadStreamResponse} (h : state.taken answer = .ok served) :
    answer = .ok served := by
  cases answer with
  | error other => exact nomatch h
  | ok read =>
    simp only [taken] at h
    split at h
    case isTrue => exact nomatch h
    case isFalse => exact h

end Next

/-! ## The events of a body -/

/-- The data of the `data` event of a payload, as a client reads it. -/
def dataText (payload : Bytes) (encodeBase64 : Bool) : Bytes :=
  [EventStream.lf].intercalate ((dataValues payload encodeBase64).map dropSpace)

/-- The events of a sent read. -/
def Delivery.events (delivery : Delivery) (encodeBase64 : Bool) (cursor : Option String) :
    List EventStream.Event :=
  (if delivery.read.payload = [] then []
  else [⟨ascii "data", dataText delivery.read.payload encodeBase64, []⟩]) ++
  [⟨ascii "control", controlData delivery.read cursor, []⟩]

/-- The event a session ends with when it fails. -/
def errorEvent (body : ErrorBody) : EventStream.Event := ⟨ascii "error", body.render, []⟩

/-- The events of a session. -/
def sessionEvents (state : Option SseState) (encodeBase64 : Bool) (cursor : Option String)
    (rounds : List Round) : List EventStream.Event :=
  (deliveries state rounds).flatMap (·.events encodeBase64 cursor) ++
    (failure state rounds).toList.map errorEvent

/-- A client that stands between two events and saw no `id` field. -/
structure Reading (client : Client) : Prop where
  idle : client.Idle
  lastEventId : client.lastEventId = []

/-- The client with more events received. -/
def received (client : Client) (events : List EventStream.Event) : Client :=
  { client with events := client.events ++ events }

variable {client : Client}

theorem Reading.received (h : Reading client) (events : List EventStream.Event) :
    Reading (received client events) := ⟨h.idle, h.lastEventId⟩

/-- The lines of an event make one event. -/
theorem Reading.foldl_eventLines (h : Reading client) {type : Bytes}
    (htype : type ≠ []) {values : List Bytes} (hvalues : values ≠ []) :
    (eventLines type values).foldl Client.line client =
      Sse.received client [⟨type, [EventStream.lf].intercalate (values.map dropSpace), []⟩] := by
  rw [EventStream.foldl_eventLines h.idle htype hvalues]
  show Sse.received client [⟨type, _, client.lastEventId⟩] = _
  rw [h.lastEventId]

theorem dropSpace_of_head {text : Bytes} (h : text.head? ≠ some space) : dropSpace text = text := by
  cases text with
  | nil => rfl
  | cons byte text => exact if_neg fun hbyte => h (congrArg some hbyte)

/-- What a client makes of the lines of a read. -/
theorem Reading.foldl_readLines (h : Reading client) (delivery : Delivery)
    (encodeBase64 : Bool) (cursor : Option String) :
    (readLines delivery.read encodeBase64 cursor).foldl Client.line client =
      Sse.received client (delivery.events encodeBase64 cursor) := by
  have hcontrol : dropSpace (controlData delivery.read cursor) = controlData delivery.read cursor :=
    dropSpace_of_head (by simp [controlData, ascii, space])
  have hlast : ∀ {client : Client}, Reading client →
      (eventLines (ascii "control") [controlData delivery.read cursor]).foldl Client.line client =
        Sse.received client [⟨ascii "control", controlData delivery.read cursor, []⟩] := by
    intro client hclient
    rw [hclient.foldl_eventLines (by decide) (by simp), map_singleton, hcontrol,
      intercalate_singleton]
  unfold readLines Delivery.events
  rw [foldl_append]
  by_cases hpayload : delivery.read.payload = []
  · rw [if_pos hpayload, if_pos hpayload]
    exact hlast h
  have hvalues : dataValues delivery.read.payload encodeBase64 ≠ [] := by simp [dataValues]
  rw [if_neg hpayload, if_neg hpayload, h.foldl_eventLines (by decide) hvalues,
    hlast (h.received _)]
  simp [Sse.received, dataText]

theorem Reading.foldl_errorLines (h : Reading client) (body : ErrorBody) :
    (errorLines body).foldl Client.line client = Sse.received client [errorEvent body] := by
  have hrender : dropSpace body.render = body.render :=
    dropSpace_of_head (by simp [ErrorBody.render, ascii, space])
  rw [errorLines, h.foldl_eventLines (by decide) (by simp), map_singleton, sseSafeLine_render,
    hrender, intercalate_singleton]
  rfl

theorem received_received (client : Client) (first second : List EventStream.Event) :
    received (received client first) second = received client (first ++ second) := by
  simp [received]

/-- A body is made of lines that stand alone, and its client receives the session's events. -/
theorem body_lines (state : Option SseState) (encodeBase64 : Bool) (cursor : Option String)
    (hstate : ∀ open', state = some open' →
      open'.encodeBase64 = encodeBase64 ∧ open'.cursor = cursor)
    (rounds : List Round) :
    ∃ lines, body state (rounds.map (·.answer)) = unlines lines ∧
      (∀ line ∈ lines, IsLine line) ∧ (unlines lines).head? ≠ some 0xEF ∧
      ∀ client, Reading client → lines.foldl Client.line client =
        received client (sessionEvents state encodeBase64 cursor rounds) := by
  induction rounds generalizing state with
  | nil =>
    refine ⟨[], ?_, by simp, by simp [unlines], fun client _ => ?_⟩
    · cases state <;> rfl
    · cases state <;> simp [sessionEvents, deliveries, failure, received]
  | cons round rounds ih =>
    cases state with
    | none =>
      refine ⟨[], rfl, by simp, by simp [unlines], fun client _ => ?_⟩
      simp [sessionEvents, deliveries, failure, received]
    | some state =>
      obtain ⟨rfl, rfl⟩ := hstate state rfl
      cases htaken : state.taken round.answer with
      | error body =>
        refine ⟨errorLines body, ?_, isLine_errorLines body, ?_, fun client hclient => ?_⟩
        · simp [SseState.body, SseState.next_of_error htaken, sseErrorEvent_eq]
        · simp [errorLines, unlines_eventLines, ascii]
        · rw [hclient.foldl_errorLines]
          simp [sessionEvents, deliveries, failure, htaken]
      | ok served =>
        -- the rest of the session keeps the encoding and the cursor
        have hnext := next_of_ok htaken
        obtain ⟨lines, hbody, hlines, _, hreads⟩ := ih (state.next round.answer).2 (by
          intro after hafter
          rw [hnext, SseState.after] at hafter
          split at hafter
          · cases hafter
          · cases hafter
            exact ⟨rfl, rfl⟩)
        refine ⟨readLines (clampSseTextRead served state.encodeBase64) state.encodeBase64
          state.cursor ++ lines, ?_, ?_, ?_, ?_⟩
        · rw [map_cons, body, hbody, hnext, renderSseRead_eq, unlines_append]
        · intro line hline
          exact (mem_append.mp hline).elim (isLine_readLines _ _ _ line) (hlines line)
        · rw [unlines_append, readLines, unlines_append]
          split
          · show (unlines _ ++ unlines lines).head? ≠ _
            rw [head?_unlines_eventLines]
            decide
          · rw [append_assoc, head?_unlines_eventLines]
            decide
        · intro client hclient
          rw [foldl_append, hclient.foldl_readLines ⟨round.held, served, _⟩,
            hreads _ (hclient.received _), received_received]
          simp [sessionEvents, deliveries, failure, htaken]

/-- The events of a session's body: for each read that was sent its `control` event, after at most
one `data` event, and the `error` event of a session that failed. -/
theorem parse_body (state : SseState) (rounds : List Round) :
    parse (body (some state) (rounds.map (·.answer))) =
      received .start (sessionEvents (some state) state.encodeBase64 state.cursor rounds) := by
  obtain ⟨lines, hbody, hlines, hbom, hreads⟩ := body_lines (some state) state.encodeBase64
    state.cursor (fun _ h => by cases h; exact ⟨rfl, rfl⟩) rounds
  rw [hbody, parse_unlines hlines hbom, hreads _ ⟨⟨rfl, rfl⟩, rfl⟩]

/-! ## Cutting a read -/

section Cut

variable {payload : Bytes} {contentType : String} {read : ReadStreamResponse} {encodeBase64 : Bool}

/-- The last LF of a payload, with what stands before and after it. -/
theorem rposition_some {newline : ℕ} (h : rposition payload = some newline) :
    ∃ before after, payload = before ++ lf :: after ∧ before.length = newline := by
  induction payload generalizing newline with
  | nil => exact nomatch h
  | cons byte payload ih =>
    rw [rposition] at h
    split at h
    case h_1 index hindex =>
      cases h
      obtain ⟨before, after, rfl, rfl⟩ := ih hindex
      exact ⟨byte :: before, after, rfl, rfl⟩
    case h_2 =>
      split at h
      case isTrue hbyte =>
        cases h
        exact ⟨[], payload, by rw [hbyte]; rfl, rfl⟩
      case isFalse => exact nomatch h

theorem rposition_none (h : rposition payload = none) : lf ∉ payload := by
  induction payload with
  | nil => exact not_mem_nil
  | cons byte payload ih =>
    rw [rposition] at h
    split at h
    case h_1 => exact nomatch h
    case h_2 hrest =>
      split at h
      case isTrue => exact nomatch h
      case isFalse hbyte =>
        intro hmem
        rcases mem_cons.mp hmem with heq | hmem
        · exact hbyte heq.symm
        · exact ih hrest hmem

/-- What is sent of a text payload: up to its last LF, when it is JSON that goes on after one, and
otherwise its longest valid prefix. -/
theorem sseTextPayloadLen_cases (contentType : String) (payload : Bytes) :
    (∃ before after, isJsonContentType contentType = true ∧
      payload = before ++ lf :: after ∧
      sseTextPayloadLen contentType payload = before.length + 1) ∨
    sseTextPayloadLen contentType payload = Utf8.validUpTo payload ∧
      (isJsonContentType contentType = true → lf ∈ payload →
        payload.getLast? = some lf) := by
  unfold sseTextPayloadLen
  split
  case isTrue hjson =>
    cases hlast : rposition payload with
    | some newline =>
      obtain ⟨before, after, rfl, rfl⟩ := rposition_some hlast
      exact .inl ⟨before, after, hjson.1, rfl, rfl⟩
    | none => exact .inr ⟨rfl, fun _ hmem => absurd hmem (rposition_none hlast)⟩
  case isFalse hother =>
    refine .inr ⟨rfl, fun hjson _ => ?_⟩
    by_contra hlast
    exact hother ⟨hjson, hlast⟩

theorem sseTextPayloadLen_le (contentType : String) (payload : Bytes) :
    sseTextPayloadLen contentType payload ≤ payload.length := by
  rcases sseTextPayloadLen_cases contentType payload with
    ⟨before, after, _, hpayload, hcut⟩ | ⟨hcut, _⟩
  · rw [hcut, hpayload, length_append, length_cons]
    omega
  · rw [hcut]
    exact Utf8.validUpTo_le _

/-- What a cut leaves of a read. -/
structure Cut (read cut : ReadStreamResponse) : Prop where
  payload : cut.payload <+: read.payload
  nextOffset : cut.nextOffset = read.offset + cut.payload.length
  nonempty : read.payload ≠ [] → cut.payload ≠ []
  contentType : cut.contentType = read.contentType

variable (hnext : read.nextOffset = read.offset + read.payload.length)
include hnext

theorem Cut.refl : Cut read read :=
  ⟨prefix_refl _, hnext, id, rfl⟩

theorem cut_clampSseTextRead : Cut read (clampSseTextRead read encodeBase64) := by
  unfold clampSseTextRead
  split
  case isTrue => exact .refl hnext
  case isFalse hread =>
    dsimp only
    split
    case isTrue => exact .refl hnext
    case isFalse hlen =>
      split
      case isTrue => exact .refl hnext
      case isFalse =>
        have hle := sseTextPayloadLen_le read.contentType read.payload
        refine ⟨List.take_prefix _ _, ?_, fun _ hcut => ?_, rfl⟩
        · rw [length_take, min_eq_left hle]
        · rw [take_eq_nil_iff] at hcut
          rcases hcut with hcut | hcut
          · exact hlen (.inl hcut)
          · exact hread (.inr hcut)

/-- A text read that is cut within its first code point or line is sent up to the cut. -/
theorem payload_clampSseTextRead (hword : read.nextOffset ≤ Word64.maxValue)
    (hlen : read.payload ≠ [] → 0 < sseTextPayloadLen read.contentType read.payload) :
    (clampSseTextRead read false).payload =
      read.payload.take (sseTextPayloadLen read.contentType read.payload) := by
  unfold clampSseTextRead
  split
  case isTrue hnil =>
    have hnil : read.payload = [] := by simpa using hnil
    rw [hnil, take_nil]
  case isFalse hread =>
    have hread : read.payload ≠ [] := by simpa using hread
    dsimp only
    split
    case isTrue hfull =>
      rcases hfull with hzero | hfull
      · exact absurd hzero (hlen hread).ne'
      · rw [hfull, take_length]
    case isFalse hpart =>
      split
      case isTrue hword' =>
        -- the cut lies within the read, whose end is within the range of offsets
        have hle := sseTextPayloadLen_le read.contentType read.payload
        omega
      case isFalse => rfl

end Cut

/-! ## Exact data -/

/-- A text read whose data reaches the client unchanged: the stream is a text without CR and NUL,
perhaps cut inside a code point, the read begins with a whole code point, and no line of it begins
with a space. -/
structure Plain (held : Bytes) (read : ReadStreamResponse) : Prop where
  text : ∃ more, Utf8.Valid (held ++ more)
  clean : ∀ byte ∈ held, byte ≠ cr ∧ byte ≠ nul
  whole : read.payload ≠ [] → 0 < Utf8.validUpTo read.payload
  unindented : ∀ line ∈ read.payload.splitOn EventStream.lf, line.head? ≠ some space

/-- The data of a sent read, decoded: nothing when it has no `data` event. -/
def Delivery.decoded (delivery : Delivery) (encodeBase64 : Bool) : Option Bytes :=
  if delivery.read.payload = [] then some []
  else if encodeBase64 then Base64.decode (dataText delivery.read.payload encodeBase64)
  else some (dataText delivery.read.payload encodeBase64)

/-- The data of a text whose lines come through is that text. -/
theorem dataText_eq {payload : Bytes} {encodeBase64 : Bool}
    (h : ∀ line ∈ (payloadText payload encodeBase64).splitOn EventStream.lf,
      (∀ byte ∈ line, byte ≠ cr ∧ byte ≠ nul) ∧ line.head? ≠ some space) :
    dataText payload encodeBase64 = payloadText payload encodeBase64 := by
  have hlines : (dataValues payload encodeBase64).map dropSpace =
      (payloadText payload encodeBase64).splitOn EventStream.lf := by
    rw [dataValues, map_map]
    refine (map_congr_left fun line hline => ?_).trans (map_id _)
    obtain ⟨hclean, hhead⟩ := h line hline
    show dropSpace (sseSafeLine line) = line
    rw [sseSafeLine_eq_self hclean, dropSpace_of_head hhead]
  rw [dataText, hlines, intercalate_splitOn]

/-- The digits of an encoding come through. -/
theorem dataText_base64 (payload : Bytes) : dataText payload true = Base64.encode payload := by
  refine dataText_eq fun line hline => ?_
  have hgraphic : ∀ byte ∈ line, Base64.Graphic byte := fun byte hbyte =>
    Base64.graphic_of_mem_encode payload byte (mem_splitOn hline byte hbyte).1
  refine ⟨fun byte hbyte => ⟨fun h => ?_, fun h => ?_⟩, fun h => ?_⟩
  · exact absurd (h ▸ hgraphic byte hbyte) (by decide)
  · exact absurd (h ▸ hgraphic byte hbyte) (by decide)
  · exact absurd (hgraphic space (mem_of_mem_head? h)) (by decide)

theorem take_before_lf (before after : Bytes) :
    (before ++ lf :: after).take (before.length + 1) = before ++ [lf] := by
  rw [take_length_add_append]
  rfl

section Text

variable {state : SseState} {held : Bytes} {read : ReadStreamResponse}
  (hplain : Plain held read) (hserved : Served state held read)

include hplain hserved

theorem Plain.payload_clamp :
    (clampSseTextRead read false).payload =
      read.payload.take (sseTextPayloadLen read.contentType read.payload) := by
  refine payload_clampSseTextRead (hserved.nextOffset.trans (by rw [hserved.offset])) hserved.word
    fun hpayload => ?_
  rcases sseTextPayloadLen_cases read.contentType read.payload with ⟨_, _, _, _, hcut⟩ | ⟨hcut, _⟩
  · omega
  · rw [hcut]
    exact hplain.whole hpayload

/-- A plain read begins a valid text. -/
theorem Plain.valid_from
    (hpayload : read.payload ≠ []) : ∃ rest, Utf8.Valid (read.payload ++ rest) := by
  obtain ⟨more, hvalid⟩ := hplain.text
  obtain ⟨rest, hrest⟩ := hserved.payload
  have hall : Utf8.Valid (held.take state.offset ++ (read.payload ++ (rest ++ more))) := by
    rwa [← append_assoc read.payload, hrest, ← append_assoc, take_append_drop]
  exact ⟨rest ++ more, hall.of_validUpTo (hplain.whole hpayload)⟩

theorem Plain.valid : Utf8.Valid (clampSseTextRead read false).payload := by
  rw [hplain.payload_clamp hserved]
  rcases sseTextPayloadLen_cases read.contentType read.payload with
    ⟨before, after, _, hpayload, hcut⟩ | ⟨hcut, _⟩
  · obtain ⟨rest, hrest⟩ := hplain.valid_from hserved (by simp [hpayload])
    rw [hpayload, append_assoc, cons_append, Utf8.valid_append_ascii (by decide)] at hrest
    rw [hcut, hpayload, take_before_lf]
    exact hrest.1.append (by decide)
  · rw [hcut]
    exact Utf8.valid_take_validUpTo _

/-- What is sent of a JSON read ends with an LF when it holds one. -/
theorem Plain.getLast?_json (hjson : isJsonContentType read.contentType = true)
    (hlf : lf ∈ (clampSseTextRead read false).payload) :
    (clampSseTextRead read false).payload.getLast? = some lf := by
  rw [hplain.payload_clamp hserved] at hlf ⊢
  rcases sseTextPayloadLen_cases read.contentType read.payload with
    ⟨before, after, _, hpayload, hcut⟩ | ⟨hcut, hlast⟩
  · rw [hcut, hpayload, take_before_lf, getLast?_concat]
  have hend := hlast hjson (mem_of_mem_take hlf)
  -- a payload that ends with an LF ends no code point early, so all of it is sent
  obtain ⟨init, hinit⟩ := getLast?_eq_some_iff.mp hend
  obtain ⟨rest, hrest⟩ := hplain.valid_from hserved (by simp [hinit])
  rw [hinit, append_assoc, singleton_append, Utf8.valid_append_ascii (by decide)] at hrest
  have hvalid : Utf8.Valid read.payload := hinit ▸ hrest.1.append (by decide)
  rwa [hcut, hvalid.validUpTo_eq, take_length]

/-- The data of a plain read is what was sent of it. -/
theorem Plain.dataText_eq :
    dataText (clampSseTextRead read false).payload false =
      (clampSseTextRead read false).payload := by
  have htext : payloadText (clampSseTextRead read false).payload false =
      (clampSseTextRead read false).payload := Utf8.lossy_eq_self (hplain.valid hserved)
  have hcut : Cut read (clampSseTextRead read false) :=
    cut_clampSseTextRead (hserved.nextOffset.trans (by rw [hserved.offset]))
  rw [Sse.dataText_eq, htext]
  rw [htext]
  intro line hline
  refine ⟨fun byte hbyte => hplain.clean byte ?_, fun hspace => ?_⟩
  · have hsent := (mem_splitOn hline byte hbyte).1
    exact mem_of_mem_drop ((hcut.payload.trans hserved.payload).subset hsent)
  · -- a line of what is sent is the front of a line of the read
    obtain ⟨rest, hrest⟩ := hcut.payload
    obtain ⟨whole, hwhole, more, rfl⟩ := exists_prefix_of_mem_splitOn hline rest
    rw [hrest] at hwhole
    refine hplain.unindented _ hwhole ?_
    rw [head?_append, hspace, Option.some_or]

end Text

section Exact

variable {state : SseState} {held : Bytes} {read : ReadStreamResponse}

/-- The data of a served read, decoded, is what was sent of it. -/
theorem decoded_eq {encodeBase64 : Bool} (hserved : Served state held read)
    (hplain : encodeBase64 = false → Plain held read) :
    Delivery.decoded ⟨held, read, clampSseTextRead read encodeBase64⟩ encodeBase64 =
      some (clampSseTextRead read encodeBase64).payload := by
  unfold Delivery.decoded
  split
  case isTrue hnil => rw [hnil]
  case isFalse =>
    cases encodeBase64 with
    | true =>
      rw [if_pos rfl, dataText_base64]
      exact Base64.decode_encode _
    | false => rw [if_neg (by simp), (hplain rfl).dataText_eq hserved]

/-! ## Sessions deliver the stream's bytes -/

/-- What a client knows of a read that was sent after an offset: its data decodes to the stream's
bytes from that offset up to its own, the offset moves forward while the stream holds more, and JSON
data that holds an LF ends with one. -/
structure Delivery.ExactFrom (delivery : Delivery) (encodeBase64 : Bool) (offset : ℕ) : Prop where
  decoded : delivery.decoded encodeBase64 =
    some ((delivery.held.drop offset).take (delivery.read.nextOffset - offset))
  forward : offset ≤ delivery.read.nextOffset
  progress : offset < delivery.held.length → offset < delivery.read.nextOffset
  within : offset < delivery.read.nextOffset → delivery.read.nextOffset ≤ delivery.held.length
  json : encodeBase64 = false → isJsonContentType delivery.read.contentType = true →
    EventStream.lf ∈ dataText delivery.read.payload false →
    (dataText delivery.read.payload false).getLast? = some EventStream.lf

/-- Each read that was sent is exact from the offset the one before it named. -/
def Exact (encodeBase64 : Bool) : ℕ → List Delivery → Prop
  | _, [] => True
  | offset, delivery :: rest =>
    delivery.ExactFrom encodeBase64 offset ∧ Exact encodeBase64 delivery.read.nextOffset rest

theorem Served.exactFrom (hserved : Served state held read)
    (hplain : state.encodeBase64 = false → Plain held read) :
    Delivery.ExactFrom ⟨held, read, clampSseTextRead read state.encodeBase64⟩ state.encodeBase64
      state.offset := by
  have hcut : Cut read (clampSseTextRead read state.encodeBase64) :=
    cut_clampSseTextRead (hserved.nextOffset.trans (by rw [hserved.offset]))
  have hsent := hcut.payload.trans hserved.payload
  have hlength := hsent.length_le
  rw [length_drop] at hlength
  have hnext := hcut.nextOffset
  rw [hserved.offset] at hnext
  refine ⟨?_, ?_, fun hmore => ?_, fun hmoved => ?_, fun htext hjson hlf => ?_⟩
  · rw [decoded_eq hserved hplain]
    show some _ = some (take ((clampSseTextRead read state.encodeBase64).nextOffset - _) _)
    rw [hnext, Nat.add_sub_cancel_left]
    exact congrArg some (prefix_iff_eq_take.mp hsent)
  · exact hnext ▸ Nat.le_add_right _ _
  · have hne := length_pos_iff.mpr (hcut.nonempty (hserved.nonempty hmore))
    show state.offset < (clampSseTextRead read state.encodeBase64).nextOffset
    omega
  · have hmoved : state.offset < (clampSseTextRead read state.encodeBase64).nextOffset := hmoved
    show (clampSseTextRead read state.encodeBase64).nextOffset ≤ held.length
    omega
  · rw [htext] at hlf hjson ⊢
    have hread := hplain htext
    rw [hread.dataText_eq hserved] at hlf ⊢
    rw [htext] at hcut
    exact hread.getLast?_json hserved (hcut.contentType ▸ hjson) hlf

theorem exact_deliveries {rounds : List Round} (hserves : Serves (some state) rounds)
    (hplain : state.encodeBase64 = false → ∀ delivery ∈ deliveries (some state) rounds,
      Plain delivery.held delivery.served) :
    Exact state.encodeBase64 state.offset (deliveries (some state) rounds) := by
  induction rounds generalizing state with
  | nil => trivial
  | cons round rounds ih =>
    obtain ⟨hserved, hrest⟩ := hserves
    rw [deliveries] at hplain ⊢
    cases htaken : state.taken round.answer with
    | error body => trivial
    | ok served =>
      simp only [htaken, forall_mem_cons] at hplain
      refine ⟨(hserved served (taken_ok htaken)).exactFrom fun htext => (hplain htext).1, ?_⟩
      -- the session goes on at the offset it sent, or ended
      rw [next_of_ok htaken] at hrest hplain ⊢
      unfold SseState.after at hrest hplain ⊢
      split at hrest
      case isTrue hend =>
        rw [if_pos hend]
        cases rounds <;> trivial
      case isFalse hend =>
        rw [if_neg hend] at hplain ⊢
        exact ih hrest fun htext => (hplain htext).2

end Exact

/-- The offset after the reads that were sent. -/
def endOffset (offset : ℕ) (sent : List Delivery) : ℕ :=
  sent.foldl (fun _ delivery => delivery.read.nextOffset) offset

/-- The decoded data of the reads that were sent. -/
def decodedAll (encodeBase64 : Bool) (sent : List Delivery) : Bytes :=
  sent.flatMap fun delivery => (delivery.decoded encodeBase64).getD []

theorem Exact.le_endOffset {encodeBase64 : Bool} {offset : ℕ} {sent : List Delivery}
    (h : Exact encodeBase64 offset sent) : offset ≤ endOffset offset sent := by
  induction sent generalizing offset with
  | nil => exact le_refl _
  | cons delivery sent ih => exact h.1.forward.trans (ih h.2)

/-- While a stream only grows, the decoded data of exact reads is one range of it. -/
theorem Exact.decodedAll_eq {encodeBase64 : Bool} {offset : ℕ} {sent : List Delivery}
    {stream : Bytes}
    (h : Exact encodeBase64 offset sent) (hgrows : ∀ delivery ∈ sent, delivery.held <+: stream) :
    decodedAll encodeBase64 sent = (stream.drop offset).take (endOffset offset sent - offset) := by
  induction sent generalizing offset with
  | nil => simp [decodedAll, endOffset]
  | cons delivery sent ih =>
    have hle := h.2.le_endOffset
    have hforward := h.1.forward
    have hrest := ih h.2 fun later hlater => hgrows later (mem_cons_of_mem _ hlater)
    obtain ⟨more, hmore⟩ := hgrows delivery mem_cons_self
    have hfirst : (delivery.held.drop offset).take (delivery.read.nextOffset - offset) =
        (stream.drop offset).take (delivery.read.nextOffset - offset) := by
      rcases Nat.eq_or_lt_of_le hforward with heq | hlt
      · rw [← heq, Nat.sub_self, take_zero, take_zero]
      · have hwithin := h.1.within hlt
        rw [← hmore, drop_append_of_le_length (by omega),
          take_append_of_le_length (by rw [length_drop]; omega)]
    have hsplit : endOffset offset (delivery :: sent) - offset =
        (delivery.read.nextOffset - offset) +
          (endOffset delivery.read.nextOffset sent - delivery.read.nextOffset) := by
      show endOffset delivery.read.nextOffset sent - offset = _
      omega
    have hmid : offset + (delivery.read.nextOffset - offset) = delivery.read.nextOffset := by omega
    rw [hsplit, take_add, drop_drop, hmid, ← hrest, ← hfirst]
    show (delivery.decoded encodeBase64).getD [] ++ decodedAll encodeBase64 sent = _
    rw [h.1.decoded, Option.getD_some]

/-- A session delivers the stream's bytes exactly: its body is the `control` events of its reads,
each after at most one `data` event, and at most one `error` event, which is the last. The decoded
data of each read is the stream's bytes between two offsets, on a base64 stream always, and on a
text stream for plain reads. -/
theorem session_delivers_bytes {head : Head} {offset maxLen : ℕ} {cursor : Option String}
    {ifIncarnation : Option ℕ} {state : SseState} {rounds : List Round}
    (hopen : sseStream head offset maxLen cursor ifIncarnation = some state)
    (hserves : Serves (some state) rounds) :
    parse (SseState.body (some state) (rounds.map (·.answer))) =
      received .start (sessionEvents (some state) (shouldBase64EncodeSseData head.contentType)
        cursor rounds) ∧
    ((shouldBase64EncodeSseData head.contentType = false →
        ∀ delivery ∈ deliveries (some state) rounds, Plain delivery.held delivery.served) →
      Exact (shouldBase64EncodeSseData head.contentType) offset (deliveries (some state) rounds) ∧
      ∀ stream, (∀ delivery ∈ deliveries (some state) rounds, delivery.held <+: stream) →
        decodedAll (shouldBase64EncodeSseData head.contentType) (deliveries (some state) rounds) =
          (stream.drop offset).take
            (endOffset offset (deliveries (some state) rounds) - offset)) := by
  unfold sseStream at hopen
  split at hopen
  case isTrue => exact nomatch hopen
  case isFalse =>
    cases hopen
    refine ⟨parse_body _ rounds, fun hplain => ?_⟩
    have hexact := exact_deliveries hserves hplain
    exact ⟨hexact, fun stream hgrows => hexact.decodedAll_eq hgrows⟩

/-! ## Sessions on small streams -/

/-- A session on a text stream, from its start. -/
def textSession : SseState where
  offset := 0
  maxLen := 4
  encodeBase64 := false
  cursor := none
  incarnation := some 7

/-- A read of a text stream's `payload` at `offset`, which reaches the tail. -/
def textRead (offset : ℕ) (payload : Bytes) : ReadStreamResponse where
  offset := offset
  nextOffset := offset + payload.length
  contentType := "text/plain"
  payload := payload
  upToDate := true
  closed := false
  incarnation := 7

/-- Two appends, each read as it arrives. -/
def greeting : List Round :=
  [⟨ascii "hi\n", .ok (textRead 0 (ascii "hi\n"))⟩,
    ⟨ascii "hi\nyou", .ok (textRead 3 (ascii "you"))⟩]

theorem serves_greeting : Serves (some textSession) greeting := by
  refine ⟨fun read h => ?_, fun read h => ?_, trivial⟩
  · cases h
    exact ⟨rfl, by decide, by decide, by decide, rfl, by decide, by decide⟩
  · cases h
    exact ⟨by decide, by decide, by decide, by decide, by decide, by decide, by decide⟩

theorem session_delivers_greeting :
    sseStream ⟨"text/plain", 7⟩ 0 1 none none = some textSession ∧
      Serves (some textSession) greeting ∧
      decodedAll false (deliveries (some textSession) greeting) = ascii "hi\nyou" := by
  have hopen : sseStream ⟨"text/plain", 7⟩ 0 1 none none = some textSession := by decide +kernel
  have hplain : ∀ delivery ∈ deliveries (some textSession) greeting,
      Plain delivery.held delivery.served := by
    have hsent : deliveries (some textSession) greeting =
        [⟨ascii "hi\n", textRead 0 (ascii "hi\n"), textRead 0 (ascii "hi\n")⟩,
          ⟨ascii "hi\nyou", textRead 3 (ascii "you"), textRead 3 (ascii "you")⟩] := by
      decide +kernel
    simp only [hsent, forall_mem_cons, not_mem_nil, false_imp_iff, implies_true, and_true]
    exact ⟨⟨⟨[], by decide⟩, by decide +kernel, by decide +kernel, by decide +kernel⟩,
      ⟨⟨[], by decide⟩, by decide +kernel, by decide +kernel, by decide +kernel⟩⟩
  have htext : shouldBase64EncodeSseData "text/plain" = false := by decide +kernel
  have hall := ((session_delivers_bytes hopen serves_greeting).2 fun _ => hplain).2
    (ascii "hi\nyou") (by decide +kernel)
  exact ⟨hopen, serves_greeting, hall.trans (by decide +kernel)⟩

/-- An append whose line begins with a space. -/
def indented : List Round := [⟨ascii " hi", .ok (textRead 0 (ascii " hi"))⟩]

/-- The two bytes of one code point, appended and read one at a time. -/
def splitCodePoint : List Round :=
  [⟨[0xC3], .ok (textRead 0 [0xC3])⟩, ⟨[0xC3, 0xA9], .ok (textRead 1 [0xA9])⟩]

theorem serves_indented : Serves (some textSession) indented := by
  refine ⟨fun read h => ?_, trivial⟩
  cases h
  exact ⟨rfl, by decide, by decide, by decide, rfl, by decide, by decide⟩

theorem serves_splitCodePoint : Serves (some textSession) splitCodePoint := by
  refine ⟨fun read h => ?_, fun read h => ?_, trivial⟩
  · cases h
    exact ⟨rfl, by decide, by decide, by decide, rfl, by decide, by decide⟩
  · cases h
    exact ⟨by decide, by decide, by decide, by decide, by decide, by decide, by decide⟩

/-- The data a client receives from a session. -/
def clientData (state : SseState) (rounds : List Round) : List Bytes :=
  ((parse (SseState.body (some state) (rounds.map (·.answer)))).events.filter
    (·.type = ascii "data")).map (·.data)

/-- A client loses the space a line begins with, and receives U+FFFD twice for a code point whose
bytes are read one at a time. -/
theorem session_changes_bytes :
    sseStream ⟨"text/plain", 7⟩ 0 1 none none = some textSession ∧
      (Serves (some textSession) indented ∧ Utf8.Valid (ascii " hi") ∧
        clientData textSession indented = [ascii "hi"]) ∧
      (Serves (some textSession) splitCodePoint ∧ Utf8.Valid [0xC3, 0xA9] ∧
        clientData textSession splitCodePoint = [Utf8.replacement, Utf8.replacement]) :=
  ⟨by decide +kernel, ⟨serves_indented, by decide, by decide +kernel⟩,
    ⟨serves_splitCodePoint, by decide, by decide +kernel⟩⟩

end Ursula.Sse
