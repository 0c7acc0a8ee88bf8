import Mathlib.Data.Nat.Digits.Defs
import Ursula.Lib.Base64
import Ursula.Lib.EventStream
import Ursula.Lib.Word64
import Ursula.Stream.Text

/-!
# Server-sent event sessions

A live read answered as an event stream. Each iteration reads the stream at the session's offset,
cuts a text payload so that it ends with a whole code point (and a JSON payload with a whole
message, when it holds one), and sends the payload as a `data` event followed by a `control` event
with the next offset. The session ends at the tail of a closed stream, or with an `error` event when
a read fails or the stream is no longer the incarnation the session was opened against.

A text is the list of its UTF-8 bytes.

## Main definitions

* `clampSseTextRead`, `renderSseRead`, `sseErrorEvent`: what a read sends
* `SseState`, `sseStream`, `SseState.next`: the session and one iteration of it
* `SseState.body`: the response body for a list of answered reads
-/

namespace Ursula.Sse

open EventStream (ascii cr nul)
open Utf8 (Text)

/-! ## Reads -/

/-- An answered read. -/
structure ReadStreamResponse where
  offset : ℕ
  nextOffset : ℕ
  contentType : String
  payload : Bytes
  upToDate : Bool
  closed : Bool
  incarnation : ℕ
  deriving DecidableEq

/-- Where a read ended, as seen by the stream state that served it. -/
inductive ReadEnd
  | belowTail
  | openTail
  | closedTail
  deriving DecidableEq

/-- The end of a read from its two flags. -/
def ReadEnd.of : Bool → Bool → ReadEnd
  | false, _ => .belowTail
  | true, false => .openTail
  | true, true => .closedTail

variable (read : ReadStreamResponse)

/-- How a read ends. -/
def ReadStreamResponse.end' : ReadEnd :=
  .of read.upToDate read.closed

/-! ## Content types -/

variable (contentType : String)

/-- The media type of a content type, parameters left out, in lower case. -/
def mediaType : List Char :=
  (trim (contentType.toList.takeWhile (· ≠ ';'))).map Char.toLower

/-- Whether a content type is sent in Base64. -/
def shouldBase64EncodeSseData : Bool :=
  !("text/".toList.isPrefixOf (mediaType contentType) ||
    mediaType contentType = "application/json".toList)

/-- Whether a content type is JSON. -/
def isJsonContentType : Bool :=
  mediaType contentType = "application/json".toList

/-! ## Clamping a text payload -/

/-- The index of the last LF. -/
def rposition : Bytes → Option ℕ
  | [] => none
  | byte :: bytes =>
    match rposition bytes with
    | some index => some (index + 1)
    | none => if byte = EventStream.lf then some 0 else none

/-- How much of a text payload a session sends: a JSON payload up to its last LF, another one up to
its last whole code point. -/
def sseTextPayloadLen (payload : Bytes) : ℕ :=
  if isJsonContentType contentType ∧ payload.getLast? ≠ some EventStream.lf then
    match rposition payload with
    | some newline => newline + 1
    | none => Utf8.validUpTo payload
  else
    Utf8.validUpTo payload

/-- A text read cut to whole characters or messages. -/
def clampSseTextRead (encodeBase64 : Bool) : ReadStreamResponse :=
  if encodeBase64 ∨ read.payload = [] then read
  else
    let len := sseTextPayloadLen read.contentType read.payload
    if len = 0 ∨ len = read.payload.length then read
    -- an offset past the end of the range leaves the read unclamped
    else if Word64.maxValue < read.offset + len then read
    else
      { read with
        payload := read.payload.take len
        nextOffset := read.offset + len
        upToDate := false }

/-! ## Rendering -/

/-- A number with twenty digits. -/
def padded20 (n : ℕ) : Bytes :=
  let digits := (Nat.digits 10 n).reverse.map fun digit => UInt8.ofNat (0x30 + digit)
  List.replicate (20 - digits.length) 0x30 ++ digits

/-- The number a text stands for, within 64 bits. -/
def parseU64 (text : String) : Option ℕ :=
  let digits := match text.toList with
    | '+' :: digits => digits
    | digits => digits
  if digits = [] ∨ ¬ digits.all Char.isDigit then none
  else
    let n := digits.foldl (fun n c => n * 10 + (c.toNat - 0x30)) 0
    if Word64.maxValue < n then none else some n

/-- The cursor an answer carries. -/
def responseCursor (nextOffset : ℕ) (requestCursor : Option String) : ℕ :=
  match requestCursor.bind parseU64 with
  | none => nextOffset
  | some requestCursor =>
    if nextOffset ≤ requestCursor then Word64.satAdd requestCursor 1 else nextOffset

/-- A line without the characters that would end it or that a client drops. -/
def sseSafeLine (line : Bytes) : Bytes := line.filter fun byte => byte ≠ cr ∧ byte ≠ nul

/-- The text of a payload in a `data` event. -/
def payloadText (payload : Bytes) (encodeBase64 : Bool) : Bytes :=
  if encodeBase64 then Base64.encode payload else Utf8.lossy payload

/-- The events of a read. -/
def renderSseRead (encodeBase64 : Bool) (requestCursor : Option String) : Bytes :=
  let closedAtTail := read.end' = .closedTail
  (if read.payload = [] then []
  else
    ascii "event: data\n" ++
      ((payloadText read.payload encodeBase64).splitOn EventStream.lf).flatMap (fun line =>
        ascii "data:" ++ sseSafeLine line ++ ascii "\n") ++
      ascii "\n") ++
  ascii "event: control\n" ++
  ascii "data:\x7b\"streamNextOffset\":\"" ++ padded20 read.nextOffset ++ ascii "\"" ++
  (if closedAtTail then []
  else
    ascii ",\"streamCursor\":\"" ++ padded20 (responseCursor read.nextOffset requestCursor) ++
      ascii "\"") ++
  (if read.upToDate then ascii ",\"upToDate\":true" else []) ++
  (if closedAtTail then ascii ",\"streamClosed\":true" else []) ++
  ascii "\x7d\n\n"

/-! ## Errors -/

/-- The code of an error answer: the one a session gives itself, and those of failed reads. -/
inductive ErrorCode
  | incarnationMismatch
  | other (name : Text)
  deriving DecidableEq

/-- The name of an error code. -/
def ErrorCode.asStr : ErrorCode → Text
  | .incarnationMismatch => ⟨ascii "INCARNATION_MISMATCH", by decide⟩
  | .other name => name

/-- An error as clients see it. -/
structure ErrorBody where
  code : ErrorCode
  message : Text
  deriving DecidableEq

/-- A hexadecimal digit in lower case. -/
def hexDigit (n : ℕ) : UInt8 := UInt8.ofNat (if n < 10 then 0x30 + n else 0x57 + n)

/-- A character of a JSON string. -/
def jsonEscape (byte : UInt8) : Bytes :=
  if byte = 0x22 then ascii "\\\""
  else if byte = 0x5C then ascii "\\\\"
  else if byte = EventStream.lf then ascii "\\n"
  else if byte = cr then ascii "\\r"
  else if byte = 0x09 then ascii "\\t"
  else if byte < 0x20 then
    ascii "\\u00" ++ [hexDigit (byte.toNat / 16), hexDigit (byte.toNat % 16)]
  else [byte]

/-- A JSON string. -/
def pushJsonString (text : Bytes) : Bytes := ascii "\"" ++ text.flatMap jsonEscape ++ ascii "\""

/-- The JSON of an error. -/
def ErrorBody.render (body : ErrorBody) : Bytes :=
  ascii "\x7b\"error\":\x7b\"code\":" ++ pushJsonString body.code.asStr.1 ++
    ascii ",\"message\":" ++ pushJsonString body.message.1 ++ ascii "\x7d\x7d"

/-- The event of an error. -/
def sseErrorEvent (body : ErrorBody) : Bytes :=
  ascii "event: error\ndata:" ++ sseSafeLine body.render ++ ascii "\n\n"

/-! ## The session -/

/-- What a session goes on with. -/
structure SseState where
  offset : ℕ
  maxLen : ℕ
  encodeBase64 : Bool
  cursor : Option String
  incarnation : Option ℕ
  deriving DecidableEq

/-- The stream as its owner described it when the session was opened. -/
structure Head where
  contentType : String
  incarnation : ℕ

/-- Opens a session; `none` when the stream is not the incarnation the request asked for. -/
def sseStream (head : Head) (offset maxLen : ℕ) (cursor : Option String)
    (ifIncarnation : Option ℕ) : Option SseState :=
  if ifIncarnation.any (· ≠ head.incarnation) then none
  else
    let encodeBase64 := shouldBase64EncodeSseData head.contentType
    some {
      offset
      -- a text read needs room for one whole code point
      maxLen := if encodeBase64 then max maxLen 1 else max maxLen 4
      encodeBase64
      cursor
      incarnation := ifIncarnation.or
        (if head.incarnation ≠ 0 then some head.incarnation else none) }

/-- The error of a session whose stream was replaced. -/
def replaced : ErrorBody where
  code := .incarnationMismatch
  message := ⟨ascii
    "the stream was deleted and recreated, or its history was rewritten (Stream-Incarnation)",
    by decide⟩

/-- One iteration: what is sent for an answered or failed read, and the session after it. -/
def SseState.next (state : SseState) (answer : Except ErrorBody ReadStreamResponse) :
    Bytes × Option SseState :=
  match answer with
  | .error body => (sseErrorEvent body, none)
  | .ok read =>
    if state.incarnation.any (· ≠ read.incarnation) then (sseErrorEvent replaced, none)
    else
      let read := clampSseTextRead read state.encodeBase64
      let state := { state with offset := read.nextOffset }
      (renderSseRead read state.encodeBase64 state.cursor,
        if read.end' = .closedTail then none else some state)

/-- The body of a session. -/
def SseState.body : Option SseState → List (Except ErrorBody ReadStreamResponse) → Bytes
  | some state, answer :: answers => (state.next answer).1 ++ body (state.next answer).2 answers
  | _, _ => []

end Ursula.Sse
