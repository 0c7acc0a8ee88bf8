import Ursula.Stream.Model

/-!
# Names and message text

The checks a group makes on names at apply, and the canonical text of JSON messages: an
`application/json` stream stores each message as one compact value followed by one LF, so the
messages of a payload are its LF bytes.

## Main definitions

* `validateBucketId`, `validateStreamId`: the names a group accepts
* `isJsonRecordContentType`, `canonicalJsonMessageCount`, `messageCountValid`: JSON messages
-/

namespace Ursula

/-! ## Characters -/

/-- Whether a character has the Unicode property `White_Space`, which trimming removes. -/
def isWhitespace (c : Char) : Bool :=
  let n := c.toNat
  (0x9 ≤ n && n ≤ 0xd) || n == 0x20 || n == 0x85 || n == 0xa0 || n == 0x1680 ||
    (0x2000 ≤ n && n ≤ 0x200a) || n == 0x2028 || n == 0x2029 || n == 0x202f || n == 0x205f ||
    n == 0x3000

/-- The text without white space at its ends. -/
def trim (cs : List Char) : List Char :=
  ((cs.dropWhile isWhitespace).reverse.dropWhile isWhitespace).reverse

/-- Whether a text is empty or all white space. -/
def isBlank (s : String) : Bool := (trim s.toList).isEmpty

/-- Whether a text holds two dots in a row. -/
def containsDotDot : List Char → Bool
  | '.' :: '.' :: _ => true
  | _ :: rest => containsDotDot rest
  | [] => false

/-! ## Names -/

/-- A character a bucket's name may hold. -/
def isBucketChar (c : Char) : Bool := c.isLower || c.isDigit || c == '_' || c == '-'

/-- Checks a bucket's name. -/
def validateBucketId (bucketId : String) : Except String Unit :=
  if ¬ (4 ≤ bucketId.utf8ByteSize ∧ bucketId.utf8ByteSize ≤ 64) then
    .error s!"bucket_id must be 4 to 64 bytes, got {bucketId.utf8ByteSize} bytes"
  else if ¬ bucketId.toList.all isBucketChar then
    .error "bucket_id must match ^[a-z0-9_-]\x7b4,64\x7d$"
  else if bucketId = "snapshots" then
    .error "bucket_id 'snapshots' is reserved"
  else if bucketId.startsWith "__" then
    .error "bucket_id must not start with '__'"
  else
    .ok ()

/-- The checks of a stream's name. -/
def validatePathSegment (value : String) : Except String Unit :=
  if value = "" then
    .error "stream_id must not be empty"
  else if value.utf8ByteSize > 122 then
    .error s!"stream_id must not exceed 122 bytes, got {value.utf8ByteSize} bytes"
  else if value.toList.contains '/' || value.toList.contains '\x00' ||
      containsDotDot value.toList then
    .error "stream_id must not contain '/', NUL, or '..'"
  else if value = "." then
    .error "stream_id must not be '.'"
  else
    .ok ()

/-- Checks a stream's name. -/
def validateStreamId (streamId : BucketStreamId) : Except String Unit := do
  let name := streamId.streamId
  validatePathSegment name
  if name = "streams" then
    .error "stream_id 'streams' is reserved"
  else if name.startsWith "$" then
    .error "stream_id must not start with '$'"
  else
    let combinedLen := streamId.bucketId.utf8ByteSize + 1 + name.utf8ByteSize
    if combinedLen > 122 then
      .error s!"bucket/stream identity must not exceed 122 bytes, got {combinedLen} bytes"
    else
      .ok ()

/-! ## JSON messages -/

/-- Whether a content type is `application/json`, parameters ignored. -/
def isJsonRecordContentType (contentType : String) : Bool :=
  (trim (contentType.toList.takeWhile (· ≠ ';'))).map Char.toLower = "application/json".toList

/-- A line feed. -/
def lf : UInt8 := 10

/-- The number of canonical messages in a payload, one for each LF. `none` when a JSON payload does
not end with LF. -/
def canonicalJsonMessageCount (contentType : String) (payload : Bytes) : Option ℕ :=
  if ¬ isJsonRecordContentType contentType ∨ payload = [] then
    some 0
  else if payload.getLast? ≠ some lf then
    none
  else
    some (payload.count lf)

/-- Whether `messageCount` can be the message count of a canonical payload of `payloadLen`
bytes. -/
def messageCountValid (json : Bool) (payloadLen messageCount : ℕ) : Bool :=
  if !json || payloadLen == 0 then
    messageCount == 0
  else
    1 ≤ messageCount && messageCount ≤ payloadLen / 2

end Ursula
