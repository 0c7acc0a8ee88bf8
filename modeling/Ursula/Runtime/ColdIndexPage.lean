import Mathlib.Algebra.Order.BigOperators.Group.List
import Ursula.Lib.Checks
import Ursula.Lib.Cursor
import Ursula.Stream.Model

/-!
# Cold-index pages on the wire

A stream's cold index is kept in pages, one object for every span of the stream. A page object
frames a body between a magic with a version and a checksum; the body names the stream, the
generation and the page that it is for and lists the chunks and the external segments of the span.

## Main definitions

* `ColdIndexPage`, `ColdIndexPageKey`: a page, and what it is for
* `encodePage`, `decodePage`: its text

## Main results

* `page_codec_exact`: the texts that decode are exactly those that the encoder writes
-/

namespace Ursula.Runtime

open ByteReader Cursor Word64 List

/-! ## Pages -/

/-- What a page is for. -/
structure ColdIndexPageKey where
  streamId : BucketStreamId
  generation : ℕ
  pageId : ℕ
deriving DecidableEq

/-- The cold entries of one span of a stream. -/
structure ColdIndexPage where
  startOffset : ℕ
  endOffset : ℕ
  coldChunks : List ColdChunkRef
  externalSegments : List ObjectPayloadRef
deriving DecidableEq

/-- The fields of an entry that a page keeps. -/
structure PageEntry where
  startOffset : ℕ
  endOffset : ℕ
  objectSize : ℕ
  s3Path : String

/-- The first bytes of a page. -/
def coldIndexPageMagic : Bytes := [85, 67, 73, 68, 88, 48, 48, 49]

/-- The version of the format. -/
def coldIndexPageVersion : ℕ := 2

/-- The tag of a chunk's entry. -/
def coldIndexEntryColdChunk : ℕ := 1

/-- The tag of an external payload's entry. -/
def coldIndexEntryExternalSegment : ℕ := 2

/-- The checksum of a body, FNV-1a over 64 bits. -/
def checksum64 (bytes : Bytes) : ℕ :=
  bytes.foldl (fun hash byte => (hash ^^^ byte.toNat) * 0x00000100000001b3 % 2 ^ 64)
    0xcbf29ce484222325

/-! ## Writing a page -/

/-- The UTF-8 bytes of a text. -/
def utf8Bytes (value : String) : Bytes := value.toByteArray.data.toList

/-- A count as a 32-bit number; the encoder stops at a larger one. -/
def expectU32 (count : ℕ) : Option ℕ := if count < 2 ^ 32 then some count else none

/-- Writes one byte. -/
def putU8 (value : ℕ) : Bytes := le 1 value

/-- Writes two bytes. -/
def putU16 (value : ℕ) : Bytes := le 2 value

/-- Writes four bytes. -/
def putU32 (value : ℕ) : Bytes := le 4 value

/-- Writes eight bytes. -/
def putU64 (value : ℕ) : Bytes := le 8 value

/-- Writes a text after its length. -/
def putString (value : String) : Option Bytes := do
  let len ← expectU32 (utf8Bytes value).length
  return putU32 len ++ utf8Bytes value

variable (key : ColdIndexPageKey)

/-- What a page is for, with the marker of streams without an affinity. -/
def putKey : Option Bytes := do
  let bucketId ← putString key.streamId.bucketId
  let streamId ← putString key.streamId.streamId
  return bucketId ++ (putU8 0 ++ (streamId ++ (putU64 key.generation ++ putU64 key.pageId)))

/-- Writes an entry under its tag. -/
def putEntry (tag : ℕ) (entry : PageEntry) : Option Bytes := do
  let s3Path ← putString entry.s3Path
  return putU8 tag ++ (putU64 entry.startOffset ++ (putU64 entry.endOffset ++
    (putU64 entry.objectSize ++ s3Path)))

/-- Writes a chunk's entry. -/
def putColdChunk (chunk : ColdChunkRef) : Option Bytes :=
  putEntry coldIndexEntryColdChunk
    ⟨chunk.startOffset, chunk.endOffset, chunk.objectSize, chunk.s3Path⟩

/-- Writes an external payload's entry. -/
def putExternalSegment (object : ObjectPayloadRef) : Option Bytes :=
  putEntry coldIndexEntryExternalSegment
    ⟨object.startOffset, object.endOffset, object.objectSize, object.s3Path⟩

/-- The body of a page. -/
def encodeBody (page : ColdIndexPage) : Option Bytes := do
  let keyBytes ← putKey key
  let chunkCount ← expectU32 page.coldChunks.length
  let chunks ← spellAll putColdChunk page.coldChunks
  let externalCount ← expectU32 page.externalSegments.length
  let externals ← spellAll putExternalSegment page.externalSegments
  return keyBytes ++ (putU64 page.startOffset ++ (putU64 page.endOffset ++
    (putU32 chunkCount ++ (chunks ++ (putU32 externalCount ++ externals)))))

/-- The text of a page, or nothing when a length or a count does not fit 32 bits. -/
def encodePage (page : ColdIndexPage) : Option Bytes := do
  let body ← encodeBody key page
  let bodyLen ← expectU32 body.length
  return coldIndexPageMagic ++ (putU16 coldIndexPageVersion ++ (putU32 bodyLen ++
    (body ++ putU64 (checksum64 body))))

/-! ## Reading a page -/

/-- The kinds of error that a page request meets; `other` is a failure of the object store. -/
inductive IoErrorKind
  | invalidData
  | unexpectedEof
  | other
deriving DecidableEq

/-- Why a page was not read or written. -/
structure IoError where
  kind : IoErrorKind
  message : String
deriving DecidableEq

/-- The error of data that is not a page. -/
def invalidData (message : String) : IoError := ⟨.invalidData, message⟩

/-- Readers of pages. -/
abbrev PageReader (α : Type) := Reader IoError α

/-- Reads `len` bytes. -/
def readExact (len : ℕ) : PageReader Bytes :=
  slice maxValue (invalidData "cold index page offset overflow")
    ⟨.unexpectedEof, "cold index page ended early"⟩ len

/-- The next `width` bytes as a number. -/
def readLe (width : ℕ) : PageReader ℕ :=
  Cursor.nat maxValue (invalidData "cold index page offset overflow")
    ⟨.unexpectedEof, "cold index page ended early"⟩ width

/-- Reads one byte. -/
def readU8 : PageReader ℕ := readLe 1

/-- Reads two bytes. -/
def readU16 : PageReader ℕ := readLe 2

/-- Reads four bytes. -/
def readU32 : PageReader ℕ := readLe 4

/-- Reads eight bytes. -/
def readU64 : PageReader ℕ := readLe 8

/-- A text from its UTF-8 bytes. -/
def fromUtf8 (bytes : Bytes) : Option String := String.fromUTF8? ⟨bytes.toArray⟩

/-- Reads a text after its length. -/
def readString : PageReader String := do
  let len ← readU32
  let bytes ← readExact len
  orThrow (fromUtf8 bytes) (invalidData "cold index page contains invalid UTF-8")

/-- Reads the key of a page. -/
def readKey : PageReader ColdIndexPageKey := do
  let bucketId ← readString
  let marker ← readU8
  ensure (marker = 0) (invalidData "cold index page has invalid affinity marker")
  let streamId ← readString
  let generation ← readU64
  let pageId ← readU64
  return ⟨⟨bucketId, streamId⟩, generation, pageId⟩

/-- Reads an entry of a tag. -/
def readEntry (tag : ℕ) (refusal : String) : PageReader PageEntry := do
  let found ← readU8
  ensure (found = tag) (invalidData refusal)
  let startOffset ← readU64
  let endOffset ← readU64
  let objectSize ← readU64
  let s3Path ← readString
  return ⟨startOffset, endOffset, objectSize, s3Path⟩

/-- Reads a chunk's entry. -/
def readColdChunk : PageReader ColdChunkRef := do
  let entry ← readEntry coldIndexEntryColdChunk "cold index page expected cold chunk entry"
  return {
    startOffset := entry.startOffset
    endOffset := entry.endOffset
    s3Path := entry.s3Path
    objectSize := entry.objectSize
    objectOffset := 0
    sharedObject := false
    payloadDigest := "" }

/-- Reads an external payload's entry. -/
def readExternalSegment : PageReader ObjectPayloadRef := do
  let entry ← readEntry coldIndexEntryExternalSegment
    "cold index page expected external segment entry"
  return {
    startOffset := entry.startOffset
    endOffset := entry.endOffset
    s3Path := entry.s3Path
    objectSize := entry.objectSize
    objectOffset := 0 }

/-- Reads the body of the page of `key`. -/
def readBody : PageReader ColdIndexPage := do
  let found ← readKey
  ensure (found = key) (invalidData "cold index page key metadata mismatch")
  let startOffset ← readU64
  let endOffset ← readU64
  let coldChunkCount ← readU32
  let coldChunks ← times readColdChunk coldChunkCount
  let externalSegmentCount ← readU32
  let externalSegments ← times readExternalSegment externalSegmentCount
  return ⟨startOffset, endOffset, coldChunks, externalSegments⟩

/-- The frame of a page: its body and the checksum it names. -/
def readFrame : PageReader (Bytes × ℕ) := do
  let magic ← readExact coldIndexPageMagic.length
  ensure (magic = coldIndexPageMagic) (invalidData "cold index page has invalid magic")
  let version ← readU16
  ensure (version = coldIndexPageVersion)
    (invalidData s!"unsupported cold index page version {version}")
  let bodyLen ← readU32
  let body ← readExact bodyLen
  let expectedChecksum ← readU64
  return (body, expectedChecksum)

/-- The page for `key` that a text holds. -/
def decodePage (bytes : Bytes) : Except IoError ColdIndexPage := do
  let frame ← parseAll readFrame (invalidData "cold index page has trailing bytes") bytes
  if checksum64 frame.1 ≠ frame.2 then
    .error (invalidData "cold index page checksum mismatch")
  else
    parseAll (readBody key) (invalidData "cold index page body has trailing bytes") frame.1

/-! ## The grammar of a page -/

/-- The numbers of a key are 64-bit numbers. -/
def ColdIndexPageKey.Typed : Prop :=
  key.generation ≤ maxValue ∧ key.pageId ≤ maxValue

/-- The numbers of an entry have 64 bits. -/
def PageEntry.Typed (entry : PageEntry) : Prop :=
  entry.startOffset ≤ maxValue ∧ entry.endOffset ≤ maxValue ∧ entry.objectSize ≤ maxValue

/-- The fields of a chunk that a page leaves out have the values that reading gives them, and its
numbers are 64-bit numbers. -/
structure PlainChunk (chunk : ColdChunkRef) : Prop where
  typed : PageEntry.Typed ⟨chunk.startOffset, chunk.endOffset, chunk.objectSize, chunk.s3Path⟩
  objectOffset : chunk.objectOffset = 0
  sharedObject : chunk.sharedObject = false
  payloadDigest : chunk.payloadDigest = ""

/-- An external payload that a page spells in full. -/
structure PlainObject (object : ObjectPayloadRef) : Prop where
  typed : PageEntry.Typed ⟨object.startOffset, object.endOffset, object.objectSize, object.s3Path⟩
  objectOffset : object.objectOffset = 0

/-- A page that its text spells in full. -/
structure ColdIndexPage.Plain (page : ColdIndexPage) : Prop where
  startOffset : page.startOffset ≤ maxValue
  endOffset : page.endOffset ≤ maxValue
  chunks : ∀ chunk ∈ page.coldChunks, PlainChunk chunk
  externals : ∀ object ∈ page.externalSegments, PlainObject object

theorem lt_word_iff (n : ℕ) : n < 256 ^ 8 ↔ n ≤ maxValue := by
  unfold maxValue
  omega

variable {bytes : Bytes}

theorem fromUtf8_eq_some {value : String} :
    fromUtf8 bytes = some value ↔ bytes = utf8Bytes value := by
  unfold fromUtf8 String.fromUTF8?
  constructor
  · intro h
    split_ifs at h with hvalid
    cases h
    rfl
  · rintro rfl
    have hbytes : (⟨(utf8Bytes value).toArray⟩ : ByteArray) = value.toByteArray := rfl
    rw [hbytes, dif_pos value.isValidUTF8]
    rfl

theorem expectU32_eq_some {count n : ℕ} : expectU32 count = some n ↔
    count < 2 ^ 32 ∧ count = n := by
  unfold expectU32
  split_ifs with h
  · exact ⟨fun hsome => ⟨h, Option.some.inj hsome⟩, fun hsome => congrArg some hsome.2⟩
  · exact ⟨nofun, fun hsome => absurd hsome.1 h⟩

variable {text : Bytes}

theorem putString_eq_some {value : String} :
    putString value = some text ↔
      (utf8Bytes value).length < 2 ^ 32 ∧
        text = putU32 (utf8Bytes value).length ++ utf8Bytes value := by
  simp only [putString, Option.bind_eq_bind, Option.bind_eq_some_iff, expectU32_eq_some,
    Option.pure_def, Option.some.injEq, and_assoc, exists_and_left, exists_eq_left',
      eq_comm (b := text)]

theorem putKey_eq_some {key : ColdIndexPageKey} :
    putKey key = some text ↔ ∃ bucketId, putString key.streamId.bucketId = some bucketId ∧
      ∃ streamId, putString key.streamId.streamId = some streamId ∧
        bucketId ++ (putU8 0 ++ (streamId ++ (putU64 key.generation ++ putU64 key.pageId))) =
          text := by
  simp only [putKey, Option.bind_eq_bind, Option.bind_eq_some_iff, Option.pure_def,
    Option.some.injEq]

theorem putEntry_eq_some {tag : ℕ} {entry : PageEntry} :
    putEntry tag entry = some text ↔ ∃ s3Path, putString entry.s3Path = some s3Path ∧
      putU8 tag ++ (putU64 entry.startOffset ++ (putU64 entry.endOffset ++
        (putU64 entry.objectSize ++ s3Path))) = text := by
  simp only [putEntry, Option.bind_eq_bind, Option.bind_eq_some_iff, Option.pure_def,
    Option.some.injEq]

variable {page : ColdIndexPage}

theorem encodeBody_eq_some {key : ColdIndexPageKey} :
    encodeBody key page = some text ↔ ∃ keyBytes, putKey key = some keyBytes ∧
      page.coldChunks.length < 2 ^ 32 ∧
      ∃ chunks, spellAll putColdChunk page.coldChunks = some chunks ∧
      page.externalSegments.length < 2 ^ 32 ∧
      ∃ externals, spellAll putExternalSegment page.externalSegments = some externals ∧
      keyBytes ++ (putU64 page.startOffset ++ (putU64 page.endOffset ++
        (putU32 page.coldChunks.length ++ (chunks ++ (putU32 page.externalSegments.length ++
          externals))))) = text := by
  simp only [encodeBody, Option.bind_eq_bind, Option.bind_eq_some_iff, Option.pure_def,
    Option.some.injEq, expectU32_eq_some, and_assoc, exists_and_left, exists_eq_left']

theorem encodePage_eq_some {key : ColdIndexPageKey} :
    encodePage key page = some text ↔ ∃ body, encodeBody key page = some body ∧
      body.length < 2 ^ 32 ∧ coldIndexPageMagic ++ (putU16 coldIndexPageVersion ++
        (putU32 body.length ++ (body ++ putU64 (checksum64 body)))) = text := by
  simp only [encodePage, Option.bind_eq_bind, Option.bind_eq_some_iff, Option.pure_def,
    Option.some.injEq, expectU32_eq_some, and_assoc, exists_and_left, exists_eq_left']

theorem checksum64_le (bytes : Bytes) : checksum64 bytes ≤ maxValue := by
  unfold checksum64
  rcases eq_nil_or_concat bytes with rfl | ⟨front, last, rfl⟩
  · decide
  · rw [concat_eq_append, foldl_concat]
    exact Nat.le_sub_one_of_lt (Nat.mod_lt _ (by decide))

theorem parses_u64 : Parses maxValue readU64 fun n text => n ≤ maxValue ∧ text = putU64 n :=
  (Parses.nat _ _ 8).congr fun n _ => by rw [lt_word_iff]; rfl

theorem parses_u32 : Parses maxValue readU32 fun n text => n < 2 ^ 32 ∧ text = putU32 n :=
  Parses.nat _ _ 4

theorem parses_u8 : Parses maxValue readU8 fun n text => n < 256 ∧ text = putU8 n :=
  Parses.nat _ _ 1

theorem parses_string :
    Parses maxValue readString fun value text => putString value = some text := by
  refine (parses_u32.bind fun len => (Parses.slice _ _ len).bind fun bytes =>
    Parses.orThrow (fromUtf8 bytes) _).congr ?_
  intro value text
  rw [putString_eq_some]
  constructor
  · rintro ⟨_, _, _, ⟨hlen, rfl⟩, ⟨bytes, _, _, ⟨rfl, rfl⟩, ⟨hvalue, rfl⟩, rfl⟩, rfl⟩
    rw [fromUtf8_eq_some] at hvalue
    rw [append_nil, ← hvalue]
    exact ⟨hlen, rfl⟩
  · rintro ⟨hlen, rfl⟩
    exact ⟨_, _, _, ⟨hlen, rfl⟩, ⟨_, _, _, ⟨rfl, rfl⟩, ⟨fromUtf8_eq_some.mpr rfl, rfl⟩,
      (append_nil _).symm⟩, rfl⟩

theorem parses_key :
    Parses maxValue readKey fun key text => key.Typed ∧ putKey key = some text := by
  refine (parses_string.bind fun bucketId => parses_u8.bind fun marker =>
    (Parses.ensure (marker = 0) _).bind fun _ => parses_string.bind fun streamId =>
    parses_u64.bind fun generation => parses_u64.bind fun pageId =>
    Parses.pure (ColdIndexPageKey.mk ⟨bucketId, streamId⟩ generation pageId)).congr ?_
  rintro key text
  rw [putKey_eq_some]
  constructor
  · rintro ⟨bucketId, bucketText, _, hbucket, ⟨_, _, _, ⟨-, rfl⟩, ⟨_, _, _, ⟨rfl, rfl⟩, ⟨streamId,
      streamText, _, hstream, ⟨generation, _, _, ⟨hgeneration, rfl⟩, ⟨pageId, _, _, ⟨hpage, rfl⟩,
      ⟨rfl, rfl⟩, rfl⟩, rfl⟩, rfl⟩, rfl⟩, rfl⟩, rfl⟩
    refine ⟨⟨hgeneration, hpage⟩, bucketText, hbucket, streamText, hstream, ?_⟩
    rw [append_nil, nil_append]
  · rintro ⟨⟨hgeneration, hpage⟩, bucketText, hbucket, streamText, hstream, rfl⟩
    exact ⟨_, _, _, hbucket, ⟨0, _, _, ⟨by decide, rfl⟩, ⟨(), [], _, ⟨rfl, rfl⟩, ⟨_, _, _, hstream,
      ⟨_, _, _, ⟨hgeneration, rfl⟩, ⟨_, _, _, ⟨hpage, rfl⟩, ⟨rfl, rfl⟩, (append_nil _).symm⟩,
      rfl⟩, rfl⟩, rfl⟩, rfl⟩, rfl⟩

theorem parses_entry {tag : ℕ} (htag : tag < 256) (refusal : String) :
    Parses maxValue (readEntry tag refusal) fun entry text =>
      entry.Typed ∧ putEntry tag entry = some text := by
  refine (parses_u8.bind fun found => (Parses.ensure (found = tag) _).bind fun _ =>
    parses_u64.bind fun startOffset => parses_u64.bind fun endOffset =>
    parses_u64.bind fun objectSize => parses_string.bind fun s3Path =>
    Parses.pure (PageEntry.mk startOffset endOffset objectSize s3Path)).congr ?_
  rintro entry text
  rw [putEntry_eq_some]
  constructor
  · rintro ⟨_, _, _, ⟨-, rfl⟩, ⟨_, _, _, ⟨rfl, rfl⟩, ⟨startOffset, _, _, ⟨hstart, rfl⟩, ⟨endOffset,
      _, _, ⟨hend, rfl⟩, ⟨objectSize, _, _, ⟨hsize, rfl⟩, ⟨s3Path, pathText, _, hpath, ⟨rfl, rfl⟩,
      rfl⟩, rfl⟩, rfl⟩, rfl⟩, rfl⟩, rfl⟩
    refine ⟨⟨hstart, hend, hsize⟩, pathText, hpath, ?_⟩
    rw [append_nil, nil_append]
  · rintro ⟨⟨hstart, hend, hsize⟩, pathText, hpath, rfl⟩
    exact ⟨tag, _, _, ⟨htag, rfl⟩, ⟨(), [], _, ⟨rfl, rfl⟩, ⟨_, _, _, ⟨hstart, rfl⟩, ⟨_, _, _,
      ⟨hend, rfl⟩, ⟨_, _, _, ⟨hsize, rfl⟩, ⟨_, _, _, hpath, ⟨rfl, rfl⟩, (append_nil _).symm⟩,
      rfl⟩, rfl⟩, rfl⟩, rfl⟩, rfl⟩

theorem parses_coldChunk :
    Parses maxValue readColdChunk fun chunk text => PlainChunk chunk ∧
      putColdChunk chunk = some text := by
  refine ((parses_entry (by decide) _).bind fun entry => Parses.pure (ColdChunkRef.mk
    entry.startOffset entry.endOffset entry.s3Path entry.objectSize 0 false "")).congr ?_
  rintro ⟨startOffset, endOffset, s3Path, objectSize, objectOffset, sharedObject,
    payloadDigest⟩ text
  constructor
  · rintro ⟨entry, front, _, ⟨htyped, hentry⟩, ⟨hchunk, rfl⟩, rfl⟩
    cases hchunk
    rw [append_nil]
    exact ⟨⟨htyped, rfl, rfl, rfl⟩, hentry⟩
  · rintro ⟨⟨htyped, hoffset, hshared, hdigest⟩, hentry⟩
    cases hoffset
    cases hshared
    cases hdigest
    exact ⟨_, _, _, ⟨htyped, hentry⟩, ⟨rfl, rfl⟩, (append_nil _).symm⟩

theorem parses_externalSegment : Parses maxValue readExternalSegment fun object text =>
      PlainObject object ∧ putExternalSegment object = some text := by
  refine ((parses_entry (by decide) _).bind fun entry => Parses.pure (ObjectPayloadRef.mk
    entry.startOffset entry.endOffset entry.s3Path entry.objectSize 0)).congr ?_
  rintro ⟨startOffset, endOffset, s3Path, objectSize, objectOffset⟩ text
  constructor
  · rintro ⟨entry, front, _, ⟨htyped, hentry⟩, ⟨hobject, rfl⟩, rfl⟩
    cases hobject
    rw [append_nil]
    exact ⟨⟨htyped, rfl⟩, hentry⟩
  · rintro ⟨⟨htyped, hoffset⟩, hentry⟩
    cases hoffset
    exact ⟨_, _, _, ⟨htyped, hentry⟩, ⟨rfl, rfl⟩, (append_nil _).symm⟩

theorem parses_body (key : ColdIndexPageKey) : Parses maxValue (readBody key) fun page text =>
      key.Typed ∧ page.Plain ∧ encodeBody key page = some text := by
  refine (parses_key.bind fun found => (Parses.ensure (found = key) _).bind fun _ =>
    parses_u64.bind fun startOffset => parses_u64.bind fun endOffset =>
    parses_u32.bind fun chunkCount => (parses_coldChunk.times chunkCount).bind fun coldChunks =>
    parses_u32.bind fun externalCount =>
    (parses_externalSegment.times externalCount).bind fun externalSegments =>
    Parses.pure (ColdIndexPage.mk startOffset endOffset coldChunks externalSegments)).congr ?_
  rintro page text
  rw [encodeBody_eq_some]
  constructor
  · rintro ⟨_, keyText, _, ⟨hkey, hkeyText⟩,
      ⟨_, _, _, ⟨rfl, rfl⟩, ⟨startOffset, _, _, ⟨hstart, rfl⟩,
      ⟨endOffset, _, _, ⟨hend, rfl⟩, ⟨_, _, _, ⟨hchunkCount, rfl⟩, ⟨coldChunks, chunkText, _, ⟨rfl,
      hchunks, hchunkText⟩, ⟨_, _, _, ⟨hexternalCount, rfl⟩, ⟨externals, externalText, _, ⟨rfl,
      hexternals, hexternalText⟩, ⟨rfl, rfl⟩, rfl⟩, rfl⟩, rfl⟩, rfl⟩, rfl⟩, rfl⟩, rfl⟩, rfl⟩
    refine ⟨hkey, ⟨hstart, hend, hchunks, hexternals⟩, keyText, hkeyText, hchunkCount, chunkText,
      hchunkText, hexternalCount, externalText, hexternalText, ?_⟩
    rw [append_nil, nil_append]
  · rintro ⟨hkey, ⟨hstart, hend, hchunks, hexternals⟩, keyText, hkeyText, hchunkCount, chunkText,
      hchunkText, hexternalCount, externalText, hexternalText, rfl⟩
    exact ⟨key, _, _, ⟨hkey, hkeyText⟩, ⟨(), [], _, ⟨rfl, rfl⟩, ⟨_, _, _, ⟨hstart, rfl⟩, ⟨_, _, _,
      ⟨hend, rfl⟩, ⟨_, _, _, ⟨hchunkCount, rfl⟩, ⟨_, _, _, ⟨rfl, hchunks, hchunkText⟩, ⟨_, _, _,
      ⟨hexternalCount, rfl⟩, ⟨_, _, _, ⟨rfl, hexternals, hexternalText⟩, ⟨rfl, rfl⟩,
      (append_nil _).symm⟩, rfl⟩, rfl⟩, rfl⟩, rfl⟩, rfl⟩, rfl⟩, rfl⟩

/-- The text of a body and its checksum. -/
def frameText (frame : Bytes × ℕ) : Bytes :=
  coldIndexPageMagic ++ (putU16 coldIndexPageVersion ++ (putU32 frame.1.length ++
    (frame.1 ++ putU64 frame.2)))

theorem parses_frame : Parses maxValue readFrame fun frame text =>
      frame.1.length < 2 ^ 32 ∧ frame.2 ≤ maxValue ∧ text = frameText frame := by
  refine ((Parses.slice _ _ coldIndexPageMagic.length).bind fun magic =>
    (Parses.ensure (magic = coldIndexPageMagic) _).bind fun _ =>
    (Parses.nat _ _ 2).bind fun version => (Parses.ensure (version = coldIndexPageVersion) _).bind
    fun _ => parses_u32.bind fun bodyLen => (Parses.slice _ _ bodyLen).bind fun body =>
    parses_u64.bind fun checksum => Parses.pure (body, checksum)).congr ?_
  rintro ⟨body, checksum⟩ text
  constructor
  · rintro ⟨magic, _, _, ⟨-, rfl⟩, ⟨_, _, _, ⟨rfl, rfl⟩, ⟨version, _, _, ⟨-, rfl⟩, ⟨_, _, _, ⟨rfl,
      rfl⟩, ⟨_, _, _, ⟨hlength, rfl⟩,
        ⟨_, _, _, ⟨rfl, rfl⟩, ⟨_, _, _, ⟨hchecksum, rfl⟩, ⟨hframe, rfl⟩,
      rfl⟩, rfl⟩, rfl⟩, rfl⟩, rfl⟩, rfl⟩, rfl⟩
    cases hframe
    refine ⟨hlength, hchecksum, ?_⟩
    rfl
  · rintro ⟨hlength, hchecksum, rfl⟩
    exact ⟨_, _, _, ⟨rfl, rfl⟩, ⟨(), [], _, ⟨rfl, rfl⟩, ⟨_, _, _, ⟨by decide, rfl⟩, ⟨(), [], _,
      ⟨rfl, rfl⟩, ⟨_, _, _, ⟨hlength, rfl⟩, ⟨_, _, _, ⟨rfl, rfl⟩, ⟨_, _, _, ⟨hchecksum, rfl⟩,
      ⟨rfl, rfl⟩, (append_nil _).symm⟩, rfl⟩, rfl⟩, rfl⟩, rfl⟩, rfl⟩, rfl⟩

theorem length_frameText (frame : Bytes × ℕ) : (frameText frame).length = frame.1.length + 22 := by
  simp only [frameText, length_append, putU16, putU32, putU64, length_le, coldIndexPageMagic,
    length_cons, length_nil]
  omega

/-! ## Whole pages -/

/-- The texts that decode are those that the encoder writes. -/
theorem decodePage_eq_ok {key : ColdIndexPageKey} :
    decodePage key bytes = .ok page ↔
      key.Typed ∧ page.Plain ∧ encodePage key page = some bytes := by
  rw [encodePage_eq_some]
  constructor
  · intro h
    obtain ⟨⟨body, checksum⟩, hframe, hbody⟩ := Checks.bind_eq_ok h
    obtain ⟨hlength, -, rfl⟩ := parses_frame.grammar_of_parseAll hframe
    split_ifs at hbody with hchecksum
    obtain ⟨hkey, hplain, hencode⟩ := (parses_body key).grammar_of_parseAll hbody
    refine ⟨hkey, hplain, body, hencode, hlength, ?_⟩
    rw [not_not.mp hchecksum]
    rfl
  · rintro ⟨hkey, hplain, body, hencode, hlength, rfl⟩
    have hshort : body.length + 22 ≤ maxValue := by
      unfold maxValue
      omega
    have hframe : parseAll readFrame (invalidData "cold index page has trailing bytes")
        (frameText (body, checksum64 body)) = .ok (body, checksum64 body) :=
      parses_frame.parseAll_of_grammar ⟨hlength, checksum64_le body, rfl⟩
        (by rwa [length_frameText])
    show (parseAll readFrame _ (frameText (body, checksum64 body)) >>= _) = _
    rw [hframe]
    show (if checksum64 body ≠ checksum64 body then _ else _) = _
    rw [if_neg (not_not.mpr rfl)]
    exact (parses_body key).parseAll_of_grammar ⟨hkey, hplain, hencode⟩
      (Nat.le_trans (Nat.le_add_right _ _) hshort)

/-- What a text keeps of a chunk. -/
def storedChunk (chunk : ColdChunkRef) : ColdChunkRef :=
  { chunk with objectOffset := 0, sharedObject := false, payloadDigest := "" }

/-- What a text keeps of an external segment. -/
def storedObject (object : ObjectPayloadRef) : ObjectPayloadRef :=
  { object with objectOffset := 0 }

/-- What a text keeps of a page. -/
def ColdIndexPage.stored (page : ColdIndexPage) : ColdIndexPage :=
  { page with
    coldChunks := page.coldChunks.map storedChunk
    externalSegments := page.externalSegments.map storedObject }

theorem PlainChunk.stored_eq {chunk : ColdChunkRef} (h : PlainChunk chunk) :
    storedChunk chunk = chunk := by
  obtain ⟨startOffset, endOffset, s3Path, objectSize, objectOffset, sharedObject, payloadDigest⟩ :=
    chunk
  obtain ⟨-, rfl, rfl, rfl⟩ := h
  rfl

theorem PlainObject.stored_eq {object : ObjectPayloadRef} (h : PlainObject object) :
    storedObject object = object := by
  obtain ⟨startOffset, endOffset, s3Path, objectSize, objectOffset⟩ := object
  obtain ⟨-, rfl⟩ := h
  rfl

/-- The fields that a text leaves out do not show in it. -/
theorem encodePage_stored (key : ColdIndexPageKey) :
    encodePage key page.stored = encodePage key page := by
  have hchunks : spellAll putColdChunk page.stored.coldChunks =
      spellAll putColdChunk page.coldChunks :=
    spellAll_map putColdChunk storedChunk page.coldChunks
  have hexternals : spellAll putExternalSegment page.stored.externalSegments =
      spellAll putExternalSegment page.externalSegments :=
    spellAll_map putExternalSegment storedObject page.externalSegments
  have hchunkCount : page.stored.coldChunks.length = page.coldChunks.length := length_map _
  have hexternalCount : page.stored.externalSegments.length = page.externalSegments.length :=
    length_map _
  unfold encodePage encodeBody
  rw [hchunks, hexternals, hchunkCount, hexternalCount]
  rfl

/-- The length of a page's body. -/
def bodyLength (key : ColdIndexPageKey) (page : ColdIndexPage) : ℕ :=
  (utf8Bytes key.streamId.bucketId).length + (utf8Bytes key.streamId.streamId).length + 49 +
    (page.coldChunks.map fun chunk => (utf8Bytes chunk.s3Path).length + 29).sum +
    (page.externalSegments.map fun object => (utf8Bytes object.s3Path).length + 29).sum

theorem exists_putString {value : String} (h : (utf8Bytes value).length < 2 ^ 32) :
    ∃ text, putString value = some text ∧ text.length = (utf8Bytes value).length + 4 := by
  refine ⟨_, putString_eq_some.mpr ⟨h, rfl⟩, ?_⟩
  rw [length_append, putU32, length_le, Nat.add_comm]

theorem exists_putEntry (tag : ℕ) (entry : PageEntry)
    (h : (utf8Bytes entry.s3Path).length < 2 ^ 32) : ∃ text, putEntry tag entry = some text ∧
      text.length = (utf8Bytes entry.s3Path).length + 29 := by
  obtain ⟨path, hpath, hlength⟩ := exists_putString h
  refine ⟨_, putEntry_eq_some.mpr ⟨path, hpath, rfl⟩, ?_⟩
  simp only [length_append, putU8, putU64, length_le, hlength]
  omega

/-- A list of entries is encoded when the entries together fit 32 bits. -/
theorem exists_putEntries {α : Type} (put : α → Option Bytes) (path : α → String) {entries : List α}
    (hput : ∀ entry, (utf8Bytes (path entry)).length < 2 ^ 32 →
      ∃ text, put entry = some text ∧ text.length = (utf8Bytes (path entry)).length + 29)
    (h : (entries.map fun entry => (utf8Bytes (path entry)).length + 29).sum < 2 ^ 32) :
    entries.length < 2 ^ 32 ∧ ∃ text, spellAll put entries = some text ∧
      text.length = (entries.map fun entry => (utf8Bytes (path entry)).length + 29).sum := by
  constructor
  · have hcount := length_le_sum_of_one_le
      (entries.map fun entry => (utf8Bytes (path entry)).length + 29) (by simp)
    rw [length_map] at hcount
    omega
  · refine exists_spellAll fun entry hentry => hput entry ?_
    have hone := le_sum_of_mem (mem_map_of_mem
      (f := fun entry => (utf8Bytes (path entry)).length + 29) hentry)
    omega

/-- A page whose body fits 32 bits is encoded. -/
theorem exists_encodePage {key : ColdIndexPageKey} (h : bodyLength key page < 2 ^ 32) :
    ∃ bytes, encodePage key page = some bytes := by
  unfold bodyLength at h
  obtain ⟨bucketText, hbucket, hbucketLength⟩ := exists_putString
    (show (utf8Bytes key.streamId.bucketId).length < 2 ^ 32 by omega)
  obtain ⟨streamText, hstream, hstreamLength⟩ := exists_putString
    (show (utf8Bytes key.streamId.streamId).length < 2 ^ 32 by omega)
  obtain ⟨hchunkCount, chunkText, hchunks, hchunkLength⟩ := exists_putEntries
    putColdChunk ColdChunkRef.s3Path (fun chunk => exists_putEntry _ ⟨_, _, _, chunk.s3Path⟩)
    (show (page.coldChunks.map fun chunk => (utf8Bytes chunk.s3Path).length + 29).sum < 2 ^ 32 by
      omega)
  obtain ⟨hexternalCount, externalText, hexternals, hexternalLength⟩ := exists_putEntries
    putExternalSegment ObjectPayloadRef.s3Path
      (fun object => exists_putEntry _ ⟨_, _, _, object.s3Path⟩)
    (show (page.externalSegments.map fun object => (utf8Bytes object.s3Path).length + 29).sum <
      2 ^ 32 by omega)
  have hkey := putKey_eq_some.mpr ⟨bucketText, hbucket, streamText, hstream, rfl⟩
  have hbody := encodeBody_eq_some.mpr
    ⟨_, hkey, hchunkCount, chunkText, hchunks, hexternalCount, externalText, hexternals, rfl⟩
  refine ⟨_, encodePage_eq_some.mpr ⟨_, hbody, ?_, rfl⟩⟩
  simp only [length_append, putU8, putU32, putU64, length_le, hbucketLength, hstreamLength,
    hchunkLength, hexternalLength]
  omega

/-- The frame of a decoded text: its body is the encoded page. -/
theorem exists_frame {key : ColdIndexPageKey} (h : decodePage key bytes = .ok page) :
    ∃ body, encodeBody key page = some body ∧ body.length < 2 ^ 32 ∧
      bytes = frameText (body, checksum64 body) := by
  obtain ⟨-, -, hencode⟩ := decodePage_eq_ok.mp h
  obtain ⟨body, hbody, hlength, rfl⟩ := encodePage_eq_some.mp hencode
  exact ⟨body, hbody, hlength, rfl⟩

/-- No decoded text goes on after another one, and a text decodes for one key only. -/
theorem decodePage_unique {key other : ColdIndexPageKey} {page page' : ColdIndexPage}
    {bytes' : Bytes} (h : decodePage key bytes = .ok page)
    (h' : decodePage other bytes' = .ok page') (hstarts : bytes' <+: bytes) :
    other = key ∧ bytes' = bytes := by
  obtain ⟨rest, hrest⟩ := hstarts
  obtain ⟨body, hbody, hlength, rfl⟩ := exists_frame h
  obtain ⟨body', hbody', hlength', rfl⟩ := exists_frame h'
  have hshort : ∀ {body : Bytes}, body.length < 2 ^ 32 →
      (frameText (body, checksum64 body)).length ≤ maxValue := by
    intro body hlength
    rw [length_frameText, maxValue]
    simp only
    omega
  have hframe := parses_frame.unique ⟨hlength', checksum64_le body', rfl⟩
    ⟨hlength, checksum64_le body, rfl⟩ (hrest.trans (append_nil _).symm) (hshort hlength')
    (hshort hlength)
  obtain rfl : body' = body := congrArg Prod.fst hframe.1
  -- the bodies are one, and each starts with the spelling of its key
  obtain ⟨keyText, hkey, -, _, -, -, _, -, htext⟩ := encodeBody_eq_some.mp hbody
  obtain ⟨otherText, hother, -, _, -, -, _, -, htext'⟩ := encodeBody_eq_some.mp hbody'
  have hspelled : ∀ {spelled rest : Bytes}, spelled ++ rest = body' →
      spelled.length ≤ maxValue := by
    rintro spelled rest rfl
    rw [length_append] at hlength
    unfold maxValue
    omega
  exact ⟨(parses_key.unique ⟨(decodePage_eq_ok.mp h').1, hother⟩ ⟨(decodePage_eq_ok.mp h).1, hkey⟩
    (htext'.trans htext.symm) (hspelled htext') (hspelled htext)).1, rfl⟩

/-- **The codec of cold-index pages is exact.** A page whose entries have the fields that the format
leaves out at their defaults, and whose body fits 32 bits, decodes to itself. A text that decodes is
the one that the encoder writes for its page: no second text decodes to the page, a text with bytes
missing or added decodes for no key, no other key accepts it, and it starts with the magic and the
version. The cursors of a decoding stay within the bytes whatever these are. -/
theorem page_codec_exact (key : ColdIndexPageKey) :
    (∀ page, key.Typed → page.Plain → bodyLength key page < 2 ^ 32 →
      ∃ bytes, encodePage key page = some bytes ∧ decodePage key bytes = .ok page) ∧
    (∀ bytes page, decodePage key bytes = .ok page →
      page.Plain ∧ encodePage key page = some bytes) ∧
    (∀ bytes bytes' page, decodePage key bytes = .ok page → decodePage key bytes' = .ok page →
      bytes = bytes') ∧
    (∀ other bytes bytes' page page', decodePage key bytes = .ok page →
      decodePage other bytes' = .ok page' → bytes' <+: bytes → other = key ∧ bytes' = bytes) ∧
    (∀ bytes page, decodePage key bytes = .ok page →
      coldIndexPageMagic ++ putU16 coldIndexPageVersion <+: bytes) ∧
    (∀ bytes, (readFrame.on (Cursor.new bytes)).2.Inside ∧
      ((readBody key).on (Cursor.new bytes)).2.Inside) := by
  refine ⟨?_, ?_, ?_, ?_, ?_, ?_⟩
  · intro page hkey hplain hlength
    obtain ⟨bytes, hencode⟩ := exists_encodePage hlength
    exact ⟨bytes, hencode, decodePage_eq_ok.mpr ⟨hkey, hplain, hencode⟩⟩
  · intro bytes page h
    exact (decodePage_eq_ok.mp h).2
  · intro bytes bytes' page h h'
    have hencode := (decodePage_eq_ok.mp h).2.2
    rw [(decodePage_eq_ok.mp h').2.2] at hencode
    exact (Option.some.inj hencode).symm
  · intro other bytes bytes' page page' h h' hstarts
    exact decodePage_unique h h' hstarts
  · intro bytes page h
    obtain ⟨body, -, -, rfl⟩ := exists_frame h
    exact prefix_append _ _
  · intro bytes
    exact ⟨(parses_frame.within (inside_new bytes)).2.2,
      ((parses_body key).within (inside_new bytes)).2.2⟩

/-- A page with a chunk and an external segment decodes to itself. -/
theorem page_codec_sample :
    let key : ColdIndexPageKey := ⟨⟨"bkt1", "s"⟩, 1, 0⟩
    let page : ColdIndexPage :=
      ⟨0, 64, [⟨0, 2, "bkt1/c", 2, 0, false, ""⟩], [⟨2, 4, "bkt1/e", 2, 0⟩]⟩
    ∃ bytes, encodePage key page = some bytes ∧ decodePage key bytes = .ok page := by
  intro key page
  refine (page_codec_exact key).1 page ⟨by decide, by decide⟩ ⟨by decide, by decide, ?_, ?_⟩
    (by decide +kernel)
  · intro chunk hchunk
    obtain rfl := mem_singleton.mp hchunk
    exact ⟨⟨by decide, by decide, by decide⟩, rfl, rfl, rfl⟩
  · intro object hobject
    obtain rfl := mem_singleton.mp hobject
    exact ⟨⟨by decide, by decide, by decide⟩, rfl⟩

end Ursula.Runtime
