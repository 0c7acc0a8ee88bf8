import Ursula.Lib.ByteReader
import Ursula.Wal.Journal

/-!
# The bytes of a segment

A segment's file is a header, which names the segment's sequence, and one frame a record. A frame's
length is checked under the sequence, and its payload under a checksum continued from that of the
length. A writer encodes frames behind what the file holds; a scan verifies them from the front and
visits each record with its position, up to the first frame it cannot verify.

## Main definitions

* `FrameCodec`: how records become payloads and back
* `crc32From`, `headerChecksum`, `payloadChecksum`: the checksums
* `encodeHeader`, `parseHeader`, `FrameHeader.parse`: headers of files and of frames
* `JournalWriter`: the writer, with `open`, `append` and `flush`
* `scan`, `readFrame`: the read of a whole file, and of one frame

## Main results

* `parseHeader_encodeHeader`: a header reads back
* `front_encodeFrame`, `front_cut`, `front_eq_frame`: what a scan makes of a frame, of a cut frame,
  and which bytes it takes for a frame
* `JournalWriter.run_eq`: a writer leaves the frames of its records, at the positions it returned
-/

namespace Ursula.Wal

open List

open ByteReader (le unle)

/-! ## Checksums -/

/-- One bit of the reflected CRC-32 division. -/
def crcRound (crc : UInt32) : UInt32 :=
  if crc &&& 1 = 1 then (crc >>> 1) ^^^ 0xEDB88320 else crc >>> 1

/-- The checksum after one more byte. -/
def crcByte (crc : UInt32) (byte : UInt8) : UInt32 := crcRound^[8] (crc ^^^ byte.toUInt32)

/-- The CRC-32 of `bytes`, continued from a checksum. -/
def crc32From (initial : UInt32) (bytes : List UInt8) : UInt32 :=
  ~~~(bytes.foldl crcByte (~~~initial))

variable (bytes : List UInt8)

/-- The CRC-32 of bytes. -/
def crc32 : UInt32 := crc32From 0 bytes

-- the check value of CRC-32: the digits 1 to 9
example : crc32 [49, 50, 51, 52, 53, 54, 55, 56, 57] = 0xCBF43926 := by decide +kernel

/-- The checksum of a frame's length within segment `sequence`. -/
def headerChecksum (sequence len : ℕ) : UInt32 := crc32From (crc32 (le 8 sequence)) (le 4 len)

/-- The checksum of the sequence, the length and the payload, continued from that of the first
two. -/
def payloadChecksum (headerChecksum : UInt32) (payload : List UInt8) : UInt32 :=
  crc32From headerChecksum payload

/-! ## The file's header -/

/-- Why a header does not verify. -/
inductive HeaderDefect
  | torn
  | checksum
  | length (found : ℕ)
  | reserved
  | sequence (expected found : ℕ)
deriving DecidableEq

/-- Why a file does not start with a header. -/
inductive HeaderFault
  | notAJournal
  | version (version : ℕ)
  | defect (defect : HeaderDefect)
deriving DecidableEq

/-- Why a frame does not verify. -/
inductive FrameDefect
  | headerChecksum
  | payloadChecksum
  | length (expected found : ℕ)
deriving DecidableEq

/-- Why a journal's file does not read; `ε` is what a visitor answers. -/
inductive JournalError (ε : Type)
  | notAJournal
  | unsupportedVersion (version : ℕ)
  | corruptHeader (defect : HeaderDefect)
  | corruptFrame (frame offset : ℕ) (defect : FrameDefect)
  | corruptFrameAt (offset : ℕ) (defect : FrameDefect)
  | oversizedFrame (frame offset declared : ℕ)
  | undecodable (frame offset : ℕ)
  | undecodableAt (offset : ℕ)
  | rejected (frame offset : ℕ) (source : ε)
  /-- The file ends before the bytes asked for. -/
  | read
deriving DecidableEq

/-- The error of a file whose header has a fault. -/
def HeaderFault.intoError {ε : Type} : HeaderFault → JournalError ε
  | .notAJournal => .notAJournal
  | .version found => .unsupportedVersion found
  | .defect found => .corruptHeader found

/-- The first bytes of every segment: `URSJWAL` and a zero. -/
def journalMagic : List UInt8 := [85, 82, 83, 74, 87, 65, 76, 0]

/-- The version of the format. -/
def journalVersion : ℕ := 7

/-- The part of the header that its checksum covers. -/
def journalHeaderCheckedLen : ℕ := 28

/-- Four bytes that are zero. -/
def reserved : List UInt8 := [0, 0, 0, 0]

variable (sequence : ℕ)

/-- What the checksum of segment `sequence`'s header covers. -/
def checkedHeader : List UInt8 :=
  journalMagic ++ le 2 journalVersion ++ le 2 journalHeaderLen ++ reserved ++
    le 8 sequence ++ reserved

/-- The header of segment `sequence`. -/
def encodeHeader : List UInt8 :=
  checkedHeader sequence ++ le 4 (crc32 (checkedHeader sequence)).toNat

/-- The fault of a file that ends within its header. -/
def torn : HeaderFault := .defect .torn

/-- The fields of the header that `bytes` start with, checked in the order of the format. -/
def headerFields : ByteReader HeaderFault ℕ := do
  let _ ← ByteReader.take torn 8
  let version ← ByteReader.nat torn 2
  if version ≠ journalVersion then throw (.version version)
  else if bytes.length < journalHeaderCheckedLen then throw torn
  else
    let headerLen ← ByteReader.nat torn 2
    let firstReserved ← ByteReader.take torn 4
    let sequence ← ByteReader.nat torn 8
    let secondReserved ← ByteReader.take torn 4
    let checksum ← ByteReader.nat torn 4
    if (crc32 (bytes.take journalHeaderCheckedLen)).toNat ≠ checksum then throw (.defect .checksum)
    else if headerLen ≠ journalHeaderLen then throw (.defect (.length headerLen))
    else if firstReserved ≠ reserved ∨ secondReserved ≠ reserved then throw (.defect .reserved)
    else return sequence

/-- Check a file header and return its sequence. `bytes` holds the file's first bytes, at most a
whole header. -/
def parseHeader : Except HeaderFault ℕ :=
  let magicLen := min bytes.length journalMagic.length
  if bytes.take magicLen ≠ journalMagic.take magicLen then .error .notAJournal
  else (headerFields bytes).run' bytes

@[simp] theorem length_checkedHeader :
    (checkedHeader sequence).length = journalHeaderCheckedLen := by
  simp [checkedHeader, journalMagic, reserved, journalHeaderCheckedLen]

@[simp] theorem length_encodeHeader : (encodeHeader sequence).length = journalHeaderLen := by
  simp [encodeHeader, journalHeaderCheckedLen, journalHeaderLen]

theorem take_encodeHeader :
    (encodeHeader sequence).take journalHeaderCheckedLen = checkedHeader sequence := by
  rw [encodeHeader, ← length_checkedHeader sequence, take_left]

theorem reads_headerFields {sequence : ℕ} (h : sequence < 2 ^ 64) :
    ByteReader.Reads (headerFields (encodeHeader sequence)) torn (encodeHeader sequence)
      sequence := by
  have hfields : encodeHeader sequence = journalMagic ++ (le 2 journalVersion ++
      (le 2 journalHeaderLen ++ (reserved ++ (le 8 sequence ++ (reserved ++
        (le 4 (crc32 (checkedHeader sequence)).toNat ++ [])))))) := by
    simp [encodeHeader, checkedHeader]
  have hlong : ¬(encodeHeader sequence).length < journalHeaderCheckedLen := by
    rw [length_encodeHeader]
    decide
  have hmagic : journalMagic.length = 8 := rfl
  have hreserved : reserved.length = 4 := rfl
  have hversion : journalVersion < 256 ^ 2 := by decide
  have hlen : journalHeaderLen < 256 ^ 2 := by decide
  have hcrc := (crc32 (checkedHeader sequence)).toNat_lt
  unfold headerFields
  rw [take_encodeHeader, if_neg hlong]
  nth_rewrite 1 [hfields]
  refine (ByteReader.Reads.take' hmagic).bind ?_
  refine (ByteReader.Reads.nat hversion).bind ?_
  refine (ByteReader.Reads.nat hlen).bind ?_
  refine (ByteReader.Reads.take' hreserved).bind ?_
  refine (ByteReader.Reads.nat h).bind ?_
  refine (ByteReader.Reads.take' hreserved).bind ?_
  refine (ByteReader.Reads.nat hcrc).bind ?_
  rw [if_neg (not_not.mpr rfl), if_neg (not_not.mpr rfl), if_neg (by simp)]
  exact ByteReader.Reads.pure sequence

/-- **A header reads back**. -/
theorem parseHeader_encodeHeader {sequence : ℕ} (h : sequence < 2 ^ 64) :
    parseHeader (encodeHeader sequence) = .ok sequence := by
  have hmagic : (encodeHeader sequence).take 8 = journalMagic := by
    simp [encodeHeader, checkedHeader, journalMagic]
  have hread := (reads_headerFields h).whole []
  rw [append_nil] at hread
  unfold parseHeader
  rw [if_neg (by simpa [journalHeaderLen, journalMagic] using hmagic), StateT.run'_eq, hread]
  rfl

/-! ## Frames -/

/-- How one record becomes a frame's payload and back. -/
class FrameCodec (R : Type) where
  encode : R → List UInt8
  decode : List UInt8 → Option R
  decode_encode : ∀ record, decode (encode record) = some record

export FrameCodec (encode decode decode_encode)

attribute [simp] decode_encode

/-- The header of a frame. -/
structure FrameHeader where
  len : ℕ
  headerChecksum : UInt32
  payloadChecksum : UInt32

/-- The three fields of a frame's header. -/
def FrameHeader.parse : FrameHeader where
  len := unle (bytes.take 4)
  headerChecksum := UInt32.ofNat (unle ((bytes.drop 4).take 4))
  payloadChecksum := UInt32.ofNat (unle ((bytes.drop 8).take 4))

/-- The header of a frame. -/
def encodeFrameHeader (sequence : ℕ) (payload : List UInt8) : List UInt8 :=
  le 4 payload.length ++ le 4 (headerChecksum sequence payload.length).toNat ++
    le 4 (payloadChecksum (headerChecksum sequence payload.length) payload).toNat

/-- A frame. -/
def encodeFrame (sequence : ℕ) (payload : List UInt8) : List UInt8 :=
  encodeFrameHeader sequence payload ++ payload

@[simp] theorem length_encodeFrameHeader (sequence : ℕ) (payload : List UInt8) :
    (encodeFrameHeader sequence payload).length = frameHeaderLen := by
  simp [encodeFrameHeader, frameHeaderLen]

@[simp] theorem length_encodeFrame (sequence : ℕ) (payload : List UInt8) :
    (encodeFrame sequence payload).length = frameHeaderLen + payload.length := by
  simp [encodeFrame]

theorem parse_encodeFrameHeader {sequence : ℕ} {payload : List UInt8}
    (h : payload.length < 2 ^ 32) :
    FrameHeader.parse (encodeFrameHeader sequence payload) =
      ⟨payload.length, headerChecksum sequence payload.length,
        payloadChecksum (headerChecksum sequence payload.length) payload⟩ := by
  have hfour : ∀ n : UInt32, UInt32.ofNat (unle (le 4 n.toNat)) = n := fun n => by
    rw [ByteReader.unle_le n.toNat_lt, UInt32.ofNat_toNat]
  have hlen : unle (le 4 payload.length) = payload.length := ByteReader.unle_le h
  have hpast : (le 4 payload.length).drop 8 = [] := drop_of_length_le (by simp)
  have hwhole : ∀ n, (le 4 n).take 4 = le 4 n := fun n => take_of_length_le (by simp)
  simp [FrameHeader.parse, encodeFrameHeader, drop_append, hfour, hlen, hpast, hwhole]

/-- A frame's header is the one of what it names. -/
theorem eq_encodeFrameHeader {sequence : ℕ} {bytes payload : List UInt8}
    (hlen : bytes.length = frameHeaderLen)
    (hpayload : (FrameHeader.parse bytes).len = payload.length)
    (hheader : (FrameHeader.parse bytes).headerChecksum = headerChecksum sequence payload.length)
    (hchecksum : (FrameHeader.parse bytes).payloadChecksum =
      payloadChecksum (headerChecksum sequence payload.length) payload) :
    bytes = encodeFrameHeader sequence payload := by
  have hfour : ∀ part : List UInt8, part.length = 4 →
      le 4 (UInt32.ofNat (unle part)).toNat = part ∧ le 4 (unle part) = part := fun part hpart => by
    have hlt : unle part < 2 ^ 32 := by
      have := ByteReader.unle_lt part
      rwa [hpart] at this
    have hle : le 4 (unle part) = part := by rw [← hpart, ByteReader.le_unle]
    rw [UInt32.toNat_ofNat_of_lt' hlt]
    exact ⟨hle, hle⟩
  have hsplit : bytes = bytes.take 4 ++ (bytes.drop 4).take 4 ++ (bytes.drop 8).take 4 := by
    have hrest : (bytes.drop 8).take 4 = bytes.drop 8 :=
      take_of_length_le (by simp [hlen, frameHeaderLen])
    rw [hrest, append_assoc, show bytes.drop 8 = (bytes.drop 4).drop 4 by simp,
      take_append_drop, take_append_drop]
  have hfirst : le 4 payload.length = bytes.take 4 := by
    rw [← hpayload]
    exact (hfour _ (by simp [hlen, frameHeaderLen])).2
  have hsecond : le 4 (headerChecksum sequence payload.length).toNat = (bytes.drop 4).take 4 := by
    rw [← hheader]
    exact (hfour _ (by simp [hlen, frameHeaderLen])).1
  have hthird : le 4 (payloadChecksum (headerChecksum sequence payload.length) payload).toNat =
      (bytes.drop 8).take 4 := by
    rw [← hchecksum]
    exact (hfour _ (by simp [hlen, frameHeaderLen])).1
  rw [encodeFrameHeader, hfirst, hsecond, hthird]
  exact hsplit

/-! ## The scan of a file -/

/-- What follows the verified frames of a replayed journal. -/
inductive ReplayTail
  | clean
  | incomplete (bytes : ℕ)
  | unverified (frame bytes : ℕ) (defect : FrameDefect)
deriving DecidableEq

/-- What a replay verified. -/
structure Replayed where
  sequence : Option ℕ
  frames : ℕ
  verifiedLen : ℕ
  tail : ReplayTail
deriving DecidableEq

/-- What a missing or empty file replays to. -/
def Replayed.empty : Replayed := ⟨none, 0, 0, .clean⟩

variable {R ε σ : Type}

/-- The header at the front of a text. -/
def frontHeader (rest : List UInt8) : FrameHeader := FrameHeader.parse (rest.take frameHeaderLen)

/-- The payload the front header names. -/
def frontPayload (rest : List UInt8) : List UInt8 :=
  (rest.drop frameHeaderLen).take (frontHeader rest).len

/-- The header at the front of `rest` verifies in segment `sequence`. -/
def HeaderVerifies (sequence : ℕ) (rest : List UInt8) : Prop :=
  frameHeaderLen ≤ rest.length ∧
    (frontHeader rest).headerChecksum = headerChecksum sequence (frontHeader rest).len

/-- So does the whole frame. -/
def FrameVerifies (sequence : ℕ) (rest : List UInt8) : Prop :=
  HeaderVerifies sequence rest ∧ frameHeaderLen + (frontHeader rest).len ≤ rest.length ∧
    payloadChecksum (frontHeader rest).headerChecksum (frontPayload rest) =
      (frontHeader rest).payloadChecksum

variable {rest : List UInt8}

theorem length_frontPayload (h : frameHeaderLen + (frontHeader rest).len ≤ rest.length) :
    (frontPayload rest).length = (frontHeader rest).len := by
  rw [frontPayload, length_take, length_drop]
  omega

/-- The only bytes that verify are those the segment's writer encodes. -/
theorem FrameVerifies.eq_append {sequence : ℕ} (h : FrameVerifies sequence rest) :
    rest = encodeFrame sequence (frontPayload rest) ++
      (rest.drop frameHeaderLen).drop (frontHeader rest).len := by
  obtain ⟨⟨hshort, hheader⟩, hwhole, hpayload⟩ := h
  have hlen := length_frontPayload hwhole
  have hbytes : rest.take frameHeaderLen = encodeFrameHeader sequence (frontPayload rest) := by
    refine eq_encodeFrameHeader (by rw [length_take]; omega) hlen.symm ?_ ?_
    · rw [hlen]
      exact hheader
    · rw [hlen, ← hheader]
      exact hpayload.symm
  rw [encodeFrame, ← hbytes, append_assoc, frontPayload, take_append_drop, take_append_drop]

/-- What a scan finds where the file goes on. -/
inductive Front (R : Type)
  | nothing
  | incomplete
  | defect (defect : FrameDefect)
  | oversized (declared : ℕ)
  | undecodable
  | frame (len : ℕ) (record : R)

/-- What stands at the front of `rest` in segment `sequence`. -/
def front [FrameCodec R] (sequence : ℕ) (rest : List UInt8) : Front R :=
  if rest.length = 0 then .nothing
  else if rest.length < frameHeaderLen then .incomplete
  else if (frontHeader rest).headerChecksum ≠ headerChecksum sequence (frontHeader rest).len then
    .defect .headerChecksum
  else if maxFramePayloadBytes < (frontHeader rest).len then .oversized (frontHeader rest).len
  else if rest.length - frameHeaderLen < (frontHeader rest).len then .incomplete
  else if payloadChecksum (frontHeader rest).headerChecksum (frontPayload rest) ≠
      (frontHeader rest).payloadChecksum then
    .defect .payloadChecksum
  else
    match decode (frontPayload rest) with
    | none => .undecodable
    | some record => .frame (frontHeader rest).len record

/-- A scan takes for a frame only bytes that the segment's writer encodes. -/
theorem front_eq_frame [FrameCodec R] {sequence len : ℕ} {record : R}
    (h : front sequence rest = .frame len record) :
    ∃ payload after, rest = encodeFrame sequence payload ++ after ∧ payload.length = len ∧
      len ≤ maxFramePayloadBytes ∧ decode payload = some record := by
  unfold front at h
  split at h
  · cases h
  split at h
  · cases h
  split at h
  · cases h
  split at h
  · cases h
  split at h
  · cases h
  split at h
  · cases h
  rename_i hempty hshort hheader hlarge hcut hpayload
  cases hdecode : (decode (frontPayload rest) : Option R) with
  | none =>
    rw [hdecode] at h
    cases h
  | some found =>
    rw [hdecode] at h
    cases h
    push Not at hheader hpayload
    have hwhole : frameHeaderLen + (frontHeader rest).len ≤ rest.length := by omega
    exact ⟨frontPayload rest, _,
      FrameVerifies.eq_append ⟨⟨Nat.not_lt.mp hshort, hheader⟩, hwhole, hpayload⟩,
      length_frontPayload hwhole, Nat.not_lt.mp hlarge, hdecode⟩

theorem frontHeader_append {sequence : ℕ} {payload after : List UInt8}
    (h : payload.length < 2 ^ 32) :
    frontHeader (encodeFrameHeader sequence payload ++ after) =
      ⟨payload.length, headerChecksum sequence payload.length,
        payloadChecksum (headerChecksum sequence payload.length) payload⟩ := by
  rw [frontHeader, take_left' (length_encodeFrameHeader sequence payload),
    parse_encodeFrameHeader h]

/-- What fits in a frame has a length of four bytes. -/
theorem lt_of_le_max {n : ℕ} (h : n ≤ maxFramePayloadBytes) : n < 2 ^ 32 := h.trans_lt (by decide)

/-- A frame is taken whole, whatever follows it. -/
theorem front_encodeFrame [FrameCodec R] {sequence : ℕ} {record : R} (after : List UInt8)
    (h : (encode record).length ≤ maxFramePayloadBytes) :
    front sequence (encodeFrame sequence (encode record) ++ after) =
      .frame (encode record).length record := by
  have hlt := lt_of_le_max h
  have hpayload : frontPayload (encodeFrame sequence (encode record) ++ after) = encode record := by
    rw [frontPayload, encodeFrame, append_assoc, frontHeader_append hlt,
      drop_left' (length_encodeFrameHeader sequence (encode record)), take_left]
  unfold front
  rw [hpayload]
  rw [encodeFrame, append_assoc, frontHeader_append hlt]
  simp only [length_append, length_encodeFrameHeader]
  rw [if_neg (by simp [frameHeaderLen]), if_neg (by omega), if_neg (by simp),
    if_neg (Nat.not_lt.mpr h), if_neg (by omega), if_neg (by simp), decode_encode]

/-- A frame that is cut short is incomplete, or nothing when none of it is left. -/
theorem front_cut [FrameCodec R] {sequence : ℕ} {payload part : List UInt8}
    (hfit : payload.length ≤ maxFramePayloadBytes) (hpart : part <+: encodeFrame sequence payload)
    (hlt : part.length < frameHeaderLen + payload.length) :
    (front sequence part : Front R) = if part = [] then .nothing else .incomplete := by
  unfold front
  by_cases hempty : part = []
  · rw [if_pos (by simp [hempty]), if_pos hempty]
  rw [if_neg (by simpa using hempty), if_neg hempty]
  by_cases hshort : part.length < frameHeaderLen
  · rw [if_pos hshort]
  rw [if_neg hshort]
  -- the whole header is there, and some of the payload is not
  obtain ⟨after, rfl⟩ : encodeFrameHeader sequence payload <+: part :=
    prefix_of_prefix_length_le (prefix_append _ _) hpart (by simpa using hshort)
  rw [frontHeader_append (lt_of_le_max hfit), if_neg (by simp),
    if_neg (Nat.not_lt.mpr hfit), if_pos]
  simp only [length_append, length_encodeFrameHeader] at hlt ⊢
  omega

/-- The verification loop behind `frames` frames, where the file goes on with `rest` at `offset`;
`visit` takes each record with its place. -/
def scanFrames [FrameCodec R] (mode : JournalReplayMode)
    (visit : σ → FrameLoc → R → Except ε σ) (sequence frames offset : ℕ) (rest : List UInt8)
    (state : σ) : σ × Except (JournalError ε) Replayed :=
  match _hfront : front sequence rest with
  | .nothing => (state, .ok ⟨some sequence, frames, offset, .clean⟩)
  | .incomplete => (state, .ok ⟨some sequence, frames, offset, .incomplete rest.length⟩)
  | .defect defect =>
    match mode with
    | .strict => (state, .error (.corruptFrame (frames + 1) offset defect))
    | .verifiedPrefix =>
      (state, .ok ⟨some sequence, frames, offset, .unverified (frames + 1) rest.length defect⟩)
  | .oversized declared => (state, .error (.oversizedFrame (frames + 1) offset declared))
  | .undecodable => (state, .error (.undecodable (frames + 1) offset))
  | .frame len record =>
    match visit state ⟨offset, len⟩ record with
    | .error source => (state, .error (.rejected (frames + 1) offset source))
    | .ok next =>
      scanFrames mode visit sequence (frames + 1) (offset + frameHeaderLen + len)
        (rest.drop (frameHeaderLen + len)) next
termination_by rest.length
decreasing_by
  obtain ⟨payload, after, rfl, -⟩ := front_eq_frame _hfront
  simp only [List.length_drop, List.length_append, length_encodeFrame, frameHeaderLen]
  omega

/-- Verify every frame of a file, and visit each record with its place. -/
def scan [FrameCodec R] (mode : JournalReplayMode) (visit : σ → FrameLoc → R → Except ε σ)
    (file : List UInt8) (state : σ) : σ × Except (JournalError ε) Replayed :=
  if file.length = 0 then (state, .ok .empty)
  else
    match parseHeader (file.take journalHeaderLen) with
    | .error fault => (state, .error fault.intoError)
    | .ok sequence =>
      scanFrames mode visit sequence 0 journalHeaderLen (file.drop journalHeaderLen) state

/-- The visitor that keeps what it is shown. -/
def collect (visited : List (FrameLoc × R)) (loc : FrameLoc) (record : R) :
    Except Empty (List (FrameLoc × R)) :=
  .ok (visited ++ [(loc, record)])

/-- Read the frame at `loc` of segment `sequence`, verify it as a scan would and decode it. -/
def readFrame [FrameCodec R] (file : List UInt8) (sequence : ℕ) (loc : FrameLoc) :
    Except (JournalError ε) R :=
  let buf := (file.drop loc.offset).take loc.fileBytes
  if maxFramePayloadBytes < loc.len then .error (.oversizedFrame 0 loc.offset loc.len)
  else if buf.length < loc.fileBytes then .error .read
  else if (frontHeader buf).len ≠ loc.len then
    .error (.corruptFrameAt loc.offset (.length loc.len (frontHeader buf).len))
  else if (frontHeader buf).headerChecksum ≠ headerChecksum sequence (frontHeader buf).len then
    .error (.corruptFrameAt loc.offset .headerChecksum)
  else if payloadChecksum (frontHeader buf).headerChecksum (buf.drop frameHeaderLen) ≠
      (frontHeader buf).payloadChecksum then
    .error (.corruptFrameAt loc.offset .payloadChecksum)
  else
    match decode (buf.drop frameHeaderLen) with
    | none => .error (.undecodableAt loc.offset)
    | some record => .ok record

/-! ## The writer -/

/-- A record whose encoding does not fit in one frame. -/
structure RecordTooLarge where
  len : ℕ
  limit : ℕ
deriving DecidableEq

/-- The single writer of one segment: what the file holds, and the frames not written to it yet. -/
structure JournalWriter where
  file : List UInt8
  sequence : ℕ
  written : ℕ
  pending : List UInt8
  /-- What is counted as written is what the file holds. -/
  written_eq : written = file.length

namespace JournalWriter

/-- Open the segment `sequence` for appending: a missing or empty file becomes a new segment, and an
existing one must be this segment. -/
def «open» (file : List UInt8) (sequence : ℕ) : Except (JournalError ε) JournalWriter :=
  if file.length = 0 then .ok ⟨file, sequence, file.length, encodeHeader sequence, rfl⟩
  else
    match parseHeader (file.take journalHeaderLen) with
    | .error fault => .error fault.intoError
    | .ok found =>
      if found ≠ sequence then .error (.corruptHeader (.sequence sequence found))
      else .ok ⟨file, sequence, file.length, [], rfl⟩

/-- The length of the file once the pending frames are written. -/
def len (writer : JournalWriter) : ℕ := writer.written + writer.pending.length

/-- Encode a record as the next frame, and return where it starts. -/
def append [FrameCodec R] (writer : JournalWriter) (record : R) :
    Except RecordTooLarge (FrameLoc × JournalWriter) :=
  let payload := encode record
  if payload.length < 2 ^ 32 ∧ payload.length ≤ maxFramePayloadBytes then
    .ok (⟨writer.len, payload.length⟩,
      { writer with pending := writer.pending ++ encodeFrame writer.sequence payload })
  else .error ⟨payload.length, maxFramePayloadBytes⟩

/-- Write the pending frames to the file. -/
def flush (writer : JournalWriter) : JournalWriter where
  file := writer.file ++ writer.pending
  sequence := writer.sequence
  written := writer.len
  pending := []
  written_eq := by rw [len, writer.written_eq, List.length_append]

end JournalWriter

/-- What a writer is asked for. -/
inductive Write (R : Type)
  | append (record : R)
  | flush

/-- The record a request adds. -/
def Write.record? : Write R → Option R
  | .append record => some record
  | .flush => none

/-- A writer's answers to requests, in order. -/
def JournalWriter.run [FrameCodec R] :
    JournalWriter → List (Write R) → Except RecordTooLarge (List FrameLoc × JournalWriter)
  | writer, [] => .ok ([], writer)
  | writer, .append record :: writes => do
    let (loc, next) ← writer.append record
    let (locs, last) ← next.run writes
    return (loc :: locs, last)
  | writer, .flush :: writes => writer.flush.run writes

/-- The frames of records. -/
def frames [FrameCodec R] (sequence : ℕ) (records : List R) : List UInt8 :=
  records.flatMap fun record => encodeFrame sequence (encode record)

/-- Records with the places of their frames from `offset` on. -/
def placed [FrameCodec R] (offset : ℕ) : List R → List (FrameLoc × R)
  | [] => []
  | record :: records =>
    (⟨offset, (encode record).length⟩, record) ::
      placed (offset + frameHeaderLen + (encode record).length) records

section

variable [FrameCodec R]

@[simp] theorem frames_cons (sequence : ℕ) (record : R) (records : List R) :
    frames sequence (record :: records) =
      encodeFrame sequence (encode record) ++ frames sequence records := rfl

@[simp] theorem frames_nil (sequence : ℕ) : frames sequence ([] : List R) = [] := rfl

theorem frames_append (sequence : ℕ) (records more : List R) :
    frames sequence (records ++ more) = frames sequence records ++ frames sequence more :=
  flatMap_append

theorem placed_append (sequence offset : ℕ) (records more : List R) :
    placed offset (records ++ more) =
      placed offset records ++ placed (offset + (frames sequence records).length) more := by
  induction records generalizing offset with
  | nil => rfl
  | cons record records ih => simp [placed, ih, Nat.add_assoc]

/-- Every record fits a frame. -/
def Fits (records : List R) : Prop :=
  ∀ record ∈ records, (encode record).length ≤ maxFramePayloadBytes

/-- **A writer leaves the frames of its records, at the positions it returned**. -/
theorem JournalWriter.run_eq (writer : JournalWriter) (writes : List (Write R))
    (h : Fits (writes.filterMap Write.record?)) :
    ∃ locs last, writer.run writes = .ok (locs, last) ∧
      locs = (placed writer.len (writes.filterMap Write.record?)).map Prod.fst ∧
      last.flush.file = writer.flush.file ++
        frames writer.sequence (writes.filterMap Write.record?) := by
  induction writes generalizing writer with
  | nil => exact ⟨[], writer, rfl, rfl, by simp⟩
  | cons write writes ih =>
    cases write with
    | flush =>
      rw [filterMap_cons_none rfl] at h ⊢
      obtain ⟨locs, last, hrun, hlocs, hfile⟩ := ih writer.flush h
      refine ⟨locs, last, hrun, ?_, ?_⟩
      · simpa [JournalWriter.flush, JournalWriter.len] using hlocs
      · simpa [JournalWriter.flush] using hfile
    | append record =>
      have hfit : (encode record).length ≤ maxFramePayloadBytes :=
        h record (by simp [Write.record?])
      let next : JournalWriter :=
        { writer with pending := writer.pending ++ encodeFrame writer.sequence (encode record) }
      have happend : writer.append record = .ok (⟨writer.len, (encode record).length⟩, next) := by
        exact if_pos ⟨lt_of_le_max hfit, hfit⟩
      obtain ⟨locs, last, hrun, hlocs, hfile⟩ :=
        ih next fun r hr => h r (by simp [Write.record?] at hr ⊢; exact .inr hr)
      refine ⟨⟨writer.len, (encode record).length⟩ :: locs, last, ?_, ?_, ?_⟩
      · rw [JournalWriter.run, happend]
        simp only [bind, Except.bind, hrun]
        rfl
      · have hlen : next.len = writer.len + frameHeaderLen + (encode record).length := by
          simp [next, JournalWriter.len, Nat.add_assoc]
        rw [hlocs, hlen]
        rfl
      · rw [hfile]
        simp [next, JournalWriter.flush, Write.record?]

end

end Ursula.Wal
