import Ursula.Wal.SegmentBytes

/-!
# Torn and overwritten segments

A crash leaves a segment's file cut anywhere behind its header, and a faulty disk may leave any
bytes from some point on. A scan of what is left visits the frames that lie wholly before the cut,
and behind that point only bytes which the segment's own writer would have written: the frames of
the original records, unless other frames of the same segment, with checksums of their own, have
taken their places.

## Main definitions

* `Stands`: frames stand one behind the other, each as the segment's writer encodes it
* `Detects`: the checksums tell the bytes left at each frame's place from other bytes
* `TruePrefix`: what a segment's file keeps of its records through cuts and damage

## Main results

* `keepsCut_segmentFile`: what a scan visits of a file that is cut short
* `scanFrames_stands`: what a scan visits of any file
* `scanFrames_detected`: a prefix of the records, when the checksums tell other bytes apart
* `segment_keeps_true_prefix`, `copied_frame_is_replayed`: a torn or overwritten segment, and a
  frame in the place of another
* `scan_cut_eq_segment`: the segments an open of the journal reads
-/

namespace Ursula.Wal

open List FrameLoc

variable {R ε σ : Type} {mode : JournalReplayMode}
  {visit : σ → FrameLoc → R → Except ε σ} {state next : σ} {sequence frames' offset len : ℕ}
  {rest : List UInt8} {record : R} {records : List R} {visited : List (FrameLoc × R)}

/-! ## The places of frames -/

/-- Where a frame ends. -/
def FrameLoc.stop (loc : FrameLoc) : ℕ := loc.offset + loc.fileBytes

/-- The offset past the last of the frames visited from `offset` on. -/
def lastStop (offset : ℕ) (visited : List (FrameLoc × R)) : ℕ :=
  (visited.getLast?.map fun frame => frame.1.stop).getD offset

/-- The frames that lie wholly before `cut`. -/
def before (cut : ℕ) (places : List (FrameLoc × R)) : List (FrameLoc × R) :=
  places.filter fun frame => frame.1.stop ≤ cut

@[simp] theorem lastStop_cons (frame : FrameLoc × R) :
    lastStop offset (frame :: visited) = lastStop frame.1.stop visited := by
  rw [lastStop, lastStop, getLast?_cons]
  cases visited.getLast? <;> rfl

theorem lastStop_cases (offset : ℕ) (visited : List (FrameLoc × R)) :
    lastStop offset visited = offset ∨
      ∃ frame ∈ visited, lastStop offset visited = frame.1.stop := by
  cases hlast : visited.getLast? with
  | none => exact .inl (by rw [lastStop, hlast]; rfl)
  | some frame =>
    exact .inr ⟨frame, mem_of_getLast? hlast, by rw [lastStop, hlast]; rfl⟩

variable [FrameCodec R]

theorem lastStop_placed (sequence offset : ℕ) (records : List R) :
    lastStop offset (placed offset records) = offset + (frames sequence records).length := by
  induction records generalizing offset with
  | nil => rfl
  | cons record records ih =>
    rw [placed, lastStop_cons]
    simp only [stop, fileBytes, ← Nat.add_assoc, ih, frames_cons, length_append, length_encodeFrame]

variable {frame : FrameLoc × R}

theorem le_offset_of_mem_placed (h : frame ∈ placed offset records) : offset ≤ frame.1.offset := by
  induction records generalizing offset with
  | nil => cases h
  | cons record records ih =>
    rcases mem_cons.mp h with rfl | h
    · exact Nat.le_refl offset
    · exact (by omega : offset ≤ _).trans (ih h)

theorem before_placed_of_le {cut : ℕ} (h : offset + frameHeaderLen + (encode record).length ≤ cut) :
    before cut (placed offset (record :: records)) =
      (⟨offset, (encode record).length⟩, record) ::
        before cut (placed (offset + frameHeaderLen + (encode record).length) records) := by
  rw [Nat.add_assoc] at h
  exact filter_cons_of_pos (decide_eq_true h)

theorem before_placed_of_lt {cut : ℕ} (h : cut < offset + frameHeaderLen + (encode record).length) :
    before cut (placed offset (record :: records)) = [] := by
  refine filter_eq_nil_iff.mpr fun frame hframe => ?_
  rw [decide_eq_true_eq]
  rcases mem_cons.mp hframe with rfl | hframe
  · simp only [stop, fileBytes]
    omega
  · have hle := le_offset_of_mem_placed hframe
    simp only [stop]
    omega

theorem stop_le_of_mem_placed (h : frame ∈ placed offset records) :
    frame.1.stop ≤ offset + (frames sequence records).length := by
  induction records generalizing offset with
  | nil => cases h
  | cons record records ih =>
    rw [frames_cons, length_append, length_encodeFrame]
    rcases mem_cons.mp h with rfl | h
    · simp only [stop, fileBytes]
      omega
    · exact (ih h).trans_eq (by omega)

theorem map_snd_placed (offset : ℕ) (records : List R) :
    (placed offset records).map Prod.snd = records := by
  induction records generalizing offset with
  | nil => rfl
  | cons record records ih => rw [placed, map_cons, ih]

@[simp] theorem length_placed (offset : ℕ) (records : List R) :
    (placed offset records).length = records.length := by
  rw [← length_map Prod.snd, map_snd_placed]

theorem zip_map_fst_placed (offset : ℕ) (records : List R) :
    ((placed offset records).map Prod.fst).zip records = placed offset records :=
  (zip_of_prod rfl (map_snd_placed offset records)).symm

/-- What is before a cut: the frames of the first records, and a part of the frame that follows. -/
theorem take_frames (sequence cut offset : ℕ) (records : List R) :
    ∃ k part, (frames sequence records).take cut = frames sequence (records.take k) ++ part ∧
      before (offset + cut) (placed offset records) = placed offset (records.take k) ∧
      (part = [] ∨ ∃ record ∈ records, part <+: encodeFrame sequence (encode record) ∧
        part.length < frameHeaderLen + (encode record).length) := by
  induction records generalizing offset cut with
  | nil => exact ⟨0, [], by simp, rfl, .inl rfl⟩
  | cons record records ih =>
    have hsize := length_encodeFrame sequence (encode record)
    by_cases hcut : frameHeaderLen + (encode record).length ≤ cut
    · obtain ⟨more, rfl⟩ := Nat.exists_eq_add_of_le hcut
      obtain ⟨k, part, htake, hbefore, hpart⟩ :=
        ih more (offset + frameHeaderLen + (encode record).length)
      refine ⟨k + 1, part, ?_, ?_, hpart.imp_right fun ⟨cut, hcut, h⟩ =>
        ⟨cut, mem_cons_of_mem record hcut, h⟩⟩
      · rw [frames_cons, ← hsize, take_length_add_append, htake, take_succ_cons,
          frames_cons, append_assoc]
      · rw [before_placed_of_le (by omega), take_succ_cons, placed, ← hbefore]
        congr 2
        omega
    · rw [frames_cons, take_append_of_le_length (by omega)]
      exact ⟨0, _, rfl, before_placed_of_lt (by omega),
        .inr ⟨record, mem_cons_self, List.take_prefix cut _, by rw [length_take]; omega⟩⟩

/-! ## One turn of the loop -/

theorem scanFrames_of_frame (h : front sequence rest = .frame len record)
    (hvisit : visit state ⟨offset, len⟩ record = .ok next) :
    scanFrames mode visit sequence frames' offset rest state =
      scanFrames mode visit sequence (frames' + 1) (offset + frameHeaderLen + len)
        (rest.drop (frameHeaderLen + len)) next := by
  rw [scanFrames]
  split <;> simp_all

/-- Both modes visit the same frames; a strict scan ends as the other one does or fails at a frame
that does not verify. -/
theorem scanFrames_strict :
    (scanFrames .strict visit sequence frames' offset rest state).1 =
        (scanFrames .verifiedPrefix visit sequence frames' offset rest state).1 ∧
      ((scanFrames .strict visit sequence frames' offset rest state).2 =
          (scanFrames .verifiedPrefix visit sequence frames' offset rest state).2 ∨
        ∃ frame place defect, (scanFrames .strict visit sequence frames' offset rest state).2 =
          .error (.corruptFrame frame place defect)) := by
  generalize hmode : JournalReplayMode.strict = mode
  fun_induction scanFrames mode visit sequence frames' offset rest state with
  | case3 frames offset rest state defect hfront =>
    rw [scanFrames]
    split <;> simp_all
  | case8 frames offset rest state len record hfront next hvisit ih =>
    rw [scanFrames_of_frame hfront hvisit]
    exact ih
  | _ =>
    rw [scanFrames]
    split <;> simp_all

/-! ## A file that is cut short -/

/-- Whole frames are all visited, and the scan goes on behind them. -/
theorem scanFrames_frames (after : List UInt8) (hfit : Fits records) :
    scanFrames mode collect sequence frames' offset (frames sequence records ++ after) visited =
      scanFrames mode collect sequence (frames' + records.length)
        (offset + (frames sequence records).length) after (visited ++ placed offset records) := by
  induction records generalizing frames' offset visited with
  | nil => simp [placed]
  | cons record records ih =>
    rw [frames_cons, append_assoc, scanFrames_of_frame
      (front_encodeFrame _ (hfit record mem_cons_self)) rfl,
      ← length_encodeFrame sequence, drop_left,
      ih fun r hr => hfit r (mem_cons_of_mem record hr)]
    simp [placed, Nat.add_assoc, Nat.add_comm 1]

/-- What follows the frames that a cut leaves whole. -/
def cutTail (remaining : ℕ) : ReplayTail :=
  if remaining = 0 then .clean else .incomplete remaining

/-- The scan ends at what is left of a frame that was cut. -/
theorem scanFrames_part {part : List UInt8}
    (hpart : (front sequence part : Front R) = if part = [] then .nothing else .incomplete) :
    scanFrames mode visit sequence frames' offset part state =
      (state, .ok ⟨some sequence, frames', offset, cutTail part.length⟩) := by
  rw [scanFrames, cutTail]
  by_cases hnone : part = []
  · split <;> simp_all
  · split <;> simp_all

/-- A scan goes on behind the header. -/
theorem scan_encodeHeader (hsequence : sequence < 2 ^ 64) :
    scan mode visit (encodeHeader sequence ++ rest) state =
      scanFrames mode visit sequence 0 journalHeaderLen rest state := by
  have hlen := length_encodeHeader sequence
  rw [scan, if_neg (by simp [journalHeaderLen]), take_left' hlen,
    parseHeader_encodeHeader hsequence, drop_left' hlen]

/-! ## Any bytes at all -/

/-- The writer of segment `sequence` encodes a payload of the record to the bytes at its place. -/
def FrameAt (sequence : ℕ) (file : List UInt8) (frame : FrameLoc × R) : Prop :=
  ∃ payload, encodeFrame sequence payload <+: file.drop frame.1.offset ∧
    payload.length = frame.1.len ∧ frame.1.len ≤ maxFramePayloadBytes ∧
    decode payload = some frame.2

/-- Frames of segment `sequence` stand one behind the other from `offset` on. -/
def Stands (sequence : ℕ) (file : List UInt8) : ℕ → List (FrameLoc × R) → Prop
  | _, [] => True
  | offset, frame :: visited =>
    frame.1.offset = offset ∧ FrameAt sequence file frame ∧
      Stands sequence file frame.1.stop visited

/-- **A scan visits only frames of its segment**, one behind the other, whatever the file holds. -/
theorem scanFrames_stands {file : List UInt8} (mode : JournalReplayMode) (sequence frames' : ℕ)
    (hrest : rest = file.drop offset) (visited : List (FrameLoc × R)) :
    ∃ more, (scanFrames mode collect sequence frames' offset rest visited).1 = visited ++ more ∧
      Stands sequence file offset more := by
  fun_induction scanFrames mode collect sequence frames' offset rest visited with
  | case7 frames' offset rest visited len record hfront source hvisit => cases hvisit
  | case8 frames' offset rest visited len record hfront next hvisit ih =>
    cases hvisit
    obtain ⟨more, hmore, hstands⟩ := ih (by rw [hrest, drop_drop, Nat.add_assoc])
    obtain ⟨payload, after, hframe, hlen, hfit, hdecode⟩ := front_eq_frame hfront
    refine ⟨(⟨offset, len⟩, record) :: more, ?_, rfl, ⟨payload, ?_, hlen, hfit, hdecode⟩, ?_⟩
    · rw [hmore, append_assoc]
      rfl
    · rw [← hrest, hframe]
      exact prefix_append _ after
    · rwa [Nat.add_assoc] at hstands
  | _ => exact ⟨[], (append_nil _).symm, trivial⟩

theorem Stands.frameAt {file : List UInt8} (h : Stands sequence file offset visited) :
    ∀ frame ∈ visited, FrameAt sequence file frame := by
  induction visited generalizing offset with
  | nil => simp
  | cons first visited ih => exact forall_mem_cons.mpr ⟨h.2.1, ih h.2.2⟩

/-- A frame of another segment that stands for a frame of this one has its header checksum. -/
theorem FrameAt.headerChecksum_eq {file : List UInt8} (h : FrameAt sequence file frame) {other : ℕ}
    {payload : List UInt8} (hlt : payload.length < 2 ^ 32)
    (hother : encodeFrame other payload <+: file.drop frame.1.offset) :
    headerChecksum other frame.1.len = headerChecksum sequence frame.1.len := by
  obtain ⟨own, ⟨after, hown⟩, hlen, hfit, -⟩ := h
  obtain ⟨behind, hother⟩ := hother
  have hheaders := congrArg frontHeader (hown.trans hother.symm)
  rw [encodeFrame, encodeFrame, append_assoc, append_assoc,
    frontHeader_append (lt_of_le_max (hlen ▸ hfit)), frontHeader_append hlt,
    FrameHeader.mk.injEq] at hheaders
  rw [← hlen, hheaders.2.1, hheaders.1]

/-! ## Bytes that the checksums tell apart -/

/-- The checksums detect every mismatch with the frames of `records` in `rest`: what verifies at the
place of a frame, behind intact ones, has its length and its payload, and nothing verifies behind
the last one. -/
def Detects (sequence : ℕ) : List R → List UInt8 → Prop
  | [], rest => ¬HeaderVerifies sequence rest
  | record :: records, rest =>
    (HeaderVerifies sequence rest → (frontHeader rest).len = (encode record).length) ∧
      (FrameVerifies sequence rest → frontPayload rest = encode record) ∧
      ∀ after, rest = encodeFrame sequence (encode record) ++ after →
        Detects sequence records after

/-- What a scan finds where no frame verifies. -/
def Front.Stops : Front R → Prop
  | .nothing | .incomplete | .defect _ => True
  | _ => False

theorem front_stops_of_not_header (h : ¬HeaderVerifies sequence rest) :
    (front sequence rest : Front R).Stops := by
  unfold front
  split_ifs with hempty hshort hheader <;> try trivial
  all_goals exact absurd ⟨Nat.not_lt.mp hshort, not_not.mp hheader⟩ h

/-- Where the checksums detect mismatches, the front is the record's own frame or none. -/
theorem front_detected (hfit : (encode record).length ≤ maxFramePayloadBytes)
    (hheader : HeaderVerifies sequence rest → (frontHeader rest).len = (encode record).length)
    (hframe : FrameVerifies sequence rest → frontPayload rest = encode record) :
    (front sequence rest : Front R).Stops ∨
      ∃ after, rest = encodeFrame sequence (encode record) ++ after := by
  by_cases hverifies : FrameVerifies sequence rest
  · exact .inr ⟨_, hframe hverifies ▸ hverifies.eq_append⟩
  by_cases hlen : HeaderVerifies sequence rest
  · obtain ⟨hshort, hchecksum⟩ := hlen
    refine .inl ?_
    unfold front
    rw [if_neg (by simp [frameHeaderLen] at hshort; omega), if_neg (by omega), if_neg (by simpa),
      if_neg (by rw [hheader ⟨hshort, hchecksum⟩]; omega)]
    by_cases hcut : rest.length - frameHeaderLen < (frontHeader rest).len
    · rw [if_pos hcut]
      trivial
    rw [if_neg hcut, if_pos fun hpayload => hverifies ⟨⟨hshort, hchecksum⟩, by omega, hpayload⟩]
    trivial
  · exact .inl (front_stops_of_not_header hlen)

/-- A scan that stops here ends in the lenient mode. -/
theorem scanFrames_of_stops (h : (front sequence rest : Front R).Stops) :
    ∃ tail, scanFrames .verifiedPrefix visit sequence frames' offset rest state =
      (state, .ok ⟨some sequence, frames', offset, tail⟩) := by
  rw [scanFrames]
  split <;> simp_all [Front.Stops]

/-- **Where the checksums detect mismatches, a prefix of the records is visited**. -/
theorem scanFrames_detected (hfit : Fits records) (h : Detects sequence records rest) :
    ∃ k ≤ records.length, ∃ tail,
      scanFrames .verifiedPrefix collect sequence frames' offset rest visited =
        (visited ++ placed offset (records.take k), .ok ⟨some sequence, frames' + k,
          offset + (frames sequence (records.take k)).length, tail⟩) := by
  induction records generalizing frames' offset rest visited with
  | nil =>
    obtain ⟨tail, htail⟩ := scanFrames_of_stops (front_stops_of_not_header (R := R) h)
    exact ⟨0, Nat.le_refl 0, tail, by rw [htail]; simp [placed]⟩
  | cons record records ih =>
    obtain ⟨hheader, hframe, hrest⟩ := h
    have hhead := hfit record mem_cons_self
    rcases front_detected hhead hheader hframe with hstops | ⟨after, rfl⟩
    · obtain ⟨tail, htail⟩ := scanFrames_of_stops hstops
      exact ⟨0, Nat.zero_le _, tail, by rw [htail]; simp [placed]⟩
    obtain ⟨k, hk, tail, htail⟩ :=
      ih (fun r hr => hfit r (mem_cons_of_mem record hr)) (hrest after rfl)
    refine ⟨k + 1, Nat.succ_le_succ hk, tail, ?_⟩
    rw [scanFrames_of_frame (front_encodeFrame _ hhead) rfl, ← length_encodeFrame sequence,
      drop_left, htail]
    simp [placed, Nat.add_assoc, Nat.add_comm 1]

/-! ## One frame -/

/-- The bytes at the place of a frame are the frame. -/
theorem slice_of_mem_placed {lead : List UInt8} (hlead : lead.length = offset)
    (h : frame ∈ placed offset records) :
    ((lead ++ frames sequence records).drop frame.1.offset).take frame.1.fileBytes =
        encodeFrame sequence (encode frame.2) ∧
      frame.1.len = (encode frame.2).length ∧ frame.2 ∈ records := by
  induction records generalizing lead offset with
  | nil => cases h
  | cons record records ih =>
    have hsize := length_encodeFrame sequence (encode record)
    rcases mem_cons.mp h with rfl | h
    · refine ⟨?_, rfl, mem_cons_self⟩
      rw [frames_cons, drop_left' hlead]
      exact take_left' hsize
    · have hnext : (lead ++ encodeFrame sequence (encode record)).length =
          offset + frameHeaderLen + (encode record).length := by
        rw [length_append, hsize, hlead, Nat.add_assoc]
      obtain ⟨hslice, hlen, hmem⟩ := ih hnext h
      refine ⟨?_, hlen, mem_cons_of_mem record hmem⟩
      rwa [append_assoc, ← frames_cons] at hslice

/-- An intact frame reads back. -/
theorem readFrame_eq {file : List UInt8} {loc : FrameLoc}
    (hslice : (file.drop loc.offset).take loc.fileBytes = encodeFrame sequence (encode record))
    (hlen : loc.len = (encode record).length)
    (hfit : (encode record).length ≤ maxFramePayloadBytes) :
    readFrame file sequence loc = (.ok record : Except (JournalError ε) R) := by
  have hheader : frontHeader (encodeFrame sequence (encode record)) = _ :=
    frontHeader_append (lt_of_le_max hfit)
  have hpayload : (encodeFrame sequence (encode record)).drop frameHeaderLen = encode record :=
    drop_left' (length_encodeFrameHeader sequence _)
  unfold readFrame
  simp only [hslice, hpayload, hheader]
  rw [if_neg (by omega), if_neg (by simp [fileBytes, hlen]), if_neg (by simp [hlen]),
    if_neg (by simp), if_neg (by simp), decode_encode]

/-! ## The whole segment -/

section

variable (sequence : ℕ) (places : List (FrameLoc × R)) (file : List UInt8)

/-- A cut behind the header leaves the frames wholly before it, whatever the mode, and is clean
exactly at the boundaries of frames. -/
def KeepsCut : Prop :=
  ∀ mode cut, journalHeaderLen ≤ cut → ∃ tail,
    scan mode collect (file.take cut) [] = (before cut places, .ok ⟨some sequence,
      (before cut places).length, lastStop journalHeaderLen (before cut places), tail⟩) ∧
    (tail = .clean ↔ (file.take cut).length = journalHeaderLen ∨
      ∃ frame ∈ places, (file.take cut).length = frame.1.stop)

/-- The file cut back to its verified frames opens again, and what is written behind them is scanned
after them. -/
def Reopens : Prop :=
  ∀ cut, journalHeaderLen ≤ cut → ∀ writes : List (Write R),
    Fits (writes.filterMap Write.record?) → ∃ writer,
      JournalWriter.open (file.take (lastStop journalHeaderLen (before cut places))) sequence =
        (.ok writer : Except (JournalError Empty) JournalWriter) ∧
      ∃ locs last, writer.run writes = .ok (locs, last) ∧ ∀ mode,
        scan mode collect last.flush.file [] =
          (before cut places ++ locs.zip (writes.filterMap Write.record?), .ok ⟨some sequence,
            (before cut places).length + locs.length, last.flush.file.length, .clean⟩)

/-- Whatever replaces the file from some point on, the frames before the point are visited, and all
that is visited stands one behind the other as the segment's writer encodes it. -/
def KeepsBefore : Prop :=
  ∀ mode point bytes, journalHeaderLen ≤ point → ∃ more,
    (scan mode collect (file.take point ++ bytes) []).1 = before point places ++ more ∧
    Stands sequence (file.take point ++ bytes) journalHeaderLen (before point places ++ more)

/-- Where the checksums detect every mismatch with the original frames, what is visited is a prefix
of the original records, and only a strict scan may fail. -/
def KeepsPrefix : Prop :=
  ∀ point bytes, journalHeaderLen ≤ point →
    Detects sequence (places.map Prod.snd) ((file.take point ++ bytes).drop journalHeaderLen) →
    ∃ visited replayed, before point places <+: visited ∧ visited <+: places ∧
      scan .verifiedPrefix collect (file.take point ++ bytes) [] = (visited, .ok replayed) ∧
      replayed.verifiedLen = lastStop journalHeaderLen visited ∧
      (scan .strict collect (file.take point ++ bytes) [] = (visited, .ok replayed) ∨
        ∃ frame offset defect, scan .strict collect (file.take point ++ bytes) [] =
          (visited, .error (.corruptFrame frame offset defect)))

/-- **What a segment's file keeps of its records**: `file` holds segment `sequence`, and `places`
the records with the positions returned when they were written. -/
structure TruePrefix : Prop where
  cut : KeepsCut sequence places file
  reopen : Reopens sequence places file
  damaged : KeepsBefore sequence places file
  detected : KeepsPrefix sequence places file
  /-- Bytes of another segment are visited only where the header checksums are equal. -/
  own : ∀ mode point bytes, journalHeaderLen ≤ point →
    ∀ frame : FrameLoc × R, frame ∈ (scan mode collect (file.take point ++ bytes) []).1 →
      ∀ other payload, payload.length < 2 ^ 32 →
      encodeFrame other payload <+: (file.take point ++ bytes).drop frame.1.offset →
      headerChecksum other frame.1.len = headerChecksum sequence frame.1.len
  /-- A frame whose bytes are intact reads back at the position returned for it. -/
  read : ∀ frame ∈ places, ∀ other : List UInt8,
    (other.drop frame.1.offset).take frame.1.fileBytes =
      (file.drop frame.1.offset).take frame.1.fileBytes →
    readFrame other sequence frame.1 = (.ok frame.2 : Except (JournalError Empty) R)

end

/-- The file of a segment. -/
def segmentFile (sequence : ℕ) (records : List R) : List UInt8 :=
  encodeHeader sequence ++ frames sequence records

theorem take_segmentFile (sequence more : ℕ) (records : List R) :
    (segmentFile sequence records).take (journalHeaderLen + more) =
      encodeHeader sequence ++ (frames sequence records).take more := by
  rw [segmentFile, ← length_encodeHeader sequence, take_length_add_append]

/-- The file cut back behind whole frames. -/
theorem take_lastStop {cut : ℕ} (sequence : ℕ) (records : List R) (hcut : journalHeaderLen ≤ cut) :
    ∃ k, before cut (placed journalHeaderLen records) = placed journalHeaderLen (records.take k) ∧
      (segmentFile sequence records).take
          (lastStop journalHeaderLen (before cut (placed journalHeaderLen records))) =
        segmentFile sequence (records.take k) := by
  obtain ⟨more, rfl⟩ := Nat.exists_eq_add_of_le hcut
  obtain ⟨k, part, -, hbefore, -⟩ := take_frames sequence more journalHeaderLen records
  refine ⟨k, hbefore, ?_⟩
  rw [hbefore, lastStop_placed sequence, take_segmentFile]
  nth_rewrite 2 [← take_append_drop k records]
  rw [frames_append, take_left, segmentFile]

section

variable (hsequence : sequence < 2 ^ 64) (hfit : Fits records)
include hsequence hfit

/-- **A cut leaves the frames that lie wholly before it**: a scan in either mode visits them at
their places, and ends behind the last of them. -/
theorem keepsCut_segmentFile :
    KeepsCut sequence (placed journalHeaderLen records) (segmentFile sequence records) := by
  intro mode cut hcut
  obtain ⟨more, rfl⟩ := Nat.exists_eq_add_of_le hcut
  obtain ⟨k, part, hframes, hbefore, hpart⟩ := take_frames sequence more journalHeaderLen records
  have hkept : Fits (records.take k) := fun r hr => hfit r (mem_of_mem_take hr)
  have hfront : (front sequence part : Front R) = if part = [] then .nothing else .incomplete := by
    obtain rfl | ⟨record, hrecord, hprefix, hlt⟩ := hpart
    · rfl
    · exact front_cut (hfit record hrecord) hprefix hlt
  have hstop := lastStop_placed sequence journalHeaderLen (records.take k)
  have hclean : cutTail part.length = .clean ↔ part.length = 0 := by
    rw [cutTail]
    split <;> simp_all
  have hmore : ((frames sequence records).take more).length ≤ more := length_take_le _ _
  rw [hframes, length_append] at hmore
  rw [take_segmentFile, scan_encodeHeader hsequence, hframes, scanFrames_frames _ hkept,
    scanFrames_part hfront, hbefore, hstop]
  refine ⟨_, by rw [nil_append, Nat.zero_add, length_placed], ?_⟩
  rw [hclean, length_append, length_append, length_encodeHeader]
  constructor
  · intro hpart
    rw [hpart, Nat.add_zero, ← hstop, ← hbefore]
    exact (lastStop_cases _ _).imp_right fun ⟨frame, hframe, heq⟩ =>
      ⟨frame, mem_of_mem_filter hframe, heq⟩
  · rintro (hlen | ⟨frame, hframe, hlen⟩)
    · omega
    · -- a frame that ends at the cut is one of those before it
      have hle : frame.1.stop ≤ journalHeaderLen + more := by omega
      have hmem : frame ∈ placed journalHeaderLen (records.take k) :=
        hbefore ▸ mem_filter.mpr ⟨hframe, decide_eq_true hle⟩
      have hstop : frame.1.stop ≤ journalHeaderLen + (frames sequence (records.take k)).length :=
        stop_le_of_mem_placed hmem
      omega

/-- A file of whole frames is scanned to its end. -/
theorem scan_segmentFile (mode : JournalReplayMode) :
    scan mode collect (segmentFile sequence records) [] =
      (placed journalHeaderLen records, .ok ⟨some sequence, records.length,
        (segmentFile sequence records).length, .clean⟩) := by
  have hscan : scanFrames mode collect sequence 0 journalHeaderLen
      (frames sequence records ++ []) [] = _ := scanFrames_frames [] hfit
  rw [append_nil] at hscan
  rw [segmentFile, scan_encodeHeader hsequence, hscan, scanFrames_part rfl]
  simp [cutTail]

theorem reopens_segmentFile :
    Reopens sequence (placed journalHeaderLen records) (segmentFile sequence records) := by
  intro cut hcut writes hwrites
  obtain ⟨k, hbefore, htake⟩ := take_lastStop sequence records hcut
  have hfile : (segmentFile sequence (records.take k)).length ≠ 0 := by
    simp [segmentFile, journalHeaderLen]
  let writer : JournalWriter := ⟨segmentFile sequence (records.take k), sequence, _, [], rfl⟩
  have hopen : JournalWriter.open writer.file sequence =
      (.ok writer : Except (JournalError Empty) JournalWriter) := by
    have hheader : writer.file.take journalHeaderLen = encodeHeader sequence :=
      take_left' (length_encodeHeader sequence)
    rw [JournalWriter.open, if_neg hfile, hheader, parseHeader_encodeHeader hsequence]
    exact if_neg (not_not.mpr rfl)
  obtain ⟨locs, last, hrun, hlocs, hlast⟩ := writer.run_eq writes hwrites
  have hwritten : last.flush.file =
      segmentFile sequence (records.take k ++ writes.filterMap Write.record?) := by
    rw [hlast, segmentFile, frames_append]
    simp [JournalWriter.flush, writer, segmentFile]
  have hplaces : locs.zip (writes.filterMap Write.record?) =
      placed (journalHeaderLen + (frames sequence (records.take k)).length)
        (writes.filterMap Write.record?) := by
    rw [hlocs, zip_map_fst_placed]
    simp [JournalWriter.len, writer, segmentFile]
  have hkept : Fits (records.take k ++ writes.filterMap Write.record?) :=
    forall_mem_append.mpr ⟨fun r hr => hfit r (mem_of_mem_take hr), hwrites⟩
  have hcount : locs.length = (writes.filterMap Write.record?).length := by
    rw [hlocs, length_map, length_placed]
  refine ⟨writer, htake ▸ hopen, locs, last, hrun, fun mode => ?_⟩
  rw [hwritten, scan_segmentFile hsequence hkept, hbefore, hplaces, placed_append sequence, hcount,
    length_append, length_placed]

theorem keepsBefore_segmentFile :
    KeepsBefore sequence (placed journalHeaderLen records) (segmentFile sequence records) := by
  intro mode point bytes hpoint
  obtain ⟨rest, rfl⟩ := Nat.exists_eq_add_of_le hpoint
  obtain ⟨k, part, hframes, hbefore, -⟩ := take_frames sequence rest journalHeaderLen records
  have hkept : Fits (records.take k) := fun r hr => hfit r (mem_of_mem_take hr)
  rw [take_segmentFile, hbefore, hframes, append_assoc, append_assoc, scan_encodeHeader hsequence]
  generalize hlater : frames sequence (records.take k) ++ (part ++ bytes) = later
  have hdrop : later = (encodeHeader sequence ++ later).drop journalHeaderLen :=
    (drop_left' (length_encodeHeader sequence)).symm
  have hrest : part ++ bytes = (encodeHeader sequence ++ later).drop
      (journalHeaderLen + (frames sequence (records.take k)).length) := by
    rw [← drop_drop, ← hdrop, ← hlater, drop_left]
  obtain ⟨all, hall, hstands⟩ := scanFrames_stands (R := R) mode sequence 0 hdrop []
  obtain ⟨more, hmore, -⟩ := scanFrames_stands mode sequence (0 + (records.take k).length) hrest
    ([] ++ placed journalHeaderLen (records.take k))
  have hscan : (scanFrames mode collect sequence 0 journalHeaderLen later []).1 =
      placed journalHeaderLen (records.take k) ++ more := by
    rw [← hlater, scanFrames_frames _ hkept, hmore, nil_append]
  refine ⟨more, hscan, ?_⟩
  rw [← hscan, hall]
  exact hstands

theorem keepsPrefix_segmentFile :
    KeepsPrefix sequence (placed journalHeaderLen records) (segmentFile sequence records) := by
  intro point bytes hpoint h
  obtain ⟨more, hmore, -⟩ := keepsBefore_segmentFile hsequence hfit .verifiedPrefix
    point bytes hpoint
  obtain ⟨rest, rfl⟩ := Nat.exists_eq_add_of_le hpoint
  rw [map_snd_placed, take_segmentFile, append_assoc,
    drop_left' (length_encodeHeader sequence)] at h
  rw [take_segmentFile, append_assoc] at hmore ⊢
  simp only [scan_encodeHeader hsequence] at hmore ⊢
  obtain ⟨k, -, tail, hscan⟩ := scanFrames_detected hfit h
  refine ⟨_, _, ?_, ?_, hscan, (lastStop_placed sequence _ _).symm, ?_⟩
  · rw [hscan] at hmore
    exact ⟨more, hmore.symm⟩
  · nth_rewrite 2 [← take_append_drop k records]
    rw [placed_append sequence, nil_append]
    exact prefix_append _ _
  · obtain ⟨hvisited, hend | ⟨frame, place, defect, hend⟩⟩ :=
      scanFrames_strict (R := R) (ε := Empty)
    · exact .inl (Prod.ext (hvisited.trans (by rw [hscan])) (hend.trans (by rw [hscan])))
    · exact .inr ⟨frame, place, defect, Prod.ext (hvisited.trans (by rw [hscan])) hend⟩

/-- A file of whole frames keeps a true prefix of its records. -/
theorem truePrefix_segmentFile :
    TruePrefix sequence (placed journalHeaderLen records) (segmentFile sequence records) where
  cut := keepsCut_segmentFile hsequence hfit
  reopen := reopens_segmentFile hsequence hfit
  damaged := keepsBefore_segmentFile hsequence hfit
  detected := keepsPrefix_segmentFile hsequence hfit
  own mode point bytes hpoint frame hframe other payload hlt hother := by
    obtain ⟨more, hmore, hstands⟩ := keepsBefore_segmentFile hsequence hfit mode point bytes hpoint
    exact (hstands.frameAt frame (hmore ▸ hframe)).headerChecksum_eq hlt hother
  read frame hframe other hintact := by
    obtain ⟨hslice, hlen, hmem⟩ := slice_of_mem_placed (length_encodeHeader sequence) hframe
    exact readFrame_eq (hintact.trans hslice) hlen (hfit frame.2 hmem)

end

/-- **A torn or overwritten segment keeps a true prefix**: what a new segment's writer leaves, for
any records that fit in frames and however it is flushed, is cut, damaged, reopened and read with
the frames it returned. -/
theorem segment_keeps_true_prefix {sequence : ℕ} (hsequence : sequence < 2 ^ 64)
    {writes : List (Write R)} (hfit : Fits (writes.filterMap Write.record?)) :
    ∃ writer locs last,
      JournalWriter.open [] sequence = (.ok writer : Except (JournalError Empty) JournalWriter) ∧
      writer.run writes = .ok (locs, last) ∧
      locs.length = (writes.filterMap Write.record?).length ∧
      TruePrefix sequence (locs.zip (writes.filterMap Write.record?)) last.flush.file := by
  let writer : JournalWriter := ⟨[], sequence, 0, encodeHeader sequence, rfl⟩
  obtain ⟨locs, last, hrun, hlocs, hlast⟩ := writer.run_eq writes hfit
  refine ⟨writer, locs, last, rfl, hrun, by rw [hlocs, length_map, length_placed], ?_⟩
  rw [hlast, hlocs, zip_map_fst_placed]
  exact truePrefix_segmentFile hsequence hfit

/-! ## The segments of a core journal -/

section

variable {C : Type} [LogFormat C] [FrameCodec (CoreJournalRecord C)]

variable (hlen : ∀ record : CoreJournalRecord C,
  (encode record).length = LogFormat.encodedLen record)
include hlen

theorem placed_eq_frameLocs (offset : ℕ) (records : List (CoreJournalRecord C)) :
    placed offset records = frameLocs offset records := by
  induction records generalizing offset with
  | nil => rfl
  | cons record records ih => simp [placed, frameLocs, ih, hlen, fileBytes, Nat.add_assoc]

/-- **A cut file is a segment of the first of its records**: what a scan visits is what an open of
the journal reads of it. -/
theorem scan_cut_eq_segment {id cut : ℕ} {records : List (CoreJournalRecord C)}
    (mode : JournalReplayMode) (hid : id < 2 ^ 64) (hfit : Fits records)
    (hcut : journalHeaderLen ≤ cut) :
    ∃ k, ∀ tail, ((scan mode collect ((segmentFile id records).take cut) []).1.map
        fun frame => (⟨id, frame.1⟩, frame.2)) =
      Segment.placed ⟨id, true, records.take k, tail⟩ := by
  obtain ⟨_, hscan, -⟩ := keepsCut_segmentFile hid hfit mode cut hcut
  obtain ⟨k, hbefore, -⟩ := take_lastStop id records hcut
  refine ⟨k, fun tail => ?_⟩
  rw [hscan, hbefore, placed_eq_frameLocs hlen]
  rfl

end

/-! ## Segments of plain bytes -/

/-- Records that are their own payloads. -/
instance bytesCodec : FrameCodec (List UInt8) where
  encode := id
  decode := some
  decode_encode _ := rfl

/-- Three records of one byte. -/
def one : List UInt8 := [1]
@[inherit_doc one] def two : List UInt8 := [2]
@[inherit_doc one] def three : List UInt8 := [3]

theorem fits_short {records : List (List UInt8)} (h : ∀ record ∈ records, record.length = 1) :
    Fits records := fun record hrecord => by
  have hlen : (encode record).length = 1 := h record hrecord
  rw [hlen]
  decide

/-- The second record overwritten with zeros, which the checksums detect. -/
theorem detects_zeros :
    Detects 1 [one, two]
      (((segmentFile 1 [one, two]).take 45 ++ replicate 13 0).drop 32) := by
  have hzeros : ¬HeaderVerifies 1 (replicate 13 0) := by
    unfold HeaderVerifies
    decide +kernel
  refine ⟨fun _ => by decide +kernel, fun _ => by decide +kernel, fun after hafter => ?_⟩
  obtain rfl := append_cancel_left hafter
  refine ⟨fun h => absurd h hzeros, fun h => absurd h.1 hzeros, fun after h => ?_⟩
  have hfirst : some (0 : UInt8) = some 1 := congrArg head? h
  cases hfirst

/-- Two records, flushed one by one, the second of them overwritten with zeros: the checksums detect
it. -/
theorem zeroed_frame_is_dropped :
    ∃ writer locs last,
      JournalWriter.open [] 1 = (.ok writer : Except (JournalError Empty) JournalWriter) ∧
      writer.run [.append one, .flush, .append two] = .ok (locs, last) ∧
      TruePrefix 1 (locs.zip [one, two]) last.flush.file ∧
      Detects 1 [one, two] ((last.flush.file.take 45 ++ List.replicate 13 0).drop 32) := by
  have hfit : Fits ([.append one, .flush, .append two].filterMap Write.record?) :=
    fits_short (by decide)
  have hsequence : 1 < 2 ^ 64 := by decide
  obtain ⟨writer, locs, last, hopen, hrun, -, hkeeps⟩ := segment_keeps_true_prefix hsequence hfit
  refine ⟨writer, locs, last, hopen, hrun, hkeeps, ?_⟩
  obtain ⟨locs', last', hrun', -, hlast⟩ := writer.run_eq _ hfit
  cases hrun.symm.trans hrun'
  cases hopen
  rw [hlast]
  exact detects_zeros

/-- **A frame in the place of another is replayed**: two records, the second overwritten with a copy
of the first, and a segment overwritten from its start with another one. -/
theorem copied_frame_is_replayed :
    (∀ mode, scan mode collect
        ((segmentFile 1 [one, two]).take 45 ++ encodeFrame 1 one) [] =
          (placed 32 [one, one], .ok ⟨some 1, 2, 58, .clean⟩)) ∧
      ¬placed 32 [one, one] <+: placed 32 [one, two] ∧
      ∀ mode, scan mode collect
        ((segmentFile 1 [one, two]).take 0 ++ segmentFile 2 [three]) [] =
          (placed 32 [three], .ok ⟨some 2, 1, 45, .clean⟩) := by
  have hfile : (segmentFile 1 [one, two]).take 45 ++ encodeFrame 1 one =
      segmentFile 1 [one, one] := by decide +kernel
  refine ⟨fun mode => ?_, by decide, fun mode => ?_⟩
  · rw [hfile, scan_segmentFile (by decide) (fits_short (by decide))]
    rfl
  · rw [take_zero, nil_append, scan_segmentFile (by decide) (fits_short (by decide))]
    rfl

end Ursula.Wal
