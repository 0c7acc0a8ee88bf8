import Ursula.Stream.Act

/-!
# Producer records and the writes they stand for

A stream keeps of each producer's writes one record, and of retired records one epoch floor. The log
of the writes that applied is what they stand for: `Logged` says how the records and the floor
relate to it, and every change of them keeps that.

## Main definitions

* `AppliedWrite`, `WriteLog`: the writes that applied, and those of each record's life
* `LifeOf`: a record tells the writes of its life
* `Logged`: the records and the floor tell the writes that applied

## Main results

* `Logged.retireProducers`, `Logged.write`: retirements and applied writes keep the relation
* `Logged.fresh`: a tokened write that applies has a key that has not applied before
* `Logged.repeated`: a write answered as a repeat is one of the record's life
-/

namespace Ursula

open List

/-! ## Logs -/

/-- A producer write that applied, with the receipt it was answered. -/
structure AppliedWrite where
  producerId : String
  epoch : ℕ
  seq : ℕ
  digest : Option WriteDigest
  receipt : WriteReceipt
deriving DecidableEq

/-- Two writes of one producer under one key. -/
def AppliedWrite.SameKey (a b : AppliedWrite) : Prop :=
  a.producerId = b.producerId ∧ a.epoch = b.epoch ∧ a.seq = b.seq

/-- The producer writes of a stream that applied. -/
structure WriteLog where
  /-- All of them, in order. -/
  applied : List AppliedWrite
  /-- Those since a producer's current record was opened, none without a record. -/
  life : String → List AppliedWrite

namespace WriteLog

/-- The log of a new stream. -/
def empty : WriteLog := ⟨[], fun _ => []⟩

/-- One more write, when there is one. -/
def push (log : WriteLog) : Option AppliedWrite → WriteLog
  | none => log
  | some write =>
    { applied := log.applied ++ [write]
      life := fun producerId =>
        if producerId = write.producerId then log.life producerId ++ [write]
        else log.life producerId }

/-- A record that is gone takes its life with it. -/
def forget (log : WriteLog) (producers : OrdMap String ProducerState) : WriteLog :=
  { log with life := fun producerId =>
    if producers.contains producerId then log.life producerId else [] }

theorem forget_forget {log : WriteLog} {a b : OrdMap String ProducerState}
    (h : ∀ producerId, b.contains producerId = true → a.contains producerId = true) :
    (log.forget a).forget b = log.forget b := by
  unfold forget
  congr 1
  funext producerId
  dsimp only
  split_ifs with hb ha
  · rfl
  · exact absurd (h producerId hb) ha
  · rfl

end WriteLog

/-- A record tells the writes of its life: each epoch's seqs in order from 0, its own up to its
last, and the newest write's receipt and identity. -/
structure LifeOf (record : ProducerState) (life : List AppliedWrite) : Prop where
  seqs : ∀ epoch, ∃ n, (life.filter fun write => write.epoch = epoch).map AppliedWrite.seq =
    List.range n ∧ (epoch = record.epoch → n = record.lastSeq + 1) ∧ (record.epoch < epoch → n = 0)
  newest : ∃ write ∈ life, write.epoch = record.epoch ∧ write.seq = record.lastSeq ∧
    write.receipt = record.newest.receipt ∧ write.digest = record.newest.digest
  claim : record.lastSeq = 0 → record.claimDigest = record.newest.digest

/-- The records and the epoch floor of a stream tell the writes that applied. A producer without a
record, or with one opened below the floor, wrote at or below the floor; a record opened above the
floor is at or beyond every write of its producer. -/
structure Logged (producers : OrdMap String ProducerState) (floor : Option ℕ) (log : WriteLog) :
    Prop where
  unrecorded : ∀ producerId, producers.get? producerId = none → log.life producerId = [] ∧
    ∀ write ∈ log.applied, write.producerId = producerId → atOrBelow floor write.epoch = true
  below : ∀ producerId record, producers.get? producerId = some record →
    record.opened = .belowFloor → atOrBelow floor record.epoch = true ∧
      ∀ write ∈ log.applied, write.producerId = producerId → atOrBelow floor write.epoch = true
  above : ∀ producerId record, producers.get? producerId = some record →
    record.opened = .aboveFloor → ∀ write ∈ log.applied, write.producerId = producerId →
      write.epoch < record.epoch ∨ write.epoch = record.epoch ∧ write.seq ≤ record.lastSeq
  life : ∀ producerId record, producers.get? producerId = some record →
    LifeOf record (log.life producerId)

/-! ## Floors -/

theorem atOrBelow_mono {floor : Option ℕ} {low high : ℕ} (hle : low ≤ high)
    (h : atOrBelow floor high = true) : atOrBelow floor low = true := by
  cases floor with
  | none => cases h
  | some f =>
    simp only [atOrBelow, Option.any_some, decide_eq_true_eq] at h ⊢
    exact hle.trans h

theorem atOrBelow_raiseFloor {floor : Option ℕ} {epoch e : ℕ} :
    atOrBelow (StreamSlot.raiseFloor floor epoch) e = true ↔
      atOrBelow floor e = true ∨ e ≤ epoch := by
  cases floor <;> simp [atOrBelow, StreamSlot.raiseFloor]

/-! ## Evaluations -/

section Evaluations

variable {floor : Option ℕ} {history : ℕ} {key : WriteKey} {check : IncarnationCheck}

/-- What lets a producer without a record claim an epoch, and nothing else lets it write. -/
theorem evaluate_none_cases (floor : Option ℕ) (history : ℕ) (key : WriteKey)
    (check : IncarnationCheck) :
    (∃ refusal, evaluate none floor history key check = .refuse refusal) ∨
    key.seq = 0 ∧ (check = .matched → atOrBelow floor key.epoch = false) ∧
      evaluate none floor history key check =
        .claim none (if atOrBelow floor key.epoch then .belowFloor else .aboveFloor) := by
  unfold evaluate
  dsimp only
  unfold evaluateNew
  split
  · exact .inl ⟨_, rfl⟩
  · next hfloor =>
    by_cases hseq : key.seq = 0
    · refine .inr ⟨hseq, fun hcheck => ?_, by rw [if_pos hseq]⟩
      cases floor with
      | none => rfl
      | some f =>
        simp only [Option.filter_eq_none_iff, hcheck] at hfloor
        simpa [atOrBelow] using hfloor
    · rw [if_neg hseq]
      exact .inl ⟨_, rfl⟩

/-- What a write of the record's own epoch is. -/
inductive Current (record : ProducerState) (key : WriteKey) : Evaluation → Prop
  | refuse {refusal : Refusal} : Current record key (.refuse refusal)
  | repeat {ack : ProducerAck} (hseq : key.seq = record.lastSeq)
      (hdigest : (if key.seq = 0 then record.claimDigest else record.newest.digest) = key.digest)
      (hack : ack.delivery = .repeat record.newest.receipt) : Current record key (.repeat ack)
  | evicted {ack : ProducerAck} (hseq : key.seq < record.lastSeq) (hack : ack.delivery = .evicted) :
      Current record key (.repeat ack)
  | next (hseq : key.seq = record.lastSeq + 1) : Current record key .next

theorem current_evaluateCurrent (record : ProducerState) (history : ℕ) (key : WriteKey) :
    Current record key (evaluateCurrent record history key) := by
  unfold evaluateCurrent
  generalize hstored : (if key.seq = 0 then some record.claimDigest
    else if key.seq = record.lastSeq then some record.newest.digest else none) = stored
  by_cases hconflict : (stored.any fun stored => stored ≠ key.digest) = true
  · rw [if_pos hconflict]
    exact .refuse
  rw [if_neg hconflict]
  by_cases hlast : key.seq = record.lastSeq
  · rw [if_pos hlast]
    refine .repeat hlast ?_ rfl
    by_cases hzero : key.seq = 0
    · rw [if_pos hzero] at hstored ⊢
      simpa [← hstored] using hconflict
    · rw [if_neg hzero] at hstored ⊢
      rw [if_pos hlast] at hstored
      simpa [← hstored] using hconflict
  rw [if_neg hlast]
  by_cases hlow : key.seq < record.lastSeq
  · rw [if_pos hlow]
    exact .evicted hlow rfl
  rw [if_neg hlow]
  by_cases hhistory : record.history ≠ history
  · rw [if_pos hhistory]
    exact .refuse
  rw [if_neg hhistory]
  by_cases hnext : key.seq = record.lastSeq + 1
  · rw [if_pos hnext]
    exact .next hnext
  · rw [if_neg hnext]
    exact .refuse

/-- What a write of a producer with a record is. A tokened write passes a record opened below the
floor only as a claim above the floor. -/
inductive Recorded (record : ProducerState) (floor : Option ℕ) (key : WriteKey)
    (check : IncarnationCheck) : Evaluation → Prop
  | refuse {refusal : Refusal} : Recorded record floor key check (.refuse refusal)
  | claim {closes : Option ClosedEpoch} {opened : Opened} (hseq : key.seq = 0)
      (hepoch : record.epoch < key.epoch)
      (hfence : check = .matched → record.opened = .belowFloor → atOrBelow floor key.epoch = false)
      (hopened : opened = .belowFloor → record.opened = .belowFloor ∧
        atOrBelow floor key.epoch = true)
      (habove : opened = .aboveFloor → record.opened = .belowFloor →
        atOrBelow floor key.epoch = false) :
      Recorded record floor key check (.claim closes opened)
  | current {evaluation : Evaluation} (hepoch : key.epoch = record.epoch)
      (hfence : check = .matched → record.opened = .belowFloor → floor = none)
      (hcurrent : Current record key evaluation) : Recorded record floor key check evaluation

theorem recorded_evaluate (record : ProducerState) (floor : Option ℕ) (history : ℕ)
    (key : WriteKey) (check : IncarnationCheck) :
    Recorded record floor key check (evaluate (some record) floor history key check) := by
  unfold evaluate
  dsimp only
  split
  · exact .refuse
  · next hfloor =>
    -- the fence lets a tokened write of a record opened below the floor through as a claim above it
    have hfence : check = .matched → record.opened = .belowFloor → floor = none ∨
        key.epoch > record.epoch ∧ atOrBelow floor key.epoch = false := by
      intro hcheck hopened
      cases floor with
      | none => exact .inl rfl
      | some f =>
        simp only [Option.filter_eq_none_iff, hcheck, hopened] at hfloor
        simp only [atOrBelow, Option.any_some, decide_eq_false_iff_not]
        have := hfloor f rfl
        simp at this
        omega
    by_cases hstale : key.epoch < record.epoch
    · rw [if_pos hstale]
      split <;> exact .refuse
    rw [if_neg hstale]
    by_cases hclaim : key.epoch > record.epoch
    · rw [if_pos hclaim]
      by_cases hseq : key.seq = 0
      · rw [if_pos hseq]
        refine .claim hseq hclaim (fun hcheck hopened => ?_)
          (fun hbelow => ?_) fun habove hopened => ?_
        · obtain rfl | h := hfence hcheck hopened
          · rfl
          · exact h.2
        · cases hopened : record.opened <;> cases hat : atOrBelow floor key.epoch <;> simp_all
        · cases hat : atOrBelow floor key.epoch <;> simp_all
      · rw [if_neg hseq]
        exact .refuse
    · rw [if_neg hclaim]
      refine .current (by omega) (fun hcheck hopened => ?_) (current_evaluateCurrent ..)
      obtain h | h := hfence hcheck hopened
      · exact h
      · exact absurd h.1 hclaim

end Evaluations

/-! ## Lives -/

namespace LifeOf

variable {record : ProducerState} {life : List AppliedWrite} {write : AppliedWrite}

variable {closes : Option ClosedEpoch}

/-- The first write of a record opens its life. -/
theorem claimed {key : WriteKey} {opened : Opened} {history nowMs : ℕ}
    (hnew : ∀ earlier ∈ life, earlier.epoch < key.epoch)
    (hseqs : ∀ epoch, ∃ n, (life.filter fun write => write.epoch = epoch).map AppliedWrite.seq =
      range n) (hepoch : write.epoch = key.epoch) (hseq : write.seq = key.seq)
    (hzero : key.seq = 0) (hdigest : write.digest = key.digest) :
    LifeOf (ProducerState.claimed key closes opened history write.receipt nowMs)
      (life ++ [write]) := by
  refine ⟨fun epoch => ?_, ⟨write, by simp, hepoch, hseq, rfl, hdigest⟩, fun _ => rfl⟩
  by_cases hsame : epoch = key.epoch
  · have hnone : (life.filter fun write => write.epoch = epoch) = [] := by
      refine filter_eq_nil_iff.mpr fun earlier hearlier => ?_
      simpa [hsame] using ne_of_lt (hnew earlier hearlier)
    refine ⟨1, ?_, fun _ => ?_, fun hlt => ?_⟩
    · rw [filter_append, hnone]
      simp [hsame, hepoch, hseq, hzero, range_succ]
    · simp [ProducerState.claimed, hzero]
    · exact absurd hlt (by simp [ProducerState.claimed, hsame])
  · obtain ⟨n, hn⟩ := hseqs epoch
    refine ⟨n, ?_, fun h => absurd h hsame, fun hlt => ?_⟩
    · rw [filter_append, map_append, hn]
      simp [hepoch, Ne.symm hsame]
    · -- the life has no epoch beyond the claim's
      have hnone : (life.filter fun write => write.epoch = epoch) = [] := by
        refine filter_eq_nil_iff.mpr fun earlier hearlier => ?_
        have hless := hnew earlier hearlier
        simp only [ProducerState.claimed] at hlt
        simp only [decide_eq_true_eq]
        omega
      rw [hnone] at hn
      simpa using (congrArg length hn).symm

/-- Every write of a life is of the record's epoch or an earlier one. -/
theorem epoch_le (h : LifeOf record life) {earlier : AppliedWrite} (hmem : earlier ∈ life) :
    earlier.epoch ≤ record.epoch := by
  by_contra hlt
  obtain ⟨n, hn, -, hbeyond⟩ := h.seqs earlier.epoch
  rw [hbeyond (not_le.mp hlt), range_zero, map_eq_nil_iff] at hn
  exact absurd (filter_eq_nil_iff.mp hn earlier hmem) (by simp)

/-- The next write of an epoch extends its record's life. -/
theorem advance (h : LifeOf record life) {key : WriteKey} (nowMs : ℕ)
    (hsame : key.epoch = record.epoch) (hnext : key.seq = record.lastSeq + 1)
    (hepoch : write.epoch = key.epoch) (hseq : write.seq = key.seq)
    (hdigest : write.digest = key.digest) :
    LifeOf (record.advance key write.receipt nowMs) (life ++ [write]) := by
  refine ⟨fun epoch => ?_, ⟨write, by simp, hepoch.trans hsame, hseq, rfl, hdigest⟩,
    fun hzero => ?_⟩
  · obtain ⟨n, hn, hown, hbeyond⟩ := h.seqs epoch
    by_cases heq : epoch = record.epoch
    · refine ⟨n + 1, ?_, fun _ => ?_, fun hlt => absurd hlt (by simp [ProducerState.advance, heq])⟩
      · rw [filter_append, map_append, hn, range_succ]
        simp [heq, hepoch, hsame, hseq, hnext, hown heq]
      · rw [hown heq]
        simp [ProducerState.advance, hnext]
    · refine ⟨n, ?_, fun h => absurd h heq, hbeyond⟩
      rw [filter_append, map_append, hn]
      simp [hepoch, hsame, Ne.symm heq]
  · simp only [ProducerState.advance] at hzero
    omega

/-- Every key up to the record's last one applied in its life. -/
theorem exists_of_le (h : LifeOf record life) {seq : ℕ} (hle : seq ≤ record.lastSeq) :
    ∃ write ∈ life, write.epoch = record.epoch ∧ write.seq = seq := by
  obtain ⟨n, hn, hown, -⟩ := h.seqs record.epoch
  have hmem : seq ∈ (life.filter fun write => write.epoch = record.epoch).map AppliedWrite.seq := by
    rw [hn, hown rfl, mem_range]
    omega
  obtain ⟨write, hwrite, rfl⟩ := mem_map.mp hmem
  obtain ⟨hlife, hepoch⟩ := mem_filter.mp hwrite
  exact ⟨write, hlife, by simpa using hepoch, rfl⟩

end LifeOf

/-! ## Logged states -/

/-- The record an applied write leaves. -/
def Advance.record (advance : Advance) (history : ℕ) (old : Option ProducerState) (key : WriteKey)
    (receipt : WriteReceipt) (nowMs : ℕ) : Option ProducerState :=
  match advance with
  | .claim closes opened => some (.claimed key closes opened history receipt nowMs)
  | .next => old.map fun state => state.advance key receipt nowMs

namespace Logged

variable {producers : OrdMap String ProducerState} {floor : Option ℕ} {log : WriteLog}

theorem empty (floor : Option ℕ) : Logged ∅ floor WriteLog.empty := by
  refine ⟨fun _ _ => ⟨rfl, by simp [WriteLog.empty]⟩, ?_, ?_, ?_⟩
  all_goals
    intro producerId record h
    cases h

/-- A record that is gone has no life. -/
theorem forget_eq (h : Logged producers floor log) : log.forget producers = log := by
  unfold WriteLog.forget
  congr 1
  funext producerId
  split_ifs with hheld
  · rfl
  · have hnone : producers.get? producerId = none := by simpa [OrdMap.contains] using hheld
    exact (h.unrecorded producerId hnone).1.symm

variable {slot : StreamSlot}

/-- A retirement raises the floor over every write of the retired record's producer. -/
theorem retireProducer (h : Logged slot.producers slot.retiredEpochWatermark log)
    (retired : String) : Logged (slot.retireProducer retired).producers
      (slot.retireProducer retired).retiredEpochWatermark
      (log.forget (slot.retireProducer retired).producers) := by
  unfold StreamSlot.retireProducer
  cases hretired : slot.producers.get? retired with
  | none =>
    rwa [h.forget_eq]
  | some record =>
    have hwrites : ∀ write ∈ log.applied, write.producerId = retired →
        atOrBelow slot.retiredEpochWatermark write.epoch = true ∨ write.epoch ≤ record.epoch := by
      intro write hwrite hproducer
      cases hopened : record.opened with
      | belowFloor => exact .inl ((h.below _ _ hretired hopened).2 write hwrite hproducer)
      | aboveFloor =>
        obtain hlt | heq := h.above _ _ hretired hopened write hwrite hproducer
        · exact .inr hlt.le
        · exact .inr heq.1.le
    have hkept : ∀ producerId kept, (slot.producers.erase retired).get? producerId = some kept →
        producerId ≠ retired ∧ slot.producers.get? producerId = some kept := by
      intro producerId kept hget
      rw [OrdMap.get?_erase] at hget
      split_ifs at hget with hid
      exact ⟨hid, hget⟩
    refine ⟨fun producerId hnone => ⟨?_, fun write hwrite hproducer => ?_⟩,
      fun producerId kept hget hopened => ?_, fun producerId kept hget hopened => ?_,
      fun producerId kept hget => ?_⟩
    · simp [WriteLog.forget, OrdMap.contains, hnone]
    · rw [atOrBelow_raiseFloor]
      rw [OrdMap.get?_erase] at hnone
      split_ifs at hnone with hid
      · exact hwrites write hwrite (hproducer.trans hid)
      · exact .inl ((h.unrecorded producerId hnone).2 write hwrite hproducer)
    · obtain ⟨-, hget⟩ := hkept producerId kept hget
      obtain ⟨hepoch, hall⟩ := h.below producerId kept hget hopened
      exact ⟨atOrBelow_raiseFloor.mpr (.inl hepoch), fun write hwrite hproducer =>
        atOrBelow_raiseFloor.mpr (.inl (hall write hwrite hproducer))⟩
    · exact h.above producerId kept (hkept producerId kept hget).2 hopened
    · have hheld : (slot.producers.erase retired).contains producerId = true :=
        (OrdMap.contains_iff ..).mpr ⟨kept, hget⟩
      simp only [WriteLog.forget, hheld, if_true]
      exact h.life producerId kept (hkept producerId kept hget).2

theorem contains_retireProducer {retired producerId : String}
    (h : (slot.retireProducer retired).producers.contains producerId = true) :
    slot.producers.contains producerId = true := by
  unfold StreamSlot.retireProducer at h
  cases hretired : slot.producers.get? retired with
  | none => simpa [hretired] using h
  | some record =>
    simp only [hretired] at h
    obtain ⟨kept, hget⟩ := (OrdMap.contains_iff ..).mp h
    rw [OrdMap.get?_erase] at hget
    split_ifs at hget
    exact (OrdMap.contains_iff ..).mpr ⟨kept, hget⟩

theorem contains_retireProducers {retired : List String} {producerId : String}
    (h : (slot.retireProducers retired).producers.contains producerId = true) :
    slot.producers.contains producerId = true := by
  induction retired generalizing slot with
  | nil => exact h
  | cons first rest ih => exact contains_retireProducer (ih h)

theorem retireProducers (h : Logged slot.producers slot.retiredEpochWatermark log)
    (retired : List String) :
    Logged (slot.retireProducers retired).producers
      (slot.retireProducers retired).retiredEpochWatermark
      (log.forget (slot.retireProducers retired).producers) := by
  induction retired generalizing slot log with
  | nil =>
    show Logged slot.producers slot.retiredEpochWatermark (log.forget slot.producers)
    rwa [h.forget_eq]
  | cons first rest ih =>
    have hrest := ih (h.retireProducer first)
    rwa [WriteLog.forget_forget fun producerId => contains_retireProducers] at hrest

section Writes

variable {producerId : String} {key : WriteKey} {check : IncarnationCheck} {history nowMs : ℕ}
  {advance : Advance} {record : ProducerState} {applied : AppliedWrite}

/-- The next seq of an epoch continues its record. -/
theorem next_cases
    (hevaluate : evaluate (producers.get? producerId) floor history key check = .next) :
    ∃ old, producers.get? producerId = some old ∧ key.epoch = old.epoch ∧
      key.seq = old.lastSeq + 1 ∧
      (check = .matched → old.opened = .belowFloor → floor = none) := by
  cases hget : producers.get? producerId with
  | none =>
    rw [hget] at hevaluate
    obtain ⟨refusal, heq⟩ | ⟨-, -, heq⟩ := evaluate_none_cases floor history key check
    · cases heq.symm.trans hevaluate
    · cases heq.symm.trans hevaluate
  | some old =>
    rw [hget] at hevaluate
    have hrecorded := recorded_evaluate old floor history key check
    rw [hevaluate] at hrecorded
    cases hrecorded with
    | current hepoch hfence hcurrent =>
      cases hcurrent with
      | next hseq => exact ⟨old, rfl, hepoch, hseq, hfence⟩

variable (h : Logged producers floor log)
include h

/-- A new record of the writer keeps the relation when it tells the writer's own writes. -/
theorem insert (hwriter : applied.producerId = producerId)
    (hbelow : record.opened = .belowFloor → atOrBelow floor record.epoch = true ∧
      ∀ earlier ∈ log.applied ++ [applied], earlier.producerId = producerId →
        atOrBelow floor earlier.epoch = true)
    (habove : record.opened = .aboveFloor → ∀ earlier ∈ log.applied ++ [applied],
      earlier.producerId = producerId →
        earlier.epoch < record.epoch ∨ earlier.epoch = record.epoch ∧ earlier.seq ≤ record.lastSeq)
    (hlife : LifeOf record (log.life producerId ++ [applied])) :
    Logged (producers.insert producerId record) floor (log.push (some applied)) := by
  -- the other producers' writes and lives are as they were
  have hother : ∀ other, other ≠ producerId → ∀ earlier ∈ log.applied ++ [applied],
      earlier.producerId = other → earlier ∈ log.applied := by
    intro other hne earlier hearlier hproducer
    obtain hold | hnew := mem_append.mp hearlier
    · exact hold
    · obtain rfl := mem_singleton.mp hnew
      exact absurd (hproducer.symm.trans hwriter) hne
  have hlives : ∀ other, other ≠ producerId → (log.push (some applied)).life other =
      log.life other := by
    intro other hne
    simp [WriteLog.push, hwriter, hne]
  refine ⟨fun other hnone => ?_, fun other held hget hopened => ?_,
    fun other held hget hopened => ?_, fun other held hget => ?_⟩
  · rw [OrdMap.get?_insert] at hnone
    split_ifs at hnone with hid
    obtain ⟨hempty, hall⟩ := h.unrecorded other hnone
    exact ⟨(hlives other hid).trans hempty, fun earlier hearlier hproducer =>
      hall earlier (hother other hid earlier hearlier hproducer) hproducer⟩
  · rw [OrdMap.get?_insert] at hget
    split_ifs at hget with hid
    · cases hget
      exact hid ▸ hbelow hopened
    · obtain ⟨hepoch, hall⟩ := h.below other held hget hopened
      exact ⟨hepoch, fun earlier hearlier hproducer =>
        hall earlier (hother other hid earlier hearlier hproducer) hproducer⟩
  · rw [OrdMap.get?_insert] at hget
    split_ifs at hget with hid
    · cases hget
      exact hid ▸ habove hopened
    · exact fun earlier hearlier hproducer =>
        h.above other held hget hopened earlier
          (hother other hid earlier hearlier hproducer) hproducer
  · rw [OrdMap.get?_insert] at hget
    split_ifs at hget with hid
    · cases hget
      subst hid
      simpa [WriteLog.push, hwriter] using hlife
    · rw [hlives other hid]
      exact h.life other held hget

/-- The writes of a producer that may claim an epoch are all below it, when the epoch is above the
floor or the producer's record was opened above it. -/
theorem below_claim
    (hevaluate : evaluate (producers.get? producerId) floor history key check = advance.evaluation)
    {opened : Opened} (hclaim : advance = .claim closes opened) (habove : opened = .aboveFloor) :
    ∀ earlier ∈ log.applied, earlier.producerId = producerId → earlier.epoch < key.epoch := by
  subst hclaim habove
  have hfloor : (∀ earlier ∈ log.applied, earlier.producerId = producerId →
      atOrBelow floor earlier.epoch = true) → atOrBelow floor key.epoch = false →
      ∀ earlier ∈ log.applied, earlier.producerId = producerId → earlier.epoch < key.epoch := by
    intro hall hkey earlier hearlier hproducer
    by_contra hge
    have := atOrBelow_mono (not_lt.mp hge) (hall earlier hearlier hproducer)
    cases this.symm.trans hkey
  cases hget : producers.get? producerId with
  | none =>
    rw [hget] at hevaluate
    refine hfloor (h.unrecorded producerId hget).2 ?_
    obtain ⟨refusal, heq⟩ | ⟨-, -, heq⟩ := evaluate_none_cases floor history key check
    · exact absurd (heq.symm.trans hevaluate) (by simp [Advance.evaluation])
    have hopened := heq.symm.trans hevaluate
    cases hat : atOrBelow floor key.epoch with
    | false => rfl
    | true => simp [Advance.evaluation, hat] at hopened
  | some old =>
    rw [hget] at hevaluate
    have hrecorded := recorded_evaluate old floor history key check
    rw [hevaluate] at hrecorded
    cases hrecorded with
    | claim hseq hepoch hfence hopened hcovers =>
      cases hold : old.opened with
      | belowFloor => exact hfloor (h.below _ _ hget hold).2 (hcovers rfl hold)
      | aboveFloor =>
        intro earlier hearlier hproducer
        obtain hlt | heq := h.above _ _ hget hold earlier hearlier hproducer
        · exact hlt.trans hepoch
        · exact heq.1 ▸ hepoch
    | current hepoch hfence hcurrent => cases hcurrent

/-- A claim's seq is 0, its epoch is beyond its record's, and an epoch opened at or below the floor
continues one. -/
theorem claim_cases {opened : Opened}
    (hevaluate : evaluate (producers.get? producerId) floor history key check =
      .claim closes opened) :
    key.seq = 0 ∧ (∀ old, producers.get? producerId = some old → old.epoch < key.epoch) ∧
      (check = .matched → opened = .aboveFloor) ∧
      (opened = .belowFloor → atOrBelow floor key.epoch = true ∧
        ∀ earlier ∈ log.applied, earlier.producerId = producerId →
          atOrBelow floor earlier.epoch = true) := by
  cases hget : producers.get? producerId with
  | none =>
    rw [hget] at hevaluate
    obtain ⟨refusal, heq⟩ | ⟨hseq, hfence, heq⟩ := evaluate_none_cases floor history key check
    · cases heq.symm.trans hevaluate
    obtain rfl : _ = opened := (Evaluation.claim.inj (heq.symm.trans hevaluate)).2
    refine ⟨hseq, by simp, fun hcheck => by simp [hfence hcheck], fun hbelow => ⟨?_, ?_⟩⟩
    · cases hat : atOrBelow floor key.epoch with
      | true => rfl
      | false => simp [hat] at hbelow
    · exact (h.unrecorded producerId hget).2
  | some old =>
    rw [hget] at hevaluate
    have hrecorded := recorded_evaluate old floor history key check
    rw [hevaluate] at hrecorded
    cases hrecorded with
    | claim hseq hepoch hfence hopened hcovers =>
      refine ⟨hseq, by simpa using hepoch, fun hcheck => ?_, fun hbelow => ?_⟩
      · cases hnew : opened with
        | aboveFloor => rfl
        | belowFloor =>
          obtain ⟨hold, hat⟩ := hopened hnew
          cases hat.symm.trans (hfence hcheck hold)
      · obtain ⟨hold, hat⟩ := hopened hbelow
        exact ⟨hat, (h.below _ _ hget hold).2⟩
    | current hepoch hfence hcurrent => cases hcurrent

theorem write
    (hevaluate : evaluate (producers.get? producerId) floor history key check = advance.evaluation)
    {group : ℕ} (hrecord : advance.record group (producers.get? producerId) key
      applied.receipt nowMs =
      some record) (hwriter : applied.producerId = producerId) (hepoch : applied.epoch = key.epoch)
    (hseq : applied.seq = key.seq) (hdigest : applied.digest = key.digest) :
    Logged (producers.insert producerId record) floor (log.push (some applied)) := by
  cases advance with
  | claim closes opened =>
    obtain ⟨hzero, hbeyond, -, hbelow⟩ := h.claim_cases hevaluate
    cases hrecord
    refine h.insert hwriter (fun hopened => ?_) (fun hopened => ?_) ?_
    · obtain ⟨hat, hall⟩ := hbelow hopened
      refine ⟨hat, fun earlier hearlier hproducer => ?_⟩
      obtain hold | hnew := mem_append.mp hearlier
      · exact hall earlier hold hproducer
      · rwa [mem_singleton.mp hnew, hepoch]
    · intro earlier hearlier hproducer
      obtain hold | hnew := mem_append.mp hearlier
      · exact .inl (h.below_claim hevaluate rfl hopened earlier hold hproducer)
      · rw [mem_singleton.mp hnew]
        exact .inr ⟨hepoch, hseq.le⟩
    · refine .claimed (fun earlier hearlier => ?_) (fun epoch => ?_) hepoch hseq hzero hdigest
      · cases hget : producers.get? producerId with
        | none =>
          rw [(h.unrecorded producerId hget).1] at hearlier
          cases hearlier
        | some old => exact ((h.life _ _ hget).epoch_le hearlier).trans_lt (hbeyond old hget)
      · cases hget : producers.get? producerId with
        | none => exact ⟨0, by simp [(h.unrecorded producerId hget).1]⟩
        | some old =>
          obtain ⟨n, hn, -⟩ := (h.life _ _ hget).seqs epoch
          exact ⟨n, hn⟩
  | next =>
    obtain ⟨old, hget, hsame, hnext, -⟩ := next_cases hevaluate
    obtain rfl : old.advance key applied.receipt nowMs = record := by
      rw [hget] at hrecord
      exact Option.some.inj hrecord
    have hnew : ∀ earlier ∈ log.applied ++ [applied], earlier ∈ log.applied ∨ earlier = applied :=
      fun earlier hearlier => (mem_append.mp hearlier).imp_right mem_singleton.mp
    refine h.insert hwriter (fun hopened => ?_) (fun hopened => ?_)
      ((h.life _ _ hget).advance nowMs hsame hnext hepoch hseq hdigest)
    · obtain ⟨hat, hall⟩ := h.below _ _ hget hopened
      refine ⟨hat, fun earlier hearlier hproducer => ?_⟩
      obtain hold | rfl := hnew earlier hearlier
      · exact hall earlier hold hproducer
      · rwa [hepoch, hsame]
    · intro earlier hearlier hproducer
      obtain hold | rfl := hnew earlier hearlier
      · obtain hlt | ⟨heq, hle⟩ := h.above _ _ hget hopened earlier hold hproducer
        · exact .inl hlt
        · exact .inr ⟨heq, hle.trans (by simp [ProducerState.advance, hnext])⟩
      · exact .inr ⟨hepoch.trans hsame, hseq.le⟩

/-- A tokened write that applies has a key that no write of its producer applied under. -/
theorem fresh (hevaluate : evaluate (producers.get? producerId) floor history key .matched =
      advance.evaluation)
    {earlier : AppliedWrite} (hearlier : earlier ∈ log.applied)
    (hproducer : earlier.producerId = producerId) :
    ¬ (earlier.epoch = key.epoch ∧ earlier.seq = key.seq) := by
  rintro ⟨hepoch, hseq⟩
  cases advance with
  | claim closes opened =>
    obtain ⟨-, -, hopened, -⟩ := h.claim_cases hevaluate
    have hlt := h.below_claim hevaluate rfl (hopened rfl) earlier hearlier hproducer
    omega
  | next =>
    obtain ⟨old, hget, hsame, hnext, hfence⟩ := next_cases hevaluate
    cases hopened : old.opened with
    | belowFloor =>
      have hat := (h.below _ _ hget hopened).1
      rw [hfence rfl hopened] at hat
      cases hat
    | aboveFloor =>
      have := h.above _ _ hget hopened earlier hearlier hproducer
      omega

/-- A write answered as a repeat is one of the record's life, with the receipt and the identity of
its answer. -/
theorem repeated {ack : ProducerAck}
    (hevaluate : evaluate (producers.get? producerId) floor history key check = .repeat ack) :
    (∃ receipt, ack.delivery = .repeat receipt ∧ ∃ write ∈ log.life producerId,
      write.epoch = key.epoch ∧ write.seq = key.seq ∧ write.receipt = receipt ∧
        write.digest = key.digest) ∨
    (ack.delivery = .evicted ∧ ∃ write ∈ log.life producerId,
      write.epoch = key.epoch ∧ write.seq = key.seq) := by
  cases hget : producers.get? producerId with
  | none =>
    rw [hget] at hevaluate
    obtain ⟨refusal, heq⟩ | ⟨-, -, heq⟩ := evaluate_none_cases floor history key check
    · cases heq.symm.trans hevaluate
    · cases heq.symm.trans hevaluate
  | some old =>
    rw [hget] at hevaluate
    have hlife := h.life _ _ hget
    have hrecorded := recorded_evaluate old floor history key check
    rw [hevaluate] at hrecorded
    cases hrecorded with
    | current hepoch hfence hcurrent =>
      cases hcurrent with
      | «repeat» hseq hdigest hack =>
        obtain ⟨write, hwrite, hwepoch, hwseq, hreceipt, hwdigest⟩ := hlife.newest
        refine .inl ⟨_, hack, write, hwrite, hwepoch.trans hepoch.symm, hwseq.trans hseq.symm,
          hreceipt, ?_⟩
        -- a record at seq 0 holds one identity, the claim's
        split_ifs at hdigest with hzero
        · rw [hwdigest, ← hlife.claim (hseq.symm.trans hzero), hdigest]
        · rw [hwdigest, hdigest]
      | evicted hseq hack =>
        obtain ⟨write, hwrite, hwepoch, hwseq⟩ := hlife.exists_of_le hseq.le
        exact .inr ⟨hack, write, hwrite, hwepoch.trans hepoch.symm, hwseq⟩

end Writes

end Logged

end Ursula
