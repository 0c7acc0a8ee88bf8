import Mathlib.Data.List.Basic

/-!
# UTF-8 texts as lists of bytes

Validation of UTF-8 as an automaton over bytes: it stands between two code points, or inside one,
where it expects a number of further bytes and bounds the next of them. A text is valid when the
automaton reads it from one boundary to another. The longest valid prefix and the lossy decoding,
which puts U+FFFD for each maximal broken sequence, follow the same automaton.

## Main definitions

* `Utf8.State`, `Utf8.State.step`, `Utf8.State.run`: the automaton
* `Utf8.Valid`, `Utf8.Text`: a text of whole code points
* `Utf8.validUpTo`: the length of the longest valid prefix
* `Utf8.lossy`: the text with broken sequences replaced

## Main results

* `Utf8.valid_take_validUpTo`: the longest valid prefix is valid
* `Utf8.lossy_eq_self`, `Utf8.valid_lossy`: the lossy decoding keeps a valid text and is valid
* `Utf8.valid_append_ascii`, `Utf8.Valid.filter`: an ASCII byte is a code point of its own
-/

namespace Utf8

open List

/-! ## The automaton -/

/-- Where validation stands: between code points, or inside one. Inside, the number of bytes that
must follow is known, and after four of the first bytes the second has a range of its own. -/
inductive State
  | boundary
  | needs1
  | needs2
  | needs3
  | afterE0
  | afterED
  | afterF0
  | afterF4
  deriving DecidableEq, Repr

open State

/-- What the first byte of a code point asks of the bytes that follow it. -/
def State.lead (byte : UInt8) : Option State :=
  if byte < 0x80 then some .boundary
  else if byte < 0xC2 then none
  else if byte < 0xE0 then some .needs1
  else if byte = 0xE0 then some .afterE0
  else if byte = 0xED then some .afterED
  else if byte < 0xF0 then some .needs2
  else if byte = 0xF0 then some .afterF0
  else if byte < 0xF4 then some .needs3
  else if byte = 0xF4 then some .afterF4
  else none

/-- A later byte of a code point: its range, and where validation then stands. -/
def State.later (low high : UInt8) (next : State) (byte : UInt8) : Option State :=
  if low ≤ byte ∧ byte ≤ high then some next else none

/-- One byte of validation; `none` when no code point goes on with it. -/
def State.step : State → UInt8 → Option State
  | .boundary => State.lead
  | .needs1 => State.later 0x80 0xBF .boundary
  | .needs2 => State.later 0x80 0xBF .needs1
  | .needs3 => State.later 0x80 0xBF .needs2
  | .afterE0 => State.later 0xA0 0xBF .needs1
  | .afterED => State.later 0x80 0x9F .needs1
  | .afterF0 => State.later 0x90 0xBF .needs2
  | .afterF4 => State.later 0x80 0x8F .needs2

/-- Where validation stands after a text. -/
def State.run : State → List UInt8 → Option State
  | state, [] => some state
  | state, byte :: bytes => (state.step byte).bind fun state => state.run bytes

/-- A text of whole code points. -/
def Valid (bytes : List UInt8) : Prop := State.boundary.run bytes = some .boundary

instance (bytes : List UInt8) : Decidable (Valid bytes) := inferInstanceAs (Decidable (_ = _))

/-- A text by its bytes. -/
abbrev Text := { bytes : List UInt8 // Valid bytes }

/-- The longest prefix after which validation stands at a boundary. -/
def State.validUpTo : State → List UInt8 → Option ℕ
  | state, [] => if state = .boundary then some 0 else none
  | state, byte :: bytes =>
    match (state.step byte).bind fun next => next.validUpTo bytes with
    | some len => some (len + 1)
    | none => if state = .boundary then some 0 else none

/-- The length of the longest valid prefix. -/
def validUpTo (bytes : List UInt8) : ℕ := (State.boundary.validUpTo bytes).getD 0

/-- U+FFFD. -/
def replacement : List UInt8 := [0xEF, 0xBF, 0xBD]

/-- A byte after a boundary: what is put out, and where validation stands with which bytes of a
code point still held back. -/
def afterBoundary (byte : UInt8) : List UInt8 × State × List UInt8 :=
  match State.lead byte with
  | none => (replacement, .boundary, [])
  | some .boundary => ([byte], .boundary, [])
  | some next => ([], next, [byte])

/-- A byte of the lossy decoding. A byte that does not go on with the code point breaks it off, and
is then read as a first byte. -/
def feed (state : State) (held : List UInt8) (byte : UInt8) : List UInt8 × State × List UInt8 :=
  if state = .boundary then afterBoundary byte
  else match state.step byte with
    | some .boundary => (held ++ [byte], .boundary, [])
    | some next => ([], next, held ++ [byte])
    | none => (replacement ++ (afterBoundary byte).1, (afterBoundary byte).2)

/-- The lossy decoding from inside a code point whose bytes so far are held back. -/
def lossyFrom : State → List UInt8 → List UInt8 → List UInt8
  | state, _, [] => if state = .boundary then [] else replacement
  | state, held, byte :: bytes =>
    (feed state held byte).1 ++
      lossyFrom (feed state held byte).2.1 (feed state held byte).2.2 bytes

/-- The text with U+FFFD for each maximal broken sequence. -/
def lossy (bytes : List UInt8) : List UInt8 := lossyFrom .boundary [] bytes

/-! ## Runs -/

variable {state next : State} {bytes more : List UInt8} {byte : UInt8}

theorem State.run_append (state : State) (bytes more : List UInt8) :
    state.run (bytes ++ more) = (state.run bytes).bind fun next => next.run more := by
  induction bytes generalizing state with
  | nil => rfl
  | cons byte bytes ih =>
    simp only [cons_append, run]
    cases state.step byte with
    | none => rfl
    | some next => exact ih next

/-- An ASCII byte is read at a boundary only, and leaves a boundary. -/
theorem State.step_ascii (h : byte < 0x80) :
    state.step byte = if state = .boundary then some .boundary else none := by
  have hbelow : ∀ {low high next}, 0x80 ≤ low → later low high next byte = none := by
    intro low high next hlow
    exact if_neg fun hin => UInt8.not_lt.mpr (UInt8.le_trans hlow hin.1) h
  cases state with
  | boundary => exact if_pos h
  | _ => exact hbelow (by decide)

theorem valid_nil : Valid [] := rfl

theorem Valid.append (h : Valid bytes) (hmore : Valid more) : Valid (bytes ++ more) := by
  unfold Valid at *
  rw [run_append, h]
  exact hmore

/-- An ASCII byte ends a code point, so what stands before it is valid and what follows it too. -/
theorem valid_append_ascii (h : byte < 0x80) :
    Valid (bytes ++ byte :: more) ↔ Valid bytes ∧ Valid more := by
  unfold Valid
  rw [run_append]
  cases hrun : boundary.run bytes with
  | none => simp
  | some state =>
    simp only [Option.bind_some, run, step_ascii h]
    by_cases hstate : state = .boundary <;> simp [hstate]

theorem valid_cons_ascii (h : byte < 0x80) : Valid (byte :: bytes) ↔ Valid bytes := by
  rw [← nil_append (byte :: bytes), valid_append_ascii h]
  exact and_iff_right valid_nil

theorem valid_of_ascii (h : ∀ byte ∈ bytes, byte < 0x80) : Valid bytes := by
  induction bytes with
  | nil => exact valid_nil
  | cons byte bytes ih =>
    rw [valid_cons_ascii (h byte (by simp))]
    exact ih fun later hlater => h later (mem_cons_of_mem _ hlater)

theorem valid_flatMap {α : Type*} {parts : List α} {f : α → List UInt8}
    (h : ∀ part ∈ parts, Valid (f part)) : Valid (parts.flatMap f) := by
  induction parts with
  | nil => exact valid_nil
  | cons part parts ih =>
    exact (h part (by simp)).append (ih fun later hlater => h later (mem_cons_of_mem _ hlater))

/-- Putting valid texts for the ASCII bytes of a text moves no code point. -/
theorem State.run_flatMap {f : UInt8 → List UInt8} (hascii : ∀ byte < 0x80, Valid (f byte))
    (hother : ∀ byte, ¬ byte < 0x80 → f byte = [byte]) (h : state.run bytes = some next) :
    state.run (bytes.flatMap f) = some next := by
  induction bytes generalizing state with
  | nil => exact h
  | cons byte bytes ih =>
    rw [flatMap_cons, run_append]
    simp only [run] at h
    by_cases hbyte : byte < 0x80
    · rw [step_ascii hbyte] at h
      by_cases hstate : state = .boundary
      · rw [if_pos hstate] at h
        rw [hstate, hascii byte hbyte]
        exact ih h
      · rw [if_neg hstate] at h
        exact nomatch h
    · obtain ⟨mid, hstep, hrun⟩ := Option.bind_eq_some_iff.mp h
      rw [hother byte hbyte, run, hstep]
      exact ih hrun

theorem Valid.flatMap {f : UInt8 → List UInt8} (hascii : ∀ byte < 0x80, Valid (f byte))
    (hother : ∀ byte, ¬ byte < 0x80 → f byte = [byte]) (h : Valid bytes) :
    Valid (bytes.flatMap f) :=
  run_flatMap hascii hother h

/-- Taking ASCII bytes out of a text moves no code point. -/
theorem Valid.filter {keep : UInt8 → Bool} (hkeep : ∀ byte, keep byte = false → byte < 0x80)
    (h : Valid bytes) : Valid (bytes.filter keep) := by
  rw [← filterMap_eq_filter, filterMap_eq_flatMap_toList]
  refine h.flatMap (fun byte hbyte => ?_) fun byte hbyte => ?_
  · by_cases hin : keep byte = true
    · simpa [Option.guard, hin] using (valid_cons_ascii hbyte).mpr valid_nil
    · simpa [Option.guard, hin] using valid_nil
  · have hin : keep byte = true := by
      by_contra hout
      exact hbyte (hkeep byte (by simpa using hout))
    simp [Option.guard, hin]

/-- Only a boundary is followed by a byte that begins a code point. -/
theorem State.eq_boundary_of_lead (hlead : lead byte ≠ none) (hstep : state.step byte ≠ none) :
    state = .boundary := by
  have hlater : ∀ {low high next}, 0x80 ≤ low → high < 0xC2 →
      later low high next byte = none := by
    intro low high next hlow hhigh
    refine if_neg fun hin => hlead ?_
    have hbelow : ¬ byte < 0x80 := UInt8.not_lt.mpr (UInt8.le_trans hlow hin.1)
    have habove : byte < 0xC2 := UInt8.lt_of_le_of_lt hin.2 hhigh
    rw [lead, if_neg hbelow, if_pos habove]
  cases state with
  | boundary => rfl
  | _ => exact absurd (hlater (by decide) (by decide)) hstep

/-- In a valid text, what begins with the first byte of a code point is valid to the end. -/
theorem Valid.of_lead (hlead : lead byte ≠ none) (h : Valid (bytes ++ byte :: more)) :
    Valid (byte :: more) := by
  unfold Valid at *
  rw [run_append] at h
  obtain ⟨state, _, hrun⟩ := Option.bind_eq_some_iff.mp h
  have hstep : state.step byte ≠ none := by
    intro hnone
    rw [run, hnone] at hrun
    exact nomatch hrun
  rwa [eq_boundary_of_lead hlead hstep] at hrun

/-- The parts of a valid text between ASCII separators are valid. -/
theorem Valid.of_intercalate {sep : UInt8} (hsep : sep < 0x80) {lines : List (List UInt8)}
    (h : Valid ([sep].intercalate lines)) : ∀ line ∈ lines, Valid line := by
  induction lines with
  | nil => exact fun _ hline => absurd hline not_mem_nil
  | cons first lines ih =>
    cases lines with
    | nil =>
      intro line hline
      rw [mem_singleton.mp hline]
      simpa [intercalate] using h
    | cons second lines =>
      rw [intercalate_cons_cons, append_assoc, singleton_append, valid_append_ascii hsep] at h
      intro line hline
      rcases mem_cons.mp hline with rfl | hline
      · exact h.1
      · exact ih h.2 line hline

theorem Valid.splitOn {sep : UInt8} (hsep : sep < 0x80) (h : Valid bytes) :
    ∀ line ∈ bytes.splitOn sep, Valid line := by
  refine Valid.of_intercalate hsep ?_
  rwa [intercalate_splitOn]

/-! ## The longest valid prefix -/

/-- The longest prefix that ends at a boundary lies within the text and does end at one. -/
theorem State.run_validUpTo {len : ℕ} (h : state.validUpTo bytes = some len) :
    len ≤ bytes.length ∧ state.run (bytes.take len) = some .boundary := by
  induction bytes generalizing state len with
  | nil =>
    rw [validUpTo] at h
    split at h
    case isTrue hstate =>
      cases h
      exact ⟨Nat.le_refl _, congrArg some hstate⟩
    case isFalse => exact nomatch h
  | cons byte bytes ih =>
    rw [validUpTo] at h
    split at h
    case h_1 rest hrest =>
      cases h
      obtain ⟨mid, hstep, hrest⟩ := Option.bind_eq_some_iff.mp hrest
      obtain ⟨hle, hrun⟩ := ih hrest
      refine ⟨Nat.succ_le_succ hle, ?_⟩
      rw [take_succ_cons, run, hstep]
      exact hrun
    case h_2 =>
      split at h
      case isTrue hstate =>
        cases h
        exact ⟨Nat.zero_le _, congrArg some hstate⟩
      case isFalse => exact nomatch h

/-- Validation that reaches a boundary at the end takes the whole text. -/
theorem State.validUpTo_of_run (h : state.run bytes = some .boundary) :
    state.validUpTo bytes = some bytes.length := by
  induction bytes generalizing state with
  | nil => exact if_pos (Option.some.inj h)
  | cons byte bytes ih =>
    obtain ⟨mid, hstep, hrun⟩ := Option.bind_eq_some_iff.mp h
    rw [validUpTo, hstep, Option.bind_some, ih hrun]
    rfl

theorem State.exists_validUpTo_boundary (bytes : List UInt8) :
    ∃ len, boundary.validUpTo bytes = some len := by
  cases bytes with
  | nil => exact ⟨0, rfl⟩
  | cons byte bytes =>
    rw [validUpTo]
    split
    · exact ⟨_, rfl⟩
    · exact ⟨0, rfl⟩

theorem validUpTo_le (bytes : List UInt8) : validUpTo bytes ≤ bytes.length := by
  obtain ⟨len, hlen⟩ := exists_validUpTo_boundary bytes
  rw [validUpTo, hlen]
  exact (run_validUpTo hlen).1

theorem valid_take_validUpTo (bytes : List UInt8) : Valid (bytes.take (validUpTo bytes)) := by
  obtain ⟨len, hlen⟩ := exists_validUpTo_boundary bytes
  rw [validUpTo, hlen]
  exact (run_validUpTo hlen).2

theorem Valid.validUpTo_eq (h : Valid bytes) : validUpTo bytes = bytes.length := by
  rw [validUpTo, validUpTo_of_run h, Option.getD_some]

theorem lead_of_validUpTo (h : 0 < validUpTo (byte :: bytes)) : lead byte ≠ none := by
  intro hnone
  have hzero : boundary.validUpTo (byte :: bytes) = some 0 := by
    have hstep : boundary.step byte = none := hnone
    rw [State.validUpTo, hstep]
    rfl
  rw [validUpTo, hzero] at h
  exact absurd h (Nat.lt_irrefl 0)

/-- In a valid text, a part that begins with a whole code point begins at a boundary. -/
theorem Valid.of_validUpTo {part : List UInt8} (hpart : 0 < validUpTo part)
    (h : Valid (bytes ++ (part ++ more))) : Valid (part ++ more) := by
  cases part with
  | nil => exact absurd hpart (Nat.lt_irrefl 0)
  | cons byte part => exact h.of_lead (lead_of_validUpTo hpart)

/-! ## The lossy decoding -/

variable {held : List UInt8}

/-- Read from a state to a boundary, a text is put out as it is, after the bytes held back. -/
theorem lossyFrom_of_run (hheld : state = .boundary → held = [])
    (h : state.run bytes = some .boundary) : lossyFrom state held bytes = held ++ bytes := by
  induction bytes generalizing state held with
  | nil =>
    cases h
    rw [hheld rfl]
    rfl
  | cons byte bytes ih =>
    obtain ⟨mid, hstep, hrun⟩ := Option.bind_eq_some_iff.mp h
    have hfeed : feed state held byte =
        if mid = .boundary then (held ++ [byte], .boundary, []) else ([], mid, held ++ [byte]) := by
      by_cases hstate : state = .boundary
      · have hlead : lead byte = some mid := by rw [← hstep, hstate]; rfl
        rw [feed, if_pos hstate, afterBoundary, hlead, hheld hstate]
        cases mid <;> rfl
      · rw [feed, if_neg hstate, hstep]
        cases mid <;> rfl
    rw [lossyFrom, hfeed]
    by_cases hmid : mid = .boundary
    · rw [if_pos hmid]
      rw [hmid] at hrun
      rw [ih (fun _ => rfl) hrun]
      simp
    · rw [if_neg hmid]
      show [] ++ lossyFrom mid (held ++ [byte]) bytes = held ++ byte :: bytes
      rw [ih (fun hboundary => absurd hboundary hmid) hrun]
      simp

theorem lossy_eq_self (h : Valid bytes) : lossy bytes = bytes :=
  lossyFrom_of_run (fun _ => rfl) h

theorem valid_replacement : Valid replacement := by decide

/-- What the lossy decoding puts out for a byte is valid, and the bytes held back are those read
since the last boundary. -/
theorem feed_spec (hheld : boundary.run held = some state) :
    Valid (feed state held byte).1 ∧
      boundary.run (feed state held byte).2.2 = some (feed state held byte).2.1 := by
  have hfirst : Valid (afterBoundary byte).1 ∧
      boundary.run (afterBoundary byte).2.2 = some (afterBoundary byte).2.1 := by
    unfold afterBoundary
    split
    case h_1 => exact ⟨valid_replacement, rfl⟩
    case h_2 hlead =>
      refine ⟨?_, rfl⟩
      show (lead byte).bind _ = _
      rw [hlead]
      rfl
    case h_3 next _ hlead =>
      refine ⟨valid_nil, ?_⟩
      show (lead byte).bind _ = _
      rw [hlead]
      rfl
  have hextend : ∀ next, state.step byte = some next →
      boundary.run (held ++ [byte]) = some next := by
    intro next hstep
    rw [run_append, hheld, Option.bind_some, run, hstep]
    rfl
  unfold feed
  split
  case isTrue => exact hfirst
  case isFalse =>
    split
    case h_1 hstep => exact ⟨hextend _ hstep, rfl⟩
    case h_2 next _ hstep => exact ⟨valid_nil, hextend _ hstep⟩
    case h_3 => exact ⟨valid_replacement.append hfirst.1, hfirst.2⟩

theorem valid_lossyFrom (hheld : boundary.run held = some state) :
    Valid (lossyFrom state held bytes) := by
  induction bytes generalizing state held with
  | nil =>
    rw [lossyFrom]
    split
    · exact valid_nil
    · exact valid_replacement
  | cons byte bytes ih =>
    obtain ⟨hout, hnext⟩ := feed_spec hheld
    exact hout.append (ih hnext)

theorem valid_lossy (bytes : List UInt8) : Valid (lossy bytes) := valid_lossyFrom rfl

end Utf8
