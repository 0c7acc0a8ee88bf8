import Mathlib.Algebra.Order.Ring.Nat
import Mathlib.Tactic.Common

/-!
# Readers of byte formats

A reader takes fields from the front of a text of bytes and says with one error that the text was
too short for a field. A reader reads a value from bytes when it takes exactly these bytes and
returns the value, whatever follows them, and says that the text was too short on every strict
prefix of them. Sequences of readers read the sequences of what each of them reads, so a format is
read back field by field.

## Main definitions

* `ByteReader ε α`: readers with errors `ε`
* `ByteReader.Reads`: a reader reads a value from bytes
* `ByteReader.le`, `ByteReader.unle`: little-endian numbers

## Main results

* `ByteReader.Reads.bind`: one field after another
* `ByteReader.Reads.take`, `ByteReader.Reads.nat`: bytes and numbers
-/

/-- A reader of fields from the front of a text. -/
abbrev ByteReader (ε α : Type) := StateT (List UInt8) (Except ε) α

namespace ByteReader

open List

variable {ε α β : Type} {truncated : ε}

/-! ## Little-endian numbers -/

/-- The lowest `width` bytes of a number, the lowest first. -/
def le : ℕ → ℕ → List UInt8
  | 0, _ => []
  | width + 1, n => UInt8.ofNat n :: le width (n / 256)

/-- The number of little-endian bytes. -/
def unle : List UInt8 → ℕ
  | [] => 0
  | byte :: bytes => byte.toNat + 256 * unle bytes

@[simp] theorem length_le (width n : ℕ) : (le width n).length = width := by
  induction width generalizing n with
  | zero => rfl
  | succ width ih => simp [le, ih]

theorem unle_le {width n : ℕ} (h : n < 256 ^ width) : unle (le width n) = n := by
  induction width generalizing n with
  | zero =>
    have hzero : n = 0 := by simpa using h
    simp [le, unle, hzero]
  | succ width ih =>
    have hdiv : n / 256 < 256 ^ width := by
      rw [Nat.div_lt_iff_lt_mul (by decide)]
      simpa [Nat.pow_succ] using h
    rw [le, unle, ih hdiv, UInt8.toNat_ofNat']
    omega

theorem unle_lt (bytes : List UInt8) : unle bytes < 256 ^ bytes.length := by
  induction bytes with
  | nil => simp [unle]
  | cons byte bytes ih =>
    have hbyte := byte.toNat_lt
    rw [unle, length_cons, Nat.pow_succ]
    omega

theorem le_unle (bytes : List UInt8) : le bytes.length (unle bytes) = bytes := by
  induction bytes with
  | nil => rfl
  | cons byte bytes ih =>
    have hbyte := byte.toNat_lt
    have hlow : UInt8.ofNat (byte.toNat + 256 * unle bytes) = byte := by
      rw [← UInt8.toNat_inj, UInt8.toNat_ofNat']
      omega
    rw [unle, length_cons, le, hlow, show (byte.toNat + 256 * unle bytes) / 256 = unle bytes by
      omega, ih]

/-! ## Readers -/

/-- Takes `n` bytes. -/
def take (truncated : ε) (n : ℕ) : ByteReader ε (List UInt8) := fun bytes =>
  if n ≤ bytes.length then .ok (bytes.take n, bytes.drop n) else .error truncated

/-- The next `width` bytes as a number. -/
def nat (truncated : ε) (width : ℕ) : ByteReader ε ℕ := do
  return unle (← take truncated width)

/-- A reader takes exactly these bytes and returns the value, and finds every strict prefix of them
too short. -/
structure Reads (read : ByteReader ε α) (truncated : ε) (bytes : List UInt8)
    (value : α) : Prop where
  whole : ∀ rest, read.run (bytes ++ rest) = .ok (value, rest)
  cut : ∀ part, part <+: bytes → part ≠ bytes → read.run part = .error truncated

/-- A prefix of two texts is a strict prefix of the first, or the first and a prefix of the
second. -/
theorem strict_or_append {part bytes more : List UInt8} (h : part <+: bytes ++ more) :
    part <+: bytes ∧ part ≠ bytes ∨ ∃ tail, tail <+: more ∧ part = bytes ++ tail := by
  rcases prefix_or_prefix_of_prefix h (prefix_append bytes more) with hshort | ⟨tail, rfl⟩
  · by_cases heq : part = bytes
    · exact .inr ⟨[], nil_prefix, by rw [heq, append_nil]⟩
    · exact .inl ⟨hshort, heq⟩
  · exact .inr ⟨tail, (prefix_append_right_inj bytes).mp h, rfl⟩

namespace Reads

variable {read : ByteReader ε α} {next : α → ByteReader ε β} {bytes more : List UInt8} {value : α}
  {result : β}

theorem pure (value : α) : Reads (Pure.pure value : ByteReader ε α) truncated [] value where
  whole _ := rfl
  cut _ hpart hne := absurd (prefix_nil.mp hpart) hne

theorem bind (h : Reads read truncated bytes value)
    (hnext : Reads (next value) truncated more result) :
    Reads (read >>= next) truncated (bytes ++ more) result where
  whole rest := by
    rw [StateT.run_bind, append_assoc, h.whole]
    exact hnext.whole rest
  cut part hpart hne := by
    rw [StateT.run_bind]
    -- the part ends within the first field, or takes it whole and ends within the second
    rcases strict_or_append hpart with ⟨hshort, hstrict⟩ | ⟨tail, htail, rfl⟩
    · rw [h.cut part hshort hstrict]
      rfl
    · rw [h.whole]
      exact hnext.cut tail htail fun heq => hne (heq ▸ rfl)

theorem take (bytes : List UInt8) :
    Reads (ByteReader.take truncated bytes.length) truncated bytes bytes where
  whole rest := by
    show (if bytes.length ≤ (bytes ++ rest).length then _ else _) = _
    simp
  cut part hpart hne := by
    refine if_neg fun hle => hne ?_
    exact hpart.eq_of_length (Nat.le_antisymm hpart.length_le hle)

/-- Bytes of a known length. -/
theorem take' {n : ℕ} (h : bytes.length = n) :
    Reads (ByteReader.take truncated n) truncated bytes bytes := h ▸ take bytes

theorem nat {width n : ℕ} (h : n < 256 ^ width) :
    Reads (ByteReader.nat truncated width) truncated (le width n) n := by
  have hread : Reads (ByteReader.take truncated width >>= fun bytes => Pure.pure (unle bytes))
      truncated (le width n ++ []) (unle (le width n)) :=
    (take' (length_le width n)).bind (pure _)
  rwa [append_nil, unle_le h] at hread

end Reads

end ByteReader
