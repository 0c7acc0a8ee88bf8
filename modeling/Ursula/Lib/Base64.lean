import Mathlib.Tactic.Common

/-!
# Base64

The standard alphabet with padding: three bytes are four digits of six bits, and a rest of one or
two bytes is filled up with `=`.

## Main definitions

* `Base64.encode`, `Base64.decode`: to the digits and back

## Main results

* `Base64.decode_encode`: decoding gives the encoded bytes back
* `Base64.graphic_of_mem_encode`: an encoding holds printable ASCII only
-/

namespace Base64

/-! ## Digits -/

/-- The character of six bits. -/
def digit (bits : ℕ) : UInt8 :=
  UInt8.ofNat
    (if bits < 26 then 0x41 + bits
    else if bits < 52 then 0x61 + (bits - 26)
    else if bits < 62 then 0x30 + (bits - 52)
    else if bits = 62 then 0x2B
    else 0x2F)

/-- The six bits of a digit. -/
def bitsOf (byte : UInt8) : Option ℕ :=
  let code := byte.toNat
  if 0x41 ≤ code ∧ code ≤ 0x5A then some (code - 0x41)
  else if 0x61 ≤ code ∧ code ≤ 0x7A then some (code - 0x61 + 26)
  else if 0x30 ≤ code ∧ code ≤ 0x39 then some (code - 0x30 + 52)
  else if code = 0x2B then some 62
  else if code = 0x2F then some 63
  else none

/-- The padding character `=`. -/
def pad : UInt8 := 0x3D

/-! ## Texts -/

/-- Base64 with padding. -/
def encode : List UInt8 → List UInt8
  | [] => []
  | [a] =>
    let bits := a.toNat * 16
    [digit (bits / 64), digit (bits % 64), pad, pad]
  | [a, b] =>
    let bits := (a.toNat * 256 + b.toNat) * 4
    [digit (bits / 4096), digit (bits / 64 % 64), digit (bits % 64), pad]
  | a :: b :: c :: rest =>
    let bits := a.toNat * 65536 + b.toNat * 256 + c.toNat
    digit (bits / 262144) :: digit (bits / 4096 % 64) :: digit (bits / 64 % 64) ::
      digit (bits % 64) :: encode rest

/-- The text of an encoding; `none` when a group is not four digits, or its padding is not at the
end or leaves bits. -/
def decode : List UInt8 → Option (List UInt8)
  | [] => some []
  | w :: x :: y :: z :: rest => do
    let w ← bitsOf w
    let x ← bitsOf x
    if y = pad then
      if z = pad ∧ rest = [] ∧ x % 16 = 0 then
        some [UInt8.ofNat (w * 4 + x / 16)]
      else none
    else
      let y ← bitsOf y
      if z = pad then
        if rest = [] ∧ y % 4 = 0 then
          some [UInt8.ofNat (w * 4 + x / 16), UInt8.ofNat (x % 16 * 16 + y / 4)]
        else none
      else
        let z ← bitsOf z
        let rest ← decode rest
        some (UInt8.ofNat (w * 4 + x / 16) :: UInt8.ofNat (x % 16 * 16 + y / 4) ::
          UInt8.ofNat (y % 4 * 64 + z) :: rest)
  | _ => none

/-! ## The round trip -/

theorem bitsOf_digit {bits : ℕ} (h : bits < 64) : bitsOf (digit bits) = some bits := by
  revert bits
  decide

theorem digit_ne_pad {bits : ℕ} (h : bits < 64) : digit bits ≠ pad := by
  revert bits
  decide

section Groups

variable {w x y z : ℕ}

theorem decode_group (hw : w < 64) (hx : x < 64) (hy : y < 64) (hz : z < 64) (rest : List UInt8) :
    decode (digit w :: digit x :: digit y :: digit z :: rest) =
      (decode rest).map fun rest => UInt8.ofNat (w * 4 + x / 16) ::
        UInt8.ofNat (x % 16 * 16 + y / 4) :: UInt8.ofNat (y % 4 * 64 + z) :: rest := by
  simp only [decode, bitsOf_digit hw, bitsOf_digit hx, bitsOf_digit hy, bitsOf_digit hz,
    if_neg (digit_ne_pad hy), if_neg (digit_ne_pad hz)]
  cases decode rest <;> rfl

theorem decode_two (hw : w < 64) (hx : x < 64) (hy : y < 64) (hfull : y % 4 = 0) :
    decode [digit w, digit x, digit y, pad] =
      some [UInt8.ofNat (w * 4 + x / 16), UInt8.ofNat (x % 16 * 16 + y / 4)] := by
  simp [decode, bitsOf_digit hw, bitsOf_digit hx, bitsOf_digit hy, digit_ne_pad hy, hfull]

theorem decode_one (hw : w < 64) (hx : x < 64) (hfull : x % 16 = 0) :
    decode [digit w, digit x, pad, pad] = some [UInt8.ofNat (w * 4 + x / 16)] := by
  simp [decode, bitsOf_digit hw, bitsOf_digit hx, hfull]

end Groups

theorem ofNat_eq (a : UInt8) {n : ℕ} (h : n = a.toNat) : UInt8.ofNat n = a := by
  rw [h, UInt8.ofNat_toNat]

theorem decode_encode (bytes : List UInt8) : decode (encode bytes) = some bytes := by
  -- along the groups of `encode`: the six-bit digits of a group give its bytes back
  fun_induction encode bytes with
  | case1 => rfl
  | case2 a bits =>
    have ha := a.toNat_lt
    rw [decode_one (by omega) (by omega) (by omega), ofNat_eq a (by omega)]
  | case3 a b bits =>
    have ha := a.toNat_lt
    have hb := b.toNat_lt
    rw [decode_two (by omega) (by omega) (by omega) (by omega), ofNat_eq a (by omega),
      ofNat_eq b (by omega)]
  | case4 a b c rest bits ih =>
    have ha := a.toNat_lt
    have hb := b.toNat_lt
    have hc := c.toNat_lt
    rw [decode_group (by omega) (by omega) (by omega) (by omega), ih, Option.map_some,
      ofNat_eq a (by omega), ofNat_eq b (by omega), ofNat_eq c (by omega)]

/-- Printable ASCII without the blank. -/
def Graphic (byte : UInt8) : Prop := 0x20 < byte ∧ byte < 0x7F

instance (byte : UInt8) : Decidable (Graphic byte) := inferInstanceAs (Decidable (_ ∧ _))

theorem graphic_digit (bits : ℕ) : Graphic (digit bits) := by
  by_cases h : bits < 63
  · revert bits
    decide
  have hlast : digit bits = 0x2F := by
    rw [digit, if_neg (by omega), if_neg (by omega), if_neg (by omega), if_neg (by omega)]
    rfl
  rw [hlast]
  decide

theorem graphic_pad : Graphic pad := by decide

/-- An encoding holds printable ASCII only, and no blank. -/
theorem graphic_of_mem_encode (bytes : List UInt8) : ∀ byte ∈ encode bytes, Graphic byte := by
  fun_induction encode bytes with
  | case1 => simp
  | case2 => simp [graphic_digit, graphic_pad]
  | case3 => simp [graphic_digit, graphic_pad]
  | case4 a b c rest bits ih => simpa [graphic_digit] using ih

end Base64
