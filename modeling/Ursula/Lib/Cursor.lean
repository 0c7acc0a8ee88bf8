import Ursula.Lib.ByteReader

/-!
# Cursors over bytes, and the grammars they read

A cursor is a text of bytes and the position up to which it has been read. A reader moves a cursor
and returns a value or an error; the cursor stays where it was moved to in either case. A grammar
says which texts spell a value. A reader parses a grammar when it reads back exactly the values
that the grammar spells at the cursor, and never leaves the text.

## Main definitions

* `Cursor`, `Cursor.Reader`: positions in a text, and the programs that read from them
* `Cursor.Parses`: a reader parses a grammar
* `Cursor.parseAll`: reads a whole text

## Main results

* `Cursor.Parses.bind`, `Cursor.Parses.times`: one field after another, and counted fields
* `Cursor.Parses.grammar_of_parseAll`, `Cursor.Parses.parseAll_of_grammar`: whole texts
* `Cursor.Parses.unique`: no text starts with the spellings of two values
-/

/-- A text of bytes and the position up to which it has been read. -/
structure Cursor where
  bytes : List UInt8
  offset : ℕ

namespace Cursor

open List

variable {ε α β : Type} {c next : Cursor} {text more : List UInt8} {limit : ℕ}

/-- A cursor at the start of a text. -/
def new (bytes : List UInt8) : Cursor := ⟨bytes, 0⟩

/-- The number of bytes not read yet. -/
def remaining (c : Cursor) : ℕ := c.bytes.length - c.offset

/-- The bytes not read yet. -/
def rest (c : Cursor) : List UInt8 := c.bytes.drop c.offset

/-- The cursor some bytes further on. -/
def skip (c : Cursor) (count : ℕ) : Cursor := ⟨c.bytes, c.offset + count⟩

/-- The cursor stands within its text. -/
def Inside (c : Cursor) : Prop := c.offset ≤ c.bytes.length

@[simp] theorem rest_new (bytes : List UInt8) : (new bytes).rest = bytes := rfl

theorem skip_skip (c : Cursor) (m n : ℕ) : (c.skip m).skip n = c.skip (m + n) := by
  simp only [skip, Nat.add_assoc]

theorem rest_skip (c : Cursor) (count : ℕ) : (c.skip count).rest = c.rest.drop count := by
  simp only [rest, skip, drop_drop]

theorem length_rest (c : Cursor) : c.rest.length = c.bytes.length - c.offset := length_drop

theorem inside_new (bytes : List UInt8) : (new bytes).Inside := Nat.zero_le _

theorem Inside.skip (h : c.Inside) (htext : text <+: c.rest) : (c.skip text.length).Inside := by
  have hlength := htext.length_le
  rw [length_rest] at hlength
  unfold Inside at h
  show c.offset + text.length ≤ c.bytes.length
  omega

/-- Two texts stand one after the other. -/
theorem append_isPrefix_rest (htext : text <+: c.rest) :
    text ++ more <+: c.rest ↔ more <+: (c.skip text.length).rest := by
  obtain ⟨after, hafter⟩ := htext
  rw [rest_skip, ← hafter, drop_left, prefix_append_right_inj]

/-! ## Readers -/

/-- A program that reads from a cursor. -/
abbrev Reader (ε α : Type) := ExceptT ε (StateM Cursor) α

/-- What a reader returns at a cursor, and the cursor it leaves. -/
def Reader.on (read : Reader ε α) (c : Cursor) : Except ε α × Cursor :=
  StateT.run (ExceptT.run read) c

variable {f : α → Reader ε β} {value : α}

theorem on_bind_of_ok {read : Reader ε α}
    (h : read.on c = (.ok value, next)) : Reader.on (read >>= f) c = (f value).on next := by
  show (match read.on c with | (result, c') => StateT.run (ExceptT.bindCont f result) c') = _
  rw [h]
  rfl

theorem on_bind_of_error {read : Reader ε α} {e : ε}
    (h : read.on c = (.error e, next)) : Reader.on (read >>= f) c = (.error e, next) := by
  show (match read.on c with | (result, c') => StateT.run (ExceptT.bindCont f result) c') = _
  rw [h]
  rfl

/-- The next `count` bytes; the position after them is at most `limit`. -/
def slice (limit : ℕ) (overflow truncated : ε) (count : ℕ) : Reader ε (List UInt8) := fun c =>
  if limit < c.offset + count then (.error overflow, c)
  else if c.bytes.length < c.offset + count then (.error truncated, c)
  else (.ok (c.rest.take count), c.skip count)

theorem on_slice (overflow truncated : ε) (count : ℕ) :
    (slice limit overflow truncated count).on c =
      if limit < c.offset + count then (.error overflow, c)
      else if c.bytes.length < c.offset + count then (.error truncated, c)
      else (.ok (c.rest.take count), c.skip count) :=
  rfl

/-- The next `width` bytes as a number. -/
def nat (limit : ℕ) (overflow truncated : ε) (width : ℕ) : Reader ε ℕ := do
  return ByteReader.unle (← slice limit overflow truncated width)

/-- Goes on when a condition holds. -/
def ensure (P : Prop) [Decidable P] (e : ε) : Reader ε Unit := if P then pure () else throw e

/-- Goes on with a value when there is one. -/
def orThrow (found : Option α) (e : ε) : Reader ε α :=
  match found with
  | some value => pure value
  | none => throw e

/-- The same field `count` times. -/
def times (read : Reader ε α) : ℕ → Reader ε (List α)
  | 0 => pure []
  | count + 1 => do
    let value ← read
    let values ← times read count
    return value :: values

/-- Reads a whole text. -/
def parseAll (read : Reader ε α) (trailing : ε) (bytes : List UInt8) : Except ε α :=
  match read.on (new bytes) with
  | (.ok value, c) => if c.remaining ≠ 0 then .error trailing else .ok value
  | (.error e, _) => .error e

/-! ## Grammars -/

/-- The spelling of a list: the spellings of its members, one after another. -/
def spellAll (spell : α → Option (List UInt8)) : List α → Option (List UInt8)
  | [] => some []
  | value :: values => do
    let front ← spell value
    let back ← spellAll spell values
    return front ++ back

variable {spell : α → Option (List UInt8)}

theorem spellAll_cons {values : List α} (h : spellAll spell (value :: values) = some text) :
    ∃ front, spell value = some front ∧ ∃ back, spellAll spell values = some back ∧
      front ++ back = text := by
  simpa only [spellAll, Option.bind_eq_bind, Option.bind_eq_some_iff, Option.pure_def,
    Option.some.injEq] using h

/-- Spelling the images of the members of a list. -/
theorem spellAll_map (spell : β → Option (List UInt8)) (f : α → β) (values : List α) :
    spellAll spell (values.map f) = spellAll (fun value => spell (f value)) values := by
  induction values with
  | nil => rfl
  | cons value values ih => rw [map_cons, spellAll, spellAll, ih]

/-- A list is spelled when each member is, in as many bytes as all of them together. -/
theorem exists_spellAll {size : α → ℕ} {values : List α}
    (h : ∀ value ∈ values, ∃ text, spell value = some text ∧ text.length = size value) :
    ∃ text, spellAll spell values = some text ∧ text.length = (values.map size).sum := by
  induction values with
  | nil => exact ⟨[], rfl, rfl⟩
  | cons value values ih =>
    rw [forall_mem_cons] at h
    obtain ⟨⟨front, hfront, hlength⟩, hrest⟩ := h
    obtain ⟨back, hback, hlength'⟩ := ih hrest
    refine ⟨front ++ back, ?_, ?_⟩
    · rw [spellAll, hfront, hback]
      rfl
    · rw [length_append, hlength, hlength', map_cons, sum_cons]

/-- A reader parses a grammar: it stays within the text, the value it returns is spelled by the
bytes it passed, and it returns every value that the grammar spells at the cursor. -/
structure Parses (limit : ℕ) (read : Reader ε α) (grammar : α → List UInt8 → Prop) : Prop where
  within : ∀ {c}, c.Inside → (read.on c).2.bytes = c.bytes ∧ c.offset ≤ (read.on c).2.offset ∧
    (read.on c).2.Inside
  sound : ∀ {c value next}, c.Inside → read.on c = (.ok value, next) →
    ∃ text, grammar value text ∧ text <+: c.rest ∧ next = c.skip text.length
  whole : ∀ {c value text}, c.Inside → grammar value text → text <+: c.rest →
    c.offset + text.length ≤ limit → read.on c = (.ok value, c.skip text.length)

namespace Parses

variable {read : Reader ε α} {grammar : α → List UInt8 → Prop}

theorem congr {other : α → List UInt8 → Prop} (h : Parses limit read grammar)
    (hsame : ∀ value text, grammar value text ↔ other value text) : Parses limit read other := by
  rwa [← funext₂ fun value text => propext (hsame value text)]

theorem pure (value : α) :
    Parses limit (Pure.pure value : Reader ε α) fun read text => read = value ∧ text = [] where
  within h := ⟨rfl, Nat.le_refl _, h⟩
  sound := by
    rintro c _ _ - h
    cases h
    exact ⟨[], ⟨rfl, rfl⟩, nil_prefix, rfl⟩
  whole := by
    rintro c _ _ - ⟨rfl, rfl⟩ - -
    rfl

theorem bind {grammars : α → β → List UInt8 → Prop}
    (h : Parses limit read grammar) (hnext : ∀ value, Parses limit (f value) (grammars value)) :
    Parses limit (read >>= f) fun result text => ∃ value front back,
      grammar value front ∧ grammars value result back ∧ text = front ++ back where
  within {c} hc := by
    cases hread : read.on c with
    | mk outcome next =>
      have hfirst := h.within hc
      rw [hread] at hfirst
      obtain ⟨hbytes, hoffset, hinside⟩ := hfirst
      cases outcome with
      | error e =>
        rw [on_bind_of_error hread]
        exact ⟨hbytes, hoffset, hinside⟩
      | ok value =>
        rw [on_bind_of_ok hread]
        obtain ⟨hbytes', hoffset', hinside'⟩ := (hnext value).within hinside
        exact ⟨hbytes'.trans hbytes, Nat.le_trans hoffset hoffset', hinside'⟩
  sound {c result last} hc hrun := by
    cases hread : read.on c with
    | mk outcome next =>
      cases outcome with
      | error e =>
        rw [on_bind_of_error hread] at hrun
        cases hrun
      | ok value =>
        rw [on_bind_of_ok hread] at hrun
        obtain ⟨front, hfront, hstands, rfl⟩ := h.sound hc hread
        obtain ⟨back, hback, hfollows, rfl⟩ := (hnext value).sound (hc.skip hstands) hrun
        refine ⟨front ++ back, ⟨value, front, back, hfront, hback, rfl⟩,
          (append_isPrefix_rest hstands).mpr hfollows, ?_⟩
        rw [skip_skip, length_append]
  whole := by
    rintro c result _ hc ⟨value, front, back, hfront, hback, rfl⟩ hstands hlimit
    rw [length_append] at hlimit ⊢
    have hfirst : front <+: c.rest := (prefix_append front back).trans hstands
    have hsecond : c.offset + front.length + back.length ≤ limit := by omega
    rw [on_bind_of_ok (h.whole hc hfront hfirst (by omega)),
      (hnext value).whole (hc.skip hfirst) hback
      ((append_isPrefix_rest hfirst).mp hstands) hsecond, skip_skip]

theorem slice (overflow truncated : ε) (count : ℕ) :
    Parses limit (Cursor.slice limit overflow truncated count) fun bytes text =>
      bytes.length = count ∧ text = bytes where
  within {c} hc := by
    rw [on_slice]
    split_ifs with hlimit hlength
    · exact ⟨rfl, Nat.le_refl _, hc⟩
    · exact ⟨rfl, Nat.le_refl _, hc⟩
    · exact ⟨rfl, Nat.le_add_right _ _, Nat.le_of_not_lt hlength⟩
  sound {c value next} _ hrun := by
    rw [on_slice] at hrun
    split_ifs at hrun with hlimit hlength <;> cases hrun
    have hcount : (c.rest.take count).length = count := by
      rw [length_take, length_rest]
      omega
    exact ⟨_, ⟨hcount, rfl⟩, take_prefix _ _, by rw [hcount]⟩
  whole := by
    rintro c _ bytes hc ⟨rfl, rfl⟩ hstands hlimit
    have hinside : c.offset + bytes.length ≤ c.bytes.length := hc.skip hstands
    rw [on_slice, if_neg (by omega), if_neg (by omega), ← prefix_iff_eq_take.mp hstands]

/-- A reader that refuses parses the grammar without texts. -/
theorem throw (e : ε) : Parses limit (MonadExcept.throw e : Reader ε α) fun _ _ => False where
  within hc := ⟨rfl, Nat.le_refl _, hc⟩
  sound _ hrun := by cases hrun
  whole _ h := h.elim

theorem ensure (P : Prop) [Decidable P] (e : ε) :
    Parses limit (Cursor.ensure P e) fun _ text => P ∧ text = [] := by
  unfold Cursor.ensure
  split_ifs with hP
  · exact (pure ()).congr fun _ _ => by simp [hP]
  · exact (throw e).congr fun _ _ => by simp [hP]

theorem orThrow (found : Option α) (e : ε) :
    Parses limit (Cursor.orThrow found e) fun value text => found = some value ∧ text = [] := by
  cases found with
  | none => exact (throw e).congr fun _ _ => by simp
  | some value => exact (pure value).congr fun _ _ => by simp [eq_comm]

/-- Numbers stand with their lowest byte first. -/
theorem nat (overflow truncated : ε) (width : ℕ) :
    Parses limit (Cursor.nat limit overflow truncated width) fun n text =>
      n < 256 ^ width ∧ text = ByteReader.le width n := by
  refine ((slice overflow truncated width).bind fun bytes => pure (ByteReader.unle bytes)).congr ?_
  intro n text
  constructor
  · rintro ⟨_, bytes, _, ⟨rfl, rfl⟩, ⟨rfl, rfl⟩, rfl⟩
    rw [append_nil]
    exact ⟨ByteReader.unle_lt bytes, (ByteReader.le_unle bytes).symm⟩
  · rintro ⟨hn, rfl⟩
    exact ⟨_, _, _, ⟨ByteReader.length_le width n, rfl⟩, ⟨(ByteReader.unle_le hn).symm, rfl⟩,
      (append_nil _).symm⟩

/-- Counted fields are spelled one after another. -/
theorem times {valid : α → Prop}
    (h : Parses limit read fun value text => valid value ∧ spell value = some text) (count : ℕ) :
    Parses limit (Cursor.times read count) fun values text => values.length = count ∧
      (∀ value ∈ values, valid value) ∧ spellAll spell values = some text := by
  induction count with
  | zero =>
    refine (pure []).congr fun values text => ⟨?_, ?_⟩
    · rintro ⟨rfl, rfl⟩
      exact ⟨rfl, by simp, rfl⟩
    · rintro ⟨hlength, -, htext⟩
      obtain rfl := eq_nil_of_length_eq_zero hlength
      exact ⟨rfl, (Option.some.inj htext).symm⟩
  | succ count ih =>
    refine (h.bind fun value => ih.bind fun values => pure (value :: values)).congr ?_
    intro values text
    constructor
    · rintro ⟨value, front, _, ⟨hvalid, hfront⟩, ⟨others, back, _, ⟨hlength, hothers, hback⟩,
        ⟨rfl, rfl⟩, rfl⟩, rfl⟩
      refine ⟨congrArg (· + 1) hlength, forall_mem_cons.mpr ⟨hvalid, hothers⟩, ?_⟩
      rw [spellAll, hfront, hback, append_nil]
      rfl
    · rintro ⟨hlength, hvalid, htext⟩
      cases values with
      | nil => cases hlength
      | cons value others =>
        obtain ⟨front, hfront, back, hback, rfl⟩ := spellAll_cons htext
        rw [forall_mem_cons] at hvalid
        exact ⟨value, front, _, ⟨hvalid.1, hfront⟩, ⟨others, back, _,
          ⟨Nat.succ.inj hlength, hvalid.2, hback⟩, ⟨rfl, rfl⟩, (append_nil _).symm⟩, rfl⟩

variable (h : Parses limit read grammar)
include h

/-- The value of a whole text is spelled by it. -/
theorem grammar_of_parseAll {trailing : ε} {bytes : List UInt8}
    (hparse : parseAll read trailing bytes = .ok value) :
    grammar value bytes := by
  unfold parseAll at hparse
  cases hread : read.on (new bytes) with
  | mk outcome next =>
    rw [hread] at hparse
    cases outcome with
    | error e => cases hparse
    | ok found =>
      obtain ⟨text, htext, hstands, rfl⟩ := h.sound (inside_new bytes) hread
      simp only at hparse
      split_ifs at hparse with hmore
      cases hparse
      have hlength : bytes.length - (0 + text.length) = 0 := not_not.mp hmore
      rw [rest_new] at hstands
      rwa [← hstands.eq_of_length_le (by omega)]

/-- A whole text is read back. -/
theorem parseAll_of_grammar {trailing : ε} {bytes : List UInt8}
    (hgrammar : grammar value bytes) (hlimit : bytes.length ≤ limit) :
    parseAll read trailing bytes = .ok value := by
  have hread := h.whole (inside_new bytes) hgrammar (prefix_refl _) (by rwa [new, Nat.zero_add])
  have hend : (skip (new bytes) bytes.length).remaining = 0 := by
    show bytes.length - (0 + bytes.length) = 0
    omega
  rw [parseAll, hread]
  exact if_neg (not_not.mpr hend)

/-- No text starts with the spellings of two values. -/
theorem unique {first second : α} {front back : List UInt8}
    (hfirst : grammar first text) (hsecond : grammar second more)
    (hsame : text ++ front = more ++ back) (hlimit : text.length ≤ limit)
    (hlimit' : more.length ≤ limit) : first = second ∧ text = more := by
  have hread := h.whole (inside_new (text ++ front)) hfirst (prefix_append _ _)
    (by rwa [new, Nat.zero_add])
  have hread' := h.whole (inside_new (text ++ front)) hsecond (hsame ▸ prefix_append _ _)
    (by rwa [new, Nat.zero_add])
  have hcursor := hread.symm.trans hread'
  have hlength : text.length = more.length := by
    have hoffset := congrArg (fun result => result.2.offset) hcursor
    exact Nat.add_left_cancel hoffset
  exact ⟨Except.ok.inj (congrArg Prod.fst hcursor), (append_inj hsame hlength).1⟩

end Parses

end Cursor
