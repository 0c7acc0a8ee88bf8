import Ursula.Lib.Utf8

/-!
# The event-stream format

How a client reads a `text/event-stream` body. The body is decoded as UTF-8, without a leading byte
order mark, and cut into lines at CR LF, LF or CR. A line is a field, whose value loses one leading
space; an empty line dispatches the event whose data lines were read since the last one. What stands
after the last empty line is never dispatched.

## Main definitions

* `EventStream.parse`: the client's state after a body
* `EventStream.eventLines`: the lines of one event
* `EventStream.unlines`: lines as a body

## Main results

* `EventStream.parse_unlines`: a valid body of clean lines is read line by line
* `EventStream.foldl_eventLines`: the lines of an event dispatch that event and nothing else
-/

namespace EventStream

open List

/-! ## Characters -/

/-- The bytes of an ASCII text. -/
def ascii (text : String) : List UInt8 := text.toList.map fun c => UInt8.ofNat c.toNat

/-- A line feed. -/
def lf : UInt8 := 0x0A

/-- A carriage return. -/
def cr : UInt8 := 0x0D

/-- The null character. -/
def nul : UInt8 := 0x00

/-- A space. -/
def space : UInt8 := 0x20

/-- A colon. -/
def colon : UInt8 := 0x3A

/-- The text without the byte order mark it may begin with. -/
def dropBom : List UInt8 → List UInt8
  | 0xEF :: 0xBB :: 0xBF :: rest => rest
  | text => text

/-! ## Lines -/

/-- The lines of a text, after a line's first part and perhaps a CR, whose LF ends no line. -/
def linesFrom (line : List UInt8) (afterCr : Bool) : List UInt8 → List (List UInt8)
  -- a last line without its end belongs to no dispatched event
  | [] => []
  | byte :: bytes =>
    if byte = lf then
      if afterCr then linesFrom [] false bytes else line :: linesFrom [] false bytes
    else if byte = cr then line :: linesFrom [] true bytes
    else linesFrom (line ++ [byte]) false bytes

/-- The lines of a text. -/
def lines (text : List UInt8) : List (List UInt8) := linesFrom [] false text

/-! ## Fields and events -/

/-- A dispatched event. -/
structure Event where
  type : List UInt8
  data : List UInt8
  lastEventId : List UInt8
  deriving DecidableEq, Repr

/-- The client's state: the buffers of the event being read, what outlives an event, and the
dispatched events. -/
structure Client where
  data : List UInt8
  eventType : List UInt8
  lastEventId : List UInt8
  reconnectionTime : Option ℕ
  events : List Event
  deriving DecidableEq, Repr

/-- Before a body. -/
def Client.start : Client := ⟨[], [], [], none, []⟩

/-- A value without one leading space. -/
def dropSpace : List UInt8 → List UInt8
  | [] => []
  | byte :: bytes => if byte = space then bytes else byte :: bytes

/-- Whether a value is made of ASCII digits. -/
def isNumber (value : List UInt8) : Bool :=
  value ≠ [] ∧ value.all fun byte => 0x30 ≤ byte ∧ byte ≤ 0x39

/-- The number a value of digits stands for. -/
def number (value : List UInt8) : ℕ :=
  value.foldl (fun n byte => n * 10 + (byte.toNat - 0x30)) 0

variable (client : Client)

/-- What a field does; unknown fields are ignored. -/
def Client.field (name value : List UInt8) : Client :=
  if name = ascii "event" then { client with eventType := value }
  else if name = ascii "data" then { client with data := client.data ++ value ++ [lf] }
  else if name = ascii "id" then
    if nul ∈ value then client else { client with lastEventId := value }
  else if name = ascii "retry" then
    if isNumber value then { client with reconnectionTime := some (number value) } else client
  else client

/-- Dispatches the event read so far, if it has data. -/
def Client.dispatch : Client :=
  if client.data = [] then { client with eventType := [] }
  else
    { client with
      data := []
      eventType := []
      events := client.events ++ [{
        type := if client.eventType = [] then ascii "message" else client.eventType
        data := if client.data.getLast? = some lf then client.data.dropLast else client.data
        lastEventId := client.lastEventId }] }

/-- What a client does with a line. -/
def Client.line (client : Client) (line : List UInt8) : Client :=
  if line = [] then client.dispatch
  else if line.head? = some colon then client
  else
    client.field (line.takeWhile (· ≠ colon)) (dropSpace ((line.dropWhile (· ≠ colon)).drop 1))

/-- The client's state after a body. -/
def parse (body : List UInt8) : Client :=
  (lines (dropBom (Utf8.lossy body))).foldl Client.line .start

/-! ## Bodies made of lines -/

/-- Lines as a body, each ended with LF. -/
def unlines (lines : List (List UInt8)) : List UInt8 := lines.flatMap (· ++ [lf])

/-- The lines of an event of a type, with one data line for each value. -/
def eventLines (type : List UInt8) (values : List (List UInt8)) : List (List UInt8) :=
  ((ascii "event: " ++ type) :: values.map (ascii "data:" ++ ·)) ++ [[]]

theorem unlines_append (first second : List (List UInt8)) :
    unlines (first ++ second) = unlines first ++ unlines second :=
  flatMap_append

variable (type : List UInt8) (values : List (List UInt8))

/-- An event as its lines are written. -/
theorem unlines_eventLines :
    unlines (eventLines type values) =
      ascii "event: " ++ type ++ [lf] ++ values.flatMap
        (fun value => ascii "data:" ++ value ++ [lf]) ++ [lf] := by
  rw [eventLines, unlines_append]
  simp [unlines, flatMap_cons, flatMap_map]

theorem head?_unlines_eventLines
    (more : List UInt8) : (unlines (eventLines type values) ++ more).head? = some 0x65 := by
  rw [unlines_eventLines]
  simp [ascii]

/-- A line that holds no line end. -/
def Clean (line : List UInt8) : Prop := lf ∉ line ∧ cr ∉ line

variable {line : List UInt8}

theorem linesFrom_clean (hline : Clean line) (part rest : List UInt8) :
    linesFrom part false (line ++ lf :: rest) = (part ++ line) :: linesFrom [] false rest := by
  induction line generalizing part with
  | nil => simp [linesFrom]
  | cons byte line ih =>
    have hlf : byte ≠ lf := fun h => hline.1 (by simp [h])
    have hcr : byte ≠ cr := fun h => hline.2 (by simp [h])
    have hrest : Clean line :=
      ⟨fun h => hline.1 (mem_cons_of_mem _ h), fun h => hline.2 (mem_cons_of_mem _ h)⟩
    rw [cons_append, linesFrom, if_neg hlf, if_neg hcr, ih hrest, append_assoc, singleton_append]

variable {texts : List (List UInt8)}

theorem lines_unlines (h : ∀ line ∈ texts, Clean line) : lines (unlines texts) = texts := by
  unfold lines unlines
  induction texts with
  | nil => rfl
  | cons line texts ih =>
    rw [flatMap_cons, append_assoc, singleton_append,
      linesFrom_clean (h line (by simp)), nil_append,
      ih fun later hlater => h later (mem_cons_of_mem _ hlater)]

/-- A text that may stand on one line of a body. -/
structure IsLine (line : List UInt8) : Prop where
  clean : Clean line
  valid : Utf8.Valid line

theorem IsLine.append {first second : List UInt8} (hfirst : IsLine first)
    (hsecond : IsLine second) : IsLine (first ++ second) where
  clean := by
    refine ⟨fun h => ?_, fun h => ?_⟩
    · exact (mem_append.mp h).elim hfirst.clean.1 hsecond.clean.1
    · exact (mem_append.mp h).elim hfirst.clean.2 hsecond.clean.2
  valid := hfirst.valid.append hsecond.valid

/-- An ASCII text without control characters. -/
def Printable (text : List UInt8) : Prop := ∀ byte ∈ text, 0x20 ≤ byte ∧ byte < 0x80

instance (text : List UInt8) : Decidable (Printable text) :=
  inferInstanceAs (Decidable (∀ _ ∈ _, _))

theorem Printable.append {first second : List UInt8} (hfirst : Printable first)
    (hsecond : Printable second) : Printable (first ++ second) := by
  intro byte hbyte
  exact (mem_append.mp hbyte).elim (hfirst byte) (hsecond byte)

theorem Printable.ite {p : Prop} [Decidable p] {first second : List UInt8}
    (hfirst : Printable first)
    (hsecond : Printable second) : Printable (if p then first else second) := by
  split
  · exact hfirst
  · exact hsecond

/-- A text without the control characters below the blank. -/
def NoControl (text : List UInt8) : Prop := ∀ byte ∈ text, 0x20 ≤ byte

variable {text : List UInt8}

theorem Printable.noControl (h : Printable text) : NoControl text :=
  fun byte hbyte => (h byte hbyte).1

theorem NoControl.append {first second : List UInt8} (hfirst : NoControl first)
    (hsecond : NoControl second) : NoControl (first ++ second) := by
  intro byte hbyte
  exact (mem_append.mp hbyte).elim (hfirst byte) (hsecond byte)

theorem NoControl.isLine (h : NoControl line) (hvalid : Utf8.Valid line) : IsLine line where
  clean := ⟨fun hlf => absurd (h lf hlf) (by decide), fun hcr => absurd (h cr hcr) (by decide)⟩
  valid := hvalid

/-- An ASCII text without control characters stands on one line. -/
theorem isLine_of_printable (h : Printable line) : IsLine line :=
  h.noControl.isLine (Utf8.valid_of_ascii fun byte hbyte => (h byte hbyte).2)

theorem isLine_eventLines {type : List UInt8} {values : List (List UInt8)} (htype : IsLine type)
    (hvalues : ∀ value ∈ values, IsLine value) : ∀ line ∈ eventLines type values, IsLine line := by
  intro line hline
  rcases mem_append.mp hline with hline | hline
  · rcases mem_cons.mp hline with rfl | hline
    · exact (isLine_of_printable (by decide +kernel)).append htype
    · obtain ⟨value, hvalue, rfl⟩ := mem_map.mp hline
      exact (isLine_of_printable (by decide +kernel)).append (hvalues value hvalue)
  · rw [mem_singleton.mp hline]
    exact isLine_of_printable (by decide +kernel)

theorem dropBom_of_head (h : text.head? ≠ some 0xEF) : dropBom text = text := by
  unfold dropBom
  split
  · exact absurd rfl h
  · rfl

/-- A body of lines that begins with no byte order mark is read line by line. -/
theorem parse_unlines (hlines : ∀ line ∈ texts, IsLine line)
    (hbom : (unlines texts).head? ≠ some 0xEF) :
    parse (unlines texts) = texts.foldl Client.line .start := by
  have hbody : Utf8.Valid (unlines texts) :=
    Utf8.valid_flatMap fun line hline => (hlines line hline).valid.append (by decide)
  rw [parse, Utf8.lossy_eq_self hbody, dropBom_of_head hbom,
    lines_unlines fun line hline => (hlines line hline).clean]

/-- The parts of a text between separators are made of its other bytes. -/
theorem mem_splitOn {sep : UInt8} (hline : line ∈ text.splitOn sep) :
    ∀ byte ∈ line, byte ∈ text ∧ byte ≠ sep := by
  induction text generalizing line with
  | nil =>
    rw [splitOn_nil, mem_singleton] at hline
    simp [hline]
  | cons first text ih =>
    have hwiden : ∀ {line}, line ∈ text.splitOn sep →
        ∀ byte ∈ line, byte ∈ first :: text ∧ byte ≠ sep := fun hline byte hbyte =>
      ⟨mem_cons_of_mem _ (ih hline byte hbyte).1, (ih hline byte hbyte).2⟩
    rw [splitOn_cons_eq_if_modifyHead] at hline
    split at hline
    case isTrue =>
      rcases mem_cons.mp hline with rfl | hline
      · exact fun _ hbyte => absurd hbyte not_mem_nil
      · exact hwiden hline
    case isFalse hsep =>
      -- the first byte opens the first part
      cases hrest : text.splitOn sep with
      | nil => exact absurd hrest (splitOn_ne_nil _ _)
      | cons part parts =>
        rw [hrest, modifyHead_cons] at hline
        rcases mem_cons.mp hline with rfl | hline
        · intro byte hbyte
          rcases mem_cons.mp hbyte with rfl | hbyte
          · exact ⟨mem_cons_self, by simpa using hsep⟩
          · exact hwiden (hrest ▸ mem_cons_self) byte hbyte
        · exact hwiden (hrest ▸ mem_cons_of_mem _ hline)

/-- The parts of the front of a text are parts of the text, the last one perhaps cut. -/
theorem splitOn_append_prefix (text more : List UInt8) (sep : UInt8) : ∃ part parts whole wholes,
    text.splitOn sep = part :: parts ∧ (text ++ more).splitOn sep = whole :: wholes ∧
      part <+: whole ∧ ∀ line ∈ parts, ∃ other ∈ wholes, line <+: other := by
  induction text with
  | nil =>
    obtain ⟨whole, wholes, hmore⟩ := exists_cons_of_ne_nil (splitOn_ne_nil sep more)
    exact ⟨[], [], whole, wholes, splitOn_nil _, hmore, nil_prefix, nofun⟩
  | cons first text ih =>
    obtain ⟨part, parts, whole, wholes, htext, hall, hpart, hparts⟩ := ih
    rw [cons_append, splitOn_cons_eq_if_modifyHead, splitOn_cons_eq_if_modifyHead, htext, hall]
    split
    · refine ⟨[], _, [], _, rfl, rfl, prefix_refl _, forall_mem_cons.mpr ⟨?_, fun line hline => ?_⟩⟩
      · exact ⟨whole, mem_cons_self, hpart⟩
      · obtain ⟨other, hother, hprefix⟩ := hparts line hline
        exact ⟨other, mem_cons_of_mem _ hother, hprefix⟩
    · exact ⟨first :: part, parts, first :: whole, wholes, rfl, rfl,
        cons_prefix_cons.mpr ⟨rfl, hpart⟩, hparts⟩

theorem exists_prefix_of_mem_splitOn {sep : UInt8} (hline : line ∈ text.splitOn sep)
    (more : List UInt8) : ∃ whole ∈ (text ++ more).splitOn sep, line <+: whole := by
  obtain ⟨part, parts, whole, wholes, htext, hall, hpart, hparts⟩ :=
    splitOn_append_prefix text more sep
  rw [htext] at hline
  rw [hall]
  rcases mem_cons.mp hline with rfl | hline
  · exact ⟨whole, mem_cons_self, hpart⟩
  · obtain ⟨other, hother, hprefix⟩ := hparts line hline
    exact ⟨other, mem_cons_of_mem _ hother, hprefix⟩

/-! ## The lines of an event -/

/-- A line with a field name, a colon and a value. -/
theorem Client.line_field (name value : List UInt8) (hne : name ≠ []) (hname : colon ∉ name) :
    client.line (name ++ colon :: value) = client.field name (dropSpace value) := by
  have hkeep : ∀ byte ∈ name, (decide (byte ≠ colon)) = true := by
    intro byte hbyte
    exact decide_eq_true fun h => hname (h ▸ hbyte)
  have hhead : (name ++ colon :: value).head? ≠ some colon := by
    cases name with
    | nil => exact absurd rfl hne
    | cons byte name =>
      intro h
      exact hname (Option.some.inj h ▸ mem_cons_self)
  rw [Client.line, if_neg (by simp), if_neg hhead, takeWhile_append_of_pos hkeep,
    dropWhile_append_of_pos hkeep]
  simp

theorem Client.line_data (value : List UInt8) :
    client.line (ascii "data:" ++ value) =
      { client with data := client.data ++ dropSpace value ++ [lf] } :=
  client.line_field (ascii "data") value (by decide) (by decide)

theorem Client.line_event :
    client.line (ascii "event: " ++ type) = { client with eventType := type } :=
  client.line_field (ascii "event") (space :: type) (by decide) (by decide)

/-- Data lines fill the data buffer. -/
theorem Client.foldl_data :
    (values.map (ascii "data:" ++ ·)).foldl Client.line client =
      { client with data := client.data ++ unlines (values.map dropSpace) } := by
  induction values generalizing client with
  | nil => simp [unlines]
  | cons value values ih =>
    rw [map_cons, foldl_cons, client.line_data, ih]
    simp [unlines]

theorem dropLast_unlines (hne : texts ≠ []) :
    (unlines texts).dropLast = [lf].intercalate texts := by
  induction texts with
  | nil => exact absurd rfl hne
  | cons line texts ih =>
    cases texts with
    | nil => simp [unlines]
    | cons second texts =>
      have hrest : unlines (second :: texts) ≠ [] := by simp [unlines]
      rw [intercalate_cons_cons, ← ih (by simp)]
      show (line ++ [lf] ++ unlines (second :: texts)).dropLast = _
      rw [dropLast_append_of_ne_nil hrest]

theorem getLast?_unlines (hne : texts ≠ []) : (unlines texts).getLast? = some lf := by
  obtain ⟨rest, line, rfl⟩ := eq_nil_or_concat texts |>.resolve_left hne
  simp [unlines]

/-- A client between two events. -/
def Client.Idle : Prop := client.data = [] ∧ client.eventType = []

/-- The client after one more event. -/
def Client.dispatched (type data : List UInt8) : Client :=
  { client with events := client.events ++ [⟨type, data, client.lastEventId⟩] }

/-- The lines of an event dispatch that event, its values without one leading space each and joined
with LF, and do nothing else. -/
theorem foldl_eventLines {client : Client} (hidle : client.Idle) {type : List UInt8}
    (htype : type ≠ []) {values : List (List UInt8)} (hvalues : values ≠ []) :
    (eventLines type values).foldl Client.line client =
      client.dispatched type ([lf].intercalate (values.map dropSpace)) := by
  obtain ⟨hdata, hevent⟩ := hidle
  have hne : values.map dropSpace ≠ [] := by simpa using hvalues
  have hbuffer : unlines (values.map dropSpace) ≠ [] := by
    intro h
    have hlast := getLast?_unlines hne
    rw [h] at hlast
    exact nomatch hlast
  unfold eventLines
  rw [foldl_append, foldl_cons (b := client), Client.line_event, Client.foldl_data, hdata,
    nil_append]
  simp only [foldl_cons, foldl_nil, Client.line, if_true, Client.dispatch, hbuffer,
    if_false, htype, getLast?_unlines hne, dropLast_unlines hne, Client.dispatched]
  rw [hdata, hevent]

end EventStream
