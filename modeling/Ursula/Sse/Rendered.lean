import Ursula.Sse.Session

/-!
# A session's body as lines

What a read or an error sends, as the lines of events. Every line stands alone: it is valid UTF-8
and holds no line end, whatever the payload or the error text is.

## Main definitions

* `controlData`, `dataValues`: the data of a `control` event and the data lines of a payload
* `readLines`, `errorLines`: the lines a read and an error send

## Main results

* `renderSseRead_eq`, `sseErrorEvent_eq`: the rendered events are these lines
* `isLine_readLines`, `isLine_errorLines`: every line stands alone
* `sseSafeLine_render`: an error text is sent as it is
-/

namespace Ursula.Sse

open EventStream List

/-! ## The lines of a session's body -/

variable (read : ReadStreamResponse)

/-- The data of a control event. -/
def controlData (requestCursor : Option String) : Bytes :=
  let closedAtTail := read.end' = .closedTail
  ascii "\x7b\"streamNextOffset\":\"" ++ padded20 read.nextOffset ++ ascii "\"" ++
  (if closedAtTail then []
  else
    ascii ",\"streamCursor\":\"" ++ padded20 (responseCursor read.nextOffset requestCursor) ++
      ascii "\"") ++
  (if read.upToDate then ascii ",\"upToDate\":true" else []) ++
  (if closedAtTail then ascii ",\"streamClosed\":true" else []) ++
  ascii "\x7d"

/-- The data lines of a payload. -/
def dataValues (payload : Bytes) (encodeBase64 : Bool) : List Bytes :=
  ((payloadText payload encodeBase64).splitOn EventStream.lf).map sseSafeLine

/-- The lines of a read. -/
def readLines (encodeBase64 : Bool) (requestCursor : Option String) :
    List Bytes :=
  (if read.payload = [] then []
  else eventLines (ascii "data") (dataValues read.payload encodeBase64)) ++
  eventLines (ascii "control") [controlData read requestCursor]

theorem renderSseRead_eq (encodeBase64 : Bool) (requestCursor : Option String) :
    renderSseRead read encodeBase64 requestCursor =
      unlines (readLines read encodeBase64 requestCursor) := by
  have hdata : ascii "event: data\n" = ascii "event: " ++ ascii "data" ++ [EventStream.lf] := rfl
  have hcontrol : ascii "event: control\n" =
      ascii "event: " ++ ascii "control" ++ [EventStream.lf] := rfl
  have hopen : ascii "data:\x7b\"streamNextOffset\":\"" =
      ascii "data:" ++ ascii "\x7b\"streamNextOffset\":\"" := rfl
  have hclose : ascii "\x7d\n\n" = ascii "\x7d" ++ [EventStream.lf] ++ [EventStream.lf] := rfl
  have hend : ascii "\n" = [EventStream.lf] := rfl
  rw [renderSseRead, readLines, EventStream.unlines_append, EventStream.unlines_eventLines,
    controlData, hcontrol, hopen, hclose]
  by_cases hpayload : read.payload = []
  · simp [hpayload, unlines]
  · rw [if_neg hpayload, if_neg hpayload, EventStream.unlines_eventLines, dataValues, hdata, hend]
    simp [flatMap_map]

variable (body : ErrorBody)

/-- The lines of an error. -/
def errorLines : List Bytes :=
  eventLines (ascii "error") [sseSafeLine body.render]

theorem sseErrorEvent_eq : sseErrorEvent body = unlines (errorLines body) := by
  have hopen : ascii "event: error\ndata:" =
      ascii "event: " ++ ascii "error" ++ [EventStream.lf] ++ ascii "data:" := rfl
  have hclose : ascii "\n\n" = [EventStream.lf] ++ [EventStream.lf] := rfl
  rw [errorLines, EventStream.unlines_eventLines, sseErrorEvent, hopen, hclose]
  simp

/-! ## Every line stands alone -/

theorem printable_padded20 (n : ℕ) : Printable (padded20 n) := by
  have hdigits : ∀ digit < 10, Printable [UInt8.ofNat (0x30 + digit)] := by decide +kernel
  intro byte hbyte
  rcases mem_append.mp hbyte with hbyte | hbyte
  · rw [eq_of_mem_replicate hbyte]
    decide
  · obtain ⟨digit, hdigit, rfl⟩ := mem_map.mp hbyte
    have hlt : digit < 10 := Nat.digits_lt_base (by decide) (mem_reverse.mp hdigit)
    exact hdigits digit hlt _ (by simp)

theorem printable_controlData (requestCursor : Option String) :
    Printable (controlData read requestCursor) := by
  have hcursor : Printable (ascii ",\"streamCursor\":\"" ++
      padded20 (responseCursor read.nextOffset requestCursor) ++ ascii "\"") :=
    (Printable.append (by decide +kernel) (printable_padded20 _)).append (by decide +kernel)
  have hoffset : Printable (ascii "\x7b\"streamNextOffset\":\"" ++ padded20 read.nextOffset ++
      ascii "\"") :=
    (Printable.append (by decide +kernel) (printable_padded20 _)).append (by decide +kernel)
  exact (((hoffset.append (.ite (by decide +kernel) hcursor)).append
    (.ite (by decide +kernel) (by decide +kernel))).append
    (.ite (by decide +kernel) (by decide +kernel))).append (by decide +kernel)

theorem valid_payloadText (payload : Bytes) (encodeBase64 : Bool) :
    Utf8.Valid (payloadText payload encodeBase64) := by
  unfold payloadText
  split
  · refine Utf8.valid_of_ascii fun byte hbyte => ?_
    exact UInt8.lt_trans (Base64.graphic_of_mem_encode payload byte hbyte).2 (by decide)
  · exact Utf8.valid_lossy payload

theorem valid_sseSafeLine {line : Bytes} (h : Utf8.Valid line) : Utf8.Valid (sseSafeLine line) := by
  refine h.filter fun byte hdropped => ?_
  have hbyte : byte = cr ∨ byte = nul := by
    by_contra hother
    simp only [not_or] at hother
    simp [hother] at hdropped
  rcases hbyte with rfl | rfl <;> decide

theorem isLine_dataValues (payload : Bytes) (encodeBase64 : Bool) :
    ∀ value ∈ dataValues payload encodeBase64, IsLine value := by
  intro value hvalue
  obtain ⟨line, hline, rfl⟩ := mem_map.mp hvalue
  refine ⟨⟨fun hlf => ?_, fun hcr => ?_⟩, ?_⟩
  · exact (mem_splitOn hline _ (mem_filter.mp hlf).1).2 rfl
  · simpa using (mem_filter.mp hcr).2
  · exact valid_sseSafeLine ((valid_payloadText ..).splitOn (by decide) line hline)

theorem isLine_readLines (encodeBase64 : Bool) (requestCursor : Option String) :
    ∀ line ∈ readLines read encodeBase64 requestCursor,
      IsLine line := by
  intro line hline
  rcases mem_append.mp hline with hline | hline
  · split at hline
    case isTrue => exact absurd hline not_mem_nil
    case isFalse =>
      exact isLine_eventLines (isLine_of_printable (by decide +kernel))
        (isLine_dataValues _ _) line hline
  · refine isLine_eventLines (isLine_of_printable (by decide +kernel)) ?_
      line hline
    intro value hvalue
    rw [mem_singleton.mp hvalue]
    exact isLine_of_printable (printable_controlData read requestCursor)

/-! ## Error texts -/

theorem printable_hexDigit {n : ℕ} (h : n < 16) : Printable [hexDigit n] := by
  revert n
  decide +kernel

/-- An ASCII character is written with printable ones. -/
theorem printable_jsonEscape {byte : UInt8} (h : byte < 0x80) : Printable (jsonEscape byte) := by
  have hnat := byte.toNat_lt
  have hhex : Printable [hexDigit (byte.toNat / 16), hexDigit (byte.toNat % 16)] :=
    (printable_hexDigit (by omega)).append (printable_hexDigit (by omega))
  refine .ite (by decide +kernel) (.ite (by decide +kernel) (.ite (by decide +kernel)
    (.ite (by decide +kernel) (.ite (by decide +kernel) ?_))))
  split
  case isTrue => exact Printable.append (by decide +kernel) hhex
  case isFalse hlow =>
    intro other hother
    rw [mem_singleton.mp hother]
    exact ⟨UInt8.not_lt.mp hlow, h⟩

theorem jsonEscape_other {byte : UInt8} (h : ¬ byte < 0x80) : jsonEscape byte = [byte] := by
  have hne : ∀ {other : UInt8}, other < 0x80 → byte ≠ other := fun hother heq => h (heq ▸ hother)
  rw [jsonEscape, if_neg (hne (by decide)), if_neg (hne (by decide)), if_neg (hne (by decide)),
    if_neg (hne (by decide)), if_neg (hne (by decide)),
    if_neg fun hlow => h (UInt8.lt_trans hlow (by decide))]

theorem noControl_pushJsonString (text : Bytes) : NoControl (pushJsonString text) := by
  have hquote : NoControl (ascii "\"") := Printable.noControl (by decide +kernel)
  refine (hquote.append fun byte hbyte => ?_).append hquote
  obtain ⟨char, _, hbyte⟩ := mem_flatMap.mp hbyte
  by_cases hchar : char < 0x80
  · exact (printable_jsonEscape hchar byte hbyte).1
  · rw [jsonEscape_other hchar, mem_singleton] at hbyte
    rw [hbyte]
    exact UInt8.le_trans (by decide) (UInt8.not_lt.mp hchar)

theorem valid_pushJsonString {text : Bytes} (h : Utf8.Valid text) :
    Utf8.Valid (pushJsonString text) := by
  have htext : Utf8.Valid (text.flatMap jsonEscape) :=
    h.flatMap (fun byte hbyte => (isLine_of_printable (printable_jsonEscape hbyte)).valid)
      fun byte hbyte => jsonEscape_other hbyte
  exact ((by decide : Utf8.Valid (ascii "\"")).append htext).append (by decide)

theorem noControl_render : NoControl body.render := by
  have hopen : Printable (ascii "\x7b\"error\":\x7b\"code\":") := by decide +kernel
  have hmessage : Printable (ascii ",\"message\":") := by decide +kernel
  have hclose : Printable (ascii "\x7d\x7d") := by decide +kernel
  exact (((hopen.noControl.append (noControl_pushJsonString _)).append hmessage.noControl).append
    (noControl_pushJsonString _)).append hclose.noControl

theorem valid_render : Utf8.Valid body.render :=
  ((((by decide : Utf8.Valid (ascii "\x7b\"error\":\x7b\"code\":")).append
    (valid_pushJsonString body.code.asStr.2)).append (by decide)).append
    (valid_pushJsonString body.message.2)).append (by decide)

theorem sseSafeLine_eq_self {line : Bytes} (h : ∀ byte ∈ line, byte ≠ cr ∧ byte ≠ nul) :
    sseSafeLine line = line :=
  filter_eq_self.mpr fun byte hbyte => decide_eq_true (h byte hbyte)

theorem sseSafeLine_render : sseSafeLine body.render = body.render := by
  refine sseSafeLine_eq_self fun byte hbyte => ⟨fun h => ?_, fun h => ?_⟩
  · exact absurd (h ▸ noControl_render body byte hbyte) (by decide)
  · exact absurd (h ▸ noControl_render body byte hbyte) (by decide)

theorem isLine_errorLines : ∀ line ∈ errorLines body, IsLine line := by
  refine isLine_eventLines (isLine_of_printable (by decide +kernel)) ?_
  intro value hvalue
  rw [mem_singleton.mp hvalue, sseSafeLine_render]
  exact (noControl_render body).isLine (valid_render body)

end Ursula.Sse
