import Morons.Library.Chunked
import Morons.Provider.Outcome

/-!
# Server-sent events

`SseDecoder` turns the bytes of a response into records.  Its bounds are on the
bytes of the whole stream, of one record and of an event name.
-/

namespace Morons.Provider

open Attempt

def maxSseRecordBytes : Nat := 1024 * 1024
def maxProviderStreamBytes : Nat := 16 * 1024 * 1024
def maxSseEventNameBytes : Nat := 128

structure SseRecord where
  event : Option String
  data : List UInt8
  deriving DecidableEq

/-- What has arrived of the record under way. -/
structure SseBuffer where
  line : List UInt8 := []
  event : Option String := none
  data : List UInt8 := []
  dataLines : Nat := 0
  recordBytes : Nat := 0
  deriving DecidableEq

structure SseDecoder extends SseBuffer where
  streamBytes : Nat := 0
  bounded : streamBytes ≤ maxProviderStreamBytes := by exact Nat.zero_le _
  deriving DecidableEq

namespace SseBuffer

def isGraphicByte (byte : UInt8) : Bool := decide (0x21 ≤ byte) && decide (byte ≤ 0x7e)

/-- The field of a line and its value, without one space after the colon. -/
def splitField (line : List UInt8) : Option (List UInt8 × List UInt8) :=
  if 0x3a ∈ line then
    let field := line.takeWhile (· ≠ 0x3a)
    match line.drop (field.length + 1) with
    | 0x20 :: value => some (field, value)
    | value => some (field, value)
  else none

/-- A line of a field and its value. -/
def processField (d : SseBuffer) (line : List UInt8) :
    Except ProviderError (SseBuffer × List SseRecord) := do
  let (field, value) ← demand .malformedResponse (splitField line)
  if field = bytesOf "event" then
    -- A name of graphic bytes is a text; any other name is refused as malformed either way.
    require (d.event = none ∧ value ≠ [] ∧ value.length ≤ maxSseEventNameBytes ∧
      value.all isGraphicByte) .malformedResponse
    return ({ d with event := some (String.ofList (value.map fun b => Char.ofNat b.toNat)) }, [])
  else if field = bytesOf "data" then
    let data := if d.dataLines > 0 then d.data ++ [0x0a] ++ value else d.data ++ value
    require (data.length ≤ maxSseRecordBytes) .responseLimitExceeded
    return ({ d with data := data, dataLines := d.dataLines + 1 }, [])
  else throw .malformedResponse

def processLine (d : SseBuffer) (line : List UInt8) :
    Except ProviderError (SseBuffer × List SseRecord) :=
  match line with
  | [] =>
    if d.event = none ∧ d.dataLines = 0 then .ok ({ d with recordBytes := 0 }, [])
    else if d.dataLines = 0 then .error .malformedResponse
    else .ok ({ d with recordBytes := 0, dataLines := 0, event := none, data := [] },
      [⟨d.event, d.data⟩])
  | 0x3a :: _ => .ok (d, [])
  | line => processField d line

def withoutReturn (line : List UInt8) : List UInt8 :=
  if line.getLast? = some 0x0d then line.dropLast else line

def pushByte (d : SseBuffer) (byte : UInt8) : Except ProviderError (SseBuffer × List SseRecord) := do
  require (d.recordBytes + 1 ≤ maxSseRecordBytes) .responseLimitExceeded
  let d := { d with recordBytes := d.recordBytes + 1 }
  if byte = 0x0a then processLine { d with line := [] } (withoutReturn d.line)
  else return ({ d with line := d.line ++ [byte] }, [])

/-- A line and its end. -/
def lineStep (d : SseBuffer) (line : List UInt8) :
    Except ProviderError (SseBuffer × List SseRecord) := do
  require (d.recordBytes + line.length + 1 ≤ maxSseRecordBytes) .responseLimitExceeded
  processLine { d with recordBytes := d.recordBytes + line.length + 1 }
    (withoutReturn line)

variable {d e : SseBuffer} {line : List UInt8} {records : List SseRecord}

theorem pushByte_other {byte : UInt8} (hbyte : byte ≠ 0x0a) :
    pushByte d byte = .ok (e, records) ↔ d.recordBytes + 1 ≤ maxSseRecordBytes ∧
      e = { d with line := d.line ++ [byte], recordBytes := d.recordBytes + 1 } ∧ records = [] := by
  simp only [pushByte, if_neg hbyte, bind_ok, require_ok, pure_ok, Prod.mk.injEq,
    exists_const, eq_comm (b := e), eq_comm (b := records)]

theorem pushByte_end : pushByte d 0x0a = .ok (e, records) ↔
    d.recordBytes + 1 ≤ maxSseRecordBytes ∧
      processLine { d with line := [], recordBytes := d.recordBytes + 1 }
        (withoutReturn d.line) = .ok (e, records) := by
  simp only [pushByte, if_true, bind_ok, require_ok, exists_const]

/-- Bytes without a line end extend the line. -/
theorem pushByte_open {bytes : List UInt8} (hbytes : 0x0a ∉ bytes) :
    Chunked.processAll pushByte d bytes = .ok (e, records) ↔
      (bytes ≠ [] → d.recordBytes + bytes.length ≤ maxSseRecordBytes) ∧
        e = { d with line := d.line ++ bytes, recordBytes := d.recordBytes + bytes.length } ∧
        records = [] := by
  induction bytes generalizing d records with
  | nil =>
    simp only [Chunked.processAll, Except.ok.injEq, Prod.mk.injEq, ne_eq, not_true,
      false_implies, true_and, List.append_nil, List.length_nil, Nat.add_zero]
    exact ⟨fun h => ⟨h.1.symm, h.2.symm⟩, fun h => ⟨h.1.symm, h.2.symm⟩⟩
  | cons byte rest ih =>
    obtain ⟨hbyte, hrest⟩ := not_or.mp (mt List.mem_cons.mpr hbytes)
    have hextended : d.line ++ [byte] ++ rest = d.line ++ byte :: rest := by simp
    have hcount : d.recordBytes + 1 + rest.length = d.recordBytes + (byte :: rest).length := by
      rw [List.length_cons, Nat.add_assoc, Nat.add_comm 1]
    rw [Chunked.processAll_cons]
    constructor
    · rintro ⟨_, _, _, hfirst, hlater, rfl⟩
      obtain ⟨hfits, rfl, rfl⟩ := (pushByte_other (Ne.symm hbyte)).mp hfirst
      obtain ⟨hmore, rfl, rfl⟩ := (ih hrest).mp hlater
      refine ⟨fun _ => ?_, ?_, rfl⟩
      · rw [← hcount]
        by_cases hlast : rest = []
        · rw [hlast]
          exact hfits
        · exact hmore hlast
      · simp only [hextended, hcount]
    · rintro ⟨hfits, rfl, rfl⟩
      have hfits := hfits (by simp)
      rw [← hcount] at hfits
      refine ⟨_, [], [], (pushByte_other (Ne.symm hbyte)).mpr ⟨by omega, rfl, rfl⟩,
        (ih hrest).mpr ⟨fun _ => hfits, ?_, rfl⟩, rfl⟩
      simp only [hextended, hcount]

theorem pushByte_lineStep (hempty : d.line = []) (hline : 0x0a ∉ line) :
    Chunked.processAll pushByte d (line ++ [0x0a]) = .ok (e, records) ↔
      lineStep d line = .ok (e, records) := by
  simp only [Chunked.processAll_append, Chunked.processAll_singleton, pushByte_open hline,
    lineStep, bind_ok, require_ok, exists_const]
  constructor
  · rintro ⟨_, _, _, ⟨-, rfl, rfl⟩, hend, rfl⟩
    obtain ⟨hfits, hprocess⟩ := pushByte_end.mp hend
    simp only [hempty, List.nil_append] at hprocess ⊢
    exact ⟨hfits, hprocess⟩
  · rintro ⟨hfits, hprocess⟩
    refine ⟨_, [], records, ⟨fun _ => by omega, rfl, rfl⟩, pushByte_end.mpr ⟨hfits, ?_⟩, rfl⟩
    simp only [hempty, List.nil_append] at hprocess ⊢
    exact hprocess

/-- A line that is processed, in an empty decoder. -/
theorem pushByte_line (hempty : d.line = []) (hline : 0x0a ∉ line)
    (hfits : d.recordBytes + line.length + 1 ≤ maxSseRecordBytes)
    (hprocess : processLine { d with recordBytes := d.recordBytes + line.length + 1 }
      (withoutReturn line) = .ok (e, records)) :
    Chunked.processAll pushByte d (line ++ [0x0a]) = .ok (e, records) := by
  rw [pushByte_lineStep hempty hline, lineStep]
  simp only [bind_ok, require_ok, exists_const]
  exact ⟨hfits, hprocess⟩

/-- A record of one data line. -/
def dataRecord (data : List UInt8) : List UInt8 :=
  bytesOf "data: " ++ data ++ [0x0a] ++ [0x0a]

/-- The data is one line, and the record is within its bound. -/
def OneLine (data : List UInt8) : Prop :=
  0x0a ∉ data ∧ data.getLast? ≠ some 0x0d ∧ data.length + 8 ≤ maxSseRecordBytes

instance (data : List UInt8) : Decidable (OneLine data) := by unfold OneLine; infer_instance

theorem pushByte_dataRecord {data : List UInt8} (h : OneLine data) :
    Chunked.processAll pushByte {} (dataRecord data) = .ok ({}, [⟨none, data⟩]) := by
  obtain ⟨hline, hreturn, hfits⟩ := h
  have hname : bytesOf "data: " = [0x64, 0x61, 0x74, 0x61, 0x3a, 0x20] := by decide +kernel
  have hlength : (bytesOf "data: " ++ data).length = data.length + 6 := by
    rw [List.length_append, hname, Nat.add_comm]
    rfl
  have hkept : withoutReturn (bytesOf "data: " ++ data) = bytesOf "data: " ++ data := by
    rw [withoutReturn, if_neg]
    rw [hname]
    cases data with
    | nil => simp
    | cons byte rest => simpa [List.getLast?_append] using hreturn
  have hsplit : splitField (bytesOf "data: " ++ data) = some (bytesOf "data", data) := by
    have hfield : bytesOf "data" = [0x64, 0x61, 0x74, 0x61] := by decide +kernel
    rw [hname, hfield]
    rfl
  have hsize : data.length ≤ maxSseRecordBytes := by omega
  have hblank : Chunked.processAll pushByte ⟨[], none, data, 1, data.length + 7⟩ ([] ++ [0x0a]) =
      .ok ({}, [⟨none, data⟩]) :=
    pushByte_line rfl (by simp) (by simp only [List.length_nil]; omega) rfl
  refine Chunked.processAll_append.mpr ⟨_, [], [⟨none, data⟩], pushByte_line rfl ?_ ?_ ?_, hblank,
    rfl⟩
  · rw [hname]
    simpa using hline
  · rw [hlength]
    simp only
    omega
  · have hfield : processField ⟨[], none, [], 0, data.length + 7⟩ (bytesOf "data: " ++ data) =
        .ok (⟨[], none, data, 1, data.length + 7⟩, []) := by
      have hother : bytesOf "data" ≠ bytesOf "event" := by decide +kernel
      simp [processField, hsplit, demand, bind, Except.bind, hother, require, hsize, pure,
        Except.pure]
    rw [hkept, hlength, ← hfield, hname]
    simp only [Nat.zero_add]
    rfl

theorem pushByte_dataRecords {lines : List (List UInt8)} (hlines : ∀ data ∈ lines, OneLine data) :
    Chunked.processAll pushByte {} (lines.flatMap dataRecord) = .ok ({}, lines.map (⟨none, ·⟩)) := by
  induction lines with
  | nil => rfl
  | cons data rest ih =>
    rw [List.flatMap_cons, List.map_cons]
    exact Chunked.processAll_append.mpr ⟨{}, [⟨none, data⟩], _,
      pushByte_dataRecord (hlines data (List.mem_cons_self ..)),
      ih fun line hline => hlines line (List.mem_cons_of_mem _ hline), rfl⟩

end SseBuffer

namespace SseDecoder

def push (d : SseDecoder) (chunk : List UInt8) :
    Except ProviderError (SseDecoder × List SseRecord) :=
  if bounded : d.streamBytes + chunk.length ≤ maxProviderStreamBytes then do
    let (buffer, records) ← Chunked.processAll SseBuffer.pushByte d.toSseBuffer chunk
    return (⟨buffer, d.streamBytes + chunk.length, bounded⟩, records)
  else .error .responseLimitExceeded

def finish (d : SseDecoder) : Except ProviderError Unit :=
  require (d.line = [] ∧ d.event = none ∧ d.data = [] ∧ d.dataLines = 0 ∧ d.recordBytes = 0)
    .incompleteResponse

theorem push_ok {d e : SseDecoder} {chunk : List UInt8} {records : List SseRecord} :
    push d chunk = .ok (e, records) ↔
      e.streamBytes = d.streamBytes + chunk.length ∧
        Chunked.processAll SseBuffer.pushByte d.toSseBuffer chunk =
          .ok (e.toSseBuffer, records) := by
  unfold push
  split
  case isTrue hbound =>
    simp only [bind_ok, pure_ok, Prod.exists, Prod.mk.injEq]
    constructor
    · rintro ⟨buffer, _, hbytes, rfl, rfl⟩
      exact ⟨rfl, hbytes⟩
    · rintro ⟨hcount, hbytes⟩
      obtain ⟨buffer, count, hle⟩ := e
      obtain rfl : count = d.streamBytes + chunk.length := hcount
      exact ⟨buffer, records, hbytes, rfl, rfl⟩
  case isFalse hbound =>
    constructor
    · intro h
      cases h
    · rintro ⟨hcount, -⟩
      have := e.bounded
      omega

/-- The bytes of two chunks are the bytes of one. -/
theorem seamless : Chunked.Seamless push where
  nil d := push_ok.mpr ⟨rfl, rfl⟩
  append d a b e records := by
    simp only [push_ok, List.length_append, Chunked.processAll_append]
    constructor
    · rintro ⟨hcount, buffer, first, later, hfirst, hlater, rfl⟩
      have hfits : d.streamBytes + a.length ≤ maxProviderStreamBytes := by
        have := e.bounded
        omega
      exact ⟨⟨buffer, _, hfits⟩, first, later, ⟨rfl, hfirst⟩, ⟨by simp only; omega, hlater⟩, rfl⟩
    · rintro ⟨m, first, later, ⟨hm, hfirst⟩, ⟨he, hlater⟩, rfl⟩
      exact ⟨by omega, m.toSseBuffer, first, later, hfirst, hlater, rfl⟩

theorem push_dataRecords {lines : List (List UInt8)} (hlines : ∀ data ∈ lines, SseBuffer.OneLine data)
    (hfits : (lines.flatMap SseBuffer.dataRecord).length ≤ maxProviderStreamBytes) :
    push {} (lines.flatMap SseBuffer.dataRecord) =
      .ok (⟨{}, (lines.flatMap SseBuffer.dataRecord).length, hfits⟩, lines.map (⟨none, ·⟩)) :=
  push_ok.mpr ⟨by simp, SseBuffer.pushByte_dataRecords hlines⟩

end SseDecoder

/-! ## Streams -/

/-- A decoder of framed records. -/
structure Decoding (τ : Type) where
  start : τ
  process : τ → SseRecord → Except ProviderError (τ × List TextDelta)
  finish : τ → Except ProviderError Outcome

variable {τ : Type}

/-- Push the chunks of a response and finish: the outcome and the events emitted. -/
def Decoding.decode (decoder : Decoding τ) (chunks : List (List UInt8)) :
    Except ProviderError (Outcome × List TextDelta) := do
  let ((sse, state), events) ← Chunked.pushAll SseDecoder.push decoder.process ({}, decoder.start)
    chunks
  sse.finish
  let outcome ← decoder.finish state
  return (outcome, events)

/-- A response is decoded when its records are processed one after the other. -/
theorem Decoding.decode_ok {decoder : Decoding τ} {chunks : List (List UInt8)} {outcome : Outcome}
    {events : List TextDelta} :
    decoder.decode chunks = .ok (outcome, events) ↔
      ∃ sse records state, SseDecoder.push {} chunks.flatten = .ok (sse, records) ∧
        sse.finish = .ok () ∧
        Chunked.processAll decoder.process decoder.start records = .ok (state, events) ∧
        decoder.finish state = .ok outcome := by
  simp only [Decoding.decode, bind_ok, pure_ok, Prod.exists, Prod.mk.injEq,
    Chunked.pushAll_flatten SseDecoder.seamless, Chunked.push_ok]
  constructor
  · rintro ⟨sse, state, _, ⟨records, hframe, hprocess⟩, _, hdone, _, hfinish, rfl, rfl⟩
    exact ⟨sse, records, state, hframe, hdone, hprocess, hfinish⟩
  · rintro ⟨sse, records, state, hframe, hdone, hprocess, hfinish⟩
    exact ⟨sse, state, events, ⟨records, hframe, hprocess⟩, (), hdone, outcome, hfinish, rfl, rfl⟩

/-- A stream of data lines is decoded line by line. -/
theorem Decoding.decode_lines {decoder : Decoding τ} {lines : List (List UInt8)}
    {outcome : Outcome} {events : List TextDelta}
    (hlines : ∀ data ∈ lines, SseBuffer.OneLine data)
    (hfits : (lines.flatMap SseBuffer.dataRecord).length ≤ maxProviderStreamBytes)
    (hdecode : (do
      let (state, events) ← Chunked.processAll decoder.process decoder.start (lines.map (⟨none, ·⟩))
      let outcome ← decoder.finish state
      return (outcome, events)) = .ok (outcome, events)) :
    decoder.decode [lines.flatMap SseBuffer.dataRecord] = .ok (outcome, events) := by
  simp only [bind_ok, pure_ok, Prod.exists, Prod.mk.injEq] at hdecode
  obtain ⟨state, _, hprocess, _, hfinish, rfl, rfl⟩ := hdecode
  obtain ⟨sse, hframe, hdone⟩ : ∃ sse,
      SseDecoder.push {} [lines.flatMap SseBuffer.dataRecord].flatten =
        .ok (sse, lines.map (⟨none, ·⟩)) ∧ sse.finish = .ok () := by
    rw [List.flatten_singleton]
    exact ⟨_, SseDecoder.push_dataRecords hlines hfits, rfl⟩
  exact Decoding.decode_ok.mpr ⟨sse, _, state, hframe, hdone, hprocess, hfinish⟩

end Morons.Provider
