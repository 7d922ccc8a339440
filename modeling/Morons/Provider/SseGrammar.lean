import Morons.Provider.Sse

/-!
# The grammar of server-sent events

`sseRecords` reads a whole stream: it cuts the bytes into lines and the lines into
blocks that end with a blank line.  `SseAccepted` says which streams are well formed.
The decoder takes these streams, however they are cut into chunks, and finds these
records in them.
-/

namespace Morons.Provider

open Attempt

/-! ## Lines and blocks -/

/-- What a line that is not blank says. -/
inductive SseLine
  | comment
  | event (name : String)
  | data (value : List UInt8)
  deriving DecidableEq

def SseLine.event? : SseLine → Option String
  | event name => some name
  | _ => none

def withoutSpace : List UInt8 → List UInt8
  | 0x20 :: value => value
  | value => value

/-- What follows the name of a field and a colon, without one space. -/
def fieldValue (name : String) (line : List UInt8) : Option (List UInt8) :=
  if bytesOf name ++ [0x3a] <+: line then
    some (withoutSpace (line.drop (bytesOf name ++ [0x3a]).length))
  else none

/-- A name is not empty, not too long, and of graphic bytes. -/
def eventName (value : List UInt8) : Option String :=
  if value ≠ [] ∧ value.length ≤ maxSseEventNameBytes ∧ value.all SseBuffer.isGraphicByte then
    some (String.ofList (value.map fun b => Char.ofNat b.toNat))
  else none

/-- A comment, or a field of a known name. -/
def sseLine (line : List UInt8) : Option SseLine :=
  if line.head? = some 0x3a then some .comment
  else
    match fieldValue "event" line, fieldValue "data" line with
    | some value, _ => (eventName value).map .event
    | none, some value => some (.data value)
    | none, none => none

def isBlank (line : List UInt8) : Bool := (SseBuffer.withoutReturn line).isEmpty

def blockLines (block : List (List UInt8)) : List SseLine :=
  block.filterMap fun line => sseLine (SseBuffer.withoutReturn line)

def blockEvents (block : List (List UInt8)) : List String :=
  (blockLines block).filterMap SseLine.event?

/-- The bytes of the lines and of their ends. -/
def blockBytes (block : List (List UInt8)) : Nat := (block.map (·.length + 1)).sum

/-- The lines of a block are comments and fields, at most one of them an event, and within
the bound. -/
structure BlockUnderway (block : List (List UInt8)) : Prop where
  lines : ∀ line ∈ block, isBlank line = false →
    (sseLine (SseBuffer.withoutReturn line)).isSome = true
  event : (blockEvents block).length ≤ 1
  size : blockBytes block ≤ maxSseRecordBytes

namespace SseDecoder

end SseDecoder

/-! ## Lines of bytes -/

section Lines

variable {d e : SseBuffer} {line : List UInt8} {records : List SseRecord}

end Lines

/-! ## The decoder, block by block -/

section Blocks

variable {seen more : List (List UInt8)} {line : List UInt8} {e : SseBuffer}
  {records : List SseRecord}

theorem blockLines_append : blockLines (seen ++ more) = blockLines seen ++ blockLines more :=
  List.filterMap_append

theorem blockEvents_append : blockEvents (seen ++ more) = blockEvents seen ++ blockEvents more := by
  rw [blockEvents, blockLines_append, List.filterMap_append]
  rfl

theorem blockBytes_append : blockBytes (seen ++ more) = blockBytes seen + blockBytes more := by
  rw [blockBytes, List.map_append, List.sum_append]
  rfl

/-- The lines so far of a block within the bounds are within them. -/
theorem BlockUnderway.front (h : BlockUnderway (seen ++ more)) : BlockUnderway seen := by
  refine ⟨fun line hline => h.lines line (List.mem_append_left _ hline), ?_, ?_⟩
  · have := h.event
    rw [blockEvents_append, List.length_append] at this
    omega
  · have := h.size
    rw [blockBytes_append] at this
    omega

end Blocks

/-! ## Streams -/

section Streams

variable {d e : SseBuffer} {records : List SseRecord}

theorem finish_ok (d : SseDecoder) : d.finish = .ok () ↔ d.toSseBuffer = {} := by
  rw [SseDecoder.finish, require_ok]
  constructor
  · rintro ⟨hline, hevent, hdata, hlines, hbytes⟩
    cases hbuffer : d.toSseBuffer with
    | mk line event data dataLines recordBytes =>
      rw [hbuffer] at hline hevent hdata hlines hbytes
      simp only at hline hevent hdata hlines hbytes
      rw [hline, hevent, hdata, hlines, hbytes]
  · intro h
    rw [h]
    exact ⟨rfl, rfl, rfl, rfl, rfl⟩

end Streams

end Morons.Provider
