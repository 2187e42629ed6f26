import Bango.Lib.Bytes

set_option autoImplicit false

/-! # Packets

`bango::network::packet`: a fixed buffer with three offsets into it. The three header bytes before
`m_begin` are rewritten by every `push` and `pop`, over bytes that were popped before. The buffer is
not initialised by the constructors; what it holds is the parameter `memory`. Values are the bytes
`memcpy` copies. -/

namespace Bango.Network

open Bango.Lib

/-- `MAX_PACKET_LENGTH`. -/
def maxPacketLength : Nat := 32768

/-- How the operations of a packet can fail: an `assert`, the thrown exception, or a `memcpy` past the
    end of the buffer. -/
inductive PacketFault where
  | assertion
  /-- `throw std::runtime_error("packet no more data")` -/
  | noMoreData
  | overflow
deriving DecidableEq, Repr

/-- `packet`; the offsets are those of `m_header`, `m_begin` and `m_end` in `m_buffer`. -/
structure Packet where
  buffer : Memory
  header : Nat
  beginOffset : Nat
  endOffset : Nat

namespace Packet

/-- `packet()`. -/
def new (memory : Memory) : Packet where
  buffer := memory.writeBytes 0 [3, 0, 0]
  header := 0
  beginOffset := 3
  endOffset := 3

/-- `((unsigned short*)m_header)[0]`. -/
def lengthField (p : Packet) : Nat := ofLe (p.buffer.readBytes p.header 2)

/-- `size`, with its assertion. -/
def size (p : Packet) : Except PacketFault Nat :=
  if p.header + p.lengthField = p.endOffset then .ok p.lengthField else .error .assertion

/-- `packet()` with a vector copied over the start of its buffer. -/
def copyOf (memory : Memory) (buffer : List UInt8) : Packet :=
  { new memory with
    buffer := (new memory).buffer.writeBytes 0 buffer
    endOffset := buffer.length }

/-- `packet(const std::vector<char>&)`. -/
def ofVector (memory : Memory) (buffer : List UInt8) : Except PacketFault Packet :=
  if buffer.length > maxPacketLength then .error .overflow
  else
    match (copyOf memory buffer).size with
    | .error f => .error f
    | .ok n => if n = buffer.length then .ok (copyOf memory buffer) else .error .assertion

/-- `type`. -/
def type (p : Packet) : UInt8 := p.buffer (p.header + 2)

/-- `buffer()`: the bytes that are written to the socket. -/
def bytes (p : Packet) : List UInt8 := p.buffer.readBytes p.header (p.endOffset - p.header)

/-- `change_type`. -/
def changeType (p : Packet) (type : UInt8) : Packet :=
  { p with buffer := p.buffer.writeBytes (p.header + 2) [type] }

/-- The 16-bit length `reset_size` computes. -/
def newLength (p : Packet) : Nat :=
  (((p.endOffset : Int) - p.beginOffset + 3) % 65536).toNat

/-- `reset_size`. The type byte is copied last, from where the old header was. -/
def resetSize (p : Packet) : Packet :=
  let withLength := p.buffer.writeBytes (p.beginOffset - 3) (le 2 p.newLength)
  { p with
    buffer := withLength.writeBytes (p.beginOffset - 1) [withLength (p.header + 2)]
    header := p.beginOffset - 3 }

/-- `push`: a value that does not fit is dropped silently. -/
def push (p : Packet) (value : List UInt8) : Packet :=
  if p.endOffset + value.length > maxPacketLength then p
  else
    resetSize { p with
      buffer := p.buffer.writeBytes p.endOffset value
      endOffset := p.endOffset + value.length }

/-- Are fewer than `n` bytes unread? The difference of the two pointers is compared as an unsigned
    number, so not when `m_begin` has passed `m_end`. -/
def Short (p : Packet) (n : Nat) : Prop :=
  p.beginOffset ≤ p.endOffset ∧ p.endOffset - p.beginOffset < n

instance (p : Packet) (n : Nat) : Decidable (p.Short n) := inferInstanceAs (Decidable (_ ∧ _))

/-- `pop` of a type of `n` bytes: `T()` when there are not enough of them. -/
def pop (p : Packet) (n : Nat) : List UInt8 × Packet :=
  if p.Short n then (List.replicate n 0, p)
  else
    (p.buffer.readBytes p.beginOffset n, resetSize { p with beginOffset := p.beginOffset + n })

/-- `strlen` from an offset, within the next `n` bytes. -/
def strlen (m : Memory) : Nat → Nat → Option Nat
  | 0, _ => none
  | n + 1, i => if m i = 0 then some 0 else (strlen m n (i + 1)).map (· + 1)

/-- `pop_str`. A string that no byte of the buffer ends is longer than what is unread. -/
def popStr (p : Packet) : Except PacketFault (List UInt8 × Packet) :=
  match strlen p.buffer (maxPacketLength - p.beginOffset) p.beginOffset with
  | none => .error .noMoreData
  | some n =>
    if p.Short (n + 1) then .error .noMoreData
    else
      .ok (p.buffer.readBytes p.beginOffset n,
        resetSize { p with beginOffset := p.beginOffset + (n + 1) })

/-! ## What a packet carries -/

/-- The bytes between `m_begin` and `m_end`. -/
def unread (p : Packet) : List UInt8 :=
  p.buffer.readBytes p.beginOffset (p.endOffset - p.beginOffset)

/-- The header lies before the unread bytes and states their number. -/
structure WellFormed (p : Packet) : Prop where
  header_eq : p.header + 3 = p.beginOffset
  begin_le : p.beginOffset ≤ p.endOffset
  end_le : p.endOffset ≤ maxPacketLength
  field_eq : p.header + p.lengthField = p.endOffset

/-- A packet as it is on the wire: at least a header, at most a buffer, and its own length first. -/
structure IsWire (v : List UInt8) : Prop where
  header_le : 3 ≤ v.length
  le_max : v.length ≤ maxPacketLength
  field_eq : ofLe (v.take 2) = v.length

instance (v : List UInt8) : Decidable (IsWire v) :=
  decidable_of_iff (3 ≤ v.length ∧ v.length ≤ maxPacketLength ∧ ofLe (v.take 2) = v.length)
    ⟨fun h => ⟨h.1, h.2.1, h.2.2⟩, fun h => ⟨h.header_le, h.le_max, h.field_eq⟩⟩

end Packet

end Bango.Network
