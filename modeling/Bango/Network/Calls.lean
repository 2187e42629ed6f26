import Bango.Network.Proofs.Made

set_option autoImplicit false

/-! # Calls on a packet

`push`, `push_str`, `merge`, `pop` and `pop_str` statement by statement, on the packet they are called
on: what a call that throws leaves behind is the packet as the statements before the `throw` made it.
`Packet.Handled` says which packets a program has that only takes over vectors with at least a header,
catches what is thrown, and finds anything at all behind `m_end`. -/

namespace Bango.Network

open Bango.Lib

/-- A call on a packet, which it may change before it returns or throws. -/
abbrev PacketCall (α : Type) : Type := ExceptT PushFault (StateM Packet) α

namespace PacketCall

variable {α : Type}

/-- What the call comes to, with the packet it leaves behind. -/
def on (call : PacketCall α) (p : Packet) : Except PushFault α × Packet := (ExceptT.run call).run p

/-- `memcpy` to `m_end`, `m_end +=` and `reset_size`. -/
def appendBytes (bytes : List UInt8) : PacketCall Unit := do
  modify fun p => { p with buffer := p.buffer.writeBytes p.endOffset bytes }
  modify fun p => { p with endOffset := p.endOffset + bytes.length }
  modify Packet.resetSize

/-- `m_begin +=` and `reset_size`. -/
def advance (n : Nat) : PacketCall Unit := do
  modify fun p => { p with beginOffset := p.beginOffset + n }
  modify Packet.resetSize

/-- `push`. -/
def push (value : List UInt8) : PacketCall Unit := do
  let p ← get
  if p.endOffset + value.length > maxPacketLength then return
  else appendBytes value

/-- `push_str`. -/
def pushStr (str : List UInt8) : PacketCall Unit := do
  let p ← get
  if p.endOffset + ((Packet.cStr str).length + 1) > maxPacketLength then throw .packetOverflow
  else appendBytes (Packet.cStr str ++ [0])

/-- `merge`, with the assertion in the other packet's `size`. -/
def merge (q : Packet) : PacketCall Unit := do
  let p ← get
  match q.size with
  | .error f => throw (.packet f)
  | .ok size =>
    if (p.endOffset : Int) + size - 3 > maxPacketLength then throw .packetOverflow
    else if size < 3 then throw (.packet .overflow)
    else appendBytes (q.buffer.readBytes q.beginOffset (size - 3))

/-- `pop` of a type of `n` bytes. -/
def pop (n : Nat) : PacketCall (List UInt8) := do
  let p ← get
  if p.Short n then return List.replicate n 0
  else
    advance n
    return p.buffer.readBytes p.beginOffset n

/-- `pop_str`. -/
def popStr : PacketCall (List UInt8) := do
  let p ← get
  match Packet.strlen p.buffer (maxPacketLength - p.beginOffset) p.beginOffset with
  | none => throw (.packet .noMoreData)
  | some n =>
    if p.Short (n + 1) then throw (.packet .noMoreData)
    else
      advance (n + 1)
      return p.buffer.readBytes p.beginOffset n

/-! ## The calls and the functions -/

variable {p : Packet}

theorem on_get (f : Packet → PacketCall α) (p : Packet) :
    (get >>= f : PacketCall α).on p = (f p).on p := rfl

theorem on_appendBytes (bytes : List UInt8) (p : Packet) :
    (appendBytes bytes).on p = (.ok (), p.append bytes) := rfl

theorem on_push (value : List UInt8) (p : Packet) :
    (push value).on p = (.ok (), p.push value) := by
  rw [push, on_get]
  by_cases hfull : p.endOffset + value.length > maxPacketLength
  · rw [Packet.push, if_pos hfull, if_pos hfull]
    rfl
  · rw [Packet.push, if_neg hfull, if_neg hfull, on_appendBytes]
    rfl

/-- The outcome of a function that gives the new packet, or throws and gives none. -/
def outcome (p : Packet) : Except PushFault (α × Packet) → Except PushFault α × Packet
  | .ok (a, p') => (.ok a, p')
  | .error f => (.error f, p)

theorem on_pushStr (str : List UInt8) (p : Packet) :
    (pushStr str).on p = outcome p ((p.pushStr str).map ((), ·)) := by
  rw [pushStr, on_get, Packet.pushStr]
  split_ifs
  · rfl
  · rfl

theorem on_merge (q p : Packet) : (merge q).on p = outcome p ((p.merge q).map ((), ·)) := by
  rw [merge, on_get, Packet.merge]
  cases q.size with
  | error f => rfl
  | ok size =>
      dsimp only
      split_ifs
      · rfl
      · rfl
      · rfl

theorem on_pop (n : Nat) (p : Packet) : (pop n).on p = (.ok (p.pop n).1, (p.pop n).2) := by
  rw [pop, on_get, Packet.pop]
  split_ifs
  · rfl
  · rfl

theorem on_popStr (p : Packet) :
    popStr.on p = outcome p (p.popStr.mapError .packet) := by
  rw [popStr, on_get, Packet.popStr]
  cases Packet.strlen p.buffer (maxPacketLength - p.beginOffset) p.beginOffset with
  | none => rfl
  | some n =>
      dsimp only
      split_ifs
      · rfl
      · rfl

end PacketCall

namespace Packet

/-- The packets that the constructors make, those of a vector that states a length of at least a
    header, and what any calls leave of them. A call may throw; what lies behind `m_end` may be
    anything at any time. -/
inductive Handled : Packet → Prop where
  | new (memory : Memory) : Handled (new memory)
  | ofType (memory : Memory) (type : UInt8) : Handled (ofType memory type)
  | ofFormat {memory : Memory} {type : UInt8} {args : List FormatArg} {p : Packet}
      (h : ofFormat memory type args = .ok p) : Handled p
  | ofVector {memory : Memory} {buffer : List UInt8} {p : Packet}
      (h : ofVector memory buffer = .ok p) (hfield : 3 ≤ p.lengthField) : Handled p
  | changeType {p : Packet} (h : Handled p) (type : UInt8) : Handled (p.changeType type)
  | push {p : Packet} (h : Handled p) (value : List UInt8) : Handled ((PacketCall.push value).on p).2
  | pushStr {p : Packet} (h : Handled p) (str : List UInt8) : Handled ((PacketCall.pushStr str).on p).2
  | merge {p q : Packet} (h : Handled p) (hq : Handled q) : Handled ((PacketCall.merge q).on p).2
  | pop {p : Packet} (h : Handled p) (n : Nat) : Handled ((PacketCall.pop n).on p).2
  | popStr {p : Packet} (h : Handled p) : Handled (PacketCall.popStr.on p).2
  | behindEnd {p : Packet} (h : Handled p) (buffer : Memory)
      (hbuffer : ∀ i, i < p.endOffset → buffer i = p.buffer i) :
      Handled { p with buffer := buffer }

end Packet

end Bango.Network
