import Mathlib.Data.List.TakeWhile
import Bango.Lib.Runs
import Bango.Network.Pops

set_option autoImplicit false

/-! # Building a packet

The other constructors of `packet`, `push_str` and `merge`. `Packet.Made` says which packets there are
at all: those that the constructors and the operations make. A packet made of a vector of one or two
bytes has its `m_begin` behind its `m_end`. -/

namespace Bango.Network

open Bango.Lib

/-- How `push_str` and `merge` can fail. -/
inductive PushFault where
  /-- `throw std::runtime_error("packet overflow")` -/
  | packetOverflow
  /-- the assertion in the `size` of the packet that is merged, or a `memcpy` of less than no bytes -/
  | packet (fault : PacketFault)
deriving DecidableEq, Repr

namespace Packet

/-- `packet(unsigned char type)`. -/
def ofType (memory : Memory) (type : UInt8) : Packet := (new memory).changeType type

/-- `empty`. -/
def Empty (p : Packet) : Prop := p.beginOffset = p.endOffset

instance (p : Packet) : Decidable p.Empty := inferInstanceAs (Decidable (_ = _))

/-- Copying bytes behind the end. -/
def append (p : Packet) (bytes : List UInt8) : Packet :=
  resetSize { p with
    buffer := p.buffer.writeBytes p.endOffset bytes
    endOffset := p.endOffset + bytes.length }

/-- A `char*` as the functions of the C library see it: up to its first NUL. -/
def cStr (str : List UInt8) : List UInt8 := str.takeWhile (· ≠ 0)

/-- `push_str`. -/
def pushStr (p : Packet) (str : List UInt8) : Except PushFault Packet :=
  if p.endOffset + ((cStr str).length + 1) > maxPacketLength then .error .packetOverflow
  else .ok (p.append (cStr str ++ [0]))

/-- `merge`. -/
def merge (p q : Packet) : Except PushFault Packet :=
  match q.size with
  | .error f => .error (.packet f)
  | .ok size =>
    if (p.endOffset : Int) + size - 3 > maxPacketLength then .error .packetOverflow
    else if size < 3 then .error (.packet .overflow)
    else .ok (p.append (q.buffer.readBytes q.beginOffset (size - 3)))

/-- A character of a format string, with its argument. -/
inductive FormatArg where
  | b (v : UInt8)
  | w (v : UInt16)
  | d (v : UInt32)
  | I (v : UInt64)
  | s (str : List UInt8)

/-- One round of the loop over a format string. -/
def pushArg (p : Packet) : FormatArg → Except PushFault Packet
  | .b v => .ok (p.push [v])
  | .w v => .ok (p.push (le 2 v.toNat))
  | .d v => .ok (p.push (le 4 v.toNat))
  | .I v => .ok (p.push (le 8 v.toNat))
  | .s str => p.pushStr str

/-- `packet(unsigned char type, const char* format, ...)`. -/
def ofFormat (memory : Memory) (type : UInt8) (args : List FormatArg) : Except PushFault Packet :=
  run pushArg (ofType memory type) args

/-- The packets that the constructors and the operations make. -/
inductive Made : Packet → Prop where
  | new (memory : Memory) : Made (new memory)
  | ofVector {memory : Memory} {buffer : List UInt8} {p : Packet}
      (h : ofVector memory buffer = .ok p) : Made p
  | changeType {p : Packet} (h : Made p) (type : UInt8) : Made (p.changeType type)
  | push {p : Packet} (h : Made p) (value : List UInt8) : Made (p.push value)
  | pushStr {p p' : Packet} (h : Made p) {str : List UInt8} (hp : p.pushStr str = .ok p') : Made p'
  | merge {p q p' : Packet} (h : Made p) (hq : Made q) (hp : p.merge q = .ok p') : Made p'
  | pop {p : Packet} (h : Made p) (n : Nat) : Made (p.pop n).2
  | popStr {p p' : Packet} (h : Made p) {str : List UInt8} (hp : p.popStr = .ok (str, p')) : Made p'

theorem push_eq_append {p : Packet} {value : List UInt8}
    (h : p.endOffset + value.length ≤ maxPacketLength) : p.push value = p.append value :=
  if_neg (Nat.not_lt.2 h)

theorem made_ofType (memory : Memory) (type : UInt8) : Made (ofType memory type) :=
  (Made.new memory).changeType type

end Packet

/-! ## Values -/

/-- A string without a NUL. -/
structure CStr where
  bytes : List UInt8
  nulFree : 0 ∉ bytes
deriving DecidableEq

theorem CStr.not_mem_cStr (str : List UInt8) : 0 ∉ Packet.cStr str := by
  intro h
  have := List.mem_takeWhile_imp h
  simp at this

@[simp]
theorem CStr.cStr_bytes (s : CStr) : Packet.cStr s.bytes = s.bytes := by
  refine List.takeWhile_eq_self_iff.2 fun b hb => ?_
  rw [decide_eq_true_eq]
  exact fun hzero => s.nulFree (hzero ▸ hb)

/-- The types of the values a packet carries. -/
inductive Kind where
  | u8 | u16 | u32 | u64
  /-- a struct of the given size -/
  | struct (size : Nat)
  | str
deriving DecidableEq

/-- A value of one of these types. -/
inductive Value where
  | u8 (v : UInt8)
  | u16 (v : UInt16)
  | u32 (v : UInt32)
  | u64 (v : UInt64)
  | struct (bytes : List UInt8)
  | str (s : CStr)
deriving DecidableEq

namespace Value

def kind : Value → Kind
  | u8 _ => .u8
  | u16 _ => .u16
  | u32 _ => .u32
  | u64 _ => .u64
  | struct bytes => .struct bytes.length
  | str _ => .str

/-- The bytes that a value takes in a packet. -/
def encoding : Value → List UInt8
  | u8 v => le 1 v.toNat
  | u16 v => le 2 v.toNat
  | u32 v => le 4 v.toNat
  | u64 v => le 8 v.toNat
  | struct bytes => bytes
  | str s => s.bytes ++ [0]

end Value

/-- `push<T>` and `push_str`. -/
def Packet.pushValue (p : Packet) : Value → Except PushFault Packet
  | .str s => p.pushStr s.bytes
  | v => .ok (p.push v.encoding)

/-- `pop<T>` and `pop_str`. -/
def Pops.value : Kind → Pops Value
  | .u8 => pop 1 fun v => done (.u8 (UInt8.ofNat (ofLe v)))
  | .u16 => pop 2 fun v => done (.u16 (UInt16.ofNat (ofLe v)))
  | .u32 => pop 4 fun v => done (.u32 (UInt32.ofNat (ofLe v)))
  | .u64 => pop 8 fun v => done (.u64 (UInt64.ofNat (ofLe v)))
  | .struct size => pop size fun v => done (.struct v)
  | .str => popStr fun v => done (.str ⟨Packet.cStr v, CStr.not_mem_cStr v⟩)

/-- One value of each type, one after the other. -/
def Pops.values : List Kind → Pops (List Value)
  | [] => done []
  | kind :: kinds => do
    let v ← value kind
    let vs ← values kinds
    return v :: vs

/-- A packet in the making: values are pushed to it, and other packets in the making merged. -/
inductive Assembly where
  | new (memory : Memory) (type : UInt8)
  | push (a : Assembly) (v : Value)
  | merge (a b : Assembly)

namespace Assembly

/-- The values, in the order in which they have got into the packet. -/
def values : Assembly → List Value
  | new _ _ => []
  | push a v => a.values ++ [v]
  | merge a b => a.values ++ b.values

/-- Each packet on the way to it. -/
def parts : Assembly → List Assembly
  | new memory type => [new memory type]
  | push a v => push a v :: a.parts
  | merge a b => merge a b :: (a.parts ++ b.parts)

/-- The bytes of the values. -/
def encoding (a : Assembly) : List UInt8 := a.values.flatMap Value.encoding

/-- The packet made of them. -/
def packet : Assembly → Except PushFault Packet
  | new memory type => .ok (Packet.ofType memory type)
  | push a v =>
    match a.packet with
    | .error f => .error f
    | .ok p => p.pushValue v
  | merge a b =>
    match a.packet, b.packet with
    | .ok p, .ok q => p.merge q
    | .error f, _ | .ok _, .error f => .error f

end Assembly

end Bango.Network
