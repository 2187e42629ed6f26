import Bango.Network.Packet
import Bango.Lib.Framing

set_option autoImplicit false

/-! # Receiving packets on the server

`server::on_new_message`. The loop condition peeks at the 16-bit length at the start of the local
buffer before it knows that two bytes are there; what lies behind the buffer's end is part of the
input (`Read.past`). The callbacks that `execute` runs are taken to return. -/

namespace Bango.Network

open Bango.Lib

/-- One successful read and the memory the call finds. -/
structure Read where
  /-- `res.buffer` -/
  bytes : List UInt8
  /-- the two bytes behind the end of the local buffer, each time the loop condition is evaluated -/
  past : Nat → UInt8 × UInt8
  /-- the uninitialised buffer of each packet -/
  memory : Nat → Memory

inductive ServerFault where
  | packet (fault : PacketFault)
  /-- the loop has not ended within the given number of rounds -/
  | diverges
deriving DecidableEq, Repr

/-- What a call does: the vectors it hands to the constructor of `packet`, and either how it fails or
    the `m_remaining_buffer` it leaves. -/
structure Call where
  handed : List (List UInt8)
  outcome : Except ServerFault (List UInt8)

/-- `((unsigned short*)buffer.data())[0]`. -/
def peek (buffer : List UInt8) (past : UInt8 × UInt8) : Nat :=
  ofLe ((buffer ++ [past.1, past.2]).take 2)

/-- The loop of `on_new_message`, for at most the given number of rounds; `i` have been done. -/
def drain (r : Read) : Nat → Nat → List UInt8 → Call
  | 0, _, _ => ⟨[], .error .diverges⟩
  | rounds + 1, i, buffer =>
    let size := peek buffer (r.past i)
    if size ≤ buffer.length then
      match Packet.ofVector (r.memory i) (buffer.take size) with
      | .error f => ⟨[buffer.take size], .error (.packet f)⟩
      | .ok _ =>
        let next := drain r rounds (i + 1) (buffer.drop size)
        ⟨buffer.take size :: next.handed, next.outcome⟩
    else ⟨[], .ok buffer⟩

/-- `on_new_message` with `res.success`, for the `m_remaining_buffer` of the session. -/
def onNewMessage (remaining : List UInt8) (r : Read) : Call :=
  drain r ((remaining ++ r.bytes).length + 1) 0 (remaining ++ r.bytes)

/-- The calls for the reads of one session, one after the other. -/
def serve : List UInt8 → List Read → Call
  | remaining, [] => ⟨[], .ok remaining⟩
  | remaining, r :: rs =>
    let call := onNewMessage remaining r
    match call.outcome with
    | .error f => ⟨call.handed, .error f⟩
    | .ok remaining => ⟨call.handed ++ (serve remaining rs).handed, (serve remaining rs).outcome⟩

/-- All calls return, and every vector they hand over is a packet as it is on the wire. -/
structure Call.Safe (c : Call) : Prop where
  returns : ∃ remaining, c.outcome = .ok remaining
  isWire : ∀ v ∈ c.handed, Packet.IsWire v

/-- Packets on the wire as frames: the length in the header tells them apart. -/
def packetFraming : Framing UInt8 where
  IsFrame := Packet.IsWire
  ne_nil := by
    intro f hf hnil
    have := hf.header_le
    rw [hnil] at this
    exact absurd this (by decide)
  eq_of_isPrefix := by
    intro f g hf hg hfg
    obtain ⟨t, rfl⟩ := hfg
    have hlen := hf.header_le
    have htake : (f ++ t).take 2 = f.take 2 := List.take_append_of_le_length (by omega)
    have heq := hg.field_eq
    rw [htake, hf.field_eq, List.length_append] at heq
    have ht : t = [] := List.eq_nil_of_length_eq_zero (by omega)
    rw [ht, List.append_nil]

end Bango.Network
