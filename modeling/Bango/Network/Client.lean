import Bango.Network.Pushes
import Bango.Network.Server

set_option autoImplicit false

/-! # Receiving packets on the client

`client::on_new_message`, which the game server runs on what the DB server writes. It looks at the
length in the header only when a whole header is there. The calls run one after the other, and the
callbacks that `execute` runs are taken to return. -/

namespace Bango.Network

open Bango.Lib

/-- `writable::write`: the bytes that are handed to the socket. -/
def Writable.write (p : Packet) : List UInt8 := p.bytes

/-- One successful read, and the uninitialised buffer of each packet the call makes. -/
structure ClientRead where
  /-- `res.buffer` -/
  bytes : List UInt8
  memory : Nat → Memory

/-- What a call does: the packets it executes, and either how it fails or the `remaining_buffer` it
    leaves. -/
structure ClientCall where
  executed : List Packet
  outcome : Except ServerFault (List UInt8)

namespace Client

/-- The loop of `on_new_message`, for at most the given number of rounds; `i` have been done. -/
def drain (r : ClientRead) : Nat → Nat → List UInt8 → ClientCall
  | 0, _, _ => ⟨[], .error .diverges⟩
  | rounds + 1, i, remaining =>
    if remaining.length < 3 then ⟨[], .ok remaining⟩
    else
      let packetSize := ofLe (remaining.take 2)
      if packetSize > remaining.length then ⟨[], .ok remaining⟩
      else if packetSize < 3 then ⟨[], .ok []⟩
      else
        match Packet.ofVector (r.memory i) (remaining.take packetSize) with
        | .error f => ⟨[], .error (.packet f)⟩
        | .ok p =>
          if (remaining.drop packetSize).length = 0 then ⟨[p], .ok (remaining.drop packetSize)⟩
          else
            let next := drain r rounds (i + 1) (remaining.drop packetSize)
            ⟨p :: next.executed, next.outcome⟩

/-- `on_new_message` with `res.success`. -/
def onNewMessage (remaining : List UInt8) (r : ClientRead) : ClientCall :=
  drain r ((remaining ++ r.bytes).length + 1) 0 (remaining ++ r.bytes)

/-- The calls for some reads, one after the other. -/
def receive : List UInt8 → List ClientRead → ClientCall
  | remaining, [] => ⟨[], .ok remaining⟩
  | remaining, r :: rs =>
    let call := onNewMessage remaining r
    match call.outcome with
    | .error f => ⟨call.executed, .error f⟩
    | .ok remaining =>
      ⟨call.executed ++ (receive remaining rs).executed, (receive remaining rs).outcome⟩

end Client

/-- What a callback gets to see of a packet. -/
def Packet.carried (p : Packet) : UInt8 × List UInt8 := (p.type, p.unread)

/-- What has been executed, as the callbacks see it, and the outcome. -/
def ClientCall.observed (c : ClientCall) :
    List (UInt8 × List UInt8) × Except ServerFault (List UInt8) :=
  (c.executed.map Packet.carried, c.outcome)

/-- The bytes of some reads. -/
def Client.received (reads : List ClientRead) : List UInt8 := reads.flatMap ClientRead.bytes

/-- The stream that some packets are written to. -/
def Writable.stream (ps : List Packet) : List UInt8 := ps.flatMap Writable.write

end Bango.Network
