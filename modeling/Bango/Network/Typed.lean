import Bango.Lib.Packed
import Bango.Network.Client
import Bango.Network.Proofs.Types
import Bango.Network.Proofs.Values

set_option autoImplicit false

/-! # Packets from one server to the other

`push<T>` and `pop<T>` of the types that are packed, and a packet that one server has written as the
other one reads it: from its own buffer, with the bytes that came over the link. -/

namespace Bango.Network

open Bango.Lib

variable {α β : Type}

namespace Packet

/-- `push` or `<<`, one value after the other; of each its bytes. -/
def pushes (p : Packet) (values : List (List UInt8)) : Packet := values.foldl push p

/-- The bytes of an argument of a format string. -/
def FormatArg.encoding : FormatArg → List UInt8
  | .b v => encode v
  | .w v => encode v
  | .d v => encode v
  | .I v => encode v
  | .s str => cStr str ++ [0]

end Packet

/-- `pop<T>`. -/
def Pops.get (α : Type) [Packed α] : Pops α := pop (Packed.size α) fun v => done (Packed.decode v)

/-- A packet has been written, and the other server reads something from what comes over the link,
    with nothing left over. -/
def Arrives (written : Except PushFault Packet) (type : UInt8) (reads : Pops α) (a : α) : Prop :=
  ∃ p, written = .ok p ∧ ∀ memory, ∃ q, Packet.ofVector memory (Writable.write p) = .ok q ∧
    q.type = type ∧ ∃ q', reads.run q = .ok (a, q') ∧ q'.Empty

namespace Pops

/-- Reading a value from the bytes in front. -/
theorem runBytes_get_bind [Packed α] (f : α → Pops β) (a : α) (rest : List UInt8) :
    (get α >>= f).runBytes (encode a ++ rest) = (f a).runBytes rest := by
  have hvalue : Packed.decode (encode a) = a := by
    rw [← List.append_nil (encode a), Packed.decode_encode]
  refine (runBytes_pop_append (Packed.length_encode a) _ rest).trans ?_
  show (f (Packed.decode (encode a))).runBytes rest = _
  rw [hvalue]

/-- Reading a string from the bytes in front. -/
theorem runBytes_str_bind (f : List UInt8 → Pops β) {s : List UInt8} (h : 0 ∉ s)
    (rest : List UInt8) : (str >>= f).runBytes (s ++ 0 :: rest) = (f s).runBytes rest := by
  rw [runBytes_bind]
  simp only [str, runBytes, splitStr_eq_some.2 ⟨rfl, h⟩]

end Pops

/-! ## Writing -/

namespace Packet

variable {p : Packet} {type : UInt8} {bytes bytes' : List UInt8}

/-- The packet has a type and carries the bytes behind a header at the start of its buffer. -/
structure Holds (p : Packet) (type : UInt8) (bytes : List UInt8) : Prop where
  carries : p.Carries bytes
  type_eq : p.type = type

namespace Holds

theorem ofType (memory : Memory) (type : UInt8) : (ofType memory type).Holds type [] :=
  ⟨.ofType memory type, (changeType_spec (wellFormed_new memory) type).2.2⟩

theorem append (h : p.Holds type bytes) (hfit : 3 + (bytes ++ bytes').length ≤ maxPacketLength) :
    (p.append bytes').Holds type (bytes ++ bytes') := by
  refine ⟨h.carries.append hfit, (h.carries.wellFormed.consistent.type_append_iff bytes').2 ?_
    |>.trans h.type_eq⟩
  -- The end lies behind the header.
  have hheader := h.carries.wellFormed.header_eq
  have hbegin := h.carries.begin_eq
  have hend := h.carries.end_eq
  intro hle
  omega

theorem push (h : p.Holds type bytes) (hfit : 3 + (bytes ++ bytes').length ≤ maxPacketLength) :
    (p.push bytes').Holds type (bytes ++ bytes') := by
  have hend := h.carries.end_eq
  rw [push_eq_append]
  · exact h.append hfit
  · rw [List.length_append] at hfit
    omega

theorem pushes (h : p.Holds type bytes) (values : List (List UInt8))
    (hfit : 3 + (bytes ++ values.flatten).length ≤ maxPacketLength) :
    (p.pushes values).Holds type (bytes ++ values.flatten) := by
  unfold Packet.pushes
  induction values generalizing p bytes with
  | nil => simpa using h
  | cons value values ih =>
      rw [List.flatten_cons, ← List.append_assoc] at hfit ⊢
      refine ih (h.push ?_) hfit
      rw [List.length_append] at hfit
      omega

theorem pushStr (h : p.Holds type bytes) {str : List UInt8} (hstr : 0 ∉ str)
    (hfit : 3 + (bytes ++ (str ++ [0])).length ≤ maxPacketLength) :
    ∃ p', p.pushStr str = .ok p' ∧ p'.Holds type (bytes ++ (str ++ [0])) := by
  have hcut : cStr str = str := CStr.cStr_bytes ⟨str, hstr⟩
  have hend := h.carries.end_eq
  refine ⟨p.append (str ++ [0]), pushStr_eq_ok.2 ⟨?_, by rw [hcut]⟩, h.append hfit⟩
  rw [hcut]
  simp only [List.length_append, List.length_singleton] at hfit
  omega

theorem merge (h : p.Holds type bytes) {q : Packet} (hq : q.Carries bytes')
    (hfit : 3 + (bytes ++ bytes').length ≤ maxPacketLength) :
    ∃ p', p.merge q = .ok p' ∧ p'.Holds type (bytes ++ bytes') := by
  obtain ⟨hfield, hthree, hmerged⟩ := hq.merged_eq
  have hend := h.carries.end_eq
  refine ⟨p.append bytes', merge_eq_ok.2 ⟨hfield, hthree, ?_, by rw [hmerged]⟩, h.append hfit⟩
  rw [hmerged, hend, Nat.add_assoc, ← List.length_append]
  exact hfit

theorem pushArg (h : p.Holds type bytes) (arg : FormatArg)
    (hfit : 3 + (bytes ++ arg.encoding).length ≤ maxPacketLength) :
    ∃ p', p.pushArg arg = .ok p' ∧ p'.Holds type (bytes ++ arg.encoding) := by
  cases arg with
  | b v =>
      have hbyte : [v] = encode v := by simp [encode, le]
      refine ⟨_, rfl, ?_⟩
      rw [hbyte]
      exact h.push hfit
  | w v | d v | I v => exact ⟨_, rfl, h.push hfit⟩
  | s str =>
      have hcut : cStr (cStr str) = cStr str := CStr.cStr_bytes ⟨cStr str, CStr.not_mem_cStr str⟩
      obtain ⟨p', hp', hholds⟩ := h.pushStr (CStr.not_mem_cStr str) hfit
      refine ⟨p', ?_, hholds⟩
      rw [pushStr_eq_ok, hcut] at hp'
      exact pushStr_eq_ok.2 hp'

/-- A packet made by a format string holds the bytes of the arguments. -/
theorem ofFormat (memory : Memory) (type : UInt8) {args : List FormatArg}
    (hfit : 3 + (args.flatMap FormatArg.encoding).length ≤ maxPacketLength) :
    ∃ p, ofFormat memory type args = .ok p ∧
      p.Holds type (args.flatMap FormatArg.encoding) := by
  suffices hgen : ∀ (args : List FormatArg) (p : Packet) (bytes : List UInt8), p.Holds type bytes →
      3 + (bytes ++ args.flatMap FormatArg.encoding).length ≤ maxPacketLength →
        ∃ p', run Packet.pushArg p args = .ok p' ∧
          p'.Holds type (bytes ++ args.flatMap FormatArg.encoding) from
    hgen args _ [] (.ofType memory type) hfit
  intro args
  induction args with
  | nil =>
      intro p bytes h _
      exact ⟨p, rfl, by simpa using h⟩
  | cons arg args ih =>
      intro p bytes h hfit
      rw [List.flatMap_cons, ← List.append_assoc] at hfit ⊢
      obtain ⟨p', hp', hholds⟩ := h.pushArg arg (by rw [List.length_append] at hfit; omega)
      rw [run_cons_ok args hp']
      exact ih p' _ hholds hfit

/-- The bytes that a packet holds are read on the other side. -/
theorem run_of_write (h : p.Holds type bytes) (memory : Memory) {reads : Pops α} {a : α}
    {rest : List UInt8} (hread : reads.runBytes bytes = .ok (a, rest)) :
    ∃ q q', Packet.ofVector memory (Writable.write p) = .ok q ∧ q.type = type ∧
      reads.run q = .ok (a, q') ∧ q'.WellFormed ∧ q'.unread = rest := by
  obtain ⟨hwire, hdrop, htype⟩ := isWire_bytes h.carries.wellFormed
  obtain ⟨q, hq, hwf, hunread, -, htype'⟩ := ofVector_spec memory hwire
  have hrun := Pops.run_eq_runBytes reads hwf
  rw [hunread, hdrop, h.carries.unread_eq, hread] at hrun
  obtain ⟨q', hq', hwf', hrest⟩ := hrun
  rw [htype', Option.some.injEq] at htype
  exact ⟨q, q', hq, htype.trans h.type_eq, hq', hwf', hrest⟩

/-- What is read from the bytes that a packet holds arrives. -/
theorem arrives (h : p.Holds type bytes) {reads : Pops α} {a : α}
    (hread : reads.runBytes bytes = .ok (a, [])) : Arrives (.ok p) type reads a := by
  refine ⟨p, rfl, fun memory => ?_⟩
  obtain ⟨q, q', hq, htype, hrun, hwf, hempty⟩ := h.run_of_write memory hread
  refine ⟨q, hq, htype, q', hrun, ?_⟩
  have hle := hwf.begin_le
  have hlen := length_unread q'
  rw [hempty, List.length_nil] at hlen
  show q'.beginOffset = q'.endOffset
  omega

/-- Nothing else arrives. -/
theorem eq_of_arrives (h : p.Holds type bytes) {reads : Pops α} {a b : α} {rest : List UInt8}
    (hread : reads.runBytes bytes = .ok (b, rest)) (harrives : Arrives (.ok p) type reads a) :
    a = b := by
  obtain ⟨p', hp', harrives⟩ := harrives
  cases hp'
  obtain ⟨q, q', hq, -, hrun, -⟩ := h.run_of_write (fun _ => 0) hread
  obtain ⟨q₁, hq₁, -, q₂, hrun₁, -⟩ := harrives fun _ => 0
  cases hq.symm.trans hq₁
  cases hrun.symm.trans hrun₁
  rfl

end Holds

end Packet

end Bango.Network
