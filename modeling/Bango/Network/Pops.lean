import Bango.Network.Proofs.Packet

set_option autoImplicit false

/-! # Reading a packet

A handler reads a packet by a sequence of `pop`s and `pop_str`s, each of which may depend on the values
before it. `Pops α` is such a sequence, `Pops.run` carries it out on a packet and `Pops.runBytes` on a
string of bytes, and on a well-formed packet both agree (`run_eq_runBytes`). -/

namespace Bango.Network

open Bango.Lib

/-- A sequence of reads with a result of type `α`. -/
inductive Pops (α : Type) : Type where
  | done (a : α)
  | pop (n : Nat) (next : List UInt8 → Pops α)
  | popStr (next : List UInt8 → Pops α)

namespace Pops

variable {α β : Type}

def bind : Pops α → (α → Pops β) → Pops β
  | done a, f => f a
  | pop n next, f => pop n fun v => (next v).bind f
  | popStr next, f => popStr fun v => (next v).bind f

instance : Monad Pops where
  pure := done
  bind := bind

/-- `pop<unsigned char>` -/
def popU8 : Pops UInt8 := pop 1 fun v => done (UInt8.ofNat (ofLe v))

/-- `pop<unsigned short>` -/
def popU16 : Pops UInt16 := pop 2 fun v => done (UInt16.ofNat (ofLe v))

/-- `pop<unsigned int>` -/
def popU32 : Pops UInt32 := pop 4 fun v => done (UInt32.ofNat (ofLe v))

/-- `pop<int>` -/
def popI32 : Pops Int32 := pop 4 fun v => done (UInt32.ofNat (ofLe v)).toInt32

/-- `pop_str` -/
def str : Pops (List UInt8) := popStr done

/-- The reads carried out on a packet. -/
def run : Pops α → Packet → Except PacketFault (α × Packet)
  | done a, p => .ok (a, p)
  | pop n next, p => (next (p.pop n).1).run (p.pop n).2
  | popStr next, p =>
    match p.popStr with
    | .ok (v, p) => (next v).run p
    | .error f => .error f

/-- A string of bytes up to its first NUL, and what follows it. -/
def splitStr : List UInt8 → Option (List UInt8 × List UInt8)
  | [] => none
  | b :: bs => if b = 0 then some ([], bs) else (splitStr bs).map fun r => (b :: r.1, r.2)

/-- The reads carried out on the unread bytes. -/
def runBytes : Pops α → List UInt8 → Except PacketFault (α × List UInt8)
  | done a, u => .ok (a, u)
  | pop n next, u =>
    if u.length < n then (next (List.replicate n 0)).runBytes u
    else (next (u.take n)).runBytes (u.drop n)
  | popStr next, u =>
    match splitStr u with
    | some (v, u) => (next v).runBytes u
    | none => .error .noMoreData

/-! ## Strings -/

theorem splitStr_eq_none {u : List UInt8} : splitStr u = none ↔ 0 ∉ u := by
  induction u with
  | nil => simp [splitStr]
  | cons b bs ih =>
      rw [splitStr, List.mem_cons, not_or]
      by_cases hb : b = 0
      · simp [hb]
      · rw [if_neg hb, Option.map_eq_none_iff, ih]
        simp [Ne.symm hb]

theorem splitStr_eq_some {u v r : List UInt8} :
    splitStr u = some (v, r) ↔ u = v ++ 0 :: r ∧ 0 ∉ v := by
  induction u generalizing v with
  | nil => simp [splitStr]
  | cons b bs ih =>
      rw [splitStr]
      by_cases hb : b = 0
      · rw [if_pos hb, hb]
        cases v with
        | nil => simp [eq_comm]
        | cons c cs =>
            constructor
            · intro h
              cases h
            · intro h
              rw [List.cons_append, List.cons.injEq] at h
              exact absurd (h.1.1 ▸ List.mem_cons_self) h.2
      · rw [if_neg hb, Option.map_eq_some_iff]
        constructor
        · intro h
          obtain ⟨w, hw, heq⟩ := h
          obtain ⟨hbs, hw0⟩ := (ih (v := w.1)).1 (by rw [hw, ← (Prod.mk.inj heq).2])
          obtain ⟨rfl, rfl⟩ := Prod.mk.inj heq
          refine ⟨by rw [hbs, List.cons_append], ?_⟩
          rw [List.mem_cons, not_or]
          exact ⟨Ne.symm hb, hw0⟩
        · intro h
          obtain ⟨heq, hv⟩ := h
          cases v with
          | nil => exact absurd (List.cons.inj heq).1 hb
          | cons c cs =>
              rw [List.cons_append, List.cons.injEq] at heq
              refine ⟨(cs, r), ih.2 ⟨heq.2, fun hmem => hv (List.mem_cons_of_mem c hmem)⟩, ?_⟩
              rw [heq.1]

/-- A string in a string of bytes is the same whatever follows. -/
theorem splitStr_append {u v r : List UInt8} (h : splitStr u = some (v, r)) (t : List UInt8) :
    splitStr (u ++ t) = some (v, r ++ t) := by
  obtain ⟨rfl, hv⟩ := splitStr_eq_some.1 h
  rw [splitStr_eq_some, List.append_assoc, List.cons_append]
  exact ⟨rfl, hv⟩

/-- A string that does not end in `u` goes on in what follows. -/
theorem splitStr_append_of_none {u t v r : List UInt8} (hu : splitStr u = none)
    (h : splitStr (u ++ t) = some (v, r)) : ∃ w, v = u ++ w ∧ t = w ++ 0 :: r := by
  have hzero := splitStr_eq_none.1 hu
  obtain ⟨heq, -⟩ := splitStr_eq_some.1 h
  rcases List.append_eq_append_iff.1 heq with ⟨w, hv, ht⟩ | ⟨w, hu', ht⟩
  · exact ⟨w, hv, ht⟩
  · cases w with
    | nil =>
        rw [List.append_nil] at hu'
        exact ⟨[], by rw [hu', List.append_nil], ht.symm⟩
    | cons b bs =>
        obtain ⟨rfl, -⟩ := List.cons.inj ht
        exact absurd (hu' ▸ List.mem_append_right v List.mem_cons_self) hzero

/-! ## Packets and strings of bytes -/

/-- Reading a well-formed packet is reading its unread bytes. -/
theorem run_eq_runBytes (x : Pops α) {p : Packet} (h : p.WellFormed) :
    match x.runBytes p.unread with
    | .ok (a, u) => ∃ p', x.run p = .ok (a, p') ∧ p'.WellFormed ∧ p'.unread = u
    | .error f => x.run p = .error f := by
  induction x generalizing p with
  | done a => exact ⟨p, rfl, h, rfl⟩
  | pop n next ih =>
      rw [run, runBytes]
      by_cases hshort : p.unread.length < n
      · rw [if_pos hshort, Packet.pop_of_short ((Packet.short_iff h).2 hshort)]
        exact ih _ h
      · obtain ⟨hval, hwf, hunread⟩ := Packet.pop_spec h (Nat.not_lt.1 hshort)
        rw [if_neg hshort, hval, ← hunread]
        exact ih _ hwf
  | popStr next ih =>
      rw [run, runBytes]
      cases hsplit : splitStr p.unread with
      | none =>
          rw [Packet.popStr_error h (splitStr_eq_none.1 hsplit)]
      | some vr =>
          obtain ⟨v, r⟩ := vr
          obtain ⟨heq, hv⟩ := splitStr_eq_some.1 hsplit
          obtain ⟨p', hp', hwf, hunread⟩ := Packet.popStr_spec h hv heq
          rw [hp']
          simp only
          rw [← hunread]
          exact ih v hwf

theorem runBytes_bind (x : Pops α) (f : α → Pops β) (u : List UInt8) :
    (x >>= f).runBytes u =
      match x.runBytes u with
      | .ok (a, u) => (f a).runBytes u
      | .error e => .error e := by
  show (x.bind f).runBytes u = _
  induction x generalizing u with
  | done a => rfl
  | pop n next ih =>
      simp only [bind, runBytes]
      split
      · exact ih _ u
      · exact ih _ _
  | popStr next ih =>
      simp only [bind, runBytes]
      split
      · exact ih _ _
      · rfl

/-! ## What can be read at all -/

/-- Every result of the reads has the property, whatever the packet. -/
inductive Yields (P : α → Prop) : Pops α → Prop where
  | done {a : α} (h : P a) : Yields P (.done a)
  | pop {n : Nat} {next : List UInt8 → Pops α} (h : ∀ v, Yields P (next v)) : Yields P (.pop n next)
  | popStr {next : List UInt8 → Pops α} (h : ∀ v, Yields P (next v)) : Yields P (.popStr next)

theorem Yields.bind {P : β → Prop} {f : α → Pops β} (hf : ∀ a, Yields P (f a)) (x : Pops α) :
    Yields P (x >>= f) := by
  show Yields P (x.bind f)
  induction x with
  | done a => exact hf a
  | pop n next ih => exact .pop ih
  | popStr next ih => exact .popStr ih

theorem Yields.of_run {P : α → Prop} {x : Pops α} (h : Yields P x) {p p' : Packet} {a : α}
    (hrun : x.run p = .ok (a, p')) : P a := by
  induction h generalizing p with
  | done h =>
      cases hrun
      exact h
  | pop _ ih => exact ih _ hrun
  | popStr _ ih =>
      rw [run] at hrun
      split at hrun
      · exact ih _ hrun
      · cases hrun

end Pops

end Bango.Network
