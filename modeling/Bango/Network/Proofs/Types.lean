import Bango.Network.Proofs.Made

set_option autoImplicit false

/-! # The type of a packet

`reset_size` copies the type byte from the old header after it has written the length into the new one.
When one or two bytes have been taken off, the new length overlaps the old type byte, and the packet
gets a byte of its length as its type. Everything else keeps the type. -/

namespace Bango.Network

open Bango.Lib

namespace Packet

/-- An operation on a packet. -/
inductive Op where
  | push (value : List UInt8)
  | pushStr (str : List UInt8)
  | pop (n : Nat)
  | popStr
  | merge (q : Packet)

/-- What an operation leaves of a packet; one that throws leaves the packet as it was. -/
def step (p : Packet) : Op → Except PacketFault Packet
  | .push value => .ok (p.push value)
  | .pushStr str =>
    match p.pushStr str with
    | .ok p' => .ok p'
    | .error .packetOverflow => .ok p
    | .error (.packet f) => .error f
  | .pop n => .ok (p.pop n).2
  | .popStr =>
    match p.popStr with
    | .ok (_, p') => .ok p'
    | .error .noMoreData => .ok p
    | .error f => .error f
  | .merge q =>
    match p.merge q with
    | .ok p' => .ok p'
    | .error .packetOverflow => .ok p
    | .error (.packet f) => .error f

variable {p p' : Packet}

/-! ## The condition -/

/-- The length in the header, less `n` bytes. -/
def lengthLess (p : Packet) (n : Nat) : Nat := (p.lengthField + 65536 - n) % 65536

/-- Taking `n` bytes off: not one, unless the high byte of the length that is left is the type, and not
    two, unless the low byte is. -/
def TakeKeeps (p : Packet) (n : Nat) : Prop :=
  (n = 1 → p.type.toNat = p.lengthLess 1 / 256) ∧ (n = 2 → p.type.toNat = p.lengthLess 2 % 256)

instance (p : Packet) (n : Nat) : Decidable (p.TakeKeeps n) := inferInstanceAs (Decidable (_ ∧ _))

/-- Appending bytes: not over the type byte, unless with the type. (It lies behind the end of a packet
    made of a vector of one or two bytes.) -/
def AppendKeeps (p : Packet) (bytes : List UInt8) : Prop :=
  p.endOffset ≤ p.header + 2 → ∀ b ∈ bytes[p.header + 2 - p.endOffset]?, b = p.type

instance (p : Packet) (bytes : List UInt8) : Decidable (p.AppendKeeps bytes) :=
  inferInstanceAs (Decidable (_ → ∀ b ∈ bytes[_]?, _))

/-- An operation that is carried out keeps the type. -/
def KeepsType (p : Packet) : Op → Prop
  | .push value => p.endOffset + value.length ≤ maxPacketLength → p.AppendKeeps value
  | .pushStr str =>
    p.endOffset + ((cStr str).length + 1) ≤ maxPacketLength → p.AppendKeeps (cStr str ++ [0])
  | .pop n => ¬ p.Short n → p.TakeKeeps n
  | .popStr =>
    ∀ n ∈ strlen p.buffer (maxPacketLength - p.beginOffset) p.beginOffset,
      ¬ p.Short (n + 1) → p.TakeKeeps (n + 1)
  | .merge q =>
    q.header + q.lengthField = q.endOffset → 3 ≤ q.lengthField →
      p.endOffset + q.merged.length ≤ maxPacketLength → p.AppendKeeps q.merged

instance (p : Packet) (o : Op) : Decidable (p.KeepsType o) :=
  match o with
  | .push _ => inferInstanceAs (Decidable (_ → _))
  | .pushStr _ => inferInstanceAs (Decidable (_ → _))
  | .pop _ => inferInstanceAs (Decidable (_ → _))
  | .popStr => inferInstanceAs (Decidable (∀ n ∈ strlen _ _ _, _))
  | .merge _ => inferInstanceAs (Decidable (_ → _ → _ → _))

/-! ## Where the type byte comes from -/

/-- The type that `reset_size` copies is read when the new length has been written. -/
theorem type_resetSize (hbegin : 3 ≤ p.beginOffset) :
    (resetSize p).type =
      p.buffer.writeBytes (p.beginOffset - 3) (le 2 p.newLength) (p.header + 2) := by
  have hbehind : p.beginOffset - 3 + 2 = p.beginOffset - 1 := by omega
  unfold type resetSize
  simp only [hbehind]
  exact Memory.writeBytes_of_inside (k := 0) (by rw [List.length_singleton]; decide)

namespace Consistent

theorem type_append_iff (h : p.Consistent) (bytes : List UInt8) :
    (p.append bytes).type = p.type ↔ p.AppendKeeps bytes := by
  have hheader := h.header_eq
  -- the new header is the old one, and its length lies before the type byte
  have htype : (p.append bytes).type = p.buffer.writeBytes p.endOffset bytes (p.header + 2) := by
    have hresized := type_resetSize (p := { p with
      buffer := p.buffer.writeBytes p.endOffset bytes
      endOffset := p.endOffset + bytes.length }) h.three_le
    refine hresized.trans (Memory.writeBytes_of_outside (.inr ?_))
    rw [length_le]
    show p.beginOffset - 3 + 2 ≤ p.header + 2
    omega
  rw [htype]
  unfold AppendKeeps
  by_cases hhit : p.endOffset ≤ p.header + 2 ∧ p.header + 2 - p.endOffset < bytes.length
  · obtain ⟨k, hk⟩ : ∃ k, p.header + 2 = p.endOffset + k := ⟨_, (Nat.add_sub_cancel' hhit.1).symm⟩
    rw [hk, Nat.add_sub_cancel_left] at hhit
    rw [hk, Memory.writeBytes_of_inside hhit.2, Nat.add_sub_cancel_left,
      List.getElem?_eq_getElem hhit.2]
    simp
  · rw [Memory.writeBytes_of_outside (by omega)]
    refine ⟨fun _ hle b hb => ?_, fun _ => rfl⟩
    obtain ⟨hlt, -⟩ := List.getElem?_eq_some_iff.1 hb
    exact absurd ⟨hle, hlt⟩ hhit

theorem type_advance_iff (h : p.Consistent) (n : Nat) :
    (resetSize { p with beginOffset := p.beginOffset + n }).type = p.type ↔ p.TakeKeeps n := by
  have hheader := h.header_eq
  have hbegin := h.three_le
  have hlength : n ≤ 2 →
      newLength { p with beginOffset := p.beginOffset + n } = p.lengthLess n := by
    intro hn
    unfold lengthLess
    rw [h.field_eq]
    unfold newLength
    push_cast
    omega
  have hbytes : ∀ m, le 2 m = [UInt8.ofNat m, UInt8.ofNat (m / 256)] := fun _ => rfl
  have hlt : ∀ k, p.lengthLess k < 65536 := fun k => Nat.mod_lt _ (by decide)
  have hstart : p.beginOffset + n - 3 = p.header + n := by omega
  rw [type_resetSize (Nat.le_add_right_of_le hbegin)]
  show p.buffer.writeBytes (p.beginOffset + n - 3) (le 2 _) (p.header + 2) = p.type ↔ _
  rw [hstart]
  match n with
  | 0 =>
      rw [Memory.writeBytes_of_outside (.inr (by rw [length_le]))]
      exact ⟨fun _ => ⟨nofun, nofun⟩, fun _ => rfl⟩
  | 1 =>
      -- the type byte is overwritten by the high byte of the length
      have hhit : 1 < (le 2 (p.lengthLess 1)).length := by rw [length_le]; decide
      have hless := hlt 1
      rw [hlength (by decide), Memory.writeBytes_of_inside (i := p.header + 1) hhit]
      simp only [hbytes, List.getElem_cons_succ, List.getElem_cons_zero, ← UInt8.toNat_inj,
        UInt8.toNat_ofNat']
      constructor
      · exact fun heq => ⟨fun _ => by omega, nofun⟩
      · intro hkeeps
        have := hkeeps.1 rfl
        omega
  | 2 =>
      -- by the low byte
      have hhit : 0 < (le 2 (p.lengthLess 2)).length := by rw [length_le]; decide
      rw [hlength (by decide), ← Nat.add_zero (p.header + 2),
        Memory.writeBytes_of_inside (i := p.header + 2) hhit]
      simp only [hbytes, List.getElem_cons_zero, ← UInt8.toNat_inj, UInt8.toNat_ofNat']
      exact ⟨fun heq => ⟨nofun, fun _ => heq.symm⟩, fun hkeeps => (hkeeps.2 rfl).symm⟩
  | n + 3 =>
      rw [Memory.writeBytes_of_outside (.inl (by omega))]
      exact ⟨fun _ => ⟨by omega, by omega⟩, fun _ => rfl⟩

/-- An operation that is carried out keeps the type exactly when it meets the condition. -/
theorem keepsType_iff (h : p.Consistent) {o : Op} (hstep : p.step o = .ok p') :
    p'.Consistent ∧ (p'.type = p.type ↔ p.KeepsType o) := by
  cases o with
  | push value =>
      cases hstep
      refine ⟨h.push value, ?_⟩
      by_cases hfit : p.endOffset + value.length ≤ maxPacketLength
      · rw [push_eq_append hfit, h.type_append_iff]
        simp only [KeepsType, hfit, true_imp_iff]
      · rw [push_of_full (Nat.not_le.1 hfit)]
        simp only [KeepsType, hfit, false_imp_iff]
  | pushStr str =>
      simp only [step] at hstep
      split at hstep
      · next hp =>
        cases hstep
        obtain ⟨hfit, rfl⟩ := pushStr_eq_ok.1 hp
        refine ⟨h.append (by rwa [List.length_append, List.length_singleton]), ?_⟩
        rw [h.type_append_iff]
        simp only [KeepsType, hfit, true_imp_iff]
      · next hp =>
        cases hstep
        refine ⟨h, fun _ hfit => ?_, fun _ => rfl⟩
        cases (pushStr_eq_ok.2 ⟨hfit, rfl⟩).symm.trans hp
      · cases hstep
  | pop n =>
      cases hstep
      refine ⟨h.pop n, ?_⟩
      by_cases hshort : p.Short n
      · rw [pop_of_short hshort]
        simp only [KeepsType, hshort, not_true_eq_false, false_imp_iff]
      · simp only [Packet.pop, KeepsType, hshort, if_false, not_false_eq_true, true_imp_iff]
        exact h.type_advance_iff n
  | popStr =>
      simp only [step] at hstep
      split at hstep
      · next hp =>
        cases hstep
        obtain ⟨n, hn, hshort, rfl⟩ := popStr_eq_ok hp
        refine ⟨h.advance (n + 1), ?_⟩
        rw [h.type_advance_iff]
        simp [KeepsType, hn, hshort]
      · next hp =>
        -- What is thrown leaves the packet as it was, and the condition asks for nothing.
        cases hstep
        refine ⟨h, fun _ n hn hshort => ?_, fun _ => rfl⟩
        rw [popStr, hn] at hp
        simp only [if_neg hshort] at hp
        cases hp
      · cases hstep
  | merge q =>
      simp only [step] at hstep
      split at hstep
      · next hp =>
        cases hstep
        obtain ⟨hsize, hthree, hfit, rfl⟩ := merge_eq_ok.1 hp
        refine ⟨h.append hfit, ?_⟩
        rw [h.type_append_iff]
        simp only [KeepsType, hsize, hthree, hfit, true_imp_iff]
      · next hp =>
        cases hstep
        refine ⟨h, fun _ hsize hthree hfit => ?_, fun _ => rfl⟩
        cases (merge_eq_ok.2 ⟨hsize, hthree, hfit, rfl⟩).symm.trans hp
      · cases hstep

end Consistent

/-- An operation that does not meet the condition is carried out. -/
theorem exists_step {o : Op} (h : ¬ p.KeepsType o) : ∃ p', p.step o = .ok p' := by
  cases o with
  | push value => exact ⟨_, rfl⟩
  | pop n => exact ⟨_, rfl⟩
  | pushStr str =>
      simp only [KeepsType, Classical.not_imp] at h
      exact ⟨p.append (cStr str ++ [0]), by simp only [step, pushStr_eq_ok.2 ⟨h.1, rfl⟩]⟩
  | popStr =>
      simp only [step]
      cases hp : p.popStr with
      | ok vp => exact ⟨_, rfl⟩
      | error f =>
          simp only [KeepsType, not_forall] at h
          obtain ⟨n, hn, hshort, -⟩ := h
          rw [popStr, hn] at hp
          simp only [if_neg hshort] at hp
          cases hp
  | merge q =>
      simp only [KeepsType, Classical.not_imp] at h
      exact ⟨p.append q.merged, by simp only [step, merge_eq_ok.2 ⟨h.1, h.2.1, h.2.2.1, rfl⟩]⟩

/-- The invariant. -/
structure Typed (type : UInt8) (p : Packet) : Prop where
  consistent : p.Consistent
  type_eq : p.type = type

/-- In every state of a run the packet has the type that it had before, exactly when no operation of the
    run takes one or two bytes off, unless the length that is left has the type as that byte (and none
    appends over the type byte of a packet that is shorter than its header). -/
theorem type_kept_iff (h : p.Made) (ops : List Op) :
    (∀ before after p', ops = before ++ after → run step p before = .ok p' → p'.type = p.type) ↔
      Admissible step KeepsType p ops := by
  have htyped : Typed p.type p := ⟨h.consistent, rfl⟩
  refine forall_state_iff_admissible (fun q o q' hq hkeeps hstep => ?_) (fun _ hq => hq.type_eq)
    (fun q o hq hnot => ?_) htyped
  · obtain ⟨hconsistent, htype⟩ := hq.consistent.keepsType_iff hstep
    exact ⟨hconsistent, (htype.2 hkeeps).trans hq.type_eq⟩
  · obtain ⟨q', hstep⟩ := exists_step hnot
    obtain ⟨-, htype⟩ := hq.consistent.keepsType_iff hstep
    exact ⟨q', hstep, fun hkept => hnot (htype.1 (hkept.trans hq.type_eq.symm))⟩

/-- A number of four bytes pushed and popped. -/
theorem type_kept_number :
    Made (ofType (fun _ => 0) 5) ∧
      ∀ before after p', [Op.push [1, 2, 3, 4], .pop 4] = before ++ after →
        run step (ofType (fun _ => 0) 5) before = .ok p' → p'.type = (ofType (fun _ => 0) 5).type :=
  ⟨made_ofType _ 5, (type_kept_iff (made_ofType _ 5) _).2 (by decide +kernel)⟩

/-- A byte pushed and popped: the type is the high byte of the length 3. -/
theorem type_lost_byte :
    ¬ ∀ (p : Packet) (ops : List Op) (p' : Packet), p.Made → run step p ops = .ok p' →
      p'.type = p.type := by
  intro hkept
  have hrun : run step (ofType (fun _ => 0) 5) [.push [7], .pop 1] = .ok _ := rfl
  exact absurd (hkept _ _ _ (made_ofType _ 5) hrun) (by decide +kernel)

end Packet

end Bango.Network
