import Mathlib.Algebra.BigOperators.Group.List.Basic
import Mathlib.Algebra.Ring.Nat
import Bango.Items.Proofs.Dressing

set_option autoImplicit false

/-! # What is worn, whatever the table says

The moves keep where the items are with every table, and the counters the sums over the items on
slots. The attack speed is 0 unless an item of class `IC_WEAPON` is on a slot. -/

namespace Bango.Items

open Bango.Lib

/-- Is the item worn on a slot, and not ridden? -/
def Item.OnSlot (item : Item) : Prop := item.IsPutOn ∧ item.init.itemClass ≠ .ride

instance (item : Item) : Decidable item.OnSlot := inferInstanceAs (Decidable (_ ∧ _))

namespace FullInventory

variable {specialty : SpecialtyDb} {db : ItemDb} {inv inv' : FullInventory} {item item' : Item}

/-! ## Steps -/

/-- An operation changes nothing or makes a move. -/
theorem step_move {op : Op} (hop : op.Unworn) (h : inv.step specialty db op = .ok inv') :
    inv' = inv ∨ Move specialty db inv inv' := by
  unfold step at h
  cases happly : inv.apply specialty db op with
  | error fault =>
      rw [happly] at h
      cases h
  | ok result =>
      rw [happly] at h
      cases h
      exact (apply_moved hop happly).imp id And.right

theorem replaced_flag (hitem : item ∈ inv.items) :
    Replaced inv (inv.flag item.localId) item (item.addInfo itemPutOn) :=
  replaced_modify hitem rfl rfl

theorem replaced_unflag (hitem : item ∈ inv.items) :
    Replaced inv (inv.unflag item.localId) item (item.subInfo itemPutOn) :=
  replaced_modify hitem rfl rfl

/-! ## Sums over the items -/

/-- What the items on slots add to a counter. -/
def wornSum (specialty : SpecialtyDb) (counter : Counter) (items : List Item) : Nat :=
  ((items.filter (·.OnSlot)).map fun item => ((specialty item.info.index).amount counter).toNat).sum

theorem wornSum_perm {items items' : List Item} (h : items.Perm items') (counter : Counter) :
    wornSum specialty counter items = wornSum specialty counter items' :=
  ((h.filter _).map _).sum_eq

theorem wornSum_cons_of_onSlot (h : item.OnSlot) (counter : Counter) (items : List Item) :
    wornSum specialty counter (item :: items) =
      ((specialty item.info.index).amount counter).toNat + wornSum specialty counter items := by
  unfold wornSum
  rw [List.filter_cons_of_pos (by simpa using h), List.map_cons, List.sum_cons]

theorem wornSum_cons_of_not (h : ¬ item.OnSlot) (counter : Counter) (items : List Item) :
    wornSum specialty counter (item :: items) = wornSum specialty counter items := by
  unfold wornSum
  rw [List.filter_cons_of_neg (by simpa using h)]

/-- The counters are the sums over the items on slots, modulo `2 ^ 16`. -/
def Summed (specialty : SpecialtyDb) (inv : FullInventory) : Prop :=
  ∀ counter, (inv.counters counter).toNat = wornSum specialty counter inv.items % 2 ^ 16

namespace Summed

theorem keep (h : inv.Summed specialty) (hcounters : inv'.counters = inv.counters)
    (hsum : ∀ counter, wornSum specialty counter inv'.items = wornSum specialty counter inv.items) :
    inv'.Summed specialty := by
  intro counter
  rw [hcounters, hsum, h counter]

/-- An item is changed that is on no slot before or after. -/
theorem replace (h : inv.Summed specialty) (hrep : Replaced inv inv' item item')
    (hcounters : inv'.counters = inv.counters) (hoff : ¬ item.OnSlot) (hoff' : ¬ item'.OnSlot) :
    inv'.Summed specialty := by
  obtain ⟨rest, hperm, hperm'⟩ := hrep.perm
  refine h.keep hcounters fun counter => ?_
  rw [wornSum_perm hperm, wornSum_perm hperm', wornSum_cons_of_not hoff, wornSum_cons_of_not hoff']

/-- An item comes on a slot. -/
theorem add (h : inv.Summed specialty) (hrep : Replaced inv inv' item item')
    (hcounters : inv'.counters = fun counter =>
      inv.counters counter + ((specialty item.info.index).amount counter).toUInt16)
    (hoff : ¬ item.OnSlot) (hon : item'.OnSlot) : inv'.Summed specialty := by
  obtain ⟨rest, hperm, hperm'⟩ := hrep.perm
  intro counter
  have hbefore := h counter
  rw [wornSum_perm hperm, wornSum_cons_of_not hoff] at hbefore
  rw [wornSum_perm hperm', wornSum_cons_of_onSlot hon, Item.index_eq_of_worn_eq hrep.worn, hcounters,
    UInt16.toNat_add, UInt32.toNat_toUInt16]
  omega

/-- An item comes off its slot. -/
theorem sub (h : inv.Summed specialty) (hrep : Replaced inv inv' item item')
    (hcounters : inv'.counters = fun counter =>
      inv.counters counter - ((specialty item.info.index).amount counter).toUInt16)
    (hon : item.OnSlot) (hoff : ¬ item'.OnSlot) : inv'.Summed specialty := by
  obtain ⟨rest, hperm, hperm'⟩ := hrep.perm
  intro counter
  have hbefore := h counter
  rw [wornSum_perm hperm, wornSum_cons_of_onSlot hon] at hbefore
  rw [wornSum_perm hperm', wornSum_cons_of_not hoff, hcounters, UInt16.toNat_sub,
    UInt32.toNat_toUInt16]
  omega

end Summed

/-- Without a weapon on a slot the attack speed is 0. -/
def Idle (inv : FullInventory) : Prop :=
  (∀ item ∈ inv.items, item.IsPutOn → item.init.itemClass ≠ .weapon) → inv.attackSpeed = 0

/-- An item is changed that was no weapon put on. -/
theorem Idle.replace (h : inv.Idle) (hrep : Replaced inv inv' item item')
    (hspeed : inv'.attackSpeed = inv.attackSpeed)
    (hitem : item.IsPutOn → item.init.itemClass ≠ .weapon) : inv'.Idle := by
  intro hnone
  rw [hspeed]
  refine h fun other hother hput => ?_
  by_cases hworn : other.worn = item.worn
  · rw [eq_of_worn_eq hother hrep.mem hworn] at hput ⊢
    exact hitem hput
  · exact hnone other (hrep.mem_iff.2 (.inr ⟨hother, hworn⟩)) hput

/-! ## Runs -/

/-- What holds of an inventory with every table. -/
structure Kept (specialty : SpecialtyDb) (db : ItemDb) (inv : FullInventory) : Prop where
  arranged : inv.Arranged db
  summed : inv.Summed specialty
  idle : inv.Idle

theorem Summed.move (h : inv.Summed specialty) (hmove : Move specialty db inv inv') :
    inv'.Summed specialty := by
  cases hmove with
  | insert item hdb hfresh hoff =>
      exact h.keep rfl fun counter => wornSum_cons_of_not (fun hon => hoff hon.1) counter _
  | trash item hitem hoff =>
      have hperm := List.perm_cons_erase hitem
      refine h.keep rfl fun counter => ?_
      rw [wornSum_perm hperm, wornSum_perm (inv.keyed.eraseKey_perm hperm),
        wornSum_cons_of_not fun hon => hoff hon.1]
  | mount item hitem hoff hclass hfree =>
      have hrep := replaced_flag hitem
      exact h.replace ⟨hrep.worn, hrep.perm⟩ rfl (fun hon => hoff hon.1) fun hon => hon.2 hclass
  | dismount item hitem hon hclass =>
      have hrep := replaced_unflag hitem
      exact h.replace ⟨hrep.worn, hrep.perm⟩ rfl (fun hon => hon.2 hclass) fun hon => hon.2 hclass
  | putOnSlot item slot hitem hoff hclass hwearable hslot hhands hfree =>
      have hrep := replaced_flag hitem
      exact h.add ⟨hrep.worn, hrep.perm⟩ rfl (fun hon => hoff hon.1) ⟨Item.isPutOn_addInfo, hclass⟩
  | putOffSlot item slot hitem hon hclass hslot =>
      have hrep := replaced_unflag hitem
      exact h.sub ⟨hrep.worn, hrep.perm⟩ rfl ⟨hon, hclass⟩ fun hon => Item.not_isPutOn_subInfo hon.1

theorem Idle.move (h : inv.Idle) (hmove : Move specialty db inv inv') : inv'.Idle := by
  cases hmove with
  | insert item hdb hfresh hoff =>
      exact fun hnone => h fun other hother => hnone other (List.mem_cons_of_mem item hother)
  | trash item hitem hoff =>
      intro hnone
      refine h fun other hother hput => hnone other ?_ hput
      refine mem_eraseKey.2 ⟨hother, fun hlocal => hoff ?_⟩
      rwa [← eq_of_localId_eq hother hitem hlocal]
  | mount item hitem hoff hclass hfree =>
      have hrep := replaced_flag hitem
      exact h.replace ⟨hrep.worn, hrep.perm⟩ rfl fun hon => absurd hon hoff
  | dismount item hitem hon hclass =>
      have hrep := replaced_unflag hitem
      exact h.replace ⟨hrep.worn, hrep.perm⟩ rfl fun _ => by rw [hclass]; decide
  | putOnSlot item slot hitem hoff hclass hwearable hslot hhands hfree =>
      have hrep := replaced_flag hitem
      by_cases hweapon : item.init.itemClass = .weapon
      · -- A weapon has just been put on.
        intro hnone
        have hmem : item.addInfo itemPutOn ∈ (inv.flag item.localId).items :=
          hrep.mem_iff.2 (.inl rfl)
        exact absurd hweapon (hnone (item.addInfo itemPutOn) hmem Item.isPutOn_addInfo)
      · exact h.replace ⟨hrep.worn, hrep.perm⟩ (if_neg hweapon) fun _ => hweapon
  | putOffSlot item slot hitem hon hclass hslot =>
      have hrep := replaced_unflag hitem
      by_cases hweapon : item.init.itemClass = .weapon
      · exact fun _ => if_pos hweapon
      · exact h.replace ⟨hrep.worn, hrep.perm⟩ (if_neg hweapon) fun _ => hweapon

theorem empty_kept (specialty : SpecialtyDb) (db : ItemDb) : empty.Kept specialty db where
  arranged := empty_arranged db
  summed _ := rfl
  idle _ := rfl

/-- Whatever the table, the inventory is kept through every run that comes to its end. -/
theorem run_kept {ops : List Op} (hops : ∀ op ∈ ops, op.Unworn)
    (hrun : run (step specialty db) empty ops = .ok inv) : inv.Kept specialty db := by
  have hadm : Admissible (step specialty db) (fun _ op => op.Unworn) empty ops :=
    .of_forall (fun _ op hop => hops op hop) empty
  refine run_invariant (fun inv op inv' h hop hstep => ?_) (empty_kept specialty db) hadm hrun
  rcases step_move hop hstep with rfl | hmove
  · exact h
  · exact ⟨h.arranged.move hmove, h.summed.move hmove, h.idle.move hmove⟩

end FullInventory

end Bango.Items
