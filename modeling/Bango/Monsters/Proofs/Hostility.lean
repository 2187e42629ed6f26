import Mathlib.Algebra.Order.BigOperators.Group.List
import Bango.Monsters.Hostility

set_option autoImplicit false

/-! # The accounts of a monster

A hit adds the same damage to the total and to one entry of the map, and a death empties both, so the
two agree from any state in which they do; a new monster is such a state exactly when the memory of
`total_hostility` happens to be zero. With an exact total the shares are those of parts of a sum, and
rounding each down keeps them below the whole. -/

namespace Bango.Monsters

open Bango.Lib

/-! ## Shares -/

theorem expShare_eq {total : UInt64} (h : total ≠ 0) (damage : UInt64) (exp : UInt32) :
    expShare damage total exp = some (damage.toNat * exp.toNat / total.toNat) := by
  rw [expShare, if_neg h, div_mul_eq_mul_div, ← Nat.cast_mul, Nat.floor_div_eq_div]

/-- Parts of a sum, each rounded down, are no more than the sum. -/
theorem sum_div_le (parts : List ℕ) (exp total : ℕ) :
    (parts.map fun part => part * exp / total).sum ≤ parts.sum * exp / total := by
  induction parts with
  | nil => simp
  | cons part parts ih =>
      rw [List.map_cons, List.sum_cons, List.sum_cons, Nat.add_mul]
      calc part * exp / total + (parts.map fun part => part * exp / total).sum
          ≤ part * exp / total + parts.sum * exp / total := Nat.add_le_add_left ih _
        _ ≤ (part * exp + parts.sum * exp) / total := Nat.div_add_div_le_add_div

/-- The attackers that are in the world and in no party. -/
def soloEntries (getPartyId : UInt32 → Option UInt32) (hostilityMap : List (UInt32 × UInt64)) :
    List (UInt32 × UInt64) :=
  hostilityMap.filter fun entry => getPartyId entry.1 = some 0

/-- They are paid, in the order of the map. -/
theorem distribution_solo (hostilityMap : List (UInt32 × UInt64)) (total : UInt64) (exp : UInt32)
    (getPartyId : UInt32 → Option UInt32) :
    (distribution hostilityMap total exp getPartyId).solo =
      (soloEntries getPartyId hostilityMap).map fun entry =>
        (entry.1, expShare entry.2 total exp) := by
  suffices h : ∀ d : Distribution,
      (hostilityMap.foldl (fun d entry => d.add total exp getPartyId entry) d).solo =
        d.solo ++ (soloEntries getPartyId hostilityMap).map fun entry =>
          (entry.1, expShare entry.2 total exp) by
    exact h ⟨[], []⟩
  induction hostilityMap with
  | nil => simp [soloEntries]
  | cons entry rest ih =>
      intro d
      rw [List.foldl_cons, ih]
      unfold soloEntries Distribution.add
      rw [List.filter_cons]
      cases getPartyId entry.1 with
      | none => simp
      | some partyId =>
          by_cases hparty : partyId = 0
          · simp [hparty]
          · simp [hparty]

/-- With an exact total, a distribution is sound unless it divides by zero. -/
theorem distribution_within_iff {hostilityMap : List (UInt32 × UInt64)} {total : UInt64}
    (htotal : total.toNat = (hostilityMap.map fun entry => entry.2.toNat).sum) (exp : UInt32)
    (getPartyId : UInt32 → Option UInt32) :
    (distribution hostilityMap total exp getPartyId).Within exp ↔
      ((∃ entry ∈ hostilityMap, getPartyId entry.1 = some 0) → total ≠ 0) := by
  rw [Distribution.Within, distribution_solo, List.map_map]
  constructor
  · rintro ⟨shares, hshares, -⟩ ⟨entry, hmem, hsolo⟩ hzero
    have hentry : entry ∈ soloEntries getPartyId hostilityMap :=
      List.mem_filter.2 ⟨hmem, decide_eq_true hsolo⟩
    have hshare : expShare entry.2 total exp ∈ shares.map some :=
      hshares ▸ List.mem_map_of_mem hentry
    rw [expShare, if_pos hzero] at hshare
    simp at hshare
  · intro h
    by_cases hzero : total = 0
    · -- nobody is paid
      have hnone : soloEntries getPartyId hostilityMap = [] := by
        rw [soloEntries, List.filter_eq_nil_iff]
        intro entry hmem hsolo
        exact h ⟨entry, hmem, of_decide_eq_true hsolo⟩ hzero
      exact ⟨[], by rw [hnone]; rfl, Nat.zero_le _⟩
    · let parts := (soloEntries getPartyId hostilityMap).map fun entry => entry.2.toNat
      refine ⟨parts.map fun part => part * exp.toNat / total.toNat, ?_, ?_⟩
      · rw [List.map_map, List.map_map]
        exact List.map_congr_left fun entry _ => expShare_eq hzero entry.2 exp
      · have hparts : parts.sum ≤ total.toNat := by
          rw [htotal]
          exact (List.filter_sublist.map _).sum_le_sum fun _ _ => Nat.zero_le _
        calc (parts.map fun part => part * exp.toNat / total.toNat).sum
            ≤ parts.sum * exp.toNat / total.toNat := sum_div_le _ _ _
          _ ≤ total.toNat * exp.toNat / total.toNat :=
              Nat.div_le_div_right (Nat.mul_le_mul_right _ hparts)
          _ ≤ exp.toNat := Nat.div_le_of_le_mul (Nat.le_refl _)

namespace Victim

variable {v v' : Victim} {o : Op}

/-! ## One call -/

theorem receiveDamage_of_lt {id damage : UInt32} (h : v.monster.curhp < damage) :
    v.receiveDamage id damage = v := by
  rw [receiveDamage, Monster.receiveDamage, if_pos h]

theorem receiveDamage_of_le {id damage : UInt32} (h : damage ≤ v.monster.curhp) :
    v.receiveDamage id damage =
      { v with
        monster := { v.monster with curhp := v.monster.curhp - damage }
        hostilityMap := addAt id damage.toUInt64 v.hostilityMap
        totalHostility := v.totalHostility + damage.toUInt64 } := by
  rw [receiveDamage, Monster.receiveDamage, if_neg (UInt32.not_lt.2 h)]

/-- The accounts, and one entry for each attacker. -/
structure Inv (v : Victim) : Prop extends Accounted v where
  keyed : Keyed Prod.fst v.hostilityMap

/-- A hit keeps the total exact if and only if what it records does not outgrow 64 bits. -/
theorem receiveDamage_total_iff (h : v.Inv) (id : UInt32) {damage : UInt32}
    (hle : damage ≤ v.monster.curhp) :
    (v.receiveDamage id damage).totalHostility.toNat = (v.receiveDamage id damage).recorded ↔
      v.recorded + damage.toNat < UInt64.size ∨
        UInt64.size ≤ (amountAt id v.hostilityMap).toNat + damage.toNat := by
  have hsum := sum_addAt (k := id) (a := damage.toUInt64) UInt64.toNat_zero h.keyed
  have htotal := h.total_eq
  have hlt := v.totalHostility.toNat_lt
  have hentry := (amountAt id v.hostilityMap).toNat_lt
  have hdamage := damage.toNat_lt
  rw [receiveDamage_of_le hle]
  unfold recorded at htotal ⊢
  simp only [UInt64.toNat_add, UInt32.toNat_toUInt64, UInt64.size] at hsum hlt hentry ⊢
  omega

theorem receiveDamage_keyed (h : v.Inv) (id damage : UInt32) :
    Keyed Prod.fst (v.receiveDamage id damage).hostilityMap := by
  by_cases hle : damage ≤ v.monster.curhp
  · rw [receiveDamage_of_le hle]
    exact h.keyed.addAt
  · rw [receiveDamage_of_lt (UInt32.not_le.1 hle)]
    exact h.keyed

theorem receiveDamage_accounted_iff (h : v.Inv) {id damage : UInt32} :
    (v.receiveDamage id damage).Accounted ↔ v.Keeps (.receiveDamage id damage) := by
  by_cases hle : damage ≤ v.monster.curhp
  · have hiff := receiveDamage_total_iff h id hle
    have hpaid : ∀ d ∈ (v.receiveDamage id damage).distributed,
        d.Within (v.receiveDamage id damage).exp := by
      rw [receiveDamage_of_le hle]
      exact h.paid
    exact ⟨fun haccounted _ => hiff.1 haccounted.total_eq,
      fun hkeeps => ⟨hiff.2 (hkeeps hle), hpaid⟩⟩
  · rw [receiveDamage_of_lt (UInt32.not_le.1 hle)]
    exact iff_of_true h.toAccounted fun h => absurd h hle

theorem die_accounted_iff (h : v.Inv) {getPartyId : UInt32 → Option UInt32} {now : UInt64} :
    (v.die getPartyId now).Accounted ↔ v.Keeps (.die getPartyId now) := by
  have hwithin := distribution_within_iff h.total_eq v.exp getPartyId
  have hzero : v.totalHostility ≠ 0 ↔ v.recorded ≠ 0 := by
    rw [← h.total_eq, Ne, Ne, ← UInt64.toNat_inj, UInt64.toNat_zero]
  rw [hzero] at hwithin
  constructor
  · intro haccounted
    exact hwithin.1 (haccounted.paid _ List.mem_cons_self)
  · intro hkeeps
    refine ⟨rfl, fun d hd => ?_⟩
    rcases List.mem_cons.1 hd with rfl | hearlier
    · exact hwithin.2 hkeeps
    · exact h.paid d hearlier

/-- A call keeps the accounts if and only if it meets its condition. -/
theorem step_accounted_iff (h : v.Inv) (hstep : v.step o = .ok v') :
    (v'.Accounted ↔ v.Keeps o) ∧ Keyed Prod.fst v'.hostilityMap := by
  cases o with
  | receiveDamage id damage =>
      cases hstep
      exact ⟨receiveDamage_accounted_iff h, receiveDamage_keyed h id damage⟩
  | die getPartyId now =>
      cases hstep
      exact ⟨die_accounted_iff h, keyed_nil⟩
  | restoreInitialState id newX newY =>
      cases hstep
      exact ⟨iff_of_true ⟨h.total_eq, h.paid⟩ trivial, h.keyed⟩

/-! ## From the construction on -/

theorem create_inv_iff {init : InitMonster} {exp id : UInt32} {x y map : Int32} {total : UInt64} :
    (create init exp id x y map total).Accounted ↔ total = 0 := by
  constructor
  · intro h
    have hzero : total.toNat = 0 := h.total_eq
    exact UInt64.toNat_inj.1 hzero
  · rintro rfl
    exact ⟨rfl, fun d hd => absurd hd List.not_mem_nil⟩

/-- In every state of a run from the construction on the accounts are right, if and only if
    `total_hostility` was zero in the new monster and every call meets its condition. -/
theorem accounted_iff (init : InitMonster) (exp id : UInt32) (x y map : Int32) (total : UInt64)
    (ops : List Op) :
    (∀ before after v', ops = before ++ after →
        run step (create init exp id x y map total) before = .ok v' → v'.Accounted) ↔
      total = 0 ∧ Admissible step Keeps (create init exp id x y map total) ops := by
  have hrun : (create init exp id x y map total).Inv →
      ((∀ before after v', ops = before ++ after →
          run step (create init exp id x y map total) before = .ok v' → v'.Accounted) ↔
        Admissible step Keeps (create init exp id x y map total) ops) := by
    refine forall_state_iff_admissible ?_ (fun _ h => h.toAccounted) ?_
    · intro v o v' h hkeeps hstep
      obtain ⟨hiff, hkeyed⟩ := step_accounted_iff h hstep
      exact ⟨hiff.2 hkeeps, hkeyed⟩
    · intro v o h hnot
      obtain ⟨v', hstep⟩ : ∃ v', v.step o = .ok v' := by cases o <;> exact ⟨_, rfl⟩
      exact ⟨v', hstep, fun haccounted => hnot ((step_accounted_iff h hstep).1.1 haccounted)⟩
  constructor
  · intro h
    have hstart := h [] ops _ rfl rfl
    exact ⟨create_inv_iff.1 hstart, (hrun ⟨hstart, keyed_nil⟩).1 h⟩
  · rintro ⟨hzero, hadm⟩
    exact (hrun ⟨create_inv_iff.2 hzero, keyed_nil⟩).2 hadm

/-- A total that begins 200 below zero is 100 when the 300 HP are gone: the only attacker is paid three
    times the experience that there is. -/
theorem not_accounted :
    ¬ ∀ before after v',
      [Op.receiveDamage 7 300, .die (fun _ => some 0) 0] = before ++ after →
      run step (create ⟨1, 1, 0, 168⟩ 50 1 0 0 0 18446744073709551416) before = .ok v' →
      v'.Accounted := by
  intro h
  have hlast := h _ [] _ (List.append_nil _).symm rfl
  obtain ⟨shares, hshares, hsum⟩ := hlast.paid _ List.mem_cons_self
  have hone : [expShare 300 100 50] = shares.map some := hshares
  rw [expShare_eq (by decide)] at hone
  obtain ⟨share, rest, rfl, hshare, hrest⟩ := List.map_eq_cons_iff.1 hone.symm
  rw [List.map_eq_nil_iff.1 hrest, List.sum_singleton, Option.some.inj hshare] at hsum
  exact absurd hsum (by decide)

end Victim

end Bango.Monsters
