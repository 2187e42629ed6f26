import Mathlib.Tactic.SplitIfs
import Bango.Characters.Damage
import Bango.Monsters.System

set_option autoImplicit false

/-! # Signs and truncations

An attack from 32768 on is negative as an `int16_t`, and so is taken for more than any HP; what it is
cut down to are then the low 16 bits of the HP, sign and all. -/

namespace Bango.Characters.Target

variable {target caster : Target} {attack : UInt16}

/-! ## Conversions -/

/-- A value of 16 bits, signed and then widened to 64. -/
theorem toNat_widen64 (value : UInt16) :
    value.toInt16.toInt64.toUInt64.toNat =
      value.toNat + if 32768 ≤ value.toNat then 18446744073709486080 else 0 := by
  have hlt := value.toNat_lt
  have hmsb : value.toBitVec.msb = decide (32768 ≤ value.toNat) := BitVec.msb_eq_decide _
  rw [← UInt64.toNat_toBitVec, Int64.toBitVec_toUInt64, Int16.toBitVec_toInt64,
    UInt16.toBitVec_toInt16, BitVec.toNat_signExtend, BitVec.toNat_setWidth, hmsb,
    UInt16.toNat_toBitVec, Nat.mod_eq_of_lt (by omega)]
  simp only [decide_eq_true_eq]

/-- A value of 16 bits, signed and then widened to 32. -/
theorem toNat_widen32 (value : UInt16) :
    value.toInt16.toInt32.toUInt32.toNat =
      value.toNat + if 32768 ≤ value.toNat then 4294901760 else 0 := by
  have hlt := value.toNat_lt
  have hmsb : value.toBitVec.msb = decide (32768 ≤ value.toNat) := BitVec.msb_eq_decide _
  rw [← UInt32.toNat_toBitVec, Int32.toBitVec_toUInt32, Int16.toBitVec_toInt32,
    UInt16.toBitVec_toInt16, BitVec.toNat_signExtend, BitVec.toNat_setWidth, hmsb,
    UInt16.toNat_toBitVec, Nat.mod_eq_of_lt (by omega)]
  simp only [decide_eq_true_eq]

/-! ## Hits -/

theorem Struck.unique {damage : ℕ} {result result' : Option (Target × Bool)}
    (h : target.Struck damage result) (h' : target.Struck damage result') : result = result' := by
  obtain ⟨curhp, hcurhp, rfl⟩ := h
  obtain ⟨curhp', hcurhp', rfl⟩ := h'
  rw [UInt32.toNat_inj.1 (hcurhp.trans hcurhp'.symm)]

theorem hit_of_le {damage : UInt32} (h : damage ≤ target.curhp) :
    target.hit damage =
      some ({ target with curhp := target.curhp - damage }, decide (target.curhp - damage ≤ 0)) := by
  rw [hit, receiveDamage, if_neg (UInt32.not_lt.2 h)]
  rfl

theorem hit_of_lt {damage : UInt32} (h : target.curhp < damage) : target.hit damage = none := by
  rw [hit, receiveDamage, if_pos h]
  rfl

/-- A hit is the damage that it was cut down to, and nothing else. -/
theorem struck_hit_iff {damage : UInt32} {amount : ℕ} :
    target.Struck amount (target.hit damage) ↔
      damage.toNat = min amount target.curhp.toNat := by
  constructor
  · rintro ⟨curhp, hcurhp, hhit⟩
    by_cases hle : damage ≤ target.curhp
    · rw [hit_of_le hle, Option.some.injEq, Prod.mk.injEq, Target.mk.injEq] at hhit
      rw [← hhit.1.2.2, UInt32.toNat_sub_of_le _ _ hle] at hcurhp
      have hle' := UInt32.le_iff_toNat_le.1 hle
      omega
    · rw [hit_of_lt (UInt32.not_le.1 hle)] at hhit
      cases hhit
  · intro hdamage
    have hle : damage ≤ target.curhp := by
      rw [UInt32.le_iff_toNat_le]
      omega
    refine ⟨target.curhp - damage, ?_, ?_⟩
    · rw [UInt32.toNat_sub_of_le _ _ hle, hdamage]
    · have hzero : target.curhp - damage ≤ 0 ↔ target.curhp - damage = 0 := by
        rw [UInt32.le_iff_toNat_le, ← UInt32.toNat_inj]
        exact Nat.le_zero
      rw [hit_of_le hle]
      simp only [hzero]

/-- What `OnAttack` does for a final damage of 16 bits. -/
theorem struck_onAttack (target : Target) (damage : UInt16) :
    target.Struck damage.toNat (target.onAttack damage.toUInt64.toInt64) := by
  have hlt := damage.toNat_lt
  have hcurhp := target.curhp.toNat_lt
  have hpos : ¬ damage.toUInt64.toInt64 < 0 := by
    have hmsb : damage.toUInt64.toBitVec.msb = false := by
      rw [BitVec.msb_eq_decide, UInt64.toNat_toBitVec, UInt16.toNat_toUInt64, decide_eq_false_iff_not]
      omega
    rw [Int64.lt_iff_toInt_lt, Int64.toInt_zero, ← Int64.toInt_toBitVec, UInt64.toBitVec_toInt64,
      BitVec.toInt_eq_toNat_of_msb hmsb]
    omega
  rw [onAttack, if_neg hpos, struck_hit_iff]
  simp only [UInt64.toUInt64_toInt64]
  split_ifs with hmore
  · rw [gt_iff_lt, UInt64.lt_iff_toNat_lt, UInt32.toNat_toUInt64, UInt16.toNat_toUInt64] at hmore
    rw [UInt64.toUInt64_toInt64, UInt64.toNat_toUInt32, UInt32.toNat_toUInt64]
    omega
  · rw [gt_iff_lt, UInt64.lt_iff_toNat_lt, UInt32.toNat_toUInt64, UInt16.toNat_toUInt64] at hmore
    rw [UInt64.toUInt64_toInt64, UInt64.toNat_toUInt32, UInt16.toNat_toUInt64]
    omega

/-! ## The skill -/

/-- A negative attack is replaced by the low 16 bits of the HP, with their sign. -/
theorem skillDamage_toNat (target : Target) (attack : UInt16) :
    (target.skillDamage attack).toNat =
      if attack.toNat < 32768 then min attack.toNat target.curhp.toNat
      else target.curhp.toNat % 65536 +
        if 32768 ≤ target.curhp.toNat % 65536 then 4294901760 else 0 := by
  have hlt := attack.toNat_lt
  have hcurhp := target.curhp.toNat_lt
  have hmore : attack.toInt16.toInt64.toUInt64 > target.curhp.toUInt64 ↔
      target.curhp.toNat <
        attack.toNat + if 32768 ≤ attack.toNat then 18446744073709486080 else 0 := by
    rw [gt_iff_lt, UInt64.lt_iff_toNat_lt, toNat_widen64, UInt32.toNat_toUInt64]
  unfold skillDamage
  by_cases hcut : attack.toInt16.toInt64.toUInt64 > target.curhp.toUInt64
  · have hless := hmore.1 hcut
    simp only [if_pos hcut]
    rw [toNat_widen32, UInt32.toNat_toUInt16]
    split_ifs at hless ⊢ <;> omega
  · have hmost := hmore.not.1 hcut
    simp only [if_neg hcut]
    rw [toNat_widen32]
    split_ifs at hmost ⊢ <;> omega

/-- The damage of the skill is the attack, as far as there is HP, if and only if one of the two fits in
    15 bits. -/
theorem skillDamage_eq_min_iff (target : Target) (attack : UInt16) :
    (target.skillDamage attack).toNat = min attack.toNat target.curhp.toNat ↔
      attack.toNat < 32768 ∨ target.curhp.toNat < 32768 := by
  have hlt := attack.toNat_lt
  have hcurhp := target.curhp.toNat_lt
  rw [skillDamage_toNat]
  split_ifs <;> omega

/-- A physical skill on a target that it may hit takes its attack off, as far as there is HP, and
    kills when nothing is left, just as a final damage of that value in `OnAttack`, if and only if the
    attack or the HP is below 32768. -/
theorem execute_struck_iff (h : target.CanExecute caster) (attack : UInt16) :
    (target.Struck attack.toNat (target.execute caster attack) ∧
        target.execute caster attack = target.onAttack attack.toUInt64.toInt64) ↔
      attack.toNat < 32768 ∨ target.curhp.toNat < 32768 := by
  have hexecute : target.execute caster attack = target.hit (target.skillDamage attack) := by
    rw [execute, if_neg (not_not.2 h)]
  have hattack := struck_onAttack target attack
  rw [hexecute, struck_hit_iff, skillDamage_eq_min_iff, and_iff_left_iff_imp]
  intro hfit
  have hskill := struck_hit_iff.2 ((skillDamage_eq_min_iff target attack).2 hfit)
  exact hskill.unique hattack

/-- An attack of 1000 on 70000 HP. -/
theorem execute_struck_thousand :
    Struck ⟨2, 0, 70000⟩ 1000 (execute ⟨2, 0, 70000⟩ ⟨1, 0, 1⟩ 1000) ∧
      execute ⟨2, 0, 70000⟩ ⟨1, 0, 1⟩ 1000 = onAttack ⟨2, 0, 70000⟩ 1000 :=
  (execute_struck_iff (by decide : CanExecute ⟨2, 0, 70000⟩ ⟨1, 0, 1⟩) 1000).2 (.inl (by decide))

/-- An attack of 40000 takes 4464 off 70000 HP. -/
theorem not_execute_struck :
    ¬ ∀ target caster : Target, target.CanExecute caster → ∀ attack,
      target.Struck attack.toNat (target.execute caster attack) := by
  intro h
  obtain ⟨curhp, hcurhp, hresult⟩ := h ⟨2, 0, 70000⟩ ⟨1, 0, 1⟩ (by decide) 40000
  have hleft : curhp = 65536 := by
    have heq : some ((⟨2, 0, 65536⟩ : Target), false) = some (⟨2, 0, curhp⟩, decide (curhp = 0)) :=
      hresult
    rw [Option.some.injEq, Prod.mk.injEq, Target.mk.injEq] at heq
    exact heq.1.2.2.symm
  rw [hleft] at hcurhp
  exact absurd hcurhp (by decide)

end Bango.Characters.Target

/-! ## Monsters as targets -/

namespace Bango.Monsters

open Bango.Characters

/-- What a hit sees of a monster. -/
def Monster.target (monster : Monster) : Target := ⟨monster.id, monster.map, monster.curhp⟩

namespace System

variable {s : System} {place : Nat} {death : Death}

/-- What becomes of the world after a hit of the monster. -/
def settle (s : System) (place : Nat) (death : Death) : Option (Target × Bool) → System
  | none => s
  | some (target, dies) =>
    let s := s.setMonster place { s.monsters place with curhp := target.curhp }
    if dies then s.die place death else s

theorem settle_unhurt : s.settle place death (some ((s.monsters place).target, false)) = s := by
  have hself : Function.update s.monsters place (s.monsters place) = s.monsters :=
    Function.update_eq_self place s.monsters
  rw [settle]
  simp only [Monster.target, setMonster, hself, Bool.false_eq_true, ↓reduceIte]

theorem hit_eq (damage : UInt32) :
    s.hit place damage death = s.settle place death ((s.monsters place).target.hit damage) := by
  unfold hit Monster.receiveDamage
  by_cases hmore : damage > (s.monsters place).curhp
  · have hthrown : (s.monsters place).target.hit damage = none := Target.hit_of_lt hmore
    rw [if_pos hmore, hthrown, settle]
  · have hleft : (s.monsters place).target.hit damage =
        some (⟨(s.monsters place).id, (s.monsters place).map, (s.monsters place).curhp - damage⟩,
          decide ((s.monsters place).curhp - damage ≤ 0)) :=
      Target.hit_of_le (UInt32.not_lt.1 hmore)
    rw [if_neg hmore, hleft, settle]
    simp only [decide_eq_true_eq]

/-- The skill hits a monster as it hits any target. -/
theorem physicalSkill_eq {caster : Target} (h : caster.IsNormal) (id : UInt32) (attack : UInt16) :
    s.physicalSkill caster.map caster.id id attack death =
      s.forCharacterInMap caster.map id fun place =>
        s.settle place death ((s.monsters place).target.execute caster attack) := by
  unfold physicalSkill
  refine congrArg (s.forCharacterInMap caster.map id) (funext fun place => ?_)
  have hcan : (s.monsters place).target.CanExecute caster ↔
      (s.monsters place).IsNormal ∧ caster.map = (s.monsters place).map ∧
        caster.id ≠ (s.monsters place).id := and_iff_right h
  by_cases hexecute : (s.monsters place).target.CanExecute caster
  · rw [Target.execute, if_neg (not_not.2 hexecute), if_neg (not_not.2 (hcan.1 hexecute)), hit_eq]
    rfl
  · rw [Target.execute, if_pos hexecute, if_pos fun h => hexecute (hcan.2 h), settle_unhurt]

/-- So does `OnAttack`, when the monster may be attacked. -/
theorem onAttack_eq (map : UInt8) (id : UInt32) (finalDamage : Int64) :
    s.onAttack map id finalDamage death =
      s.forCharacterInMap map id fun place =>
        if ¬ (s.monsters place).CanAttack then s
        else s.settle place death ((s.monsters place).target.onAttack finalDamage) := by
  unfold onAttack
  refine congrArg (s.forCharacterInMap map id) (funext fun place => ?_)
  refine if_congr Iff.rfl rfl ?_
  rw [Target.onAttack]
  by_cases hneg : finalDamage < 0
  · rw [if_pos hneg, if_pos hneg, settle_unhurt]
  · rw [if_neg hneg, if_neg hneg]
    dsimp only
    rw [hit_eq, Monster.target]
    split_ifs
    · rw [UInt64.toUInt64_toInt64]
    · rfl

end System

end Bango.Monsters
