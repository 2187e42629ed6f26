import Mathlib.Algebra.BigOperators.Intervals
import Bango.Characters.Experience

set_option autoImplicit false

/-! # Experience is not lost and not counted twice

The loop of `UpdateExp` takes the requirement of each level it passes off the experience, so what is
left and what was taken add up to what there was (`levelUps_ok`). Experience that is added before the
loop can as well be added after it (`levelUps_add`), so an amount may be given in several parts. -/

namespace Bango.Characters

open Bango.Lib

/-! ## The table -/

theorem tableAt_eq_ok {α : Type} {table : List α} {index : Nat} {fault : Fault} {a : α} :
    tableAt table index fault = .ok a ↔ table[index]? = some a := by
  unfold tableAt
  cases table[index]? with
  | none => simp
  | some b => simp

theorem tableAt_of_lt {α : Type} {table : List α} {index : Nat} (h : index < table.length)
    (fault : Fault) : tableAt table index fault = .ok table[index] := by
  rw [tableAt_eq_ok, List.getElem?_eq_getElem h]

theorem tableAt_eq_error {α : Type} {table : List α} {index : Nat} {fault f : Fault}
    (h : tableAt table index fault = .error f) : f = fault := by
  unfold tableAt at h
  split at h
  · cases h
  · exact (Except.error.inj h).symm

/-- What the level requires: `g_n64NeedExpFinal` as a function. -/
def need (level : Nat) : Nat := (needExpFinal.getD level 0).toNat

namespace Player

variable {inventory : InventoryProperty} {player player' : Player} {required : UInt64}

theorem requiredExp_of_lt (h : player.data.level < maxLevel) :
    ∃ required, player.requiredExp = .ok required := by
  have hlt : player.data.level.toNat < needExpFinal.length := UInt8.lt_iff_toNat_lt.1 h
  exact ⟨_, tableAt_of_lt hlt _⟩

theorem requiredExp_eq (h : player.requiredExp = .ok required) :
    required.toNat = need player.data.level.toNat := by
  rw [requiredExp, tableAt_eq_ok] at h
  rw [need, List.getD_eq_getElem?_getD, h]
  rfl

/-! ## Levels -/

@[simp]
theorem withExp_level (exp : UInt64) : (player.withExp exp).data.level = player.data.level := rfl

@[simp]
theorem withExp_exp (exp : UInt64) : (player.withExp exp).data.exp = exp := rfl

@[simp]
theorem withExp_playerClass (exp : UInt64) :
    (player.withExp exp).data.playerClass = player.data.playerClass := rfl

@[simp]
theorem withExp_withExp (exp exp' : UInt64) :
    (player.withExp exp).withExp exp' = player.withExp exp' := rfl

@[simp]
theorem withExp_requiredExp (exp : UInt64) :
    (player.withExp exp).requiredExp = player.requiredExp := rfl

theorem levelUp_exp (h : player.levelUp inventory = .ok player') :
    player'.data.exp = player.data.exp := by
  obtain ⟨_, _, rfl⟩ := levelUp_eq_ok inventory h
  rfl

theorem levelUp_playerClass (h : player.levelUp inventory = .ok player') :
    player'.data.playerClass = player.data.playerClass := by
  obtain ⟨_, _, rfl⟩ := levelUp_eq_ok inventory h
  rfl

/-- A level is gained with whatever experience. -/
theorem levelUp_withExp (h : player.levelUp inventory = .ok player') (exp : UInt64) :
    (player.withExp exp).levelUp inventory = .ok (player'.withExp exp) := by
  simp only [levelUp, bind_eq_ok] at h ⊢
  obtain ⟨curHp, hhp, curMp, hmp, h⟩ := h
  refine ⟨curHp, hhp, curMp, hmp, ?_⟩
  rw [← Except.ok.inj h]
  rfl

theorem getMaxHp_eq_error {fault : Fault} (h : player.getMaxHp inventory = .error fault) :
    fault = .classOutOfRange := by
  rcases bind_eq_error.1 h with htable | ⟨_, _, hret⟩
  · exact tableAt_eq_error htable
  · cases hret

theorem getMaxMp_eq_error {fault : Fault} (h : player.getMaxMp inventory = .error fault) :
    fault = .classOutOfRange := by
  rcases bind_eq_error.1 h with htable | ⟨_, _, hret⟩
  · exact tableAt_eq_error htable
  · cases hret

theorem levelUp_eq_error {fault : Fault} (h : player.levelUp inventory = .error fault) :
    fault = .classOutOfRange := by
  rcases bind_eq_error.1 h with hhp | ⟨_, _, h⟩
  · exact getMaxHp_eq_error hhp
  · rcases bind_eq_error.1 h with hmp | ⟨_, _, hret⟩
    · exact getMaxMp_eq_error hmp
    · cases hret

theorem levelUp_withExp_error {fault : Fault} (h : player.levelUp inventory = .error fault)
    (exp : UInt64) : (player.withExp exp).levelUp inventory = .error fault := by
  cases hexp : (player.withExp exp).levelUp inventory with
  | ok p =>
      have hback := levelUp_withExp hexp player.data.exp
      rw [withExp_withExp] at hback
      cases h.symm.trans hback
  | error f => rw [levelUp_eq_error h, levelUp_eq_error hexp]

theorem getMaxHp_of_lt (inventory : InventoryProperty) (h : player.data.playerClass < classNum) :
    ∃ hp, player.getMaxHp inventory = .ok hp := by
  have hlt : player.data.playerClass.toNat < denoHp.length := UInt8.lt_iff_toNat_lt.1 h
  exact ⟨_, bind_eq_ok.2 ⟨_, tableAt_of_lt hlt _, rfl⟩⟩

theorem getMaxMp_of_lt (inventory : InventoryProperty) (h : player.data.playerClass < classNum) :
    ∃ mp, player.getMaxMp inventory = .ok mp := by
  have hlt : player.data.playerClass.toNat < denoMp.length := UInt8.lt_iff_toNat_lt.1 h
  exact ⟨_, bind_eq_ok.2 ⟨_, tableAt_of_lt hlt _, rfl⟩⟩

theorem levelUp_of_lt (inventory : InventoryProperty) (h : player.data.playerClass < classNum) :
    ∃ player', player.levelUp inventory = .ok player' := by
  have hraised : player.raiseLevel.data.playerClass < classNum := h
  obtain ⟨curHp, hhp⟩ := getMaxHp_of_lt inventory hraised
  have hfilled : ({ player.raiseLevel with curHp } : Player).data.playerClass < classNum := h
  obtain ⟨curMp, hmp⟩ := getMaxMp_of_lt inventory hfilled
  exact ⟨_, bind_eq_ok.2 ⟨curHp, hhp, bind_eq_ok.2 ⟨curMp, hmp, rfl⟩⟩⟩

/-! ## The loop -/

/-- The part of `UpdateExp` for an increase. -/
def gainExp (inventory : InventoryProperty) (player : Player) (exp : UInt64) :
    Except Fault Player :=
  if maxLevel ≤ player.data.level then .ok player
  else do
    let required ← player.requiredExp
    (player.withExp (player.data.exp + exp)).levelUps inventory required

theorem updateExp_of_pos {amount : Int64} (h : 0 < amount) :
    player.updateExp inventory amount = gainExp inventory player amount.toUInt64 := by
  have hne : amount ≠ 0 := by
    rintro rfl
    exact absurd h (by decide)
  have hlt : ¬ amount < 0 := by
    intro hneg
    rw [Int64.lt_iff_toInt_lt] at h hneg
    omega
  rw [updateExp, if_neg hne, if_neg hlt]
  rfl

theorem levelUps_of_le (h : player.data.exp ≤ required) :
    player.levelUps inventory required = .ok player := by
  rw [levelUps, if_neg (UInt64.not_lt.2 h)]

/-- One turn of the loop. -/
theorem levelUps_of_lt (h : required < player.data.exp) :
    player.levelUps inventory required =
      (player.withExp (player.data.exp - required)).levelUp inventory >>= fun player' =>
        if maxLevel ≤ player'.data.level then .ok (player'.withExp 0)
        else player'.requiredExp >>= player'.levelUps inventory := by
  rw [levelUps, if_pos h]
  split
  · next fault hup =>
      rw [hup]
      rfl
  · next player' hup =>
      rw [hup]
      split
      · next hmax => exact (if_pos hmax).symm
      · next hmax =>
          refine Eq.trans ?_ (if_neg hmax).symm
          cases player'.requiredExp with
          | error fault => rfl
          | ok required' => rfl

theorem add_fits {exp exp' : UInt64} (hfit : exp.toNat + exp'.toNat < 2 ^ 64) :
    (exp + exp').toNat = exp.toNat + exp'.toNat := by
  rw [UInt64.toNat_add, Nat.mod_eq_of_lt hfit]

/-- One turn of the loop, with some experience that was added before. -/
theorem levelUps_withExp_of_lt {exp : UInt64} (h : required < player.data.exp)
    (hfit : player.data.exp.toNat + exp.toNat < 2 ^ 64) :
    (player.withExp (player.data.exp + exp)).levelUps inventory required =
      (player.withExp (player.data.exp - required + exp)).levelUp inventory >>= fun player' =>
        if maxLevel ≤ player'.data.level then .ok (player'.withExp 0)
        else player'.requiredExp >>= player'.levelUps inventory := by
  have hlt : required < (player.withExp (player.data.exp + exp)).data.exp := by
    rw [withExp_exp, UInt64.lt_iff_toNat_lt, add_fits hfit]
    rw [UInt64.lt_iff_toNat_lt] at h
    omega
  have hcomm : player.data.exp + exp - required = player.data.exp - required + exp := by grind
  rw [levelUps_of_lt hlt, withExp_withExp, withExp_exp, hcomm]

/-- Experience that is there before the loop or comes after it makes no difference. -/
theorem levelUps_add {exp : UInt64} (hlevel : player.data.level < maxLevel)
    (hreq : player.requiredExp = .ok required)
    (hfit : player.data.exp.toNat + exp.toNat < 2 ^ 64) :
    (player.levelUps inventory required >>= fun player' => gainExp inventory player' exp) =
      (player.withExp (player.data.exp + exp)).levelUps inventory required := by
  induction player, required using levelUps.induct inventory with
  | case1 player required hlt fault hup =>
      have hup' := levelUp_withExp_error hup (player.data.exp - required + exp)
      rw [withExp_withExp] at hup'
      rw [levelUps_of_lt hlt, levelUps_withExp_of_lt hlt hfit, hup, hup']
      rfl
  | case2 player required hlt player' hup hmax =>
      have hup' := levelUp_withExp hup (player.data.exp - required + exp)
      rw [withExp_withExp] at hup'
      rw [levelUps_of_lt hlt, levelUps_withExp_of_lt hlt hfit, hup, hup']
      simp only [ok_bind, withExp_level, hmax, ↓reduceIte, gainExp, withExp_withExp]
  | case3 player required hlt player' hup hmax fault htable =>
      have hup' := levelUp_withExp hup (player.data.exp - required + exp)
      rw [withExp_withExp] at hup'
      rw [levelUps_of_lt hlt, levelUps_withExp_of_lt hlt hfit, hup, hup']
      simp only [ok_bind, withExp_level, hmax, ↓reduceIte, htable]
      rw [withExp_requiredExp, htable]
      rfl
  | case4 player required hlt player' hup hmax required' htable ih =>
      have hup' := levelUp_withExp hup (player.data.exp - required + exp)
      have hexp : player'.data.exp = player.data.exp - required := levelUp_exp hup
      rw [withExp_withExp] at hup'
      rw [levelUps_of_lt hlt, levelUps_withExp_of_lt hlt hfit, hup, hup']
      simp only [ok_bind, withExp_level, hmax, ↓reduceIte, htable]
      rw [withExp_requiredExp, htable, ok_bind]
      rw [ih (UInt8.not_le.1 hmax) htable, hexp]
      rw [hexp, UInt64.toNat_sub_of_le _ _ (UInt64.le_of_lt hlt)]
      omega
  | case5 player required hle =>
      rw [levelUps_of_le (UInt64.not_lt.1 hle), ok_bind, gainExp,
        if_neg (UInt8.not_le.2 hlevel), hreq, ok_bind]

theorem level_succ {level : UInt8} (h : level < maxLevel) :
    (level + 1).toNat = level.toNat + 1 := by
  have hlt : level.toNat < 100 := UInt8.lt_iff_toNat_lt.1 h
  rw [UInt8.toNat_add, UInt8.toNat_one]
  omega

/-- Where the loop ends: at the last level, or with less than the next level requires, and then what
    was taken off and what is left are what there was. -/
theorem levelUps_ok {last : Player} (hlevel : player.data.level < maxLevel)
    (hreq : player.requiredExp = .ok required)
    (h : player.levelUps inventory required = .ok last) :
    last.data.level = maxLevel ∨
      last.data.level < maxLevel ∧ player.data.level.toNat ≤ last.data.level.toNat ∧
        last.data.exp.toNat ≤ need last.data.level.toNat ∧
        player.data.exp.toNat = last.data.exp.toNat +
          ∑ level ∈ Finset.Ico player.data.level.toNat last.data.level.toNat, need level := by
  induction player, required using levelUps.induct inventory with
  | case1 player required hlt fault hup =>
      rw [levelUps_of_lt hlt, hup] at h
      cases h
  | case2 player required hlt player' hup hmax =>
      have hup' := levelUp_level inventory hup
      rw [withExp_level] at hup'
      simp only [levelUps_of_lt hlt, hup, ok_bind, hmax, ↓reduceIte, Except.ok.injEq] at h
      subst h
      left
      apply UInt8.le_antisymm _ hmax
      rw [hup', UInt8.le_iff_toNat_le, level_succ hlevel]
      exact UInt8.lt_iff_toNat_lt.1 hlevel
  | case3 player required hlt player' hup hmax fault htable =>
      simp only [levelUps_of_lt hlt, hup, ok_bind, hmax, ↓reduceIte, htable, error_bind] at h
      cases h
  | case4 player required hlt player' hup hmax required' htable ih =>
      simp only [levelUps_of_lt hlt, hup, ok_bind, hmax, ↓reduceIte, htable] at h
      have hup' := levelUp_level inventory hup
      rw [withExp_level] at hup'
      have hexp : player'.data.exp = player.data.exp - required := levelUp_exp hup
      rcases ih (UInt8.not_le.1 hmax) htable h with hlast | ⟨hlast, hle, hneed, hsum⟩
      · exact .inl hlast
      · rw [hup', level_succ hlevel] at hle hsum
        rw [hexp, UInt64.toNat_sub_of_le _ _ (UInt64.le_of_lt hlt)] at hsum
        refine .inr ⟨hlast, by omega, hneed, ?_⟩
        rw [Finset.sum_eq_sum_Ico_succ_bot (by omega : player.data.level.toNat < _),
          ← requiredExp_eq hreq]
        have hreqle := UInt64.lt_iff_toNat_lt.1 hlt
        omega
  | case5 player required hle =>
      rw [levelUps_of_le (UInt64.not_lt.1 hle), Except.ok.injEq] at h
      subst h
      refine .inr ⟨hlevel, le_refl _, ?_, by simp⟩
      rw [← requiredExp_eq hreq]
      exact UInt64.le_iff_toNat_le.1 (UInt64.not_lt.1 hle)

/-- The loop reads no table out of its range, but for a class that has no entry. -/
theorem levelUps_eq_error {fault : Fault} (h : player.levelUps inventory required = .error fault) :
    fault = .classOutOfRange ∧ ¬ player.data.playerClass < classNum := by
  induction player, required using levelUps.induct inventory with
  | case1 player required hlt f hup =>
      rw [levelUps_of_lt hlt, hup] at h
      cases h
      refine ⟨levelUp_eq_error hup, fun hclass => ?_⟩
      obtain ⟨_, hok⟩ := levelUp_of_lt inventory
        (show (player.withExp (player.data.exp - required)).data.playerClass < classNum from hclass)
      cases hup.symm.trans hok
  | case2 player required hlt player' hup hmax =>
      simp only [levelUps_of_lt hlt, hup, ok_bind, hmax, ↓reduceIte] at h
      cases h
  | case3 player required hlt player' hup hmax fault htable =>
      obtain ⟨required', hok⟩ := requiredExp_of_lt (UInt8.not_le.1 hmax)
      cases htable.symm.trans hok
  | case4 player required hlt player' hup hmax required' htable ih =>
      simp only [levelUps_of_lt hlt, hup, ok_bind, hmax, ↓reduceIte, htable] at h
      rw [← withExp_playerClass (player.data.exp - required), ← levelUp_playerClass hup]
      exact ih h
  | case5 player required hle =>
      rw [levelUps_of_le (UInt64.not_lt.1 hle)] at h
      cases h

/-! ## Amounts -/

theorem toNat_toUInt64_of_pos {amount : Int64} (h : 0 < amount) :
    (amount.toUInt64.toNat : Int) = amount.toInt := by
  have hpos : 0 < amount.toInt := Int64.lt_iff_toInt_lt.1 h
  rw [Int64.toNat_toUInt64_of_le (Int64.le_of_lt h), Int64.toNatClampNeg]
  omega

theorem toInt_add_of_fits {a b : Int64} (ha : 0 < a) (hb : 0 < b) (hfit : a.toInt + b.toInt < 2 ^ 63) :
    (a + b).toInt = a.toInt + b.toInt := by
  have ha' : 0 < a.toInt := Int64.lt_iff_toInt_lt.1 ha
  have hb' : 0 < b.toInt := Int64.lt_iff_toInt_lt.1 hb
  rw [Int64.toInt_add]
  exact Int.bmod_eq_of_le (by omega) (by omega)

/-- Experience in two parts is the experience at once. -/
theorem gainExp_gainExp {exp exp' : UInt64}
    (hfit : player.data.exp.toNat + exp.toNat + exp'.toNat < 2 ^ 64) :
    (gainExp inventory player exp >>= fun player' => gainExp inventory player' exp') =
      gainExp inventory player (exp + exp') := by
  by_cases hmax : maxLevel ≤ player.data.level
  · simp only [gainExp, hmax, ↓reduceIte, ok_bind]
  · obtain ⟨required, hreq⟩ := requiredExp_of_lt (UInt8.not_le.1 hmax)
    have hgain : ∀ x, gainExp inventory player x =
        (player.withExp (player.data.exp + x)).levelUps inventory required := by
      intro x
      simp only [gainExp, hmax, ↓reduceIte, hreq, ok_bind]
    have hadd : player.data.exp.toNat + exp.toNat < 2 ^ 64 := by omega
    rw [hgain, hgain, ← UInt64.add_assoc]
    refine levelUps_add (UInt8.not_le.1 hmax) hreq ?_
    rw [withExp_exp, add_fits hadd]
    exact hfit

/-- How a player stands who has got an amount of experience. -/
structure Gained (player : Player) (amount : Int64) (last : Player) : Prop where
  level : last.data.level ≤ maxLevel ∨ last.data.level = player.data.level
  exp : last.data.level < maxLevel → last.data.exp.toNat ≤ need last.data.level.toNat
  total : last.data.level < maxLevel →
    player.data.exp.toNat + amount.toInt = (last.data.exp.toNat : Int) +
      ∑ level ∈ Finset.Ico player.data.level.toNat last.data.level.toNat, need level

theorem gained_of_updateExp {amount : Int64} {last : Player} (hpos : 0 < amount)
    (hfit : player.data.exp.toNat + amount.toInt < 2 ^ 63)
    (h : player.updateExp inventory amount = .ok last) : Gained player amount last := by
  have hamount := toNat_toUInt64_of_pos hpos
  rw [updateExp_of_pos hpos, gainExp] at h
  split at h
  · next hmax =>
      cases h
      exact ⟨.inr rfl, fun hlt => absurd hmax (UInt8.not_le.2 hlt),
        fun hlt => absurd hmax (UInt8.not_le.2 hlt)⟩
  · next hmax =>
      obtain ⟨required, hreq, h⟩ := bind_eq_ok.1 h
      have hadd : player.data.exp.toNat + amount.toUInt64.toNat < 2 ^ 64 := by omega
      have hbelow : (player.withExp (player.data.exp + amount.toUInt64)).data.level < maxLevel :=
        UInt8.not_le.1 hmax
      rcases levelUps_ok hbelow hreq h with hlast | ⟨hlt, hle, hneed, hsum⟩
      · refine ⟨.inl (UInt8.le_of_eq hlast), fun hlt => ?_, fun hlt => ?_⟩
        · exact absurd hlt (hlast ▸ UInt8.lt_irrefl _)
        · exact absurd hlt (hlast ▸ UInt8.lt_irrefl _)
      · refine ⟨.inl (UInt8.le_of_lt hlt), fun _ => hneed, fun _ => ?_⟩
        rw [withExp_exp, add_fits hadd, withExp_level] at hsum
        rw [← hamount]
        exact_mod_cast hsum

theorem updateExp_eq_error {amount : Int64} {fault : Fault} (hpos : 0 < amount)
    (h : player.updateExp inventory amount = .error fault) :
    fault = .classOutOfRange ∧ ¬ player.data.playerClass < classNum := by
  rw [updateExp_of_pos hpos, gainExp] at h
  split at h
  · cases h
  · next hmax =>
      obtain ⟨required, hreq⟩ := requiredExp_of_lt (UInt8.not_le.1 hmax)
      rw [hreq, ok_bind] at h
      have hloop := levelUps_eq_error h
      exact hloop

/-- Experience that is given in two amounts leaves the player as the experience given at once does;
    and after an amount the level is in its range, less experience is left than the level requires
    and none was lost on the way, unless the last level was reached. Only for a class without an
    entry in `g_denoHP` is a table read out of its range. -/
theorem updateExp_amounts (inventory : InventoryProperty) (player : Player) (a b : Int64)
    (ha : 0 < a) (hb : 0 < b) (hfit : player.data.exp.toNat + a.toInt + b.toInt < 2 ^ 63) :
    (player.updateExp inventory a >>= fun player' => player'.updateExp inventory b) =
      player.updateExp inventory (a + b) ∧
    ∀ amount ∈ [a, a + b],
      (∀ last, player.updateExp inventory amount = .ok last → Gained player amount last) ∧
      (∀ fault, player.updateExp inventory amount = .error fault →
        fault = .classOutOfRange ∧ ¬ player.data.playerClass < classNum) := by
  have ha' : 0 < a.toInt := Int64.lt_iff_toInt_lt.1 ha
  have hb' : 0 < b.toInt := Int64.lt_iff_toInt_lt.1 hb
  have hsum : (a + b).toInt = a.toInt + b.toInt := toInt_add_of_fits ha hb (by omega)
  have hab : 0 < a + b := by
    rw [Int64.lt_iff_toInt_lt, hsum, Int64.toInt_zero]
    omega
  constructor
  · have hb'' : (fun player' : Player => player'.updateExp inventory b) =
        fun player' => gainExp inventory player' b.toUInt64 :=
      funext fun _ => updateExp_of_pos hb
    have hanat := toNat_toUInt64_of_pos ha
    have hbnat := toNat_toUInt64_of_pos hb
    rw [updateExp_of_pos ha, updateExp_of_pos hab, hb'', gainExp_gainExp (by omega),
      Int64.toUInt64_add]
  · intro amount hamount
    have hpos : 0 < amount ∧ amount.toInt ≤ a.toInt + b.toInt := by
      rcases List.mem_pair.1 hamount with rfl | rfl
      · exact ⟨ha, by omega⟩
      · exact ⟨hab, by omega⟩
    exact ⟨fun last h => gained_of_updateExp hpos.1 (by omega) h,
      fun fault h => updateExp_eq_error hpos.1 h⟩

/-- A knight of the first level. -/
def novice : Player where
  uid := 0
  name := []
  x := 0
  y := 0
  z := 0
  map := 0
  curHp := 142
  curMp := 155
  data :=
    { accountId := 0, playerId := 0, playerClass := 0, job := 1, level := 1, map := 0,
      strength := 18, health := 16, inteligence := 8, wisdom := 8, dexterity := 10, curHp := 142,
      curMp := 155, exp := 0, puPoint := 0, suPoint := 0, contribute := 0, rage := 0, z := 0,
      face := 0, hair := 0 }

theorem updateExp_amounts_novice :
    ∃ last, (novice.updateExp ⟨0, 0, 0, 0⟩ 5 >>= fun player' => player'.updateExp ⟨0, 0, 0, 0⟩ 7) =
        .ok last ∧
      Gained novice 12 last := by
  obtain ⟨hsame, hamounts⟩ :=
    updateExp_amounts ⟨0, 0, 0, 0⟩ novice 5 7 (by decide) (by decide) (by decide)
  obtain ⟨hgained, hfault⟩ := hamounts 12 (by decide)
  cases hlast : novice.updateExp ⟨0, 0, 0, 0⟩ 12 with
  | ok last => exact ⟨last, hsame.trans hlast, hgained last hlast⟩
  | error fault => exact absurd (by decide) (hfault fault hlast).2

end Player

end Bango.Characters
