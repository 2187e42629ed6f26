import Mathlib.Algebra.BigOperators.Intervals
import Mathlib.Algebra.BigOperators.Fin
import Mathlib.Algebra.Order.BigOperators.Group.Finset
import Mathlib.Tactic.FinCases
import Bango.Characters.Stats
import Bango.Characters.Proofs.Experience

set_option autoImplicit false

/-! # The price of stat points

`FIND_NEED_PU` adds up the prices of consecutive points (`addNeedPu_eq`), so what a request costs is a
sum over the points it buys. Requests one after the other buy ranges that join, and what a run costs
depends on where the stats began and where they ended only (`price_of_run`). -/

namespace Bango.Characters

open Bango.Lib

/-! ## Sums over a table -/

/-- The price of the point after `i`. -/
def price (table : List UInt8) (i : Nat) : Nat := (table.getD i 0).toNat

/-- The tables are as long as a stat can become, and no point costs more than eight. -/
structure IsTable (table : List UInt8) : Prop where
  length : table.length = maxStatDistributed
  price_le : ∀ i, price table i ≤ 8

theorem price_le_of_forall {table : List UInt8} {bound : UInt8} (h : ∀ p ∈ table, p ≤ bound)
    (i : Nat) : price table i ≤ bound.toNat := by
  rw [price, List.getD_eq_getElem?_getD]
  cases hi : table[i]? with
  | none => exact Nat.zero_le _
  | some p => exact UInt8.le_iff_toNat_le.1 (h p (List.mem_of_getElem? hi))

theorem isTable_needPu : IsTable needPu := by
  have hlength : needPu.length = maxStatDistributed := by
    simp only [needPu, List.length_append, List.length_replicate, maxStatDistributed]
  have hle : ∀ p ∈ needPu, p ≤ 8 := by
    simp only [needPu, List.forall_mem_append, List.forall_mem_replicate]
    decide
  exact ⟨hlength, price_le_of_forall hle⟩

theorem isTable_needPuEx : IsTable needPuEx := by
  have hlength : needPuEx.length = maxStatDistributed := by
    simp only [needPuEx, List.length_append, List.length_replicate, maxStatDistributed]
  have hle : ∀ p ∈ needPuEx, p ≤ 8 := by
    simp only [needPuEx, List.forall_mem_append, List.forall_mem_replicate]
    decide
  exact ⟨hlength, price_le_of_forall hle⟩

theorem addNeedPu_eq {table : List UInt8} (htable : IsTable table) {cur : UInt16} {add : Nat}
    (h : cur.toNat + add ≤ maxStatDistributed) (sum : UInt16) :
    addNeedPu table sum cur add =
      .ok (sum + UInt16.ofNat (∑ i ∈ Finset.Ico cur.toNat (cur.toNat + add), price table i)) := by
  induction add generalizing cur sum with
  | zero => simp [addNeedPu]
  | succ add ih =>
      have hlt : cur.toNat < table.length := by
        rw [htable.length]
        omega
      have hnext : (cur + 1).toNat = cur.toNat + 1 := by
        rw [maxStatDistributed] at h
        rw [UInt16.toNat_add, UInt16.toNat_one]
        omega
      have hprice : UInt16.ofNat (price table cur.toNat) = table[cur.toNat].toUInt16 := by
        rw [price, List.getD_eq_getElem?_getD, List.getElem?_eq_getElem hlt, Option.getD_some]
        simp
      rw [addNeedPu, tableAt_of_lt hlt, ok_bind, ih (by omega), hnext,
        Finset.sum_eq_sum_Ico_succ_bot (by omega : cur.toNat < cur.toNat + (add + 1)),
        UInt16.ofNat_add, hprice, UInt16.add_assoc, Nat.add_assoc, Nat.add_comm 1 add]

theorem sum_price_le {table : List UInt8} (htable : IsTable table) {cur add : Nat}
    (h : cur + add ≤ maxStatDistributed) :
    ∑ i ∈ Finset.Ico cur (cur + add), price table i ≤ 2000 := by
  have hsum := Finset.sum_le_card_nsmul (Finset.Ico cur (cur + add)) (price table) 8
    fun i _ => htable.price_le i
  rw [Nat.card_Ico, Nat.add_sub_cancel_left, smul_eq_mul] at hsum
  rw [maxStatDistributed] at h
  exact le_trans hsum (by omega)

namespace PlayerInfo

variable (data : PlayerInfo) (stats : Vector UInt8 5)

/-- The base stats, from `P_STR` to `P_DEX`. -/
def base (stat : Stat) : UInt16 :=
  #v[data.strength, data.health, data.inteligence, data.wisdom, data.dexterity][stat]

/-- The table the points of a stat are bought from. -/
def needTable (stat : Stat) : List UInt8 :=
  if stat = pStr ∧ data.playerClass = pcKnight ∨
      stat = pInt ∧ (data.playerClass = pcMage ∨ data.playerClass = pcShaman) ∨
      stat = pDex ∧ (data.playerClass = pcArcher ∨ data.playerClass = pcThief) then needPuEx
  else needPu

theorem needTable_pStr :
    data.needTable pStr = if data.playerClass = pcKnight then needPuEx else needPu := by
  simp [needTable, pStr, pInt, pDex]

theorem needTable_pInt :
    data.needTable pInt =
      if data.playerClass = pcMage ∨ data.playerClass = pcShaman then needPuEx else needPu := by
  simp [needTable, pStr, pInt, pDex]

theorem needTable_pDex :
    data.needTable pDex =
      if data.playerClass = pcArcher ∨ data.playerClass = pcThief then needPuEx else needPu := by
  simp [needTable, pStr, pInt, pDex]

theorem isTable_needTable (stat : Stat) : IsTable (data.needTable stat) := by
  unfold needTable
  split
  · exact isTable_needPuEx
  · exact isTable_needPu

/-- What the points of a stat between two values cost. -/
def cost (stat : Stat) (first last : Nat) : Nat :=
  ∑ i ∈ Finset.Ico first last, price (data.needTable stat) i

theorem cost_add_cost {stat : Stat} {first middle last : Nat} (h : first ≤ middle)
    (h' : middle ≤ last) :
    data.cost stat first middle + data.cost stat middle last = data.cost stat first last :=
  Finset.sum_Ico_consecutive _ h h'

/-- The stats and the raises stay in the range of the tables. -/
def InRange : Prop := ∀ stat, (data.base stat).toNat + stats[stat].toNat ≤ maxStatDistributed

/-- What a request costs. -/
def costs : Nat :=
  ∑ stat : Stat, data.cost stat (data.base stat).toNat ((data.base stat).toNat + stats[stat].toNat)

variable {data stats}

theorem addNeedPu_needTable (h : data.InRange stats) (stat : Stat) :
    addNeedPu (data.needTable stat) 0 (data.base stat) stats[stat].toNat =
      .ok (UInt16.ofNat (data.cost stat (data.base stat).toNat
        ((data.base stat).toNat + stats[stat].toNat))) := by
  rw [addNeedPu_eq (data.isTable_needTable stat) (h stat), UInt16.zero_add]
  rfl

/-- Which of the two tables is used, for a stat that is cheaper in some classes. -/
theorem findNeedPu_ite {cheaper : Prop} [Decidable cheaper] (cur : UInt16) (add : UInt8) :
    (if cheaper then findNeedPuEx cur add else findNeedPu cur add) =
      addNeedPu (if cheaper then needPuEx else needPu) 0 cur add.toNat := by
  split_ifs
  · rfl
  · rfl

/-- `GetReqPU` is the price of the points that are bought. -/
theorem getReqPu_eq (h : data.InRange stats) :
    data.getReqPu stats = .ok (UInt16.ofNat (data.costs stats)) := by
  have hstr : (if data.playerClass = pcKnight then findNeedPuEx data.strength stats[pStr]
      else findNeedPu data.strength stats[pStr]) =
      addNeedPu (data.needTable pStr) 0 (data.base pStr) stats[pStr].toNat := by
    rw [needTable_pStr]
    exact findNeedPu_ite _ _
  have hint : (if data.playerClass = pcMage ∨ data.playerClass = pcShaman then
      findNeedPuEx data.inteligence stats[pInt]
      else findNeedPu data.inteligence stats[pInt]) =
      addNeedPu (data.needTable pInt) 0 (data.base pInt) stats[pInt].toNat := by
    rw [needTable_pInt]
    exact findNeedPu_ite _ _
  have hdex : (if data.playerClass = pcArcher ∨ data.playerClass = pcThief then
      findNeedPuEx data.dexterity stats[pDex]
      else findNeedPu data.dexterity stats[pDex]) =
      addNeedPu (data.needTable pDex) 0 (data.base pDex) stats[pDex].toNat := by
    rw [needTable_pDex]
    exact findNeedPu_ite _ _
  have hhth : findNeedPu data.health stats[pHth] =
      addNeedPu (data.needTable pHth) 0 (data.base pHth) stats[pHth].toNat := rfl
  have hwis : findNeedPu data.wisdom stats[pWis] =
      addNeedPu (data.needTable pWis) 0 (data.base pWis) stats[pWis].toNat := rfl
  simp only [getReqPu, hstr, hint, hdex, hhth, hwis, addNeedPu_needTable h, ok_bind]
  rw [← UInt16.ofNat_add, ← UInt16.ofNat_add, ← UInt16.ofNat_add, ← UInt16.ofNat_add]
  refine congrArg (fun sum => Except.ok (UInt16.ofNat sum)) ?_
  rw [costs, Fin.sum_univ_five]
  simp only [pStr, pInt, pDex, pHth, pWis]
  omega

theorem costs_lt (h : data.InRange stats) : data.costs stats < 2 ^ 16 := by
  have hle : data.costs stats ≤ ∑ _stat : Stat, 2000 :=
    Finset.sum_le_sum fun stat _ => sum_price_le (data.isTable_needTable stat) (h stat)
  rw [Finset.sum_const, Finset.card_univ, Fintype.card_fin, smul_eq_mul] at hle
  omega

/-! ## A request -/

/-- What an applied request does to a player. -/
structure Applied (data : PlayerInfo) (stats : Vector UInt8 5) (data' : PlayerInfo) : Prop where
  base : ∀ stat, (data'.base stat).toNat = (data.base stat).toNat + stats[stat].toNat
  base_le : ∀ stat, (data'.base stat).toNat ≤ maxStatDistributed
  puPoint : data'.puPoint.toNat + data.costs stats = data.puPoint.toNat
  rest : data' = { data with
    strength := data'.strength
    health := data'.health
    inteligence := data'.inteligence
    wisdom := data'.wisdom
    dexterity := data'.dexterity
    puPoint := data'.puPoint }

theorem raise_base (required : UInt16) (stat : Stat) :
    (data.raise stats required).base stat = data.base stat + stats[stat].toUInt16 := by
  fin_cases stat
  · rfl
  · rfl
  · rfl
  · rfl
  · rfl

theorem applied_raise (h : data.InRange stats)
    (hpoints : UInt16.ofNat (data.costs stats) ≤ data.puPoint) :
    Applied data stats (data.raise stats (UInt16.ofNat (data.costs stats))) := by
  have hbase : ∀ stat, ((data.raise stats (UInt16.ofNat (data.costs stats))).base stat).toNat =
      (data.base stat).toNat + stats[stat].toNat := by
    intro stat
    have hle := h stat
    rw [maxStatDistributed] at hle
    rw [raise_base, UInt16.toNat_add, UInt8.toNat_toUInt16]
    omega
  have hcosts : (UInt16.ofNat (data.costs stats)).toNat = data.costs stats :=
    UInt16.toNat_ofNat_of_lt (costs_lt h)
  refine ⟨hbase, fun stat => (hbase stat).trans_le (h stat), ?_, rfl⟩
  have hle := UInt16.le_iff_toNat_le.1 hpoints
  rw [raise, UInt16.toNat_sub_of_le _ _ hpoints, hcosts]
  omega

/-- A request is applied as a whole or changes nothing. -/
theorem onUpdateProperty_spec (data : PlayerInfo) (stats : Vector UInt8 5) :
    ∃ data', data.onUpdateProperty stats = .ok data' ∧
      (data' = data ∨ Applied data stats data') := by
  unfold onUpdateProperty
  split_ifs with hstr hhth hint hwis hdex
  · exact ⟨data, rfl, .inl rfl⟩
  · exact ⟨data, rfl, .inl rfl⟩
  · exact ⟨data, rfl, .inl rfl⟩
  · exact ⟨data, rfl, .inl rfl⟩
  · exact ⟨data, rfl, .inl rfl⟩
  · have hrange : data.InRange stats := by
      intro stat
      rw [Nat.add_comm]
      fin_cases stat
      · exact not_lt.1 hstr
      · exact not_lt.1 hhth
      · exact not_lt.1 hint
      · exact not_lt.1 hwis
      · exact not_lt.1 hdex
    rw [getReqPu_eq hrange, ok_bind]
    split_ifs with hpoints
    · exact ⟨data, rfl, .inl rfl⟩
    · exact ⟨_, rfl, .inr (applied_raise hrange (UInt16.not_lt.1 hpoints))⟩

/-! ## Sequences of requests -/

/-- Requests one after the other. -/
abbrev requests (data : PlayerInfo) (stats : List (Vector UInt8 5)) : Except Fault PlayerInfo :=
  run onUpdateProperty data stats

/-- What the applied ones of the requests add to a stat. -/
def raised (data : PlayerInfo) : List (Vector UInt8 5) → Stat → Nat
  | [], _ => 0
  | stats :: rest, stat =>
    match data.onUpdateProperty stats with
    | .ok data' => (if data' = data then 0 else stats[stat].toNat) + raised data' rest stat
    | .error _ => 0

theorem raised_cons {data' : PlayerInfo} (h : data.onUpdateProperty stats = .ok data')
    (rest : List (Vector UInt8 5)) (stat : Stat) :
    data.raised (stats :: rest) stat =
      (if data' = data then 0 else stats[stat].toNat) + data'.raised rest stat := by
  rw [raised, h]

theorem requests_ok (data : PlayerInfo) (stats : List (Vector UInt8 5)) :
    ∃ last, data.requests stats = .ok last := by
  induction stats generalizing data with
  | nil => exact ⟨data, rfl⟩
  | cons request rest ih =>
      obtain ⟨data', hstep, _⟩ := onUpdateProperty_spec data request
      obtain ⟨last, hlast⟩ := ih data'
      refine ⟨last, ?_⟩
      rw [requests, run_cons_ok rest hstep]
      exact hlast

theorem cost_congr {data' : PlayerInfo} (h : data'.playerClass = data.playerClass) :
    data'.cost = data.cost := by
  unfold cost needTable
  rw [h]

theorem Applied.playerClass {data' : PlayerInfo} (h : Applied data stats data') :
    data'.playerClass = data.playerClass := by
  rw [h.rest]

/-- A request raises the stats by its bytes when it changes anything. -/
theorem base_of_step {data' : PlayerInfo} (h : data' = data ∨ Applied data stats data')
    (stat : Stat) :
    (data'.base stat).toNat =
      (data.base stat).toNat + if data' = data then 0 else stats[stat].toNat := by
  by_cases hsame : data' = data
  · rw [if_pos hsame, hsame, Nat.add_zero]
  · rw [if_neg hsame]
    exact (h.resolve_left hsame).base stat

theorem base_of_requests {requests : List (Vector UInt8 5)} {last : PlayerInfo}
    (h : data.requests requests = .ok last) (stat : Stat) :
    (last.base stat).toNat = (data.base stat).toNat + data.raised requests stat := by
  induction requests generalizing data with
  | nil =>
      cases h
      rfl
  | cons request rest ih =>
      obtain ⟨data', hstep, happlied⟩ := onUpdateProperty_spec data request
      rw [PlayerInfo.requests, run_cons_ok rest hstep] at h
      rw [raised_cons hstep, ih h, base_of_step happlied, Nat.add_assoc]

/-- What a run costs depends on the stats it begins with and the stats it ends with only. -/
theorem price_of_run {requests : List (Vector UInt8 5)} {last : PlayerInfo}
    (h : data.requests requests = .ok last) :
    last.puPoint.toNat +
      ∑ stat : Stat, data.cost stat (data.base stat).toNat (last.base stat).toNat =
        data.puPoint.toNat := by
  induction requests generalizing data with
  | nil =>
      cases h
      simp [cost]
  | cons request rest ih =>
      obtain ⟨data', hstep, happlied⟩ := onUpdateProperty_spec data request
      rw [PlayerInfo.requests, run_cons_ok rest hstep] at h
      rcases happlied with rfl | happlied
      · exact ih h
      · have hsplit : ∑ stat : Stat, data.cost stat (data.base stat).toNat (last.base stat).toNat =
            data.costs request +
              ∑ stat : Stat, data'.cost stat (data'.base stat).toNat (last.base stat).toNat := by
          rw [costs, ← Finset.sum_add_distrib]
          refine Finset.sum_congr rfl fun stat _ => ?_
          rw [cost_congr happlied.playerClass, ← happlied.base stat, cost_add_cost]
          · rw [happlied.base stat]
            exact Nat.le_add_right _ _
          · rw [base_of_requests h stat]
            exact Nat.le_add_right _ _
        rw [hsplit, ← happlied.puPoint, ← ih h]
        omega

theorem base_le_of_requests {requests : List (Vector UInt8 5)} {last : PlayerInfo}
    (h : data.requests requests = .ok last) {stat : Stat}
    (hle : (data.base stat).toNat ≤ maxStatDistributed) :
    (last.base stat).toNat ≤ maxStatDistributed := by
  induction requests generalizing data with
  | nil =>
      cases h
      exact hle
  | cons request rest ih =>
      obtain ⟨data', hstep, happlied⟩ := onUpdateProperty_spec data request
      rw [PlayerInfo.requests, run_cons_ok rest hstep] at h
      rcases happlied with rfl | happlied
      · exact ih h hle
      · exact ih h (happlied.base_le stat)

/-- No request reads a table out of its range; it is applied as a whole, for its exact price, or
    changes nothing, and no stat gets over `MAX_STAT_DISTRIBUTED`. Sequences of requests that raise
    the stats by the same totals cost the same. -/
theorem onUpdateProperty_requests :
    (∀ data stats, ∃ data', onUpdateProperty data stats = .ok data' ∧
      (data' = data ∨ Applied data stats data')) ∧
    ∀ data stats stats', ∃ last last',
      requests data stats = .ok last ∧ requests data stats' = .ok last' ∧
      (∀ stat, (data.base stat).toNat ≤ maxStatDistributed →
        (last.base stat).toNat ≤ maxStatDistributed) ∧
      ((∀ stat, data.raised stats stat = data.raised stats' stat) →
        last.puPoint = last'.puPoint) := by
  refine ⟨onUpdateProperty_spec, fun data stats stats' => ?_⟩
  obtain ⟨last, h⟩ := requests_ok data stats
  obtain ⟨last', h'⟩ := requests_ok data stats'
  refine ⟨last, last', h, h', fun _ => base_le_of_requests h, fun htotals => ?_⟩
  have hbase : ∀ stat, (last.base stat).toNat = (last'.base stat).toNat := by
    intro stat
    rw [base_of_requests h, base_of_requests h', htotals]
  have hprice := price_of_run h
  have hprice' := price_of_run h'
  simp only [hbase] at hprice
  apply UInt16.toNat.inj
  omega

end PlayerInfo

end Bango.Characters
