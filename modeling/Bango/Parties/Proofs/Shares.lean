import Mathlib.Data.Finset.Card
import Bango.Monsters.Proofs.Hostility
import Bango.Parties.Proofs.Encoding
import Bango.Parties.Shares

set_option autoImplicit false

/-! # Parties and their ids

`DistributeExp` knows a party by its id alone. The first party of all has the id that stands for none,
and after 2^32 parties the ids come again; whenever the attackers' parties are clear of both, the
entries of `party_container` are those of the parties. -/

namespace Bango.Parties.System

open Bango.Lib Bango.Monsters

variable {s : System} {hostilityMap : List (UInt32 × UInt64)} {total : UInt64} {exp : UInt32}

theorem ofNat_eq_iff {place other : Nat} :
    UInt32.ofNat place = UInt32.ofNat other ↔ place % UInt32.size = other % UInt32.size := by
  rw [← UInt32.toNat_inj, UInt32.toNat_ofNat', UInt32.toNat_ofNat']

theorem ofNat_eq_zero_iff {place : Nat} : UInt32.ofNat place = 0 ↔ place % UInt32.size = 0 := by
  rw [← UInt32.toNat_inj, UInt32.toNat_ofNat']
  exact Iff.rfl

/-! ## One distribution -/

/-- The damages that go to `party_container`, with the ids they go to. -/
def partyDamages (getPartyId : UInt32 → Option UInt32) (hostilityMap : List (UInt32 × UInt64)) :
    List (UInt32 × UInt64) :=
  hostilityMap.filterMap fun a =>
    match getPartyId a.1 with
    | none => none
    | some partyId => if partyId ≠ 0 then some (partyId, a.2) else none

theorem distribution_partyContainer (getPartyId : UInt32 → Option UInt32) :
    (distribution hostilityMap total exp getPartyId).partyContainer =
      gather (partyDamages getPartyId hostilityMap) := by
  suffices h : ∀ d : Distribution,
      (hostilityMap.foldl (fun d a => d.add total exp getPartyId a) d).partyContainer =
        (partyDamages getPartyId hostilityMap).foldl (fun m x => addAt x.1 x.2 m)
          d.partyContainer by
    exact h ⟨[], []⟩
  induction hostilityMap with
  | nil => intro d; rfl
  | cons a rest ih =>
      intro d
      rw [List.foldl_cons, ih]
      unfold partyDamages Distribution.add
      rw [List.filterMap_cons]
      cases getPartyId a.1 with
      | none => rfl
      | some partyId =>
          dsimp only
          split_ifs
          · rfl
          · rfl

/-- A player's party is found by the id of the one it points to. -/
theorem Encoded.getPartyId_eq (h : s.Encoded) {id : UInt32} {place : Nat}
    (hparty : (s.players id).party = some place) :
    s.getPartyId id = some (UInt32.ofNat place) := by
  have hworld : id ∈ s.inWorld := h.inWorld id (by rw [HasParty, hparty]; exact Option.some_ne_none _)
  rw [getPartyId, if_pos hworld, h.partyId_eq, hparty]
  rfl

theorem Encoded.getPartyId_of_none (h : s.Encoded) {id : UInt32} (hparty : ¬ s.HasParty id)
    (hworld : id ∈ s.inWorld) : s.getPartyId id = some 0 := by
  rw [getPartyId, if_pos hworld, h.partyId_eq, not_not.1 hparty]
  rfl

/-- The ids of `party_container` are those of parties. -/
theorem Encoded.exists_party (h : s.Encoded) {id partyId : UInt32}
    (hid : s.getPartyId id = some partyId) (hne : partyId ≠ 0) :
    ∃ place, (s.players id).party = some place ∧ partyId = UInt32.ofNat place := by
  by_cases hparty : s.HasParty id
  · obtain ⟨place, hplace⟩ := Option.ne_none_iff_exists'.1 hparty
    rw [h.getPartyId_eq hplace] at hid
    exact ⟨place, hplace, (Option.some.inj hid).symm⟩
  · unfold getPartyId at hid
    split_ifs at hid
    rw [h.partyId_eq, not_not.1 hparty] at hid
    exact absurd (Option.some.inj hid).symm hne

theorem mem_keys_partyDamages (h : s.Encoded) {key : UInt32} :
    key ∈ (partyDamages s.getPartyId hostilityMap).map Prod.fst ↔
      key ≠ 0 ∧ ∃ a ∈ hostilityMap, ∃ place, (s.players a.1).party = some place ∧
        key = UInt32.ofNat place := by
  unfold partyDamages
  rw [List.map_filterMap, List.mem_filterMap]
  constructor
  · rintro ⟨a, ha, hkey⟩
    cases hid : s.getPartyId a.1 with
    | none => simp [hid] at hkey
    | some partyId =>
        by_cases hne : partyId = 0
        · simp [hid, hne] at hkey
        · simp only [hid, ne_eq, hne, not_false_eq_true, if_true, Option.map_some,
            Option.some.injEq] at hkey
          obtain ⟨place, hparty, heq⟩ := h.exists_party hid hne
          exact ⟨hkey ▸ hne, a, ha, place, hparty, hkey ▸ heq⟩
  · rintro ⟨hne, a, ha, place, hparty, rfl⟩
    refine ⟨a, ha, ?_⟩
    simp [h.getPartyId_eq hparty, hne]

/-- The damages under the id of a party are those of its members, when no other party of an attacker
    has the id. -/
theorem Encoded.filter_partyDamages (h : s.Encoded) {place : Nat} (hfirst : place % UInt32.size ≠ 0)
    (hother : ∀ a ∈ hostilityMap, ∀ other, (s.players a.1).party = some other →
      place % UInt32.size = other % UInt32.size → place = other) :
    ((partyDamages s.getPartyId hostilityMap).filter fun x => x.1 = UInt32.ofNat place).map
        Prod.snd =
      (hostilityMap.filter fun a => (s.players a.1).party = some place).map Prod.snd := by
  have hzero : UInt32.ofNat place ≠ 0 := mt ofNat_eq_zero_iff.1 hfirst
  induction hostilityMap with
  | nil => rfl
  | cons a rest ih =>
      have hrest := ih fun b hb => hother b (List.mem_cons_of_mem a hb)
      have ha := hother a List.mem_cons_self
      unfold partyDamages at hrest ⊢
      rw [List.filterMap_cons, List.filter_cons]
      cases hid : s.getPartyId a.1 with
      | none =>
          have hparty : (s.players a.1).party ≠ some place := fun hparty => by
            rw [h.getPartyId_eq hparty] at hid
            cases hid
          simpa [hparty] using hrest
      | some partyId =>
          by_cases hnone : partyId = 0
          · have hparty : (s.players a.1).party ≠ some place := fun hparty => by
              rw [h.getPartyId_eq hparty, Option.some.injEq] at hid
              exact hzero (hid.trans hnone)
            simpa [hnone, hparty] using hrest
          · obtain ⟨other, hparty, rfl⟩ := h.exists_party hid hnone
            by_cases hplace : other = place
            · simpa [hnone, hparty, hplace, hzero] using hrest
            · have hne : UInt32.ofNat other ≠ UInt32.ofNat place := fun heq =>
                hplace (ha other hparty (ofNat_eq_iff.1 heq).symm).symm
              simpa [hnone, hparty, hplace, hne] using hrest

/-- An attacker is paid when its id of a party is 0. -/
theorem mem_solo_iff {a : UInt32 × UInt64} (ha : a ∈ hostilityMap) :
    (a.1, expShare a.2 total exp) ∈ (s.distributeExp hostilityMap total exp).solo ↔
      s.getPartyId a.1 = some 0 := by
  rw [distributeExp, distribution_solo, List.mem_map]
  constructor
  · rintro ⟨b, hb, heq⟩
    have hid : s.getPartyId b.1 = some 0 := of_decide_eq_true (List.mem_filter.1 hb).2
    rwa [(Prod.mk.inj heq).1] at hid
  · intro hid
    exact ⟨a, List.mem_filter.2 ⟨ha, decide_eq_true hid⟩, rfl⟩

theorem Encoded.paysParties (h : s.Encoded) (happart : s.ToldApart hostilityMap) :
    s.PaysParties hostilityMap total exp (s.distributeExp hostilityMap total exp) where
  solo_iff a ha hworld := by
    rw [mem_solo_iff ha]
    constructor
    · intro hid hparty
      obtain ⟨place, hplace⟩ := Option.ne_none_iff_exists'.1 hparty
      rw [h.getPartyId_eq hplace, Option.some.injEq] at hid
      exact (happart a ha place hplace).1 (ofNat_eq_zero_iff.1 hid)
    · exact fun hparty => h.getPartyId_of_none hparty hworld
  gathered := by
    refine ⟨UInt32.ofNat, fun a ha b hb place other hplace hother heq => ?_,
      fun a ha place hplace => ?_⟩
    · exact (happart a ha place hplace).2 b hb other hother (ofNat_eq_iff.1 heq)
    · obtain ⟨hfirst, hothers⟩ := happart a ha place hplace
      rw [distributeExp, distribution_partyContainer, mem_keys_gather, mem_keys_partyDamages h,
        amountAt_gather, h.filter_partyDamages hfirst hothers]
      exact ⟨⟨mt ofNat_eq_zero_iff.1 hfirst, a, ha, place, hplace, rfl⟩, rfl⟩

/-- Parties with entries of their own have ids of their own, as there are no more entries than ids. -/
theorem Encoded.toldApart (h : s.Encoded)
    (hpays : s.PaysParties hostilityMap total exp (s.distributeExp hostilityMap total exp)) :
    s.ToldApart hostilityMap := by
  obtain ⟨entryOf, hinj, hentry⟩ := hpays.gathered
  let places := (hostilityMap.filterMap fun a => (s.players a.1).party).toFinset
  have hplaces : ∀ place, place ∈ places ↔
      ∃ a ∈ hostilityMap, (s.players a.1).party = some place := by
    intro place
    rw [List.mem_toFinset, List.mem_filterMap]
  have hfirst : ∀ a ∈ hostilityMap, ∀ place, (s.players a.1).party = some place →
      place % UInt32.size ≠ 0 := by
    intro a ha place hplace hzero
    have hparty : s.HasParty a.1 := by
      rw [HasParty, hplace]
      exact Option.some_ne_none _
    have hid : s.getPartyId a.1 = some 0 := by
      rw [h.getPartyId_eq hplace, ofNat_eq_zero_iff.2 hzero]
    exact (hpays.solo_iff a ha (h.inWorld a.1 hparty)).1 ((mem_solo_iff ha).2 hid) hparty
  -- the entries are ids of attackers' parties, and there is one for each party
  have hsubset : places.image entryOf ⊆ places.image UInt32.ofNat := by
    intro key hkey
    obtain ⟨place, hplace, rfl⟩ := Finset.mem_image.1 hkey
    obtain ⟨a, ha, hparty⟩ := (hplaces place).1 hplace
    have hmem := (hentry a ha place hparty).1
    rw [distributeExp, distribution_partyContainer, mem_keys_gather, mem_keys_partyDamages h] at hmem
    obtain ⟨-, b, hb, other, hother, heq⟩ := hmem
    exact heq ▸ Finset.mem_image_of_mem _ ((hplaces other).2 ⟨b, hb, hother⟩)
  have hcard : (places.image entryOf).card = places.card := by
    refine Finset.card_image_of_injOn fun place hplace other hother heq => ?_
    obtain ⟨a, ha, hparty⟩ := (hplaces place).1 hplace
    obtain ⟨b, hb, hparty'⟩ := (hplaces other).1 hother
    exact hinj a ha b hb place other hparty hparty' heq
  have hids : (places.image UInt32.ofNat).card = places.card :=
    le_antisymm Finset.card_image_le (hcard ▸ Finset.card_le_card hsubset)
  have hinjOn := Finset.card_image_iff.1 hids
  intro a ha place hplace
  refine ⟨hfirst a ha place hplace, fun b hb other hother heq => ?_⟩
  exact hinjOn ((hplaces place).2 ⟨a, ha, hplace⟩) ((hplaces other).2 ⟨b, hb, hother⟩)
    (ofNat_eq_iff.2 heq)

/-! ## From the start of the server -/

/-- Players 1 and 2 form the first party, 3 and 4 the second. -/
def twoParties : List Event :=
  [.onStart 1, .onStart 2, .onStart 3, .onStart 4,
    .handle 1 (.onAskParty 2 true), .handle 2 (.onAskPartyAnswer true 1 true),
    .handle 3 (.onAskParty 4 true), .handle 4 (.onAskPartyAnswer true 3 true)]

/-- In every state that the handlers lead to, and for all attackers, `DistributeExp` does what it
    should if and only if the ids tell the attackers' parties apart. -/
theorem paysParties_iff {events : List Event} (hrun : run step empty events = .ok s)
    (hostilityMap : List (UInt32 × UInt64)) (total : UInt64) (exp : UInt32) :
    s.PaysParties hostilityMap total exp (s.distributeExp hostilityMap total exp) ↔
      s.ToldApart hostilityMap :=
  ⟨(run_encoded hrun).toldApart, (run_encoded hrun).paysParties⟩

/-- The second party is counted as one. -/
theorem paysParties_second : ∃ s, run step empty twoParties = .ok s ∧
    s.PaysParties [(3, 10), (4, 20)] 30 100 (s.distributeExp [(3, 10), (4, 20)] 30 100) := by
  obtain ⟨s, hrun, hthree, hfour⟩ : ∃ s, run step empty twoParties = .ok s ∧
      (s.players 3).party = some 1 ∧ (s.players 4).party = some 1 := ⟨_, rfl, rfl, rfl⟩
  have hsecond : ∀ a ∈ [((3 : UInt32), (10 : UInt64)), (4, 20)],
      (s.players a.1).party = some 1 := by simp [hthree, hfour]
  refine ⟨s, hrun, (paysParties_iff hrun _ _ _).2 fun a ha place hplace => ?_⟩
  rw [hsecond a ha] at hplace
  cases hplace
  refine ⟨by decide, fun b hb other hother _ => ?_⟩
  rw [hsecond b hb] at hother
  exact Option.some.inj hother

/-- The members of the first party are paid as if they were in none. -/
theorem not_paysParties_first : ¬ ∀ s, run step empty twoParties = .ok s →
    s.PaysParties [(1, 10)] 10 100 (s.distributeExp [(1, 10)] 10 100) := by
  intro h
  have hpays := h _ rfl
  have hencoded := run_encoded (show run step empty twoParties = .ok _ from rfl)
  have happart := hencoded.toldApart hpays
  exact (happart (1, 10) List.mem_cons_self 0 rfl).1 rfl

end Bango.Parties.System
