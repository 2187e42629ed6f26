import Bango.Characters.Proofs.Saving
import Bango.Characters.Windows
import Bango.Items.Proofs.Dressing
import Bango.Items.Proofs.Operations

set_option autoImplicit false

/-! # The properties that the client shows

A handler tells the client every property that it changes, but for those that depend on the level: a new
level changes the attack and the maximal HP and MP, and the client is told them again with the next item
that is put on or off and the next points that are distributed. -/

namespace Bango.Characters

open Bango.Lib
open Bango.Items (FullInventory Item ItemDb SpecialtyDb)

namespace Equipped

variable {s s' : Equipped} {packets more : List S2C}

/-! ## What a packet tells -/

/-- The field has the value. -/
def Right (s : Equipped) (field : Field) (v : UInt64) : Prop := s.value field = .ok v

/-- Fields that depend on the level. -/
def Field.Lagging (field : Field) : Prop :=
  field ∈ [Field.maxHp, .maxMp, .minAttack, .maxAttack]

instance : DecidablePred Field.Lagging := fun _ => inferInstanceAs (Decidable (_ ∈ _))

/-- Fields that depend neither on the level nor on hits. -/
def Field.Steady (field : Field) : Prop :=
  ¬ field.Lagging ∧ field ∉ [Field.curHp, .curMp]

instance : DecidablePred Field.Steady := fun _ => inferInstanceAs (Decidable (_ ∧ _))

/-- The properties in some packets. -/
def updates (packets : List S2C) : List (Field × UInt64) :=
  packets.flatMap fun packet =>
    match packet with
    | .property values => values
    | .skillInfo _ | .skillUp .. | .itemInfo _ | .insertItem _ | .updateItemNum .. | .putOnItem _
    | .putOffItem _ => []

/-- The fields in some packets. -/
def told (packets : List S2C) : List Field := (updates packets).map Prod.fst

@[simp]
theorem updates_nil : updates [] = [] := rfl

@[simp]
theorem updates_property (values : List (Field × UInt64)) (packets : List S2C) :
    updates (.property values :: packets) = values ++ updates packets := rfl

theorem updates_append (packets more : List S2C) :
    updates (packets ++ more) = updates packets ++ updates more := List.flatMap_append

theorem told_append (packets more : List S2C) : told (packets ++ more) = told packets ++ told more := by
  unfold told
  rw [updates_append, List.map_append]

/-- The client shows the properties that the packets tell. -/
theorem properties_receive (packets : List S2C) (w : Windows) :
    (packets.foldl Windows.receive w).properties = mirror w.properties (updates packets) := by
  induction packets generalizing w with
  | nil => rfl
  | cons packet packets ih =>
      rw [List.foldl_cons, ih]
      cases packet with
      | property values => rw [updates_property, mirror_append]; rfl
      | updateItemNum localId num reason => cases reason <;> rfl
      | _ => rfl

theorem tellsMaxHp_iff (packets : List S2C) :
    (∃ packet ∈ packets, packet.TellsMaxHp) ↔ .maxHp ∈ told packets := by
  unfold told updates
  rw [List.map_flatMap, List.mem_flatMap]
  refine exists_congr fun packet => and_congr_right fun _ => ?_
  cases packet with
  | property values => exact Iff.rfl
  | _ => exact iff_of_false id List.not_mem_nil

/-- `SendProperty` tells the right values of its fields. -/
theorem values_spec {fields : List Field} {values : List (Field × UInt64)}
    (h : s.values fields = .ok values) :
    values.map Prod.fst = fields ∧ ∀ update ∈ values, s.Right update.1 update.2 := by
  induction fields generalizing values with
  | nil =>
      cases h
      exact ⟨rfl, fun _ h => absurd h List.not_mem_nil⟩
  | cons field fields ih =>
      unfold Equipped.values at h
      rw [List.mapM_cons] at h
      obtain ⟨update, hupdate, h⟩ := bind_eq_ok.1 h
      obtain ⟨rest, hrest, h⟩ := bind_eq_ok.1 h
      obtain ⟨hfields, hright⟩ := ih hrest
      cases h
      cases hvalue : s.value field with
      | error fault =>
          rw [hvalue] at hupdate
          cases hupdate
      | ok v =>
          rw [hvalue] at hupdate
          cases hupdate
          exact ⟨congrArg (field :: ·) hfields, List.forall_mem_cons.2 ⟨hvalue, hright⟩⟩

/-! ## What a handler tells -/

/-- A handler keeps what the client shows of some fields right. The lagging ones are told as they are
    now, or they are not told and change with the level only. -/
structure Told (keys : Field → Prop) (s s' : Equipped) (packets : List S2C) : Prop where
  steady : ∀ view, Mirrors s.Right keys view →
    Mirrors s'.Right keys (mirror view (updates packets))
  lagging : (.maxHp ∈ told packets ∧
      ∀ view, Mirrors s'.Right Field.Lagging (mirror view (updates packets))) ∨
    (∀ field, field.Lagging → field ∉ told packets) ∧
      ∀ level field, field.Lagging → (s'.atLevel level).value field = (s.atLevel level).value field

/-- The packets have right values. -/
theorem mirrors_of_right {view : Field → Option UInt64} {keys : Field → Prop}
    (hright : ∀ update ∈ updates packets, s'.Right update.1 update.2)
    (h : Mirrors s.Right keys view)
    (hkept : ∀ field, keys field → field ∉ told packets → s'.value field = s.value field) :
    Mirrors s'.Right keys (mirror view (updates packets)) :=
  h.update (fun update hmem _ => hright update hmem) fun field hkey hnot _ hv =>
    (hkept field hkey hnot).trans hv

namespace Told

variable {keys : Field → Prop}

theorem refl (s : Equipped) : Told keys s s [] :=
  ⟨fun _ h => h, .inr ⟨fun _ _ h => absurd h List.not_mem_nil, fun _ _ _ => rfl⟩⟩

/-- All lagging fields are told, with all others that change. -/
theorem refreshed (hright : ∀ update ∈ updates packets, s'.Right update.1 update.2)
    (hkept : ∀ field, keys field → field ∉ told packets → s'.value field = s.value field)
    (hlagging : ∀ field, field.Lagging → field ∈ told packets) : Told keys s s' packets where
  steady _ h := mirrors_of_right hright h hkept
  lagging := by
    refine .inl ⟨hlagging _ (by decide), fun view field hlag v hshown => ?_⟩
    rcases mirror_cases view (updates packets) field with ⟨w, hmem, hw⟩ | ⟨hnot, -⟩
    · rw [hw] at hshown
      rw [← Option.some.inj hshown]
      exact hright _ hmem
    · exact absurd (hlagging field hlag) hnot

/-- The fields that change are told, and the lagging ones do not change but with the level. -/
theorem partly (hright : ∀ update ∈ updates packets, s'.Right update.1 update.2)
    (hkept : ∀ field, keys field → field ∉ told packets → s'.value field = s.value field)
    (hnone : ∀ field, field.Lagging → field ∉ told packets)
    (hlagging : ∀ level field, field.Lagging →
      (s'.atLevel level).value field = (s.atLevel level).value field) : Told keys s s' packets where
  steady _ h := mirrors_of_right hright h hkept
  lagging := .inr ⟨hnone, hlagging⟩

/-- One handler after another that tells no lagging field. -/
theorem trans {s'' : Equipped} (h : Told keys s s' packets) (hnone : .maxHp ∉ told packets)
    (h' : Told keys s' s'' more) : Told keys s s'' (packets ++ more) := by
  obtain ⟨hmax, -⟩ | ⟨hnot, hsame⟩ := h.lagging
  · exact absurd hmax hnone
  constructor
  · intro view hview
    rw [updates_append, mirror_append]
    exact h'.steady _ (h.steady view hview)
  · rcases h'.lagging with ⟨hmax, hright⟩ | ⟨hnot', hsame'⟩
    · refine .inl ⟨?_, fun view => ?_⟩
      · rw [told_append]
        exact List.mem_append_right _ hmax
      · rw [updates_append, mirror_append]
        exact hright _
    · refine .inr ⟨fun field hlag => ?_, fun level field hlag => ?_⟩
      · rw [told_append, List.mem_append, not_or]
        exact ⟨hnot field hlag, hnot' field hlag⟩
      · rw [hsame' level field hlag, hsame level field hlag]

end Told

/-! ## Items -/

/-- The other fields do not depend on the inventory. -/
theorem value_withInventory {field : Field} (s : Equipped) (inventory : FullInventory)
    (h : field ∉ inventoryKinds.flatMap Property.fields) :
    { s with inventory }.value field = s.value field := by
  cases field with
  | job | contribute | strength | health | inteligence | wisdom | dexterity | puPoint | suPoint
  | rage | exp | level => rfl
  | _ => exact absurd (by decide) h

theorem lagging_inventoryKinds : ∀ field : Field, field.Lagging →
    field ∈ inventoryKinds.flatMap Property.fields := by
  unfold Field.Lagging
  decide

theorem sendInventoryProperty_told {inventory : FullInventory} {written : List S2C}
    (h : s.sendInventoryProperty inventory written = .ok (s', packets))
    (hwritten : updates written = []) : Told Field.Steady s s' packets := by
  unfold sendInventoryProperty at h
  dsimp only at h
  cases hvalues : { s with inventory }.sendProperties inventoryKinds with
  | error fault =>
      rw [hvalues] at h
      cases h
  | ok values =>
      rw [hvalues] at h
      cases h
      obtain ⟨hfields, hright⟩ := values_spec hvalues
      have hupdates : updates (written ++ [.property values]) = values := by
        rw [updates_append, hwritten, updates_property, updates_nil, List.append_nil, List.nil_append]
      have htold : told (written ++ [.property values]) = inventoryKinds.flatMap Property.fields := by
        unfold told
        rw [hupdates, hfields]
      refine .refreshed (by rwa [hupdates]) (fun field _ hnot => ?_) fun field hlag => ?_
      · exact value_withInventory s inventory (htold ▸ hnot)
      · rw [htold]
        exact lagging_inventoryKinds field hlag

theorem updates_writeInSight {packet : S2C} (h : updates [packet] = []) (found : Bool) :
    updates (writeInSight found packet) = [] := by
  cases found with
  | true => exact h
  | false => rfl

theorem onPutOnItem_told {specialty : SpecialtyDb} {localId : UInt32} {found : Bool}
    (h : s.onPutOnItem specialty localId found = .ok (s', packets)) : Told Field.Steady s s' packets := by
  unfold onPutOnItem at h
  split at h
  · cases h
    exact .refl s
  · split_ifs at h
    · split at h
      · cases h
        exact .refl s
      · exact sendInventoryProperty_told h (updates_writeInSight rfl found)
    · cases h
      exact .refl s

theorem onPutOffItem_told {specialty : SpecialtyDb} {localId : UInt32} {found : Bool}
    (h : s.onPutOffItem specialty localId found = .ok (s', packets)) : Told Field.Steady s s' packets := by
  unfold onPutOffItem at h
  split at h
  · cases h
  · cases h
    exact .refl s
  · exact sendInventoryProperty_told h (updates_writeInSight rfl found)

/-- Of the items only what they add is read. -/
theorem value_congr {inventory : FullInventory} (s : Equipped)
    (hcounters : inventory.counters = s.inventory.counters)
    (hspeed : inventory.attackSpeed = s.inventory.attackSpeed) (field : Field) :
    { s with inventory }.value field = s.value field := by
  obtain ⟨skilled, items, keyed, equipment, hlength, wearItems, ride, counters, attackSpeed⟩ := s
  obtain ⟨items', keyed', equipment', hlength', wearItems', ride', counters', attackSpeed'⟩ := inventory
  simp only at hcounters hspeed
  subst hcounters hspeed
  cases field <;> rfl

/-- A handler that tells no property and changes nothing that is read for one. -/
theorem told_of_counters {inventory : FullInventory}
    (hcounters : inventory.counters = s.inventory.counters)
    (hspeed : inventory.attackSpeed = s.inventory.attackSpeed) (hnone : updates packets = []) :
    Told Field.Steady s { s with inventory } packets := by
  have htold : told packets = [] := congrArg (List.map Prod.fst) hnone
  refine .partly (fun update hmem => ?_) (fun field _ _ => value_congr s hcounters hspeed field)
    (fun field _ => ?_) fun level field _ => value_congr (s.atLevel level) hcounters hspeed field
  · rw [hnone] at hmem
    cases hmem
  · rw [htold]
    exact List.not_mem_nil

/-- An item that is not put on is added in front of the others, and nothing else changes. -/
theorem insert_spec {specialty : SpecialtyDb} {db : ItemDb} {inv inv' : FullInventory}
    {localId : UInt32} {info : Items.ItemInfo} {item : Item}
    (hinfo : info.info &&& Items.itemPutOn = 0)
    (h : inv.insert specialty db localId info = .ok (inv', some item)) :
    item.localId = localId ∧ inv'.items = item :: inv.items ∧ inv'.counters = inv.counters ∧
      inv'.attackSpeed = inv.attackSpeed := by
  unfold FullInventory.insert at h
  cases hdb : db info.index with
  | none =>
      rw [hdb] at h
      cases h
  | some init =>
      rw [hdb] at h
      dsimp only at h
      split at h
      · have hoff : ¬ Item.IsPutOn ⟨localId, init, info⟩ := fun hput => hput hinfo
        rw [FullInventory.applyPutOn_of_not hoff] at h
        cases h
        exact ⟨rfl, rfl, rfl, rfl⟩
      · cases h

theorem createItem_told {specialty : SpecialtyDb} {db : ItemDb} {localId : UInt32} {index : UInt16}
    {num : UInt32} (h : s.createItem specialty db localId index num = .ok (s', packets)) :
    Told Field.Steady s s' packets := by
  unfold createItem at h
  cases hdb : db index with
  | none =>
      rw [hdb] at h
      cases h
      exact .refl s
  | some init =>
      rw [hdb] at h
      dsimp only at h
      split at h
      · cases h
      · cases h
      · next hinsert =>
          cases h
          obtain ⟨-, -, hcounters, hspeed⟩ := insert_spec UInt32.zero_and hinsert
          exact told_of_counters hcounters hspeed rfl

theorem insertItem_told {specialty : SpecialtyDb} {db : ItemDb} {localId : UInt32} {met : Nat}
    {index : UInt16} {num : UInt32}
    (h : s.insertItem specialty db localId met index num = .ok (s', packets)) :
    Told Field.Steady s s' packets := by
  unfold insertItem at h
  split at h
  · exact createItem_told h
  · split_ifs at h
    · cases h
      exact told_of_counters rfl rfl rfl
    · exact createItem_told h

theorem trashItem_told (s : Equipped) (localId : UInt32) :
    Told Field.Steady s (s.trashItem localId).1 (s.trashItem localId).2 := by
  unfold trashItem FullInventory.trash
  cases hfind : s.inventory.findByLocalId localId with
  | none => exact .refl s
  | some item =>
      by_cases hon : item.IsPutOn
      · simp only [if_pos hon]
        exact .refl s
      · simp only [if_neg hon]
        exact told_of_counters rfl rfl rfl

/-! ## Points and skills -/

/-- What the items add is all there is between a stat and its base. -/
theorem add_sub_left (a b : UInt16) : a + b - a = b := by
  rw [UInt16.add_comm, UInt16.add_sub_cancel]

/-- The other fields do not depend on the points that are distributed. -/
theorem value_raise {field : Field} (s : Equipped) (stats : Vector UInt8 5) (required : UInt16)
    (h : field ∉ distributedKinds.flatMap Property.fields) :
    { s with skilled := s.skilled.withData (s.data.raise stats required) }.value field =
      s.value field := by
  cases field with
  | job | contribute | defense | absorb | suPoint | rage | exp | level | attackSpeed => rfl
  | strengthAdd | healthAdd | inteligenceAdd | wisdomAdd | dexterityAdd =>
      simp only [value, getStrength, getHealth, getInteligence, getWisdom, getDexterity, add_sub_left]
      rfl
  | _ => exact absurd (by decide) h

theorem lagging_distributedKinds : ∀ field : Field, field.Lagging →
    field ∈ distributedKinds.flatMap Property.fields := by
  unfold Field.Lagging
  decide

theorem onUpdateProperty_told {stats : Vector UInt8 5}
    (h : s.onUpdateProperty stats = .ok (s', packets)) : Told Field.Steady s s' packets := by
  unfold onUpdateProperty at h
  obtain ⟨result, hresult, h⟩ := bind_eq_ok.1 h
  cases result with
  | none =>
      cases h
      exact .refl s
  | some data =>
      obtain ⟨required, rfl⟩ := Skilled.tryUpdateProperty_eq hresult
      obtain ⟨values, hvalues, h⟩ := bind_eq_ok.1 h
      cases h
      obtain ⟨hfields, hright⟩ := values_spec hvalues
      have hupdates : updates [.property values] = values := List.append_nil values
      have htold : told [.property values] = distributedKinds.flatMap Property.fields := by
        unfold told
        rw [hupdates, hfields]
      refine .refreshed (by rwa [hupdates]) (fun field _ hnot => ?_) fun field hlag => ?_
      · exact value_raise s stats required (htold ▸ hnot)
      · rw [htold]
        exact lagging_distributedKinds field hlag

/-- The other fields do not depend on the skills and the points for them. -/
theorem value_skilled {field : Field} (s : Equipped) {skilled : Skilled} (suPoint : UInt16)
    (hplayer : skilled.player = { s.skilled.player with data := { s.data with suPoint } })
    (hfield : field ≠ .suPoint) (hhit : field = .hit → skilled.nHit = s.skilled.nHit) :
    { s with skilled }.value field = s.value field := by
  obtain ⟨⟨player, skills, nHit⟩, inventory⟩ := s
  obtain ⟨player', skills', nHit'⟩ := skilled
  simp only at hplayer
  subst hplayer
  cases field with
  | suPoint => exact absurd rfl hfield
  | hit =>
      obtain rfl : nHit' = nHit := hhit rfl
      rfl
  | _ => rfl

/-- Only WeaponMastery tells something, its hits. -/
theorem applied_cases {skill : Skill} (h : s.applied skill = .ok packets) :
    (∃ values, packets = [.property values] ∧ values.map Prod.fst = [.hit] ∧
        ∀ update ∈ values, s.Right update.1 update.2) ∨
      packets = [] ∧ skill.type ≠ .weaponMastery := by
  unfold applied at h
  cases htype : skill.type with
  | weaponMastery =>
      rw [htype] at h
      simp only at h
      cases hvalues : s.sendProperties [.hit] with
      | error fault =>
          rw [hvalues] at h
          cases h
      | ok values =>
          rw [hvalues] at h
          cases h
          obtain ⟨hfields, hright⟩ := values_spec hvalues
          exact .inl ⟨values, rfl, hfields, hright⟩
  | _ =>
      rw [htype] at h
      cases h
      exact .inr ⟨rfl, nofun⟩

theorem applied_told {skill : Skill} (h : s.applied skill = .ok packets) :
    (∀ update ∈ updates packets, s.Right update.1 update.2) ∧
      (told packets = [.hit] ∨ told packets = [] ∧ skill.type ≠ .weaponMastery) := by
  rcases applied_cases h with ⟨values, rfl, hfields, hright⟩ | ⟨rfl, htype⟩
  · have hupdates : updates [.property values] = values := List.append_nil values
    refine ⟨by rwa [hupdates], .inl ?_⟩
    unfold told
    rw [hupdates, hfields]
  · exact ⟨fun _ h => absurd h List.not_mem_nil, .inr ⟨rfl, htype⟩⟩

/-- What a skill tells, after the points for skills have been told. -/
theorem skill_told {skilled : Skilled} {skill : Skill} {points : List (Field × UInt64)}
    {hit : List S2C} {first : S2C} (suPoint : UInt16) (hfirst : updates [first] = [])
    (hplayer : skilled.player = { s.skilled.player with data := { s.data with suPoint } })
    (hnHit : skill.type ≠ .weaponMastery → skilled.nHit = s.skilled.nHit)
    (hpoints : { s with skilled }.sendProperties [.suPoint] = .ok points)
    (hhit : { s with skilled }.applied skill = .ok hit) :
    Told Field.Steady s { s with skilled } ([first, .property points] ++ hit) := by
  obtain ⟨hpointFields, hpointsRight⟩ := values_spec hpoints
  obtain ⟨hhitRight, hcases⟩ := applied_told hhit
  have hupdates : updates ([first, .property points] ++ hit) = points ++ updates hit := by
    rw [updates_append, ← List.singleton_append, updates_append, hfirst, updates_property,
      updates_nil, List.append_nil, List.nil_append]
  have htold : told ([first, .property points] ++ hit) = .suPoint :: told hit := by
    unfold told
    rw [hupdates, List.map_append, hpointFields]
    rfl
  have hkept : ∀ field, field ∉ Field.suPoint :: told hit →
      { s with skilled }.value field = s.value field := by
    intro field hnot
    rw [List.mem_cons, not_or] at hnot
    refine value_skilled s suPoint hplayer hnot.1 fun hfield => ?_
    rcases hcases with hmem | ⟨-, htype⟩
    · rw [hmem, hfield] at hnot
      exact absurd (List.mem_singleton.2 rfl) hnot.2
    · exact hnHit htype
  have hsmall : ∀ field : Field, field.Lagging → field ≠ .suPoint ∧ field ≠ .hit := by
    unfold Field.Lagging
    decide
  refine .partly ?_ (fun field _ hnot => hkept field (htold ▸ hnot)) (fun field hlag => ?_)
    fun level field hlag => ?_
  · rw [hupdates]
    exact List.forall_mem_append.2 ⟨hpointsRight, hhitRight⟩
  · rw [htold, List.mem_cons, not_or]
    refine ⟨(hsmall field hlag).1, ?_⟩
    rcases hcases with hmem | ⟨hmem, -⟩
    · rw [hmem]
      exact fun h => (hsmall field hlag).2 (List.mem_singleton.1 h)
    · rw [hmem]
      exact List.not_mem_nil
  · have hlevel : ({ s with skilled }.atLevel level).skilled.player =
        { (s.atLevel level).skilled.player with
          data := { (s.atLevel level).data with suPoint } } := by
      unfold atLevel data
      simp only [Skilled.withData]
      rw [hplayer]
      rfl
    exact value_skilled (s.atLevel level) suPoint hlevel (hsmall field hlag).1
      fun h => absurd h (hsmall field hlag).2

/-- Only WeaponMastery changes `nHit`. -/
theorem nHit_onApply {skilled : Skilled} {skill : Skill} (htype : skill.type ≠ .weaponMastery)
    (previousLevel : UInt8) : (skilled.onApply skill previousLevel).nHit = skilled.nHit := by
  unfold Skilled.onApply
  split
  · exact absurd (by assumption) htype
  · rfl

theorem onSkillUp_told {skills : SkillDb} {index : UInt8}
    (h : s.onSkillUp skills index = .ok (s', packets)) : Told Field.Steady s s' packets := by
  unfold onSkillUp at h
  split_ifs at h with hcan
  · cases hget : s.skilled.getByIndex index with
    | none =>
        rw [hget] at h
        cases h
        exact .refl s
    | some skill =>
        rw [hget] at h
        simp only at h
        obtain ⟨points, hpoints, h⟩ := bind_eq_ok.1 h
        obtain ⟨hit, hhit, h⟩ := bind_eq_ok.1 h
        cases h
        refine skill_told (s.data.suPoint - 1) rfl ?_ (fun htype => ?_) hpoints hhit
        · unfold Skilled.onSkillUp
          simp only [if_pos hcan, hget, Skilled.onApply_player]
          rfl
        · unfold Skilled.onSkillUp
          simp only [if_pos hcan, hget]
          have htype' : (skill.setLevel (skill.level + 1)).type ≠ .weaponMastery := htype
          rw [nHit_onApply htype']
          rfl
  · cases h
    exact .refl s

/-- A new skill comes with grade 1 and costs a point. -/
theorem onLearnSkill_spec {skills : SkillDb} {skilled skilled' : Skilled} {index : UInt8}
    (hcan : skilled.canLearnSkill skills index) (hget : skilled.getByIndex index = none)
    (h : skilled.onLearnSkill skills index = .ok skilled') :
    ∃ skill : Skill, skill.index = index ∧ skill.level = 1 ∧ skilled'.skills = skill :: skilled.skills ∧
      skilled'.player = { skilled.player with
        data := { skilled.player.data with suPoint := skilled.player.data.suPoint - 1 } } ∧
      (skill.type ≠ .weaponMastery → skilled'.nHit = skilled.nHit) := by
  unfold Skilled.onLearnSkill Skilled.add at h
  rw [if_pos hcan, hget] at h
  cases hcreate : skilled.createSkill skills index 1 with
  | none =>
      rw [hcreate] at h
      cases h
  | some skill =>
      rw [hcreate] at h
      cases h
      have hskill : skill.index = index ∧ skill.level = 1 := by
        unfold Skilled.createSkill at hcreate
        split at hcreate
        · cases hcreate
        · cases hcreate
          exact ⟨rfl, rfl⟩
      refine ⟨skill, hskill.1, hskill.2, ?_, ?_, fun htype => nHit_onApply htype _⟩
      · rw [Skilled.onApply_skills]
        rfl
      · rw [Skilled.onApply_player]
        rfl

/-- A skill that may not be learned or is there already. -/
theorem onLearnSkill_same {skills : SkillDb} {skilled skilled' : Skilled} {index : UInt8}
    (hnot : ¬ (skilled.canLearnSkill skills index ∧ skilled.getByIndex index = none))
    (h : skilled.onLearnSkill skills index = .ok skilled') : skilled' = skilled := by
  unfold Skilled.onLearnSkill at h
  split_ifs at h with hcan
  · cases hget : skilled.getByIndex index with
    | none => exact absurd ⟨hcan, hget⟩ hnot
    | some skill =>
        rw [hget] at h
        exact (Except.ok.inj h).symm
  · exact (Except.ok.inj h).symm

theorem onLearnSkill_told {skills : SkillDb} {index : UInt8}
    (h : s.onLearnSkill skills index = .ok (s', packets)) : Told Field.Steady s s' packets := by
  unfold onLearnSkill at h
  obtain ⟨skilled, hskilled, h⟩ := bind_eq_ok.1 h
  split_ifs at h with hlearns
  · obtain ⟨skill, hindex, -, hcons, hplayer, hnHit⟩ := onLearnSkill_spec hlearns.1 hlearns.2 hskilled
    have hget : skilled.getByIndex index = some skill := by
      unfold Skilled.getByIndex
      rw [hcons, findKey_cons, if_pos hindex]
    obtain ⟨points, hpoints, h⟩ := bind_eq_ok.1 h
    rw [hget] at h
    obtain ⟨hit, hhit, h⟩ := bind_eq_ok.1 h
    cases h
    exact skill_told (s.data.suPoint - 1) rfl hplayer hnHit hpoints hhit
  · cases h
    rw [onLearnSkill_same hlearns hskilled]
    exact .refl s

/-! ## Experience -/

/-- The steady fields without the experience. -/
def Field.Leveled (field : Field) : Prop := field.Steady ∧ field ≠ .exp

instance : DecidablePred Field.Leveled := fun _ => inferInstanceAs (Decidable (_ ∧ _))

/-- The player of the skills is another one. -/
def withPlayer (s : Equipped) (player : Player) : Equipped :=
  { s with skilled := { s.skilled with player } }

theorem withExp_told (s : Equipped) (player : Player) (exp : UInt64) :
    Told Field.Leveled (s.withPlayer player) (s.withPlayer (player.withExp exp)) [] := by
  refine .partly (fun _ h => absurd h List.not_mem_nil) (fun field hleveled _ => ?_)
    (fun _ _ => List.not_mem_nil) fun level field hlag => ?_
  · cases field with
    | exp => exact absurd hleveled (by decide)
    | _ => rfl
  · cases field with
    | maxHp | maxMp | minAttack | maxAttack => rfl
    | _ => exact absurd hlag (by decide)

theorem updates_levelUp (values : DatabaseManager.SaveAllProperty) :
    updates [levelUpShown (.saveAllProperty values)] =
      [(.level, values.level.toUInt64), (.suPoint, values.suPoint.toUInt64),
        (.puPoint, values.puPoint.toUInt64)] := rfl

theorem told_levelUp (values : DatabaseManager.SaveAllProperty) :
    told [levelUpShown (.saveAllProperty values)] = [.level, .suPoint, .puPoint] := rfl

/-- A new level is told with the points that come with it. -/
theorem levelUp_told {inventory : InventoryProperty} {player player' : Player}
    (h : player.levelUp inventory = .ok player') :
    Told Field.Leveled (s.withPlayer player) (s.withPlayer player')
      [levelUpShown (.saveAllProperty player'.saved)] := by
  obtain ⟨curHp, curMp, rfl⟩ := Player.levelUp_eq_ok inventory h
  refine .partly ?_ (fun field hleveled hnot => ?_) ?_ fun level field hlag => ?_
  · intro update hmem
    rw [updates_levelUp] at hmem
    simp only [List.mem_cons, List.not_mem_nil, or_false] at hmem
    rcases hmem with rfl | rfl | rfl <;> rfl
  · rw [told_levelUp] at hnot
    cases field with
    | level | suPoint | puPoint => exact absurd (by decide) hnot
    | curHp | curMp | maxHp | maxMp | minAttack | maxAttack => exact absurd hleveled (by decide)
    | _ => rfl
  · rw [told_levelUp]
    unfold Field.Lagging
    decide
  · cases field with
    | maxHp | maxMp | minAttack | maxAttack => rfl
    | _ => exact absurd hlag (by decide)

theorem levelUpsWriting_told {inventory : InventoryProperty} {player player' : Player}
    {required : UInt64} {messages : List S2D}
    (h : player.levelUpsWriting inventory required = .ok (player', messages)) :
    Told Field.Leveled (s.withPlayer player) (s.withPlayer player')
      (messages.map levelUpShown) := by
  fun_induction Player.levelUpsWriting inventory player required generalizing messages with
  | case1 => cases h
  | case2 player required hlt player₁ hup message =>
      cases h
      exact (withExp_told s player _).trans List.not_mem_nil
        ((levelUp_told hup).trans (by rw [told_levelUp]; decide) (withExp_told s player₁ 0))
  | case3 => cases h
  | case4 => cases h
  | case5 player required hlt player₁ hup message hmax required' hreq player₂ messages hups =>
      rename_i ih
      cases h
      exact (withExp_told s player _).trans List.not_mem_nil
        ((levelUp_told hup).trans (by rw [told_levelUp]; decide) (ih hups))
  | case6 =>
      cases h
      exact .refl _

theorem updateExpWriting_told {inventory : InventoryProperty} {player' : Player} {amount : Int64}
    {messages : List S2D}
    (h : s.skilled.player.updateExpWriting inventory amount = .ok (player', messages)) :
    Told Field.Leveled s (s.withPlayer player') (messages.map levelUpShown) := by
  unfold Player.updateExpWriting at h
  split_ifs at h with hearly
  · cases hup : s.skilled.player.updateExp inventory amount with
    | error fault =>
        rw [hup] at h
        cases h
    | ok player =>
        rw [hup] at h
        cases h
        obtain ⟨exp, rfl⟩ := Skilled.updateExp_told hearly hup
        exact withExp_told s s.skilled.player exp
  · obtain ⟨required, -, hups⟩ := bind_eq_ok.1 h
    exact (withExp_told s s.skilled.player _).trans List.not_mem_nil (levelUpsWriting_told hups)

theorem maxHp_not_mem_told (messages : List S2D) : .maxHp ∉ told (messages.map levelUpShown) := by
  induction messages with
  | nil => exact List.not_mem_nil
  | cons message messages ih =>
      rw [List.map_cons, ← List.singleton_append, told_append, List.mem_append, not_or]
      refine ⟨?_, ih⟩
      cases message with
      | saveAllProperty values =>
          rw [told_levelUp]
          decide
      | _ => exact List.not_mem_nil

/-- No experience, or none that the player can take. -/
theorem updateExpWriting_same {inventory : InventoryProperty} {player player' : Player} {amount : Int64}
    {messages : List S2D} (hnone : amount = 0 ∨ 0 < amount ∧ maxLevel ≤ player.data.level)
    (h : player.updateExpWriting inventory amount = .ok (player', messages)) :
    player' = player ∧ messages = [] := by
  have hearly : amount = 0 ∨ amount < 0 ∨ maxLevel ≤ player.data.level :=
    hnone.imp_right fun h => .inr h.2
  unfold Player.updateExpWriting at h
  rw [if_pos hearly] at h
  have hsame : player.updateExp inventory amount = .ok player := by
    unfold Player.updateExp
    rcases hnone with hzero | ⟨hpos, hmax⟩
    · rw [if_pos hzero]
    · have hneg : ¬ amount < 0 := Int64.not_lt.2 (Int64.le_of_lt hpos)
      have hzero : amount ≠ 0 := fun h => Int64.lt_irrefl (h ▸ hpos)
      rw [if_neg hzero, if_neg hneg, if_pos hmax]
  rw [hsame] at h
  cases h
  exact ⟨rfl, rfl⟩

/-- The experience is told last, unless it has not changed. -/
theorem updateExp_told {amount : Int64} (h : s.updateExp amount = .ok (s', packets)) :
    Told Field.Steady s s' packets := by
  unfold updateExp at h
  obtain ⟨⟨player, messages⟩, hwriting, h⟩ := bind_eq_ok.1 h
  by_cases hnone : amount = 0 ∨ 0 < amount ∧ maxLevel ≤ s.data.level
  · obtain ⟨hsame, hmessages⟩ := updateExpWriting_same hnone hwriting
    subst hmessages
    simp only [if_pos hnone] at h
    cases h
    rw [hsame]
    exact .refl s
  · simp only [if_neg hnone] at h
    have htold := updateExpWriting_told hwriting
    cases h
    have hexp : updates (messages.map levelUpShown ++ [.property [(.exp, player.data.exp)]]) =
        updates (messages.map levelUpShown) ++ [(.exp, player.data.exp)] := updates_append _ _
    constructor
    · intro view hview field hsteady v hshown
      rw [hexp, mirror_append] at hshown
      rcases mirror_cases _ [(.exp, player.data.exp)] field with ⟨w, hmem, hw⟩ | ⟨hnot, hold⟩
      · obtain ⟨rfl, rfl⟩ := Prod.mk.inj (List.mem_singleton.1 hmem)
        rw [hw] at hshown
        rw [← Option.some.inj hshown]
        rfl
      · have hleveled : field.Leveled := ⟨hsteady, fun h => hnot (List.mem_singleton.2 h)⟩
        exact htold.steady view (fun key hkey => hview key hkey.1) field hleveled v
          (hold.symm.trans hshown)
    · rcases htold.lagging with ⟨hmax, -⟩ | ⟨hnot, hsame⟩
      · exact absurd hmax (maxHp_not_mem_told messages)
      · refine .inr ⟨fun field hlag => ?_, hsame⟩
        rw [told_append, List.mem_append, not_or]
        refine ⟨hnot field hlag, ?_⟩
        cases field with
        | exp => exact absurd hlag (by decide)
        | _ => exact List.not_mem_cons_of_ne_of_not_mem nofun List.not_mem_nil

/-- Moves and hits change no other field. -/
theorem live_told (s : Equipped) (x y z : Int32) (curHp curMp : UInt32) :
    Told Field.Steady s { s with skilled := { s.skilled with
      player := { s.skilled.player with x, y, z, curHp, curMp } } } [] := by
  refine .partly (fun _ h => absurd h List.not_mem_nil) (fun field hsteady _ => ?_)
    (fun _ _ => List.not_mem_nil) fun level field hlag => ?_
  · cases field with
    | curHp | curMp => exact absurd hsteady (by decide)
    | _ => rfl
  · cases field with
    | maxHp | maxMp | minAttack | maxAttack => rfl
    | _ => exact absurd hlag (by decide)

/-- Every handler. -/
theorem handle_told {skills : SkillDb} {specialty : SpecialtyDb} {db : ItemDb} {op : Watched.Op}
    (h : Watched.handle skills specialty db s op = .ok (s', packets)) :
    Told Field.Steady s s' packets := by
  cases op with
  | insertItem localId met index num => exact insertItem_told h
  | trashItem localId =>
      have htold := trashItem_told s localId
      rwa [Except.ok.inj h] at htold
  | updateItemIid localId iid =>
      cases h
      exact told_of_counters rfl rfl rfl
  | putOn localId found => exact onPutOnItem_told h
  | putOff localId found => exact onPutOffItem_told h
  | updateProperty stats => exact onUpdateProperty_told (Items.ok_of_mapError h)
  | skillUp index => exact onSkillUp_told (Items.ok_of_mapError h)
  | learnSkill index => exact onLearnSkill_told (Items.ok_of_mapError h)
  | updateExp amount => exact updateExp_told (Items.ok_of_mapError h)
  | live x y z curHp curMp =>
      cases h
      exact live_told s x y z curHp curMp

end Equipped

end Bango.Characters
