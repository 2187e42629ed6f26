import Bango.Characters.Proofs.LoadSkills
import Bango.Characters.Proofs.Shown

set_option autoImplicit false

/-! # The windows of the client

Over runs of all handlers: the client shows the skills and the items as the player has them, and the
properties as they are, or those that depend on the level as they were at the level at which it was last
told them. -/

namespace Bango.Items.FullInventory

open Bango.Lib

variable {specialty : SpecialtyDb} {inv inv' : FullInventory} {localId : UInt32} {item' : Item}

/-! ## Putting on and off -/

/-- Of the items one has another flag. -/
theorem putOn_items (h : inv.putOn specialty localId = (inv', some item')) :
    item'.localId = localId ∧
      inv'.items = updateKey Item.localId localId (·.addInfo itemPutOn) inv.items := by
  unfold putOn at h
  cases hfind : inv.findByLocalId localId with
  | none =>
      rw [hfind] at h
      cases h
  | some item =>
      rw [hfind] at h
      have hlocal : item.localId = localId := key_of_findKey hfind
      dsimp only at h
      -- the item is off; it becomes the ride, or it comes on its slot
      split_ifs at h with hon hclass hride hwearable hhands
      · cases h
      · cases h
      · cases h
        exact ⟨hlocal, rfl⟩
      · split at h
        · cases h
        · split_ifs at h
          · cases h
          · cases h
            exact ⟨hlocal, rfl⟩
      · split at h
        · cases h
        · cases h
      · cases h

theorem putOff_items (h : inv.putOff specialty localId = .ok (inv', some item')) :
    item'.localId = localId ∧
      inv'.items = updateKey Item.localId localId (·.subInfo itemPutOn) inv.items := by
  unfold putOff at h
  cases hfind : inv.findByLocalId localId with
  | none =>
      rw [hfind] at h
      cases h
  | some item =>
      rw [hfind] at h
      have hlocal : item.localId = localId := key_of_findKey hfind
      dsimp only at h
      split_ifs at h with hon hclass hride hwearable
      · cases h
      · cases h
        exact ⟨hlocal, rfl⟩
      · split at h
        · cases h
        · split_ifs at h
          cases h
          exact ⟨hlocal, rfl⟩
      · cases h

end Bango.Items.FullInventory

namespace Bango.Characters

open Bango.Lib
open Bango.Items (FullInventory Item ItemDb SpecialtyDb itemPutOn)

namespace Equipped

variable {s s' : Equipped} {packet : S2C} {packets : List S2C} {skills : SkillDb} {specialty : SpecialtyDb}
  {db : ItemDb} {inventory : FullInventory} {localId : UInt32}

/-! ## What the client lists -/

/-- The items of the player, as packets have them. -/
def shownItems (s : Equipped) (localId : UInt32) : Option ShownItem :=
  (s.inventory.findByLocalId localId).map ShownItem.of

/-- The grades of the skills. -/
def shownSkills (s : Equipped) (index : UInt8) : Option UInt8 :=
  (s.skilled.getByIndex index).map Skill.level

/-- The items and the skills of the player are listed. -/
structure ListedIn (s : Equipped) (w : Windows) : Prop where
  items : w.items = s.shownItems
  skills : w.skills = s.shownSkills

/-- Packets that tell properties and nothing else. -/
def OnlyProperties (packets : List S2C) : Prop := ∀ packet ∈ packets, ∃ values, packet = .property values

theorem OnlyProperties.receive (h : OnlyProperties packets) (w : Windows) :
    (packets.foldl Windows.receive w).items = w.items ∧
      (packets.foldl Windows.receive w).skills = w.skills := by
  induction packets generalizing w with
  | nil => exact ⟨rfl, rfl⟩
  | cons packet packets ih =>
      obtain ⟨⟨values, rfl⟩, hrest⟩ := List.forall_mem_cons.1 h
      exact ih hrest (w.receive (.property values))

/-- After the packets the client lists what the player has now, if it has listed what it had before. -/
def Follows (s s' : Equipped) (packets : List S2C) : Prop :=
  ∀ w : Windows, s.ListedIn w → s'.ListedIn (packets.foldl Windows.receive w)

theorem Follows.properties (h : OnlyProperties packets) (hitems : s'.shownItems = s.shownItems)
    (hskills : s'.skilled.skills = s.skilled.skills) : Follows s s' packets := by
  intro w hw
  obtain ⟨hitems', hskills'⟩ := h.receive w
  refine ⟨hitems'.trans (hw.items.trans hitems.symm), hskills'.trans (hw.skills.trans ?_)⟩
  unfold shownSkills Skilled.getByIndex
  rw [hskills]

theorem Follows.refl (s : Equipped) : Follows s s [] := fun _ hw => hw

/-- A packet about an item or a skill, and properties. -/
theorem Follows.first (h : ∀ w : Windows, s.ListedIn w → s'.ListedIn (w.receive packet))
    (hrest : OnlyProperties packets) : Follows s s' (packet :: packets) := by
  intro w hw
  obtain ⟨hitems, hskills⟩ := hrest.receive (w.receive packet)
  exact ⟨hitems.trans (h w hw).items, hskills.trans (h w hw).skills⟩

theorem onlyProperties_singleton (values : List (Field × UInt64)) :
    OnlyProperties [.property values] := List.forall_mem_singleton.2 ⟨values, rfl⟩

/-! ## Items -/

theorem shownItems_update {f : Item → Item} {g : ShownItem → ShownItem}
    (hf : ∀ item, (f item).localId = item.localId) (hg : ∀ item, g (.of item) = .of (f item))
    (hitems : inventory.items = updateKey Item.localId localId f s.inventory.items) :
    { s with inventory }.shownItems =
      Function.update s.shownItems localId ((s.shownItems localId).map g) := by
  funext id
  unfold shownItems FullInventory.findByLocalId
  simp only [hitems, findKey_updateKey hf]
  by_cases hid : id = localId
  · subst hid
    rw [Function.update_self, if_pos rfl, Option.map_map, Option.map_map]
    exact congrArg (Option.map · _) (funext fun item => (hg item).symm)
  · rw [Function.update_of_ne hid, if_neg hid]

theorem shownItems_insert {item : Item} (hitems : inventory.items = item :: s.inventory.items) :
    { s with inventory }.shownItems =
      Function.update s.shownItems item.localId (some (.of item)) := by
  funext id
  unfold shownItems FullInventory.findByLocalId
  simp only [hitems, findKey_cons]
  by_cases hid : id = item.localId
  · subst hid
    rw [Function.update_self, if_pos rfl, Option.map_some]
  · rw [Function.update_of_ne hid, if_neg (Ne.symm hid)]

theorem shownItems_erase
    (hitems : inventory.items = eraseKey Item.localId localId s.inventory.items) :
    { s with inventory }.shownItems = Function.update s.shownItems localId none := by
  funext id
  unfold shownItems FullInventory.findByLocalId
  simp only [hitems, findKey_eraseKey]
  by_cases hid : id = localId
  · subst hid
    rw [Function.update_self, if_pos rfl, Option.map_none]
  · rw [Function.update_of_ne hid, if_neg hid]

theorem sendInventoryProperty_eq {packets written : List S2C}
    (h : s.sendInventoryProperty inventory written = .ok (s', packets)) :
    s' = { s with inventory } ∧ ∃ values, packets = written ++ [.property values] := by
  unfold sendInventoryProperty at h
  dsimp only at h
  split at h
  · cases h
  · cases h
    exact ⟨rfl, _, rfl⟩

theorem onPutOnItem_follows (h : s.onPutOnItem specialty localId true = .ok (s', packets)) :
    Follows s s' packets := by
  unfold onPutOnItem at h
  split at h
  · cases h
    exact .refl s
  · split_ifs at h
    · split at h
      · cases h
        exact .refl s
      · next hput =>
          obtain ⟨rfl, values, rfl⟩ := sendInventoryProperty_eq h
          obtain ⟨rfl, hitems⟩ := FullInventory.putOn_items hput
          refine .first (fun w hw => ⟨?_, hw.skills⟩) (onlyProperties_singleton values)
          rw [shownItems_update (g := fun item => { item with info := item.info ||| itemPutOn })
            (Item.localId_addInfo itemPutOn) (fun _ => rfl) hitems, ← hw.items]
          rfl
    · cases h
      exact .refl s

theorem onPutOffItem_follows (h : s.onPutOffItem specialty localId true = .ok (s', packets)) :
    Follows s s' packets := by
  unfold onPutOffItem at h
  split at h
  · cases h
  · cases h
    exact .refl s
  · next hput =>
      obtain ⟨rfl, values, rfl⟩ := sendInventoryProperty_eq h
      obtain ⟨rfl, hitems⟩ := FullInventory.putOff_items hput
      refine .first (fun w hw => ⟨?_, hw.skills⟩) (onlyProperties_singleton values)
      rw [shownItems_update (g := fun item => { item with info := item.info &&& ~~~itemPutOn })
        (Item.localId_subInfo itemPutOn) (fun _ => rfl) hitems, ← hw.items]
      rfl

theorem onlyProperties_nil : OnlyProperties [] := fun _ h => absurd h List.not_mem_nil

theorem createItem_follows {index : UInt16} {num : UInt32}
    (h : s.createItem specialty db localId index num = .ok (s', packets)) : Follows s s' packets := by
  unfold createItem at h
  cases hdb : db index with
  | none =>
      rw [hdb] at h
      cases h
      exact .refl s
  | some init =>
      rw [hdb] at h
      dsimp only at h
      split at h
      · cases h
      · cases h
      · next hinsert =>
          cases h
          obtain ⟨-, hitems, -, -⟩ := insert_spec UInt32.zero_and hinsert
          refine .first (fun w hw => ⟨?_, hw.skills⟩) onlyProperties_nil
          rw [shownItems_insert hitems, ← hw.items]
          rfl

theorem insertItem_follows {met : Nat} {index : UInt16} {num : UInt32}
    (h : s.insertItem specialty db localId met index num = .ok (s', packets)) :
    Follows s s' packets := by
  unfold insertItem at h
  cases hfind : s.findByIndex met index with
  | none =>
      rw [hfind] at h
      exact createItem_follows h
  | some item =>
      rw [hfind] at h
      dsimp only at h
      split_ifs at h
      · cases h
        refine .first (fun w hw => ⟨?_, hw.skills⟩) onlyProperties_nil
        rw [shownItems_update (f := (·.updateNum (item.info.num + num)))
          (g := fun shown => { shown with num := item.info.num + num }) (fun _ => rfl)
          (fun _ => rfl) rfl, ← hw.items]
        rfl
      · exact createItem_follows h

theorem trashItem_follows (s : Equipped) (localId : UInt32) :
    Follows s (s.trashItem localId).1 (s.trashItem localId).2 := by
  unfold trashItem FullInventory.trash
  cases hfind : s.inventory.findByLocalId localId with
  | none => exact .refl s
  | some item =>
      by_cases hon : item.IsPutOn
      · simp only [if_pos hon]
        exact .refl s
      · simp only [if_neg hon]
        refine .first (fun w hw => ⟨?_, hw.skills⟩) onlyProperties_nil
        rw [shownItems_erase rfl, ← hw.items]
        rfl

/-- The client is not told the id in the table, and does not list it. -/
theorem shownItems_updateIid (s : Equipped) (localId : UInt32) (iid : Nat) :
    (s.updateItemIid localId iid).shownItems = s.shownItems := by
  unfold updateItemIid
  rw [shownItems_update (f := (·.updateIid iid)) (g := id) (fun _ => rfl) (fun _ => rfl) rfl,
    Option.map_id_fun, id, Function.update_eq_self]

/-! ## Skills -/

theorem applied_onlyProperties {skill : Skill} (h : s.applied skill = .ok packets) :
    OnlyProperties packets ∧ ∀ field ∈ told packets, field = .hit := by
  constructor
  · rcases applied_cases h with ⟨values, rfl, -⟩ | ⟨rfl, -⟩
    · exact onlyProperties_singleton values
    · exact onlyProperties_nil
  · intro field hmem
    rcases (applied_told h).2 with htold | ⟨htold, -⟩
    · exact List.mem_singleton.1 (htold ▸ hmem)
    · rw [htold] at hmem
      cases hmem

/-- A skill that is told with its grade, and properties. -/
theorem Follows.skill {index level : UInt8} (hitems : s'.inventory.items = s.inventory.items)
    (hskills : s'.shownSkills = Function.update s.shownSkills index (some level))
    (hrest : OnlyProperties packets) : Follows s s' (.skillUp index level :: packets) := by
  refine .first (fun w hw => ⟨?_, ?_⟩) hrest
  · refine hw.items.trans ?_
    unfold shownItems FullInventory.findByLocalId
    rw [hitems]
  · rw [hskills, ← hw.skills]
    rfl

theorem onSkillUp_follows {index : UInt8} (h : s.onSkillUp skills index = .ok (s', packets)) :
    Follows s s' packets := by
  unfold onSkillUp at h
  split_ifs at h with hcan
  · cases hget : s.skilled.getByIndex index with
    | none =>
        rw [hget] at h
        cases h
        exact .refl s
    | some skill =>
        rw [hget] at h
        simp only at h
        obtain ⟨points, -, h⟩ := bind_eq_ok.1 h
        obtain ⟨hit, hhit, h⟩ := bind_eq_ok.1 h
        cases h
        refine .skill rfl ?_ (List.forall_mem_cons.2 ⟨⟨points, rfl⟩, (applied_onlyProperties hhit).1⟩)
        have hskills : (s.skilled.onSkillUp skills index).skills =
            updateKey Skill.index index (·.setLevel (skill.level + 1)) s.skilled.skills := by
          unfold Skilled.onSkillUp
          simp only [if_pos hcan, hget, Skilled.onApply_skills]
          rfl
        have hindex : ∀ other : Skill, (other.setLevel (skill.level + 1)).index = other.index :=
          fun _ => rfl
        funext index'
        unfold Skilled.getByIndex at hget
        unfold shownSkills Skilled.getByIndex
        rw [hskills, findKey_updateKey hindex]
        by_cases hindex : index' = index
        · subst hindex
          rw [Function.update_self, if_pos rfl, hget]
          rfl
        · rw [Function.update_of_ne hindex, if_neg hindex]
  · cases h
    exact .refl s

theorem onLearnSkill_follows {index : UInt8} (h : s.onLearnSkill skills index = .ok (s', packets)) :
    Follows s s' packets := by
  unfold onLearnSkill at h
  obtain ⟨skilled, hskilled, h⟩ := bind_eq_ok.1 h
  split_ifs at h with hlearns
  · obtain ⟨skill, rfl, hlevel, hcons, -, -⟩ := onLearnSkill_spec hlearns.1 hlearns.2 hskilled
    have hget : skilled.getByIndex skill.index = some skill := by
      unfold Skilled.getByIndex
      rw [hcons, findKey_cons, if_pos rfl]
    obtain ⟨points, -, h⟩ := bind_eq_ok.1 h
    rw [hget] at h
    obtain ⟨hit, hhit, h⟩ := bind_eq_ok.1 h
    cases h
    refine .skill rfl ?_ (List.forall_mem_cons.2 ⟨⟨points, rfl⟩, (applied_onlyProperties hhit).1⟩)
    funext index
    unfold shownSkills Skilled.getByIndex
    rw [hcons, findKey_cons]
    by_cases hindex : index = skill.index
    · subst hindex
      rw [Function.update_self, if_pos rfl, Option.map_some, hlevel]
    · rw [Function.update_of_ne hindex, if_neg (Ne.symm hindex)]
  · cases h
    rw [onLearnSkill_same hlearns hskilled]
    exact .refl s

/-- The rows become skills; only WeaponMastery tells something about it, its hits. -/
theorem loadSkills_spec {rows : List (UInt8 × UInt8)}
    (h : loadSkills skills rows s = .ok (s', packets)) :
    s'.shownSkills = mirror s.shownSkills rows ∧ OnlyProperties packets ∧
      ∀ field ∈ told packets, field = .hit := by
  induction rows generalizing s packets with
  | nil =>
      cases h
      exact ⟨rfl, onlyProperties_nil, fun _ h => absurd h List.not_mem_nil⟩
  | cons row rows ih =>
      rw [loadSkills] at h
      cases hadd : s.skilled.add skills row.1 row.2 with
      | none =>
          rw [hadd] at h
          cases h
      | some added =>
          obtain ⟨skill, skilled⟩ := added
          rw [hadd] at h
          obtain ⟨hit, hhit, h⟩ := bind_eq_ok.1 h
          obtain ⟨⟨s₁, packets₁⟩, hload, h⟩ := bind_eq_ok.1 h
          cases h
          obtain ⟨hskills, honly, htold⟩ := ih hload
          obtain ⟨hhitOnly, hhitTold⟩ := applied_onlyProperties hhit
          have hadded : { s with skilled := skilled.onApply skill 0 }.shownSkills =
              Function.update s.shownSkills row.1 (some row.2) := by
            funext index
            obtain ⟨hmade, -, -⟩ := Skilled.add_eq hadd
            unfold shownSkills
            rw [Skilled.getByIndex_of_add hadd]
            by_cases hindex : index = row.1
            · subst hindex
              rw [Function.update_self, if_pos rfl, Option.map_some, (Skilled.createSkill_eq hmade).2.1]
            · rw [Function.update_of_ne hindex, if_neg hindex]
          refine ⟨hskills.trans (congrArg (mirror · rows) hadded),
            List.forall_mem_append.2 ⟨hhitOnly, honly⟩, fun field hmem => ?_⟩
          rw [told_append] at hmem
          rcases List.mem_append.1 hmem with hmem | hmem
          · exact hhitTold field hmem
          · exact htold field hmem

/-! ## Every handler -/

/-- Neither an item nor a skill. -/
theorem Follows.aside {skilled : Skilled} (h : OnlyProperties packets)
    (hskills : skilled.skills = s.skilled.skills) : Follows s { s with skilled } packets :=
  .properties h rfl hskills

theorem levelUpShown_onlyProperties (messages : List S2D) :
    OnlyProperties (messages.map levelUpShown) := by
  intro packet hmem
  obtain ⟨message, -, rfl⟩ := List.mem_map.1 hmem
  cases message <;> exact ⟨_, rfl⟩

theorem updateExp_follows {amount : Int64} (h : s.updateExp amount = .ok (s', packets)) :
    Follows s s' packets := by
  unfold updateExp at h
  obtain ⟨⟨player, messages⟩, -, h⟩ := bind_eq_ok.1 h
  cases h
  refine .aside (List.forall_mem_append.2 ⟨levelUpShown_onlyProperties messages, ?_⟩) rfl
  split
  · exact onlyProperties_nil
  · exact onlyProperties_singleton _

theorem onUpdateProperty_follows {stats : Vector UInt8 5}
    (h : s.onUpdateProperty stats = .ok (s', packets)) : Follows s s' packets := by
  unfold onUpdateProperty at h
  obtain ⟨result, -, h⟩ := bind_eq_ok.1 h
  cases result with
  | none =>
      cases h
      exact .refl s
  | some data =>
      obtain ⟨values, -, h⟩ := bind_eq_ok.1 h
      cases h
      exact .aside (onlyProperties_singleton values) rfl

theorem handle_follows {op : Watched.Op} (hfound : op.Found)
    (h : Watched.handle skills specialty db s op = .ok (s', packets)) : Follows s s' packets := by
  cases op with
  | insertItem localId met index num => exact insertItem_follows h
  | trashItem localId =>
      have hfollows := trashItem_follows s localId
      rwa [Except.ok.inj h] at hfollows
  | updateItemIid localId iid =>
      cases h
      exact .properties onlyProperties_nil (shownItems_updateIid s localId iid) rfl
  | putOn localId found =>
      obtain rfl : found = true := hfound
      exact onPutOnItem_follows h
  | putOff localId found =>
      obtain rfl : found = true := hfound
      exact onPutOffItem_follows h
  | updateProperty stats => exact onUpdateProperty_follows (Items.ok_of_mapError h)
  | skillUp index => exact onSkillUp_follows (Items.ok_of_mapError h)
  | learnSkill index => exact onLearnSkill_follows (Items.ok_of_mapError h)
  | updateExp amount => exact updateExp_follows (Items.ok_of_mapError h)
  | live x y z curHp curMp =>
      cases h
      exact .aside onlyProperties_nil rfl

end Equipped

namespace Watched

open Equipped

variable {skills : SkillDb} {specialty : SpecialtyDb} {db : ItemDb} {player : Equipped} {w w' : Watched}
  {op : Op} {ops : List Op} {rows : List (UInt8 × UInt8)}

/-! ## Runs -/

theorem step_handle (h : w.step skills specialty db op = .ok w') :
    ∃ s' packets, handle skills specialty db w.player op = .ok (s', packets) ∧
      w' = w.tell (s', packets) := by
  unfold step at h
  cases hhandle : handle skills specialty db w.player op with
  | error stop =>
      rw [hhandle] at h
      cases h
  | ok result =>
      rw [hhandle] at h
      exact ⟨result.1, result.2, rfl, (Except.ok.inj h).symm⟩

/-- What is told when the player has been loaded. -/
theorem start_spec (h : start skills player rows = .ok w) :
    ∃ s hits property added,
      loadSkills skills rows player = .ok (s, hits) ∧
      s.loadedProperty = .ok property ∧ s.sendProperties inventoryKinds = .ok added ∧
      w = ⟨s, [S2C.skillInfo rows, .property property, .itemInfo (s.inventory.items.map ShownItem.of),
        .property added].foldl Windows.receive (hits.foldl Windows.receive .blank), s.data.level⟩ := by
  unfold start at h
  cases hload : onLoadSkills skills player rows with
  | error fault =>
      rw [hload] at h
      cases h
  | ok result =>
      rw [hload] at h
      obtain ⟨⟨s, hits⟩, hskills, hload⟩ := bind_eq_ok.1 hload
      obtain ⟨finish, hfinish, hload⟩ := bind_eq_ok.1 hload
      obtain ⟨property, hproperty, hfinish⟩ := bind_eq_ok.1 hfinish
      obtain ⟨added, hadded, hfinish⟩ := bind_eq_ok.1 hfinish
      cases hfinish
      cases hload
      refine ⟨s, hits, property, added, hskills, hproperty, hadded, ?_⟩
      rw [← Except.ok.inj h, ← List.foldl_append]

/-- A run that can be evaluated, with what is found at its end. -/
theorem exists_run (begin : Except Fault Watched) (f : Watched → Op → Except Stop Watched)
    (p : Watched → Prop) [DecidablePred p]
    (h : (begin.toOption.bind fun w₀ => (run f w₀ ops).toOption).any p = true) :
    ∃ w₀ w, begin = .ok w₀ ∧ run f w₀ ops = .ok w ∧ p w := by
  cases begin with
  | error fault => cases h
  | ok w₀ =>
      cases hrun : run f w₀ ops with
      | error stop => simp [Except.toOption, hrun] at h
      | ok w =>
          simp only [Except.toOption, hrun, Option.bind_some, Option.any_some] at h
          exact ⟨w₀, w, rfl, hrun, of_decide_eq_true h⟩

/-- Items that make stronger. -/
def strengthening : SpecialtyDb := fun _ =>
  { amount := fun counter => if counter = .str then 3 else 0, attackSpeed := 5 }

/-- A new knight without items. -/
def knight : Equipped := ⟨⟨Player.novice, [], 0⟩, FullInventory.empty⟩

/-- It gets a sword and puts it on, it gains levels, and its mastery is raised. -/
def swordPlay : List Op := [.insertItem 5 0 1 1, .putOn 5 true, .updateExp 1000, .skillUp 2]

/-! ## Items and skills -/

theorem listedIn_start (hnone : player.skilled.skills = []) (h : start skills player rows = .ok w) :
    w.player.ListedIn w.windows := by
  obtain ⟨s, hits, property, added, hload, -, -, rfl⟩ := start_spec h
  obtain ⟨hskills, honly, -⟩ := loadSkills_spec hload
  constructor
  · funext localId
    show findKey ShownItem.localId localId (s.inventory.items.map ShownItem.of) = _
    unfold shownItems FullInventory.findByLocalId findKey
    rw [List.find?_map]
    rfl
  · show mirror (hits.foldl Windows.receive .blank).skills rows = _
    have hblank : player.shownSkills = Windows.blank.skills := by
      unfold shownSkills Skilled.getByIndex
      rw [hnone]
      rfl
    rw [(honly.receive .blank).2, hskills, hblank]

/-- The client lists the items and the skills that the player has, if the player has had no skill before
    they were loaded, and is found in sight of itself when it puts an item on or off. -/
theorem run_listedIn {w₀ : Watched} (hnone : player.skilled.skills = [])
    (hstart : start skills player rows = .ok w₀) (hfound : ∀ op ∈ ops, op.Found)
    (hrun : run (fun w => w.step skills specialty db) w₀ ops = .ok w) :
    (∀ localId, w.windows.items localId = (w.player.inventory.findByLocalId localId).map ShownItem.of) ∧
      ∀ index, w.windows.skills index = (w.player.skilled.getByIndex index).map Skill.level := by
  have hstep : ∀ (w : Watched) op (w' : Watched), w.player.ListedIn w.windows → op.Found →
      w.step skills specialty db op = .ok w' → w'.player.ListedIn w'.windows := by
    intro w op w' hw hfound hstep
    obtain ⟨s', packets, hhandle, rfl⟩ := step_handle hstep
    exact handle_follows hfound hhandle w.windows hw
  have hadm : Admissible (fun w : Watched => w.step skills specialty db) (fun _ op => op.Found) w₀ ops :=
    .of_forall (fun _ op hop => hfound op hop) w₀
  have hlisted := run_invariant hstep (listedIn_start hnone hstart) hadm hrun
  exact ⟨congrFun hlisted.items, congrFun hlisted.skills⟩

theorem run_listedIn_swordPlay : ∃ w₀ w, start Skilled.masteryDb knight [(2, 3)] = .ok w₀ ∧
    run (fun w => w.step Skilled.masteryDb strengthening FullInventory.swordAndShield) w₀ swordPlay =
      .ok w ∧ w.windows.skills 2 = some 4 ∧ w.windows.items 5 = some ⟨1, 5, itemPutOn, 1, 0, 0⟩ := by
  obtain ⟨w₀, w, hstart, hrun, hskill, hitem⟩ := exists_run _ _
    (fun w => (w.player.skilled.getByIndex 2).map Skill.level = some 4 ∧
      (w.player.inventory.findByLocalId 5).map ShownItem.of = some ⟨1, 5, itemPutOn, 1, 0, 0⟩)
    (show ((start Skilled.masteryDb knight [(2, 3)]).toOption.bind fun w₀ =>
      (run (fun w => w.step Skilled.masteryDb strengthening FullInventory.swordAndShield) w₀
        swordPlay).toOption).any _ = true by decide +kernel)
  have hfound : ∀ op ∈ swordPlay, op.Found := by simp [swordPlay, Op.Found]
  obtain ⟨hitems, hskills⟩ := run_listedIn rfl hstart hfound hrun
  exact ⟨w₀, w, hstart, hrun, (hskills 2).trans hskill, (hitems 5).trans hitem⟩

/-! ## Properties -/

/-- What the client shows of the properties. -/
structure Shows (w : Watched) : Prop where
  steady : Mirrors w.player.Right Field.Steady w.windows.properties
  lagging : Mirrors (w.player.atLevel w.toldLevel).Right Field.Lagging w.windows.properties
  told : ∀ field, field ≠ .level → (w.windows.properties field).isSome

/-- The first packet is right about what the second one does not tell; of its bytes only the job is among
    that. -/
theorem loadedProperty_spec {s : Equipped} {property : List (Field × UInt64)}
    (h : s.loadedProperty = .ok property) :
    property.map Prod.fst = loadedFields ∧
      ∀ update ∈ property, update.1 ∉ inventoryKinds.flatMap Property.fields →
        s.Right update.1 update.2 := by
  unfold loadedProperty at h
  cases hvalues : s.values loadedFields with
  | error fault =>
      rw [hvalues] at h
      cases h
  | ok values =>
      rw [hvalues] at h
      cases h
      obtain ⟨hfields, hright⟩ := values_spec hvalues
      constructor
      · rw [List.map_map, ← hfields]
        rfl
      · intro update hmem hnot
        obtain ⟨⟨field, v⟩, hv, rfl⟩ := List.mem_map.1 hmem
        have hvalue : s.value field = .ok v := hright _ hv
        by_cases hbyte : field ∈ byteFields
        · have hjob : ∀ field : Field, field ∈ byteFields →
              field ∉ inventoryKinds.flatMap Property.fields → field = .job := by
            decide
          obtain rfl := hjob field hbyte hnot
          rw [← Except.ok.inj hvalue]
          show s.value .job = _
          simp [value, byteFields]
        · simp only [if_neg hbyte]
          exact hvalue

theorem Shows.start (h : start skills player rows = .ok w) : w.Shows := by
  obtain ⟨s, hits, property, added, hload, hproperty, hadded, rfl⟩ := start_spec h
  obtain ⟨hloaded, hright⟩ := loadedProperty_spec hproperty
  obtain ⟨hfields, haddedRight⟩ := values_spec hadded
  -- before the properties only hits have been told
  have hsomewhere : ∀ field : Field, field ≠ .level →
      field ∈ loadedFields ∨ field ∈ inventoryKinds.flatMap Property.fields := by
    intro field
    cases field <;> decide
  have hlevel : (hits.foldl Windows.receive .blank).properties .level = none := by
    rw [properties_receive]
    rcases mirror_cases Windows.blank.properties (updates hits) .level with ⟨v, hmem, -⟩ | ⟨-, hold⟩
    · cases (loadSkills_spec hload).2.2 .level (List.mem_map_of_mem hmem)
    · exact hold
  constructor
  · intro field _ v hshown
    rcases mirror_cases (mirror _ property) added field with ⟨u, hmem, hu⟩ | ⟨hnot, hold⟩
    · rw [← Option.some.inj (hu.symm.trans hshown)]
      exact haddedRight _ hmem
    · rw [hfields] at hnot
      have hfirst := hold.symm.trans hshown
      rcases mirror_cases _ property field with ⟨u, hmem, hu⟩ | ⟨hnone, hbefore⟩
      · rw [← Option.some.inj (hu.symm.trans hfirst)]
        exact hright _ hmem hnot
      · rw [hloaded] at hnone
        have hfield : field = .level := by_contra fun hne => (hsomewhere field hne).elim hnone hnot
        subst hfield
        cases (hlevel.symm.trans hbefore.symm).trans hfirst
  · intro field hlag v hshown
    have hmem : field ∈ added.map Prod.fst := hfields ▸ lagging_inventoryKinds field hlag
    rcases mirror_cases (mirror _ property) added field with ⟨u, hu, hshow⟩ | ⟨hnot, -⟩
    · rw [← Option.some.inj (hshow.symm.trans hshown)]
      exact haddedRight _ hu
    · exact absurd hmem hnot
  · intro field hfield
    rcases hsomewhere field hfield with hmem | hmem
    · exact isSome_mirror (isSome_mirror_of_mem (hloaded ▸ hmem) _) added
    · exact isSome_mirror_of_mem (hfields ▸ hmem) _

theorem Shows.step (h : w.Shows) (hstep : w.step skills specialty db op = .ok w') : w'.Shows := by
  obtain ⟨s', packets, hhandle, rfl⟩ := step_handle hstep
  have htold := handle_told hhandle
  have hproperties : (w.tell (s', packets)).windows.properties =
      mirror w.windows.properties (updates packets) := properties_receive packets w.windows
  constructor
  · rw [hproperties]
    exact htold.steady _ h.steady
  · rw [hproperties]
    rcases htold.lagging with ⟨hmax, hright⟩ | ⟨hnot, hsame⟩
    · have hlevel : (w.tell (s', packets)).toldLevel = s'.data.level :=
        if_pos ((tellsMaxHp_iff packets).2 hmax)
      rw [hlevel]
      exact hright _
    · have hlevel : (w.tell (s', packets)).toldLevel = w.toldLevel :=
        if_neg fun h => hnot _ (by decide) ((tellsMaxHp_iff packets).1 h)
      rw [hlevel]
      refine h.lagging.update (fun update hmem hlag => ?_) fun field hlag _ v hv => ?_
      · exact absurd (List.mem_map_of_mem hmem) (hnot _ hlag)
      · exact (hsame w.toldLevel field hlag).trans hv
  · intro field hfield
    rw [hproperties]
    exact isSome_mirror (h.told field hfield) _

/-- The client shows every property as it is, but for the HP and MP, which change with hits, and for those
    that depend on the level: these are shown as they are at the level at which they were last told. -/
theorem run_properties {w₀ : Watched} (hstart : start skills player rows = .ok w₀)
    (hrun : run (fun w => w.step skills specialty db) w₀ ops = .ok w) :
    (∀ field : Field, field.Steady → field ≠ .level →
        ∃ v, w.windows.properties field = some v ∧ w.player.value field = .ok v) ∧
      (∀ v, w.windows.properties .level = some v → w.player.value .level = .ok v) ∧
      ∀ field : Field, field.Lagging →
        ∃ v, w.windows.properties field = some v ∧
          (w.player.atLevel w.toldLevel).value field = .ok v := by
  have hshows : w.Shows := run_preserves (fun _ _ _ => Shows.step) (Shows.start hstart) hrun
  refine ⟨fun field hsteady hne => ?_, fun v => hshows.steady .level (by decide) v, fun field hlag => ?_⟩
  · obtain ⟨v, hv⟩ := Option.isSome_iff_exists.1 (hshows.told field hne)
    exact ⟨v, hv, hshows.steady field hsteady v hv⟩
  · have hne : field ≠ .level := fun h => absurd hlag (h ▸ by decide)
    obtain ⟨v, hv⟩ := Option.isSome_iff_exists.1 (hshows.told field hne)
    exact ⟨v, hv, hshows.lagging field hlag v hv⟩

/-- The knight has gained levels since it has put on its sword. -/
theorem run_properties_swordPlay : ∃ w₀ w v, start Skilled.masteryDb knight [(2, 3)] = .ok w₀ ∧
    run (fun w => w.step Skilled.masteryDb strengthening FullInventory.swordAndShield) w₀ swordPlay =
      .ok w ∧ w.toldLevel < w.player.data.level ∧
    w.windows.properties .maxHp = some v ∧ (w.player.atLevel w.toldLevel).value .maxHp = .ok v := by
  obtain ⟨w₀, w, hstart, hrun, hlevel⟩ := exists_run _ _ (fun w => w.toldLevel < w.player.data.level)
    (show ((start Skilled.masteryDb knight [(2, 3)]).toOption.bind fun w₀ =>
      (run (fun w => w.step Skilled.masteryDb strengthening FullInventory.swordAndShield) w₀
        swordPlay).toOption).any _ = true by decide +kernel)
  obtain ⟨v, hshown, hvalue⟩ := (run_properties hstart hrun).2.2 .maxHp (by decide)
  exact ⟨w₀, w, v, hstart, hrun, hlevel, hshown, hvalue⟩

end Watched

end Bango.Characters
