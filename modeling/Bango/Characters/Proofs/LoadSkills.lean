import Bango.Characters.LoadSkills
import Bango.Characters.Proofs.LoadItems
import Bango.Characters.Proofs.Skills

set_option autoImplicit false

/-! # Which skills are loaded

The rows of a player arrive as they are in the table. The loop comes to its end as long as each of them
is a skill of the class that no row before it has been, and then it has used up the packet. -/

namespace Bango.Characters

open Bango.Lib Bango.Network

variable {db : SkillDb} {s s' : Skilled} {rows : List (UInt8 × UInt8)}

/-! ## The loop -/

namespace Skilled

variable (db s rows) in
/-- Each row is a skill of the class, and there is neither a skill nor another row of its index. -/
def CanAdd : Prop :=
  (∀ row ∈ rows, (db.findPlayerSkill s.player.data.playerClass row.1).isSome ∧
    s.getByIndex row.1 = none) ∧ (rows.map Prod.fst).Nodup

theorem add_eq_some_iff {index level : UInt8} :
    (∃ added, s.add db index level = some added) ↔
      (db.findPlayerSkill s.player.data.playerClass index).isSome ∧ s.getByIndex index = none := by
  unfold add createSkill
  cases db.findPlayerSkill s.player.data.playerClass index with
  | none => simp
  | some init => cases s.getByIndex index <;> simp

/-- A skill that is added is found, and the others are found as before. -/
theorem getByIndex_of_add {index level : UInt8} {skill : Skill} (h : s.add db index level = some (skill, s'))
    (index' : UInt8) :
    (s'.onApply skill 0).getByIndex index' =
      if index' = index then some skill else s.getByIndex index' := by
  obtain ⟨hmade, -, rfl⟩ := add_eq h
  obtain ⟨hindex, -⟩ := createSkill_eq hmade
  rw [getByIndex, onApply_skills, findKey_cons, hindex]
  exact if_congr eq_comm rfl rfl

theorem class_of_add {index level : UInt8} {skill : Skill} (h : s.add db index level = some (skill, s')) :
    (s'.onApply skill 0).player.data.playerClass = s.player.data.playerClass := by
  obtain ⟨-, -, rfl⟩ := add_eq h
  rw [onApply_player]

/-- After a row was added, the rows after it can be added if they could be before, and its index is not
    among theirs. -/
theorem canAdd_cons_iff {row : UInt8 × UInt8} {skill : Skill} (h : s.add db row.1 row.2 = some (skill, s')) :
    s.CanAdd db (row :: rows) ↔ (s'.onApply skill 0).CanAdd db rows := by
  have hadd := add_eq_some_iff.1 ⟨_, h⟩
  have hfresh : ∀ row' : UInt8 × UInt8, (s'.onApply skill 0).getByIndex row'.1 = none ↔
      row'.1 ≠ row.1 ∧ s.getByIndex row'.1 = none := by
    intro row'
    rw [getByIndex_of_add h]
    split_ifs with heq
    · simp [heq]
    · simp [heq]
  unfold CanAdd
  rw [List.forall_mem_cons, List.map_cons, List.nodup_cons, class_of_add h, List.mem_map]
  simp only [hfresh]
  constructor
  · rintro ⟨⟨-, hrows⟩, hnot, hnodup⟩
    exact ⟨fun row' hmem => ⟨(hrows row' hmem).1, fun heq => hnot ⟨row', hmem, heq⟩, (hrows row' hmem).2⟩,
      hnodup⟩
  · rintro ⟨hrows, hnodup⟩
    refine ⟨⟨hadd, fun row' hmem => ⟨(hrows row' hmem).1, (hrows row' hmem).2.2⟩⟩, ?_, hnodup⟩
    rintro ⟨row', hmem, heq⟩
    exact (hrows row' hmem).2.1 heq

theorem firstSkill_cons (row : UInt8 × UInt8) (index : UInt8) :
    s.firstSkill db (row :: rows) index =
      if row.1 = index then s.createSkill db row.1 row.2 else s.firstSkill db rows index := by
  unfold firstSkill
  rw [List.find?_cons]
  by_cases heq : row.1 = index
  · simp only [heq, decide_true, Option.bind_some, ↓reduceIte]
  · simp only [heq, decide_false, ↓reduceIte]

/-- With rows that can be added, the loop adds the first row of each index. -/
theorem onLoadSkills_of_canAdd (h : s.CanAdd db rows) :
    ∃ s', onLoadSkills db rows s = .ok s' ∧
      ∀ index, s'.getByIndex index = (s.getByIndex index).or (s.firstSkill db rows index) := by
  induction rows generalizing s with
  | nil => exact ⟨s, rfl, fun index => (Option.or_none).symm⟩
  | cons row rows ih =>
      obtain ⟨⟨skill, added⟩, hadd⟩ := add_eq_some_iff.2 (h.1 row List.mem_cons_self)
      obtain ⟨s', hload, hskills⟩ := ih ((canAdd_cons_iff hadd).1 h)
      obtain ⟨hmade, hnone, -⟩ := add_eq hadd
      have hfirst : ∀ index, (added.onApply skill 0).firstSkill db rows index =
          s.firstSkill db rows index := by
        intro index
        unfold firstSkill
        exact congrArg _ (funext fun row => createSkill_congr (class_of_add hadd) row.1 row.2)
      refine ⟨s', ?_, fun index => ?_⟩
      · rw [onLoadSkills, hadd]
        exact hload
      · rw [hskills, getByIndex_of_add hadd, hfirst, firstSkill_cons]
        by_cases heq : index = row.1
        · rw [if_pos heq, if_pos heq.symm, heq, hnone, hmade, Option.some_or, Option.none_or]
        · rw [if_neg heq, if_neg (Ne.symm heq)]

theorem onLoadSkills_of_not_canAdd (h : ¬ s.CanAdd db rows) :
    onLoadSkills db rows s = .error .cannotLoadSkill := by
  induction rows generalizing s with
  | nil => exact absurd ⟨fun row hmem => absurd hmem List.not_mem_nil, List.nodup_nil⟩ h
  | cons row rows ih =>
      rw [onLoadSkills]
      cases hadd : s.add db row.1 row.2 with
      | none => rfl
      | some added => exact ih ((canAdd_cons_iff hadd).not.1 h)

/-! ## The packets -/

/-- The bytes of some rows. -/
def rowBytes (rows : List (UInt8 × UInt8)) : List UInt8 :=
  (rows.flatMap fun row => [encode row.1, encode row.2]).flatten

theorem rowBytes_cons (row : UInt8 × UInt8) (rows : List (UInt8 × UInt8)) (rest : List UInt8) :
    rowBytes (row :: rows) ++ rest = encode row.1 ++ (encode row.2 ++ (rowBytes rows ++ rest)) := by
  unfold rowBytes
  simp only [List.flatMap_cons, List.flatten_append, List.flatten_cons, List.flatten_nil,
    List.append_nil, List.append_assoc]

/-- Entries of one size. -/
theorem length_flatten_flatMap {α : Type} {values : α → List (List UInt8)} {size : ℕ}
    (h : ∀ a, (values a).flatten.length = size) (entries : List α) :
    (entries.flatMap values).flatten.length = size * entries.length := by
  induction entries with
  | nil => rfl
  | cons entry entries ih =>
      rw [List.flatMap_cons, List.flatten_append, List.length_append, h, ih, List.length_cons,
        Nat.mul_succ, Nat.add_comm]

theorem length_rowBytes (rows : List (UInt8 × UInt8)) : (rowBytes rows).length = 2 * rows.length := by
  refine length_flatten_flatMap (fun row => ?_) rows
  simp only [List.flatten_cons, List.flatten_nil, List.length_append, Packed.length_encode']
  rfl

theorem length_skillEntries (rows : List (UInt8 × UInt8)) :
    (rows.flatMap skillEntry).flatten.length = 6 * rows.length := by
  refine length_flatten_flatMap (fun row => ?_) rows
  simp only [skillEntry, List.flatten_cons, List.flatten_nil, List.length_append,
    Packed.length_encode']
  rfl

/-- The loop reads what `onLoadSkills` takes, and all of it when no skill is missing. -/
theorem runBytes_popSkills (db : SkillDb) (rows : List (UInt8 × UInt8)) (s : Skilled) (packet : Packet) (rest : List UInt8) :
    ∃ left, (s.popSkills db rows.length packet).runBytes (rowBytes rows ++ rest) =
        .ok ((onLoadSkills db rows s).map fun s' =>
          (packet.pushes (rows.flatMap skillEntry), s'), left) ∧
      ∀ s', onLoadSkills db rows s = .ok s' → left = rest := by
  induction rows generalizing s packet with
  | nil => exact ⟨rest, rfl, fun _ _ => rfl⟩
  | cons row rows ih =>
      rw [rowBytes_cons, List.length_cons, popSkills, Pops.runBytes_get_bind, Pops.runBytes_get_bind,
        onLoadSkills]
      cases hadd : s.add db row.1 row.2 with
      | none => exact ⟨_, rfl, fun _ h => by cases h⟩
      | some added =>
          rw [List.flatMap_cons, Packet.pushes_append]
          exact ih _ _

end Skilled

variable {memory memory' : Memory}

/-- The rows of a player fit into a packet. -/
theorem loadSkills_holds (memory memory' : Memory) (id : UInt32) {rows : List SkillRow}
    (h : rows.length ≤ 255) :
    ∃ p, DatabaseManager.loadSkills memory memory' id rows = .ok p ∧
      p.Holds d2sSkillInfo (encode id ++
        (encode (UInt8.ofNat rows.length) ++ Skilled.rowBytes (rows.map SkillRow.pushed))) := by
  have hmax : maxPacketLength = 32768 := rfl
  have hvalues : (rows.flatMap fun row => [encode row.pushed.1, encode row.pushed.2]).flatten =
      Skilled.rowBytes (rows.map SkillRow.pushed) := by
    rw [Skilled.rowBytes, List.flatMap_map]
  have hlen := Skilled.length_rowBytes (rows.map SkillRow.pushed)
  rw [List.length_map] at hlen
  have hid : (encode id).length = 4 := Packed.length_encode id
  have hcount : (encode (UInt8.ofNat rows.length)).length = 1 := Packed.length_encode _
  have hskills := (Packet.Holds.new memory).pushes
    (rows.flatMap fun row => [encode row.pushed.1, encode row.pushed.2])
    (by rw [List.nil_append, hvalues, hlen]; omega)
  have hhead := (Packet.Holds.ofType memory' d2sSkillInfo).pushes
    [encode id, encode (UInt8.ofNat rows.length)]
    (by
      simp only [List.nil_append, List.flatten_cons, List.flatten_nil, List.length_append, hid, hcount]
      decide)
  obtain ⟨p, hmerge, hholds⟩ := hhead.merge hskills.carries
    (by
      simp only [List.nil_append, List.flatten_cons, List.flatten_nil, List.length_append, hid, hcount,
        hvalues, hlen]
      change 3 + (4 + (1 + 0) + 2 * rows.length) ≤ maxPacketLength
      omega)
  refine ⟨p, hmerge, ?_⟩
  simpa only [List.nil_append, List.flatten_cons, List.flatten_nil, List.append_nil, List.append_assoc,
    hvalues] using hholds

/-- The packet for the client carries the entries that it is given. -/
theorem skillInfo_holds (count : UInt8) {entries : List (UInt8 × UInt8)} (h : entries.length ≤ 255) :
    (((Packet.ofType memory s2cSkillInfo).pushes [encode count]).pushes
      (entries.flatMap skillEntry)).Holds s2cSkillInfo
        (encode count ++ (entries.flatMap skillEntry).flatten) := by
  have hmax : maxPacketLength = 32768 := rfl
  have hcount : (encode count).length = 1 := Packed.length_encode count
  have hlen := Skilled.length_skillEntries entries
  rw [← Packet.pushes_append]
  have hholds := (Packet.Holds.ofType memory s2cSkillInfo).pushes
    ([encode count] ++ entries.flatMap skillEntry)
    (by
      simp only [List.nil_append, List.singleton_append, List.flatten_cons, List.length_append, hcount,
        hlen]
      omega)
  simpa only [List.nil_append, List.singleton_append, List.flatten_cons] using hholds

/-! ## Loading -/

/-- The session of the player reads the number and then as many rows. -/
theorem runBytes_onLoadSkills (user : Skilled) {count : UInt8} {left : List UInt8}
    {result : Except Fault (Packet × Skilled)} (hcount : count.toNat = rows.length)
    (h : (user.popSkills db rows.length
      ((Packet.ofType memory s2cSkillInfo).pushes [encode count])).runBytes (Skilled.rowBytes rows ++ []) =
        .ok (result, left)) :
    (DBListener.onLoadSkills db memory user).runBytes
        (encode user.player.uid ++ (encode count ++ Skilled.rowBytes rows)) =
      .ok (some result, left) := by
  rw [List.append_nil] at h
  rw [DBListener.onLoadSkills, Pops.runBytes_get_bind, if_pos rfl, Pops.runBytes_bind,
    Player.onLoadSkills, Pops.runBytes_get_bind, hcount, h]
  rfl

/-- The rows arrive, and skills are made of them, or the null pointer is met. -/
theorem loadSkills_arrives (db : SkillDb) (memory memory' memory'' : Memory) (user : Skilled)
    {rows : List SkillRow} (h : rows.length ≤ 255) :
    (∃ result, Arrives (DatabaseManager.loadSkills memory memory' user.player.uid rows) d2sSkillInfo
        (DBListener.onLoadSkills db memory'' { user with skills := [] }) (some (.ok result)) ∧
      LoadsSkills db (rows.map SkillRow.pushed) { user with skills := [] } result) ↔
    Skilled.CanAdd db { user with skills := [] } (rows.map SkillRow.pushed) := by
  obtain ⟨p, hp, hholds⟩ := loadSkills_holds memory memory'
    user.player.uid h
  have hcount : (UInt8.ofNat rows.length).toNat = (rows.map SkillRow.pushed).length := by
    rw [List.length_map]
    exact UInt8.toNat_ofNat_of_lt' (by show rows.length < 256; omega)
  obtain ⟨left, hpop, hleft⟩ := Skilled.runBytes_popSkills db (rows.map SkillRow.pushed)
    { user with skills := [] }
    ((Packet.ofType memory'' s2cSkillInfo).pushes [encode (UInt8.ofNat rows.length)]) []
  rw [hp]
  by_cases hadd : Skilled.CanAdd db { user with skills := [] } (rows.map SkillRow.pushed)
  · refine iff_of_true ?_ hadd
    obtain ⟨s', hload, hskills⟩ := Skilled.onLoadSkills_of_canAdd hadd
    rw [hload] at hpop
    have hread := runBytes_onLoadSkills { user with skills := [] } hcount hpop
    rw [hleft s' hload] at hread
    refine ⟨_, hholds.arrives hread, fun index => ?_, _, rows.map SkillRow.pushed, hcount,
      skillInfo_holds _ (by rwa [List.length_map])⟩
    rw [hskills]
    exact Option.none_or
  · refine iff_of_false ?_ hadd
    rintro ⟨result, harrives, -⟩
    rw [Skilled.onLoadSkills_of_not_canAdd hadd] at hpop
    have hread := runBytes_onLoadSkills { user with skills := [] } hcount hpop
    cases hholds.eq_of_arrives hread harrives

/-- The skills of a player are loaded, the first row of each index that the class has, if and only if
    every row is a skill of the class and no two have the same index. -/
theorem loadsSkills_iff (db : SkillDb) (memory memory' memory'' : Memory) (user : Skilled)
    {rows : List SkillRow} (h : rows.length ≤ 255) :
    (∃ result, Arrives (DatabaseManager.loadSkills memory memory' user.player.uid rows) d2sSkillInfo
        (DBListener.onLoadSkills db memory'' { user with skills := [] }) (some (.ok result)) ∧
      LoadsSkills db (rows.map SkillRow.pushed) { user with skills := [] } result) ↔
    (∀ row ∈ rows, (db.findPlayerSkill user.player.data.playerClass row.pushed.1).isSome) ∧
      (rows.map fun row => row.pushed.1).Nodup := by
  rw [loadSkills_arrives db memory memory' memory'' user h, Skilled.CanAdd, List.forall_mem_map,
    List.map_map]
  refine and_congr (forall₂_congr fun row _ => ?_) Iff.rfl
  exact and_iff_left rfl

/-- A knight without skills. -/
def newKnight : Skilled := ⟨⟨9, Packed.decode [], [], 0, 0, 0, 0, 0, 0⟩, [], 0⟩

/-- A table in which every skill is the same. -/
def uniformSkills : SkillDb := fun _ => some ⟨1, 0, 0, 0, 20⟩

/-- Two skills. -/
theorem loadsSkills_two :
    ∃ result, Arrives (DatabaseManager.loadSkills (fun _ => 0) (fun _ => 0) 9 [⟨1, 3⟩, ⟨2, 5⟩]) d2sSkillInfo
        (DBListener.onLoadSkills uniformSkills (fun _ => 0) newKnight) (some (.ok result)) ∧
      LoadsSkills uniformSkills [(1, 3), (2, 5)] newKnight result :=
  (loadsSkills_iff uniformSkills (fun _ => 0) (fun _ => 0) (fun _ => 0) newKnight
    (by decide : [(⟨1, 3⟩ : SkillRow), ⟨2, 5⟩].length ≤ 255)).2 (by decide)

/-- A skill that is there twice. -/
theorem not_loadsSkills :
    ¬ ∀ (db : SkillDb) (user : Skilled) (rows : List SkillRow), rows.length ≤ 255 →
      ∃ result, Arrives (DatabaseManager.loadSkills (fun _ => 0) (fun _ => 0) user.player.uid rows)
          d2sSkillInfo (DBListener.onLoadSkills db (fun _ => 0) { user with skills := [] })
          (some (.ok result)) ∧
        LoadsSkills db (rows.map SkillRow.pushed) { user with skills := [] } result := by
  intro h
  have htwice := h uniformSkills newKnight [⟨1, 3⟩, ⟨1, 5⟩] (by decide)
  rw [loadSkills_arrives _ _ _ _ _ (by decide)] at htwice
  exact absurd htwice.2 (by decide)

end Bango.Characters
