import Bango.Space.Container
import Bango.World.Proofs.Callbacks

set_option autoImplicit false

/-! # The container of a leaf

`WorldMap::Container` as the container of the quadtree's leaves. Its `m_entities` keep each character
under its type, so a leaf holds a `Container` that is `Typed`. -/

namespace Bango.World

open Bango.Space

namespace Container

/-- `m_entities`. -/
def characters (c : Container) : Kind → List Character
  | .player => c.players
  | .npc => c.npcs
  | .monster => c.monsters
  | .loot => c.loots

/-- Change the characters of one type. -/
def modify (c : Container) (f : List Character → List Character) : Kind → Container
  | .player => { c with players := f c.players }
  | .npc => { c with npcs := f c.npcs }
  | .monster => { c with monsters := f c.monsters }
  | .loot => { c with loots := f c.loots }

/-- `insert`. The map of the type keeps what it has under an id. -/
def insert (c : Container) (entity : Character) : Container :=
  c.modify (List.insert entity) entity.kind

/-- `remove`. -/
def remove (c : Container) (entity : Character) : Container :=
  c.modify (fun l => l.erase entity) entity.kind

/-- `merge`. -/
def merge (c d : Container) : Container := d.all.foldl insert c

/-- The characters of the other types. -/
def others (c : Container) : Kind → List Character
  | .player => c.npcs ++ c.monsters ++ c.loots
  | .npc => c.players ++ c.monsters ++ c.loots
  | .monster => c.players ++ c.npcs ++ c.loots
  | .loot => c.players ++ c.npcs ++ c.monsters

variable {c : Container} {k : Kind} {f : List Character → List Character} {entity : Character}

theorem all_perm (c : Container) (k : Kind) : c.all.Perm (c.characters k ++ c.others k) := by
  unfold all
  cases k with
  | player => simp [characters, others]
  | npc =>
      simp only [characters, others, List.append_assoc]
      exact List.perm_append_comm_assoc _ _ _
  | monster =>
      simp only [characters, others, ← List.append_assoc]
      exact (List.perm_append_comm.trans (by rw [List.append_assoc])).append_right _
  | loot => exact List.perm_append_comm

@[simp]
theorem characters_modify : (c.modify f k).characters k = f (c.characters k) := by
  cases k <;> rfl

@[simp]
theorem others_modify : (c.modify f k).others k = c.others k := by
  cases k <;> rfl

theorem Typed.characters (hc : c.Typed) : ∀ x ∈ c.characters k, x.kind = k := by
  cases k
  · exact hc.players
  · exact hc.monsters
  · exact hc.npcs
  · exact hc.loots

/-- A character is filed under its type only. -/
theorem Typed.mem_characters (hc : c.Typed) (h : entity ∈ c.all) :
    entity ∈ c.characters entity.kind := by
  simp only [all, List.mem_append] at h
  rcases h with ((h | h) | h) | h
  · rw [hc.players _ h]; exact h
  · rw [hc.npcs _ h]; exact h
  · rw [hc.monsters _ h]; exact h
  · rw [hc.loots _ h]; exact h

theorem Typed.modify (hc : c.Typed) (hf : ∀ x ∈ f (c.characters k), x.kind = k) :
    (c.modify f k).Typed := by
  cases k
  · exact { hc with players := hf }
  · exact { hc with monsters := hf }
  · exact { hc with npcs := hf }
  · exact { hc with loots := hf }

theorem Typed.insert (hc : c.Typed) (entity : Character) : (c.insert entity).Typed := by
  refine hc.modify fun x hx => ?_
  rcases List.mem_insert_iff.1 hx with rfl | hx
  · rfl
  · exact hc.characters x hx

theorem Typed.remove (hc : c.Typed) (entity : Character) : (c.remove entity).Typed :=
  hc.modify fun x hx => hc.characters x (List.mem_of_mem_erase hx)

theorem insert_perm (h : entity ∉ c.all) : (c.insert entity).all.Perm (entity :: c.all) := by
  have hperm := c.all_perm entity.kind
  have hnew : entity ∉ c.characters entity.kind := fun hmem =>
    h (hperm.mem_iff.2 (List.mem_append_left _ hmem))
  refine ((c.insert entity).all_perm entity.kind).trans ?_
  simp only [insert, characters_modify, others_modify, List.insert_of_not_mem hnew,
    List.cons_append]
  exact (hperm.symm).cons entity

theorem insert_of_mem (h : entity ∈ c.characters entity.kind) : c.insert entity = c := by
  unfold insert
  cases hk : entity.kind <;> rw [hk] at h <;>
    simp only [characters] at h <;> simp [modify, List.insert_of_mem h]

theorem remove_perm (hc : c.Typed) : (c.remove entity).all.Perm (c.all.erase entity) := by
  have hperm := c.all_perm entity.kind
  refine ((c.remove entity).all_perm entity.kind).trans ?_
  simp only [remove, characters_modify, others_modify]
  by_cases h : entity ∈ c.all
  · rw [← List.erase_append_left _ (hc.mem_characters h)]
    exact (hperm.erase entity).symm
  · have hnot : entity ∉ c.characters entity.kind := fun hmem =>
      h (hperm.mem_iff.2 (List.mem_append_left _ hmem))
    rw [List.erase_of_not_mem h, List.erase_of_not_mem hnot]
    exact hperm.symm

theorem mem_insert {x : Character} (h : x ∈ (c.insert entity).all) : x = entity ∨ x ∈ c.all := by
  have hperm := c.all_perm entity.kind
  rw [((c.insert entity).all_perm entity.kind).mem_iff] at h
  simp only [insert, characters_modify, others_modify, List.mem_append, List.mem_insert_iff] at h
  rw [hperm.mem_iff, List.mem_append]
  tauto

theorem mem_remove {x : Character} (h : x ∈ (c.remove entity).all) : x ∈ c.all := by
  rw [((c.remove entity).all_perm entity.kind).mem_iff] at h
  simp only [remove, characters_modify, others_modify, List.mem_append] at h
  rw [(c.all_perm entity.kind).mem_iff, List.mem_append]
  exact h.imp_left List.mem_of_mem_erase

theorem mem_merge {d : Container} {x : Character} (h : x ∈ (c.merge d).all) :
    x ∈ c.all ∨ x ∈ d.all := by
  unfold merge at h
  generalize d.all = l at h ⊢
  induction l generalizing c with
  | nil => exact .inl h
  | cons y l ih =>
      rw [List.foldl_cons] at h
      rcases ih h with hx | hx
      · rcases mem_insert hx with rfl | hx
        · exact .inr List.mem_cons_self
        · exact .inl hx
      · exact .inr (List.mem_cons_of_mem y hx)

/-- Each character is filed once, under its type. -/
structure Filed (c : Container) : Prop where
  typed : c.Typed
  nodup : c.all.Nodup

namespace Filed

theorem empty : Filed ⟨[], [], [], []⟩ where
  typed := by constructor <;> simp
  nodup := List.nodup_nil

theorem insert (hc : c.Filed) (entity : Character) : (c.insert entity).Filed where
  typed := hc.typed.insert entity
  nodup := by
    by_cases h : entity ∈ c.all
    · rw [insert_of_mem (hc.typed.mem_characters h)]
      exact hc.nodup
    · exact (insert_perm h).nodup_iff.2 (List.nodup_cons.2 ⟨h, hc.nodup⟩)

theorem remove (hc : c.Filed) (entity : Character) : (c.remove entity).Filed where
  typed := hc.typed.remove entity
  nodup := (remove_perm hc.typed).nodup_iff.2 (hc.nodup.erase entity)

theorem merge (hc : c.Filed) (d : Container) : (c.merge d).Filed := by
  unfold Container.merge
  induction d.all generalizing c with
  | nil => exact hc
  | cons x l ih => exact ih (hc.insert x)

end Filed

theorem foldl_insert_perm {l : List Character} (hnodup : l.Nodup) (hdisj : c.all.Disjoint l) :
    (l.foldl insert c).all.Perm (c.all ++ l) := by
  induction l generalizing c with
  | nil => simp
  | cons x l ih =>
      obtain ⟨hx, hnodup⟩ := List.nodup_cons.1 hnodup
      obtain ⟨hcx, hdisj⟩ := List.disjoint_cons_right.1 hdisj
      have hperm := insert_perm hcx
      have hdisj' : (c.insert x).all.Disjoint l := by
        intro y hy hyl
        rcases List.mem_cons.1 (hperm.mem_iff.1 hy) with rfl | hy
        · exact hx hyl
        · exact hdisj hy hyl
      refine (ih hnodup hdisj').trans ?_
      exact (hperm.append_right l).trans List.perm_middle.symm

end Container

/-- What the leaves of the map's quadtree hold. -/
abbrev FiledContainer : Type := { c : Container // c.Filed }

instance : EntityContainer FiledContainer Character where
  empty := ⟨⟨[], [], [], []⟩, .empty⟩
  insert c entity := ⟨c.1.insert entity, c.2.insert entity⟩
  remove c entity := ⟨c.1.remove entity, c.2.remove entity⟩
  merge c d := ⟨c.1.merge d.1, c.2.merge d.1⟩
  size c := c.1.players.length + c.1.npcs.length + c.1.monsters.length + c.1.loots.length
  forEach c := c.1.all

instance : LawfulEntityContainer FiledContainer where
  forEach_empty := rfl
  insert_perm _ _ h := Container.insert_perm h
  remove_perm c _ _ := Container.remove_perm c.2.typed
  merge_perm _ d h := Container.foldl_insert_perm d.2.nodup h
  size_eq _ := by simp [EntityContainer.size, EntityContainer.forEach, Container.all, Nat.add_assoc]

instance : ConfinedEntityContainer FiledContainer where
  forEach_empty := rfl
  mem_insert h := Container.mem_insert h
  mem_remove h := Container.mem_remove h
  mem_merge h := Container.mem_merge h

end Bango.World
