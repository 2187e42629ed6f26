import Bango.Items.Proofs.Rows

set_option autoImplicit false

/-! # Once no message is in flight

The links are in order, so however the messages in flight are delivered, the DB server ends up with
the same rows for the player, and the player with the same items. What they are can be read off the
state. -/

namespace Bango.Items

open Bango.Lib

/-- A message reaches its server. -/
def Op.IsDelivery : Op → Prop
  | database | deliver => True
  | insertItem .. | trashItem _ | putOn _ | putOff _ | level _ | otherItem | otherMessage _ => False

namespace System

variable (db : ItemDb) (s : System)

/-- The player's items in memory. -/
def items : List Item := s.player.inventory.items

/-- The player's rows. -/
def rows : List Row := s.table.rowsOf s.player.pid

/-- No message is in flight. -/
def Quiet : Prop := s.toDb = [] ∧ s.toGame = []

instance : Decidable s.Quiet := inferInstanceAs (Decidable (_ ∧ _))

/-- The player's rows are its items, with the same index, quantity and info flags. -/
def Agrees : Prop := (s.items.map (·.info.content)).Perm (s.rows.map Row.content)

instance : Decidable s.Agrees := inferInstanceAs (Decidable (List.Perm _ _))

/-- Once no message is in flight, the rows are the items. -/
def Settles : Prop :=
  ∀ ops s', (∀ o ∈ ops, o.IsDelivery) → run (step db) s ops = .ok s' → s'.Quiet → s'.Agrees

/-- What the player's rows will hold. -/
def settled : List Content := Items.settled s.toDb s.rows

/-- Every message in flight is the player's, about a row that has got an id. -/
def AllSent : Prop := ∀ message ∈ s.toDb, message.Sent s.player.pid s.table.next

end System

variable {db : ItemDb} {s s' : System}

/-! ## Deliveries -/

/-- The state after the DB server has handled a message. -/
def System.handled (s : System) (message : S2D) (rest : List S2D) : System :=
  { s with
    table := (s.table.handle message).1
    toDb := rest
    toGame := s.toGame ++ (s.table.handle message).2.toList }

theorem step_database {message : S2D} {rest : List S2D} (h : s.toDb = message :: rest) :
    s.step db .database = .ok (s.handled message rest) := by
  simp [System.step, h, System.handled]

theorem step_deliver {reply : UpdateItemIid} {rest : List UpdateItemIid}
    (h : s.toGame = reply :: rest) :
    s.step db .deliver = .ok ({ s with toGame := rest }.onUpdateItemIid reply) := by
  simp [System.step, h]

/-- What a delivery does. -/
theorem delivery_cases {o : Op} (ho : o.IsDelivery) (h : s.step db o = .ok s') :
    (∃ message rest, s.toDb = message :: rest ∧ s' = s.handled message rest) ∨
    (∃ reply rest, s.toGame = reply :: rest ∧
      s' = { s with toGame := rest }.onUpdateItemIid reply) := by
  cases o with
  | database =>
      cases hdb : s.toDb with
      | nil => simp [System.step, hdb] at h
      | cons message rest =>
          rw [step_database hdb] at h
          exact .inl ⟨message, rest, rfl, (Except.ok.inj h).symm⟩
  | deliver =>
      cases hgame : s.toGame with
      | nil => simp [System.step, hgame] at h
      | cons reply rest =>
          rw [step_deliver hgame] at h
          exact .inr ⟨reply, rest, rfl, (Except.ok.inj h).symm⟩
  | insertItem | trashItem | putOn | putOff | level | otherItem | otherMessage => cases ho

/-- The items are the same, and the rows will be. -/
structure SettlesAs (s s' : System) : Prop where
  items : s'.items.map (·.info.content) = s.items.map (·.info.content)
  settled : s'.settled.Perm s.settled
  sent : s'.AllSent

namespace SettlesAs

theorem handled (hsent : s.AllSent) {message : S2D} {rest : List S2D}
    (hdb : s.toDb = message :: rest) : SettlesAs s (s.handled message rest) where
  items := rfl
  settled := by
    unfold System.AllSent at hsent
    unfold System.settled
    rw [hdb] at hsent ⊢
    exact ItemTable.settled_handle hsent
  sent m hm :=
    (hsent m (hdb ▸ List.mem_cons_of_mem message hm)).mono ItemTable.next_le_handle

theorem onUpdateItemIid (hsent : s.AllSent) (reply : UpdateItemIid) :
    SettlesAs s (s.onUpdateItemIid reply) := by
  unfold System.onUpdateItemIid
  split
  · exact ⟨map_updateKey (by intro item; rfl) _, List.Perm.refl _, hsent⟩
  · exact ⟨rfl, List.Perm.refl _, hsent⟩

theorem step (hsent : s.AllSent) {o : Op} (ho : o.IsDelivery) (h : s.step db o = .ok s') :
    SettlesAs s s' := by
  rcases delivery_cases ho h with ⟨message, rest, hdb, rfl⟩ | ⟨reply, rest, hgame, rfl⟩
  · exact handled hsent hdb
  · have hsent' : { s with toGame := rest }.AllSent := hsent
    obtain ⟨hitems, hsettled, hall⟩ := onUpdateItemIid hsent' reply
    exact ⟨hitems, hsettled, hall⟩

theorem run {ops : List Op} (hsent : s.AllSent) (hops : ∀ o ∈ ops, o.IsDelivery)
    (h : run (System.step db) s ops = .ok s') : SettlesAs s s' := by
  have hadm : Admissible (System.step db) (fun _ o => o.IsDelivery) s ops :=
    .of_forall (fun _ o ho => hops o ho) s
  refine run_invariant ?_ ⟨rfl, List.Perm.refl _, hsent⟩ hadm h
  intro t o t' ht ho hstep
  have hnext := step ht.sent ho hstep
  exact ⟨hnext.items.trans ht.items, hnext.settled.trans ht.settled, hnext.sent⟩

end SettlesAs

/-- The messages in flight can be delivered, each of those to the DB server with its reply. -/
theorem exists_run_quiet (db : ItemDb) (s : System) :
    ∃ ops s', (∀ o ∈ ops, Op.IsDelivery o) ∧ run (System.step db) s ops = .ok s' ∧ s'.Quiet := by
  refine exists_run_to (fun s => 2 * s.toDb.length + s.toGame.length) ?_ s
  intro s hquiet
  cases hdb : s.toDb with
  | cons message rest =>
      refine ⟨.database, _, trivial, step_database hdb, ?_⟩
      have hreply : (s.table.handle message).2.toList.length ≤ 1 := by
        cases (s.table.handle message).2 <;> simp
      simp only [System.handled, List.length_append, List.length_cons]
      omega
  | nil =>
      cases hgame : s.toGame with
      | nil => exact absurd ⟨hdb, hgame⟩ hquiet
      | cons reply rest =>
          refine ⟨.deliver, _, trivial, step_deliver hgame, ?_⟩
          unfold System.onUpdateItemIid
          split <;> simp [System.withInventory, hdb]

/-- Whether the rows will be the items can be read off the state. -/
theorem settles_iff (hsent : s.AllSent) :
    s.Settles db ↔ (s.items.map (·.info.content)).Perm s.settled := by
  have hagrees : ∀ ops s', (∀ o ∈ ops, Op.IsDelivery o) → run (System.step db) s ops = .ok s' →
      s'.Quiet → (s'.Agrees ↔ (s.items.map (·.info.content)).Perm s.settled) := by
    intro ops s' hops hrun hquiet
    obtain ⟨hitems, hsettled, -⟩ := SettlesAs.run hsent hops hrun
    have hrows : s'.settled = s'.rows.map Row.content := by
      unfold System.settled settled
      rw [hquiet.1]
      simp
    unfold System.Agrees
    rw [hitems, ← hrows]
    exact ⟨fun h => h.trans hsettled, fun h => h.trans hsettled.symm⟩
  constructor
  · intro hsettles
    obtain ⟨ops, s', hops, hrun, hquiet⟩ := exists_run_quiet db s
    exact (hagrees ops s' hops hrun hquiet).1 (hsettles ops s' hops hrun hquiet)
  · intro hperm ops s' hops hrun hquiet
    exact (hagrees ops s' hops hrun hquiet).2 hperm

end Bango.Items
