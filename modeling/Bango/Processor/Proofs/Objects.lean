import Bango.Lib.Runs
import Bango.Processor.Objects
import Bango.Processor.Proofs.Parser

set_option autoImplicit false

/-! # Nothing is lost and nothing freed twice

`destroy` frees the objects of the form that it is given, once each (`destroy_owned`). `OnLoad` owns what
it has made between two rounds, so it leaves the objects of the list that it returns, and none when it
returns the error. -/

namespace Bango.Processor

open Bango.Lib

variable {storage storage' : Storage Atom} {p : Pointer} {form : Var} {forms : List Var}
  {cells cells' : Multiset ℕ}

/-! ## `destroy` -/

/-- The objects are freed, and the others stay. -/
structure Destroyed (storage storage' : Storage Atom) (cells : Multiset ℕ) : Prop where
  length : storage'.length = storage.length
  same : ∀ address ∉ cells, storage'.object? address = storage.object? address
  none : ∀ address ∈ cells, storage'.object? address = none

theorem destroyed_free {address : ℕ} (h : address < storage.length) :
    Destroyed storage (List.set storage address none) {address} where
  length := List.length_set
  same other hmem := Storage.object?_set_of_ne fun heq => hmem (Multiset.mem_singleton.2 heq)
  none other hmem := by
    rw [Multiset.mem_singleton.1 hmem]
    exact Storage.object?_set h

theorem Destroyed.trans {storage'' : Storage Atom} (h : Destroyed storage storage' cells)
    (h' : Destroyed storage' storage'' cells') : Destroyed storage storage'' (cells + cells') where
  length := h'.length.trans h.length
  same address hmem := by
    rw [Multiset.mem_add, not_or] at hmem
    exact (h'.same address hmem.2).trans (h.same address hmem.1)
  none address hmem := by
    by_cases hlater : address ∈ cells'
    · exact h'.none address hlater
    · rw [h'.same address hlater]
      exact h.none address ((Multiset.mem_add.1 hmem).resolve_right hlater)

/-- Each object of the form is freed once. -/
theorem destroy_owned (h : Owns storage p form cells) (hnodup : cells.Nodup)
    (hsame : ∀ address ∈ cells, storage'.object? address = storage.object? address) {steps : ℕ}
    (hsteps : Multiset.card cells < steps) :
    ∃ storage'', destroy steps storage' p = .ok storage'' ∧ Destroyed storage' storage'' cells := by
  induction h generalizing storage' steps with
  | nil =>
      obtain ⟨steps, rfl⟩ := Nat.exists_eq_succ_of_ne_zero (Nat.ne_zero_of_lt hsteps)
      exact ⟨storage', rfl, rfl, fun _ _ => rfl, fun _ hmem => by cases hmem⟩
  | @atom address value hobject =>
      obtain ⟨steps, rfl⟩ := Nat.exists_eq_succ_of_ne_zero (Nat.ne_zero_of_lt hsteps)
      have hobject' := (hsame address (Multiset.mem_singleton_self _)).trans hobject
      refine ⟨_, ?_, destroyed_free (Storage.lt_length hobject')⟩
      rw [destroy, Storage.read_eq hobject', ok_bind]
      exact Storage.free_eq hobject'
  | @cons address car cdr form forms cells cells' hobject hcar hcdr ihcar ihcdr =>
      obtain ⟨steps, rfl⟩ := Nat.exists_eq_succ_of_ne_zero (Nat.ne_zero_of_lt hsteps)
      rw [Multiset.nodup_cons, Multiset.mem_add, not_or, Multiset.nodup_add] at hnodup
      obtain ⟨⟨hout, hout'⟩, hnodup, hnodup', hdisjoint⟩ := hnodup
      rw [Multiset.card_cons, Multiset.card_add] at hsteps
      have hobject' := (hsame address (Multiset.mem_cons_self _ _)).trans hobject
      have hsame' : ∀ other ∈ cells + cells', storage'.object? other = storage.object? other :=
        fun other hmem => hsame other (Multiset.mem_cons_of_mem hmem)
      have hsteps' : Multiset.card cells < steps ∧ Multiset.card cells' < steps := by omega
      -- first what the cell holds, then the cell, then the rest of the list
      obtain ⟨first, hfirst, hdestroyed⟩ := ihcar hnodup
        (fun other hmem => hsame' other (Multiset.mem_add.2 (.inl hmem))) hsteps'.1
      have hcell := (hdestroyed.same address hout).trans hobject'
      have hfreed := destroyed_free (Storage.lt_length hcell)
      have hsame'' : ∀ other ∈ cells',
          Storage.object? (List.set first address none) other = storage.object? other := by
        intro other hmem
        rw [hfreed.same other fun heq => hout' (Multiset.mem_singleton.1 heq ▸ hmem),
          hdestroyed.same other (Multiset.disjoint_right.1 hdisjoint hmem)]
        exact hsame' other (Multiset.mem_add.2 (.inr hmem))
      obtain ⟨last, hlast, hdestroyed'⟩ := ihcdr hnodup' hsame'' hsteps'.2
      refine ⟨last, ?_, ?_⟩
      · rw [destroy, Storage.read_eq hobject', ok_bind]
        dsimp only
        rw [hfirst, ok_bind, Storage.free_eq hcell, ok_bind, hlast]
      · have hall := (hdestroyed.trans hfreed).trans hdestroyed'
        have hperm : address ::ₘ (cells + cells') = cells + {address} + cells' := by
          rw [← Multiset.singleton_add, ← Multiset.add_assoc, Multiset.add_comm {address}]
        rwa [hperm]

/-! ## The list that is read -/

/-- A list of forms and its last cell. -/
inductive Chain (storage : Storage Atom) : Pointer → Option ℕ → List Var → Multiset ℕ → Prop where
  | nil : Chain storage .nil none [] 0
  | last {address : ℕ} {car : Pointer} {form : Var} {cells : Multiset ℕ} :
      storage.object? address = some (.cons car .nil) → Owns storage car form cells →
      Chain storage (.object address) (some address) [form] (address ::ₘ cells)
  | cons {address last : ℕ} {car cdr : Pointer} {form : Var} {forms : List Var}
      {cells cells' : Multiset ℕ} :
      storage.object? address = some (.cons car cdr) → Owns storage car form cells →
      Chain storage cdr (some last) forms cells' →
      Chain storage (.object address) (some last) (form :: forms) (address ::ₘ (cells + cells'))

namespace Chain

variable {last : Option ℕ}

theorem owns (h : Chain storage p last forms cells) : Owns storage p (.list forms) cells := by
  induction h with
  | nil => exact .nil
  | last hobject hcar =>
      rw [← Multiset.add_zero (_ ::ₘ _), Multiset.cons_add]
      exact .cons hobject hcar .nil
  | cons hobject hcar _ ih => exact .cons hobject hcar ih

theorem frame (h : Chain storage p last forms cells)
    (hsame : ∀ address ∈ cells, storage'.object? address = storage.object? address) :
    Chain storage' p last forms cells := by
  induction h with
  | nil => exact .nil
  | last hobject hcar =>
      refine .last ((hsame _ (Multiset.mem_cons_self _ _)).trans hobject) (hcar.frame fun a ha => ?_)
      exact hsame a (Multiset.mem_cons_of_mem ha)
  | cons hobject hcar _ ih =>
      refine .cons ((hsame _ (Multiset.mem_cons_self _ _)).trans hobject) (hcar.frame fun a ha => ?_)
        (ih fun a ha => ?_)
      · exact hsame a (Multiset.mem_cons_of_mem (Multiset.mem_add.2 (.inl ha)))
      · exact hsame a (Multiset.mem_cons_of_mem (Multiset.mem_add.2 (.inr ha)))

/-- A new cell behind the last one, which is written for it. -/
theorem append {address back : ℕ} {child : Pointer} (h : Chain storage p (some back) forms cells)
    (hnodup : cells.Nodup) (hcell : storage.object? address = some (.cons child .nil))
    (hout : address ∉ cells) (hchild : Owns storage child form cells')
    (hapart : ∀ other ∈ cells, other ∉ cells') :
    back ∈ cells ∧ ∃ car, storage.object? back = some (.cons car .nil) ∧
      Chain (List.set storage back (some (.cons car (.object address)))) p (some address)
        (forms ++ [form]) (cells + (address ::ₘ cells')) := by
  generalize hend : some back = last at h
  induction h with
  | nil => cases hend
  | @last first car form' cells hobject hcar =>
      cases hend
      rw [Multiset.nodup_cons] at hnodup
      have hfirst := Multiset.mem_cons_self back cells
      have hne : address ≠ back := (ne_of_mem_of_not_mem hfirst hout).symm
      refine ⟨hfirst, car, hobject, ?_⟩
      rw [Multiset.cons_add]
      refine .cons (Storage.object?_set (Storage.lt_length hobject)) (hcar.frame fun other hmem => ?_)
        (.last ((Storage.object?_set_of_ne hne).trans hcell) (hchild.frame fun other hmem => ?_))
      · exact Storage.object?_set_of_ne (ne_of_mem_of_not_mem hmem hnodup.1)
      · exact Storage.object?_set_of_ne (ne_of_mem_of_not_mem hmem (hapart back hfirst))
  | @cons first last car cdr form' forms cells cells'' hobject hcar hrest ih =>
      rw [Multiset.nodup_cons, Multiset.mem_add, not_or, Multiset.nodup_add] at hnodup
      obtain ⟨⟨-, hfirst⟩, -, hnodup', hdisjoint⟩ := hnodup
      rw [Multiset.mem_cons, Multiset.mem_add, not_or, not_or] at hout
      obtain ⟨hmem, car', hobject', hchain⟩ := ih hnodup' hout.2.2
        (fun other hother => hapart other (Multiset.mem_cons_of_mem (Multiset.mem_add.2 (.inr hother))))
        hend
      refine ⟨Multiset.mem_cons_of_mem (Multiset.mem_add.2 (.inr hmem)), car', hobject', ?_⟩
      rw [Multiset.cons_add, Multiset.add_assoc]
      refine .cons ?_ (hcar.frame fun other hother => ?_) hchain
      · rw [Storage.object?_set_of_ne (ne_of_mem_of_not_mem hmem hfirst).symm]
        exact hobject
      · refine Storage.object?_set_of_ne fun heq => ?_
        exact Multiset.disjoint_left.1 hdisjoint hother (heq ▸ hmem)

end Chain

/-! ## `OnLoad` -/

/-- What `OnLoad` has read, in a storage that has grown by it. -/
structure Reads (before : Storage Atom) (loading : Loading) (forms : List Var)
    (cells : Multiset ℕ) : Prop where
  chain : Chain loading.storage loading.varList loading.pList forms cells
  grown : Grown before loading.storage cells

variable {before : Storage Atom} {loading : Loading} {child : Pointer}

theorem reads_start (storage : Storage Atom) : Reads storage (.start storage) [] 0 :=
  ⟨.nil, .refl storage⟩

/-- The storage has grown by something else. -/
theorem Reads.grow (h : Reads before loading forms cells)
    (hgrown : Grown loading.storage storage' cells') :
    Chain storage' loading.varList loading.pList forms cells ∧
      Grown before storage' (cells + cells') := by
  have hlt := h.chain.owns.mem_lt
  exact ⟨h.chain.frame fun address hmem => hgrown.same address (hlt address hmem),
    h.grown.trans hgrown hlt⟩

/-- A form that has been made is put behind the others. -/
theorem Reads.append (h : Reads before loading forms cells)
    (hgrown : Grown loading.storage storage' cells') (hchild : Owns storage' child form cells') :
    ∃ after all, Loading.append { loading with storage := storage' } child = .ok after ∧
      Reads before after (forms ++ [form]) all := by
  obtain ⟨hchain, hboth⟩ := h.grow hgrown
  obtain ⟨own, varList, pList⟩ := loading
  dsimp only at hchain ⊢
  let allocated := (storage'.alloc (.cons child .nil)).1
  have hcell : Storage.object? allocated storage'.length = some (.cons child .nil) :=
    Storage.object?_alloc
  have hold : ∀ address < storage'.length,
      Storage.object? allocated address = storage'.object? address :=
    fun address hlt => Storage.object?_alloc_of_ne (Nat.ne_of_lt hlt)
  have hchain' : Chain allocated varList pList forms cells :=
    hchain.frame fun address hmem => hold address (hchain.owns.mem_lt address hmem)
  have hchild' : Owns allocated child form cells' :=
    hchild.frame fun address hmem => hold address (hchild.mem_lt address hmem)
  have hall : Grown before allocated (cells + (storage'.length ::ₘ cells')) := by
    have hlt : ∀ address ∈ cells + cells', address < storage'.length := by
      intro address hmem
      rcases Multiset.mem_add.1 hmem with hmem | hmem
      · exact hchain.owns.mem_lt address hmem
      · exact hchild.mem_lt address hmem
    have hperm : cells + (storage'.length ::ₘ cells') = cells + cells' + {storage'.length} := by
      rw [← Multiset.singleton_add, Multiset.add_comm {storage'.length}, Multiset.add_assoc]
    rw [hperm]
    exact hboth.trans (.alloc storage' _) hlt
  cases pList with
  | none =>
      cases hchain' with
      | nil =>
          refine ⟨_, _, rfl, .last hcell hchild', ?_⟩
          rwa [Multiset.zero_add] at hall
  | some last =>
      have hnodup := Multiset.nodup_add.1 hall.nodup
      have hout : storage'.length ∉ cells := fun hmem =>
        Nat.lt_irrefl _ (hchain.owns.mem_lt _ hmem)
      obtain ⟨hlast, car, hobject, happended⟩ := hchain'.append hnodup.1 hcell hout hchild'
        fun other hmem hmem' =>
          Multiset.disjoint_left.1 hnodup.2.2 hmem (Multiset.mem_cons_of_mem hmem')
      refine ⟨⟨_, varList, some storage'.length⟩, _, ?_, happended,
        hall.set (Multiset.mem_add.2 (.inl hlast)) _⟩
      simp only [Loading.append]
      exact congrArg (· >>= _) (Storage.setCdr_eq hobject)

theorem Reads.appendAtom (h : Reads before loading forms cells) (atom : Atom) :
    ∃ after all, loading.appendAtom atom = .ok after ∧
      Reads before after (forms ++ [.atom atom]) all :=
  h.append (.alloc loading.storage (.atom atom)) (.atom Storage.object?_alloc)

/-- The list is dropped, and nothing is left. -/
theorem Reads.drop (h : Reads before loading forms cells) (hgrown : Grown loading.storage storage' 0) :
    ∃ after, Loading.drop { loading with storage := storage' } = .ok after ∧ Grown before after 0 := by
  obtain ⟨hchain, hall⟩ := h.grow hgrown
  have hnodup := h.grown.nodup
  obtain ⟨after, hdestroy, hdestroyed⟩ := destroy_owned hchain.owns hnodup (fun _ _ => rfl)
    (Nat.lt_succ_of_le (hchain.owns.card_le hnodup))
  exact ⟨after, hdestroy, hall.freed hdestroyed.length.ge hdestroyed.same hdestroyed.none⟩

/-- What a call of `OnLoad` leaves of the objects that it has made: those of the forms that it has read
    already and of those that it adds, or none. -/
inductive Leaves (before : Storage Atom) (forms : List Var) :
    Option (List Var × List UInt8) → Except Trap (Storage Atom × Pointer × List UInt8) → Prop where
  | error {after : Storage Atom} {view : List UInt8} :
      Grown before after 0 → Leaves before forms none (.ok (after, .error, view))
  | list {after : Storage Atom} {var : Pointer} {more : List Var} {view : List UInt8}
      {cells : Multiset ℕ} :
      Owns after var (.list (forms ++ more)) cells → Grown before after cells →
      Leaves before forms (some (more, view)) (.ok (after, var, view))

/-- A form is read first. -/
theorem Leaves.cons {loaded : Option (List Var × List UInt8)}
    {outcome : Except Trap (Storage Atom × Pointer × List UInt8)}
    (h : Leaves before (forms ++ [form]) loaded outcome) :
    Leaves before forms (loaded.map fun r => (form :: r.1, r.2)) outcome := by
  cases h with
  | error hgrown => exact .error hgrown
  | list howns hgrown =>
      rw [List.append_assoc] at howns
      exact .list howns hgrown

theorem listp_of_owns {var : Pointer} (h : Owns storage var (.list forms) cells) :
    listp storage var = .ok true := by
  cases h with
  | nil => rfl
  | cons hobject _ _ =>
      rw [listp, Storage.read_eq hobject]
      rfl

theorem onLoadIn_atom {view : List UInt8} {calls : ℕ} {atom : Atom}
    (h : (getToken view).bracket? = some (.atom atom)) {after : Loading}
    (happend : loading.appendAtom atom = .ok after) :
    onLoadIn (calls + 1) view loading = onLoadIn calls (getToken view).view after := by
  rw [Lexed.bracket?] at h
  rw [onLoadIn]
  split at h
  · cases h
  · cases h
  · cases h
  · cases h
  all_goals
    rename_i htoken
    cases h
    simp only [htoken, happend, ok_bind]

theorem onLoadIn_leaves {view : List UInt8} {calls : ℕ} (h : Reads before loading forms cells)
    (hcalls : view.length < calls) :
    Leaves before forms (onLoad calls view) (onLoadIn calls view loading) := by
  induction calls generalizing view before loading forms cells with
  | zero => exact absurd hcalls (Nat.not_lt_zero _)
  | succ calls ih =>
      have hreturn : (getToken view).token = .tEnd ∨ (getToken view).token = .tClose →
          Leaves before forms (onLoad (calls + 1) view) (onLoadIn (calls + 1) view loading) := by
        intro hends
        have hload : onLoad (calls + 1) view = some ([], (getToken view).view) := by
          rw [onLoad]
          rcases hends with htoken | htoken <;> simp only [htoken]
        have hloadIn : onLoadIn (calls + 1) view loading =
            .ok (loading.storage, loading.varList, (getToken view).view) := by
          rw [onLoadIn]
          rcases hends with htoken | htoken <;> simp only [htoken] <;> rfl
        rw [hload, hloadIn]
        exact .list (by rw [List.append_nil]; exact h.chain.owns) h.grown
      have hatom : ∀ {atom}, (getToken view).bracket? = some (.atom atom) →
          Leaves before forms (onLoad (calls + 1) view) (onLoadIn (calls + 1) view loading) := by
        intro atom hbracket
        obtain ⟨after, all, happend, hreads⟩ := h.appendAtom atom
        have hlt := view_lt_of_bracket hbracket
        rw [onLoad_of_atom hbracket, onLoadIn_atom hbracket happend]
        exact (ih hreads (by omega)).cons
      cases htoken : (getToken view).token with
      | tEnd => exact hreturn (.inl htoken)
      | tClose => exact hreturn (.inr htoken)
      | tString => exact hatom (by rw [Lexed.bracket?, htoken])
      | tFloat => exact hatom (by rw [Lexed.bracket?, htoken])
      | tInteger => exact hatom (by rw [Lexed.bracket?, htoken])
      | tError =>
          obtain ⟨after, hdrop, hgrown⟩ := h.drop (.refl loading.storage)
          have hload : onLoad (calls + 1) view = none := by
            rw [onLoad]
            simp only [htoken]
          have hloadIn : onLoadIn (calls + 1) view loading =
              .ok (after, .error, (getToken view).view) := by
            rw [onLoadIn]
            simp only [htoken]
            rw [hdrop]
            rfl
          rw [hload, hloadIn]
          exact .error hgrown
      | tOpen =>
          have hbracket : (getToken view).bracket? = some .opening := by rw [Lexed.bracket?, htoken]
          have hlt := view_lt_of_bracket hbracket
          have hfewer : (getToken view).view.length < calls := by omega
          have hchild := ih (reads_start loading.storage) hfewer
          have hloads := onLoad_loads hfewer
          rw [onLoad_of_open htoken, onLoadIn]
          simp only [htoken]
          generalize onLoad calls (getToken view).view = loaded at hchild hloads
          generalize onLoadIn calls (getToken view).view (.start loading.storage) = outcome at hchild
          cases hchild with
          | error hgrown =>
              -- the child has been dropped already, and so is what was read before it
              obtain ⟨after, hdrop, hgrown'⟩ := h.drop hgrown
              simp only [ok_bind, listp, Option.bind_none]
              exact congrArg (· >>= _) hdrop ▸ .error hgrown'
          | list howns hgrown =>
              obtain ⟨after, all, happend, hreads⟩ := h.append hgrown howns
              have hle := hloads.view_le
              simp only [ok_bind, listp_of_owns howns, happend, if_true, Option.bind_some]
              exact (ih hreads (by omega)).cons

/-- Whatever the bytes are, `Load` is defined. When it returns the error, all that it has made is freed
    again, each object once; otherwise the list owns what is left, shows the forms that were read, and
    can be destroyed, after which nothing of it is left either. -/
theorem loadIn_owned (before : Storage Atom) (bytes : List UInt8) :
    ∃ after var, loadIn before bytes = .ok (after, var) ∧
      (load bytes = none → var = .error ∧ ∀ address, after.object? address = before.object? address) ∧
      ∀ forms, load bytes = some forms → ∃ cells : Multiset ℕ, cells.Nodup ∧
        Owns after var (.list forms) cells ∧
        (∀ address ∈ cells, before.object? address = none) ∧
        (∀ address ∉ cells, after.object? address = before.object? address) ∧
        ∃ final, destroy (after.length + 1) after var = .ok final ∧
          ∀ address, final.object? address = before.object? address := by
  have hleaves := onLoadIn_leaves (reads_start before) (Nat.lt_succ_self bytes.length)
  unfold load loadIn
  generalize onLoad (bytes.length + 1) bytes = loaded at hleaves
  generalize onLoadIn (bytes.length + 1) bytes (.start before) = outcome at hleaves
  cases hleaves with
  | error hgrown =>
      refine ⟨_, _, rfl, fun _ => ⟨rfl, hgrown.object?_eq⟩, ?_⟩
      intro forms hforms
      cases hforms
  | @list after var more view cells howns hgrown =>
      refine ⟨after, var, rfl, ?_, ?_⟩
      · intro hnone
        cases hnone
      · intro forms hforms
        obtain rfl := Option.some.inj hforms
        refine ⟨cells, hgrown.nodup, howns, fun address hmem => ?_, fun address hmem => ?_, ?_⟩
        · exact Storage.object?_of_le (hgrown.fresh address hmem)
        · by_cases hlt : address < before.length
          · exact hgrown.same address hlt
          · have hle := Nat.le_of_not_lt hlt
            rw [hgrown.gone address hmem hle, Storage.object?_of_le hle]
        · obtain ⟨final, hdestroy, hdestroyed⟩ := destroy_owned howns hgrown.nodup (fun _ _ => rfl)
            (Nat.lt_succ_of_le (howns.card_le hgrown.nodup))
          have hall : Grown before after (cells + 0) := (Multiset.add_zero cells).symm ▸ hgrown
          exact ⟨final, hdestroy,
            (hall.freed hdestroyed.length.ge hdestroyed.same hdestroyed.none).object?_eq⟩

end Bango.Processor
