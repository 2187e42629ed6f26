import Bango.Processor.ParseList
import Bango.Processor.Proofs.Cursor

set_option autoImplicit false

/-! # The stack of `ParseList`

The cells of the list that is read, of the lists around it and of the stack are all different, so what
`nreverse` writes is the list that is closed and nothing else (`nreverse_spec`). A round of `ParseList`
is then a step of `Bracket.build`, which reads back the forms that `Load` reads. -/

namespace Bango.Processor

open Bango.Lib

variable {heap heap' : Heap Atom}

/-! ## `nreverse` -/

/-- `nreverse` between two rounds, `v` being the first cell of a list of `forms`: what is left is `todo`,
    and the rest is turned round, but for the end of the last cell, which is `v` again. -/
inductive Reversing (heap : Heap Atom) (v : ℕ) (forms : List Var) (cells : Multiset ℕ) :
    ℕ → Heap Atom × Ref Atom × Ref Atom → Prop where
  | start : Shows heap (.cons v) (.list forms) cells → cells.Nodup →
      Reversing heap v forms cells forms.length (heap, .cons v, .null)
  | later {heap' : Heap Atom} {pInput pOutput : Ref Atom} {todo done : List Var}
      {left reversed : Multiset ℕ} :
      Shows heap' pInput (.list todo) left → todo ≠ [] →
      Shows (heap'.setCdr v .nil) pOutput (.list done) reversed → v ∈ reversed →
      forms = done.reverse ++ todo → cells = left + reversed → cells.Nodup →
      (∀ address ∉ cells, heap'[address]? = heap[address]?) →
      Reversing heap v forms cells todo.length (heap', pInput, pOutput)

/-- The list is turned round, in its own cells. -/
structure Reversed (heap : Heap Atom) (forms : List Var) (cells : Multiset ℕ)
    (r : Heap Atom × Ref Atom) : Prop where
  shows : Shows r.1 r.2 (.list forms.reverse) cells
  same : ∀ address ∉ cells, r.1[address]? = heap[address]?

/-- A round writes a cell `pObject` that is turned round with what is turned round already. -/
theorem nreverseStep_proper_of_turned {v pObject : ℕ} {pOutput : Ref Atom} {cell : Cell Atom}
    {form : Var} {forms todo done : List Var} {cells left reversed : Multiset ℕ}
    (hcell : heap'[pObject]? = some cell) (hleft : Shows heap' cell.cdr (.list todo) left)
    (hturned : Shows ((heap'.setCdr pObject pOutput).setCdr v .nil) (.cons pObject)
      (.list (form :: done)) reversed)
    (hv : v ∈ reversed) (hobject : pObject ∈ reversed) (hforms : forms = done.reverse ++ form :: todo)
    (hcells : cells = left + reversed) (hnodup : cells.Nodup)
    (hsame : ∀ address ∉ cells, heap'[address]? = heap[address]?) {size : ℕ} (hsize : todo.length < size) :
    ∃ next, nreverseStep v (heap', .cons pObject, pOutput) = .ok next ∧
      next.Proper (Reversing heap v forms cells) (fun _ => Reversed heap forms cells) size
        (heap', .cons pObject, pOutput) := by
  have hread : heap'.read pObject = .ok cell := Heap.read_eq hcell
  have hother : ∀ address ∉ cells,
      ((heap'.setCdr pObject pOutput))[address]? = heap[address]? := by
    intro address hmem
    rw [hcells, Multiset.mem_add, not_or] at hmem
    rw [Heap.getElem?_setCdr_ne (ne_of_mem_of_not_mem hobject hmem.2).symm]
    exact hsame address (by rw [hcells, Multiset.mem_add, not_or]; exact hmem)
  obtain ⟨car, cdr⟩ := cell
  cases hleft with
  | nil =>
      -- the last cell: the first one ends the list now
      have hstep : nreverseStep v (heap', .cons pObject, pOutput) =
          .ok (.ret ((heap'.setCdr pObject pOutput).setCdr v .nil, .cons pObject)) := by
        simp only [nreverseStep, Ref.address, hread, Ref.consp, ok_bind, Bool.false_eq_true, ↓reduceIte]
        rfl
      refine ⟨_, hstep, .ret ⟨?_, fun address hmem => ?_⟩⟩
      · rw [hforms, hcells, Multiset.zero_add, List.reverse_append, List.reverse_reverse,
          List.reverse_singleton, List.singleton_append]
        exact hturned
      · have hmem' := hmem
        rw [hcells, Multiset.zero_add] at hmem'
        rw [Heap.getElem?_setCdr_ne (ne_of_mem_of_not_mem hv hmem').symm]
        exact hother address hmem
  | @cons address cell form' todo cells' cells'' hcell' hcar' hcdr' =>
      have hstep : nreverseStep v (heap', .cons pObject, pOutput) =
          .ok (.goto (heap'.setCdr pObject pOutput, .cons address, .cons pObject)) := by
        simp only [nreverseStep, Ref.address, hread, Ref.consp, ok_bind, ↓reduceIte]
        rfl
      refine ⟨_, hstep, .goto (.later ?_ (List.cons_ne_nil _ _) hturned hv ?_ hcells hnodup hother) hsize
        fun _ h => h⟩
      · refine (Shows.cons hcell' hcar' hcdr').frame fun other hmem => ?_
        rw [hcells, Multiset.nodup_add] at hnodup
        exact Heap.getElem?_setCdr_ne
          (ne_of_mem_of_not_mem hmem (Multiset.disjoint_right.1 hnodup.2.2 hobject))
      · rw [hforms, List.reverse_cons, List.append_assoc, List.singleton_append]

theorem nreverseStep_proper {v : ℕ} {forms : List Var} {cells : Multiset ℕ} (size : ℕ)
    (s : Heap Atom × Ref Atom × Ref Atom) (h : Reversing heap v forms cells size s) :
    ∃ next, nreverseStep v s = .ok next ∧
      next.Proper (Reversing heap v forms cells) (fun _ => Reversed heap forms cells) size s := by
  cases h with
  | start hshows hnodup =>
      cases hshows with
      | @cons _ cell form todo cells' left hcell hcar hcdr =>
          have hv := Multiset.mem_cons_self v cells'
          have hmem : ∀ address ∈ cells', address ≠ v := by
            rintro address haddress rfl
            exact (Multiset.nodup_cons.1 hnodup).1 (Multiset.mem_add.2 (.inl haddress))
          have hturned : Shows ((heap.setCdr v .null).setCdr v .nil) (.cons v) (.list [form])
              (v ::ₘ cells') := by
            rw [← Multiset.add_zero cells']
            refine .cons (Heap.getElem?_setCdr (Heap.getElem?_setCdr hcell)) (hcar.frame ?_) .nil
            intro address haddress
            have hne := hmem address haddress
            rw [Heap.getElem?_setCdr_ne hne, Heap.getElem?_setCdr_ne hne]
          refine nreverseStep_proper_of_turned hcell hcdr hturned hv hv rfl ?_ hnodup (fun _ _ => rfl)
            (Nat.lt_succ_self _)
          rw [Multiset.add_cons, Multiset.add_comm]
  | @later heap' pInput pOutput todo done left reversed hleft hne hturned hv hforms hcells hnodup hsame =>
      cases hleft with
      | nil => exact absurd rfl hne
      | @cons pObject cell form todo cells' left hcell hcar hcdr =>
          have hperm : cells = left + (pObject ::ₘ (cells' + reversed)) := by
            rw [hcells, Multiset.cons_add, Multiset.add_cons, ← Multiset.add_assoc,
              Multiset.add_comm left cells']
          have hapart := hnodup
          rw [hperm, Multiset.nodup_add, Multiset.nodup_cons, Multiset.mem_add, not_or,
            Multiset.nodup_add] at hapart
          obtain ⟨-, ⟨⟨hcar', hreversed⟩, -, -, hdisjoint⟩, -⟩ := hapart
          have hturned' : Shows ((heap'.setCdr pObject pOutput).setCdr v .nil) (.cons pObject)
              (.list (form :: done)) (pObject ::ₘ (cells' + reversed)) := by
            have hobject : pObject ≠ v := (ne_of_mem_of_not_mem hv hreversed).symm
            refine .cons ((Heap.getElem?_setCdr_ne hobject).trans (Heap.getElem?_setCdr hcell))
              (hcar.frame fun address hmem => ?_) (hturned.frame fun address hmem => ?_)
            · rw [Heap.getElem?_setCdr_ne, Heap.getElem?_setCdr_ne]
              · exact ne_of_mem_of_not_mem hmem hcar'
              · exact (ne_of_mem_of_not_mem hv (Multiset.disjoint_left.1 hdisjoint hmem)).symm
            · exact Heap.getElem?_setCdr_setCdr_ne (ne_of_mem_of_not_mem hmem hreversed)
          exact nreverseStep_proper_of_turned hcell hcdr hturned'
            (Multiset.mem_cons_of_mem (Multiset.mem_add.2 (.inr hv))) (Multiset.mem_cons_self _ _) hforms
            hperm hnodup hsame (Nat.lt_succ_self _)

theorem nreverse_spec {v : Ref Atom} {forms : List Var} {cells : Multiset ℕ}
    (h : Shows heap v (.list forms) cells) (hnodup : cells.Nodup) {steps : ℕ}
    (hsteps : forms.length < steps) :
    ∃ r, nreverse steps heap v = .ok r ∧ Reversed heap forms cells r := by
  cases h with
  | nil => exact ⟨_, rfl, .nil, fun _ _ => rfl⟩
  | cons hcell hcar hcdr =>
      exact loop_total nreverseStep_proper (.start (.cons hcell hcar hcdr) hnodup) hsteps

/-! ## The stack -/

/-- The stack as a form: a cell of it holds the cells below it and then the list that is to go on. -/
def stackForm : List (List Var) → Var
  | [] => .list []
  | below :: stack => .list (stackForm stack :: below)

/-- Where `ParseList` is between two rounds: the open list and those around it are read so far, the last
    form first, and `Bracket.build` makes `forms` of them and of the rest. -/
structure Between (bytes : List UInt8) (forms : List Var) (parsing : Parsing) (top : List Var)
    (stack : List (List Var)) (cells cells' : Multiset ℕ) : Prop where
  buffer : parsing.parser.file.bytes = bytes
  inside : parsing.parser.file.Inside
  depth : parsing.parser.depth = Int32.ofNat stack.length
  extra : Bracket.depth stack.length (tokens parsing.parser.file.rest) ≠ none
  clean : Tokenizes parsing.parser.file.rest ↔ Tokenizes bytes
  reads : Tokenizes bytes → Bracket.build top stack (tokens parsing.parser.file.rest) = some forms
  shows : Shows parsing.heap parsing.top (.list top) cells
  stacked : Shows parsing.heap parsing.stack (stackForm stack) cells'
  nodup : (cells + cells').Nodup
  fits : ∀ list ∈ top :: stack, list.length + parsing.parser.file.rest.length ≤ bytes.length

/-- The rounds that are left are as many as the bytes at most. -/
def Parses (bytes : List UInt8) (forms : List Var) (size : ℕ) (parsing : Parsing) : Prop :=
  size = parsing.parser.file.rest.length ∧
    ∃ top stack cells cells', Between bytes forms parsing top stack cells cells'

/-- The callback is given the forms, or the error. -/
structure Gives (bytes : List UInt8) (forms : List Var) (parsed : Parsed) : Prop where
  list : Tokenizes bytes → ∃ cells, Shows parsed.heap parsed.var (.list forms) cells
  error : ¬ Tokenizes bytes → parsed.var = .error

section

variable {bytes : List UInt8} {forms top : List Var} {stack : List (List Var)}
  {cells cells' : Multiset ℕ} {parsing : Parsing} {after : XParser} {token : Token}

/-- A round is one step of a call that parses. -/
abbrev Rounds (bytes : List UInt8) (forms : List Var) (parsing : Parsing) :
    Next Parsing Parsed → Prop :=
  Next.Proper (Parses bytes forms) (fun _ => Gives bytes forms) parsing.parser.file.rest.length parsing

/-- What a token other than the last one leaves. -/
theorem Between.next (h : Between bytes forms parsing top stack cells cells')
    (hreads : parsing.parser.Reads (token, after)) {bracket : Bracket Atom}
    (hbracket : Lexed.bracket? ⟨token, after.symbol, []⟩ = some bracket) :
    after.file.bytes = bytes ∧ after.file.Inside ∧
      tokens parsing.parser.file.rest = bracket :: tokens after.file.rest ∧
      (Tokenizes after.file.rest ↔ Tokenizes bytes) ∧
      after.file.rest.length < parsing.parser.file.rest.length := by
  have hsome := hreads.bracket.symm.trans hbracket
  obtain ⟨htokens, hclean⟩ := tokens_of_some hsome
  have hlt := view_lt_of_bracket hsome
  have hrest := hreads.rest
  simp only at hrest
  rw [← hrest] at htokens hclean hlt
  exact ⟨hreads.bytes.trans h.buffer, hreads.inside, htokens, hclean.symm.trans h.clean, hlt⟩

/-- The cell that is allocated next is none of those that are used. -/
theorem Between.fresh (h : Between bytes forms parsing top stack cells cells') :
    parsing.heap.length ∉ cells + cells' := by
  rw [Multiset.mem_add, not_or]
  exact ⟨fun hmem => (h.shows.mem_lt _ hmem).false, fun hmem => (h.stacked.mem_lt _ hmem).false⟩

theorem Between.fits_next (h : Between bytes forms parsing top stack cells cells') {left : ℕ}
    (hleft : left < parsing.parser.file.rest.length) :
    ∀ list ∈ top :: stack, list.length + 1 + left ≤ bytes.length := by
  intro list hmem
  have hfits := h.fits list hmem
  omega

theorem rounds_atom (h : Between bytes forms parsing top stack cells cells')
    (hreads : parsing.parser.Reads (token, after)) {atom : Atom}
    (hatom : Lexed.bracket? ⟨token, after.symbol, []⟩ = some (.atom atom)) :
    Rounds bytes forms parsing (.goto ({ parsing with parser := after }.push (.atom atom))) := by
  obtain ⟨hbytes, hinside, htokens, hclean, hlt⟩ := h.next hreads hatom
  have hnesting : XParser.nesting token = 0 := by cases token <;> first | rfl | cases hatom
  have hdepth := hreads.depth
  refine .goto ⟨rfl, .atom atom :: top, stack, parsing.heap.length ::ₘ (0 + cells), cells', ?_⟩ hlt
    fun _ h => h
  constructor
  · exact hbytes
  · exact hinside
  · exact hdepth.trans (by rw [hnesting, Int32.add_zero, h.depth])
  · have hextra := h.extra
    rwa [htokens, Bracket.depth_atom] at hextra
  · exact hclean
  · intro hall
    have hforms := h.reads hall
    rwa [htokens, Bracket.build_atom] at hforms
  · exact .cons Heap.getElem?_alloc (.atom atom) (h.shows.alloc _)
  · exact h.stacked.alloc _
  · rw [Multiset.zero_add, Multiset.cons_add, Multiset.nodup_cons]
    exact ⟨h.fresh, h.nodup⟩
  · have hfits := h.fits_next hlt
    rw [List.forall_mem_cons] at hfits ⊢
    refine ⟨hfits.1, fun list hmem => ?_⟩
    have hlist := hfits.2 list hmem
    change list.length + after.file.rest.length ≤ bytes.length
    omega

theorem rounds_open (h : Between bytes forms parsing top stack cells cells')
    (hreads : parsing.parser.Reads (.tOpen, after)) :
    Rounds bytes forms parsing
      (.goto ⟨after, (parsing.heap.alloc ⟨parsing.stack, parsing.top⟩).1, .nil,
        .cons parsing.heap.length⟩) := by
  obtain ⟨hbytes, hinside, htokens, hclean, hlt⟩ := h.next hreads rfl
  have hdepth := hreads.depth
  refine .goto ⟨rfl, [], top :: stack, 0, parsing.heap.length ::ₘ (cells' + cells), ?_⟩ hlt
    fun _ h => h
  constructor
  · exact hbytes
  · exact hinside
  · exact hdepth.trans (by rw [h.depth]; exact (Int32.ofNat_add _ _).symm)
  · have hextra := h.extra
    rwa [htokens, Bracket.depth_opening] at hextra
  · exact hclean
  · intro hall
    have hforms := h.reads hall
    rwa [htokens, Bracket.build_opening] at hforms
  · exact .nil
  · exact .cons Heap.getElem?_alloc (h.stacked.alloc _) (h.shows.alloc _)
  · have hfresh := h.fresh
    have hnodup := h.nodup
    rw [Multiset.add_comm] at hfresh hnodup
    rw [Multiset.zero_add, Multiset.nodup_cons]
    exact ⟨hfresh, hnodup⟩
  · have hfits := h.fits_next hlt
    rw [List.forall_mem_cons]
    refine ⟨?_, fun list hmem => ?_⟩
    · have htop := hfits top List.mem_cons_self
      change 0 + after.file.rest.length ≤ bytes.length
      omega
    · have hlist := hfits list hmem
      change list.length + after.file.rest.length ≤ bytes.length
      omega

theorem rounds_close {below : List Var} {address : ℕ} {cell : Cell Atom} {cellsStack cellsBelow : Multiset ℕ}
    {r : Heap Atom × Ref Atom}
    (h : Between bytes forms parsing top (below :: stack) cells
      (address ::ₘ (cellsStack + cellsBelow)))
    (hreads : parsing.parser.Reads (.tClose, after)) (hcell : parsing.heap[address]? = some cell)
    (hcar : Shows parsing.heap cell.car (stackForm stack) cellsStack)
    (hcdr : Shows parsing.heap cell.cdr (.list below) cellsBelow)
    (hreversed : Reversed parsing.heap top cells r) :
    Rounds bytes forms parsing
      (.goto ⟨after, r.1.setCar address r.2, .cons address, cell.car⟩) := by
  obtain ⟨hbytes, hinside, htokens, hclean, hlt⟩ := h.next hreads rfl
  have hdepth := hreads.depth
  have hapart := h.nodup
  rw [Multiset.nodup_add, Multiset.nodup_cons, Multiset.mem_add, not_or, Multiset.disjoint_right,
    Multiset.forall_mem_cons] at hapart
  obtain ⟨-, ⟨⟨hstack, hbelow⟩, -⟩, hcells, hother⟩ := hapart
  -- what is neither turned round nor the cell of the stack is as it was
  have hframe : ∀ other ∈ cellsStack + cellsBelow, other ≠ address →
      (r.1.setCar address r.2)[other]? = parsing.heap[other]? := by
    intro other hmem hne
    rw [Heap.getElem?_setCar_ne hne]
    exact hreversed.same other (hother other hmem)
  refine .goto ⟨rfl, .list top.reverse :: below, stack, address ::ₘ (cells + cellsBelow), cellsStack, ?_⟩
    hlt fun _ h => h
  constructor
  · exact hbytes
  · exact hinside
  · have hback : Int32.ofNat 1 + XParser.nesting .tClose = 0 := rfl
    refine hdepth.trans ?_
    rw [h.depth, List.length_cons, Int32.ofNat_add, Int32.add_assoc, hback, Int32.add_zero]
  · have hextra := h.extra
    rwa [htokens, List.length_cons, Bracket.depth_closing_succ] at hextra
  · exact hclean
  · intro hall
    have hforms := h.reads hall
    rwa [htokens, Bracket.build_closing] at hforms
  · refine .cons (Heap.getElem?_setCar ((hreversed.same address hcells).trans hcell)) ?_ ?_
    · exact hreversed.shows.frame fun other hmem =>
        Heap.getElem?_setCar_ne (ne_of_mem_of_not_mem hmem hcells)
    · exact hcdr.frame fun other hmem =>
        hframe other (Multiset.mem_add.2 (.inr hmem)) (ne_of_mem_of_not_mem hmem hbelow)
  · exact hcar.frame fun other hmem =>
      hframe other (Multiset.mem_add.2 (.inl hmem)) (ne_of_mem_of_not_mem hmem hstack)
  · have hnodup := h.nodup
    rwa [Multiset.add_cons, Multiset.add_comm cellsStack, ← Multiset.add_assoc,
      ← Multiset.cons_add] at hnodup
  · have hfits := h.fits_next hlt
    rw [List.forall_mem_cons, List.forall_mem_cons] at hfits
    rw [List.forall_mem_cons]
    refine ⟨hfits.2.1, fun list hmem => ?_⟩
    have hlist := hfits.2.2 list hmem
    change list.length + after.file.rest.length ≤ bytes.length
    omega

variable {steps : ℕ}

theorem parseStep_close (h : Between bytes forms parsing top stack cells cells')
    (hsteps : bytes.length < steps) (hget : parsing.parser.getToken steps = .ok (.tClose, after))
    (hreads : parsing.parser.Reads (.tClose, after)) :
    ∃ next, XParser.parseStep steps parsing = .ok next ∧ Rounds bytes forms parsing next := by
  have hfits := h.fits top List.mem_cons_self
  obtain ⟨r, hnreverse, hreversed⟩ :=
    nreverse_spec h.shows (Multiset.nodup_add.1 h.nodup).1 (Nat.lt_of_le_of_lt (by omega) hsteps)
  cases stack with
  | nil =>
      obtain ⟨-, -, htokens, -⟩ := h.next hreads rfl
      have hextra := h.extra
      rw [htokens] at hextra
      exact absurd rfl hextra
  | cons below stack =>
      have hstacked := h.stacked
      rw [stackForm] at hstacked
      generalize hstack : parsing.stack = ref at hstacked
      cases hstacked with
      | @cons address cell _ _ cellsStack cellsBelow hcell hcar hcdr =>
          refine ⟨_, ?_, rounds_close h hreads hcell hcar hcdr hreversed⟩
          have hread : r.1.read address = .ok cell := by
            have hnotMem : address ∉ cells :=
              Multiset.disjoint_right.1 (Multiset.nodup_add.1 h.nodup).2.2 (Multiset.mem_cons_self _ _)
            exact Heap.read_eq ((hreversed.same address hnotMem).trans hcell)
          rw [XParser.parseStep, hget, ok_bind]
          simp only [hnreverse, hstack, Ref.consp, Ref.address, ok_bind, hread, ↓reduceIte]
          rfl

theorem parseStep_end (h : Between bytes forms parsing top stack cells cells')
    (hsteps : bytes.length < steps) (hget : parsing.parser.getToken steps = .ok (.tEnd, after))
    (hreads : parsing.parser.Reads (.tEnd, after)) :
    ∃ next, XParser.parseStep steps parsing = .ok next ∧ Rounds bytes forms parsing next := by
  obtain ⟨hnil, hall⟩ := tokens_of_end hreads.token.symm
  have hforms := h.reads (h.clean.1 hall)
  rw [hnil] at hforms
  cases stack with
  | cons below stack => cases hforms
  | nil =>
      cases hforms
      have hfits := h.fits top List.mem_cons_self
      obtain ⟨r, hnreverse, hreversed⟩ :=
        nreverse_spec h.shows (Multiset.nodup_add.1 h.nodup).1 (Nat.lt_of_le_of_lt (by omega) hsteps)
      have hdepth : after.depth = 0 := hreads.depth.trans (by rw [h.depth]; rfl)
      have hstack : parsing.stack = .nil := by
        have hstacked := h.stacked
        rw [stackForm] at hstacked
        generalize parsing.stack = ref at hstacked
        cases hstacked
        rfl
      refine ⟨.ret ⟨after, r.1, r.2⟩, ?_, .ret ⟨fun _ => ⟨cells, hreversed.shows⟩, fun herror => ?_⟩⟩
      · rw [XParser.parseStep, hget, ok_bind]
        simp only [hnreverse, hstack, hdepth, ok_bind, ne_eq, not_true_eq_false, ↓reduceIte]
        rfl
      · exact absurd (h.clean.1 hall) herror

/-- A round of `ParseList` is a step of `Bracket.build`. -/
theorem parseStep_rounds (hsteps : 2 * bytes.length < steps) (size : ℕ) (parsing : Parsing)
    (h : Parses bytes forms size parsing) :
    ∃ next, XParser.parseStep steps parsing = .ok next ∧
      next.Proper (Parses bytes forms) (fun _ => Gives bytes forms) size parsing := by
  obtain ⟨rfl, top, stack, cells, cells', h⟩ := h
  obtain ⟨⟨token, after⟩, hget, hreads⟩ :=
    XParser.getToken_reads parsing.parser h.inside (h.buffer ▸ hsteps)
  cases token with
  | tEnd => exact parseStep_end h (by omega) hget hreads
  | tClose => exact parseStep_close h (by omega) hget hreads
  | tOpen =>
      refine ⟨_, ?_, rounds_open h hreads⟩
      rw [XParser.parseStep, hget, ok_bind]
      rfl
  | tError =>
      have herror : ¬ Tokenizes bytes :=
        h.clean.not.1 (tokens_of_error hreads.token.symm).2
      refine ⟨.ret ⟨after, parsing.heap, .error⟩, ?_, .ret ⟨fun hall => absurd hall herror, fun _ => rfl⟩⟩
      rw [XParser.parseStep, hget, ok_bind]
      rfl
  | tString | tInteger | tFloat =>
      refine ⟨_, ?_, rounds_atom h hreads rfl⟩
      rw [XParser.parseStep, hget, ok_bind]
      rfl

end

/-! ## `ParseList` and `Load` -/

/-- The callback is given a value of `Load`. -/
def Parsed.Is (parsed : Parsed) : Option (List Var) → Prop
  | none => parsed.var = .error
  | some forms => ∃ cells, Shows parsed.heap parsed.var (.list forms) cells

theorem Parsed.Is.error_iff {parsed : Parsed} {loaded : Option (List Var)} (h : parsed.Is loaded) :
    parsed.var = .error ↔ loaded = none := by
  cases loaded with
  | none => exact iff_of_true h rfl
  | some forms =>
      obtain ⟨cells, hshows⟩ := h
      refine iff_of_false (fun herror => ?_) (Option.some_ne_none forms)
      rw [herror] at hshows
      cases hshows

theorem parseList_gives {bytes : List UInt8} {forms : List Var} {steps : ℕ}
    (hsteps : 2 * bytes.length < steps) (hextra : Bracket.NoExtraClosing (tokens bytes))
    (hforms : Tokenizes bytes → Bracket.build [] [] (tokens bytes) = some forms) (parser : XParser)
    (heap : Heap Atom) :
    ∃ parsed, (parser.open (.open bytes)).parseList steps heap = .ok parsed ∧
      Gives bytes forms parsed := by
  have hbetween : Between bytes forms ⟨parser.open (.open bytes), heap, .nil, .nil⟩ [] [] 0 0 :=
    { buffer := rfl
      inside := XFile.inside_open bytes
      depth := rfl
      extra := hextra
      clean := Iff.rfl
      reads := hforms
      shows := .nil
      stacked := .nil
      nodup := Multiset.nodup_zero
      fits := fun list hmem => by
        rw [List.mem_singleton.1 hmem, List.length_nil, Nat.zero_add]
        exact Nat.le_refl _ }
  have hlength : bytes.length < steps := by omega
  exact loop_total (parseStep_rounds hsteps) ⟨rfl, [], [], 0, 0, hbetween⟩ hlength

/-- As long as no bracket is closed that was not opened, and none is left open at the end, `ParseList`
    gives its callback what `Load` returns, and this is the error if and only if a token is one. -/
theorem parseList_is_load {bytes : List UInt8} (hextra : Bracket.NoExtraClosing (tokens bytes))
    (hclosed : Tokenizes bytes → Bracket.Balanced (tokens bytes)) :
    ∃ enough, ∀ steps ≥ enough, ∀ (parser parser' : XParser) (heap : Heap Atom),
      ∃ loaded after parsed, parser.load steps (.open bytes) = .ok (loaded, after) ∧
        (parser'.open (.open bytes)).parseList steps heap = .ok parsed ∧ parsed.Is loaded ∧
        (loaded = none ↔ ¬ Tokenizes bytes) ∧ (parsed.var = .error ↔ ¬ Tokenizes bytes) := by
  refine ⟨2 * bytes.length + 1, fun steps hsteps parser parser' heap => ?_⟩
  obtain ⟨after, hload, -⟩ := parser.load_refines (XFile.inside_open bytes) hsteps
  by_cases hall : Tokenizes bytes
  · obtain ⟨forms, hforms, hword⟩ := load_of_balanced hall (hclosed hall)
    obtain ⟨parsed, hparse, hgives⟩ := parseList_gives hsteps hextra
      (fun _ => hword ▸ Bracket.build_writeAll forms) parser' heap
    have his : parsed.Is (some forms) := hgives.list hall
    have hsome : (some forms : Option (List Var)) = none ↔ ¬ Tokenizes bytes :=
      iff_of_false (Option.some_ne_none forms) (not_not_intro hall)
    rw [XFile.rest_open, hforms] at hload
    exact ⟨some forms, after, parsed, hload, hparse, his, hsome, his.error_iff.trans hsome⟩
  · have hnone := load_of_error hall hextra
    have hnever : Tokenizes bytes → Bracket.build [] [] (tokens bytes) = some [] :=
      fun h => absurd h hall
    obtain ⟨parsed, hparse, hgives⟩ := parseList_gives hsteps hextra hnever parser' heap
    have his : parsed.Is none := hgives.error hall
    have hsome : (none : Option (List Var)) = none ↔ ¬ Tokenizes bytes := iff_of_true rfl hall
    rw [XFile.rest_open, hnone] at hload
    exact ⟨none, after, parsed, hload, hparse, his, hsome, his.error_iff.trans hsome⟩

/-- The text "(1)". -/
theorem parseList_is_load_one :
    ∃ steps loaded after parsed,
      XParser.load steps ⟨.open [], 0, []⟩ (.open [openParen, 49, closeParen]) = .ok (loaded, after) ∧
        XParser.parseList steps ⟨.open [openParen, 49, closeParen], 0, []⟩ [] = .ok parsed ∧
        parsed.Is loaded := by
  have hopen : (getToken [openParen, 49, closeParen]).bracket? = some .opening := rfl
  have hone : (getToken [49, closeParen]).bracket? = some (.atom (.integer 1)) := rfl
  have hclose : (getToken [closeParen]).bracket? = some .closing := rfl
  have htokens : tokens [openParen, 49, closeParen] =
      [.opening, .atom (.integer 1), .closing] := by
    rw [(tokens_of_some hopen).1, show (getToken [openParen, 49, closeParen]).view = [49, closeParen]
        from rfl, (tokens_of_some hone).1, show (getToken [49, closeParen]).view = [closeParen] from rfl,
      (tokens_of_some hclose).1, show (getToken [closeParen]).view = [] from rfl,
      (tokens_of_end rfl).1]
  obtain ⟨enough, h⟩ := parseList_is_load (by rw [htokens]; decide) fun _ => by rw [htokens]; decide
  obtain ⟨loaded, after, parsed, hload, hparse, his, -⟩ :=
    h enough (Nat.le_refl _) ⟨.open [], 0, []⟩ ⟨.open [], 0, []⟩ []
  exact ⟨enough, loaded, after, parsed, hload, hparse, his⟩

end Bango.Processor
