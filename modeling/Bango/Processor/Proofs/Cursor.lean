import Mathlib.Data.List.Basic
import Bango.Lib.Runs
import Bango.Processor.Cursor
import Bango.Processor.Proofs.Parser

set_option autoImplicit false

/-! # The cursor stays inside

A label reads a byte only after the cursor was found not to be at the end, and goes back only over a byte
that it has read. So the cursor never leaves the buffer, and a call reads what `lexFrom` reads of the
bytes that are left (`getToken_scans`). -/

namespace Bango.Processor

open Bango.Lib

/-! ## The file -/

namespace XFile

variable {file : XFile} {ch : UInt8} {tail : List UInt8}

theorem inside_open (bytes : List UInt8) : («open» bytes).Inside :=
  ⟨Int.le_refl 0, Int.natCast_nonneg _⟩

theorem rest_open (bytes : List UInt8) : («open» bytes).rest = bytes := rfl

theorem length_rest (h : file.Inside) : (file.rest.length : Int) = file.bytes.length - file.view := by
  obtain ⟨hle, hle'⟩ := h
  rw [rest, List.length_drop]
  omega

/-- At the end, nothing is left. -/
theorem atEnd_of_rest_nil (h : file.Inside) (hrest : file.rest = []) : file.atEnd = true := by
  have hlength := length_rest h
  rw [hrest, List.length_nil] at hlength
  rw [atEnd, decide_eq_true_iff]
  omega

theorem atEnd_of_rest_cons (h : file.Inside) (hrest : file.rest = ch :: tail) :
    file.atEnd = false := by
  have hlength := length_rest h
  rw [hrest, List.length_cons] at hlength
  rw [atEnd, decide_eq_false_iff_not]
  omega

theorem peek_of_rest_cons (h : file.Inside) (hrest : file.rest = ch :: tail) :
    file.peek = .ok ch := by
  have hget : file.bytes[file.view.toNat]? = file.rest.head? := List.head?_drop.symm
  rw [peek, if_neg (Int.not_lt.2 h.1), hget, hrest]
  rfl

theorem inside_advance (h : file.Inside) (hrest : file.rest = ch :: tail) :
    Inside { file with view := file.view + 1 } := by
  have hlength := length_rest h
  rw [hrest, List.length_cons] at hlength
  obtain ⟨hle, hle'⟩ := h
  exact ⟨Int.le_add_one hle, by dsimp only; omega⟩

theorem rest_advance (h : file.Inside) (hrest : file.rest = ch :: tail) :
    rest { file with view := file.view + 1 } = tail := by
  have htail : file.rest.tail = file.bytes.drop (file.view.toNat + 1) := List.tail_drop
  rw [hrest, List.tail_cons] at htail
  rw [rest, htail]
  exact congrArg (file.bytes.drop ·) (Int.toNat_add_nat h.1 1)

end XFile

/-! ## A label -/

namespace XParser

variable {parser : XParser} {state : State} {ch : UInt8} {tail : List UInt8}

theorem back_advance (parser : XParser) : parser.advance.back = parser := by
  have hview : parser.file.view + 1 - 1 = parser.file.view := Int.add_sub_cancel _ _
  rw [back, advance]
  simp only [hview]

/-- What a token does to `m_nDepth`. -/
def nesting : Token → Int32
  | .tOpen => 1
  | .tClose => -1
  | _ => 0

/-- What a call of `GetToken` is to come to, from a label on. -/
structure Scans (s : State × XParser) (r : Token × XParser) : Prop where
  bytes : r.2.file.bytes = s.2.file.bytes
  inside : r.2.file.Inside
  depth : r.2.depth = s.2.depth + nesting r.1
  lexed : lexFrom s.1 s.2.symbol s.2.file.rest = ⟨r.1, r.2.symbol, r.2.file.rest⟩

/-- Bytes that are left; a comment takes a round more, for the byte that ends it. -/
def size (s : State × XParser) : ℕ :=
  2 * s.2.file.rest.length + if s.1 = .comment then 1 else 0

/-- A round is one step of a call that scans. -/
abbrev Proper (s : State × XParser) : Next (State × XParser) (Token × XParser) → Prop :=
  Next.Proper (fun n s => s.2.file.Inside ∧ n = size s) Scans (size s) s

/-- Going on after a byte was used up. -/
theorem proper_goto (h : parser.file.Inside) (hrest : parser.file.rest = ch :: tail)
    {state' : State} {symbol : List UInt8}
    (hlex : lexFrom state parser.symbol (ch :: tail) = lexFrom state' symbol tail) :
    Proper (state, parser) (.goto (state', { parser.advance with symbol })) := by
  have hadvance := XFile.rest_advance h hrest
  refine .goto ⟨XFile.inside_advance h hrest, rfl⟩ ?_ fun r hr => ?_
  · have hsize : size (state', { parser.advance with symbol }) =
        2 * tail.length + if state' = .comment then 1 else 0 := by
      rw [← hadvance]
      rfl
    have hsize' : size (state, parser) =
        2 * (tail.length + 1) + if state = .comment then 1 else 0 := by
      rw [size, hrest, List.length_cons]
    rw [hsize, hsize']
    split <;> omega
  · refine ⟨hr.bytes, hr.inside, hr.depth, ?_⟩
    have hlexed := hr.lexed
    simp only [advance, hadvance] at hlexed
    simp only [hrest, hlex, hlexed]

/-- Returning after a byte was used up. -/
theorem proper_accept (h : parser.file.Inside) (hrest : parser.file.rest = ch :: tail) {token : Token}
    (hlex : lexFrom state parser.symbol (ch :: tail) = ⟨token, parser.symbol, tail⟩) :
    Proper (state, parser)
      (.ret (token, { parser.advance with depth := parser.depth + nesting token })) := by
  refine .ret ⟨rfl, XFile.inside_advance h hrest, rfl, ?_⟩
  simp only [hrest, hlex, advance, XFile.rest_advance h hrest]

/-- Returning before a byte that is read again. -/
theorem proper_unread (h : parser.file.Inside) {token : Token} (htoken : nesting token = 0)
    (hlex : lexFrom state parser.symbol parser.file.rest = ⟨token, parser.symbol, parser.file.rest⟩) :
    Proper (state, parser) (.ret (token, parser)) :=
  .ret ⟨rfl, h, by simp only [htoken, Int32.add_zero], hlex⟩

/-! ## A round -/

theorem accept_tOpen {next : Option UInt8} (h : state.action next ch = .accept .tOpen) :
    state = .start ∧ ch = openParen := by
  cases state <;>
    simp only [State.action, ite_eq_iff, reduceCtorEq, Action.accept.injEq, and_false, or_false,
      false_or, and_true] at h
  exact ⟨rfl, h.2.2.2⟩

theorem accept_tClose {next : Option UInt8} (h : state.action next ch = .accept .tClose) :
    state = .start ∧ ch = closeParen := by
  cases state <;>
    simp only [State.action, ite_eq_iff, reduceCtorEq, Action.accept.injEq, and_false, or_false,
      false_or, and_true] at h
  exact ⟨rfl, h.2.2.2.2⟩

theorem unread_ne {next : Option UInt8} {token : Token} (h : state.action next ch = .unread token) :
    token ≠ .tOpen ∧ token ≠ .tClose := by
  constructor
  all_goals
    rintro rfl
    cases state <;>
      simp only [State.action, ite_eq_iff, reduceCtorEq, Action.unread.injEq, and_false,
        or_false] at h

theorem nesting_eq_zero {token : Token} (h : token ≠ .tOpen ∧ token ≠ .tClose) :
    nesting token = 0 := by
  cases token with
  | tOpen => exact absurd rfl h.1
  | tClose => exact absurd rfl h.2
  | _ => rfl

/-- What `lexFrom` does with a byte is done by the cursor too, but for counting the depth. -/
theorem proper_act (h : parser.file.Inside) (hrest : parser.file.rest = ch :: tail)
    (hparen : state = .start → ch ≠ openParen ∧ ch ≠ closeParen) :
    Proper (state, parser) (parser.advance.act ch (state.action tail.head? ch)) := by
  have hlex := lexFrom.eq_2 state parser.symbol ch tail
  cases haction : state.action tail.head? ch with
  | skip state' =>
      rw [haction] at hlex
      exact proper_goto h hrest hlex
  | clear state' =>
      rw [haction] at hlex
      exact proper_goto h hrest hlex
  | begin state' =>
      rw [haction] at hlex
      exact proper_goto h hrest hlex
  | append state' =>
      rw [haction] at hlex
      exact proper_goto h hrest hlex
  | accept token =>
      have hnesting : nesting token = 0 := by
        refine nesting_eq_zero ⟨?_, ?_⟩
        · rintro rfl
          obtain ⟨hstart, hch⟩ := accept_tOpen haction
          exact (hparen hstart).1 hch
        · rintro rfl
          obtain ⟨hstart, hch⟩ := accept_tClose haction
          exact (hparen hstart).2 hch
      rw [haction] at hlex
      have hproper := proper_accept h hrest hlex
      rwa [hnesting, Int32.add_zero] at hproper
  | unread token =>
      have hnesting := nesting_eq_zero (unread_ne haction)
      rw [haction] at hlex
      rw [act, back_advance]
      exact proper_unread h hnesting (by rw [hrest, hlex])

theorem read_start (h : parser.file.Inside) (hrest : parser.file.rest = ch :: tail) :
    ∃ next, parser.advance.read ch .start = .ok next ∧ Proper (.start, parser) next := by
  by_cases hopen : ch = openParen
  · refine ⟨_, if_pos hopen, proper_accept h hrest ?_⟩
    rw [hopen]
    rfl
  · by_cases hclose : ch = closeParen
    · have hdepth : parser.depth - 1 = parser.depth + nesting .tClose := Int32.sub_eq_add_neg _ _
      refine ⟨_, (if_neg hopen).trans (if_pos hclose), ?_⟩
      have hproper : Proper (.start, parser) (.ret (.tClose, _)) :=
        proper_accept h hrest (by rw [hclose]; rfl)
      rwa [← hdepth] at hproper
    · exact ⟨_, (if_neg hopen).trans (if_neg hclose), proper_act h hrest fun _ => ⟨hopen, hclose⟩⟩

theorem read_comment (h : parser.file.Inside) (hrest : parser.file.rest = ch :: tail) :
    ∃ next, parser.advance.read ch .comment = .ok next ∧ Proper (.comment, parser) next := by
  by_cases hends : (ch = nul || ch = newline) = true
  · refine ⟨_, if_pos hends, ?_⟩
    rw [back_advance]
    -- the byte is read again, by `st_start`
    refine .goto ⟨h, rfl⟩ (Nat.lt_succ_self _) fun r hr => ⟨hr.bytes, hr.inside, hr.depth, ?_⟩
    have hlexed := hr.lexed
    simp only [hrest] at hlexed ⊢
    rw [← hlexed]
    rw [Bool.or_eq_true, decide_eq_true_iff, decide_eq_true_iff] at hends
    obtain rfl | rfl := hends <;> rfl
  · refine ⟨_, if_neg hends, proper_goto h hrest ?_⟩
    rw [Bool.or_eq_true, decide_eq_true_iff, decide_eq_true_iff, not_or] at hends
    have haction : State.comment.action tail.head? ch = .skip .comment := by
      rw [State.action, if_neg hends.1, if_neg hends.2]
    rw [lexFrom, haction]

theorem read_quoted (h : parser.file.Inside) (hrest : parser.file.rest = ch :: tail) (q : UInt8) :
    ∃ next, parser.advance.read ch (.quoted q) = .ok next ∧ Proper (.quoted q, parser) next := by
  have hproper : Proper (.quoted q, parser) (parser.advance.act ch _) := proper_act h hrest nofun
  refine ⟨_, ?_, hproper⟩
  have hinside : parser.advance.file.Inside := XFile.inside_advance h hrest
  have htail : parser.advance.file.rest = tail := XFile.rest_advance h hrest
  by_cases hnul : ch = nul
  · simp only [read, State.action, if_pos hnul, act]
  · by_cases hq : ch = q
    · subst hq
      -- the byte after a quote is looked at, if there is one
      cases tail with
      | nil =>
          have hend := XFile.atEnd_of_rest_nil hinside htail
          simp only [read, State.action, if_neg hnul, hend, act, List.head?_nil, reduceCtorEq,
            ↓reduceIte]
      | cons next tail =>
          have hend := XFile.atEnd_of_rest_cons hinside htail
          have hpeek := XFile.peek_of_rest_cons hinside htail
          by_cases hnext : next = ch
          · simp [read, State.action, hnul, hend, hpeek, act, hnext]
          · simp [read, State.action, hnul, hend, hpeek, act, hnext]
    · by_cases hline : (ch = carriageReturn || ch = newline) = true
      · simp only [read, State.action, if_neg hnul, if_neg hq, if_pos hline, act]
      · simp only [read, State.action, if_neg hnul, if_neg hq, if_neg hline, act]

/-- A round of `GetToken` reads nothing outside the buffer. -/
theorem step_proper (s : State × XParser) (h : s.2.file.Inside) :
    ∃ next, step s = .ok next ∧ Proper s next := by
  obtain ⟨state, parser⟩ := s
  cases hrest : parser.file.rest with
  | nil =>
      have hend : nesting state.atEnd = 0 := by cases state <;> rfl
      refine ⟨_, if_pos (XFile.atEnd_of_rest_nil h hrest), proper_unread h hend ?_⟩
      rw [hrest, lexFrom]
  | cons ch tail =>
      have hstep : step (state, parser) = parser.advance.read ch state := by
        rw [step, XFile.atEnd_of_rest_cons h hrest, XFile.peek_of_rest_cons h hrest]
        rfl
      rw [hstep]
      cases state with
      | start => exact read_start h hrest
      | comment => exact read_comment h hrest
      | quoted q => exact read_quoted h hrest q
      | _ => exact ⟨_, rfl, proper_act h hrest fun hstart => by cases hstart⟩

/-! ## `GetToken` -/

/-- `GetToken` comes to its end, with what `lexFrom` reads of the bytes that are left. -/
theorem getToken_scans (parser : XParser) (h : parser.file.Inside) {steps : ℕ}
    (hsteps : 2 * parser.file.bytes.length < steps) :
    ∃ r, parser.getToken steps = .ok r ∧ Scans (.start, parser) r := by
  have hlength := XFile.length_rest h
  have hle := h.1
  have hsize : size (.start, parser) = 2 * parser.file.rest.length := rfl
  have hstep : ∀ n s, s.2.file.Inside ∧ n = size s → ∃ next, step s = .ok next ∧
      next.Proper (fun n s => s.2.file.Inside ∧ n = size s) Scans n s := by
    rintro _ s ⟨hinside, rfl⟩
    exact step_proper s hinside
  exact loop_total hstep ⟨h, rfl⟩ (by omega)

/-- The symbol has no part in what is done with a byte, nor in what is returned. -/
inductive Silent : Action → Prop where
  | skip {state : State} : state = .start ∨ state = .comment → Silent (.skip state)
  | clear {state : State} : Silent (.clear state)
  | begin {state : State} : Silent (.begin state)
  | accept {token : Token} : (∀ symbol view, Lexed.bracket? ⟨token, symbol, view⟩ =
      Lexed.bracket? ⟨token, [], view⟩) → Silent (.accept token)
  | unread : Silent (.unread .tEnd)

theorem Silent.ite {p : Prop} [Decidable p] {a b : Action} (ha : Silent a) (hb : Silent b) :
    Silent (if p then a else b) := by
  split
  · exact ha
  · exact hb

theorem silent_action (hstate : state = .start ∨ state = .comment) (next : Option UInt8) (ch : UInt8) :
    Silent (state.action next ch) := by
  have hskip : Silent (.skip .start) := .skip (.inl rfl)
  have hcomment : Silent (.skip .comment) := .skip (.inr rfl)
  have hopen : Silent (.accept .tOpen) := .accept fun _ _ => rfl
  have hclose : Silent (.accept .tClose) := .accept fun _ _ => rfl
  have herror : Silent (.accept .tError) := .accept fun _ _ => rfl
  obtain rfl | rfl := hstate
  · exact .ite .unread (.ite hcomment (.ite hskip (.ite hopen (.ite hclose (.ite .clear (.ite .clear
      (.ite hskip (.ite .begin (.ite .begin (.ite .begin (.ite .begin (.ite .begin
        (.ite .begin herror)))))))))))))
  · exact .ite .unread (.ite hskip hcomment)

/-- What the symbol was before matters to no token that has one. -/
theorem lexFrom_silent (symbol view : List UInt8) (hstate : state = .start ∨ state = .comment) :
    (lexFrom state symbol view).token = (lexFrom state [] view).token ∧
      (lexFrom state symbol view).view = (lexFrom state [] view).view ∧
      (lexFrom state symbol view).bracket? = (lexFrom state [] view).bracket? := by
  induction view generalizing state with
  | nil => obtain rfl | rfl := hstate <;> exact ⟨rfl, rfl, rfl⟩
  | cons ch view ih =>
      have hsilent := silent_action hstate view.head? ch
      rw [lexFrom, lexFrom]
      generalize state.action view.head? ch = action at hsilent ⊢
      cases hsilent with
      | skip h => exact ih h
      | clear => exact ⟨rfl, rfl, rfl⟩
      | begin => exact ⟨rfl, rfl, rfl⟩
      | accept h => exact ⟨rfl, rfl, h _ _⟩
      | unread => exact ⟨rfl, rfl, rfl⟩

/-- What a call of `GetToken` comes to: a token of the bytes that are left. -/
structure Reads (parser : XParser) (r : Token × XParser) : Prop where
  bytes : r.2.file.bytes = parser.file.bytes
  inside : r.2.file.Inside
  depth : r.2.depth = parser.depth + nesting r.1
  token : r.1 = (Processor.getToken parser.file.rest).token
  rest : r.2.file.rest = (Processor.getToken parser.file.rest).view
  bracket : Lexed.bracket? ⟨r.1, r.2.symbol, []⟩ = (Processor.getToken parser.file.rest).bracket?

/-- `GetToken` comes to its end and has not left the buffer. -/
theorem getToken_reads (parser : XParser) (h : parser.file.Inside) {steps : ℕ}
    (hsteps : 2 * parser.file.bytes.length < steps) :
    ∃ r, parser.getToken steps = .ok r ∧ parser.Reads r := by
  obtain ⟨r, hget, hscans⟩ := getToken_scans parser h hsteps
  obtain ⟨htoken, hview, hbracket⟩ := lexFrom_silent parser.symbol parser.file.rest (.inl rfl)
  have hlexed := hscans.lexed
  simp only at hlexed
  rw [hlexed] at htoken hview hbracket
  exact ⟨r, hget, hscans.bytes, hscans.inside, hscans.depth, htoken, hview, hbracket⟩

/-- A token that is neither the end nor an error takes a byte. -/
theorem Reads.progress {r : Token × XParser} (hr : parser.Reads r) (h : parser.file.Inside) :
    parser.file.view < r.2.file.view ∨ r.1 = .tEnd ∨ r.1 = .tError := by
  by_cases htoken : r.1 = .tEnd
  · exact .inr (.inl htoken)
  · rw [hr.token] at htoken
    have hlt := getToken_view_lt htoken
    have hlength := XFile.length_rest h
    have hlength' := XFile.length_rest hr.inside
    rw [← hr.rest] at hlt
    rw [hr.bytes] at hlength'
    omega

/-! ## `Load` -/

variable {steps calls : ℕ} {token : Token} {after : XParser} {varList : List Var}

theorem onLoad_atom {atom : Atom} (hget : parser.getToken steps = .ok (token, after))
    (hatom : Lexed.bracket? ⟨token, after.symbol, []⟩ = some (.atom atom)) :
    parser.onLoad steps (calls + 1) varList = after.onLoad steps calls (varList ++ [.atom atom]) := by
  rw [onLoad, hget]
  cases token <;> cases hatom <;> rfl

theorem onLoad_open_none {afterChild : XParser} (hget : parser.getToken steps = .ok (.tOpen, after))
    (hchild : after.onLoad steps calls [] = .ok (none, afterChild)) :
    parser.onLoad steps (calls + 1) varList = .ok (none, afterChild) := by
  rw [onLoad, hget, ok_bind]
  simp only [hchild, ok_bind]
  rfl

theorem onLoad_open_some {child : List Var} {afterChild : XParser}
    (hget : parser.getToken steps = .ok (.tOpen, after))
    (hchild : after.onLoad steps calls [] = .ok (some child, afterChild)) :
    parser.onLoad steps (calls + 1) varList =
      afterChild.onLoad steps calls (varList ++ [.list child]) := by
  rw [onLoad, hget, ok_bind]
  simp only [hchild, ok_bind]

/-- A call of `OnLoad` comes to its end inside the buffer, with the list that its rounds add to what it
    has read. -/
def Refines (bytes : List UInt8) (varList : List Var) (loaded : Option (List Var × List UInt8))
    (outcome : Except Trap (Option (List Var) × XParser)) : Prop :=
  ∃ after, outcome = .ok (loaded.map (varList ++ ·.1), after) ∧ after.file.bytes = bytes ∧
    after.file.Inside ∧ ∀ r, loaded = some r → after.file.rest = r.2

theorem Refines.cons {bytes : List UInt8} {form : Var} {loaded : Option (List Var × List UInt8)}
    {outcome : Except Trap (Option (List Var) × XParser)}
    (h : Refines bytes (varList ++ [form]) loaded outcome) :
    Refines bytes varList (loaded.map fun r => (form :: r.1, r.2)) outcome := by
  obtain ⟨after, houtcome, hbytes, hinside, hrest⟩ := h
  refine ⟨after, ?_, hbytes, hinside, ?_⟩
  · rw [houtcome, Option.map_map]
    cases loaded with
    | none => rfl
    | some r =>
        rw [Option.map_some, Option.map_some, List.append_assoc]
        rfl
  · cases loaded with
    | none => exact nofun
    | some r =>
        intro r' hr'
        cases hr'
        exact hrest r rfl

theorem onLoad_refines (h : parser.file.Inside) (hsteps : 2 * parser.file.bytes.length < steps)
    (hcalls : parser.file.rest.length < calls) (varList : List Var) :
    Refines parser.file.bytes varList (Processor.onLoad calls parser.file.rest)
      (parser.onLoad steps calls varList) := by
  induction calls generalizing parser varList with
  | zero => exact absurd hcalls (Nat.not_lt_zero _)
  | succ calls ih =>
      obtain ⟨⟨token, after⟩, hget, hbytes, hinside, -, htoken, hrest, hbracket⟩ :=
        getToken_reads parser h hsteps
      dsimp only at hbytes hinside htoken hrest hbracket
      rw [← hbytes] at hsteps ⊢
      have hnext : ∀ {bracket}, Lexed.bracket? ⟨token, after.symbol, []⟩ = some bracket →
          after.file.rest.length < calls := by
        intro bracket hsome
        rw [hbracket] at hsome
        have hlt := view_lt_of_bracket hsome
        rw [hrest]
        omega
      have hatom : ∀ {atom}, Lexed.bracket? ⟨token, after.symbol, []⟩ = some (.atom atom) →
          Refines after.file.bytes varList (Processor.onLoad (calls + 1) parser.file.rest)
            (parser.onLoad steps (calls + 1) varList) := by
        intro atom hsome
        have hafter := ih hinside hsteps (hnext hsome) (varList ++ [.atom atom])
        rw [onLoad_atom hget hsome, onLoad_of_atom (hbracket.symm.trans hsome), ← hrest]
        exact hafter.cons
      have hreturn : token = .tEnd ∨ token = .tClose →
          Refines after.file.bytes varList (Processor.onLoad (calls + 1) parser.file.rest)
            (parser.onLoad steps (calls + 1) varList) := by
        intro hends
        have hload : Processor.onLoad (calls + 1) parser.file.rest = some ([], after.file.rest) := by
          rw [Processor.onLoad, hrest]
          obtain rfl | rfl := hends <;> simp only [← htoken]
        have honLoad : parser.onLoad steps (calls + 1) varList = .ok (some varList, after) := by
          rw [onLoad, hget]
          obtain rfl | rfl := hends <;> rfl
        refine ⟨after, ?_, rfl, hinside, fun r hr => ?_⟩
        · rw [honLoad, hload, Option.map_some, List.append_nil]
        · rw [hload] at hr
          cases hr
          rfl
      cases token with
      | tEnd => exact hreturn (.inl rfl)
      | tClose => exact hreturn (.inr rfl)
      | tError =>
          have hload : Processor.onLoad (calls + 1) parser.file.rest = none := by
            rw [Processor.onLoad]
            simp only [← htoken]
          have honLoad : parser.onLoad steps (calls + 1) varList = .ok (none, after) := by
            rw [onLoad, hget]
            rfl
          rw [hload, honLoad]
          exact ⟨after, rfl, rfl, hinside, fun _ h => by cases h⟩
      | tOpen =>
          have hfewer := hnext rfl
          have hchild := ih hinside hsteps hfewer []
          rw [onLoad_of_open htoken.symm, ← hrest]
          obtain ⟨afterChild, hchild, hbytes', hinside', hrest'⟩ := hchild
          cases hload : Processor.onLoad calls after.file.rest with
          | none =>
              rw [hload] at hchild
              rw [onLoad_open_none hget hchild]
              exact ⟨afterChild, rfl, hbytes', hinside', fun _ h => by cases h⟩
          | some child =>
              have hview := hrest' child hload
              have hle : child.2.length ≤ after.file.rest.length := by
                have hloads := onLoad_loads hfewer
                rw [hload] at hloads
                exact hloads.view_le
              rw [hload, Option.map_some, List.nil_append] at hchild
              rw [onLoad_open_some hget hchild, ← hbytes', Option.bind_some, ← hview]
              refine (ih hinside' (hbytes' ▸ hsteps) ?_ _).cons
              rw [hview]
              omega
      | tString => exact hatom rfl
      | tFloat => exact hatom rfl
      | tInteger => exact hatom rfl

/-- `Load` comes to its end inside the buffer, with the list of the bytes that are left. -/
theorem load_refines (parser : XParser) {file : XFile} (h : file.Inside)
    (hsteps : 2 * file.bytes.length < steps) :
    ∃ after, parser.load steps file = .ok (Processor.load file.rest, after) ∧
      after.file.bytes = file.bytes ∧ after.file.Inside := by
  have hlength := XFile.length_rest h
  have hle := h.1
  have hcalls : file.rest.length < steps := by omega
  have hrefines : Refines file.bytes [] _ (parser.load steps file) :=
    onLoad_refines (by exact h) (by exact hsteps) (by exact hcalls) []
  obtain ⟨after, hload, hbytes, hinside, -⟩ := hrefines
  refine ⟨after, ?_, hbytes, hinside⟩
  rw [hload, Processor.load, ← onLoad_eq_of_lt hcalls]
  rfl

/-- No read is outside the buffer and the cursor stays inside it, whatever the bytes are. Every call of
    `GetToken` comes to its end, and moves the cursor on unless it returns the end or an error; so
    `Load` comes to its end. -/
theorem reading_total (file : XFile) (h : file.Inside) :
    ∃ enough, ∀ steps ≥ enough, ∀ parser : XParser,
      (parser.file = file → ∃ token after, parser.getToken steps = .ok (token, after) ∧
        after.file.bytes = file.bytes ∧ after.file.Inside ∧
        (file.view < after.file.view ∨ token = .tEnd ∨ token = .tError)) ∧
      ∃ result after, parser.load steps file = .ok (result, after) ∧
        after.file.bytes = file.bytes ∧ after.file.Inside := by
  refine ⟨2 * file.bytes.length + 1, fun steps hsteps parser => ⟨?_, ?_⟩⟩
  · rintro rfl
    obtain ⟨⟨token, after⟩, hget, hreads⟩ := getToken_reads parser h hsteps
    exact ⟨token, after, hget, hreads.bytes, hreads.inside, hreads.progress h⟩
  · obtain ⟨after, hload, hafter⟩ := load_refines parser h hsteps
    exact ⟨_, after, hload, hafter⟩

/-- A string that is not closed, within a list that is not closed. -/
theorem reading_total_unterminated :
    ∃ steps result after, load steps ⟨.open [], 0, []⟩ (.open [openParen, quote, 49]) =
      .ok (result, after) := by
  obtain ⟨enough, h⟩ := reading_total (.open [openParen, quote, 49]) (XFile.inside_open _)
  obtain ⟨result, after, hload, -⟩ := (h enough (Nat.le_refl _) ⟨.open [], 0, []⟩).2
  exact ⟨enough, result, after, hload⟩

end XParser

end Bango.Processor
