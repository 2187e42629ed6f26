import Mathlib.Logic.Basic
import Bango.Processor.Parser

set_option autoImplicit false

/-! # What `Load` accepts

The tokens of a view do not depend on the calls of `OnLoad` that read them, so a view has a word of
brackets and atoms. A call of `OnLoad` ends at a closing bracket or where the view ends, whichever
comes first (`onLoad_loads`): it takes the brackets for balanced either way. -/

namespace Bango.Processor

open Bango.Lib Bango.Lib.Bracket

/-! ## The word of a view -/

/-- What a token is to `OnLoad`; `none` at the end and at an error. -/
def Lexed.bracket? (lexed : Lexed) : Option (Bracket Atom) :=
  match lexed.token with
  | .tEnd | .tError => none
  | .tOpen => some .opening
  | .tClose => some .closing
  | .tString => some (.atom (.string lexed.symbol))
  | .tFloat => some (.atom (.float lexed.symbol))
  | .tInteger => some (.atom (.integer (getInteger lexed.symbol)))

theorem view_lt_of_bracket {view : List UInt8} {bracket : Bracket Atom}
    (h : (getToken view).bracket? = some bracket) :
    (getToken view).view.length < view.length := by
  refine getToken_view_lt fun hend => ?_
  rw [Lexed.bracket?, hend] at h
  cases h

/-- The tokens of a view up to the end or to the first error, and whether there is no error. -/
def tokenize (view : List UInt8) : List (Bracket Atom) × Prop :=
  match _ : (getToken view).bracket? with
  | none => ([], (getToken view).token = .tEnd)
  | some bracket =>
    let rest := tokenize (getToken view).view
    (bracket :: rest.1, rest.2)
termination_by view.length
decreasing_by exact view_lt_of_bracket ‹_›

/-- The tokens of a view, up to the end or to the first error. -/
def tokens (view : List UInt8) : List (Bracket Atom) := (tokenize view).1

/-- No token of the view is an error. -/
def Tokenizes (view : List UInt8) : Prop := (tokenize view).2

variable {view : List UInt8}

theorem tokenize_of_none (h : (getToken view).bracket? = none) :
    tokenize view = ([], (getToken view).token = .tEnd) := by
  rw [tokenize]
  split
  · rfl
  · next hsome => cases h.symm.trans hsome

theorem tokenize_of_some {bracket : Bracket Atom} (h : (getToken view).bracket? = some bracket) :
    tokenize view =
      (bracket :: tokens (getToken view).view, Tokenizes (getToken view).view) := by
  rw [tokenize]
  split
  · next hnone => cases h.symm.trans hnone
  · next hsome =>
      cases h.symm.trans hsome
      rfl

theorem tokens_of_end (h : (getToken view).token = .tEnd) : tokens view = [] ∧ Tokenizes view := by
  have hnone : (getToken view).bracket? = none := by rw [Lexed.bracket?, h]
  rw [tokens, Tokenizes, tokenize_of_none hnone]
  exact ⟨rfl, h⟩

theorem tokens_of_error (h : (getToken view).token = .tError) :
    tokens view = [] ∧ ¬ Tokenizes view := by
  have hnone : (getToken view).bracket? = none := by rw [Lexed.bracket?, h]
  rw [tokens, Tokenizes, tokenize_of_none hnone, h]
  exact ⟨rfl, nofun⟩

theorem tokens_of_some {bracket : Bracket Atom} (h : (getToken view).bracket? = some bracket) :
    tokens view = bracket :: tokens (getToken view).view ∧
      (Tokenizes view ↔ Tokenizes (getToken view).view) := by
  rw [tokens, Tokenizes, tokenize_of_some h]
  exact ⟨rfl, Iff.rfl⟩

/-! ## A call of `OnLoad` -/

/-- How a call of `OnLoad` ends. -/
inductive Loads (view : List UInt8) : Option (List Var × List UInt8) → Prop where
  | error : ¬ Tokenizes view → NoExtraClosing (tokens view) → Loads view none
  /-- at a closing bracket -/
  | closed {forms : List Var} {view' : List UInt8} :
      tokens view = Form.writeAll forms ++ .closing :: tokens view' →
      (Tokenizes view ↔ Tokenizes view') → view'.length < view.length →
      Loads view (some (forms, view'))
  /-- at the end of the view, where brackets may be left open -/
  | ended {forms : List Var} {view' : List UInt8} {left : ℕ} :
      Tokenizes view → depth 0 (tokens view) = some left →
      (left = 0 → tokens view = Form.writeAll forms) → (getToken view').token = .tEnd →
      view'.length ≤ view.length → Loads view (some (forms, view'))

/-- A call that reads an atom first. -/
theorem Loads.atom {atom : Atom} {result : Option (List Var × List UInt8)}
    (h : (getToken view).bracket? = some (.atom atom))
    (hrest : Loads (getToken view).view result) :
    Loads view (result.map fun r => (.atom atom :: r.1, r.2)) := by
  have hlt := view_lt_of_bracket h
  obtain ⟨htokens, hclean⟩ := tokens_of_some h
  cases hrest with
  | error herror hdepth =>
      refine .error (hclean.not.2 herror) ?_
      rw [NoExtraClosing, htokens, depth_atom]
      exact hdepth
  | closed hword hclean' hlt' =>
      refine .closed ?_ (hclean.trans hclean') (Nat.lt_trans hlt' hlt)
      rw [htokens, hword]
      simp
  | ended hall hdepth hforms hend hle =>
      rw [← depth_atom 0 atom, ← htokens] at hdepth
      refine .ended (hclean.2 hall) hdepth (fun hleft => ?_) hend
        (Nat.le_of_lt (Nat.lt_of_le_of_lt hle hlt))
      rw [htokens, hforms hleft, Form.writeAll_cons_atom]

/-- A call that reads an opening bracket first, and an error in the list. -/
theorem Loads.opening_error (h : (getToken view).bracket? = some .opening)
    (hchild : Loads (getToken view).view none) : Loads view none := by
  obtain ⟨htokens, hclean⟩ := tokens_of_some h
  cases hchild with
  | error herror hdepth =>
      refine .error (hclean.not.2 herror) ?_
      obtain ⟨d, hd⟩ := Option.ne_none_iff_exists'.1 hdepth
      rw [NoExtraClosing, htokens, depth_opening, depth_succ hd]
      exact Option.some_ne_none _

/-- A call that reads an opening bracket first, a list, and then what follows the list. -/
theorem Loads.opening {child : List Var} {mid : List UInt8}
    {result : Option (List Var × List UInt8)} (h : (getToken view).bracket? = some .opening)
    (hchild : Loads (getToken view).view (some (child, mid))) (hrest : Loads mid result) :
    Loads view (result.map fun r => (.list child :: r.1, r.2)) := by
  have hlt := view_lt_of_bracket h
  obtain ⟨htokens, hclean⟩ := tokens_of_some h
  cases hchild with
  | closed hword hclean' hlt' =>
      rw [hword] at htokens
      have hdepth : depth 0 (tokens view) = depth 0 (tokens mid) := by
        rw [htokens, depth_opening, depth_writeAll, depth_closing_succ]
      cases hrest with
      | error herror hnot =>
          refine .error ((hclean.trans hclean').not.2 herror) ?_
          rwa [NoExtraClosing, hdepth]
      | closed hword' hclean'' hlt'' =>
          refine .closed ?_ ((hclean.trans hclean').trans hclean'')
            (Nat.lt_trans hlt'' (Nat.lt_trans hlt' hlt))
          rw [htokens, hword']
          simp
      | ended hall hleft hforms hend hle =>
          refine .ended ((hclean.trans hclean').2 hall) (hdepth.trans hleft) (fun hzero => ?_) hend
            (Nat.le_of_lt (Nat.lt_of_le_of_lt hle (Nat.lt_trans hlt' hlt)))
          rw [htokens, hforms hzero]
          simp
  | ended hall hleft hforms hend hle =>
      -- the view has ended within the list, and ends again after it
      obtain ⟨hnil, hmid⟩ := tokens_of_end hend
      cases hrest with
      | error herror => exact absurd hmid herror
      | closed hword' =>
          rw [hnil] at hword'
          simp at hword'
      | ended hall' hleft' hforms' hend' hle' =>
          have hopen := depth_succ hleft
          rw [← depth_opening, ← htokens] at hopen
          exact .ended (hclean.2 hall) hopen (fun hzero => (Nat.succ_ne_zero _ hzero).elim) hend'
            (Nat.le_trans hle' (Nat.le_of_lt (Nat.lt_of_le_of_lt hle hlt)))

theorem Loads.view_le {forms : List Var} {view' : List UInt8} (h : Loads view (some (forms, view'))) :
    view'.length ≤ view.length := by
  cases h with
  | closed _ _ hlt => omega
  | ended _ _ _ _ hle => exact hle

/-! ## Running `OnLoad` -/

theorem onLoad_of_atom {calls : ℕ} {atom : Atom}
    (h : (getToken view).bracket? = some (.atom atom)) :
    onLoad (calls + 1) view =
      (onLoad calls (getToken view).view).map fun r => (.atom atom :: r.1, r.2) := by
  have hrest : ∀ form, (do
        let r ← onLoad calls (getToken view).view
        return (form :: r.1, r.2)) =
      (onLoad calls (getToken view).view).map fun r => (form :: r.1, r.2) := by
    intro form
    cases onLoad calls (getToken view).view with
    | none => rfl
    | some r => rfl
  rw [Lexed.bracket?] at h
  rw [onLoad]
  split at h
  · cases h
  · cases h
  · cases h
  · cases h
  · next htoken =>
      cases h
      simp only [htoken]
      exact hrest _
  · next htoken =>
      cases h
      simp only [htoken]
      exact hrest _
  · next htoken =>
      cases h
      simp only [htoken]
      exact hrest _

theorem onLoad_of_open {calls : ℕ} (h : (getToken view).token = .tOpen) :
    onLoad (calls + 1) view =
      (onLoad calls (getToken view).view).bind fun child =>
        (onLoad calls child.2).map fun r => (.list child.1 :: r.1, r.2) := by
  rw [onLoad]
  simp only [h]
  cases onLoad calls (getToken view).view with
  | none => rfl
  | some child =>
      change (onLoad calls child.2).bind _ = (onLoad calls child.2).map _
      cases onLoad calls child.2 with
      | none => rfl
      | some r => rfl

/-- Every call of `OnLoad` ends in one of these ways: it never runs out of calls. -/
theorem onLoad_loads {calls : ℕ} (h : view.length < calls) : Loads view (onLoad calls view) := by
  induction calls generalizing view with
  | zero => exact absurd h (Nat.not_lt_zero _)
  | succ calls ih =>
      have hrest : ∀ {bracket}, (getToken view).bracket? = some bracket →
          Loads (getToken view).view (onLoad calls (getToken view).view) := by
        intro bracket hbracket
        have hlt := view_lt_of_bracket hbracket
        exact ih (by omega)
      have hatom : ∀ {atom}, (getToken view).bracket? = some (.atom atom) →
          Loads view (onLoad (calls + 1) view) := by
        intro atom hbracket
        rw [onLoad_of_atom hbracket]
        exact (hrest hbracket).atom hbracket
      cases htoken : (getToken view).token with
      | tEnd =>
          obtain ⟨hnil, hall⟩ := tokens_of_end htoken
          have hdepth : depth 0 (tokens view) = some 0 := by rw [hnil, depth_nil]
          rw [onLoad]
          simp only [htoken]
          exact .ended hall hdepth (fun _ => by rw [hnil, Form.writeAll_nil]) (getToken_end htoken)
            (lexFrom_view_le _ _ _)
      | tError =>
          obtain ⟨hnil, herror⟩ := tokens_of_error htoken
          rw [onLoad]
          simp only [htoken]
          refine .error herror ?_
          rw [NoExtraClosing, hnil, depth_nil]
          exact Option.some_ne_none _
      | tClose =>
          have hbracket : (getToken view).bracket? = some .closing := by rw [Lexed.bracket?, htoken]
          obtain ⟨htokens, hclean⟩ := tokens_of_some hbracket
          rw [onLoad]
          simp only [htoken]
          exact .closed htokens hclean (view_lt_of_bracket hbracket)
      | tOpen =>
          have hbracket : (getToken view).bracket? = some .opening := by rw [Lexed.bracket?, htoken]
          have hlt := view_lt_of_bracket hbracket
          have hchild := hrest hbracket
          rw [onLoad_of_open htoken]
          cases hload : onLoad calls (getToken view).view with
          | none =>
              rw [hload] at hchild
              exact hchild.opening_error hbracket
          | some child =>
              rw [hload] at hchild
              have hle := hchild.view_le
              exact Loads.opening hbracket hchild (ih (by omega))
      | tString => exact hatom (by rw [Lexed.bracket?, htoken])
      | tFloat => exact hatom (by rw [Lexed.bracket?, htoken])
      | tInteger => exact hatom (by rw [Lexed.bracket?, htoken])

/-- With enough calls, how many there are makes no difference. -/
theorem onLoad_eq_of_lt {calls : ℕ} (h : view.length < calls) :
    onLoad calls view = onLoad (view.length + 1) view := by
  have hsame : ∀ calls calls' : ℕ, ∀ view : List UInt8, view.length < calls → view.length < calls' →
      onLoad calls view = onLoad calls' view := by
    intro calls
    induction calls with
    | zero => exact fun _ _ h => absurd h (Nat.not_lt_zero _)
    | succ calls ih =>
        intro calls' view hlt hlt'
        obtain _ | calls' := calls'
        · exact absurd hlt' (Nat.not_lt_zero _)
        have hrest : ∀ {bracket}, (getToken view).bracket? = some bracket →
            onLoad calls (getToken view).view = onLoad calls' (getToken view).view := by
          intro bracket hbracket
          have hview := view_lt_of_bracket hbracket
          exact ih calls' _ (by omega) (by omega)
        have hatom : ∀ {atom}, (getToken view).bracket? = some (.atom atom) →
            onLoad (calls + 1) view = onLoad (calls' + 1) view := by
          intro atom hbracket
          rw [onLoad_of_atom hbracket, onLoad_of_atom hbracket, hrest hbracket]
        cases htoken : (getToken view).token with
        | tEnd | tClose | tError =>
            rw [onLoad, onLoad]
            simp only [htoken]
        | tOpen =>
            have hbracket : (getToken view).bracket? = some .opening := by
              rw [Lexed.bracket?, htoken]
            have hview := view_lt_of_bracket hbracket
            have hchild := onLoad_loads (show (getToken view).view.length < calls' by omega)
            rw [onLoad_of_open htoken, onLoad_of_open htoken, hrest hbracket]
            cases hload : onLoad calls' (getToken view).view with
            | none => rfl
            | some child =>
                rw [hload] at hchild
                have hle := hchild.view_le
                rw [Option.bind_some, Option.bind_some, ih calls' child.2 (by omega) (by omega)]
        | tString => exact hatom (by rw [Lexed.bracket?, htoken])
        | tFloat => exact hatom (by rw [Lexed.bracket?, htoken])
        | tInteger => exact hatom (by rw [Lexed.bracket?, htoken])
  exact hsame calls (view.length + 1) view h (Nat.lt_succ_self _)

/-! ## `Load` -/

theorem load_loads (view : List UInt8) :
    ∃ result, load view = result.map Prod.fst ∧ Loads view result :=
  ⟨_, rfl, onLoad_loads (Nat.lt_succ_self view.length)⟩

/-- A balanced view is loaded as the forms that it writes. -/
theorem load_of_balanced (htokenizes : Tokenizes view) (hbalanced : Bracket.Balanced (tokens view)) :
    ∃ forms, load view = some forms ∧ tokens view = Form.writeAll forms := by
  obtain ⟨result, hload, hloads⟩ := load_loads view
  cases hloads with
  | error herror => exact absurd htokenizes herror
  | closed hword =>
      rw [Bracket.Balanced, hword, depth_writeAll, depth_closing_zero] at hbalanced
      cases hbalanced
  | ended _ hdepth hforms =>
      exact ⟨_, hload, hforms (Option.some.inj (hdepth.symm.trans hbalanced))⟩

/-- A view with an error is not loaded, unless a closing bracket without an opening one comes before
    the error. -/
theorem load_of_error (herror : ¬ Tokenizes view) (hextra : NoExtraClosing (tokens view)) :
    load view = none := by
  obtain ⟨result, hload, hloads⟩ := load_loads view
  cases hloads with
  | error => exact hload
  | closed hword =>
      rw [NoExtraClosing, hword, depth_writeAll, depth_closing_zero] at hextra
      exact absurd rfl hextra
  | ended hall => exact absurd hall herror

/-- Without an error a view is always loaded, and with one only after such a bracket. -/
theorem load_eq_none (h : load view = none) : ¬ Tokenizes view ∧ NoExtraClosing (tokens view) := by
  obtain ⟨result, hload, hloads⟩ := load_loads view
  cases hloads with
  | error herror hextra => exact ⟨herror, hextra⟩
  | closed => cases hload.symm.trans h
  | ended => cases hload.symm.trans h

/-- `Load` returns a list exactly for the views whose tokens are balanced, and the list has all their
    forms. -/
structure LoadsExactly (view : List UInt8) : Prop where
  accepts : (∃ forms, load view = some forms) ↔ Tokenizes view ∧ Bracket.Balanced (tokens view)
  all : ∀ forms, load view = some forms → tokens view = Form.writeAll forms

/-- `OnLoad` stops at a closing bracket without an opening one and at the end of the view alike, so
    `Load` is exact where no such bracket comes before the first error or the end, and no bracket is
    left open unless there is an error. -/
theorem loadsExactly_iff (view : List UInt8) :
    LoadsExactly view ↔
      NoExtraClosing (tokens view) ∧ (Tokenizes view → Bracket.Balanced (tokens view)) := by
  constructor
  · rintro ⟨haccepts, -⟩
    cases hload : load view with
    | none =>
        obtain ⟨herror, hextra⟩ := load_eq_none hload
        exact ⟨hextra, fun h => absurd h herror⟩
    | some forms =>
        obtain ⟨-, hbalanced⟩ := haccepts.1 ⟨forms, hload⟩
        refine ⟨?_, fun _ => hbalanced⟩
        rw [NoExtraClosing, hbalanced]
        exact Option.some_ne_none _
  · rintro ⟨hextra, hbalanced⟩
    by_cases hall : Tokenizes view
    · obtain ⟨forms, hload, hforms⟩ := load_of_balanced hall (hbalanced hall)
      refine ⟨⟨fun _ => ⟨hall, hbalanced hall⟩, fun _ => ⟨forms, hload⟩⟩, fun forms' h => ?_⟩
      cases hload.symm.trans h
      exact hforms
    · have hnone := load_of_error hall hextra
      refine ⟨⟨fun h => ?_, fun h => absurd h.1 hall⟩, fun forms h => ?_⟩
      · obtain ⟨forms, h⟩ := h
        cases hnone.symm.trans h
      · cases hnone.symm.trans h

/-- "(1" is taken for a list that is closed, and "1) 2" for all of its forms. -/
theorem not_loadsExactly :
    ¬ LoadsExactly [openParen, 49] ∧ ¬ LoadsExactly [49, closeParen, space, 50] := by
  have hone : (getToken [49]).bracket? = some (.atom (.integer 1)) := rfl
  constructor
  · intro h
    have hopen : (getToken [openParen, 49]).bracket? = some .opening := rfl
    have hall := h.all [.list [.atom (.integer 1)]] rfl
    have hend : tokens [] = [] := (tokens_of_end rfl).1
    rw [(tokens_of_some hopen).1, show (getToken [openParen, 49]).view = [49] from rfl,
      (tokens_of_some hone).1, show (getToken [49]).view = [] from rfl, hend] at hall
    simp at hall
  · intro h
    have hone' : (getToken [49, closeParen, space, 50]).bracket? = some (.atom (.integer 1)) := rfl
    have hclose : (getToken [closeParen, space, 50]).bracket? = some .closing := rfl
    have hall := h.all [.atom (.integer 1)] rfl
    rw [(tokens_of_some hone').1,
      show (getToken [49, closeParen, space, 50]).view = [closeParen, space, 50] from rfl,
      (tokens_of_some hclose).1] at hall
    simp at hall

end Bango.Processor
