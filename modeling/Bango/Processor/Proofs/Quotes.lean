import Mathlib.Data.List.Count
import Bango.Processor.Lexer

set_option autoImplicit false

/-! # Quotes within quotes

Of two quotes in a row the first one is appended, and the second one is looked at again. So every byte
that a string takes is appended but for the last one, and no quote within a string can be written as
two. -/

namespace Bango.Processor

variable {q : UInt8}

/-- The two quotes, which `GetToken` treats alike. -/
def IsQuote (q : UInt8) : Prop := q = quote ∨ q = apostrophe

/-- A character that can stand in a string. -/
def InLine (ch : UInt8) : Prop := ch ≠ nul ∧ ch ≠ carriageReturn ∧ ch ≠ newline

/-- A text with all its quotes written twice. -/
def doubled (q : UInt8) (text : List UInt8) : List UInt8 :=
  text.flatMap fun ch => if ch = q then [q, q] else [ch]

theorem doubled_of_notMem {text : List UInt8} (h : q ∉ text) : doubled q text = text := by
  induction text with
  | nil => rfl
  | cons ch text ih =>
      have hne : ch ≠ q := fun heq => h (heq ▸ List.mem_cons_self)
      have hrest := ih fun hmem => h (List.mem_cons_of_mem _ hmem)
      rw [doubled, List.flatMap_cons, if_neg hne, List.singleton_append]
      exact congrArg (ch :: ·) hrest

theorem length_doubled (q : UInt8) (text : List UInt8) :
    (doubled q text).length = text.length + text.count q := by
  induction text with
  | nil => rfl
  | cons ch text ih =>
      have hcons : doubled q (ch :: text) = (if ch = q then [q, q] else [ch]) ++ doubled q text :=
        List.flatMap_cons
      rw [hcons, List.length_append, ih, List.length_cons]
      by_cases heq : ch = q
      · rw [if_pos heq, heq, List.count_cons_self, List.length_cons, List.length_singleton]
        omega
      · rw [if_neg heq, List.count_cons_of_ne heq, List.length_singleton]
        omega

/-! ## The inner loop -/

theorem getToken_quote (h : IsQuote q) (view : List UInt8) :
    getToken (q :: view) = lexFrom (.quoted q) [] view := by
  obtain rfl | rfl := h <;> rfl

theorem quoted_action_closing (h : IsQuote q) {next : Option UInt8} (hnext : next ≠ some q) :
    (State.quoted q).action next q = .accept .tString := by
  have hnul : q ≠ nul := by obtain rfl | rfl := h <;> decide
  simp only [State.action, hnul, hnext, ↓reduceIte]

theorem quoted_action_inLine {ch : UInt8} (hline : InLine ch) (hne : ch ≠ q) (next : Option UInt8) :
    (State.quoted q).action next ch = .append (.quoted q) := by
  obtain ⟨hnul, hreturn, hnewline⟩ := hline
  simp only [State.action, hnul, hne, hreturn, hnewline, ↓reduceIte, decide_false, Bool.or_self,
    Bool.false_eq_true]

/-- A text without quotes is read up to the closing one. -/
theorem lexFrom_quoted (hq : IsQuote q) {text : List UInt8} (hline : ∀ ch ∈ text, InLine ch)
    (hmem : q ∉ text) {view : List UInt8} (hview : view.head? ≠ some q) (symbol : List UInt8) :
    lexFrom (.quoted q) symbol (text ++ q :: view) = ⟨.tString, symbol ++ text, view⟩ := by
  induction text generalizing symbol with
  | nil => rw [List.nil_append, lexFrom, quoted_action_closing hq hview, List.append_nil]
  | cons ch text ih =>
      have hne : ch ≠ q := fun heq => hmem (heq ▸ List.mem_cons_self)
      have hrest := ih (fun c hc => hline c (List.mem_cons_of_mem _ hc))
        (fun hc => hmem (List.mem_cons_of_mem _ hc)) (symbol ++ [ch])
      rw [List.cons_append, lexFrom, quoted_action_inLine (hline ch List.mem_cons_self) hne]
      rwa [List.append_assoc, List.singleton_append] at hrest

/-- A string takes one byte more than it appends. -/
theorem length_lexFrom_quoted {symbol view : List UInt8}
    (h : (lexFrom (.quoted q) symbol view).token = .tString) :
    (lexFrom (.quoted q) symbol view).symbol.length +
      (lexFrom (.quoted q) symbol view).view.length + 1 = symbol.length + view.length := by
  induction view generalizing symbol with
  | nil => cases h
  | cons ch view ih =>
      have haction : (State.quoted q).action view.head? ch = .append (.quoted q) ∨
          (State.quoted q).action view.head? ch = .accept .tString ∨
          (State.quoted q).action view.head? ch = .unread .tError := by
        simp only [State.action]
        split_ifs <;> simp only [true_or, or_true]
      obtain haction | haction | haction := haction
      · rw [lexFrom, haction] at h ⊢
        have hrest := ih h
        rw [List.length_append, List.length_singleton] at hrest
        rw [hrest, List.length_cons]
        omega
      · rw [lexFrom, haction, List.length_cons]
        exact Nat.add_assoc _ _ _
      · rw [lexFrom, haction] at h
        cases h

/-! ## Strings -/

/-- A string with its quotes written twice is read back, up to its closing quote, if and only if it has
    none. -/
theorem getToken_doubled_iff (hq : IsQuote q) {text : List UInt8} (hline : ∀ ch ∈ text, InLine ch)
    {view : List UInt8} (hview : view.head? ≠ some q) :
    getToken (q :: (doubled q text ++ q :: view)) = ⟨.tString, text, view⟩ ↔ q ∉ text := by
  rw [getToken_quote hq]
  constructor
  · intro h hmem
    have hlength := length_lexFrom_quoted (congrArg Lexed.token h)
    have hcount := List.count_pos_iff.2 hmem
    rw [h, List.length_append, length_doubled, List.length_cons, List.length_nil] at hlength
    change text.length + view.length + 1 = _ at hlength
    omega
  · intro hmem
    rw [doubled_of_notMem hmem, lexFrom_quoted hq hline hmem hview, List.nil_append]

/-- The string "a'b" between double quotes, before a closing parenthesis. -/
theorem getToken_doubled_apostrophe :
    getToken (quote :: (doubled quote [97, apostrophe, 98] ++ [quote, closeParen])) =
      ⟨.tString, [97, apostrophe, 98], [closeParen]⟩ := by
  have hline : ∀ ch ∈ [97, apostrophe, 98], InLine ch := by
    simp only [List.forall_mem_cons, List.not_mem_nil, false_imp_iff, implies_true, InLine]
    decide
  exact (getToken_doubled_iff (.inl rfl) hline (by decide)).2 (by decide)

/-- A string of one quote is read as two. -/
theorem not_getToken_doubled :
    ¬ ∀ q, IsQuote q → ∀ text : List UInt8, (∀ ch ∈ text, InLine ch) →
      ∀ view : List UInt8, view.head? ≠ some q →
        getToken (q :: (doubled q text ++ q :: view)) = ⟨.tString, text, view⟩ := by
  intro h
  have hline : ∀ ch ∈ [quote], InLine ch := by
    rw [List.forall_mem_singleton]
    exact ⟨by decide, by decide, by decide⟩
  have hread := h quote (.inl rfl) [quote] hline [] (by decide)
  exact absurd hread (by decide)

end Bango.Processor
