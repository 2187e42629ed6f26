import Mathlib.Data.List.TakeWhile
import Bango.Processor.Proofs.Parser
import Bango.Processor.Proofs.Quotes

set_option autoImplicit false

/-! # Texts of trees

A tree is written as words with gaps between them. `GetToken` skips a gap (`getToken_gap`) and reads a
word back (`getToken_word`), whatever the gap after it is made of, so the tokens of the text are those
of the tree. -/

namespace Bango.Processor

open Bango.Lib Bango.Lib.Bracket

/-! ## How trees are written -/

/-- The digits of a number. -/
def decimal (n : ℕ) : List UInt8 :=
  if n < 10 then [UInt8.ofNat (48 + n)] else decimal (n / 10) ++ [UInt8.ofNat (48 + n % 10)]

/-- The word of a token. -/
def word : Bracket Atom → List UInt8
  | .opening => [openParen]
  | .closing => [closeParen]
  | .atom (.string text) => quote :: (text ++ [quote])
  | .atom (.integer value) =>
    if value < 0 then minus :: decimal value.toInt.natAbs else decimal value.toInt.natAbs
  | .atom (.float text) => text

/-- A character between two double quotes. -/
def IsPlain (ch : UInt8) : Prop :=
  ch ≠ quote ∧ ch ≠ nul ∧ ch ≠ carriageReturn ∧ ch ≠ newline

/-- A token that has a word: no floating-point number, and no string with a character that cannot
    stand between two quotes. -/
def Writable : Bracket Atom → Prop
  | .atom (.string text) => ∀ ch ∈ text, IsPlain ch
  | .atom (.float _) => False
  | _ => True

/-- What may stand between two words, or nothing: blanks, tabs, newlines, and comments that end in a
    newline. -/
inductive Gap : List UInt8 → Prop where
  | nil : Gap []
  | blank {ch : UInt8} {gap : List UInt8} :
      ch = space ∨ ch = tab ∨ ch = newline → Gap gap → Gap (ch :: gap)
  | comment {text gap : List UInt8} :
      (∀ ch ∈ text, ch ≠ nul ∧ ch ≠ newline) → Gap gap →
      Gap (semicolon :: (text ++ newline :: gap))

/-- What follows a word: a gap that is not empty before each further word, and any gap at the end. -/
inductive Follows : List (Bracket Atom) → List UInt8 → Prop where
  | nil {gap : List UInt8} : Gap gap → Follows [] gap
  | cons {gap text : List UInt8} {token : Bracket Atom} {tokens : List (Bracket Atom)} :
      Gap gap → gap ≠ [] → Follows tokens text → Follows (token :: tokens) (gap ++ (word token ++ text))

/-- A text that writes some tokens, with any gap before the first word. -/
inductive Layout : List (Bracket Atom) → List UInt8 → Prop where
  | nil {gap : List UInt8} : Gap gap → Layout [] gap
  | cons {gap text : List UInt8} {token : Bracket Atom} {tokens : List (Bracket Atom)} :
      Gap gap → Follows tokens text → Layout (token :: tokens) (gap ++ (word token ++ text))

/-! ## Gaps -/

theorem getToken_cons_skip {ch : UInt8} {view : List UInt8} {state : State}
    (h : State.start.action view.head? ch = .skip state) :
    getToken (ch :: view) = lexFrom state [] view := by
  rw [getToken, lexFrom, h]

theorem lexFrom_comment {text : List UInt8} (h : ∀ ch ∈ text, ch ≠ nul ∧ ch ≠ newline)
    (symbol view : List UInt8) :
    lexFrom .comment symbol (text ++ newline :: view) = lexFrom .start symbol view := by
  induction text with
  | nil => rfl
  | cons ch text ih =>
      obtain ⟨hnul, hnewline⟩ := h ch List.mem_cons_self
      have haction : State.comment.action (text ++ newline :: view).head? ch = .skip .comment := by
        simp only [State.action, hnul, hnewline, ↓reduceIte]
      rw [List.cons_append, lexFrom, haction]
      exact ih fun c hc => h c (List.mem_cons_of_mem ch hc)

theorem getToken_gap {gap : List UInt8} (h : Gap gap) (view : List UInt8) :
    getToken (gap ++ view) = getToken view := by
  induction h with
  | nil => rfl
  | blank hch _ ih =>
      rw [List.cons_append, getToken_cons_skip, ← getToken, ih]
      rcases hch with rfl | rfl | rfl
      · rfl
      · rfl
      · rfl
  | comment htext _ ih =>
      rw [List.cons_append, getToken_cons_skip, List.append_assoc, List.cons_append,
        lexFrom_comment htext, ← getToken, ih]
      rfl

/-- A text that the word before it ends at. -/
def Ends (text : List UInt8) : Prop :=
  ∀ ch ∈ text.head?, ch = space ∨ ch = tab ∨ ch = newline ∨ ch = semicolon

theorem Gap.ends {gap : List UInt8} (h : Gap gap) {text : List UInt8} (htext : gap = [] → Ends text) :
    Ends (gap ++ text) := by
  cases h with
  | nil => exact htext rfl
  | blank hch _ =>
      intro c hc
      cases hc
      rcases hch with rfl | rfl | rfl
      · exact .inl rfl
      · exact .inr (.inl rfl)
      · exact .inr (.inr (.inl rfl))
  | comment _ _ =>
      intro c hc
      cases hc
      exact .inr (.inr (.inr rfl))

theorem Follows.ends {tokens : List (Bracket Atom)} {text : List UInt8} (h : Follows tokens text) :
    Ends text := by
  cases h with
  | nil hgap =>
      rw [← List.append_nil text]
      exact hgap.ends fun _ => nofun
  | cons hgap hne _ => exact hgap.ends fun hnil => absurd hnil hne

/-! ## Digits -/

/-- A digit of a decimal number. -/
def digit (d : ℕ) : UInt8 := UInt8.ofNat (48 + d)

/-- What the lexer and `strtol` see in a digit. -/
theorem digit_spec {d : ℕ} (h : d < 10) :
    isDigitOf 10 (digit d) = true ∧ digitValue (digit d) = d ∧ digit d ≠ minus ∧ digit d ≠ plus ∧
      State.digit.action none (digit d) = .append .digit ∧
      (d ≠ 0 → isZero (digit d) = false ∧ State.start.action none (digit d) = .begin .digit ∧
        State.sign.action none (digit d) = .append .digit) := by
  revert d
  decide

theorem decimal_induction {P : ℕ → List UInt8 → Prop} (hdigit : ∀ d, d < 10 → P d [digit d])
    (happend : ∀ n d, n ≠ 0 → d < 10 → P n (decimal n) → P (10 * n + d) (decimal n ++ [digit d]))
    (n : ℕ) : P n (decimal n) := by
  induction n using decimal.induct with
  | case1 n hlt =>
      rw [decimal, if_pos hlt]
      exact hdigit n hlt
  | case2 n hge ih =>
      rw [decimal, if_neg hge]
      have hstep := happend (n / 10) (n % 10) (by omega) (by omega) ih
      rwa [Nat.div_add_mod] at hstep

/-- All characters of a number are digits. -/
theorem isDigitOf_decimal (n : ℕ) : ∀ ch ∈ decimal n, ∃ d, d < 10 ∧ ch = digit d := by
  refine decimal_induction (P := fun _ text => ∀ ch ∈ text, ∃ d, d < 10 ∧ ch = digit d) ?_ ?_ n
  · intro d hd ch hch
    exact ⟨d, hd, List.mem_singleton.1 hch⟩
  · intro n d _ hd ih ch hch
    rcases List.mem_append.1 hch with hmem | hlast
    · exact ih ch hmem
    · exact ⟨d, hd, List.mem_singleton.1 hlast⟩

/-- Only zero begins with a zero. -/
theorem decimal_head (n : ℕ) :
    ∃ d rest, d < 10 ∧ decimal n = digit d :: rest ∧ (n ≠ 0 → d ≠ 0) ∧ (n = 0 → rest = []) := by
  refine decimal_induction
    (P := fun n text => ∃ d rest, d < 10 ∧ text = digit d :: rest ∧ (n ≠ 0 → d ≠ 0) ∧
      (n = 0 → rest = [])) ?_ ?_ n
  · intro d hd
    exact ⟨d, [], hd, rfl, id, fun _ => rfl⟩
  · intro n e hn _ ih
    obtain ⟨d, rest, hd, htext, hzero, -⟩ := ih
    refine ⟨d, rest ++ [digit e], hd, ?_, fun _ => hzero hn, ?_⟩
    · rw [htext, List.cons_append]
    · omega

theorem foldl_decimal (n : ℕ) :
    (decimal n).foldl (fun value ch => value * 10 + digitValue ch) 0 = n := by
  refine decimal_induction
    (P := fun n text => text.foldl (fun value ch => value * 10 + digitValue ch) 0 = n) ?_ ?_ n
  · intro d hd
    rw [List.foldl_cons, List.foldl_nil, (digit_spec hd).2.1, Nat.zero_mul, Nat.zero_add]
  · intro n d _ hd ih
    rw [List.foldl_append, ih, List.foldl_cons, List.foldl_nil, (digit_spec hd).2.1, Nat.mul_comm]

theorem readDigits_decimal (n : ℕ) : readDigits 10 (decimal n) = n := by
  have hall : (decimal n).takeWhile (isDigitOf 10) = decimal n := by
    rw [List.takeWhile_eq_self_iff]
    intro ch hch
    obtain ⟨d, hd, rfl⟩ := isDigitOf_decimal n ch hch
    exact (digit_spec hd).1
  rw [readDigits, hall, foldl_decimal]

theorem readNumber_decimal (n : ℕ) : readNumber (decimal n) = n := by
  obtain ⟨d, rest, hd, hdecimal, hne, hnil⟩ := decimal_head n
  cases rest with
  | nil =>
      have hvalue := readDigits_decimal n
      rw [hdecimal] at hvalue ⊢
      exact hvalue
  | cons ch rest =>
      have hn : n ≠ 0 := fun hzero => List.cons_ne_nil _ _ (hnil hzero)
      have hzero := ((digit_spec hd).2.2.2.2.2 (hne hn)).1
      rw [hdecimal, readNumber, hzero, ← hdecimal, readDigits_decimal]
      rfl

/-! ## Numbers -/

theorem strtol_decimal {n : ℕ} (h : n ≤ 2147483648) : strtol (decimal n) = n := by
  obtain ⟨d, rest, hd, hdecimal, -, -⟩ := decimal_head n
  obtain ⟨-, -, hminus, hplus, -, -⟩ := digit_spec hd
  have hvalue := readNumber_decimal n
  rw [hdecimal] at hvalue ⊢
  simp only [strtol, hminus, hplus, ↓reduceIte, hvalue]
  omega

theorem strtol_minus_decimal {n : ℕ} (h : n ≤ 2147483648) :
    strtol (minus :: decimal n) = -(n : Int) := by
  simp only [strtol, ↓reduceIte, readNumber_decimal]
  omega

/-- `GetInteger` reads a written integer back. -/
theorem getInteger_word (value : Int32) : getInteger (word (.atom (.integer value))) = value := by
  have hle := Int32.le_toInt value
  have hlt := Int32.toInt_lt value
  have hstrtol : strtol (word (.atom (.integer value))) = value.toInt := by
    rw [word]
    split
    · next hneg =>
        rw [Int32.lt_iff_toInt_lt, Int32.toInt_zero] at hneg
        rw [strtol_minus_decimal (by omega)]
        omega
    · next hpos =>
        rw [Int32.lt_iff_toInt_lt, Int32.toInt_zero] at hpos
        rw [strtol_decimal (by omega)]
        omega
  rw [getInteger, hstrtol, Int32.ofInt_toInt]

/-- A number ends where its text does. -/
theorem lexFrom_ends {text : List UInt8} (h : Ends text) {state : State}
    (hstate : state = .digit ∨ state = .zero) (symbol : List UInt8) :
    lexFrom state symbol text = ⟨.tInteger, symbol, text⟩ := by
  cases text with
  | nil =>
      rcases hstate with rfl | rfl
      · rfl
      · rfl
  | cons ch text =>
      have haction : state.action text.head? ch = .unread .tInteger := by
        rcases hstate with rfl | rfl
        · rcases h ch rfl with rfl | rfl | rfl | rfl
          · rfl
          · rfl
          · rfl
          · rfl
        · rcases h ch rfl with rfl | rfl | rfl | rfl
          · rfl
          · rfl
          · rfl
          · rfl
      rw [lexFrom, haction]

theorem lexFrom_digits {digits : List UInt8} (h : ∀ ch ∈ digits, ∃ d, d < 10 ∧ ch = digit d)
    {text : List UInt8} (htext : Ends text) (symbol : List UInt8) :
    lexFrom .digit symbol (digits ++ text) = ⟨.tInteger, symbol ++ digits, text⟩ := by
  induction digits generalizing symbol with
  | nil =>
      rw [List.append_nil]
      exact lexFrom_ends htext (.inl rfl) symbol
  | cons ch digits ih =>
      obtain ⟨d, hd, rfl⟩ := h ch List.mem_cons_self
      have haction : State.digit.action (digits ++ text).head? (digit d) = .append .digit :=
        (digit_spec hd).2.2.2.2.1
      rw [List.cons_append, lexFrom, haction]
      have hrest := ih (fun c hc => h c (List.mem_cons_of_mem _ hc)) (symbol ++ [digit d])
      rwa [List.append_assoc, List.singleton_append] at hrest

theorem getToken_decimal (n : ℕ) {text : List UInt8} (h : Ends text) :
    getToken (decimal n ++ text) = ⟨.tInteger, decimal n, text⟩ := by
  have hdigits := isDigitOf_decimal n
  obtain ⟨d, rest, hd, hdecimal, hne, hnil⟩ := decimal_head n
  rw [hdecimal] at hdigits ⊢
  by_cases hn : n = 0
  · subst hn
    cases hnil rfl
    have hzero : decimal 0 = [digit 0] := by
      rw [decimal, if_pos (by decide)]
      rfl
    rw [hzero] at hdecimal
    rw [← hdecimal]
    exact lexFrom_ends h (.inr rfl) [digit 0]
  · have hstart : State.start.action (rest ++ text).head? (digit d) = .begin .digit :=
      ((digit_spec hd).2.2.2.2.2 (hne hn)).2.1
    rw [getToken, List.cons_append, lexFrom, hstart]
    exact lexFrom_digits (fun c hc => hdigits c (List.mem_cons_of_mem _ hc)) h [digit d]

theorem getToken_minus_decimal {n : ℕ} (hn : n ≠ 0) {text : List UInt8} (h : Ends text) :
    getToken (minus :: decimal n ++ text) = ⟨.tInteger, minus :: decimal n, text⟩ := by
  have hdigits := isDigitOf_decimal n
  obtain ⟨d, rest, hd, hdecimal, hne, -⟩ := decimal_head n
  rw [hdecimal] at hdigits ⊢
  have hsign : State.sign.action (rest ++ text).head? (digit d) = .append .digit :=
    ((digit_spec hd).2.2.2.2.2 (hne hn)).2.2
  have hstart : getToken (minus :: digit d :: rest ++ text) =
      lexFrom .sign [minus] (digit d :: (rest ++ text)) := rfl
  rw [hstart, lexFrom, hsign]
  exact lexFrom_digits (fun c hc => hdigits c (List.mem_cons_of_mem _ hc)) h [minus, digit d]

/-! ## Words -/

/-- A word is read back, and nothing of what follows it. -/
theorem getToken_word {token : Bracket Atom} (h : Writable token) {text : List UInt8}
    (htext : Ends text) :
    (getToken (word token ++ text)).bracket? = some token ∧
      (getToken (word token ++ text)).view = text := by
  cases token with
  | opening => exact ⟨rfl, rfl⟩
  | closing => exact ⟨rfl, rfl⟩
  | atom atom =>
      cases atom with
      | float digits => exact h.elim
      | string characters =>
          have hhead : text.head? ≠ some quote := by
            intro hquote
            have hends := htext quote hquote
            revert hends
            decide
          have hstart : getToken (word (.atom (.string characters)) ++ text) =
              lexFrom (.quoted quote) [] (characters ++ quote :: text) := by
            rw [word, List.cons_append, List.append_assoc]
            rfl
          rw [hstart, lexFrom_quoted (.inl rfl) (fun ch hch => (h ch hch).2)
            (fun hmem => (h quote hmem).1 rfl) hhead]
          exact ⟨rfl, rfl⟩
      | integer value =>
          have htoken : getToken (word (.atom (.integer value)) ++ text) =
              ⟨.tInteger, word (.atom (.integer value)), text⟩ := by
            rw [word]
            split
            · next hneg =>
                rw [Int32.lt_iff_toInt_lt, Int32.toInt_zero] at hneg
                exact getToken_minus_decimal (by omega) htext
            · exact getToken_decimal _ htext
          rw [htoken]
          refine ⟨?_, rfl⟩
          change some (Bracket.atom (Atom.integer (getInteger _))) = _
          rw [getInteger_word]

/-! ## Texts -/

theorem tokens_gap {gap : List UInt8} (h : Gap gap) : tokens gap = [] ∧ Tokenizes gap := by
  have hend := getToken_gap h []
  rw [List.append_nil] at hend
  refine tokens_of_end ?_
  rw [hend]
  rfl

theorem tokens_word {gap text : List UInt8} {token : Bracket Atom} (hgap : Gap gap)
    (h : Writable token) (htext : Ends text) :
    tokens (gap ++ (word token ++ text)) = token :: tokens text ∧
      (Tokenizes (gap ++ (word token ++ text)) ↔ Tokenizes text) := by
  obtain ⟨hbracket, hview⟩ := getToken_word h htext
  rw [← getToken_gap hgap] at hbracket hview
  have hsome := tokens_of_some hbracket
  rwa [hview] at hsome

theorem tokens_follows {ts : List (Bracket Atom)} {text : List UInt8} (h : Follows ts text)
    (hts : ∀ token ∈ ts, Writable token) : tokens text = ts ∧ Tokenizes text := by
  induction h with
  | nil hgap => exact tokens_gap hgap
  | cons hgap _ hfollows ih =>
      obtain ⟨hrest, hclean⟩ := ih fun token h => hts token (List.mem_cons_of_mem _ h)
      obtain ⟨htokens, hclean'⟩ := tokens_word hgap (hts _ List.mem_cons_self) hfollows.ends
      rw [htokens, hclean', hrest]
      exact ⟨rfl, hclean⟩

/-- The tokens of a text are the ones it writes. -/
theorem tokens_layout {ts : List (Bracket Atom)} {text : List UInt8} (h : Layout ts text)
    (hts : ∀ token ∈ ts, Writable token) : tokens text = ts ∧ Tokenizes text := by
  cases h with
  | nil hgap => exact tokens_gap hgap
  | cons hgap hfollows =>
      obtain ⟨hrest, hclean⟩ := tokens_follows hfollows fun token h =>
        hts token (List.mem_cons_of_mem _ h)
      obtain ⟨htokens, hclean'⟩ := tokens_word hgap (hts _ List.mem_cons_self) hfollows.ends
      rw [htokens, hclean', hrest]
      exact ⟨rfl, hclean⟩

/-- `Load` reads the trees back from every text that writes them. -/
theorem load_of_layout (trees : List Var) (text : List UInt8)
    (hwritable : ∀ token ∈ Form.writeAll trees, Writable token)
    (h : Layout (Form.writeAll trees) text) : load text = some trees := by
  obtain ⟨htokens, hclean⟩ := tokens_layout h hwritable
  have hbalanced : Bracket.Balanced (tokens text) := by
    rw [htokens]
    exact balanced_writeAll trees
  obtain ⟨forms, hload, hforms⟩ := load_of_balanced hclean hbalanced
  rw [hload, Form.writeAll_injective (htokens.symm.trans hforms)]

/-- `( -7;x`, and on the next line `"a"`, a tab and `)`. -/
theorem load_of_layout_pair :
    load [40, 32, 45, 55, 59, 120, 10, 34, 97, 34, 9, 41] =
      some [.list [.atom (.integer (-7)), .atom (.string [97])]] := by
  have hdecimal : decimal 7 = [55] := by
    rw [decimal, if_pos (by decide)]
    rfl
  have hword : word (.atom (.integer (-7))) = [minus, 55] := by
    rw [word, if_pos (by decide), show (-7 : Int32).toInt.natAbs = 7 from rfl, hdecimal]
  have hcomment : Gap (semicolon :: ([120] ++ newline :: [])) :=
    .comment (by simp [nul, newline]) .nil
  have hlayout : Layout [.opening, .atom (.integer (-7)), .atom (.string [97]), .closing]
      ([] ++ (word .opening ++ ([space] ++ (word (.atom (.integer (-7))) ++
        ([semicolon, 120, newline] ++ (word (.atom (.string [97])) ++
          ([tab] ++ (word .closing ++ [])))))))) :=
    .cons .nil (.cons (.blank (.inl rfl) .nil) nofun (.cons hcomment nofun
      (.cons (.blank (.inr (.inl rfl)) .nil) nofun (.nil .nil))))
  rw [hword] at hlayout
  have hwrite : Form.writeAll [.list [.atom (Atom.integer (-7)), .atom (.string [97])]] =
      [.opening, .atom (.integer (-7)), .atom (.string [97]), .closing] := by simp
  refine load_of_layout [.list [.atom (.integer (-7)), .atom (.string [97])]] _ ?_ ?_
  · simp [Writable, IsPlain, quote, nul, carriageReturn, newline]
  · rw [hwrite]
    exact hlayout

end Bango.Processor
