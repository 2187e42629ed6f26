import Mathlib.Logic.Basic

set_option autoImplicit false

/-! # Tokens

`XParser::GetToken` reads the view byte by byte and jumps between labels; a label is a state here, and
what is done with a byte in a state is an action. The view is what lies between `m_pView` and
`m_pViewEnd`. The line and the depth are not counted: `Load` reads neither. -/

namespace Bango.Processor

/-! ## Characters

The classes of characters are those of the "C" locale. -/

def nul : UInt8 := 0
def tab : UInt8 := 9
def newline : UInt8 := 10
def carriageReturn : UInt8 := 13
def space : UInt8 := 32
def quote : UInt8 := 34
def apostrophe : UInt8 := 39
def openParen : UInt8 := 40
def closeParen : UInt8 := 41
def star : UInt8 := 42
def plus : UInt8 := 43
def minus : UInt8 := 45
def period : UInt8 := 46
def slash : UInt8 := 47
def semicolon : UInt8 := 59
def underscore : UInt8 := 95

/-- `iswdigit`. -/
def iswdigit (ch : UInt8) : Bool := 48 ≤ ch && ch ≤ 57

/-- `iswalnum`. -/
def iswalnum (ch : UInt8) : Bool :=
  iswdigit ch || (65 ≤ ch && ch ≤ 90) || (97 ≤ ch && ch ≤ 122)

/-- `isxdigit`. -/
def isxdigit (ch : UInt8) : Bool :=
  iswdigit ch || (65 ≤ ch && ch ≤ 70) || (97 ≤ ch && ch ≤ 102)

/-- The digit zero. -/
def isZero (ch : UInt8) : Bool := ch = 48

/-- The digits that no octal number has. -/
def isEightOrNine (ch : UInt8) : Bool := ch = 56 || ch = 57

/-- "x" and "X". -/
def isX (ch : UInt8) : Bool := ch = 120 || ch = 88

/-- "d", "D", "e" and "E". -/
def isExponent (ch : UInt8) : Bool := ch = 100 || ch = 68 || ch = 101 || ch = 69

/-! ## States -/

/-- `TOKEN`. -/
inductive Token where
  | tEnd
  | tString
  | tInteger
  | tFloat
  | tOpen
  | tClose
  | tError
deriving DecidableEq, Repr

/-- The labels of `GetToken`, and its inner loops. -/
inductive State where
  | start
  | comment
  /-- between two of these quotes -/
  | quoted (quote : UInt8)
  | string
  | sign
  | zero
  | octal
  | hexa
  | digit
  | dot
  | dotDigit
  | exp
  | expSign
  | expDigit
deriving DecidableEq, Repr

/-- What is done with a byte that was read. -/
inductive Action where
  /-- go on without it -/
  | skip (state : State)
  /-- clear the symbol and go on without it -/
  | clear (state : State)
  /-- clear the symbol, append the byte and go on -/
  | begin (state : State)
  /-- append the byte and go on -/
  | append (state : State)
  /-- return, the byte is used up -/
  | accept (token : Token)
  /-- return, the byte is read again -/
  | unread (token : Token)
deriving DecidableEq, Repr

/-- What is returned where the view ends. -/
def State.atEnd : State → Token
  | .start | .comment => .tEnd
  | .quoted _ => .tError
  | .string | .sign => .tString
  | .zero | .octal | .hexa | .digit => .tInteger
  | .dot | .exp | .expSign => .tError
  | .dotDigit | .expDigit => .tFloat

/-- What is done with a byte; `next` is the one that follows it, if any. -/
def State.action (next : Option UInt8) (ch : UInt8) : State → Action
  | .start =>
    if ch = nul then .unread .tEnd
    else if ch = semicolon then .skip .comment
    else if ch = newline then .skip .start
    else if ch = openParen then .accept .tOpen
    else if ch = closeParen then .accept .tClose
    else if ch = quote then .clear (.quoted quote)
    else if ch = apostrophe then .clear (.quoted apostrophe)
    else if ch = space || ch = tab || ch = carriageReturn then .skip .start
    else if ch = plus || ch = minus then .begin .sign
    else if isZero ch then .begin .zero
    else if ch = period then .begin .dot
    else if ch = star || ch = slash || ch = underscore then .begin .string
    else if iswdigit ch then .begin .digit
    else if iswalnum ch then .begin .string
    else .accept .tError
  | .comment =>
    if ch = nul then .unread .tEnd
    -- the newline is read again, and skipped
    else if ch = newline then .skip .start
    else .skip .comment
  | .quoted quote =>
    if ch = nul then .unread .tError
    else if ch = quote then
      -- of two quotes the second one is not used up
      if next = some quote then .append (.quoted quote) else .accept .tString
    else if ch = carriageReturn || ch = newline then .unread .tError
    else .append (.quoted quote)
  | .string =>
    if ch = plus || ch = minus || ch = star || ch = slash || ch = period || ch = underscore then
      .append .string
    else if iswalnum ch then .append .string
    else .unread .tString
  | .sign =>
    if isZero ch then .append .zero
    else if ch = period then .append .dot
    else if iswdigit ch then .append .digit
    else if iswalnum ch then .accept .tError
    else .unread .tString
  | .zero =>
    if isX ch then .append .hexa
    else if isEightOrNine ch then .accept .tError
    else if ch = period then .append .dot
    else if iswdigit ch then .append .octal
    else if iswalnum ch then .accept .tError
    else .unread .tInteger
  | .octal =>
    if isEightOrNine ch then .accept .tError
    else if iswdigit ch then .append .octal
    else if iswalnum ch then .accept .tError
    else .unread .tInteger
  | .hexa =>
    if isxdigit ch then .append .hexa
    else if iswalnum ch then .accept .tError
    else .unread .tInteger
  | .digit =>
    if ch = period then .append .dot
    else if isExponent ch then .append .exp
    else if iswdigit ch then .append .digit
    else if iswalnum ch then .accept .tError
    else .unread .tInteger
  | .dot => if iswdigit ch then .append .dotDigit else .unread .tError
  | .dotDigit =>
    if isExponent ch then .append .exp
    else if iswdigit ch then .append .dotDigit
    else if iswalnum ch then .accept .tError
    else .unread .tFloat
  | .exp =>
    if ch = plus || ch = minus then .append .expSign
    else if iswdigit ch then .append .expDigit
    else .unread .tError
  | .expSign => if iswdigit ch then .append .expDigit else .unread .tError
  | .expDigit =>
    if iswdigit ch then .append .expDigit
    else if iswalnum ch then .accept .tError
    else .unread .tFloat

/-! ## Reading a token -/

/-- A token, with `m_strSymbol` and the view after it. -/
structure Lexed where
  token : Token
  symbol : List UInt8
  view : List UInt8
deriving DecidableEq, Repr

/-- `GetToken` from a label on. -/
def lexFrom : State → List UInt8 → List UInt8 → Lexed
  | state, symbol, [] => ⟨state.atEnd, symbol, []⟩
  | state, symbol, ch :: view =>
    match state.action view.head? ch with
    | .skip state' => lexFrom state' symbol view
    | .clear state' => lexFrom state' [] view
    | .begin state' => lexFrom state' [ch] view
    | .append state' => lexFrom state' (symbol ++ [ch]) view
    | .accept token => ⟨token, symbol, view⟩
    | .unread token => ⟨token, symbol, ch :: view⟩

/-- `GetToken`. What `m_strSymbol` holds before makes no difference to a token that has one. -/
def getToken (view : List UInt8) : Lexed := lexFrom .start [] view

theorem lexFrom_view_le (state : State) (symbol view : List UInt8) :
    (lexFrom state symbol view).view.length ≤ view.length := by
  induction view generalizing state symbol with
  | nil => exact Nat.le_refl _
  | cons ch view ih =>
      rw [lexFrom]
      split
      · exact Nat.le_succ_of_le (ih _ _)
      · exact Nat.le_succ_of_le (ih _ _)
      · exact Nat.le_succ_of_le (ih _ _)
      · exact Nat.le_succ_of_le (ih _ _)
      · exact Nat.le_succ _
      · exact Nat.le_refl _

/-- At the start of a token, only a NUL is read again. -/
theorem unread_start {next : Option UInt8} {ch : UInt8} {token : Token}
    (h : State.start.action next ch = .unread token) : token = .tEnd := by
  simp only [State.action, ite_eq_iff, reduceCtorEq, and_false, or_false, Action.unread.injEq] at h
  exact h.2.symm

/-- A token that is not the end takes a byte at least. -/
theorem getToken_view_lt {view : List UInt8} (h : (getToken view).token ≠ .tEnd) :
    (getToken view).view.length < view.length := by
  cases view with
  | nil => exact absurd rfl h
  | cons ch view =>
      rw [getToken, lexFrom] at h ⊢
      split at h
      · exact Nat.lt_succ_of_le (lexFrom_view_le _ _ _)
      · exact Nat.lt_succ_of_le (lexFrom_view_le _ _ _)
      · exact Nat.lt_succ_of_le (lexFrom_view_le _ _ _)
      · exact Nat.lt_succ_of_le (lexFrom_view_le _ _ _)
      · exact Nat.lt_succ_self _
      · next haction => exact absurd (unread_start haction) h

theorem accept_ne_tEnd (state : State) (next : Option UInt8) (ch : UInt8) :
    state.action next ch ≠ .accept .tEnd := by
  cases state <;>
    simp only [State.action, Ne, ite_eq_iff, reduceCtorEq, Action.accept.injEq, and_false, or_false,
      not_false_iff]

theorem nul_of_unread_tEnd {state : State} {next : Option UInt8} {ch : UInt8}
    (h : state.action next ch = .unread .tEnd) : ch = nul := by
  cases state <;>
    simp only [State.action, ite_eq_iff, reduceCtorEq, Action.unread.injEq, and_false, or_false,
      and_true] at h
  · exact h
  · exact h

theorem lexFrom_end {state : State} {symbol view : List UInt8}
    (h : (lexFrom state symbol view).token = .tEnd) :
    (getToken (lexFrom state symbol view).view).token = .tEnd := by
  induction view generalizing state symbol with
  | nil => rfl
  | cons ch view ih =>
      rw [lexFrom] at h ⊢
      split at h
      · exact ih h
      · exact ih h
      · exact ih h
      · exact ih h
      · next token haction =>
          cases h
          exact absurd haction (accept_ne_tEnd _ _ _)
      · next token haction =>
          cases h
          rw [nul_of_unread_tEnd haction]
          rfl

/-- The end is found again and again. -/
theorem getToken_end {view : List UInt8} (h : (getToken view).token = .tEnd) :
    (getToken (getToken view).view).token = .tEnd :=
  lexFrom_end h

end Bango.Processor
