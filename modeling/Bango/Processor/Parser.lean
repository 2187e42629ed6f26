import Mathlib.Data.Nat.Notation
import Bango.Lib.Brackets
import Bango.Processor.Lexer

set_option autoImplicit false

/-! # Loading a list

`XParser::OnLoad` reads forms until the end or a closing bracket and calls itself for a list. What
becomes of the objects of a list that is dropped at an error is left out, and so is the value of a
floating-point number, which keeps its text here. -/

namespace Bango.Processor

open Bango.Lib

/-! ## Values -/

/-- `_string`, `_integer` and `_float`. -/
inductive Atom where
  | string (text : List UInt8)
  | integer (value : Int32)
  /-- the text that `GetFloat` gives to `atof` -/
  | float (text : List UInt8)
deriving DecidableEq, Repr

/-- `lisp::var`: one of these objects, or a list of them. -/
abbrev Var : Type := Form Atom

/-- The value of a digit. -/
def digitValue (ch : UInt8) : ℕ :=
  if iswdigit ch then ch.toNat - 48
  else if 97 ≤ ch then ch.toNat - 87
  else ch.toNat - 55

/-- A digit of a number to some base. -/
def isDigitOf (base : ℕ) (ch : UInt8) : Bool := iswalnum ch && digitValue ch < base

/-- The digits a number begins with. -/
def readDigits (base : ℕ) (text : List UInt8) : ℕ :=
  (text.takeWhile (isDigitOf base)).foldl (fun value ch => value * base + digitValue ch) 0

/-- The number after the sign, for the base 0 of `strtol`. -/
def readNumber : List UInt8 → ℕ
  | [] => 0
  | [ch] => readDigits 10 [ch]
  | ch :: ch' :: text =>
    if isZero ch then
      if isX ch' then readDigits 16 text else readDigits 8 (ch' :: text)
    else readDigits 10 (ch :: ch' :: text)

/-- `strtol` with base 0, of a text without leading blanks. -/
def strtol (text : List UInt8) : Int :=
  let value : Int :=
    match text with
    | [] => 0
    | ch :: rest =>
      if ch = minus then -(readNumber rest : Int)
      else if ch = plus then readNumber rest
      else readNumber text
  -- out of range, the nearest `long`
  max (-9223372036854775808) (min 9223372036854775807 value)

/-- `GetInteger`. -/
def getInteger (symbol : List UInt8) : Int32 := .ofInt (strtol symbol)

/-! ## Lists -/

/-- `OnLoad`, with the view after it; `none` is `lisp::error`. A call takes a byte of the view before
    it calls again, so with more calls than bytes it does not run out of them. -/
def onLoad : ℕ → List UInt8 → Option (List Var × List UInt8)
  | 0, _ => none
  | calls + 1, view =>
    let lexed := getToken view
    match lexed.token with
    | .tEnd | .tClose => some ([], lexed.view)
    | .tOpen => do
      let (child, view) ← onLoad calls lexed.view
      let (rest, view) ← onLoad calls view
      return (.list child :: rest, view)
    | .tString => do
      let (rest, view) ← onLoad calls lexed.view
      return (.atom (.string lexed.symbol) :: rest, view)
    | .tFloat => do
      let (rest, view) ← onLoad calls lexed.view
      return (.atom (.float lexed.symbol) :: rest, view)
    | .tInteger => do
      let (rest, view) ← onLoad calls lexed.view
      return (.atom (.integer (getInteger lexed.symbol)) :: rest, view)
    | .tError => none

/-- `Load`. -/
def load (view : List UInt8) : Option (List Var) :=
  (onLoad (view.length + 1) view).map Prod.fst

end Bango.Processor
