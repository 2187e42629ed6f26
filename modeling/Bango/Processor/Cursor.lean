import Bango.Lib.Loops
import Bango.Processor.Parser

set_option autoImplicit false

/-! # A cursor in a buffer

`XParser` reads through `m_pView`, which it moves forth and back and compares with `m_pViewEnd` for
equality only. Here it is an offset that may be anywhere, and a read outside the buffer is a fault. The
line is not counted: nothing but the traces reads it. -/

namespace Bango.Processor

open Bango.Lib

/-! ## The file -/

/-- `XFile`: the bytes from `m_pViewBegin` to `m_pViewEnd`, and the offset of `m_pView`. -/
structure XFile where
  bytes : List UInt8
  view : Int
deriving DecidableEq, Repr

namespace XFile

/-- `Open`. -/
def «open» (bytes : List UInt8) : XFile := ⟨bytes, 0⟩

/-- `m_pView == m_pViewEnd`. -/
def atEnd (file : XFile) : Bool := file.view = file.bytes.length

/-- `*m_pView`. -/
def peek (file : XFile) : Except Trap UInt8 :=
  if file.view < 0 then .error .fault
  else
    match file.bytes[file.view.toNat]? with
    | none => .error .fault
    | some ch => .ok ch

/-- The offset lies in the buffer or just after it. -/
def Inside (file : XFile) : Prop := 0 ≤ file.view ∧ file.view ≤ file.bytes.length

/-- What is left to be read. -/
def rest (file : XFile) : List UInt8 := file.bytes.drop file.view.toNat

end XFile

/-! ## The parser -/

/-- `XParser`. -/
structure XParser where
  file : XFile
  depth : Int32
  symbol : List UInt8
deriving DecidableEq, Repr

namespace XParser

/-- `m_pView++`. -/
def advance (parser : XParser) : XParser :=
  { parser with file.view := parser.file.view + 1 }

/-- `m_pView--`. -/
def back (parser : XParser) : XParser :=
  { parser with file.view := parser.file.view - 1 }

/-- `m_strSymbol += ch`. -/
def append (parser : XParser) (ch : UInt8) : XParser :=
  { parser with symbol := parser.symbol ++ [ch] }

/-! ## `GetToken` -/

/-- Do what is to be done with a byte that was read. -/
def act (parser : XParser) (ch : UInt8) : Action → Next (State × XParser) (Token × XParser)
  | .skip state => .goto (state, parser)
  | .clear state => .goto (state, { parser with symbol := [] })
  | .begin state => .goto (state, { parser with symbol := [ch] })
  | .append state => .goto (state, parser.append ch)
  | .accept token => .ret (token, parser)
  | .unread token => .ret (token, parser.back)

/-- What a label does with the byte that was read last. -/
def read (parser : XParser) (ch : UInt8) :
    State → Except Trap (Next (State × XParser) (Token × XParser))
  | .start =>
    if ch = openParen then .ok (.ret (.tOpen, { parser with depth := parser.depth + 1 }))
    else if ch = closeParen then .ok (.ret (.tClose, { parser with depth := parser.depth - 1 }))
    else .ok (parser.act ch (State.start.action none ch))
  | .comment =>
    -- what ends a comment is left to `st_start`
    if ch = nul || ch = newline then .ok (.goto (.start, parser.back))
    else .ok (.goto (.comment, parser))
  | .quoted quote =>
    if ch = nul then .ok (.ret (.tError, parser.back))
    else if ch = quote then
      if parser.file.atEnd then .ok (.ret (.tString, parser))
      else do
        let next ← parser.file.peek
        if next ≠ quote then .ok (.ret (.tString, parser))
        else .ok (.goto (.quoted quote, parser.append ch))
    else if ch = carriageReturn || ch = newline then .ok (.ret (.tError, parser.back))
    else .ok (.goto (.quoted quote, parser.append ch))
  | state => .ok (parser.act ch (state.action none ch))

/-- One round of `GetToken`: a label, or an inner loop once. -/
def step : State × XParser → Except Trap (Next (State × XParser) (Token × XParser))
  | (state, parser) =>
    if parser.file.atEnd then .ok (.ret (state.atEnd, parser))
    else do
      let ch ← parser.file.peek
      parser.advance.read ch state

/-- `GetToken`. -/
def getToken (steps : ℕ) (parser : XParser) : Except Trap (Token × XParser) :=
  loop step steps (.start, parser)

/-! ## `Load` -/

/-- `OnLoad` with the list that it has read so far, for so many rounds and calls of at most `steps`
    steps each. No list is `lisp::error`. -/
def onLoad (steps : ℕ) : ℕ → XParser → List Var → Except Trap (Option (List Var) × XParser)
  | 0, _, _ => .error .running
  | calls + 1, parser, varList => do
    let (token, parser) ← parser.getToken steps
    match token with
    | .tEnd | .tClose => return (some varList, parser)
    | .tOpen =>
      let (child, parser) ← onLoad steps calls parser []
      match child with
      | none => return (none, parser)
      | some child => onLoad steps calls parser (varList ++ [.list child])
    | .tString => onLoad steps calls parser (varList ++ [.atom (.string parser.symbol)])
    | .tFloat => onLoad steps calls parser (varList ++ [.atom (.float parser.symbol)])
    | .tInteger => onLoad steps calls parser (varList ++ [.atom (.integer (getInteger parser.symbol))])
    | .tError => return (none, parser)

/-- `Load` of a file, for at most so many steps and calls. -/
def load (steps : ℕ) (parser : XParser) (file : XFile) :
    Except Trap (Option (List Var) × XParser) :=
  onLoad steps steps { parser with file } []

end XParser

end Bango.Processor
