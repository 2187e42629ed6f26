import Bango.Lib.Cons
import Bango.Processor.Cursor

set_option autoImplicit false

/-! # Parsing a list

`XParser::ParseList` does what `Load` does without calling itself. It puts each form in front of those
that it has read, turns a list round when it is closed, and keeps the lists around it on a stack of
cells. A cell of the stack becomes the one of the closed list. What the callback makes of the list, and
that the cells are on the stack of the call, is left out. -/

namespace Bango.Processor

open Bango.Lib

/-! ## `nreverse` -/

/-- One round of `nreverse`, with `pInput` and `pOutput`; `v` is the cell of its argument. -/
def nreverseStep (v : ℕ) :
    Heap Atom × Ref Atom × Ref Atom →
      Except Trap (Next (Heap Atom × Ref Atom × Ref Atom) (Heap Atom × Ref Atom))
  | (heap, pInput, pOutput) => do
    let pObject ← pInput.address
    let cell ← heap.read pObject
    let heap := heap.setCdr pObject pOutput
    let goesOn ← cell.cdr.consp
    if goesOn then return .goto (heap, cell.cdr, .cons pObject)
    else return .ret (heap.setCdr v cell.cdr, .cons pObject)

/-- `nreverse`, for so many rounds. -/
def nreverse (steps : ℕ) (heap : Heap Atom) (v : Ref Atom) : Except Trap (Heap Atom × Ref Atom) := do
  let consp ← v.consp
  if consp then
    let address ← v.address
    loop (nreverseStep address) steps (heap, v, .null)
  else return (heap, v)

/-! ## `ParseList` -/

/-- The variables of `ParseList`. -/
structure Parsing where
  parser : XParser
  heap : Heap Atom
  top : Ref Atom
  stack : Ref Atom
deriving DecidableEq, Repr

/-- The parser in the end, and what the callback is given. -/
structure Parsed where
  parser : XParser
  heap : Heap Atom
  var : Ref Atom
deriving DecidableEq, Repr

/-- `top = new _cons(car, top)`. -/
def Parsing.push (parsing : Parsing) (car : Ref Atom) : Parsing :=
  let (heap, top) := parsing.heap.alloc ⟨car, parsing.top⟩
  { parsing with heap, top }

namespace XParser

/-- `Open`. -/
def «open» (parser : XParser) (file : XFile) : XParser :=
  { parser with file, depth := 0 }

/-- One round of `ParseList`, with at most `steps` steps of `GetToken` and of `nreverse`. -/
def parseStep (steps : ℕ) (parsing : Parsing) : Except Trap (Next Parsing Parsed) := do
  let (token, parser) ← parsing.parser.getToken steps
  let parsing := { parsing with parser }
  match token with
  | .tEnd =>
    if parser.depth ≠ 0 then return .ret ⟨parser, parsing.heap, .error⟩
    else
      let (heap, top) ← nreverse steps parsing.heap parsing.top
      -- `ASSERT(stack.null())`
      if parsing.stack = .nil then return .ret ⟨parser, heap, top⟩ else .error .fault
  | .tClose =>
    let (heap, top) ← nreverse steps parsing.heap parsing.top
    let consp ← parsing.stack.consp
    if consp then
      let pObject ← parsing.stack.address
      let cell ← heap.read pObject
      return .goto { parser, heap := heap.setCar pObject top, top := .cons pObject, stack := cell.car }
    else if parser.depth < 0 then return .ret ⟨{ parser with depth := 0 }, heap, .error⟩
    else return .ret ⟨parser, heap, top⟩
  | .tOpen =>
    let (heap, stack) := parsing.heap.alloc ⟨parsing.stack, parsing.top⟩
    return .goto { parser, heap, top := .nil, stack }
  | .tString => return .goto (parsing.push (.atom (.string parser.symbol)))
  | .tInteger => return .goto (parsing.push (.atom (.integer (getInteger parser.symbol))))
  | .tFloat => return .goto (parsing.push (.atom (.float parser.symbol)))
  | .tError => return .ret ⟨parser, parsing.heap, .error⟩

/-- `ParseList`, for so many rounds. -/
def parseList (steps : ℕ) (parser : XParser) (heap : Heap Atom) : Except Trap Parsed :=
  loop (parseStep steps) steps ⟨parser, heap, .nil, .nil⟩

end XParser

end Bango.Processor
