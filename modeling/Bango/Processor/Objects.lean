import Bango.Lib.Storage
import Bango.Processor.Parser

set_option autoImplicit false

/-! # The objects of a list

`XParser::OnLoad` with the objects that it makes: a list that is dropped at an error is destroyed. A
string is allocated with `malloc` and freed with `free`, the other objects with `new` and `delete`, which
makes no difference here. -/

namespace Bango.Processor

open Bango.Lib

/-- `_object::destroy`, for at most so many calls and rounds of its loop. The rest of a list is looked at
    before its first cell is freed, and `lisp::nil` and `lisp::error` stay. -/
def destroy : ℕ → Storage Atom → Pointer → Except Trap (Storage Atom)
  | 0, _, _ => .error .running
  | _ + 1, storage, .nil | _ + 1, storage, .error => return storage
  | steps + 1, storage, .object address => do
    match ← storage.read address with
    | .atom _ => storage.free address
    | .cons car cdr =>
      let storage ← destroy steps storage car
      let storage ← storage.free address
      destroy steps storage cdr

/-- The variables of `OnLoad`. -/
structure Loading where
  storage : Storage Atom
  varList : Pointer
  /-- the cell whose second reference `pList` points at; nothing while that is `varList` itself -/
  pList : Option ℕ
deriving DecidableEq, Repr

namespace Loading

/-- The variables at first. -/
def start (storage : Storage Atom) : Loading := ⟨storage, .nil, none⟩

/-- `*pList = new _cons(child, nil)`, after which `pList` points at the end of the list again. -/
def append (loading : Loading) (child : Pointer) : Except Trap Loading :=
  let address := loading.storage.length
  let (storage, cons) := loading.storage.alloc (.cons child .nil)
  match loading.pList with
  | none => return ⟨storage, cons, some address⟩
  | some last => do
    let storage ← storage.setCdr last cons
    return ⟨storage, loading.varList, some address⟩

/-- A new value at the end of the list. -/
def appendAtom (loading : Loading) (atom : Atom) : Except Trap Loading :=
  let (storage, child) := loading.storage.alloc (.atom atom)
  { loading with storage }.append child

/-- `varList.destroy()`. An object takes a call or a round, so there are enough of them. -/
def drop (loading : Loading) : Except Trap (Storage Atom) :=
  destroy (loading.storage.length + 1) loading.storage loading.varList

end Loading

/-- `listp`. -/
def listp (storage : Storage Atom) : Pointer → Except Trap Bool
  | .nil => return true
  | .error => return false
  | .object address => do
    match ← storage.read address with
    | .atom _ => return false
    | .cons _ _ => return true

/-- `OnLoad` from a round on, with what it returns and the view after it, for at most so many calls and
    rounds. -/
def onLoadIn : ℕ → List UInt8 → Loading → Except Trap (Storage Atom × Pointer × List UInt8)
  | 0, _, _ => .error .running
  | calls + 1, view, loading => do
    let lexed := getToken view
    match lexed.token with
    | .tEnd | .tClose => return (loading.storage, loading.varList, lexed.view)
    | .tOpen =>
      let (storage, child, view) ← onLoadIn calls lexed.view (.start loading.storage)
      let loading := { loading with storage }
      if ← listp storage child then
        let loading ← loading.append child
        onLoadIn calls view loading
      else
        let storage ← loading.drop
        return (storage, child, view)
    | .tString =>
      let loading ← loading.appendAtom (.string lexed.symbol)
      onLoadIn calls lexed.view loading
    | .tFloat =>
      let loading ← loading.appendAtom (.float lexed.symbol)
      onLoadIn calls lexed.view loading
    | .tInteger =>
      let loading ← loading.appendAtom (.integer (getInteger lexed.symbol))
      onLoadIn calls lexed.view loading
    | .tError =>
      let storage ← loading.drop
      return (storage, .error, lexed.view)

/-- `Load`. -/
def loadIn (storage : Storage Atom) (view : List UInt8) : Except Trap (Storage Atom × Pointer) := do
  let (storage, var, _) ← onLoadIn (view.length + 1) view (.start storage)
  return (storage, var)

end Bango.Processor
