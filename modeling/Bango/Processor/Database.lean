import Bango.Lib.Keyed
import Bango.Lib.Runs
import Bango.Processor.Parser

set_option autoImplicit false

/-! # Databases

`db_object::container` loads a configuration file into a map: each of its lists is a record, of a name
and rows that are set one after the other. How the value of a floating-point text comes out as an `int`
is a parameter. -/

namespace Bango.Processor

open Bango.Lib

/-! ## Values -/

namespace Var

/-- `nil`. -/
def nil : Var := .list []

/-- `car`. -/
def car : Var → Var
  | .list (x :: _) => x
  | _ => nil

/-- `cdr`. -/
def cdr : Var → Var
  | .list (_ :: xs) => .list xs
  | _ => nil

/-- What `pop` gives while the value is a `_cons`. -/
def items : Var → List Var
  | .list xs => xs
  | .atom _ => []

/-- `operator const char*`. -/
def getString : Var → List UInt8
  | .atom (.string text) => text
  | _ => []

/-- `isspace`, which `strtol` skips. -/
def isspace (ch : UInt8) : Bool := ch = 32 || (9 ≤ ch && ch ≤ 13)

/-- `operator std::uint32_t`, of `GetInteger`. -/
def toUInt32 (floatToInt : List UInt8 → Int32) : Var → UInt32
  | .atom (.string text) => (getInteger (text.dropWhile isspace)).toUInt32
  | .atom (.integer value) => value.toUInt32
  | .atom (.float text) => (floatToInt text).toUInt32
  | .list _ => 0

end Var

/-- `std::tolower`. -/
def tolower (ch : UInt8) : UInt8 := if 65 ≤ ch ∧ ch ≤ 90 then ch + 32 else ch

/-! ## Loading -/

/-- Is a record of the name that is asked for? Brackets and upper case are ignored in its own. -/
def HasName (nameFilter : List UInt8) (param : Var) : Prop :=
  nameFilter = [] ∨
    ((param.car.getString.filter fun c => c ≠ openParen ∧ c ≠ closeParen).map tolower) = nameFilter

instance (nameFilter : List UInt8) : DecidablePred (HasName nameFilter) := fun _ =>
  inferInstanceAs (Decidable (_ ∨ _))

section

variable {α ε : Type} (index : α → UInt32) (set : α → Var → Except ε α) (empty : α)
  (nameFilter : List UInt8)

/-- `temp` of a record, after `T temp = {}` and a `set` for each row. -/
def readRecord (param : Var) : Except ε α := run set empty param.cdr.items

/-- One record: what has an index that is there already is not inserted. -/
def loadRecord (db : List α) (param : Var) : Except ε (List α) :=
  if HasName nameFilter param then do
    let temp ← readRecord set empty param
    return insertKey index db temp
  else .ok db

/-- The list of a file, or `lisp::error`; a file that cannot be opened has none. -/
def loadFile (file : Option (List UInt8)) : Option (List Var) := file.bind load

/-- `load`, with its result, into an empty `m_db`. -/
def loadDatabase (file : Option (List UInt8)) : Except ε (Bool × List α) :=
  match loadFile file with
  | none => .ok (false, [])
  | some forms => do
    let db ← run (loadRecord index set empty nameFilter) [] forms
    return (true, db)

/-! ## What a database is for -/

/-- The database has, under each index, the first of the records of the file that have the name. Each
    is related to its form in the file. -/
def FirstRecords (Record : Var → α → Prop) (file : Option (List UInt8)) (db : List α) : Prop :=
  ∃ records, List.Forall₂ Record (((loadFile file).getD []).filter (HasName nameFilter ·)) records ∧
    ∀ k, findKey index k db = findKey index k records

end

end Bango.Processor
