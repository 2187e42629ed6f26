import Bango.Processor.Parser

set_option autoImplicit false

/-! # What players type

`Player::OnChatting` looks at the first character of a message. What begins with a slash goes to
`CommandDispatcher`, which takes it apart with `std::ws` and `std::getline` and finds the command by its
first word; the task of the command reads its arguments from what is left. What the handlers do with the
arguments is left out, but for the places of `Player::Teleport`. -/

namespace Bango.Chat

open Bango.Processor

/-! ## Tokens -/

/-- `std::isspace`, in the "C" locale. -/
def isspace (ch : UInt8) : Bool := ch = space || 9 ≤ ch && ch ≤ 13

/-- `Token::token`: the word, and what is left of the stream. -/
def token (stream : List UInt8) : List UInt8 × List UInt8 :=
  let stream := stream.dropWhile isspace
  (stream.takeWhile (· ≠ space), (stream.dropWhile (· ≠ space)).drop 1)

/-- `std::stoi`, or 0 where it throws. -/
def stoi (text : List UInt8) : Int32 :=
  let text := text.dropWhile isspace
  let value : Int :=
    match text with
    | [] => 0
    | ch :: rest =>
      if ch = minus then -(readDigits 10 rest : Int)
      else if ch = plus then readDigits 10 rest
      else readDigits 10 text
  if -2147483648 ≤ value ∧ value ≤ 2147483647 then .ofInt value else 0

/-- `Token::operator int`. -/
def intToken (stream : List UInt8) : Int32 × List UInt8 := (stoi (token stream).1, (token stream).2)

/-! ## Commands -/

/-- The places that have a command of their own. -/
inductive Place where
  | naro | cargo | mine | fort | bird | cop | ghost | tp
deriving DecidableEq, Repr

/-- The commands that `main` registers. -/
inductive Command where
  | get | move2 | moveTo | online | mob | expelParty
  | place (place : Place)
  | getExp | around
deriving DecidableEq, Repr

/-- `m_commands`. -/
def commands : List Command :=
  [.get, .move2, .moveTo, .online, .mob, .expelParty, .place .naro, .place .cargo, .place .mine,
    .place .fort, .place .bird, .place .cop, .place .ghost, .place .tp, .getExp, .around]

def Command.name : Command → List UInt8
  | get => "/get".toUTF8.toList
  | move2 => "/move2".toUTF8.toList
  | moveTo => "/moveto".toUTF8.toList
  | online => "/online".toUTF8.toList
  | mob => "/mob".toUTF8.toList
  | expelParty => "/expelparty".toUTF8.toList
  | place .naro => "/naro".toUTF8.toList
  | place .cargo => "/cargo".toUTF8.toList
  | place .mine => "/mine".toUTF8.toList
  | place .fort => "/fort".toUTF8.toList
  | place .bird => "/bird".toUTF8.toList
  | place .cop => "/cop".toUTF8.toList
  | place .ghost => "/ghost".toUTF8.toList
  | place .tp => "/tp".toUTF8.toList
  | getExp => "/getexp".toUTF8.toList
  | around => "/around".toUTF8.toList

/-- A command with its arguments. -/
inductive Order where
  | get (index num : Int32)
  | move2 (x y : Int32)
  | moveTo (name : List UInt8)
  | online
  | mob (index : Int32)
  | expelParty (name : List UInt8)
  | place (place : Place)
  | getExp (exp : Int32)
  | around (radius : Int32)
deriving DecidableEq, Repr

/-- The task of a command, as far as it reads its arguments. -/
def Command.task (stream : List UInt8) : Command → Order
  | get =>
    let (index, stream) := intToken stream
    let (num, _) := intToken stream
    .get index num
  | move2 =>
    let (x, stream) := intToken stream
    let (y, _) := intToken stream
    .move2 x y
  | moveTo => .moveTo (token stream).1
  | online => .online
  | mob => .mob (intToken stream).1
  | expelParty => .expelParty (token stream).1
  | place p => .place p
  | getExp => .getExp (intToken stream).1
  | around => .around (intToken stream).1

/-- `CommandDispatcher::Dispatch`: what is executed, if anything. -/
def dispatch (message : List UInt8) : Option Order :=
  let (lookup, stream) := token message
  (commands.find? (·.name = lookup)).map (·.task stream)

/-! ## Messages -/

/-- What `Player::OnChatting` does with a message. -/
inductive Chatting where
  | nothing
  | command (order : Option Order)
  /-- It is written to the player of the name, and back to the sender. -/
  | whisper (receiver : List UInt8)
  /-- It is written to the party. -/
  | party
  /-- It is written in sight. -/
  | sight
deriving DecidableEq, Repr

/-- `Player::OnChatting`, of a player of the name. -/
def onChatting (name message : List UInt8) : Chatting :=
  match message with
  | [] => .nothing
  | ch :: rest =>
    if ch = slash then .command (dispatch message)
    else if ch = 64 then
      if space ∈ rest then
        let receiver := rest.takeWhile (· ≠ space)
        if receiver = name then .nothing else .whisper receiver
      else .nothing
    else if ch = 35 then if rest = [] then .nothing else .party
    else .sight

end Bango.Chat
