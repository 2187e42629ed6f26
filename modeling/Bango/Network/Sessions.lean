import Mathlib.Logic.Function.Basic
import Bango.Lib.Runs
import Bango.Network.Server

set_option autoImplicit false

/-! # The sessions of the server

`server::start` and `server::on_new_message` for all clients. A client is accepted under the lock of the
sessions, and then one read of it is outstanding at a time. When a read fails, `on_disconnected` runs
first, and the session is taken off the list later, when the thread has got the lock; other clients come
and go in between.

The sessions are numbered as they are made, in place of their addresses: a read holds on to its session, so
no other one gets its address before it is off the list. What the callbacks do is left out. -/

namespace Bango.Network

open Bango.Lib

/-- A callback that is run for a session. -/
inductive Sessions.Called where
  /-- `m_on_connected` -/
  | connected
  /-- `execute`, with the bytes of the packet -/
  | executed (bytes : List UInt8)
  /-- `m_on_disconnected` -/
  | disconnected
deriving DecidableEq, Repr

/-- What a session waits for. -/
inductive Stage where
  /-- It has not been made. -/
  | absent
  /-- A read is outstanding. -/
  | reading
  /-- It is to be taken off the list. -/
  | leaving
  | left
deriving DecidableEq, Repr

/-- `server`. -/
structure Sessions where
  /-- `m_sessions` -/
  sessions : List ℕ
  /-- `m_max_online` -/
  maxOnline : UInt16
  /-- how many sessions have been made -/
  made : ℕ
  stage : ℕ → Stage
  /-- `m_remaining_buffer` -/
  remaining : ℕ → List UInt8
  /-- the callbacks that have been run for each session -/
  called : ℕ → List Sessions.Called
  /-- how many clients have been told that there are too many -/
  exceeded : ℕ

/-- What happens next. -/
inductive Sessions.Event where
  /-- `set_max_online` -/
  | setMaxOnline (maxOnline : UInt16)
  /-- A client connects. -/
  | connect
  /-- A read of a session succeeds. -/
  | read (session : ℕ) (r : Read)
  /-- A read of a session fails, and `m_on_disconnected` runs. -/
  | fail (session : ℕ)
  /-- The session is taken off the list. -/
  | remove (session : ℕ)

inductive Sessions.Fault where
  | read (fault : ServerFault)
  /-- "fatal error: session container is empty" -/
  | empty
  /-- "fatal error: session has not been erased" -/
  | notErased
deriving DecidableEq, Repr

namespace Sessions

/-- A server before it is started. -/
def new : Sessions where
  sessions := []
  maxOnline := 1024
  made := 0
  stage _ := .absent
  remaining _ := []
  called _ := []
  exceeded := 0

variable (s : Sessions)

/-- `get_online`. -/
def getOnline : UInt16 := UInt16.ofNat s.sessions.length

/-- More callbacks are run for a session. -/
def call (session : ℕ) (called : List Called) : Sessions :=
  { s with called := Function.update s.called session (s.called session ++ called) }

/-- The callback of `tcp_server::start`. -/
def connect : Sessions :=
  if s.getOnline ≥ s.maxOnline then { s with exceeded := s.exceeded + 1 }
  else
    call
      { s with
        sessions := s.sessions ++ [s.made]
        made := s.made + 1
        stage := Function.update s.stage s.made .reading }
      s.made [.connected]

/-- `on_new_message` with `res.success`. -/
def read (session : ℕ) (r : Read) : Except Fault Sessions :=
  let handed := (onNewMessage (s.remaining session) r).handed
  match (onNewMessage (s.remaining session) r).outcome with
  | .error fault => .error (.read fault)
  | .ok rest =>
    .ok (call { s with remaining := Function.update s.remaining session rest } session
      (handed.map .executed))

/-- `on_new_message` without `res.success`, until it waits for the lock. -/
def fail (session : ℕ) : Sessions :=
  call { s with stage := Function.update s.stage session .leaving } session [.disconnected]

/-- The rest of it, under the lock. -/
def remove (session : ℕ) : Except Fault Sessions :=
  let sessions := s.sessions.filter (· ≠ session)
  if s.sessions.length = 0 then .error .empty
  else if sessions.length ≠ s.sessions.length - 1 then .error .notErased
  else .ok { s with sessions, stage := Function.update s.stage session .left }

/-- One step. -/
def step : Event → Except Fault Sessions
  | .setMaxOnline maxOnline => .ok { s with maxOnline }
  | .connect => .ok s.connect
  | .read session r => s.read session r
  | .fail session => .ok (s.fail session)
  | .remove session => s.remove session

/-- A read comes back only while it is outstanding, and a session is taken off the list only after one
    has failed. -/
def Guard : Event → Prop
  | .setMaxOnline _ | .connect => True
  | .read session _ | .fail session => s.stage session = .reading
  | .remove session => s.stage session = .leaving

instance (event : Event) : Decidable (s.Guard event) :=
  match event with
  | .setMaxOnline _ | .connect => isTrue trivial
  | .read session _ | .fail session => inferInstanceAs (Decidable (s.stage session = .reading))
  | .remove session => inferInstanceAs (Decidable (s.stage session = .leaving))

/-- The reads of a session among the events. -/
def readsOf (session : ℕ) (events : List Event) : List Read :=
  events.filterMap fun event =>
    match event with
    | .read other r => if other = session then some r else none
    | .setMaxOnline _ | .connect | .fail _ | .remove _ => none

end Sessions

end Bango.Network
