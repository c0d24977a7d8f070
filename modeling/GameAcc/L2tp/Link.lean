import GameAcc.L2tp.Tunnel

/-!
Two tunnels that face each other. Between them lies a network that loses,
repeats and reorders datagrams as it likes: whatever a side has once put on the
wire may reach the other side at any time, any number of times, or never.

A move is one thing a daemon does: act on its own, send a scheduled message
again, look after a call that closes, or take one datagram from the socket.
What the messages say is open, and so is what the daemons do with them.
-/

namespace GameAcc.L2tp

inductive Side where
  | lac
  | lns
deriving Repr, DecidableEq

def Side.peer : Side → Side
  | .lac => .lns
  | .lns => .lac

@[simp] theorem Side.peer_peer (s : Side) : s.peer.peer = s := by cases s <;> rfl

theorem Side.peer_ne (s : Side) : s.peer ≠ s := by cases s <;> decide

def wire : List Event → List Packet := List.filterMap fun
  | .wire p => some p
  | _ => none

/-- The messages that got a number, in the order of their numbers. -/
def sent : List Event → List (List UInt8) := List.filterMap fun
  | .queued body => some body
  | _ => none

/-- What was taken with each expected number: nothing for a ZLB. -/
def took : List Event → List (Option (List UInt8)) := List.filterMap fun
  | .took body _ => some (if body = [] then none else some body)
  | _ => none

/-- The messages given to `handle_avps`. -/
def handed : List Event → List (List UInt8) := List.filterMap fun
  | .took body true => some body
  | _ => none

@[ext]
structure Link where
  ends : Side → Tunnel
  trace : Side → List Event

inductive Move where
  | act (s : Side) (a : Act)
  | timer (s : Side) (index : Nat) (stop : Body)
  | sweep (s : Side) (r : Ref) (body : Body)
  | deliver (s : Side) (index : Nat) (finish : List Act)

def Move.side : Move → Side
  | .act s _ | .timer s _ _ | .sweep s _ _ | .deliver s _ _ => s

namespace Link

/-- Both tunnels right after `new_tunnel`. -/
def initial : Link where
  ends := fun _ => newTunnel
  trace := fun _ => []

/-- What a move does to the tunnel of its side. -/
def perform (l : Link) : Move → Tunnel × List Event
  | .act s a => L2tp.act (l.ends s) a
  | .timer s index stop =>
    match (l.ends s).events[index]? with
    | none => (l.ends s, [])
    | some buf =>
      controlXmit stop { l.ends s with events := (l.ends s).events.eraseIdx index } buf
  | .sweep s r body => buildFdset body (l.ends s) r
  | .deliver s index finish =>
    match (wire (l.trace s.peer))[index]? with
    | none => (l.ends s, [])
    | some p => receive (l.ends s) p finish

/-- A tunnel that is destroyed does nothing any more. -/
def exec (l : Link) (m : Move) : Link :=
  if (l.ends m.side).destroyed then l
  else
    let (t, out) := l.perform m
    { ends := fun s => if s = m.side then t else l.ends s
      trace := fun s => if s = m.side then l.trace s ++ out else l.trace s }

def run (l : Link) (moves : List Move) : Link := moves.foldl exec l

end Link

end GameAcc.L2tp
