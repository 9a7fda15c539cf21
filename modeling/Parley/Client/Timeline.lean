import Parley.Client.Basic

/-!
# The course of a client

At one instant every part of a client goes on as far as it can, one part after another and all of
them again until none can go on (`Client.settle`). Time passes from one deadline to the next
(`Client.sleep`).
-/

namespace Parley.Client

/-- The parts of a client in the order in which they take their turns. A connection's writing side
comes before its reading side, and calls come before those who take events. -/
def actors (c : Client) : List Actor :=
  let connections := List.range c.connections.length
  connections.flatMap (fun i => [.connecting i, .writing i, .reading i]) ++
    (List.range c.calls.length).map .calling ++ connections.map .holding

/-- How much a link holds that has still to be read. -/
def unread (l : Link) : Nat := l.reader.inbound.waiting.length + l.reader.buffer.length

def workOf : Phase → Nat
  | .greeting _ link => unread link + 8
  | .failed => 0
  | .established s _ =>
    let ahead :=
      match s.stage with
      | .starting requests => requests.length
      | .live duties => duties.length
      | _ => 0
    unread s.link + ahead + s.outbox.items.length + s.channel.items.length + s.backlog.length + 8

/-- How much work the parts of a client have before them, at the least. -/
def work (c : Client) : Nat :=
  c.connections.foldl (fun n k => n + workOf k.phase) 0 + c.calls.length +
    c.progress.engine.scopes.length + 8

/-- Lets one part go on as far as it can, at most so many steps. -/
def turn : (steps : Nat) → Actor → Client → Client
  | 0, _, c => c
  | steps + 1, a, c =>
    match c.act? a with
    | some c => turn steps a c
    | none => c

/-- Lets every part have its turn, at most so often. -/
def rounds (steps : Nat) : (times : Nat) → Client → Client
  | 0, c => c
  | times + 1, c =>
    let parts := c.actors
    if parts.all fun a => (c.act? a).isNone then c
    else rounds steps times (parts.foldl (fun c a => turn steps a c) c)

/-- Lets all parts go on until none can. Every step uses up a part of the work, or brings in at most
a few times as much as it uses up; the bound leaves room for that. -/
def settle (c : Client) : Client := rounds (16 * c.work) (16 * c.work) c

def deadlineOf : Phase → Option Nat
  | .greeting h _ => h.deadline?
  | .established s _ => s.deadline?
  | .failed => none

/-- The times at which time alone takes a part further. -/
def deadlines (c : Client) : List Nat :=
  c.connections.filterMap (fun k => deadlineOf k.phase) ++
    c.calls.filterMap fun call =>
      match call.stage with
      | .awaiting _ deadline => some deadline
      | _ => none

def nextDeadline? (c : Client) (now : Nat) : Option Nat :=
  (c.deadlines.filter (now < ·)).min?

/-- Lets time pass up to a target, with a stop at every deadline on the way. -/
def sleepUntil (target now : Nat) (c : Client) : Client :=
  match c.nextDeadline? now with
  | some t =>
    if _h : now < t ∧ t ≤ target then sleepUntil target t (settle { c with now := t })
    else settle { c with now := target }
  | none => settle { c with now := target }
termination_by target - now

def sleep (c : Client) (ms : Nat) : Client := sleepUntil (c.now + ms) c.now c

end Parley.Client
