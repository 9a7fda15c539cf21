import Parley.Wire.Frame

/-!
# What a session tells the application

Events come in the order of the frames they follow from. The last event of every session says why it
ended.
-/

namespace Parley

/-- How a content frame reached the client. -/
inductive Origin
  | live
  | push
  | catchup
deriving DecidableEq, Repr

/-- Why a session ended. -/
inductive EndReason
  | failed (e : Error)
  | eventsAbandoned
  | closedByClient
deriving DecidableEq, Repr

/-- The reason in words. -/
def EndReason.message : EndReason → String
  | failed e => e.message
  | eventsAbandoned => "event receiver dropped"
  | closedByClient => "closed by client"

/-- What a session tells the application. -/
inductive Event
  | message (frame : Frame) (origin : Origin)
  | syncBegin (scope : Scope)
  /-- The window of a scope is closed and its cursor held. `caughtUp` says that no scope has a
  request or a window outstanding. -/
  | syncEnd (scope : Scope) (cursor : Int64) (caughtUp : Bool)
  | disconnected (reason : EndReason)
deriving DecidableEq, Repr

end Parley
