import Parley.Error

/-!
# Reading a body

A `Reading` takes octets off the front of a body. Reads are partial: one that wants more octets
than are left is an overrun, a failure of its own beside the refusals that a layout states. Layouts
ask with `need` before they read, so that no overrun reaches a caller.
-/

namespace Parley

/-- Why a reading stopped. -/
inductive ReadFault
  | refused (fault : BodyFault)
  | overrun
deriving DecidableEq, Repr

/-- A step that takes octets off the front of a body. -/
abbrev Reading := StateT Bytes (Except ReadFault)

namespace Reading

/-- Refuses the body. -/
def refuse {α : Type} (fault : BodyFault) : Reading α :=
  throw (.refused fault)

def remaining : Reading Nat := do
  return (← get).length

/-- Refuses a body that has fewer octets left than a layout needs. -/
def need (n : Nat) : Reading Unit := do
  let got ← remaining
  if got < n then refuse (.tooShort n got)

/-- The next octets, exactly as many as asked for. -/
def take (n : Nat) : Reading Bytes := do
  let bs ← get
  let front := bs.take n
  if front.length < n then throw .overrun
  set (bs.drop n)
  return front

def rest : Reading Bytes := do
  let bs ← get
  set ([] : Bytes)
  return bs

def octet : Reading UInt8 := do
  match ← get with
  | [] => throw .overrun
  | b :: bs =>
    set bs
    return b

def int8 : Reading Int8 := do
  return (← octet).toInt8

def int32 : Reading Int32 := do
  return (UInt32.ofNat (Bytes.toNat (← take 4))).toInt32

def int64 : Reading Int64 := do
  return (UInt64.ofNat (Bytes.toNat (← take 8))).toInt64

/-- As many numbers of eight octets as asked for. -/
def int64s : Nat → Reading (List Int64)
  | 0 => return []
  | n + 1 => do
    let i ← int64
    return i :: (← int64s n)

/-- Octets as the text they spell. The name stands for the field in the refusal. -/
def text (field : String) (bs : Bytes) : Reading String :=
  match Utf8.decode bs with
  | .ok s => return s
  | .error fault => refuse (.notUtf8 field fault)

/-- Reads a body from its front. The name is that of the command in the error of a refusal. -/
def runOn {α : Type} (command : String) (body : Bytes) (r : Reading α) : Except Error α :=
  match r.run body with
  | .ok (a, _) => .ok a
  | .error (.refused fault) => .error (.malformed command fault)
  | .error .overrun => .error (.internal .overrun)

end Reading

end Parley
