import Parley.Error
import Parley.Text.Digits

/-!
# Addresses

A server is addressed as `host:port`; what stands behind the last colon is the port.
-/

namespace Parley.Address

/-- The port that a text spells: a number of 16 bits, with a plus sign or without. -/
def port? (cs : List Char) : Option UInt16 :=
  let digits :=
    match cs with
    | '+' :: rest => rest
    | _ => cs
  (Text.ofDigits? 10 digits).bind fun n => if n < UInt16.size then some (UInt16.ofNat n) else none

/-- The host and the port of an address. -/
def parse (s : String) : Except IoFault (String × UInt16) :=
  let backwards := s.toList.reverse
  let port := (backwards.takeWhile (· ≠ ':')).reverse
  match backwards.dropWhile (· ≠ ':') with
  | [] => .error .invalidAddress
  | _ :: host =>
    match port? port with
    | some p => .ok (String.ofList host.reverse, p)
    | none => .error .invalidPort

/-- Opens a connection to an address. There is no network here, so that no address that can be read
is reachable. -/
def connect (s : String) : IoFault :=
  match parse s with
  | .error fault => fault
  | .ok _ => .networkUnreachable

end Parley.Address
