import Parley.Wire.Reading
import Parley.Wire.Writing

/-!
# The token body

The body that opens a connection is the only one with counted texts:

    platform | length | token | length | device

A length is one octet, so a text longer than 255 octets cannot be sent.
-/

namespace Parley

/-- How a client introduces itself. -/
structure AuthToken where
  platformId : UInt8
  token : String
  deviceId : String
deriving DecidableEq, Repr

namespace AuthToken

/-- The longest text that a length of one octet describes. -/
def maxField : Nat := 255

def writeField (field : String) (s : String) : Writing Unit :=
  let bs := Bytes.ofString s
  if bs.length ≤ maxField then
    Writing.append (UInt8.ofNat bs.length :: bs)
  else
    throw (.authFieldTooLong field bs.length)

def write (a : AuthToken) : Writing Unit := do
  Writing.append [a.platformId]
  writeField "token" a.token
  writeField "device_id" a.deviceId

def readField (field : String) : Reading String := do
  if (← Reading.remaining) == 0 then Reading.refuse (.missingLength field)
  let length := (← Reading.octet).toNat
  let left ← Reading.remaining
  if left < length then Reading.refuse (.lengthBeyondEnd field length left)
  Reading.text field (← Reading.take length)

/-- Reads the platform and the two texts; what follows them is left alone. -/
def read : Reading AuthToken := do
  if (← Reading.remaining) < 3 then Reading.refuse .noRoomForToken
  let platformId ← Reading.octet
  let token ← readField "token"
  let deviceId ← readField "device_id"
  return { platformId, token, deviceId }

end AuthToken

end Parley
