import Parley.Wire.Bytes

/-!
# Texts inside bodies

Texts travel as UTF-8. Octets that are no text are described by the place where they stop being one:
`Utf8.Fault` holds the length of the longest well-formed front and what stands behind it.
-/

namespace Parley.Utf8

/-- Why octets are not a text. -/
structure Fault where
  /-- How many octets from the front form whole characters. -/
  index : Nat
  /-- How many octets behind them start a character that the next octet cannot continue;
  nothing when the octets end inside a character. -/
  invalid : Option Nat
deriving DecidableEq, Repr

/-- The fault in words. -/
def Fault.message (f : Fault) : String :=
  match f.invalid with
  | some k => s!"invalid utf-8 sequence of {k} bytes from index {f.index}"
  | none => s!"incomplete utf-8 byte sequence from index {f.index}"

/-- The octets that may follow a leading octet, as one range per position; nothing for an octet
that leads no character. Overlong forms, surrogates and values above the last code point are
excluded by the range of the second octet. -/
def followers (lead : UInt8) : Option (List (UInt8 × UInt8)) :=
  if lead < 0x80 then some []
  else if lead < 0xC2 then none
  else if lead < 0xE0 then some [(0x80, 0xBF)]
  else if lead == 0xE0 then some [(0xA0, 0xBF), (0x80, 0xBF)]
  else if lead == 0xED then some [(0x80, 0x9F), (0x80, 0xBF)]
  else if lead < 0xF0 then some [(0x80, 0xBF), (0x80, 0xBF)]
  else if lead == 0xF0 then some [(0x90, 0xBF), (0x80, 0xBF), (0x80, 0xBF)]
  else if lead < 0xF4 then some [(0x80, 0xBF), (0x80, 0xBF), (0x80, 0xBF)]
  else if lead == 0xF4 then some [(0x80, 0x8F), (0x80, 0xBF), (0x80, 0xBF)]
  else none

/-- How far octets agree with the expected ranges. -/
inductive Agreement
  | whole
  | ended
  | broken (agreeing : Nat)
deriving DecidableEq, Repr

/-- Compares octets with the ranges expected of them, position by position. -/
def agreement (seen : Nat) : List (UInt8 × UInt8) → Bytes → Agreement
  | [], _ => .whole
  | _ :: _, [] => .ended
  | (low, high) :: ranges, b :: bs =>
    if low ≤ b && b ≤ high then agreement (seen + 1) ranges bs else .broken seen

/-- The first place where octets stop being a text, counted from `index`. The first argument is
the number of octets that belong to a character already accepted. -/
def faultFrom (skip index : Nat) : Bytes → Fault
  | [] => ⟨index, none⟩
  | b :: bs =>
    match skip with
    | skip + 1 => faultFrom skip index bs
    | 0 =>
      match followers b with
      | none => ⟨index, some 1⟩
      | some ranges =>
        match agreement 1 ranges bs with
        | .whole => faultFrom ranges.length (index + 1 + ranges.length) bs
        | .ended => ⟨index, none⟩
        | .broken seen => ⟨index, some seen⟩

/-- The first place where octets stop being a text; their end when they are one. -/
def fault (bs : Bytes) : Fault := faultFrom 0 0 bs

def decode (bs : Bytes) : Except Fault String :=
  match String.fromUTF8? ⟨bs.toArray⟩ with
  | some s => .ok s
  | none => .error (fault bs)

end Parley.Utf8
