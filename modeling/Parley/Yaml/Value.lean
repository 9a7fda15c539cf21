import Parley.Yaml.Node

/-!
# Values

What nodes say where a value of a given kind is expected. A plain scalar without a text stands for a
list without items and a mapping without entries.
-/

namespace Parley.Yaml

/-! ## Whole numbers -/

/-- The base that the front of a number states. -/
def base? : Char → Option Nat
  | 'x' => some 16
  | 'o' => some 8
  | 'b' => some 2
  | _ => none

/-- The number without a sign that a text spells: decimal digits without zeros in front, or a zero,
a letter for the base and digits. -/
def magnitude? : List Char → Option Nat
  | ['0'] => some 0
  | '0' :: c :: rest => (base? c).bind fun base => Text.ofDigits? base rest
  | cs => Text.ofDigits? 10 cs

/-- The number that a text spells, with a sign or without. -/
def integer? : List Char → Option Int
  | '-' :: cs => (magnitude? cs).map fun n => -n
  | '+' :: cs => (magnitude? cs).map Int.ofNat
  | cs => (magnitude? cs).map Int.ofNat

/-- The number that a text spells without a minus sign. -/
def natural? : List Char → Option Nat
  | '-' :: _ => none
  | cs => (integer? cs).map Int.toNat

/-! ## Scalars -/

/-- The tag of whole numbers. -/
def intTag : Tag := Bytes.ofString "tag:yaml.org,2002:int"

/-- The tag of the absent value. -/
def nullTag : Tag := Bytes.ofString "tag:yaml.org,2002:null"

/-- The spellings of the absent value. -/
def nullTexts : List String := ["null", "Null", "NULL", "~"]

namespace Document

variable (d : Document)

def text? (n : Node) : Option String :=
  match d.resolve? n with
  | some (.scalar _ s) => some (String.ofList s.text)
  | _ => none

/-- The text of a scalar that may spell a number: a plain one, or a literal one with the tag of
numbers. -/
def numeral? (n : Node) : Option (List Char) :=
  match d.resolve? n with
  | some (.scalar tag s) =>
    if s.style = .plain ∨ (s.style = .literal ∧ tag = some intTag) then some s.text else none
  | _ => none

/-- A number without a minus sign and below a bound. -/
def natBelow? (bound : Nat) (n : Node) : Option Nat :=
  ((d.numeral? n).bind natural?).filter (· < bound)

/-- A whole number of 64 bits. -/
def int64? (n : Node) : Option Int64 :=
  ((d.numeral? n).bind integer?).bind Text.toInt64?

/-- A text, or nothing. A plain scalar without a tag says nothing if it is empty or spells the
absent value; with the tag of the absent value it has to spell it. -/
def optionalText? (n : Node) : Option (Option String) :=
  match d.resolve? n with
  | some (.scalar tag s) =>
    let text := String.ofList s.text
    let isNull := nullTexts.contains text
    if s.style ≠ .plain then some (some text)
    else if tag = none then some (if s.text.isEmpty || isNull then none else some text)
    else if tag = some nullTag then if isNull then some none else none
    else some (some text)
  | _ => none

/-! ## Lists and mappings -/

def items? (n : Node) : Option (List Node) :=
  match d.resolve? n with
  | some (.list items) => some items
  | some (.scalar _ s) => if s.isVoid then some [] else none
  | _ => none

def entries? (n : Node) : Option (List (Node × Node)) :=
  match d.resolve? n with
  | some (.map entries) => some entries
  | some (.scalar _ s) => if s.isVoid then some [] else none
  | _ => none

/-- The entries of a mapping under the names of its keys, each of which is one of the given names
and stands once. -/
def record? (names : List String) (n : Node) : Option (List (String × Node)) := do
  let fields ← (← d.entries? n).mapM fun e => (d.text? e.1).map (·, e.2)
  let keys := fields.map Prod.fst
  if keys.all names.contains && decide keys.Nodup then return fields else none

end Document

/-- What an entry says, or a default where there is none. -/
def field? {α : Type} (fields : List (String × Node)) (name : String) (read : Node → Option α)
    (default : α) : Option α :=
  match fields.lookup name with
  | some n => read n
  | none => some default

/-- What an entry says that cannot be left out. -/
def required? {α : Type} (fields : List (String × Node)) (name : String)
    (read : Node → Option α) : Option α :=
  (fields.lookup name).bind read

end Parley.Yaml
