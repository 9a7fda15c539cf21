import Parley.Error

/-!
# Errors in detail

The form in which the command line reports a failure that ends it: the cause by its name, with its
particulars.
-/

namespace Parley

namespace Detail

def quotedChar : Char → List Char
  | '"' => ['\\', '"']
  | '\\' => ['\\', '\\']
  | '\n' => ['\\', 'n']
  | '\r' => ['\\', 'r']
  | '\t' => ['\\', 't']
  | '\x00' => ['\\', '0']
  | c => [c]

def quoted (s : String) : String :=
  String.ofList ('"' :: s.toList.flatMap quotedChar ++ ['"'])

/-- A name with its particulars in parentheses. -/
def applied (name : String) (arguments : String) : String := name ++ "(" ++ arguments ++ ")"

/-- A name with its named particulars in braces. -/
def record (name : String) (fields : List (String × String)) : String :=
  name ++ " \x7b " ++ ", ".intercalate (fields.map fun f => f.1 ++ ": " ++ f.2) ++ " \x7d"

end Detail

open Detail

def IoFault.kind : IoFault → String
  | notFound => "NotFound"
  | notADirectory => "NotADirectory"
  | isADirectory => "IsADirectory"
  | nameTooLong => "InvalidFilename"
  | networkUnreachable => "NetworkUnreachable"
  | notUtf8 => "InvalidData"
  | nulInName | invalidAddress | invalidPort => "InvalidInput"
  | described _ => "Other"

def IoFault.detail (fault : IoFault) : String :=
  match fault.os?, fault with
  | some (number, wording), _ =>
    record "Os"
      [("code", toString number), ("kind", fault.kind), ("message", quoted wording)]
  | none, described text => record "Custom" [("kind", fault.kind), ("error", quoted text)]
  | none, _ => record "Error" [("kind", fault.kind), ("message", quoted fault.message)]

def Error.detail : Error → String
  | io fault => applied "Io" fault.detail
  | connectionClosed => "ConnectionClosed"
  | shortRead needed got =>
    record "ShortRead" [("needed", toString needed), ("got", toString got)]
  | frameTooLarge len max => record "FrameTooLarge" [("len", toString len), ("max", toString max)]
  | malformed command fault =>
    record "Malformed" [("cmd", quoted command), ("reason", quoted fault.message)]
  | authFieldTooLong field len =>
    record "AuthFieldTooLong" [("field", quoted field), ("len", toString len)]
  | authFailed status => applied "AuthFailed" (toString status.toInt)
  | unexpectedCommand expected got =>
    record "UnexpectedCommand" [("expected", quoted expected), ("got", quoted got)]
  | notReady => "NotReady"
  | timeout awaited => applied "Timeout" (quoted awaited)
  | badConfig fault => applied "BadConfig" (quoted fault.message)
  | unsupportedVersion => "UnsupportedVersion"
  | internal fault => applied "Internal" (quoted fault.message)

end Parley
