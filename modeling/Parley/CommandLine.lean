import Parley.Client.Basic
import Parley.Config.Document
import Parley.Error.Detail

/-!
# The command line

The program reads a configuration from a file and a token from its environment, loads the stored
cursors and connects. `CommandLine.run` is what it does once both are read; what ends the program
goes to its error output as `CommandLine.report` writes it.
-/

namespace Parley.CommandLine

/-- The file with the configuration, unless another one is named. -/
def configFile : String := "imlink.yaml"

/-- The variable of the environment that carries the token. -/
def tokenVariable : String := "IMLINK_TOKEN"

/-- The configuration in what was read of a file. -/
def readConfig (content : Except IoFault Bytes) : Except Error Config :=
  match content with
  | .error fault => .error (.internal (.configUnreadable fault))
  | .ok bytes =>
    match Utf8.decode bytes with
    | .error _ => .error (.internal (.configUnreadable .notUtf8))
    | .ok s => Config.parse s

def storeOf (c : Config) (files : Folder) : CursorStore :=
  match c.sync.cursorFile with
  | none => .memory .zero
  | some file => { backing := .file (Path.ofString file) files }

/-- The client that is to connect. -/
def start (content : Except IoFault Bytes) (token : Option String) (files : Folder) :
    Except Error Client := do
  let config ← readConfig content
  match token with
  | none => throw (.badConfig (.unset tokenVariable))
  | some token => Client.new config (storeOf config files) [.ok token]

def run (content : Except IoFault Bytes) (token : Option String) (files : Folder) : Error :=
  match start content token files with
  | .error e => e
  | .ok c => .io (Address.connect c.config.connection.addr)

/-- What the program writes about what ends it. -/
def report (e : Error) : String := "Error: " ++ e.detail ++ "\n"

end Parley.CommandLine
