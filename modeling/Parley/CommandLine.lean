import Parley.Lobby.Ad
import Parley.Settings
import Parley.Text.Quoted
/-!
The command line.

A flag takes the argument behind its first occurrence, whatever that is; a flag at the very end has
none and is as good as absent. Flags count more than the environment, and `--no-stun` more than
`--stun`.
-/
namespace Parley

/-- What the program starts with. -/
structure CommandLine where
  settings : Settings
  client : ClientInfo
  /-- The name of a lobby to open. -/
  lobby : Option String
  deriving DecidableEq

namespace CommandLine

/-- Why the program does not start. -/
inductive Error where
  | settings (error : Settings.Error)
  | invalidProduct
  | invalidVersion
  deriving DecidableEq

/-- The cause of an error with what it concerns, as a report. -/
def settingsReport (e : Settings.Error) : String :=
  e.name ++ match e with
    | .invalidPort value | .invalidServer value => "(" ++ Text.quoted value ++ ")"
    | .invalidValue key value =>
      " \x7b key: " ++ Text.quoted key ++ ", value: " ++ Text.quoted value ++ " \x7d"

/-- What is reported of an error. -/
def Error.report : Error → String
  | .settings error => settingsReport error
  | .invalidProduct => Text.quoted "Invalid product code"
  | .invalidVersion => Text.quoted "Invalid version"

/-- What is reported when the server cannot be reached. -/
def connectReport (address reason : String) : String :=
  "Signaling(ConnectFailure \x7b address: " ++ Text.quoted address ++ ", reason: " ++
    Text.quoted reason ++ " \x7d)"

/-- The argument behind the first occurrence of a flag. -/
def argument? (flag : String) (arguments : List String) : Option String :=
  match arguments.dropWhile (· ≠ flag) with
  | _ :: value :: _ => some value
  | _ => none

/-- Whether a flag occurs. -/
def hasFlag (flag : String) (arguments : List String) : Bool := arguments.contains flag

/-- The number behind a flag, 0 without one. -/
def number (flag : String) (error : Error) (arguments : List String) : Except Error UInt32 :=
  match argument? flag arguments with
  | none => .ok 0
  | some value =>
    match Text.read? 4294967296 value with
    | some n => .ok (UInt32.ofNat n)
    | none => .error error

/-- The settings of the environment with those flags applied that change them. -/
def settingsOf (environment : Settings.Environment) (arguments : List String) :
    Except Settings.Error Settings := do
  let settings ← Settings.ofEnvironment environment
  let settings ← match argument? "--server" arguments with
    | some server =>
      match settings.setServer server with
      | (settings, none) => pure settings
      | (_, some error) => throw error
    | none => pure settings
  let settings := match argument? "--stun" arguments with
    | some server => { settings with stunServer := some server }
    | none => settings
  let settings := if hasFlag "--no-stun" arguments then { settings with stunServer := none }
    else settings
  return if hasFlag "--loopback" arguments then { settings with includeLoopback := true }
    else settings

/-- What the environment and the arguments ask for. -/
def parse (environment : Settings.Environment) (arguments : List String) :
    Except Error CommandLine := do
  let settings ← (settingsOf environment arguments).mapError .settings
  let product ← number "--product" .invalidProduct arguments
  let version ← number "--version" .invalidVersion arguments
  return ⟨settings, ⟨product, version⟩, argument? "--advertise" arguments⟩

/-- The server that the program uses, for its log. -/
def serverText (c : CommandLine) : String := c.settings.serverAddress

/-- The STUN server that the program uses, for its log. -/
def stunText (c : CommandLine) : String := c.settings.stunServer.getD "disabled"

/-- Whether loopback addresses are offered, for the log. -/
def loopbackText (c : CommandLine) : String :=
  if c.settings.includeLoopback then "true" else "false"

/-- The product and version of the client, for the log. -/
def clientText (c : CommandLine) : String :=
  s!"product {c.client.product.toNat} version {c.client.version.toNat}"

/-- What the program logs when it starts. -/
def startLog (c : CommandLine) : List String :=
  ["Lobby Link starting...", "  Server:   " ++ c.serverText, "  STUN:     " ++ c.stunText,
    "  Loopback: " ++ c.loopbackText, "  Client:   " ++ c.clientText]

/-- The advertisement of the lobby that is to be opened. -/
def ad? (c : CommandLine) : Option Ad := c.lobby.map fun name => Ad.new name "" 0 []

end CommandLine
end Parley
