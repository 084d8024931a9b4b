import Parley.Net.Dotted
import Parley.Text.Blank
/-!
Settings of a client.

They start from the defaults, are read from `LOBBY_*` variables of the environment, and the server
can be set again from a `host:port` text. A host with a colon in it is a version 6 address and is
written in brackets, which are dropped again when it is read.
-/
namespace Parley

/-- Where the client finds its servers and what it offers to its peers. -/
structure Settings where
  /-- Name or address of the rendezvous server. -/
  host : String := "127.0.0.1"
  /-- TCP port of the rendezvous server. -/
  port : UInt16 := 9988
  /-- The STUN server as `host:port`; without one no public address is asked for. -/
  stunServer : Option String := some "stun.l.google.com:19302"
  /-- Whether loopback addresses are offered too, for peers on one machine. -/
  includeLoopback : Bool := false
  deriving DecidableEq

namespace Settings

/-- Why a setting was refused. -/
inductive Error where
  | invalidPort (value : String)
  | invalidServer (value : String)
  | invalidValue (key value : String)
  deriving DecidableEq

/-- The name of a refusal. -/
def Error.name : Error → String
  | .invalidPort _ => "InvalidPort"
  | .invalidServer _ => "InvalidServer"
  | .invalidValue _ _ => "InvalidValue"

/-- The wording of a refusal. -/
def Error.message : Error → String
  | .invalidPort value => s!"invalid port '{value}'"
  | .invalidServer value => s!"invalid server address '{value}', expected host:port"
  | .invalidValue key value => s!"invalid value '{value}' for {key}"

/-- A port from 1 to 65535; blanks around it and a plus sign are allowed. -/
def readPort (value : String) : Except Error UInt16 :=
  match Text.read? 65536 (Text.trim value) with
  | some 0 => .error (.invalidPort value)
  | some n => .ok (UInt16.ofNat n)
  | none => .error (.invalidPort value)

/-- A switch in one of its usual spellings, in any letter case. -/
def readSwitch (key value : String) : Except Error Bool :=
  let word := String.ofList ((Text.trim value).toList.map Char.toLower)
  if word ∈ ["1", "true", "yes", "on"] then .ok true
  else if word ∈ ["0", "false", "no", "off"] then .ok false
  else .error (.invalidValue key value)

/-- The variables, by name. -/
abbrev Environment := String → Option String

/-- The settings that the environment gives, the defaults where it gives none. -/
def ofEnvironment (environment : Environment) : Except Error Settings := do
  let defaults : Settings := {}
  let host := (environment "LOBBY_SERVER_HOST").getD defaults.host
  let port ← match environment "LOBBY_SERVER_PORT" with
    | some value => readPort value
    | none => pure defaults.port
  let stunServer := match environment "LOBBY_STUN_SERVER" with
    | some value => if Text.trim value = "" then none else some value
    | none => defaults.stunServer
  let includeLoopback ← match environment "LOBBY_INCLUDE_LOOPBACK" with
    | some value => readSwitch "LOBBY_INCLUDE_LOOPBACK" value
    | none => pure defaults.includeLoopback
  return { host, port, stunServer, includeLoopback }

/-- An opening or closing bracket. -/
def isBracket (c : Char) : Bool := c == '[' || c == ']'

/-- The host without the brackets at its ends. -/
def bareHost (host : String) : String :=
  String.ofList ((host.toList.dropWhile isBracket).reverse.dropWhile isBracket).reverse

/-- The server is set from a `host:port` text. What is wrong with the text comes along with the
settings as they are then. -/
def setServer (settings : Settings) (server : String) : Settings × Option Error :=
  match SocketAddress.splitHost? server with
  | none => (settings, some (.invalidServer server))
  | some (host, port) =>
    if host = "" then (settings, some (.invalidServer server))
    else
      match readPort port with
      | .error error => (settings, some error)
      | .ok port =>
        let settings := { settings with port }
        ({ settings with host := bareHost host }, none)

/-- The server as `host:port`. -/
def serverAddress (settings : Settings) : String :=
  if settings.host.toList.contains ':' then s!"[{settings.host}]:{settings.port.toNat}"
  else s!"{settings.host}:{settings.port.toNat}"

end Settings
end Parley
