import Parley.Net.Dotted
/-!
Looking up the STUN server.

The address is looked up in the background on the first request for it and then kept. While the
look-up runs there is no address, and after a failure the next look-up starts no earlier than
`retryInterval` later.
-/
namespace Parley

/-- How far the look-up has come. -/
inductive Resolution where
  | idle
  | pending
  | resolved (address : SocketAddress)
  | failed (since : Nat)
  deriving DecidableEq

/-- The look-up of one server's version 4 address. -/
structure Resolver where
  /-- The server as `host:port`. -/
  server : String
  resolution : Resolution
  deriving DecidableEq

namespace Resolver

/-- The time between a failed look-up and the next, in milliseconds. -/
def retryInterval : Nat := 30000

/-- A look-up that has not started. -/
def new (server : String) : Resolver := ⟨server, .idle⟩

/-- What a request for the address gives. -/
inductive Reply where
  /-- The address is known. -/
  | address (address : SocketAddress)
  /-- It is not known, and no look-up is to start. -/
  | wait
  /-- It is not known, and a look-up starts. -/
  | lookUp
  deriving DecidableEq

/-- Asks for the address. -/
def ask (r : Resolver) (now : Nat) : Resolver × Reply :=
  match r.resolution with
  | .resolved address => (r, .address address)
  | .pending => (r, .wait)
  | .failed since =>
    if now - since < retryInterval then (r, .wait) else ({ r with resolution := .pending }, .lookUp)
  | .idle => ({ r with resolution := .pending }, .lookUp)

/-- Takes the addresses that a look-up has found, of which the first of version 4 counts. -/
def finish (r : Resolver) (found : List SocketAddress) (now : Nat) : Resolver :=
  match found.find? (·.isV4) with
  | some address => { r with resolution := .resolved address }
  | none => { r with resolution := .failed now }

end Resolver
end Parley
