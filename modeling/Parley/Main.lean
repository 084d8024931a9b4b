import Parley.Client
import Std.Async.DNS
import Std.Async.Signal
import Std.Async.TCP
import Std.Async.Timer
import Std.Async.UDP
/-!
The command line program.

It connects to the rendezvous server, opens a lobby if it is asked to, asks for the advertised games
every second and logs them and the game data that arrives, until it is interrupted.

What is here waits, reads, writes and draws random numbers, and tells the client of it; the client
decides. A round waits for the first thing to happen: octets from the server, a datagram on the
socket of an agent, or the end of a short while.
-/
namespace Parley.Program
open Std.Async

/-! ### Addresses of the system -/

/-- An internet address as the system gives it. -/
def ofSystemIp : Std.Net.IPAddr → IpAddress
  | .v4 ip => .v4 ((Ipv4.ofOctets? ip.octets.toList).getD Ipv4.unspecified)
  | .v6 ip =>
    .v6 ((Ipv6.ofGroups? (ip.segments.toList.map UInt16.toNat)).getD Ipv6.unspecified)

/-- A socket address as the system gives it. -/
def ofSystem (address : Std.Net.SocketAddress) : SocketAddress :=
  SocketAddress.of (ofSystemIp address.ipAddr) address.port

/-- A socket address as the system takes it. -/
def toSystem : SocketAddress → Std.Net.SocketAddress
  | .v4 ip port => .v4 ⟨.ofParts ip.a ip.b ip.c ip.d, port⟩
  | .v6 ip port _ _ =>
    let group (i : Nat) : UInt16 := UInt16.ofNat (ip.groups.getD i 0)
    .v6 ⟨.ofParts (group 0) (group 1) (group 2) (group 3) (group 4) (group 5) (group 6) (group 7),
      port⟩

/-- The version 4 addresses of the local interfaces. -/
def interfaces : IO (List Ipv4) := do
  let found ← Std.Net.interfaceAddresses
  return found.toList.filterMap fun i =>
    match ofSystemIp i.address with
    | .v4 ip => some ip
    | .v6 _ => none

/-- The socket addresses of a server. -/
def lookUp (server : String) : IO (List SocketAddress) := do
  match SocketAddress.ofHostText? server with
  | some address => return [address]
  | none =>
    match SocketAddress.splitHost? server with
    | none => throw (IO.userError "invalid socket address")
    | some (host, port) =>
      match Text.read? 65536 port with
      | none => throw (IO.userError "invalid port value")
      | some port =>
        let found ← (DNS.getAddrInfo host "").block
        return found.toList.map fun ip => SocketAddress.of (ofSystemIp ip) (UInt16.ofNat port)

/-! ### Sockets -/

/-- A connection to the first address of the server that accepts one. -/
def connect (server : String) : IO TCP.Socket.Client := do
  let mut reason := IO.userError "no addresses resolved"
  for address in ← lookUp server do
    try
      let connection ← TCP.Socket.Client.mk
      (connection.connect (toSystem address)).block
      connection.noDelay
      return connection
    catch e => reason := e
  throw reason

/-- The socket of an agent. -/
structure AgentSocket where
  peer : PeerId
  port : UInt16
  socket : UDP.Socket

/-- A socket for an agent that may be created. -/
def bindFor (peer : PeerId) : IO AgentSocket := do
  let socket ← UDP.Socket.mk
  socket.bind (toSystem (.v4 Ipv4.unspecified 0))
  let address ← socket.getSockName
  return ⟨peer, address.port, socket⟩

/-! ### Random numbers -/

/-- A fresh transaction identifier. -/
def freshId : IO TransactionId := do
  let bytes ← IO.getRandomBytes 12
  match TransactionId.ofBytes? bytes.data.toList with
  | some id => return id
  | none => throw (IO.userError "no random numbers")

/-- A fresh session. -/
def freshSession : IO UInt64 := do
  let bytes ← IO.getRandomBytes 8
  return UInt64.ofNat (Bytes.ofBigEndian bytes.data.toList)

/-! ### The program -/

/-- What the program holds while it runs. -/
structure State where
  client : Client
  connection : Option TCP.Socket.Client
  /-- An attempt to connect again that is under way, and when the latest was made. -/
  attempt : Option (Task (Except IO.Error TCP.Socket.Client))
  attempted : Nat
  sockets : List AgentSocket
  resolver : Option Resolver
  lookingUp : Option (Task (Except IO.Error (List SocketAddress)))
  /-- When the advertised games were last asked for. -/
  discovered : Option Nat

/-- What a round has waited for. -/
inductive Event where
  | octets (bs : Bytes)
  | lost
  | datagram (socket : AgentSocket) (source : SocketAddress) (bs : Bytes)
  | quiet

/-- The time between two ticks, in milliseconds. -/
def tickInterval : Nat := 20

/-- The time between two discoveries, in milliseconds. -/
def discoveryInterval : Nat := 1000

/-- The most octets of a datagram. -/
def datagramSize : UInt64 := 65536

/-- Writes a line of the log. -/
def log (line : String) : IO Unit := IO.eprintln line

/-- Asks for the address of the STUN server. -/
def stunServer (st : State) : IO (State × Option SocketAddress) := do
  match st.resolver with
  | none => return (st, none)
  | some resolver =>
    match resolver.ask (← IO.monoMsNow) with
    | (resolver, .address address) => return ({ st with resolver }, address)
    | (resolver, .wait) => return ({ st with resolver }, none)
    | (resolver, .lookUp) =>
      let lookingUp ← IO.asTask (lookUp resolver.server)
      return ({ st with resolver, lookingUp }, none)

/-- Ends a look-up that has come to its end. -/
def finishLookUp (st : State) : IO State := do
  match st.lookingUp, st.resolver with
  | some task, some resolver =>
    if ← IO.hasFinished task then
      let found := (task.get.toOption).getD []
      let resolver := resolver.finish found (← IO.monoMsNow)
      return { st with lookingUp := none, resolver }
    else return st
  | _, _ => return st

/-- Does one operation of the client, for which the agents of some peers may be created. Each of
them finds a socket, and those that are not used are dropped. -/
def perform (st : State) (peers : List PeerId) (operation : Client → Occasion → Client) :
    IO State := do
  let (st, stun) ← stunServer st
  let fresh ← peers.eraseDups.mapM bindFor
  let session ← freshSession
  let queryId ← freshId
  let checkId ← freshId
  let nominationId ← freshId
  let portOf (peer : PeerId) : UInt16 :=
    ((fresh.find? (·.peer == peer)).map (·.port)).getD 0
  let supply (peer : PeerId) : Supply := ⟨session, portOf peer, queryId, checkId, nominationId⟩
  let client := operation st.client ⟨← IO.monoMsNow, ← interfaces, stun, supply⟩
  let sockets := (fresh ++ st.sockets).filter fun s =>
    (client.pool.slot? s.peer).any (·.port == s.port)
  return { st with client, sockets }

/-- Sends what the client wants sent. What cannot be sent is dropped. -/
def flush (st : State) : IO State := do
  let (client, output) := Client.takeOutput st.client
  if let some connection := st.connection then
    unless output.frames.isEmpty do
      try (connection.send ⟨output.frames.flatten.toArray⟩).block
      catch _ => pure ()
  for (peer, destination, datagram) in output.datagrams do
    if let some s := st.sockets.find? (·.peer == peer) then
      try (s.socket.send ⟨datagram.toArray⟩ (some (toSystem destination))).block
      catch _ => pure ()
  return { st with client }

/-- Takes what the channel sees, and dispatches the messages of the batch that it may hand out. -/
def arrive (st : State) (arrival : Channel.Arrival) : IO State := do
  let (client, batch) := Client.arrive st.client arrival
  let mut st := { st with client }
  if let some messages := batch then
    for m in messages do
      st ← flush (← perform st (Client.concerned m) fun c o => (c.dispatch m o).1)
    st := { st with client := st.client.prune (← IO.monoMsNow) }
  return st

/-- Connects again, when there is no connection. -/
def reconnect (st : State) : IO State := do
  if Client.isDisconnected st.client then
    let now ← IO.monoMsNow
    match st.attempt with
    | none =>
      if now - st.attempted < Channel.reconnectDelay then return st
      let attempt ← IO.asTask (connect st.client.transport.channel.address)
      return { st with attempt, attempted := now, connection := none }
    | some task =>
      if ← IO.hasFinished task then
        match task.get with
        | .ok connection =>
          arrive { st with attempt := none, connection } (.attempt .accepted)
        | .error _ => arrive { st with attempt := none, attempted := now } (.attempt .refused)
      else return st
  else return st

/-- Asks for the advertised games when it is time to, and logs those that are known. -/
def discover (st : State) : IO State := do
  let now ← IO.monoMsNow
  if st.discovered.any fun last => now - last < discoveryInterval then return st
  let st ← perform st st.client.advertisers fun c o => c.discover o
  let (client, ads) := st.client.advertisements now
  for ad in ads do log (Client.adText ad)
  return { st with client, discovered := now }

/-- Logs the game data that has arrived. -/
def logPackets (st : State) : IO State := do
  let (client, packets) := st.client.drain (← IO.monoMsNow)
  for p in packets do log (Client.packetText p)
  return { st with client }

/-- Waits for the first thing to happen. -/
def await (st : State) : Async Event := do
  let timer ← Selector.sleep (.ofNat tickInterval)
  let server : List (Selectable Event) := st.connection.toList.map fun connection =>
    .case (connection.recvSelector (UInt64.ofNat Channel.readSize)) fun
      | some bytes => return .octets bytes.data.toList
      | none => return .lost
  let agents : List (Selectable Event) := st.sockets.map fun s =>
    .case (s.socket.recvSelector datagramSize) fun
      | (bytes, some source) => return .datagram s (ofSystem source) bytes.data.toList
      | (_, none) => return .quiet
  Selectable.one (.case timer (fun _ => return .quiet) :: server ++ agents).toArray

/-- Handles what has happened. -/
def handle (st : State) : Event → IO State
  | .octets bs => arrive st (.octets bs)
  | .lost => arrive { st with connection := none } .lost
  | .datagram s source bs => perform st [] fun c o => c.onDatagram s.peer source bs o
  | .quiet => return st

/-- Rounds until one of the interrupts has come. -/
partial def run (st : State) (interrupts : List (AsyncTask Int)) (ticked : Nat) : IO State := do
  if ← interrupts.anyM fun task => IO.hasFinished task then return st
  let st ← discover (← reconnect (← finishLookUp st))
  let st ← flush st
  let event ← try (await st).block catch _ => pure .lost
  let st ← flush (← handle st event)
  let now ← IO.monoMsNow
  if now - ticked < tickInterval then run (← logPackets st) interrupts ticked
  else
    let st ← flush (← perform st [] fun c o => c.tick o)
    run (← logPackets st) interrupts now

/-- Runs a session until an interrupt. -/
def serve (c : CommandLine) (connection : TCP.Socket.Client) : IO Unit := do
  let began ← IO.monoMsNow
  let interrupts ← [Signal.sigint, .sigterm].mapM fun s => do (← Signal.Waiter.mk s true).wait
  let st ← run
    { client := Client.start c
      connection
      attempt := none
      attempted := began
      sockets := []
      resolver := c.settings.stunServer.map Resolver.new
      lookingUp := none
      discovered := none }
    interrupts began
  log "Shutdown requested"
  let client := st.client.shutdown
  let counters := client.metrics client.transport.channel.metrics
  log ("Final metrics:\n" ++ counters.text (((← IO.monoMsNow) - began) / 1000))

/-- The variables that the program reads. -/
def readEnvironment : IO Settings.Environment := do
  let names := ["LOBBY_SERVER_HOST", "LOBBY_SERVER_PORT", "LOBBY_STUN_SERVER",
    "LOBBY_INCLUDE_LOOPBACK"]
  let values ← names.mapM fun name => return (name, ← IO.getEnv name)
  return fun name => (values.lookup name).join

/-- Reports why the program ends. -/
def fail (report : String) : IO UInt32 := do
  log ("Error: " ++ report)
  return 1

end Parley.Program

/-- Reads the command line, connects, and serves until an interrupt. The exit code is 1 when that
cannot begin. -/
def main (arguments : List String) : IO UInt32 := do
  match Parley.CommandLine.parse (← Parley.Program.readEnvironment) arguments with
  | .error e => Parley.Program.fail e.report
  | .ok c =>
    c.startLog.forM Parley.Program.log
    match ← (Parley.Program.connect c.serverText).toBaseIO with
    | .error e => Parley.Program.fail (Parley.CommandLine.connectReport c.serverText (toString e))
    | .ok connection =>
      Parley.Program.serve c connection
      return 0
