/-!
Counters of a session and their text.

A counter is shown as an unsigned number of 64 bits, so one that has passed the last of them is
shown from zero again.
-/
namespace Parley

/-- The quantities that a session counts. -/
inductive Counter where
  | signalsSent
  | signalsReceived
  | signalSendFailures
  | parseFailures
  | reconnects
  | adsMerged
  | datagramsSent
  | datagramsReceived
  | packetsQueued
  | packetsDroppedStale
  | packetsDroppedOverflow
  deriving DecidableEq

namespace Counter

/-- Every counter, in the order in which they are shown. -/
def all : List Counter :=
  [.signalsSent, .signalsReceived, .signalSendFailures, .parseFailures, .reconnects, .adsMerged,
    .datagramsSent, .datagramsReceived, .packetsQueued, .packetsDroppedStale,
    .packetsDroppedOverflow]

/-- The name of a counter. -/
def name : Counter → String
  | .signalsSent => "signals_sent"
  | .signalsReceived => "signals_received"
  | .signalSendFailures => "signal_send_failures"
  | .parseFailures => "parse_failures"
  | .reconnects => "reconnects"
  | .adsMerged => "ads_merged"
  | .datagramsSent => "datagrams_sent"
  | .datagramsReceived => "datagrams_received"
  | .packetsQueued => "packets_queued"
  | .packetsDroppedStale => "packets_dropped_stale"
  | .packetsDroppedOverflow => "packets_dropped_overflow"

/-- What a counter counts. -/
def help : Counter → String
  | .signalsSent => "Signaling messages sent to the server"
  | .signalsReceived => "Signaling messages received from the server"
  | .signalSendFailures => "Signaling sends refused or failed"
  | .parseFailures => "Signaling segments that failed to parse"
  | .reconnects => "Reconnects to the rendezvous server"
  | .adsMerged => "Advertisements merged into the directory"
  | .datagramsSent => "Game datagrams sent to peers"
  | .datagramsReceived => "Game datagrams received from peers"
  | .packetsQueued => "Inbound packets queued for the game"
  | .packetsDroppedStale => "Inbound packets dropped as stale"
  | .packetsDroppedOverflow => "Inbound packets evicted from a full queue"

end Counter

/-- The value of each counter. -/
abbrev Metrics := Counter → Nat

namespace Metrics

/-- Counters that have counted nothing. -/
def zero : Metrics := fun _ => 0

/-- The counters with one of them changed. -/
def update (m : Metrics) (counter : Counter) (f : Nat → Nat) : Metrics := fun c =>
  if c = counter then f (m c) else m c

/-- The three lines of one quantity: what it means, what kind it is, and its value. -/
def entry (name help kind : String) (value : Nat) : String :=
  s!"# HELP {name} {help}\n# TYPE {name} {kind}\n{name} {value}\n"

/-- The lines of one counter. -/
def counterEntry (m : Metrics) (c : Counter) : String :=
  entry ("lobby_" ++ c.name ++ "_total") c.help "counter" (m c % UInt64.size)

/-- Every counter, and the age of the session in seconds, in the text format of a metrics
collector. -/
def text (m : Metrics) (uptime : Nat) : String :=
  String.join (Counter.all.map m.counterEntry) ++
    entry "lobby_uptime_seconds" "Session uptime in seconds" "gauge" uptime

end Metrics
end Parley
