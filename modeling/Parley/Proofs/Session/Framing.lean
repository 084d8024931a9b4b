import Parley.Proofs.Session.Projection
import Parley.Proofs.Session.Sending
/-!
That all a session sends can be written to a stream.

What has been handed to a transport is read off one that keeps it (`Taped`). Keeping it changes
nothing: a session over a taped transport goes through a run as it does over the transport itself
(`untaped_run`). And no dash stands in what gets on the tape, so that each message of it is written
(`handed_written`), whatever advertisement is hosted and whatever has come from outside.
-/
namespace Parley

/-- A transport with all that it has been handed, in order. -/
structure Taped (τ : Type) where
  base : τ
  tape : List Message

section Tape
variable {τ : Type} [Transport τ]

instance : Transport (Taped τ) where
  send t m := (⟨(Transport.send t.base m).1, t.tape ++ [m]⟩, (Transport.send t.base m).2)
  isReady t := Transport.isReady t.base
  generation t := Transport.generation t.base

theorem Taped.tape_sendEach (t : Taped τ) (ms : List Message) :
    (Transport.sendEach t ms).tape = t.tape ++ ms := by
  induction ms generalizing t with
  | nil => exact (List.append_nil _).symm
  | cons m ms ih =>
    refine (ih (Transport.send t m).1).trans ?_
    exact List.append_assoc t.tape [m] ms

end Tape

/-- No dash stands in a message that does not tell of our lobby. -/
theorem Message.Routine.undashed {m : Message} (h : m.Routine) : Text.Undashed m.data := by
  cases h with
  | negotiates negotiates => exact negotiates.undashed
  | advertisement peer ad => exact Base64.dash_text ad.record
  | solicits | inquires => exact (by decide : Text.Undashed "")

namespace Session

variable {τ : Type}

/-- The session over the transport itself. -/
def untaped (s : Session (Taped τ)) : Session τ := { s with transport := s.transport.base }

/-- An event at a session over a taped transport. What the transport does by itself leaves the tape
as it is. -/
def Event.taped (tape : List Message) : Event τ → Event (Taped τ)
  | .transport t => .transport ⟨t, tape⟩
  | .checkGeneration => .checkGeneration
  | .prune now => .prune now
  | .dispatch m o => .dispatch m o
  | .discover o => .discover o
  | .advertise ad => .advertise ad
  | .unadvertise => .unadvertise
  | .advertisements now => .advertisements now
  | .datagram peer source octets o => .datagram peer source octets o
  | .tick o => .tick o
  | .sent n => .sent n
  | .receive now => .receive now
  | .drain now => .drain now
  | .takeDatagrams => .takeDatagrams

variable [Transport τ]

/-- A run of a session over a taped transport. -/
def runTaped (s : Session (Taped τ)) (es : List (Event τ)) : Session (Taped τ) :=
  es.foldl (fun s e => s.step (e.taped s.transport.tape)) s

/-- All that a run of a new session hands to the transport, in order. -/
def handed (transport : τ) (client : ClientInfo) (includeLoopback : Bool) (es : List (Event τ)) :
    List Message :=
  ((new (⟨transport, []⟩ : Taped τ) client includeLoopback).runTaped es).transport.tape

/-! ### The tape changes nothing -/

theorem hands_base : Hands (Taped.base : Taped τ → τ) := fun _ _ => rfl

theorem untaped_emit (s : Session (Taped τ)) (pool : Pool) (out : Outgoing) :
    { s.untaped with pool }.emit out = ({ s with pool }.emit out).untaped :=
  through_emit hands_base s pool out

theorem untaped_checkGeneration (s : Session (Taped τ)) :
    s.untaped.checkGeneration = s.checkGeneration.untaped := by
  have same : Transport.generation s.untaped.transport = Transport.generation s.transport := rfl
  have known : s.untaped.generation = s.generation := rfl
  have hosted : s.untaped.hosted = s.hosted := rfl
  have localId : s.untaped.localId = s.localId := rfl
  simp only [checkGeneration, hosted, localId, same, known]
  split
  · rfl
  · cases s.localId <;> rfl

theorem untaped_discover (s : Session (Taped τ)) (o : Occasion) :
    s.untaped.discover o = (s.discover o).untaped := by
  have shown : s.untaped.showStatus = s.showStatus.untaped := by
    have ready : Transport.isReady s.untaped.transport = Transport.isReady s.transport := rfl
    simp only [showStatus, ready]
    split <;> rfl
  have asked : (s.showStatus.untaped.send (.toServer .requestAdvertisers)).1 =
      (s.showStatus.send (.toServer .requestAdvertisers)).1.untaped := rfl
  simp only [discover, shown, asked]
  exact List.foldl_hom untaped (through_solicit hands_base o)

theorem untaped_step (s : Session (Taped τ)) (e : Event τ) :
    s.untaped.step e = (s.step (e.taped s.transport.tape)).untaped := by
  cases e with
  | checkGeneration => exact s.untaped_checkGeneration
  | dispatch m o => exact through_dispatch hands_base s m o
  | discover o => exact s.untaped_discover o
  | datagram | tick => exact s.untaped_emit _ _
  | transport | prune | advertise | unadvertise | advertisements | sent | receive | drain
  | takeDatagrams => rfl

theorem untaped_run (s : Session (Taped τ)) (es : List (Event τ)) :
    s.untaped.run es = (s.runTaped es).untaped := List.foldl_hom untaped untaped_step

/-! ### What gets on the tape -/

/-- No dash stands in what an event sends. -/
theorem sends_undashed {s : Session τ} (sound : s.Sound) (grown : s.pool.Grown) (e : Event τ) :
    ∀ m ∈ s.sends e, Text.Undashed m.data := by
  have blank (kind : MessageKind) : Text.Undashed (Message.toServer kind).data :=
    (by decide : Text.Undashed "")
  cases e using Event.by_lobby with
  | look =>
    simp only [sends]
    split
    · exact fun m hm => absurd hm List.not_mem_nil
    · intro m hm
      rcases List.mem_append.1 hm with name | isOpen
      · obtain ⟨id, -, rfl⟩ := Option.map_eq_some_iff.1 (Option.mem_toList.1 name)
        exact Base64.dash_text id.bytes
      · rw [List.mem_singleton.1 isOpen]
        exact blank _
  | opens | closes => exact List.forall_mem_singleton.2 (blank _)
  | others e looks silent =>
    exact fun m hm => (sends_routine sound.distinct grown looks silent m hm).undashed

/-- What an event sends is added to the tape, and nothing else is. -/
theorem step_tape (s : Session (Taped τ)) (e : Event τ) :
    (s.step (e.taped s.transport.tape)).transport.tape =
      s.transport.tape ++ s.sends (e.taped s.transport.tape) := by
  by_cases own : ∃ t, e = .transport t
  · obtain ⟨t, rfl⟩ := own
    exact (List.append_nil _).symm
  · have other : ∀ t, e.taped s.transport.tape ≠ .transport t := by
      intro t same
      cases e with
      | transport t => exact own ⟨t, rfl⟩
      | _ => cases same
    rw [s.step_transport other, Taped.tape_sendEach]

theorem runTaped_undashed {s : Session (Taped τ)} (sound : s.Sound) (grown : s.pool.Grown)
    (undashed : ∀ m ∈ s.transport.tape, Text.Undashed m.data) (es : List (Event τ)) :
    ∀ m ∈ (s.runTaped es).transport.tape, Text.Undashed m.data := by
  induction es generalizing s with
  | nil => exact undashed
  | cons e es ih =>
    refine ih (step_sound sound _) (step_grown sound grown _) fun m hm => ?_
    rw [step_tape] at hm
    rcases List.mem_append.1 hm with old | new
    · exact undashed m old
    · exact sends_undashed sound grown _ m new

/-- **All that a session sends can be written.** Over any transport, whatever it does, and whatever
comes from the server, from the sockets and from the game, a message is never refused that a run
hands to the transport. What the run hands to it is what a tape has of it, with which the session
goes through the run as it does without. -/
theorem handed_written (transport : τ) (client : ClientInfo) (includeLoopback : Bool)
    (es : List (Event τ)) :
    ((new (⟨transport, []⟩ : Taped τ) client includeLoopback).runTaped es).untaped =
        (new transport client includeLoopback).run es ∧
      ∀ m ∈ handed transport client includeLoopback es, ∃ frame, Frame.encode m = .ok frame := by
  refine ⟨(untaped_run _ es).symm, fun m hm => Frame.encode_undashed ?_⟩
  have nothing : ∀ m ∈ (new (⟨transport, []⟩ : Taped τ) client includeLoopback).transport.tape,
      Text.Undashed m.data := fun _ hm => absurd hm List.not_mem_nil
  exact runTaped_undashed (new_sound _ client includeLoopback) (Pool.new_grown includeLoopback)
    nothing es m hm

end Session
end Parley
