import Parley.Link.Pair
import Parley.Link.State
/-!
Where a side stands whose peer has one address.

`Standing` is all that matters of such a side: its role, how far the check of its one pair has come,
and whether the pair is marked as nominated. `Moves` is what the side makes of a tick and of a
binding message, and what it sends.
-/
namespace Parley

/-- The identifier of the check that a message is about. -/
def BindingMessage.id : BindingMessage → TransactionId
  | .request r => r.id
  | .response r => r.id

@[simp] theorem BindingMessage.id_request (r : BindingRequest) : (request r).id = r.id := rfl

@[simp] theorem BindingMessage.id_response (r : BindingResponse) : (response r).id = r.id := rfl

/-- How far a side with a single pair has come. -/
inductive Stage where
  /-- No check has been sent. -/
  | waiting
  | checking (id : TransactionId)
  /-- The path works, and is checked again to nominate it. -/
  | nominating (id : TransactionId)
  /-- The path works, and is not nominated. -/
  | connected
  | completed
  deriving DecidableEq

namespace Stage

/-- The state of the agent. -/
def state : Stage → AgentState
  | .waiting | .checking _ => .checking
  | .nominating _ | .connected => .connected
  | .completed => .completed

/-- The state of the pair. -/
def check : Stage → CheckState
  | .waiting => .waiting
  | .checking _ | .nominating _ => .inProgress
  | .connected | .completed => .succeeded

/-- The check that is under way. -/
def pending : Stage → Option TransactionId
  | .checking id | .nominating id => some id
  | _ => none

/-- A pair whose check is under way has the identifier of that check. -/
theorem pending_of_busy {s : Stage} {p : Pair} (hcheck : p.state = s.check)
    (hpending : ∀ id, s.pending = some id → p.transaction = some id)
    (hbusy : p.state = .inProgress) : s.pending = p.transaction := by
  rw [hbusy] at hcheck
  cases s with
  | checking id | nominating id => exact (hpending id rfl).symm
  | waiting | connected | completed => cases hcheck

end Stage

/-- Where a side with a single pair stands. -/
structure Standing where
  controlling : Bool
  stage : Stage
  /-- Whether the pair is nominated. -/
  marked : Bool

namespace Standing

/-- Whether the side has nominated the pair. -/
def hasNominated (s : Standing) : Bool :=
  match s.stage with
  | .nominating _ | .completed => s.controlling
  | _ => false

/-- A side nominates in its role only, and completes as soon as its pair works and is marked. -/
def Legal (s : Standing) : Prop :=
  match s.stage with
  | .waiting | .checking _ => True
  | .nominating _ => s.controlling = true ∧ s.marked = true
  | .connected => s.controlling = false ∧ s.marked = false
  | .completed => s.marked = true

/-- Takes a check, which may nominate. -/
def mark (s : Standing) (useCandidate : Bool) : Standing :=
  if useCandidate && !s.controlling then
    { s with marked := true, stage := if s.stage = .connected then .completed else s.stage }
  else s

/-- What a side is handed: the time, with an identifier for a check, or a message, with one for a
nomination. -/
inductive Input where
  | tick (id : TransactionId)
  | message (m : BindingMessage) (id : TransactionId)

/-- The identifier that comes with an input. -/
def Input.id : Input → TransactionId
  | .tick id | .message _ id => id

/-- What a side makes of an input and sends for it. A check came from `peer`. -/
inductive Moves (peer : SocketAddress) : Standing → Input → Standing → List BindingMessage → Prop
  | starts {s r} : s.stage = .waiting → r.useCandidate = s.marked →
      Moves peer s (.tick r.id) { s with stage := .checking r.id } [.request r]
  | repeats {s id r} : s.stage.pending = some r.id → r.useCandidate = s.marked →
      Moves peer s (.tick id) s [.request r]
  | rests {s id} : s.stage ≠ .waiting → Moves peer s (.tick id) s []
  | checked {s r id} : Moves peer s (.message (.request r) id) (s.mark r.useCandidate)
      [.response (.accept r.id peer)]
  | passes {s r id} : s.stage.pending ≠ some r.id → Moves peer s (.message (.response r) id) s []
  | nominates {s r q} : s.stage = .checking r.id → s.controlling = true → q.useCandidate = true →
      Moves peer s (.message (.response r) q.id)
        { s with stage := .nominating q.id, marked := true } [.request q]
  | works {s r id} : s.stage = .checking r.id → s.controlling = false →
      Moves peer s (.message (.response r) id)
        { s with stage := if s.marked then .completed else .connected } []
  | confirms {s r id} : s.stage = .nominating r.id →
      Moves peer s (.message (.response r) id) { s with stage := .completed } []

theorem Legal.mark {s : Standing} (h : s.Legal) (useCandidate : Bool) :
    (s.mark useCandidate).Legal := by
  obtain ⟨controlling, stage, marked⟩ := s
  cases useCandidate <;> cases controlling <;> cases stage <;> simp_all [Standing.mark, Legal]

theorem Moves.legal {peer : SocketAddress} {s s' : Standing} {i : Input}
    {out : List BindingMessage} (h : Moves peer s i s' out) (hs : s.Legal) : s'.Legal := by
  cases h with
  | starts => trivial
  | repeats | rests | passes => exact hs
  | checked => exact hs.mark _
  | nominates _ hcontrolling => exact ⟨hcontrolling, rfl⟩
  | works _ hcontrolling =>
    obtain ⟨controlling, stage, marked⟩ := s
    cases marked
    · exact ⟨hcontrolling, rfl⟩
    · rfl
  | confirms hstage =>
    rw [Legal, hstage] at hs
    exact hs.2

/-- The answers that a side sends are successes. -/
theorem Moves.answers {peer : SocketAddress} {s s' : Standing} {i : Input}
    {out : List BindingMessage} (h : Moves peer s i s' out) {r : BindingResponse}
    (hr : .response r ∈ out) : r.success = true := by
  cases h with
  | checked =>
    obtain rfl : r = _ := by simpa using hr
    rfl
  | starts | repeats | nominates => simp at hr
  | rests | passes | works | confirms => simp at hr

theorem mark_role (s : Standing) (useCandidate : Bool) :
    (s.mark useCandidate).controlling = s.controlling := by
  unfold mark
  split <;> rfl

theorem Moves.role {peer : SocketAddress} {s s' : Standing} {i : Input} {out : List BindingMessage}
    (h : Moves peer s i s' out) : s'.controlling = s.controlling := by
  cases h with
  | checked => exact s.mark_role _
  | _ => rfl

/-- A check leaves the checks of this side alone, and those of the controlling side altogether. -/
theorem pending_mark (s : Standing) (useCandidate : Bool) :
    (s.mark useCandidate).stage.pending = s.stage.pending := by
  unfold mark
  split
  · by_cases h : s.stage = .connected
    · simp [h, Stage.pending]
    · simp [h]
  · rfl

theorem mark_of_controlling {s : Standing} (h : s.controlling = true) (useCandidate : Bool) :
    s.mark useCandidate = s := by simp [mark, h]

/-- A pair that is marked stays so. -/
theorem Moves.marked {peer : SocketAddress} {s s' : Standing} {i : Input}
    {out : List BindingMessage} (h : Moves peer s i s' out) (hs : s.marked = true) :
    s'.marked = true := by
  cases h with
  | checked =>
    unfold mark
    split
    · rfl
    · exact hs
  | nominates => rfl
  | _ => exact hs

/-- No side goes back to where it had sent no check. -/
theorem Moves.begun {peer : SocketAddress} {s s' : Standing} {i : Input} {out : List BindingMessage}
    (h : Moves peer s i s' out) (hs : s.stage ≠ .waiting) : s'.stage ≠ .waiting := by
  cases h with
  | starts | nominates | confirms => exact nofun
  | repeats | rests | passes => exact hs
  | checked =>
    unfold mark
    split
    · by_cases hstage : s.stage = .connected
      · simp [hstage]
      · simpa [hstage] using hs
    · exact hs
  | works =>
    cases s.marked <;> exact nofun

/-- A tick sends the first check. -/
theorem Moves.ticked {peer : SocketAddress} {s s' : Standing} {id : TransactionId}
    {out : List BindingMessage} (h : Moves peer s (.tick id) s' out) : s'.stage ≠ .waiting := by
  cases h with
  | starts => exact nofun
  | repeats hpending =>
    intro hs
    rw [hs] at hpending
    cases hpending
  | rests hs => exact hs

end Standing
end Parley
