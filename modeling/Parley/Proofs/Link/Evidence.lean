import Parley.Proofs.Link.Lifecycle
/-!
Game data comes from where a check has been answered.

`Answered` is the evidence in the history of an agent that an address is the peer's: a check was
sent there, and later a success with its identifier arrived. `Sound` ties it to the check list: a
check that is under way has sent its request, and a pair that works has evidence for its address.
No action breaks that, however late its answer or often its check is repeated, so `data_answered`
holds of every run.
-/
namespace Parley
open CheckList (Action)

namespace CheckList

/-- A list of which each check under way is among the requests `rs`, and each pair that works has
evidence `C` for its address. -/
structure Sound (C : SocketAddress → Prop) (l : CheckList)
    (rs : List (SocketAddress × BindingRequest)) : Prop where
  asked : ∀ p ∈ l.pairs, p.state = .inProgress →
    ∃ q, (p.remote, q) ∈ rs ∧ p.transaction = some q.id
  proved : ∀ p ∈ l.pairs, p.state = .succeeded → C p.remote

theorem Sound.mono {C D : SocketAddress → Prop} {l : CheckList}
    {rs : List (SocketAddress × BindingRequest)} (h : Sound C l rs)
    (hcd : ∀ address, C address → D address) : Sound D l rs :=
  ⟨h.asked, fun p hp hstate => hcd _ (h.proved p hp hstate)⟩

/-- An action keeps a list sound, when there is evidence for the addresses whose checks it ends. -/
theorem Sound.act {C : SocketAddress → Prop} {l : CheckList}
    {rs : List (SocketAddress × BindingRequest)} (h : Sound C l rs) (x : Action)
    (hx : ∀ r, x = .answer r → r.success = true → ∀ p ∈ l.pairs, p.awaits r.id = true →
      C p.remote) : Sound C (l.act x) (rs ++ (l.sends x).toList) := by
  refine ⟨fun q hq hstate => ?_, fun q hq hstate => ?_⟩
  · obtain ⟨p, hp, hremote, hcase⟩ := act_inProgress hq hstate
    rw [hremote]
    rcases hcase with ⟨hbefore, hstays⟩ | ⟨r, hsends, ht, -⟩
    · obtain ⟨r, hr, ht⟩ := h.asked p hp hbefore
      exact ⟨r, List.mem_append_left _ hr, hstays.state.2.1.trans ht⟩
    · exact ⟨r, List.mem_append_right _ (by simp [hsends]), ht⟩
  · obtain ⟨p, hp, hremote, hcase⟩ := act_succeeded hq hstate
    rw [hremote]
    rcases hcase with ⟨hbefore, -⟩ | ⟨r, rfl, hsuccess, hawaits, -⟩
    · exact h.proved p hp hbefore
    · exact hx r rfl hsuccess p hp hawaits

end CheckList

namespace Agent

/-- In a run of `a` a check was sent to the address, and a success with its identifier came in
later. -/
def Answered (a : Agent) (es : List Event) (address : SocketAddress) : Prop :=
  ∃ before e after q source r, es = before ++ e :: after ∧
    (address, q) ∈ requestsIn (a.outbox before) ∧ e.answer? = some (source, r) ∧ r.id = q.id ∧
    r.success = true

theorem Answered.later {a : Agent} {es : List Event} {address : SocketAddress}
    (h : Answered a es address) (e : Event) : Answered a (es ++ [e]) address := by
  obtain ⟨before, e', after, q, source, r, rfl, hq, hanswer, hid, hsuccess⟩ := h
  exact ⟨before, e', after ++ [e], q, source, r, by simp, hq, hanswer, hid, hsuccess⟩

/-- What the history of an agent shows of its checks and of the address that it has selected. -/
structure Evident (a : Agent) (es : List Event) : Prop where
  checks : (a.run es).checks.Sound (Answered a es) (requestsIn (a.outbox es))
  selected : ∀ address, (a.run es).selected = some address → Answered a es address

theorem Evident.step {a : Agent} {es : List Event} (h : Evident a es) (e : Event) :
    Evident a (es ++ [e]) := by
  obtain ⟨xs, ys, unfolds⟩ := step_unfolds (a.run es) e
  have before := h.checks.mono fun _ h => h.later e
  -- The request that an answer is for has been sent before the event that brings the answer.
  have first : ((a.run es).checks.acts xs).Sound (Answered a (es ++ [e]))
      (requestsIn (a.outbox es) ++ (a.run es).checks.requests xs) := by
    by_cases hanswer : ∃ r, .answer r ∈ xs
    · obtain ⟨r, hr⟩ := hanswer
      obtain ⟨source, hsource⟩ := (unfolds.permits _ hr).answer_handed
      rw [unfolds.answered r hr]
      have answered := before.act (.answer r) fun s hs hsuccess p hp hawaits => by
        cases hs
        simp only [Pair.awaits, Bool.and_eq_true, beq_iff_eq] at hawaits
        obtain ⟨q, hq, ht⟩ := h.checks.asked p hp hawaits.1
        exact ⟨es, e, [], q, source, r, rfl, hq, hsource,
          Option.some.inj (hawaits.2.symm.trans ht), hsuccess⟩
      simpa [CheckList.acts, CheckList.requests] using answered
    · exact CheckList.acts_induct (I := CheckList.Sound (Answered a (es ++ [e])))
        (fun l rs x hx hl => hl.act x fun r hr => absurd ⟨r, hr ▸ hx⟩ hanswer) before
  have second : ((a.run es).checks.acts xs |>.acts ys).Sound (Answered a (es ++ [e]))
      ((requestsIn (a.outbox es) ++ (a.run es).checks.requests xs) ++
        ((a.run es).checks.acts xs).requests ys) := by
    refine CheckList.acts_induct (I := CheckList.Sound (Answered a (es ++ [e])))
      (fun l rs x hx hl => hl.act x fun r hr => ?_) first
    obtain ⟨_, _, _, rfl⟩ := unfolds.nomination hx
    cases hr
  refine ⟨?_, fun address hselected => ?_⟩
  · rwa [run_concat, unfolds.outbox, unfolds.checks]
  · rw [run_concat] at hselected
    rcases unfolds.selected address hselected with hbefore | ⟨p, hp, hstate, rfl⟩
    · exact (h.selected address hbefore).later e
    · rcases hp with hp | hp
      · exact first.proved p hp hstate
      · rw [unfolds.checks] at hp
        exact second.proved p hp hstate

theorem evident (peer : PeerId) (controlling : Bool) (session : UInt64) (created : Nat)
    (es : List Event) : Evident (new peer controlling session created) es := by
  induction es using List.reverseRecOn with
  | nil =>
    have empty : (new peer controlling session created).checks.pairs = [] := rfl
    exact ⟨⟨by simp [empty], by simp [empty]⟩, fun address h => by cases h⟩
  | append_singleton es e ih => exact ih.step e

/-! ### Game data -/

/-- What it takes for game data to be taken. -/
theorem onDatagram_eq_some {a : Agent} {source : SocketAddress} {octets payload : Bytes} {now : Nat}
    {id : TransactionId} (h : (a.onDatagram source octets now id).2 = some payload) :
    octets = Datagram.ofPayload payload ∧ a.accepts source = true ∧
      (a.onDatagram source octets now id).1 = (a.touch now).updateState now id := by
  cases hclass : Datagram.classify octets with
  | data data =>
    simp only [onDatagram, handleDatagram, hclass] at h ⊢
    by_cases haccepts : a.accepts source
    · rw [if_pos haccepts] at h ⊢
      cases h
      exact ⟨Datagram.classify_eq_data hclass, haccepts, rfl⟩
    · rw [if_neg haccepts] at h
      cases h
  | _ => simp [onDatagram, handleDatagram, hclass] at h

/-- **Game data is taken only where a check has been answered.** The agent is connected then, before
and after; and earlier it sent a check to the very address from which the data comes, and later was
handed a success with the identifier of that check. -/
theorem data_answered (peer : PeerId) (controlling : Bool) (session : UInt64) (created : Nat)
    (es : List Event) (source : SocketAddress) (octets payload : Bytes) (now : Nat)
    (id : TransactionId)
    (h : (((new peer controlling session created).run es).onDatagram source octets now id).2 =
      some payload) :
    octets = Datagram.ofPayload payload ∧
    ((new peer controlling session created).run es).state.isUsable = true ∧
    (((new peer controlling session created).run es).onDatagram source octets now id).1.state.isUsable
      = true ∧
    ∃ before origin answer then' id' after check q r,
      es = before ++ .datagram origin answer then' id' :: after ∧
      (source, check) ∈ (new peer controlling session created).outbox before ∧
      BindingMessage.decode check = .ok (.request q) ∧
      BindingMessage.decode answer = .ok (.response r) ∧ r.id = q.id ∧ r.success = true := by
  obtain ⟨hoctets, haccepts, hafter⟩ := onDatagram_eq_some h
  simp only [accepts, Bool.and_eq_true] at haccepts
  have reachable : Reachable ((new peer controlling session created).run es) := ⟨_, _, _, _, _, rfl⟩
  refine ⟨hoctets, haccepts.1, ?_, ?_⟩
  · rw [hafter]
    exact updateState_usable (a := touch _ now) reachable.viable haccepts.1 now id
  · have history := evident peer controlling session created es
    have answered : Answered (new peer controlling session created) es source := by
      have verified := haccepts.2
      simp only [isVerifiedPath, CheckList.isVerified, Bool.or_eq_true, beq_iff_eq,
        List.any_eq_true, Bool.and_eq_true] at verified
      rcases verified with hselected | ⟨p, hp, hstate, rfl⟩
      · exact history.selected source hselected
      · exact history.checks.proved p hp hstate
    obtain ⟨before, e, after, q, origin, r, hes, hq, hanswer, hid, hsuccess⟩ := answered
    obtain ⟨check, hcheck, hdecode⟩ := mem_requestsIn.1 hq
    cases e with
    | datagram origin' answer then' id' =>
      obtain ⟨-, hr⟩ := answerIn?_eq_some hanswer
      exact ⟨before, origin', answer, then', id', after, check, q, r, hes, hcheck, hdecode, hr, hid,
        hsuccess⟩
    | _ => cases hanswer

/-- An agent that is checked, checks back and is answered takes the data that follows. -/
theorem data_answered_after_check :
    let peer : PeerId := ⟨List.replicate 16 0, rfl⟩
    let id : UInt8 → TransactionId := fun n => ⟨List.replicate 12 n, List.length_replicate⟩
    let near : SocketAddress := .v4 ⟨10, 0, 0, 1⟩ 5000
    let far : SocketAddress := .v4 ⟨10, 0, 0, 2⟩ 6000
    let a := (new peer false 7 0).run [
      .start 0 [near] false none (id 0),
      .datagram far (BindingMessage.request ⟨id 1, 0, false⟩).encode 10 (id 2),
      .tick 20 (id 3) (id 4),
      .datagram far (BindingMessage.response ⟨id 3, true, none⟩).encode 30 (id 5)]
    (a.onDatagram far (Datagram.ofPayload [1, 2, 3]) 40 (id 6)).2 = some [1, 2, 3] ∧
      a.state.isUsable = true :=
  ⟨by decide +kernel, (data_answered _ _ _ _ _ (.v4 ⟨10, 0, 0, 2⟩ 6000)
    (Datagram.ofPayload [1, 2, 3]) [1, 2, 3] 40 ⟨List.replicate 12 6, List.length_replicate⟩
    (by decide +kernel)).2.1⟩

end Agent
end Parley
