import Parley.Proofs.Link.Binding
import Parley.Proofs.Link.CheckList.Evolution
/-!
The binding messages among datagrams, and the requests that a series of actions sends.
-/
namespace Parley

/-- The request in a datagram, and where the datagram goes. -/
def requestIn? : SocketAddress × Bytes → Option (SocketAddress × BindingRequest)
  | (d, octets) =>
    match BindingMessage.decode octets with
    | .ok (.request r) => some (d, r)
    | _ => none

/-- The answer in a datagram, and where the datagram goes. -/
def answerIn? : SocketAddress × Bytes → Option (SocketAddress × BindingResponse)
  | (d, octets) =>
    match BindingMessage.decode octets with
    | .ok (.response r) => some (d, r)
    | _ => none

/-- The requests among datagrams. -/
def requestsIn (ds : List (SocketAddress × Bytes)) : List (SocketAddress × BindingRequest) :=
  ds.filterMap requestIn?

/-- The answers among datagrams. -/
def answersIn (ds : List (SocketAddress × Bytes)) : List (SocketAddress × BindingResponse) :=
  ds.filterMap answerIn?

theorem requestsIn_append (ds es : List (SocketAddress × Bytes)) :
    requestsIn (ds ++ es) = requestsIn ds ++ requestsIn es := List.filterMap_append

theorem answersIn_append (ds es : List (SocketAddress × Bytes)) :
    answersIn (ds ++ es) = answersIn ds ++ answersIn es := List.filterMap_append

@[simp] theorem requestIn?_request (d : SocketAddress) (r : BindingRequest) :
    requestIn? (d, (BindingMessage.request r).encode) = some (d, r) := by
  simp [requestIn?, BindingMessage.decode_encode, BindingMessage.plain]

@[simp] theorem requestIn?_response (d : SocketAddress) (r : BindingResponse) :
    requestIn? (d, (BindingMessage.response r).encode) = none := by
  simp [requestIn?, BindingMessage.decode_encode, BindingMessage.plain]

@[simp] theorem answerIn?_request (d : SocketAddress) (r : BindingRequest) :
    answerIn? (d, (BindingMessage.request r).encode) = none := by
  simp [answerIn?, BindingMessage.decode_encode, BindingMessage.plain]

@[simp] theorem answerIn?_response (d : SocketAddress) (r : BindingResponse) :
    answerIn? (d, (BindingMessage.response r).encode) =
      some (d, { r with mapped := r.mapped.map SocketAddress.plain }) := by
  simp [answerIn?, BindingMessage.decode_encode, BindingMessage.plain]

theorem requestIn?_eq_some {d source : SocketAddress} {octets : Bytes} {r : BindingRequest}
    (h : requestIn? (d, octets) = some (source, r)) :
    source = d ∧ BindingMessage.decode octets = .ok (.request r) := by
  simp only [requestIn?] at h
  split at h
  · rename_i hdecode
    cases h
    exact ⟨rfl, hdecode⟩
  · cases h

theorem answerIn?_eq_some {d source : SocketAddress} {octets : Bytes} {r : BindingResponse}
    (h : answerIn? (d, octets) = some (source, r)) :
    source = d ∧ BindingMessage.decode octets = .ok (.response r) := by
  simp only [answerIn?] at h
  split at h
  · rename_i hdecode
    cases h
    exact ⟨rfl, hdecode⟩
  · cases h

theorem mem_requestsIn {ds : List (SocketAddress × Bytes)} {d : SocketAddress}
    {r : BindingRequest} : (d, r) ∈ requestsIn ds ↔
      ∃ octets, (d, octets) ∈ ds ∧ BindingMessage.decode octets = .ok (.request r) := by
  simp only [requestsIn, List.mem_filterMap]
  constructor
  · rintro ⟨⟨d', octets⟩, hmem, heq⟩
    obtain ⟨rfl, hdecode⟩ := requestIn?_eq_some heq
    exact ⟨octets, hmem, hdecode⟩
  · rintro ⟨octets, hmem, hdecode⟩
    exact ⟨(d, octets), hmem, by simp [requestIn?, hdecode]⟩

theorem mem_answersIn {ds : List (SocketAddress × Bytes)} {d : SocketAddress}
    {r : BindingResponse} : (d, r) ∈ answersIn ds ↔
      ∃ octets, (d, octets) ∈ ds ∧ BindingMessage.decode octets = .ok (.response r) := by
  simp only [answersIn, List.mem_filterMap]
  constructor
  · rintro ⟨⟨d', octets⟩, hmem, heq⟩
    obtain ⟨rfl, hdecode⟩ := answerIn?_eq_some heq
    exact ⟨octets, hmem, hdecode⟩
  · rintro ⟨octets, hmem, hdecode⟩
    exact ⟨(d, octets), hmem, by simp [answerIn?, hdecode]⟩

theorem requestIn?_eq_none {d : SocketAddress} {octets : Bytes}
    (h : octets.head? ≠ some BindingMessage.tag) : requestIn? (d, octets) = none := by
  rw [requestIn?, decode_eq_error h]

theorem answerIn?_eq_none {d : SocketAddress} {octets : Bytes}
    (h : octets.head? ≠ some BindingMessage.tag) : answerIn? (d, octets) = none := by
  rw [answerIn?, decode_eq_error h]

theorem stunRequest_head (id : TransactionId) :
    (Stun.request id).head? ≠ some BindingMessage.tag := by
  simp [Stun.request, Bytes.bigEndian, Bytes.littleEndian, Stun.bindingRequest, BindingMessage.tag]

theorem keepaliveRequest_head (n : UInt32) :
    (Keepalive.request n).head? ≠ some BindingMessage.tag := by
  simp [Keepalive.request, Keepalive.requestTag, BindingMessage.tag]

theorem keepaliveResponse_head (n : UInt32) :
    (Keepalive.response n).head? ≠ some BindingMessage.tag := by
  simp [Keepalive.response, Keepalive.responseTag, BindingMessage.tag]

namespace CheckList

/-- The list after some actions. -/
def acts (l : CheckList) (xs : List Action) : CheckList := xs.foldl act l

/-- The requests that some actions send, in order. -/
def requests (l : CheckList) : List Action → List (SocketAddress × BindingRequest)
  | [] => []
  | x :: xs => (l.sends x).toList ++ (l.act x).requests xs

theorem acts_append (l : CheckList) (xs ys : List Action) :
    l.acts (xs ++ ys) = (l.acts xs).acts ys := List.foldl_append

theorem requests_append (l : CheckList) (xs ys : List Action) :
    l.requests (xs ++ ys) = l.requests xs ++ (l.acts xs).requests ys := by
  induction xs generalizing l with
  | nil => rfl
  | cons x xs ih =>
    rw [List.cons_append, requests, requests, ih, List.append_assoc]
    rfl

/-- Actions that send no request. -/
theorem requests_eq_nil {l : CheckList} {xs : List Action} (h : ∀ x ∈ xs, ∀ l, sends l x = none) :
    l.requests xs = [] := by
  induction xs generalizing l with
  | nil => rfl
  | cons x xs ih =>
    rw [requests, h x (List.mem_cons_self ..), ih fun y hy => h y (List.mem_cons_of_mem _ hy)]
    rfl

/-- What holds of a list and of the requests so far, kept by each of the actions, holds after all
of them. -/
theorem acts_induct {I : CheckList → List (SocketAddress × BindingRequest) → Prop}
    {xs : List Action} (step : ∀ l rs, ∀ x ∈ xs, I l rs → I (l.act x) (rs ++ (l.sends x).toList))
    {l : CheckList} {rs : List (SocketAddress × BindingRequest)} (h : I l rs) :
    I (l.acts xs) (rs ++ l.requests xs) := by
  induction xs generalizing l rs with
  | nil => simpa [acts, requests] using h
  | cons x xs ih =>
    have first := step l rs x (List.mem_cons_self ..) h
    have rest := ih (fun l rs y hy => step l rs y (List.mem_cons_of_mem _ hy)) first
    rwa [List.append_assoc] at rest

/-- The identifiers with which an action may start a check. -/
def Action.ids : Action → List TransactionId
  | .send _ id | .nominate _ _ id => [id]
  | _ => []

end CheckList

end Parley
