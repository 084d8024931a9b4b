import Parley.Proofs.Link.Announcement
import Parley.Proofs.Signal.Undashed
/-!
How an agent puts what it tells its peer.

An agent tells of its own candidates only, and none of these is as a peer would have it: each has
the foundation that goes with its kind and its address (`Candidate.Labelled`). So no dash stands in
what it tells, whatever it has received.
-/
namespace Parley
open Text

namespace Candidate

/-- The foundation is that of the kind and the address. -/
def Labelled (c : Candidate) : Prop := c.foundation = c.kind.label ++ "_" ++ c.address.ip.text

theorem gather_labelled {addresses : List SocketAddress} {includeLoopback : Bool} {c : Candidate}
    (h : c ∈ gather addresses includeLoopback) : c.Labelled := by
  obtain ⟨address, -, rfl⟩ := List.mem_map.1 h
  rfl

theorem Labelled.undashed_json {c : Candidate} (h : c.Labelled) : Undashed c.json.text := by
  have kind : Undashed c.kind.name := by cases c.kind <;> decide
  have label : Undashed c.kind.label := by cases c.kind <;> decide
  have foundation : Undashed c.foundation := by
    rw [h]
    exact (label.append (by decide)).append c.address.ip.undashed_text
  refine Json.undashed_object fun m hm => ?_
  rcases List.mem_append.1 hm with hm | hm
  · simp only [List.mem_cons, List.not_mem_nil, or_false] at hm
    rcases hm with rfl | rfl | rfl | rfl
    · exact Json.undashed_member (by decide) (Json.undashed_literal kind)
    · exact Json.undashed_member (by decide) (Json.undashed_literal c.address.undashed_text)
    · exact Json.undashed_member (by decide) (undashed_toString _)
    · exact Json.undashed_member (by decide) (Json.undashed_literal foundation)
  · cases related : c.related with
    | none => simp [related] at hm
    | some base =>
      rw [related] at hm
      rw [List.mem_singleton.1 hm]
      exact Json.undashed_member (by decide) (Json.undashed_literal base.undashed_text)

end Candidate

theorem Letter.undashed_payload (session : UInt64) {l : Letter}
    (h : ∀ c ∈ l.candidates, c.Labelled) : Undashed (l.payload session) := by
  have named : Json.UndashedMember (sessionMember session) :=
    Json.undashed_member (by decide) (undashed_toString _)
  cases l with
  | description candidates =>
    have documents : ∀ j ∈ candidates.map Candidate.json, Undashed j.text := by
      intro j hj
      obtain ⟨c, hc, rfl⟩ := List.mem_map.1 hj
      exact (h c hc).undashed_json
    have listed : Json.UndashedMember ("candidates", .array (candidates.map Candidate.json)) :=
      Json.undashed_member (by decide) (Json.undashed_array documents)
    exact Json.undashed_object
      (List.forall_mem_cons.2 ⟨named, List.forall_mem_singleton.2 listed⟩)
  | candidate c =>
    have one : Json.UndashedMember ("candidate", c.json) :=
      Json.undashed_member (by decide) (h c (List.mem_singleton_self c)).undashed_json
    exact Json.undashed_object (List.forall_mem_cons.2 ⟨named, List.forall_mem_singleton.2 one⟩)
  | gatheringDone => exact Json.undashed_object (List.forall_mem_singleton.2 named)

namespace Agent

theorem reflexiveCandidate_labelled {a : Agent} {mapped : SocketAddress} {c : Candidate}
    (h : a.reflexiveCandidate mapped = some c) : c.Labelled := by
  unfold reflexiveCandidate Candidate.gatherReflexive at h
  split at h
  · cases h
  · split at h
    · cases h
    · cases h
      rfl

/-- Whatever happens, an agent takes up none but labelled candidates. -/
theorem step_labelled {a : Agent} (ha : a.Reachable) (labelled : ∀ c ∈ a.ours, c.Labelled)
    (e : Event) : ∀ c ∈ (a.step e).ours, c.Labelled := by
  cases starts : e.isStart with
  | true =>
    cases e with
    | start now addresses includeLoopback stunServer id =>
      simp only [step]
      by_cases fresh : a.state = .new
      · rw [start_ours fresh]
        exact fun _ => Candidate.gather_labelled
      · rwa [start, if_neg fresh]
    | _ => cases starts
  | false =>
    by_cases taken : e = .takeSignals
    · subst taken
      exact labelled
    · obtain ⟨_, gathers⟩ := step_gathers ha.inquires.gathering starts taken
      cases gathers with
      | still ours => rwa [ours]
      | ends extra _ told _ ours =>
        rw [ours]
        intro c hc
        rcases List.mem_append.1 hc with old | new
        · exact labelled c old
        · obtain ⟨mapped, found⟩ := told c (Option.mem_toList.1 new)
          exact reflexiveCandidate_labelled found

/-- So all candidates of an agent are labelled, whatever it has received. -/
theorem Reachable.labelled {a : Agent} (h : a.Reachable) : ∀ c ∈ a.ours, c.Labelled :=
  h.induct_along (P := fun a => ∀ c ∈ a.ours, c.Labelled) (fun _ _ _ _ => nofun)
    fun _ e reachable labelled => step_labelled reachable labelled e

end Agent
end Parley
