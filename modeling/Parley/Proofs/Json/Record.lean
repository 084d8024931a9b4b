import Parley.Proofs.Json.Document
/-!
Reading back a record.

A record that was written as an object is read by the names of its members. What each member then
means is up to the reader of the record.
-/
namespace Parley
namespace Json

theorem mapM_rawMembers (members : List (String × Json)) :
    (rawMembers members).mapM (fun (key, value) => (unescape? key).map fun name => (name, value)) =
      some (members.map fun (key, value) => (key, value.raw)) := by
  induction members with
  | nil => rfl
  | cons member members ih =>
    obtain ⟨key, value⟩ := member
    simp [rawMembers, unescape?_escape, ih]

theorem lookup_raw (name : String) (members : List (String × Json)) :
    (members.map fun (key, value) => (key, value.raw)).lookup name =
      (members.lookup name).map raw := by
  induction members with
  | nil => rfl
  | cons member members ih =>
    obtain ⟨key, value⟩ := member
    rw [List.map_cons, List.lookup_cons, List.lookup_cons, ih]
    split <;> rfl

/-- A record is read by the names of its members, when none of these occurs twice. -/
theorem record?_object {names : List String} (keys : List String)
    {members : List (String × Json)} (hkeys : members.map (·.1) = keys)
    (h : ∀ name ∈ names, (keys.filter (· == name)).length ≤ 1) :
    Raw.record? names (Json.object members).raw =
      some (names.map fun name => (members.lookup name).map raw) := by
  have once : names.all (fun name => ((members.map fun (key, value) => (key, value.raw)).filter
      fun m => m.1 == name).length ≤ 1) = true := by
    rw [List.all_eq_true]
    intro name hname
    have few := h name hname
    rw [← hkeys, List.filter_map, List.length_map] at few
    rw [List.filter_map, List.length_map]
    simpa [Function.comp_def] using few
  simp only [raw, Raw.record?, mapM_rawMembers, lookup_raw, Option.bind_eq_bind, Option.bind_some,
    once, guard, if_true, pure]

end Json
end Parley
