import Parley.Link.Keepalive
/-!
What the datagrams of a path say when they are read, and what its bookkeeping says of the path
itself: where it leads, and whether it is lost.
-/
namespace Parley.Keepalive

/-! ### Datagrams -/

theorem number_bigEndian (n : UInt32) :
    UInt32.ofNat (Bytes.ofBigEndian (Bytes.bigEndian 4 n.toNat)) = n := by
  have small : n.toNat % Bytes.capacity 4 = n.toNat := Nat.mod_eq_of_lt n.toNat_lt
  rw [Bytes.ofBigEndian_bigEndian, small, UInt32.ofNat_toNat]

theorem decode?_request (number : UInt32) : decode? (request number) = some (false, number) :=
  congrArg (fun n => some (false, n)) (number_bigEndian number)

theorem decode?_response (number : UInt32) : decode? (response number) = some (true, number) :=
  congrArg (fun n => some (true, n)) (number_bigEndian number)

/-! ### The path -/

/-- The address of a path, and whether the path is lost. -/
def path (k : Keepalive) : SocketAddress × Bool := (k.remote, k.lost)

theorem path_recordResponse (k : Keepalive) (sequence : UInt32) (now : Nat) :
    (k.recordResponse sequence now).path = k.path := by
  unfold recordResponse
  repeat' split
  all_goals rfl

theorem path_setRemote (k : Keepalive) (remote : SocketAddress) :
    (k.setRemote remote).path = (remote, k.lost) := by
  unfold setRemote
  split
  · rename_i h
    rw [← h]
    rfl
  · rfl

theorem path_poll (k : Keepalive) (now : Nat) : (k.poll now).1.path = k.path := by
  unfold poll
  split <;> rfl

/-- The flag that a timeout gives is up just when it is what loses the path. -/
theorem path_checkTimeout (k : Keepalive) (now : Nat) :
    (k.checkTimeout now).1.path = (k.remote, k.lost || (k.checkTimeout now).2) ∧
      ((k.checkTimeout now).2 = true → k.lost = false) := by
  unfold checkTimeout
  by_cases hlost : k.lost
  · simp [hlost, path]
  · simp only [hlost, Bool.false_eq_true, if_false]
    repeat' split
    all_goals simp_all [path]

end Parley.Keepalive
