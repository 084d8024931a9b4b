import Parley.Proofs.Text.Blank
import Parley.Proofs.Text.Digits
import Parley.Settings
/-!
The server that is set from a text, and the text of it.

A text that is taken is split at its last colon (`splitHost?_eq_some_iff`), its port is not zero, and
its host has lost the brackets at its ends. So the settings that a taken call leaves have a form in
which their own text gives them again, brackets or not (`Taken`, `setServer_serverAddress`). The one
thing that can be missing is the host: a text is refused when nothing stands before the colon, but
not when there are only brackets, and those are dropped (`server_read_back_iff`).
-/
namespace Parley

/-- A text splits into what stands before and behind its last colon. -/
theorem SocketAddress.splitHost?_eq_some_iff {s host port : String} :
    splitHost? s = some (host, port) ↔ s = host ++ ":" ++ port ∧ ':' ∉ port.toList := by
  have apart := List.takeWhile_append_dropWhile (p := (· != ':')) (l := s.toList.reverse)
  constructor
  · intro h
    unfold splitHost? at h
    simp only at h
    split at h
    · rename_i c back drop
      have colon : c = ':' := by
        have first := List.head?_dropWhile_not (· != ':') s.toList.reverse
        simpa [drop] using first
      simp only [Option.some.injEq, Prod.mk.injEq] at h
      obtain ⟨rfl, rfl⟩ := h
      rw [drop, colon] at apart
      refine ⟨?_, fun hc => ?_⟩
      · have spelled := congrArg List.reverse apart
        rw [← String.toList_inj]
        simpa using spelled.symm
      · have taken := List.mem_takeWhile_imp (p := (· != ':')) (by simpa using hc)
        simp at taken
    · cases h
  · rintro ⟨rfl, noColon⟩
    have behind : ∀ c ∈ port.toList.reverse, (c != ':') = true := fun c hc => by
      rw [bne_iff_ne]
      rintro rfl
      exact noColon (List.mem_reverse.1 hc)
    have reversed : (host ++ ":" ++ port).toList.reverse =
        port.toList.reverse ++ ':' :: host.toList.reverse := by simp
    have drop : (port.toList.reverse ++ ':' :: host.toList.reverse).dropWhile (· != ':') =
        ':' :: host.toList.reverse := Text.dropWhile_append_bare behind (by simp)
    have take : (port.toList.reverse ++ ':' :: host.toList.reverse).takeWhile (· != ':') =
        port.toList.reverse := by
      rw [List.takeWhile_append_of_pos behind]
      simp
    simp only [splitHost?, reversed, drop, take, List.reverse_reverse, String.ofList_toList]

namespace Settings

/-! ### Ports -/

theorem readPort_ne_zero {value : String} {port : UInt16} (h : readPort value = .ok port) :
    port ≠ 0 := by
  unfold readPort at h
  split at h
  · cases h
  · rename_i n zero read
    have below := Text.lt_of_read? read
    rintro rfl
    have value := congrArg UInt16.toNat (Except.ok.inj h)
    rw [UInt16.toNat_ofNat_of_lt' below] at value
    exact zero value
  · cases h

/-- A number is written without blanks and colons. -/
theorem plain_of_mem_repr {n : Nat} {c : Char} (h : c ∈ n.repr.toList) :
    Text.isBlank c = false ∧ c ≠ ':' := by
  have all : ∀ d : Fin 10, Text.isBlank (Nat.digitChar d) = false ∧ Nat.digitChar d ≠ ':' := by
    decide
  rw [Nat.toList_repr] at h
  obtain ⟨d, hd, rfl⟩ := Text.exists_digit_of_mem_toDigits (by decide) h
  exact all ⟨d, hd⟩

/-- A port that is not zero is read back from its digits. -/
theorem readPort_repr {port : UInt16} (h : port ≠ 0) : readPort port.toNat.repr = .ok port := by
  have solid : ∀ c ∈ port.toNat.repr.toList, Text.isBlank c = false :=
    fun c hc => (plain_of_mem_repr hc).1
  have trimmed : Text.trim port.toNat.repr = port.toNat.repr :=
    (Text.trim_eq_iff solid).2 ⟨"", "", nofun, nofun, by simp⟩
  rw [readPort, trimmed, Text.read?_repr port.toNat_lt]
  split
  · rename_i zero
    exact absurd (UInt16.toNat_inj.1 (Option.some.inj zero)) h
  · rename_i n _ same
    rw [← Option.some.inj same, UInt16.ofNat_toNat]
  · rename_i none
    cases none

/-! ### Hosts -/

/-- Nothing but brackets. -/
def Brackets (s : String) : Prop := ∀ c ∈ s.toList, isBracket c = true

instance (s : String) : Decidable (Brackets s) :=
  decidable_of_iff (s.toList.all isBracket = true) List.all_eq_true

/-- A host that is bare is what is left of those texts that have brackets around it, any number of
them and of both kinds. -/
theorem bareHost_eq_iff {s host : String} : bareHost s = host ↔
    Text.BareEnds isBracket host.toList ∧
      ∃ front back, Brackets front ∧ Brackets back ∧ s = front ++ host ++ back :=
  Text.ofList_dropEnds_eq_iff

theorem bareHost_eq_empty_iff {s : String} : bareHost s = "" ↔ Brackets s := by
  rw [bareHost_eq_iff]
  constructor
  · rintro ⟨-, front, back, hfront, hback, rfl⟩
    intro c hc
    have side : c ∈ front.toList ∨ c ∈ back.toList := by simpa using hc
    exact side.elim (hfront c) (hback c)
  · intro h
    exact ⟨⟨by simp, by simp⟩, s, "", h, by simp [Brackets], by simp⟩

/-! ### One call -/

section Call
variable {settings after : Settings} {server : String}

/-- What a text that is taken changes. -/
theorem setServer_eq_iff : settings.setServer server = (after, none) ↔
    ∃ host port number, server = host ++ ":" ++ port ∧ ':' ∉ port.toList ∧ host ≠ "" ∧
      readPort port = .ok number ∧
      after = { settings with host := bareHost host, port := number } := by
  simp only [← and_assoc, ← SocketAddress.splitHost?_eq_some_iff]
  unfold setServer
  constructor
  · intro h
    split at h
    · cases h
    · rename_i host port split
      split_ifs at h with empty
      · cases h
      · split at h
        · cases h
        · rename_i number read
          exact ⟨host, port, number, ⟨⟨split, empty⟩, read⟩, (Prod.mk.inj h).1.symm⟩
  · rintro ⟨host, port, number, ⟨⟨split, empty⟩, read⟩, rfl⟩
    simp only [split, if_neg empty, read]

/-- A text that is refused changes nothing. -/
theorem setServer_refused {error : Error} (h : (settings.setServer server).2 = some error) :
    (settings.setServer server).1 = settings := by
  unfold setServer at h ⊢
  split
  · rfl
  · rename_i split
    simp only [split] at h
    split_ifs with empty
    · rfl
    · rw [if_neg empty] at h
      split at h
      · rfl
      · cases h

end Call

/-! ### The text of the server -/

/-- The server as a text that was taken leaves it. -/
structure Taken (settings : Settings) : Prop where
  host : Text.BareEnds isBracket settings.host.toList
  port : settings.port ≠ 0

theorem taken_of_setServer {settings after : Settings} {server : String}
    (h : settings.setServer server = (after, none)) : Taken after := by
  obtain ⟨host, port, number, -, -, -, read, rfl⟩ := setServer_eq_iff.1 h
  exact ⟨(bareHost_eq_iff.1 rfl).1, readPort_ne_zero read⟩

/-- The host is shown so that it is read as itself, in brackets where it has a colon. -/
theorem exists_shown {settings : Settings} (h : Taken settings) : ∃ host,
    settings.serverAddress = host ++ ":" ++ settings.port.toNat.repr ∧
      bareHost host = settings.host ∧ (host = "" ↔ settings.host = "") := by
  unfold serverAddress
  split
  · rename_i colon
    refine ⟨"[" ++ settings.host ++ "]", ?_,
      bareHost_eq_iff.2 ⟨h.host, "[", "]", ?_, ?_, rfl⟩, ?_⟩
    · rw [← String.toList_inj]
      simp [toString]
    · simp [Brackets, isBracket]
    · simp [Brackets, isBracket]
    · have named : settings.host ≠ "" := by
        rintro empty
        simp [empty] at colon
      simp [named]
  · refine ⟨settings.host, rfl, bareHost_eq_iff.2 ⟨h.host, "", "", ?_, ?_, by simp⟩, Iff.rfl⟩
    · simp [Brackets]
    · simp [Brackets]

/-- The text of the server is read as the same server, except where there is no host. -/
theorem setServer_serverAddress {settings : Settings} (h : Taken settings) :
    settings.setServer settings.serverAddress =
      (settings,
        if settings.host = "" then some (.invalidServer settings.serverAddress) else none) := by
  obtain ⟨host, shown, bare, named⟩ := exists_shown h
  have split : SocketAddress.splitHost? settings.serverAddress =
      some (host, settings.port.toNat.repr) :=
    SocketAddress.splitHost?_eq_some_iff.2 ⟨shown, fun hc => (plain_of_mem_repr hc).2 rfl⟩
  simp only [setServer, split, readPort_repr h.port, bare, named]
  split_ifs <;> rfl

/-! ### One text after the other -/

/-- The settings after the server was set from one text after the other, each taken or refused. -/
def setServers (settings : Settings) (servers : List String) : Settings :=
  servers.foldl (fun settings server => (settings.setServer server).1) settings

/-- **The text of the server that was set is read as the same server just if it names a host.**
Whatever the settings were, from any environment or otherwise, and whatever was set before, a refused
text changes nothing. One that is taken leaves a host, and settings whose own text is taken and
changes nothing, if and only if something else than brackets stands before its last colon. -/
theorem server_read_back_iff {start settings : Settings} {servers : List String} {server : String}
    {error : Option Error}
    (set : (start.setServers servers).setServer server = (settings, error)) :
    (error ≠ none → settings = start.setServers servers) ∧
      (error = none →
        (settings.host ≠ "" ∧ settings.setServer settings.serverAddress = (settings, none) ↔
          ∃ host port : String, server = host ++ ":" ++ port ∧ ':' ∉ port.toList ∧
            ¬Brackets host)) := by
  refine ⟨fun refused => ?_, ?_⟩
  · obtain ⟨e, rfl⟩ := Option.ne_none_iff_exists'.1 refused
    have unchanged := setServer_refused (congrArg Prod.snd set)
    rwa [set] at unchanged
  · rintro rfl
    have again := setServer_serverAddress (taken_of_setServer set)
    obtain ⟨host, port, number, apart, noColon, -, -, same⟩ := setServer_eq_iff.1 set
    have empty : settings.host = "" ↔ Brackets host := by
      rw [same]
      exact bareHost_eq_empty_iff
    constructor
    · rintro ⟨named, -⟩
      exact ⟨host, port, apart, noColon, fun brackets => named (empty.2 brackets)⟩
    · rintro ⟨host', port', apart', noColon', named⟩
      -- The last colon is in one place only.
      have split := SocketAddress.splitHost?_eq_some_iff.2 ⟨apart, noColon⟩
      have split' := SocketAddress.splitHost?_eq_some_iff.2 ⟨apart', noColon'⟩
      rw [split, Option.some.injEq, Prod.mk.injEq] at split'
      rw [← split'.1, ← empty] at named
      rw [if_neg named] at again
      exact ⟨named, again⟩

/-- An uncommon spelling is read back from the common one, and a refused text leaves it. -/
theorem server_read_back_uncommon :
    let settings : Settings := { host := "::1", port := 80 }
    (setServers {} []).setServer "[[::1]: +080 " = (settings, none) ∧
      settings.serverAddress = "[::1]:80" ∧ settings.setServer "[::1]:80" = (settings, none) ∧
      (setServers {} ["[[::1]: +080 "]).setServer ":80" =
        (settings, some (.invalidServer ":80")) ∧
      settings = setServers {} ["[[::1]: +080 "] := by
  intro settings
  have taken : (setServers {} []).setServer "[[::1]: +080 " = (settings, none) := by
    decide +kernel
  have set : setServers {} ["[[::1]: +080 "] = settings := congrArg Prod.fst taken
  have refused : (setServers {} ["[[::1]: +080 "]).setServer ":80" =
      (settings, some (.invalidServer ":80")) := by
    rw [set]
    decide +kernel
  have shown : settings.serverAddress = "[::1]:80" := by decide +kernel
  have again := ((server_read_back_iff taken).2 rfl).2
    ⟨"[[::1]", " +080 ", by decide +kernel, by decide +kernel, by decide +kernel⟩
  rw [shown] at again
  exact ⟨taken, shown, again.2, refused, (server_read_back_iff refused).1 nofun⟩

/-- Brackets without a host are taken, and the settings that they leave are refused. -/
theorem brackets_name_no_host :
    ofEnvironment (fun _ => none) = .ok {} ∧
      setServer (setServers {} []) "[]:80" = ({ host := "", port := 80 }, none) ∧
      serverAddress { host := "", port := 80 } = ":80" ∧
      setServer { host := "", port := 80 } ":80" =
        ({ host := "", port := 80 }, some (.invalidServer ":80")) := by
  refine ⟨rfl, ?_, ?_, ?_⟩ <;> decide +kernel

end Settings
end Parley
