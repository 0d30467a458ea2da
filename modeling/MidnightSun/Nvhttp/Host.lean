import MidnightSun.Nvhttp.Clients
import MidnightSun.Nvhttp.StateFile

/-!
# The host over its restarts

The server, the web credentials and the file that both share, from one process to the next.  A process begins with
`http::init` and `nvhttp::start`; what it keeps in memory is lost when it ends, the file stays.
-/

namespace MidnightSun.Nvhttp

open Boost Http Lib

structure Host (X509 : Type) where
  server : Server X509
  /-- `username`, `password` and `salt` of `config::sunshine` -/
  creds : Creds

variable {X509 : Type} (ssl : OpenSSL X509) (hash : Str → Str)

/-- The globals of a process after `http::init`. -/
def Server.initialized (uniqueId : Str) (file : StateFile) : Server X509 := { Server.boot file with uniqueId }

/-- A new process on the file: `http::init`, then `start` as far as the state is concerned.  `none` if `init` returns
-1 or `start` throws. -/
def boot (freshState keys : Bool) (gen : ℕ → Str) (file : StateFile) : Option (Host X509) :=
  match Http.init freshState keys gen file with
  | none => none
  | some (uniqueId, creds) =>
    match file with
    | .absent => some { server := .initialized uniqueId file, creds }
    | _ =>
      match loadState ssl (fun n => gen (n + 1)) (.initialized uniqueId file) with
      | .ok server => some { server, creds }
      | .error _ => none

/-- What can happen to a host. -/
inductive HostOp (X509 : Type) where
  | request (op : Op X509)
  /-- a new password from the web interface: `save_user_creds`, then `reload_user_creds` -/
  | saveUserCreds (username password salt : Str)
  | boot (keys : Bool) (gen : ℕ → Str)

/-- One operation of a host.  A restart is `boot`, with its `init`. -/
def HostOp.run (freshState : Bool) (h : Host X509) : HostOp X509 → Option (Host X509)
  | .request (.restart _) => none
  | .request op => (op.run ssl freshState h.server).map fun server => { h with server }
  | .saveUserCreds username password salt =>
    let file := (Http.saveUserCreds hash username password salt h.server.file).getD h.server.file
    some { server := { h.server with file }, creds := (reloadUserCreds file h.creds).1 }
  | .boot keys gen => Nvhttp.boot ssl freshState keys gen h.server.file

abbrev HostStep (freshState : Bool) : Host X509 → HostOp X509 → Host X509 → Prop :=
  ofPartial fun h op => op.run ssl hash freshState h

variable {ssl hash}

theorem request_run {freshState : Bool} {h h' : Host X509} {op : Op X509}
    (hrun : (HostOp.request op).run ssl hash freshState h = some h') :
    (∀ gen, op ≠ .restart gen) ∧ ∃ s', op.run ssl freshState h.server = some s' ∧ h' = { h with server := s' } := by
  cases op with
  | restart gen => cases hrun
  | pair | unpairClient | eraseAllClients | setClientEnabled | handshake =>
    simp only [HostOp.run, Option.map_eq_some_iff] at hrun
    obtain ⟨s', hs', rfl⟩ := hrun
    exact ⟨by simp, s', hs', rfl⟩

/-- All that a start can do: it takes an absent file as it is, and loads every other. -/
theorem boot_eq_some {freshState keys : Bool} {gen : ℕ → Str} {file : StateFile} {h : Host X509}
    (hb : boot ssl freshState keys gen file = some h) :
    keys = true ∧
      ((file = .absent ∧ h.server = .initialized (if freshState then gen 0 else []) file) ∨
        (file ≠ .absent ∧ loadState ssl (fun n => gen (n + 1))
          (.initialized (if freshState then gen 0 else []) file) = .ok h.server)) := by
  unfold boot at hb
  split at hb
  next => cases hb
  next uid creds hinit =>
    obtain ⟨hkeys, rfl⟩ := init_eq freshState hinit
    refine ⟨hkeys, ?_⟩
    split at hb
    · cases hb
      exact Or.inl ⟨rfl, rfl⟩
    next hne =>
      split at hb
      next server hload =>
        cases hb
        exact Or.inr ⟨fun h => hne h, hload⟩
      · cases hb

theorem boot_file {freshState keys : Bool} {gen : ℕ → Str} {file : StateFile} {h : Host X509}
    (hb : boot ssl freshState keys gen file = some h) : h.server.file = file := by
  obtain ⟨-, ⟨rfl, hs⟩ | ⟨-, hload⟩⟩ := boot_eq_some hb
  · rw [hs]; rfl
  · exact (loadState_ok hload).2.1

/-- Where `load_state` succeeds on a file that exists, so does a start with the keys in place. -/
theorem boot_of_loadState (freshState : Bool) {gen : ℕ → Str} {file : StateFile} {s : Server X509}
    (hne : file ≠ .absent)
    (hload : loadState ssl (fun n => gen (n + 1)) (.initialized (if freshState then gen 0 else []) file) = .ok s) :
    ∃ h, boot ssl freshState true gen file = some h ∧ h.server = s := by
  obtain ⟨⟨uid, creds⟩, hinit⟩ := Option.isSome_iff_exists.mp (isSome_init freshState gen file)
  obtain ⟨-, rfl⟩ := init_eq freshState hinit
  refine ⟨{ server := s, creds }, ?_, rfl⟩
  unfold boot
  cases file with
  | absent => exact absurd rfl hne
  | unreadable | tree => simp only [hinit, hload]

end MidnightSun.Nvhttp
