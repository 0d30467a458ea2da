import MidnightSun.Nvhttp.Host

/-!
# The flag FRESH_STATE and the file

A host with the flag must not write its file.  `add_authorized_client` asks for the flag before it saves; the other
three operations on the client list save whenever they change it.  `LeavesFile` is the exact condition under which an
operation leaves the file alone; what the operations do to the list in memory never depends on the flag.
-/

namespace MidnightSun.Nvhttp

open Boost Http Lib

variable {X509 : Type} {ssl : OpenSSL X509} {hash : Str → Str}

/-- `save_state` would leave the file as it is: it cannot be read, or it is what would be written for these clients. -/
def Saved (s : Server X509) (devices : List NamedCert) : Prop :=
  match s.file with
  | .absent => False
  | .unreadable => True
  | .tree t => stateTree s.uniqueId devices t = t

/-- The condition under which an operation with the flag set leaves the file alone. -/
def LeavesFile (hash : Str → Str) (h : Host X509) : HostOp X509 → Prop
  | .request (.unpairClient _ uuid) => Saved h.server (h.server.namedDevices.filter fun c => c.uuid ≠ uuid)
  | .request .eraseAllClients => Saved h.server []
  | .request (.setClientEnabled uuid enabled) =>
    ∀ devices, setFirstEnabled uuid enabled h.server.namedDevices = some devices → Saved h.server devices
  | .saveUserCreds username password salt =>
    match h.server.file with
    | .absent => False
    | .unreadable => True
    | .tree t => credsTree hash username password salt t = t
  | .request (.pair ..) | .request (.restart _) | .request (.handshake _) | .boot .. => True

/-! ### The file -/

theorem file_saveState_iff (s : Server X509) : (saveState s).file = s.file ↔ Saved s s.namedDevices := by
  unfold saveState Saved
  cases hf : s.file with
  | absent => simp
  | unreadable => simp [hf]
  | tree t => simp

theorem file_settle_loadState (gen : ℕ → Str) (s : Server X509) : (settle (loadState ssl gen s)).file = s.file := by
  unfold loadState
  split
  next => rfl
  next => rfl
  next =>
    split
    next =>
      dsimp only
      split <;> rfl
    next => rfl

theorem settle_map_fst {β : Type} (r : Except (Server X509) (Server X509)) (b : β) :
    settle ((r.map fun s => (s, b)).map Prod.fst) = settle r := by
  cases r <;> rfl

/-- **Step lemma.**  With the flag, an operation leaves the file alone exactly under its condition. -/
theorem file_step_iff {h h' : Host X509} {op : HostOp X509} (hrun : op.run ssl hash true h = some h') :
    h'.server.file = h.server.file ↔ LeavesFile hash h op := by
  cases op with
  | request op =>
    obtain ⟨-, s', hs', rfl⟩ := request_run hrun
    cases op with
    | pair gen name cert =>
      obtain ⟨x, -, rfl⟩ := Option.map_eq_some_iff.mp hs'
      simp [completePairing, addAuthorizedClient, settle, LeavesFile]
    | unpairClient gen uuid =>
      obtain rfl := Option.some.inj hs'
      simp only [unpairClient, settle_map_fst, file_settle_loadState, LeavesFile]
      exact file_saveState_iff { h.server with namedDevices := h.server.namedDevices.filter fun c => c.uuid ≠ uuid }
    | eraseAllClients =>
      obtain rfl := Option.some.inj hs'
      exact file_saveState_iff { h.server with namedDevices := [], certChain := [] }
    | setClientEnabled uuid enabled =>
      obtain rfl := Option.some.inj hs'
      simp only [setClientEnabled, LeavesFile]
      cases hset : setFirstEnabled uuid enabled h.server.namedDevices with
      | none => simp
      | some devices =>
        simp only [Option.some.injEq, forall_eq']
        exact file_saveState_iff { h.server with namedDevices := devices }
    | restart gen => cases hrun
    | handshake peer =>
      obtain rfl := Option.some.inj hs'
      unfold verify
      split
      next => simp [LeavesFile]
      next =>
        dsimp only
        split <;> simp [LeavesFile]
  | saveUserCreds username password salt =>
    obtain rfl := Option.some.inj hrun
    simp only [LeavesFile]
    cases hf : h.server.file with
    | absent => simp [saveUserCreds]
    | unreadable => simp [saveUserCreds]
    | tree t => simp [saveUserCreds]
  | boot keys gen => simpa [LeavesFile] using boot_file hrun

/-! ### The list in memory -/

theorem namedDevices_reload (gen : ℕ → Str) (s : Server X509) :
    (settle (loadState ssl gen (saveState s))).namedDevices = s.namedDevices := by
  by_cases hr : s.file = .unreadable
  · have hsave : saveState s = s := by simp [saveState, hr]
    have hload : loadState ssl gen s = .ok s := by simp [loadState, hr]
    rw [hsave, hload]
    rfl
  · rw [loadState_saveState ssl gen hr]
    simp [settle]

/-- `load_state` reads the same list whatever the unique id was before. -/
theorem namedDevices_loadState (ssl : OpenSSL X509) (gen : ℕ → Str) (uid uid' : Str) (s : Server X509) :
    (loadState ssl gen { s with uniqueId := uid }).toOption.map Server.namedDevices =
      (loadState ssl gen { s with uniqueId := uid' }).toOption.map Server.namedDevices := by
  unfold loadState
  cases s.file with
  | absent => rfl
  | unreadable => rfl
  | tree t => rfl

theorem namedDevices_boot (keys : Bool) (gen : ℕ → Str) (file : StateFile) :
    (boot ssl true keys gen file).map (fun h => h.server.namedDevices) =
      (boot ssl false keys gen file).map fun h => h.server.namedDevices := by
  unfold boot
  rw [init_fresh]
  cases Http.init false keys gen file with
  | none => rfl
  | some p =>
    obtain ⟨uid, creds⟩ := p
    have hload := namedDevices_loadState ssl (fun n => gen (n + 1)) (gen 0) uid (Server.boot file)
    cases file with
    | absent => rfl
    | unreadable => rfl
    | tree t =>
      change ((loadState ssl _ (.initialized (gen 0) (.tree t))).toOption.map Server.namedDevices =
        (loadState ssl _ (.initialized uid (.tree t))).toOption.map Server.namedDevices) at hload
      simp only [Option.map_some]
      generalize loadState ssl _ (.initialized (gen 0) (.tree t)) = r at hload ⊢
      generalize loadState ssl _ (.initialized uid (.tree t)) = r' at hload ⊢
      cases r with
      | ok s =>
        cases r' with
        | ok s' => exact hload
        | error s' => cases hload
      | error s =>
        cases r' with
        | ok s' => cases hload
        | error s' => rfl

/-- **The list in memory.**  No operation changes the client list with the flag otherwise than without it. -/
theorem namedDevices_flag (h : Host X509) (op : HostOp X509) :
    (op.run ssl hash true h).map (fun h => h.server.namedDevices) =
      (op.run ssl hash false h).map fun h => h.server.namedDevices := by
  cases op with
  | request op =>
    cases op with
    | pair gen name cert =>
      simp only [HostOp.run, Op.run, Option.map_map]
      cases ssl.x509 cert with
      | none => rfl
      | some x =>
        simp only [Option.map_some, Function.comp, completePairing, addAuthorizedClient, if_true, Bool.false_eq_true,
          if_false, namedDevices_reload]
        rfl
    | unpairClient | eraseAllClients | setClientEnabled | handshake | restart => rfl
  | saveUserCreds => rfl
  | boot keys gen => exact namedDevices_boot keys gen h.server.file

/-- **FRESH_STATE and the file.**  In a run of a host with the flag set, the file is the same at every point exactly if
every operation meets its condition; and every operation changes the list in memory as it does without the flag. -/
theorem fresh_state_frame_iff {h h' : Host X509} {ops : List (HostOp X509)}
    (hrun : Run (HostStep ssl hash true) h ops h') :
    ((∀ before after u, ops = before ++ after → Run (HostStep ssl hash true) h before u →
        u.server.file = h.server.file) ↔ Run (Guarded (HostStep ssl hash true) (LeavesFile hash)) h ops h') ∧
      ∀ (u : Host X509) (op : HostOp X509), (op.run ssl hash true u).map (fun h => h.server.namedDevices) =
        (op.run ssl hash false u).map fun h => h.server.namedDevices :=
  ⟨run_frame_iff (o := fun h : Host X509 => h.server.file) (fun _ _ _ => file_step_iff) hrun, namedDevices_flag⟩

/-- A file with one paired client. -/
def pairedFile : StateFile :=
  .tree (stateTree (str "u") [{ name := str "n", uuid := str "1", cert := str "c" }] .empty)

/-- The number of clients that the file lists. -/
def clientsInFile : StateFile → Option ℕ
  | .tree t => (t.getChild? ["root", "named_devices"]).map fun nodes => nodes.children.length
  | _ => none

/-- A process on `pairedFile` with the flag set. -/
def pairedHost : Host Str where
  server := { Server.boot pairedFile with
    uniqueId := str "g", namedDevices := [{ name := str "n", uuid := str "1", cert := str "c" }] }
  creds := {}

/-- Unpairing the client writes the file although the flag is set. -/
theorem fresh_state_writes :
    ∃ h', HostStep textSsl id true pairedHost (.request (.unpairClient (fun _ => str "k") (str "1"))) h' ∧
      clientsInFile pairedHost.server.file = some 1 ∧ clientsInFile h'.server.file = some 0 := by
  refine ⟨_, rfl, rfl, rfl⟩

/-- Pairing a client with the flag set leaves the file alone. -/
theorem fresh_state_frame_pair :
    ∃ h', HostStep textSsl id true pairedHost (.request (.pair (fun _ => str "k") (str "m") (str "d"))) h' ∧
      h'.server.file = pairedHost.server.file := by
  obtain ⟨h', hstep⟩ : ∃ h', HostStep textSsl id true pairedHost
      (.request (.pair (fun _ => str "k") (str "m") (str "d"))) h' := ⟨_, rfl⟩
  have hrun := Run.single hstep
  have hguard : Run (Guarded (HostStep textSsl id true) (LeavesFile id)) pairedHost
      [.request (.pair (fun _ => str "k") (str "m") (str "d"))] h' := Run.single ⟨trivial, hstep⟩
  exact ⟨h', hstep, (fresh_state_frame_iff hrun).1.mpr hguard _ [] _ (by simp) hrun⟩

end MidnightSun.Nvhttp
