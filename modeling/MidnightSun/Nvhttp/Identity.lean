import MidnightSun.Nvhttp.Host

/-!
# The identity of the host over its restarts

The unique id is drawn by `load_state` when it finds none and written by `save_state` only.  A host whose file holds
an id keeps it for ever; a host that starts without one reports an empty id, or one that is gone with the next start.
-/

namespace MidnightSun.Nvhttp

open Boost Http Lib

variable {X509 : Type} {ssl : OpenSSL X509} {hash : Str → Str}

/-- The file is readable and holds this unique id. -/
def HoldsId (uid : Str) (file : StateFile) : Prop := ∃ t, file = .tree t ∧ t.get? ["root", "uniqueid"] = some uid

/-- The invariant of a host that keeps its identity: memory and file hold it. -/
structure KeepsId (uid : Str) (s : Server X509) : Prop where
  memory : s.uniqueId = uid
  file : HoldsId uid s.file

/-! ### Saving and loading -/

theorem exists_root_of_uniqueid {t : Ptree} {uid : Str} (h : t.get? ["root", "uniqueid"] = some uid) :
    ∃ root, t.getChild? ["root"] = some root := by
  obtain ⟨d, cs⟩ := t
  simp only [Ptree.get?, Ptree.getChild?] at h ⊢
  cases hr : cs.lookup "root" with
  | none => rw [hr] at h; cases h
  | some root => exact ⟨root, rfl⟩

theorem readable_of_holdsId {uid : Str} {file : StateFile} (h : HoldsId uid file) : file ≠ .unreadable := by
  obtain ⟨t, rfl, -⟩ := h
  simp

theorem keepsId_saveState {uid : Str} {s : Server X509} (hmem : s.uniqueId = uid) (hr : s.file ≠ .unreadable) :
    KeepsId uid (saveState s) := by
  obtain ⟨t, ht⟩ := saveState_file hr
  rw [ht]
  subst hmem
  exact ⟨rfl, _, rfl, get?_stateTree _ _ t⟩

/-- `load_state` takes the id from a file that holds one, also where it throws afterwards. -/
theorem keepsId_loadState (ssl : OpenSSL X509) (gen : ℕ → Str) {uid : Str} {s : Server X509}
    (h : HoldsId uid s.file) :
    KeepsId uid (settle (loadState ssl gen s)) := by
  obtain ⟨t, ht, huid⟩ := h
  obtain ⟨root, hroot⟩ := exists_root_of_uniqueid huid
  simp only [loadState, ht, hroot, huid]
  split
  · exact ⟨rfl, t, rfl, huid⟩
  · exact ⟨rfl, t, rfl, huid⟩

theorem keepsId_of_loadState {gen : ℕ → Str} {uid : Str} {s s' : Server X509} (h : HoldsId uid s.file)
    (hload : loadState ssl gen s = .ok s') : KeepsId uid s' := by
  have hkeeps := keepsId_loadState ssl gen h
  rwa [hload] at hkeeps

theorem keepsId_reload (gen : ℕ → Str) {uid : Str} {s : Server X509} (hmem : s.uniqueId = uid)
    (hr : s.file ≠ .unreadable) : KeepsId uid (settle (loadState ssl gen (saveState s))) :=
  keepsId_loadState ssl gen (keepsId_saveState hmem hr).file

/-! ### Requests and restarts -/

/-- **Step lemma for requests.** -/
theorem keepsId_request {uid : Str} {s s' : Server X509} {op : Op X509} (h : KeepsId uid s)
    (hop : ∀ gen, op ≠ .restart gen) (hrun : op.run ssl false s = some s') : KeepsId uid s' := by
  have hr := readable_of_holdsId h.file
  cases op with
  | pair gen name cert =>
    obtain ⟨x, -, rfl⟩ := Option.map_eq_some_iff.mp hrun
    simp only [completePairing, addAuthorizedClient, Bool.false_eq_true, if_false]
    exact keepsId_reload _ h.memory hr
  | unpairClient gen uuid =>
    obtain rfl := Option.some.inj hrun
    have hkeeps : KeepsId uid (settle (loadState ssl gen
        (saveState { s with namedDevices := s.namedDevices.filter fun c => c.uuid ≠ uuid }))) :=
      keepsId_reload gen h.memory hr
    unfold unpairClient
    dsimp only
    generalize loadState ssl gen _ = r at hkeeps ⊢
    cases r with
    | ok s' => exact hkeeps
    | error s' => exact hkeeps
  | eraseAllClients =>
    obtain rfl := Option.some.inj hrun
    exact keepsId_saveState h.memory hr
  | setClientEnabled uuid enabled =>
    obtain rfl := Option.some.inj hrun
    unfold setClientEnabled
    split
    next => exact keepsId_saveState h.memory hr
    next => exact h
  | restart gen => exact absurd rfl (hop gen)
  | handshake peer =>
    obtain rfl := Option.some.inj hrun
    unfold verify
    split
    next => exact h
    next x =>
      dsimp only
      split <;> exact ⟨h.memory, h.file⟩

theorem holdsId_saveUserCreds {uid : Str} {file : StateFile} (h : HoldsId uid file) (username password salt : Str) :
    HoldsId uid ((saveUserCreds hash username password salt file).getD file) := by
  obtain ⟨t, rfl, huid⟩ := h
  refine ⟨credsTree hash username password salt t, rfl, ?_⟩
  rw [← huid]
  exact congrArg (Option.map Ptree.data) (getChild?_root_credsTree hash username password salt ["uniqueid"] t)

theorem keepsId_boot {uid : Str} {keys : Bool} {gen : ℕ → Str} {file : StateFile} {h : Host X509}
    (hf : HoldsId uid file) (hb : boot ssl false keys gen file = some h) : KeepsId uid h.server := by
  obtain ⟨-, ⟨rfl, -⟩ | ⟨-, hload⟩⟩ := boot_eq_some hb
  · obtain ⟨t, ht, -⟩ := hf
    cases ht
  · exact keepsId_of_loadState hf hload

/-- **Step lemma.** -/
theorem keepsId_step {uid : Str} {h h' : Host X509} {op : HostOp X509} (hI : KeepsId uid h.server)
    (hstep : HostStep ssl hash false h op h') : KeepsId uid h'.server := by
  cases op with
  | request op =>
    obtain ⟨hop, s', hs', rfl⟩ := request_run hstep
    exact keepsId_request hI hop hs'
  | saveUserCreds username password salt =>
    obtain rfl := Option.some.inj hstep
    exact ⟨hI.memory, holdsId_saveUserCreds hI.file username password salt⟩
  | boot keys gen => exact keepsId_boot hI.file hstep

/-- **Run lemma.** -/
theorem keepsId_run {uid : Str} {h h' : Host X509} {ops : List (HostOp X509)}
    (hrun : Run (HostStep ssl hash false) h ops h') (hI : KeepsId uid h.server) : KeepsId uid h'.server :=
  hrun.invariant (I := fun h => KeepsId uid h.server) (fun _ _ _ hI hstep => keepsId_step hI hstep) hI

/-! ### Exactly the files that hold an id -/

/-- A start without an id in the file reports the empty id, or one that another start need not report. -/
theorem start_without_id {keys : Bool} {gen : ℕ → Str} {file : StateFile} {h : Host X509}
    (hb : boot ssl false keys gen file = some h) (hno : ∀ uid, ¬ HoldsId uid file) :
    h.server.uniqueId = [] ∨ ∃ gen' h', boot ssl false true gen' file = some h' ∧
      h'.server.uniqueId ≠ h.server.uniqueId := by
  obtain ⟨-, ⟨rfl, hs⟩ | ⟨hne, hload⟩⟩ := boot_eq_some hb
  · left
    rw [hs]
    rfl
  · cases file with
    | absent => exact absurd rfl hne
    | unreadable =>
      left
      obtain hs := Except.ok.inj hload
      rw [← hs]
      rfl
    | tree t =>
      right
      have hnone : t.get? ["root", "uniqueid"] = none := by
        cases hu : t.get? ["root", "uniqueid"] with
        | none => rfl
        | some uid => exact absurd ⟨t, rfl, hu⟩ (hno uid)
      have hdraw : ∀ gen : ℕ → Str, loadState ssl gen (.initialized [] (.tree t)) =
          .ok { Server.initialized [] (.tree t) with uniqueId := gen 0 } := by
        intro gen
        simp [loadState, Server.initialized, Server.boot, hnone]
      have huid : h.server.uniqueId = gen 1 := by
        rw [← Except.ok.inj ((hdraw fun n => gen (n + 1)).symm.trans hload)]
      obtain ⟨h', hh', hs'⟩ : ∃ h', boot ssl false true (fun _ => 0 :: gen 1) (.tree t) = some h' ∧ h'.server = _ :=
        boot_of_loadState false hne (hdraw _)
      refine ⟨fun _ => 0 :: gen 1, h', hh', ?_⟩
      rw [huid, hs']
      simp

/-- **The identity survives every restart** of a host that starts on this file if and only if the file holds an id
that is not empty. -/
theorem identity_survives_iff (ssl : OpenSSL X509) (hash : Str → Str) {keys : Bool} {gen : ℕ → Str} {file : StateFile}
    {h : Host X509} (hb : boot ssl false keys gen file = some h) :
    (h.server.uniqueId ≠ [] ∧ ∀ ops u ops' s keys' gen' s', Run (HostStep ssl hash false) h ops u →
        Run (HostStep ssl hash false) u ops' s → HostStep ssl hash false s (.boot keys' gen') s' →
        s'.server.uniqueId ≠ [] ∧ s'.server.uniqueId = u.server.uniqueId) ↔
      ∃ uid, uid ≠ [] ∧ HoldsId uid file := by
  constructor
  · rintro ⟨hne, hruns⟩
    by_contra hno
    push Not at hno
    have hnoId : ∀ uid, ¬ HoldsId uid file := by
      intro uid hid
      by_cases hu : uid = []
      · have hkeeps := keepsId_boot hid hb
        exact hne (hkeeps.memory.trans hu)
      · exact hno uid hu hid
    rcases start_without_id hb hnoId with hempty | ⟨gen', h', hb', hdiff⟩
    · exact hne hempty
    · have hstep : HostStep ssl hash false h (.boot true gen') h' := by
        have hfile := boot_file hb
        simpa only [HostStep, ofPartial, HostOp.run, hfile] using hb'
      exact hdiff (hruns [] h [] h true gen' h' Run.nil Run.nil hstep).2
  · rintro ⟨uid, hu, hid⟩
    have hkeeps := keepsId_boot hid hb
    refine ⟨by rw [hkeeps.memory]; exact hu, ?_⟩
    intro ops u ops' s keys' gen' s' hrun hrun' hstep
    have hku := keepsId_run hrun hkeeps
    have hks := keepsId_step (keepsId_run hrun' hku) hstep
    rw [hks.memory, hku.memory]
    exact ⟨hu, rfl⟩

/-- A file that holds the id "u". -/
def identifiedFile : StateFile := .tree (.node [] [("root", .node [] [("uniqueid", .leaf (str "u"))])])

/-- A host on `identifiedFile`. -/
theorem identity_survives_identifiedFile :
    ∃ h, boot textSsl false true (fun _ => str "g") identifiedFile = some h ∧
      h.server.uniqueId ≠ [] := by
  have hb : boot textSsl false true (fun _ => str "g") identifiedFile = some _ := rfl
  have hheld : ∃ uid, uid ≠ [] ∧ HoldsId uid identifiedFile := ⟨str "u", by decide, _, rfl, rfl⟩
  exact ⟨_, hb, ((identity_survives_iff _ id hb).mpr hheld).1⟩

/-- A host without a file reports the empty id, and a host whose file holds credentials only reports another id after
its next start. -/
theorem identity_lost :
    (boot textSsl false true (fun _ => str "g") .absent).any
        (fun h => h.server.uniqueId = []) = true ∧
      ∃ h h', boot textSsl false true (fun _ => str "g")
          (.tree (credsTree id (str "admin") (str "pw") (str "salt") .empty)) = some h ∧
        HostStep textSsl id false h (.boot true fun _ => str "k") h' ∧
        h.server.uniqueId = str "g" ∧ h'.server.uniqueId = str "k" := by
  refine ⟨by decide, _, _, rfl, rfl, rfl, rfl⟩

end MidnightSun.Nvhttp
