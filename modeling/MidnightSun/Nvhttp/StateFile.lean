import MidnightSun.Http.Credentials

/-!
# Two writers of one file (src/nvhttp.cpp, src/httpcommon.cpp)

`save_state` replaces the subtree `root` of the state file and `save_user_creds` three children beside it.  Each
leaves the other's part alone, and `load_state` finds again what `save_state` wrote, whatever the file held before and
whatever format the clients came from.
-/

namespace MidnightSun.Nvhttp

open Boost Http

variable {X509 : Type}

/-- What `read_json` gives before a save: an absent file counts as the empty tree. -/
def StateFile.contents : StateFile → Option Ptree
  | .absent => some .empty
  | .unreadable => none
  | .tree t => some t

theorem saveState_of_contents {s : Server X509} {t : Ptree} (h : s.file.contents = some t) :
    saveState s = { s with file := .tree (stateTree s.uniqueId s.namedDevices t) } := by
  unfold saveState
  cases hf : s.file with
  | absent => rw [hf] at h; cases h; rfl
  | unreadable => rw [hf] at h; cases h
  | tree t' => rw [hf] at h; cases h; rfl

theorem saveUserCreds_of_contents (hash : Str → Str) (username password salt : Str) {file : StateFile} {t : Ptree}
    (h : file.contents = some t) :
    saveUserCreds hash username password salt file = some (.tree (credsTree hash username password salt t)) := by
  cases file with
  | absent => cases h; rfl
  | unreadable => cases h
  | tree t' => cases h; rfl

theorem readable_of_contents {file : StateFile} {t : Ptree} (h : file.contents = some t) : file ≠ .unreadable := by
  rintro rfl
  cases h

/-! ### The frame of `save_state` -/

theorem others_stateTree (uid : Str) (devices : List NamedCert) (t : Ptree) :
    (stateTree uid devices t).others "root" = t.others "root" := by
  rw [stateTree, Ptree.others_addChild, Ptree.others_put, Ptree.others_erase]

theorem data_stateTree (uid : Str) (devices : List NamedCert) (t : Ptree) :
    (stateTree uid devices t).data = t.data := by simp [stateTree]

/-! ### Round trip -/

/-- What a process finds that loads a file with the clients and the id. -/
def FileHolds (ssl : OpenSSL X509) (file : StateFile) (uniqueId : Str) (devices : List NamedCert) : Prop :=
  ∀ gen (s₀ : Server X509), ∃ s', loadState ssl gen { s₀ with file := file } = .ok s' ∧ s'.uniqueId = uniqueId ∧
    s'.namedDevices = devices ∧ s'.certChain = devices.map fun c => ssl.x509 c.cert

/-- `load_state` after `save_state`, in whatever process. -/
theorem fileHolds_stateTree (ssl : OpenSSL X509) (uid : Str) (devices : List NamedCert) (t : Ptree) :
    FileHolds ssl (.tree (stateTree uid devices t)) uid devices := by
  intro gen s₀
  refine ⟨{ s₀ with
    uniqueId := uid
    namedDevices := devices
    certChain := devices.map fun c => ssl.x509 c.cert
    file := .tree (stateTree uid devices t) }, ?_, rfl, rfl, rfl⟩
  simp only [loadState, getChild?_stateTree, get?_stateTree, importDevices_saved, importNamedDevices_saved,
    List.nil_append]

theorem fileHolds_saveState (ssl : OpenSSL X509) {s : Server X509} (h : s.file ≠ .unreadable) :
    FileHolds ssl (saveState s).file s.uniqueId s.namedDevices := by
  obtain ⟨t, ht⟩ := saveState_file h
  rw [ht]
  exact fileHolds_stateTree ssl s.uniqueId s.namedDevices t

/-- **Round trip and framing of the state file.**  From every readable file, in the state of every list of clients and
every unique id: what is saved is loaded again by every process, whatever it has in memory, the rest of the file is left
alone, saving the web credentials in between changes nothing, and a first load that succeeds is repeated by a save and a
second load. -/
theorem state_file_round_trip (ssl : OpenSSL X509) (hash : Str → Str) (s : Server X509) {t : Ptree}
    (h : s.file.contents = some t) :
    ∃ t', (saveState s).file = .tree t' ∧ t'.others "root" = t.others "root" ∧ t'.data = t.data ∧
      FileHolds ssl (.tree t') s.uniqueId s.namedDevices ∧
      (∀ username password salt, ∃ t'',
        saveUserCreds hash username password salt (.tree t') = some (.tree t'') ∧ t''.named "root" = t'.named "root" ∧
        FileHolds ssl (.tree t'') s.uniqueId s.namedDevices) ∧
      ∀ gen s₁, loadState ssl gen s = .ok s₁ → FileHolds ssl (saveState s₁).file s₁.uniqueId s₁.namedDevices := by
  have hsave := saveState_of_contents h
  refine ⟨stateTree s.uniqueId s.namedDevices t, by rw [hsave], others_stateTree _ _ t, data_stateTree _ _ t,
    fileHolds_stateTree ssl _ _ t, ?_, ?_⟩
  · intro username password salt
    refine ⟨_, saveUserCreds_of_contents hash username password salt rfl, named_root_credsTree .., ?_⟩
    intro gen s₀
    obtain ⟨s', hload, huid, hdevices, hchain⟩ := fileHolds_stateTree ssl s.uniqueId s.namedDevices t gen s₀
    exact ⟨_, loadState_credsTree ssl gen hash username password salt s₀ hload, huid, hdevices, hchain⟩
  · intro gen s₁ hload
    obtain ⟨-, hfile, -⟩ := loadState_ok hload
    exact fileHolds_saveState ssl (hfile ▸ readable_of_contents h)

/-- Certificates that are their own text, each verified by every store. -/
def textSsl : OpenSSL Str := ⟨some, id, fun _ _ => none⟩

/-- A file in the old format with one client, and the credentials of the web interface. -/
def oldFormatFile : Ptree :=
  .node [] [("username", .leaf (str "admin")),
    ("root", .node [] [("uniqueid", .leaf (str "u")),
      ("devices", .node [] [("", .node [] [("uniqueid", .leaf (str "d")),
        ("certs", .node [] [("", .leaf (str "c"))])])])])]

/-- The first load of `oldFormatFile` finds the client of the old format, and the next process finds it again in what
is saved then. -/
theorem state_file_round_trip_oldFormat :
    ∃ s₁, loadState textSsl (fun _ => str "g") (.boot (.tree oldFormatFile)) = .ok s₁ ∧
      s₁.namedDevices = [{ name := [], uuid := str "g", cert := str "c" }] ∧
      ∃ s₂, loadState textSsl (fun _ => str "h") (.boot (saveState s₁).file) = .ok s₂ ∧
        s₂.namedDevices = s₁.namedDevices := by
  obtain ⟨_, -, -, -, -, -, hmigrate⟩ := state_file_round_trip textSsl id
    (.boot (.tree oldFormatFile)) (rfl : _ = some oldFormatFile)
  have hload : ∃ s₁, loadState textSsl (fun _ => str "g") (.boot (.tree oldFormatFile)) = .ok s₁ ∧
      s₁.namedDevices = [{ name := [], uuid := str "g", cert := str "c" }] := ⟨_, rfl, rfl⟩
  obtain ⟨s₁, hs₁, hdev⟩ := hload
  obtain ⟨s₂, hs₂, -, hsame, -⟩ := hmigrate _ s₁ hs₁ (fun _ => str "h") (.boot .absent)
  exact ⟨s₁, hs₁, hdev, s₂, hs₂, hsame⟩

end MidnightSun.Nvhttp
