import MidnightSun.Lib.Crash
import MidnightSun.Lib.Run
import MidnightSun.Nlohmann.Json

/-!
# The preferences of the NVIDIA driver (src/platform/windows/nvprefs)

While Sunshine runs, OpenGL and Vulkan are presented through DXGI, which is a setting of the driver's base profile.
What it was before goes to an undo file first, so that it can be restored after Sunshine has been killed.

The calls of the driver and of the file system are replies from outside.  A session of the driver works on a copy of the
settings; nobody else changes them while one is loaded.
-/

namespace MidnightSun.NvPrefs

open Lib Lib.Crash Nlohmann Util

/-! ### The undo data -/

/-- `undo_data_t::data_t::opengl_swapchain_t`. -/
structure OpenglSwapchain where
  ourValue : UInt32
  undoValue : Option UInt32
  deriving DecidableEq

/-- `undo_data_t`. -/
structure UndoData where
  openglSwapchain : Option OpenglSwapchain := none
  deriving DecidableEq

/-- `merge`. -/
def UndoData.merge (data newer : UndoData) : UndoData :=
  match newer.openglSwapchain with
  | some swapchain => { data with openglSwapchain := some swapchain }
  | none => data

/-- The JSON library, and the constants of the driver. -/
structure Platform (F : Type) where
  /-- `json::parse`, which may throw -/
  parse : Str → Option (Json F)
  dumpFloat : F → Str
  castFloat : F → UInt32
  /-- `OGL_CPL_PREFER_DXPRESENT_PREFER_ENABLED` -/
  preferEnabled : UInt32
  /-- `PREFERRED_PSTATE_PREFER_MAX` -/
  preferMax : UInt32
  /-- the value of the setting while the base profile has none of its own -/
  predefined : Option UInt32

section Json

variable {F : Type}

def valueToJson : Option UInt32 → Json F
  | none => .null
  | some v => .integer v.toNat

/-- `to_json`. -/
def UndoData.toJson (data : UndoData) : Json F :=
  .object [(str "opengl_swapchain",
    match data.openglSwapchain with
    | none => .null
    | some swapchain =>
      .object [(str "our_value", .integer swapchain.ourValue.toNat),
        (str "undo_value", valueToJson swapchain.undoValue)])]

variable (p : Platform F)

/-- `undo_data_t::write`. -/
def UndoData.write (data : UndoData) : Str := data.toJson.dump p.dumpFloat

/-- `at`, which may throw. -/
def member (j : Json F) (key : Str) : Option (Json F) :=
  match j with
  | .object members => (members.find? fun m => m.1 = key).map Prod.snd
  | _ => none

/-- `get_to` a `uint32_t`. -/
def valueFromJson : Json F → Option UInt32
  | .integer n => some (UInt32.ofNat (n % 2 ^ 32).toNat)
  | .boolean b => some (if b then 1 else 0)
  | .float x => some (p.castFloat x)
  | _ => none

def swapchainFromJson (j : Json F) : Option OpenglSwapchain := do
  let ourValue ← valueFromJson p (← member j (str "our_value"))
  match ← member j (str "undo_value") with
  | .null => some { ourValue, undoValue := none }
  | undo => some { ourValue, undoValue := some (← valueFromJson p undo) }

/-- `from_json`. -/
def UndoData.fromJson (j : Json F) : Option UndoData := do
  match ← member j (str "opengl_swapchain") with
  | .null => some {}
  | swapchain => some { openglSwapchain := some (← swapchainFromJson p swapchain) }

/-- `undo_data_t::read`.  Nothing is to be undone if the text cannot be read. -/
def UndoData.read (text : Str) : UndoData := ((p.parse text).bind (UndoData.fromJson p)).getD {}

end Json

/-! ### The state -/

/-- The profile `SunshineStream`: whether it has the application, and its setting `PREFERRED_PSTATE`. -/
structure AppProfile where
  application : Bool := false
  pstate : Option UInt32 := none
  deriving DecidableEq

/-- The settings of the driver: `OGL_CPL_PREFER_DXPRESENT` of the base profile, and the application profile. -/
structure Settings where
  swapchain : Option UInt32 := none
  profile : Option AppProfile := none
  deriving DecidableEq

/-- `nvprefs_options`. -/
structure Options where
  openglVulkanOnDxgi : Bool := true
  sunshineHighPowerMode : Bool := true

/-- What a call replies.  `short n` is a success of `WriteFile` or `ReadFile` with `n` bytes, and a failure
elsewhere. -/
inductive Reply where
  | ok
  | fail
  | short (n : ℕ)
  deriving DecidableEq

structure Machine where
  /-- the settings that the driver has saved -/
  saved : Settings := {}
  /-- the bytes of `nvprefs_undo.json`, if there is one -/
  undoFile : Option Str := none
  /-- another process has the file open -/
  locked : Bool := false
  /-- what the user has chosen: the value that applications get without Sunshine -/
  user : Option UInt32 := none
  /-- an undo file was deleted though it was not restored from -/
  abandoned : Bool := false
  /-- whether Sunshine runs, and its `nvprefs_interface::impl` -/
  running : Bool := false
  loaded : Bool := false
  session : Option Settings := none
  undoData : Option UndoData := none
  /-- `pimpl->undo_file`, with or without a handle -/
  handle : Option Bool := none

/-- The process is gone, and with it what is not saved. -/
def Machine.kill (s : Machine) : Machine :=
  { s with running := false, loaded := false, session := none, undoData := none, handle := none }

/-- What the session holds is saved. -/
def Machine.save (s : Machine) : Machine := { s with saved := s.session.getD s.saved }

abbrev NvProg := Prog Machine Reply

/-- A call that may fail. -/
def attempt (f : Machine → Machine) : NvProg Bool :=
  Prog.call fun e s => if e = .ok then (true, f s) else (false, s)

def onSession (f : Settings → Settings) (s : Machine) : Machine := { s with session := s.session.map f }

def setSwapchain (value : Option UInt32) (s : Settings) : Settings := { s with swapchain := value }

def setProfile (profile : Option AppProfile) (s : Settings) : Settings := { s with profile }

/-! ### Driver settings -/

section Driver

variable {F : Type} (p : Platform F)

/-- The value that applications get. -/
def Platform.effective (value : Option UInt32) : Option UInt32 := value <|> p.predefined

/-- `load_settings`. -/
def loadSettings : NvProg Bool := do
  if (← Prog.gets Machine.session).isNone then return false
  if ← attempt fun s => { s with session := some s.saved } then return true
  Prog.modify fun s => { s with session := none }
  return false

/-- `driver_settings_t::init`. -/
def init : NvProg Bool := do
  if (← Prog.gets Machine.session).isSome then return true
  if !(← attempt id) then return false
  if !(← attempt fun s => { s with session := some {} }) then return false
  loadSettings

/-- `save_settings`. -/
def saveSettings : NvProg Bool := do
  if (← Prog.gets Machine.session).isNone then return false
  attempt Machine.save

/-- The value of a setting, if there is one, and whether it is the profile's own. -/
def Platform.lookup (own : Option UInt32) : Option (UInt32 × Bool) :=
  match own with
  | some v => some (v, true)
  | none => p.predefined.map fun v => (v, false)

/-- `NvAPI_DRS_GetSetting` for the base profile, which may fail. -/
def getSwapchain : NvProg (Option (Option (UInt32 × Bool))) :=
  Prog.call fun e s => (if e = .ok then some (p.lookup (s.session.bind Settings.swapchain)) else none, s)

/-- `restore_global_profile_to_undo`. -/
def restoreGlobalProfileToUndo (data : UndoData) : NvProg Bool := do
  if (← Prog.gets Machine.session).isNone then return false
  match data.openglSwapchain with
  | none => return true
  | some swapchain =>
    if !(← attempt id) then return false
    match ← getSwapchain p with
    | none => return false
    | some found =>
      if found = some (swapchain.ourValue, true) then attempt (onSession (setSwapchain swapchain.undoValue))
      else return true

/-- `check_and_modify_global_profile`. -/
def checkAndModifyGlobalProfile (opts : Options) : NvProg (Bool × Option UndoData) := do
  if (← Prog.gets Machine.session).isNone then return (false, none)
  if !opts.openglVulkanOnDxgi then return (true, none)
  if !(← attempt id) then return (false, none)
  match ← getSwapchain p with
  | none => return (false, none)
  | some found =>
    if found.map Prod.fst ≠ some p.preferEnabled then
      let data : UndoData :=
        { openglSwapchain := some { ourValue := p.preferEnabled, undoValue := found.map Prod.fst } }
      return (← attempt (onSession (setSwapchain (some p.preferEnabled))), some data)
    else return (true, none)

/-- Find the application profile, or make it: whether there is one then, and whether it was made. -/
def findOrCreateProfile : NvProg (Bool × Bool) := do
  let found ← Prog.call fun e s => (e == .ok && (s.session.bind Settings.profile).isSome, s)
  if found then return (true, false)
  let created ← Prog.call fun e s =>
    if e = .ok ∧ (s.session.bind Settings.profile).isNone then (true, onSession (setProfile (some {})) s)
    else (false, s)
  return (created, created)

/-- Find the application of the profile, or add it. -/
def findOrCreateApplication : NvProg (Bool × Bool) := do
  let profile ← Prog.gets fun s => (s.session.bind Settings.profile).getD {}
  let found ← Prog.call fun e s => (e == .ok && profile.application, s)
  if found then return (true, false)
  let created ← attempt (onSession (setProfile (some { profile with application := true })))
  return (created, created)

/-- `check_and_modify_application_profile`: whether it succeeds, and whether the profile was modified. -/
def checkAndModifyApplicationProfile (opts : Options) : NvProg (Bool × Bool) := do
  if (← Prog.gets Machine.session).isNone then return (false, false)
  let (found, created) ← findOrCreateProfile
  if !found then return (false, false)
  let (found, added) ← findOrCreateApplication
  if !found then return (false, created)
  let profile ← Prog.gets fun s => (s.session.bind Settings.profile).getD {}
  -- the profile's own value, if the driver tells
  let own ← Prog.call fun e s => (if e = .ok then profile.pstate else none, s)
  if !opts.sunshineHighPowerMode then
    if own.isSome then
      let deleted ← attempt (onSession (setProfile (some { profile with pstate := none })))
      return (deleted, created || added || deleted)
    else return (true, created || added)
  else if own ≠ some p.preferMax then
    let set ← attempt (onSession (setProfile (some { profile with pstate := some p.preferMax })))
    return (set, created || added || set)
  else return (true, created || added)

end Driver

/-! ### The undo file -/

section UndoFile

variable {F : Type} (p : Platform F)

/-- `open_existing_file`: whether it was opened, and otherwise whether access was denied. -/
def openExistingFile : NvProg (Bool × Bool) :=
  Prog.call fun e s =>
    if s.locked ∨ s.handle = some true ∨ e ≠ .ok then ((false, true), s) else ((s.undoFile.isSome, false), s)

/-- `read_undo_data` from an open file. -/
def readUndoData : NvProg (Option UndoData) := do
  let size ← Prog.call fun e s => (if e = .ok then some (s.undoFile.getD []).length else none, s)
  match size with
  | none => return none
  | some n =>
    if n > 1024 then return none
    let text ← Prog.call fun e s => (if e = .ok then s.undoFile else none, s)
    return text.map (UndoData.read p)

/-- `create_new_file`. -/
def createNewFile : NvProg Bool :=
  Prog.call fun e s =>
    if e = .ok ∧ s.undoFile = none then (true, { s with undoFile := some [], handle := some true })
    else (false, { s with handle := none })

/-- `delete_file` of the file that this process has created. -/
def deleteOwnFile : NvProg Bool := do
  if (← Prog.gets Machine.handle) = some true then attempt fun s => { s with undoFile := none, handle := some false }
  else return false

/-- `WriteFile` of the whole text. -/
def writeText (text : Str) : NvProg Bool :=
  Prog.call fun e s =>
    match e with
    | .ok => (true, { s with undoFile := some text })
    | .short n => (text.length ≤ n, { s with undoFile := some (text.take n) })
    | .fail => (false, s)

/-- `write_undo_data`. -/
def writeUndoData (data : UndoData) : NvProg Bool := do
  if (← Prog.gets Machine.handle) ≠ some true then return false
  if !(← attempt id) then return false
  if !(← attempt fun s => { s with undoFile := some [] }) then return false
  if !(← writeText (data.write p)) then return false
  -- a failure to flush is only logged
  let _ ← attempt id
  return true

end UndoFile

/-! ### The interface -/

section Interface

variable {F : Type} (p : Platform F)

/-- `load`. -/
def load : NvProg Bool := do
  if ← Prog.gets Machine.loaded then return true
  if !(← attempt id) then return false
  let loaded ← init
  Prog.modify fun s => { s with loaded }
  return loaded

/-- `unload`. -/
def unload : NvProg Unit :=
  Prog.modify fun s => if s.loaded then { s with session := none, loaded := false } else s

/-- The file is deleted, whether it was restored from or not. -/
def deleteUndoFile (restored : Bool) : NvProg Bool :=
  attempt fun s => { s with undoFile := none, abandoned := s.abandoned || !restored }

/-- The settings are restored from an open file, and saved. -/
def restoreFromFile : NvProg Bool := do
  match ← readUndoData p with
  | none => return false
  | some data =>
    if !(← restoreGlobalProfileToUndo p data) then return false
    saveSettings

/-- `restore_from_and_delete_undo_file_if_exists`. -/
def restoreFromAndDeleteUndoFileIfExists : NvProg Bool := do
  if !(← Prog.gets Machine.loaded) then return false
  let (opened, accessDenied) ← openExistingFile
  if opened then
    let restored ← restoreFromFile p
    deleteUndoFile restored
  else return !accessDenied

/-- `modify_application_profile`. -/
def modifyApplicationProfile (opts : Options) : NvProg Bool := do
  if !(← Prog.gets Machine.loaded) then return false
  let (done, modified) ← checkAndModifyApplicationProfile p opts
  if !done then return false
  if modified then saveSettings else return true

/-- The undo file is created if it hasn't been. -/
def ensureUndoFile : NvProg Bool := do
  if (← Prog.gets Machine.handle).isSome then return true
  -- the folder
  if !(← attempt id) then return false
  createNewFile

/-- `make_undo_and_commit` from `modify_global_profile`. -/
def makeUndoAndCommit (data : UndoData) : NvProg Bool := do
  if !(← ensureUndoFile) then return false
  let merged ← Prog.gets fun s =>
    match s.undoData with
    | some old => old.merge data
    | none => data
  Prog.modify fun s => { s with undoData := some merged }
  if !(← writeUndoData p merged) then
    let _ ← deleteOwnFile
    return false
  saveSettings

/-- `modify_global_profile`. -/
def modifyGlobalProfile (opts : Options) : NvProg Bool := do
  if !(← Prog.gets Machine.loaded) then return false
  let (done, data) ← checkAndModifyGlobalProfile p opts
  if !done then return false
  match data with
  | none => return true
  | some data =>
    if ← makeUndoAndCommit p data then return true
    let _ ← loadSettings
    return false

/-- `restore_global_profile`. -/
def restoreGlobalProfile : NvProg Bool := do
  match ← Prog.gets fun s => if s.loaded ∧ s.handle.isSome then s.undoData else none with
  | none => return false
  | some data =>
    if !(← restoreGlobalProfileToUndo p data) then return false
    if !(← saveSettings) then return false
    if !(← deleteOwnFile) then return false
    Prog.modify fun s => { s with undoData := none, handle := none }
    return true

/-- A file of this process is none of an earlier one. -/
def restoreUnlessOwning : NvProg Bool := do
  if (← Prog.gets Machine.handle).isSome then return true
  restoreFromAndDeleteUndoFileIfExists p

/-- The start of `main`, and `streaming_will_start` from misc.cpp. -/
def prepare (opts : Options) : NvProg Unit := do
  if !(← load) then return
  let _ ← restoreUnlessOwning p
  let _ ← modifyApplicationProfile p opts
  let _ ← modifyGlobalProfile p opts
  unload

def restoreIfOwning : NvProg Bool := do
  if (← Prog.gets Machine.handle).isNone then return false
  if !(← load) then return false
  restoreGlobalProfile p

/-- The end of `main`; the destructor does the same. -/
def cleanUp : NvProg Unit := do
  let _ ← restoreIfOwning p
  unload

/-- What is left to do when Sunshine exits. -/
def leave (atEnd : Bool) : NvProg Unit :=
  if atEnd then do
    cleanUp p
    cleanUp p
  else cleanUp p

/-- `restore_nvprefs_undo` from entry_handler.cpp. -/
def restoreNvprefsUndo : NvProg Unit := do
  if !(← load) then return
  let _ ← restoreFromAndDeleteUndoFileIfExists p
  unload

end Interface

/-! ### The system -/

/-- What happens to a machine.  A program is killed when its replies end. -/
inductive Op where
  | start (opts : Options) (replies : List Reply)
  | streamingWillStart (opts : Options) (replies : List Reply)
  /-- `main` returns, or `exit` is called -/
  | exit (atEnd : Bool) (replies : List Reply)
  | kill
  /-- the command `--restore-nvprefs-undo`, which is a process of its own -/
  | restoreUndo (replies : List Reply)
  /-- the setting is changed by the user -/
  | choose (value : Option UInt32)

namespace Machine

variable {F : Type} (p : Platform F)

/-- The state that a program of Sunshine leaves. -/
def after (s : Machine) (prog : NvProg Unit) (replies : List Reply) : Machine :=
  match prog replies s with
  | .done _ _ t => t
  | .killed t => t.kill

/-- The program of another process. -/
def aside (s : Machine) (prog : NvProg Unit) (replies : List Reply) : Machine :=
  let t := (prog replies { s.kill with locked := s.handle = some true }).state
  { t with
    locked := s.locked
    abandoned := s.abandoned || t.abandoned
    running := s.running
    loaded := s.loaded
    session := s.session
    undoData := s.undoData
    handle := s.handle }

def step (s : Machine) : Op → Option Machine
  | .start opts replies =>
    if s.running then none else some ({ s.kill with running := true }.after (prepare p opts) replies)
  | .streamingWillStart opts replies => if s.running then some (s.after (prepare p opts) replies) else none
  | .exit atEnd replies =>
    if s.running then some (s.after (leave p atEnd) replies).kill else none
  | .kill => if s.running then some s.kill else none
  | .restoreUndo replies => some (s.aside (restoreNvprefsUndo p) replies)
  | .choose value =>
    some { s with saved := setSwapchain value s.saved, user := p.effective value }

end Machine

end MidnightSun.NvPrefs
