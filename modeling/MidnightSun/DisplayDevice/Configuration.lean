import MidnightSun.DisplayDevice.Parse

/-!
# The display configuration of a session (src/display_device.cpp)

`parse_configuration` derives a resolution and a refresh rate from the settings and the launch session, and then looks
through a list of remapping entries for one that replaces them.
-/

namespace MidnightSun.DisplayDevice

/-- What is not in this repository: the conversion of a power of ten that does not fit, and the `==` of the display
library. -/
structure Library where
  undefinedCast : ℕ → UInt32
  sameResolution : Resolution → Resolution → Bool
  sameRate : Rational → Rational → Bool

/-- The `==` of the display library compares all members. -/
structure Library.Strict (lib : Library) : Prop where
  resolution : ∀ a b, lib.sameResolution a b = true ↔ a = b
  rate : ∀ a b, lib.sameRate a b = true ↔ a = b

/-! ### Settings and session -/

/-- `config_option_e`. -/
inductive ConfigOption where
  | disabled
  | verifyOnly
  | ensureActive
  | ensurePrimary
  | ensureOnlyDisplay
  deriving DecidableEq

/-- `resolution_option_e`. -/
inductive ResolutionOption where
  | disabled
  | automatic
  | manual
  deriving DecidableEq

/-- `refresh_rate_option_e`. -/
inductive RefreshRateOption where
  | disabled
  | automatic
  | manual
  deriving DecidableEq

/-- `hdr_option_e`. -/
inductive HdrOption where
  | disabled
  | automatic
  deriving DecidableEq

/-- `mode_remapping_entry_t`. -/
structure ModeRemappingEntry where
  requestedResolution : Str := []
  requestedFps : Str := []
  finalResolution : Str := []
  finalRefreshRate : Str := []

/-- `mode_remapping_t`. -/
structure ModeRemapping where
  mixed : List ModeRemappingEntry := []
  resolutionOnly : List ModeRemappingEntry := []
  refreshRateOnly : List ModeRemappingEntry := []

/-- `video_t`, as far as the display configuration depends on it. -/
structure VideoConfig where
  outputName : Str
  configurationOption : ConfigOption
  resolutionOption : ResolutionOption
  manualResolution : Str := []
  refreshRateOption : RefreshRateOption
  manualRefreshRate : Str := []
  hdrOption : HdrOption := .automatic
  modeRemapping : ModeRemapping := {}

/-- `launch_session_t`, as far as the display configuration depends on it. -/
structure LaunchSession where
  width : Int32
  height : Int32
  fps : Int32
  enableHdr : Bool
  enableSops : Bool

inductive DevicePreparation where
  | verifyOnly
  | ensureActive
  | ensurePrimary
  | ensureOnlyDisplay
  deriving DecidableEq

inductive HdrState where
  | disabled
  | enabled
  deriving DecidableEq

/-- `SingleDisplayConfiguration`.  No floating point number is ever stored as its refresh rate. -/
structure SingleDisplayConfiguration where
  deviceId : Str
  devicePrep : DevicePreparation
  resolution : Option Resolution := none
  refreshRate : Option Rational := none
  hdrState : Option HdrState
  deriving DecidableEq

/-- What `parse_configuration` returns. -/
inductive Configuration where
  | failedToParse
  | configurationDisabled
  | config (config : SingleDisplayConfiguration)
  deriving DecidableEq

/-! ### The options -/

def parseDevicePrepOption (video : VideoConfig) : Option DevicePreparation :=
  match video.configurationOption with
  | .verifyOnly => some .verifyOnly
  | .ensureActive => some .ensureActive
  | .ensurePrimary => some .ensurePrimary
  | .ensureOnlyDisplay => some .ensureOnlyDisplay
  | .disabled => none

/-- `parse_resolution_option`; `none` is `false`. -/
def parseResolutionOption (video : VideoConfig) (session : LaunchSession) (config : SingleDisplayConfiguration) :
    Option SingleDisplayConfiguration :=
  match video.resolutionOption with
  | .automatic =>
    if session.enableSops = false then some config
    else if 0 ≤ session.width ∧ 0 ≤ session.height then
      some { config with resolution := some ⟨session.width.toUInt32, session.height.toUInt32⟩ }
    else none
  | .manual =>
    if session.enableSops = false then some config
    else
      match parseResolutionString video.manualResolution config.resolution with
      | (false, _) => none
      | (true, none) => none
      | (true, some resolution) => some { config with resolution := some resolution }
  | .disabled => some config

/-- `parse_refresh_rate_option`; `none` is `false`. -/
def parseRefreshRateOption (lib : Library) (video : VideoConfig) (session : LaunchSession)
    (config : SingleDisplayConfiguration) : Option SingleDisplayConfiguration :=
  match video.refreshRateOption with
  | .automatic =>
    if 0 ≤ session.fps then some { config with refreshRate := some ⟨session.fps.toUInt32, 1⟩ }
    else none
  | .manual =>
    match parseRefreshRateString lib.undefinedCast true video.manualRefreshRate config.refreshRate with
    | (false, _) => none
    | (true, none) => none
    | (true, some rate) => some { config with refreshRate := some rate }
  | .disabled => some config

def parseHdrOption (video : VideoConfig) (session : LaunchSession) : Option HdrState :=
  match video.hdrOption with
  | .automatic => some (if session.enableHdr then .enabled else .disabled)
  | .disabled => none

/-! ### Remapping -/

/-- `remapping_type_e`. -/
inductive RemappingType where
  | mixed
  | resolutionOnly
  | refreshRateOnly
  deriving DecidableEq

def determineRemappingType (video : VideoConfig) : Option RemappingType :=
  let autoResolution := video.resolutionOption = .automatic
  let autoRefreshRate := video.refreshRateOption = .automatic
  if autoResolution ∧ autoRefreshRate then some .mixed
  else if autoResolution then some .resolutionOnly
  else if autoRefreshRate then some .refreshRateOnly
  else none

/-- `parsed_remapping_entry_t`. -/
structure ParsedRemappingEntry where
  requestedResolution : Option Resolution := none
  requestedFps : Option Rational := none
  finalResolution : Option Resolution := none
  finalRefreshRate : Option Rational := none
  deriving DecidableEq

def isResolutionMapped (type : RemappingType) : Bool := type = .resolutionOnly ∨ type = .mixed

def isFpsMapped (type : RemappingType) : Bool := type = .refreshRateOnly ∨ type = .mixed

/-- A field of an entry that is parsed only if it is mapped. -/
def parseIfMapped {α : Type} (isMapped : Bool) (parse : Option α → Bool × Option α) : Option (Option α) :=
  if isMapped then
    match parse none with
    | (true, value) => some value
    | (false, _) => none
  else some none

def parseRemappingEntry (lib : Library) (entry : ModeRemappingEntry) (type : RemappingType) :
    Option ParsedRemappingEntry := do
  let requestedResolution ← parseIfMapped (isResolutionMapped type) (parseResolutionString entry.requestedResolution)
  let finalResolution ← parseIfMapped (isResolutionMapped type) (parseResolutionString entry.finalResolution)
  let requestedFps ← parseIfMapped (isFpsMapped type)
    (parseRefreshRateString lib.undefinedCast false entry.requestedFps)
  let finalRefreshRate ←
    parseIfMapped (isFpsMapped type) (parseRefreshRateString lib.undefinedCast true entry.finalRefreshRate)
  return { requestedResolution, requestedFps, finalResolution, finalRefreshRate }

/-- A value that an entry requests is another one than the configuration has. -/
def differs {α : Type} (same : α → α → Bool) (requested configured : Option α) : Bool :=
  match requested, configured with
  | none, _ => false
  | some _, none => true
  | some a, some b => !same a b

/-- The loop over the entries; `none` is `false`. -/
def remapEntries (lib : Library) (session : LaunchSession) (type : RemappingType)
    (config : SingleDisplayConfiguration) :
    List ModeRemappingEntry → Option SingleDisplayConfiguration
  | [] => some config
  | entry :: rest =>
    match parseRemappingEntry lib entry type with
    | none => none
    | some parsed =>
      if parsed.finalResolution = none ∧ parsed.finalRefreshRate = none then none
      else if session.enableSops = false ∧ (parsed.requestedResolution.isSome ∨ parsed.finalResolution.isSome) then
        remapEntries lib session type config rest
      else if differs lib.sameResolution parsed.requestedResolution config.resolution then
        remapEntries lib session type config rest
      else if differs lib.sameRate parsed.requestedFps config.refreshRate then
        remapEntries lib session type config rest
      else
        some { config with
          resolution := parsed.finalResolution.or config.resolution
          refreshRate := parsed.finalRefreshRate.or config.refreshRate }

def remappingList (video : VideoConfig) (type : RemappingType) : List ModeRemappingEntry :=
  match type with
  | .resolutionOnly => video.modeRemapping.resolutionOnly
  | .refreshRateOnly => video.modeRemapping.refreshRateOnly
  | .mixed => video.modeRemapping.mixed

def remapDisplayModeIfNeeded (lib : Library) (video : VideoConfig) (session : LaunchSession)
    (config : SingleDisplayConfiguration) : Option SingleDisplayConfiguration :=
  match determineRemappingType video with
  | none => some config
  | some type => remapEntries lib session type config (remappingList video type)

def parseConfiguration (lib : Library) (video : VideoConfig) (session : LaunchSession) : Configuration :=
  match parseDevicePrepOption video with
  | none => .configurationDisabled
  | some devicePrep =>
    let config : SingleDisplayConfiguration :=
      { deviceId := video.outputName, devicePrep, hdrState := parseHdrOption video session }
    match parseResolutionOption video session config with
    | none => .failedToParse
    | some config =>
      match parseRefreshRateOption lib video session config with
      | none => .failedToParse
      | some config =>
        match remapDisplayModeIfNeeded lib video session config with
        | none => .failedToParse
        | some config => .config config

/-! ### What a session gets -/

/-- A resolution and a refresh rate, or none to leave as they are. -/
structure Mode where
  resolution : Option Resolution
  refreshRate : Option Rational

/-- The resolution that the settings and the session ask for. -/
inductive DerivedResolution (video : VideoConfig) (session : LaunchSession) : Option Resolution → Prop
  | disabled : video.resolutionOption = .disabled → DerivedResolution video session none
  | optOut : session.enableSops = false → DerivedResolution video session none
  | automatic {resolution : Resolution} : video.resolutionOption = .automatic → session.enableSops = true →
      resolution.width.toNat = session.width.toInt → resolution.height.toNat = session.height.toInt →
      DerivedResolution video session (some resolution)
  | manual {resolution : Resolution} : video.resolutionOption = .manual → session.enableSops = true →
      parseResolutionString video.manualResolution none = (true, some resolution) →
      DerivedResolution video session (some resolution)

/-- The refresh rate that the settings and the session ask for. -/
inductive DerivedRefreshRate (lib : Library) (video : VideoConfig) (session : LaunchSession) : Option Rational → Prop
  | disabled : video.refreshRateOption = .disabled → DerivedRefreshRate lib video session none
  | automatic {numerator : UInt32} : video.refreshRateOption = .automatic → numerator.toNat = session.fps.toInt →
      DerivedRefreshRate lib video session (some ⟨numerator, 1⟩)
  | manual {rate : Rational} : video.refreshRateOption = .manual →
      parseRefreshRateString lib.undefinedCast true video.manualRefreshRate none = (true, some rate) →
      DerivedRefreshRate lib video session (some rate)

/-- The mode before any remapping. -/
def Derived (lib : Library) (video : VideoConfig) (session : LaunchSession) (mode : Mode) : Prop :=
  DerivedResolution video session mode.resolution ∧ DerivedRefreshRate lib video session mode.refreshRate

/-- A mapped field has the value that its text reads as; one that is not mapped has none. -/
def FieldReads {α : Type} (isMapped : Bool) (parse : Option α → Bool × Option α) (value : Option α) : Prop :=
  if isMapped then parse none = (true, value) else value = none

/-- An entry reads as four fields, at least one of which is a final value. -/
structure WellFormed (lib : Library) (type : RemappingType) (entry : ModeRemappingEntry)
    (parsed : ParsedRemappingEntry) : Prop where
  requestedResolution : FieldReads (isResolutionMapped type) (parseResolutionString entry.requestedResolution)
    parsed.requestedResolution
  finalResolution : FieldReads (isResolutionMapped type) (parseResolutionString entry.finalResolution)
    parsed.finalResolution
  requestedFps : FieldReads (isFpsMapped type) (parseRefreshRateString lib.undefinedCast false entry.requestedFps)
    parsed.requestedFps
  finalRefreshRate : FieldReads (isFpsMapped type)
    (parseRefreshRateString lib.undefinedCast true entry.finalRefreshRate) parsed.finalRefreshRate
  final : parsed.finalResolution ≠ none ∨ parsed.finalRefreshRate ≠ none

/-- A client that opts out permits no entry about resolutions. -/
def Permitted (session : LaunchSession) (parsed : ParsedRemappingEntry) : Prop :=
  session.enableSops = true ∨ parsed.requestedResolution = none ∧ parsed.finalResolution = none

/-- What an entry requests is what the mode has. -/
def Requests (parsed : ParsedRemappingEntry) (mode : Mode) : Prop :=
  (∀ resolution ∈ parsed.requestedResolution, mode.resolution = some resolution) ∧
    ∀ rate ∈ parsed.requestedFps, mode.refreshRate = some rate

/-- The final values of an entry, over those of a mode. -/
def ParsedRemappingEntry.over (parsed : ParsedRemappingEntry) (mode : Mode) : Mode where
  resolution := parsed.finalResolution.or mode.resolution
  refreshRate := parsed.finalRefreshRate.or mode.refreshRate

section Entries

variable (lib : Library) (session : LaunchSession) (type : RemappingType) (mode : Mode)

def Applies (entry : ModeRemappingEntry) (result : Mode) : Prop :=
  ∃ parsed, WellFormed lib type entry parsed ∧ Permitted session parsed ∧ Requests parsed mode ∧
    result = parsed.over mode

def Skipped (entry : ModeRemappingEntry) : Prop :=
  ∃ parsed, WellFormed lib type entry parsed ∧ ¬(Permitted session parsed ∧ Requests parsed mode)

def Malformed (entry : ModeRemappingEntry) : Prop := ∀ parsed, ¬WellFormed lib type entry parsed

/-- The entry is the first one that is not skipped. -/
def Decides (entries : List ModeRemappingEntry) (entry : ModeRemappingEntry) : Prop :=
  ∃ before after, entries = before ++ entry :: after ∧ ∀ e ∈ before, Skipped lib session type mode e

/-- The first entry that is not skipped applies, or all are skipped and the mode stays. -/
def RemappedBy (entries : List ModeRemappingEntry) (result : Mode) : Prop :=
  (∃ entry, Decides lib session type mode entries entry ∧ Applies lib session type mode entry result) ∨
    (∀ e ∈ entries, Skipped lib session type mode e) ∧ result = mode

end Entries

/-- The list of entries that counts, with its type. -/
def applicable (video : VideoConfig) : Option (RemappingType × List ModeRemappingEntry) :=
  match video.resolutionOption, video.refreshRateOption with
  | .automatic, .automatic => some (.mixed, video.modeRemapping.mixed)
  | .automatic, _ => some (.resolutionOnly, video.modeRemapping.resolutionOnly)
  | _, .automatic => some (.refreshRateOnly, video.modeRemapping.refreshRateOnly)
  | _, _ => none

def Remapped (lib : Library) (video : VideoConfig) (session : LaunchSession) (mode result : Mode) : Prop :=
  match applicable video with
  | none => result = mode
  | some (type, entries) => RemappedBy lib session type mode entries result

def MeetsMalformed (lib : Library) (video : VideoConfig) (session : LaunchSession) (mode : Mode) : Prop :=
  match applicable video with
  | none => False
  | some (type, entries) => ∃ entry, Decides lib session type mode entries entry ∧ Malformed lib type entry

/-! ### Reading an entry -/

lemma parseIfMapped_eq_some_iff {α : Type} {isMapped : Bool} {parse : Option α → Bool × Option α} {value : Option α} :
    parseIfMapped isMapped parse = some value ↔ FieldReads isMapped parse value := by
  cases isMapped with
  | false => simp [parseIfMapped, FieldReads, eq_comm]
  | true =>
    rcases hparse : parse none with ⟨_ | _, v⟩ <;> simp [parseIfMapped, FieldReads, hparse]

lemma parseRemappingEntry_eq_some_iff {lib : Library} {type : RemappingType} {entry : ModeRemappingEntry}
    {parsed : ParsedRemappingEntry} :
    parseRemappingEntry lib entry type = some parsed ↔
      FieldReads (isResolutionMapped type) (parseResolutionString entry.requestedResolution)
        parsed.requestedResolution ∧
      FieldReads (isResolutionMapped type) (parseResolutionString entry.finalResolution) parsed.finalResolution ∧
      FieldReads (isFpsMapped type) (parseRefreshRateString lib.undefinedCast false entry.requestedFps)
        parsed.requestedFps ∧
      FieldReads (isFpsMapped type) (parseRefreshRateString lib.undefinedCast true entry.finalRefreshRate)
        parsed.finalRefreshRate := by
  simp only [← parseIfMapped_eq_some_iff, parseRemappingEntry, Option.bind_eq_bind, Option.bind_eq_some_iff,
    Option.pure_def, Option.some.injEq]
  constructor
  · rintro ⟨requestedResolution, h₁, finalResolution, h₂, requestedFps, h₃, finalRefreshRate, h₄, rfl⟩
    exact ⟨h₁, h₂, h₃, h₄⟩
  · rintro ⟨h₁, h₂, h₃, h₄⟩
    exact ⟨_, h₁, _, h₂, _, h₃, _, h₄, rfl⟩

lemma wellFormed_iff {lib : Library} {type : RemappingType} {entry : ModeRemappingEntry}
    {parsed : ParsedRemappingEntry} :
    WellFormed lib type entry parsed ↔ parseRemappingEntry lib entry type = some parsed ∧
      ¬(parsed.finalResolution = none ∧ parsed.finalRefreshRate = none) := by
  rw [parseRemappingEntry_eq_some_iff, not_and_or]
  constructor
  · rintro ⟨h₁, h₂, h₃, h₄, hfinal⟩
    exact ⟨⟨h₁, h₂, h₃, h₄⟩, hfinal⟩
  · rintro ⟨⟨h₁, h₂, h₃, h₄⟩, hfinal⟩
    exact ⟨h₁, h₂, h₃, h₄, hfinal⟩

lemma differs_eq_false_iff {α : Type} {same : α → α → Bool} (hsame : ∀ a b, same a b = true ↔ a = b)
    {requested configured : Option α} :
    differs same requested configured = false ↔ ∀ a ∈ requested, configured = some a := by
  rcases requested with _ | a <;> rcases configured with _ | b
  · simp [differs]
  · simp [differs]
  · simp [differs]
  · simp only [differs, Bool.not_eq_false', hsame, Option.mem_some_iff, Option.some.injEq, forall_eq']
    exact eq_comm

lemma permitted_iff {session : LaunchSession} {parsed : ParsedRemappingEntry} :
    Permitted session parsed ↔
      ¬(session.enableSops = false ∧ (parsed.requestedResolution.isSome ∨ parsed.finalResolution.isSome)) := by
  simp [Permitted, or_iff_not_imp_left]

/-! ### The loop over the entries -/

/-- The mode of a configuration. -/
def SingleDisplayConfiguration.mode (config : SingleDisplayConfiguration) : Mode :=
  ⟨config.resolution, config.refreshRate⟩

def SingleDisplayConfiguration.setMode (config : SingleDisplayConfiguration) (mode : Mode) :
    SingleDisplayConfiguration :=
  { config with resolution := mode.resolution, refreshRate := mode.refreshRate }

section Loop

variable {lib : Library} {session : LaunchSession} {type : RemappingType} {config : SingleDisplayConfiguration}
  {entry : ModeRemappingEntry} {rest entries : List ModeRemappingEntry}

/-- What one round of the loop does. -/
lemma remapEntries_cons (hlib : lib.Strict) (entry : ModeRemappingEntry) (rest : List ModeRemappingEntry) :
    Malformed lib type entry ∧ remapEntries lib session type config (entry :: rest) = none ∨
      Skipped lib session type config.mode entry ∧
        remapEntries lib session type config (entry :: rest) = remapEntries lib session type config rest ∨
      ∃ result, Applies lib session type config.mode entry result ∧
        remapEntries lib session type config (entry :: rest) = some (config.setMode result) := by
  rw [remapEntries]
  rcases hparsed : parseRemappingEntry lib entry type with _ | parsed
  · refine Or.inl ⟨fun parsed hwell => ?_, rfl⟩
    rw [(wellFormed_iff.mp hwell).1] at hparsed
    cases hparsed
  · dsimp only
    split_ifs with hfinal hpermitted hresolution hrate
    · refine Or.inl ⟨fun parsed' hwell => ?_, rfl⟩
      obtain ⟨hparsed', hnot⟩ := wellFormed_iff.mp hwell
      obtain rfl : parsed = parsed' := Option.some.inj (hparsed.symm.trans hparsed')
      exact hnot hfinal
    · refine Or.inr (Or.inl ⟨⟨parsed, wellFormed_iff.mpr ⟨hparsed, hfinal⟩, ?_⟩, rfl⟩)
      exact fun h => permitted_iff.mp h.1 hpermitted
    · refine Or.inr (Or.inl ⟨⟨parsed, wellFormed_iff.mpr ⟨hparsed, hfinal⟩, ?_⟩, rfl⟩)
      exact fun h => Bool.eq_false_iff.mp ((differs_eq_false_iff hlib.resolution).mpr h.2.1) hresolution
    · refine Or.inr (Or.inl ⟨⟨parsed, wellFormed_iff.mpr ⟨hparsed, hfinal⟩, ?_⟩, rfl⟩)
      exact fun h => Bool.eq_false_iff.mp ((differs_eq_false_iff hlib.rate).mpr h.2.2) hrate
    · refine Or.inr (Or.inr ⟨parsed.over config.mode, ⟨parsed, wellFormed_iff.mpr ⟨hparsed, hfinal⟩,
        permitted_iff.mpr hpermitted, ⟨?_, ?_⟩, rfl⟩, rfl⟩)
      · exact (differs_eq_false_iff hlib.resolution).mp (Bool.eq_false_iff.mpr hresolution)
      · exact (differs_eq_false_iff hlib.rate).mp (Bool.eq_false_iff.mpr hrate)

lemma WellFormed.unique {parsed parsed' : ParsedRemappingEntry} (h : WellFormed lib type entry parsed)
    (h' : WellFormed lib type entry parsed') : parsed = parsed' :=
  Option.some.inj ((wellFormed_iff.mp h).1.symm.trans (wellFormed_iff.mp h').1)

lemma Applies.unique {mode result result' : Mode} (h : Applies lib session type mode entry result)
    (h' : Applies lib session type mode entry result') : result = result' := by
  obtain ⟨parsed, hwell, -, -, rfl⟩ := h
  obtain ⟨parsed', hwell', -, -, rfl⟩ := h'
  rw [hwell.unique hwell']

lemma Applies.not_skipped {mode result : Mode} (h : Applies lib session type mode entry result) :
    ¬Skipped lib session type mode entry := by
  obtain ⟨parsed, hwell, hpermitted, hrequests, -⟩ := h
  rintro ⟨parsed', hwell', hnot⟩
  rw [← hwell.unique hwell'] at hnot
  exact hnot ⟨hpermitted, hrequests⟩

lemma Malformed.not_skipped {mode : Mode} (h : Malformed lib type entry) : ¬Skipped lib session type mode entry :=
  fun ⟨parsed, hwell, _⟩ => h parsed hwell

lemma Malformed.not_applies {mode result : Mode} (h : Malformed lib type entry) :
    ¬Applies lib session type mode entry result :=
  fun ⟨parsed, hwell, _⟩ => h parsed hwell

lemma decides_cons {mode : Mode} {e : ModeRemappingEntry} : Decides lib session type mode (entry :: rest) e ↔
    entry = e ∨ Skipped lib session type mode entry ∧ Decides lib session type mode rest e := by
  constructor
  · rintro ⟨_ | ⟨_, before⟩, after, heq, hbefore⟩
    · exact Or.inl (List.cons.inj heq).1
    · obtain ⟨rfl, rfl⟩ := List.cons.inj heq
      rw [List.forall_mem_cons] at hbefore
      exact Or.inr ⟨hbefore.1, before, after, rfl, hbefore.2⟩
  · rintro (rfl | ⟨hskipped, before, after, rfl, hbefore⟩)
    · exact ⟨[], rest, rfl, List.forall_mem_nil _⟩
    · exact ⟨entry :: before, after, rfl, List.forall_mem_cons.mpr ⟨hskipped, hbefore⟩⟩

lemma remappedBy_cons {mode result : Mode} : RemappedBy lib session type mode (entry :: rest) result ↔
    Applies lib session type mode entry result ∨
      Skipped lib session type mode entry ∧ RemappedBy lib session type mode rest result := by
  simp only [RemappedBy, decides_cons, List.forall_mem_cons]
  constructor
  · rintro (⟨e, rfl | ⟨hskipped, hdecides⟩, happlies⟩ | ⟨⟨hskipped, hall⟩, rfl⟩)
    · exact Or.inl happlies
    · exact Or.inr ⟨hskipped, Or.inl ⟨e, hdecides, happlies⟩⟩
    · exact Or.inr ⟨hskipped, Or.inr ⟨hall, rfl⟩⟩
  · rintro (happlies | ⟨hskipped, ⟨e, hdecides, happlies⟩ | ⟨hall, rfl⟩⟩)
    · exact Or.inl ⟨entry, Or.inl rfl, happlies⟩
    · exact Or.inl ⟨e, Or.inr ⟨hskipped, hdecides⟩, happlies⟩
    · exact Or.inr ⟨⟨hskipped, hall⟩, rfl⟩

lemma remapEntries_eq_some_iff (hlib : lib.Strict) {c : SingleDisplayConfiguration} :
    remapEntries lib session type config entries = some c ↔
      ∃ result, RemappedBy lib session type config.mode entries result ∧ c = config.setMode result := by
  induction entries with
  | nil =>
    rw [remapEntries, Option.some.injEq]
    constructor
    · rintro rfl
      exact ⟨config.mode, Or.inr ⟨List.forall_mem_nil _, rfl⟩, rfl⟩
    · rintro ⟨result, ⟨e, ⟨_ | _, _, ⟨⟩, _⟩, _⟩ | ⟨-, rfl⟩, rfl⟩
      rfl
  | cons entry rest ih =>
    simp only [remappedBy_cons]
    obtain ⟨hmalformed, heq⟩ | ⟨hskipped, heq⟩ | ⟨result, happlies, heq⟩ := remapEntries_cons hlib entry rest
    · rw [heq]
      refine iff_of_false nofun ?_
      rintro ⟨result, happlies | ⟨hskipped, -⟩, -⟩
      · exact hmalformed.not_applies happlies
      · exact hmalformed.not_skipped hskipped
    · rw [heq, ih]
      refine exists_congr fun result => and_congr_left fun _ => ?_
      exact ⟨fun h => Or.inr ⟨hskipped, h⟩, fun h => (h.resolve_left fun happlies => happlies.not_skipped hskipped).2⟩
    · rw [heq, Option.some.injEq]
      constructor
      · rintro rfl
        exact ⟨result, Or.inl happlies, rfl⟩
      · rintro ⟨result', happlies' | ⟨hskipped, -⟩, rfl⟩
        · rw [happlies.unique happlies']
        · exact absurd hskipped happlies.not_skipped

lemma remapEntries_eq_none_iff (hlib : lib.Strict) :
    remapEntries lib session type config entries = none ↔
      ∃ e, Decides lib session type config.mode entries e ∧ Malformed lib type e := by
  induction entries with
  | nil =>
    refine iff_of_false nofun ?_
    rintro ⟨e, ⟨_ | _, _, ⟨⟩, _⟩, _⟩
  | cons entry rest ih =>
    simp only [decides_cons]
    obtain ⟨hmalformed, heq⟩ | ⟨hskipped, heq⟩ | ⟨result, happlies, heq⟩ := remapEntries_cons hlib entry rest
    · exact iff_of_true heq ⟨entry, Or.inl rfl, hmalformed⟩
    · rw [heq, ih]
      refine exists_congr fun e => and_congr_left fun hmalformed => ?_
      refine ⟨fun h => Or.inr ⟨hskipped, h⟩, ?_⟩
      rintro (rfl | ⟨-, hdecides⟩)
      · exact absurd hskipped hmalformed.not_skipped
      · exact hdecides
    · rw [heq]
      refine iff_of_false nofun ?_
      rintro ⟨e, rfl | ⟨hskipped, -⟩, hmalformed⟩
      · exact hmalformed.not_applies happlies
      · exact happlies.not_skipped hskipped

end Loop

/-! ### The stages -/

lemma applicable_eq (video : VideoConfig) :
    applicable video = (determineRemappingType video).map fun type => (type, remappingList video type) := by
  rcases video with ⟨_, _, _ | _ | _, _, _ | _ | _⟩ <;> rfl

lemma remapDisplayModeIfNeeded_eq_some_iff {lib : Library} (hlib : lib.Strict) {video : VideoConfig}
    {session : LaunchSession} {config c : SingleDisplayConfiguration} :
    remapDisplayModeIfNeeded lib video session config = some c ↔
      ∃ result, Remapped lib video session config.mode result ∧ c = config.setMode result := by
  rw [remapDisplayModeIfNeeded]
  simp only [Remapped, applicable_eq]
  rcases determineRemappingType video with _ | type
  · change some config = some c ↔ ∃ result, result = config.mode ∧ c = config.setMode result
    rw [Option.some.injEq, exists_eq_left]
    exact eq_comm
  · exact remapEntries_eq_some_iff hlib

lemma remapDisplayModeIfNeeded_eq_none_iff {lib : Library} (hlib : lib.Strict) {video : VideoConfig}
    {session : LaunchSession} {config : SingleDisplayConfiguration} :
    remapDisplayModeIfNeeded lib video session config = none ↔ MeetsMalformed lib video session config.mode := by
  rw [remapDisplayModeIfNeeded, MeetsMalformed, applicable_eq]
  rcases determineRemappingType video with _ | type
  · exact iff_of_false nofun id
  · exact remapEntries_eq_none_iff hlib

/-- What a non-negative `int` is as an `unsigned int`. -/
lemma toUInt32_eq_iff {n : Int32} {m : UInt32} : 0 ≤ n ∧ n.toUInt32 = m ↔ (m.toNat : ℤ) = n.toInt := by
  have hcast (h : 0 ≤ n) : (n.toUInt32.toNat : ℤ) = n.toInt := by
    rw [Int32.toNat_toUInt32_of_le h, ← Int32.toNat_toInt, Int.toNat_of_nonneg (Int32.le_iff_toInt_le.mp h)]
  constructor
  · rintro ⟨h, rfl⟩
    exact hcast h
  · intro h
    have hn : 0 ≤ n := Int32.le_iff_toInt_le.mpr (h ▸ Int.natCast_nonneg m.toNat)
    exact ⟨hn, UInt32.toNat_inj.mp (Int.ofNat.inj ((hcast hn).trans h.symm))⟩

section Options

variable {lib : Library} {video : VideoConfig} {session : LaunchSession} {config c : SingleDisplayConfiguration}

lemma parseResolutionOption_eq_some_iff (hnone : config.resolution = none) :
    parseResolutionOption video session config = some c ↔
      ∃ resolution, DerivedResolution video session resolution ∧ c = { config with resolution } := by
  have hsame : { config with resolution := none } = config := by rw [← hnone]
  rw [parseResolutionOption]
  constructor
  · intro h
    cases hoption : video.resolutionOption with
    | disabled =>
      rw [hoption] at h
      exact ⟨none, .disabled hoption, hsame.symm ▸ (Option.some.inj h).symm⟩
    | automatic =>
      rw [hoption] at h
      dsimp only at h
      split_ifs at h with hsops hsize
      · exact ⟨none, .optOut hsops, hsame.symm ▸ (Option.some.inj h).symm⟩
      · refine ⟨_, .automatic hoption (Bool.eq_true_of_not_eq_false hsops) ?_ ?_, (Option.some.inj h).symm⟩
        · exact toUInt32_eq_iff.mp ⟨hsize.1, rfl⟩
        · exact toUInt32_eq_iff.mp ⟨hsize.2, rfl⟩
    | manual =>
      rw [hoption] at h
      dsimp only at h
      split_ifs at h with hsops
      · exact ⟨none, .optOut hsops, hsame.symm ▸ (Option.some.inj h).symm⟩
      · rw [hnone] at h
        split at h
        · cases h
        · cases h
        · rename_i hparse
          exact ⟨_, .manual hoption (Bool.eq_true_of_not_eq_false hsops) hparse, (Option.some.inj h).symm⟩
  · rintro ⟨resolution, hderived, rfl⟩
    cases hderived with
    | disabled hoption => rw [hoption, hsame]
    | optOut hsops =>
      rw [hsame]
      cases video.resolutionOption with
      | disabled => rfl
      | automatic => exact if_pos hsops
      | manual => exact if_pos hsops
    | automatic hoption hsops hwidth hheight =>
      obtain ⟨hw, hwidth⟩ := toUInt32_eq_iff.mpr hwidth
      obtain ⟨hh, hheight⟩ := toUInt32_eq_iff.mpr hheight
      rw [hoption]
      dsimp only
      rw [if_neg (ne_false_of_eq_true hsops), if_pos ⟨hw, hh⟩, hwidth, hheight]
    | manual hoption hsops hparse =>
      rw [hoption]
      dsimp only
      rw [if_neg (ne_false_of_eq_true hsops), hnone, hparse]

lemma parseRefreshRateOption_eq_some_iff (hnone : config.refreshRate = none) :
    parseRefreshRateOption lib video session config = some c ↔
      ∃ refreshRate, DerivedRefreshRate lib video session refreshRate ∧ c = { config with refreshRate } := by
  have hsame : { config with refreshRate := none } = config := by rw [← hnone]
  rw [parseRefreshRateOption]
  constructor
  · intro h
    cases hoption : video.refreshRateOption with
    | disabled =>
      rw [hoption] at h
      exact ⟨none, .disabled hoption, hsame.symm ▸ (Option.some.inj h).symm⟩
    | automatic =>
      rw [hoption] at h
      dsimp only at h
      split_ifs at h with hfps
      exact ⟨_, .automatic hoption (toUInt32_eq_iff.mp ⟨hfps, rfl⟩), (Option.some.inj h).symm⟩
    | manual =>
      rw [hoption, hnone] at h
      dsimp only at h
      split at h
      · cases h
      · cases h
      · rename_i hparse
        exact ⟨_, .manual hoption hparse, (Option.some.inj h).symm⟩
  · rintro ⟨refreshRate, hderived, rfl⟩
    cases hderived with
    | disabled hoption => rw [hoption, hsame]
    | automatic hoption hfps =>
      obtain ⟨hnonneg, rfl⟩ := toUInt32_eq_iff.mpr hfps
      rw [hoption]
      exact if_pos hnonneg
    | manual hoption hparse =>
      rw [hoption]
      dsimp only
      rw [hnone, hparse]

end Options

/-! ### Main result -/

/-- The configuration of a session with this mode. -/
def configurationOf (video : VideoConfig) (session : LaunchSession) (devicePrep : DevicePreparation) (mode : Mode) :
    SingleDisplayConfiguration where
  deviceId := video.outputName
  devicePrep := devicePrep
  resolution := mode.resolution
  refreshRate := mode.refreshRate
  hdrState := parseHdrOption video session

section Main

variable {lib : Library} {video : VideoConfig} {session : LaunchSession} {type : RemappingType} {mode : Mode}

lemma DerivedResolution.eq_none {resolution : Option Resolution} (h : DerivedResolution video session resolution)
    (hsops : session.enableSops = false) : resolution = none := by
  cases h with
  | disabled => rfl
  | optOut => rfl
  | automatic _ hsops' => exact absurd hsops (ne_false_of_eq_true hsops')
  | manual _ hsops' => exact absurd hsops (ne_false_of_eq_true hsops')

lemma Remapped.resolution_eq {result : Mode} (h : Remapped lib video session mode result)
    (hsops : session.enableSops = false) : result.resolution = mode.resolution := by
  rw [Remapped] at h
  split at h
  · rw [h]
  · obtain ⟨entry, -, parsed, -, hpermitted, -, rfl⟩ | ⟨-, rfl⟩ := h
    · rw [ParsedRemappingEntry.over, (hpermitted.resolve_left (ne_true_of_eq_false hsops)).2]
      rfl
    · rfl

section Enabled

variable {devicePrep : DevicePreparation} (henabled : parseDevicePrepOption video = some devicePrep)

lemma derived_iff {c : SingleDisplayConfiguration} :
    (parseResolutionOption video session (configurationOf video session devicePrep ⟨none, none⟩)).bind
        (parseRefreshRateOption lib video session) = some c ↔
      ∃ mode, Derived lib video session mode ∧ c = configurationOf video session devicePrep mode := by
  rw [Option.bind_eq_some_iff]
  constructor
  · rintro ⟨c', hc', hc⟩
    obtain ⟨resolution, hresolution, rfl⟩ := (parseResolutionOption_eq_some_iff rfl).mp hc'
    obtain ⟨refreshRate, hrate, rfl⟩ := (parseRefreshRateOption_eq_some_iff rfl).mp hc
    exact ⟨⟨resolution, refreshRate⟩, ⟨hresolution, hrate⟩, rfl⟩
  · rintro ⟨mode, ⟨hresolution, hrate⟩, rfl⟩
    exact ⟨_, (parseResolutionOption_eq_some_iff rfl).mpr ⟨_, hresolution, rfl⟩,
      (parseRefreshRateOption_eq_some_iff rfl).mpr ⟨_, hrate, rfl⟩⟩

include henabled

lemma parseConfiguration_of_enabled :
    parseConfiguration lib video session =
      match (parseResolutionOption video session (configurationOf video session devicePrep ⟨none, none⟩)).bind
        (parseRefreshRateOption lib video session) with
      | none => .failedToParse
      | some config =>
        match remapDisplayModeIfNeeded lib video session config with
        | none => .failedToParse
        | some config => .config config := by
  rw [parseConfiguration, henabled]
  dsimp only [configurationOf]
  rcases parseResolutionOption video session _ <;> rfl

lemma parseConfiguration_eq_config (hlib : lib.Strict) {c : SingleDisplayConfiguration} :
    parseConfiguration lib video session = .config c ↔
      ∃ mode result, Derived lib video session mode ∧ Remapped lib video session mode result ∧
        c = configurationOf video session devicePrep result := by
  rw [parseConfiguration_of_enabled henabled]
  constructor
  · intro h
    split at h
    · cases h
    · rename_i hderived
      obtain ⟨mode, hmode, rfl⟩ := derived_iff.mp hderived
      split at h
      · cases h
      · rename_i hremap
        obtain ⟨result, hresult, rfl⟩ := (remapDisplayModeIfNeeded_eq_some_iff hlib).mp hremap
        exact ⟨mode, result, hmode, hresult, (Configuration.config.inj h).symm⟩
  · rintro ⟨mode, result, hmode, hresult, rfl⟩
    rw [derived_iff.mpr ⟨mode, hmode, rfl⟩]
    dsimp only
    rw [(remapDisplayModeIfNeeded_eq_some_iff hlib).mpr ⟨result, hresult, rfl⟩]
    rfl

lemma parseConfiguration_eq_failedToParse (hlib : lib.Strict) :
    parseConfiguration lib video session = .failedToParse ↔
      ∀ mode, Derived lib video session mode → MeetsMalformed lib video session mode := by
  rw [parseConfiguration_of_enabled henabled]
  constructor
  · intro h mode hmode
    rw [derived_iff.mpr ⟨mode, hmode, rfl⟩] at h
    dsimp only at h
    split at h
    · rename_i hremap
      exact (remapDisplayModeIfNeeded_eq_none_iff hlib).mp hremap
    · cases h
  · intro hmeets
    split
    · rfl
    · rename_i hderived
      obtain ⟨mode, hmode, rfl⟩ := derived_iff.mp hderived
      rw [(remapDisplayModeIfNeeded_eq_none_iff hlib).mpr (hmeets mode hmode)]

end Enabled

/-- The configuration has the derived mode with the final values of the first entry that applies, it fails at a
malformed entry before that, and it leaves the resolution alone for a client that opts out. -/
theorem parseConfiguration_remaps (lib : Library) (hlib : lib.Strict) (video : VideoConfig) (session : LaunchSession) :
    (session.enableSops = false → ∀ c, parseConfiguration lib video session = .config c → c.resolution = none) ∧
      (∀ c, parseConfiguration lib video session = .config c ↔ ∃ devicePrep mode result,
        parseDevicePrepOption video = some devicePrep ∧ Derived lib video session mode ∧
          Remapped lib video session mode result ∧ c = configurationOf video session devicePrep result) ∧
      (parseConfiguration lib video session = .failedToParse ↔ parseDevicePrepOption video ≠ none ∧
        ∀ mode, Derived lib video session mode → MeetsMalformed lib video session mode) := by
  have hconfig : ∀ c, parseConfiguration lib video session = .config c ↔ ∃ devicePrep mode result,
      parseDevicePrepOption video = some devicePrep ∧ Derived lib video session mode ∧
        Remapped lib video session mode result ∧ c = configurationOf video session devicePrep result := by
    intro c
    rcases henabled : parseDevicePrepOption video with _ | devicePrep
    · simp [parseConfiguration, henabled]
    · simp [parseConfiguration_eq_config henabled hlib]
  refine ⟨fun hsops c hc => ?_, hconfig, ?_⟩
  · obtain ⟨devicePrep, mode, result, -, ⟨hresolution, -⟩, hremapped, rfl⟩ := (hconfig c).mp hc
    exact (hremapped.resolution_eq hsops).trans (hresolution.eq_none hsops)
  · rcases henabled : parseDevicePrepOption video with _ | devicePrep
    · simp [parseConfiguration, henabled]
    · simp [parseConfiguration_eq_failedToParse henabled hlib]

/-- A client that opts out asks for 60 frames a second, which the second entry makes 59.94. -/
theorem parseConfiguration_optOut :
    ∃ c, parseConfiguration ⟨fun _ => 0, fun a b => a = b, fun a b => a = b⟩
      { outputName := [], configurationOption := .ensureActive, resolutionOption := .automatic,
        refreshRateOption := .automatic,
        modeRemapping := { mixed := [{ finalResolution := str "1280x720" },
          { requestedFps := str "60", finalRefreshRate := str "59.94" }] } }
      ⟨1920, 1080, 60, false, false⟩ = .config c ∧ c.refreshRate = some ⟨5994, 100⟩ ∧ c.resolution = none := by
  have hstrict : Library.Strict ⟨fun _ => 0, fun a b => a = b, fun a b => a = b⟩ :=
    ⟨fun _ _ => decide_eq_true_iff, fun _ _ => decide_eq_true_iff⟩
  refine (fun (h : _ = Configuration.config ⟨[], .ensureActive, none, some ⟨5994, 100⟩, some .disabled⟩) =>
    ⟨_, h, rfl, (parseConfiguration_remaps _ hstrict _ _).1 rfl _ h⟩) ?_
  decide +kernel

end Main

end MidnightSun.DisplayDevice
