import MidnightSun.Boost.PropertyTree
import MidnightSun.Lib.Descriptors
import MidnightSun.Platf.ModeTiming

/-!
# The headless display (src/platform/linux/headless.cpp)

`HeadlessDisplay::create` and the destructor, with the calls on DRM devices that they make.  `Kernel` has the outcome of
every call; `none` for the outcome of a file system probe is an exception.
-/

namespace MidnightSun.Platf.Headless

open Lib

/-! ### The display and its calls -/

structure HeadlessDisplay where
  drmFd : ℤ := -1
  connectorId : UInt32 := 0
  crtcId : UInt32 := 0
  encoderId : UInt32 := 0
  framebufferId : UInt32 := 0
  planeId : UInt32 := 0
  gemHandle : UInt32 := 0
  width : Int32 := 0
  height : Int32 := 0
  refreshRate : Int32 := 60
  valid : Bool := false
  softwareMode : Bool := false

/-- What is acquired on a DRM device. -/
inductive Buffer where
  | gem (handle : UInt32)
  | framebuffer (id : UInt32)
  deriving DecidableEq

abbrev DrmCall := DescriptorOp ℤ Buffer

/-- An id that the kernel gives out. -/
abbrev DrmId := {id : UInt32 // id ≠ 0}

/-- An entry of /dev/dri. -/
structure CardEntry where
  file : Str
  /-- the result of `open` -/
  fd : ℤ
  /-- the name that `drmGetVersion` gives -/
  driver : Option Str

structure Plane where
  planeId : UInt32
  possibleCrtcs : UInt32

/-- The results of `drmModeGetResources` and of `drmModeGetConnector` for each connector. -/
structure Resources where
  connectors : List (Option UInt32)
  crtcs : List UInt32

/-- The outcome of every call. -/
structure Kernel where
  /-- a variable of Gamescope is set -/
  gamescopeEnv : Bool
  /-- `XDG_RUNTIME_DIR` is set -/
  runtimeDir : Bool
  socketExists : Option Bool
  environExists : Option Bool
  environOpens : Bool
  /-- reading /proc/self/environ, and whether it mentions Gamescope -/
  environMentions : Option Bool
  vkmsLoaded : Option Bool
  vkmsLoadedBefore : Option Bool
  modprobe : ℤ
  vkmsLoadedAfter : Option Bool
  /-- the entries of /dev/dri as far as they can be read -/
  dri : List CardEntry
  /-- /dev/dri cannot be opened, or not be read to its end -/
  driThrows : Bool
  /-- the result of `open` on the VKMS card -/
  card : ℤ
  resources : Option Resources
  /-- the encoders of the connector -/
  connector : Option (List UInt32)
  /-- the CRTC of the encoder -/
  encoder : Option UInt32
  createDumb : Option DrmId
  addFb2 : Option DrmId
  addFb : Option DrmId
  planes : Option (List (Option Plane))
  setCrtc : ModeInfo → Bool

/-! ### Probes -/

def Kernel.isGamescopeActive (k : Kernel) : Option Bool := do
  if k.gamescopeEnv then return true
  if k.runtimeDir then
    if ← k.socketExists then return true
  if ← k.environExists then
    if k.environOpens then k.environMentions else return false
  else return false

def Kernel.loadVkmsModule (k : Kernel) : Option Bool := do
  if ← k.vkmsLoadedBefore then return true
  if k.modprobe ≠ 0 then return false
  k.vkmsLoadedAfter

def Kernel.isVkmsAvailable (k : Kernel) : Option Bool := do
  if ← k.vkmsLoaded then return true
  k.loadVkmsModule

/-- The card is one of VKMS. -/
def CardEntry.isVkms (c : CardEntry) : Bool := c.file.take 4 = str "card" ∧ 0 ≤ c.fd ∧ c.driver = some (str "vkms")

/-- `find_vkms_card`: whether there is a VKMS card. -/
def findVkmsCard (throws : Bool) : List CardEntry → Option Bool × List DrmCall
  | [] => (if throws then none else some false, [])
  | c :: cards =>
    if c.file.length < 4 ∨ c.file.take 4 ≠ str "card" then findVkmsCard throws cards
    else if c.fd < 0 then findVkmsCard throws cards
    else if c.driver = some (str "vkms") then (some true, [.opens c.fd, .uses c.fd, .closes c.fd])
    else
      let (found, calls) := findVkmsCard throws cards
      (found, [.opens c.fd, .uses c.fd, .closes c.fd] ++ calls)

/-- The connector with which the search stops, or zero. -/
def findConnector (fd : ℤ) : List (Option UInt32) → UInt32 × List DrmCall
  | [] => (0, [])
  | some id :: _ => (id, [.uses fd])
  | none :: connectors =>
    let (id, calls) := findConnector fd connectors
    (id, .uses fd :: calls)

/-- The plane can be used with the CRTC. -/
def Plane.fits (crtcs : List UInt32) (crtcId : UInt32) (p : Plane) : Bool :=
  match crtcs.idxOf? crtcId with
  | none => false
  | some i => p.possibleCrtcs ≠ 0 ∧ p.possibleCrtcs.toNat.testBit i

/-- The plane with which the search stops. -/
def findPlane (fd : ℤ) (crtcs : List UInt32) (crtcId : UInt32) : List (Option Plane) → Option UInt32 × List DrmCall
  | [] => (none, [])
  | plane :: planes =>
    match plane.filter (Plane.fits crtcs crtcId) with
    | some p => (some p.planeId, [.uses fd])
    | none =>
      let (id, calls) := findPlane fd crtcs crtcId planes
      (id, .uses fd :: calls)

/-! ### Setting up and cleaning up -/

/-- `cleanup`. -/
def HeadlessDisplay.cleanup (d : HeadlessDisplay) : HeadlessDisplay × List DrmCall :=
  if 0 ≤ d.drmFd then
    ({ d with framebufferId := 0, gemHandle := 0, drmFd := -1, valid := false },
      (if d.framebufferId ≠ 0 then [.releases d.drmFd (.framebuffer d.framebufferId)] else []) ++
      (if d.gemHandle ≠ 0 then [.releases d.drmFd (.gem d.gemHandle)] else []) ++ [.closes d.drmFd])
  else ({ d with valid := false }, [])

/-- Whether a stage and those after it succeed, the display, and the calls up to there. -/
abbrev Stage := Bool × HeadlessDisplay × List DrmCall

/-- A stage that fails cleans up. -/
def failed (d : HeadlessDisplay) (calls : List DrmCall) : Stage :=
  let (d, closing) := d.cleanup
  (false, d, calls ++ closing)

section
variable (k : Kernel) (w h refresh : Int32)

/-- Set the mode. -/
def setMode (d : HeadlessDisplay) (calls : List DrmCall) : Stage :=
  let calls := calls ++ [.uses d.drmFd]
  if !k.setCrtc (modeInfo w h refresh) then failed d calls
  else (true, { d with width := w, height := h, refreshRate := refresh, valid := true }, calls)

/-- Find a primary plane; without one, go on. -/
def choosePlane (crtcs : List UInt32) (d : HeadlessDisplay) (calls : List DrmCall) : Stage :=
  let (planeId, search) := findPlane d.drmFd crtcs d.crtcId (k.planes.getD [])
  setMode k w h refresh { d with planeId := planeId.getD d.planeId } (calls ++ .uses d.drmFd :: search)

/-- Create a dumb buffer and a framebuffer on it. -/
def createBuffers (crtcs : List UInt32) (d : HeadlessDisplay) (calls : List DrmCall) : Stage :=
  match k.createDumb with
  | none => failed d (calls ++ [.uses d.drmFd])
  | some handle =>
    let d := { d with gemHandle := handle.val }
    let calls := calls ++ [.acquires d.drmFd (.gem handle.val)]
    match k.addFb2 with
    | some id =>
      choosePlane k w h refresh crtcs { d with framebufferId := id.val }
        (calls ++ [.acquires d.drmFd (.framebuffer id.val)])
    | none =>
      match k.addFb with
      | some id =>
        choosePlane k w h refresh crtcs { d with framebufferId := id.val }
          (calls ++ [.uses d.drmFd, .acquires d.drmFd (.framebuffer id.val)])
      | none => failed d (calls ++ [.uses d.drmFd, .uses d.drmFd])

/-- The encoder of the connector, and its CRTC or the first one. -/
def HeadlessDisplay.withCrtc (crtcs : List UInt32) (d : HeadlessDisplay) : HeadlessDisplay :=
  let encoderId := (k.connector.getD []).headD d.encoderId
  let crtcId := if encoderId ≠ 0 then k.encoder.getD d.crtcId else d.crtcId
  { d with encoderId := encoderId, crtcId := if crtcId = 0 then crtcs.headD 0 else crtcId }

/-- Find an encoder and a CRTC. -/
def chooseCrtc (crtcs : List UInt32) (d : HeadlessDisplay) (calls : List DrmCall) : Stage :=
  let d := d.withCrtc k crtcs
  let calls := calls ++ .uses d.drmFd :: if d.encoderId ≠ 0 then [.uses d.drmFd] else []
  if d.crtcId = 0 then failed d calls else createBuffers k w h refresh crtcs d calls

/-- From the opened card on. -/
def setupCard (d : HeadlessDisplay) (calls : List DrmCall) : Stage :=
  let calls := calls ++ [.uses d.drmFd, .uses d.drmFd, .uses d.drmFd]
  match k.resources with
  | none => failed d calls
  | some resources =>
    let (connectorId, search) := findConnector d.drmFd resources.connectors
    if connectorId = 0 then failed d (calls ++ search)
    else chooseCrtc k w h refresh resources.crtcs { d with connectorId := connectorId } (calls ++ search)

/-- `setup_vkms`; `none` in the first place if an exception leaves it. -/
def setupVkms (d : HeadlessDisplay) : Option Bool × HeadlessDisplay × List DrmCall :=
  match k.isVkmsAvailable with
  | none => (none, d, [])
  | some false => (some false, d, [])
  | some true =>
    match findVkmsCard k.driThrows k.dri with
    | (none, calls) => (none, d, calls)
    | (some false, calls) => (some false, d, calls)
    | (some true, calls) =>
      let d := { d with drmFd := k.card }
      if k.card < 0 then (some false, d, calls)
      else
        let (ok, d, calls) := setupCard k w h refresh d (calls ++ [.opens k.card])
        (some ok, d, calls)

def setupSoftware (d : HeadlessDisplay) : Bool × HeadlessDisplay :=
  (true, { d with width := w, height := h, refreshRate := refresh, softwareMode := true, valid := true })

/-- What `create` does: it returns a display or none, or an exception leaves it. -/
inductive Created where
  | returns (display : Option HeadlessDisplay)
  | throws

/-- `HeadlessDisplay::create`, with the calls.  A display that is not returned is destroyed. -/
def create : Created × List DrmCall :=
  match k.isGamescopeActive with
  | none => (.throws, [])
  | some true =>
    let (ok, d) := setupSoftware w h refresh {}
    if !ok then (.returns none, d.cleanup.2) else (.returns (some d), [])
  | some false =>
    match setupVkms k w h refresh {} with
    | (none, d, calls) => (.throws, calls ++ d.cleanup.2)
    | (some true, d, calls) => (.returns (some d), calls)
    | (some false, d, calls) =>
      let (ok, d) := setupSoftware w h refresh d
      if !ok then (.returns none, calls ++ d.cleanup.2) else (.returns (some d), calls)

end

/-- The calls of the destructor. -/
def HeadlessDisplay.destroy (d : HeadlessDisplay) : List DrmCall := d.cleanup.2

/-! ### What a display owns -/

/-- What is held on the descriptor of a display, the last acquired first. -/
def HeadlessDisplay.buffers (d : HeadlessDisplay) : List Buffer :=
  (if d.framebufferId ≠ 0 then [.framebuffer d.framebufferId] else []) ++
  (if d.gemHandle ≠ 0 then [.gem d.gemHandle] else [])

def HeadlessDisplay.table (d : HeadlessDisplay) : Table ℤ Buffer :=
  if 0 ≤ d.drmFd then .single d.drmFd d.buffers else .empty

/-- No call so far made a fault, and what they left open and held is what the display owns. -/
def Tracks (d : HeadlessDisplay) (calls : List DrmCall) : Prop := replay .empty calls = some d.table

/-- The display has its device open. -/
structure Opened (d : HeadlessDisplay) (calls : List DrmCall) : Prop where
  fd : 0 ≤ d.drmFd
  tracks : Tracks d calls
  hardware : d.softwareMode = false

/-- What the stages leave: on success a device with a handle and a framebuffer, on failure nothing. -/
structure Settled (s : Stage) : Prop where
  tracks : Tracks s.2.1 s.2.2
  owns : s.1 = true → 0 ≤ s.2.1.drmFd ∧ s.2.1.gemHandle ≠ 0 ∧ s.2.1.framebufferId ≠ 0 ∧ s.2.1.valid = true
  gone : s.1 = false → s.2.1.drmFd < 0 ∧ s.2.1.gemHandle = 0 ∧ s.2.1.framebufferId = 0
  hardware : s.2.1.softwareMode = false

variable {d d' : HeadlessDisplay} {calls more : List DrmCall} {k : Kernel} {w h refresh : Int32}

lemma table_of_closed (h : d.drmFd < 0) : d.table = .empty := if_neg (not_le.mpr h)

lemma replay_cleanup (d : HeadlessDisplay) : replay d.table d.cleanup.2 = some .empty := by
  unfold HeadlessDisplay.table HeadlessDisplay.cleanup HeadlessDisplay.buffers
  split
  · by_cases hf : d.framebufferId = 0 <;> by_cases hg : d.gemHandle = 0 <;>
      simp [hf, hg, replay_cons]
  · rfl

theorem Tracks.cleanup (ht : Tracks d calls) : replay .empty (calls ++ d.cleanup.2) = some .empty := by
  rw [replay_append_of_eq ht, replay_cleanup]

lemma Opened.failed (ho : Opened d calls) : Settled (failed d calls) := by
  have hcleanup : d.cleanup.1 = { d with framebufferId := 0, gemHandle := 0, drmFd := -1, valid := false } := by
    rw [HeadlessDisplay.cleanup, if_pos ho.fd]
  refine ⟨?_, nofun, fun _ => ?_, ?_⟩
  · change replay .empty (calls ++ d.cleanup.2) = some d.cleanup.1.table
    rw [ho.tracks.cleanup, hcleanup]
    rfl
  · change d.cleanup.1.drmFd < 0 ∧ d.cleanup.1.gemHandle = 0 ∧ d.cleanup.1.framebufferId = 0
    rw [hcleanup]
    exact ⟨neg_one_lt_zero, rfl, rfl⟩
  · change d.cleanup.1.softwareMode = false
    rw [hcleanup]
    exact ho.hardware

lemma Opened.uses (ho : Opened d calls) (hmore : ∀ c ∈ more, c = .uses d.drmFd) : Opened d (calls ++ more) := by
  have ht := ho.tracks
  have htable : d.table = .single d.drmFd d.buffers := if_pos ho.fd
  unfold Tracks at ht
  refine ⟨ho.fd, ?_, ho.hardware⟩
  rw [Tracks, replay_append_of_eq ht, htable, replay_uses hmore]

lemma Opened.congr (ho : Opened d calls) (hfd : d'.drmFd = d.drmFd) (hgem : d'.gemHandle = d.gemHandle)
    (hfb : d'.framebufferId = d.framebufferId) (hmode : d'.softwareMode = d.softwareMode) : Opened d' calls := by
  have htable : d'.table = d.table := by
    unfold HeadlessDisplay.table HeadlessDisplay.buffers
    rw [hfd, hgem, hfb]
  exact ⟨hfd ▸ ho.fd, by rw [Tracks, htable]; exact ho.tracks, hmode ▸ ho.hardware⟩

lemma Opened.gem (ho : Opened d calls) (hgem : d.gemHandle = 0) (hfb : d.framebufferId = 0) (handle : DrmId) :
    Opened { d with gemHandle := handle.val } (calls ++ [.acquires d.drmFd (.gem handle.val)]) := by
  have ht := ho.tracks
  have htable : d.table = .single d.drmFd [] := by
    rw [HeadlessDisplay.table, if_pos ho.fd]
    simp [HeadlessDisplay.buffers, hgem, hfb]
  unfold Tracks at ht
  refine ⟨ho.fd, ?_, ho.hardware⟩
  rw [Tracks, replay_append_of_eq ht, htable, replay_cons, apply_acquires List.not_mem_nil, Option.bind_some,
    replay_nil]
  rw [HeadlessDisplay.table, if_pos ho.fd]
  simp [HeadlessDisplay.buffers, hfb, handle.property]

lemma Opened.framebuffer (ho : Opened d calls) (hfb : d.framebufferId = 0) (id : DrmId) :
    Opened { d with framebufferId := id.val } (calls ++ [.acquires d.drmFd (.framebuffer id.val)]) := by
  have ht := ho.tracks
  have htable : d.table = .single d.drmFd (if d.gemHandle ≠ 0 then [.gem d.gemHandle] else []) := by
    rw [HeadlessDisplay.table, if_pos ho.fd]
    simp [HeadlessDisplay.buffers, hfb]
  have hfresh : Buffer.framebuffer id.val ∉ if d.gemHandle ≠ 0 then [Buffer.gem d.gemHandle] else [] := by
    split <;> simp
  unfold Tracks at ht
  refine ⟨ho.fd, ?_, ho.hardware⟩
  rw [Tracks, replay_append_of_eq ht, htable, replay_cons, apply_acquires hfresh, Option.bind_some, replay_nil]
  rw [HeadlessDisplay.table, if_pos ho.fd]
  simp [HeadlessDisplay.buffers, id.property]

/-! ### The stages -/

lemma findConnector_uses (fd : ℤ) (connectors : List (Option UInt32)) :
    ∀ c ∈ (findConnector fd connectors).2, c = .uses fd := by
  induction connectors with
  | nil => exact nofun
  | cons connector connectors ih =>
    cases connector with
    | none => exact List.forall_mem_cons.mpr ⟨rfl, ih⟩
    | some id => exact List.forall_mem_singleton.mpr rfl

lemma findPlane_uses (fd : ℤ) (crtcs : List UInt32) (crtcId : UInt32) (planes : List (Option Plane)) :
    ∀ c ∈ (findPlane fd crtcs crtcId planes).2, c = .uses fd := by
  induction planes with
  | nil => exact nofun
  | cons plane planes ih =>
    unfold findPlane
    cases plane.filter (Plane.fits crtcs crtcId) with
    | none => exact List.forall_mem_cons.mpr ⟨rfl, ih⟩
    | some p => exact List.forall_mem_singleton.mpr rfl

lemma Opened.setMode (ho : Opened d calls) (hgem : d.gemHandle ≠ 0) (hfb : d.framebufferId ≠ 0) :
    Settled (setMode k w h refresh d calls) := by
  have huses : Opened d (calls ++ [.uses d.drmFd]) := ho.uses (List.forall_mem_singleton.mpr rfl)
  unfold Headless.setMode
  dsimp only
  split
  · exact huses.failed
  · have hset : Opened { d with width := w, height := h, refreshRate := refresh, valid := true }
        (calls ++ [.uses d.drmFd]) := huses.congr rfl rfl rfl rfl
    exact ⟨hset.tracks, fun _ => ⟨ho.fd, hgem, hfb, rfl⟩, nofun, ho.hardware⟩

lemma Opened.choosePlane (ho : Opened d calls) (hgem : d.gemHandle ≠ 0) (hfb : d.framebufferId ≠ 0)
    (crtcs : List UInt32) : Settled (choosePlane k w h refresh crtcs d calls) := by
  have huses := ho.uses (List.forall_mem_cons.mpr ⟨rfl, findPlane_uses d.drmFd crtcs d.crtcId (k.planes.getD [])⟩)
  refine Opened.setMode ?_ hgem hfb
  exact huses.congr rfl rfl rfl rfl

lemma Opened.createBuffers (ho : Opened d calls) (hgem : d.gemHandle = 0) (hfb : d.framebufferId = 0)
    (crtcs : List UInt32) : Settled (createBuffers k w h refresh crtcs d calls) := by
  unfold Headless.createBuffers
  cases k.createDumb with
  | none => exact (ho.uses (List.forall_mem_singleton.mpr rfl)).failed
  | some handle =>
    have hheld := ho.gem hgem hfb handle
    cases k.addFb2 with
    | some id => exact (hheld.framebuffer hfb id).choosePlane handle.property id.property crtcs
    | none =>
      cases k.addFb with
      | some id =>
        have hmore : ∀ c ∈ ([.uses d.drmFd] : List DrmCall), c = .uses d.drmFd := List.forall_mem_singleton.mpr rfl
        have huses := hheld.uses hmore
        have hboth := huses.framebuffer hfb id
        rw [List.append_assoc _ [_] [_]] at hboth
        exact hboth.choosePlane handle.property id.property crtcs
      | none => exact (hheld.uses (by simp)).failed

lemma Opened.chooseCrtc (ho : Opened d calls) (hgem : d.gemHandle = 0) (hfb : d.framebufferId = 0)
    (crtcs : List UInt32) : Settled (chooseCrtc k w h refresh crtcs d calls) := by
  have hcrtc : Opened (d.withCrtc k crtcs) calls := ho.congr rfl rfl rfl rfl
  have hmore : ∀ c ∈ (.uses d.drmFd :: if (d.withCrtc k crtcs).encoderId ≠ 0 then [.uses d.drmFd] else [] :
      List DrmCall),
      c = .uses (d.withCrtc k crtcs).drmFd := by
    split <;> simp [HeadlessDisplay.withCrtc]
  have huses := hcrtc.uses hmore
  unfold Headless.chooseCrtc
  dsimp only
  split
  · exact huses.failed
  · exact huses.createBuffers hgem hfb crtcs

lemma Opened.setupCard (ho : Opened d calls) (hgem : d.gemHandle = 0) (hfb : d.framebufferId = 0) :
    Settled (setupCard k w h refresh d calls) := by
  have hcaps : Opened d (calls ++ [.uses d.drmFd, .uses d.drmFd, .uses d.drmFd]) := ho.uses (by simp)
  unfold Headless.setupCard
  cases k.resources with
  | none => exact hcaps.failed
  | some resources =>
    have hsearch := hcaps.uses (findConnector_uses d.drmFd resources.connectors)
    dsimp only
    split
    · exact hsearch.failed
    · have hfound : Opened { d with connectorId := (findConnector d.drmFd resources.connectors).1 } _ :=
        hsearch.congr rfl rfl rfl rfl
      exact hfound.chooseCrtc hgem hfb resources.crtcs

/-! ### The whole of `create` -/

/-- The search for the card closes what it opens, also if an exception ends it. -/
lemma replay_findVkmsCard (throws : Bool) (cards : List CardEntry) :
    replay .empty (findVkmsCard throws cards).2 = some .empty := by
  have hprobe : ∀ (fd : ℤ) (more : List DrmCall), replay .empty more = some .empty →
      replay .empty ([.opens fd, .uses fd, .closes fd] ++ more) = some .empty := by
    intro fd more hmore
    have hthree : replay .empty ([.opens fd, .uses fd, .closes fd] : List DrmCall) = some .empty := by
      simp [replay_cons]
    rw [replay_append_of_eq hthree, hmore]
  induction cards with
  | nil => rfl
  | cons c cards ih =>
    unfold findVkmsCard
    split_ifs
    · exact ih
    · exact ih
    · exact hprobe c.fd [] rfl
    · exact hprobe c.fd _ ih

/-- An exception ends the search if /dev/dri cannot be read and no card before that is one of VKMS. -/
lemma findVkmsCard_throws_iff (throws : Bool) (cards : List CardEntry) :
    (findVkmsCard throws cards).1 = none ↔ throws = true ∧ ∀ c ∈ cards, c.isVkms = false := by
  induction cards with
  | nil => cases throws <;> simp [findVkmsCard]
  | cons c cards ih =>
    unfold findVkmsCard
    rw [List.forall_mem_cons]
    split_ifs with hname hfd hvkms
    · have hnot : c.isVkms = false := by
        refine decide_eq_false fun h => hname.elim (fun hlt => ?_) (· h.1)
        have hlength : (c.file.take 4).length = 4 := by rw [h.1]; rfl
        rw [List.length_take] at hlength
        omega
      simp [ih, hnot]
    · have hnot : c.isVkms = false := decide_eq_false fun h => absurd h.2.1 (not_le.mpr hfd)
      simp [ih, hnot]
    · have his : c.isVkms = true := decide_eq_true ⟨not_not.mp (not_or.mp hname).2, not_lt.mp hfd, hvkms⟩
      simp [his]
    · have hnot : c.isVkms = false := decide_eq_false fun h => hvkms h.2.2
      simp [ih, hnot]

/-- What `create` is to do: return a display that owns a device with a handle and a framebuffer, or one in software mode
that owns nothing; and whatever was opened and acquired, as the display owns it, is closed and released when the display
is destroyed. -/
def Balances (out : Created × List DrmCall) : Prop :=
  ∃ d : HeadlessDisplay, out.1 = .returns (some d) ∧ d.valid = true ∧ Tracks d out.2 ∧
    (if d.softwareMode then d.drmFd < 0 ∧ d.gemHandle = 0 ∧ d.framebufferId = 0
      else 0 ≤ d.drmFd ∧ d.gemHandle ≠ 0 ∧ d.framebufferId ≠ 0) ∧
    replay .empty (out.2 ++ d.destroy) = some .empty

/-- No file system call that is made throws. -/
def Kernel.NoThrow (k : Kernel) : Prop :=
  k.isGamescopeActive ≠ none ∧ (k.isGamescopeActive = some false → k.isVkmsAvailable ≠ none ∧
    (k.isVkmsAvailable = some true → k.driThrows = true → ∃ c ∈ k.dri, c.isVkms = true))

/-- What `setup_vkms` leaves of a new display. -/
structure Attempted (k : Kernel) (out : Option Bool × HeadlessDisplay × List DrmCall) : Prop where
  tracks : Tracks out.2.1 out.2.2
  hardware : out.2.1.softwareMode = false
  owns : out.1 = some true →
    0 ≤ out.2.1.drmFd ∧ out.2.1.gemHandle ≠ 0 ∧ out.2.1.framebufferId ≠ 0 ∧ out.2.1.valid = true
  gone : out.1 ≠ some true → out.2.1.drmFd < 0 ∧ out.2.1.gemHandle = 0 ∧ out.2.1.framebufferId = 0
  throws_iff : out.1 = none ↔ k.isVkmsAvailable = none ∨
    k.isVkmsAvailable = some true ∧ k.driThrows = true ∧ ∀ c ∈ k.dri, c.isVkms = false

lemma attempted_of_closed {out : Option Bool × HeadlessDisplay × List DrmCall}
    (hcalls : replay .empty out.2.2 = some .empty)
    (hd : out.2.1.drmFd < 0 ∧ out.2.1.gemHandle = 0 ∧ out.2.1.framebufferId = 0 ∧ out.2.1.softwareMode = false)
    (hfails : out.1 ≠ some true) (hthrows : out.1 = none ↔ k.isVkmsAvailable = none ∨
      k.isVkmsAvailable = some true ∧ k.driThrows = true ∧ ∀ c ∈ k.dri, c.isVkms = false) : Attempted k out :=
  ⟨by rw [Tracks, hcalls, table_of_closed hd.1], hd.2.2.2, fun h => absurd h hfails,
    fun _ => ⟨hd.1, hd.2.1, hd.2.2.1⟩, hthrows⟩

theorem attempted_setupVkms (k : Kernel) (w h refresh : Int32) : Attempted k (setupVkms k w h refresh {}) := by
  have hnew : ({} : HeadlessDisplay).drmFd < 0 ∧ ({} : HeadlessDisplay).gemHandle = 0 ∧
      ({} : HeadlessDisplay).framebufferId = 0 ∧ ({} : HeadlessDisplay).softwareMode = false := by decide
  have hsearch := replay_findVkmsCard k.driThrows k.dri
  have hthrows := findVkmsCard_throws_iff k.driThrows k.dri
  unfold setupVkms
  rcases havailable : k.isVkmsAvailable with _ | _ | _
  · exact attempted_of_closed rfl hnew nofun (by simp [havailable])
  · exact attempted_of_closed rfl hnew nofun (by simp [havailable])
  · have hiff : (k.isVkmsAvailable = none ∨ k.isVkmsAvailable = some true ∧ k.driThrows = true ∧
        ∀ c ∈ k.dri, c.isVkms = false) ↔ (findVkmsCard k.driThrows k.dri).1 = none := by simp [havailable, hthrows]
    dsimp only
    rcases hfind : findVkmsCard k.driThrows k.dri with ⟨_ | _ | _, calls⟩
    · rw [hfind] at hsearch hiff
      exact attempted_of_closed hsearch hnew nofun hiff.symm
    · rw [hfind] at hsearch hiff
      exact attempted_of_closed hsearch hnew nofun (hiff.trans (by simp)).symm
    · rw [hfind] at hsearch hiff
      have hfound : ∀ ok : Bool, some ok = none ↔ (some true, calls).1 = none := by simp
      dsimp only
      split
      next hcard => exact attempted_of_closed hsearch ⟨hcard, rfl, rfl, rfl⟩ nofun ((hfound _).trans hiff.symm)
      next hcard =>
        have hopened : Opened { drmFd := k.card } (calls ++ [.opens k.card]) := by
          refine ⟨not_lt.mp hcard, ?_, rfl⟩
          rw [Tracks, replay_append_of_eq hsearch, replay_cons, apply_opens, Option.bind_some, replay_nil,
            HeadlessDisplay.table, if_pos (not_lt.mp hcard)]
          rfl
        have hsettled : Settled (setupCard k w h refresh _ _) := hopened.setupCard rfl rfl
        exact ⟨hsettled.tracks, hsettled.hardware, fun hok => hsettled.owns (Option.some.inj hok),
          fun hfails => hsettled.gone (Bool.eq_false_of_not_eq_true fun hok => hfails (congrArg some hok)),
          (hfound _).trans hiff.symm⟩

lemma tracks_setupSoftware (ht : Tracks d calls) (hfd : d.drmFd < 0) :
    Tracks (setupSoftware w h refresh d).2 calls := by
  rw [Tracks, table_of_closed hfd] at ht
  rw [Tracks, table_of_closed (d := (setupSoftware w h refresh d).2) hfd, ht]

lemma not_balances_of_throws {out : Created × List DrmCall} (h : out.1 = .throws) : ¬Balances out := by
  rintro ⟨d, hd, -⟩
  rw [h] at hd
  cases hd

lemma balances_software (ht : Tracks d calls) (hgone : d.drmFd < 0 ∧ d.gemHandle = 0 ∧ d.framebufferId = 0) :
    Balances (.returns (some (setupSoftware w h refresh d).2), calls) :=
  ⟨_, rfl, rfl, tracks_setupSoftware ht hgone.1, hgone, (tracks_setupSoftware ht hgone.1).cleanup⟩

/-- Behind the probe for Gamescope, no exception is one that does not leave `setup_vkms`. -/
lemma noThrow_iff (hgamescope : k.isGamescopeActive = some false) {out : Option Bool × HeadlessDisplay × List DrmCall}
    (h : Attempted k out) : k.NoThrow ↔ out.1 ≠ none := by
  rw [Ne, h.throws_iff, Kernel.NoThrow, hgamescope]
  simp only [not_or, not_and, not_forall, Bool.not_eq_false]
  constructor
  · rintro ⟨-, hvkms⟩
    obtain ⟨havailable, hdri⟩ := hvkms trivial
    exact ⟨havailable, fun h hthrows => (hdri h hthrows).imp fun c hc => ⟨hc.1, hc.2⟩⟩
  · rintro ⟨havailable, hdri⟩
    exact ⟨nofun, fun _ => ⟨havailable, fun h hthrows => (hdri h hthrows).imp fun c hc => ⟨hc.fst, hc.snd⟩⟩⟩

/-- **The resources of the headless display balance exactly if no file system call throws**; in any case, nothing stays
open. -/
theorem create_balances_iff (k : Kernel) (w h refresh : Int32) :
    (Balances (create k w h refresh) ↔ k.NoThrow) ∧
    ((create k w h refresh).1 = .throws → replay .empty (create k w h refresh).2 = some .empty) := by
  have hattempted := attempted_setupVkms k w h refresh
  unfold create
  rcases hgamescope : k.isGamescopeActive with _ | _ | _
  · exact ⟨iff_of_false (not_balances_of_throws rfl) fun h => h.1 hgamescope, fun _ => rfl⟩
  · rw [noThrow_iff hgamescope hattempted]
    rcases hsetup : setupVkms k w h refresh {} with ⟨_ | _ | _, d, calls⟩
    · rw [hsetup] at hattempted
      exact ⟨iff_of_false (not_balances_of_throws rfl) fun h => h rfl, fun _ => hattempted.tracks.cleanup⟩
    · rw [hsetup] at hattempted
      have hsoftware : Balances (.returns (some (setupSoftware w h refresh d).2), calls) :=
        balances_software hattempted.tracks (hattempted.gone nofun)
      exact ⟨iff_of_true hsoftware nofun, nofun⟩
    · rw [hsetup] at hattempted
      obtain ⟨hfd, hgem, hfb, hvalid⟩ := hattempted.owns rfl
      have hhardware : d.softwareMode = false := hattempted.hardware
      have hvkms : Balances (.returns (some d), calls) := by
        refine ⟨d, rfl, hvalid, hattempted.tracks, ?_, hattempted.tracks.cleanup⟩
        rw [hhardware]
        exact ⟨hfd, hgem, hfb⟩
      exact ⟨iff_of_true hvkms nofun, nofun⟩
  · have hsoftware : Balances (.returns (some (setupSoftware w h refresh {}).2), []) :=
      balances_software rfl ⟨by decide, rfl, rfl⟩
    refine ⟨iff_of_true hsoftware ⟨by simp [hgamescope], ?_⟩, nofun⟩
    rw [hgamescope]
    nofun

/-- VKMS is loaded, and there is no /dev/dri. -/
def noDri : Kernel where
  gamescopeEnv := false
  runtimeDir := false
  socketExists := some false
  environExists := some false
  environOpens := false
  environMentions := some false
  vkmsLoaded := some true
  vkmsLoadedBefore := some true
  modprobe := 0
  vkmsLoadedAfter := some true
  dri := []
  driThrows := true
  card := -1
  resources := none
  connector := none
  encoder := none
  createDumb := none
  addFb2 := none
  addFb := none
  planes := none
  setCrtc := fun _ => false

/-- The iterator over /dev/dri throws, where the same search in `is_headless` asks first whether the directory exists. -/
theorem no_dri_throws : (¬∀ k w h refresh, Balances (create k w h refresh)) ∧
    (create noDri 1920 1080 60).1 = .throws ∧ noDri.isVkmsAvailable = some true := by
  have hthrows : (create noDri 1920 1080 60).1 = .throws := rfl
  exact ⟨fun hholds => not_balances_of_throws hthrows (hholds noDri 1920 1080 60), hthrows, rfl⟩

end MidnightSun.Platf.Headless
