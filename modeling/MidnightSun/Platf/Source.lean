import MidnightSun.Lib.Run
import MidnightSun.Util.Decimal

/-!
# Capture sources (src/platform/linux/misc.cpp, headless.cpp, kmsgrab.cpp)

`init` decides once which sources there are; `display_names` and `display` take the first of them for every session.
The monitors come and go meanwhile.  A machine is what the DRM subsystem shows of it.
-/

namespace MidnightSun.Platf.Source

open Util Lib

/-! ### The machine -/

/-- An entry of /dev/dri. -/
structure Card where
  file : Str
  /-- `open` succeeds -/
  opens : Bool
  /-- the name that `drmGetVersion` gives -/
  driver : Option Str
  /-- `drmModeGetResources`: for each connector, whether `drmModeGetConnector` finds it connected -/
  connectors : Option (List (Option Bool))

/-- What the machine has at a moment. -/
structure Machine where
  /-- the entries of /dev/dri, if it exists -/
  dri : Option (List Card)
  /-- `HeadlessDisplay::is_vkms_available()` -/
  vkms : Bool

/-- A card that is not VKMS has a connected connector. -/
def Card.connected (c : Card) : Bool :=
  c.file.take 4 == str "card" && c.opens && c.driver != some (str "vkms") &&
    (c.connectors.getD []).any fun conn => conn == some true

/-- A physical monitor is connected. -/
def Machine.connected (m : Machine) : Bool := (m.dri.getD []).any Card.connected

/-- The loop of `is_headless` over the entries. -/
def noneConnected : List Card → Bool
  | [] => true
  | c :: cards =>
    if c.file.length < 4 ∨ c.file.take 4 ≠ str "card" then noneConnected cards
    else if !c.opens then noneConnected cards
    else if c.driver = some (str "vkms") then noneConnected cards
    else if (c.connectors.getD []).any fun conn => conn == some true then false
    else noneConnected cards

/-- `is_headless`. -/
def isHeadless (gamescope : Bool) (m : Machine) : Bool :=
  if gamescope then false
  else match m.dri with
    | none => true
    | some cards => noneConnected cards

/-- `mem_type_e`. -/
inductive MemType | system | vaapi | dxgi | cuda | videotoolbox | vulkan | unknown
  deriving DecidableEq

inductive WindowSystem | none | x11 | wayland
  deriving DecidableEq

/-- The build and the surroundings of the process.  DRM and the headless source are compiled in. -/
structure System where
  buildCuda : Bool
  buildWayland : Bool
  buildX11 : Bool
  buildPortal : Bool
  /-- the environment variables are set -/
  waylandDisplay : Bool
  xDisplay : Bool
  /-- `is_gamescope_active()` -/
  gamescope : Bool
  /-- libgbm is loaded -/
  gbm : Bool
  /-- `config::video.capture` -/
  capture : Str
  /-- `config::video.output_name`, mapped -/
  outputName : Str
  nvfbcDisplayNames : Machine → List Str
  wlDisplayNames : Machine → List Str
  x11DisplayNames : Machine → List Str
  portalDisplayNames : Machine → List Str
  /-- the planes that `kms_display_names` counts -/
  kmsPlanes : MemType → Machine → ℕ

/-- `source_e`, as the bits of `sources`. -/
structure Sources where
  nvfbc : Bool := false
  wayland : Bool := false
  kms : Bool := false
  x11 : Bool := false
  portal : Bool := false
  headless : Bool := false
  deriving DecidableEq

def Sources.none (s : Sources) : Bool := !(s.nvfbc || s.wayland || s.kms || s.x11 || s.portal || s.headless)

/-- What `display` sets out to create. -/
inductive Display
  | nvfbc (name : Str)
  | wayland (name : Str)
  | kms (name : Str)
  | x11 (name : Str)
  | portal (name : Str)
  /-- a `HeadlessDisplay` -/
  | headless
  deriving DecidableEq

namespace System

variable (sys : System)

/-! ### Names and sources -/

/-- `kms_display_names`: the displays are numbered; where there is none, VKMS is offered. -/
def kmsDisplayNames (memType : MemType) (m : Machine) : List Str :=
  if m.dri.isNone || !sys.gbm then []
  else
    let names := (List.range (sys.kmsPlanes memType m)).map fun n : ℕ => decimal n
    if names.isEmpty && m.vkms then [str "headless"] else names

/-- `headless_display_names`. -/
def headlessDisplayNames : List Str := [str "headless"]

/-- `window_system`, as `init` sets it. -/
def windowSystem : WindowSystem :=
  if sys.buildWayland && sys.waylandDisplay then .wayland
  else if (sys.buildX11 || sys.buildCuda) && sys.xDisplay then .x11
  else .none

def verifyNvfbc (m : Machine) : Bool := !(sys.nvfbcDisplayNames m).isEmpty

def verifyWl (m : Machine) : Bool := sys.windowSystem = .wayland && !(sys.wlDisplayNames m).isEmpty

def verifyKms (m : Machine) : Bool := !(sys.kmsDisplayNames .unknown m).isEmpty

def verifyX11 (m : Machine) : Bool := sys.windowSystem = .x11 && !(sys.x11DisplayNames m).isEmpty

def verifyPortal (m : Machine) : Bool := !(sys.portalDisplayNames m).isEmpty

/-- `verify_headless`: all its branches return true, and differ in what they log. -/
def verifyHeadless : Bool := true

/-- `init`: the first source of its kind, and those that are added in any case. -/
def init (m : Machine) (s : Sources) : Sources :=
  let s := { s with nvfbc := s.nvfbc ||
    sys.buildCuda && ((sys.capture.isEmpty && s.none || sys.capture = str "nvfbc") && sys.verifyNvfbc m) }
  let s := { s with wayland := s.wayland ||
    sys.buildWayland && ((sys.capture.isEmpty && s.none || sys.capture = str "wlr") && sys.verifyWl m) }
  let s := { s with kms := s.kms ||
    (sys.capture.isEmpty && s.none || sys.capture = str "kms") && sys.verifyKms m }
  let s := { s with x11 := s.x11 ||
    sys.buildX11 && ((sys.capture.isEmpty || sys.capture = str "x11") && sys.verifyX11 m) }
  let s := { s with portal := s.portal ||
    sys.buildPortal && ((sys.capture.isEmpty || sys.capture = str "portal") && sys.verifyPortal m) }
  { s with headless := s.headless ||
    (sys.capture.isEmpty || sys.capture = str "headless") && verifyHeadless }

/-- `display_names`. -/
def displayNames (s : Sources) (memType : MemType) (m : Machine) : List Str :=
  if s.nvfbc && memType = .cuda then sys.nvfbcDisplayNames m
  else if s.wayland then sys.wlDisplayNames m
  else if s.kms then sys.kmsDisplayNames memType m
  else if s.x11 then sys.x11DisplayNames m
  else if s.portal then sys.portalDisplayNames m
  else if s.headless then headlessDisplayNames
  else []

/-- `kms_display`: the name of the VKMS display leads to `init_headless`. -/
def kmsDisplay (name : Str) : Display := if name = str "headless" then .headless else .kms name

/-- `display`. -/
def display (s : Sources) (memType : MemType) (name : Str) : Option Display :=
  if s.nvfbc && memType = .cuda then some (.nvfbc name)
  else if s.wayland then some (.wayland name)
  else if s.kms then some (kmsDisplay name)
  else if s.x11 then some (.x11 name)
  else if s.portal then some (.portal name)
  else if s.headless then some .headless
  else .none

/-- The display that a new capture thread picks from the names (`refresh_displays` with nothing known before). -/
def pickDisplay (names : List Str) : Str :=
  if sys.outputName ∈ names then sys.outputName else names.headD sys.outputName

end System

/-! ### Runs -/

/-- What was seen when a session started. -/
structure SessionStart where
  headless : Bool
  names : List Str
  created : Option Display

/-- The headless display is created exactly when the machine is headless, and there is a display to name. -/
def SessionStart.Follows (o : SessionStart) : Prop := (o.created = some .headless ↔ o.headless = true) ∧ o.names ≠ []

/-- The machine, and the process on it. -/
structure Process where
  machine : Machine
  sources : Sources := {}
  /-- the machine at the time of `init` -/
  atInit : Option Machine := none
  starts : List SessionStart := []

inductive Op
  /-- monitors are connected or disconnected, VKMS becomes available or not -/
  | machine (m : Machine)
  | init
  | session (memType : MemType)

namespace System

variable (sys : System)

def startSession (p : Process) (memType : MemType) : SessionStart :=
  let names := sys.displayNames p.sources memType p.machine
  { headless := isHeadless sys.gamescope p.machine
    names
    created := display p.sources memType (sys.pickDisplay names) }

/-- `init` is called once, and sessions start after it. -/
def step (p : Process) : Op → Option Process
  | .machine m => some { p with machine := m }
  | .init =>
    if p.atInit.isNone then
      some { p with sources := sys.init p.machine p.sources, atInit := some p.machine }
    else none
  | .session memType =>
    if p.atInit.isSome then some { p with starts := p.starts ++ [sys.startSession p memType] } else none

abbrev SourceStep : Process → Op → Process → Prop := ofPartial sys.step

/-- What is assumed of the surroundings: no capture option, no Gamescope, NvFBC, wlroots and the portal are not there,
KMS finds the physical monitors, and in an X11 session X11 does, too. -/
structure Assumed : Prop where
  capture : sys.capture = []
  gamescope : sys.gamescope = false
  gbm : sys.gbm = true
  nvfbc : ∀ m, sys.verifyNvfbc m = false
  wayland : ∀ m, sys.verifyWl m = false
  portal : ∀ m, sys.verifyPortal m = false
  kms : ∀ memType m, 0 < sys.kmsPlanes memType m ↔ m.connected = true
  x11 : sys.windowSystem = .x11 → ∀ m, sys.x11DisplayNames m ≠ [] ↔ m.connected = true

end System

/-! ### What the assumptions give -/

theorem noneConnected_eq (cards : List Card) : noneConnected cards = !cards.any Card.connected := by
  induction cards with
  | nil => rfl
  | cons c cards ih =>
    unfold noneConnected
    rw [List.any_cons, ih]
    by_cases hfile : c.file.length < 4 ∨ c.file.take 4 ≠ str "card"
    · have hname : (c.file.take 4 == str "card") = false := by
        rw [beq_eq_false_iff_ne]
        rcases hfile with hlt | hne
        · intro heq
          have hlen := congrArg List.length heq
          rw [List.length_take] at hlen
          change min 4 c.file.length = 4 at hlen
          omega
        · exact hne
      rw [if_pos hfile]
      simp [Card.connected, hname]
    · rw [if_neg hfile]
      have hname : c.file.take 4 = str "card" := not_not.mp (not_or.mp hfile).2
      cases hopens : c.opens with
      | false => simp [Card.connected, hopens]
      | true =>
        by_cases hdriver : c.driver = some (str "vkms")
        · simp [Card.connected, hdriver]
        · cases hconn : (c.connectors.getD []).any fun conn => conn == some true
          · simp [Card.connected, hdriver, hconn]
          · simp [Card.connected, hdriver, hconn, hname, hopens]

theorem isHeadless_eq (m : Machine) : isHeadless false m = !m.connected := by
  unfold isHeadless Machine.connected
  cases m.dri with
  | none => rfl
  | some cards => simpa using noneConnected_eq cards

/-- VKMS can be offered by KMS. -/
def Machine.offersVkms (m : Machine) : Bool := m.dri.isSome && m.vkms

lemma digits_getLast_ne {fuel n : ℕ} (h : n < fuel) : (digits fuel n).reverse.head? ≠ some 104 := by
  rw [List.head?_reverse]
  induction fuel generalizing n with
  | zero => omega
  | succ fuel ih =>
    have hdigit : ∀ d < 10, digit d ≠ 104 := by decide
    unfold digits
    by_cases h0 : n / 10 = 0
    · rw [if_pos h0]
      simpa using hdigit (n % 10) (Nat.mod_lt n (by decide))
    · rw [if_neg h0, List.getLast?_cons]
      have hrest := ih (n := n / 10) (by omega)
      cases hlast : (digits fuel (n / 10)).getLast? with
      | none => exact absurd (List.getLast?_eq_none_iff.mp hlast) (digits_ne_nil (by omega))
      | some c =>
        rw [hlast] at hrest
        simpa using hrest

theorem decimal_ne_headless (n : ℕ) : decimal n ≠ str "headless" := by
  intro heq
  have hhead := congrArg List.head? heq
  have hplain : decimal n = (digits (n + 1) n).reverse := by
    unfold decimal
    rw [if_neg (by omega), List.nil_append, Int.natAbs_natCast]
  rw [hplain] at hhead
  exact digits_getLast_ne (Nat.lt_succ_self n) hhead

namespace System

variable {sys : System} {m : Machine} {memType : MemType}

/-- KMS offers a display for a physical monitor, or for VKMS. -/
theorem Assumed.kmsDisplayNames_ne_nil (hA : sys.Assumed) (memType : MemType) :
    sys.kmsDisplayNames memType m ≠ [] ↔ m.connected = true ∨ m.offersVkms = true := by
  have hplanes := hA.kms memType m
  unfold kmsDisplayNames Machine.offersVkms
  rw [hA.gbm]
  cases hdri : m.dri with
  | none =>
    have hnot : m.connected = false := by simp [Machine.connected, hdri]
    simp [hnot]
  | some cards =>
    by_cases hzero : sys.kmsPlanes memType m = 0
    · have hnot : m.connected = false := by
        rw [hzero] at hplanes
        simpa using hplanes
      cases m.vkms <;> simp [hzero, hnot]
    · have hconn := hplanes.mp (Nat.pos_of_ne_zero hzero)
      simp [hzero, hconn]

/-- The name that is picked is that of the VKMS display exactly when no monitor is connected. -/
theorem Assumed.pickDisplay_kms (hA : sys.Assumed) (hne : sys.kmsDisplayNames memType m ≠ []) :
    sys.pickDisplay (sys.kmsDisplayNames memType m) = str "headless" ↔ m.connected = false := by
  have hmem : sys.pickDisplay (sys.kmsDisplayNames memType m) ∈ sys.kmsDisplayNames memType m := by
    unfold pickDisplay
    split
    next hmem => exact hmem
    next =>
      obtain ⟨name, names, hnames⟩ := List.exists_cons_of_ne_nil hne
      rw [hnames]
      exact List.mem_cons_self
  have hplanes := hA.kms memType m
  cases hconn : m.connected with
  | true =>
    refine iff_of_false (fun heq => ?_) (by simp)
    have hpos := hplanes.mpr hconn
    rw [heq] at hmem
    have hnames : sys.kmsDisplayNames memType m =
        (List.range (sys.kmsPlanes memType m)).map fun n : ℕ => decimal n := by
      have hdri : m.dri.isNone = false := by
        cases hd : m.dri with
        | none => simp [Machine.connected, hd] at hconn
        | some _ => rfl
      have hsome : ((List.range (sys.kmsPlanes memType m)).map fun n : ℕ => decimal n).isEmpty = false := by
        rw [List.isEmpty_eq_false_iff, ne_eq, List.map_eq_nil_iff, List.range_eq_nil]
        omega
      unfold kmsDisplayNames
      rw [hdri, hA.gbm]
      dsimp only
      rw [hsome]
      rfl
    rw [hnames] at hmem
    obtain ⟨n, -, hn⟩ := List.mem_map.mp hmem
    exact decimal_ne_headless n hn
  | false =>
    refine iff_of_true ?_ rfl
    have hzero : sys.kmsPlanes memType m = 0 := by
      rw [hconn] at hplanes
      simpa using hplanes
    generalize sys.pickDisplay (sys.kmsDisplayNames memType m) = name at hmem ⊢
    unfold kmsDisplayNames at hmem
    split at hmem
    · cases hmem
    · rw [hzero] at hmem
      dsimp only at hmem
      split at hmem
      · simpa using hmem
      · simp at hmem

/-- The sources after `init`: the headless one always, KMS where it offers a display, and X11 only beside KMS. -/
theorem Assumed.init_eq (hA : sys.Assumed) : ∃ x11 : Bool, (x11 = true → m.connected = true) ∧
    sys.init m {} = { kms := m.connected || m.offersVkms, x11, headless := true } := by
  refine ⟨sys.buildX11 && sys.verifyX11 m, fun hx11 => ?_, ?_⟩
  · simp only [verifyX11, Bool.and_eq_true, decide_eq_true_eq, Bool.not_eq_true', List.isEmpty_eq_false_iff] at hx11
    obtain ⟨-, hwindow, hnames⟩ := hx11
    exact (hA.x11 hwindow m).mp hnames
  · have hkms : sys.verifyKms m = (m.connected || m.offersVkms) := by
      rw [Bool.eq_iff_iff, Bool.or_eq_true, ← hA.kmsDisplayNames_ne_nil .unknown]
      simp [verifyKms]
    simp [init, hA.capture, hA.nvfbc m, hA.wayland m, hA.portal m, hkms, Sources.none, verifyHeadless]

/-! ### When the source follows the monitors -/

/-- What `init` found is what a session needs: where KMS had a display to offer, it has one again; where it had none, no
monitor is connected. -/
def Steady (p : Process) : Op → Prop
  | .session _ => ∀ m ∈ p.atInit,
    if m.connected = true ∨ m.offersVkms = true then p.machine.connected = true ∨ p.machine.offersVkms = true
    else p.machine.connected = false
  | .machine _ | .init => True

instance (p : Process) : (op : Op) → Decidable (Steady p op)
  | .session _ => inferInstanceAs (Decidable (∀ m ∈ p.atInit,
    if m.connected = true ∨ m.offersVkms = true then p.machine.connected = true ∨ p.machine.offersVkms = true
    else p.machine.connected = false))
  | .machine _ | .init => instDecidableTrue

/-- The sources are those of `init`. -/
def SourcesOf (sys : System) (p : Process) : Prop := p.sources = (p.atInit.map fun m => sys.init m {}).getD {}

def AllFollow (p : Process) : Prop := ∀ o ∈ p.starts, o.Follows

theorem sourcesOf_step {p q : Process} {op : Op} (h : SourcesOf sys p) (hst : sys.step p op = some q) :
    SourcesOf sys q := by
  cases op with
  | machine m =>
    obtain rfl := Option.some.inj hst
    exact h
  | init =>
    obtain ⟨hnone, rfl⟩ := of_ite_some hst
    unfold SourcesOf at h ⊢
    rw [Option.isNone_iff_eq_none.mp hnone] at h
    rw [h]
    rfl
  | session memType =>
    obtain ⟨-, rfl⟩ := of_ite_some hst
    exact h

/-- One session: where KMS is a source it answers for the monitors, else everything is headless. -/
theorem Assumed.follows_iff (hA : sys.Assumed) {p : Process} (h : SourcesOf sys p) {m : Machine}
    (hm : p.atInit = some m) (memType : MemType) :
    (sys.startSession p memType).Follows ↔ Steady p (.session memType) := by
  obtain ⟨x11, hx11, hinit⟩ := hA.init_eq (m := m)
  have hsources : p.sources = { kms := m.connected || m.offersVkms, x11, headless := true } := by
    rw [h, hm, Option.map_some, Option.getD_some, hinit]
  have hsteady : Steady p (.session memType) ↔
      if m.connected = true ∨ m.offersVkms = true then p.machine.connected = true ∨ p.machine.offersVkms = true
      else p.machine.connected = false := by
    unfold Steady
    rw [hm]
    simp only [Option.mem_def, Option.some.injEq, forall_eq']
  rw [hsteady]
  unfold SessionStart.Follows startSession
  dsimp only
  rw [hA.gamescope, isHeadless_eq, hsources]
  by_cases hoffers : m.connected = true ∨ m.offersVkms = true
  · have hkms : (m.connected || m.offersVkms) = true := by simpa using hoffers
    rw [if_pos hoffers, hkms, ← hA.kmsDisplayNames_ne_nil memType]
    simp only [displayNames, display, kmsDisplay, Bool.false_and, Bool.false_eq_true, if_false, if_true]
    constructor
    · exact fun hfollows => hfollows.2
    · intro hne
      refine ⟨?_, hne⟩
      have hpick := hA.pickDisplay_kms hne
      by_cases hname : sys.pickDisplay (sys.kmsDisplayNames memType p.machine) = str "headless"
      · simp [hname, hpick.mp hname]
      · have hconn : p.machine.connected = true := by
          rw [hpick] at hname
          simpa using hname
        simp [hname, hconn]
  · have hnot : m.connected = false ∧ m.offersVkms = false := by simpa using hoffers
    have hx11' : x11 = false := by
      by_contra hx
      have hconn := hx11 (by simpa using hx)
      rw [hnot.1] at hconn
      cases hconn
    rw [if_neg hoffers, hnot.1, hnot.2, hx11']
    simp [displayNames, display, headlessDisplayNames]

/-- In every run every session start follows the monitors exactly if it is steady. -/
theorem headless_follows_iff (hA : sys.Assumed) (m₀ : Machine) {ops : List Op} {p : Process}
    (hrun : Run sys.SourceStep { machine := m₀ } ops p) :
    (∀ before after q, ops = before ++ after → Run sys.SourceStep { machine := m₀ } before q → AllFollow q) ↔
      Run (Guarded sys.SourceStep Steady) { machine := m₀ } ops p := by
  refine run_safe_iff (I := SourcesOf sys) (P := AllFollow) (fun _ _ _ h hst => sourcesOf_step h hst)
    (fun p op q h hall hst => ?_) rfl (fun o ho => absurd ho List.not_mem_nil) hrun
  cases op with
  | machine m =>
    obtain rfl := Option.some.inj hst
    exact iff_of_true hall trivial
  | init =>
    obtain ⟨-, rfl⟩ := of_ite_some hst
    exact iff_of_true hall trivial
  | session memType =>
    obtain ⟨hsome, rfl⟩ := of_ite_some hst
    obtain ⟨m, hm⟩ := Option.isSome_iff_exists.mp hsome
    rw [← hA.follows_iff h hm]
    constructor
    · exact fun hq => hq _ (List.mem_append_right _ (List.mem_singleton_self _))
    · intro hfollows o ho
      rcases List.mem_append.mp ho with ho | ho
      · exact hall o ho
      · rw [List.mem_singleton.mp ho]
        exact hfollows

end System

/-! ### Machines -/

/-- A machine with one monitor or none. -/
def oneCard (connected vkms : Bool) : Machine where
  dri := some [{
    file := str "card0", opens := true, driver := some (str "amdgpu"), connectors := some [some connected] }]
  vkms := vkms

/-- A process in a Wayland session without an X server, where the wlroots source is not there. -/
def desktop : System where
  buildCuda := false
  buildWayland := true
  buildX11 := true
  buildPortal := true
  waylandDisplay := true
  xDisplay := false
  gamescope := false
  gbm := true
  capture := []
  outputName := []
  nvfbcDisplayNames _ := []
  wlDisplayNames _ := []
  x11DisplayNames _ := []
  portalDisplayNames _ := []
  kmsPlanes _ m := if m.connected then 1 else 0

theorem assumed_desktop : desktop.Assumed where
  capture := rfl
  gamescope := rfl
  gbm := rfl
  nvfbc _ := rfl
  wayland _ := rfl
  portal _ := rfl
  kms _ m := by cases h : m.connected <;> simp [desktop, h]
  x11 h := by cases h

/-- With VKMS, the monitor may go and come back. -/
theorem headless_follows_with_vkms :
    ∃ p, Run desktop.SourceStep { machine := oneCard true true }
        [.init, .session .vaapi, .machine (oneCard false true), .session .vaapi] p ∧
      p.starts.map (·.created) = [some (.kms (str "0")), some .headless] ∧ System.AllFollow p := by
  obtain ⟨p, hrun, hcreated⟩ := exists_run_execWhere_and (f := desktop.step) (G := System.Steady)
    (s := { machine := oneCard true true })
    (l := [.init, .session .vaapi, .machine (oneCard false true), .session .vaapi])
    (P := fun p => p.starts.map (·.created) = [some (.kms (str "0")), some .headless]) (by decide)
  exact ⟨p, hrun.of_guarded, hcreated,
    (System.headless_follows_iff assumed_desktop (oneCard true true) hrun.of_guarded).mpr hrun _ [] p (by simp)
      hrun.of_guarded⟩

/-- Without VKMS, the monitor goes and KMS is still asked; or it comes, and the headless display is still created. -/
theorem not_follows_without_vkms :
    (∃ p, Run desktop.SourceStep { machine := oneCard true false }
      [.init, .machine (oneCard false false), .session .vaapi] p ∧
      p.starts.map (fun o => (o.headless, o.names, o.created)) = [(true, [], some (.kms []))] ∧ ¬System.AllFollow p) ∧
    ∃ p, Run desktop.SourceStep { machine := oneCard false false }
      [.init, .machine (oneCard true false), .session .vaapi] p ∧
      p.starts.map (fun o => (o.headless, o.names, o.created)) = [(false, [str "headless"], some .headless)] ∧
        ¬System.AllFollow p := by
  constructor
  · obtain ⟨p, hrun, hstarts⟩ := exists_run_execWhere_and (f := desktop.step) (G := fun _ _ => True)
      (s := { machine := oneCard true false }) (l := [.init, .machine (oneCard false false), .session .vaapi])
      (P := fun p => p.starts.map (fun o => (o.headless, o.names, o.created)) = [(true, [], some (.kms []))])
      (by decide)
    refine ⟨p, hrun.of_guarded, hstarts, fun hall => ?_⟩
    obtain ⟨o, ho, heq⟩ := List.mem_map.mp
      (show (true, [], some (.kms [])) ∈ p.starts.map (fun o => (o.headless, o.names, o.created)) by
        rw [hstarts]; exact List.mem_singleton_self _)
    exact (hall o ho).2 (congrArg (fun r => r.2.1) heq)
  · obtain ⟨p, hrun, hstarts⟩ := exists_run_execWhere_and (f := desktop.step) (G := fun _ _ => True)
      (s := { machine := oneCard false false }) (l := [.init, .machine (oneCard true false), .session .vaapi])
      (P := fun p => p.starts.map (fun o => (o.headless, o.names, o.created)) =
        [(false, [str "headless"], some .headless)]) (by decide)
    refine ⟨p, hrun.of_guarded, hstarts, fun hall => ?_⟩
    obtain ⟨o, ho, heq⟩ := List.mem_map.mp
      (show (false, [str "headless"], some .headless) ∈ p.starts.map (fun o => (o.headless, o.names, o.created)) by
        rw [hstarts]; exact List.mem_singleton_self _)
    have hheadless := (hall o ho).1.mp (congrArg (fun r => r.2.2) heq)
    rw [show o.headless = false from congrArg (fun r => r.1) heq] at hheadless
    cases hheadless

end MidnightSun.Platf.Source
