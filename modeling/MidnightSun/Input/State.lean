import Mathlib.Algebra.Order.Ring.Nat
import Mathlib.Logic.Function.Basic
import MidnightSun.Input.Touch

/-!
# The state behind the input handlers (src/input.cpp)

`Host` holds the static variables and the delayed tasks of the task pool, `Context` one `input_t` (its queue is kept in
the system, since no handler touches it).  A handler maps both to their new values and lists its platform calls.
-/

namespace MidnightSun.Input

open Platf

/-- `task_id_t`, an address: 0 is `nullptr`. -/
abbrev TaskId := ℕ

def disableLeftButtonDelay : TaskId := 1
def enableLeftButtonDelay : TaskId := 0

/-- `config::input`, as far as the handlers read it.  The timeouts are in milliseconds. -/
structure InputConfig where
  keybindings : List (ℤ × ℤ) := [(0x10, 0xA0), (0x11, 0xA2), (0x12, 0xA4)]
  backButtonTimeout : ℤ := -1
  keyRepeatDelay : ℤ := 500
  keyboard : Bool := true
  mouse : Bool := true
  controller : Bool := true
  highResolutionScrolling : Bool := true

structure Env where
  config : InputConfig
  lim : Limelight

/-- `button_state_e`. -/
inductive ButtonState where
  | none
  | down
  | up
  deriving DecidableEq

/-- `gamepad_t`. -/
structure Gamepad where
  gamepadState : GamepadState := {}
  backTimeoutId : TaskId := 0
  id : ℤ := -1
  backButtonState : ButtonState := .none
  deriving DecidableEq

/-- A position in `input_t::gamepads` and in `gamepadMask`; both have `MAX_GAMEPADS` = min 16 (8 · 2) entries. -/
abbrev Slot := Fin maxGamepads

/-- The bits of `shortcutFlags`. -/
structure ShortcutFlags where
  ctrl : Bool := false
  alt : Bool := false
  shift : Bool := false
  deriving DecidableEq

/-- `flags == SHORTCUT`. -/
def ShortcutFlags.shortcut (f : ShortcutFlags) : Bool := f.ctrl && f.alt && f.shift

/-- `input_t`. -/
structure Context where
  shortcutFlags : ShortcutFlags := {}
  gamepads : Slot → Gamepad := fun _ => {}
  /-- the touch port that waits in `touch_port_event` -/
  touchPortEvent : Option TouchPort := none
  mouseLeftButtonTimeout : TaskId := 0
  touchPort : TouchPort := .initial
  accumulatedVscrollDelta : ℤ := 0
  accumulatedHscrollDelta : ℤ := 0

/-- The delayed tasks: the lambdas of the handlers with what they capture, the task of `input::alloc`, and those of
the rest of the program. -/
inductive Timer where
  | leftRelease (i : ℕ)
  | repeatKey (keyCode : UInt16) (flags syntheticModifiers : UInt8)
  | backButton (i : ℕ) (controller : Slot)
  | nudge
  | other
  deriving DecidableEq

abbrev KeyPressId := UInt32

def makeKpid (vk : UInt16) (flags : UInt8) : KeyPressId := vk.toUInt32 <<< 8 ||| flags.toUInt32
def vkFromKpid (kpid : KeyPressId) : UInt16 := (kpid >>> 8).toUInt16
def flagsFromKpid (kpid : KeyPressId) : UInt8 := (kpid &&& 0xFF).toUInt8

def mousePressSize : ℕ := 5

/-- The statics.  `keyPress` lists the keys whose entry is `true`; a missing entry and a `false` one are read alike. -/
structure Host where
  keyPressRepeatId : TaskId := 0
  keyPress : List KeyPressId := []
  mousePress : ℕ → Bool := fun _ => false
  gamepadMask : Slot → Bool := fun _ => false
  displayCursor : Bool := true
  /-- the event `mail::switch_display` -/
  switchDisplay : Option ℕ := none
  /-- `_timer_tasks`, without the deadlines -/
  timers : List (TaskId × Timer) := []

/-- What a handler cannot foresee: the address of the delayed task it creates, and whether
`platf::alloc_gamepad` fails. -/
structure Response where
  newId : TaskId
  allocFails : Bool := false
  deriving DecidableEq

def Host.pushDelayed (h : Host) (id : TaskId) (t : Timer) : Host := { h with timers := h.timers ++ [(id, t)] }

def Host.cancel (h : Host) (id : TaskId) : Host := { h with timers := h.timers.eraseP (·.1 = id) }

/-- A delayed task is waiting. -/
def Host.waiting (h : Host) (t : Timer) : Prop := ∃ id, (id, t) ∈ h.timers

instance (h : Host) (t : Timer) : Decidable (h.waiting t) :=
  decidable_of_iff (∃ x ∈ h.timers, x.2 = t) (by simp [Host.waiting])

/-! ### Small facts -/

lemma toNat_makeKpid (vk : UInt16) (flags : UInt8) : (makeKpid vk flags).toNat = vk.toNat * 2 ^ 8 + flags.toNat := by
  have hvk : vk.toNat < 2 ^ 16 := vk.toNat_lt
  have hflags : flags.toNat < 2 ^ 8 := flags.toNat_lt
  have hshift : vk.toNat <<< 8 % 4294967296 = vk.toNat <<< 8 := by
    rw [Nat.shiftLeft_eq]
    omega
  simp only [makeKpid, UInt32.toNat_or, UInt32.toNat_shiftLeft, UInt16.toNat_toUInt32, UInt8.toNat_toUInt32]
  simp only [show (8 : UInt32).toNat % 32 = 8 from rfl, hshift]
  rw [← Nat.shiftLeft_add_eq_or_of_lt hflags, Nat.shiftLeft_eq]

theorem vkFromKpid_makeKpid (vk : UInt16) (flags : UInt8) : vkFromKpid (makeKpid vk flags) = vk := by
  apply UInt16.toNat_inj.mp
  have hvk : vk.toNat < 2 ^ 16 := vk.toNat_lt
  have hflags : flags.toNat < 2 ^ 8 := flags.toNat_lt
  rw [vkFromKpid, UInt32.toNat_toUInt16, UInt32.toNat_shiftRight, toNat_makeKpid,
    show (8 : UInt32).toNat % 32 = 8 from rfl, Nat.shiftRight_eq_div_pow]
  omega

section
variable (h : Host) (id : TaskId) (t : Timer)

@[simp] theorem Host.pushDelayed_keyPress : (h.pushDelayed id t).keyPress = h.keyPress := rfl
@[simp] theorem Host.pushDelayed_mousePress : (h.pushDelayed id t).mousePress = h.mousePress := rfl
@[simp] theorem Host.pushDelayed_gamepadMask : (h.pushDelayed id t).gamepadMask = h.gamepadMask := rfl
@[simp] theorem Host.pushDelayed_timers : (h.pushDelayed id t).timers = h.timers ++ [(id, t)] := rfl
@[simp] theorem Host.cancel_keyPress : (h.cancel id).keyPress = h.keyPress := rfl
@[simp] theorem Host.cancel_mousePress : (h.cancel id).mousePress = h.mousePress := rfl
@[simp] theorem Host.cancel_gamepadMask : (h.cancel id).gamepadMask = h.gamepadMask := rfl
@[simp] theorem Host.cancel_timers : (h.cancel id).timers = h.timers.eraseP (·.1 = id) := rfl

theorem Host.waiting_pushDelayed (u : Timer) : (h.pushDelayed id t).waiting u ↔ h.waiting u ∨ u = t := by
  simp only [Host.waiting, Host.pushDelayed_timers, List.mem_append, List.mem_singleton, Prod.mk.injEq]
  constructor
  · rintro ⟨x, hx | ⟨-, rfl⟩⟩
    · exact Or.inl ⟨x, hx⟩
    · exact Or.inr rfl
  · rintro (⟨x, hx⟩ | rfl)
    · exact ⟨x, Or.inl hx⟩
    · exact ⟨id, Or.inr ⟨rfl, rfl⟩⟩

theorem Host.waiting_of_cancel {u : Timer} (hu : (h.cancel id).waiting u) : h.waiting u := by
  obtain ⟨x, hx⟩ := hu
  exact ⟨x, List.mem_of_mem_eraseP hx⟩

end

end MidnightSun.Input
