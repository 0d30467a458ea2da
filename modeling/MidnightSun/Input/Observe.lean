import Mathlib.Algebra.Order.Ring.Int
import Mathlib.Algebra.Ring.Prod
import MidnightSun.Input.GamepadEffect

/-!
# What the platform gets to see (src/input.cpp)

Relative motion and scrolling count as sums.  The calls that report a position (of the mouse on a surface, of a pointer,
of a controller or of a motion sensor) count by the last one for each, and those that change a state are kept in their
order, each with the positions at that moment.
-/

namespace MidnightSun.Input

open Lib Platf

/-- The last positions that were reported. -/
structure Positions where
  absMouse : Platf.TouchPort → Option (Float32 × Float32) := fun _ => none
  /-- the pointers of each client -/
  touches : ℕ × UInt32 → Option (Platf.TouchPort × TouchInput) := fun _ => none
  pens : ℕ → Option (Platf.TouchPort × PenInput) := fun _ => none
  gamepads : ℤ → Option GamepadState := fun _ => none
  gamepadTouches : ℤ × UInt32 → Option GamepadTouch := fun _ => none
  motions : ℤ × UInt8 → Option GamepadMotion := fun _ => none

def Positions.after (s : Positions) : Call → Positions
  | .absMouse port x y => { s with absMouse := Function.update s.absMouse port (some (x, y)) }
  | .touchUpdate client port touch =>
    { s with touches := Function.update s.touches (client, touch.pointerId) (some (port, touch)) }
  | .penUpdate client port pen => { s with pens := Function.update s.pens client (some (port, pen)) }
  | .gamepadUpdate nr state => { s with gamepads := Function.update s.gamepads nr (some state) }
  | .freeGamepad nr => { s with gamepads := Function.update s.gamepads nr none }
  | .gamepadTouch touch =>
    { s with gamepadTouches := Function.update s.gamepadTouches (touch.id.globalIndex, touch.pointerId) (some touch) }
  | .gamepadMotion motion =>
    { s with motions := Function.update s.motions (motion.id.globalIndex, motion.motionType) (some motion) }
  | _ => s

/-- The calls for buttons, keys, text, new gamepads and batteries, and for touches that do more than move. -/
def stateChanging (lim : Limelight) : Call → Bool
  | .buttonMouse _ _ | .keyboardUpdate _ _ _ | .unicode _ | .gamepadBattery _ => true
  | .allocGamepad _ _ failed => !failed
  | .touchUpdate _ _ touch => !lim.moves touch.eventType
  | .penUpdate _ _ pen => !lim.moves pen.eventType
  | .gamepadTouch touch => !lim.moves touch.eventType
  | _ => false

/-- Motion and scrolling of a call. -/
def motionOf : Call → ℤ × ℤ
  | .moveMouse deltaX deltaY => (deltaX, deltaY)
  | _ => 0

def vscrollOf : Call → ℤ
  | .scroll distance => distance
  | _ => 0

def hscrollOf : Call → ℤ
  | .hscroll distance => distance
  | _ => 0

structure Observation where
  motion : ℤ × ℤ := 0
  vscroll : ℤ := 0
  hscroll : ℤ := 0
  positions : Positions := {}
  /-- the state-changing calls, each with the positions before it -/
  events : List (Call × Positions) := []

def observe (lim : Limelight) (o : Observation) (call : Call) : Observation where
  motion := o.motion + motionOf call
  vscroll := o.vscroll + vscrollOf call
  hscroll := o.hscroll + hscrollOf call
  positions := o.positions.after call
  events := if stateChanging lim call then o.events ++ [(call, o.positions)] else o.events

/-! ### Calls in another order -/

section Order

variable {lim : Limelight} {o : Observation}

/-- A call that only reports a position. -/
def Reports (lim : Limelight) (call : Call) : Prop :=
  motionOf call = 0 ∧ vscrollOf call = 0 ∧ hscrollOf call = 0 ∧ stateChanging lim call = false

lemma observe_reports {call : Call} (h : Reports lim call) :
    observe lim o call = { o with positions := o.positions.after call } := by
  obtain ⟨hmotion, hv, hh, hevent⟩ := h
  rw [observe, hmotion, hv, hh, hevent, add_zero, add_zero, add_zero]
  rfl

theorem observe_again {a b : Call} (ha : Reports lim a) (hb : Reports lim b)
    (hpos : ∀ s : Positions, (s.after a).after b = s.after b) :
    observe lim (observe lim o a) b = observe lim o b := by
  rw [observe_reports ha, observe_reports hb, observe_reports hb, hpos]

theorem observe_comm {a b : Call} (ha : Reports lim a) (hb : Reports lim b)
    (hpos : ∀ s : Positions, (s.after a).after b = (s.after b).after a) :
    observe lim (observe lim o a) b = observe lim (observe lim o b) a := by
  rw [observe_reports ha, observe_reports hb, observe_reports hb, observe_reports ha, hpos]

theorem foldl_observe_comm {a : Call} {calls : List Call} (ha : Reports lim a) (hcalls : ∀ b ∈ calls, Reports lim b)
    (hpos : ∀ b ∈ calls, ∀ s : Positions, (s.after a).after b = (s.after b).after a) :
    calls.foldl (observe lim) (observe lim o a) = observe lim (calls.foldl (observe lim) o) a := by
  induction calls generalizing o with
  | nil => rfl
  | cons b calls ih =>
    obtain ⟨hb, hrest⟩ := List.forall_mem_cons.mp hcalls
    obtain ⟨hposb, hposrest⟩ := List.forall_mem_cons.mp hpos
    rw [List.foldl_cons, List.foldl_cons, observe_comm ha hb hposb, ih hrest hposrest]

end Order

end MidnightSun.Input
