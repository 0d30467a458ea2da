import Mathlib.Data.Int.Notation
import Mathlib.Data.Nat.Notation

/-!
# The input side of the platform layer (src/platform/common.h)

The values that the input code hands to the platform, and its calls.
-/

namespace MidnightSun.Platf

abbrev maxGamepads : ℕ := 16

def back : UInt32 := 0x0020
def home : UInt32 := 0x0400

structure GamepadState where
  buttonFlags : UInt32 := 0
  lt : UInt8 := 0
  rt : UInt8 := 0
  lsX : Int16 := 0
  lsY : Int16 := 0
  rsX : Int16 := 0
  rsY : Int16 := 0
  deriving DecidableEq

structure GamepadId where
  /-- identifies the gamepad among all clients -/
  globalIndex : ℤ
  /-- the controller number of the client -/
  clientRelativeIndex : UInt8
  deriving DecidableEq

structure GamepadArrival where
  type : UInt8 := 0
  capabilities : UInt16 := 0
  supportedButtons : UInt32 := 0
  deriving DecidableEq

structure GamepadTouch where
  id : GamepadId
  eventType : UInt8
  pointerId : UInt32
  x : Float32
  y : Float32
  pressure : Float32

structure GamepadMotion where
  id : GamepadId
  motionType : UInt8
  x : Float32
  y : Float32
  z : Float32

structure GamepadBattery where
  id : GamepadId
  state : UInt8
  percentage : UInt8
  deriving DecidableEq

structure TouchPort where
  offsetX : ℤ
  offsetY : ℤ
  width : ℤ
  height : ℤ
  logicalWidth : ℤ := 0
  logicalHeight : ℤ := 0
  deriving DecidableEq

structure TouchInput where
  eventType : UInt8
  rotation : UInt16
  pointerId : UInt32
  x : Float32
  y : Float32
  pressureOrDistance : Float32
  contactAreaMajor : Float32
  contactAreaMinor : Float32

structure PenInput where
  eventType : UInt8
  toolType : UInt8
  penButtons : UInt8
  tilt : UInt8
  rotation : UInt16
  x : Float32
  y : Float32
  pressureOrDistance : Float32
  contactAreaMajor : Float32
  contactAreaMinor : Float32

/-- A call of the platform layer.  `allocGamepad` records whether the platform refused, `client` is the input context
whose `client_context` is passed. -/
inductive Call where
  | moveMouse (deltaX deltaY : ℤ)
  | absMouse (port : TouchPort) (x y : Float32)
  | buttonMouse (button : ℕ) (release : Bool)
  | scroll (distance : ℤ)
  | hscroll (distance : ℤ)
  | keyboardUpdate (modcode : UInt16) (release : Bool) (flags : UInt8)
  | unicode (utf8 : List UInt8)
  | touchUpdate (client : ℕ) (port : TouchPort) (touch : TouchInput)
  | penUpdate (client : ℕ) (port : TouchPort) (pen : PenInput)
  | allocGamepad (id : GamepadId) (metadata : GamepadArrival) (failed : Bool)
  | freeGamepad (nr : ℤ)
  | gamepadUpdate (nr : ℤ) (state : GamepadState)
  | gamepadTouch (touch : GamepadTouch)
  | gamepadMotion (motion : GamepadMotion)
  | gamepadBattery (battery : GamepadBattery)

end MidnightSun.Platf
