import MidnightSun.Platf.Common

/-!
# Input packets and their batching (src/input.cpp)

One constructor for each packet type; the two magics of mouse buttons and of keys are the flag `release`.  Multi-byte
fields carry the values that `util::endian` gives for them, and a `netfloat` is its four bytes read as one word.  The
constants of the streaming protocol come from a header outside the repository; they are the fields of `Limelight`.
-/

namespace MidnightSun.Input

structure RelMouseMove where
  deltaX : Int16
  deltaY : Int16
  deriving DecidableEq

structure AbsMouseMove where
  x : Int16
  y : Int16
  width : Int16
  height : Int16
  deriving DecidableEq

structure MouseButton where
  release : Bool
  button : ℕ
  deriving DecidableEq

structure Scroll where
  scrollAmt1 : Int16
  scrollAmt2 : Int16
  deriving DecidableEq

structure HScroll where
  scrollAmount : Int16
  deriving DecidableEq

structure Keyboard where
  release : Bool
  flags : UInt8
  keyCode : UInt16
  modifiers : UInt8
  deriving DecidableEq

structure MultiController where
  controllerNumber : Int16
  activeGamepadMask : UInt16
  buttonFlags : UInt16
  leftTrigger : UInt8
  rightTrigger : UInt8
  leftStickX : Int16
  leftStickY : Int16
  rightStickX : Int16
  rightStickY : Int16
  buttonFlags2 : UInt16
  deriving DecidableEq

structure Touch where
  eventType : UInt8
  rotation : UInt16
  pointerId : UInt32
  x : UInt32
  y : UInt32
  pressureOrDistance : UInt32
  contactAreaMajor : UInt32
  contactAreaMinor : UInt32
  deriving DecidableEq

structure Pen where
  eventType : UInt8
  toolType : UInt8
  penButtons : UInt8
  x : UInt32
  y : UInt32
  pressureOrDistance : UInt32
  rotation : UInt16
  tilt : UInt8
  contactAreaMajor : UInt32
  contactAreaMinor : UInt32
  deriving DecidableEq

structure ControllerArrival where
  controllerNumber : UInt8
  type : UInt8
  capabilities : UInt16
  supportedButtonFlags : UInt32
  deriving DecidableEq

structure ControllerTouch where
  controllerNumber : UInt8
  eventType : UInt8
  pointerId : UInt32
  x : UInt32
  y : UInt32
  pressure : UInt32
  deriving DecidableEq

structure ControllerMotion where
  controllerNumber : UInt8
  motionType : UInt8
  x : UInt32
  y : UInt32
  z : UInt32
  deriving DecidableEq

structure ControllerBattery where
  controllerNumber : UInt8
  batteryState : UInt8
  batteryPercentage : UInt8
  deriving DecidableEq

inductive Packet where
  | relMouseMove (packet : RelMouseMove)
  | absMouseMove (packet : AbsMouseMove)
  | mouseButton (packet : MouseButton)
  | scroll (packet : Scroll)
  | hscroll (packet : HScroll)
  | keyboard (packet : Keyboard)
  | unicode (text : List UInt8)
  | multiController (packet : MultiController)
  | touch (packet : Touch)
  | pen (packet : Pen)
  | controllerArrival (packet : ControllerArrival)
  | controllerTouch (packet : ControllerTouch)
  | controllerMotion (packet : ControllerMotion)
  | controllerBattery (packet : ControllerBattery)
  deriving DecidableEq

/-- The constants of the streaming protocol that the input code compares with. -/
structure Limelight where
  buttonLeft : ℕ
  buttonRight : ℕ
  modifierShift : UInt8
  modifierCtrl : UInt8
  modifierAlt : UInt8
  touchEventHover : UInt8
  touchEventMove : UInt8
  rotUnknown : UInt16

/-! ### Batching -/

/-- `batch_result_e`; a batched entry carries the packet that `dest` becomes. -/
inductive BatchResult (α : Type) where
  | batched (dest : α)
  | notBatchable
  | terminateBatch
  deriving DecidableEq

def BatchResult.map {α β : Type} (f : α → β) : BatchResult α → BatchResult β
  | batched dest => batched (f dest)
  | notBatchable => notBatchable
  | terminateBatch => terminateBatch

/-- `__builtin_add_overflow` on shorts: whether the sum overflows, and the wrapped sum. -/
def addOverflow (a b : Int16) : Bool × Int16 := ((a + b).toInt ≠ a.toInt + b.toInt, a + b)

/-- The batching of relative mouse messages.  The source negates the overflow flag here. -/
def batchRelMouseMove (dest src : RelMouseMove) : BatchResult RelMouseMove :=
  let (overflowX, deltaX) := addOverflow dest.deltaX src.deltaX
  let (overflowY, deltaY) := addOverflow dest.deltaY src.deltaY
  if !overflowX then .terminateBatch
  else if !overflowY then .terminateBatch
  else .batched { deltaX := deltaX, deltaY := deltaY }

def batchAbsMouseMove (dest src : AbsMouseMove) : BatchResult AbsMouseMove :=
  if dest.width ≠ src.width ∨ dest.height ≠ src.height then .terminateBatch
  else .batched src

def batchScroll (dest src : Scroll) : BatchResult Scroll :=
  let (overflow, scrollAmt) := addOverflow dest.scrollAmt1 src.scrollAmt1
  if !overflow then .terminateBatch
  else .batched { scrollAmt1 := scrollAmt, scrollAmt2 := scrollAmt }

def batchHScroll (dest src : HScroll) : BatchResult HScroll :=
  let (overflow, scrollAmt) := addOverflow dest.scrollAmount src.scrollAmount
  if !overflow then .terminateBatch
  else .batched { scrollAmount := scrollAmt }

def batchMultiController (dest src : MultiController) : BatchResult MultiController :=
  if dest.activeGamepadMask ≠ src.activeGamepadMask then .terminateBatch
  else if dest.controllerNumber ≠ src.controllerNumber then .notBatchable
  else if dest.buttonFlags ≠ src.buttonFlags ∨ dest.buttonFlags2 ≠ src.buttonFlags2 then .terminateBatch
  else .batched src

section
variable (lim : Limelight)

/-- A touch or pen event that does not change the state of the pointer: a move or a hover. -/
def Limelight.moves (eventType : UInt8) : Bool := eventType = lim.touchEventMove ∨ eventType = lim.touchEventHover

def batchTouch (dest src : Touch) : BatchResult Touch :=
  if !lim.moves dest.eventType then .terminateBatch
  else if !lim.moves src.eventType then .terminateBatch
  else if dest.pointerId ≠ src.pointerId then .notBatchable
  else if dest.eventType ≠ src.eventType then .terminateBatch
  else .batched src

def batchPen (dest src : Pen) : BatchResult Pen :=
  if !lim.moves dest.eventType then .terminateBatch
  else if dest.eventType ≠ src.eventType then .terminateBatch
  else if dest.penButtons ≠ src.penButtons then .terminateBatch
  else if dest.toolType ≠ src.toolType then .terminateBatch
  else .batched src

/-- The batching of controller touch messages.  Unlike `batchTouch` it looks at the controller before it looks at the
event of `src`. -/
def batchControllerTouch (dest src : ControllerTouch) : BatchResult ControllerTouch :=
  if !lim.moves dest.eventType then .terminateBatch
  else if dest.controllerNumber ≠ src.controllerNumber then .notBatchable
  else if !lim.moves src.eventType then .terminateBatch
  else if dest.pointerId ≠ src.pointerId then .notBatchable
  else if dest.eventType ≠ src.eventType then .terminateBatch
  else .batched src

def batchControllerMotion (dest src : ControllerMotion) : BatchResult ControllerMotion :=
  if dest.controllerNumber ≠ src.controllerNumber then .notBatchable
  else if dest.motionType ≠ src.motionType then .notBatchable
  else .batched src

/-- `batch(PNV_INPUT_HEADER, PNV_INPUT_HEADER)`: different magics and all other message types end the batch. -/
def batch (dest src : Packet) : BatchResult Packet :=
  match dest, src with
  | .relMouseMove d, .relMouseMove s => (batchRelMouseMove d s).map .relMouseMove
  | .absMouseMove d, .absMouseMove s => (batchAbsMouseMove d s).map .absMouseMove
  | .scroll d, .scroll s => (batchScroll d s).map .scroll
  | .hscroll d, .hscroll s => (batchHScroll d s).map .hscroll
  | .multiController d, .multiController s => (batchMultiController d s).map .multiController
  | .touch d, .touch s => (batchTouch lim d s).map .touch
  | .pen d, .pen s => (batchPen lim d s).map .pen
  | .controllerTouch d, .controllerTouch s => (batchControllerTouch lim d s).map .controllerTouch
  | .controllerMotion d, .controllerMotion s => (batchControllerMotion d s).map .controllerMotion
  | _, _ => .terminateBatch

end

end MidnightSun.Input
