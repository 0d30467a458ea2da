import MidnightSun.Input.Passthrough
import MidnightSun.Lib.Bytes
import MidnightSun.Lib.Fields
import MidnightSun.Lib.View

/-!
# The bytes of input packets (src/input.cpp)

A queued message is a vector of bytes, which the magic in its header turns into a pointer to one of the packet structs.
The structs come from a header outside the repository: where their fields lie is a parameter.
-/

namespace MidnightSun.Input

open Lib

/-- The structs that a message is cast to.  Mouse buttons and keys have two magics. -/
inductive Kind where
  | relMouseMove
  | absMouseMove
  | mouseButton (release : Bool)
  | scroll
  | hscroll
  | keyboard (release : Bool)
  | unicode
  | multiController
  | touch
  | pen
  | controllerArrival
  | controllerTouch
  | controllerMotion
  | controllerBattery
  deriving DecidableEq

/-- The fields of the structs, without those of the header. -/
inductive Field where
  | deltaX
  | deltaY
  | x
  | y
  | z
  | width
  | height
  | button
  | scrollAmt1
  | scrollAmt2
  | scrollAmount
  | keyCode
  | modifiers
  | flags
  | controllerNumber
  | activeGamepadMask
  | buttonFlags
  | buttonFlags2
  | leftTrigger
  | rightTrigger
  | leftStickX
  | leftStickY
  | rightStickX
  | rightStickY
  | eventType
  | rotation
  | pointerId
  | pressureOrDistance
  | contactAreaMajor
  | contactAreaMinor
  | toolType
  | penButtons
  | tilt
  | type
  | capabilities
  | supportedButtonFlags
  | pressure
  | motionType
  | batteryState
  | batteryPercentage
  deriving DecidableEq

/-- The fields that the `print` of a packet names, in this order. -/
def printFields : Kind → List Field
  | .relMouseMove => [.deltaX, .deltaY]
  | .absMouseMove => [.x, .y, .width, .height]
  | .mouseButton _ => [.button]
  | .scroll => [.scrollAmt1]
  | .hscroll => [.scrollAmount]
  | .keyboard _ => [.keyCode, .modifiers, .flags]
  | .unicode => []
  | .multiController =>
    [.controllerNumber, .activeGamepadMask, .buttonFlags, .buttonFlags2, .leftTrigger, .rightTrigger, .leftStickX,
      .leftStickY, .rightStickX, .rightStickY]
  | .touch =>
    [.eventType, .pointerId, .x, .y, .pressureOrDistance, .contactAreaMajor, .contactAreaMinor, .rotation]
  | .pen =>
    [.eventType, .toolType, .penButtons, .x, .y, .pressureOrDistance, .contactAreaMajor, .contactAreaMinor, .rotation,
      .tilt]
  | .controllerArrival => [.controllerNumber, .type, .capabilities, .supportedButtonFlags]
  | .controllerTouch => [.controllerNumber, .eventType, .pointerId, .x, .y, .pressure]
  | .controllerMotion => [.controllerNumber, .motionType, .x, .y, .z]
  | .controllerBattery => [.controllerNumber, .batteryState, .batteryPercentage]

/-- `batch` assigns whole structs of these. -/
def Kind.copied : Kind → Bool
  | .absMouseMove | .multiController | .touch | .pen | .controllerTouch | .controllerMotion => true
  | _ => false

/-- `sizeof(header.magic)`; `header.size` is as long. -/
def sizeofMagic : ℕ := 4

/-- Where the structs have their fields, and the magics. -/
structure Layout where
  /-- the case of the switches for a magic -/
  kind : ℕ → Option Kind
  /-- the size of the header; the text of a UTF-8 packet follows it -/
  headerSize : ℕ
  sizePos : ℕ
  magicPos : ℕ
  pos : Kind → Field → ℕ
  width : Kind → Field → ℕ
  /-- the size of the whole struct -/
  size : Kind → ℕ
  magic_le : magicPos + sizeofMagic ≤ headerSize
  width_pos : ∀ k f, 0 < width k f
  headerSize_le : ∀ k, ∀ f ∈ printFields k, headerSize ≤ pos k f
  field_le : ∀ k, ∀ f ∈ printFields k, pos k f + width k f ≤ size k

/-- The vector holds the field. -/
def Layout.holds (lay : Layout) (k : Kind) (f : Field) (v : List UInt8) : Prop :=
  lay.pos k f + lay.width k f ≤ v.length

/-! ### What the bytes say -/

section Decode

variable (lay : Layout) (v : List UInt8)

def Layout.magic : ℕ := leValue (bytesAt v lay.magicPos sizeofMagic)

/-- `util::endian::big(header.size)`. -/
def Layout.headerLength : ℕ := leValue (bytesAt v lay.sizePos sizeofMagic).reverse

def Layout.bytes (k : Kind) (f : Field) : List UInt8 := bytesAt v (lay.pos k f) (lay.width k f)

def Layout.little (k : Kind) (f : Field) : ℕ := leValue (lay.bytes v k f)

def Layout.big (k : Kind) (f : Field) : ℕ := leValue (lay.bytes v k f).reverse

/-- `util::endian::big(header.size) - sizeof(header.magic)`, on `size_t`. -/
def Layout.textSize : ℕ := (lay.headerLength v + 2 ^ 64 - sizeofMagic) % 2 ^ 64

/-- The same as an `int`. -/
def Layout.textLength : ℤ := (BitVec.ofNat 32 (lay.textSize v)).toInt

/-- The packet that a pointer of this type points to. -/
def Layout.packet : Kind → Packet
  | .relMouseMove =>
    let big := fun f => Int16.ofNat (lay.big v .relMouseMove f)
    .relMouseMove { deltaX := big .deltaX, deltaY := big .deltaY }
  | .absMouseMove =>
    let big := fun f => Int16.ofNat (lay.big v .absMouseMove f)
    .absMouseMove { x := big .x, y := big .y, width := big .width, height := big .height }
  | .mouseButton release => .mouseButton { release := release, button := lay.big v (.mouseButton release) .button }
  | .scroll =>
    let big := fun f => Int16.ofNat (lay.big v .scroll f)
    .scroll { scrollAmt1 := big .scrollAmt1, scrollAmt2 := big .scrollAmt2 }
  | .hscroll => .hscroll { scrollAmount := Int16.ofNat (lay.big v .hscroll .scrollAmount) }
  | .keyboard release =>
    let little := lay.little v (.keyboard release)
    .keyboard
      { release := release, flags := UInt8.ofNat (little .flags), keyCode := UInt16.ofNat (little .keyCode),
        modifiers := UInt8.ofNat (little .modifiers) }
  | .unicode => .unicode (bytesAt v lay.headerSize (lay.textLength v).toNat)
  | .multiController =>
    let little := lay.little v .multiController
    .multiController
      { controllerNumber := Int16.ofNat (little .controllerNumber)
        activeGamepadMask := UInt16.ofNat (little .activeGamepadMask)
        buttonFlags := UInt16.ofNat (little .buttonFlags)
        leftTrigger := UInt8.ofNat (little .leftTrigger)
        rightTrigger := UInt8.ofNat (little .rightTrigger)
        leftStickX := Int16.ofNat (little .leftStickX)
        leftStickY := Int16.ofNat (little .leftStickY)
        rightStickX := Int16.ofNat (little .rightStickX)
        rightStickY := Int16.ofNat (little .rightStickY)
        buttonFlags2 := UInt16.ofNat (little .buttonFlags2) }
  | .touch =>
    let little := lay.little v .touch
    .touch
      { eventType := UInt8.ofNat (little .eventType)
        rotation := UInt16.ofNat (little .rotation)
        pointerId := UInt32.ofNat (little .pointerId)
        x := UInt32.ofNat (little .x)
        y := UInt32.ofNat (little .y)
        pressureOrDistance := UInt32.ofNat (little .pressureOrDistance)
        contactAreaMajor := UInt32.ofNat (little .contactAreaMajor)
        contactAreaMinor := UInt32.ofNat (little .contactAreaMinor) }
  | .pen =>
    let little := lay.little v .pen
    .pen
      { eventType := UInt8.ofNat (little .eventType)
        toolType := UInt8.ofNat (little .toolType)
        penButtons := UInt8.ofNat (little .penButtons)
        x := UInt32.ofNat (little .x)
        y := UInt32.ofNat (little .y)
        pressureOrDistance := UInt32.ofNat (little .pressureOrDistance)
        rotation := UInt16.ofNat (little .rotation)
        tilt := UInt8.ofNat (little .tilt)
        contactAreaMajor := UInt32.ofNat (little .contactAreaMajor)
        contactAreaMinor := UInt32.ofNat (little .contactAreaMinor) }
  | .controllerArrival =>
    let little := lay.little v .controllerArrival
    .controllerArrival
      { controllerNumber := UInt8.ofNat (little .controllerNumber)
        type := UInt8.ofNat (little .type)
        capabilities := UInt16.ofNat (little .capabilities)
        supportedButtonFlags := UInt32.ofNat (little .supportedButtonFlags) }
  | .controllerTouch =>
    let little := lay.little v .controllerTouch
    .controllerTouch
      { controllerNumber := UInt8.ofNat (little .controllerNumber)
        eventType := UInt8.ofNat (little .eventType)
        pointerId := UInt32.ofNat (little .pointerId)
        x := UInt32.ofNat (little .x)
        y := UInt32.ofNat (little .y)
        pressure := UInt32.ofNat (little .pressure) }
  | .controllerMotion =>
    let little := lay.little v .controllerMotion
    .controllerMotion
      { controllerNumber := UInt8.ofNat (little .controllerNumber)
        motionType := UInt8.ofNat (little .motionType)
        x := UInt32.ofNat (little .x)
        y := UInt32.ofNat (little .y)
        z := UInt32.ofNat (little .z) }
  | .controllerBattery =>
    let little := lay.little v .controllerBattery
    .controllerBattery
      { controllerNumber := UInt8.ofNat (little .controllerNumber)
        batteryState := UInt8.ofNat (little .batteryState)
        batteryPercentage := UInt8.ofNat (little .batteryPercentage) }

end Decode

end MidnightSun.Input
