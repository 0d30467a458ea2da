import MidnightSun.Input.Packet

/-!
# Coordinates of absolute, touch and pen input (src/input.cpp)

The arithmetic is single precision; `cos`, `sin`, `pow` and `sqrt` are the library's, and the literals with `M_PI` are
double precision before they are narrowed, as in the source.
-/

namespace MidnightSun.Input

/-- `input::touch_port_t`. -/
structure TouchPort extends Platf.TouchPort where
  envWidth : ℤ
  envHeight : ℤ
  clientOffsetX : Float32
  clientOffsetY : Float32
  scalarInv : Float32
  scalarTpcoords : Float32
  envLogicalWidth : ℤ
  envLogicalHeight : ℤ

/-- The touch port of a new input context. -/
def TouchPort.initial : TouchPort where
  offsetX := 0
  offsetY := 0
  width := 0
  height := 0
  envWidth := 0
  envHeight := 0
  clientOffsetX := 1.0
  clientOffsetY := 1.0
  scalarInv := 0
  scalarTpcoords := 0
  envLogicalWidth := 0
  envLogicalHeight := 0

/-- `operator bool`. -/
def TouchPort.usable (p : TouchPort) : Bool := p.width ≠ 0 ∧ p.height ≠ 0 ∧ p.envWidth ≠ 0 ∧ p.envHeight ≠ 0

def clamp (v lo hi : Float32) : Float32 := if v < lo then lo else if hi < v then hi else v

def fromNetfloat (f : UInt32) : Float32 := Float32.ofBits f

def fromClampedNetfloat (f : UInt32) (min max : Float32) : Float32 := clamp (fromNetfloat f) min max

/-- `client_to_touchport`, from the touch port that is current. -/
def clientToTouchport (port : TouchPort) (val size : Float32 × Float32) : Option (Float32 × Float32) :=
  if !port.usable then none
  else
    let scalarX := Float32.ofInt port.width / size.1
    let scalarY := Float32.ofInt port.height / size.2
    let x := clamp val.1 0.0 size.1 * scalarX
    let y := clamp val.2 0.0 size.2 * scalarY
    let offsetX := port.clientOffsetX
    let offsetY := port.clientOffsetY
    let x := clamp x offsetX (size.1 * scalarX - offsetX)
    let y := clamp y offsetY (size.2 * scalarY - offsetY)
    let x := (x - offsetX) * port.scalarInv
    let y := (y - offsetY) * port.scalarInv
    let finalX := (x + Float32.ofInt port.offsetX * port.scalarTpcoords) / port.scalarTpcoords
    let finalY := (y + Float32.ofInt port.offsetY * port.scalarTpcoords) / port.scalarTpcoords
    some (finalX, finalY)

def pi : Float := 3.14159265358979323846

def multiplyPolarByCartesianScalar (r angle : Float32) (scalar : Float32 × Float32) : Float32 :=
  let x := r * angle.cos * scalar.1
  let y := r * angle.sin * scalar.2
  (x.toFloat.pow 2 + y.toFloat.pow 2).sqrt.toFloat32

def scaleClientContactArea (lim : Limelight) (val : Float32 × Float32) (rotation : UInt16)
    (scalar : Float32 × Float32) : Float32 × Float32 :=
  let angle : Float32 :=
    if rotation = lim.rotUnknown then (pi / 4).toFloat32 else (Float.ofNat rotation.toNat * (pi / 180)).toFloat32
  let major := val.1
  let minor := if val.2 != 0.0 then val.2 else val.1
  (multiplyPolarByCartesianScalar major angle scalar,
    multiplyPolarByCartesianScalar minor (angle.toFloat + pi / 2).toFloat32 scalar)

/-- `monitor_touch_port`: the port in logical touch dimensions, with the normalized coordinates. -/
def monitorTouchPort (port : TouchPort) (coords : Float32 × Float32) :
    Option (Platf.TouchPort × (Float32 × Float32)) :=
  let w := Float32.ofInt port.width * port.scalarInv / port.scalarTpcoords
  let h := Float32.ofInt port.height * port.scalarInv / port.scalarTpcoords
  if w ≤ 0.0 ∨ h ≤ 0.0 then none
  else
    let coords := ((coords.1 - Float32.ofInt port.offsetX) / w, (coords.2 - Float32.ofInt port.offsetY) / h)
    some ({ offsetX := port.offsetX, offsetY := port.offsetY,
            width := w.toInt32.toInt, height := h.toInt32.toInt }, coords)

/-- Whether `monitorTouchPort` succeeds depends only on the port. -/
def TouchPort.monitored (port : TouchPort) : Bool :=
  let w := Float32.ofInt port.width * port.scalarInv / port.scalarTpcoords
  let h := Float32.ofInt port.height * port.scalarInv / port.scalarTpcoords
  port.usable && !decide (w ≤ 0.0 ∨ h ≤ 0.0)

/-- The port of an absolute mouse position. -/
def TouchPort.absPort (port : TouchPort) : Platf.TouchPort :=
  if port.envLogicalWidth ≠ 0 ∧ port.envLogicalHeight ≠ 0 then
    { offsetX := port.offsetX, offsetY := port.offsetY,
      width := port.envLogicalWidth, height := port.envLogicalHeight }
  else
    { offsetX := port.offsetX, offsetY := port.offsetY, width := port.envWidth, height := port.envHeight }

/-- Degrees from 0 to 359, or unknown. -/
def normalizeRotation (lim : Limelight) (rotation : UInt16) : UInt16 :=
  if rotation ≠ lim.rotUnknown then rotation % 360 else rotation

/-- What `passthrough` of a touch and of a pen packet computes before it builds its event: the port, the rotation, the
coordinates, the pressure and the contact area. -/
structure ContactInput where
  absPort : Platf.TouchPort
  rotation : UInt16
  x : Float32
  y : Float32
  pressureOrDistance : Float32
  contactAreaMajor : Float32
  contactAreaMinor : Float32

def contactInput (lim : Limelight) (port : TouchPort) (x y pressureOrDistance : UInt32) (rotation : UInt16)
    (contactAreaMajor contactAreaMinor : UInt32) : Option ContactInput := do
  let coords ← clientToTouchport port
    (fromClampedNetfloat x 0.0 1.0 * 65535.0, fromClampedNetfloat y 0.0 1.0 * 65535.0) (65535.0, 65535.0)
  let (absPort, coords) ← monitorTouchPort port coords
  let rotation := normalizeRotation lim rotation
  let contactArea := scaleClientContactArea lim
    (fromClampedNetfloat contactAreaMajor 0.0 1.0 * 65535.0, fromClampedNetfloat contactAreaMinor 0.0 1.0 * 65535.0)
    rotation (Float32.ofInt absPort.width / 65535.0, Float32.ofInt absPort.height / 65535.0)
  return {
    absPort := absPort
    rotation := rotation
    x := coords.1
    y := coords.2
    pressureOrDistance := fromClampedNetfloat pressureOrDistance 0.0 1.0
    contactAreaMajor := contactArea.1
    contactAreaMinor := contactArea.2 }

theorem isSome_clientToTouchport (port : TouchPort) (val size : Float32 × Float32) :
    (clientToTouchport port val size).isSome = port.usable := by
  unfold clientToTouchport
  cases port.usable <;> rfl

theorem isSome_contactInput (lim : Limelight) (port : TouchPort) (x y p : UInt32) (r : UInt16) (a b : UInt32) :
    (contactInput lim port x y p r a b).isSome = port.monitored := by
  unfold contactInput clientToTouchport monitorTouchPort TouchPort.monitored
  cases port.usable with
  | false => rfl
  | true =>
    by_cases h : Float32.ofInt port.width * port.scalarInv / port.scalarTpcoords ≤ 0.0 ∨
        Float32.ofInt port.height * port.scalarInv / port.scalarTpcoords ≤ 0.0
    · simp [h]
    · simp [h]

end MidnightSun.Input
