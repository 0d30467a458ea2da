import Mathlib.Data.List.FinRange
import MidnightSun.Input.State

/-!
# The handlers (src/input.cpp)

`passthrough` hands a packet to the handler of its type.  The bodies of the delayed tasks and of the task that `reset`
pushes follow.
-/

namespace MidnightSun.Input

open Platf

section
variable (env : Env)

/-! ### Mouse -/

def passthroughRelMouseMove (input : Context) (packet : RelMouseMove) : Context × List Call :=
  if !env.config.mouse then (input, [])
  else
    ({ input with mouseLeftButtonTimeout := disableLeftButtonDelay },
      [.moveMouse packet.deltaX.toInt packet.deltaY.toInt])

/-- The first lines of `client_to_touchport`: a waiting touch port replaces the current one. -/
def Context.popTouchPort (input : Context) : Context :=
  match input.touchPortEvent with
  | some port => { input with touchPort := port, touchPortEvent := none }
  | none => input

def passthroughAbsMouseMove (input : Context) (packet : AbsMouseMove) : Context × List Call :=
  if !env.config.mouse then (input, [])
  else
    let input := if input.mouseLeftButtonTimeout = disableLeftButtonDelay then
      { input with mouseLeftButtonTimeout := enableLeftButtonDelay } else input
    if packet.width = 0 ∨ packet.height = 0 then (input, [])
    else
      let input := input.popTouchPort
      match clientToTouchport input.touchPort
          (Float32.ofInt packet.x.toInt, Float32.ofInt packet.y.toInt)
          (Float32.ofInt packet.width.toInt, Float32.ofInt packet.height.toInt) with
      | none => (input, [])
      | some (x, y) => (input, [.absMouse input.touchPort.absPort x y])

/-- `button > 0 && button < mouse_press.size()`: the buttons whose state `mouse_press` keeps. -/
def tracked (button : ℕ) : Bool := 0 < button ∧ button < mousePressSize

/-- `mouse_press[button] = !release`, for the buttons that have a place. -/
def recordButton (host : Host) (button : ℕ) (release : Bool) : Host :=
  if tracked button then { host with mousePress := Function.update host.mousePress button (!release) } else host

def passthroughMouseButton (i : ℕ) (r : Response) (host : Host) (input : Context) (packet : MouseButton) :
    Host × Context × List Call :=
  let button := packet.button
  let release := packet.release
  if !env.config.mouse then (host, input, [])
  else if tracked button ∧ host.mousePress button ≠ release then (host, input, [])
  else
    let host := recordButton host button release
    if button = env.lim.buttonLeft ∧ release ∧ input.mouseLeftButtonTimeout = 0 then
      (host.pushDelayed r.newId (.leftRelease i), { input with mouseLeftButtonTimeout := r.newId }, [])
    else if button = env.lim.buttonRight ∧ !release ∧ input.mouseLeftButtonTimeout > disableLeftButtonDelay then
      ({ host with mousePress := Function.update host.mousePress env.lim.buttonRight false }, input,
        [.buttonMouse env.lim.buttonRight false, .buttonMouse env.lim.buttonRight true])
    else (host, input, [.buttonMouse button release])

/-- The task that releases the left button after the delay. -/
def leftRelease (host : Host) (input : Context) : Host × Context × List Call :=
  if host.mousePress env.lim.buttonLeft then (host, input, [])
  else
    ({ host with mousePress := Function.update host.mousePress env.lim.buttonLeft false },
      { input with mouseLeftButtonTimeout := 0 }, [.buttonMouse env.lim.buttonLeft true])

def wheelDelta : ℤ := 120

/-- The full ticks of an accumulated amount, if there are any, and the amount that stays. -/
def fullTicks (accumulated : ℤ) : ℤ × Option ℤ :=
  let ticks := accumulated.tdiv wheelDelta
  if ticks ≠ 0 then (accumulated - ticks * wheelDelta, some (ticks * wheelDelta)) else (accumulated, none)

def passthroughScroll (input : Context) (packet : Scroll) : Context × List Call :=
  if !env.config.mouse then (input, [])
  else if env.config.highResolutionScrolling then (input, [.scroll packet.scrollAmt1.toInt])
  else
    let (rest, sent) := fullTicks (input.accumulatedVscrollDelta + packet.scrollAmt1.toInt)
    ({ input with accumulatedVscrollDelta := rest }, (sent.map Call.scroll).toList)

def passthroughHScroll (input : Context) (packet : HScroll) : Context × List Call :=
  if !env.config.mouse then (input, [])
  else if env.config.highResolutionScrolling then (input, [.hscroll packet.scrollAmount.toInt])
  else
    let (rest, sent) := fullTicks (input.accumulatedHscrollDelta + packet.scrollAmount.toInt)
    ({ input with accumulatedHscrollDelta := rest }, (sent.map Call.hscroll).toList)

/-! ### Keyboard -/

def vkeyShift : UInt16 := 0x10
def vkeyLshift : UInt16 := 0xA0
def vkeyRshift : UInt16 := 0xA1
def vkeyControl : UInt16 := 0x11
def vkeyLcontrol : UInt16 := 0xA2
def vkeyRcontrol : UInt16 := 0xA3
def vkeyMenu : UInt16 := 0x12
def vkeyLmenu : UInt16 := 0xA4
def vkeyRmenu : UInt16 := 0xA5

/-- `map_keycode`; its parameter and its result are shorts. -/
def mapKeycode (keycode : UInt16) : UInt16 :=
  match env.config.keybindings.lookup keycode.toInt16.toInt with
  | some code => UInt16.ofInt code
  | none => keycode

def updateShortcutFlags (flags : ShortcutFlags) (keyCode : UInt16) (release : Bool) : ShortcutFlags :=
  if keyCode ∈ [vkeyShift, vkeyLshift, vkeyRshift] then { flags with shift := !release }
  else if keyCode ∈ [vkeyControl, vkeyLcontrol, vkeyRcontrol] then { flags with ctrl := !release }
  else if keyCode ∈ [vkeyMenu, vkeyLmenu, vkeyRmenu] then { flags with alt := !release }
  else flags

def isModifier (keyCode : UInt16) : Bool :=
  keyCode ∈ [vkeyShift, vkeyLshift, vkeyRshift, vkeyControl, vkeyLcontrol, vkeyRcontrol, vkeyMenu, vkeyLmenu,
    vkeyRmenu]

/-- `apply_shortcut`: F1 to F13 switch the display, N shows or hides the cursor. -/
def applyShortcut (host : Host) (keyCode : UInt16) : Option Host :=
  if 0x70 ≤ keyCode ∧ keyCode ≤ 0x7C then some { host with switchDisplay := some (keyCode - 0x70).toNat }
  else if keyCode = 0x4E then some { host with displayCursor := !host.displayCursor }
  else none

/-- The modifier keys that go with a key press. -/
def syntheticKeys (syntheticModifiers : UInt8) : List UInt16 :=
  (if syntheticModifiers &&& env.lim.modifierShift ≠ 0 then [vkeyShift] else []) ++
  (if syntheticModifiers &&& env.lim.modifierCtrl ≠ 0 then [vkeyControl] else []) ++
  (if syntheticModifiers &&& env.lim.modifierAlt ≠ 0 then [vkeyMenu] else [])

def syntheticCalls (release : Bool) (flags syntheticModifiers : UInt8) : List Call :=
  (syntheticKeys env syntheticModifiers).map (Call.keyboardUpdate · release flags)

def sendKeyAndModifiers (keyCode : UInt16) (release : Bool) (flags syntheticModifiers : UInt8) : List Call :=
  (if release then [] else syntheticCalls env false flags syntheticModifiers) ++
  [.keyboardUpdate (mapKeycode env keyCode) release flags] ++
  (if release then [] else syntheticCalls env true flags syntheticModifiers)

def repeatKey (r : Response) (host : Host) (keyCode : UInt16) (flags syntheticModifiers : UInt8) :
    Host × List Call :=
  if makeKpid keyCode flags ∉ host.keyPress then ({ host with keyPressRepeatId := 0 }, [])
  else
    ({ host.pushDelayed r.newId (.repeatKey keyCode flags syntheticModifiers) with keyPressRepeatId := r.newId },
      sendKeyAndModifiers env keyCode false flags syntheticModifiers)

/-- The modifiers that the packet asks for and that are not held. -/
def syntheticModifiers (held : ShortcutFlags) (modifiers : UInt8) : UInt8 :=
  (if !held.shift ∧ modifiers &&& env.lim.modifierShift ≠ 0 then env.lim.modifierShift else 0) |||
  (if !held.ctrl ∧ modifiers &&& env.lim.modifierCtrl ≠ 0 then env.lim.modifierCtrl else 0) |||
  (if !held.alt ∧ modifiers &&& env.lim.modifierAlt ≠ 0 then env.lim.modifierAlt else 0)

/-- A newly pressed key takes over the repeat task. -/
def restartRepeat (r : Response) (host : Host) (keyCode : UInt16) (flags syntheticModifiers : UInt8) : Host :=
  let host := if host.keyPressRepeatId ≠ 0 then host.cancel host.keyPressRepeatId else host
  if env.config.keyRepeatDelay > 0 then
    { host.pushDelayed r.newId (.repeatKey keyCode flags syntheticModifiers) with keyPressRepeatId := r.newId }
  else host

/-- The last lines of the keyboard handler: remember the key, send it, update the shortcut flags. -/
def sendKey (host : Host) (input : Context) (keyCode : UInt16) (release : Bool) (flags synthetic : UInt8) :
    Host × Context × List Call :=
  let kpid := makeKpid keyCode flags
  ({ host with keyPress := if release then host.keyPress.filter (· ≠ kpid) else kpid :: host.keyPress },
    { input with shortcutFlags := updateShortcutFlags input.shortcutFlags (mapKeycode env keyCode) release },
    sendKeyAndModifiers env keyCode release flags synthetic)

def passthroughKeyboard (r : Response) (host : Host) (input : Context) (packet : Keyboard) :
    Host × Context × List Call :=
  if !env.config.keyboard then (host, input, [])
  else
    let release := packet.release
    let keyCode := packet.keyCode &&& 0x00FF
    let synthetic := if !release ∧ !isModifier keyCode then
      syntheticModifiers env input.shortcutFlags packet.modifiers else 0
    if makeKpid keyCode packet.flags ∉ host.keyPress then
      if release then (host, input, [])
      else
        match if input.shortcutFlags.shortcut then applyShortcut host keyCode else none with
        | some host => (host, input, [])
        | none =>
          sendKey env (restartRepeat env r host keyCode packet.flags synthetic) input keyCode release packet.flags
            synthetic
    else if !release then (host, input, [])
    else sendKey env host input keyCode release packet.flags synthetic

def passthroughUnicode (text : List UInt8) : List Call := if !env.config.keyboard then [] else [.unicode text]

/-! ### Touch and pen -/

def passthroughTouch (i : ℕ) (input : Context) (packet : Touch) : Context × List Call :=
  if !env.config.mouse then (input, [])
  else
    let input := input.popTouchPort
    match contactInput env.lim input.touchPort packet.x packet.y packet.pressureOrDistance packet.rotation
        packet.contactAreaMajor packet.contactAreaMinor with
    | none => (input, [])
    | some c => (input, [.touchUpdate i c.absPort
        { eventType := packet.eventType, rotation := c.rotation, pointerId := packet.pointerId, x := c.x, y := c.y,
          pressureOrDistance := c.pressureOrDistance, contactAreaMajor := c.contactAreaMajor,
          contactAreaMinor := c.contactAreaMinor }])

def passthroughPen (i : ℕ) (input : Context) (packet : Pen) : Context × List Call :=
  if !env.config.mouse then (input, [])
  else
    let input := input.popTouchPort
    match contactInput env.lim input.touchPort packet.x packet.y packet.pressureOrDistance packet.rotation
        packet.contactAreaMajor packet.contactAreaMinor with
    | none => (input, [])
    | some c => (input, [.penUpdate i c.absPort
        { eventType := packet.eventType, toolType := packet.toolType, penButtons := packet.penButtons,
          tilt := packet.tilt, rotation := c.rotation, x := c.x, y := c.y,
          pressureOrDistance := c.pressureOrDistance, contactAreaMajor := c.contactAreaMajor,
          contactAreaMinor := c.contactAreaMinor }])

/-! ### Gamepads -/

/-- The entry of `gamepads` for a controller number that is in range. -/
def slot? (controllerNumber : ℤ) : Option Slot :=
  if h : 0 ≤ controllerNumber ∧ controllerNumber.toNat < maxGamepads then some ⟨controllerNumber.toNat, h.2⟩
  else none

def allocId (mask : Slot → Bool) : Option Slot := (List.finRange maxGamepads).find? fun x => !mask x

def freeId (mask : Slot → Bool) (id : ℤ) (x : Slot) : Bool := if (x : ℤ) = id then false else mask x

def freeGamepad (host : Host) (id : ℤ) : Host × List Call :=
  ({ host with gamepadMask := freeId host.gamepadMask id }, [.gamepadUpdate id {}, .freeGamepad id])

/-- The allocation in the arrival and in the multi-controller handler: an id from the mask, given back if the platform
refuses the gamepad. -/
def allocGamepad (r : Response) (host : Host) (input : Context) (c : Slot) (arrival : GamepadArrival) :
    Host × Context × List Call :=
  match allocId host.gamepadMask with
  | none => (host, input, [])
  | some id =>
    let mask := Function.update host.gamepadMask id true
    let call := Call.allocGamepad ⟨id, UInt8.ofNat c⟩ arrival r.allocFails
    if r.allocFails then ({ host with gamepadMask := freeId mask id }, input, [call])
    else
      ({ host with gamepadMask := mask },
        { input with gamepads := Function.update input.gamepads c ({ input.gamepads c with id := id }) }, [call])

def passthroughControllerArrival (r : Response) (host : Host) (input : Context) (packet : ControllerArrival) :
    Host × Context × List Call :=
  if !env.config.controller then (host, input, [])
  else
    match slot? packet.controllerNumber.toNat with
    | none => (host, input, [])
    | some c =>
      if 0 ≤ (input.gamepads c).id then (host, input, [])
      else allocGamepad r host input c
        { type := packet.type, capabilities := packet.capabilities,
          supportedButtons := packet.supportedButtonFlags }

/-- The handlers of controller touch, motion and battery messages: a call for an allocated gamepad. -/
def withGamepad (input : Context) (controllerNumber : UInt8) (call : GamepadId → Call) : List Call :=
  if !env.config.controller then []
  else
    match slot? controllerNumber.toNat with
    | none => []
    | some c =>
      if (input.gamepads c).id < 0 then [] else [call ⟨(input.gamepads c).id, controllerNumber⟩]

def passthroughControllerTouch (input : Context) (packet : ControllerTouch) : List Call :=
  withGamepad env input packet.controllerNumber fun id => .gamepadTouch
    { id := id, eventType := packet.eventType, pointerId := packet.pointerId,
      x := fromClampedNetfloat packet.x 0.0 1.0, y := fromClampedNetfloat packet.y 0.0 1.0,
      pressure := fromClampedNetfloat packet.pressure 0.0 1.0 }

def passthroughControllerMotion (input : Context) (packet : ControllerMotion) : List Call :=
  withGamepad env input packet.controllerNumber fun id => .gamepadMotion
    { id := id, motionType := packet.motionType,
      x := fromNetfloat packet.x, y := fromNetfloat packet.y, z := fromNetfloat packet.z }

def passthroughControllerBattery (input : Context) (packet : ControllerBattery) : List Call :=
  withGamepad env input packet.controllerNumber fun id => .gamepadBattery
    { id := id, state := packet.batteryState, percentage := packet.batteryPercentage }

/-- The gamepad state that a multi-controller packet reports. -/
def MultiController.state (p : MultiController) : GamepadState where
  buttonFlags := p.buttonFlags.toUInt32 ||| (p.buttonFlags2.toUInt32 <<< 16)
  lt := p.leftTrigger
  rt := p.rightTrigger
  lsX := p.leftStickX
  lsY := p.leftStickY
  rsX := p.rightStickX
  rsY := p.rightStickY

/-- The packet's bit of its own controller in `activeGamepadMask`. -/
def MultiController.active (p : MultiController) (c : Slot) : Bool := p.activeGamepadMask.toNat.testBit c

/-- The switch on `back_button_state`. -/
def forceBack (s : ButtonState) (flags : UInt32) : ButtonState × UInt32 :=
  match s with
  | .up => (if back &&& flags = 0 then .none else .up, flags &&& ~~~back)
  | .down => (if back &&& flags ≠ 0 then .none else .down, flags ||| back)
  | .none => (.none, flags)

/-- The delayed HOME press: started when BACK goes down, cancelled when it goes up.  Yields the new
`back_timeout_id`. -/
def backTimer (i : ℕ) (r : Response) (host : Host) (g : Gamepad) (c : Slot) (flags : UInt32) : Host × TaskId :=
  if back &&& (flags ^^^ g.gamepadState.buttonFlags) ≠ 0 then
    if back &&& flags ≠ 0 then
      if 0 ≤ env.config.backButtonTimeout then (host.pushDelayed r.newId (.backButton i c), r.newId)
      else (host, g.backTimeoutId)
    else if g.backTimeoutId ≠ 0 then (host.cancel g.backTimeoutId, 0)
    else (host, g.backTimeoutId)
  else (host, g.backTimeoutId)

/-- The last part of the multi-controller handler, for a gamepad that is allocated. -/
def updateGamepad (i : ℕ) (r : Response) (host : Host) (input : Context) (c : Slot) (packet : MultiController) :
    Host × Context × List Call :=
  let g := input.gamepads c
  let (backButtonState, flags) := forceBack g.backButtonState packet.state.buttonFlags
  let state := { packet.state with buttonFlags := flags }
  let (host, backTimeoutId) := backTimer env i r host g c flags
  let g' : Gamepad :=
    { gamepadState := state, backTimeoutId := backTimeoutId, id := g.id, backButtonState := backButtonState }
  (host, { input with gamepads := Function.update input.gamepads c g' }, [.gamepadUpdate g.id state])

def passthroughMultiController (i : ℕ) (r : Response) (host : Host) (input : Context) (packet : MultiController) :
    Host × Context × List Call :=
  if !env.config.controller then (host, input, [])
  else
    match slot? packet.controllerNumber.toInt with
    | none => (host, input, [])
    | some c =>
      let g := input.gamepads c
      if packet.active c ∧ g.id < 0 then
        let (host, input, calls) := allocGamepad r host input c {}
        if (input.gamepads c).id < 0 then (host, input, calls)
        else
          let (host, input, update) := updateGamepad env i r host input c packet
          (host, input, calls ++ update)
      else if !packet.active c ∧ 0 ≤ g.id then
        let (host, calls) := freeGamepad host g.id
        (host, { input with gamepads := Function.update input.gamepads c ({ g with id := -1 }) }, calls)
      else if g.id < 0 then (host, input, [])
      else updateGamepad env i r host input c packet

/-- The task that turns a long press of BACK into a press of HOME. -/
def backButton (input : Context) (c : Slot) : Context × List Call :=
  let g := input.gamepads c
  let up := { g.gamepadState with buttonFlags := g.gamepadState.buttonFlags &&& ~~~back }
  let pressed := { up with buttonFlags := up.buttonFlags ||| home }
  let released := { pressed with buttonFlags := pressed.buttonFlags &&& ~~~home }
  let g' := { g with gamepadState := released, backButtonState := .up, backTimeoutId := 0 }
  ({ input with gamepads := Function.update input.gamepads c g' },
    [.gamepadUpdate g.id up, .gamepadUpdate g.id pressed, .gamepadUpdate g.id released])

/-! ### All packets -/

/-- The switch in `passthrough_next_message`, for the context with number `i`. -/
def passthrough (i : ℕ) (r : Response) (host : Host) (input : Context) : Packet → Host × Context × List Call
  | .relMouseMove p => (host, passthroughRelMouseMove env input p)
  | .absMouseMove p => (host, passthroughAbsMouseMove env input p)
  | .mouseButton p => passthroughMouseButton env i r host input p
  | .scroll p => (host, passthroughScroll env input p)
  | .hscroll p => (host, passthroughHScroll env input p)
  | .keyboard p => passthroughKeyboard env r host input p
  | .unicode text => (host, input, passthroughUnicode env text)
  | .multiController p => passthroughMultiController env i r host input p
  | .touch p => (host, passthroughTouch env i input p)
  | .pen p => (host, passthroughPen env i input p)
  | .controllerArrival p => passthroughControllerArrival env r host input p
  | .controllerTouch p => (host, input, passthroughControllerTouch env input p)
  | .controllerMotion p => (host, input, passthroughControllerMotion env input p)
  | .controllerBattery p => (host, input, passthroughControllerBattery env input p)

end

/-- The task that `reset` pushes: every recorded button and key is released. -/
def resetTask (host : Host) : Host × List Call :=
  ({ host with
      mousePress := fun x => if x < mousePressSize then false else host.mousePress x
      keyPress := [] },
    ((List.range mousePressSize).filter host.mousePress).map (Call.buttonMouse · true) ++
    host.keyPress.map fun kpid => Call.keyboardUpdate (vkFromKpid kpid &&& 0x00FF) true (flagsFromKpid kpid))

end MidnightSun.Input
