import MidnightSun.Input.GamepadSlots
import MidnightSun.Input.Merge
import MidnightSun.Input.Observe

/-!
# Handling packets of one queue (src/input.cpp)

`deliver` handles one packet: it maps the statics, the context and what the platform has seen.  For each type that is
batched, this file says what the handler reads and changes: a second packet of the same position undoes what the first
one did, and packets of different positions commute.
-/

namespace MidnightSun.Input

open Lib Platf

/-- What the handlers are answered: the address of the next delayed task, and whether a gamepad is refused. -/
structure Platform where
  newId : Host → TaskId
  allocFails : GamepadId → GamepadArrival → Bool

/-- The gamepad that a handler may ask for. -/
def Platform.refuses (platform : Platform) (host : Host) (controllerNumber : UInt8) (arrival : GamepadArrival) : Bool :=
  match allocId host.gamepadMask with
  | none => false
  | some id => platform.allocFails ⟨id, controllerNumber⟩ arrival

def Platform.respond (platform : Platform) (host : Host) (packet : Packet) : Response where
  newId := platform.newId host
  allocFails :=
    match packet with
    | .controllerArrival p =>
      platform.refuses host p.controllerNumber
        { type := p.type, capabilities := p.capabilities, supportedButtons := p.supportedButtonFlags }
    | .multiController p => platform.refuses host (UInt8.ofNat p.controllerNumber.toInt.toNat) {}
    | _ => false

/-- The state in which the packets of a context are handled, with what the platform has seen. -/
structure Delivery where
  host : Host
  context : Context
  seen : Observation := {}

variable (env : Env) (platform : Platform) (i : ℕ)

/-- The state after a handler. -/
def Delivery.after (s : Delivery) (out : Host × Context × List Call) : Delivery where
  host := out.1
  context := out.2.1
  seen := out.2.2.foldl (observe env.lim) s.seen

/-- One packet goes to its handler. -/
def deliver (s : Delivery) (packet : Packet) : Delivery :=
  s.after env (passthrough env i (platform.respond s.host packet) s.host s.context packet)

/-! ### Gamepads of one context -/

/-- No two gamepads of the context share an id, and their ids are set in the mask. -/
structure Distinct (s : Host × Context) : Prop where
  inj : ∀ c d, 0 ≤ (s.2.gamepads c).id → (s.2.gamepads c).id = (s.2.gamepads d).id → c = d
  mask : ∀ c, 0 ≤ (s.2.gamepads c).id → (s.2.gamepads c).id ∈ maskSet s.1.gamepadMask

lemma distinct_of_accounted {w : World} {e : Entry} (hw : w.Accounted) (hi : w.inputs i = some e) :
    Distinct (w.host, e.context) := by
  have hheld : ∀ c, 0 ≤ (e.context.gamepads c).id → w.leases.held (i, c) = some (e.context.gamepads c).id := by
    intro c hc
    simp only [World.leases, World.gamepadId, hi]
    exact lease_eq_some.mpr ⟨rfl, hc⟩
  refine ⟨?_, ?_⟩
  · intro c d hc heq
    have hd := hheld d (heq ▸ hc)
    rw [← heq] at hd
    have hcd := hw.exact.held_inj (i, c) (i, d) _ (hheld c hc) hd
    exact (Prod.mk.inj hcd).2
  · intro c hc
    exact (hw.exact.taken_iff _).mpr (Or.inl ⟨(i, c), hheld c hc⟩)

section
variable {env i}

lemma distinct_congr {s s' : Host × Context} (hmask : s'.1.gamepadMask = s.1.gamepadMask)
    (hid : ∀ c, (s'.2.gamepads c).id = (s.2.gamepads c).id) (h : Distinct s) : Distinct s' := by
  refine ⟨?_, ?_⟩
  · intro c d hc heq
    rw [hid] at hc heq
    rw [hid] at heq
    exact h.inj c d hc heq
  · intro c hc
    rw [hid] at hc ⊢
    rw [hmask]
    exact h.mask c hc

theorem Effect.distinct {p : Packet} {s₀ s s' : Host × Context} {calls : List Call}
    (heff : Effect env i p s₀ s calls s') (h : Distinct s) : Distinct s' := by
  cases heff with
  | quiet hmask hgamepads hwaiting hcalls => exact distinct_congr hmask (fun c => by rw [hgamepads]) h
  | use c hid hnr hevent hupdate => exact h
  | grant c x metadata hid hfree =>
    -- the new id was not set in the mask, so that no other gamepad has it
    have hnew : ∀ d, 0 ≤ (s.2.gamepads d).id → (s.2.gamepads d).id ≠ x := by
      intro d hd heq
      have hset := h.mask d hd
      rw [heq, slot_mem_maskSet, hfree] at hset
      cases hset
    have hothers : ∀ d, d ≠ c → (Function.update s.2.gamepads c ({ s.2.gamepads c with id := x }) d).id =
        (s.2.gamepads d).id := by
      intro d hd
      rw [Function.update_of_ne hd]
    have hself : (Function.update s.2.gamepads c ({ s.2.gamepads c with id := x }) c).id = x := by
      rw [Function.update_self]
    refine ⟨?_, ?_⟩
    · intro d e hd heq
      dsimp only at hd heq
      by_cases hdc : d = c
      · by_cases hec : e = c
        · rw [hdc, hec]
        · rw [hdc, hself, hothers e hec] at heq
          exact absurd heq.symm (hnew e (by omega))
      · by_cases hec : e = c
        · rw [hothers d hdc] at hd heq
          rw [hec, hself] at heq
          exact absurd heq (hnew d hd)
        · rw [hothers d hdc] at hd heq
          rw [hothers e hec] at heq
          exact h.inj d e hd heq
    · intro d hd
      dsimp only at hd ⊢
      rw [maskSet_update]
      by_cases hdc : d = c
      · rw [hdc, hself]
        exact Set.mem_insert _ _
      · rw [hothers d hdc] at hd ⊢
        exact Set.mem_insert_of_mem _ (h.mask d hd)
  | update c r m hp hc hactive hid =>
    exact distinct_congr (updateGamepad_gamepadMask r c m) (fun d => updateGamepad_id r c d m) h
  | remove c m hp hc hactive hremoved hid =>
    have hothers : ∀ d, d ≠ c → (Function.update s₀.2.gamepads c ({ s₀.2.gamepads c with id := -1 }) d).id =
        (s₀.2.gamepads d).id := by
      intro d hd
      rw [Function.update_of_ne hd]
    have hself : (Function.update s₀.2.gamepads c ({ s₀.2.gamepads c with id := -1 }) c).id = -1 := by
      rw [Function.update_self]
    have hne : ∀ d, 0 ≤ (Function.update s₀.2.gamepads c ({ s₀.2.gamepads c with id := -1 }) d).id → d ≠ c := by
      rintro d hd rfl
      omega
    refine ⟨?_, ?_⟩
    · intro d e hd heq
      dsimp only at hd heq
      have hdc := hne d hd
      have hec := hne e (heq ▸ hd)
      rw [hothers d hdc] at hd heq
      rw [hothers e hec] at heq
      exact h.inj d e hd heq
    · intro d hd
      dsimp only at hd ⊢
      have hdc := hne d hd
      rw [hothers d hdc] at hd ⊢
      rw [maskSet_freeId]
      refine ⟨h.mask d hd, fun heq => hdc ?_⟩
      exact h.inj d c hd heq

theorem distinct_passthrough {r : Response} {host : Host} {input : Context} (p : Packet) (h : Distinct (host, input)) :
    Distinct ((passthrough env i r host input p).1, (passthrough env i r host input p).2.1) := by
  obtain ⟨callss, hrun, -⟩ := passthrough_effects i r host input p
  exact hrun.invariant (fun _ _ _ hs heff => heff.distinct hs) h

end

/-! ### Handlers that report a position -/

/-- The first lines of the absolute mouse handler. -/
def Context.restoreLeft (input : Context) : Context :=
  if input.mouseLeftButtonTimeout = disableLeftButtonDelay then
    { input with mouseLeftButtonTimeout := enableLeftButtonDelay }
  else input

def absMouseCall (port : TouchPort) (p : AbsMouseMove) : Option Call :=
  (clientToTouchport port (Float32.ofInt p.x.toInt, Float32.ofInt p.y.toInt)
    (Float32.ofInt p.width.toInt, Float32.ofInt p.height.toInt)).map fun xy => .absMouse port.absPort xy.1 xy.2

def touchCall (lim : Limelight) (i : ℕ) (port : TouchPort) (p : Touch) : Option Call :=
  (contactInput lim port p.x p.y p.pressureOrDistance p.rotation p.contactAreaMajor p.contactAreaMinor).map fun c =>
    .touchUpdate i c.absPort
      { eventType := p.eventType, rotation := c.rotation, pointerId := p.pointerId, x := c.x, y := c.y,
        pressureOrDistance := c.pressureOrDistance, contactAreaMajor := c.contactAreaMajor,
        contactAreaMinor := c.contactAreaMinor }

def penCall (lim : Limelight) (i : ℕ) (port : TouchPort) (p : Pen) : Option Call :=
  (contactInput lim port p.x p.y p.pressureOrDistance p.rotation p.contactAreaMajor p.contactAreaMinor).map fun c =>
    .penUpdate i c.absPort
      { eventType := p.eventType, toolType := p.toolType, penButtons := p.penButtons, tilt := p.tilt,
        rotation := c.rotation, x := c.x, y := c.y, pressureOrDistance := c.pressureOrDistance,
        contactAreaMajor := c.contactAreaMajor, contactAreaMinor := c.contactAreaMinor }

/-- The gamepad that touch, motion and battery messages of a controller are for. -/
def gamepadOf (input : Context) (controllerNumber : UInt8) : Option GamepadId :=
  if !env.config.controller then none
  else
    match slot? controllerNumber.toNat with
    | none => none
    | some c => if (input.gamepads c).id < 0 then none else some ⟨(input.gamepads c).id, controllerNumber⟩

def gamepadTouchCall (p : ControllerTouch) (id : GamepadId) : Call :=
  .gamepadTouch
    { id := id, eventType := p.eventType, pointerId := p.pointerId, x := fromClampedNetfloat p.x 0.0 1.0,
      y := fromClampedNetfloat p.y 0.0 1.0, pressure := fromClampedNetfloat p.pressure 0.0 1.0 }

def gamepadMotionCall (p : ControllerMotion) (id : GamepadId) : Call :=
  .gamepadMotion
    { id := id, motionType := p.motionType, x := fromNetfloat p.x, y := fromNetfloat p.y, z := fromNetfloat p.z }

section Positions

variable {env platform i} {s : Delivery}

lemma restoreLeft_restoreLeft (input : Context) : input.restoreLeft.restoreLeft = input.restoreLeft := by
  unfold Context.restoreLeft
  split_ifs with h h'
  · cases h'
  · rfl
  · rfl

lemma popTouchPort_of_none {input : Context} (h : input.touchPortEvent = none) : input.popTouchPort = input := by
  rw [Context.popTouchPort, h]

lemma touchPortEvent_popTouchPort (input : Context) : input.popTouchPort.touchPortEvent = none := by
  unfold Context.popTouchPort
  cases h : input.touchPortEvent with
  | none => exact h
  | some port => rfl

lemma popTouchPort_popTouchPort (input : Context) : input.popTouchPort.popTouchPort = input.popTouchPort :=
  popTouchPort_of_none (touchPortEvent_popTouchPort input)

lemma restoreLeft_popTouchPort (input : Context) :
    input.restoreLeft.popTouchPort.restoreLeft = input.restoreLeft.popTouchPort := by
  have htimeout : input.restoreLeft.popTouchPort.mouseLeftButtonTimeout = input.restoreLeft.mouseLeftButtonTimeout := by
    unfold Context.popTouchPort
    split <;> rfl
  have hne : input.restoreLeft.mouseLeftButtonTimeout ≠ disableLeftButtonDelay := by
    unfold Context.restoreLeft
    split_ifs with h
    · exact (by decide : enableLeftButtonDelay ≠ disableLeftButtonDelay)
    · exact h
  rw [Context.restoreLeft, if_neg (htimeout ▸ hne)]

lemma passthroughAbsMouseMove_eq (input : Context) (p : AbsMouseMove) : passthroughAbsMouseMove env input p =
    if !env.config.mouse then (input, [])
    else if p.width = 0 ∨ p.height = 0 then (input.restoreLeft, [])
    else
      (input.restoreLeft.popTouchPort, (absMouseCall input.restoreLeft.popTouchPort.touchPort p).toList) := by
  unfold passthroughAbsMouseMove absMouseCall
  refine if_congr Iff.rfl rfl (if_congr Iff.rfl rfl ?_)
  dsimp only
  cases hxy : clientToTouchport input.restoreLeft.popTouchPort.touchPort
      (Float32.ofInt p.x.toInt, Float32.ofInt p.y.toInt)
        (Float32.ofInt p.width.toInt, Float32.ofInt p.height.toInt) with
  | none =>
    unfold Context.restoreLeft at hxy ⊢
    rw [hxy]
    rfl
  | some xy =>
    unfold Context.restoreLeft at hxy ⊢
    rw [hxy]
    rfl

lemma passthroughTouch_eq (input : Context) (p : Touch) : passthroughTouch env i input p =
    if !env.config.mouse then (input, [])
    else (input.popTouchPort, (touchCall env.lim i input.popTouchPort.touchPort p).toList) := by
  unfold passthroughTouch touchCall
  refine if_congr Iff.rfl rfl ?_
  dsimp only
  cases contactInput env.lim input.popTouchPort.touchPort p.x p.y p.pressureOrDistance p.rotation p.contactAreaMajor
      p.contactAreaMinor with
  | none => rfl
  | some c => rfl

lemma passthroughPen_eq (input : Context) (p : Pen) : passthroughPen env i input p =
    if !env.config.mouse then (input, [])
    else (input.popTouchPort, (penCall env.lim i input.popTouchPort.touchPort p).toList) := by
  unfold passthroughPen penCall
  refine if_congr Iff.rfl rfl ?_
  dsimp only
  cases contactInput env.lim input.popTouchPort.touchPort p.x p.y p.pressureOrDistance p.rotation p.contactAreaMajor
      p.contactAreaMinor with
  | none => rfl
  | some c => rfl

lemma foldl_again {lim : Limelight} {o : Observation} {a b : Option Call} (hsome : a.isSome = b.isSome)
    (hagain : ∀ x ∈ a, ∀ y ∈ b, observe lim (observe lim o x) y = observe lim o y) :
    b.toList.foldl (observe lim) (a.toList.foldl (observe lim) o) = b.toList.foldl (observe lim) o := by
  cases a with
  | none => rfl
  | some x =>
    cases b with
    | none => cases hsome
    | some y => exact hagain x rfl y rfl

/-- A position on the same surface. -/
theorem deliver_absMouseMove_again {d x : AbsMouseMove} (hw : d.width = x.width) (hh : d.height = x.height) :
    deliver env platform i (deliver env platform i s (.absMouseMove d)) (.absMouseMove x) =
      deliver env platform i s (.absMouseMove x) := by
  unfold deliver passthrough Delivery.after
  simp only [passthroughAbsMouseMove_eq, hw, hh]
  split_ifs with hmouse hempty
  · rfl
  · simp only [restoreLeft_restoreLeft, List.foldl_nil]
  · have hsome : (absMouseCall s.context.restoreLeft.popTouchPort.touchPort d).isSome =
        (absMouseCall s.context.restoreLeft.popTouchPort.touchPort x).isSome := by
      rw [absMouseCall, absMouseCall, Option.isSome_map, Option.isSome_map, isSome_clientToTouchport,
        isSome_clientToTouchport]
    simp only [restoreLeft_popTouchPort, popTouchPort_popTouchPort]
    rw [foldl_again hsome]
    intro a ha b hb
    obtain ⟨xy, -, rfl⟩ := Option.map_eq_some_iff.mp ha
    obtain ⟨xy', -, rfl⟩ := Option.map_eq_some_iff.mp hb
    refine observe_again ⟨rfl, rfl, rfl, rfl⟩ ⟨rfl, rfl, rfl, rfl⟩ fun s => ?_
    simp [Positions.after]

lemma isSome_touchCall (lim : Limelight) (port : TouchPort) (p : Touch) :
    (touchCall lim i port p).isSome = port.monitored := by
  rw [touchCall, Option.isSome_map, isSome_contactInput]

lemma isSome_penCall (lim : Limelight) (port : TouchPort) (p : Pen) :
    (penCall lim i port p).isSome = port.monitored := by
  rw [penCall, Option.isSome_map, isSome_contactInput]

lemma reports_touchCall {lim : Limelight} {port : TouchPort} {p : Touch} (hmoves : lim.moves p.eventType = true)
    {a : Call} (ha : a ∈ touchCall lim i port p) : Reports lim a := by
  obtain ⟨c, -, rfl⟩ := Option.map_eq_some_iff.mp ha
  refine ⟨rfl, rfl, rfl, ?_⟩
  rw [stateChanging, hmoves]
  rfl

lemma reports_penCall {lim : Limelight} {port : TouchPort} {p : Pen} (hmoves : lim.moves p.eventType = true)
    {a : Call} (ha : a ∈ penCall lim i port p) : Reports lim a := by
  obtain ⟨c, -, rfl⟩ := Option.map_eq_some_iff.mp ha
  refine ⟨rfl, rfl, rfl, ?_⟩
  rw [stateChanging, hmoves]
  rfl

/-- The same pointer again. -/
theorem deliver_touch_again {d x : Touch} (hd : env.lim.moves d.eventType = true)
    (hx : env.lim.moves x.eventType = true) (hid : d.pointerId = x.pointerId) :
    deliver env platform i (deliver env platform i s (.touch d)) (.touch x) = deliver env platform i s (.touch x) := by
  unfold deliver passthrough Delivery.after
  simp only [passthroughTouch_eq]
  split_ifs with hmouse
  · rfl
  · have hsome : (touchCall env.lim i s.context.popTouchPort.touchPort d).isSome =
        (touchCall env.lim i s.context.popTouchPort.touchPort x).isSome := by
      rw [isSome_touchCall, isSome_touchCall]
    simp only [popTouchPort_popTouchPort]
    rw [foldl_again hsome]
    intro a ha b hb
    refine observe_again (reports_touchCall hd ha) (reports_touchCall hx hb) fun s => ?_
    obtain ⟨c, -, rfl⟩ := Option.map_eq_some_iff.mp ha
    obtain ⟨c', -, rfl⟩ := Option.map_eq_some_iff.mp hb
    simp [Positions.after, hid]

theorem deliver_pen_again {d x : Pen} (hd : env.lim.moves d.eventType = true)
    (hx : env.lim.moves x.eventType = true) :
    deliver env platform i (deliver env platform i s (.pen d)) (.pen x) = deliver env platform i s (.pen x) := by
  unfold deliver passthrough Delivery.after
  simp only [passthroughPen_eq]
  split_ifs with hmouse
  · rfl
  · have hsome : (penCall env.lim i s.context.popTouchPort.touchPort d).isSome =
        (penCall env.lim i s.context.popTouchPort.touchPort x).isSome := by
      rw [isSome_penCall, isSome_penCall]
    simp only [popTouchPort_popTouchPort]
    rw [foldl_again hsome]
    intro a ha b hb
    refine observe_again (reports_penCall hd ha) (reports_penCall hx hb) fun s => ?_
    obtain ⟨c, -, rfl⟩ := Option.map_eq_some_iff.mp ha
    obtain ⟨c', -, rfl⟩ := Option.map_eq_some_iff.mp hb
    simp [Positions.after]

/-- Different pointers, once the waiting touch port was taken. -/
theorem deliver_touch_comm {x y : Touch} (hx : env.lim.moves x.eventType = true)
    (hy : env.lim.moves y.eventType = true) (hid : x.pointerId ≠ y.pointerId)
    (hport : env.config.mouse = true → s.context.touchPortEvent = none) :
    deliver env platform i (deliver env platform i s (.touch y)) (.touch x) =
      deliver env platform i (deliver env platform i s (.touch x)) (.touch y) := by
  unfold deliver passthrough Delivery.after
  simp only [passthroughTouch_eq]
  split_ifs with hmouse
  · rfl
  · have hmouse' : env.config.mouse = true := by simpa using hmouse
    simp only [popTouchPort_of_none (hport hmouse')]
    cases ha : touchCall env.lim i s.context.touchPort x with
    | none => rfl
    | some a =>
      congr 1
      refine (foldl_observe_comm (reports_touchCall hx ha) ?_ ?_).symm
      · intro b hb
        exact reports_touchCall hy (Option.mem_toList.mp hb)
      · intro b hb s
        obtain ⟨c, -, rfl⟩ := Option.map_eq_some_iff.mp ha
        obtain ⟨c', -, rfl⟩ := Option.map_eq_some_iff.mp (Option.mem_toList.mp hb)
        have hne : (i, x.pointerId) ≠ (i, y.pointerId) := fun h => hid (Prod.mk.inj h).2
        simp only [Positions.after]
        rw [Function.update_comm hne]

lemma touchPortEvent_deliver_touch (p : Touch) :
    env.config.mouse = true → (deliver env platform i s (.touch p)).context.touchPortEvent = none := by
  intro hmouse
  unfold deliver passthrough Delivery.after
  simp only [passthroughTouch_eq, hmouse, Bool.not_true, Bool.false_eq_true, if_false]
  exact touchPortEvent_popTouchPort _

lemma withGamepad_eq (input : Context) (controllerNumber : UInt8) (call : GamepadId → Call) :
    withGamepad env input controllerNumber call = ((gamepadOf env input controllerNumber).map call).toList := by
  unfold withGamepad gamepadOf
  split_ifs with hconfig
  · rfl
  · cases slot? controllerNumber.toNat with
    | none => rfl
    | some c =>
      dsimp only
      split_ifs <;> rfl

lemma deliver_controllerTouch (p : ControllerTouch) : deliver env platform i s (.controllerTouch p) =
    { s with
      seen := ((gamepadOf env s.context p.controllerNumber).map (gamepadTouchCall p)).toList.foldl (observe env.lim)
        s.seen } := by
  rw [← withGamepad_eq]
  rfl

lemma deliver_controllerMotion (p : ControllerMotion) : deliver env platform i s (.controllerMotion p) =
    { s with
      seen := ((gamepadOf env s.context p.controllerNumber).map (gamepadMotionCall p)).toList.foldl (observe env.lim)
        s.seen } := by
  rw [← withGamepad_eq]
  rfl

/-- Controllers of different numbers have different gamepads. -/
lemma gamepadOf_ne {host : Host} {input : Context} (h : Distinct (host, input)) {m n : UInt8} (hne : m ≠ n)
    {a b : GamepadId} (ha : gamepadOf env input m = some a) (hb : gamepadOf env input n = some b) :
    a.globalIndex ≠ b.globalIndex := by
  have hslot : ∀ (k : UInt8) (g : GamepadId), gamepadOf env input k = some g →
      ∃ c : Slot, c.val = k.toNat ∧ g.globalIndex = (input.gamepads c).id ∧ 0 ≤ (input.gamepads c).id := by
    intro k g hg
    unfold gamepadOf at hg
    split_ifs at hg with hconfig
    unfold slot? at hg
    split_ifs at hg with hrange
    · dsimp only at hg
      split_ifs at hg with hid
      cases hg
      exact ⟨_, Int.toNat_natCast _, rfl, not_lt.mp hid⟩
  obtain ⟨c, hc, hac, hpos⟩ := hslot m a ha
  obtain ⟨d, hd, hbd, -⟩ := hslot n b hb
  intro heq
  have hcd : c = d := h.inj c d hpos (by rw [← hac, ← hbd, heq])
  apply hne
  apply UInt8.toNat_inj.mp
  rw [← hc, ← hd, hcd]

lemma gamepad_key_ne {κ : Type*} {j k : κ} {host : Host} {input : Context} (h : Distinct (host, input)) {m n : UInt8}
    (hne : m ≠ n ∨ j ≠ k) {a b : GamepadId} (ha : gamepadOf env input m = some a)
    (hb : gamepadOf env input n = some b) : (a.globalIndex, j) ≠ (b.globalIndex, k) := by
  intro heq
  obtain ⟨hindex, hpart⟩ := Prod.mk.inj heq
  rcases hne with hne | hne
  · exact gamepadOf_ne h hne ha hb hindex
  · exact hne hpart

lemma foldl_again_map {G : Type*} {lim : Limelight} {o : Observation} {g : Option G} {first again : G → Call}
    (h : ∀ x ∈ g, observe lim (observe lim o (first x)) (again x) = observe lim o (again x)) :
    (g.map again).toList.foldl (observe lim) ((g.map first).toList.foldl (observe lim) o) =
      (g.map again).toList.foldl (observe lim) o := by
  cases g with
  | none => rfl
  | some x => exact h x rfl

theorem deliver_controllerTouch_again {d x : ControllerTouch} (hd : env.lim.moves d.eventType = true)
    (hx : env.lim.moves x.eventType = true) (hnumber : d.controllerNumber = x.controllerNumber)
    (hid : d.pointerId = x.pointerId) :
    deliver env platform i (deliver env platform i s (.controllerTouch d)) (.controllerTouch x) =
      deliver env platform i s (.controllerTouch x) := by
  simp only [deliver_controllerTouch, hnumber]
  congr 1
  refine foldl_again_map fun g _ => ?_
  refine observe_again ⟨rfl, rfl, rfl, ?_⟩ ⟨rfl, rfl, rfl, ?_⟩ fun s => ?_
  · simp [gamepadTouchCall, stateChanging, hd]
  · simp [gamepadTouchCall, stateChanging, hx]
  · simp [gamepadTouchCall, Positions.after, hid]

theorem deliver_controllerMotion_again {d x : ControllerMotion} (hnumber : d.controllerNumber = x.controllerNumber)
    (htype : d.motionType = x.motionType) :
    deliver env platform i (deliver env platform i s (.controllerMotion d)) (.controllerMotion x) =
      deliver env platform i s (.controllerMotion x) := by
  simp only [deliver_controllerMotion, hnumber]
  congr 1
  refine foldl_again_map fun g _ => ?_
  refine observe_again ⟨rfl, rfl, rfl, rfl⟩ ⟨rfl, rfl, rfl, rfl⟩ fun s => ?_
  simp [gamepadMotionCall, Positions.after, htype]

lemma foldl_comm_of_mem {lim : Limelight} {o : Observation} {a b : Option Call}
    (hcomm : ∀ x ∈ a, ∀ y ∈ b, observe lim (observe lim o y) x = observe lim (observe lim o x) y) :
    a.toList.foldl (observe lim) (b.toList.foldl (observe lim) o) =
      b.toList.foldl (observe lim) (a.toList.foldl (observe lim) o) := by
  cases a with
  | none => rfl
  | some x =>
    cases b with
    | none => rfl
    | some y => exact hcomm x rfl y rfl

/-- Different pointers, or different controllers: neither touch is an event. -/
theorem deliver_controllerTouch_comm {x y : ControllerTouch} (hdistinct : Distinct (s.host, s.context))
    (hne : x.controllerNumber ≠ y.controllerNumber ∨ x.pointerId ≠ y.pointerId)
    (hx : env.lim.moves x.eventType = true)
    (hy : ∀ a ∈ gamepadOf env s.context x.controllerNumber, ∀ b ∈ gamepadOf env s.context y.controllerNumber,
      env.lim.moves y.eventType = true) :
    deliver env platform i (deliver env platform i s (.controllerTouch y)) (.controllerTouch x) =
      deliver env platform i (deliver env platform i s (.controllerTouch x)) (.controllerTouch y) := by
  simp only [deliver_controllerTouch]
  congr 1
  refine foldl_comm_of_mem fun a ha b hb => ?_
  obtain ⟨g, hg, rfl⟩ := Option.map_eq_some_iff.mp ha
  obtain ⟨g', hg', rfl⟩ := Option.map_eq_some_iff.mp hb
  have hkey := gamepad_key_ne hdistinct hne hg hg'
  refine observe_comm ⟨rfl, rfl, rfl, ?_⟩ ⟨rfl, rfl, rfl, ?_⟩ fun s => ?_
  · simp [gamepadTouchCall, stateChanging, hy g hg g' hg']
  · simp [gamepadTouchCall, stateChanging, hx]
  · simp only [gamepadTouchCall, Positions.after]
    rw [Function.update_comm hkey]

theorem deliver_controllerMotion_comm {x y : ControllerMotion} (hdistinct : Distinct (s.host, s.context))
    (hne : x.controllerNumber ≠ y.controllerNumber ∨ x.motionType ≠ y.motionType) :
    deliver env platform i (deliver env platform i s (.controllerMotion y)) (.controllerMotion x) =
      deliver env platform i (deliver env platform i s (.controllerMotion x)) (.controllerMotion y) := by
  simp only [deliver_controllerMotion]
  congr 1
  refine foldl_comm_of_mem fun a ha b hb => ?_
  obtain ⟨g, hg, rfl⟩ := Option.map_eq_some_iff.mp ha
  obtain ⟨g', hg', rfl⟩ := Option.map_eq_some_iff.mp hb
  have hkey := gamepad_key_ne hdistinct hne hg hg'
  refine observe_comm ⟨rfl, rfl, rfl, rfl⟩ ⟨rfl, rfl, rfl, rfl⟩ fun s => ?_
  simp only [gamepadMotionCall, Positions.after]
  rw [Function.update_comm hkey]

end Positions

end MidnightSun.Input
