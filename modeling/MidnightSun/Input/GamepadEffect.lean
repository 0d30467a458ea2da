import MidnightSun.Input.Gamepads

/-!
# What a handler does to gamepads (src/input.cpp)

Every handler is a run of `Effect`s on the statics and its context.
-/

namespace MidnightSun.Input

open Lib Platf

variable (env : Env)

/-- The packet frees this gamepad of the context. -/
def removed? (input : Context) : Packet → Option Slot
  | .multiController m =>
    if env.config.controller then
      (slot? m.controllerNumber.toInt).filter fun c => !m.active c && decide (0 ≤ (input.gamepads c).id)
    else none
  | _ => none

/-- No HOME press is waiting for the gamepad and none has changed its BACK button. -/
def BackIdle (i : ℕ) (s : Host × Context) (c : Slot) : Prop :=
  (s.2.gamepads c).backButtonState = .none ∧ ¬ s.1.waiting (.backButton i c)

instance (i : ℕ) (s : Host × Context) (c : Slot) : Decidable (BackIdle i s c) := by
  unfold BackIdle
  infer_instance

/-- The things a handler of the packet `p` for the context `i` can do to gamepads.  `s₀` is the state in which the
handler starts. -/
inductive Effect (i : ℕ) (p : Packet) (s₀ : Host × Context) : Host × Context → List Call → Host × Context → Prop
  /-- nothing; delayed HOME presses may be cancelled -/
  | quiet {s s' : Host × Context} {calls : List Call} :
      s'.1.gamepadMask = s.1.gamepadMask → s'.2.gamepads = s.2.gamepads →
      (∀ j c, s'.1.waiting (.backButton j c) → s.1.waiting (.backButton j c)) → (∀ x ∈ calls, unrelated x) →
      Effect i p s₀ s calls s'
  /-- a touch, motion or battery call -/
  | use {s : Host × Context} (c : Slot) {call : Call} :
      0 ≤ (s.2.gamepads c).id → gamepadNr call = some (s.2.gamepads c).id → leaseEvent call = none →
      (∀ nr state, call ≠ .gamepadUpdate nr state) → Effect i p s₀ s [call] s
  /-- a new gamepad -/
  | grant {s : Host × Context} (c x : Slot) (metadata : GamepadArrival) :
      (s.2.gamepads c).id < 0 → s.1.gamepadMask x = false →
      Effect i p s₀ s [.allocGamepad ⟨x, UInt8.ofNat c⟩ metadata false]
        ({ s.1 with gamepadMask := Function.update s.1.gamepadMask x true },
          { s.2 with gamepads := Function.update s.2.gamepads c ({ s.2.gamepads c with id := x }) })
  /-- an update -/
  | update {s : Host × Context} (c : Slot) (r : Response) (m : MultiController) :
      p = .multiController m → slot? m.controllerNumber.toInt = some c → m.active c = true →
      0 ≤ (s.2.gamepads c).id →
      Effect i p s₀ s (updateGamepad env i r s.1 s.2 c m).2.2
        ((updateGamepad env i r s.1 s.2 c m).1, (updateGamepad env i r s.1 s.2 c m).2.1)
  /-- the end of a gamepad -/
  | remove (c : Slot) (m : MultiController) :
      p = .multiController m → slot? m.controllerNumber.toInt = some c → m.active c = false →
      removed? env s₀.2 p = some c → 0 ≤ (s₀.2.gamepads c).id →
      Effect i p s₀ s₀ [.gamepadUpdate (s₀.2.gamepads c).id {}, .freeGamepad (s₀.2.gamepads c).id]
        ({ s₀.1 with gamepadMask := freeId s₀.1.gamepadMask (s₀.2.gamepads c).id },
          { s₀.2 with gamepads := Function.update s₀.2.gamepads c ({ s₀.2.gamepads c with id := -1 }) })

/-- A handler, as a run of effects that makes its calls. -/
def HasEffects (i : ℕ) (p : Packet) (s₀ s : Host × Context) (out : Host × Context × List Call) : Prop :=
  ∃ callss, Run (Effect env i p s₀) s callss (out.1, out.2.1) ∧ callss.flatten = out.2.2

theorem hasEffects_single {i : ℕ} {p : Packet} {s₀ s : Host × Context} {out : Host × Context × List Call}
    (h : Effect env i p s₀ s out.2.2 (out.1, out.2.1)) : HasEffects env i p s₀ s out :=
  ⟨[out.2.2], Run.single h, by simp⟩

/-! ### Quiet handlers -/

/-- The statics change, but neither the mask nor the waiting HOME presses, except that some may be cancelled. -/
def Host.QuietTo (h h' : Host) : Prop :=
  h'.gamepadMask = h.gamepadMask ∧ ∀ j c, h'.waiting (.backButton j c) → h.waiting (.backButton j c)

theorem Host.QuietTo.refl (h : Host) : h.QuietTo h := ⟨rfl, fun _ _ h => h⟩

theorem Host.QuietTo.trans {h h' h'' : Host} (h₁ : h.QuietTo h') (h₂ : h'.QuietTo h'') : h.QuietTo h'' :=
  ⟨h₂.1.trans h₁.1, fun j c hw => h₁.2 j c (h₂.2 j c hw)⟩

theorem Host.quietTo_cancel (h : Host) (id : TaskId) : h.QuietTo (h.cancel id) :=
  ⟨rfl, fun _ _ => h.waiting_of_cancel id⟩

theorem Host.quietTo_pushDelayed (h : Host) (id : TaskId) {t : Timer} (ht : ∀ j c, t ≠ .backButton j c) :
    h.QuietTo (h.pushDelayed id t) := by
  refine ⟨rfl, fun j c hw => ?_⟩
  rcases (h.waiting_pushDelayed id t _).mp hw with hw | hw
  · exact hw
  · exact absurd hw.symm (ht j c)

theorem Host.quietTo_of_eq {h h' : Host} (hm : h'.gamepadMask = h.gamepadMask) (ht : h'.timers = h.timers) :
    h.QuietTo h' := by
  refine ⟨hm, fun j c hw => ?_⟩
  obtain ⟨id, hid⟩ := hw
  exact ⟨id, ht ▸ hid⟩

/-- The handler has nothing to do with gamepads. -/
def Quiet (host : Host) (input : Context) (out : Host × Context × List Call) : Prop :=
  host.QuietTo out.1 ∧ out.2.1.gamepads = input.gamepads ∧ ∀ x ∈ out.2.2, unrelated x

section
variable {host host' : Host} {input input' : Context}

theorem quiet_nil (hh : host.QuietTo host') (hg : input'.gamepads = input.gamepads) :
    Quiet host input (host', input', []) := ⟨hh, hg, by simp⟩

theorem quiet_single (hh : host.QuietTo host') (hg : input'.gamepads = input.gamepads) {x : Call}
    (hx : unrelated x) : Quiet host input (host', input', [x]) := ⟨hh, hg, by simpa using hx⟩

theorem quiet_skip : Quiet host input (host, input, []) := quiet_nil (Host.QuietTo.refl host) rfl

theorem Quiet.of_quietTo (hh : host.QuietTo host') {out : Host × Context × List Call} (h : Quiet host' input out) :
    Quiet host input out := ⟨hh.trans h.1, h.2⟩

end

theorem popTouchPort_gamepads (input : Context) : input.popTouchPort.gamepads = input.gamepads := by
  unfold Context.popTouchPort
  split <;> rfl

section
variable (host : Host) (input : Context)

theorem passthroughRelMouseMove_quiet (m : RelMouseMove) :
    Quiet host input (host, passthroughRelMouseMove env input m) := by
  unfold passthroughRelMouseMove
  split
  · exact quiet_skip
  · exact quiet_single (Host.QuietTo.refl _) rfl ⟨rfl, rfl⟩

theorem passthroughAbsMouseMove_quiet (m : AbsMouseMove) :
    Quiet host input (host, passthroughAbsMouseMove env input m) := by
  have hgp : ∀ b : Prop, [Decidable b] → (if b then
      { input with mouseLeftButtonTimeout := enableLeftButtonDelay } else input).gamepads = input.gamepads := by
    intro b _
    split <;> rfl
  unfold passthroughAbsMouseMove
  split
  · exact quiet_skip
  · dsimp only
    split
    · exact quiet_nil (Host.QuietTo.refl _) (hgp _)
    · have hpop := (popTouchPort_gamepads _).trans (hgp (input.mouseLeftButtonTimeout = disableLeftButtonDelay))
      split
      · exact quiet_nil (Host.QuietTo.refl _) hpop
      · exact quiet_single (Host.QuietTo.refl _) hpop ⟨rfl, rfl⟩

theorem passthroughScroll_quiet (m : Scroll) : Quiet host input (host, passthroughScroll env input m) := by
  unfold passthroughScroll
  split
  · exact quiet_skip
  · split
    · exact quiet_single (Host.QuietTo.refl _) rfl ⟨rfl, rfl⟩
    · dsimp only
      cases (fullTicks (input.accumulatedVscrollDelta + m.scrollAmt1.toInt)).2 with
      | none => exact quiet_nil (Host.QuietTo.refl _) rfl
      | some sent => exact quiet_single (Host.QuietTo.refl _) rfl ⟨rfl, rfl⟩

theorem passthroughHScroll_quiet (m : HScroll) : Quiet host input (host, passthroughHScroll env input m) := by
  unfold passthroughHScroll
  split
  · exact quiet_skip
  · split
    · exact quiet_single (Host.QuietTo.refl _) rfl ⟨rfl, rfl⟩
    · dsimp only
      cases (fullTicks (input.accumulatedHscrollDelta + m.scrollAmount.toInt)).2 with
      | none => exact quiet_nil (Host.QuietTo.refl _) rfl
      | some sent => exact quiet_single (Host.QuietTo.refl _) rfl ⟨rfl, rfl⟩

theorem passthroughTouch_quiet (i : ℕ) (m : Touch) : Quiet host input (host, passthroughTouch env i input m) := by
  unfold passthroughTouch
  split
  · exact quiet_skip
  · dsimp only
    split
    · exact quiet_nil (Host.QuietTo.refl _) (popTouchPort_gamepads _)
    · exact quiet_single (Host.QuietTo.refl _) (popTouchPort_gamepads _) ⟨rfl, rfl⟩

theorem passthroughPen_quiet (i : ℕ) (m : Pen) : Quiet host input (host, passthroughPen env i input m) := by
  unfold passthroughPen
  split
  · exact quiet_skip
  · dsimp only
    split
    · exact quiet_nil (Host.QuietTo.refl _) (popTouchPort_gamepads _)
    · exact quiet_single (Host.QuietTo.refl _) (popTouchPort_gamepads _) ⟨rfl, rfl⟩

theorem passthroughUnicode_quiet (text : List UInt8) :
    Quiet host input (host, input, passthroughUnicode env text) := by
  unfold passthroughUnicode
  split
  · exact quiet_skip
  · exact quiet_single (Host.QuietTo.refl _) rfl ⟨rfl, rfl⟩

theorem passthroughMouseButton_quiet (i : ℕ) (r : Response) (m : MouseButton) :
    Quiet host input (passthroughMouseButton env i r host input m) := by
  have hrecord : host.QuietTo (recordButton host m.button m.release) := by
    unfold recordButton
    split
    · exact Host.quietTo_of_eq rfl rfl
    · exact Host.QuietTo.refl host
  unfold passthroughMouseButton
  dsimp only
  split
  · exact quiet_skip
  split
  · exact quiet_skip
  refine Quiet.of_quietTo hrecord ?_
  split
  · refine quiet_nil (Host.quietTo_pushDelayed _ _ ?_) rfl
    intro j c h
    cases h
  split
  · exact ⟨Host.quietTo_of_eq rfl rfl, rfl, by simp [unrelated, leaseEvent, gamepadNr]⟩
  · exact quiet_single (Host.QuietTo.refl _) rfl ⟨rfl, rfl⟩

theorem leftRelease_quiet : Quiet host input (leftRelease env host input) := by
  unfold leftRelease
  split
  · exact quiet_skip
  · exact quiet_single (Host.quietTo_of_eq rfl rfl) rfl ⟨rfl, rfl⟩

/-- Key calls are about no gamepad. -/
theorem sendKeyAndModifiers_unrelated (keyCode : UInt16) (release : Bool) (flags synthetic : UInt8) :
    ∀ x ∈ sendKeyAndModifiers env keyCode release flags synthetic, unrelated x := by
  have hsyn : ∀ b, ∀ x ∈ syntheticCalls env b flags synthetic, unrelated x := by
    intro b x hx
    obtain ⟨k, -, rfl⟩ := List.mem_map.mp hx
    exact ⟨rfl, rfl⟩
  intro x hx
  simp only [sendKeyAndModifiers, List.mem_append] at hx
  rcases hx with (hx | hx) | hx
  · split at hx
    · cases hx
    · exact hsyn _ x hx
  · obtain rfl := List.mem_singleton.mp hx
    exact ⟨rfl, rfl⟩
  · split at hx
    · cases hx
    · exact hsyn _ x hx

theorem repeatKey_quiet (r : Response) (keyCode : UInt16) (flags synthetic : UInt8) :
    host.QuietTo (repeatKey env r host keyCode flags synthetic).1 ∧
      ∀ x ∈ (repeatKey env r host keyCode flags synthetic).2, unrelated x := by
  unfold repeatKey
  split
  · exact ⟨Host.quietTo_of_eq rfl rfl, by simp⟩
  · refine ⟨(host.quietTo_pushDelayed r.newId (t := .repeatKey keyCode flags synthetic) ?_).trans
      (Host.quietTo_of_eq rfl rfl), sendKeyAndModifiers_unrelated env _ _ _ _⟩
    intro j c h
    cases h

theorem restartRepeat_quiet (r : Response) (keyCode : UInt16) (flags synthetic : UInt8) :
    host.QuietTo (restartRepeat env r host keyCode flags synthetic) := by
  have hcancel : host.QuietTo (if host.keyPressRepeatId ≠ 0 then host.cancel host.keyPressRepeatId else host) := by
    split
    · exact host.quietTo_cancel _
    · exact Host.QuietTo.refl host
  unfold restartRepeat
  dsimp only
  split
  · refine hcancel.trans ((Host.quietTo_pushDelayed _ r.newId (t := .repeatKey keyCode flags synthetic) ?_).trans
      (Host.quietTo_of_eq rfl rfl))
    intro j c h
    cases h
  · exact hcancel

theorem applyShortcut_quiet {keyCode : UInt16} {host' : Host} (h : applyShortcut host keyCode = some host') :
    host.QuietTo host' := by
  unfold applyShortcut at h
  split at h
  · obtain rfl := Option.some.inj h
    exact Host.quietTo_of_eq rfl rfl
  split at h
  · obtain rfl := Option.some.inj h
    exact Host.quietTo_of_eq rfl rfl
  · cases h

theorem sendKey_quiet (keyCode : UInt16) (release : Bool) (flags synthetic : UInt8) :
    Quiet host input (sendKey env host input keyCode release flags synthetic) :=
  ⟨Host.quietTo_of_eq rfl rfl, rfl, sendKeyAndModifiers_unrelated env _ _ _ _⟩

theorem passthroughKeyboard_quiet (r : Response) (m : Keyboard) :
    Quiet host input (passthroughKeyboard env r host input m) := by
  unfold passthroughKeyboard
  dsimp only
  split
  · exact quiet_skip
  split
  · split
    · exact quiet_skip
    split
    next host' hshortcut =>
      split at hshortcut
      · exact quiet_nil (applyShortcut_quiet host hshortcut) rfl
      · cases hshortcut
    next => exact (sendKey_quiet env _ input _ _ _ _).of_quietTo (restartRepeat_quiet env host ..)
  · split
    · exact quiet_skip
    · exact sendKey_quiet env host input _ _ _ _

theorem resetTask_quiet : host.QuietTo (resetTask host).1 ∧ ∀ x ∈ (resetTask host).2, unrelated x := by
  refine ⟨Host.quietTo_of_eq rfl rfl, ?_⟩
  intro x hx
  simp only [resetTask, List.mem_append, List.mem_map] at hx
  rcases hx with ⟨b, -, rfl⟩ | ⟨k, -, rfl⟩
  · exact ⟨rfl, rfl⟩
  · exact ⟨rfl, rfl⟩

end

/-! ### Handlers of gamepad packets -/

section
variable {env} {i : ℕ} {p : Packet} {s₀ : Host × Context} {r : Response} {host : Host} {input : Context}

theorem hasEffects_quiet {out : Host × Context × List Call} (h : Quiet host input out) :
    HasEffects env i p s₀ (host, input) out :=
  hasEffects_single env (Effect.quiet h.1.1 h.2.1 h.1.2 h.2.2)

theorem hasEffects_withGamepad (controllerNumber : UInt8) {call : GamepadId → Call}
    (hnr : ∀ id, gamepadNr (call id) = some id.globalIndex) (hev : ∀ id, leaseEvent (call id) = none)
    (hup : ∀ id nr state, call id ≠ .gamepadUpdate nr state) :
    HasEffects env i p s₀ (host, input) (host, input, withGamepad env input controllerNumber call) := by
  unfold withGamepad
  split
  · exact hasEffects_quiet quiet_skip
  · split
    · exact hasEffects_quiet quiet_skip
    · next c hc =>
      split
      · exact hasEffects_quiet quiet_skip
      · next hid => exact hasEffects_single env (Effect.use c (by simpa using hid) (hnr _) (hev _) (hup _))

/-- The allocation grants a lease or changes nothing. -/
theorem hasEffects_allocGamepad {c : Slot} (hid : (input.gamepads c).id < 0) (arrival : GamepadArrival) :
    HasEffects env i p s₀ (host, input) (allocGamepad r host input c arrival) := by
  unfold allocGamepad
  split
  · exact hasEffects_quiet quiet_skip
  · next x hx =>
    have hfree := allocId_eq_some hx
    dsimp only
    split
    next hfail =>
      have hquiet : host.QuietTo { host with gamepadMask := freeId (Function.update host.gamepadMask x true) x } :=
        Host.quietTo_of_eq (freeId_update_self hfree) rfl
      refine hasEffects_quiet (quiet_single hquiet rfl ?_)
      rw [hfail]
      exact ⟨rfl, rfl⟩
    next hok =>
      simp only [Bool.not_eq_true] at hok
      rw [hok]
      exact hasEffects_single env (Effect.grant c x arrival hid hfree)

theorem hasEffects_multiController (m : MultiController) (h₀ : s₀ = (host, input)) :
    HasEffects env i (.multiController m) s₀ (host, input) (passthroughMultiController env i r host input m) := by
  unfold passthroughMultiController
  split
  · exact hasEffects_quiet quiet_skip
  next hcfg =>
  split
  · exact hasEffects_quiet quiet_skip
  next c hc =>
  dsimp only
  split
  next hnew =>
    -- a gamepad that is seen for the first time: it is allocated, and updated if that succeeds
    have halloc : HasEffects env i (.multiController m) s₀ (host, input) (allocGamepad r host input c {}) :=
      hasEffects_allocGamepad hnew.2 {}
    obtain ⟨callss, hrun, hflat⟩ := halloc
    split
    · exact ⟨callss, hrun, hflat⟩
    next hid =>
      exact ⟨_, hrun.snoc (Effect.update c r m rfl hc hnew.1 (by simpa using hid)), by simp [hflat]⟩
  next hnew =>
    split
    next hlast =>
      have hlast' : m.active c = false := by simpa using hlast.1
      have hremoved : removed? env s₀.2 (.multiController m) = some c := by
        rw [h₀]
        simp only [removed?]
        rw [if_pos (by simpa using hcfg), hc]
        simp [Option.filter, hlast', hlast.2]
      subst h₀
      exact hasEffects_single env (Effect.remove c m rfl hc hlast' hremoved hlast.2)
    next hlast =>
      split
      · exact hasEffects_quiet quiet_skip
      next hid =>
        have hactive : m.active c = true := by
          by_contra h
          have hf : m.active c = false := by simpa using h
          exact hlast ⟨by simp [hf], by omega⟩
        exact hasEffects_single env (Effect.update c r m rfl hc hactive (Int.not_lt.mp hid))

/-- Every handler is a run of effects. -/
theorem passthrough_effects (i : ℕ) (r : Response) (host : Host) (input : Context) (p : Packet) :
    HasEffects env i p (host, input) (host, input) (passthrough env i r host input p) := by
  cases p with
  | relMouseMove m => exact hasEffects_quiet (passthroughRelMouseMove_quiet env host input m)
  | absMouseMove m => exact hasEffects_quiet (passthroughAbsMouseMove_quiet env host input m)
  | mouseButton m => exact hasEffects_quiet (passthroughMouseButton_quiet env host input i r m)
  | scroll m => exact hasEffects_quiet (passthroughScroll_quiet env host input m)
  | hscroll m => exact hasEffects_quiet (passthroughHScroll_quiet env host input m)
  | keyboard m => exact hasEffects_quiet (passthroughKeyboard_quiet env host input r m)
  | unicode text => exact hasEffects_quiet (passthroughUnicode_quiet env host input text)
  | multiController m => exact hasEffects_multiController m rfl
  | touch m => exact hasEffects_quiet (passthroughTouch_quiet env host input i m)
  | pen m => exact hasEffects_quiet (passthroughPen_quiet env host input i m)
  | controllerArrival m =>
    simp only [passthrough, passthroughControllerArrival]
    split
    · exact hasEffects_quiet quiet_skip
    · split
      · exact hasEffects_quiet quiet_skip
      · split
        · exact hasEffects_quiet quiet_skip
        next hid => exact hasEffects_allocGamepad (by omega) _
  | controllerTouch m => exact hasEffects_withGamepad m.controllerNumber (fun _ => rfl) (fun _ => rfl) (by simp)
  | controllerMotion m => exact hasEffects_withGamepad m.controllerNumber (fun _ => rfl) (fun _ => rfl) (by simp)
  | controllerBattery m => exact hasEffects_withGamepad m.controllerNumber (fun _ => rfl) (fun _ => rfl) (by simp)

end

end MidnightSun.Input
