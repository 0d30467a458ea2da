import MidnightSun.Input.ControllerState

/-!
# Batching against handling one by one (src/input.cpp)

`passthrough_next_message` until the queue is empty, against one handler call for each packet.  A scan is harmless if it
adds no amounts and goes past no event with a packet that the platform sees.
-/

namespace MidnightSun.Input

open Lib Platf

variable (env : Env) (platform : Platform) (i : ℕ)

/-- One round of `passthrough_next_message`, on the context and its queue. -/
def round (s : Delivery × List Packet) : Delivery × List Packet :=
  consume (deliver env platform i) (merge env.lim) s

/-- What the platform is owed: the amounts with what is stored of them, the events and the last positions. -/
structure SameDelivery (s t : Delivery) : Prop where
  motion : s.seen.motion = t.seen.motion
  vscroll : s.seen.vscroll + s.context.accumulatedVscrollDelta = t.seen.vscroll + t.context.accumulatedVscrollDelta
  hscroll : s.seen.hscroll + s.context.accumulatedHscrollDelta = t.seen.hscroll + t.context.accumulatedHscrollDelta
  events : s.seen.events = t.seen.events
  positions : s.seen.positions = t.seen.positions

/-- Amounts are added only where they are ignored: `batch` adds exactly when the sum overflows. -/
def MayMerge (_ : Delivery) (d x : Packet) : Prop := Adds d x → env.config.mouse = false

/-- The packet `y` may be overtaken by what is merged into `d`, which `t₀` has handled: it is no touch of another
controller that changes a state, and it creates or frees no gamepad. -/
def MayOvertake (t₀ : Delivery) (d y : Packet) : Prop :=
  match d, y with
  | .controllerTouch p, .controllerTouch q =>
    ∀ a ∈ gamepadOf env t₀.context p.controllerNumber, ∀ b ∈ gamepadOf env t₀.context q.controllerNumber,
      env.lim.moves q.eventType = true
  | .multiController p, .multiController q => ControllerOvertaken env t₀ p q
  | _, _ => True

/-- What the packets that were passed over have left since `d` was handled. -/
def Settled (t₀ : Delivery) (d : Packet) (t : Delivery) : Prop :=
  match d with
  | .touch _ => env.config.mouse = true → t.context.touchPortEvent = none
  | .controllerTouch _ => t.context.gamepads = t₀.context.gamepads
  | .multiController p => ControllerSettled env platform t₀ p t
  | _ => True

section Laws

variable {env platform i} {s t t₀ : Delivery} {d x y d' : Packet}

lemma merge_eq_absorb : merge env.lim d x = .absorb d' ↔ batch env.lim d x = .batched d' := by
  rw [merge]
  cases batch env.lim d x with
  | batched p =>
    constructor
    · rintro ⟨⟩
      rfl
    · rintro ⟨⟩
      rfl
  | notBatchable => exact iff_of_false nofun nofun
  | terminateBatch => exact iff_of_false nofun nofun

lemma merge_eq_pass : merge env.lim d y = .pass ↔ Passes env.lim d y := by
  rw [← batch_eq_notBatchable_iff, merge]
  cases batch env.lim d y with
  | batched p => exact iff_of_false nofun nofun
  | notBatchable => exact iff_of_true rfl rfl
  | terminateBatch => exact iff_of_false nofun nofun

/-- Without mouse input the amounts are ignored. -/
lemma deliver_isAmount {p : Packet} (hp : p.isAmount = true) (hmouse : env.config.mouse = false) :
    deliver env platform i s p = s := by
  have hoff : (!env.config.mouse) = true := by rw [hmouse, Bool.not_false]
  cases p with
  | relMouseMove p =>
    unfold deliver passthrough
    dsimp only
    rw [passthroughRelMouseMove, if_pos hoff]
    rfl
  | scroll p =>
    unfold deliver passthrough
    dsimp only
    rw [passthroughScroll, if_pos hoff]
    rfl
  | hscroll p =>
    unfold deliver passthrough
    dsimp only
    rw [passthroughHScroll, if_pos hoff]
    rfl
  | _ => cases hp

theorem deliver_absorb (hmerge : batch env.lim d x = .batched d') (hmay : MayMerge env s d x) :
    deliver env platform i (deliver env platform i s d) x = deliver env platform i s d' := by
  obtain hadds | ⟨hcopies, rfl⟩ := batch_eq_batched hmerge
  · obtain ⟨hd, hx, hd'⟩ := hadds.isAmount hmerge
    have hmouse := hmay hadds
    rw [deliver_isAmount hd hmouse, deliver_isAmount hx hmouse, deliver_isAmount hd' hmouse]
  · unfold Copies at hcopies
    split at hcopies
    · exact deliver_absMouseMove_again hcopies.1 hcopies.2
    · exact deliver_multiController_again hcopies
    · exact deliver_touch_again hcopies.1 (hcopies.2.2 ▸ hcopies.1) hcopies.2.1
    · exact deliver_pen_again hcopies.1 (hcopies.2.1 ▸ hcopies.1)
    · exact deliver_controllerTouch_again hcopies.1 (hcopies.2.2.2 ▸ hcopies.1) hcopies.2.1 hcopies.2.2.1
    · exact deliver_controllerMotion_again hcopies.1 hcopies.2
    · exact hcopies.elim

theorem settled_deliver : Settled env platform (deliver env platform i s d) d (deliver env platform i s d) := by
  cases d with
  | touch p => exact touchPortEvent_deliver_touch p
  | controllerTouch p => rfl
  | multiController p => exact controllerSettled_deliver
  | _ => trivial

theorem settled_pass (h : Settled env platform t₀ d t) (hpass : Passes env.lim d y) (hover : MayOvertake env t₀ d y) :
    Settled env platform t₀ d (deliver env platform i t y) := by
  cases d with
  | touch p =>
    cases y with
    | touch q => exact touchPortEvent_deliver_touch q
    | _ => exact hpass.elim
  | controllerTouch p =>
    cases y with
    | controllerTouch q => exact h
    | _ => exact hpass.elim
  | multiController p =>
    cases y with
    | multiController q => exact controllerSettled_pass h hpass.1 hpass.2 hover
    | _ => exact hpass.elim
  | _ => trivial

/-- What is merged into `d` overtakes `y`. -/
theorem deliver_overtake (hdistinct : Distinct (t.host, t.context)) (h : Settled env platform t₀ d t)
    (hpass : Passes env.lim d y) (hover : MayOvertake env t₀ d y) (hmerge : batch env.lim d x = .batched d') :
    deliver env platform i (deliver env platform i t y) x = deliver env platform i (deliver env platform i t x) y := by
  obtain hadds | ⟨hcopies, rfl⟩ := batch_eq_batched hmerge
  · exact absurd hpass hadds.not_passes
  · have hpassx := hcopies.passes hpass
    unfold Copies at hcopies
    split at hcopies
    · exact hpass.elim
    · rename_i p x
      cases y with
      | multiController q => exact deliver_multiController_comm hdistinct hcopies h hpass.1 hpass.2 hover
      | _ => exact hpass.elim
    · rename_i p x
      cases y with
      | touch q => exact deliver_touch_comm hpassx.1 hpassx.2.1 hpassx.2.2 h
      | _ => exact hpass.elim
    · exact hpass.elim
    · rename_i p x
      cases y with
      | controllerTouch q =>
        have hgamepad : ∀ n, gamepadOf env t.context n = gamepadOf env t₀.context n := fun n => by
          unfold gamepadOf
          rw [show t.context.gamepads = t₀.context.gamepads from h]
        have hne : x.controllerNumber ≠ q.controllerNumber ∨ x.pointerId ≠ q.pointerId :=
          hpassx.2.imp_right fun hid => hid.2
        refine deliver_controllerTouch_comm hdistinct hne hpassx.1 fun a ha b hb => ?_
        rw [hgamepad, ← hcopies.2.1] at ha
        rw [hgamepad] at hb
        exact hover a ha b hb
      | _ => exact hpass.elim
    · rename_i p x
      cases y with
      | controllerMotion q => exact deliver_controllerMotion_comm hdistinct hpassx
      | _ => exact hpass.elim
    · exact hcopies.elim

/-- **The laws of coalescing hold of the handlers.** -/
theorem coalescible : Coalescible (deliver env platform i) (merge env.lim) (MayMerge env) (MayOvertake env)
    (fun s => Distinct (s.host, s.context)) (Settled env platform) where
  inv_handle s p hs := distinct_passthrough p hs
  absorb s d x d' _ hmerge hmay := deliver_absorb (merge_eq_absorb.mp hmerge) hmay
  settled_handle s d x d' _ _ _ := settled_deliver
  settled_pass t₀ d t y _ h hpass hover := settled_pass h (merge_eq_pass.mp hpass) hover
  overtake t₀ d t y x d' hdistinct h hpass hover hmerge :=
    deliver_overtake hdistinct h (merge_eq_pass.mp hpass) hover (merge_eq_absorb.mp hmerge)
  pass_absorb d x d' y hmerge hpass := by
    rw [merge_eq_pass] at hpass ⊢
    obtain hadds | ⟨hcopies, rfl⟩ := batch_eq_batched (merge_eq_absorb.mp hmerge)
    · exact absurd hpass hadds.not_passes
    · exact hcopies.passes hpass

end Laws

/-- The condition on a round: wherever the scan merges a packet, the merge adds no amount that counts, and every packet
that the scan has gone past may be overtaken. -/
def HarmlessBatch (c : Delivery × List Packet) : Prop :=
  HarmlessRound (deliver env platform i) (merge env.lim) (MayMerge env) (MayOvertake env) c

/-- **Batching.**  In every reachable state, harmless rounds until the queue is empty deliver the same as handling the
packets one at a time. -/
theorem batching_sameDelivery {env : Env} (platform : Platform) {ops : List Op} {w : World} {i : ℕ} {e : Entry}
    (hreach : Run (WorldStep env) World.boot ops w) (hi : w.inputs i = some e) (seen : Observation) {q : List Packet}
    {rounds : List Unit} {t : Delivery}
    (hrounds : Run (Guarded (ofFun fun c (_ : Unit) => round env platform i c)
      fun c _ => HarmlessBatch env platform i c)
      (⟨w.host, e.context, seen⟩, q) rounds (t, [])) :
    SameDelivery t (q.foldl (deliver env platform i) ⟨w.host, e.context, seen⟩) := by
  have hdistinct : Distinct (w.host, e.context) := distinct_of_accounted i (accounted_run hreach) hi
  have hsame : t = q.foldl (deliver env platform i) ⟨w.host, e.context, seen⟩ := coalescible.run hdistinct hrounds
  rw [hsame]
  exact ⟨rfl, rfl, rfl, rfl, rfl⟩

/-- A platform that refuses nothing. -/
def openPlatform : Platform where
  newId _ := 2
  allocFails _ _ := false

/-- One context, just allocated. -/
def demoWorld : World :=
  { World.boot with
    inputs := Function.update World.boot.inputs 0 (some {})
    host := World.boot.host.pushDelayed 2 .nudge }

/-- Two messages of a controller, of which the second takes the place of the first. -/
def demoQueue : List Packet := [demoController true 0, demoController true 0]

theorem batching_demoQueue :
    SameDelivery (round demoEnv openPlatform 0 (⟨demoWorld.host, {}, {}⟩, demoQueue)).1
      (demoQueue.foldl (deliver demoEnv openPlatform 0) ⟨demoWorld.host, {}, {}⟩) := by
  have hreach : Run (WorldStep demoEnv) World.boot [.alloc 0 ⟨2, false⟩] demoWorld := Run.single rfl
  have hi : demoWorld.inputs 0 = some {} := rfl
  have hempty : (round demoEnv openPlatform 0 (⟨demoWorld.host, {}, {}⟩, demoQueue)).2 = [] := rfl
  have hmerge : merge demoEnv.lim (demoController true 0) (demoController true 0) =
    .absorb (demoController true 0) := rfl
  have hharmless : HarmlessBatch demoEnv openPlatform 0 (⟨demoWorld.host, {}, {}⟩, demoQueue) := by
    show Harmless (deliver demoEnv openPlatform 0) (merge demoEnv.lim) (MayMerge demoEnv) (MayOvertake demoEnv)
      ⟨demoWorld.host, {}, {}⟩ [] (demoController true 0) [demoController true 0]
    rw [Harmless, hmerge]
    exact ⟨fun hadds => hadds.elim, fun _ h => absurd h List.not_mem_nil, trivial⟩
  have hrounds : Run (Guarded (ofFun fun c (_ : Unit) => round demoEnv openPlatform 0 c)
      fun c _ => HarmlessBatch demoEnv openPlatform 0 c) (⟨demoWorld.host, {}, {}⟩, demoQueue) [()]
      ((round demoEnv openPlatform 0 (⟨demoWorld.host, {}, {}⟩, demoQueue)).1, []) :=
    Run.single ⟨hharmless, Prod.ext rfl hempty.symm⟩
  exact batching_sameDelivery openPlatform hreach hi {} hrounds

/-- Two movements whose sum does not fit into 16 bits. -/
def overflowing : List Packet :=
  [.relMouseMove { deltaX := 32767, deltaY := 32767 }, .relMouseMove { deltaX := 1, deltaY := 1 }]

theorem batching_overflowing : ∃ t,
    Run (ofFun fun c (_ : Unit) => round demoEnv openPlatform 0 c) (⟨{}, {}, {}⟩, overflowing) [()] (t, []) ∧
      ¬SameDelivery t (overflowing.foldl (deliver demoEnv openPlatform 0) ⟨{}, {}, {}⟩) := by
  refine ⟨(round demoEnv openPlatform 0 (⟨{}, {}, {}⟩, overflowing)).1, Run.single rfl, fun h => ?_⟩
  have hmotion := h.motion
  have hbatched : (round demoEnv openPlatform 0 (⟨{}, {}, {}⟩, overflowing)).1.seen.motion = (-32768, -32768) := by
    decide
  have hsingle : (overflowing.foldl (deliver demoEnv openPlatform 0) ⟨{}, {}, {}⟩).seen.motion = (32768, 32768) := by
    decide
  rw [hbatched, hsingle] at hmotion
  exact absurd hmotion (by decide)

end MidnightSun.Input
