import MidnightSun.Input.Delivery

/-!
# Controller messages of one queue (src/input.cpp)

The multi-controller handler reads and writes the gamepad of its controller alone (`controllerLocal`).  A second message
with the same buttons only moves the sticks, and messages of different controllers commute unless gamepads come or go.
-/

namespace MidnightSun.Input

open Lib Platf

variable (env : Env) (platform : Platform) (i : ℕ)

/-- `updateGamepad`, for the gamepad alone. -/
def updateLocal (r : Response) (host : Host) (g : Gamepad) (c : Slot) (packet : MultiController) :
    Host × Gamepad × List Call :=
  let (backButtonState, flags) := forceBack g.backButtonState packet.state.buttonFlags
  let state := { packet.state with buttonFlags := flags }
  let (host, backTimeoutId) := backTimer env i r host g c flags
  (host,
    { gamepadState := state, backTimeoutId := backTimeoutId, id := g.id, backButtonState := backButtonState },
    [.gamepadUpdate g.id state])

/-- `passthroughMultiController` for the gamepad alone, of a controller that is in range. -/
def controllerLocal (r : Response) (host : Host) (g : Gamepad) (c : Slot) (packet : MultiController) :
    Host × Gamepad × List Call :=
  if packet.active c ∧ g.id < 0 then
    match allocId host.gamepadMask with
    | none => (host, g, [])
    | some id =>
      let call := Call.allocGamepad ⟨id, UInt8.ofNat c⟩ {} r.allocFails
      if r.allocFails then (host, g, [call])
      else
        let out := updateLocal env i r { host with gamepadMask := Function.update host.gamepadMask id true }
          { g with id := id } c packet
        (out.1, out.2.1, call :: out.2.2)
  else if !packet.active c ∧ 0 ≤ g.id then ((freeGamepad host g.id).1, { g with id := -1 }, (freeGamepad host g.id).2)
  else if g.id < 0 then (host, g, [])
  else updateLocal env i r host g c packet

/-- The result for the context. -/
def Context.withLocal (input : Context) (c : Slot) (out : Host × Gamepad × List Call) : Host × Context × List Call :=
  (out.1, { input with gamepads := Function.update input.gamepads c out.2.1 }, out.2.2)

section Local

variable {env platform i} {host : Host} {input : Context} {r : Response} {c : Slot} {packet : MultiController}

lemma withLocal_self (calls : List Call) :
    input.withLocal c (host, input.gamepads c, calls) = (host, input, calls) := by
  rw [Context.withLocal, Function.update_eq_self]

lemma updateGamepad_eq : updateGamepad env i r host input c packet =
    input.withLocal c (updateLocal env i r host (input.gamepads c) c packet) := rfl

lemma id_updateLocal {g : Gamepad} : (updateLocal env i r host g c packet).2.1.id = g.id := rfl

theorem passthroughMultiController_eq : passthroughMultiController env i r host input packet =
    if !env.config.controller then (host, input, [])
    else
      match slot? packet.controllerNumber.toInt with
      | none => (host, input, [])
      | some c => input.withLocal c (controllerLocal env i r host (input.gamepads c) c packet) := by
  unfold passthroughMultiController
  refine if_congr Iff.rfl rfl ?_
  cases slot? packet.controllerNumber.toInt with
  | none => rfl
  | some c =>
    dsimp only
    unfold controllerLocal
    by_cases hnew : packet.active c = true ∧ (input.gamepads c).id < 0
    · rw [if_pos hnew, if_pos hnew]
      cases hid : allocId host.gamepadMask with
      | none =>
        have halloc : allocGamepad r host input c {} = (host, input, []) := by rw [allocGamepad, hid]
        simp only [halloc, if_pos hnew.2, withLocal_self]
      | some id =>
        have hfree := allocId_eq_some hid
        by_cases hfails : r.allocFails = true
        · -- the id goes back into the mask
          have halloc : allocGamepad r host input c {} =
              (host, input, [.allocGamepad ⟨id, UInt8.ofNat c⟩ {} r.allocFails]) := by
            rw [allocGamepad, hid]
            simp only [if_pos hfails, freeId_update_self hfree]
          simp only [halloc, if_pos hnew.2, if_pos hfails, withLocal_self]
        · have halloc : allocGamepad r host input c {} =
              ({ host with gamepadMask := Function.update host.gamepadMask id true },
                { input with gamepads := Function.update input.gamepads c ({ input.gamepads c with id := id }) },
                [.allocGamepad ⟨id, UInt8.ofNat c⟩ {} r.allocFails]) := by
            rw [allocGamepad, hid]
            simp only [if_neg hfails]
          have hpos : ¬((id : ℕ) : ℤ) < 0 := not_lt.mpr (Int.natCast_nonneg _)
          simp only [halloc, Function.update_self, if_neg hpos, if_neg hfails, updateGamepad_eq, Context.withLocal,
            Function.update_idem, List.singleton_append]
    · rw [if_neg hnew, if_neg hnew]
      split_ifs
      · rfl
      · rw [withLocal_self]
      · rfl

end Local

/-! ### The same buttons again -/

section Again

variable {env platform i} {host : Host} {r r' : Response} {c : Slot} {g : Gamepad} {d x : MultiController}

lemma getLsbD_back (k : ℕ) : back.toBitVec.getLsbD k = decide (k = 5) := by
  have hback : back.toBitVec = BitVec.twoPow 32 5 := by decide
  rw [hback, BitVec.getLsbD_twoPow]
  by_cases hk : k = 5
  · subst hk
    decide
  · have hk' : ¬5 = k := fun h => hk h.symm
    simp [hk, hk']

lemma back_and_eq_zero_iff {flags : UInt32} : back &&& flags = 0 ↔ flags.toBitVec.getLsbD 5 = false := by
  rw [← UInt32.toBitVec_inj, UInt32.toBitVec_and]
  constructor
  · intro h
    have hbit := congrArg (BitVec.getLsbD · 5) h
    simpa [BitVec.getLsbD_and, getLsbD_back] using hbit
  · intro h
    apply BitVec.eq_of_getLsbD_eq
    intro k hk
    rw [BitVec.getLsbD_and, getLsbD_back]
    by_cases hk5 : k = 5
    · subst hk5
      rw [h]
      decide
    · simp [hk5]

lemma and_not_back {flags : UInt32} (h : back &&& flags = 0) : flags &&& ~~~back = flags := by
  rw [← UInt32.toBitVec_inj, UInt32.toBitVec_and, UInt32.toBitVec_not]
  apply BitVec.eq_of_getLsbD_eq
  intro k hk
  rw [BitVec.getLsbD_and, BitVec.getLsbD_not, getLsbD_back]
  by_cases hk5 : k = 5
  · subst hk5
    rw [back_and_eq_zero_iff.mp h]
    rfl
  · simp [hk5, hk]

lemma or_back {flags : UInt32} (h : back &&& flags ≠ 0) : flags ||| back = flags := by
  have hbit : flags.toBitVec.getLsbD 5 = true := by
    rw [← Bool.not_eq_false]
    exact fun hfalse => h (back_and_eq_zero_iff.mpr hfalse)
  rw [← UInt32.toBitVec_inj, UInt32.toBitVec_or]
  apply BitVec.eq_of_getLsbD_eq
  intro k hk
  rw [BitVec.getLsbD_or, getLsbD_back]
  by_cases hk5 : k = 5
  · subst hk5
    rw [hbit]
    rfl
  · simp [hk5]

theorem forceBack_again (b : ButtonState) (flags : UInt32) :
    forceBack (forceBack b flags).1 flags = forceBack b flags := by
  cases b with
  | none => rfl
  | up =>
    by_cases h : back &&& flags = 0
    · simp only [forceBack, if_pos h, and_not_back h]
    · simp only [forceBack, if_neg h]
  | down =>
    by_cases h : back &&& flags = 0
    · simp only [forceBack, h, ne_eq, not_true_eq_false, if_false]
    · simp only [forceBack, ne_eq, h, not_false_eq_true, if_true, or_back h]

/-- The gamepad has been updated with these buttons. -/
def SettledWith (g : Gamepad) (packet : MultiController) : Prop :=
  forceBack g.backButtonState packet.state.buttonFlags = (g.backButtonState, g.gamepadState.buttonFlags)

/-- The state that the platform is told then. -/
def Gamepad.moved (g : Gamepad) (packet : MultiController) : GamepadState :=
  { packet.state with buttonFlags := g.gamepadState.buttonFlags }

theorem updateLocal_settled (h : SettledWith g x) : updateLocal env i r host g c x =
    (host, { g with gamepadState := g.moved x }, [.gamepadUpdate g.id (g.moved x)]) := by
  have htimer : backTimer env i r host g c g.gamepadState.buttonFlags = (host, g.backTimeoutId) := by
    rw [backTimer, UInt32.xor_self, UInt32.and_zero]
    rfl
  rw [SettledWith] at h
  simp only [updateLocal, h, htimer]
  rfl

theorem settledWith_updateLocal (hflags : d.state.buttonFlags = x.state.buttonFlags) :
    SettledWith (updateLocal env i r host g c d).2.1 x := by
  have hagain := forceBack_again g.backButtonState x.state.buttonFlags
  rw [SettledWith, updateLocal, hflags]
  exact hagain

theorem updateLocal_again (hflags : d.state.buttonFlags = x.state.buttonFlags) :
    let out := updateLocal env i r host g c d
    updateLocal env i r' out.1 out.2.1 c x = updateLocal env i r host g c x := by
  intro out
  have hsettled : SettledWith out.2.1 x := settledWith_updateLocal hflags
  rw [updateLocal_settled hsettled]
  simp only [out, updateLocal, Gamepad.moved, hflags]

end Again

/-! ### Handling controller messages -/

/-- No gamepad can be had for the controller. -/
def Refused (host : Host) (c : Slot) : Prop :=
  ∀ id, allocId host.gamepadMask = some id → platform.allocFails ⟨id, UInt8.ofNat c⟩ {} = true

section Handling

variable {env platform i} {s : Delivery} {c : Slot} {d x p : MultiController}

/-- The result of a handler for the gamepad alone. -/
def Delivery.afterLocal (env : Env) (s : Delivery) (c : Slot) (out : Host × Gamepad × List Call) : Delivery where
  host := out.1
  context := { s.context with gamepads := Function.update s.context.gamepads c out.2.1 }
  seen := out.2.2.foldl (observe env.lim) s.seen

/-- The controller of the message, if controllers are enabled. -/
def controllerOf (env : Env) (p : MultiController) : Option Slot :=
  if !env.config.controller then none else slot? p.controllerNumber.toInt

lemma deliver_of_none (h : controllerOf env p = none) : deliver env platform i s (.multiController p) = s := by
  unfold deliver passthrough
  dsimp only
  rw [passthroughMultiController_eq]
  unfold controllerOf at h
  split_ifs at h ⊢ with hconfig
  · rfl
  · rw [h]
    rfl

lemma deliver_of_some (h : controllerOf env p = some c) : deliver env platform i s (.multiController p) =
    s.afterLocal env c (controllerLocal env i (platform.respond s.host (.multiController p)) s.host
      (s.context.gamepads c)
      c p) := by
  unfold deliver passthrough
  dsimp only
  rw [passthroughMultiController_eq]
  unfold controllerOf at h
  split_ifs at h ⊢ with hconfig
  · rw [h]
    rfl

lemma afterLocal_self (calls : List Call) (hcalls : calls.foldl (observe env.lim) s.seen = s.seen) :
    s.afterLocal env c (s.host, s.context.gamepads c, calls) = s := by
  rw [Delivery.afterLocal, Function.update_eq_self]
  dsimp only
  rw [hcalls]

lemma observe_refused {lim : Limelight} {o : Observation} (id : GamepadId) (metadata : GamepadArrival) :
    observe lim o (.allocGamepad id metadata true) = o := by
  rw [observe_reports ⟨rfl, rfl, rfl, rfl⟩]
  rfl

lemma slot_of_controllerOf (h : controllerOf env p = some c) : p.controllerNumber.toInt.toNat = c := by
  unfold controllerOf slot? at h
  split_ifs at h
  cases h
  rfl

lemma refuses_eq (h : controllerOf env p = some c) :
    (platform.respond s.host (.multiController p)).allocFails =
      platform.refuses s.host (UInt8.ofNat c) {} := by
  rw [Platform.respond, slot_of_controllerOf h]

lemma deliver_of_inactive (h : controllerOf env p = some c) (hactive : p.active c = false)
    (hid : (s.context.gamepads c).id < 0) : deliver env platform i s (.multiController p) = s := by
  have hlocal : controllerLocal env i (platform.respond s.host (.multiController p)) s.host (s.context.gamepads c) c p =
      (s.host, s.context.gamepads c, []) := by
    rw [controllerLocal, hactive, if_neg (by simp), if_neg (fun h => absurd h.2 (by omega)), if_pos hid]
  rw [deliver_of_some h, hlocal, afterLocal_self [] rfl]

lemma deliver_of_refused (h : controllerOf env p = some c) (hactive : p.active c = true)
    (hid : (s.context.gamepads c).id < 0) (hrefused : Refused platform s.host c) :
    deliver env platform i s (.multiController p) = s := by
  rw [deliver_of_some h, controllerLocal, if_pos ⟨hactive, hid⟩]
  cases halloc : allocId s.host.gamepadMask with
  | none => exact afterLocal_self [] rfl
  | some id =>
    have hfails : (platform.respond s.host (.multiController p)).allocFails = true := by
      rw [refuses_eq h, Platform.refuses, halloc]
      exact hrefused id halloc
    simp only [hfails, if_true]
    exact afterLocal_self _ (observe_refused _ _)

lemma deliver_of_active (h : controllerOf env p = some c) (hactive : p.active c = true)
    (hid : 0 ≤ (s.context.gamepads c).id) : deliver env platform i s (.multiController p) =
      s.afterLocal env c (updateLocal env i (platform.respond s.host (.multiController p)) s.host
        (s.context.gamepads c) c p) := by
  rw [deliver_of_some h, controllerLocal, hactive, if_neg (fun h => absurd h.2 (by omega)),
    if_neg (by simp), if_neg (by omega)]

lemma deliver_of_granted (h : controllerOf env p = some c) (hactive : p.active c = true)
    (hid : (s.context.gamepads c).id < 0) {id : Slot} (halloc : allocId s.host.gamepadMask = some id)
    (hfails : platform.allocFails ⟨id, UInt8.ofNat c⟩ {} = false) :
    deliver env platform i s (.multiController p) =
      s.afterLocal env c
        (let out := updateLocal env i (platform.respond s.host (.multiController p))
          { s.host with gamepadMask := Function.update s.host.gamepadMask id true }
          { s.context.gamepads c with id := id } c p
        (out.1, out.2.1, .allocGamepad ⟨id, UInt8.ofNat c⟩ {} false :: out.2.2)) := by
  have hresponse : (platform.respond s.host (.multiController p)).allocFails = false := by
    rw [refuses_eq h, Platform.refuses, halloc]
    exact hfails
  rw [deliver_of_some h, controllerLocal, if_pos ⟨hactive, hid⟩, halloc]
  simp only [hresponse, Bool.false_eq_true, if_false]

lemma deliver_of_removed (h : controllerOf env p = some c) (hactive : p.active c = false)
    (hid : 0 ≤ (s.context.gamepads c).id) : deliver env platform i s (.multiController p) =
      s.afterLocal env c ((freeGamepad s.host (s.context.gamepads c).id).1, { s.context.gamepads c with id := -1 },
        (freeGamepad s.host (s.context.gamepads c).id).2) := by
  rw [deliver_of_some h, controllerLocal, hactive, if_neg (by simp), if_pos ⟨by decide, hid⟩]

end Handling

/-! ### Messages that are alike -/

section Alike

variable {env platform i} {s : Delivery} {c : Slot} {d x : MultiController}

lemma Alike.state_flags (h : Alike d x) : d.state.buttonFlags = x.state.buttonFlags := by
  rw [MultiController.state, MultiController.state, h.flags, h.flags2]

lemma Alike.active (h : Alike d x) (c : Slot) : d.active c = x.active c := by
  rw [MultiController.active, MultiController.active, h.mask]

lemma Alike.controllerOf (h : Alike d x) : controllerOf env d = controllerOf env x := by
  unfold MidnightSun.Input.controllerOf
  rw [h.number]

lemma Alike.respond (h : Alike d x) (host : Host) :
    platform.respond host (.multiController d) = platform.respond host (.multiController x) := by
  rw [Platform.respond, Platform.respond, h.number]

lemma afterLocal_afterLocal {a b : Host × Gamepad × List Call} :
    (s.afterLocal env c a).afterLocal env c b = s.afterLocal env c (b.1, b.2.1, a.2.2 ++ b.2.2) := by
  simp only [Delivery.afterLocal, Function.update_idem, List.foldl_append]

lemma observe_gamepadUpdate_again {lim : Limelight} {o : Observation} {nr : ℤ} {st st' : GamepadState} :
    observe lim (observe lim o (.gamepadUpdate nr st)) (.gamepadUpdate nr st') =
      observe lim o (.gamepadUpdate nr st') := by
  refine observe_again ⟨rfl, rfl, rfl, rfl⟩ ⟨rfl, rfl, rfl, rfl⟩ fun s => ?_
  simp [Positions.after]

/-- An update on top of an update with the same buttons. -/
lemma deliver_after_update (h : Alike d x) (hc : controllerOf env x = some c) (hactive : x.active c = true)
    {r : Response} {host : Host} {g : Gamepad} (hid : 0 ≤ g.id) (calls : List Call) :
    let outd := updateLocal env i r host g c d
    let outx := updateLocal env i r host g c x
    deliver env platform i (s.afterLocal env c (outd.1, outd.2.1, calls ++ outd.2.2)) (.multiController x) =
      s.afterLocal env c (outx.1, outx.2.1, calls ++ outx.2.2) := by
  intro outd outx
  have hgamepad : (s.afterLocal env c (outd.1, outd.2.1, calls ++ outd.2.2)).context.gamepads c = outd.2.1 := by
    simp only [Delivery.afterLocal, Function.update_self]
  have hid' : 0 ≤ ((s.afterLocal env c (outd.1, outd.2.1, calls ++ outd.2.2)).context.gamepads c).id := by
    rw [hgamepad]
    exact hid
  rw [deliver_of_active hc hactive hid', hgamepad]
  have hagain : updateLocal env i
      (platform.respond (s.afterLocal env c (outd.1, outd.2.1, calls ++ outd.2.2)).host (.multiController x))
      (s.afterLocal env c (outd.1, outd.2.1, calls ++ outd.2.2)).host outd.2.1 c x = outx :=
    updateLocal_again h.state_flags
  rw [hagain, afterLocal_afterLocal]
  obtain ⟨std, hstd⟩ : ∃ st, outd.2.2 = [.gamepadUpdate g.id st] := ⟨_, rfl⟩
  obtain ⟨stx, hstx⟩ : ∃ st, outx.2.2 = [.gamepadUpdate g.id st] := ⟨_, rfl⟩
  simp only [Delivery.afterLocal, hstd, hstx, List.foldl_append, List.foldl_cons, List.foldl_nil,
    observe_gamepadUpdate_again]

/-- **A controller message with the same buttons undoes the one before.** -/
theorem deliver_multiController_again (h : Alike d x) :
    deliver env platform i (deliver env platform i s (.multiController d)) (.multiController x) =
      deliver env platform i s (.multiController x) := by
  cases hx : controllerOf env x with
  | none => rw [deliver_of_none (h.controllerOf.trans hx), deliver_of_none hx]
  | some c =>
    have hd : controllerOf env d = some c := h.controllerOf.trans hx
    by_cases hactive : x.active c = true
    · have hactived : d.active c = true := (h.active c).trans hactive
      by_cases hid : 0 ≤ (s.context.gamepads c).id
      · rw [deliver_of_active hd hactived hid, deliver_of_active hx hactive hid, h.respond]
        exact deliver_after_update h hx hactive hid []
      · by_cases hrefused : Refused platform s.host c
        · rw [deliver_of_refused hd hactived (by omega) hrefused]
        · obtain ⟨id, halloc, hfails⟩ : ∃ id, allocId s.host.gamepadMask = some id ∧
              platform.allocFails ⟨id, UInt8.ofNat c⟩ {} = false := by
            simp only [Refused, not_forall] at hrefused
            obtain ⟨id, halloc, hfails⟩ := hrefused
            exact ⟨id, halloc, Bool.eq_false_iff.mpr hfails⟩
          rw [deliver_of_granted hd hactived (by omega) halloc hfails,
            deliver_of_granted hx hactive (by omega) halloc hfails, h.respond]
          exact deliver_after_update h hx hactive (Int.natCast_nonneg _) [_]
    · have hinactive : x.active c = false := Bool.eq_false_iff.mpr hactive
      have hinactived : d.active c = false := (h.active c).trans hinactive
      by_cases hid : 0 ≤ (s.context.gamepads c).id
      · rw [deliver_of_removed hd hinactived hid, deliver_of_removed hx hinactive hid]
        apply deliver_of_inactive hx hinactive
        simp [Delivery.afterLocal]
      · rw [deliver_of_inactive hd hinactived (by omega)]

end Alike

/-! ### Messages of different controllers -/

/-- From `t₀` to `t` no active controller lost its gamepad, and no inactive one got one. -/
def Keeps (t₀ : Delivery) (p : MultiController) (t : Delivery) : Prop :=
  ∀ b, (p.active b = true → 0 ≤ (t₀.context.gamepads b).id → 0 ≤ (t.context.gamepads b).id) ∧
    (p.active b = false → (t₀.context.gamepads b).id < 0 → (t.context.gamepads b).id < 0)

/-- The controller's own gamepad, as its message `p` left it in `t₀`. -/
def ControllerSettled (t₀ : Delivery) (p : MultiController) (t : Delivery) : Prop :=
  ∀ c, controllerOf env p = some c →
    (p.active c = false → (t.context.gamepads c).id < 0) ∧
    (p.active c = true → Keeps t₀ p t ∧
      (0 ≤ (t₀.context.gamepads c).id → 0 ≤ (t.context.gamepads c).id ∧ SettledWith (t.context.gamepads c) p) ∧
      ((t₀.context.gamepads c).id < 0 → (t.context.gamepads c).id < 0 ∧ Refused platform t.host c))

/-- The message `q` of another controller creates no gamepad, and frees none that the controller of `p` waits for. -/
def ControllerOvertaken (t₀ : Delivery) (p q : MultiController) : Prop :=
  ∀ c b, controllerOf env p = some c → controllerOf env q = some b → p.active c = true →
    (q.active b = true → 0 ≤ (t₀.context.gamepads b).id) ∧
    ((t₀.context.gamepads c).id < 0 → q.active b = false → (t₀.context.gamepads b).id < 0)

section Different

variable {env platform i} {s t t₀ : Delivery} {c b : Slot} {d x p q : MultiController}

lemma gamepads_afterLocal_of_ne {out : Host × Gamepad × List Call} (h : c ≠ b) :
    (t.afterLocal env b out).context.gamepads c = t.context.gamepads c := Function.update_of_ne h _ _

lemma gamepads_afterLocal_self {out : Host × Gamepad × List Call} :
    (t.afterLocal env b out).context.gamepads b = out.2.1 := Function.update_self ..

lemma gamepadMask_updateLocal {r : Response} {host : Host} {g : Gamepad} :
    (updateLocal env i r host g c p).1.gamepadMask = host.gamepadMask :=
  updateGamepad_gamepadMask (s := (host, { gamepads := fun _ => g })) r c p

lemma refused_congr {host host' : Host} (hmask : host'.gamepadMask = host.gamepadMask)
    (h : Refused platform host c) : Refused platform host' c := by
  intro id halloc
  rw [hmask] at halloc
  exact h id halloc

lemma controllerOf_ne (hp : controllerOf env p = some c) (hq : controllerOf env q = some b)
    (hne : p.controllerNumber ≠ q.controllerNumber) : c ≠ b := by
  rintro rfl
  have hrange : ∀ m : MultiController, controllerOf env m = some c → m.controllerNumber.toInt = (c : ℕ) := by
    intro m hm
    have hslot := slot_of_controllerOf hm
    unfold controllerOf slot? at hm
    split_ifs at hm with hconfig hin
    omega
  apply hne
  apply Int16.toInt_inj.mp
  rw [hrange p hp, hrange q hq]

/-- After its own message a controller is settled. -/
theorem controllerSettled_deliver :
    ControllerSettled env platform (deliver env platform i s (.multiController p)) p
      (deliver env platform i s (.multiController p)) := by
  intro c hc
  refine ⟨?_, ?_⟩
  · intro hinactive
    by_cases hid : 0 ≤ (s.context.gamepads c).id
    · rw [deliver_of_removed hc hinactive hid, gamepads_afterLocal_self]
      exact Int.negSucc_lt_zero 0
    · rw [deliver_of_inactive hc hinactive (by omega)]
      exact not_le.mp hid
  · intro hactive
    refine ⟨fun _ => ⟨fun _ h => h, fun _ h => h⟩, ?_⟩
    by_cases hid : 0 ≤ (s.context.gamepads c).id
    · rw [deliver_of_active hc hactive hid, gamepads_afterLocal_self, id_updateLocal]
      exact ⟨fun _ => ⟨hid, settledWith_updateLocal rfl⟩, fun h => absurd hid (by omega)⟩
    · by_cases hrefused : Refused platform s.host c
      · rw [deliver_of_refused hc hactive (by omega) hrefused]
        exact ⟨fun h => absurd h hid, fun h => ⟨h, hrefused⟩⟩
      · simp only [Refused, not_forall] at hrefused
        obtain ⟨id, halloc, hfails⟩ := hrefused
        rw [deliver_of_granted hc hactive (by omega) halloc (Bool.eq_false_iff.mpr hfails), gamepads_afterLocal_self]
        have hpos : ¬((id : ℕ) : ℤ) < 0 := not_lt.mpr (Int.natCast_nonneg _)
        exact ⟨fun h => ⟨h, settledWith_updateLocal rfl⟩, fun h => absurd h hpos⟩

/-- It stays so while messages of other controllers are handled. -/
theorem controllerSettled_pass (h : ControllerSettled env platform t₀ p t)
    (hmask : p.activeGamepadMask = q.activeGamepadMask) (hne : p.controllerNumber ≠ q.controllerNumber)
    (hover : ControllerOvertaken env t₀ p q) :
    ControllerSettled env platform t₀ p (deliver env platform i t (.multiController q)) := by
  cases hq : controllerOf env q with
  | none =>
    rw [deliver_of_none hq]
    exact h
  | some b =>
    intro c hc
    have hcb := controllerOf_ne hc hq hne
    have hactives : ∀ a, p.active a = q.active a := fun a => by
      rw [MultiController.active, MultiController.active, hmask]
    obtain ⟨hinactive, hactive⟩ := h c hc
    have hself : (deliver env platform i t (.multiController q)).context.gamepads c = t.context.gamepads c := by
      rw [deliver_of_some hq, gamepads_afterLocal_of_ne hcb]
    rw [hself]
    refine ⟨hinactive, fun hpc => ?_⟩
    obtain ⟨hkeeps, hheld, hnone⟩ := hactive hpc
    obtain ⟨hcreates, hfrees⟩ := hover c b hc hq hpc
    by_cases hqb : q.active b = true
    · -- a gamepad that is there is updated
      have hid : 0 ≤ (t.context.gamepads b).id := (hkeeps b).1 ((hactives b).trans hqb) (hcreates hqb)
      rw [deliver_of_active hq hqb hid]
      refine ⟨fun a => ?_, hheld, fun hlt => ⟨(hnone hlt).1, ?_⟩⟩
      · by_cases hab : a = b
        · rw [hab, gamepads_afterLocal_self, id_updateLocal]
          exact hkeeps b
        · rw [gamepads_afterLocal_of_ne hab]
          exact hkeeps a
      · exact refused_congr gamepadMask_updateLocal (hnone hlt).2
    · have hqb' : q.active b = false := Bool.eq_false_iff.mpr hqb
      by_cases hid : 0 ≤ (t.context.gamepads b).id
      · -- a gamepad is removed, which is not one that is waited for
        have hpb : p.active b = false := (hactives b).trans hqb'
        have hnot : ¬(t₀.context.gamepads c).id < 0 := fun hlt =>
          absurd ((hkeeps b).2 hpb (hfrees hlt hqb')) (not_lt.mpr hid)
        rw [deliver_of_removed hq hqb' hid]
        refine ⟨fun a => ?_, hheld, fun hlt => absurd hlt hnot⟩
        by_cases hab : a = b
        · rw [hab, gamepads_afterLocal_self]
          exact ⟨fun hpa => absurd hpa (by rw [hpb]; decide), fun _ _ => Int.negSucc_lt_zero 0⟩
        · rw [gamepads_afterLocal_of_ne hab]
          exact hkeeps a
      · rw [deliver_of_inactive hq hqb' (by omega)]
        exact ⟨hkeeps, hheld, hnone⟩

lemma calls_controllerLocal {r : Response} {host : Host} {g : Gamepad} (hcreates : q.active b = true → 0 ≤ g.id)
    {call : Call} (hcall : call ∈ (controllerLocal env i r host g b q).2.2) :
    0 ≤ g.id ∧ ((∃ st, call = .gamepadUpdate g.id st) ∨ call = .freeGamepad g.id) := by
  rw [controllerLocal, if_neg (fun h => absurd (hcreates h.1) (by omega))] at hcall
  split_ifs at hcall with hremoved hnone
  · rcases List.mem_cons.mp hcall with rfl | hcall
    · exact ⟨hremoved.2, Or.inl ⟨_, rfl⟩⟩
    · obtain rfl := List.mem_singleton.mp hcall
      exact ⟨hremoved.2, Or.inr rfl⟩
  · cases hcall
  · obtain rfl := List.mem_singleton.mp hcall
    exact ⟨not_lt.mp hnone, Or.inl ⟨_, rfl⟩⟩

/-- **A controller message with the same buttons may overtake those of other controllers** that create no gamepad. -/
theorem deliver_multiController_comm (hdistinct : Distinct (t.host, t.context)) (hx : Alike p x)
    (h : ControllerSettled env platform t₀ p t) (hmask : p.activeGamepadMask = q.activeGamepadMask)
    (hne : p.controllerNumber ≠ q.controllerNumber) (hover : ControllerOvertaken env t₀ p q) :
    deliver env platform i (deliver env platform i t (.multiController q)) (.multiController x) =
      deliver env platform i (deliver env platform i t (.multiController x)) (.multiController q) := by
  cases hc : controllerOf env x with
  | none => rw [deliver_of_none hc, deliver_of_none hc]
  | some c =>
    have hpc : controllerOf env p = some c := hx.controllerOf.trans hc
    obtain ⟨hinactive, hactive⟩ := h c hpc
    obtain ⟨hinactive', hactive'⟩ := controllerSettled_pass (i := i) h hmask hne hover c hpc
    by_cases hxc : x.active c = true
    · have hpactive : p.active c = true := (hx.active c).trans hxc
      obtain ⟨hkeeps, hheld, hnone⟩ := hactive hpactive
      by_cases hid₀ : 0 ≤ (t₀.context.gamepads c).id
      · obtain ⟨hid, hsettled⟩ := hheld hid₀
        have hsettledx : SettledWith (t.context.gamepads c) x := by
          rw [SettledWith, ← hx.state_flags]
          exact hsettled
        cases hb : controllerOf env q with
        | none => rw [deliver_of_none hb, deliver_of_none hb]
        | some b =>
          have hcb := controllerOf_ne hpc hb hne
          have hactives : p.active b = q.active b := by
            rw [MultiController.active, MultiController.active, hmask]
          have hcreates : q.active b = true → 0 ≤ (t.context.gamepads b).id := fun hqb =>
            (hkeeps b).1 (hactives.trans hqb) ((hover c b hpc hb hpactive).1 hqb)
          -- the update leaves the statics as they are, and the other message leaves this gamepad
          have hleft : deliver env platform i (deliver env platform i t (.multiController q)) (.multiController x) =
              (deliver env platform i t (.multiController q)).afterLocal env c
                ((deliver env platform i t (.multiController q)).host,
                  { t.context.gamepads c with gamepadState := (t.context.gamepads c).moved x },
                  [.gamepadUpdate (t.context.gamepads c).id ((t.context.gamepads c).moved x)]) := by
            have hgamepad : (deliver env platform i t (.multiController q)).context.gamepads c =
                t.context.gamepads c := by rw [deliver_of_some hb, gamepads_afterLocal_of_ne hcb]
            rw [deliver_of_active hc hxc (hgamepad ▸ hid), hgamepad, updateLocal_settled hsettledx]
          have hright : deliver env platform i t (.multiController x) =
              t.afterLocal env c (t.host, { t.context.gamepads c with gamepadState := (t.context.gamepads c).moved x },
                [.gamepadUpdate (t.context.gamepads c).id ((t.context.gamepads c).moved x)]) := by
            rw [deliver_of_active hc hxc hid, updateLocal_settled hsettledx]
          rw [hleft, hright, deliver_of_some hb, deliver_of_some hb, gamepads_afterLocal_of_ne (Ne.symm hcb)]
          simp only [Delivery.afterLocal, List.foldl_cons, List.foldl_nil, Function.update_comm hcb]
          congr 1
          symm
          apply foldl_observe_comm ⟨rfl, rfl, rfl, rfl⟩
          · intro call hcall
            rcases (calls_controllerLocal hcreates hcall).2 with ⟨st, rfl⟩ | rfl
            · exact ⟨rfl, rfl, rfl, rfl⟩
            · exact ⟨rfl, rfl, rfl, rfl⟩
          · intro call hcall positions
            obtain ⟨hidb, hcalls⟩ := calls_controllerLocal hcreates hcall
            have hids : (t.context.gamepads c).id ≠ (t.context.gamepads b).id := fun heq =>
              hcb (hdistinct.inj c b hid heq)
            rcases hcalls with ⟨st, rfl⟩ | rfl
            · simp only [Positions.after, Function.update_comm hids]
            · simp only [Positions.after, Function.update_comm hids]
      · -- no gamepad can be had, neither before nor after
        obtain ⟨hid, hrefused⟩ := hnone (by omega)
        obtain ⟨hid', hrefused'⟩ := (hactive' hpactive).2.2 (by omega)
        rw [deliver_of_refused hc hxc hid hrefused, deliver_of_refused hc hxc hid' hrefused']
    · have hxc' : x.active c = false := Bool.eq_false_iff.mpr hxc
      have hpinactive : p.active c = false := (hx.active c).trans hxc'
      rw [deliver_of_inactive hc hxc' (hinactive hpinactive), deliver_of_inactive hc hxc' (hinactive' hpinactive)]

end Different

end MidnightSun.Input
