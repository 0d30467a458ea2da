import Mathlib.Algebra.Order.Group.Unbundled.Int
import Mathlib.Algebra.BigOperators.Group.List.Basic
import MidnightSun.Input.System
import MidnightSun.Util.Arith

/-!
# Low-resolution scrolling (src/input.cpp)

Scroll amounts are accumulated for each axis, and full ticks are sent.
-/

namespace MidnightSun.Input

open Lib Platf

/-! ### Axes -/

inductive Axis where
  | vertical
  | horizontal

inductive ScrollPacket where
  | vertical (p : Scroll)
  | horizontal (p : HScroll)

/-- The stored remainder. -/
def Axis.delta (input : Context) : Axis → ℤ
  | vertical => input.accumulatedVscrollDelta
  | horizontal => input.accumulatedHscrollDelta

/-- The amount that a call scrolls. -/
def Axis.scrolled : Axis → Call → Option ℤ
  | vertical, .scroll distance => some distance
  | horizontal, .hscroll distance => some distance
  | _, _ => none

/-- The amounts sent to the platform. -/
def Axis.sent (axis : Axis) (calls : List Call) : List ℤ := calls.filterMap axis.scrolled

/-- The amount of a packet. -/
def Axis.amount : Axis → ScrollPacket → ℤ
  | vertical, .vertical p => p.scrollAmt1.toInt
  | horizontal, .horizontal p => p.scrollAmount.toInt
  | _, _ => 0

variable (env : Env)

/-- The amount that counts: the handlers ignore a packet while mouse input is disabled. -/
def Axis.received (axis : Axis) (packet : ScrollPacket) : ℤ := if env.config.mouse then axis.amount packet else 0

/-- The context and the calls so far. -/
abbrev ScrollState := Context × List Call

def scrollStep (s : ScrollState) (packet : ScrollPacket) : ScrollState :=
  let out :=
    match packet with
    | .vertical p => passthroughScroll env s.1 p
    | .horizontal p => passthroughHScroll env s.1 p
  (out.1, s.2 ++ out.2)

abbrev ScrollStep : ScrollState → ScrollPacket → ScrollState → Prop := ofFun (scrollStep env)

/-- The values that a handler computes from the stored remainder and the amount of a packet. -/
def intermediates (delta amount : ℤ) : List ℤ :=
  let accumulated := delta + amount
  let ticks := accumulated.tdiv wheelDelta
  [accumulated, ticks, ticks * wheelDelta, accumulated - ticks * wheelDelta]

/-- What holds of an axis after the packets. -/
structure Axis.Conserved (axis : Axis) (packets : List ScrollPacket) (s : ScrollState) : Prop where
  ticks : ∀ distance ∈ axis.sent s.2, distance ≠ 0 ∧ wheelDelta ∣ distance
  sum : (axis.sent s.2).sum + axis.delta s.1 = (packets.map (axis.received env)).sum
  rest : |axis.delta s.1| < wheelDelta
  fits : ∀ amount : Int16, ∀ x ∈ intermediates (axis.delta s.1) amount.toInt, Util.FitsInt x

/-! ### Full ticks -/

lemma fullTicks_sum (accumulated : ℤ) :
    (fullTicks accumulated).2.toList.sum + (fullTicks accumulated).1 = accumulated := by
  unfold fullTicks
  dsimp only
  split
  · simp
  · simp

lemma truncated_rest (x : ℤ) : |x - x.tdiv wheelDelta * wheelDelta| < wheelDelta := by
  have hmod : x - x.tdiv wheelDelta * wheelDelta = x.tmod wheelDelta := by rw [Int.tmod_def, mul_comm]
  rw [hmod, ← Int.natCast_natAbs, Int.natAbs_tmod]
  have hlt := Nat.mod_lt x.natAbs (show 0 < wheelDelta.natAbs by decide)
  exact (Int.ofNat_lt.mpr hlt).trans_eq rfl

lemma fullTicks_rest (accumulated : ℤ) : |(fullTicks accumulated).1| < wheelDelta := by
  have hrest := truncated_rest accumulated
  unfold fullTicks
  dsimp only
  split
  · exact hrest
  next hticks =>
    rw [not_not] at hticks
    rwa [hticks, Int.zero_mul, Int.sub_zero] at hrest

lemma fullTicks_ticks (accumulated : ℤ) :
    ∀ distance ∈ (fullTicks accumulated).2, distance ≠ 0 ∧ wheelDelta ∣ distance := by
  unfold fullTicks
  dsimp only
  intro distance h
  split at h
  next hticks =>
    obtain rfl := Option.some.inj h
    exact ⟨Int.mul_ne_zero hticks (by decide), Int.dvd_mul_left _ _⟩
  · cases h

lemma intermediates_fit {delta : ℤ} (hdelta : |delta| < wheelDelta) (amount : Int16) :
    ∀ x ∈ intermediates delta amount.toInt, Util.FitsInt x := by
  have hle : amount.toInt ≤ 32767 := amount.toInt_le
  have hge : -32768 ≤ amount.toInt := amount.le_toInt
  have hrest := truncated_rest (delta + amount.toInt)
  rw [abs_lt] at hdelta hrest
  unfold wheelDelta at hdelta hrest
  unfold intermediates Util.FitsInt wheelDelta
  simp only [List.mem_cons, List.not_mem_nil, or_false]
  rintro x (rfl | rfl | rfl | rfl) <;> omega

/-! ### Packets -/

variable {env}

lemma Axis.sent_append (axis : Axis) (calls new : List Call) :
    axis.sent (calls ++ new) = axis.sent calls ++ axis.sent new :=
  List.filterMap_append

lemma Axis.sent_toList (axis : Axis) {call : ℤ → Call} (hcall : ∀ x, axis.scrolled (call x) = some x)
    (ticks : Option ℤ) :
    axis.sent (ticks.map call).toList = ticks.toList := by
  cases ticks with
  | none => rfl
  | some x => exact List.filterMap_cons_some (hcall x)

lemma Axis.sent_toList_none (axis : Axis) {call : ℤ → Call} (hcall : ∀ x, axis.scrolled (call x) = none)
    (ticks : Option ℤ) : axis.sent (ticks.map call).toList = [] := by
  cases ticks with
  | none => rfl
  | some x => exact List.filterMap_cons_none (hcall x)

/-- What a packet does to an axis: nothing, or its amount is added and the full ticks are sent. -/
lemma scrollStep_cases (hres : env.config.highResolutionScrolling = false) (axis : Axis) (s : ScrollState)
    (packet : ScrollPacket) :
    (axis.received env packet = 0 ∧ axis.delta (scrollStep env s packet).1 = axis.delta s.1 ∧
      axis.sent (scrollStep env s packet).2 = axis.sent s.2) ∨
    (axis.delta (scrollStep env s packet).1 = (fullTicks (axis.delta s.1 + axis.received env packet)).1 ∧
      axis.sent (scrollStep env s packet).2 =
        axis.sent s.2 ++ (fullTicks (axis.delta s.1 + axis.received env packet)).2.toList) := by
  by_cases hmouse : env.config.mouse = true
  · cases packet with
    | vertical p =>
      have hstep : scrollStep env s (.vertical p) =
          ({ s.1 with accumulatedVscrollDelta := (fullTicks (s.1.accumulatedVscrollDelta + p.scrollAmt1.toInt)).1 },
            s.2 ++ ((fullTicks (s.1.accumulatedVscrollDelta + p.scrollAmt1.toInt)).2.map Call.scroll).toList) := by
        simp [scrollStep, passthroughScroll, hmouse, hres]
      rw [hstep, axis.sent_append]
      cases axis with
      | vertical =>
        have hamount : Axis.vertical.received env (.vertical p) = p.scrollAmt1.toInt := by
          simp [Axis.received, Axis.amount, hmouse]
        rw [hamount]
        exact Or.inr ⟨rfl, congrArg _ (Axis.sent_toList .vertical (fun _ => rfl) _)⟩
      | horizontal =>
        refine Or.inl ⟨by simp [Axis.received, Axis.amount], rfl, ?_⟩
        rw [Axis.sent_toList_none .horizontal (fun _ => rfl), List.append_nil]
    | horizontal p =>
      have hstep : scrollStep env s (.horizontal p) =
          ({ s.1 with accumulatedHscrollDelta := (fullTicks (s.1.accumulatedHscrollDelta + p.scrollAmount.toInt)).1 },
            s.2 ++ ((fullTicks (s.1.accumulatedHscrollDelta + p.scrollAmount.toInt)).2.map Call.hscroll).toList) := by
        simp [scrollStep, passthroughHScroll, hmouse, hres]
      rw [hstep, axis.sent_append]
      cases axis with
      | vertical =>
        refine Or.inl ⟨by simp [Axis.received, Axis.amount], rfl, ?_⟩
        rw [Axis.sent_toList_none .vertical (fun _ => rfl), List.append_nil]
      | horizontal =>
        have hamount : Axis.horizontal.received env (.horizontal p) = p.scrollAmount.toInt := by
          simp [Axis.received, Axis.amount, hmouse]
        rw [hamount]
        exact Or.inr ⟨rfl, congrArg _ (Axis.sent_toList .horizontal (fun _ => rfl) _)⟩
  · have hstep : scrollStep env s packet = s := by
      cases packet <;> simp [scrollStep, passthroughScroll, passthroughHScroll, hmouse]
    rw [hstep]
    exact Or.inl ⟨if_neg hmouse, rfl, rfl⟩

lemma Axis.Conserved.step {axis : Axis} {packets : List ScrollPacket} {s : ScrollState}
    (h : axis.Conserved env packets s) (hres : env.config.highResolutionScrolling = false) (packet : ScrollPacket) :
    axis.Conserved env (packets ++ [packet]) (scrollStep env s packet) := by
  have hreceived : ((packets ++ [packet]).map (axis.received env)).sum =
      (packets.map (axis.received env)).sum + axis.received env packet := by
    rw [List.map_append, List.sum_append, List.map_singleton, List.sum_singleton]
  rcases scrollStep_cases hres axis s packet with ⟨hamount, hdelta, hsent⟩ | ⟨hdelta, hsent⟩
  · refine ⟨hsent ▸ h.ticks, ?_, hdelta ▸ h.rest, hdelta ▸ h.fits⟩
    rw [hreceived, hsent, hdelta, hamount, h.sum, Int.add_zero]
  · have hrest := fullTicks_rest (axis.delta s.1 + axis.received env packet)
    rw [← hdelta] at hrest
    refine ⟨?_, ?_, hrest, intermediates_fit hrest⟩
    · rw [hsent]
      intro distance hmem
      rcases List.mem_append.mp hmem with hold | hnew
      · exact h.ticks distance hold
      · exact fullTicks_ticks _ distance (Option.mem_toList.mp hnew)
    · have hsum := fullTicks_sum (axis.delta s.1 + axis.received env packet)
      have hbefore := h.sum
      rw [hreceived, hsent, hdelta, List.sum_append]
      omega

/-- **Scrolling conserves motion** after every packet and for each axis: what was sent, in full ticks, and what is stored
make up what was received while mouse input is enabled, and 32 bits hold everything. -/
theorem scrolling_conserves (hres : env.config.highResolutionScrolling = false) {packets : List ScrollPacket}
    {s : ScrollState} (hrun : Run (ScrollStep env) ({}, []) packets s) (axis : Axis) :
    axis.Conserved env packets s := by
  refine hrun.invariant_labels (I := fun packets s => axis.Conserved env packets s) ?_ ?_
  · have hdelta : axis.delta {} = 0 := by cases axis <;> rfl
    have hrest : |axis.delta {}| < wheelDelta := by rw [hdelta]; decide
    exact ⟨nofun, (Int.zero_add _).trans hdelta, hrest, intermediates_fit hrest⟩
  · intro packets s packet t _ h hstep
    rw [hstep]
    exact h.step hres packet

/-- The default configuration with low-resolution scrolling. -/
def lowResEnv (mouse : Bool) : Env := { demoEnv with config := { mouse := mouse, highResolutionScrolling := false } }

/-- Up, to the left, and down past the remainder. -/
def upAndDown : List ScrollPacket := [.vertical ⟨150, 150⟩, .horizontal ⟨-40⟩, .vertical ⟨-400, -400⟩]

theorem scrolling_conserves_up_and_down :
    (upAndDown.foldl (scrollStep (lowResEnv true)) ({}, [])).2 = [.scroll 120, .scroll (-360)] ∧
      Axis.vertical.Conserved (lowResEnv true) upAndDown (upAndDown.foldl (scrollStep (lowResEnv true)) ({}, [])) :=
  ⟨by rfl, scrolling_conserves rfl (run_ofFun _ _ _) .vertical⟩

/-- With mouse input disabled, a packet is neither sent nor stored. -/
theorem disabled_mouse_drops_scrolling :
    ¬∀ (env : Env) (packets : List ScrollPacket) (s : ScrollState) (axis : Axis),
      env.config.highResolutionScrolling = false → Run (ScrollStep env) ({}, []) packets s →
        (axis.sent s.2).sum + axis.delta s.1 = (packets.map axis.amount).sum := by
  intro hholds
  have hsum := hholds (lowResEnv false) [.vertical ⟨120, 120⟩] _ .vertical rfl (run_ofFun _ _ _)
  exact absurd hsum (by decide)

end MidnightSun.Input
