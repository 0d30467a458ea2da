import MidnightSun.Input.Held

/-!
# The delayed left click (src/input.cpp)

One client, its mouse packets and the delayed releases of the left button, each of which runs at any time.  `sent` is
what the client did to the left button, press and release in turn.
-/

namespace MidnightSun.Input

open Lib Platf

/-! ### Mouse packets and delayed releases -/

structure Mouse where
  host : Host := {}
  input : Context := {}
  /-- ghost: the platform calls -/
  calls : List Call := []
  /-- ghost: the presses and releases of the left button by the client -/
  sent : List Bool := []

inductive MouseOp where
  | relMove (p : RelMouseMove)
  | absMove (p : AbsMouseMove)
  | button (p : MouseButton) (r : Response)
  /-- the worker runs a delayed task -/
  | fire (id : TaskId)

/-- The state after a handler ran. -/
def Mouse.handled (s : Mouse) (out : Host × Context × List Call) : Mouse :=
  { s with host := out.1, input := out.2.1, calls := s.calls ++ out.2.2 }

/-- The level after a list of edges. -/
def lastLevel (edges : List Bool) : Bool := edges.getLast?.getD false

/-- A press of a pressed button and a release of a released one are no edges. -/
def addEdge (edges : List Bool) (level : Bool) : List Bool :=
  if lastLevel edges = level then edges else edges ++ [level]

variable (env : Env)

/-- What the client does to the left button with a packet. -/
def addSent (sent : List Bool) (p : MouseButton) : List Bool :=
  if p.button = env.lim.buttonLeft then addEdge sent !p.release else sent

def Mouse.step (s : Mouse) : MouseOp → Option Mouse
  | .relMove p => some (s.handled (s.host, passthroughRelMouseMove env s.input p))
  | .absMove p => some (s.handled (s.host, passthroughAbsMouseMove env s.input p))
  | .button p r =>
    if disableLeftButtonDelay < r.newId ∧ ∀ x ∈ s.host.timers, x.1 ≠ r.newId then
      some { s.handled (passthroughMouseButton env 0 r s.host s.input p) with sent := addSent env s.sent p }
    else none
  | .fire id =>
    (s.host.timers.find? (·.1 = id)).bind fun x =>
      match x.2 with
      | .leftRelease _ => some (s.handled (leftRelease env (s.host.cancel id) s.input))
      | _ => none

abbrev MouseStep : Mouse → MouseOp → Mouse → Prop := ofPartial (Mouse.step env)

/-- What the platform saw of a button. -/
def edgesOf (b : ℕ) (calls : List Call) : List Bool := calls.filterMap (buttonEdge b)

/-- The client and the platform agree on the mouse buttons, and nothing is delayed. -/
structure Mouse.Settled (s : Mouse) : Prop where
  buttons : ∀ b, tracked b = true → buttonDown s.calls b = s.host.mousePress b
  left : edgesOf env.lim.buttonLeft s.calls = s.sent
  timeout : s.input.mouseLeftButtonTimeout = 0 ∨ s.input.mouseLeftButtonTimeout = disableLeftButtonDelay

/-- Mouse input is enabled, and the left button is not pressed while its release is delayed. -/
def ClickGuard (s : Mouse) : MouseOp → Prop
  | .button p _ => env.config.mouse = true ∧
      (p.button = env.lim.buttonLeft → p.release = false → s.host.leftPending = false)
  | _ => True

instance (s : Mouse) : DecidablePred (ClickGuard env s)
  | .button _ _ => inferInstanceAs (Decidable (_ ∧ (_ → _ → _)))
  | .relMove _ | .absMove _ | .fire _ => instDecidableTrue

/-! ### Edges -/

lemma edgesOf_append (b : ℕ) (calls new : List Call) : edgesOf b (calls ++ new) = edgesOf b calls ++ edgesOf b new :=
  List.filterMap_append

lemma edgesOf_eq_nil {b : ℕ} {calls : List Call} (h : ∀ x ∈ calls, edgeless x) : edgesOf b calls = [] := by
  rw [edgesOf, List.filterMap_eq_nil_iff]
  exact fun x hx => (h x hx).1 b

lemma edgesOf_buttonMouse (b k : ℕ) (release : Bool) :
    edgesOf b [.buttonMouse k release] = if k = b then [!release] else [] := by
  rw [edgesOf, List.filterMap_cons, buttonEdge]
  split_ifs <;> rfl

lemma lastLevel_concat (edges : List Bool) (level : Bool) : lastLevel (edges ++ [level]) = level := by
  rw [lastLevel, List.getLast?_concat, Option.getD_some]

lemma addEdge_of_eq {edges : List Bool} {level : Bool} (h : lastLevel edges = level) : addEdge edges level = edges :=
  if_pos h

lemma addEdge_of_ne {edges : List Bool} {level : Bool} (h : lastLevel edges ≠ level) :
    addEdge edges level = edges ++ [level] := if_neg h

lemma buttonDown_eq_lastLevel (calls : List Call) (b : ℕ) : buttonDown calls b = lastLevel (edgesOf b calls) := by
  have h : ∀ before, levelAfter (buttonEdge b) before calls = ((edgesOf b calls).getLast?).getD before := by
    induction calls with
    | nil => exact fun _ => rfl
    | cons x calls ih =>
      intro before
      have hstep : levelAfter (buttonEdge b) before (x :: calls) =
          levelAfter (buttonEdge b) ((buttonEdge b x).getD before) calls := rfl
      rw [hstep, ih, edgesOf, edgesOf, List.filterMap_cons]
      rcases buttonEdge b x with _ | level
      · rfl
      · rw [List.getLast?_cons]
        rfl
  exact h false

/-! ### The invariant -/

/-- Either nothing is delayed, or the last release of the left button, which the platform has not seen. -/
structure Mouse.Clicks (s : Mouse) : Prop where
  level : lastLevel s.sent = s.host.mousePress env.lim.buttonLeft
  others : ∀ b, tracked b = true → b ≠ env.lim.buttonLeft → buttonDown s.calls b = s.host.mousePress b
  left : s.host.timers = [] ∧ edgesOf env.lim.buttonLeft s.calls = s.sent ∧
      s.input.mouseLeftButtonTimeout ≤ disableLeftButtonDelay ∨
    ∃ id i, s.host.timers = [(id, .leftRelease i)] ∧ s.host.mousePress env.lim.buttonLeft = false ∧
      edgesOf env.lim.buttonLeft s.calls ++ [false] = s.sent

variable {env} {s t : Mouse}

lemma Mouse.Clicks.start : Mouse.Clicks env {} where
  level := rfl
  others := fun _ _ _ => rfl
  left := .inl ⟨rfl, rfl, by decide⟩

/-- A handler that does not touch the left button. -/
lemma Mouse.Clicks.of_others (h : s.Clicks env) {host : Host} {input : Context} {new : List Call}
    (htimers : host.timers = s.host.timers)
    (hpress : host.mousePress env.lim.buttonLeft = s.host.mousePress env.lim.buttonLeft)
    (hedges : edgesOf env.lim.buttonLeft new = [])
    (hothers : ∀ b, tracked b = true → b ≠ env.lim.buttonLeft → buttonDown (s.calls ++ new) b = host.mousePress b)
    (htimeout : s.input.mouseLeftButtonTimeout ≤ disableLeftButtonDelay →
      input.mouseLeftButtonTimeout ≤ disableLeftButtonDelay) :
    (s.handled (host, input, new)).Clicks env where
  level := h.level.trans hpress.symm
  others := hothers
  left := by
    have hsame : edgesOf env.lim.buttonLeft (s.calls ++ new) = edgesOf env.lim.buttonLeft s.calls := by
      rw [edgesOf_append, hedges, List.append_nil]
    rcases h.left with ⟨hnone, hsent, hle⟩ | ⟨id, i, hone, hup, hsent⟩
    · exact .inl ⟨htimers.trans hnone, hsame.trans hsent, htimeout hle⟩
    · exact .inr ⟨id, i, htimers.trans hone, hpress.trans hup, (congrArg (· ++ [false]) hsame).trans hsent⟩

lemma Mouse.Clicks.of_edgeless (h : s.Clicks env) {input : Context} {new : List Call} (hnew : ∀ x ∈ new, edgeless x)
    (htimeout : s.input.mouseLeftButtonTimeout ≤ disableLeftButtonDelay →
      input.mouseLeftButtonTimeout ≤ disableLeftButtonDelay) :
    (s.handled (s.host, input, new)).Clicks env :=
  h.of_others rfl rfl (edgesOf_eq_nil hnew)
    (fun b hb hne => (buttonDown_append_edgeless hnew b).trans (h.others b hb hne)) htimeout

lemma Mouse.Clicks.relMove (h : s.Clicks env) (p : RelMouseMove) :
    (s.handled (s.host, passthroughRelMouseMove env s.input p)).Clicks env := by
  unfold passthroughRelMouseMove
  split_ifs
  · exact h.of_edgeless edgeless_nil id
  · exact h.of_edgeless (edgeless_single ⟨fun _ => rfl, fun _ => rfl⟩) fun _ => Nat.le_refl _

lemma Mouse.Clicks.absMove (h : s.Clicks env) (p : AbsMouseMove) :
    (s.handled (s.host, passthroughAbsMouseMove env s.input p)).Clicks env := by
  unfold passthroughAbsMouseMove
  dsimp only
  have hinput : s.input.mouseLeftButtonTimeout ≤ disableLeftButtonDelay →
      (if s.input.mouseLeftButtonTimeout = disableLeftButtonDelay then
        { s.input with mouseLeftButtonTimeout := enableLeftButtonDelay } else s.input).mouseLeftButtonTimeout ≤
          disableLeftButtonDelay := by
    intro hle
    split_ifs
    · exact Nat.zero_le _
    · exact hle
  generalize (if s.input.mouseLeftButtonTimeout = disableLeftButtonDelay then
    { s.input with mouseLeftButtonTimeout := enableLeftButtonDelay } else s.input) = input at hinput
  have hpop : input.popTouchPort.mouseLeftButtonTimeout = input.mouseLeftButtonTimeout := by
    unfold Context.popTouchPort
    split <;> rfl
  rw [← hpop] at hinput
  split_ifs
  · exact h.of_edgeless edgeless_nil id
  · exact h.of_edgeless edgeless_nil (hpop ▸ hinput)
  · split
    · exact h.of_edgeless edgeless_nil hinput
    · exact h.of_edgeless (edgeless_single ⟨fun _ => rfl, fun _ => rfl⟩) hinput

/-- A packet of another button does not concern the left one. -/
lemma Mouse.Clicks.otherButton (h : s.Clicks env) {p : MouseButton} (hmouse : env.config.mouse = true)
    (hne : p.button ≠ env.lim.buttonLeft) (r : Response) :
    (s.handled (passthroughMouseButton env 0 r s.host s.input p)).Clicks env := by
  obtain ⟨-, htimers, hother, hself⟩ := recordButton_keeps s.host p.button p.release
  unfold passthroughMouseButton
  dsimp only
  generalize recordButton s.host p.button p.release = g at *
  rw [if_neg (by simp [hmouse])]
  split_ifs with hsame hdelay hright
  · exact h.of_edgeless edgeless_nil id
  · exact absurd hdelay.1 hne
  · -- the right button is pressed and released at once
    obtain ⟨hbutton, -, -⟩ := hright
    refine h.of_others htimers ?_ ?_ (fun b hb hbl => ?_) id
    · exact (Function.update_of_ne (hbutton ▸ hne.symm) _ _).trans (hother _ hne.symm)
    · rw [← List.singleton_append, edgesOf_append, edgesOf_buttonMouse, edgesOf_buttonMouse, ← hbutton, if_neg hne,
        if_neg hne]
      rfl
    · rw [List.append_cons, buttonDown_snoc, buttonDown_snoc]
      by_cases hbr : env.lim.buttonRight = b
      · subst hbr
        exact (if_pos rfl).trans (Function.update_self env.lim.buttonRight false g.mousePress).symm
      · rw [if_neg hbr, if_neg hbr, h.others b hb hbl, ← hother b (hbutton ▸ Ne.symm hbr)]
        exact (Function.update_of_ne (Ne.symm hbr) _ _).symm
  · refine h.of_others htimers (hother _ hne.symm) ?_ (fun b hb hbl => ?_) id
    · rw [edgesOf_buttonMouse, if_neg hne]
    · rw [buttonDown_snoc]
      by_cases hbp : p.button = b
      · rw [if_pos hbp, ← hbp, hself (hbp ▸ hb)]
      · rw [if_neg hbp, hother b (Ne.symm hbp), h.others b hb hbl]

/-- A packet of the left button. -/
lemma Mouse.Clicks.leftButton (h : s.Clicks env) {p : MouseButton} (hleft : tracked env.lim.buttonLeft = true)
    (hlr : env.lim.buttonLeft ≠ env.lim.buttonRight) (hmouse : env.config.mouse = true)
    (hbutton : p.button = env.lim.buttonLeft) (hguard : p.release = false → s.host.leftPending = false) (r : Response) :
    Mouse.Clicks env { s.handled (passthroughMouseButton env 0 r s.host s.input p) with
      sent := addEdge s.sent !p.release } := by
  obtain ⟨-, htimers, hother, hself⟩ := recordButton_keeps s.host p.button p.release
  rw [hbutton] at htimers hother hself
  unfold passthroughMouseButton
  dsimp only
  rw [if_neg (by simp [hmouse]), hbutton]
  by_cases hsame : tracked env.lim.buttonLeft = true ∧ s.host.mousePress env.lim.buttonLeft ≠ p.release
  · -- the client repeats itself
    have hlevel : lastLevel s.sent = !p.release := by rw [h.level, Bool.eq_not_of_ne hsame.2]
    rw [if_pos hsame, addEdge_of_eq hlevel]
    exact h.of_edgeless edgeless_nil id
  have hpressed : s.host.mousePress env.lim.buttonLeft = p.release := not_ne_iff.mp fun hne => hsame ⟨hleft, hne⟩
  have hlevel : lastLevel s.sent ≠ !p.release := by
    rw [h.level, hpressed]
    exact Bool.self_ne_not _
  -- a delayed release is over: a new one needs a press before it, and the guard is about presses
  obtain ⟨hnone, hsent, hle⟩ : s.host.timers = [] ∧ edgesOf env.lim.buttonLeft s.calls = s.sent ∧
      s.input.mouseLeftButtonTimeout ≤ disableLeftButtonDelay := by
    rcases h.left with hclear | ⟨id, i, hone, hup, -⟩
    · exact hclear
    · have hpending := hguard (hpressed.symm.trans hup)
      rw [Host.leftPending, hone] at hpending
      cases hpending
  rw [if_neg hsame, addEdge_of_ne hlevel]
  have hothers : ∀ b, tracked b = true → b ≠ env.lim.buttonLeft →
      buttonDown s.calls b = (recordButton s.host env.lim.buttonLeft p.release).mousePress b := by
    intro b hb hbl
    rw [hother b hbl, h.others b hb hbl]
  split_ifs with hdelay hright
  · obtain ⟨-, hrelease, -⟩ := hdelay
    have hcalls : s.calls ++ [] = s.calls := List.append_nil _
    refine ⟨(lastLevel_concat _ _).trans (hself hleft).symm, fun b hb hbl => ?_, .inr ⟨r.newId, 0, ?_, ?_, ?_⟩⟩
    · exact (congrArg (buttonDown · b) hcalls).trans (hothers b hb hbl)
    · exact congrArg (· ++ _) (htimers.trans hnone)
    · rw [hrelease] at hself ⊢
      exact hself hleft
    · exact (congrArg (edgesOf _ · ++ [false]) hcalls).trans (by rw [hsent, hrelease]; rfl)
  · exact absurd hright.1 hlr
  · refine ⟨(lastLevel_concat _ _).trans (hself hleft).symm, fun b hb hbl => ?_, .inl ⟨htimers.trans hnone, ?_, hle⟩⟩
    · exact (buttonDown_snoc _ _ _ _).trans ((if_neg (Ne.symm hbl)).trans (hothers b hb hbl))
    · rw [show (s.handled _).calls = s.calls ++ [_] from rfl, edgesOf_append, edgesOf_buttonMouse, if_pos rfl, hsent]

/-- The delayed release reaches the platform. -/
lemma Mouse.Clicks.fire (h : s.Clicks env) {id : TaskId} (ht : s.step env (.fire id) = some t) : t.Clicks env := by
  obtain ⟨x, hx, hrun⟩ := Option.bind_eq_some_iff.mp ht
  rcases h.left with ⟨hnone, -, -⟩ | ⟨id', i, hone, hup, hsent⟩
  · rw [hnone] at hx
    cases hx
  · rw [hone] at hx
    have hmem := List.mem_of_find?_eq_some hx
    have hid := List.find?_some hx
    obtain rfl := List.mem_singleton.mp hmem
    obtain rfl := Option.some.inj hrun
    have htimers : (s.host.cancel id).timers = [] := by
      rw [Host.cancel_timers, hone]
      exact List.eraseP_cons_of_pos hid
    rw [leftRelease, if_neg (by rw [Host.cancel_mousePress, hup]; exact Bool.false_ne_true)]
    refine ⟨?_, fun b hb hbl => ?_, .inl ⟨htimers, ?_, Nat.zero_le _⟩⟩
    · exact h.level.trans (hup.trans (Function.update_self env.lim.buttonLeft false s.host.mousePress).symm)
    · exact (buttonDown_snoc _ _ _ _).trans ((if_neg (Ne.symm hbl)).trans
        ((h.others b hb hbl).trans (Function.update_of_ne hbl _ _).symm))
    · refine (edgesOf_append _ _ _).trans (Eq.trans ?_ hsent)
      rw [edgesOf_buttonMouse, if_pos rfl]
      rfl

/-! ### Runs -/

theorem Mouse.Clicks.step (h : s.Clicks env) (hleft : tracked env.lim.buttonLeft = true)
    (hlr : env.lim.buttonLeft ≠ env.lim.buttonRight) {op : MouseOp} (hguard : ClickGuard env s op)
    (ht : MouseStep env s op t) : t.Clicks env := by
  cases op with
  | relMove p => exact Option.some.inj ht ▸ h.relMove p
  | absMove p => exact Option.some.inj ht ▸ h.absMove p
  | button p r =>
    obtain ⟨hmouse, hpending⟩ := hguard
    rw [MouseStep, ofPartial, Mouse.step] at ht
    split_ifs at ht
    obtain rfl := Option.some.inj ht
    by_cases hbutton : p.button = env.lim.buttonLeft
    · rw [addSent, if_pos hbutton]
      exact h.leftButton hleft hlr hmouse hbutton (hpending hbutton) r
    · rw [addSent, if_neg hbutton]
      exact h.otherButton hmouse hbutton r
  | fire id => exact h.fire ht

lemma Mouse.Clicks.settled (h : s.Clicks env) (hnone : s.host.timers = []) : s.Settled env := by
  rcases h.left with ⟨-, hsent, hle⟩ | ⟨id, i, hone, -, -⟩
  · refine ⟨fun b hb => ?_, hsent, ?_⟩
    · by_cases hbl : b = env.lim.buttonLeft
      · rw [hbl, buttonDown_eq_lastLevel, hsent, h.level]
      · exact h.others b hb hbl
    · exact Nat.le_one_iff_eq_zero_or_eq_one.mp hle
  · rw [hnone] at hone
    cases hone

/-- **The delayed left click loses no edge** if the left button is not pressed while its release is delayed: when no
release is delayed any more, the client and the platform agree. -/
theorem left_click_settled (hleft : tracked env.lim.buttonLeft = true)
    (hlr : env.lim.buttonLeft ≠ env.lim.buttonRight) {ops : List MouseOp}
    (hrun : Run (Guarded (MouseStep env) (ClickGuard env)) {} ops s) (hfired : s.host.timers = []) : s.Settled env := by
  have hclicks : s.Clicks env :=
    hrun.invariant_where (I := Mouse.Clicks env) (fun _ _ _ h hg hs => h.step hleft hlr hg hs) .start
  exact hclicks.settled hfired

/-- A click, and another one after the delay. -/
def slowClicks : List MouseOp :=
  [.button ⟨false, 1⟩ ⟨2, false⟩, .button ⟨true, 1⟩ ⟨2, false⟩, .fire 2, .button ⟨false, 1⟩ ⟨3, false⟩,
    .relMove ⟨1, 1⟩, .button ⟨true, 1⟩ ⟨3, false⟩]

theorem left_click_settled_slow : ∃ s, Run (Guarded (MouseStep demoEnv) (ClickGuard demoEnv)) {} slowClicks s ∧
    s.sent = [true, false, true, false] ∧ s.Settled demoEnv := by
  obtain ⟨s, hrun, hsent, hfired⟩ := exists_run_execWhere_and (f := Mouse.step demoEnv) (G := ClickGuard demoEnv)
    (s := {}) (l := slowClicks) (P := fun s => s.sent = [true, false, true, false] ∧ s.host.timers = [])
    (by decide +kernel)
  exact ⟨s, hrun, hsent, left_click_settled (by decide) (by decide) hrun hfired⟩

/-- A click within the delay of the one before it. -/
def doubleClick : List MouseOp :=
  [.button ⟨false, 1⟩ ⟨2, false⟩, .button ⟨true, 1⟩ ⟨2, false⟩, .button ⟨false, 1⟩ ⟨3, false⟩, .fire 2,
    .button ⟨true, 1⟩ ⟨3, false⟩]

/-- The platform sees two presses in a row, and the address of the delayed release stays. -/
theorem double_click_loses_edge :
    (¬∀ env : Env, env.config.mouse = true → tracked env.lim.buttonLeft = true →
      env.lim.buttonLeft ≠ env.lim.buttonRight → ∀ ops s, Run (MouseStep env) {} ops s → s.host.timers = [] →
        s.Settled env) ∧
    ∃ s, Run (MouseStep demoEnv) {} doubleClick s ∧ s.host.timers = [] ∧ s.sent = [true, false, true, false] ∧
      edgesOf 1 s.calls = [true, true, false] ∧ s.input.mouseLeftButtonTimeout = 2 := by
  have hrun : ∃ s, Run (MouseStep demoEnv) {} doubleClick s ∧ s.host.timers = [] ∧
      s.sent = [true, false, true, false] ∧ edgesOf 1 s.calls = [true, true, false] ∧
      s.input.mouseLeftButtonTimeout = 2 := by
    obtain ⟨s, hrun, hs⟩ := exists_run_execWhere_and (f := Mouse.step demoEnv) (G := fun _ _ => True) (s := {})
      (l := doubleClick) (P := fun s => s.host.timers = [] ∧ s.sent = [true, false, true, false] ∧
        edgesOf 1 s.calls = [true, true, false] ∧ s.input.mouseLeftButtonTimeout = 2) (by decide +kernel)
    exact ⟨s, Run.of_guarded hrun, hs⟩
  refine ⟨fun hholds => ?_, hrun⟩
  obtain ⟨s, hrun, hfired, -, -, htimeout⟩ := hrun
  have hsettled := (hholds demoEnv rfl (by decide) (by decide) _ s hrun hfired).timeout
  rw [htimeout] at hsettled
  exact absurd hsettled (by decide)

end MidnightSun.Input
