import MidnightSun.Input.Held

/-!
# No input stays pressed (src/input.cpp)

In the runs that meet `ReleaseGuard`, whatever the platform holds is remembered, so the task of `reset` releases it.
-/

namespace MidnightSun.Input

open Lib Platf

def World.calls (w : World) : List Call := w.log.map (·.2)

variable (env : Env)

/-- What the task of `reset` can release: a recorded key is mapped to the code of a recorded key, and the client holds
no button that has no place in `mouse_press`. -/
def Releasable (w : World) : Prop :=
  (∀ kpid ∈ w.host.keyPress, ∃ kpid' ∈ w.host.keyPress, vkFromKpid kpid' = mapKeycode env (vkFromKpid kpid)) ∧
    (env.config.mouse = true → ∀ p ∈ w.received, match p with
      | .mouseButton m => tracked m.button = true ∨ clientDown w.received m.button = false
      | _ => True)

/-- The condition on a step: no `cancel` loses the delayed release of the left button, and the task of `reset` runs
where it can release everything. -/
def ReleaseGuard (w : World) : Op → Prop
  | .cancelRepeat => Spares env w.host w.host.keyPressRepeatId
  | .cancelLeft i => ∀ e ∈ w.inputs i, Spares env w.host e.context.mouseLeftButtonTimeout
  | .work _ =>
    (∀ x ∈ w.next? env.lim, ∀ id ∈ cancelledBy env w.host x.2.1 x.2.2, Spares env w.host id) ∧
      (w.tasks.head? = some .reset → Releasable env w)
  | _ => True

instance (w : World) : Decidable (Releasable env w) := by
  have : DecidablePred fun p : Packet => match p with
      | .mouseButton m => tracked m.button = true ∨ clientDown w.received m.button = false
      | _ => True := by
    intro p
    cases p <;> simp only <;> infer_instance
  -- the recorded keys are searched, not the finite type of their codes
  have hmapped : DecidablePred fun kpid : KeyPressId =>
      ∃ kpid' ∈ w.host.keyPress, vkFromKpid kpid' = mapKeycode env (vkFromKpid kpid) :=
    fun _ => List.decidableBEx _ _
  have hkeys := List.decidableBAll (fun kpid : KeyPressId =>
    ∃ kpid' ∈ w.host.keyPress, vkFromKpid kpid' = mapKeycode env (vkFromKpid kpid)) w.host.keyPress
  unfold Releasable
  exact instDecidableAnd

instance (w : World) : (op : Op) → Decidable (ReleaseGuard env w op)
  | .cancelRepeat => inferInstanceAs (Decidable (Spares env w.host w.host.keyPressRepeatId))
  | .cancelLeft i =>
    inferInstanceAs (Decidable (∀ e ∈ w.inputs i, Spares env w.host e.context.mouseLeftButtonTimeout))
  | .work _ =>
    inferInstanceAs (Decidable ((∀ x ∈ w.next? env.lim, ∀ id ∈ cancelledBy env w.host x.2.1 x.2.2,
      Spares env w.host id) ∧ (w.tasks.head? = some .reset → Releasable env w)))
  | .alloc .. | .touchPort .. | .passthrough .. | .fire .. | .pushReset | .destroy .. | .delayOther .. =>
    instDecidableTrue

/-- The step gives no packet to a handler. -/
def NoPacket (w : World) : Op → Prop
  | .work _ => w.next? env.lim = none
  | _ => True

instance (w : World) : (op : Op) → Decidable (NoPacket env w op)
  | .work _ => inferInstanceAs (Decidable (w.next? env.lim = none))
  | .alloc .. | .touchPort .. | .passthrough .. | .fire .. | .cancelRepeat | .cancelLeft .. | .pushReset
  | .destroy .. | .delayOther .. => instDecidableTrue

variable {env}

/-! ### Delayed releases -/

theorem leftPending_cancel_of_find {h : Host} {id : TaskId} {x : TaskId × Timer}
    (hfind : h.timers.find? (fun y => y.1 = id) = some x) (hx : x.2.isLeftRelease = false) :
    (h.cancel id).leftPending = h.leftPending := by
  obtain ⟨hid, before, after, htimers, hbefore⟩ := List.find?_eq_some_iff_append.mp hfind
  have herase : h.timers.eraseP (fun y => y.1 = id) = before ++ after := by
    rw [htimers, List.eraseP_append_right _ (by simpa using hbefore), List.eraseP_cons_of_pos (by simpa using hid)]
  unfold Host.leftPending
  rw [Host.cancel_timers, herase, htimers]
  simp [hx]

theorem waiting_leftRelease_restartRepeat {h : Host} {r : Response} {keyCode : UInt16} {flags synthetic : UInt8}
    {j : ℕ} (hw : (restartRepeat env r h keyCode flags synthetic).waiting (.leftRelease j)) :
    h.waiting (.leftRelease j) := by
  have hcancel : ∀ g : Host, (g = h ∨ g = h.cancel h.keyPressRepeatId) → g.waiting (.leftRelease j) →
      h.waiting (.leftRelease j) := by
    rintro g (rfl | rfl) hg
    · exact hg
    · exact h.waiting_of_cancel _ hg
  unfold restartRepeat at hw
  dsimp only at hw
  have hg : (if h.keyPressRepeatId ≠ 0 then h.cancel h.keyPressRepeatId else h) = h ∨
      (if h.keyPressRepeatId ≠ 0 then h.cancel h.keyPressRepeatId else h) = h.cancel h.keyPressRepeatId := by
    split
    · exact Or.inr rfl
    · exact Or.inl rfl
  split at hw
  · rcases (Host.waiting_pushDelayed _ r.newId (.repeatKey keyCode flags synthetic) _).mp hw with hw | hw
    · exact hcancel _ hg hw
    · cases hw
  · exact hcancel _ hg hw

/-- A handler delays a release of the left button only for its own context. -/
theorem waiting_leftRelease_passthrough {h : Host} {i j : ℕ} {r : Response} {input : Context} {p : Packet}
    (hw : (passthrough env i r h input p).1.waiting (.leftRelease j)) : h.waiting (.leftRelease j) ∨ j = i := by
  have hpush : ∀ {g : Host} {id : TaskId} {t : Timer}, t ≠ .leftRelease j →
      (g.pushDelayed id t).waiting (.leftRelease j) → g.waiting (.leftRelease j) := by
    intro g id t ht hg
    rcases (g.waiting_pushDelayed id t _).mp hg with hg | hg
    · exact hg
    · exact absurd hg.symm ht
  have halloc : ∀ c arrival, (allocGamepad r h input c arrival).1.timers = h.timers := by
    intro c arrival
    unfold allocGamepad
    split
    · rfl
    · dsimp only
      split
      · rfl
      · rfl
  have hupdate : ∀ (g : Host) (input : Context) (c : Slot) (m : MultiController),
      (updateGamepad env i r g input c m).1.waiting (.leftRelease j) → g.waiting (.leftRelease j) := by
    intro g input c m hg
    simp only [updateGamepad, backTimer] at hg
    split at hg
    · split at hg
      · split at hg
        · exact hpush (by simp) hg
        · exact hg
      · split at hg
        · exact g.waiting_of_cancel _ hg
        · exact hg
    · exact hg
  cases p with
  | mouseButton m =>
    simp only [passthrough, passthroughMouseButton] at hw
    have hrecord : (recordButton h m.button m.release).waiting (.leftRelease j) → h.waiting (.leftRelease j) := by
      rintro ⟨id, hid⟩
      exact ⟨id, (recordButton_keeps h m.button m.release).2.1 ▸ hid⟩
    split at hw
    · exact Or.inl hw
    split at hw
    · exact Or.inl hw
    split at hw
    · rcases (Host.waiting_pushDelayed _ _ _ _).mp hw with hw | hw
      · exact Or.inl (hrecord hw)
      · cases hw
        exact Or.inr rfl
    split at hw
    · exact Or.inl (hrecord hw)
    · exact Or.inl (hrecord hw)
  | keyboard m =>
    left
    simp only [passthrough, passthroughKeyboard] at hw
    split at hw
    · exact hw
    split at hw
    · split at hw
      · exact hw
      split at hw
      next h' hs =>
        split at hs
        · obtain ⟨id, hid⟩ := hw
          exact ⟨id, (applyShortcut_keeps hs).2.2 ▸ hid⟩
        · cases hs
      next => exact waiting_leftRelease_restartRepeat hw
    · split at hw
      · exact hw
      · exact hw
  | multiController m =>
    left
    simp only [passthrough, passthroughMultiController] at hw
    split at hw
    · exact hw
    split at hw
    · exact hw
    next c hc =>
    split at hw
    · split at hw
      · obtain ⟨id, hid⟩ := hw
        exact ⟨id, halloc c {} ▸ hid⟩
      · obtain ⟨id, hid⟩ := hupdate _ _ _ _ hw
        exact ⟨id, halloc c {} ▸ hid⟩
    split at hw
    · exact hw
    split at hw
    · exact hw
    · exact hupdate _ _ _ _ hw
  | controllerArrival m =>
    left
    simp only [passthrough, passthroughControllerArrival] at hw
    split at hw
    · exact hw
    split at hw
    · exact hw
    split at hw
    · exact hw
    · obtain ⟨id, hid⟩ := hw
      exact ⟨id, halloc _ _ ▸ hid⟩
  | _ => exact Or.inl hw

/-! ### The task of `reset` -/

theorem mem_heldButtons {h : Host} {b : ℕ} :
    b ∈ (List.range mousePressSize).filter h.mousePress ↔ b < mousePressSize ∧ h.mousePress b = true := by
  simp

theorem clientDown_mem {received : List Packet} {b : ℕ} (h : clientDown received b = true) :
    ∃ m : MouseButton, .mouseButton m ∈ received ∧ m.button = b := by
  induction received using List.reverseRecOn with
  | nil => cases h
  | append_singleton received p ih =>
    rw [clientDown_snoc] at h
    cases p with
    | mouseButton m =>
      by_cases hm : m.button = b
      · exact ⟨m, by simp, hm⟩
      · simp only [hm, if_false] at h
        obtain ⟨m', hmem, hb⟩ := ih h
        exact ⟨m', by simp [hmem], hb⟩
    | _ =>
      obtain ⟨m', hmem, hb⟩ := ih h
      exact ⟨m', by simp [hmem], hb⟩

theorem buttonDown_resetTask {h : Host} {calls : List Call} {b : ℕ}
    (hd : buttonDown (calls ++ (resetTask h).2) b = true) :
    buttonDown calls b = true ∧ ¬ (b < mousePressSize ∧ h.mousePress b = true) := by
  simp only [resetTask, ← List.append_assoc] at hd
  rw [buttonDown_append_keys (by
    intro x hx b
    obtain ⟨k, -, rfl⟩ := List.mem_map.mp hx
    rfl)] at hd
  unfold buttonDown at hd
  rw [levelAfter_append, levelAfter_map (a := b) fun k => buttonEdge_buttonMouse b k true] at hd
  split at hd
  · cases hd
  next hmem => exact ⟨hd, fun h => hmem (mem_heldButtons.mpr h)⟩

theorem keyDown_resetTask {h : Host} {calls : List Call} {code : UInt16}
    (hd : keyDown (calls ++ (resetTask h).2) code = true) :
    keyDown calls code = true ∧ ∀ kpid ∈ h.keyPress, vkFromKpid kpid &&& 0x00FF ≠ code := by
  simp only [resetTask, ← List.append_assoc] at hd
  have hkeys : ∀ (kpids : List KeyPressId) (before : Bool),
      levelAfter (keyEdge code) before (kpids.map fun kpid =>
        Call.keyboardUpdate (vkFromKpid kpid &&& 0x00FF) true (flagsFromKpid kpid)) = true →
      before = true ∧ ∀ kpid ∈ kpids, vkFromKpid kpid &&& 0x00FF ≠ code := by
    intro kpids
    induction kpids with
    | nil =>
      intro before hb
      exact ⟨hb, by simp⟩
    | cons kpid kpids ih =>
      intro before hb
      have hstep := ih _ hb
      simp only [keyEdge_keyboardUpdate] at hstep
      by_cases hk : vkFromKpid kpid &&& 0x00FF = code
      · simp [hk] at hstep
      · simp only [hk, if_false, Option.getD_none] at hstep
        exact ⟨hstep.1, by simpa using ⟨hk, hstep.2⟩⟩
  unfold keyDown at hd
  rw [levelAfter_append] at hd
  obtain ⟨hd, hall⟩ := hkeys _ _ hd
  have hbuttons : ∀ x ∈ ((List.range mousePressSize).filter h.mousePress).map (Call.buttonMouse · true),
      ∀ code, keyEdge code x = none := by
    intro x hx code
    obtain ⟨k, -, rfl⟩ := List.mem_map.mp hx
    rfl
  exact ⟨(keyDown_append_buttons hbuttons code).symm.trans hd, hall⟩

/-! ### The invariant -/

/-- Whatever is pressed is remembered, and the context of a delayed release exists. -/
structure World.Kept (env : Env) (w : World) : Prop where
  kept : Input.Kept env w.host w.received w.calls
  alive : ∀ i, w.host.waiting (.leftRelease i) → (w.inputs i).isSome

/-- What holds after the task of `reset`, as long as no packet is handled: only a left button whose delayed release
waits is still pressed. -/
structure World.Released (env : Env) (w : World) : Prop where
  buttons : ∀ b, buttonDown w.calls b = true → b = env.lim.buttonLeft ∧ w.host.leftPending = true
  keys : ∀ code, keyDown w.calls code = false
  noKey : w.host.keyPress = []
  noPress : ∀ b, b < mousePressSize → w.host.mousePress b = false
  alive : ∀ i, w.host.waiting (.leftRelease i) → (w.inputs i).isSome

theorem tracked_lt {b : ℕ} (h : tracked b = true) : b < mousePressSize := by
  unfold tracked at h
  simp at h
  omega

/-- **The task of `reset` releases everything.** -/
theorem released_reset {w : World} (ts : List Task) (hk : w.Kept env) (hr : Releasable env w) :
    (World.ran { w with tasks := ts } (.task .reset) (resetTask w.host)).Released env := by
  have hcalls : (World.ran { w with tasks := ts } (.task .reset) (resetTask w.host)).calls =
      w.calls ++ (resetTask w.host).2 := by
    simp [World.calls, World.ran]
  refine ⟨?_, ?_, rfl, ?_, hk.alive⟩
  · intro b hd
    rw [hcalls] at hd
    obtain ⟨hd, hnot⟩ := buttonDown_resetTask hd
    cases hb : tracked b with
    | true =>
      rcases hk.kept.buttons b hb hd with hp | hp
      · exact absurd ⟨tracked_lt hb, hp⟩ hnot
      · exact ⟨hp.1, by rw [← hp.2]; exact Host.leftPending_congr rfl⟩
    | false =>
      cases hm : env.config.mouse with
      | true =>
        have hclient := hk.kept.others hm b hb hd
        obtain ⟨m, hmem, rfl⟩ := clientDown_mem hclient
        rcases hr.2 hm _ hmem with h | h
        · rw [hb] at h
          cases h
        · rw [hclient] at h
          cases h
      | false =>
        rw [hk.kept.disabled hm b] at hd
        cases hd
  · intro code
    by_contra hd
    rw [Bool.not_eq_false, hcalls] at hd
    obtain ⟨hd, hnot⟩ := keyDown_resetTask hd
    obtain ⟨kpid, hmem, rfl⟩ := hk.kept.keys code hd
    obtain ⟨kpid', hmem', hvk⟩ := hr.1 kpid hmem
    have hcode := hk.kept.codes kpid' hmem'
    exact hnot kpid' hmem' (hcode.trans hvk)
  · intro b hb
    simp [World.ran, resetTask, hb]

/-! ### Steps -/

theorem calls_handled {w : World} {i : ℕ} {e : Entry} {cause : Cause} {out : Host × Context × List Call} :
    (w.handled i e cause out).calls = w.calls ++ out.2.2 := by
  simp [World.calls, World.handled, Function.comp_def]

theorem calls_ran {w : World} {cause : Cause} {out : Host × List Call} :
    (w.ran cause out).calls = w.calls ++ out.2 := by
  simp [World.calls, World.ran, Function.comp_def]

/-- Steps that handle no button and no key. -/
structure Aside (env : Env) (w w' : World) : Prop where
  mousePress : w'.host.mousePress = w.host.mousePress
  keyPress : w'.host.keyPress = w.host.keyPress
  left : w.host.leftPending = true → w'.host.leftPending = true ∨ w'.host.mousePress env.lim.buttonLeft = true
  received : w'.received = w.received
  calls : ∃ new, w'.calls = w.calls ++ new ∧ ∀ x ∈ new, edgeless x
  alive : ∀ i, w'.host.waiting (.leftRelease i) →
    w.host.waiting (.leftRelease i) ∧ ((w.inputs i).isSome → (w'.inputs i).isSome)

theorem Aside.kept {w w' : World} (h : Aside env w w') (hk : w.Kept env) : w'.Kept env where
  kept := by
    obtain ⟨new, hcalls, hnew⟩ := h.calls
    rw [hcalls, h.received]
    exact hk.kept.mono h.mousePress h.keyPress h.left (fun _ _ _ => rfl) hnew
  alive := fun i hw => (h.alive i hw).2 (hk.alive i (h.alive i hw).1)

theorem Aside.released (hleft : tracked env.lim.buttonLeft = true) {w w' : World} (h : Aside env w w')
    (hr : w.Released env) : w'.Released env := by
  obtain ⟨new, hcalls, hnew⟩ := h.calls
  refine ⟨?_, ?_, h.keyPress.trans hr.noKey, fun b hb => by rw [h.mousePress]; exact hr.noPress b hb,
    fun i hw => (h.alive i hw).2 (hr.alive i (h.alive i hw).1)⟩
  · intro b hd
    rw [hcalls, buttonDown_append_edgeless hnew] at hd
    obtain ⟨hb, hp⟩ := hr.buttons b hd
    refine ⟨hb, ?_⟩
    rcases h.left hp with hp | hp
    · exact hp
    · rw [h.mousePress, hr.noPress _ (tracked_lt hleft)] at hp
      cases hp
  · intro code
    rw [hcalls, keyDown_append_edgeless hnew]
    exact hr.keys code

section
variable {w w' : World}

theorem Aside.of_host (hm : w'.host.mousePress = w.host.mousePress) (hk : w'.host.keyPress = w.host.keyPress)
    (hl : w.host.leftPending = true → w'.host.leftPending = true ∨ w'.host.mousePress env.lim.buttonLeft = true)
    (hr : w'.received = w.received) (hlog : w'.log = w.log)
    (ha : ∀ i, w'.host.waiting (.leftRelease i) →
      w.host.waiting (.leftRelease i) ∧ ((w.inputs i).isSome → (w'.inputs i).isSome)) : Aside env w w' :=
  ⟨hm, hk, hl, hr, ⟨[], by rw [World.calls, hlog, List.append_nil]; rfl, edgeless_nil⟩, ha⟩

theorem Aside.trans {w'' : World} (h₁ : Aside env w w') (h₂ : Aside env w' w'') : Aside env w w'' := by
  obtain ⟨new₁, hcalls₁, hnew₁⟩ := h₁.calls
  obtain ⟨new₂, hcalls₂, hnew₂⟩ := h₂.calls
  refine ⟨h₂.mousePress.trans h₁.mousePress, h₂.keyPress.trans h₁.keyPress, ?_, h₂.received.trans h₁.received,
    ⟨new₁ ++ new₂, by rw [hcalls₂, hcalls₁, List.append_assoc], ?_⟩, ?_⟩
  · intro hp
    rcases h₁.left hp with hp | hp
    · exact h₂.left hp
    · exact Or.inr (by rw [h₂.mousePress]; exact hp)
  · intro x hx
    rcases List.mem_append.mp hx with hx | hx
    · exact hnew₁ x hx
    · exact hnew₂ x hx
  · intro i hw
    obtain ⟨hw', hin'⟩ := h₂.alive i hw
    obtain ⟨hw'', hin''⟩ := h₁.alive i hw'
    exact ⟨hw'', fun h => hin' (hin'' h)⟩

theorem isSome_update {i j : ℕ} {e : Entry} (h : (w.inputs j).isSome) :
    (Function.update w.inputs i (some e) j).isSome := by
  rw [Function.update_apply]
  split
  · rfl
  · exact h

theorem Aside.cancel {id : TaskId} (h : Spares env w.host id) :
    Aside env w { w with host := w.host.cancel id } :=
  .of_host rfl rfl h rfl rfl fun _ hw => ⟨w.host.waiting_of_cancel _ hw, fun h => h⟩

theorem Aside.pushDelayed {r : Response} {t : Timer} (ht : t.isLeftRelease = false)
    {inputs : ℕ → Option Entry} (hin : ∀ i, (w.inputs i).isSome → (inputs i).isSome) :
    Aside env w { w with inputs := inputs, host := w.host.pushDelayed r.newId t } := by
  refine .of_host rfl rfl ?_ rfl rfl ?_
  · intro hp
    left
    rw [Host.leftPending_pushDelayed, hp]
    rfl
  · intro i hw
    rcases (w.host.waiting_pushDelayed _ _ _).mp hw with hw | rfl
    · exact ⟨hw, hin i⟩
    · cases ht

end

/-- A step is aside, or it runs the task of `reset`, hands a packet to a handler, or runs one of the two delayed tasks
that press or release. -/
inductive StepKind (env : Env) (w : World) : Op → World → Prop
  | aside {op : Op} {w' : World} : Aside env w w' → StepKind env w op w'
  | reset {r : Response} {ts : List Task} : w.tasks = .reset :: ts →
      StepKind env w (.work r) (World.ran { w with tasks := ts } (.task .reset) (resetTask w.host))
  | packet {r : Response} {i : ℕ} {ts : List Task} {e e' : Entry} {p : Packet} : w.inputs i = some e →
      w.next? env.lim = some (i, e.context, p) →
      StepKind env w (.work r)
        { World.handled { w with tasks := ts } i e' (.packet i p) (passthrough env i r w.host e.context p) with
          received := w.received ++ [p] }
  | left {r : Response} {i : ℕ} {e : Entry} {id : TaskId} : w.inputs i = some e →
      StepKind env w (.fire id r)
        (World.handled { w with host := w.host.cancel id } i e (.timer (.leftRelease i))
          (leftRelease env (w.host.cancel id) e.context))
  | repeat {r : Response} {id : TaskId} {keyCode : UInt16} {flags synthetic : UInt8} :
      (w.host.cancel id).leftPending = w.host.leftPending →
      StepKind env w (.fire id r)
        (World.ran { w with host := w.host.cancel id } (.timer (.repeatKey keyCode flags synthetic))
          (repeatKey env r (w.host.cancel id) keyCode flags synthetic))

theorem step_kind_fire {w w' : World} {id : TaskId} {r : Response} (hstep : step env w (.fire id r) = some w')
    (halive : ∀ i, w.host.waiting (.leftRelease i) → (w.inputs i).isSome) : StepKind env w (.fire id r) w' := by
  simp only [step] at hstep
  split at hstep
  next =>
    split at hstep
    · obtain ⟨⟨id', t⟩, hfind, rfl⟩ := Option.map_eq_some_iff.mp hstep
      have hmem := List.mem_of_find?_eq_some hfind
      cases t with
      | leftRelease i =>
        obtain ⟨e, he⟩ := Option.isSome_iff_exists.mp (halive i ⟨id', hmem⟩)
        simp only [runTimer, he]
        exact .left he
      | repeatKey keyCode flags synthetic => exact .repeat (leftPending_cancel_of_find hfind rfl)
      | backButton i c =>
        have htake : Aside env w { w with host := w.host.cancel id } :=
          .cancel fun hp => Or.inl ((leftPending_cancel_of_find hfind rfl).trans hp)
        simp only [runTimer]
        split
        · exact .aside htake
        next e hi =>
          refine .aside (htake.trans ⟨rfl, rfl, Or.inl, rfl, ⟨_, calls_handled, ?_⟩, fun _ hw => ⟨hw, isSome_update⟩⟩)
          intro x hx
          simp only [backButton, List.mem_cons, List.not_mem_nil, or_false] at hx
          rcases hx with rfl | rfl | rfl
          · exact ⟨fun _ => rfl, fun _ => rfl⟩
          · exact ⟨fun _ => rfl, fun _ => rfl⟩
          · exact ⟨fun _ => rfl, fun _ => rfl⟩
      | nudge =>
        have htake : Aside env w { w with host := w.host.cancel id } :=
          .cancel fun hp => Or.inl ((leftPending_cancel_of_find hfind rfl).trans hp)
        refine .aside (htake.trans ⟨rfl, rfl, Or.inl, rfl, ⟨_, calls_ran, ?_⟩, fun _ hw => ⟨hw, fun h => h⟩⟩)
        intro x hx
        simp only [List.mem_cons, List.not_mem_nil, or_false] at hx
        rcases hx with rfl | rfl
        · exact ⟨fun _ => rfl, fun _ => rfl⟩
        · exact ⟨fun _ => rfl, fun _ => rfl⟩
      | other =>
        exact .aside (.cancel fun hp => Or.inl ((leftPending_cancel_of_find hfind rfl).trans hp))
    · cases hstep
  next => cases hstep

theorem step_kind {w w' : World} {op : Op} (hstep : step env w op = some w') (hguard : ReleaseGuard env w op)
    (halive : ∀ i, w.host.waiting (.leftRelease i) → (w.inputs i).isSome) : StepKind env w op w' := by
  have same : ∀ {w'' : World}, w''.host = w.host → w''.received = w.received → w''.log = w.log →
      (∀ i, (w.inputs i).isSome → (w''.inputs i).isSome) → Aside env w w'' := by
    intro w'' hh hr hlog hin
    refine .of_host (by rw [hh]) (by rw [hh]) (fun hp => Or.inl (by rw [hh]; exact hp)) hr hlog fun i hw => ?_
    rw [hh] at hw
    exact ⟨hw, hin i⟩
  cases op with
  | alloc i r =>
    simp only [step] at hstep
    split at hstep
    · obtain rfl := Option.some.inj hstep
      exact .aside (.pushDelayed rfl fun j => isSome_update)
    · cases hstep
  | touchPort i port =>
    obtain ⟨e, hi, rfl⟩ := Option.map_eq_some_iff.mp hstep
    exact .aside (same rfl rfl rfl fun j => isSome_update)
  | passthrough i p =>
    obtain ⟨e, hi, rfl⟩ := Option.map_eq_some_iff.mp hstep
    exact .aside (same rfl rfl rfl fun j => isSome_update)
  | work r =>
    simp only [step] at hstep
    split at hstep
    · cases hstep
    next t ts hts =>
    split at hstep
    · obtain rfl := Option.some.inj hstep
      cases t with
      | nextMessage i =>
        simp only [runTask, nextMessage]
        split
        · exact .aside (same rfl rfl rfl fun _ h => h)
        next e hi =>
        split
        · exact .aside (same rfl rfl rfl fun _ h => h)
        next d q hq => exact .packet hi (next?_eq hts hi hq)
      | reset => exact .reset hts
      | freeGamepad id =>
        refine .aside ⟨rfl, rfl, Or.inl, rfl, ⟨_, calls_ran, ?_⟩, fun _ hw => ⟨hw, fun h => h⟩⟩
        intro x hx
        simp only [freeGamepad, List.mem_cons, List.not_mem_nil, or_false] at hx
        rcases hx with rfl | rfl
        · exact ⟨fun _ => rfl, fun _ => rfl⟩
        · exact ⟨fun _ => rfl, fun _ => rfl⟩
    · cases hstep
  | fire id r => exact step_kind_fire hstep halive
  | cancelRepeat =>
    obtain rfl := Option.some.inj hstep
    exact .aside (.cancel hguard)
  | cancelLeft i =>
    obtain ⟨e, hi, rfl⟩ := Option.map_eq_some_iff.mp hstep
    exact .aside (.cancel (hguard e hi))
  | pushReset =>
    obtain rfl := Option.some.inj hstep
    exact .aside (same rfl rfl rfl fun _ h => h)
  | destroy i =>
    simp only [step] at hstep
    split at hstep
    · cases hstep
    next e hi =>
      split at hstep
      · cases hstep
      next href =>
        obtain rfl := Option.some.inj hstep
        refine .aside (.of_host rfl rfl Or.inl rfl rfl fun j hw => ⟨hw, fun h => ?_⟩)
        have hne : j ≠ i := by
          rintro rfl
          obtain ⟨id, hid⟩ := hw
          exact href (Or.inr ⟨_, hid, Or.inl rfl⟩)
        simpa only [destroyed, Function.update_of_ne hne] using h
  | delayOther r =>
    simp only [step] at hstep
    split at hstep
    · obtain rfl := Option.some.inj hstep
      exact .aside (.pushDelayed rfl fun _ h => h)
    · cases hstep

theorem World.Kept.boot : World.boot.Kept env where
  kept := ⟨nofun, nofun, fun _ _ => rfl, nofun, nofun⟩
  alive := nofun

/-- A step that meets the guard keeps the link between the platform and the statics. -/
theorem World.Kept.step (hleft : tracked env.lim.buttonLeft = true) {w w' : World} {op : Op} (hk : w.Kept env)
    (hguard : ReleaseGuard env w op) (hstep : step env w op = some w') : w'.Kept env := by
  cases step_kind hstep hguard hk.alive with
  | aside h => exact h.kept hk
  | @reset r ts hts =>
    have hr := released_reset ts hk (hguard.2 (by rw [hts]; rfl))
    refine ⟨⟨?_, ?_, ?_, ?_, ?_⟩, hr.alive⟩
    · exact fun b _ hd => Or.inr (hr.buttons b hd)
    · intro _ b hb hd
      rw [(hr.buttons b hd).1, hleft] at hb
      cases hb
    · intro hm b
      by_contra hd
      rw [Bool.not_eq_false, calls_ran] at hd
      have hbefore : buttonDown w.calls b = true := (buttonDown_resetTask hd).1
      rw [hk.kept.disabled hm b] at hbefore
      cases hbefore
    · intro code hd
      rw [hr.keys code] at hd
      cases hd
    · intro kpid hmem
      rw [hr.noKey] at hmem
      cases hmem
  | @packet r i ts e e' p hi hnext =>
    refine ⟨?_, ?_⟩
    · have hkept := hk.kept.passthrough hleft i r e.context p (hguard.1 _ hnext)
      rw [← show World.calls (World.handled { w with tasks := ts } i e' (.packet i p)
        (passthrough env i r w.host e.context p)) = w.calls ++ _ from calls_handled] at hkept
      exact hkept
    · intro j hw
      rcases waiting_leftRelease_passthrough hw with hw | rfl
      · exact isSome_update (hk.alive j hw)
      · simp [World.handled]
  | @left r i e id hi =>
    refine ⟨?_, ?_⟩
    · rw [calls_handled]
      exact hk.kept.leftRelease id e.context
    · intro j hw
      refine isSome_update (hk.alive j ?_)
      have hsame : (leftRelease env (w.host.cancel id) e.context).1.timers = (w.host.cancel id).timers := by
        unfold leftRelease
        split
        · rfl
        · rfl
      obtain ⟨id', hid'⟩ := hw
      exact w.host.waiting_of_cancel id ⟨id', hsame ▸ hid'⟩
  | @«repeat» r id keyCode flags synthetic hleftPending =>
    have hcancel : Input.Kept env (w.host.cancel id) w.received w.calls :=
      hk.kept.host rfl rfl fun hp => Or.inl (hleftPending.trans hp)
    refine ⟨?_, ?_⟩
    · rw [calls_ran]
      exact hcancel.repeatKey r keyCode flags synthetic
    · intro j hw
      refine hk.alive j (w.host.waiting_of_cancel id ?_)
      unfold repeatKey at hw
      split at hw
      · exact hw
      · rcases (Host.waiting_pushDelayed _ r.newId _ _).mp hw with hw | hw
        · exact hw
        · cases hw

/-- Without a packet, what `reset` released stays released. -/
theorem World.Released.step (hleft : tracked env.lim.buttonLeft = true) {w w' : World} {op : Op}
    (hr : w.Released env) (hguard : ReleaseGuard env w op) (hno : NoPacket env w op)
    (hstep : step env w op = some w') : w'.Released env := by
  cases step_kind hstep hguard hr.alive with
  | aside h => exact h.released hleft hr
  | reset hts =>
    refine ⟨?_, ?_, rfl, ?_, hr.alive⟩
    · intro b hd
      rw [calls_ran] at hd
      have hbefore := hr.buttons b (buttonDown_resetTask hd).1
      exact ⟨hbefore.1, hbefore.2⟩
    · intro code
      by_contra hd
      rw [Bool.not_eq_false, calls_ran] at hd
      have hbefore : keyDown w.calls code = true := (keyDown_resetTask hd).1
      rw [hr.keys code] at hbefore
      cases hbefore
    · intro b hb
      simp [World.ran, resetTask, hb]
  | packet hi hnext =>
    rw [show w.next? env.lim = none from hno] at hnext
    cases hnext
  | @left r i e id hi =>
    have hpress : (w.host.cancel id).mousePress env.lim.buttonLeft = false := hr.noPress _ (tracked_lt hleft)
    have hout : leftRelease env (w.host.cancel id) e.context =
        ({ w.host.cancel id with mousePress := Function.update (w.host.cancel id).mousePress env.lim.buttonLeft false },
          { e.context with mouseLeftButtonTimeout := 0 }, [.buttonMouse env.lim.buttonLeft true]) := by
      simp [leftRelease, hpress]
    rw [hout]
    refine ⟨?_, ?_, hr.noKey, ?_, ?_⟩
    · -- the button is released now
      intro b hd
      rw [calls_handled] at hd
      simp only [buttonDown_snoc] at hd
      split at hd
      · cases hd
      next hne => exact absurd (hr.buttons b hd).1.symm hne
    · intro code
      rw [calls_handled]
      exact (keyDown_append_buttons (keyEdge_buttonMouse [(env.lim.buttonLeft, true)]) code).trans
        (hr.keys code)
    · intro b hb
      show Function.update w.host.mousePress env.lim.buttonLeft false b = false
      rw [Function.update_apply]
      split
      · rfl
      · exact hr.noPress b hb
    · intro j hw
      exact isSome_update (hr.alive j (w.host.waiting_of_cancel id hw))
  | @«repeat» r id keyCode flags synthetic hleftPending =>
    -- the key is no longer in `key_press`
    have hout : repeatKey env r (w.host.cancel id) keyCode flags synthetic =
        ({ w.host.cancel id with keyPressRepeatId := 0 }, []) := by
      simp [repeatKey, hr.noKey]
    rw [hout]
    refine ⟨?_, ?_, hr.noKey, hr.noPress, fun j hw => hr.alive j (w.host.waiting_of_cancel id hw)⟩
    · intro b hd
      rw [calls_ran, List.append_nil] at hd
      obtain ⟨hb, hp⟩ := hr.buttons b hd
      exact ⟨hb, hleftPending.trans hp⟩
    · intro code
      rw [calls_ran, List.append_nil]
      exact hr.keys code

/-! ### Runs -/

/-- **No input stays pressed.**  When the task of `reset` has run and no packet is handled afterwards, no key is
pressed, and a mouse button only as long as its delayed release waits. -/
theorem no_input_stays_pressed (hleft : tracked env.lim.buttonLeft = true) {before after : List Op}
    {w w₁ w₂ : World} {r : Response} (hrun : Run (Guarded (WorldStep env) (ReleaseGuard env)) World.boot before w)
    (hhead : w.tasks.head? = some .reset) (hreset : Guarded (WorldStep env) (ReleaseGuard env) w (.work r) w₁)
    (hafter : Run (Guarded (WorldStep env) fun w op => ReleaseGuard env w op ∧ NoPacket env w op) w₁ after w₂) :
    (∀ b, buttonDown w₂.calls b = true → b = env.lim.buttonLeft ∧ w₂.host.leftPending = true) ∧
      ∀ code, keyDown w₂.calls code = false := by
  have hk : w.Kept env :=
    hrun.invariant_where (I := World.Kept env) (fun _ _ _ hk hg hs => hk.step hleft hg hs) World.Kept.boot
  have hr : w₁.Released env := by
    obtain ⟨hg, hs⟩ := hreset
    obtain ⟨ts, hts⟩ := List.head?_eq_some_iff.mp hhead
    simp only [WorldStep, ofPartial, step, hts] at hs
    split at hs
    · obtain rfl := Option.some.inj hs
      exact released_reset _ (w := w) hk (hg.2 hhead)
    · cases hs
  have hr' : w₂.Released env :=
    hafter.invariant_where (I := World.Released env) (fun _ _ _ hr hg hs => hr.step hleft hg.1 hg.2 hs) hr
  exact ⟨hr'.buttons, hr'.keys⟩

/-- The packet of a key. -/
def demoKey (release : Bool) (keyCode : UInt16) : Packet :=
  .keyboard { release := release, flags := 0, keyCode := keyCode, modifiers := 0 }

/-- The left button and the key A are pressed, then `reset` is called. -/
def pressedAtReset : List Op :=
  [.alloc 0 ⟨2, false⟩, .passthrough 0 (.mouseButton { button := 1, release := false }),
    .passthrough 0 (demoKey false 0x41), .work ⟨3, false⟩, .work ⟨3, false⟩, .cancelRepeat, .cancelLeft 0, .pushReset]

theorem no_input_stays_pressed_demo : ∃ w w₁ w₂,
    Run (Guarded (WorldStep demoEnv) (ReleaseGuard demoEnv)) World.boot pressedAtReset w ∧
      buttonDown w.calls 1 = true ∧ keyDown w.calls 0x41 = true ∧
      step demoEnv w (.work ⟨4, false⟩) = some w₁ ∧ step demoEnv w₁ (.fire 2 ⟨4, false⟩) = some w₂ ∧
      (∀ b, buttonDown w₂.calls b = true → b = 1 ∧ w₂.host.leftPending = true) ∧
      ∀ code, keyDown w₂.calls code = false := by
  obtain ⟨w, hrun, hb, hk, hhead, hg, hfire⟩ := exists_run_execWhere_and (f := step demoEnv)
    (G := ReleaseGuard demoEnv) (s := World.boot) (l := pressedAtReset)
    (P := fun w => buttonDown w.calls 1 = true ∧ keyDown w.calls 0x41 = true ∧ w.tasks.head? = some .reset ∧
      ReleaseGuard demoEnv w (.work ⟨4, false⟩) ∧
      ((step demoEnv w (.work ⟨4, false⟩)).bind fun w₁ => step demoEnv w₁ (.fire 2 ⟨4, false⟩)).isSome = true)
    (by decide +kernel)
  obtain ⟨w₂, hw₂⟩ := Option.isSome_iff_exists.mp hfire
  obtain ⟨w₁, hw₁, hw₂⟩ := Option.bind_eq_some_iff.mp hw₂
  have hafter : Guarded (WorldStep demoEnv) (fun w op => ReleaseGuard demoEnv w op ∧ NoPacket demoEnv w op) w₁
      (.fire 2 ⟨4, false⟩) w₂ := ⟨⟨trivial, trivial⟩, hw₂⟩
  exact ⟨w, w₁, w₂, hrun, hb, hk, hw₁, hw₂,
    no_input_stays_pressed (by decide) hrun hhead ⟨hg, hw₁⟩ (Run.single hafter)⟩

/-- With the default bindings the platform is sent a left shift for the shift key, and `reset` releases the shift
key. -/
def shiftAtReset : List Op :=
  [.alloc 0 ⟨2, false⟩, .passthrough 0 (demoKey false 0x10), .work ⟨3, false⟩, .cancelRepeat, .cancelLeft 0,
    .pushReset]

theorem shift_stays_pressed : ¬ ∀ (env : Env) (before after : List Op) (w w₁ w₂ : World) (r : Response),
    tracked env.lim.buttonLeft = true → Run (WorldStep env) World.boot before w → w.tasks.head? = some .reset →
      WorldStep env w (.work r) w₁ → Run (Guarded (WorldStep env) (NoPacket env)) w₁ after w₂ →
      (∀ b, buttonDown w₂.calls b = true → b = env.lim.buttonLeft ∧ w₂.host.leftPending = true) ∧
        ∀ code, keyDown w₂.calls code = false := by
  intro h
  obtain ⟨w, hrun, hhead, hwork⟩ := exists_run_execWhere_and (f := step demoEnv) (G := fun _ _ => True)
    (s := World.boot) (l := shiftAtReset)
    (P := fun w => w.tasks.head? = some .reset ∧
      ((step demoEnv w (.work ⟨4, false⟩)).any fun w₁ => keyDown w₁.calls 0xA0) = true) (by decide +kernel)
  obtain ⟨w₁, hw₁, hdown⟩ := (Option.any_eq_true _ _).mp hwork
  have hup := (h demoEnv _ [] w w₁ w₁ ⟨4, false⟩ (by decide) (Run.of_guarded hrun) hhead hw₁ Run.nil).2 0xA0
  rw [hdown] at hup
  cases hup

end MidnightSun.Input
