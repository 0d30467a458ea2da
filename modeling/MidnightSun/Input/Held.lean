import MidnightSun.Input.System

/-!
# What is pressed (src/input.cpp)

`buttonDown` and `keyDown` read off the platform calls what the platform holds pressed.  `Kept` links it to what the
statics remember: `mouse_press`, `key_press` and the delayed release of the left button.  Every handler keeps the link,
unless it cancels a delayed release that nothing else stands for.
-/

namespace MidnightSun.Input

open Lib Platf

/-! ### Levels -/

/-- The level after a list of calls, some of which are edges. -/
def levelAfter (edge : Call → Option Bool) (before : Bool) (calls : List Call) : Bool :=
  calls.foldl (fun level x => (edge x).getD level) before

section
variable {edge : Call → Option Bool} {before : Bool}

theorem levelAfter_append (calls new : List Call) :
    levelAfter edge before (calls ++ new) = levelAfter edge (levelAfter edge before calls) new :=
  List.foldl_append

theorem levelAfter_eq_of_none {calls : List Call} (h : ∀ x ∈ calls, edge x = none) :
    levelAfter edge before calls = before := by
  induction calls generalizing before with
  | nil => rfl
  | cons x calls ih =>
    have hx := h x List.mem_cons_self
    simp only [levelAfter, List.foldl_cons, hx, Option.getD_none]
    exact ih fun y hy => h y (List.mem_cons_of_mem _ hy)

theorem levelAfter_map {α : Type} [DecidableEq α] {f : α → Call} {a : α} {level : Bool}
    (hf : ∀ k, edge (f k) = if k = a then some level else none) (ks : List α) :
    levelAfter edge before (ks.map f) = if a ∈ ks then level else before := by
  induction ks generalizing before with
  | nil => simp [levelAfter]
  | cons k ks ih =>
    have hstep : levelAfter edge before ((k :: ks).map f) =
        levelAfter edge ((edge (f k)).getD before) (ks.map f) := rfl
    rw [hstep, ih, hf]
    by_cases hk : k = a
    · simp [hk]
    · have hne : a ≠ k := fun h => hk h.symm
      simp [hk, hne]

end

def buttonEdge (b : ℕ) : Call → Option Bool
  | .buttonMouse b' release => if b' = b then some (!release) else none
  | _ => none

def keyEdge (code : UInt16) : Call → Option Bool
  | .keyboardUpdate code' release _ => if code' = code then some (!release) else none
  | _ => none

/-- The platform holds the mouse button. -/
def buttonDown (calls : List Call) (b : ℕ) : Bool := levelAfter (buttonEdge b) false calls

/-- The platform holds the key. -/
def keyDown (calls : List Call) (code : UInt16) : Bool := levelAfter (keyEdge code) false calls

/-- A call that presses and releases nothing. -/
def edgeless (x : Call) : Prop := (∀ b, buttonEdge b x = none) ∧ ∀ code, keyEdge code x = none

theorem buttonDown_append_edgeless {calls new : List Call} (h : ∀ x ∈ new, edgeless x) (b : ℕ) :
    buttonDown (calls ++ new) b = buttonDown calls b := by
  unfold buttonDown
  rw [levelAfter_append, levelAfter_eq_of_none fun x hx => (h x hx).1 b]

theorem keyDown_append_edgeless {calls new : List Call} (h : ∀ x ∈ new, edgeless x) (code : UInt16) :
    keyDown (calls ++ new) code = keyDown calls code := by
  unfold keyDown
  rw [levelAfter_append, levelAfter_eq_of_none fun x hx => (h x hx).2 code]

theorem buttonDown_append_keys {calls new : List Call} (h : ∀ x ∈ new, ∀ b, buttonEdge b x = none) (b : ℕ) :
    buttonDown (calls ++ new) b = buttonDown calls b := by
  unfold buttonDown
  rw [levelAfter_append, levelAfter_eq_of_none fun x hx => h x hx b]

theorem keyDown_append_buttons {calls new : List Call} (h : ∀ x ∈ new, ∀ code, keyEdge code x = none)
    (code : UInt16) : keyDown (calls ++ new) code = keyDown calls code := by
  unfold keyDown
  rw [levelAfter_append, levelAfter_eq_of_none fun x hx => h x hx code]

/-! ### Keys that are sent -/

section
variable (env : Env)

theorem sendKeyAndModifiers_buttonEdge (keyCode : UInt16) (release : Bool) (flags synthetic : UInt8) :
    ∀ x ∈ sendKeyAndModifiers env keyCode release flags synthetic, ∀ b, buttonEdge b x = none := by
  intro x hx b
  simp only [sendKeyAndModifiers, syntheticCalls, List.mem_append, List.mem_singleton] at hx
  rcases hx with (hx | rfl) | hx
  · split at hx
    · cases hx
    · obtain ⟨k, -, rfl⟩ := List.mem_map.mp hx
      rfl
  · rfl
  · split at hx
    · cases hx
    · obtain ⟨k, -, rfl⟩ := List.mem_map.mp hx
      rfl

theorem keyEdge_keyboardUpdate (code : UInt16) (release : Bool) (flags : UInt8) (k : UInt16) :
    keyEdge code (Call.keyboardUpdate k release flags) = if k = code then some (!release) else none := rfl

theorem keyDown_press {calls : List Call} {keyCode : UInt16} {flags synthetic : UInt8} {code : UInt16}
    (h : keyDown (calls ++ sendKeyAndModifiers env keyCode false flags synthetic) code = true) :
    keyDown calls code = true ∨ mapKeycode env keyCode = code := by
  simp only [sendKeyAndModifiers, Bool.false_eq_true, if_false, syntheticCalls, keyDown, levelAfter_append,
    levelAfter_map (keyEdge_keyboardUpdate code _ flags)] at h
  split at h
  · cases h
  next =>
    simp only [levelAfter, List.foldl_cons, List.foldl_nil, keyEdge_keyboardUpdate] at h
    by_cases hk : mapKeycode env keyCode = code
    · exact Or.inr hk
    · simp only [hk, if_false, Option.getD_none] at h
      exact Or.inl h

theorem keyDown_release {calls : List Call} {keyCode : UInt16} {flags synthetic : UInt8} {code : UInt16}
    (h : keyDown (calls ++ sendKeyAndModifiers env keyCode true flags synthetic) code = true) :
    keyDown calls code = true ∧ mapKeycode env keyCode ≠ code := by
  simp only [sendKeyAndModifiers, if_true, List.nil_append, List.append_nil, keyDown, levelAfter_append] at h
  simp only [levelAfter, List.foldl_cons, List.foldl_nil, keyEdge_keyboardUpdate] at h
  by_cases hk : mapKeycode env keyCode = code
  · simp [hk] at h
  · simp only [hk, if_false, Option.getD_none] at h
    exact ⟨h, hk⟩

end

/-! ### What is remembered -/

def Timer.isLeftRelease : Timer → Bool
  | .leftRelease _ => true
  | _ => false

/-- A delayed release of the left button is waiting. -/
def Host.leftPending (h : Host) : Bool := h.timers.any fun x => x.2.isLeftRelease

theorem Host.leftPending_pushDelayed (h : Host) (id : TaskId) (t : Timer) :
    (h.pushDelayed id t).leftPending = (h.leftPending || t.isLeftRelease) := by
  simp [Host.leftPending]

theorem Host.leftPending_congr {h h' : Host} (ht : h'.timers = h.timers) : h'.leftPending = h.leftPending := by
  unfold Host.leftPending
  rw [ht]

theorem Host.leftPending_pushRepeat {h h' : Host} {id : TaskId} {keyCode : UInt16} {flags synthetic : UInt8}
    (ht : h'.timers = (h.pushDelayed id (.repeatKey keyCode flags synthetic)).timers) :
    h'.leftPending = h.leftPending := by
  rw [Host.leftPending_congr ht, Host.leftPending_pushDelayed]
  exact Bool.or_false _

/-- The client holds the button, by its last packet about it. -/
def clientDown (received : List Packet) (b : ℕ) : Bool :=
  received.foldl (fun down p => match p with
    | .mouseButton m => if m.button = b then !m.release else down
    | _ => down) false

theorem clientDown_snoc (received : List Packet) (p : Packet) (b : ℕ) :
    clientDown (received ++ [p]) b = match p with
      | .mouseButton m => if m.button = b then !m.release else clientDown received b
      | _ => clientDown received b := by
  simp [clientDown, List.foldl_append]

variable (env : Env)

/-- Whatever is pressed is remembered: a button with a place in `mouse_press` there or as a delayed release, a key in
`key_press` under the code that is mapped to it, and another button by the client. -/
structure Kept (h : Host) (received : List Packet) (calls : List Call) : Prop where
  buttons : ∀ b, tracked b = true → buttonDown calls b = true →
    h.mousePress b = true ∨ b = env.lim.buttonLeft ∧ h.leftPending = true
  others : env.config.mouse = true → ∀ b, tracked b = false → buttonDown calls b = true →
    clientDown received b = true
  disabled : env.config.mouse = false → ∀ b, buttonDown calls b = false
  keys : ∀ code, keyDown calls code = true → ∃ kpid ∈ h.keyPress, mapKeycode env (vkFromKpid kpid) = code
  codes : ∀ kpid ∈ h.keyPress, vkFromKpid kpid &&& 0x00FF = vkFromKpid kpid

/-- Cancelling this task does not lose the release of a left button that is only pressed on the platform. -/
def Spares (h : Host) (id : TaskId) : Prop :=
  h.leftPending = true → (h.cancel id).leftPending = true ∨ h.mousePress env.lim.buttonLeft = true

instance (h : Host) (id : TaskId) : Decidable (Spares env h id) := by
  unfold Spares
  infer_instance

variable {env} {h h' : Host} {received received' : List Packet} {calls new : List Call}

/-- Calls that press nothing, and statics that remember the same. -/
theorem Kept.mono (hk : Kept env h received calls) (hmouse : h'.mousePress = h.mousePress)
    (hkeys : h'.keyPress = h.keyPress)
    (hleft : h.leftPending = true → h'.leftPending = true ∨ h'.mousePress env.lim.buttonLeft = true)
    (hreceived : env.config.mouse = true → ∀ b, tracked b = false → clientDown received' b = clientDown received b)
    (hnew : ∀ x ∈ new, edgeless x) : Kept env h' received' (calls ++ new) where
  buttons := by
    intro b hb hd
    rw [buttonDown_append_edgeless hnew] at hd
    rcases hk.buttons b hb hd with hp | ⟨rfl, hp⟩
    · exact Or.inl (by rw [hmouse, hp])
    · rcases hleft hp with hp' | hp'
      · exact Or.inr ⟨rfl, hp'⟩
      · exact Or.inl hp'
  others := by
    intro hm b hb hd
    rw [buttonDown_append_edgeless hnew] at hd
    rw [hreceived hm b hb]
    exact hk.others hm b hb hd
  disabled := by
    intro hm b
    rw [buttonDown_append_edgeless hnew]
    exact hk.disabled hm b
  keys := by
    intro code hd
    rw [keyDown_append_edgeless hnew] at hd
    rw [hkeys]
    exact hk.keys code hd
  codes := by
    rw [hkeys]
    exact hk.codes

theorem Kept.host (hk : Kept env h received calls) (hmouse : h'.mousePress = h.mousePress)
    (hkeys : h'.keyPress = h.keyPress)
    (hleft : h.leftPending = true → h'.leftPending = true ∨ h'.mousePress env.lim.buttonLeft = true) :
    Kept env h' received calls := by
  have hkept : Kept env h' received (calls ++ []) := hk.mono hmouse hkeys hleft (fun _ _ _ => rfl) (by simp)
  rwa [List.append_nil] at hkept

/-! ### The keyboard handlers -/

/-- A key is sent: `keys` after the call. -/
theorem Kept.sendKeys (hk : Kept env h received calls) (hmouse : h'.mousePress = h.mousePress)
    (hleft : h'.leftPending = h.leftPending) (hreceived : ∀ b, clientDown received' b = clientDown received b)
    (hnew : ∀ x ∈ new, ∀ b, buttonEdge b x = none)
    (hkeys : ∀ code, keyDown (calls ++ new) code = true →
      ∃ kpid ∈ h'.keyPress, mapKeycode env (vkFromKpid kpid) = code)
    (hcodes : ∀ kpid ∈ h'.keyPress, vkFromKpid kpid &&& 0x00FF = vkFromKpid kpid) :
    Kept env h' received' (calls ++ new) where
  buttons := by
    intro b hb hd
    rw [buttonDown_append_keys hnew] at hd
    rw [hmouse, hleft]
    exact hk.buttons b hb hd
  others := by
    intro hm b hb hd
    rw [buttonDown_append_keys hnew] at hd
    rw [hreceived]
    exact hk.others hm b hb hd
  disabled := by
    intro hm b
    rw [buttonDown_append_keys hnew]
    exact hk.disabled hm b
  keys := hkeys
  codes := hcodes

theorem Kept.repeatKey (hk : Kept env h received calls) (r : Response) (keyCode : UInt16) (flags synthetic : UInt8) :
    Kept env (repeatKey env r h keyCode flags synthetic).1 received
      (calls ++ (repeatKey env r h keyCode flags synthetic).2) := by
  unfold Input.repeatKey
  split
  · exact hk.mono rfl rfl Or.inl (fun _ _ _ => rfl) (by simp)
  next hmem =>
    rw [not_not] at hmem
    refine hk.sendKeys rfl (Host.leftPending_pushRepeat rfl) (fun _ => rfl)
      (sendKeyAndModifiers_buttonEdge env _ _ _ _) ?_ hk.codes
    intro code hd
    rcases keyDown_press env hd with hd | hd
    · exact hk.keys code hd
    · exact ⟨_, hmem, by rw [vkFromKpid_makeKpid, hd]⟩

theorem restartRepeat_keeps (r : Response) (keyCode : UInt16) (flags synthetic : UInt8) :
    (restartRepeat env r h keyCode flags synthetic).mousePress = h.mousePress ∧
      (restartRepeat env r h keyCode flags synthetic).keyPress = h.keyPress ∧
      (restartRepeat env r h keyCode flags synthetic).leftPending =
        if h.keyPressRepeatId ≠ 0 then (h.cancel h.keyPressRepeatId).leftPending else h.leftPending := by
  unfold restartRepeat
  dsimp only
  generalize hg : (if h.keyPressRepeatId ≠ 0 then h.cancel h.keyPressRepeatId else h) = g
  have hkeep : g.mousePress = h.mousePress ∧ g.keyPress = h.keyPress ∧
      g.leftPending = if h.keyPressRepeatId ≠ 0 then (h.cancel h.keyPressRepeatId).leftPending else h.leftPending := by
    rw [← hg]
    split
    · exact ⟨rfl, rfl, rfl⟩
    · exact ⟨rfl, rfl, rfl⟩
  split
  · exact ⟨hkeep.1, hkeep.2.1, (Host.leftPending_pushRepeat rfl).trans hkeep.2.2⟩
  · exact hkeep

theorem applyShortcut_keeps {keyCode : UInt16} (hs : applyShortcut h keyCode = some h') :
    h'.mousePress = h.mousePress ∧ h'.keyPress = h.keyPress ∧ h'.timers = h.timers := by
  unfold applyShortcut at hs
  split at hs
  · obtain rfl := Option.some.inj hs
    exact ⟨rfl, rfl, rfl⟩
  split at hs
  · obtain rfl := Option.some.inj hs
    exact ⟨rfl, rfl, rfl⟩
  · cases hs

/-- The task that a keyboard packet cancels. -/
def cancelledByKey (env : Env) (h : Host) (input : Context) (m : Keyboard) : Option TaskId :=
  let keyCode := m.keyCode &&& 0x00FF
  if env.config.keyboard ∧ !m.release ∧ makeKpid keyCode m.flags ∉ h.keyPress ∧
      (if input.shortcutFlags.shortcut then applyShortcut h keyCode else none).isNone ∧ h.keyPressRepeatId ≠ 0 then
    some h.keyPressRepeatId
  else none

theorem and_ff_idem (k : UInt16) : k &&& 0x00FF &&& 0x00FF = k &&& 0x00FF := by
  rw [UInt16.and_assoc]
  rfl

theorem Kept.keyboard (hk : Kept env h received calls) (r : Response) (input : Context) (m : Keyboard)
    (hspare : ∀ id ∈ cancelledByKey env h input m, Spares env h id) :
    Kept env (passthroughKeyboard env r h input m).1 (received ++ [.keyboard m])
      (calls ++ (passthroughKeyboard env r h input m).2.2) := by
  have hreceived : ∀ b, clientDown (received ++ [.keyboard m]) b = clientDown received b :=
    clientDown_snoc received _
  have hsame : Kept env h (received ++ [.keyboard m]) (calls ++ []) :=
    hk.mono rfl rfl Or.inl (fun _ b _ => hreceived b) (by simp)
  unfold passthroughKeyboard
  dsimp only
  generalize (if (!m.release) = true ∧ (!isModifier (m.keyCode &&& 0x00FF)) = true then
    syntheticModifiers env input.shortcutFlags m.modifiers else 0) = synthetic
  split
  · exact hsame
  next hkeyboard =>
  split
  next hnew =>
    split
    · exact hsame
    next hpress =>
    split
    next h'' hs =>
      split at hs
      · obtain ⟨hm, hkp, ht⟩ := applyShortcut_keeps hs
        refine hk.mono hm hkp ?_ (fun _ b _ => hreceived b) (by simp)
        intro hp
        left
        simpa [Host.leftPending, ht] using hp
      · cases hs
    next hs =>
      -- a new key: the repeat task of the last one is cancelled
      obtain ⟨hm, hkp, hl⟩ := restartRepeat_keeps (h := h) r (m.keyCode &&& 0x00FF) m.flags synthetic
      have hk' : Kept env (restartRepeat env r h (m.keyCode &&& 0x00FF) m.flags synthetic) received calls := by
        refine hk.host hm hkp ?_
        intro hp
        rw [hl, hm]
        split
        next hid =>
          refine hspare _ ?_ hp
          simp only [cancelledByKey]
          rw [if_pos ⟨by simpa using hkeyboard, by simpa using hpress, hnew, by rw [hs]; rfl, hid⟩]
          rfl
        next => exact Or.inl hp
      have hrel : m.release = false := by simpa using hpress
      simp only [sendKey, hrel]
      refine hk'.sendKeys rfl (Host.leftPending_congr rfl) hreceived (sendKeyAndModifiers_buttonEdge env _ _ _ _) ?_ ?_
      · intro code hd
        rcases keyDown_press env hd with hd | hd
        · obtain ⟨kpid, hmem, hcode⟩ := hk'.keys code hd
          exact ⟨kpid, List.mem_cons_of_mem _ hmem, hcode⟩
        · exact ⟨_, List.mem_cons_self, by rw [vkFromKpid_makeKpid, hd]⟩
      · intro kpid hmem
        rcases List.mem_cons.mp hmem with rfl | hmem
        · rw [vkFromKpid_makeKpid, and_ff_idem]
        · exact hk'.codes kpid hmem
  next hold =>
    split
    · exact hsame
    next hpress =>
      have hrel : m.release = true := by simpa using hpress
      simp only [sendKey, hrel]
      refine hk.sendKeys rfl (Host.leftPending_congr rfl) hreceived (sendKeyAndModifiers_buttonEdge env _ _ _ _) ?_ ?_
      · intro code hd
        obtain ⟨hd, hne⟩ := keyDown_release env hd
        obtain ⟨kpid, hmem, hcode⟩ := hk.keys code hd
        refine ⟨kpid, ?_, hcode⟩
        -- the released key is mapped to another code
        have : kpid ≠ makeKpid (m.keyCode &&& 0x00FF) m.flags := by
          rintro rfl
          rw [vkFromKpid_makeKpid] at hcode
          exact hne hcode
        simpa using ⟨hmem, this⟩
      · intro kpid hmem
        exact hk.codes kpid (List.mem_of_mem_filter hmem)

/-! ### The mouse button handlers -/

theorem buttonEdge_buttonMouse (b k : ℕ) (release : Bool) :
    buttonEdge b (.buttonMouse k release) = if k = b then some (!release) else none := rfl

theorem buttonDown_snoc (calls : List Call) (k : ℕ) (release : Bool) (b : ℕ) :
    buttonDown (calls ++ [.buttonMouse k release]) b = if k = b then !release else buttonDown calls b := by
  unfold buttonDown
  rw [levelAfter_append]
  simp only [levelAfter, List.foldl_cons, List.foldl_nil, buttonEdge_buttonMouse]
  split
  · rfl
  · rfl

theorem keyEdge_buttonMouse (ks : List (ℕ × Bool)) :
    ∀ x ∈ ks.map fun k => Call.buttonMouse k.1 k.2, ∀ code, keyEdge code x = none := by
  intro x hx code
  obtain ⟨k, -, rfl⟩ := List.mem_map.mp hx
  rfl

theorem recordButton_keeps (h : Host) (button : ℕ) (release : Bool) :
    (recordButton h button release).keyPress = h.keyPress ∧ (recordButton h button release).timers = h.timers ∧
      (∀ b, b ≠ button → (recordButton h button release).mousePress b = h.mousePress b) ∧
      (tracked button = true → (recordButton h button release).mousePress button = !release) := by
  unfold recordButton
  split
  · exact ⟨rfl, rfl, fun b hb => Function.update_of_ne hb .., fun _ => Function.update_self ..⟩
  next hb => exact ⟨rfl, rfl, fun _ _ => rfl, fun h => absurd h hb⟩

theorem clientDown_of_ne (received : List Packet) {m : MouseButton} {b : ℕ} (hb : b ≠ m.button) :
    clientDown (received ++ [.mouseButton m]) b = clientDown received b := by
  rw [clientDown_snoc]
  exact if_neg fun h => hb h.symm

/-- With the keys as they were, only the buttons matter. -/
theorem Kept.of_buttons (hk : Kept env h received calls) (hmouse : env.config.mouse = true)
    (hkeys : h'.keyPress = h.keyPress) {calls' : List Call} (hdown : ∀ code, keyDown calls' code = keyDown calls code)
    (hbuttons : ∀ b, tracked b = true → buttonDown calls' b = true →
      h'.mousePress b = true ∨ b = env.lim.buttonLeft ∧ h'.leftPending = true)
    (hothers : ∀ b, tracked b = false → buttonDown calls' b = true → clientDown received' b = true) :
    Kept env h' received' calls' where
  buttons := hbuttons
  others := fun _ => hothers
  disabled := by
    intro hm
    rw [hmouse] at hm
    cases hm
  keys := by
    intro code hd
    rw [hdown] at hd
    exact hkeys ▸ hk.keys code hd
  codes := fun kpid hmem => hk.codes kpid (hkeys ▸ hmem)

/-- The release of the left button is delayed. -/
theorem Kept.leftDelayed (hk : Kept env h received calls) (hmouse : env.config.mouse = true)
    (hleft : tracked env.lim.buttonLeft = true) (id : TaskId) (i : ℕ) {m : MouseButton}
    (hb : m.button = env.lim.buttonLeft) :
    Kept env ((recordButton h m.button m.release).pushDelayed id (.leftRelease i)) (received ++ [.mouseButton m])
      calls := by
  obtain ⟨hkeys, -, hother, -⟩ := recordButton_keeps h m.button m.release
  generalize recordButton h m.button m.release = g at hkeys hother
  have hpend : (g.pushDelayed id (.leftRelease i)).leftPending = true := by
    rw [Host.leftPending_pushDelayed]
    exact Bool.or_true _
  have hkeys' : (g.pushDelayed id (.leftRelease i)).keyPress = h.keyPress := hkeys
  refine hk.of_buttons hmouse hkeys' (fun _ => rfl) (fun b hbt hd => ?_) (fun b hbt hd => ?_)
  · rcases eq_or_ne b m.button with rfl | hne
    · exact Or.inr ⟨hb, hpend⟩
    · rcases hk.buttons b hbt hd with hp | ⟨hl, -⟩
      · exact Or.inl ((hother b hne).trans hp)
      · exact absurd (hl.trans hb.symm) hne
  · have hne : b ≠ m.button := by
      rintro rfl
      rw [hb, hleft] at hbt
      cases hbt
    rw [clientDown_of_ne received hne]
    exact hk.others hmouse b hbt hd

/-- The right button is pressed and released at once. -/
theorem Kept.rightClick (hk : Kept env h received calls) (hmouse : env.config.mouse = true) {m : MouseButton}
    (hb : m.button = env.lim.buttonRight) :
    Kept env { recordButton h m.button m.release with
        mousePress := Function.update (recordButton h m.button m.release).mousePress env.lim.buttonRight false }
      (received ++ [.mouseButton m])
      (calls ++ [.buttonMouse env.lim.buttonRight false, .buttonMouse env.lim.buttonRight true]) := by
  obtain ⟨hkeys, htimers, hother, -⟩ := recordButton_keeps h m.button m.release
  generalize recordButton h m.button m.release = g at hkeys htimers hother
  have hcalls : calls ++ [Call.buttonMouse env.lim.buttonRight false, .buttonMouse env.lim.buttonRight true] =
      (calls ++ [.buttonMouse env.lim.buttonRight false]) ++ [.buttonMouse env.lim.buttonRight true] := by simp
  have hdown : ∀ b, buttonDown (calls ++
      [Call.buttonMouse env.lim.buttonRight false, .buttonMouse env.lim.buttonRight true]) b = true →
      b ≠ env.lim.buttonRight ∧ buttonDown calls b = true := by
    intro b hd
    rw [hcalls, buttonDown_snoc, buttonDown_snoc] at hd
    split at hd
    · cases hd
    next hne => exact ⟨fun h => hne h.symm, hd⟩
  have hkd : ∀ code, keyDown (calls ++
      [Call.buttonMouse env.lim.buttonRight false, .buttonMouse env.lim.buttonRight true]) code =
        keyDown calls code :=
    keyDown_append_buttons (keyEdge_buttonMouse [(env.lim.buttonRight, false), (env.lim.buttonRight, true)])
  have hkeys' : { g with mousePress := Function.update g.mousePress env.lim.buttonRight false }.keyPress =
      h.keyPress := hkeys
  refine hk.of_buttons hmouse hkeys' hkd (fun b hbt hd => ?_) (fun b hbt hd => ?_)
  · obtain ⟨hne, hd⟩ := hdown b hd
    rcases hk.buttons b hbt hd with hp | ⟨hl, hp⟩
    · left
      simp only [Function.update_of_ne hne]
      exact (hother b (hb ▸ hne)).trans hp
    · right
      exact ⟨hl, by rw [← hp]; exact Host.leftPending_congr htimers⟩
  · obtain ⟨hne, hd⟩ := hdown b hd
    rw [clientDown_of_ne received (hb ▸ hne)]
    exact hk.others hmouse b hbt hd

/-- The button is sent as it is. -/
theorem Kept.buttonSent (hk : Kept env h received calls) (hmouse : env.config.mouse = true) (m : MouseButton) :
    Kept env (recordButton h m.button m.release) (received ++ [.mouseButton m])
      (calls ++ [.buttonMouse m.button m.release]) := by
  obtain ⟨hkeys, htimers, hother, hself⟩ := recordButton_keeps h m.button m.release
  generalize recordButton h m.button m.release = g at hkeys htimers hother hself
  have hkd : ∀ code, keyDown (calls ++ [Call.buttonMouse m.button m.release]) code = keyDown calls code :=
    keyDown_append_buttons (keyEdge_buttonMouse [(m.button, m.release)])
  refine hk.of_buttons hmouse hkeys hkd (fun b hbt hd => ?_) (fun b hbt hd => ?_)
  · rw [buttonDown_snoc] at hd
    split at hd
    next hb =>
      subst hb
      exact Or.inl ((hself hbt).trans hd)
    next hb =>
      rcases hk.buttons b hbt hd with hp | ⟨hl, hp⟩
      · exact Or.inl ((hother b fun h => hb h.symm).trans hp)
      · exact Or.inr ⟨hl, by rw [← hp]; exact Host.leftPending_congr htimers⟩
  · rw [buttonDown_snoc] at hd
    split at hd
    next hb =>
      rw [clientDown_snoc]
      simp only [if_pos hb]
      exact hd
    next hb =>
      rw [clientDown_of_ne received fun h => hb h.symm]
      exact hk.others hmouse b hbt hd

theorem Kept.mouseButton (hk : Kept env h received calls) (hleft : tracked env.lim.buttonLeft = true) (i : ℕ)
    (r : Response) (input : Context) (m : MouseButton) :
    Kept env (passthroughMouseButton env i r h input m).1 (received ++ [.mouseButton m])
      (calls ++ (passthroughMouseButton env i r h input m).2.2) := by
  unfold passthroughMouseButton
  dsimp only
  split
  next hmouse =>
    refine hk.mono rfl rfl Or.inl (fun hm => ?_) (by simp)
    rw [hm] at hmouse
    cases hmouse
  next hmouse =>
  have hmouse' : env.config.mouse = true := by simpa using hmouse
  split
  next hsame =>
    refine hk.mono rfl rfl Or.inl (fun _ b hb => clientDown_of_ne received ?_) (by simp)
    rintro rfl
    rw [hsame.1] at hb
    cases hb
  split
  next hdelay =>
    rw [List.append_nil]
    exact hk.leftDelayed hmouse' hleft r.newId i hdelay.1
  split
  next hright => exact hk.rightClick hmouse' hright.1
  next => exact hk.buttonSent hmouse' m

/-- The delayed release, taken from the pool: the left button is released, or it is pressed again and remembered. -/
theorem Kept.leftRelease (hk : Kept env h received calls) (id : TaskId) (input : Context) :
    Kept env (leftRelease env (h.cancel id) input).1 received
      (calls ++ (leftRelease env (h.cancel id) input).2.2) := by
  unfold Input.leftRelease
  split
  next hpress => exact hk.mono rfl rfl (fun _ => Or.inr hpress) (fun _ _ _ => rfl) (by simp)
  next hpress =>
    have hkd : ∀ code, keyDown (calls ++ [Call.buttonMouse env.lim.buttonLeft true]) code = keyDown calls code :=
      keyDown_append_buttons (keyEdge_buttonMouse [(env.lim.buttonLeft, true)])
    have hdown : ∀ b, buttonDown (calls ++ [Call.buttonMouse env.lim.buttonLeft true]) b = true →
        b ≠ env.lim.buttonLeft ∧ buttonDown calls b = true := by
      intro b hd
      rw [buttonDown_snoc] at hd
      split at hd
      · cases hd
      next hne => exact ⟨fun h => hne h.symm, hd⟩
    refine ⟨?_, ?_, ?_, ?_, hk.codes⟩
    · intro b hbt hd
      obtain ⟨hne, hd⟩ := hdown b hd
      rcases hk.buttons b hbt hd with hp | ⟨hl, -⟩
      · exact Or.inl (by simpa [Function.update_of_ne hne] using hp)
      · exact absurd hl hne
    · intro hm b hbt hd
      exact hk.others hm b hbt (hdown b hd).2
    · intro hm b
      rw [buttonDown_snoc]
      split
      · rfl
      · exact hk.disabled hm b
    · intro code hd
      rw [hkd] at hd
      exact hk.keys code hd

/-! ### The other packets -/

/-- The handler leaves buttons and keys alone. -/
def Bystander (env : Env) (h : Host) (out : Host × Context × List Call) : Prop :=
  out.1.mousePress = h.mousePress ∧ out.1.keyPress = h.keyPress ∧
    (h.leftPending = true → out.1.leftPending = true ∨ out.1.mousePress env.lim.buttonLeft = true) ∧
    ∀ x ∈ out.2.2, edgeless x

theorem bystander_of_calls {out : Context × List Call} (hcalls : ∀ x ∈ out.2, edgeless x) :
    Bystander env h (h, out) := ⟨rfl, rfl, Or.inl, hcalls⟩

theorem edgeless_nil : ∀ x ∈ ([] : List Call), edgeless x := by
  intro x hx
  cases hx

theorem edgeless_single {y : Call} (hy : edgeless y) : ∀ x ∈ [y], edgeless x := by
  intro x hx
  rwa [List.mem_singleton.mp hx]

theorem Bystander.kept {out : Host × Context × List Call} (hb : Bystander env h out) {p : Packet}
    (hp : ∀ m, p ≠ .mouseButton m) (hk : Kept env h received calls) :
    Kept env out.1 (received ++ [p]) (calls ++ out.2.2) := by
  refine hk.mono hb.1 hb.2.1 hb.2.2.1 (fun _ b _ => ?_) hb.2.2.2
  rw [clientDown_snoc]
  cases p with
  | mouseButton m => exact absurd rfl (hp m)
  | _ => rfl

theorem bystander_allocGamepad (r : Response) (input : Context) (c : Slot) (arrival : GamepadArrival) :
    Bystander env h (allocGamepad r h input c arrival) := by
  unfold allocGamepad
  split
  · exact ⟨rfl, rfl, Or.inl, edgeless_nil⟩
  · dsimp only
    split
    · exact ⟨rfl, rfl, Or.inl, edgeless_single ⟨fun _ => rfl, fun _ => rfl⟩⟩
    · exact ⟨rfl, rfl, Or.inl, edgeless_single ⟨fun _ => rfl, fun _ => rfl⟩⟩

theorem allocGamepad_backTimeoutId (r : Response) (input : Context) (c : Slot) (arrival : GamepadArrival) :
    ((allocGamepad r h input c arrival).2.1.gamepads c).backTimeoutId = (input.gamepads c).backTimeoutId := by
  unfold allocGamepad
  split
  · rfl
  · dsimp only
    split
    · rfl
    · simp

/-- An update cancels at most the HOME press of its gamepad. -/
theorem bystander_updateGamepad (i : ℕ) (r : Response) (input : Context) (c : Slot) (m : MultiController)
    (hspare : Spares env h (input.gamepads c).backTimeoutId) :
    Bystander env h (updateGamepad env i r h input c m) := by
  refine ⟨?_, ?_, ?_, edgeless_single ⟨fun _ => rfl, fun _ => rfl⟩⟩
  · simp only [updateGamepad, backTimer]
    repeat' split
    all_goals rfl
  · simp only [updateGamepad, backTimer]
    repeat' split
    all_goals rfl
  · intro hp
    simp only [updateGamepad, backTimer]
    split
    · split
      · split
        · left
          rw [Host.leftPending_pushDelayed, hp]
          rfl
        · exact Or.inl hp
      · split
        · exact hspare hp
        · exact Or.inl hp
    · exact Or.inl hp

theorem bystander_withGamepad (input : Context) (n : UInt8) {call : GamepadId → Call}
    (hcall : ∀ id, edgeless (call id)) : Bystander env h (h, input, withGamepad env input n call) := by
  unfold withGamepad
  split
  · exact bystander_of_calls edgeless_nil
  · split
    · exact bystander_of_calls edgeless_nil
    · split
      · exact bystander_of_calls edgeless_nil
      · exact bystander_of_calls (edgeless_single (hcall _))

theorem bystander_multiController (i : ℕ) (r : Response) (input : Context) (m : MultiController)
    (hspare : ∀ c, slot? m.controllerNumber.toInt = some c → Spares env h (input.gamepads c).backTimeoutId) :
    Bystander env h (passthroughMultiController env i r h input m) := by
  unfold passthroughMultiController
  split
  · exact bystander_of_calls edgeless_nil
  split
  · exact bystander_of_calls edgeless_nil
  next c hc =>
  dsimp only
  split
  · have halloc : Bystander env h (allocGamepad r h input c {}) := bystander_allocGamepad r input c {}
    split
    · exact halloc
    · have hspare' : Spares env (allocGamepad r h input c {}).1
          ((allocGamepad r h input c {}).2.1.gamepads c).backTimeoutId := by
        rw [allocGamepad_backTimeoutId]
        have htimers : (allocGamepad r h input c {}).1.timers = h.timers := by
          unfold allocGamepad
          split
          · rfl
          · dsimp only
            split
            · rfl
            · rfl
        intro hp
        rw [Host.leftPending_congr htimers] at hp
        rcases hspare c hc hp with h' | h'
        · left
          rw [← h']
          exact Host.leftPending_congr (by simp only [Host.cancel_timers, htimers])
        · exact Or.inr (by rw [halloc.1]; exact h')
      have hup := bystander_updateGamepad i r (allocGamepad r h input c {}).2.1 c m hspare'
      refine ⟨hup.1.trans halloc.1, hup.2.1.trans halloc.2.1, ?_, ?_⟩
      · intro hp
        rcases halloc.2.2.1 hp with hp | hp
        · exact hup.2.2.1 hp
        · exact Or.inr (by rw [hup.1]; exact hp)
      · intro x hx
        rcases List.mem_append.mp hx with hx | hx
        · exact halloc.2.2.2 x hx
        · exact hup.2.2.2 x hx
  split
  · refine ⟨rfl, rfl, Or.inl, ?_⟩
    intro x hx
    simp only [freeGamepad, List.mem_cons, List.not_mem_nil, or_false] at hx
    rcases hx with rfl | rfl
    · exact ⟨fun _ => rfl, fun _ => rfl⟩
    · exact ⟨fun _ => rfl, fun _ => rfl⟩
  split
  · exact bystander_of_calls edgeless_nil
  · exact bystander_updateGamepad i r input c m (hspare c hc)

/-- The task that a packet may cancel. -/
def cancelledBy (env : Env) (h : Host) (input : Context) : Packet → Option TaskId
  | .keyboard m => cancelledByKey env h input m
  | .multiController m => (slot? m.controllerNumber.toInt).map fun c => (input.gamepads c).backTimeoutId
  | _ => none

/-- **Every handler keeps what is remembered.** -/
theorem Kept.passthrough (hk : Kept env h received calls) (hleft : tracked env.lim.buttonLeft = true) (i : ℕ)
    (r : Response) (input : Context) (p : Packet) (hspare : ∀ id ∈ cancelledBy env h input p, Spares env h id) :
    Kept env (passthrough env i r h input p).1 (received ++ [p]) (calls ++ (passthrough env i r h input p).2.2) := by
  cases p with
  | mouseButton m => exact hk.mouseButton hleft i r input m
  | keyboard m => exact hk.keyboard r input m hspare
  | relMouseMove m =>
    refine Bystander.kept (bystander_of_calls ?_) (by simp) hk
    unfold passthroughRelMouseMove
    split
    · exact edgeless_nil
    · exact edgeless_single ⟨fun _ => rfl, fun _ => rfl⟩
  | absMouseMove m =>
    refine Bystander.kept (bystander_of_calls ?_) (by simp) hk
    unfold passthroughAbsMouseMove
    split
    · exact edgeless_nil
    dsimp only
    split
    · exact edgeless_nil
    split
    · exact edgeless_nil
    · exact edgeless_single ⟨fun _ => rfl, fun _ => rfl⟩
  | scroll m =>
    refine Bystander.kept (bystander_of_calls ?_) (by simp) hk
    unfold passthroughScroll
    split
    · exact edgeless_nil
    split
    · exact edgeless_single ⟨fun _ => rfl, fun _ => rfl⟩
    dsimp only
    cases (fullTicks (input.accumulatedVscrollDelta + m.scrollAmt1.toInt)).2 with
    | none => exact edgeless_nil
    | some sent => exact edgeless_single ⟨fun _ => rfl, fun _ => rfl⟩
  | hscroll m =>
    refine Bystander.kept (bystander_of_calls ?_) (by simp) hk
    unfold passthroughHScroll
    split
    · exact edgeless_nil
    split
    · exact edgeless_single ⟨fun _ => rfl, fun _ => rfl⟩
    dsimp only
    cases (fullTicks (input.accumulatedHscrollDelta + m.scrollAmount.toInt)).2 with
    | none => exact edgeless_nil
    | some sent => exact edgeless_single ⟨fun _ => rfl, fun _ => rfl⟩
  | unicode text =>
    refine Bystander.kept (bystander_of_calls ?_) (by simp) hk
    unfold passthroughUnicode
    split
    · exact edgeless_nil
    · exact edgeless_single ⟨fun _ => rfl, fun _ => rfl⟩
  | touch m =>
    refine Bystander.kept (bystander_of_calls ?_) (by simp) hk
    unfold passthroughTouch
    split
    · exact edgeless_nil
    dsimp only
    split
    · exact edgeless_nil
    · exact edgeless_single ⟨fun _ => rfl, fun _ => rfl⟩
  | pen m =>
    refine Bystander.kept (bystander_of_calls ?_) (by simp) hk
    unfold passthroughPen
    split
    · exact edgeless_nil
    dsimp only
    split
    · exact edgeless_nil
    · exact edgeless_single ⟨fun _ => rfl, fun _ => rfl⟩
  | multiController m =>
    refine Bystander.kept (bystander_multiController i r input m fun c hc => hspare _ ?_) (by simp) hk
    simp [cancelledBy, hc]
  | controllerArrival m =>
    refine Bystander.kept ?_ (by simp) hk
    simp only [Input.passthrough, passthroughControllerArrival]
    split
    · exact bystander_of_calls edgeless_nil
    split
    · exact bystander_of_calls edgeless_nil
    split
    · exact bystander_of_calls edgeless_nil
    · exact bystander_allocGamepad r input _ _
  | controllerTouch m =>
    exact Bystander.kept (bystander_withGamepad input _ fun _ => ⟨fun _ => rfl, fun _ => rfl⟩) (by simp) hk
  | controllerMotion m =>
    exact Bystander.kept (bystander_withGamepad input _ fun _ => ⟨fun _ => rfl, fun _ => rfl⟩) (by simp) hk
  | controllerBattery m =>
    exact Bystander.kept (bystander_withGamepad input _ fun _ => ⟨fun _ => rfl, fun _ => rfl⟩) (by simp) hk

end MidnightSun.Input
