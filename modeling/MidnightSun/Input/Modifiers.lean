import MidnightSun.Input.Held

/-!
# Shortcut flags and held modifiers (src/input.cpp)

`shortcutFlags` has a bit for each modifier, and `key_press` the keys that are pressed, of which several may belong to
one modifier.
-/

namespace MidnightSun.Input

open Lib Platf

/-! ### Modifiers -/

inductive Modifier where
  | shift
  | ctrl
  | alt
  deriving DecidableEq

/-- The order in which the handler asks for them. -/
def Modifier.all : List Modifier := [shift, ctrl, alt]

@[simp] lemma Modifier.mem_all (m : Modifier) : m ∈ all := by cases m <;> decide

/-- The key that is sent for a modifier. -/
def Modifier.key : Modifier → UInt16
  | shift => vkeyShift
  | ctrl => vkeyControl
  | alt => vkeyMenu

/-- The generic key, the left one and the right one. -/
def Modifier.codes : Modifier → List UInt16
  | shift => [vkeyShift, vkeyLshift, vkeyRshift]
  | ctrl => [vkeyControl, vkeyLcontrol, vkeyRcontrol]
  | alt => [vkeyMenu, vkeyLmenu, vkeyRmenu]

/-- The bit of a packet's modifiers. -/
def Modifier.bit (lim : Limelight) : Modifier → UInt8
  | shift => lim.modifierShift
  | ctrl => lim.modifierCtrl
  | alt => lim.modifierAlt

def ShortcutFlags.has (f : ShortcutFlags) : Modifier → Bool
  | .shift => f.shift
  | .ctrl => f.ctrl
  | .alt => f.alt

variable (env : Env)

/-- A key of the modifier is recorded as pressed. -/
def Held (h : Host) (m : Modifier) : Prop := ∃ kpid ∈ h.keyPress, mapKeycode env (vkFromKpid kpid) ∈ m.codes

instance decidableHeld (h : Host) (m : Modifier) : Decidable (Held env h m) :=
  List.decidableBEx (fun kpid => mapKeycode env (vkFromKpid kpid) ∈ m.codes) h.keyPress

/-- The keys of the modifiers that the client reports and that are not held. -/
def missing (h : Host) (modifiers : UInt8) : List UInt16 :=
  (Modifier.all.filter fun m => modifiers &&& m.bit env.lim ≠ 0 ∧ ¬Held env h m).map Modifier.key

/-- The state that the keyboard handler works on. -/
abbrev KeyState := Host × Context

/-- A keyboard packet. -/
def keyStep (s : KeyState) (a : Response × Keyboard) : KeyState :=
  let out := passthroughKeyboard env a.1 s.1 s.2 a.2
  (out.1, out.2.1)

abbrev KeyStep : KeyState → Response × Keyboard → KeyState → Prop := ofFun (keyStep env)

/-- Each flag is set exactly if a key of its modifier is pressed. -/
def Mirrors (s : KeyState) : Prop := ∀ m, s.2.shortcutFlags.has m = true ↔ Held env s.1 m

/-- A new key that is no modifier is sent between the presses and the releases of the missing modifiers; a key that is a
modifier is sent alone. -/
def Completes (s : KeyState) : Prop :=
  ∀ (r : Response) (p : Keyboard), p.release = false → (passthroughKeyboard env r s.1 s.2 p).2.2 ≠ [] →
    (passthroughKeyboard env r s.1 s.2 p).2.2 =
      let added := if isModifier (p.keyCode &&& 0x00FF) then [] else missing env s.1 p.modifiers
      added.map (Call.keyboardUpdate · false p.flags) ++
        [.keyboardUpdate (mapKeycode env (p.keyCode &&& 0x00FF)) false p.flags] ++
        added.map (Call.keyboardUpdate · true p.flags)

/-- No key is released while another key of its modifier is pressed. -/
def KeyGuard (s : KeyState) (a : Response × Keyboard) : Prop :=
  a.2.release = true → ∀ m : Modifier, mapKeycode env (a.2.keyCode &&& 0x00FF) ∈ m.codes →
    makeKpid (a.2.keyCode &&& 0x00FF) a.2.flags ∈ s.1.keyPress → ∀ kpid ∈ s.1.keyPress,
      kpid ≠ makeKpid (a.2.keyCode &&& 0x00FF) a.2.flags → mapKeycode env (vkFromKpid kpid) ∉ m.codes

instance decidableKeyGuard (s : KeyState) : DecidablePred (KeyGuard env s) := fun a =>
  have (m : Modifier) : Decidable (∀ kpid ∈ s.1.keyPress, kpid ≠ makeKpid (a.2.keyCode &&& 0x00FF) a.2.flags →
      mapKeycode env (vkFromKpid kpid) ∉ m.codes) := List.decidableBAll
    (fun kpid => kpid ≠ makeKpid (a.2.keyCode &&& 0x00FF) a.2.flags → mapKeycode env (vkFromKpid kpid) ∉ m.codes) _
  decidable_of_iff (a.2.release = true → ∀ m ∈ Modifier.all, mapKeycode env (a.2.keyCode &&& 0x00FF) ∈ m.codes →
    makeKpid (a.2.keyCode &&& 0x00FF) a.2.flags ∈ s.1.keyPress → ∀ kpid ∈ s.1.keyPress,
      kpid ≠ makeKpid (a.2.keyCode &&& 0x00FF) a.2.flags → mapKeycode env (vkFromKpid kpid) ∉ m.codes) <| by
    simp only [KeyGuard, Modifier.mem_all, true_imp_iff]

/-! ### The flags -/

lemma codes_disjoint {m m' : Modifier} {code : UInt16} (h : code ∈ m.codes) (h' : code ∈ m'.codes) : m = m' := by
  cases m <;> simp only [Modifier.codes, List.mem_cons, List.not_mem_nil, or_false] at h <;>
    rcases h with rfl | rfl | rfl <;> cases m' <;> first | rfl | exact absurd h' (by decide)

lemma has_updateShortcutFlags (f : ShortcutFlags) (code : UInt16) (release : Bool) (m : Modifier) :
    (updateShortcutFlags f code release).has m = if code ∈ m.codes then !release else f.has m := by
  have hsplit : updateShortcutFlags f code release =
      if code ∈ Modifier.shift.codes then { f with shift := !release }
      else if code ∈ Modifier.ctrl.codes then { f with ctrl := !release }
      else if code ∈ Modifier.alt.codes then { f with alt := !release } else f := rfl
  rw [hsplit]
  by_cases hm : ∃ m', code ∈ Modifier.codes m'
  · obtain ⟨m', hm'⟩ := hm
    have hother : ∀ n : Modifier, n ≠ m' → code ∉ n.codes := fun n hne hn => hne (codes_disjoint hn hm')
    by_cases heq : m = m'
    · rw [heq, if_pos hm']
      cases m' with
      | shift => rw [if_pos hm', ShortcutFlags.has]
      | ctrl => rw [if_neg (hother .shift nofun), if_pos hm', ShortcutFlags.has]
      | alt => rw [if_neg (hother .shift nofun), if_neg (hother .ctrl nofun), if_pos hm', ShortcutFlags.has]
    · rw [if_neg (hother m heq)]
      cases m' with
      | shift =>
        rw [if_pos hm']
        cases m with
        | shift => exact absurd rfl heq
        | ctrl | alt => rfl
      | ctrl =>
        rw [if_neg (hother .shift nofun), if_pos hm']
        cases m with
        | ctrl => exact absurd rfl heq
        | shift | alt => rfl
      | alt =>
        rw [if_neg (hother .shift nofun), if_neg (hother .ctrl nofun), if_pos hm']
        cases m with
        | alt => exact absurd rfl heq
        | shift | ctrl => rfl
  · have hnone : ∀ n : Modifier, code ∉ n.codes := fun n hn => hm ⟨n, hn⟩
    rw [if_neg (hnone _), if_neg (hnone _), if_neg (hnone _), if_neg (hnone _)]

/-! ### One packet -/

variable {env} {s : KeyState}

lemma held_cons {h : Host} {kpid : KeyPressId} {m : Modifier} :
    Held env { h with keyPress := kpid :: h.keyPress } m ↔
      mapKeycode env (vkFromKpid kpid) ∈ m.codes ∨ Held env h m := by
  unfold Held
  rw [List.exists_mem_cons_iff]

lemma held_filter {h : Host} {kpid : KeyPressId} {m : Modifier} (hm : mapKeycode env (vkFromKpid kpid) ∉ m.codes) :
    Held env { h with keyPress := h.keyPress.filter (· ≠ kpid) } m ↔ Held env h m := by
  constructor
  · rintro ⟨k, hk, hcode⟩
    exact ⟨k, List.mem_of_mem_filter hk, hcode⟩
  · rintro ⟨k, hk, hcode⟩
    refine ⟨k, List.mem_filter.mpr ⟨hk, decide_eq_true ?_⟩, hcode⟩
    rintro rfl
    exact hm hcode

lemma Mirrors.host (h : Mirrors env s) {host : Host} (hkeys : host.keyPress = s.1.keyPress) :
    Mirrors env (host, s.2) := by
  intro m
  have hheld : Held env host m ↔ Held env s.1 m := by
    unfold Held
    rw [hkeys]
  rw [hheld]
  exact h m

lemma Mirrors.press (h : Mirrors env s) (keyCode : UInt16) (flags synthetic : UInt8) :
    Mirrors env ((sendKey env s.1 s.2 keyCode false flags synthetic).1,
      (sendKey env s.1 s.2 keyCode false flags synthetic).2.1) := by
  intro m
  refine Iff.trans ?_ (held_cons (h := s.1)).symm
  change (updateShortcutFlags s.2.shortcutFlags (mapKeycode env keyCode) false).has m = true ↔ _
  rw [has_updateShortcutFlags, vkFromKpid_makeKpid, ← h m]
  by_cases hm : mapKeycode env keyCode ∈ m.codes
  · simp [hm]
  · simp [hm]

/-- A released key clears it, and no other key of the modifier may be pressed then. -/
lemma Mirrors.release (h : Mirrors env s) {keyCode : UInt16} {flags : UInt8}
    (hguard : ∀ m : Modifier, mapKeycode env keyCode ∈ m.codes → ∀ kpid ∈ s.1.keyPress, kpid ≠ makeKpid keyCode flags →
      mapKeycode env (vkFromKpid kpid) ∉ m.codes) (synthetic : UInt8) :
    Mirrors env ((sendKey env s.1 s.2 keyCode true flags synthetic).1,
      (sendKey env s.1 s.2 keyCode true flags synthetic).2.1) := by
  intro m
  change (updateShortcutFlags s.2.shortcutFlags (mapKeycode env keyCode) true).has m = true ↔
    Held env { s.1 with keyPress := s.1.keyPress.filter (· ≠ makeKpid keyCode flags) } m
  rw [has_updateShortcutFlags]
  by_cases hm : mapKeycode env keyCode ∈ m.codes
  · rw [if_pos hm]
    refine iff_of_false Bool.false_ne_true ?_
    rintro ⟨kpid, hkpid, hcode⟩
    obtain ⟨hmem, hne⟩ := List.mem_filter.mp hkpid
    exact hguard m hm kpid hmem (of_decide_eq_true hne) hcode
  · rw [if_neg hm, held_filter (by rwa [vkFromKpid_makeKpid])]
    exact h m

theorem Mirrors.step (h : Mirrors env s) {a : Response × Keyboard} (hguard : KeyGuard env s a) :
    Mirrors env (keyStep env s a) := by
  obtain ⟨r, p⟩ := a
  unfold keyStep passthroughKeyboard
  dsimp only
  split
  · exact h
  split
  next hup =>
    split
    · exact h
    next hpress =>
      rw [Bool.not_eq_true] at hpress
      split
      next host hshortcut =>
        split_ifs at hshortcut
        exact h.host (applyShortcut_keeps hshortcut).2.1
      next =>
        rw [hpress]
        exact (h.host (restartRepeat_keeps _ _ _ _).2.1).press _ _ _
  next hdown =>
    split
    · exact h
    next hrelease =>
      have hrelease : p.release = true := by simpa using hrelease
      rw [hrelease]
      exact h.release (fun m hm => hguard hrelease m hm (not_not.mp hdown)) _

/-! ### The synthetic modifiers -/

/-- The bits of the modifiers of a packet are different ones. -/
def DistinctBits (lim : Limelight) : Prop := ∀ m m' : Modifier, m ≠ m' → m.bit lim &&& m'.bit lim = 0

/-- The bit of a modifier in the synthetic ones. -/
lemma syntheticModifiers_bit (hbits : DistinctBits env.lim) (f : ShortcutFlags) (modifiers : UInt8) (m : Modifier) :
    syntheticModifiers env f modifiers &&& m.bit env.lim ≠ 0 ↔ modifiers &&& m.bit env.lim ≠ 0 ∧ f.has m = false := by
  have hpart : ∀ (P : Prop) [Decidable P] (n : Modifier), (if P then n.bit env.lim else 0) &&& m.bit env.lim =
      if P ∧ n = m then m.bit env.lim else 0 := by
    intro P _ n
    by_cases hn : n = m
    · subst hn
      by_cases hP : P <;> simp [hP]
    · by_cases hP : P <;> simp [hP, hn, hbits n m hn]
  have hsplit : syntheticModifiers env f modifiers =
      (if !f.has .shift ∧ modifiers &&& Modifier.shift.bit env.lim ≠ 0 then Modifier.shift.bit env.lim else 0) |||
      (if !f.has .ctrl ∧ modifiers &&& Modifier.ctrl.bit env.lim ≠ 0 then Modifier.ctrl.bit env.lim else 0) |||
      (if !f.has .alt ∧ modifiers &&& Modifier.alt.bit env.lim ≠ 0 then Modifier.alt.bit env.lim else 0) := rfl
  have hdistrib : ∀ a b c : UInt8, (a ||| b) &&& c = (a &&& c) ||| (b &&& c) := fun a b c =>
    UInt8.eq_of_toBitVec_eq BitVec.and_or_distrib_right
  have hzero : modifiers &&& m.bit env.lim ≠ 0 → m.bit env.lim ≠ 0 := by
    rintro h h0
    exact h (by rw [h0, UInt8.and_zero])
  have hone : (if !f.has m ∧ modifiers &&& m.bit env.lim ≠ 0 then m.bit env.lim else 0) ≠ 0 ↔
      modifiers &&& m.bit env.lim ≠ 0 ∧ f.has m = false := by
    split_ifs with hP
    · exact iff_of_true (hzero hP.2) ⟨hP.2, by simpa using hP.1⟩
    · exact iff_of_false (fun h => h rfl) fun h => hP ⟨by rw [h.2]; rfl, h.1⟩
  rw [hsplit, hdistrib, hdistrib, hpart, hpart, hpart, ← hone]
  cases m <;> simp only [reduceCtorEq, and_false, and_true, if_false, UInt8.or_zero, UInt8.zero_or]

lemma syntheticKeys_eq (synthetic : UInt8) :
    syntheticKeys env synthetic = (Modifier.all.filter fun m => synthetic &&& m.bit env.lim ≠ 0).map Modifier.key := by
  unfold syntheticKeys Modifier.all
  simp only [List.filter_cons, List.filter_nil, Modifier.bit]
  split_ifs <;> simp_all [Modifier.key]

theorem Mirrors.syntheticKeys_eq_missing (h : Mirrors env s) (hbits : DistinctBits env.lim) (modifiers : UInt8) :
    syntheticKeys env (syntheticModifiers env s.2.shortcutFlags modifiers) = missing env s.1 modifiers := by
  rw [syntheticKeys_eq, missing]
  congr 1
  refine List.filter_congr fun m _ => decide_eq_decide.mpr ?_
  rw [syntheticModifiers_bit hbits, ← h m, Bool.not_eq_true]

theorem Mirrors.completes (h : Mirrors env s) (hbits : DistinctBits env.lim) : Completes env s := by
  intro r p hpress hcalls
  have hsynthetic : syntheticKeys env (if !p.release ∧ !isModifier (p.keyCode &&& 0x00FF) then
      syntheticModifiers env s.2.shortcutFlags p.modifiers else 0) =
      if isModifier (p.keyCode &&& 0x00FF) then [] else missing env s.1 p.modifiers := by
    by_cases hmod : isModifier (p.keyCode &&& 0x00FF) = true
    · simp [hmod, syntheticKeys]
    · simp [hmod, hpress, h.syntheticKeys_eq_missing hbits]
  rw [← hsynthetic]
  revert hcalls
  unfold passthroughKeyboard
  dsimp only
  split
  · exact fun hcalls => absurd rfl hcalls
  split
  · rw [hpress]
    split
    · exact fun hcalls => absurd rfl hcalls
    split
    · exact fun hcalls => absurd rfl hcalls
    · exact fun _ => rfl
  · split
    · exact fun hcalls => absurd rfl hcalls
    next hrelease => exact absurd (by rw [hpress]; rfl) hrelease

/-! ### Every run -/

/-- **The shortcut flags mirror the held modifiers** after every packet, and the modifiers that a new key comes with are
the reported ones that are not held, if no key of a modifier is released while another one is pressed. -/
theorem shortcutFlags_mirror_held (hbits : DistinctBits env.lim) {packets : List (Response × Keyboard)}
    (hrun : Run (Guarded (KeyStep env) (KeyGuard env)) ({}, {}) packets s) : Mirrors env s ∧ Completes env s := by
  have hstart : Mirrors env ({}, {}) := by
    intro m
    refine iff_of_false (by cases m <;> decide) ?_
    rintro ⟨_, hnone, -⟩
    cases hnone
  have hmirrors : Mirrors env s := by
    refine hrun.invariant_where (fun s a t h hguard hstep => ?_) hstart
    rw [hstep]
    exact h.step hguard
  exact ⟨hmirrors, hmirrors.completes hbits⟩

/-- The left Shift, A, and the left Shift again. -/
def capitalA : List (Response × Keyboard) :=
  [(⟨2, false⟩, ⟨false, 0, 0xA0, 0⟩), (⟨3, false⟩, ⟨false, 0, 0x41, 1⟩), (⟨4, false⟩, ⟨true, 0, 0x41, 1⟩),
    (⟨5, false⟩, ⟨true, 0, 0xA0, 0⟩)]

lemma demo_distinctBits : DistinctBits demoEnv.lim := by
  intro m m' hne
  cases m <;> cases m' <;> first | exact absurd rfl hne | rfl

theorem shortcutFlags_mirror_held_capital : ∃ s,
    Run (Guarded (KeyStep demoEnv) (KeyGuard demoEnv)) ({}, {}) capitalA s ∧ Mirrors demoEnv s ∧
      Completes demoEnv s := by
  obtain ⟨s, hrun, -⟩ := exists_run_execWhere_and (f := fun s a => some (keyStep demoEnv s a)) (G := KeyGuard demoEnv)
    (s := ({}, {})) (l := capitalA) (P := fun _ => True) (by decide +kernel)
  have hguarded : Run (Guarded (KeyStep demoEnv) (KeyGuard demoEnv)) ({}, {}) capitalA s :=
    hrun.mono fun _ _ _ h => ⟨h.1, (Option.some.inj h.2).symm⟩
  exact ⟨s, hguarded, shortcutFlags_mirror_held demo_distinctBits hguarded⟩

/-- Both Shift keys are pressed and the left one is released. -/
def bothShifts : List (Response × Keyboard) :=
  [(⟨2, false⟩, ⟨false, 0, 0xA0, 0⟩), (⟨3, false⟩, ⟨false, 0, 0xA1, 0⟩), (⟨4, false⟩, ⟨true, 0, 0xA0, 0⟩)]

def bothShiftsState : KeyState := bothShifts.foldl (keyStep demoEnv) ({}, {})

/-- The flag is cleared though the right Shift is held, and the next key comes with a Shift of its own. -/
theorem both_shifts_clear_flag :
    (¬∀ (env : Env) (packets : List (Response × Keyboard)), DistinctBits env.lim →
      Mirrors env (packets.foldl (keyStep env) ({}, {})) ∧ Completes env (packets.foldl (keyStep env) ({}, {}))) ∧
    bothShiftsState.2.shortcutFlags.shift = false ∧ makeKpid 0xA1 0 ∈ bothShiftsState.1.keyPress ∧
    (passthroughKeyboard demoEnv ⟨5, false⟩ bothShiftsState.1 bothShiftsState.2 ⟨false, 0, 0x41, 1⟩).2.2 =
      [.keyboardUpdate vkeyShift false 0, .keyboardUpdate 0x41 false 0, .keyboardUpdate vkeyShift true 0] := by
  have hflag : bothShiftsState.2.shortcutFlags.shift = false := by decide +kernel
  have hheld : makeKpid 0xA1 0 ∈ bothShiftsState.1.keyPress := by decide +kernel
  refine ⟨fun hholds => ?_, hflag, hheld, by rfl⟩
  have hshift := ((hholds demoEnv bothShifts demo_distinctBits).1 .shift).mpr ⟨makeKpid 0xA1 0, hheld, by decide⟩
  exact Bool.false_ne_true (hflag.symm.trans hshift)

end MidnightSun.Input
