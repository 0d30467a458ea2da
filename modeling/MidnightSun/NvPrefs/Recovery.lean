import MidnightSun.NvPrefs.Keeps

/-!
# What a killed Sunshine leaves behind

The undo file is written before the driver saves our value, and it is deleted after the driver has saved the user's.  So
wherever Sunshine is killed, the setting is the user's, or the undo file has it.

* `restoreUndo_recovers`: after any run, the command `--restore-nvprefs-undo` brings back what the user chose.
-/

namespace MidnightSun.NvPrefs

open Lib Lib.Crash Nlohmann Util

variable {F : Type} {p : Platform F}

/-! ### Recovery returns -/

section Recovers

variable {s₀ : Machine} {α β : Type}

/-- With replies that are successes, `n` at most, the program goes from `s` to `t` with the result `a`. -/
abbrev Recovers (n : ℕ) (s : Machine) (prog : NvProg α) (a : α) (t : Machine) : Prop :=
  Returns n (fun e => e = Reply.ok) (fun u => u = s) prog fun b u => b = a ∧ u = t

namespace Recovers

variable {s t u : Machine} {a : α} {b : β} {n m k : ℕ}

theorem bind {prog : NvProg α} {f : α → NvProg β} (h : Recovers n s prog a t) (hf : Recovers m t (f a) b u)
    (hk : n + m ≤ k) : Recovers k s (prog >>= f) b u := by
  refine Returns.conseq (Returns.bind h (m := m) (R := fun c v => c = b ∧ v = u) fun c => ?_) (fun _ hv => hv)
    (fun _ _ hv => hv) hk
  intro es v hv hes hlength
  obtain ⟨rfl, rfl⟩ := hv
  exact hf es _ rfl hes hlength

theorem mono {prog : NvProg α} (h : Recovers n s prog a t) (ht : t = u) (hn : n ≤ m) : Recovers m s prog a u :=
  Returns.conseq h (fun _ hv => hv) (fun _ _ hv => ⟨hv.1, hv.2.trans ht⟩) hn

theorem ret (s : Machine) (a : α) : Recovers 0 s (pure a) a s := Returns.ret a fun _ hv => ⟨rfl, hv⟩

theorem gets (s : Machine) (f : Machine → α) : Recovers 0 s (Prog.gets f) (f s) s :=
  Returns.gets fun v hv => ⟨by rw [hv], hv⟩

theorem modify (s : Machine) (f : Machine → Machine) : Recovers 0 s (Prog.modify f) () (f s) :=
  Returns.modify fun v hv => ⟨rfl, by rw [hv]⟩

theorem call (s : Machine) (f : Reply → Machine → α × Machine) :
    Recovers 1 s (Prog.call f) (f .ok s).1 (f .ok s).2 :=
  Returns.call fun e v he hv => by rw [he, hv]; exact ⟨rfl, rfl⟩

theorem attempt (s : Machine) (f : Machine → Machine) : Recovers 1 s (NvPrefs.attempt f) true (f s) := call s _

end Recovers

theorem recovers_load (hs : Unloaded s₀) :
    Recovers 4 s₀ load true { s₀ with session := some s₀.saved, loaded := true } := by
  obtain ⟨hloaded, hsession⟩ := hs
  have hinit : Recovers 3 s₀ init true { s₀ with session := some s₀.saved } := by
    unfold init
    refine Recovers.bind (m := 3) (Recovers.gets s₀ _) ?_ (by omega)
    rw [hsession]
    refine Recovers.bind (m := 2) (Recovers.attempt _ _) ?_ (by omega)
    refine Recovers.bind (m := 1) (Recovers.attempt _ _) ?_ (by omega)
    unfold loadSettings
    refine Recovers.bind (m := 1) (Recovers.gets _ _) ?_ (by omega)
    refine Recovers.bind (m := 0) (Recovers.attempt _ _) ?_ (by omega)
    exact Recovers.ret _ true
  unfold load
  refine Recovers.bind (m := 4) (Recovers.gets s₀ _) ?_ (by omega)
  rw [hloaded]
  refine Recovers.bind (m := 3) (Recovers.attempt _ _) ?_ (by omega)
  refine Recovers.bind (m := 0) hinit ?_ (by omega)
  refine Recovers.bind (m := 0) (Recovers.modify _ _) ?_ (by omega)
  exact Recovers.ret _ true

theorem recovers_readUndoData {text : Str} (hfile : s₀.undoFile = some text) (hshort : text.length ≤ 1024) :
    Recovers 2 s₀ (readUndoData p) (some (p.content s₀.undoFile)) s₀ := by
  unfold readUndoData
  refine Recovers.bind (m := 1) (Recovers.call _ _) ?_ (by omega)
  simp only [hfile, Option.getD_some, if_true]
  rw [if_neg (by omega)]
  refine Recovers.bind (m := 0) (Recovers.call _ _) ?_ (by omega)
  simp only [hfile, if_true]
  exact Recovers.ret _ _

theorem recovers_restoreGlobalProfileToUndo {settings : Settings} (data : UndoData)
    (hsession : s₀.session = some settings) : Recovers 3 s₀ (restoreGlobalProfileToUndo p data) true
      { s₀ with session := some { settings with swapchain := data.restore settings.swapchain } } := by
  unfold restoreGlobalProfileToUndo
  refine Recovers.bind (m := 3) (Recovers.gets s₀ _) ?_ (by omega)
  rw [hsession]
  cases hswapchain : data.openglSwapchain with
  | none =>
    refine (Recovers.ret s₀ true).mono ?_ (by omega)
    rw [UndoData.restore, hswapchain, ← hsession]
  | some swapchain =>
    have hrestore : data.restore settings.swapchain =
        if settings.swapchain = some swapchain.ourValue then swapchain.undoValue else settings.swapchain := by
      rw [UndoData.restore, hswapchain]
    rw [hrestore]
    refine Recovers.bind (m := 2) (Recovers.attempt _ _) ?_ (by omega)
    refine Recovers.bind (m := 1) (Recovers.call _ _) ?_ (by omega)
    simp only [id, hsession, Option.bind_some, if_true]
    by_cases hours : settings.swapchain = some swapchain.ourValue
    · rw [if_pos (Platform.lookup_eq_own.mpr hours), if_pos hours]
      refine (Recovers.attempt _ _).mono ?_ (by omega)
      unfold onSession
      rw [hsession]
      rfl
    · rw [if_neg fun hlookup => hours (Platform.lookup_eq_own.mp hlookup), if_neg hours]
      refine (Recovers.ret s₀ true).mono ?_ (by omega)
      rw [← hsession]

/-- The state that a recovery leaves. -/
def recovered (p : Platform F) (s : Machine) : Machine :=
  { s with
    saved := setSwapchain ((p.content s.undoFile).restore s.saved.swapchain) s.saved
    undoFile := none }

theorem recovered_eq (hfile : s₀.undoFile = none) : recovered p s₀ = s₀ := by
  cases s₀
  simp only at hfile
  subst hfile
  rfl

theorem recovers_restoreFromFile {text : Str} (hfile : s₀.undoFile = some text) (hshort : text.length ≤ 1024)
    (hsession : s₀.session = some s₀.saved) : Recovers 6 s₀ (restoreFromFile p) true
      { s₀ with
        saved := setSwapchain ((p.content s₀.undoFile).restore s₀.saved.swapchain) s₀.saved
        session := some (setSwapchain ((p.content s₀.undoFile).restore s₀.saved.swapchain) s₀.saved) } := by
  unfold restoreFromFile
  refine Recovers.bind (m := 4) (recovers_readUndoData hfile hshort) ?_ (by omega)
  refine Recovers.bind (m := 1) (recovers_restoreGlobalProfileToUndo _ hsession) ?_ (by omega)
  unfold saveSettings
  refine Recovers.bind (m := 1) (Recovers.gets _ _) ?_ (by omega)
  exact Recovers.attempt _ _

theorem recovers_restoreFromAndDeleteUndoFileIfExists (hloaded : s₀.loaded = true) (hhandle : s₀.handle = none)
    (hlocked : s₀.locked = false) (hsession : s₀.session = some s₀.saved)
    (hshort : ∀ text ∈ s₀.undoFile, text.length ≤ 1024) :
    Recovers 8 s₀ (restoreFromAndDeleteUndoFileIfExists p) true
      { recovered p s₀ with session := some (recovered p s₀).saved } := by
  unfold restoreFromAndDeleteUndoFileIfExists
  refine Recovers.bind (m := 8) (Recovers.gets s₀ _) ?_ (by omega)
  rw [hloaded]
  refine Recovers.bind (m := 7) (Recovers.call _ _) ?_ (by omega)
  rw [if_neg (by simp [hlocked, hhandle])]
  cases hfile : s₀.undoFile with
  | none =>
    refine (Recovers.ret s₀ true).mono ?_ (by omega)
    rw [recovered_eq hfile, ← hsession]
  | some text =>
    refine Recovers.bind (m := 1) (recovers_restoreFromFile hfile (hshort text hfile) hsession) ?_ (by omega)
    refine (Recovers.attempt _ _).mono ?_ (by omega)
    simp only [Bool.not_true, Bool.or_false]
    rfl

theorem recovers_restoreNvprefsUndo (hs : Unloaded s₀) (hhandle : s₀.handle = none) (hlocked : s₀.locked = false)
    (hshort : ∀ text ∈ s₀.undoFile, text.length ≤ 1024) :
    Recovers 12 s₀ (restoreNvprefsUndo p) () (recovered p s₀) := by
  obtain ⟨hloaded, hsession⟩ := hs
  unfold restoreNvprefsUndo
  refine Recovers.bind (m := 8) (recovers_load ⟨hloaded, hsession⟩) ?_ (by omega)
  refine Recovers.bind (m := 0) (recovers_restoreFromAndDeleteUndoFileIfExists rfl hhandle hlocked rfl hshort) ?_
    (by omega)
  refine (Recovers.modify _ _).mono ?_ (by omega)
  show { recovered p s₀ with session := none, loaded := false } = _
  unfold recovered
  simp only [hloaded, hsession]

end Recovers

/-! ### Runs -/

/-- The user chooses another value than ours. -/
def Foreign (p : Platform F) (_ : Machine) : Op → Prop
  | .choose value => value ≠ some p.preferEnabled
  | _ => True

instance (s : Machine) : (op : Op) → Decidable (Foreign p s op)
  | .choose value => inferInstanceAs (Decidable (value ≠ some p.preferEnabled))
  | .start _ _ | .streamingWillStart _ _ | .exit _ _ | .kill | .restoreUndo _ => instDecidableTrue

namespace Machine

variable {s t : Machine}

/-- A machine on which Sunshine has never run. -/
def fresh (p : Platform F) (saved : Settings) : Machine := { saved, user := p.effective saved.swapchain }

def Inv (p : Platform F) (s : Machine) : Prop := Kept p none Unloaded s

theorem inv_fresh (saved : Settings) : (fresh p saved).Inv p := fun _ =>
  ⟨⟨Platform.undoes_empty rfl, nofun, nofun, nofun⟩, rfl, rfl⟩

theorem Inv.killed {X : Machine → Prop} (h : Kept p none X s) : s.kill.Inv p := by
  intro habandoned
  obtain ⟨hsafe, -⟩ := h habandoned
  exact ⟨⟨hsafe.file, hsafe.short, nofun, nofun⟩, rfl, rfl⟩

theorem Inv.after (h : s.Inv p) {prog : NvProg Unit} (hprog : Keeps p none Unloaded prog fun _ => Unloaded)
    (replies : List Reply) : (s.after prog replies).Inv p := by
  have hrun := hprog replies s h
  unfold Machine.after
  cases hreplies : prog replies s with
  | done a rest t =>
    rw [hreplies] at hrun
    exact hrun
  | killed t =>
    rw [hreplies] at hrun
    exact Inv.killed hrun

theorem Inv.aside (h : s.Inv p) (replies : List Reply) : (s.aside (restoreNvprefsUndo p) replies).Inv p := by
  have hpre : Kept p s.undoData (fun s => s.handle = none ∧ Unloaded s)
      { s.kill with locked := s.handle = some true } := by
    intro habandoned
    obtain ⟨hsafe, -⟩ := h habandoned
    exact ⟨⟨hsafe.file, hsafe.short, nofun, hsafe.memory⟩, rfl, rfl, rfl⟩
  intro habandoned
  obtain ⟨hbefore, habandoned⟩ := Bool.or_eq_false_iff.mp habandoned
  obtain ⟨hsafe, -⟩ := keeps_restoreNvprefsUndo.state hpre habandoned
  exact ⟨⟨hsafe.file, hsafe.short, hsafe.held, nofun⟩, (h hbefore).2⟩

theorem inv_step (hp : p.Lawful) {op : Op} (h : s.Inv p) (hG : Foreign p s op) (hst : s.step p op = some t) :
    t.Inv p := by
  cases op with
  | start opts replies =>
    simp only [step] at hst
    split at hst
    · cases hst
    · obtain rfl := Option.some.inj hst
      have hkill : { s.kill with running := true }.Inv p := by
        intro habandoned
        obtain ⟨hsafe, hunloaded⟩ := Inv.killed h habandoned
        exact ⟨⟨hsafe.file, hsafe.short, hsafe.memory, hsafe.held⟩, hunloaded⟩
      exact hkill.after (keeps_prepare hp) replies
  | streamingWillStart opts replies =>
    simp only [step] at hst
    split at hst
    · obtain rfl := Option.some.inj hst
      exact h.after (keeps_prepare hp) replies
    · cases hst
  | exit atEnd replies =>
    simp only [step] at hst
    split at hst
    · obtain rfl := Option.some.inj hst
      exact Inv.killed (h.after (keeps_leave atEnd) replies)
    · cases hst
  | kill =>
    simp only [step] at hst
    split at hst
    · obtain rfl := Option.some.inj hst
      exact Inv.killed h
    · cases hst
  | restoreUndo replies =>
    obtain rfl := Option.some.inj hst
    exact h.aside replies
  | choose value =>
    obtain rfl := Option.some.inj hst
    intro habandoned
    obtain ⟨hsafe, hunloaded⟩ := h habandoned
    exact ⟨⟨hsafe.file.choose hG, hsafe.short, fun d hd => (hsafe.memory d hd).choose hG, nofun⟩, hunloaded⟩

/-- **No setting of the user's is lost.**  However often Sunshine was started, killed at any call, ended, or found its
calls failing, and whatever else the user chose in between: unless an undo file was deleted that was not restored from,
the command `--restore-nvprefs-undo` brings back what the user chose last, and no undo file stays. -/
theorem restoreUndo_recovers (hp : p.Lawful) {saved : Settings} {ops : List Op}
    (h : Run (Guarded (ofPartial (step p)) (Foreign p)) (fresh p saved) ops s) (hkept : s.abandoned = false)
    {replies : List Reply} (hok : ∀ e ∈ replies, e = .ok) (hlength : 12 ≤ replies.length) :
    ∃ t, s.kill.step p (.restoreUndo replies) = some t ∧ p.effective t.saved.swapchain = s.user ∧
      t.undoFile = none := by
  have hinv : s.Inv p := h.invariant_where (fun _ _ _ hs hG hst => inv_step hp hs hG hst) (inv_fresh saved)
  obtain ⟨hsafe, -⟩ := hinv hkept
  refine ⟨_, rfl, ?_⟩
  let other : Machine := { s.kill with locked := s.kill.handle = some true }
  have hunloaded : Unloaded other := ⟨rfl, rfl⟩
  obtain ⟨_, rest, t, hrun, ⟨-, ht⟩, -⟩ :=
    recovers_restoreNvprefsUndo hunloaded rfl rfl hsafe.short replies other rfl hok hlength
  unfold Machine.aside
  rw [show s.kill.kill = s.kill from rfl, hrun, ht]
  exact ⟨hsafe.file.restores, rfl⟩

end Machine

/-- Sunshine is killed while it runs. -/
theorem restoreUndo_recovers_killed : ∃ s t : Machine, s.saved.swapchain = some 2 ∧
    s.step driver (.restoreUndo (List.replicate 12 .ok)) = some t ∧ driver.effective t.saved.swapchain = some 5 ∧
      t.undoFile = none := by
  obtain ⟨s, hrun, hsaved, huser, hkept⟩ := exists_run_execWhere_and (f := Machine.step driver) (G := Foreign driver)
    (s := Machine.fresh driver {}) (l := [.start {} (List.replicate 40 .ok)])
    (P := fun s => s.saved.swapchain = some 2 ∧ s.user = some 5 ∧ s.abandoned = false) (by decide +kernel)
  have hreplies : ∀ e ∈ List.replicate 12 Reply.ok, e = .ok := fun e he => List.eq_of_mem_replicate he
  obtain ⟨t, ht, heffective, hfile⟩ :=
    Machine.restoreUndo_recovers driver_lawful hrun hkept hreplies (by rw [List.length_replicate])
  exact ⟨s.kill, t, hsaved, ht, heffective.trans huser, hfile⟩

end MidnightSun.NvPrefs
