import MidnightSun.NvPrefs.UndoData

/-!
# What the programs of the driver settings keep

The undo file is written before the driver saves our value, and it is deleted after the driver has saved the user's.  So
each program keeps `Safe`, wherever it is killed: the setting is the user's, or the undo file has it.
-/

namespace MidnightSun.NvPrefs

open Lib Lib.Crash Nlohmann Util

variable {F : Type} {p : Platform F}

/-! ### What holds at any time -/

/-- The undo data of a file, if there is one. -/
def Platform.content (p : Platform F) (file : Option Str) : UndoData := (file.map (UndoData.read p)).getD {}

/-- The undo file brings back the user's setting, and so do the undo data that Sunshine and another process hold. -/
structure Safe (p : Platform F) (held : Option UndoData) (s : Machine) : Prop where
  file : p.Undoes (p.content s.undoFile) s.saved.swapchain s.user
  short : ∀ text ∈ s.undoFile, text.length ≤ 1024
  memory : ∀ data ∈ s.undoData, p.Undoes data s.saved.swapchain s.user
  held : ∀ data ∈ held, p.Undoes data s.saved.swapchain s.user

/-- Unless a file was abandoned. -/
def Kept (p : Platform F) (held : Option UndoData) (X : Machine → Prop) (s : Machine) : Prop :=
  s.abandoned = false → Safe p held s ∧ X s

/-- A session is as it was loaded. -/
def Synced (s : Machine) : Prop := ∀ settings ∈ s.session, settings.swapchain = s.saved.swapchain

/-- A session is as it was loaded, or these data were applied to it. -/
def Applied (p : Platform F) (data : UndoData) (s : Machine) : Prop :=
  ∀ settings ∈ s.session, settings.swapchain = s.saved.swapchain ∨
    p.Undoes data s.saved.swapchain s.user ∧ settings.swapchain = data.restore s.saved.swapchain

/-- A session is as it was loaded, or it was restored and could not be saved; then there is a file of an earlier
process. -/
def Loaded (p : Platform F) (s : Machine) : Prop :=
  s.loaded = true ∧ (Synced s ∨ s.handle = none ∧ s.undoFile ≠ none ∧ ∃ data, Applied p data s)

def Unloaded (s : Machine) : Prop := s.loaded = false ∧ s.session = none

section Steps

variable {held : Option UndoData} {s : Machine} {data : UndoData}

theorem applied_restore (h : p.Undoes data s.saved.swapchain s.user)
    (hsession : ∀ settings ∈ s.session, settings.swapchain = data.restore s.saved.swapchain) : Applied p data s :=
  fun settings hsettings => Or.inr ⟨h, hsession settings hsettings⟩

theorem Safe.save (h : Safe p held s) (hdata : Applied p data s) : Safe p held s.save := by
  unfold Machine.save
  cases hsession : s.session with
  | none => exact ⟨h.file, h.short, h.memory, h.held⟩
  | some settings =>
    have hundoes : ∀ d, p.Undoes d s.saved.swapchain s.user → p.Undoes d settings.swapchain s.user := by
      intro d hd
      rcases hdata settings hsession with heq | ⟨hundoes, heq⟩
      · rwa [heq]
      · rw [heq]
        exact hd.after hundoes
    exact ⟨hundoes _ h.file, h.short, fun d hd => hundoes d (h.memory d hd), fun d hd => hundoes d (h.held d hd)⟩

theorem synced_save (s : Machine) : Synced s.save := by
  intro settings hsettings
  have hsession : s.session = some settings := hsettings
  show settings.swapchain = (s.session.getD s.saved).swapchain
  rw [hsession, Option.getD_some]

/-- The application profile is another matter. -/
theorem loaded_onSession_setProfile (h : Loaded p s) (profile : Option AppProfile) :
    Loaded p (onSession (setProfile profile) s) := by
  obtain ⟨hloaded, hsession⟩ := h
  have hmap : ∀ settings ∈ (onSession (setProfile profile) s).session, ∃ settings' ∈ s.session,
      settings.swapchain = settings'.swapchain := by
    intro settings hsettings
    obtain ⟨settings', hsettings', rfl⟩ := Option.map_eq_some_iff.mp hsettings
    exact ⟨settings', hsettings', rfl⟩
  refine ⟨hloaded, ?_⟩
  rcases hsession with hsynced | ⟨hhandle, hfile, data, hdata⟩
  · left
    intro settings hsettings
    obtain ⟨settings', hsettings', heq⟩ := hmap settings hsettings
    rw [heq]
    exact hsynced settings' hsettings'
  · right
    refine ⟨hhandle, hfile, data, fun settings hsettings => ?_⟩
    obtain ⟨settings', hsettings', heq⟩ := hmap settings hsettings
    rw [heq]
    exact hdata settings' hsettings'

end Steps

/-! ### What each program keeps -/

/-- The program keeps what is safe, wherever it is killed, and leads from `X` to `Y`. -/
abbrev Keeps {α : Type} (p : Platform F) (held : Option UndoData) (X : Machine → Prop) (prog : NvProg α)
    (Y : α → Machine → Prop) : Prop :=
  Triple (Kept p held X) prog (fun a => Kept p held (Y a)) (Kept p held fun _ => True)

namespace Keeps

variable {α β : Type} {held : Option UndoData} {X X' : Machine → Prop} {Y : α → Machine → Prop}

theorem pre {prog : NvProg α} (h : Keeps p held X prog Y) (hX : ∀ s, Safe p held s → X' s → X s) :
    Keeps p held X' prog Y :=
  Triple.conseq h (fun s hs habandoned => ⟨(hs habandoned).1, hX s (hs habandoned).1 (hs habandoned).2⟩)
    fun _ _ hs => hs

theorem post {Y' : α → Machine → Prop} {prog : NvProg α} (h : Keeps p held X prog Y) (hY : ∀ a s, Y a s → Y' a s) :
    Keeps p held X prog Y' :=
  Triple.conseq h (fun _ hs => hs) fun a s hs habandoned => ⟨(hs habandoned).1, hY a s (hs habandoned).2⟩

theorem ret (a : α) (h : ∀ s, X s → Y a s) : Keeps p held X (pure a) Y :=
  Triple.ret a fun s hs habandoned => ⟨(hs habandoned).1, h s (hs habandoned).2⟩

theorem gets {f : Machine → α} (h : ∀ s, X s → Y (f s) s) : Keeps p held X (Prog.gets f) Y :=
  Triple.gets fun s hs habandoned => ⟨(hs habandoned).1, h s (hs habandoned).2⟩

theorem call {f : Reply → Machine → α × Machine} (hf : ∀ e s, (f e s).2.abandoned = s.abandoned)
    (h : ∀ e s, Safe p held s → X s → Safe p held (f e s).2 ∧ Y (f e s).1 (f e s).2) :
    Keeps p held X (Prog.call f) Y := by
  refine Triple.call (fun s hs habandoned => ⟨(hs habandoned).1, trivial⟩) fun e s hs habandoned => ?_
  rw [hf] at habandoned
  exact h e s (hs habandoned).1 (hs habandoned).2

theorem attempt {Y : Bool → Machine → Prop} {f : Machine → Machine} (hf : ∀ s, (f s).abandoned = s.abandoned)
    (hok : ∀ s, Safe p held s → X s → Safe p held (f s) ∧ Y true (f s)) (hfail : ∀ s, X s → Y false s) :
    Keeps p held X (attempt f) Y := by
  refine call (fun e s => ?_) fun e s hsafe hs => ?_
  · split
    · exact hf s
    · rfl
  · split
    · exact hok s hsafe hs
    · exact ⟨hsafe, hfail s hs⟩

theorem attempt_id : Keeps p held X (NvPrefs.attempt id) fun _ => X :=
  attempt (fun _ => rfl) (fun _ hsafe hs => ⟨hsafe, hs⟩) fun _ hs => hs

theorem modify {Y : Unit → Machine → Prop} {f : Machine → Machine} (hf : ∀ s, (f s).abandoned = s.abandoned)
    (h : ∀ s, Safe p held s → X s → Safe p held (f s) ∧ Y () (f s)) : Keeps p held X (Prog.modify f) Y := by
  refine Triple.modify fun s hs habandoned => ?_
  rw [hf] at habandoned
  exact h s (hs habandoned).1 (hs habandoned).2

end Keeps

section Programs

variable {held : Option UndoData} {opts : Options} {data : UndoData}

theorem keeps_loadSettings (loaded : Bool) {R : Machine → Prop}
    (hR : ∀ s session loaded, R s → R { s with session, loaded }) :
    Keeps p held (fun s => R s ∧ s.loaded = loaded) loadSettings
      fun r s => R s ∧ s.loaded = loaded ∧ Synced s ∧ (r = false → s.session = none) := by
  unfold loadSettings
  refine Triple.bind (Keeps.gets (Y := fun session s => R s ∧ s.loaded = loaded ∧ s.session = session)
    fun s hs => ⟨hs.1, hs.2, rfl⟩) fun session => ?_
  refine Triple.cond (fun hnone => Keeps.ret _ fun s hs => ?_) fun _ => ?_
  · have hsession : s.session = none := hs.2.2.trans (Option.isNone_iff_eq_none.mp hnone)
    exact ⟨hs.1, hs.2.1, by rw [Synced, hsession]; nofun, fun _ => hsession⟩
  refine Triple.bind (Keeps.attempt (Y := fun r s => R s ∧ s.loaded = loaded ∧ (r = true → Synced s)) (fun _ => rfl)
    (fun s hsafe hs => ⟨⟨hsafe.file, hsafe.short, hsafe.memory, hsafe.held⟩, hR s _ _ hs.1, hs.2.1,
      fun _ settings hsettings => ?_⟩) fun s hs => ⟨hs.1, hs.2.1, nofun⟩) fun r => ?_
  · obtain rfl := Option.some.inj hsettings
    rfl
  refine Triple.cond (fun hr => Keeps.ret _ fun s hs => ⟨hs.1, hs.2.1, hs.2.2 hr, nofun⟩) fun _ => ?_
  exact Triple.bind (Keeps.modify (Y := fun _ s => R s ∧ s.loaded = loaded ∧ s.session = none) (fun _ => rfl)
    fun s hsafe hs => ⟨⟨hsafe.file, hsafe.short, hsafe.memory, hsafe.held⟩, hR s _ _ hs.1, hs.2.1, rfl⟩) fun _ =>
      Keeps.ret _ fun s hs => ⟨hs.1, hs.2.1, by rw [Synced, hs.2.2]; nofun, fun _ => hs.2.2⟩

theorem keeps_init {R : Machine → Prop} (hR : ∀ s session loaded, R s → R { s with session, loaded }) :
    Keeps p held (fun s => R s ∧ Unloaded s) init
      fun r s => R s ∧ s.loaded = false ∧ Synced s ∧ (r = false → s.session = none) := by
  unfold init
  refine Triple.bind (Keeps.gets (Y := fun session s => session = none ∧ R s ∧ Unloaded s) fun s hs => ⟨hs.2.2, hs⟩)
    fun session => ?_
  refine Triple.cond (fun hsome => Keeps.ret _ fun s hs => ?_) fun _ => ?_
  · rw [hs.1] at hsome
    cases hsome
  refine Triple.bind (Keeps.attempt_id.pre fun s _ hs => hs.2) fun r => ?_
  refine Triple.cond (fun _ => Keeps.ret _ fun s hs => ⟨hs.1, hs.2.1, by rw [Synced, hs.2.2]; nofun, fun _ => hs.2.2⟩)
    fun _ => ?_
  refine Triple.bind (Keeps.attempt (Y := fun r s => R s ∧ s.loaded = false ∧ (r = false → s.session = none))
    (fun _ => rfl) (fun s hsafe hs => ⟨⟨hsafe.file, hsafe.short, hsafe.memory, hsafe.held⟩, hR s _ _ hs.1, hs.2.1,
      nofun⟩) fun s hs => ⟨hs.1, hs.2.1, fun _ => hs.2.2⟩) fun r => ?_
  refine Triple.cond (fun hr => Keeps.ret _ fun s hs => ?_) fun _ =>
    (keeps_loadSettings false hR).pre fun s _ hs => ⟨hs.1, hs.2.1⟩
  have hsession := hs.2.2 (by simpa using hr)
  exact ⟨hs.1, hs.2.1, by rw [Synced, hsession]; nofun, fun _ => hsession⟩

theorem keeps_load {R : Machine → Prop} (hR : ∀ s session loaded, R s → R { s with session, loaded }) :
    Keeps p held (fun s => R s ∧ Unloaded s) load
      fun r s => R s ∧ if r then s.loaded = true ∧ Synced s else Unloaded s := by
  unfold load
  refine Triple.bind (Keeps.gets (Y := fun loaded s => loaded = false ∧ R s ∧ Unloaded s) fun s hs => ⟨hs.2.1, hs⟩)
    fun loaded => ?_
  refine Triple.cond (fun htrue => Keeps.ret _ fun s hs => ?_) fun _ => ?_
  · rw [hs.1] at htrue
    cases htrue
  refine Triple.bind (Keeps.attempt_id.pre fun s _ hs => hs.2) fun r => ?_
  refine Triple.cond (fun _ => Keeps.ret _ fun s hs => ⟨hs.1, by rw [if_neg nofun]; exact hs.2⟩) fun _ => ?_
  refine Triple.bind (keeps_init hR) fun loaded => ?_
  refine Triple.bind (Keeps.modify (Y := fun _ s => R s ∧ if loaded then s.loaded = true ∧ Synced s else Unloaded s)
    (fun _ => rfl) fun s hsafe hs => ⟨⟨hsafe.file, hsafe.short, hsafe.memory, hsafe.held⟩, hR s _ _ hs.1, ?_⟩)
    fun _ => Keeps.ret _ fun s hs => hs
  cases loaded with
  | true => exact ⟨rfl, hs.2.2.1⟩
  | false => exact ⟨rfl, hs.2.2.2 rfl⟩

/-- What comes after `load`, or not. -/
theorem keeps_bind_load {α : Type} {R : Machine → Prop} (hR : ∀ s session loaded, R s → R { s with session, loaded })
    {prog : NvProg α} {a : α} {Y : α → Machine → Prop} (hfail : ∀ s, Unloaded s → Y a s)
    (hprog : Keeps p held (fun s => R s ∧ s.loaded = true ∧ Synced s) prog Y) :
    Keeps p held (fun s => R s ∧ Unloaded s) (load >>= fun r => if !r then pure a else prog) Y := by
  refine Triple.bind (keeps_load hR) fun r => ?_
  cases r with
  | true => exact hprog
  | false => exact Keeps.ret a fun s hs => hfail s hs.2

theorem keeps_saveSettings {X : Machine → Prop} {Y : Bool → Machine → Prop}
    (hok : ∀ s settings, s.session = some settings → Safe p held s → X s → Safe p held s.save ∧ Y true s.save)
    (hfail : ∀ s, X s → Y false s) : Keeps p held X saveSettings Y := by
  unfold saveSettings
  refine Triple.bind (Keeps.gets (Y := fun session s => s.session = session ∧ X s) fun _ hs => ⟨rfl, hs⟩)
    fun session => ?_
  refine Triple.cond (fun _ => Keeps.ret _ fun s hs => hfail s hs.2) fun hsome =>
    Keeps.attempt (fun _ => rfl) (fun s hsafe hs => ?_) fun s hs => hfail s hs.2
  cases session with
  | none => exact absurd rfl hsome
  | some settings => exact hok s settings hs.1 hsafe hs.2

/-- The data are applied to the session, or it stays. -/
theorem keeps_restoreGlobalProfileToUndo (data : UndoData) {X : Machine → Prop} (hX : ∀ s f, X s → X (onSession f s)) :
    Keeps p held (fun s => X s ∧ Synced s ∧ p.Undoes data s.saved.swapchain s.user) (restoreGlobalProfileToUndo p data)
      fun r s => X s ∧ p.Undoes data s.saved.swapchain s.user ∧
        if r then ∀ settings ∈ s.session, settings.swapchain = data.restore s.saved.swapchain else Synced s := by
  unfold restoreGlobalProfileToUndo
  refine Triple.bind (Keeps.gets (Y := fun session s => s.session = session ∧ X s ∧ Synced s ∧
    p.Undoes data s.saved.swapchain s.user) fun s hs => ⟨rfl, hs⟩) fun session => ?_
  refine Triple.cond (fun _ => Keeps.ret _ fun s hs => ⟨hs.2.1, hs.2.2.2, hs.2.2.1⟩) fun _ => ?_
  cases hswapchain : data.openglSwapchain with
  | none =>
    refine Keeps.ret _ fun s hs => ⟨hs.2.1, hs.2.2.2, fun settings hsettings => ?_⟩
    rw [hs.2.2.1 settings hsettings, UndoData.restore, hswapchain]
  | some swapchain =>
    have hrestore : ∀ value, data.restore value =
        if value = some swapchain.ourValue then swapchain.undoValue else value := by
      intro value
      rw [UndoData.restore, hswapchain]
    refine Triple.bind Keeps.attempt_id fun r => ?_
    refine Triple.cond (fun _ => Keeps.ret _ fun s hs => ⟨hs.2.1, hs.2.2.2, hs.2.2.1⟩) fun _ => ?_
    refine Triple.bind (Keeps.call (Y := fun found s => (X s ∧ Synced s ∧ p.Undoes data s.saved.swapchain s.user) ∧
      ∀ setting ∈ found, setting = p.lookup (s.session.bind Settings.swapchain)) (fun _ _ => rfl)
      fun e s hsafe hs => ⟨hsafe, hs.2, ?_⟩) fun found => ?_
    · intro setting hsetting
      split at hsetting
      · exact (Option.some.inj hsetting).symm
      · cases hsetting
    cases found with
    | none => exact Keeps.ret _ fun s hs => ⟨hs.1.1, hs.1.2.2, hs.1.2.1⟩
    | some setting =>
      refine Triple.cond (fun hours => ?_) fun hother => Keeps.ret _ fun s hs => ⟨hs.1.1, hs.1.2.2, ?_⟩
      · refine Keeps.attempt (fun _ => rfl) (fun s hsafe hs => ⟨⟨hsafe.file, hsafe.short, hsafe.memory, hsafe.held⟩,
          hX s _ hs.1.1, hs.1.2.2, fun settings hsettings => ?_⟩) fun s hs => ⟨hs.1.1, hs.1.2.2, hs.1.2.1⟩
        obtain ⟨settings', hsettings', rfl⟩ := Option.map_eq_some_iff.mp hsettings
        have hlookup := Platform.lookup_eq_own.mp ((hs.2 setting rfl).symm.trans hours)
        rw [hsettings', Option.bind_some] at hlookup
        have hsaved : s.saved.swapchain = some swapchain.ourValue :=
          (hs.1.2.1 settings' hsettings').symm.trans hlookup
        show swapchain.undoValue = data.restore s.saved.swapchain
        rw [hrestore, if_pos hsaved]
      · intro settings hsettings
        rw [hs.1.2.1 settings hsettings, hrestore, if_neg]
        intro hsaved
        apply hother
        rw [hs.2 setting rfl, hsettings, Option.bind_some, hs.1.2.1 settings hsettings]
        exact Platform.lookup_eq_own.mpr hsaved

theorem keeps_openExistingFile {X : Machine → Prop} :
    Keeps p held X openExistingFile fun r s => X s ∧ (r.1 = true → s.undoFile ≠ none) := by
  refine Keeps.call (fun e s => ?_) fun e s hsafe hs => ?_
  · split <;> rfl
  · split
    · exact ⟨hsafe, hs, nofun⟩
    · exact ⟨hsafe, hs, fun hsome => Option.isSome_iff_ne_none.mp hsome⟩

/-- What is read are the data of the file. -/
theorem keeps_readUndoData {X : Machine → Prop} :
    Keeps p held X (readUndoData p) fun r s => X s ∧ ∀ d ∈ r, d = p.content s.undoFile := by
  unfold readUndoData
  refine Triple.bind (Keeps.call (Y := fun _ => X) (fun _ _ => rfl) fun _ s hsafe hs => ⟨hsafe, hs⟩) fun size => ?_
  cases size with
  | none => exact Keeps.ret _ fun s hs => ⟨hs, nofun⟩
  | some n =>
    refine Triple.cond (fun _ => Keeps.ret _ fun s hs => ⟨hs, nofun⟩) fun _ => ?_
    refine Triple.bind (Keeps.call (Y := fun text s => X s ∧ ∀ t ∈ text, s.undoFile = some t) (fun _ _ => rfl)
      fun e s hsafe hs => ⟨hsafe, hs, ?_⟩) fun text => Keeps.ret _ fun s hs => ⟨hs.1, ?_⟩
    · intro t ht
      split at ht
      · exact ht
      · cases ht
    · intro d hd
      obtain ⟨t, ht, rfl⟩ := Option.map_eq_some_iff.mp hd
      rw [hs.2 t ht]
      rfl

/-- There is an undo file of an earlier process. -/
def Found (s : Machine) : Prop := s.loaded = true ∧ s.handle = none ∧ s.undoFile ≠ none

theorem keeps_restoreFromFile : Keeps p held (fun s => Found s ∧ Synced s) (restoreFromFile p)
    fun r s => if r then s.loaded = true ∧ Synced s ∧ p.effective s.saved.swapchain = s.user else Loaded p s := by
  unfold restoreFromFile
  refine Triple.bind keeps_readUndoData fun data => ?_
  cases data with
  | none => exact Keeps.ret _ fun s hs => ⟨hs.1.1.1, Or.inl hs.1.2⟩
  | some data =>
    refine Triple.bind ((keeps_restoreGlobalProfileToUndo data fun s f (hs : Found s) => hs).pre
      fun s hsafe hs => ⟨hs.1.1, hs.1.2, hs.2 data rfl ▸ hsafe.file⟩) fun r => ?_
    refine Triple.cond (fun hr => Keeps.ret _ fun s hs => ⟨hs.1.1, Or.inl ?_⟩) fun hr => ?_
    · rw [Bool.not_eq_true'] at hr
      subst hr
      exact hs.2.2
    obtain rfl : r = true := by simpa using hr
    refine keeps_saveSettings (fun s settings hsession hsafe hs => ⟨hsafe.save (applied_restore hs.2.1 hs.2.2), hs.1.1,
      synced_save s, ?_⟩) fun s hs => ⟨hs.1.1, Or.inr ⟨hs.1.2.1, hs.1.2.2, data, applied_restore hs.2.1 hs.2.2⟩⟩
    show p.effective (s.session.getD s.saved).swapchain = s.user
    rw [hsession, Option.getD_some, hs.2.2 settings hsession]
    exact hs.2.1.restores

/-- The file is deleted after it was restored from, or else it is abandoned. -/
theorem keeps_deleteUndoFile (restored : Bool) : Keeps p held
    (fun s => if restored then s.loaded = true ∧ Synced s ∧ p.effective s.saved.swapchain = s.user else Loaded p s)
    (deleteUndoFile restored) fun _ => Loaded p := by
  refine Triple.call (fun s hs habandoned => ⟨(hs habandoned).1, trivial⟩) fun e s hs => ?_
  split
  · intro habandoned
    cases restored with
    | true =>
      obtain ⟨hsafe, hloaded, hsynced, heffective⟩ := hs ((Bool.or_eq_false_iff.mp habandoned).1)
      exact ⟨⟨Platform.undoes_empty heffective, nofun, hsafe.memory, hsafe.held⟩, hloaded, Or.inl hsynced⟩
    | false => exact absurd (Bool.or_eq_false_iff.mp habandoned).2 nofun
  · intro habandoned
    obtain ⟨hsafe, hs⟩ := hs habandoned
    cases restored with
    | true => exact ⟨hsafe, hs.1, Or.inl hs.2.1⟩
    | false => exact ⟨hsafe, hs⟩

theorem keeps_restoreFromAndDeleteUndoFileIfExists :
    Keeps p held (fun s => s.loaded = true ∧ s.handle = none ∧ Synced s) (restoreFromAndDeleteUndoFileIfExists p)
      fun _ => Loaded p := by
  unfold restoreFromAndDeleteUndoFileIfExists
  refine Triple.bind (Keeps.gets (Y := fun _ s => s.loaded = true ∧ s.handle = none ∧ Synced s) fun _ hs => hs)
    fun loaded => ?_
  refine Triple.cond (fun _ => Keeps.ret _ fun s hs => ⟨hs.1, Or.inl hs.2.2⟩) fun _ => ?_
  refine Triple.bind keeps_openExistingFile fun r => ?_
  obtain ⟨opened, accessDenied⟩ := r
  refine Triple.cond (fun hopened => ?_) fun _ => Keeps.ret _ fun s hs => ⟨hs.1.1, Or.inl hs.1.2.2⟩
  exact Triple.bind (keeps_restoreFromFile.pre fun s _ hs => ⟨⟨hs.1.1, hs.1.2.1, hs.2 hopened⟩, hs.1.2.2⟩)
    keeps_deleteUndoFile

/-! ### The application profile -/

theorem keeps_setProfile (profile : Option AppProfile) :
    Keeps p held (Loaded p) (attempt (onSession (setProfile profile))) fun _ => Loaded p :=
  Keeps.attempt (fun _ => rfl) (fun _ hsafe hs =>
    ⟨⟨hsafe.file, hsafe.short, hsafe.memory, hsafe.held⟩, loaded_onSession_setProfile hs profile⟩) fun _ hs => hs

theorem keeps_findOrCreateProfile : Keeps p held (Loaded p) findOrCreateProfile fun _ => Loaded p := by
  unfold findOrCreateProfile
  refine Triple.bind (Keeps.call (Y := fun _ => Loaded p) (fun _ _ => rfl) fun _ s hsafe hs => ⟨hsafe, hs⟩)
    fun found => ?_
  refine Triple.cond (fun _ => Keeps.ret _ fun _ hs => hs) fun _ => ?_
  refine Triple.bind (Keeps.call (Y := fun _ => Loaded p) (fun e s => ?_) fun e s hsafe hs => ?_)
    fun created => Keeps.ret _ fun _ hs => hs
  · split <;> rfl
  · split
    · exact ⟨⟨hsafe.file, hsafe.short, hsafe.memory, hsafe.held⟩, loaded_onSession_setProfile hs _⟩
    · exact ⟨hsafe, hs⟩

theorem keeps_findOrCreateApplication : Keeps p held (Loaded p) findOrCreateApplication fun _ => Loaded p := by
  unfold findOrCreateApplication
  refine Triple.bind (Keeps.gets (Y := fun _ => Loaded p) fun _ hs => hs) fun profile => ?_
  refine Triple.bind (Keeps.call (Y := fun _ => Loaded p) (fun _ _ => rfl) fun _ s hsafe hs => ⟨hsafe, hs⟩)
    fun found => ?_
  refine Triple.cond (fun _ => Keeps.ret _ fun _ hs => hs) fun _ => ?_
  exact Triple.bind (keeps_setProfile _) fun _ => Keeps.ret _ fun _ hs => hs

theorem keeps_checkAndModifyApplicationProfile :
    Keeps p held (Loaded p) (checkAndModifyApplicationProfile p opts) fun _ => Loaded p := by
  unfold checkAndModifyApplicationProfile
  refine Triple.bind (Keeps.gets (Y := fun _ => Loaded p) fun _ hs => hs) fun session => ?_
  refine Triple.cond (fun _ => Keeps.ret _ fun _ hs => hs) fun _ => ?_
  refine Triple.bind keeps_findOrCreateProfile fun r => ?_
  obtain ⟨found, created⟩ := r
  refine Triple.cond (fun _ => Keeps.ret _ fun _ hs => hs) fun _ => ?_
  refine Triple.bind keeps_findOrCreateApplication fun r => ?_
  obtain ⟨found', added⟩ := r
  refine Triple.cond (fun _ => Keeps.ret _ fun _ hs => hs) fun _ => ?_
  refine Triple.bind (Keeps.gets (Y := fun _ => Loaded p) fun _ hs => hs) fun profile => ?_
  refine Triple.bind (Keeps.call (Y := fun _ => Loaded p) (fun _ _ => rfl) fun _ s hsafe hs => ⟨hsafe, hs⟩)
    fun own => ?_
  refine Triple.cond (fun _ => Triple.cond (fun _ => ?_) fun _ => Keeps.ret _ fun _ hs => hs) fun _ =>
    Triple.cond (fun _ => ?_) fun _ => Keeps.ret _ fun _ hs => hs
  · exact Triple.bind (keeps_setProfile _) fun _ => Keeps.ret _ fun _ hs => hs
  · exact Triple.bind (keeps_setProfile _) fun _ => Keeps.ret _ fun _ hs => hs

theorem keeps_modifyApplicationProfile :
    Keeps p held (Loaded p) (modifyApplicationProfile p opts) fun _ => Loaded p := by
  unfold modifyApplicationProfile
  refine Triple.bind (Keeps.gets (Y := fun _ => Loaded p) fun _ hs => hs) fun loaded => ?_
  refine Triple.cond (fun _ => Keeps.ret _ fun _ hs => hs) fun _ => ?_
  refine Triple.bind keeps_checkAndModifyApplicationProfile fun r => ?_
  obtain ⟨done, modified⟩ := r
  refine Triple.cond (fun _ => Keeps.ret _ fun _ hs => hs) fun _ => ?_
  refine Triple.cond (fun _ => ?_) fun _ => Keeps.ret _ fun _ hs => hs
  -- the session is saved with what was restored and could not be saved before
  refine keeps_saveSettings (fun s settings _ hsafe hs => ⟨?_, hs.1, Or.inl (synced_save s)⟩) fun _ hs => hs
  rcases hs.2 with hsynced | ⟨-, -, data, hdata⟩
  · have happlied : Applied p {} s := fun settings hsettings => Or.inl (hsynced settings hsettings)
    exact hsafe.save happlied
  · exact hsafe.save hdata

/-! ### The global profile -/

/-- The session has our value, and these are the data that undo it. -/
structure Modified (p : Platform F) (data : UndoData) (s : Machine) : Prop where
  loaded : s.loaded = true
  session : ∀ settings ∈ s.session, settings.swapchain = some p.preferEnabled
  data : ∃ undo, data = { openglSwapchain := some { ourValue := p.preferEnabled, undoValue := undo } } ∧
    undo ≠ some p.preferEnabled

/-- What is saved is not our value, and the data bring it back. -/
def Fresh (p : Platform F) (data : UndoData) (s : Machine) : Prop :=
  s.saved.swapchain ≠ some p.preferEnabled ∧
    data.restore (some p.preferEnabled) = p.effective s.saved.swapchain

theorem Modified.restore {s : Machine} (h : Modified p data s) :
    data.openglSwapchain ≠ none ∧ data.restore (some p.preferEnabled) ≠ some p.preferEnabled := by
  obtain ⟨undo, rfl, hundo⟩ := h.data
  refine ⟨nofun, ?_⟩
  simpa [UndoData.restore] using hundo

theorem Modified.undoes {s : Machine} (h : Modified p data s) (hsafe : Safe p held s) (hfresh : Fresh p data s) :
    p.Undoes data s.saved.swapchain s.user := by
  obtain ⟨undo, rfl, hundo⟩ := h.data
  refine ⟨fun swapchain hswapchain => ?_, ?_⟩
  · obtain rfl := Option.some.inj hswapchain
    exact ⟨rfl, hundo⟩
  · rw [UndoData.restore]
    simp only
    rw [if_neg hfresh.1]
    exact hsafe.file.effective_eq hfresh.1

theorem keeps_checkAndModifyGlobalProfile :
    Keeps p held (Loaded p) (checkAndModifyGlobalProfile p opts) fun r s => s.loaded = true ∧
      (r.1 = true → ∀ data ∈ r.2, Modified p data s ∧ (Fresh p data s ∨ s.handle = none ∧ s.undoFile ≠ none)) := by
  unfold checkAndModifyGlobalProfile
  refine Triple.bind (Keeps.gets (Y := fun session s => s.session = session ∧ Loaded p s) fun _ hs => ⟨rfl, hs⟩)
    fun session => ?_
  refine Triple.cond (fun _ => Keeps.ret _ fun _ hs => ⟨hs.2.1, nofun⟩) fun hsome => ?_
  refine Triple.cond (fun _ => Keeps.ret _ fun _ hs => ⟨hs.2.1, nofun⟩) fun _ => ?_
  refine Triple.bind Keeps.attempt_id fun r => ?_
  refine Triple.cond (fun _ => Keeps.ret _ fun _ hs => ⟨hs.2.1, nofun⟩) fun _ => ?_
  refine Triple.bind (Keeps.call (Y := fun found s => (s.session = session ∧ Loaded p s) ∧
    ∀ setting ∈ found, setting = p.lookup (s.session.bind Settings.swapchain)) (fun _ _ => rfl)
    fun e s hsafe hs => ⟨hsafe, hs, ?_⟩) fun found => ?_
  · intro setting hsetting
    split at hsetting
    · exact (Option.some.inj hsetting).symm
    · cases hsetting
  cases found with
  | none => exact Keeps.ret _ fun _ hs => ⟨hs.1.2.1, nofun⟩
  | some setting =>
    refine Triple.cond (fun hother => ?_) fun _ => Keeps.ret _ fun _ hs => ⟨hs.1.2.1, nofun⟩
    refine Triple.bind (Keeps.attempt (Y := fun r s => s.loaded = true ∧ (r = true →
      (∀ settings ∈ s.session, settings.swapchain = some p.preferEnabled) ∧
        (s.saved.swapchain ≠ some p.preferEnabled ∧ setting.map Prod.fst = p.effective s.saved.swapchain ∨
          s.handle = none ∧ s.undoFile ≠ none))) (fun _ => rfl) (fun s hsafe hs =>
        ⟨⟨hsafe.file, hsafe.short, hsafe.memory, hsafe.held⟩, hs.1.2.1, fun _ => ⟨fun settings hsettings => ?_, ?_⟩⟩)
      fun _ hs => ⟨hs.1.2.1, nofun⟩) fun r => Keeps.ret _ fun s hs => ⟨hs.1, fun hr data hdata => ?_⟩
    · obtain ⟨settings', -, rfl⟩ := Option.map_eq_some_iff.mp hsettings
      rfl
    · refine hs.1.2.2.imp (fun hsynced => ?_) fun hfound => ⟨hfound.1, hfound.2.1⟩
      cases hsession : s.session with
      | none =>
        rw [hs.1.1] at hsession
        subst hsession
        exact absurd rfl hsome
      | some settings =>
        have hsetting := hs.2 setting rfl
        rw [hsession, Option.bind_some, hsynced settings hsession] at hsetting
        rw [hsetting, Platform.map_lookup] at hother ⊢
        refine ⟨fun hours => hother ?_, rfl⟩
        have hsaved : s.saved.swapchain = some p.preferEnabled := hours
        rw [hsaved]
        rfl
    · obtain rfl := Option.some.inj hdata
      obtain ⟨hsession, hfresh⟩ := hs.2 hr
      refine ⟨⟨hs.1, hsession, _, rfl, hother⟩, hfresh.imp_left fun hfresh => ⟨hfresh.1, ?_⟩⟩
      rw [← hfresh.2, UndoData.restore]
      exact if_pos rfl

theorem Platform.Lawful.content_nil (hp : p.Lawful) : p.content (some []) = {} := by
  have hpos : 0 < (UndoData.write p {}).length := Nat.succ_pos _
  exact hp.read_take {} hpos

theorem Safe.empty (hp : p.Lawful) {s : Machine} (h : Safe p held s)
    (heffective : p.effective s.saved.swapchain = s.user) : Safe p held { s with undoFile := some [] } := by
  refine ⟨?_, fun text htext => ?_, h.memory, h.held⟩
  · show p.Undoes (p.content (some [])) _ _
    rw [hp.content_nil]
    exact Platform.undoes_empty heffective
  · obtain rfl := Option.some.inj htext
    exact Nat.zero_le _

theorem keeps_ensureUndoFile (hp : p.Lawful) : Keeps p held
    (fun s => Modified p data s ∧ (Fresh p data s ∨ s.handle = none ∧ s.undoFile ≠ none)) ensureUndoFile
      fun r s => s.loaded = true ∧ (r = true → Modified p data s ∧ Fresh p data s) := by
  unfold ensureUndoFile
  refine Triple.bind (Keeps.gets (Y := fun handle s => s.handle = handle ∧ Modified p data s ∧
    (Fresh p data s ∨ s.handle = none ∧ s.undoFile ≠ none)) fun _ hs => ⟨rfl, hs⟩) fun handle => ?_
  refine Triple.cond (fun hsome => Keeps.ret _ fun s hs => ⟨hs.2.1.loaded, fun _ => ⟨hs.2.1, ?_⟩⟩) fun _ => ?_
  · rcases hs.2.2 with hfresh | ⟨hhandle, -⟩
    · exact hfresh
    · rw [hs.1] at hhandle
      subst hhandle
      cases hsome
  refine Triple.bind Keeps.attempt_id fun r => ?_
  refine Triple.cond (fun _ => Keeps.ret _ fun s hs => ⟨hs.2.1.loaded, nofun⟩) fun _ => ?_
  refine Keeps.call (fun e s => ?_) fun e s hsafe hs => ?_
  · split <;> rfl
  split
  next hnone =>
    have hfresh : Fresh p data s := hs.2.2.resolve_right fun hfile => hfile.2 hnone.2
    have hempty := hsafe.empty hp (hsafe.file.effective_eq hfresh.1)
    exact ⟨⟨hempty.file, hempty.short, hempty.memory, hempty.held⟩, hs.2.1.loaded, fun _ => ⟨⟨hs.2.1.loaded,
      hs.2.1.session, hs.2.1.data⟩, hfresh⟩⟩
  next => exact ⟨⟨hsafe.file, hsafe.short, hsafe.memory, hsafe.held⟩, hs.2.1.loaded, nofun⟩

/-- The undo data are written to the file, while what is saved needs none. -/
theorem keeps_writeUndoData (hp : p.Lawful) {X : Machine → Prop}
    (hX : ∀ s file, X s → X { s with undoFile := file }) : Keeps p held
    (fun s => X s ∧ Modified p data s ∧ Fresh p data s) (writeUndoData p data) fun r s =>
      X s ∧ Modified p data s ∧ Fresh p data s ∧ (r = true → s.undoFile = some (data.write p)) := by
  unfold writeUndoData
  refine Triple.bind (Keeps.gets (Y := fun _ s => X s ∧ Modified p data s ∧ Fresh p data s) fun _ hs => hs)
    fun handle => ?_
  refine Triple.cond (fun _ => Keeps.ret _ fun s hs => ⟨hs.1, hs.2.1, hs.2.2, nofun⟩) fun _ => ?_
  refine Triple.bind Keeps.attempt_id fun r => ?_
  refine Triple.cond (fun _ => Keeps.ret _ fun s hs => ⟨hs.1, hs.2.1, hs.2.2, nofun⟩) fun _ => ?_
  refine Triple.bind (Keeps.attempt (Y := fun _ s => X s ∧ Modified p data s ∧ Fresh p data s) (fun _ => rfl)
    (fun s hsafe hs => ⟨hsafe.empty hp (hsafe.file.effective_eq hs.2.2.1), hX s _ hs.1, ⟨hs.2.1.loaded,
      hs.2.1.session, hs.2.1.data⟩, hs.2.2⟩) fun s hs => hs) fun r => ?_
  refine Triple.cond (fun _ => Keeps.ret _ fun s hs => ⟨hs.1, hs.2.1, hs.2.2, nofun⟩) fun _ => ?_
  refine Triple.bind (Keeps.call (Y := fun r s => X s ∧ Modified p data s ∧ Fresh p data s ∧
    (r = true → s.undoFile = some (data.write p))) (fun e s => ?_) fun e s hsafe hs => ?_) fun r => ?_
  · cases e <;> rfl
  · have heffective := hsafe.file.effective_eq hs.2.2.1
    have hwhole : Safe p held { s with undoFile := some (data.write p) } := by
      refine ⟨?_, fun text htext => ?_, hsafe.memory, hsafe.held⟩
      · show p.Undoes (UndoData.read p (data.write p)) _ _
        rw [hp.read_write]
        exact hs.2.1.undoes hsafe hs.2.2
      · obtain rfl := Option.some.inj htext
        exact length_write data
    cases e with
    | ok => exact ⟨hwhole, hX s _ hs.1, ⟨hs.2.1.loaded, hs.2.1.session, hs.2.1.data⟩, hs.2.2, fun _ => rfl⟩
    | fail => exact ⟨hsafe, hs.1, hs.2.1, hs.2.2, nofun⟩
    | short n =>
      by_cases hn : (data.write p).length ≤ n
      · have htake : (data.write p).take n = data.write p := List.take_of_length_le hn
        simp only [htake]
        exact ⟨hwhole, hX s _ hs.1, ⟨hs.2.1.loaded, hs.2.1.session, hs.2.1.data⟩, hs.2.2, fun _ => trivial⟩
      · refine ⟨⟨?_, fun text htext => ?_, hsafe.memory, hsafe.held⟩, hX s _ hs.1, ⟨hs.2.1.loaded, hs.2.1.session,
          hs.2.1.data⟩, hs.2.2, fun hr => absurd (of_decide_eq_true hr) hn⟩
        · show p.Undoes (UndoData.read p ((data.write p).take n)) _ _
          rw [hp.read_take data (by omega)]
          exact Platform.undoes_empty heffective
        · obtain rfl := Option.some.inj htext
          have hlength := length_write (p := p) data
          rw [List.length_take]
          omega
  refine Triple.cond (fun _ => Keeps.ret _ fun s hs => ⟨hs.1, hs.2.1, hs.2.2.1, nofun⟩) fun hr => ?_
  exact Triple.bind Keeps.attempt_id fun _ => Keeps.ret _ fun s hs =>
    ⟨hs.1, hs.2.1, hs.2.2.1, fun _ => hs.2.2.2 (by simpa using hr)⟩

theorem keeps_deleteOwnFile {X : Machine → Prop} (hX : ∀ s file handle, X s → X { s with undoFile := file, handle }) :
    Keeps p held (fun s => X s ∧ p.effective s.saved.swapchain = s.user) deleteOwnFile fun _ => X := by
  unfold deleteOwnFile
  refine Triple.bind (Keeps.gets (Y := fun _ s => X s ∧ p.effective s.saved.swapchain = s.user) fun _ hs => hs)
    fun handle => ?_
  refine Triple.cond (fun _ => ?_) fun _ => Keeps.ret _ fun s hs => hs.1
  exact Keeps.attempt (fun _ => rfl) (fun s hsafe hs =>
    ⟨⟨Platform.undoes_empty hs.2, nofun, hsafe.memory, hsafe.held⟩, hX s _ _ hs.1⟩) fun s hs => hs.1

theorem UndoData.merge_eq {old : UndoData} (h : data.openglSwapchain ≠ none) : old.merge data = data := by
  obtain ⟨_ | swapchain⟩ := data
  · exact absurd rfl h
  · rfl

/-- What is saved is our value now, and the file and the memory have the data that undo it. -/
theorem Safe.commit (hp : p.Lawful) {s : Machine} {settings : Settings} (h : Safe p none s)
    (hmodified : Modified p data s) (hfresh : Fresh p data s) (hsession : s.session = some settings)
    (hfile : s.undoFile = some (data.write p)) (hmemory : s.undoData = some data) : Safe p none s.save := by
  have hundoes : p.Undoes data settings.swapchain s.user := by
    refine ⟨(hmodified.undoes h hfresh).ours, ?_⟩
    rw [hmodified.session settings hsession, hfresh.2, Platform.effective_effective]
    exact h.file.effective_eq hfresh.1
  have hsaved : s.save.saved.swapchain = settings.swapchain := by
    show (s.session.getD s.saved).swapchain = _
    rw [hsession, Option.getD_some]
  refine ⟨?_, h.short, fun d hd => ?_, nofun⟩
  · show p.Undoes (p.content s.undoFile) s.save.saved.swapchain s.user
    rw [hsaved, hfile]
    show p.Undoes (UndoData.read p (data.write p)) _ _
    rwa [hp.read_write]
  · have heq : s.undoData = some d := hd
    obtain rfl := Option.some.inj (hmemory.symm.trans heq)
    show p.Undoes data s.save.saved.swapchain s.user
    rwa [hsaved]

theorem keeps_makeUndoAndCommit (hp : p.Lawful) : Keeps p none
    (fun s => Modified p data s ∧ (Fresh p data s ∨ s.handle = none ∧ s.undoFile ≠ none)) (makeUndoAndCommit p data)
      fun _ s => s.loaded = true := by
  unfold makeUndoAndCommit
  refine Triple.bind (keeps_ensureUndoFile hp) fun r => ?_
  refine Triple.cond (fun _ => Keeps.ret _ fun s hs => hs.1) fun hr => ?_
  refine Triple.bind (Keeps.gets (Y := fun merged s => Modified p merged s ∧ Fresh p merged s) fun s hs => ?_)
    fun merged => ?_
  · have hold := hs.2 (by simpa using hr)
    cases s.undoData with
    | none => exact hold
    | some old =>
      simp only
      rwa [UndoData.merge_eq hold.1.restore.1]
  refine Triple.bind (Keeps.modify (Y := fun _ s => s.undoData = some merged ∧ Modified p merged s ∧ Fresh p merged s)
    (fun _ => rfl) fun s hsafe hs => ⟨⟨hsafe.file, hsafe.short, fun d hd => ?_, hsafe.held⟩, rfl, ⟨hs.1.loaded,
      hs.1.session, hs.1.data⟩, hs.2⟩) fun _ => ?_
  · obtain rfl := Option.some.inj hd
    exact hs.1.undoes hsafe hs.2
  refine Triple.bind (keeps_writeUndoData hp (X := fun s => s.undoData = some merged) fun _ _ hs => hs) fun r => ?_
  refine Triple.cond (fun _ => ?_) fun hr => ?_
  · exact Triple.bind ((keeps_deleteOwnFile (X := fun s => s.loaded = true) fun _ _ _ hs => hs).pre
      fun s hsafe hs => ⟨hs.2.1.loaded, hsafe.file.effective_eq hs.2.2.1.1⟩) fun _ => Keeps.ret _ fun _ hs => hs
  · exact keeps_saveSettings (fun s settings hsession hsafe hs => ⟨hsafe.commit hp hs.2.1 hs.2.2.1 hsession
      (hs.2.2.2 (by simpa using hr)) hs.1, hs.2.1.loaded⟩) fun s hs => hs.2.1.loaded

theorem keeps_modifyGlobalProfile (hp : p.Lawful) :
    Keeps p none (Loaded p) (modifyGlobalProfile p opts) fun _ s => s.loaded = true := by
  unfold modifyGlobalProfile
  refine Triple.bind (Keeps.gets (Y := fun _ => Loaded p) fun _ hs => hs) fun loaded => ?_
  refine Triple.cond (fun _ => Keeps.ret _ fun s hs => hs.1) fun _ => ?_
  refine Triple.bind keeps_checkAndModifyGlobalProfile fun r => ?_
  obtain ⟨done, data⟩ := r
  refine Triple.cond (fun _ => Keeps.ret _ fun s hs => hs.1) fun hdone => ?_
  cases data with
  | none => exact Keeps.ret _ fun s hs => hs.1
  | some data =>
    refine Triple.bind ((keeps_makeUndoAndCommit hp).pre fun s _ hs => hs.2 (by simpa using hdone) data rfl) fun r => ?_
    refine Triple.cond (fun _ => Keeps.ret _ fun s hs => hs) fun _ => ?_
    exact Triple.bind ((keeps_loadSettings true (R := fun _ => True) fun _ _ _ hs => hs).pre
      fun s _ hs => ⟨trivial, hs⟩) fun _ => Keeps.ret _ fun s hs => hs.2.1

/-! ### The whole programs -/

theorem keeps_unload : Keeps p held (fun s => s.loaded = true ∨ Unloaded s) unload fun _ => Unloaded := by
  refine Keeps.modify (fun s => ?_) fun s hsafe hs => ?_
  · split <;> rfl
  · split
    · exact ⟨⟨hsafe.file, hsafe.short, hsafe.memory, hsafe.held⟩, rfl, rfl⟩
    next hloaded => exact ⟨hsafe, hs.resolve_left hloaded⟩

theorem keeps_restoreGlobalProfile : Keeps p held (fun s => s.loaded = true ∧ Synced s) (restoreGlobalProfile p)
    fun _ s => s.loaded = true := by
  unfold restoreGlobalProfile
  refine Triple.bind (Keeps.gets (Y := fun data s => s.loaded = true ∧ Synced s ∧ ∀ d ∈ data, s.undoData = some d)
    fun s hs => ⟨hs.1, hs.2, fun d hd => ?_⟩) fun data => ?_
  · split at hd
    · exact hd
    · cases hd
  cases data with
  | none => exact Keeps.ret _ fun s hs => hs.1
  | some data =>
    refine Triple.bind ((keeps_restoreGlobalProfileToUndo data fun s _ (hs : s.loaded = true) => hs).pre
      fun s hsafe hs => ⟨hs.1, hs.2.1, hsafe.memory data (hs.2.2 data rfl)⟩) fun r => ?_
    refine Triple.cond (fun _ => Keeps.ret _ fun s hs => hs.1) fun hr => ?_
    obtain rfl : r = true := by simpa using hr
    refine Triple.bind (keeps_saveSettings (Y := fun r s => s.loaded = true ∧
      (r = true → p.effective s.saved.swapchain = s.user)) (fun s settings hsession hsafe hs =>
        ⟨hsafe.save (applied_restore hs.2.1 hs.2.2), hs.1, fun _ => ?_⟩) fun s hs => ⟨hs.1, nofun⟩) fun r => ?_
    · show p.effective (s.session.getD s.saved).swapchain = s.user
      rw [hsession, Option.getD_some, hs.2.2 settings hsession]
      exact hs.2.1.restores
    refine Triple.cond (fun _ => Keeps.ret _ fun s hs => hs.1) fun hr => ?_
    refine Triple.bind ((keeps_deleteOwnFile (X := fun s => s.loaded = true) fun _ _ _ hs => hs).pre
      fun s _ hs => ⟨hs.1, hs.2 (by simpa using hr)⟩) fun r => ?_
    refine Triple.cond (fun _ => Keeps.ret _ fun s hs => hs) fun _ => ?_
    exact Triple.bind (Keeps.modify (Y := fun _ s => s.loaded = true) (fun _ => rfl) fun s hsafe hs =>
      ⟨⟨hsafe.file, hsafe.short, nofun, hsafe.held⟩, hs⟩) fun _ => Keeps.ret _ fun _ hs => hs

theorem keeps_restoreUnlessOwning :
    Keeps p held (fun s => s.loaded = true ∧ Synced s) (restoreUnlessOwning p) fun _ => Loaded p := by
  unfold restoreUnlessOwning
  refine Triple.bind (Keeps.gets (Y := fun handle s => s.handle = handle ∧ s.loaded = true ∧ Synced s)
    fun _ hs => ⟨rfl, hs⟩) fun handle => ?_
  refine Triple.cond (fun _ => Keeps.ret _ fun s hs => ⟨hs.2.1, Or.inl hs.2.2⟩) fun hnone => ?_
  refine keeps_restoreFromAndDeleteUndoFileIfExists.pre fun s _ hs => ⟨hs.2.1, ?_, hs.2.2⟩
  rw [hs.1]
  simpa using hnone

theorem keeps_prepare (hp : p.Lawful) : Keeps p none Unloaded (prepare p opts) fun _ => Unloaded := by
  unfold prepare
  refine (keeps_bind_load (R := fun _ => True) (fun _ _ _ hs => hs) (fun _ hs => hs) ?_).pre fun s _ hs => ⟨trivial, hs⟩
  refine Triple.bind (keeps_restoreUnlessOwning.pre fun s _ hs => hs.2) fun _ => ?_
  refine Triple.bind keeps_modifyApplicationProfile fun _ => ?_
  refine Triple.bind (keeps_modifyGlobalProfile hp) fun _ => ?_
  exact keeps_unload.pre fun s _ hs => Or.inl hs

theorem keeps_cleanUp : Keeps p held Unloaded (cleanUp p) fun _ => Unloaded := by
  have hrestore : Keeps p held Unloaded (restoreIfOwning p) fun _ s => s.loaded = true ∨ Unloaded s := by
    unfold restoreIfOwning
    refine Triple.bind (Keeps.gets (Y := fun _ => Unloaded) fun _ hs => hs) fun handle => ?_
    refine Triple.cond (fun _ => Keeps.ret _ fun s hs => Or.inr hs) fun _ => ?_
    exact (keeps_bind_load (R := fun _ => True) (fun _ _ _ hs => hs) (fun _ hs => Or.inr hs)
      ((keeps_restoreGlobalProfile.pre fun s _ hs => hs.2).post fun _ _ hs => Or.inl hs)).pre
        fun s _ hs => ⟨trivial, hs⟩
  exact Triple.bind hrestore fun _ => keeps_unload

theorem keeps_leave (atEnd : Bool) : Keeps p held Unloaded (leave p atEnd) fun _ => Unloaded :=
  Triple.cond (fun _ => Triple.bind keeps_cleanUp fun _ => keeps_cleanUp) fun _ => keeps_cleanUp

theorem keeps_restoreNvprefsUndo :
    Keeps p held (fun s => s.handle = none ∧ Unloaded s) (restoreNvprefsUndo p) fun _ _ => True := by
  unfold restoreNvprefsUndo
  refine keeps_bind_load (R := fun s => s.handle = none) (fun _ _ _ hs => hs) (fun _ _ => trivial) ?_
  refine Triple.bind (keeps_restoreFromAndDeleteUndoFileIfExists.pre fun s _ hs => ⟨hs.2.1, hs.1, hs.2.2⟩) fun _ => ?_
  exact (keeps_unload.pre fun s _ hs => Or.inl hs.1).post fun _ _ _ => trivial

end Programs

end MidnightSun.NvPrefs
