import MidnightSun.Platf.DdupParts

/-!
# What the captured images show (src/platform/windows/display_vram.cpp)

* `snapshot_shows`: every image that is handed out shows what is seen, and its texture does not change as long as an
  encoder holds it;
* `snapshot_status`: a snapshot fails only if something that it calls does, or the display has changed.
-/

namespace MidnightSun.Platf.Dxgi

open Lib Lib.Raster Video

variable {Px : Type}

/-! ### A snapshot -/

section Snapshot

variable {gpu : Gpu Px} {disp : DisplayInfo} {held : List (ℕ × Px)} {c : Surroundings Px} {old : DdupVram Px}
  {seen : Seen Px}

/-- What the surroundings promise. -/
structure Honest (c : Surroundings Px) : Prop where
  shape : c.shape.Complete
  src : c.lastPresentTime ≠ 0 → c.src.format ≠ formatUnknown
  pull : ∀ used, ∀ id ∈ c.pull used, id ∉ used

/-- The time of the frame does not matter. -/
theorem Settled.setTimestamp {s : DdupVram Px} (h : Settled disp held seen s) {id : ℕ} {cursorVisible : Bool}
    (hshows : ShowsIn gpu disp seen cursorVisible id s) (frameTimestamp : Option ℤ) :
    Settled disp held seen (s.setImage id { s.images id with frameTimestamp }) ∧
      ShowsIn gpu disp seen cursorVisible id (s.setImage id { s.images id with frameTimestamp }) := by
  have himages : ∀ other, (s.setImage id { s.images id with frameTimestamp }).images other =
      { s.images other with frameTimestamp :=
        if other = id then frameTimestamp else (s.images other).frameTimestamp } := by
    intro other
    by_cases hid : other = id
    · subst hid
      rw [if_pos rfl]
      exact Function.update_self _ _ _
    · rw [if_neg hid]
      exact Function.update_of_ne hid _ _
  refine ⟨⟨⟨fun p hp => ?_, fun other texture => ?_, fun other => ?_, h.sound.old⟩,
    h.keeps.congr rfl rfl fun other _ => ?_, h.points, h.known⟩, ?_⟩
  · rw [himages]
    exact h.sound.unchanged p hp
  · rw [himages]
    exact h.sound.images other texture
  · rw [himages]
    exact h.sound.blank other
  · rw [himages]
    exact ⟨rfl, rfl⟩
  · obtain ⟨texture, htexture, hpicture⟩ := hshows
    exact ⟨texture, by rw [himages]; exact htexture, hpicture⟩

variable (gpu) in
/-- A snapshot hands out an image that shows what it should. -/
theorem snapshot_triple (hc : Honest c) :
    Early.Triple (fun s => Base disp held old seen.desktop s ∧ Points disp seen s)
      (snapshot gpu disp (held.map Prod.fst) c)
      (fun id s => Settled disp held (seen.see c) s ∧ ShowsIn gpu disp (seen.see c) c.cursorVisible id s)
      (fun e s => Fails disp held c old e s ∧
        (e = .status .timeout → Base disp held old seen.desktop s ∧ Points disp seen s ∧ seen.see c = seen)) := by
  unfold snapshot
  refine Early.Triple.cond (fun hstatus => Early.Triple.raise _ fun s hs => ?_) fun hstatus => ?_
  · refine ⟨⟨hs.1.sound.unchanged, ?_⟩, fun _ => ⟨hs.1, hs.2, if_pos hstatus⟩⟩
    cases hnext : c.nextFrame with
    | ok => exact absurd hnext hstatus
    | reinit | timeout | interrupted | error => exact Or.inl hnext
  have hok : c.nextFrame = .ok := not_not.mp hstatus
  refine Early.Triple.cond (fun hnothing => Early.Triple.raise _ fun s hs => ?_) fun hupdate => ?_
  · obtain ⟨hmouse, hshape, hpresent⟩ := hnothing
    refine ⟨⟨hs.1.sound.unchanged, Or.inr ⟨hmouse, List.isEmpty_iff.mp hshape, hpresent⟩⟩, fun _ => ⟨hs.1, hs.2, ?_⟩⟩
    unfold Seen.see
    rw [if_neg hstatus, if_pos hmouse, if_pos hshape, if_pos hpresent]
  -- from here on there is no timeout
  refine Early.Triple.early (E := Fails disp held c old) ?_ ?_
  · refine Early.Triple.bind (setPointerShape_triple hc.shape hok) fun _ => ?_
    refine Early.Triple.bind (setPointerPosition_triple hok) fun _ => ?_
    refine Early.Triple.gets fun s hs => ?_
    obtain ⟨hbase, hpoints⟩ := hs
    have hblend : ((s.cursorAlpha.visible || s.cursorXor.visible) && c.cursorVisible) =
        ((seen.see c).visible && c.cursorVisible) := by rw [blend_eq hpoints, Seen.visible]
    simp only [hblend]
    refine Early.Triple.bind (Q := Sourced disp held c old seen) ((getSource_triple hok hc.src).pre ?_) fun src =>
      Early.Triple.gets fun s hs => ?_
    · rintro _ rfl
      exact ⟨hbase, hpoints⟩
    refine Early.Triple.bind (doLastFrameAction_triple hc.pull hs fun hblend => (Bool.and_eq_true_iff.mp hblend).2)
      fun _ => Early.Triple.of_pre fun t ht => ?_
    refine Early.Triple.bind (doOutFrameAction_triple hc.pull ht.1 rfl ht.2) fun id => ?_
    refine Early.Triple.bind (Q := fun _ t => Settled disp held (seen.see c) t ∧
      ShowsIn gpu disp (seen.see c) c.cursorVisible id t) (Early.Triple.update fun t ht => ?_) fun _ =>
        Early.Triple.bind (Early.Triple.update fun t ht => ht.1.setTimestamp ht.2 (frameTimestamp c))
          fun _ => Early.Triple.ret _ fun _ ht => ht
    unfold expireOldSurface
    split
    · exact ⟨⟨⟨ht.1.sound.unchanged, ht.1.sound.images, ht.1.sound.blank, nofun⟩, ht.1.keeps, ht.1.points,
        ht.1.known⟩, ht.2⟩
    · exact ht
  · rintro e s hfails
    refine ⟨hfails, ?_⟩
    rintro rfl
    rcases hfails.2 with htimeout | ⟨hmouse, hshape, hpresent⟩
    · rw [hok] at htimeout
      cases htimeout
    · exact absurd ⟨hmouse, by rw [hshape]; rfl, hpresent⟩ hupdate

end Snapshot

/-! ### Runs -/

namespace Capture

variable {gpu : Gpu Px} {disp : DisplayInfo} {s t : Capture Px} {es : List (CaptureEvent Px)}

/-- The promises of a step. -/
def Allowed (_ : Capture Px) : CaptureEvent Px → Prop
  | .snapshot c => Honest c
  | .drop _ => True

/-- A display that is captured is ready for a snapshot. -/
structure Inv (disp : DisplayInfo) (es : List (CaptureEvent Px)) (s : Capture Px) : Prop where
  unchanged : Unchanged s.held s.display
  live : s.status = .ok ∨ s.status = .timeout →
    Base disp s.held s.display (seen es).desktop s.display ∧ Points disp (seen es) s.display

theorem seen_snapshot (es : List (CaptureEvent Px)) (c : Surroundings Px) :
    seen (es ++ [.snapshot c]) = (seen es).see c := by
  unfold seen
  rw [List.foldl_append]
  rfl

theorem Unchanged.shown {display : DdupVram Px} {held : List (ℕ × Px)} (h : Unchanged held display) (id : ℕ) :
    Unchanged (shown display id ++ held) display := by
  intro p hp
  rcases List.mem_append.mp hp with hp | hp
  · unfold Capture.shown at hp
    split at hp
    next texture htexture =>
      obtain rfl := List.mem_singleton.mp hp
      exact ⟨texture, htexture, rfl⟩
    next => cases hp
  · exact h p hp

variable (gpu) in
/-- What a snapshot does. -/
theorem Inv.snapshot (h : Inv disp es s) {c : Surroundings Px} (hc : Honest c)
    (hlive : s.status = .ok ∨ s.status = .timeout) :
    ∃ t, s.step gpu disp (.snapshot c) = some t ∧ Inv disp (es ++ [.snapshot c]) t ∧ s.held <:+ t.held ∧
      (t.status = .ok → ∃ id px, t.out = some id ∧ (id, px) ∈ t.held ∧
        Shows gpu disp (seen (es ++ [.snapshot c])) c.cursorVisible px) ∧
      (t.status ≠ .ok → Reason disp c s.display (s.held.map Prod.fst) (.status t.status)) := by
  have hrun := snapshot_triple gpu hc s.display (h.live hlive)
  rw [seen_snapshot]
  simp only [step, if_pos hlive]
  cases hresult : Dxgi.snapshot gpu disp (s.held.map Prod.fst) c s.display with
  | ok id display =>
    rw [hresult] at hrun
    obtain ⟨hsettled, texture, htexture, hshows⟩ := hrun
    have hunchanged := Unchanged.shown hsettled.sound.unchanged id
    refine ⟨_, rfl, ⟨hunchanged, fun _ => ?_⟩, List.suffix_append _ _, fun _ => ⟨id, texture.data, rfl, ?_, hshows⟩,
      fun hne => absurd rfl hne⟩
    · rw [seen_snapshot]
      exact ⟨⟨⟨hunchanged, hsettled.sound.images, hsettled.sound.blank, hsettled.sound.old⟩, hsettled.keeps,
        hsettled.known, rfl, rfl⟩, hsettled.points⟩
    · refine List.mem_append_left _ ?_
      unfold shown
      rw [htexture]
      exact List.mem_singleton_self _
  | error e display =>
    rw [hresult] at hrun
    obtain ⟨⟨hunchanged, hreason⟩, htimeout⟩ := hrun
    cases e with
    | undefined => exact hreason.elim
    | status status =>
      refine ⟨_, rfl, ⟨hunchanged, fun hlive' => ?_⟩, List.suffix_refl _, fun hok => ?_, fun _ => hreason⟩
      · rcases hlive' with hok | hok
        · obtain rfl : status = .ok := hok
          exact hreason.elim
        · obtain rfl : status = .timeout := hok
          obtain ⟨hbase, hpoints, hsame⟩ := htimeout rfl
          rw [seen_snapshot, hsame]
          exact ⟨⟨hbase.sound, hbase.keeps, hbase.known, rfl, rfl⟩, hpoints⟩
      · obtain rfl : status = .ok := hok
        exact hreason.elim

theorem Inv.drop (h : Inv disp es s) (k : ℕ) :
    Inv disp (es ++ [.drop k]) { s with held := s.held.eraseIdx k } := by
  have hseen : seen (es ++ [.drop k]) = seen es := by
    unfold seen
    rw [List.foldl_append]
    rfl
  have hunchanged : Unchanged (s.held.eraseIdx k) s.display := fun p hp => h.unchanged p (List.mem_of_mem_eraseIdx hp)
  refine ⟨hunchanged, fun hlive => ?_⟩
  obtain ⟨hbase, hpoints⟩ := h.live hlive
  rw [hseen]
  exact ⟨⟨⟨hunchanged, hbase.sound.images, hbase.sound.blank, hbase.sound.old⟩, hbase.keeps, hbase.known, hbase.format,
    hbase.last⟩, hpoints⟩

theorem inv_init : Inv disp [] ({} : Capture Px) := by
  have hsound : Sound disp [] ({} : DdupVram Px) := ⟨nofun, nofun, fun _ _ => rfl, nofun⟩
  refine ⟨nofun, fun _ => ⟨⟨hsound, rfl, ⟨fun _ => rfl, fun _ => rfl⟩, rfl, rfl⟩, fun invert => ?_⟩⟩
  cases invert <;> rfl

theorem run_inv (h : Run (Guarded (ofPartial (step gpu disp)) Allowed) {} es s) : Inv disp es s := by
  refine Run.invariant_labels (I := Inv disp) inv_init (fun es s e t _ hI hst => ?_) h
  obtain ⟨hG, hst⟩ := hst
  cases e with
  | drop k =>
    obtain rfl := Option.some.inj hst
    exact hI.drop k
  | snapshot c =>
    by_cases hlive : s.status = .ok ∨ s.status = .timeout
    · obtain ⟨u, hu, hinv, -⟩ := hI.snapshot gpu hG hlive
      obtain rfl := Option.some.inj (hu.symm.trans hst)
      exact hinv
    · have hnone : s.step gpu disp (.snapshot c) = none := if_neg hlive
      cases hnone.symm.trans hst

/-- **What is captured is what is seen.**  Whatever was captured before, the image that a snapshot hands out shows the
picture of the desktop that was reported last, with the pointer where it was reported last if it is to be seen; before
there is one, the pointer is over a texture that was created or cleared.  The textures that encoders hold show what they
did when they were handed out. -/
theorem snapshot_shows (h : Run (Guarded (ofPartial (step gpu disp)) Allowed) {} es s) {c : Surroundings Px}
    (hc : Honest c) (hst : s.step gpu disp (.snapshot c) = some t) :
    (∀ p ∈ t.held, ∃ texture, (t.display.images p.1).captureTexture = some texture ∧ texture.data = p.2) ∧
      s.held <:+ t.held ∧
      (t.status = .ok → ∃ id px, t.out = some id ∧ (id, px) ∈ t.held ∧
        Shows gpu disp (seen (es ++ [.snapshot c])) c.cursorVisible px) := by
  by_cases hlive : s.status = .ok ∨ s.status = .timeout
  · obtain ⟨u, hu, hinv, hheld, hshows, -⟩ := (run_inv h).snapshot gpu hc hlive
    obtain rfl := Option.some.inj (hu.symm.trans hst)
    exact ⟨hinv.unchanged, hheld, hshows⟩
  · have hnone : s.step gpu disp (.snapshot c) = none := if_neg hlive
    cases hnone.symm.trans hst

/-- **A snapshot fails only for a reason.**  As long as a display is captured, a snapshot returns; it succeeds unless
desktop duplication has nothing new or gives up, the size or the format of the picture has changed, every image is held,
or a call that this snapshot makes fails.  So the checks for a logical error never find one. -/
theorem snapshot_status (h : Run (Guarded (ofPartial (step gpu disp)) Allowed) {} es s) {c : Surroundings Px}
    (hc : Honest c) (hlive : s.status = .ok ∨ s.status = .timeout) :
    ∃ t, s.step gpu disp (.snapshot c) = some t ∧
      (t.status ≠ .ok → Reason disp c s.display (s.held.map Prod.fst) (.status t.status)) := by
  obtain ⟨t, ht, -, -, -, hreason⟩ := (run_inv h).snapshot gpu hc hlive
  exact ⟨t, ht, hreason⟩

/-- The first image that is not in use. -/
def firstFree (used : List ℕ) : Option ℕ := (List.range 12).find? fun id => decide (id ∉ used)

theorem firstFree_not_mem (used : List ℕ) (id : ℕ) (hid : id ∈ firstFree used) : id ∉ used := by
  have hfree := List.find?_some (Option.mem_def.mp hid)
  simpa using hfree

/-- A picture is a number, and so is what is drawn over it. -/
def counting : Gpu ℕ where
  created := 0
  cleared := 0
  draw := fun _ _ view px => px + view.topLeftX.toNat

def screen : DisplayInfo := ⟨1920, 1080, 1920, 1080, .identity⟩

/-- The pointer, as one pixel, is over a picture that is not there yet. -/
def pointerFirst : Surroundings ℕ where
  lastMouseUpdateTime := 1
  pointerX := 5
  pointerVisible := true
  shape := ⟨.color, 1, 1, 4, [1, 2, 3, 255]⟩
  src := ⟨0, 0, 0, 0⟩
  cursorVisible := true
  pull := firstFree

def desktopNext : Surroundings ℕ where
  lastPresentTime := 2
  src := ⟨1920, 1080, formatB8G8R8A8, 700⟩
  cursorVisible := true
  pull := firstFree

/-- The pointer moves. -/
def pointerMoves : Surroundings ℕ where
  lastMouseUpdateTime := 3
  pointerX := 9
  pointerVisible := true
  src := ⟨0, 0, 0, 0⟩
  cursorVisible := true
  pull := firstFree

theorem honest_pointerMoves : Honest pointerMoves := ⟨by decide, by decide, firstFree_not_mem⟩

theorem exists_run_desktopNext : ∃ s : Capture ℕ,
    Run (Guarded (ofPartial (step counting screen)) Allowed) {} [.snapshot pointerFirst, .snapshot desktopNext] s ∧
      s.status = .ok ∧ ∃ t, s.step counting screen (.snapshot pointerMoves) = some t ∧ t.status = .ok ∧
        t.held = [(2, 709), (1, 705), (0, 5)] := by
  obtain ⟨s, hrun, hok, hmoves⟩ := exists_run_execWhere_and (f := step counting screen) (G := fun _ _ => True) (s := {})
    (l := [.snapshot pointerFirst, .snapshot desktopNext]) (P := fun s => s.status = .ok ∧
      ((s.step counting screen (.snapshot pointerMoves)).any fun t => decide (t.status = .ok ∧
        t.held = [(2, 709), (1, 705), (0, 5)])) = true) (by decide +kernel)
  obtain ⟨t, ht, hheld⟩ := (Option.any_eq_true _ _).mp hmoves
  refine ⟨s, hrun.of_guarded.guarded fun e he _ => ?_, hok, t, ht, of_decide_eq_true hheld⟩
  rcases List.mem_pair.mp he with rfl | rfl
  · exact ⟨by decide, by decide, firstFree_not_mem⟩
  · exact ⟨by decide, by decide, firstFree_not_mem⟩

theorem snapshot_shows_moves : ∃ s t : Capture ℕ, s.step counting screen (.snapshot pointerMoves) = some t ∧
    ∃ id px, t.out = some id ∧ (id, px) ∈ t.held ∧ Shows counting screen
      (seen [.snapshot pointerFirst, .snapshot desktopNext, .snapshot pointerMoves]) true px := by
  obtain ⟨s, hrun, -, t, ht, hok, -⟩ := exists_run_desktopNext
  exact ⟨s, t, ht, (snapshot_shows hrun honest_pointerMoves ht).2.2 hok⟩

theorem snapshot_status_moves : ∃ s t : Capture ℕ, s.status = .ok ∧
    s.step counting screen (.snapshot pointerMoves) = some t ∧
      (t.status ≠ .ok → Reason screen pointerMoves s.display (s.held.map Prod.fst) (.status t.status)) := by
  obtain ⟨s, hrun, hok, -⟩ := exists_run_desktopNext
  obtain ⟨t, ht, hreason⟩ := snapshot_status hrun honest_pointerMoves (Or.inl hok)
  exact ⟨s, t, hok, ht, hreason⟩

end Capture

end MidnightSun.Platf.Dxgi
