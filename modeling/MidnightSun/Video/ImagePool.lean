import Mathlib.Data.List.Nodup
import Mathlib.Data.List.Perm.Subperm
import Mathlib.Logic.Function.Basic
import MidnightSun.Lib.History
import MidnightSun.Lib.Run
import MidnightSun.Lib.Window

/-!
# The image pool of the capture thread (src/video.cpp, `captureThread`)

The capture thread hands the capture backend one image at a time (`pull_free_image_callback`) out of a list of twelve,
of which it allocates as many as are needed; the images travel on as shared pointers, which the sessions copy and drop
at any time.  An image is free when the list holds the only pointer to it.  After each pull the pool is trimmed down to
the number of images that were in use at some pull of the last three seconds (`trim_imgs`).

The image that `encode_run` allocates for itself, to have something to encode, is not one of the pool.

* `pulls_exclusive`: an image is handed out to nobody else, and it was allocated for the display of that time;
* `pulls_window`: what is left of the pool after a pull is the peak of the last three seconds, if it was more.
-/

namespace MidnightSun.Video

open Lib

/-- `capture_buffer_size`. -/
def captureBufferSize : ℕ := 12

/-- `trim_timeot`, in nanoseconds. -/
def trimTimeout : ℕ := 3000000000

/-- Where the capture thread is in `pull_free_image_callback`. -/
inductive PullPhase where
  | outside
  /-- `while (capture_ctx_queue->running())` -/
  | loop
  /-- the search for an allocated image, at this element -/
  | scan (pos : ℕ)
  /-- the search for an empty place -/
  | alloc
  /-- `trim_imgs`, the counting loop -/
  | count (pos allocated used : ℕ)
  | decide (allocated used : ℕ)
  /-- the trimming loop, from the back, with `left` elements to go; and what was counted, and when -/
  | trim (left toTrim target : ℕ) (time allocated used : ℕ)
  deriving DecidableEq

/-- A call of `pull_free_image_callback` that returned an image. -/
structure Pull where
  image : ℕ
  /-- the time at which `trim_imgs` counted, and what it counted -/
  time : ℕ
  allocated : ℕ
  used : ℕ
  /-- the allocated images of the pool when the image was handed out -/
  kept : ℕ
  /-- the pointers that others had to the image at that time -/
  shared : ℕ
  /-- the first image of the display that was current then, and the one to be allocated next -/
  first : ℕ
  next : ℕ
  deriving DecidableEq

/-- The pool.  Images are numbered in the order in which they are allocated. -/
structure ImagePool where
  running : Bool := true
  imgs : List (Option ℕ) := List.replicate captureBufferSize none
  imgsUsedTimestamps : List (Option ℕ) := []
  imgOut : Option ℕ := none
  phase : PullPhase := .outside
  /-- the shared pointers to an image that are not in `imgs` and not `imgOut` -/
  others : ℕ → ℕ := fun _ => 0
  now : ℕ := 0
  /-- the number of the next image -/
  fresh : ℕ := 0
  /-- ghost: the number of the first image of the current display -/
  firstOfDisplay : ℕ := 0
  /-- ghost -/
  pulls : List Pull := []

inductive PoolEvent where
  /-- the backend calls `pull_free_image_callback` -/
  | pull
  /-- the capture thread goes on; `alloc_img` succeeds or not -/
  | go (allocates : Bool)
  | copy (img : ℕ)
  | release (img : ℕ)
  | wait (d : ℕ)
  /-- `capture_ctx_queue->stop()` -/
  | stop
  /-- `capture_e::reinit` -/
  | reinit

namespace ImagePool

variable (s : ImagePool)

/-- `use_count()` of an image. -/
def useCount (img : ℕ) : ℕ := s.imgs.count (some img) + s.others img + if s.imgOut = some img then 1 else 0

/-- The element at `pos` goes to the front, unless it is there. -/
def moveToFront (imgs : List (Option ℕ)) (pos : ℕ) (x : Option ℕ) : List (Option ℕ) :=
  if pos = 0 then imgs else x :: imgs.eraseIdx pos

def allocatedCount (imgs : List (Option ℕ)) : ℕ := imgs.countP Option.isSome

/-- The callback returns `true`. -/
def handOut (time allocated used : ℕ) : ImagePool :=
  match s.imgOut with
  | none => s
  | some img =>
    { s with
      imgOut := none
      phase := .outside
      others := Function.update s.others img (s.others img + 1)
      pulls := s.pulls ++
        [⟨img, time, allocated, used, allocatedCount s.imgs, s.others img, s.firstOfDisplay, s.fresh⟩] }

/-- The end of the trimming loop. -/
def forget (target time allocated used : ℕ) : ImagePool :=
  { s with imgsUsedTimestamps := resizeLog s.imgsUsedTimestamps (target + 1) }.handOut time allocated used

def goScan (pos : ℕ) : ImagePool :=
  match s.imgs[pos]? with
  | none => { s with phase := .alloc }
  | some none => { s with phase := .scan (pos + 1) }
  | some (some img) =>
    if s.useCount img = 1 then
      { s with imgOut := some img, imgs := moveToFront s.imgs pos (some img), phase := .count 0 0 0 }
    else { s with phase := .scan (pos + 1) }

def goAlloc (allocates : Bool) : ImagePool :=
  match s.imgs.findIdx? (· = none) with
  | none => { s with phase := .loop }
  | some pos =>
    if allocates then
      { s with
        imgOut := some s.fresh
        imgs := moveToFront (s.imgs.set pos (some s.fresh)) pos (some s.fresh)
        fresh := s.fresh + 1
        phase := .count 0 0 0 }
    else { s with imgs := moveToFront s.imgs pos none, phase := .loop }

def goCount (pos allocated used : ℕ) : ImagePool :=
  match s.imgs[pos]? with
  | none => { s with phase := .decide allocated used }
  | some none => { s with phase := .count (pos + 1) allocated used }
  | some (some img) =>
    { s with phase := .count (pos + 1) (allocated + 1) (if 1 < s.useCount img then used + 1 else used) }

def goDecide (allocated used : ℕ) : ImagePool :=
  let log := noteLevel s.imgsUsedTimestamps used s.now
  let target := peak trimTimeout s.now log used
  if target < allocated then
    { s with
      imgsUsedTimestamps := log
      phase := .trim s.imgs.length (allocated - target) target s.now allocated used }
  else { s with imgsUsedTimestamps := log }.handOut s.now allocated used

def goTrim (left toTrim target time allocated used : ℕ) : ImagePool :=
  match left with
  | 0 => s.forget target time allocated used
  | left + 1 =>
    match s.imgs[left]? with
    | some (some img) =>
      if s.useCount img = 1 then
        let s' := { s with imgs := s.imgs.set left none }
        if toTrim - 1 = 0 then s'.forget target time allocated used
        else { s' with phase := .trim left (toTrim - 1) target time allocated used }
      else { s with phase := .trim left toTrim target time allocated used }
    | _ => { s with phase := .trim left toTrim target time allocated used }

/-- The capture thread goes on. -/
def go (allocates : Bool) : Option ImagePool :=
  match s.phase with
  | .outside => none
  | .loop => some { s with phase := if s.running then .scan 0 else .outside }
  | .scan pos => some (s.goScan pos)
  | .alloc => some (s.goAlloc allocates)
  | .count pos allocated used => some (s.goCount pos allocated used)
  | .decide allocated used => some (s.goDecide allocated used)
  | .trim left toTrim target time allocated used => some (s.goTrim left toTrim target time allocated used)

def step : PoolEvent → Option ImagePool
  | .pull => if s.phase = .outside then some { s with phase := .loop } else none
  | .go allocates => s.go allocates
  | .copy img =>
    if 0 < s.others img then some { s with others := Function.update s.others img (s.others img + 1) } else none
  | .release img =>
    if 0 < s.others img then some { s with others := Function.update s.others img (s.others img - 1) } else none
  | .wait d => some { s with now := s.now + d }
  | .stop => some { s with running := false }
  | .reinit =>
    if s.phase = .outside then
      some { s with imgs := s.imgs.map fun _ => none, firstOfDisplay := s.fresh }
    else none

/-! ### The pool and its images -/

/-- The phases in which an image has been picked. -/
def picked : PullPhase → Bool
  | .count .. | .decide .. | .trim .. => true
  | _ => false

/-- Twelve places, no image twice; every image of the current display that somebody has is in the pool. -/
structure Wf : Prop where
  length : s.imgs.length = captureBufferSize
  once : ∀ img, s.imgs.count (some img) ≤ 1
  numbered : ∀ img, some img ∈ s.imgs → s.firstOfDisplay ≤ img ∧ img < s.fresh
  display : s.firstOfDisplay ≤ s.fresh
  held : ∀ img, 0 < s.others img → img < s.fresh ∧ (s.firstOfDisplay ≤ img → some img ∈ s.imgs)
  out : ∀ img, s.imgOut = some img → some img ∈ s.imgs ∧ s.others img = 0
  picked_iff : s.imgOut.isSome = picked s.phase

theorem moveToFront_perm {imgs : List (Option ℕ)} {pos : ℕ} {x : Option ℕ} (h : imgs[pos]? = some x) :
    (moveToFront imgs pos x).Perm imgs := by
  obtain ⟨hlt, rfl⟩ := List.getElem?_eq_some_iff.mp h
  unfold moveToFront
  split
  · exact List.Perm.refl _
  · rw [List.eraseIdx_eq_take_drop_succ]
    refine List.perm_middle.symm.trans ?_
    rw [List.getElem_cons_drop, List.take_append_drop]

namespace Wf

variable {s}

/-- Only the pool has an image whose count is one. -/
theorem useCount_eq_one_iff (h : s.Wf) {img : ℕ} (hmem : some img ∈ s.imgs) :
    s.useCount img = 1 ↔ s.others img = 0 ∧ s.imgOut ≠ some img := by
  have hone : s.imgs.count (some img) = 1 := by
    have hpos := List.count_pos_iff.mpr hmem
    have := h.once img
    omega
  unfold useCount
  rw [hone]
  split
  next heq => simp [heq]
  next hne =>
    constructor
    · intro hsum
      exact ⟨by omega, hne⟩
    · rintro ⟨hothers, -⟩
      omega

theorem one_le_useCount {img : ℕ} (hmem : some img ∈ s.imgs) : 1 ≤ s.useCount img := by
  have hpos := List.count_pos_iff.mpr hmem
  unfold useCount
  omega

theorem setPhase (h : s.Wf) {phase : PullPhase} (hp : picked phase = picked s.phase) :
    Wf { s with phase } :=
  { h with picked_iff := h.picked_iff.trans hp.symm }

theorem perm (h : s.Wf) {imgs : List (Option ℕ)} (hp : imgs.Perm s.imgs) : Wf { s with imgs } where
  length := hp.length_eq.trans h.length
  once img := by
    rw [hp.count_eq]
    exact h.once img
  numbered img hm := h.numbered img (hp.mem_iff.mp hm)
  display := h.display
  held img hpos := ⟨(h.held img hpos).1, fun hle => hp.mem_iff.mpr ((h.held img hpos).2 hle)⟩
  out img ho := ⟨hp.mem_iff.mpr (h.out img ho).1, (h.out img ho).2⟩
  picked_iff := h.picked_iff

theorem pick (h : s.Wf) {img : ℕ} (hmem : some img ∈ s.imgs) (hfree : s.others img = 0) {phase : PullPhase}
    (hp : picked phase = true) : Wf { s with imgOut := some img, phase } :=
  { h with
    out := by
      intro i hi
      obtain rfl := Option.some.inj hi
      exact ⟨hmem, hfree⟩
    picked_iff := hp.symm }

/-- An empty place gets a new image. -/
theorem allocate (h : s.Wf) {pos : ℕ} (hpos : s.imgs[pos]? = some none) :
    Wf { s with imgs := s.imgs.set pos (some s.fresh), fresh := s.fresh + 1 } := by
  obtain ⟨hlt, hnone⟩ := List.getElem?_eq_some_iff.mp hpos
  have hkeep : ∀ img, some img ∈ s.imgs → some img ∈ s.imgs.set pos (some s.fresh) := by
    intro img hm
    obtain ⟨i, hi, heq⟩ := List.getElem_of_mem hm
    have hne : pos ≠ i := by
      rintro rfl
      rw [hnone] at heq
      cases heq
    exact List.mem_of_getElem? (i := i) (by
      rw [List.getElem?_set_ne hne, List.getElem?_eq_getElem hi, heq])
  refine ⟨?_, ?_, ?_, ?_, ?_, ?_, h.picked_iff⟩
  · exact (List.length_set ..).trans h.length
  · intro img
    have hle := h.once img
    rw [List.count_set hlt, hnone]
    by_cases himg : img = s.fresh
    · have hzero : s.imgs.count (some s.fresh) = 0 := by
        rw [List.count_eq_zero]
        intro hm
        have := (h.numbered _ hm).2
        omega
      subst himg
      rw [hzero]
      simp
    · have : ¬ s.fresh = img := fun heq => himg heq.symm
      simpa [this] using hle
  · intro img hm
    rcases List.mem_or_eq_of_mem_set hm with hm | heq
    · have := h.numbered img hm
      exact ⟨this.1, by show img < s.fresh + 1; omega⟩
    · obtain rfl := Option.some.inj heq
      exact ⟨h.display, Nat.lt_succ_self _⟩
  · show s.firstOfDisplay ≤ s.fresh + 1
    have := h.display
    omega
  · intro img hothers
    have := h.held img hothers
    exact ⟨Nat.lt_succ_of_lt this.1, fun hle => hkeep img (this.2 hle)⟩
  · intro img ho
    exact ⟨hkeep img (h.out img ho).1, (h.out img ho).2⟩

/-- An image that only the pool has is freed. -/
theorem free (h : s.Wf) {pos img : ℕ} (hpos : s.imgs[pos]? = some (some img)) (hfree : s.others img = 0)
    (hout : s.imgOut ≠ some img) : Wf { s with imgs := s.imgs.set pos none } := by
  obtain ⟨hlt, himg⟩ := List.getElem?_eq_some_iff.mp hpos
  have hkeep : ∀ i, i ≠ img → some i ∈ s.imgs → some i ∈ s.imgs.set pos none := by
    intro i hne hm
    obtain ⟨j, hj, heq⟩ := List.getElem_of_mem hm
    have hjne : pos ≠ j := by
      rintro rfl
      rw [himg] at heq
      exact hne (Option.some.inj heq).symm
    exact List.mem_of_getElem? (i := j) (by
      rw [List.getElem?_set_ne hjne, List.getElem?_eq_getElem hj, heq])
  have hback : ∀ i, some i ∈ s.imgs.set pos none → some i ∈ s.imgs := by
    intro i hm
    rcases List.mem_or_eq_of_mem_set hm with hm | heq
    · exact hm
    · cases heq
  refine ⟨?_, ?_, ?_, h.display, ?_, ?_, h.picked_iff⟩
  · exact (List.length_set ..).trans h.length
  · intro i
    have hle := h.once i
    rw [List.count_set hlt]
    have hne : ((none : Option ℕ) == some i) = false := rfl
    rw [hne]
    simp only [Bool.false_eq_true, if_false]
    omega
  · intro i hm
    exact h.numbered i (hback i hm)
  · intro i hpos'
    refine ⟨(h.held i hpos').1, fun hle => hkeep i ?_ ((h.held i hpos').2 hle)⟩
    rintro rfl
    exact Nat.lt_irrefl 0 (hfree ▸ hpos')
  · intro i ho
    refine ⟨hkeep i ?_ (h.out i ho).1, (h.out i ho).2⟩
    rintro rfl
    exact hout ho

end Wf

/-! ### What is counted and what is noted -/

/-- The free images among these elements. -/
def freeIn (l : List (Option ℕ)) : ℕ :=
  l.countP fun x => x.any fun img => decide (s.others img = 0 ∧ s.imgOut ≠ some img)

/-- The images that were counted as unused are free, and enough of them are left to be trimmed. -/
def Counted : Prop :=
  match s.phase with
  | .count pos allocated used =>
    allocated = allocatedCount (s.imgs.take pos) ∧ allocated ≤ used + s.freeIn (s.imgs.take pos)
  | .decide allocated used => allocated = allocatedCount s.imgs ∧ allocated ≤ used + s.freeIn s.imgs
  | .trim left toTrim target _ allocated _ =>
    left ≤ s.imgs.length ∧ target < allocated ∧ 0 < toTrim ∧ allocatedCount s.imgs = target + toTrim ∧
      toTrim ≤ s.freeIn (s.imgs.take left)
  | _ => True

end ImagePool

/-- When `trim_imgs` counted, and how many images were in use. -/
def Pull.note (p : Pull) : ℕ × ℕ := (p.time, p.used)

/-- Nobody else had the image, and it was allocated for the display that was current. -/
def Pull.Exclusive (p : Pull) : Prop := p.shared = 0 ∧ p.first ≤ p.image ∧ p.image < p.next

/-- What the pool was trimmed to by a pull, after the pulls `earlier`: the peak of the last three seconds. -/
def Pull.Trimmed (earlier : List Pull) (p : Pull) : Prop :=
  ∃ target, IsGreatest (inWindow trimTimeout p.time ((earlier ++ [p]).map Pull.note)) target ∧
    p.kept = min p.allocated target

namespace ImagePool

variable (s : ImagePool)

/-- The note of a pull that has not returned. -/
def pending : PullPhase → List (ℕ × ℕ)
  | .trim _ _ _ time _ used => [(time, used)]
  | _ => []

def notes : List (ℕ × ℕ) := s.pulls.map Pull.note ++ pending s.phase

/-- The timestamps know the last three seconds, and the target is their peak. -/
structure Noted : Prop where
  remembers : Remembers trimTimeout s.now s.imgsUsedTimestamps s.notes
  target : ∀ left toTrim target time allocated used, s.phase = .trim left toTrim target time allocated used →
    time ≤ s.now ∧ IsGreatest (inWindow trimTimeout time s.notes) target

structure Inv : Prop where
  wf : s.Wf
  counted : s.Counted
  noted : s.Noted
  exclusive : ∀ p ∈ s.pulls, p.Exclusive
  trimmed : Always Pull.Trimmed s.pulls

variable {s}

theorem freeIn_mono {t : ImagePool}
    (h : ∀ img, s.others img = 0 ∧ s.imgOut ≠ some img → t.others img = 0 ∧ t.imgOut ≠ some img)
    (l : List (Option ℕ)) : s.freeIn l ≤ t.freeIn l := by
  apply List.countP_mono_left
  intro x _ hx
  obtain ⟨img, rfl, himg⟩ := (Option.any_eq_true _ _).mp hx
  exact (Option.any_eq_true _ _).mpr ⟨img, rfl, decide_eq_true (h img (of_decide_eq_true himg))⟩

/-- Free images stay free, so the count stays good. -/
theorem Counted.mono (h : s.Counted) {t : ImagePool} (himgs : t.imgs = s.imgs) (hphase : t.phase = s.phase)
    (hfree : ∀ img, s.others img = 0 ∧ s.imgOut ≠ some img → t.others img = 0 ∧ t.imgOut ≠ some img) :
    t.Counted := by
  have hmono := freeIn_mono hfree
  unfold Counted at h ⊢
  rw [hphase, himgs]
  cases hp : s.phase with
  | count pos allocated used =>
    rw [hp] at h
    have := hmono (s.imgs.take pos)
    exact ⟨h.1, by omega⟩
  | decide allocated used =>
    rw [hp] at h
    have := hmono s.imgs
    exact ⟨h.1, by omega⟩
  | trim left toTrim target time allocated used =>
    rw [hp] at h
    have := hmono (s.imgs.take left)
    exact ⟨h.1, h.2.1, h.2.2.1, h.2.2.2.1, by omega⟩
  | outside | loop | scan | alloc => trivial

/-- Steps that leave the pool, the picked image, the timestamps and the phase alone. -/
theorem Inv.mono (h : s.Inv) {t : ImagePool} (hwf : t.Wf) (himgs : t.imgs = s.imgs) (hphase : t.phase = s.phase)
    (hfree : ∀ img, s.others img = 0 ∧ s.imgOut ≠ some img → t.others img = 0 ∧ t.imgOut ≠ some img)
    (hlog : t.imgsUsedTimestamps = s.imgsUsedTimestamps) (hpulls : t.pulls = s.pulls) (hnow : s.now ≤ t.now) :
    t.Inv := by
  have hnotes : t.notes = s.notes := by
    unfold notes
    rw [hpulls, hphase]
  refine ⟨hwf, h.counted.mono himgs hphase hfree, ⟨?_, ?_⟩, ?_, ?_⟩
  · rw [hlog, hnotes]
    exact h.noted.remembers.wait hnow
  · intro left toTrim target time allocated used hp
    obtain ⟨htime, hgreatest⟩ := h.noted.target left toTrim target time allocated used (hphase ▸ hp)
    rw [hnotes]
    exact ⟨by omega, hgreatest⟩
  · rw [hpulls]
    exact h.exclusive
  · rw [hpulls]
    exact h.trimmed

/-- The capture thread goes on without a note and without a new pull. -/
theorem Inv.proceed (h : s.Inv) {t : ImagePool} (hwf : t.Wf) (hcounted : t.Counted)
    (hlog : t.imgsUsedTimestamps = s.imgsUsedTimestamps) (hpulls : t.pulls = s.pulls) (hnow : t.now = s.now)
    (hpending : pending s.phase = []) (hpending' : pending t.phase = []) : t.Inv := by
  have hnotes : t.notes = s.notes := by
    unfold notes
    rw [hpulls, hpending, hpending']
  refine ⟨hwf, hcounted, ⟨?_, ?_⟩, ?_, ?_⟩
  · rw [hlog, hnotes, hnow]
    exact h.noted.remembers
  · intro left toTrim target time allocated used hp
    rw [hp] at hpending'
    cases hpending'
  · rw [hpulls]
    exact h.exclusive
  · rw [hpulls]
    exact h.trimmed

/-! ### The steps of the capture thread -/

theorem Wf.handOut (h : s.Wf) {img : ℕ} (himg : s.imgOut = some img) (pulls : List Pull) :
    Wf { s with
      imgOut := none
      phase := .outside
      others := Function.update s.others img (s.others img + 1)
      pulls } where
  length := h.length
  once := h.once
  numbered := h.numbered
  display := h.display
  held := by
    intro i hpos
    by_cases hi : i = img
    · subst hi
      have hmem := (h.out i himg).1
      exact ⟨(h.numbered i hmem).2, fun _ => hmem⟩
    · simp only [Function.update_of_ne hi] at hpos
      exact h.held i hpos
  out := by
    intro i hi
    cases hi
  picked_iff := rfl

/-- An image is handed out: nobody else has it, and the pool has been trimmed to the peak. -/
theorem inv_handOut {time allocated used target : ℕ} (hwf : s.Wf) (hpicked : picked s.phase = true)
    (hremembers : Remembers trimTimeout s.now s.imgsUsedTimestamps (s.pulls.map Pull.note ++ [(time, used)]))
    (hpeak : IsGreatest (inWindow trimTimeout time (s.pulls.map Pull.note ++ [(time, used)])) target)
    (hkept : allocatedCount s.imgs = min allocated target) (hexclusive : ∀ p ∈ s.pulls, p.Exclusive)
    (htrimmed : Always Pull.Trimmed s.pulls) : (s.handOut time allocated used).Inv := by
  obtain ⟨img, himg⟩ := Option.isSome_iff_exists.mp (hwf.picked_iff.trans hpicked)
  obtain ⟨hmem, hfree⟩ := hwf.out img himg
  unfold ImagePool.handOut
  rw [himg]
  refine ⟨hwf.handOut himg _, trivial, ⟨?_, ?_⟩, ?_, ?_⟩
  · simpa [notes, pending, Pull.note] using hremembers
  · intro left toTrim target time allocated used hp
    cases hp
  · intro p hp
    rcases List.mem_append.mp hp with hp | hp
    · exact hexclusive p hp
    · rw [List.mem_singleton.mp hp]
      exact ⟨hfree, hwf.numbered img hmem⟩
  · refine always_snoc.mpr ⟨htrimmed, target, ?_, hkept⟩
    simpa [Pull.note] using hpeak

theorem inv_goScan (h : s.Inv) {pos : ℕ} (hp : s.phase = .scan pos) : (s.goScan pos).Inv := by
  have hpending : pending s.phase = [] := by rw [hp]; rfl
  have hpicked : picked s.phase = false := by rw [hp]; rfl
  unfold goScan
  split
  next => exact h.proceed (h.wf.setPhase hpicked.symm) trivial rfl rfl rfl hpending rfl
  next => exact h.proceed (h.wf.setPhase hpicked.symm) trivial rfl rfl rfl hpending rfl
  next img himg =>
    split
    next hone =>
      have hfree := (h.wf.useCount_eq_one_iff (List.mem_of_getElem? himg)).mp hone
      have hperm := moveToFront_perm himg
      have hwf := (h.wf.perm hperm).pick (hperm.mem_iff.mpr (List.mem_of_getElem? himg)) hfree.1
        (rfl : picked (.count 0 0 0) = true)
      exact h.proceed hwf ⟨rfl, Nat.zero_le _⟩ rfl rfl rfl hpending rfl
    next => exact h.proceed (h.wf.setPhase hpicked.symm) trivial rfl rfl rfl hpending rfl

theorem inv_goAlloc (h : s.Inv) (hp : s.phase = .alloc) (allocates : Bool) : (s.goAlloc allocates).Inv := by
  have hpending : pending s.phase = [] := by rw [hp]; rfl
  have hpicked : picked s.phase = false := by rw [hp]; rfl
  unfold goAlloc
  split
  next => exact h.proceed (h.wf.setPhase hpicked.symm) trivial rfl rfl rfl hpending rfl
  next pos hpos =>
    have hnone : s.imgs[pos]? = some none := by
      obtain ⟨hlt, heq, -⟩ := List.findIdx?_eq_some_iff_getElem.mp hpos
      rw [List.getElem?_eq_getElem hlt, of_decide_eq_true heq]
    split
    next =>
      have hlt := (List.getElem?_eq_some_iff.mp hnone).1
      have hset : (s.imgs.set pos (some s.fresh))[pos]? = some (some s.fresh) := List.getElem?_set_self hlt
      have hperm := moveToFront_perm hset
      have hfree : s.others s.fresh = 0 := by
        apply Nat.eq_zero_of_not_pos
        intro hpos
        exact Nat.lt_irrefl _ (h.wf.held _ hpos).1
      have hwf := ((h.wf.allocate hnone).perm hperm).pick (hperm.mem_iff.mpr (List.mem_of_getElem? hset)) hfree
        (rfl : picked (.count 0 0 0) = true)
      exact h.proceed hwf ⟨rfl, Nat.zero_le _⟩ rfl rfl rfl hpending rfl
    next =>
      have hloop : picked .loop = picked s.phase := hpicked.symm
      have hwf := (h.wf.perm (moveToFront_perm hnone)).setPhase hloop
      exact h.proceed hwf trivial rfl rfl rfl hpending rfl

section Prefixes

variable {pos img : ℕ}

theorem allocatedCount_take_none (h : s.imgs[pos]? = some none) :
    allocatedCount (s.imgs.take (pos + 1)) = allocatedCount (s.imgs.take pos) := by
  rw [List.take_add_one, h]
  simp [allocatedCount]

theorem allocatedCount_take_some (h : s.imgs[pos]? = some (some img)) :
    allocatedCount (s.imgs.take (pos + 1)) = allocatedCount (s.imgs.take pos) + 1 := by
  rw [List.take_add_one, h]
  simp [allocatedCount]

theorem freeIn_take_none (h : s.imgs[pos]? = some none) :
    s.freeIn (s.imgs.take (pos + 1)) = s.freeIn (s.imgs.take pos) := by
  rw [List.take_add_one, h]
  simp [freeIn]

theorem freeIn_take_some (h : s.imgs[pos]? = some (some img)) :
    s.freeIn (s.imgs.take (pos + 1)) =
      s.freeIn (s.imgs.take pos) + if s.others img = 0 ∧ s.imgOut ≠ some img then 1 else 0 := by
  rw [List.take_add_one, h]
  simp [freeIn, List.countP_cons]

end Prefixes

theorem inv_goCount (h : s.Inv) {pos allocated used : ℕ} (hp : s.phase = .count pos allocated used) :
    (s.goCount pos allocated used).Inv := by
  have hpending : pending s.phase = [] := by rw [hp]; rfl
  have hpicked : picked s.phase = true := by rw [hp]; rfl
  have hcounted := h.counted
  unfold Counted at hcounted
  rw [hp] at hcounted
  obtain ⟨hallocated, hle⟩ := hcounted
  unfold goCount
  split
  next hnone =>
    have htake : s.imgs.take pos = s.imgs := List.take_of_length_le (List.getElem?_eq_none_iff.mp hnone)
    rw [htake] at hallocated hle
    exact h.proceed (h.wf.setPhase hpicked.symm) ⟨hallocated, hle⟩ rfl rfl rfl hpending rfl
  next hnone =>
    refine h.proceed (h.wf.setPhase hpicked.symm) ⟨?_, ?_⟩ rfl rfl rfl hpending rfl
    · rw [allocatedCount_take_none hnone]
      exact hallocated
    · show allocated ≤ used + s.freeIn (s.imgs.take (pos + 1))
      rw [freeIn_take_none hnone]
      exact hle
  next img himg =>
    refine h.proceed (h.wf.setPhase hpicked.symm) ⟨?_, ?_⟩ rfl rfl rfl hpending rfl
    · rw [allocatedCount_take_some himg, hallocated]
    · show allocated + 1 ≤ (if 1 < s.useCount img then used + 1 else used) + s.freeIn (s.imgs.take (pos + 1))
      have hmem := List.mem_of_getElem? himg
      have hpos := Wf.one_le_useCount hmem
      have hone := h.wf.useCount_eq_one_iff hmem
      rw [freeIn_take_some himg]
      split
      next => omega
      next hcount =>
        -- an image that is not counted as used is free
        rw [if_pos (hone.mp (by omega))]
        omega

theorem inv_goDecide (h : s.Inv) {allocated used : ℕ} (hp : s.phase = .decide allocated used) :
    (s.goDecide allocated used).Inv := by
  have hpicked : picked s.phase = true := by rw [hp]; rfl
  have hcounted := h.counted
  unfold Counted at hcounted
  rw [hp] at hcounted
  obtain ⟨hallocated, hle⟩ := hcounted
  have hnotes : s.notes = s.pulls.map Pull.note := by
    unfold notes
    rw [hp]
    exact List.append_nil _
  have hold := h.noted.remembers
  rw [hnotes] at hold
  have hremembers := hold.note used
  have hpeak := hremembers.peak_isGreatest (by decide) (List.mem_append_right _ List.mem_cons_self)
  have hused := level_le_peak trimTimeout s.now (noteLevel s.imgsUsedTimestamps used s.now) used
  unfold goDecide
  simp only
  generalize peak trimTimeout s.now (noteLevel s.imgsUsedTimestamps used s.now) used = target at hpeak hused ⊢
  split
  next hlt =>
    have hwf : Wf { s with
        imgsUsedTimestamps := noteLevel s.imgsUsedTimestamps used s.now
        phase := .trim s.imgs.length (allocated - target) target s.now allocated used } :=
      { h.wf with picked_iff := h.wf.picked_iff.trans hpicked }
    refine ⟨hwf, ?_, ⟨hremembers, ?_⟩, h.exclusive, h.trimmed⟩
    · refine ⟨Nat.le_refl _, hlt, by omega, ?_, ?_⟩
      · show allocatedCount s.imgs = target + (allocated - target)
        omega
      · show allocated - target ≤ s.freeIn (s.imgs.take s.imgs.length)
        rw [List.take_length]
        omega
    · intro left toTrim target' time allocated' used' hp'
      cases hp'
      exact ⟨Nat.le_refl _, hpeak⟩
  next hge =>
    have hwf : Wf { s with imgsUsedTimestamps := noteLevel s.imgsUsedTimestamps used s.now } := { h.wf with }
    refine inv_handOut hwf hpicked hremembers hpeak ?_ h.exclusive h.trimmed
    show allocatedCount s.imgs = min allocated target
    rw [← hallocated]
    omega

theorem inv_forget {target time allocated used : ℕ} (hwf : s.Wf) (hpicked : picked s.phase = true)
    (hremembers : Remembers trimTimeout s.now s.imgsUsedTimestamps (s.pulls.map Pull.note ++ [(time, used)]))
    (htime : time ≤ s.now)
    (hpeak : IsGreatest (inWindow trimTimeout time (s.pulls.map Pull.note ++ [(time, used)])) target)
    (hkept : allocatedCount s.imgs = target) (hlt : target < allocated) (hexclusive : ∀ p ∈ s.pulls, p.Exclusive)
    (htrimmed : Always Pull.Trimmed s.pulls) : (s.forget target time allocated used).Inv := by
  have hwf' : Wf { s with imgsUsedTimestamps := resizeLog s.imgsUsedTimestamps (target + 1) } := { hwf with }
  refine inv_handOut hwf' hpicked (hremembers.forget ?_) hpeak ?_ hexclusive htrimmed
  · intro i hi
    exact hpeak.2 (inWindow_anti htime hi)
  · show allocatedCount s.imgs = min allocated target
    omega

theorem allocatedCount_set_none {imgs : List (Option ℕ)} {pos img : ℕ} (h : imgs[pos]? = some (some img)) :
    allocatedCount (imgs.set pos none) + 1 = allocatedCount imgs := by
  obtain ⟨hlt, himg⟩ := List.getElem?_eq_some_iff.mp h
  have hpos : 0 < imgs.countP Option.isSome := by
    rw [List.countP_pos_iff]
    exact ⟨some img, List.mem_of_getElem? h, rfl⟩
  unfold allocatedCount
  rw [List.countP_set hlt, himg]
  simp only [Option.isSome_some, Option.isSome_none, if_true, Bool.false_eq_true, if_false]
  omega

/-- One element of the trimming loop.  As many images are free among those to come as there are to be freed. -/
theorem inv_goTrim (h : s.Inv) {left toTrim target time allocated used : ℕ}
    (hp : s.phase = .trim left toTrim target time allocated used) :
    (s.goTrim left toTrim target time allocated used).Inv := by
  have hpicked : picked s.phase = true := by rw [hp]; rfl
  have hcounted := h.counted
  unfold Counted at hcounted
  rw [hp] at hcounted
  obtain ⟨hleft, hlt, htoTrim, hallocated, henough⟩ := hcounted
  have hremembers := h.noted.remembers
  obtain ⟨htime, hpeak⟩ := h.noted.target _ _ _ _ _ _ hp
  have hnotes : s.notes = s.pulls.map Pull.note ++ [(time, used)] := by
    unfold notes
    rw [hp]
    rfl
  rw [hnotes] at hremembers hpeak
  -- the loop goes on with the same count, or with one image less
  have hgoOn : ∀ imgs : List (Option ℕ), ∀ left' toTrim' : ℕ, Wf { s with imgs } → left' ≤ imgs.length →
      0 < toTrim' → allocatedCount imgs = target + toTrim' → toTrim' ≤ s.freeIn (imgs.take left') →
      Inv { s with imgs, phase := .trim left' toTrim' target time allocated used } := by
    intro imgs left' toTrim' hwf hle hpos hcount hfree
    refine ⟨hwf.setPhase hpicked.symm, ⟨hle, hlt, hpos, hcount, hfree⟩, ⟨hremembers, ?_⟩, h.exclusive, h.trimmed⟩
    intro _ _ _ _ _ _ hp'
    cases hp'
    exact ⟨htime, hpeak⟩
  unfold goTrim
  split
  next =>
    rw [List.take_zero] at henough
    have : s.freeIn [] = 0 := rfl
    omega
  next left =>
    split
    next img himg =>
      rw [freeIn_take_some himg] at henough
      have hone := h.wf.useCount_eq_one_iff (List.mem_of_getElem? himg)
      split
      next hcount =>
        have hfree := hone.mp hcount
        rw [if_pos hfree] at henough
        have hset := allocatedCount_set_none himg
        have hwf := h.wf.free himg hfree.1 hfree.2
        have htake : (s.imgs.set left none).take left = s.imgs.take left := List.take_set_of_le (Nat.le_refl _)
        simp only
        split
        next hzero =>
          have hdone : allocatedCount (s.imgs.set left none) = target := by omega
          exact inv_forget hwf hpicked hremembers htime hpeak hdone hlt h.exclusive h.trimmed
        next hzero =>
          refine hgoOn _ left (toTrim - 1) hwf ?_ (by omega) (by omega) ?_
          · rw [List.length_set]
            omega
          · rw [htake]
            omega
      next hcount =>
        rw [if_neg fun hfree => hcount (hone.mpr hfree)] at henough
        exact hgoOn s.imgs left toTrim h.wf (by omega) htoTrim hallocated henough
    next hnot =>
      have hnone : s.imgs[left]? = some none := by
        cases hx : s.imgs[left]? with
        | none =>
          have := List.getElem?_eq_none_iff.mp hx
          omega
        | some x =>
          cases x with
          | none => rfl
          | some img => exact absurd hx (hnot img)
      rw [freeIn_take_none hnone] at henough
      exact hgoOn s.imgs left toTrim h.wf (by omega) htoTrim hallocated henough

theorem inv_go (h : s.Inv) {allocates : Bool} {t : ImagePool} (hstep : s.go allocates = some t) : t.Inv := by
  unfold go at hstep
  split at hstep
  next => cases hstep
  next hp =>
    obtain rfl := Option.some.inj hstep
    have hpicked : picked (if s.running then PullPhase.scan 0 else .outside) = picked s.phase := by
      rw [hp]
      split <;> rfl
    refine h.proceed (h.wf.setPhase hpicked) ?_ rfl rfl rfl (by rw [hp]; rfl) ?_
    · unfold Counted
      cases s.running <;> trivial
    · show pending (if s.running then PullPhase.scan 0 else .outside) = []
      split <;> rfl
  next hp =>
    obtain rfl := Option.some.inj hstep
    exact inv_goScan h hp
  next hp =>
    obtain rfl := Option.some.inj hstep
    exact inv_goAlloc h hp allocates
  next hp =>
    obtain rfl := Option.some.inj hstep
    exact inv_goCount h hp
  next hp =>
    obtain rfl := Option.some.inj hstep
    exact inv_goDecide h hp
  next hp =>
    obtain rfl := Option.some.inj hstep
    exact inv_goTrim h hp

/-! ### The steps of the others -/

/-- Another thread copies or drops a pointer that it has. -/
theorem inv_setOthers (h : s.Inv) {img n : ℕ} (hpos : 0 < s.others img) :
    Inv { s with others := Function.update s.others img n } := by
  have hother : ∀ i, s.others i = 0 → Function.update s.others img n i = 0 := by
    intro i hi
    have hne : i ≠ img := by
      rintro rfl
      omega
    rw [Function.update_of_ne hne]
    exact hi
  refine h.mono { h.wf with held := ?_, out := ?_ } rfl rfl ?_ rfl rfl (Nat.le_refl _)
  · intro i hi
    by_cases heq : i = img
    · subst heq
      exact h.wf.held i hpos
    · simp only [Function.update_of_ne heq] at hi
      exact h.wf.held i hi
  · intro i hi
    exact ⟨(h.wf.out i hi).1, hother i (h.wf.out i hi).2⟩
  · rintro i ⟨hi, hne⟩
    exact ⟨hother i hi, hne⟩

theorem inv_reinit (h : s.Inv) (hp : s.phase = .outside) :
    Inv { s with imgs := s.imgs.map fun _ => none, firstOfDisplay := s.fresh } := by
  have hnotin : ∀ img, some img ∉ s.imgs.map fun _ => (none : Option ℕ) := by
    intro img hm
    obtain ⟨_, -, heq⟩ := List.mem_map.mp hm
    cases heq
  have hout : s.imgOut = none := by
    have hpicked := h.wf.picked_iff
    rw [hp] at hpicked
    cases ho : s.imgOut with
    | none => rfl
    | some img =>
      rw [ho] at hpicked
      cases hpicked
  refine h.proceed ⟨?_, ?_, ?_, Nat.le_refl _, ?_, ?_, h.wf.picked_iff⟩ ?_ rfl rfl rfl (by rw [hp]; rfl)
    (by show pending s.phase = []; rw [hp]; rfl)
  · exact (List.length_map ..).trans h.wf.length
  · intro img
    rw [List.count_eq_zero.mpr (hnotin img)]
    exact Nat.zero_le _
  · intro img hm
    exact absurd hm (hnotin img)
  · intro img hpos
    have hlt := (h.wf.held img hpos).1
    refine ⟨hlt, fun hle => ?_⟩
    have hle' : s.fresh ≤ img := hle
    omega
  · intro img hi
    rw [hout] at hi
    cases hi
  · unfold Counted
    simp only [hp]

theorem inv_step (h : s.Inv) {e : PoolEvent} {t : ImagePool} (hstep : s.step e = some t) : t.Inv := by
  cases e with
  | pull =>
    obtain ⟨hp, rfl⟩ := of_ite_some hstep
    exact h.proceed (h.wf.setPhase (by rw [hp]; rfl)) trivial rfl rfl rfl (by rw [hp]; rfl) rfl
  | go allocates => exact inv_go h hstep
  | copy img =>
    obtain ⟨hpos, rfl⟩ := of_ite_some hstep
    exact inv_setOthers h hpos
  | release img =>
    obtain ⟨hpos, rfl⟩ := of_ite_some hstep
    exact inv_setOthers h hpos
  | wait d =>
    obtain rfl := Option.some.inj hstep
    exact h.mono { h.wf with } rfl rfl (fun _ => id) rfl rfl (Nat.le_add_right _ _)
  | stop =>
    obtain rfl := Option.some.inj hstep
    exact h.mono { h.wf with } rfl rfl (fun _ => id) rfl rfl (Nat.le_refl _)
  | reinit =>
    obtain ⟨hp, rfl⟩ := of_ite_some hstep
    exact inv_reinit h hp

theorem inv_init : Inv {} where
  wf := by
    refine ⟨rfl, ?_, ?_, Nat.le_refl _, ?_, ?_, rfl⟩
    · intro img
      rw [List.count_eq_zero.mpr (by simp)]
      exact Nat.zero_le _
    · intro img hm
      simp at hm
    · intro img hpos
      exact absurd hpos (Nat.lt_irrefl _)
    · intro img hi
      cases hi
  counted := trivial
  noted := by
    refine ⟨Remembers.nil _ _, ?_⟩
    intro _ _ _ _ _ _ hp
    cases hp
  exclusive := by
    intro p hp
    cases hp
  trimmed := always_nil

theorem run_inv {es : List PoolEvent} (h : Run (ofPartial step) {} es s) : s.Inv :=
  h.invariant (fun _ _ _ hs hst => inv_step hs hst) inv_init

/-! ### Whole runs -/

theorem Wf.mem_of_useCount_pos (h : s.Wf) {img : ℕ} (hdisplay : s.firstOfDisplay ≤ img) (hpos : 0 < s.useCount img) :
    some img ∈ s.imgs := by
  by_cases hothers : 0 < s.others img
  · exact (h.held img hothers).2 hdisplay
  · by_cases hout : s.imgOut = some img
    · exact (h.out img hout).1
    · unfold useCount at hpos
      rw [if_neg hout] at hpos
      exact List.count_pos_iff.mp (by omega)

/-- **Exclusive images.**  Whatever the threads do, an image is handed out when nobody else has it, and it was allocated
for the display that is current then; the images that the capture thread allocated for the current display and that are
alive are all in the pool, so there are at most twelve. -/
theorem pulls_exclusive {es : List PoolEvent} (h : Run (ofPartial step) {} es s) :
    (∀ p ∈ s.pulls, p.Exclusive) ∧
      (∀ img, some img ∈ s.imgs → s.firstOfDisplay ≤ img) ∧
      (∀ img, s.firstOfDisplay ≤ img → 0 < s.useCount img → some img ∈ s.imgs) ∧
      ∀ alive : List ℕ, alive.Nodup → (∀ img ∈ alive, s.firstOfDisplay ≤ img ∧ 0 < s.useCount img) →
        alive.length ≤ captureBufferSize := by
  have hinv := run_inv h
  refine ⟨hinv.exclusive, fun img hm => (hinv.wf.numbered img hm).1, fun img => hinv.wf.mem_of_useCount_pos, ?_⟩
  intro alive hnodup halive
  have hsub : alive.map some ⊆ s.imgs := by
    intro x hx
    obtain ⟨img, hm, rfl⟩ := List.mem_map.mp hx
    exact hinv.wf.mem_of_useCount_pos (halive img hm).1 (halive img hm).2
  have hlength := ((hnodup.map (Option.some_injective ℕ)).subperm hsub).length_le
  rw [List.length_map, hinv.wf.length] at hlength
  exact hlength

/-- **The pool is trimmed to the peak of the last three seconds.**  After a pull the pool has as many images as were in
use at some pull of the last three seconds, this one included, or all that it had, if these were fewer. -/
theorem pulls_window {es : List PoolEvent} (h : Run (ofPartial step) {} es s) : Always Pull.Trimmed s.pulls :=
  (run_inv h).trimmed

/-- Two images are pulled and dropped; three seconds later one is enough. -/
def sessionPulls : List PoolEvent :=
  .pull :: List.replicate 29 (.go true) ++ .pull :: List.replicate 29 (.go true) ++
    [.release 0, .release 1, .wait trimTimeout, .pull] ++ List.replicate 27 (.go true)

/-- What is recorded of these three pulls. -/
def recordedPulls : List Pull :=
  [⟨0, 0, 1, 1, 1, 0, 0, 1⟩, ⟨1, 0, 2, 2, 2, 0, 0, 2⟩, ⟨1, trimTimeout, 2, 1, 1, 0, 0, 2⟩]

theorem exists_sessionPulls : ∃ t, Run (ofPartial step) {} sessionPulls t ∧ t.pulls = recordedPulls := by
  obtain ⟨t, hrun, hpulls⟩ := exists_run_execWhere_and (f := step) (G := fun _ _ => True) (s := {})
    (l := sessionPulls) (P := fun t => t.pulls = recordedPulls) (by decide +kernel)
  exact ⟨t, hrun.of_guarded, hpulls⟩

theorem pulls_exclusive_session : ∃ t : ImagePool, t.pulls.length = 3 ∧ ∀ p ∈ t.pulls, p.Exclusive := by
  obtain ⟨t, hrun, hpulls⟩ := exists_sessionPulls
  exact ⟨t, by rw [hpulls]; rfl, (pulls_exclusive hrun).1⟩

theorem pulls_window_session : ∃ t : ImagePool, t.pulls.length = 3 ∧ Always Pull.Trimmed t.pulls := by
  obtain ⟨t, hrun, hpulls⟩ := exists_sessionPulls
  exact ⟨t, by rw [hpulls]; rfl, pulls_window hrun⟩

end ImagePool

end MidnightSun.Video
