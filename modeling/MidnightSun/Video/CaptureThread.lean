import Mathlib.Data.List.Nodup
import Mathlib.Logic.Function.Basic
import MidnightSun.Lib.Run
import MidnightSun.Safe.Queue

/-!
# The shared capture thread (src/video.cpp, `captureThread`, `capture_async`)

All sessions with a parallel encoder share one capture thread.  A session hands its context over on
`capture_ctx_queue`; the thread moves it into `capture_ctxs` and takes it out again when it finds the images queue of
the session stopped.  The thread is started by the first reference to `capture_thread_async` and joined by the last
release.

* `exit_releases`: at its exit the thread leaves no session behind that it had taken, that was still queued, or that
  raised its context too late;
* `serves_all`: unless all sessions leave whose joins are not queued any more, the thread always finds a context at the
  front of the vector, and no context that was raised in time is forgotten.
-/

namespace MidnightSun.Video

open Safe Lib

/-- `platf::capture_e`. -/
inductive CaptureE where
  | ok
  | reinit
  | timeout
  | interrupted
  | error
  deriving DecidableEq

/-- Where a call of `capture_async` is. -/
inductive CallerPlace where
  | idle
  /-- holds a reference to the thread's state -/
  | referenced
  /-- its context has been raised, `running()` is next -/
  | raised
  | streaming
  /-- returns: `ref` is destroyed next -/
  | leaving
  /-- in `end_capture_async` -/
  | joining
  /-- the scope guard is next -/
  | released
  | returned
  deriving DecidableEq

/-- Where `captureThread` is. -/
inductive ThreadPlace where
  | absent
  /-- `capture_ctx_queue->pop()`, before the first context -/
  | initial
  /-- `platf::display(…, capture_ctxs.front().config)` -/
  | opening
  /-- `while (capture_ctx_queue->running())` -/
  | loop
  /-- in `disp->capture` -/
  | capture
  /-- in `push_captured_image_callback`, at this element of `capture_ctxs` -/
  | pushing (pos : ℕ)
  /-- `running()`, after the first loop of the callback -/
  | pushed
  | peek
  | pop
  /-- `while (display_wp->use_count() != 1)` -/
  | waiting
  /-- in that loop, at this element of `capture_ctxs` -/
  | sweeping (pos : ℕ)
  /-- `while (capture_ctx_queue->running())`, after that loop -/
  | reopening
  /-- `reset_display(…, capture_ctxs.front().config)` -/
  | front
  /-- the exit guard: before `stop()`, after it, and at its end -/
  | exiting
  | stopped
  | finished
  /-- after `front()` of an empty vector or `*` of an empty optional -/
  | undefined
  deriving DecidableEq

/-- The calls of `capture_async`, named by numbers, and the thread.  A call's number stands for its context and for the
images queue in it. -/
structure CaptureAsync where
  /-- `_count` of `capture_thread_async` -/
  count : ℕ := 0
  /-- the last release is in `end_capture_async` and holds the lock -/
  destroying : Bool := false
  captureCtxQueue : Queue ℕ := { maxElements := 30 }
  place : ThreadPlace := .absent
  captureCtxs : List ℕ := []
  /-- does the thread hold a display -/
  disp : Bool := false
  artificialReinit : Bool := false
  calls : ℕ → CallerPlace := fun _ => .idle
  /-- the images queues that have been stopped -/
  imagesStopped : ℕ → Bool := fun _ => false
  /-- ghost: raised before the queue was stopped -/
  accepted : List ℕ := []
  /-- ghost: cleared from a full queue -/
  dropped : List ℕ := []
  /-- ghost: raised after the queue was stopped -/
  late : List ℕ := []
  /-- ghost: taken from the queue by the thread -/
  took : List ℕ := []
  /-- ghost: found stopped by one of the erasing loops -/
  gone : List ℕ := []
  /-- ghost: when the last wait for the display ended, some session was there whose join was not queued -/
  stayed : Bool := true

inductive CaptureOp where
  /-- `capture_thread_async.ref()` -/
  | ref (c : ℕ)
  | raise (c : ℕ)
  /-- `if (!ref->capture_ctx_queue->running())` -/
  | observe (c : ℕ)
  /-- `while (!shutdown_event->peek() && images->running())` -/
  | test (c : ℕ) (shutdown : Bool)
  /-- no encode device -/
  | fail (c : ℕ)
  | release (c : ℕ)
  /-- `capture_thread.join()` returns -/
  | joined (c : ℕ)
  /-- the scope guard: `images->stop()` -/
  | stopImages (c : ℕ)
  | initialPop
  | openDisplay (ok : Bool)
  | running
  /-- `disp->capture` calls `push_captured_image_callback` -/
  | callback
  /-- `disp->capture` returns -/
  | status (status : CaptureE)
  /-- one context in one of the two erasing loops, or the end of the loop -/
  | check
  | stillRunning
  /-- `capture_ctx_queue->peek()`, and `switch_display_event->peek()` after it -/
  | peek (switchDisplay : Bool)
  | pop
  | useCount (last : Bool)
  | reopen
  | front (ok : Bool)
  | stop
  | stopAll

/-- The step is one of a call of `capture_async`. -/
def CaptureOp.ofCall : CaptureOp → Bool
  | ref _ | raise _ | observe _ | test .. | fail _ | release _ | joined _ | stopImages _ => true
  | _ => false

namespace CaptureAsync

/-- `start_capture_async`, and the thread it starts. -/
def startCaptureAsync (w : CaptureAsync) : CaptureAsync :=
  { count := w.count
    destroying := w.destroying
    captureCtxQueue := { maxElements := 30 }
    place := .initial
    calls := w.calls
    imagesStopped := w.imagesStopped }

/-- The body of the two erasing loops at `pos`: the context is erased if its images queue is stopped. -/
def eraseStopped (w : CaptureAsync) (pos c : ℕ) (again : ℕ → ThreadPlace) : CaptureAsync :=
  if w.imagesStopped c then
    { w with captureCtxs := w.captureCtxs.eraseIdx pos, gone := w.gone ++ [c], place := again pos }
  else { w with place := again (pos + 1) }

/-- `capture_ctxs.front()`: the thread goes on to `p` with a display or without one. -/
def withFront (w : CaptureAsync) (ok : Bool) (p : ThreadPlace) : CaptureAsync :=
  match w.captureCtxs with
  | [] => { w with place := .undefined }
  | _ :: _ => { w with disp := ok, place := p }

/-- Some session has joined that is not queued and has not left. -/
def SomeStays (w : CaptureAsync) : Prop :=
  ∃ c ∈ w.accepted, c ∉ w.captureCtxQueue.queue ∧ w.imagesStopped c = false

instance (w : CaptureAsync) : Decidable w.SomeStays := List.decidableBEx _ _

/-- One step of a call or of the thread, where it is enabled. -/
def step (w : CaptureAsync) : CaptureOp → Option CaptureAsync
  | .ref c =>
    if w.calls c = .idle ∧ w.destroying = false then
      let w := if w.count = 0 then w.startCaptureAsync else w
      some { w with count := w.count + 1, calls := Function.update w.calls c .referenced }
    else none
  | .raise c =>
    if w.calls c = .referenced then
      let q := w.captureCtxQueue
      let w := { w with captureCtxQueue := q.raise c, calls := Function.update w.calls c .raised }
      some <| if q.running then
          { w with
            accepted := w.accepted ++ [c]
            dropped := if q.queue.length = q.maxElements then w.dropped ++ q.queue else w.dropped }
        else { w with late := w.late ++ [c] }
    else none
  | .observe c =>
    if w.calls c = .raised then
      some { w with
        calls := Function.update w.calls c (if w.captureCtxQueue.running then .streaming else .leaving) }
    else none
  | .test c shutdown =>
    if w.calls c = .streaming then
      some { w with
        calls := Function.update w.calls c (if shutdown || w.imagesStopped c then .leaving else .streaming) }
    else none
  | .fail c =>
    if w.calls c = .streaming then some { w with calls := Function.update w.calls c .leaving } else none
  | .release c =>
    if w.calls c = .leaving then
      some <| if w.count - 1 = 0 then
          -- `end_capture_async`
          { w with
            count := w.count - 1
            destroying := true
            captureCtxQueue := w.captureCtxQueue.stop
            calls := Function.update w.calls c .joining }
        else { w with count := w.count - 1, calls := Function.update w.calls c .released }
    else none
  | .joined c =>
    if w.calls c = .joining ∧ w.place = .finished then
      some { w with destroying := false, place := .absent, calls := Function.update w.calls c .released }
    else none
  | .stopImages c =>
    if w.calls c = .released then
      some { w with
        imagesStopped := Function.update w.imagesStopped c true
        calls := Function.update w.calls c .returned }
    else none
  | .initialPop =>
    if w.place = .initial then
      match w.captureCtxQueue.pop with
      | .stopped => some { w with place := .exiting }
      | .waits => none
      | .element c q =>
        some { w with
          captureCtxQueue := q, captureCtxs := w.captureCtxs ++ [c], took := w.took ++ [c], place := .opening }
    else none
  | .openDisplay ok =>
    if w.place = .opening then some (w.withFront ok (if ok then .loop else .exiting)) else none
  | .running =>
    if w.place = .loop then
      some { w with artificialReinit := false, place := if w.captureCtxQueue.running then .capture else .exiting }
    else none
  | .callback => if w.place = .capture then some { w with place := .pushing 0 } else none
  | .status status =>
    if w.place = .capture then
      let status := if w.artificialReinit && status != .error then .reinit else status
      some { w with place := if status = .reinit then .waiting else .exiting }
    else none
  | .check =>
    match w.place with
    | .pushing pos =>
      match w.captureCtxs[pos]? with
      | some c => some (w.eraseStopped pos c .pushing)
      | none => some { w with place := .pushed }
    | .sweeping pos =>
      match w.captureCtxs[pos]? with
      | some c => some (w.eraseStopped pos c .sweeping)
      | none => some { w with place := .waiting }
    | _ => none
  | .stillRunning =>
    if w.place = .pushed then some { w with place := if w.captureCtxQueue.running then .peek else .capture }
    else none
  | .peek switchDisplay =>
    if w.place = .peek then
      some <| if w.captureCtxQueue.peek then { w with place := .pop }
        else { w with artificialReinit := w.artificialReinit || switchDisplay, place := .capture }
    else none
  | .pop =>
    if w.place = .pop then
      match w.captureCtxQueue.pop with
      | .stopped => some { w with place := .undefined }
      | .waits => none
      | .element c q =>
        some { w with
          captureCtxQueue := q, captureCtxs := w.captureCtxs ++ [c], took := w.took ++ [c], place := .peek }
    else none
  | .useCount last =>
    if w.place = .waiting then
      some { w with stayed := decide w.SomeStays, place := if last then .reopening else .sweeping 0 }
    else none
  | .reopen =>
    if w.place = .reopening then
      some <| if w.captureCtxQueue.running then { w with disp := false, place := .front }
        else { w with place := if w.disp then .loop else .exiting }
    else none
  | .front ok => if w.place = .front then some (w.withFront ok (if ok then .loop else .reopening)) else none
  | .stop =>
    if w.place = .exiting then some { w with captureCtxQueue := w.captureCtxQueue.stop, place := .stopped } else none
  | .stopAll =>
    if w.place = .stopped then
      some { w with
        imagesStopped := fun c =>
          w.imagesStopped c || w.captureCtxs.contains c || w.captureCtxQueue.queue.contains c
        place := .finished }
    else none

end CaptureAsync

abbrev CaptureAsyncStep : CaptureAsync → CaptureOp → CaptureAsync → Prop := ofPartial CaptureAsync.step

/-- The call is on its way out. -/
def CallerPlace.returning : CallerPlace → Bool
  | leaving | joining | released | returned => true
  | _ => false

/-- The call is released: it finds its images queue stopped or the context queue stopped and returns, or is returning
already. -/
def CaptureAsync.Released (w : CaptureAsync) (c : ℕ) : Prop :=
  w.imagesStopped c = true ∨ (w.calls c = .raised ∧ w.captureCtxQueue.running = false) ∨
    (w.calls c).returning = true

/-! ### The invariant -/

/-- A place of which the invariant says nothing. -/
def ThreadPlace.plain : ThreadPlace → Bool
  | opening | stopped | finished => false
  | _ => true

/-- The contexts that were raised in time, wherever they are now. -/
def CaptureAsync.known (w : CaptureAsync) : List ℕ := w.captureCtxQueue.queue ++ w.took ++ w.dropped

structure AsyncInv (w : CaptureAsync) : Prop where
  absent : w.count = 0 → w.destroying = false → w.place = .absent
  nodup : w.known.Nodup
  away : ∀ c ∈ w.known, w.calls c ≠ .idle ∧ w.calls c ≠ .referenced
  accepted : ∀ c, c ∈ w.accepted ↔ c ∈ w.known
  ctxs : w.captureCtxs = w.took.filter fun c => c ∉ w.gone
  gone : ∀ c ∈ w.gone, c ∈ w.took ∧ w.imagesStopped c = true
  opening : w.place = .opening → w.captureCtxs ≠ []
  late : ∀ c ∈ w.late, w.captureCtxQueue.running = false ∧ (w.calls c = .raised ∨ (w.calls c).returning = true)
  stopped : w.place = .stopped ∨ w.place = .finished → w.captureCtxQueue.running = false
  finished : w.place = .finished → ∀ c ∈ w.captureCtxQueue.queue ++ w.took, w.imagesStopped c = true

variable {w w' : CaptureAsync}

theorem asyncInv_init : AsyncInv {} where
  absent _ _ := rfl
  nodup := List.nodup_nil
  away c hc := by cases hc
  accepted _ := Iff.rfl
  ctxs := rfl
  gone c hc := by cases hc
  opening h := by cases h
  late c hc := by cases hc
  stopped h := by rcases h with h | h <;> cases h
  finished h := by cases h

/-- A call goes on.  A context raised in time never goes back to a call that has not raised it, and a call that raised
its context too late never streams. -/
theorem AsyncInv.setCall (hI : AsyncInv w) {c : ℕ} {p : CallerPlace}
    (hp : (p ≠ .idle ∧ p ≠ .referenced) ∨ c ∉ w.known)
    (hlate : p = .raised ∨ p.returning = true ∨ c ∉ w.late) :
    AsyncInv { w with calls := Function.update w.calls c p } := by
  refine { hI with away := fun x hx => ?_, late := fun x hx => ?_ }
  · rcases eq_or_ne x c with rfl | hne
    · rcases hp with hp | hp
      · simpa using hp
      · exact absurd hx hp
    · simpa [Function.update_of_ne hne] using hI.away x hx
  · obtain ⟨hrun, hx'⟩ := hI.late x hx
    refine ⟨hrun, ?_⟩
    rcases eq_or_ne x c with rfl | hne
    · rcases hlate with rfl | hret | hnot
      · simp
      · simpa using Or.inr hret
      · exact absurd hx hnot
    · simpa [Function.update_of_ne hne] using hx'

theorem AsyncInv.not_late_of_running (hI : AsyncInv w) (hrun : w.captureCtxQueue.running = true) (c : ℕ) :
    c ∉ w.late := by
  intro hc
  have hstopped := (hI.late c hc).1
  rw [hrun] at hstopped
  cases hstopped

theorem AsyncInv.setCount (hI : AsyncInv w) {n : ℕ} (hn : n ≠ 0) : AsyncInv { w with count := n } :=
  { hI with absent := fun h => absurd h hn }

theorem AsyncInv.setPlace (hI : AsyncInv w) (hw : w.place ≠ .absent) {p : ThreadPlace} (hp : p.plain = true) :
    AsyncInv { w with place := p } where
  absent hc hd := absurd (hI.absent hc hd) hw
  nodup := hI.nodup
  away := hI.away
  accepted := hI.accepted
  ctxs := hI.ctxs
  gone := hI.gone
  opening h := by cases h; cases hp
  late := hI.late
  stopped h := by rcases h with h | h <;> cases h <;> cases hp
  finished h := by cases h; cases hp

theorem AsyncInv.withFront (hI : AsyncInv w) (hw : w.place ≠ .absent) {ok : Bool} {p : ThreadPlace}
    (hp : p.plain = true) : AsyncInv (w.withFront ok p) := by
  unfold CaptureAsync.withFront
  split
  · exact hI.setPlace hw rfl
  · have := hI.setPlace hw hp
    exact { this with }

theorem asyncInv_startCaptureAsync {n : ℕ} (hn : n ≠ 0) :
    AsyncInv { w.startCaptureAsync with count := n } where
  absent h _ := absurd h hn
  nodup := List.nodup_nil
  away c hc := by cases hc
  accepted _ := Iff.rfl
  ctxs := rfl
  gone c hc := by cases hc
  opening h := by cases h
  late c hc := by cases hc
  stopped h := by rcases h with h | h <;> cases h
  finished h := by cases h

/-- What `raise` does to the contexts that are known, on a running queue. -/
theorem known_raise (w : CaptureAsync) (c : ℕ) (hrun : w.captureCtxQueue.running = true) :
    ((w.captureCtxQueue.raise c).queue ++ w.took ++
      (if w.captureCtxQueue.queue.length = w.captureCtxQueue.maxElements then w.dropped ++ w.captureCtxQueue.queue
        else w.dropped)).Perm (c :: w.known) := by
  rw [Queue.raise, if_pos hrun]
  split
  · refine (List.Perm.cons c ?_)
    change (w.took ++ (w.dropped ++ w.captureCtxQueue.queue)).Perm w.known
    rw [← List.append_assoc, CaptureAsync.known, List.append_assoc w.captureCtxQueue.queue]
    exact List.perm_append_comm
  · rw [CaptureAsync.known, List.append_assoc, List.append_assoc, List.append_assoc]
    exact List.perm_middle

theorem AsyncInv.raise (hI : AsyncInv w) {c : ℕ} (hc : w.calls c = .referenced)
    (hrun : w.captureCtxQueue.running = true) :
    AsyncInv { w with
      captureCtxQueue := w.captureCtxQueue.raise c
      calls := Function.update w.calls c .raised
      accepted := w.accepted ++ [c]
      dropped := if w.captureCtxQueue.queue.length = w.captureCtxQueue.maxElements then
          w.dropped ++ w.captureCtxQueue.queue else w.dropped } := by
  have hperm := known_raise w c hrun
  have hnew : c ∉ w.known := fun h => (hI.away c h).2 hc
  have hmem : ∀ x, x ∈ (w.captureCtxQueue.raise c).queue ++ w.took ++
      (if w.captureCtxQueue.queue.length = w.captureCtxQueue.maxElements then w.dropped ++ w.captureCtxQueue.queue
        else w.dropped) ↔ x = c ∨ x ∈ w.known := fun x => hperm.mem_iff.trans List.mem_cons
  refine ⟨hI.absent, hperm.nodup_iff.mpr (List.nodup_cons.mpr ⟨hnew, hI.nodup⟩), fun x hx => ?_, fun x => ?_,
    hI.ctxs, hI.gone, hI.opening, fun x hx => absurd hx (hI.not_late_of_running hrun x), fun h => ?_, fun h => ?_⟩
  · rcases eq_or_ne x c with rfl | hne
    · simp
    · have := ((hmem x).mp hx).resolve_left hne
      simpa [Function.update_of_ne hne] using hI.away x this
  · rw [List.mem_append, List.mem_singleton, hI.accepted, or_comm]
    exact (hmem x).symm
  · have := hI.stopped h
    rw [hrun] at this
    cases this
  · have := hI.stopped (Or.inr h)
    rw [hrun] at this
    cases this

theorem AsyncInv.raiseLate (hI : AsyncInv w) {c : ℕ} (hc : w.calls c = .referenced)
    (hrun : w.captureCtxQueue.running = false) :
    AsyncInv { w with
      captureCtxQueue := w.captureCtxQueue.raise c
      calls := Function.update w.calls c .raised
      late := w.late ++ [c] } := by
  have hq : w.captureCtxQueue.raise c = w.captureCtxQueue := by simp [Queue.raise, hrun]
  rw [hq]
  have hset := hI.setCall (c := c) (p := .raised) (Or.inl (by simp)) (Or.inl rfl)
  refine { hset with late := fun x hx => ?_ }
  rcases List.mem_append.mp hx with hx | hx
  · exact hset.late x hx
  · obtain rfl := List.mem_singleton.mp hx
    exact ⟨hrun, Or.inl (by simp)⟩

/-- The thread takes the oldest context from the queue. -/
theorem AsyncInv.take (hI : AsyncInv w) (hw : w.place ≠ .absent) {c : ℕ} {q : Queue ℕ} {p : ThreadPlace}
    (hpop : w.captureCtxQueue.pop = .element c q) (hs : p ≠ .stopped) (hf : p ≠ .finished) :
    AsyncInv { w with
      captureCtxQueue := q, captureCtxs := w.captureCtxs ++ [c], took := w.took ++ [c], place := p } := by
  obtain ⟨hrun, hqueue, hqrun, -⟩ := Queue.pop_eq_element hpop
  have hperm : (q.queue ++ (w.took ++ [c]) ++ w.dropped).Perm w.known := by
    rw [CaptureAsync.known, hqueue, ← List.append_assoc q.queue, List.cons_append]
    exact List.Perm.append_right _ (List.perm_append_singleton c _)
  have hnot : c ∉ w.took := by
    have := hI.nodup
    rw [CaptureAsync.known, hqueue, List.append_assoc, List.cons_append, List.nodup_cons] at this
    exact fun h => this.1 (List.mem_append_right _ (List.mem_append_left _ h))
  have hgone : c ∉ w.gone := fun h => hnot (hI.gone c h).1
  refine ⟨fun hc hd => absurd (hI.absent hc hd) hw, hperm.nodup_iff.mpr hI.nodup,
    fun x hx => hI.away x (hperm.mem_iff.mp hx), fun x => (hI.accepted x).trans hperm.mem_iff.symm, ?_,
    fun x hx => ⟨List.mem_append_left _ (hI.gone x hx).1, (hI.gone x hx).2⟩, fun _ => by simp,
    fun x hx => absurd hx (hI.not_late_of_running hrun x), fun h => ?_, fun h => absurd h hf⟩
  · rw [List.filter_append, hI.ctxs]
    simp [hgone]
  · rcases h with h | h <;> contradiction

/-- One of the erasing loops comes to the context `c`. -/
theorem AsyncInv.eraseStopped (hI : AsyncInv w) (hw : w.place ≠ .absent) {pos c : ℕ} {again : ℕ → ThreadPlace}
    (hc : w.captureCtxs[pos]? = some c) (hp : ∀ n, (again n).plain = true) :
    AsyncInv (w.eraseStopped pos c again) := by
  unfold CaptureAsync.eraseStopped
  split
  next hstopped =>
    obtain ⟨hlt, hget⟩ := List.getElem?_eq_some_iff.mp hc
    have hmem : c ∈ w.took.filter fun c => c ∉ w.gone := by
      rw [← hI.ctxs, ← hget]
      exact List.getElem_mem hlt
    have hnodup : w.captureCtxs.Nodup := by
      rw [hI.ctxs]
      exact (hI.nodup.of_append_left.of_append_right).filter _
    have herase : w.captureCtxs.eraseIdx pos = w.took.filter fun x => x ∉ w.gone ++ [c] := by
      have := hnodup.erase_getElem pos hlt
      rw [← this, hget, hnodup.erase_eq_filter, hI.ctxs, List.filter_filter]
      refine List.filter_congr fun x _ => ?_
      by_cases hx : x = c <;> by_cases hg : x ∈ w.gone <;> simp [hx, hg]
    have hplace := hI.setPlace hw (hp pos)
    refine { hplace with ctxs := herase, gone := fun x hx => ?_, opening := fun h => ?_ }
    · rcases List.mem_append.mp hx with hx | hx
      · exact hI.gone x hx
      · obtain rfl := List.mem_singleton.mp hx
        exact ⟨List.mem_of_mem_filter hmem, hstopped⟩
    · have hp' := hp pos
      rw [show again pos = .opening from h] at hp'
      cases hp'
  next => exact hI.setPlace hw (hp _)

theorem AsyncInv.stopQueue (hI : AsyncInv w) : AsyncInv { w with captureCtxQueue := w.captureCtxQueue.stop } :=
  { hI with late := fun x hx => ⟨rfl, (hI.late x hx).2⟩, stopped := fun _ => rfl }

theorem AsyncInv.stopImages (hI : AsyncInv w) (imagesStopped : ℕ → Bool)
    (hmono : ∀ c, w.imagesStopped c = true → imagesStopped c = true) : AsyncInv { w with imagesStopped } :=
  { hI with
    gone := fun c hc => ⟨(hI.gone c hc).1, hmono c (hI.gone c hc).2⟩
    finished := fun h c hc => hmono c (hI.finished h c hc) }

/-- The end of the exit guard. -/
theorem AsyncInv.stopAll (hI : AsyncInv w) (hw : w.place = .stopped) :
    AsyncInv { w with
      imagesStopped := fun c => w.imagesStopped c || w.captureCtxs.contains c || w.captureCtxQueue.queue.contains c
      place := .finished } := by
  have hstop := hI.stopImages (fun c =>
    w.imagesStopped c || w.captureCtxs.contains c || w.captureCtxQueue.queue.contains c) (fun c hc => by simp [hc])
  refine { hstop with
    absent := fun hc hd => ?_
    opening := fun h => nomatch h
    stopped := fun _ => hI.stopped (Or.inl hw)
    finished := fun _ c hc => ?_ }
  · have := hI.absent hc hd
    rw [hw] at this
    cases this
  · rcases List.mem_append.mp hc with hc | hc
    · simp [hc]
    · by_cases hg : c ∈ w.gone
      · simp [(hI.gone c hg).2]
      · have : c ∈ w.captureCtxs := by
          rw [hI.ctxs]
          exact List.mem_filter.mpr ⟨hc, by simpa using hg⟩
        simp [this]

theorem AsyncInv.not_late (hI : AsyncInv w) {c : ℕ} (hr : w.calls c ≠ .raised) (hret : (w.calls c).returning = false) :
    c ∉ w.late := by
  intro hc
  rcases (hI.late c hc).2 with h | h
  · exact hr h
  · rw [hret] at h
    cases h

/-- A context in one of the two erasing loops. -/
theorem AsyncInv.check (hI : AsyncInv w) (hstep : CaptureAsyncStep w .check w') : AsyncInv w' := by
  simp only [ofPartial, CaptureAsync.step] at hstep
  split at hstep
  next pos hw =>
    split at hstep
    next c hc =>
      obtain rfl := Option.some.inj hstep
      exact hI.eraseStopped (by simp [hw]) hc fun _ => rfl
    · obtain rfl := Option.some.inj hstep
      exact hI.setPlace (by simp [hw]) rfl
  next pos hw =>
    split at hstep
    next c hc =>
      obtain rfl := Option.some.inj hstep
      exact hI.eraseStopped (by simp [hw]) hc fun _ => rfl
    · obtain rfl := Option.some.inj hstep
      exact hI.setPlace (by simp [hw]) rfl
  · cases hstep

/-- A step of a call. -/
theorem asyncInv_call {op : CaptureOp} (hop : op.ofCall = true) (hI : AsyncInv w) (hstep : CaptureAsyncStep w op w') :
    AsyncInv w' := by
  cases op with
  | ref c =>
    obtain ⟨⟨hc, hd⟩, rfl⟩ := of_ite_some hstep
    split
    next h0 =>
      exact (asyncInv_startCaptureAsync (Nat.succ_ne_zero _)).setCall (Or.inr List.not_mem_nil)
        (Or.inr (Or.inr List.not_mem_nil))
    next h0 =>
      exact (hI.setCount (Nat.succ_ne_zero _)).setCall (Or.inr fun h => (hI.away c h).1 hc)
        (Or.inr (Or.inr (hI.not_late (by simp [hc]) (by simp [hc, CallerPlace.returning]))))
  | raise c =>
    obtain ⟨hc, rfl⟩ := of_ite_some hstep
    split
    next hrun => exact hI.raise hc hrun
    next hrun => exact hI.raiseLate hc (by simpa using hrun)
  | observe c =>
    obtain ⟨hc, rfl⟩ := of_ite_some hstep
    cases hrun : w.captureCtxQueue.running with
    | true =>
      refine hI.setCall (Or.inl (by simp)) (Or.inr (Or.inr fun hlate => ?_))
      have := (hI.late c hlate).1
      rw [hrun] at this
      cases this
    | false => exact hI.setCall (Or.inl (by simp)) (Or.inr (Or.inl rfl))
  | test c shutdown =>
    obtain ⟨hc, rfl⟩ := of_ite_some hstep
    have hlate := hI.not_late (c := c) (by simp [hc]) (by simp [hc, CallerPlace.returning])
    split
    · exact hI.setCall (Or.inl (by simp)) (Or.inr (Or.inr hlate))
    · exact hI.setCall (Or.inl (by simp)) (Or.inr (Or.inr hlate))
  | fail c =>
    obtain ⟨-, rfl⟩ := of_ite_some hstep
    exact hI.setCall (Or.inl (by simp)) (Or.inr (Or.inl rfl))
  | release c =>
    obtain ⟨-, rfl⟩ := of_ite_some hstep
    split
    · have hset := (hI.stopQueue).setCall (c := c) (p := .joining) (Or.inl (by simp)) (Or.inr (Or.inl rfl))
      exact { hset with absent := fun _ h => nomatch h }
    next h1 => exact (hI.setCount h1).setCall (Or.inl (by simp)) (Or.inr (Or.inl rfl))
  | joined c =>
    obtain ⟨⟨-, hw⟩, rfl⟩ := of_ite_some hstep
    have hset := hI.setCall (c := c) (p := .released) (Or.inl (by simp)) (Or.inr (Or.inl rfl))
    exact { hset with
      absent := fun _ _ => rfl
      opening := fun h => nomatch h
      stopped := fun h => by rcases h with h | h <;> cases h
      finished := fun h => nomatch h }
  | stopImages c =>
    obtain ⟨-, rfl⟩ := of_ite_some hstep
    refine (hI.setCall (Or.inl (by simp)) (Or.inr (Or.inl rfl))).stopImages _ fun x hx => ?_
    rcases eq_or_ne x c with rfl | hne
    · simp
    · simpa [Function.update_of_ne hne] using hx
  | _ => cases hop

/-- A step of the thread. -/
theorem asyncInv_thread {op : CaptureOp} (hop : op.ofCall = false) (hI : AsyncInv w)
    (hstep : CaptureAsyncStep w op w') : AsyncInv w' := by
  cases op with
  | initialPop =>
    simp only [ofPartial, CaptureAsync.step] at hstep
    split at hstep
    next hw =>
      split at hstep
      · obtain rfl := Option.some.inj hstep
        exact hI.setPlace (by simp [hw]) rfl
      · cases hstep
      next hpop =>
        obtain rfl := Option.some.inj hstep
        exact hI.take (by simp [hw]) hpop (by simp) (by simp)
    next => cases hstep
  | pop =>
    simp only [ofPartial, CaptureAsync.step] at hstep
    split at hstep
    next hw =>
      split at hstep
      · obtain rfl := Option.some.inj hstep
        exact hI.setPlace (by simp [hw]) rfl
      · cases hstep
      next hpop =>
        obtain rfl := Option.some.inj hstep
        exact hI.take (by simp [hw]) hpop (by simp) (by simp)
    next => cases hstep
  | openDisplay ok =>
    obtain ⟨hw, rfl⟩ := of_ite_some hstep
    exact hI.withFront (by simp [hw]) (by cases ok <;> rfl)
  | front ok =>
    obtain ⟨hw, rfl⟩ := of_ite_some hstep
    exact hI.withFront (by simp [hw]) (by cases ok <;> rfl)
  | running =>
    obtain ⟨hw, rfl⟩ := of_ite_some hstep
    have := hI.setPlace (p := if w.captureCtxQueue.running then .capture else .exiting) (by simp [hw])
      (by split <;> rfl)
    exact { this with }
  | callback =>
    obtain ⟨hw, rfl⟩ := of_ite_some hstep
    exact hI.setPlace (by simp [hw]) rfl
  | status status =>
    obtain ⟨hw, rfl⟩ := of_ite_some hstep
    exact hI.setPlace (by simp [hw]) (by split <;> split <;> rfl)
  | check => exact hI.check hstep
  | stillRunning =>
    obtain ⟨hw, rfl⟩ := of_ite_some hstep
    exact hI.setPlace (by simp [hw]) (by split <;> rfl)
  | peek switchDisplay =>
    obtain ⟨hw, rfl⟩ := of_ite_some hstep
    split
    · exact hI.setPlace (by simp [hw]) rfl
    · have := hI.setPlace (p := .capture) (by simp [hw]) rfl
      exact { this with }
  | useCount last =>
    obtain ⟨hw, rfl⟩ := of_ite_some hstep
    have := hI.setPlace (p := if last then .reopening else .sweeping 0) (by simp [hw]) (by split <;> rfl)
    exact { this with }
  | reopen =>
    obtain ⟨hw, rfl⟩ := of_ite_some hstep
    split
    · have := hI.setPlace (p := .front) (by simp [hw]) rfl
      exact { this with }
    · exact hI.setPlace (by simp [hw]) (by split <;> rfl)
  | stop =>
    obtain ⟨hw, rfl⟩ := of_ite_some hstep
    have := hI.stopQueue
    exact { this with
      absent := fun hc hd => absurd (hw.symm.trans (hI.absent hc hd)) (by simp)
      opening := fun h => nomatch h
      stopped := fun _ => rfl
      finished := fun h => nomatch h }
  | stopAll =>
    obtain ⟨hw, rfl⟩ := of_ite_some hstep
    exact hI.stopAll hw
  | _ => cases hop

/-- **Step lemma.** -/
theorem asyncInv_step {op : CaptureOp} (hI : AsyncInv w) (hstep : CaptureAsyncStep w op w') : AsyncInv w' := by
  cases hop : op.ofCall with
  | true => exact asyncInv_call hop hI hstep
  | false => exact asyncInv_thread hop hI hstep

theorem asyncInv_of_run {ops : List CaptureOp} (hrun : Run CaptureAsyncStep {} ops w) : AsyncInv w :=
  hrun.invariant (I := AsyncInv) (fun _ _ _ hI hs => asyncInv_step hI hs) asyncInv_init

/-! ### What the exit guard leaves behind -/

/-- The call returns, by steps of its own. -/
def CaptureAsync.Returns (w : CaptureAsync) (c : ℕ) : Prop :=
  ∃ ops w', Run CaptureAsyncStep w ops w' ∧ w'.calls c = .returned

theorem CaptureAsync.Returns.step (op : CaptureOp) {c : ℕ} (hstep : w.step op = some w') (h : w'.Returns c) :
    w.Returns c := by
  obtain ⟨ops, w'', hrun, hc⟩ := h
  exact ⟨_, w'', hrun.cons hstep, hc⟩

theorem returns_of_call_released {c : ℕ} (hc : w.calls c = .released) : w.Returns c :=
  ⟨[.stopImages c], _, Run.single (if_pos hc), Function.update_self ..⟩

theorem returns_of_joining {c : ℕ} (hw : w.place = .finished) (hc : w.calls c = .joining) : w.Returns c :=
  .step (.joined c) (if_pos ⟨hc, hw⟩) (returns_of_call_released (Function.update_self ..))

theorem returns_of_leaving {c : ℕ} (hw : w.place = .finished) (hc : w.calls c = .leaving) : w.Returns c := by
  refine .step (.release c) (if_pos hc) ?_
  split
  · exact returns_of_joining hw (Function.update_self ..)
  · exact returns_of_call_released (Function.update_self ..)

/-- A released call returns once the thread has finished. -/
theorem returns_of_released (hI : AsyncInv w) (hw : w.place = .finished) {c : ℕ} (h : w.Released c)
    (hc : w.calls c ≠ .idle ∧ w.calls c ≠ .referenced) : w.Returns c := by
  cases hcall : w.calls c with
  | idle => exact absurd hcall hc.1
  | referenced => exact absurd hcall hc.2
  | raised =>
    have hrun := hI.stopped (Or.inr hw)
    refine .step (.observe c) (if_pos hcall) (returns_of_leaving hw ?_)
    simp [hrun]
  | streaming =>
    have hstopped : w.imagesStopped c = true := by
      rcases h with h | ⟨h, -⟩ | h
      · exact h
      · rw [hcall] at h
        cases h
      · rw [hcall] at h
        cases h
    refine .step (.test c false) (if_pos hcall) (returns_of_leaving hw ?_)
    simp [hstopped]
  | leaving => exact returns_of_leaving hw hcall
  | joining => exact returns_of_joining hw hcall
  | released => exact returns_of_call_released hcall
  | returned => exact ⟨[], w, Run.nil, hcall⟩

/-- The vector is not empty where the thread asks for its front.  And at the exit a context that was raised in time was
moved into the vector once, or its session has been stopped. -/
structure CaptureAsync.Served (w : CaptureAsync) : Prop where
  place : w.place ≠ .undefined
  front : w.place = .opening ∨ w.place = .front → w.captureCtxs ≠ []
  exit : w.place = .finished → ∀ c ∈ w.accepted, w.took.count c = 1 ∨ w.imagesStopped c = true

/-- The guard of a run.  When a wait for the display has ended and sessions want to go on, some session had not left
whose join was not queued any more; the last reference is not given back between `peek()` and `pop()`; no session joins
while thirty joins are queued. -/
def KeepsContext (w : CaptureAsync) : CaptureOp → Prop
  | .reopen => w.captureCtxQueue.running = true → w.stayed = true
  | .release _ => w.count ≤ 1 → w.place ≠ .pop
  | .raise _ => w.captureCtxQueue.running = true → w.captureCtxQueue.queue.length < w.captureCtxQueue.maxElements
  | _ => True

/-- At its exit the thread has released every session that it had taken, that was still queued, or that raised its
context after the queue was stopped. -/
theorem exit_releases (hI : AsyncInv w) (hw : w.place = .finished) {c : ℕ}
    (h : c ∈ w.took ∨ c ∈ w.captureCtxQueue.queue ∨ c ∈ w.late) : w.Released c := by
  rcases h with hc | hc | hc
  · exact Or.inl (hI.finished hw c (List.mem_append_right _ hc))
  · exact Or.inl (hI.finished hw c (List.mem_append_left _ hc))
  · obtain ⟨hstopped, hraised | hret⟩ := hI.late c hc
    · exact Or.inr (Or.inl ⟨hraised, hstopped⟩)
    · exact Or.inr (Or.inr hret)

/-! ### When a context is always at hand -/

/-- A place that a run with the guard reaches with nothing to show for it. -/
def ThreadPlace.easy : ThreadPlace → Bool
  | pop | reopening | front | finished | undefined => false
  | _ => true

/-- What the guard keeps beside the invariant. -/
structure KeepsInv (w : CaptureAsync) : Prop where
  inv : AsyncInv w
  dropped : w.dropped = []
  defined : w.place ≠ .undefined
  pop : w.place = .pop → w.captureCtxQueue.running = true
  reopening : w.place = .reopening → w.stayed = true → w.captureCtxs ≠ []
  front : w.place = .front → w.captureCtxs ≠ []
  exit : w.place = .finished → ∀ c ∈ w.accepted, w.took.count c = 1 ∨ w.imagesStopped c = true

theorem keepsInv_init : KeepsInv {} where
  inv := asyncInv_init
  dropped := rfl
  defined h := by cases h
  pop h := by cases h
  reopening h := by cases h
  front h := by cases h
  exit h := by cases h

theorem KeepsInv.served (hK : KeepsInv w) : w.Served where
  place := hK.defined
  front h := h.elim hK.inv.opening hK.front
  exit := hK.exit

theorem KeepsInv.thread (hK : KeepsInv w) (hI : AsyncInv w') (hdropped : w'.dropped = w.dropped)
    (hp : w'.place.easy = true) : KeepsInv w' where
  inv := hI
  dropped := hdropped.trans hK.dropped
  defined h := by rw [h] at hp; cases hp
  pop h := by rw [h] at hp; cases hp
  reopening h := by rw [h] at hp; cases hp
  front h := by rw [h] at hp; cases hp
  exit h := by rw [h] at hp; cases hp

/-- A step of a call. -/
theorem KeepsInv.call (hK : KeepsInv w) (hI : AsyncInv w') (hplace : w'.place = w.place)
    (hdropped : w'.dropped = w.dropped) (hctxs : w'.captureCtxs = w.captureCtxs) (hstayed : w'.stayed = w.stayed)
    (hpop : w.place = .pop → w'.captureCtxQueue.running = w.captureCtxQueue.running)
    (hexit : w.place = .finished → w'.accepted = w.accepted ∧ w'.took = w.took)
    (hmono : ∀ c, w.imagesStopped c = true → w'.imagesStopped c = true) : KeepsInv w' where
  inv := hI
  dropped := hdropped.trans hK.dropped
  defined := hplace ▸ hK.defined
  pop h := by
    rw [hplace] at h
    exact (hpop h).trans (hK.pop h)
  reopening h hs := by
    rw [hplace] at h
    rw [hstayed] at hs
    exact hctxs ▸ hK.reopening h hs
  front h := by
    rw [hplace] at h
    exact hctxs ▸ hK.front h
  exit h c hc := by
    rw [hplace] at h
    obtain ⟨haccepted, htook⟩ := hexit h
    rw [haccepted] at hc
    rw [htook]
    exact (hK.exit h c hc).imp_right (hmono c)

theorem KeepsInv.captureCtxs_ne_nil (hK : KeepsInv w) (h : w.SomeStays) : w.captureCtxs ≠ [] := by
  obtain ⟨c, haccepted, hqueue, hstopped⟩ := h
  have hknown := (hK.inv.accepted c).mp haccepted
  rw [CaptureAsync.known, hK.dropped, List.append_nil, List.mem_append] at hknown
  have hgone : c ∉ w.gone := fun hc => by
    have := (hK.inv.gone c hc).2
    rw [hstopped] at this
    cases this
  have hmem : c ∈ w.captureCtxs := by
    rw [hK.inv.ctxs]
    exact List.mem_filter.mpr ⟨hknown.resolve_left hqueue, by simpa using hgone⟩
  exact List.ne_nil_of_mem hmem

theorem KeepsInv.exit_stopAll (hK : KeepsInv w) (c : ℕ) (hc : c ∈ w.accepted) :
    w.took.count c = 1 ∨
      (w.imagesStopped c || w.captureCtxs.contains c || w.captureCtxQueue.queue.contains c) = true := by
  have hknown := (hK.inv.accepted c).mp hc
  have hnodup := hK.inv.nodup
  rw [CaptureAsync.known, hK.dropped, List.append_nil] at hknown hnodup
  rcases List.mem_append.mp hknown with hq | ht
  · exact Or.inr (by simp [hq])
  · exact Or.inl (List.count_eq_one_of_mem hnodup.of_append_right ht)

theorem withFront_of_ne_nil (h : w.captureCtxs ≠ []) (ok : Bool) (p : ThreadPlace) :
    w.withFront ok p = { w with disp := ok, place := p } := by
  unfold CaptureAsync.withFront
  split
  next hnil => exact absurd hnil h
  next => rfl

theorem KeepsInv.raise (hK : KeepsInv w) {c : ℕ} (hG : KeepsContext w (.raise c))
    (hstep : CaptureAsyncStep w (.raise c) w') : KeepsInv w' := by
  have hI := asyncInv_step hK.inv hstep
  obtain ⟨-, rfl⟩ := of_ite_some hstep
  cases hrun : w.captureCtxQueue.running with
  | true =>
    have hroom : w.captureCtxQueue.queue.length ≠ w.captureCtxQueue.maxElements := Nat.ne_of_lt (hG hrun)
    simp only [hrun, if_true] at hI ⊢
    refine hK.call hI rfl (if_neg hroom) rfl rfl (fun _ => Safe.Queue.raise_running _ _) (fun hw => ?_) fun _ h => h
    have hstopped := hK.inv.stopped (Or.inr hw)
    rw [hrun] at hstopped
    cases hstopped
  | false =>
    simp only [hrun, Bool.false_eq_true, if_false] at hI ⊢
    exact hK.call hI rfl rfl rfl rfl (fun _ => Safe.Queue.raise_running _ _) (fun _ => ⟨rfl, rfl⟩) fun _ h => h

theorem KeepsInv.release (hK : KeepsInv w) {c : ℕ} (hG : KeepsContext w (.release c))
    (hstep : CaptureAsyncStep w (.release c) w') : KeepsInv w' := by
  have hI := asyncInv_step hK.inv hstep
  obtain ⟨-, rfl⟩ := of_ite_some hstep
  by_cases hlast : w.count - 1 = 0
  · simp only [hlast, if_true] at hI ⊢
    exact hK.call hI rfl rfl rfl rfl (fun hw => absurd hw (hG (by omega))) (fun _ => ⟨rfl, rfl⟩) fun _ h => h
  · simp only [hlast, if_false] at hI ⊢
    exact hK.call hI rfl rfl rfl rfl (fun _ => rfl) (fun _ => ⟨rfl, rfl⟩) fun _ h => h

/-- The thread takes a context from the queue in the callback. -/
theorem KeepsInv.pop_step (hK : KeepsInv w) (hstep : CaptureAsyncStep w .pop w') : KeepsInv w' := by
  have hI := asyncInv_step hK.inv hstep
  simp only [ofPartial, CaptureAsync.step] at hstep
  split at hstep
  next hw =>
    split at hstep
    next hpop =>
      have hrun := hK.pop hw
      unfold Safe.Queue.pop at hpop
      rw [if_pos hrun] at hpop
      split at hpop <;> cases hpop
    next => cases hstep
    next =>
      obtain rfl := Option.some.inj hstep
      exact hK.thread hI rfl rfl
  next => cases hstep

/-- The thread goes on after `capture_ctxs.front()`. -/
theorem KeepsInv.front_step (hK : KeepsInv w) {ok : Bool} (hstep : CaptureAsyncStep w (.front ok) w') :
    KeepsInv w' := by
  have hI := asyncInv_step hK.inv hstep
  obtain ⟨hw, rfl⟩ := of_ite_some hstep
  have hctxs := hK.front hw
  rw [withFront_of_ne_nil hctxs] at hI ⊢
  cases ok with
  | true => exact hK.thread hI rfl rfl
  | false =>
    exact ⟨hI, hK.dropped, fun h => (by cases h), fun h => (by cases h), fun _ _ => hctxs, fun h => (by cases h),
      fun h => (by cases h)⟩

theorem KeepsInv.reopen (hK : KeepsInv w) (hG : KeepsContext w .reopen) (hstep : CaptureAsyncStep w .reopen w') :
    KeepsInv w' := by
  have hI := asyncInv_step hK.inv hstep
  obtain ⟨hw, rfl⟩ := of_ite_some hstep
  cases hrun : w.captureCtxQueue.running with
  | true =>
    simp only [hrun, if_true] at hI ⊢
    exact ⟨hI, hK.dropped, fun h => (by cases h), fun h => (by cases h), fun h => (by cases h),
      fun _ => hK.reopening hw (hG hrun), fun h => (by cases h)⟩
  | false =>
    simp only [hrun, Bool.false_eq_true, if_false] at hI ⊢
    exact hK.thread hI rfl (by cases w.disp <;> rfl)

/-- One context in one of the two erasing loops. -/
theorem KeepsInv.check (hK : KeepsInv w) (hstep : CaptureAsyncStep w .check w') : KeepsInv w' := by
  have hI := asyncInv_step hK.inv hstep
  have herase : ∀ {pos c : ℕ} {again : ℕ → ThreadPlace}, (∀ n, (again n).easy = true) →
      AsyncInv (w.eraseStopped pos c again) → KeepsInv (w.eraseStopped pos c again) := by
    intro pos c again heasy hI
    refine hK.thread hI ?_ ?_ <;> unfold CaptureAsync.eraseStopped <;> split
    · rfl
    · rfl
    · exact heasy _
    · exact heasy _
  simp only [ofPartial, CaptureAsync.step] at hstep
  split at hstep
  · split at hstep <;> obtain rfl := Option.some.inj hstep
    · exact herase (fun _ => rfl) hI
    · exact hK.thread hI rfl rfl
  · split at hstep <;> obtain rfl := Option.some.inj hstep
    · exact herase (fun _ => rfl) hI
    · exact hK.thread hI rfl rfl
  · cases hstep

/-- **Step lemma.** -/
theorem keepsInv_step {op : CaptureOp} (hK : KeepsInv w) (hG : KeepsContext w op)
    (hstep : CaptureAsyncStep w op w') : KeepsInv w' := by
  have hI := asyncInv_step hK.inv hstep
  cases op with
  | ref c =>
    obtain ⟨-, rfl⟩ := of_ite_some hstep
    by_cases hcount : w.count = 0
    · simp only [hcount, if_true] at hI ⊢
      exact ⟨hI, rfl, fun h => (by cases h), fun h => (by cases h), fun h => (by cases h), fun h => (by cases h),
        fun h => (by cases h)⟩
    · simp only [hcount, if_false] at hI ⊢
      exact hK.call hI rfl rfl rfl rfl (fun _ => rfl) (fun _ => ⟨rfl, rfl⟩) fun _ h => h
  | raise c => exact hK.raise hG hstep
  | release c => exact hK.release hG hstep
  | pop => exact hK.pop_step hstep
  | front ok => exact hK.front_step hstep
  | reopen => exact hK.reopen hG hstep
  | check => exact hK.check hstep
  | observe c =>
    obtain ⟨-, rfl⟩ := of_ite_some hstep
    exact hK.call hI rfl rfl rfl rfl (fun _ => rfl) (fun _ => ⟨rfl, rfl⟩) fun _ h => h
  | test c shutdown =>
    obtain ⟨-, rfl⟩ := of_ite_some hstep
    exact hK.call hI rfl rfl rfl rfl (fun _ => rfl) (fun _ => ⟨rfl, rfl⟩) fun _ h => h
  | fail c =>
    obtain ⟨-, rfl⟩ := of_ite_some hstep
    exact hK.call hI rfl rfl rfl rfl (fun _ => rfl) (fun _ => ⟨rfl, rfl⟩) fun _ h => h
  | stopImages c =>
    obtain ⟨-, rfl⟩ := of_ite_some hstep
    refine hK.call hI rfl rfl rfl rfl (fun _ => rfl) (fun _ => ⟨rfl, rfl⟩) fun x hx => ?_
    rcases eq_or_ne x c with rfl | hne
    · simp
    · simpa [Function.update_of_ne hne] using hx
  | joined c =>
    obtain ⟨-, rfl⟩ := of_ite_some hstep
    exact hK.thread hI rfl rfl
  | initialPop =>
    simp only [ofPartial, CaptureAsync.step] at hstep
    split at hstep
    · split at hstep
      · obtain rfl := Option.some.inj hstep
        exact hK.thread hI rfl rfl
      · cases hstep
      · obtain rfl := Option.some.inj hstep
        exact hK.thread hI rfl rfl
    · cases hstep
  | openDisplay ok =>
    obtain ⟨hw, rfl⟩ := of_ite_some hstep
    rw [withFront_of_ne_nil (hK.inv.opening hw)] at hI ⊢
    exact hK.thread hI rfl (by cases ok <;> rfl)
  | running =>
    obtain ⟨-, rfl⟩ := of_ite_some hstep
    exact hK.thread hI rfl (by dsimp only; split <;> rfl)
  | callback =>
    obtain ⟨-, rfl⟩ := of_ite_some hstep
    exact hK.thread hI rfl rfl
  | status status =>
    obtain ⟨-, rfl⟩ := of_ite_some hstep
    exact hK.thread hI rfl (by dsimp only; split <;> split <;> rfl)
  | stillRunning =>
    obtain ⟨-, rfl⟩ := of_ite_some hstep
    exact hK.thread hI rfl (by dsimp only; split <;> rfl)
  | peek switchDisplay =>
    obtain ⟨-, rfl⟩ := of_ite_some hstep
    cases hpeek : w.captureCtxQueue.peek with
    | true =>
      simp only [hpeek, if_true] at hI ⊢
      have hrun : w.captureCtxQueue.running = true := by
        simp only [Safe.Queue.peek, Bool.and_eq_true] at hpeek
        exact hpeek.1
      exact ⟨hI, hK.dropped, fun h => (by cases h), fun _ => hrun, fun h => (by cases h), fun h => (by cases h),
        fun h => (by cases h)⟩
    | false =>
      simp only [hpeek, Bool.false_eq_true, if_false] at hI ⊢
      exact hK.thread hI rfl rfl
  | useCount last =>
    obtain ⟨-, rfl⟩ := of_ite_some hstep
    cases last with
    | true =>
      exact ⟨hI, hK.dropped, fun h => (by cases h), fun h => (by cases h),
        fun _ hs => hK.captureCtxs_ne_nil (of_decide_eq_true hs), fun h => (by cases h), fun h => (by cases h)⟩
    | false => exact hK.thread hI rfl rfl
  | stop =>
    obtain ⟨-, rfl⟩ := of_ite_some hstep
    exact hK.thread hI rfl rfl
  | stopAll =>
    obtain ⟨-, rfl⟩ := of_ite_some hstep
    exact ⟨hI, hK.dropped, fun h => (by cases h), fun h => (by cases h), fun h => (by cases h), fun h => (by cases h),
      fun _ c hc => hK.exit_stopAll c hc⟩

/-- **The front of the vector** is there whenever the thread asks for it, and no context raised in time is forgotten, in
every run whose steps meet the guard. -/
theorem serves_all {ops : List CaptureOp} (hrun : Run (Guarded CaptureAsyncStep KeepsContext) {} ops w) : w.Served :=
  (hrun.invariant_where (fun _ _ _ hK hG hstep => keepsInv_step hK hG hstep) keepsInv_init).served

instance (w : CaptureAsync) (op : CaptureOp) : Decidable (KeepsContext w op) :=
  match op with
  | .reopen | .release _ | .raise _ => inferInstanceAs (Decidable (_ → _))
  | .ref _ | .observe _ | .test .. | .fail _ | .joined _ | .stopImages _ | .initialPop | .openDisplay _ | .running
  | .callback | .status _ | .check | .stillRunning | .peek _ | .pop | .useCount _ | .front _ | .stop | .stopAll =>
    instDecidableTrue

/-- Session 0 streams, session 1 has raised its context; session 0 leaves while the display is opened again. -/
def leaveDuringReinit : List CaptureOp :=
  [.ref 0, .raise 0, .observe 0, .initialPop, .openDisplay true, .running, .ref 1, .raise 1, .observe 1,
    .status .reinit, .test 0 true, .release 0, .stopImages 0, .useCount false, .check, .check, .useCount true, .reopen]

/-- The vector is empty at `capture_ctxs.front()`, although session 1 waits in the queue. -/
theorem front_of_nothing :
    ∃ w, Run CaptureAsyncStep {} leaveDuringReinit w ∧ w.place = .front ∧ w.captureCtxs = [] ∧
      w.captureCtxQueue.queue = [1] ∧ (w.step (.front true)).map CaptureAsync.place = some .undefined := by
  obtain ⟨w, hrun, hw⟩ := exists_run_execWhere_and (f := CaptureAsync.step) (G := fun _ _ => True) (s := {})
    (l := leaveDuringReinit) (P := fun w => w.place = .front ∧ w.captureCtxs = [] ∧
      w.captureCtxQueue.queue = [1] ∧ (w.step (.front true)).map CaptureAsync.place = some .undefined) (by decide)
  exact ⟨w, hrun.of_guarded, hw⟩

/-- A session that streams on while another one joins and leaves, with two reinitialisations, then an error of the
display. -/
def twoReinits : List CaptureOp :=
  [.ref 0, .raise 0, .observe 0, .initialPop, .openDisplay true, .running, .ref 1, .raise 1, .observe 1, .callback,
    .check, .check, .stillRunning, .peek false, .pop, .peek true, .status .ok, .test 1 true, .release 1, .stopImages 1,
    .useCount false, .check, .check, .check, .useCount true, .reopen, .front false, .reopen, .front true, .running,
    .status .reinit, .useCount true, .reopen, .front true, .running, .status .error, .stop, .stopAll]

theorem serves_twoReinits : ∃ w, Run CaptureAsyncStep {} twoReinits w ∧ w.gone = [1] ∧ w.Served := by
  obtain ⟨w, hrun, hw⟩ := exists_run_execWhere_and (f := CaptureAsync.step) (G := KeepsContext) (s := {})
    (l := twoReinits) (P := fun w => w.gone = [1]) (by decide +kernel)
  exact ⟨w, hrun.of_guarded, hw, serves_all hrun⟩

end MidnightSun.Video
