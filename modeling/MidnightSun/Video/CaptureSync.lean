import Mathlib.Data.List.Nodup
import MidnightSun.Video.CaptureThread

/-!
# The thread of the encoders that do not encode in parallel (src/video.cpp, `captureThreadSync`, `capture`)

Here the thread encodes for all sessions itself.  A session hands its context over on `encode_session_ctx_queue` and
waits for its `join_event`; it does not look whether the queue has been stopped.  The thread holds a reference of its
own, which outlives its exit guard.

* `exit_joins_iff`: the exit guard releases every session exactly if none raised its context after the queue was
  stopped;
* `capture_callers_released_iff`: the same for both kinds of encoders.
-/

namespace MidnightSun.Video

open Safe Lib

/-- Where a call of `capture` is. -/
inductive SyncCall where
  | idle
  /-- holds a reference to the thread's state -/
  | referenced
  /-- in `join_event.view()` -/
  | waiting
  | returned
  deriving DecidableEq

/-- Where `captureThreadSync` is. -/
inductive SyncPlace where
  | absent
  /-- `capture_thread_sync.ref()` -/
  | starting
  /-- at the beginning of `encode_run_sync` -/
  | enter
  /-- the loop around `reset_display` -/
  | opening
  /-- the first image and the first sessions -/
  | opened
  /-- `while (encode_session_ctx_queue.running())` -/
  | loop
  /-- in `disp->capture` -/
  | capture
  /-- in `push_captured_image_callback`: `peek()` -/
  | peek
  | pop
  /-- in the second loop of the callback, at this element of `synced_sessions` -/
  | pushing (pos : ℕ)
  /-- the exit guard: before `stop()`, after it, and at its end -/
  | exiting
  | stopped
  | finished
  /-- the thread has given its reference back -/
  | gone
  deriving DecidableEq

/-- The calls of `capture`, named by numbers, and the thread.  A call's number stands for its context and for the
events in it. -/
structure CaptureSync where
  /-- `_count` of `capture_thread_sync` -/
  count : ℕ := 0
  encodeSessionCtxQueue : Queue ℕ := { maxElements := 30 }
  place : SyncPlace := .absent
  syncedSessionCtxs : List ℕ := []
  /-- the contexts of `synced_sessions` -/
  syncedSessions : List ℕ := []
  ec : CaptureE := .ok
  calls : ℕ → SyncCall := fun _ => .idle
  shutdownEvent : ℕ → Bool := fun _ => false
  joinEvent : ℕ → Bool := fun _ => false
  /-- ghost: the calls that hold a reference -/
  holders : List ℕ := []
  /-- ghost: taken from the queue by the thread -/
  took : List ℕ := []
  /-- ghost: raised after the queue was stopped -/
  late : List ℕ := []

inductive SyncOp where
  /-- `capture_thread_sync.ref()` of a call -/
  | ref (c : ℕ)
  | raise (c : ℕ)
  /-- the session shuts down -/
  | shutdown (c : ℕ)
  /-- `join_event.view()` returns, and the reference is given back -/
  | leave (c : ℕ)
  | threadRef
  /-- `encode_run_sync` takes a first context if there is none -/
  | enter
  | openDisplay (ok : Bool)
  | prepare (ok : Bool)
  | running
  /-- `disp->capture` calls `push_captured_image_callback` -/
  | callback
  /-- `disp->capture` returns -/
  | status (status : CaptureE)
  | peek
  /-- a context is taken, and `make_synced_session` called -/
  | pop (ok : Bool)
  /-- one session of the second loop, with the outcome of `convert` and `encode` -/
  | push (ok : Bool)
  /-- the end of the callback -/
  | pushed (switchDisplay : Bool)
  | stop
  | raiseAll
  | threadRelease

namespace CaptureSync

/-- `ref()` where there is no reference: a new queue, and the thread is started. -/
def startCaptureSync (w : CaptureSync) : CaptureSync :=
  { w with
    encodeSessionCtxQueue := { maxElements := 30 }
    place := .starting
    syncedSessionCtxs := []
    syncedSessions := [] }

/-- One step of a call or of the thread, where it is enabled. -/
def step (w : CaptureSync) : SyncOp → Option CaptureSync
  | .ref c =>
    if w.calls c = .idle then
      let w := if w.count = 0 then w.startCaptureSync else w
      some { w with
        count := w.count + 1, calls := Function.update w.calls c .referenced, holders := c :: w.holders }
    else none
  | .raise c =>
    if w.calls c = .referenced then
      some { w with
        encodeSessionCtxQueue := w.encodeSessionCtxQueue.raise c
        calls := Function.update w.calls c .waiting
        late := if w.encodeSessionCtxQueue.running then w.late else w.late ++ [c] }
    else none
  | .shutdown c => some { w with shutdownEvent := Function.update w.shutdownEvent c true }
  | .leave c =>
    if w.calls c = .waiting ∧ w.joinEvent c = true then
      some { w with
        count := w.count - 1, calls := Function.update w.calls c .returned, holders := w.holders.erase c }
    else none
  | .threadRef => if w.place = .starting then some { w with count := w.count + 1, place := .enter } else none
  | .enter =>
    if w.place = .enter then
      if w.syncedSessionCtxs.isEmpty then
        match w.encodeSessionCtxQueue.pop with
        | .stopped => some { w with place := .exiting }
        | .waits => none
        | .element c q =>
          some { w with
            encodeSessionCtxQueue := q
            syncedSessionCtxs := w.syncedSessionCtxs ++ [c]
            took := w.took ++ [c]
            place := .opening }
      else some { w with place := .opening }
    else none
  | .openDisplay ok =>
    if w.place = .opening then
      some { w with
        place := if w.encodeSessionCtxQueue.running then (if ok then .opened else .opening) else .exiting }
    else none
  | .prepare ok =>
    if w.place = .opened then
      some { w with
        syncedSessions := w.syncedSessionCtxs, ec := .ok, place := if ok then .loop else .exiting }
    else none
  | .running =>
    if w.place = .loop then
      some { w with place := if w.encodeSessionCtxQueue.running then .capture else .exiting }
    else none
  | .callback => if w.place = .capture then some { w with place := .peek } else none
  | .status status =>
    if w.place = .capture then
      let status := if w.ec != .ok then w.ec else status
      some { w with syncedSessions := [], place := if status = .reinit then .enter else .exiting }
    else none
  | .peek =>
    if w.place = .peek then
      some { w with place := if w.encodeSessionCtxQueue.peek then .pop else .pushing 0 }
    else none
  | .pop ok =>
    if w.place = .pop then
      match w.encodeSessionCtxQueue.pop with
      | .stopped => some { w with place := .capture }
      | .waits => none
      | .element c q =>
        let w := { w with
          encodeSessionCtxQueue := q, syncedSessionCtxs := w.syncedSessionCtxs ++ [c], took := w.took ++ [c] }
        some <| if ok then { w with syncedSessions := w.syncedSessions ++ [c], place := .peek }
          else { w with ec := .error, place := .capture }
    else none
  | .push ok =>
    match w.place with
    | .pushing pos =>
      match w.syncedSessions[pos]? with
      | none => none
      | some c =>
        some <| if w.shutdownEvent c then
            let sessions := w.syncedSessions.eraseIdx pos
            { w with
              joinEvent := Function.update w.joinEvent c true
              syncedSessions := sessions
              syncedSessionCtxs := w.syncedSessionCtxs.erase c
              place := if sessions.isEmpty then .capture else .pushing pos }
          else if ok then { w with place := .pushing (pos + 1) }
          else { w with shutdownEvent := Function.update w.shutdownEvent c true }
    | _ => none
  | .pushed switchDisplay =>
    match w.place with
    | .pushing pos =>
      if w.syncedSessions.length ≤ pos then
        some { w with ec := if switchDisplay then .reinit else w.ec, place := .capture }
      else none
    | _ => none
  | .stop =>
    if w.place = .exiting then
      some { w with encodeSessionCtxQueue := w.encodeSessionCtxQueue.stop, place := .stopped }
    else none
  | .raiseAll =>
    if w.place = .stopped then
      let told := fun c => w.syncedSessionCtxs.contains c || w.encodeSessionCtxQueue.queue.contains c
      some { w with
        shutdownEvent := fun c => w.shutdownEvent c || told c
        joinEvent := fun c => w.joinEvent c || told c
        place := .finished }
    else none
  | .threadRelease =>
    if w.place = .finished then some { w with count := w.count - 1, place := .gone } else none

end CaptureSync

abbrev CaptureSyncStep : CaptureSync → SyncOp → CaptureSync → Prop := ofPartial CaptureSync.step

/-! ### The invariant -/

/-- The thread is between its `ref()` and its exit guard. -/
def SyncPlace.busy : SyncPlace → Bool
  | absent | starting | stopped | finished | gone => false
  | _ => true

/-- The thread holds a reference. -/
def SyncPlace.holds : SyncPlace → Bool
  | absent | starting | gone => false
  | _ => true

/-- The thread has raised all join events that it raises. -/
def SyncPlace.done : SyncPlace → Bool
  | absent | finished | gone => true
  | _ => false

/-- The contexts that the exit guard will find. -/
def CaptureSync.known (w : CaptureSync) : List ℕ := w.syncedSessionCtxs ++ w.encodeSessionCtxQueue.queue

structure SyncInv (w : CaptureSync) : Prop where
  count : w.count = w.holders.length + if w.place.holds then 1 else 0
  holders : ∀ c, c ∈ w.holders ↔ w.calls c = .referenced ∨ w.calls c = .waiting
  holders_nodup : w.holders.Nodup
  absent : w.place = .absent → w.holders = []
  starting : w.place = .starting → w.holders ≠ [] ∧ ∀ c, w.calls c = .waiting → w.joinEvent c = false
  joined : ∀ c, w.joinEvent c = true → w.calls c = .waiting ∨ w.calls c = .returned
  away : ∀ c ∈ w.known, w.calls c = .waiting ∨ w.calls c = .returned
  nodup : w.known.Nodup
  sessions : w.syncedSessions.Sublist w.syncedSessionCtxs
  took : ∀ c ∈ w.took, c ∈ w.syncedSessionCtxs ∨ w.joinEvent c = true
  late : ∀ c ∈ w.late, w.calls c = .waiting ∧ w.joinEvent c = false ∧ c ∉ w.known
  late_stopped : w.late ≠ [] → w.encodeSessionCtxQueue.running = false
  stopped : w.place = .stopped ∨ w.place = .finished ∨ w.place = .gone → w.encodeSessionCtxQueue.running = false
  finished : w.place.done = true → ∀ c ∈ w.known, w.joinEvent c = true

variable {w w' : CaptureSync}

theorem syncInv_init : SyncInv {} where
  count := rfl
  holders c := by simp
  holders_nodup := List.nodup_nil
  absent _ := rfl
  starting h := by cases h
  joined c hc := by cases hc
  away c hc := by cases hc
  nodup := List.nodup_nil
  sessions := List.Sublist.slnil
  took c hc := by cases hc
  late c hc := by cases hc
  late_stopped h := absurd rfl h
  stopped h := by rcases h with h | h | h <;> cases h
  finished _ c hc := by cases hc

theorem SyncPlace.holds_of_busy {p : SyncPlace} (hp : p.busy = true) : p.holds = true := by
  cases p <;> first | rfl | cases hp

theorem SyncPlace.not_done_of_busy {p : SyncPlace} (hp : p.busy = true) : p.done = false := by
  cases p <;> first | rfl | cases hp

theorem SyncPlace.eq_of_done {p : SyncPlace} (hp : p.done = true) : p = .absent ∨ p = .finished ∨ p = .gone := by
  cases p <;> simp [SyncPlace.done] at hp ⊢

theorem SyncInv.not_joined (hI : SyncInv w) {c : ℕ} (hc : w.calls c = .idle ∨ w.calls c = .referenced) :
    w.joinEvent c = false := by
  by_contra h
  rcases hI.joined c (by simpa using h) with h | h <;> rcases hc with hc | hc <;> rw [hc] at h <;> cases h

theorem SyncInv.not_known (hI : SyncInv w) {c : ℕ} (hc : w.calls c = .idle ∨ w.calls c = .referenced) :
    c ∉ w.known := by
  intro hk
  rcases hI.away c hk with h | h <;> rcases hc with hc | hc <;> rw [hc] at h <;> cases h

/-! ### The steps of the calls -/

/-- A first reference is taken when no call and no thread is left, and everything has been released. -/
theorem SyncInv.refFirst (hI : SyncInv w) {c : ℕ} (hc : w.calls c = .idle) (h0 : w.count = 0) :
    SyncInv { w.startCaptureSync with
      count := w.count + 1, calls := Function.update w.calls c .referenced, holders := c :: w.holders } := by
  have hcount := hI.count
  rw [h0] at hcount
  have hnone : w.holders = [] := List.length_eq_zero_iff.mp (by omega)
  have hdone : w.place.done = true := by
    cases hp : w.place with
    | starting => exact absurd hnone (hI.starting hp).1
    | absent | finished | gone => rfl
    | _ => simp [hp, SyncPlace.holds] at hcount
  have hwaiting : ∀ x, w.calls x ≠ .waiting := fun x hx => by
    have := (hI.holders x).mpr (Or.inr hx)
    rw [hnone] at this
    cases this
  have hlate : ∀ x ∈ w.late, False := fun x hx => hwaiting x (hI.late x hx).1
  refine {
    count := by simp [h0, hnone, CaptureSync.startCaptureSync, SyncPlace.holds]
    holders := fun x => ?_
    holders_nodup := by simp [hnone]
    absent := fun h => by cases h
    starting := fun _ => ⟨by simp, fun x hx => ?_⟩
    joined := fun x hx => ?_
    away := fun x hx => by cases hx
    nodup := List.nodup_nil
    sessions := List.Sublist.slnil
    took := fun x hx => Or.inr ?_
    late := fun x hx => (hlate x hx).elim
    late_stopped := fun h => ?_
    stopped := fun h => ?_
    finished := fun h => by cases h }
  · rcases eq_or_ne x c with rfl | hne
    · simp
    · simpa [Function.update_of_ne hne, hne] using hI.holders x
  · rcases eq_or_ne x c with rfl | hne
    · simp at hx
    · exact absurd (by simpa [Function.update_of_ne hne] using hx) (hwaiting x)
  · rcases eq_or_ne x c with rfl | hne
    · have := hI.not_joined (Or.inl hc)
      exact absurd (this.symm.trans hx) (by simp)
    · simpa [Function.update_of_ne hne] using hI.joined x hx
  · rcases hI.took x hx with hctx | hjoin
    · exact hI.finished hdone x (List.mem_append_left _ hctx)
    · exact hjoin
  · obtain ⟨x, hx⟩ := List.exists_mem_of_ne_nil _ h
    exact (hlate x hx).elim
  · rcases h with h | h | h <;> cases h

/-- Another reference is taken. -/
theorem SyncInv.refAgain (hI : SyncInv w) {c : ℕ} (hc : w.calls c = .idle) (h0 : w.count ≠ 0) :
    SyncInv { w with
      count := w.count + 1, calls := Function.update w.calls c .referenced, holders := c :: w.holders } := by
  have hnot : c ∉ w.holders := fun h => by rcases (hI.holders c).mp h with h | h <;> rw [hc] at h <;> cases h
  refine { hI with
    count := ?_
    holders := fun x => ?_
    holders_nodup := List.nodup_cons.mpr ⟨hnot, hI.holders_nodup⟩
    absent := fun h => ?_
    starting := fun h => ⟨by simp, fun x hx => ?_⟩
    joined := fun x hx => ?_
    away := fun x hx => ?_
    late := fun x hx => ?_ }
  · have := hI.count
    simp only [List.length_cons]
    omega
  · rcases eq_or_ne x c with rfl | hne
    · simp
    · simpa [Function.update_of_ne hne, hne] using hI.holders x
  · have hcount := hI.count
    rw [hI.absent h, h] at hcount
    exact absurd hcount h0
  · rcases eq_or_ne x c with rfl | hne
    · exact hI.not_joined (Or.inl hc)
    · exact (hI.starting h).2 x (by simpa [Function.update_of_ne hne] using hx)
  · rcases eq_or_ne x c with rfl | hne
    · exact absurd ((hI.not_joined (Or.inl hc)).symm.trans hx) (by simp)
    · simpa [Function.update_of_ne hne] using hI.joined x hx
  · rcases eq_or_ne x c with rfl | hne
    · exact absurd hx (hI.not_known (Or.inl hc))
    · simpa [Function.update_of_ne hne] using hI.away x hx
  · obtain ⟨hx', hrest⟩ := hI.late x hx
    have hne : x ≠ c := by
      rintro rfl
      rw [hc] at hx'
      cases hx'
    exact ⟨by simpa [Function.update_of_ne hne] using hx', hrest⟩

section Update

variable {c : ℕ} {p : SyncCall}

lemma SyncInv.holders_waiting (hI : SyncInv w) (hc : w.calls c = .referenced) (x : ℕ) :
    x ∈ w.holders ↔
      Function.update w.calls c .waiting x = .referenced ∨ Function.update w.calls c .waiting x = .waiting := by
  rcases eq_or_ne x c with rfl | hne
  · simpa using (hI.holders x).mpr (Or.inl hc)
  · simpa [Function.update_of_ne hne] using hI.holders x

lemma SyncInv.starting_waiting (hI : SyncInv w) (hc : w.calls c = .referenced) (h : w.place = .starting) {x : ℕ}
    (hx : Function.update w.calls c .waiting x = .waiting) : w.joinEvent x = false := by
  rcases eq_or_ne x c with rfl | hne
  · exact hI.not_joined (Or.inr hc)
  · exact (hI.starting h).2 x (by simpa [Function.update_of_ne hne] using hx)

lemma SyncInv.joined_update (hI : SyncInv w) (hp : p = .waiting ∨ p = .returned) {x : ℕ} (hx : w.joinEvent x = true) :
    Function.update w.calls c p x = .waiting ∨ Function.update w.calls c p x = .returned := by
  rcases eq_or_ne x c with rfl | hne
  · simpa using hp
  · simpa [Function.update_of_ne hne] using hI.joined x hx

lemma SyncInv.away_update (hI : SyncInv w) (hp : p = .waiting ∨ p = .returned) {x : ℕ} (hx : x ∈ w.known) :
    Function.update w.calls c p x = .waiting ∨ Function.update w.calls c p x = .returned := by
  rcases eq_or_ne x c with rfl | hne
  · simpa using hp
  · simpa [Function.update_of_ne hne] using hI.away x hx

end Update

/-- A call raises its context: it holds a reference, and will wait. -/
theorem SyncInv.raise (hI : SyncInv w) {c : ℕ} (hc : w.calls c = .referenced)
    (hrun : w.encodeSessionCtxQueue.running = true) :
    SyncInv { w with
      encodeSessionCtxQueue := w.encodeSessionCtxQueue.raise c, calls := Function.update w.calls c .waiting } := by
  have hnew := hI.not_known (Or.inr hc)
  have hmem : c ∈ w.holders := (hI.holders c).mpr (Or.inl hc)
  have hnolate : ∀ {P : Prop}, w.late ≠ [] → P := fun h => by
    have := hI.late_stopped h
    rw [hrun] at this
    cases this
  -- a full queue is cleared
  have hsub : (w.syncedSessionCtxs ++ (w.encodeSessionCtxQueue.raise c).queue).Sublist (w.known ++ [c]) := by
    rw [Queue.raise, if_pos hrun, CaptureSync.known, List.append_assoc]
    refine (List.Sublist.refl _).append (List.Sublist.append ?_ (List.Sublist.refl _))
    split
    · exact List.nil_sublist _
    · exact List.Sublist.refl _
  refine { hI with
    holders := hI.holders_waiting hc
    starting := fun h => ⟨(hI.starting h).1, fun x hx => hI.starting_waiting hc h hx⟩
    joined := fun x hx => hI.joined_update (Or.inl rfl) hx
    away := fun x hx => ?_
    nodup := hsub.nodup (List.nodup_append.mpr ⟨hI.nodup, by simp, fun x hx y hy hxy => ?_⟩)
    late := fun x hx => hnolate (List.ne_nil_of_mem hx)
    late_stopped := fun h => hnolate h
    stopped := fun h => ?_
    finished := fun h => ?_ }
  · rcases List.mem_append.mp (hsub.subset hx) with hx | hx
    · exact hI.away_update (Or.inl rfl) hx
    · simp [List.mem_singleton.mp hx]
  · obtain rfl := List.mem_singleton.mp hy
    exact hnew (hxy ▸ hx)
  · have := hI.stopped h
    rw [hrun] at this
    cases this
  · rcases SyncPlace.eq_of_done h with hp | hp
    · rw [hI.absent hp] at hmem
      cases hmem
    · have := hI.stopped (Or.inr hp)
      rw [hrun] at this
      cases this

/-- A call raises its context on the stopped queue, and waits. -/
theorem SyncInv.raiseLate (hI : SyncInv w) {c : ℕ} (hc : w.calls c = .referenced)
    (hrun : w.encodeSessionCtxQueue.running = false) :
    SyncInv { w with
      encodeSessionCtxQueue := w.encodeSessionCtxQueue.raise c
      calls := Function.update w.calls c .waiting
      late := w.late ++ [c] } := by
  have hq : w.encodeSessionCtxQueue.raise c = w.encodeSessionCtxQueue := by simp [Queue.raise, hrun]
  rw [hq]
  refine { hI with
    holders := hI.holders_waiting hc
    starting := fun h => ⟨(hI.starting h).1, fun x hx => hI.starting_waiting hc h hx⟩
    joined := fun x hx => hI.joined_update (Or.inl rfl) hx
    away := fun x hx => hI.away_update (Or.inl rfl) hx
    late := fun x hx => ?_
    late_stopped := fun _ => hrun }
  rcases eq_or_ne x c with rfl | hne
  · exact ⟨by simp, hI.not_joined (Or.inr hc), hI.not_known (Or.inr hc)⟩
  · rcases List.mem_append.mp hx with hx | hx
    · exact ⟨by simpa [Function.update_of_ne hne] using (hI.late x hx).1, (hI.late x hx).2⟩
    · exact absurd (List.mem_singleton.mp hx) hne

/-- A call whose join event was raised returns. -/
theorem SyncInv.leave (hI : SyncInv w) {c : ℕ} (hc : w.calls c = .waiting) (hj : w.joinEvent c = true) :
    SyncInv { w with
      count := w.count - 1, calls := Function.update w.calls c .returned, holders := w.holders.erase c } := by
  have hmem : c ∈ w.holders := (hI.holders c).mpr (Or.inr hc)
  have hlen := List.length_erase_of_mem hmem
  have hpos := List.length_pos_of_mem hmem
  refine { hI with
    count := ?_
    holders := fun x => ?_
    holders_nodup := hI.holders_nodup.erase c
    absent := fun h => ?_
    starting := fun h => ?_
    joined := fun x hx => hI.joined_update (Or.inr rfl) hx
    away := fun x hx => hI.away_update (Or.inr rfl) hx
    late := fun x hx => ?_ }
  · have := hI.count
    simp only [hlen]
    omega
  · rw [hI.holders_nodup.mem_erase_iff]
    rcases eq_or_ne x c with rfl | hne
    · simp
    · simpa [Function.update_of_ne hne, hne] using hI.holders x
  · rw [hI.absent h] at hmem
    cases hmem
  · exact absurd (((hI.starting h).2 c hc).symm.trans hj) (by simp)
  · have hx' := hI.late x hx
    have hne : x ≠ c := by
      rintro rfl
      exact absurd (hx'.2.1.symm.trans hj) (by simp)
    exact ⟨by simpa [Function.update_of_ne hne] using hx'.1, hx'.2⟩

/-! ### The steps of the thread -/

theorem SyncInv.setPlace (hI : SyncInv w) (hw : w.place.busy = true) {p : SyncPlace} (hp : p.busy = true) :
    SyncInv { w with place := p } := by
  refine { hI with
    count := ?_
    absent := fun h => ?_
    starting := fun h => ?_
    stopped := fun h => ?_
    finished := fun h => ?_ }
  · simpa [SyncPlace.holds_of_busy hw, SyncPlace.holds_of_busy hp] using hI.count
  · cases h; cases hp
  · cases h; cases hp
  · rcases h with h | h | h <;> cases h <;> cases hp
  · exact absurd ((SyncPlace.not_done_of_busy hp).symm.trans h) (by simp)

/-- The thread takes the oldest context from the queue: it stays known. -/
theorem SyncInv.take (hI : SyncInv w) (hw : w.place.busy = true) {c : ℕ} {q : Queue ℕ} {p : SyncPlace}
    (hpop : w.encodeSessionCtxQueue.pop = .element c q) (hp : p.busy = true) {sessions : List ℕ}
    (hsessions : sessions.Sublist (w.syncedSessionCtxs ++ [c])) :
    SyncInv { w with
      encodeSessionCtxQueue := q
      syncedSessionCtxs := w.syncedSessionCtxs ++ [c]
      syncedSessions := sessions
      took := w.took ++ [c]
      place := p } := by
  obtain ⟨hrun, hqueue, hqrun, -⟩ := Queue.pop_eq_element hpop
  have hknown : w.syncedSessionCtxs ++ [c] ++ q.queue = w.known := by
    rw [CaptureSync.known, hqueue, List.append_assoc, List.singleton_append]
  have hplace := hI.setPlace hw hp
  refine { hplace with
    away := fun x hx => hI.away x (hknown ▸ hx)
    nodup := (congrArg List.Nodup hknown).mpr hI.nodup
    sessions := hsessions
    took := fun x hx => ?_
    late := fun x hx => ?_
    late_stopped := fun h => ?_
    stopped := fun h => ?_
    finished := fun h x hx => hplace.finished h x (hknown ▸ hx) }
  · rcases List.mem_append.mp hx with hx | hx
    · exact (hI.took x hx).imp_left (List.mem_append_left _)
    · exact Or.inl (List.mem_append_right _ hx)
  · obtain ⟨h₁, h₂, h₃⟩ := hI.late x hx
    exact ⟨h₁, h₂, fun h => h₃ (hknown ▸ h)⟩
  · have := hI.late_stopped h
    rw [hrun] at this
    cases this
  · rcases h with h | h | h <;> cases h <;> cases hp

/-- A session that shuts down is told, and leaves both vectors. -/
theorem SyncInv.join (hI : SyncInv w) (hw : w.place.busy = true) {pos c : ℕ} {p : SyncPlace}
    (hc : w.syncedSessions[pos]? = some c) (hp : p.busy = true) :
    SyncInv { w with
      joinEvent := Function.update w.joinEvent c true
      syncedSessions := w.syncedSessions.eraseIdx pos
      syncedSessionCtxs := w.syncedSessionCtxs.erase c
      place := p } := by
  obtain ⟨hlt, hget⟩ := List.getElem?_eq_some_iff.mp hc
  have hctx : c ∈ w.syncedSessionCtxs := hI.sessions.subset (hget ▸ List.getElem_mem hlt)
  have hknown : c ∈ w.known := List.mem_append_left _ hctx
  have hctxs : w.syncedSessionCtxs.Nodup := hI.nodup.of_append_left
  have herase : w.syncedSessions.eraseIdx pos = w.syncedSessions.erase c := by
    rw [← (hctxs.sublist hI.sessions).erase_getElem pos hlt, hget]
  have hsub : (w.syncedSessionCtxs.erase c ++ w.encodeSessionCtxQueue.queue).Sublist w.known :=
    List.erase_sublist.append (List.Sublist.refl _)
  have hplace := hI.setPlace hw hp
  refine { hplace with
    starting := fun h => ?_
    joined := fun x hx => ?_
    away := fun x hx => hI.away x (hsub.subset hx)
    nodup := hsub.nodup hI.nodup
    sessions := herase ▸ hI.sessions.erase c
    took := fun x hx => ?_
    late := fun x hx => ?_
    finished := fun h => ?_ }
  · cases h; cases hp
  · rcases eq_or_ne x c with rfl | hne
    · exact hI.away x hknown
    · exact hI.joined x (by simpa [Function.update_of_ne hne] using hx)
  · rcases eq_or_ne x c with rfl | hne
    · simp
    · simpa [Function.update_of_ne hne, List.mem_erase_of_ne hne] using hI.took x hx
  · obtain ⟨h₁, h₂, h₃⟩ := hI.late x hx
    have hne : x ≠ c := fun h => h₃ (h ▸ hknown)
    exact ⟨h₁, by simpa [Function.update_of_ne hne] using h₂, fun h => h₃ (hsub.subset h)⟩
  · exact absurd ((SyncPlace.not_done_of_busy hp).symm.trans h) (by simp)

theorem SyncInv.stop (hI : SyncInv w) (hw : w.place = .exiting) :
    SyncInv { w with encodeSessionCtxQueue := w.encodeSessionCtxQueue.stop, place := .stopped } :=
  { hI with
    count := by simpa [hw, SyncPlace.holds] using hI.count
    absent := fun h => by cases h
    starting := fun h => by cases h
    late_stopped := fun _ => rfl
    stopped := fun _ => rfl
    finished := fun h => by cases h }

/-- The exit guard raises the events of all contexts that it finds. -/
theorem SyncInv.raiseAll (hI : SyncInv w) (hw : w.place = .stopped) {shutdownEvent : ℕ → Bool} :
    SyncInv { w with
      shutdownEvent
      joinEvent := fun c =>
        w.joinEvent c || (w.syncedSessionCtxs.contains c || w.encodeSessionCtxQueue.queue.contains c)
      place := .finished } := by
  have hjoin : ∀ c, (w.joinEvent c || (w.syncedSessionCtxs.contains c || w.encodeSessionCtxQueue.queue.contains c))
      = true ↔ w.joinEvent c = true ∨ c ∈ w.known := fun c => by simp [CaptureSync.known]
  refine { hI with
    count := ?_
    absent := fun h => by cases h
    starting := fun h => by cases h
    joined := fun x hx => ?_
    took := fun x hx => (hI.took x hx).imp_right fun h => (hjoin x).mpr (Or.inl h)
    late := fun x hx => ?_
    stopped := fun _ => hI.stopped (Or.inl hw)
    finished := fun _ x hx => (hjoin x).mpr (Or.inr hx) }
  · simpa [hw, SyncPlace.holds] using hI.count
  · exact ((hjoin x).mp hx).elim (hI.joined x) (hI.away x)
  · obtain ⟨h₁, h₂, h₃⟩ := hI.late x hx
    refine ⟨h₁, ?_, h₃⟩
    rw [Bool.eq_false_iff, Ne, hjoin]
    exact fun h => h.elim (fun h => absurd (h₂.symm.trans h) (by simp)) h₃

theorem SyncInv.threadRef_step (hI : SyncInv w) (hstep : CaptureSyncStep w .threadRef w') : SyncInv w' := by
  obtain ⟨hw, rfl⟩ := of_ite_some hstep
  exact { hI with
    count := by simpa [hw, SyncPlace.holds] using hI.count
    absent := fun h => by cases h
    starting := fun h => by cases h
    stopped := fun h => by rcases h with h | h | h <;> cases h
    finished := fun h => by cases h }

theorem SyncInv.enter_step (hI : SyncInv w) (hstep : CaptureSyncStep w .enter w') : SyncInv w' := by
  simp only [ofPartial, CaptureSync.step] at hstep
  split at hstep
  next hw =>
    split at hstep
    · split at hstep
      · obtain rfl := Option.some.inj hstep
        exact hI.setPlace (by rw [hw]; rfl) rfl
      · cases hstep
      next hpop =>
        obtain rfl := Option.some.inj hstep
        exact hI.take (by rw [hw]; rfl) hpop rfl (hI.sessions.trans (List.sublist_append_left _ _))
    · obtain rfl := Option.some.inj hstep
      exact hI.setPlace (by rw [hw]; rfl) rfl
  next => cases hstep

theorem SyncInv.pop_step {ok : Bool} (hI : SyncInv w) (hstep : CaptureSyncStep w (.pop ok) w') : SyncInv w' := by
  simp only [ofPartial, CaptureSync.step] at hstep
  split at hstep
  next hw =>
    split at hstep
    · obtain rfl := Option.some.inj hstep
      exact hI.setPlace (by rw [hw]; rfl) rfl
    · cases hstep
    next c q hpop =>
      obtain rfl := Option.some.inj hstep
      split
      · exact hI.take (by rw [hw]; rfl) hpop rfl (hI.sessions.append (List.Sublist.refl _))
      · have htake := hI.take (p := .capture) (by rw [hw]; rfl) hpop rfl
          (hI.sessions.trans (List.sublist_append_left _ _))
        exact { htake with }
  next => cases hstep

theorem SyncInv.push_step {ok : Bool} (hI : SyncInv w) (hstep : CaptureSyncStep w (.push ok) w') : SyncInv w' := by
  simp only [ofPartial, CaptureSync.step] at hstep
  split at hstep
  next pos hw =>
    split at hstep
    · cases hstep
    next c hc =>
      obtain rfl := Option.some.inj hstep
      have hbusy : w.place.busy = true := by rw [hw]; rfl
      split
      · exact hI.join hbusy hc (by split <;> rfl)
      · split
        · exact hI.setPlace hbusy rfl
        · exact { hI with }
  · cases hstep

theorem SyncInv.threadRelease_step (hI : SyncInv w) (hstep : CaptureSyncStep w .threadRelease w') : SyncInv w' := by
  obtain ⟨hw, rfl⟩ := of_ite_some hstep
  exact { hI with
    count := by have := hI.count; simp only [hw, SyncPlace.holds] at this ⊢; simp [this]
    absent := fun h => by cases h
    starting := fun h => by cases h
    stopped := fun _ => hI.stopped (Or.inr (Or.inl hw))
    finished := fun _ => hI.finished (by rw [hw]; rfl) }

/-- **Step lemma.** -/
theorem syncInv_step {op : SyncOp} (hI : SyncInv w) (hstep : CaptureSyncStep w op w') : SyncInv w' := by
  cases op with
  | ref c =>
    obtain ⟨hc, rfl⟩ := of_ite_some hstep
    split
    next h0 => exact hI.refFirst hc h0
    next h0 => exact hI.refAgain hc h0
  | raise c =>
    obtain ⟨hc, rfl⟩ := of_ite_some hstep
    cases hrun : w.encodeSessionCtxQueue.running with
    | true => exact hI.raise hc hrun
    | false => exact hI.raiseLate hc hrun
  | shutdown c =>
    obtain rfl := Option.some.inj hstep
    exact { hI with }
  | leave c =>
    obtain ⟨⟨hc, hj⟩, rfl⟩ := of_ite_some hstep
    exact hI.leave hc hj
  | threadRef => exact hI.threadRef_step hstep
  | enter => exact hI.enter_step hstep
  | openDisplay ok =>
    obtain ⟨hw, rfl⟩ := of_ite_some hstep
    exact hI.setPlace (by rw [hw]; rfl) (by split <;> cases ok <;> rfl)
  | prepare ok =>
    obtain ⟨hw, rfl⟩ := of_ite_some hstep
    have hplace := hI.setPlace (p := if ok then .loop else .exiting) (by rw [hw]; rfl) (by cases ok <;> rfl)
    exact { hplace with sessions := List.Sublist.refl _ }
  | running =>
    obtain ⟨hw, rfl⟩ := of_ite_some hstep
    exact hI.setPlace (by rw [hw]; rfl) (by split <;> rfl)
  | callback =>
    obtain ⟨hw, rfl⟩ := of_ite_some hstep
    exact hI.setPlace (by rw [hw]; rfl) rfl
  | status status =>
    obtain ⟨hw, rfl⟩ := of_ite_some hstep
    have hplace := hI.setPlace (p := if (if w.ec != .ok then w.ec else status) = .reinit then .enter else .exiting)
      (by rw [hw]; rfl) (by split <;> split <;> rfl)
    exact { hplace with sessions := List.nil_sublist _ }
  | peek =>
    obtain ⟨hw, rfl⟩ := of_ite_some hstep
    exact hI.setPlace (by rw [hw]; rfl) (by split <;> rfl)
  | pop ok => exact hI.pop_step hstep
  | push ok => exact hI.push_step hstep
  | pushed switchDisplay =>
    simp only [ofPartial, CaptureSync.step] at hstep
    split at hstep
    next pos hw =>
      obtain ⟨-, rfl⟩ := of_ite_some hstep
      have hplace := hI.setPlace (p := .capture) (by rw [hw]; rfl) rfl
      exact { hplace with }
    · cases hstep
  | stop =>
    obtain ⟨hw, rfl⟩ := of_ite_some hstep
    exact hI.stop hw
  | raiseAll =>
    obtain ⟨hw, rfl⟩ := of_ite_some hstep
    exact hI.raiseAll hw
  | threadRelease => exact hI.threadRelease_step hstep

theorem syncInv_of_run {ops : List SyncOp} (hrun : Run CaptureSyncStep {} ops w) : SyncInv w :=
  hrun.invariant (I := SyncInv) (fun _ _ _ hI hs => syncInv_step hI hs) syncInv_init

/-! ### What the exit guard leaves behind -/

/-- The guard of a run: no call raises its context on the stopped queue. -/
def InTime (w : CaptureSync) : SyncOp → Prop
  | .raise _ => w.encodeSessionCtxQueue.running = true
  | _ => True

/-- A call that raised its context too late waits for ever, and the thread's state is never destroyed. -/
theorem late_waits (hI : SyncInv w) {c : ℕ} (hc : c ∈ w.late) :
    w.calls c = .waiting ∧ w.joinEvent c = false ∧ 0 < w.count := by
  obtain ⟨hw, hj, -⟩ := hI.late c hc
  have hmem := List.length_pos_of_mem ((hI.holders c).mpr (Or.inr hw))
  refine ⟨hw, hj, ?_⟩
  rw [hI.count]
  omega

/-- The calls that the exit guard has to release. -/
def CaptureSync.Due (w : CaptureSync) (c : ℕ) : Prop :=
  c ∈ w.took ∨ c ∈ w.encodeSessionCtxQueue.queue ∨ c ∈ w.late

theorem joins_iff (hI : SyncInv w) (hw : w.place = .finished) :
    (∀ c, w.Due c → w.joinEvent c = true) ↔ w.late = [] := by
  have hdone : w.place.done = true := by rw [hw]; rfl
  constructor
  · intro h
    by_contra hne
    obtain ⟨c, hc⟩ := List.exists_mem_of_ne_nil _ hne
    exact absurd ((hI.late c hc).2.1.symm.trans (h c (Or.inr (Or.inr hc)))) (by simp)
  · rintro hlate c (hc | hc | hc)
    · rcases hI.took c hc with hctx | hjoin
      · exact hI.finished hdone c (List.mem_append_left _ hctx)
      · exact hjoin
    · exact hI.finished hdone c (List.mem_append_right _ hc)
    · rw [hlate] at hc
      cases hc

/-- A raise on the stopped queue is the only step that makes a call late. -/
theorem late_step_iff {op : SyncOp} (hstep : w.step op = some w') : w'.late = [] ↔ w.late = [] ∧ InTime w op := by
  cases op with
  | raise c =>
    obtain ⟨-, rfl⟩ := of_ite_some hstep
    rw [InTime]
    cases w.encodeSessionCtxQueue.running <;> simp
  | ref c =>
    obtain ⟨-, rfl⟩ := of_ite_some hstep
    split <;> exact (and_iff_left trivial).symm
  | shutdown c =>
    obtain rfl := Option.some.inj hstep
    exact (and_iff_left trivial).symm
  | leave | threadRef | openDisplay | prepare | running | callback | status | peek | stop | raiseAll | threadRelease =>
    obtain ⟨-, rfl⟩ := of_ite_some hstep
    exact (and_iff_left trivial).symm
  | enter =>
    simp only [CaptureSync.step] at hstep
    split at hstep
    · split at hstep
      · split at hstep
        · obtain rfl := Option.some.inj hstep
          exact (and_iff_left trivial).symm
        · cases hstep
        · obtain rfl := Option.some.inj hstep
          exact (and_iff_left trivial).symm
      · obtain rfl := Option.some.inj hstep
        exact (and_iff_left trivial).symm
    · cases hstep
  | pop ok =>
    simp only [CaptureSync.step] at hstep
    split at hstep
    · split at hstep
      · obtain rfl := Option.some.inj hstep
        exact (and_iff_left trivial).symm
      · cases hstep
      · obtain rfl := Option.some.inj hstep
        split <;> exact (and_iff_left trivial).symm
    · cases hstep
  | push ok =>
    simp only [CaptureSync.step] at hstep
    split at hstep
    · split at hstep
      · cases hstep
      · obtain rfl := Option.some.inj hstep
        split
        · exact (and_iff_left trivial).symm
        · split <;> exact (and_iff_left trivial).symm
    · cases hstep
  | pushed switchDisplay =>
    simp only [CaptureSync.step] at hstep
    split at hstep
    · obtain ⟨-, rfl⟩ := of_ite_some hstep
      exact (and_iff_left trivial).symm
    · cases hstep

theorem exit_joins_iff {ops : List SyncOp} (hrun : Run CaptureSyncStep {} ops w) (hw : w.place = .finished) :
    (∀ c, w.Due c → w.joinEvent c = true) ↔ Run (Guarded CaptureSyncStep InTime) {} ops w :=
  (joins_iff (syncInv_of_run hrun) hw).trans
    (run_guarded_iff (P := fun w : CaptureSync => w.late = []) (fun _ _ _ hs => late_step_iff hs) rfl hrun)

instance (w : CaptureSync) (op : SyncOp) : Decidable (InTime w op) :=
  match op with
  | .raise _ => inferInstanceAs (Decidable (w.encodeSessionCtxQueue.running = true))
  | .ref _ | .shutdown _ | .leave _ | .threadRef | .enter | .openDisplay _ | .prepare _ | .running | .callback
  | .status _ | .peek | .pop _ | .push _ | .pushed _ | .stop | .raiseAll | .threadRelease => instDecidableTrue

/-- **Capture callers** are released by the exit guard: with a parallel encoder always, with another one exactly if no
call raised its context after the queue was stopped. -/
theorem capture_callers_released_iff {ops : List CaptureOp} {w : CaptureAsync} {ops' : List SyncOp} {w' : CaptureSync}
    (hrun : Run CaptureAsyncStep {} ops w) (hw : w.place = .finished) (hrun' : Run CaptureSyncStep {} ops' w')
    (hw' : w'.place = .finished) :
    (∀ c, c ∈ w.took ∨ c ∈ w.captureCtxQueue.queue ∨ c ∈ w.late → w.Released c ∧ w.Returns c) ∧
      ((∀ c, w'.Due c → w'.joinEvent c = true) ↔ Run (Guarded CaptureSyncStep InTime) {} ops' w') := by
  refine ⟨fun c hc => ?_, exit_joins_iff hrun' hw'⟩
  have hI := asyncInv_of_run hrun
  have hreleased := exit_releases hI hw hc
  refine ⟨hreleased, returns_of_released hI hw hreleased ?_⟩
  rcases hc with hc | hc | hc
  · exact hI.away c (List.mem_append_left _ (List.mem_append_right _ hc))
  · exact hI.away c (List.mem_append_left _ (List.mem_append_left _ hc))
  · rcases (hI.late c hc).2 with h | h
    · simp [h]
    · constructor <;> intro h' <;> rw [h'] at h <;> cases h

/-- One session, one reinitialisation, then an error of the display. -/
def oneReinit : List CaptureOp :=
  [.ref 0, .raise 0, .observe 0, .initialPop, .openDisplay true, .running, .callback, .check, .check, .stillRunning,
    .peek true, .status .ok, .useCount false, .check, .check, .useCount true, .reopen, .front true, .running,
    .status .error, .stop, .stopAll]

/-- One session shuts down, and the thread ends with it. -/
def shutdownInTime : List SyncOp :=
  [.ref 0, .raise 0, .threadRef, .enter, .openDisplay true, .prepare true, .running, .callback, .peek, .push true,
    .pushed false, .shutdown 0, .callback, .peek, .push true, .status .ok, .stop, .raiseAll]

theorem capture_callers_released_inTime :
    (∃ w, Run CaptureAsyncStep {} oneReinit w ∧ w.place = .finished ∧ w.Released 0 ∧ w.Returns 0) ∧
      ∃ w, Run CaptureSyncStep {} shutdownInTime w ∧ w.place = .finished ∧ 0 ∈ w.took ∧
        ∀ c, w.Due c → w.joinEvent c = true := by
  obtain ⟨w, hrun, hw, h0⟩ := exists_run_execWhere_and (f := CaptureAsync.step) (G := fun _ _ => True) (s := {})
    (l := oneReinit) (P := fun w => w.place = .finished ∧ 0 ∈ w.took) (by decide)
  obtain ⟨w', hrun', hw', h0'⟩ := exists_run_execWhere_and (f := CaptureSync.step) (G := InTime) (s := {})
    (l := shutdownInTime) (P := fun w => w.place = .finished ∧ 0 ∈ w.took) (by decide)
  obtain ⟨hasync, hsync⟩ := capture_callers_released_iff hrun.of_guarded hw hrun'.of_guarded hw'
  exact ⟨⟨w, hrun.of_guarded, hw, hasync 0 (Or.inl h0)⟩, w', hrun'.of_guarded, hw', h0', hsync.mpr hrun'⟩

/-- Session 0 runs and the display fails; session 1 takes a reference before, and raises its context after the queue is
stopped. -/
def raiseAfterStop : List SyncOp :=
  [.ref 0, .raise 0, .threadRef, .enter, .openDisplay true, .prepare true, .running, .status .error, .ref 1, .stop,
    .raise 1, .raiseAll]

/-- Session 1 is not told. -/
theorem late_caller_not_released :
    ∃ w, Run CaptureSyncStep {} raiseAfterStop w ∧ w.place = .finished ∧ 1 ∈ w.late ∧ w.joinEvent 1 = false := by
  obtain ⟨w, hrun, hw⟩ := exists_run_execWhere_and (f := CaptureSync.step) (G := fun _ _ => True) (s := {})
    (l := raiseAfterStop) (P := fun w => w.place = .finished ∧ 1 ∈ w.late ∧ w.joinEvent 1 = false) (by decide)
  exact ⟨w, hrun.of_guarded, hw⟩

end MidnightSun.Video
