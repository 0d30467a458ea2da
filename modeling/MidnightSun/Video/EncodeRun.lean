import MidnightSun.Lib.History
import MidnightSun.Safe.Event
import MidnightSun.Video.EncodeSession

/-!
# Invalidation requests between two threads (src/stream.cpp, src/video.cpp)

The control thread raises each `IDX_INVALIDATE_REF_FRAMES` message on an event, `encode_run` takes what is there at the
beginning of an iteration.  The event is a single slot: a message that comes before the last one is taken replaces it,
and one that comes while an iteration waits for its image is taken by the next.  Where neither happens to a frame that
matters, no encoded frame refers to a frame that was named before.
-/

namespace MidnightSun.Video

open Safe Lib Nvenc

/-- Where `encode_run` is: at the top of the loop, in the loop that takes the messages, before `idr_events`, the image
and `encode`, or out of the loop. -/
inductive Place where
  | check
  | invalidate
  | pop
  | idr
  | image
  | encode
  | left
  deriving DecidableEq

/-- The messages of this iteration have been taken, its frame has not been encoded. -/
def Place.late : Place → Bool
  | idr | image | encode => true
  | _ => false

/-- What was taken and encoded, in order. -/
inductive RunEntry where
  | received (firstFrame lastFrame : Int64)
  /-- a frame was encoded when these frames were usable -/
  | encoded (frameNr : UInt64) (idr : Bool) (usable : List UInt64)
  deriving DecidableEq

/-- The state of the two threads. -/
structure EncodeRun where
  encoder : EncodeSession
  invalidateRefFramesEvents : Event (Int64 × Int64) := {}
  idrEvents : Event Bool := {}
  /-- `frame_nr`, an `int` -/
  frameNr : ℕ
  place : Place := .check
  /-- ghost -/
  log : List RunEntry := []

inductive RunOp where
  /-- the control thread handles `IDX_INVALIDATE_REF_FRAMES` -/
  | message (firstFrame lastFrame : Int64)
  /-- the control thread handles `IDX_REQUEST_IDR_FRAME` -/
  | requestIdrFrame
  /-- the exit conditions at the top of the loop -/
  | check (leave : Bool)
  /-- `while (invalidate_ref_frames_events->peek())` -/
  | peek
  /-- `pop(0ms)` and `session->invalidate_ref_frames` -/
  | pop (answers : List Bool)
  | idr
  /-- `images->pop` and `session->convert`, or neither -/
  | image (leave : Bool)
  /-- `encode` and `session->request_normal_frame` -/
  | encode (calls : EncodeCalls) (refs : List UInt64)

namespace EncodeRun

/-- One step of one of the threads, where it is enabled.  An `int` counts the frames. -/
def step (w : EncodeRun) : RunOp → Option EncodeRun
  | .message firstFrame lastFrame =>
    some { w with
      invalidateRefFramesEvents := w.invalidateRefFramesEvents.raise (firstFrame, lastFrame)
      log := w.log ++ [.received firstFrame lastFrame] }
  | .requestIdrFrame => some { w with idrEvents := w.idrEvents.raise true }
  | .check leave => if w.place = .check then some { w with place := if leave then .left else .invalidate } else none
  | .peek =>
    if w.place = .invalidate then
      some { w with place := if w.invalidateRefFramesEvents.viewNow.isSome then .pop else .idr }
    else none
  | .pop answers =>
    if w.place = .pop then
      match w.invalidateRefFramesEvents.viewNow with
      | none => some { w with place := .invalidate }
      | some frames =>
        (w.encoder.invalidateRefFrames frames.1 frames.2 answers).map fun encoder =>
          { w with encoder, invalidateRefFramesEvents := w.invalidateRefFramesEvents.popNow, place := .invalidate }
    else none
  | .idr =>
    if w.place = .idr then
      if w.idrEvents.viewNow.isSome then
        some { w with encoder := w.encoder.requestIdrFrame, idrEvents := w.idrEvents.popNow, place := .image }
      else some { w with place := .image }
    else none
  | .image leave => if w.place = .image then some { w with place := if leave then .left else .encode } else none
  | .encode calls refs =>
    if w.place = .encode ∧ w.frameNr < 2147483647 then
      (w.encoder.encode (.ofNat w.frameNr) calls refs).map fun r =>
        if r.2 then
          { w with
            encoder := r.1.requestNormalFrame
            frameNr := w.frameNr + 1
            place := .check
            log := w.log ++ [.encoded (.ofNat w.frameNr) calls.idr w.encoder.usable] }
        else { w with encoder := r.1, frameNr := w.frameNr + 1, place := .left }
    else none

end EncodeRun

abbrev EncodeRunStep : EncodeRun → RunOp → EncodeRun → Prop := ofPartial EncodeRun.step

/-! ### What was asked for -/

/-- The indices of the frames encoded so far. -/
def encodedIn (log : List RunEntry) : List UInt64 :=
  log.filterMap fun
    | .encoded frameNr _ _ => some frameNr
    | .received .. => none

/-- A message named the frame after it had been encoded. -/
def Requested (log : List RunEntry) (j : UInt64) : Prop :=
  ∃ before firstFrame lastFrame after, log = before ++ .received firstFrame lastFrame :: after ∧
    j ∈ encodedIn before ∧ Named firstFrame lastFrame j

/-- A frame is an IDR frame, or was encoded when no frame that a message had named was usable. -/
def Lawful (before : List RunEntry) : RunEntry → Prop
  | .encoded _ idr usable => idr = true ∨ ∀ j, Requested before j → j ∉ usable
  | .received .. => True

/-- Every frame that the waiting message names is named by the new one as well. -/
def Covers (waiting : Option (Int64 × Int64)) (log : List RunEntry) (firstFrame lastFrame : Int64) : Prop :=
  match waiting with
  | none => True
  | some q => ∀ j ∈ encodedIn log, Named q.1 q.2 j → Named firstFrame lastFrame j

/-- The guard of a run.  A message may come if the next frame is forced anyway; else every frame that the message
waiting in the event names must be named by the new one as well, and the new one comes while the encode thread still
takes messages, with a first frame that is not negative if the encoder is NVENC, or names no frame encoded so far. -/
def Timely (w : EncodeRun) : RunOp → Prop
  | .message firstFrame lastFrame =>
    w.encoder.forced = true ∨
      Covers w.invalidateRefFramesEvents.status w.log firstFrame lastFrame ∧
      ((w.place.late = false ∧ (0 ≤ firstFrame.toInt ∨ w.encoder.isAvcodec = true)) ∨
        ∀ j ∈ encodedIn w.log, ¬ Named firstFrame lastFrame j)
  | _ => True

instance (waiting : Option (Int64 × Int64)) (log : List RunEntry) (firstFrame lastFrame : Int64) :
    Decidable (Covers waiting log firstFrame lastFrame) :=
  match waiting with
  | none => instDecidableTrue
  | some q => List.decidableBAll (fun j => Named q.1 q.2 j → Named firstFrame lastFrame j) (encodedIn log)

instance (log : List RunEntry) (firstFrame lastFrame : Int64) :
    Decidable (∀ j ∈ encodedIn log, ¬ Named firstFrame lastFrame j) :=
  List.decidableBAll (fun j => ¬ Named firstFrame lastFrame j) (encodedIn log)

instance (w : EncodeRun) (op : RunOp) : Decidable (Timely w op) :=
  match op with
  | .message firstFrame lastFrame =>
    inferInstanceAs (Decidable (w.encoder.forced = true ∨
      Covers w.invalidateRefFramesEvents.status w.log firstFrame lastFrame ∧
      ((w.place.late = false ∧ (0 ≤ firstFrame.toInt ∨ w.encoder.isAvcodec = true)) ∨
        ∀ j ∈ encodedIn w.log, ¬ Named firstFrame lastFrame j)))
  | .requestIdrFrame | .check _ | .peek | .pop _ | .idr | .image _ | .encode .. => instDecidableTrue

theorem requested_snoc {log : List RunEntry} {e : RunEntry} {j : UInt64} :
    Requested (log ++ [e]) j ↔ Requested log j ∨
      ∃ firstFrame lastFrame, e = .received firstFrame lastFrame ∧ j ∈ encodedIn log ∧
        Named firstFrame lastFrame j := by
  constructor
  · rintro ⟨before, f, l, after, heq, hj, hnamed⟩
    rcases List.eq_nil_or_concat after with rfl | ⟨after', z, rfl⟩
    · obtain ⟨rfl, he⟩ := List.append_inj' heq rfl
      exact Or.inr ⟨f, l, by simpa using he, hj, hnamed⟩
    · have heq' : log ++ [e] = (before ++ .received f l :: after') ++ [z] := by simpa using heq
      obtain ⟨hlog, -⟩ := List.append_inj' heq' rfl
      exact Or.inl ⟨before, f, l, after', hlog, hj, hnamed⟩
  · rintro (⟨before, f, l, after, rfl, hj, hnamed⟩ | ⟨f, l, rfl, hj, hnamed⟩)
    · exact ⟨before, f, l, after ++ [e], by simp, hj, hnamed⟩
    · exact ⟨log, f, l, [], rfl, hj, hnamed⟩

theorem encodedIn_append (log log' : List RunEntry) : encodedIn (log ++ log') = encodedIn log ++ encodedIn log' :=
  List.filterMap_append

theorem mem_encodedIn_of_requested {log : List RunEntry} {j : UInt64} (h : Requested log j) : j ∈ encodedIn log := by
  obtain ⟨before, f, l, after, rfl, hj, -⟩ := h
  rw [encodedIn_append]
  exact List.mem_append_left _ hj

/-! ### The invariant -/

/-- The frame is named by the message in the event, which this iteration will take. -/
def InFlight (w : EncodeRun) (j : UInt64) : Prop :=
  w.place.late = false ∧ ∃ q, w.invalidateRefFramesEvents.status = some q ∧ Named q.1 q.2 j ∧
    (0 ≤ q.1.toInt ∨ w.encoder.isAvcodec = true)

/-- A frame that was asked for is out of use, or will be before the next frame is encoded. -/
def Settled (w : EncodeRun) : Prop :=
  ∀ j, Requested w.log j → w.encoder.forced = true ∨ j ∉ w.encoder.usable ∨ InFlight w j

structure RunInv (w : EncodeRun) : Prop where
  law : Always Lawful w.log
  running : w.invalidateRefFramesEvents.running = true
  encoder : w.place ≠ .left → w.encoder.Inv
  encoded_le : w.place ≠ .left → ∀ j ∈ encodedIn w.log, j ≤ w.encoder.lastIndex
  settled : w.place ≠ .left → Settled w

variable {w w' : EncodeRun}

/-- A message that meets the guard. -/
theorem runInv_message {firstFrame lastFrame : Int64} (hI : RunInv w) (hg : Timely w (.message firstFrame lastFrame)) :
    RunInv { w with
      invalidateRefFramesEvents := w.invalidateRefFramesEvents.raise (firstFrame, lastFrame)
      log := w.log ++ [.received firstFrame lastFrame] } := by
  have hlog : encodedIn (w.log ++ [.received firstFrame lastFrame]) = encodedIn w.log := by
    rw [encodedIn_append]
    exact List.append_nil _
  rw [Event.raise_of_running hI.running]
  refine ⟨always_snoc.mpr ⟨hI.law, trivial⟩, hI.running, hI.encoder, fun hp j hj => ?_, fun hp j hj => ?_⟩
  · rw [hlog] at hj
    exact hI.encoded_le hp j hj
  rcases hg with hforced | ⟨hover, hnew⟩
  · exact Or.inl hforced
  -- the frame is named by the new message, and encoded
  have hflight : j ∈ encodedIn w.log → Named firstFrame lastFrame j → w.place.late = false →
      (0 ≤ firstFrame.toInt ∨ w.encoder.isAvcodec = true) →
      InFlight { w with
        invalidateRefFramesEvents := { w.invalidateRefFramesEvents with status := some (firstFrame, lastFrame) }
        log := w.log ++ [.received firstFrame lastFrame] } j :=
    fun _ hnamed hlate hfirst => ⟨hlate, _, rfl, hnamed, hfirst⟩
  rcases requested_snoc.mp hj with hold | ⟨f, l, heq, hmem, hnamed⟩
  · rcases hI.settled hp j hold with hforced | hout | ⟨hlate, q, hq, hnamed, hfirst⟩
    · exact Or.inl hforced
    · exact Or.inr (Or.inl hout)
    · have hmem := mem_encodedIn_of_requested hold
      rw [hq] at hover
      have hcovered := hover j hmem hnamed
      rcases hnew with ⟨-, hfirst'⟩ | hnone
      · exact Or.inr (Or.inr (hflight hmem hcovered hlate hfirst'))
      · exact absurd hcovered (hnone j hmem)
  · cases heq
    rcases hnew with ⟨hlate, hfirst⟩ | hnone
    · exact Or.inr (Or.inr (hflight hmem hnamed hlate hfirst))
    · exact absurd hnamed (hnone j hmem)

theorem runInv_place (hI : RunInv w) (hw : w.place ≠ .left) {p : Place}
    (hp : p.late = true → w.place.late = true ∨ w.invalidateRefFramesEvents.status = none) :
    RunInv { w with place := p } := by
  refine ⟨hI.law, hI.running, fun _ => hI.encoder hw, fun _ => hI.encoded_le hw, fun _ j hj => ?_⟩
  rcases hI.settled hw j hj with hforced | hout | ⟨hlate, q, hq, hnamed⟩
  · exact Or.inl hforced
  · exact Or.inr (Or.inl hout)
  · cases hl : p.late with
    | false => exact Or.inr (Or.inr ⟨hl, q, hq, hnamed⟩)
    | true =>
      rcases hp hl with hlate' | hnone
      · rw [hlate] at hlate'
        cases hlate'
      · rw [hnone] at hq
        cases hq

/-- Taking the message out of the event. -/
theorem runInv_pop (hI : RunInv w) (hw : w.place = .pop) {frames : Int64 × Int64}
    (hq : w.invalidateRefFramesEvents.status = some frames) {answers : List Bool} {encoder : EncodeSession}
    (hcall : w.encoder.invalidateRefFrames frames.1 frames.2 answers = some encoder) :
    RunInv { w with
      encoder, invalidateRefFramesEvents := w.invalidateRefFramesEvents.popNow, place := .invalidate } := by
  have hne : w.place ≠ .left := by simp [hw]
  obtain ⟨hinv, hlast, -, hforced, hsub, hdone⟩ := invalidateRefFrames_spec (hI.encoder hne) hcall
  rw [Event.popNow_of_running hI.running]
  refine ⟨hI.law, hI.running, fun _ => hinv, fun _ j hj => ?_, fun _ j hj => ?_⟩
  · exact hlast ▸ hI.encoded_le hne j hj
  rcases hI.settled hne j hj with hf | hout | ⟨-, q, hq', hnamed, hfirst⟩
  · exact Or.inl (hforced hf)
  · exact Or.inr (Or.inl fun hmem => hout (hsub hmem))
  · obtain rfl := Option.some.inj (hq'.symm.trans hq)
    have hle := hI.encoded_le hne j (mem_encodedIn_of_requested hj)
    exact (hdone hfirst j hnamed hle).imp_right Or.inl

theorem runInv_requestIdrFrame (hI : RunInv w) (hw : w.place ≠ .left) (idrEvents : Event Bool) (p : Place) :
    RunInv { w with encoder := w.encoder.requestIdrFrame, idrEvents, place := p } :=
  ⟨hI.law, hI.running, fun _ => inv_requestIdrFrame (hI.encoder hw),
    fun _ => by simpa using hI.encoded_le hw, fun _ _ _ => Or.inl (forced_requestIdrFrame _)⟩

/-- A frame is encoded after the messages were taken: it does not refer to what they named. -/
theorem runInv_encode (hI : RunInv w) (hw : w.place = .encode) {calls : EncodeCalls} {refs : List UInt64}
    {encoder : EncodeSession} (hcall : w.encoder.encode (.ofNat w.frameNr) calls refs = some (encoder, true)) :
    RunInv { w with
      encoder := encoder.requestNormalFrame
      frameNr := w.frameNr + 1
      place := .check
      log := w.log ++ [.encoded (.ofNat w.frameNr) calls.idr w.encoder.usable] } := by
  have hne : w.place ≠ .left := by simp [hw]
  obtain ⟨hinv, hlt, hlast, hforced, -, husable⟩ := encode_spec (hI.encoder hne) hcall
  have hclear : calls.idr = true ∨ ∀ j, Requested w.log j → j ∉ w.encoder.usable := by
    cases hidr : calls.idr with
    | true => exact Or.inl rfl
    | false =>
      refine Or.inr fun j hj => ?_
      rcases hI.settled hne j hj with hf | hout | ⟨hlate, -⟩
      · rw [hforced hf] at hidr
        cases hidr
      · exact hout
      · rw [hw] at hlate
        cases hlate
  refine ⟨always_snoc.mpr ⟨hI.law, hclear⟩, hI.running, fun _ => hinv, fun _ j hj => ?_, fun _ j hj => ?_⟩
  · rw [encodedIn_append] at hj
    simp only [lastIndex_requestNormalFrame, hlast]
    rcases List.mem_append.mp hj with hj | hj
    · have := hI.encoded_le hne j hj
      grind
    · obtain rfl := List.mem_singleton.mp hj
      exact UInt64.le_refl _
  · -- an earlier frame is no longer usable: it was not before, or this is an IDR frame
    have hold : Requested w.log j := by
      rcases requested_snoc.mp hj with hold | ⟨f, l, heq, -⟩
      · exact hold
      · cases heq
    have hle := hI.encoded_le hne j (mem_encodedIn_of_requested hold)
    refine Or.inr (Or.inl fun hmem => ?_)
    rw [usable_requestNormalFrame] at hmem
    rcases husable j hmem with rfl | ⟨hidr, hmem⟩
    · grind
    · rcases hclear with hidr' | hout
      · rw [hidr] at hidr'
        cases hidr'
      · exact hout j hold hmem

/-- **Step lemma.** -/
theorem runInv_step {op : RunOp} (hI : RunInv w) (hg : Timely w op) (hstep : EncodeRunStep w op w') : RunInv w' := by
  cases op with
  | message firstFrame lastFrame =>
    obtain rfl := Option.some.inj hstep
    exact runInv_message hI hg
  | requestIdrFrame =>
    obtain rfl := Option.some.inj hstep
    exact { hI with }
  | check leave =>
    obtain ⟨hw, rfl⟩ := of_ite_some hstep
    exact runInv_place hI (by simp [hw]) (by cases leave <;> simp [Place.late])
  | peek =>
    obtain ⟨hw, rfl⟩ := of_ite_some hstep
    refine runInv_place hI (by simp [hw]) fun hlate => Or.inr ?_
    rw [Event.viewNow_of_running hI.running] at hlate
    cases hs : w.invalidateRefFramesEvents.status with
    | none => rfl
    | some q =>
      rw [hs] at hlate
      cases hlate
  | pop answers =>
    simp only [ofPartial, EncodeRun.step, Event.viewNow_of_running hI.running] at hstep
    split at hstep
    next hw =>
      cases hs : w.invalidateRefFramesEvents.status with
      | none =>
        rw [hs] at hstep
        obtain rfl := Option.some.inj hstep
        exact runInv_place hI (by simp [hw]) (by simp [Place.late])
      | some frames =>
        rw [hs] at hstep
        obtain ⟨encoder, hcall, rfl⟩ := Option.map_eq_some_iff.mp hstep
        exact runInv_pop hI hw hs hcall
    next => cases hstep
  | idr =>
    simp only [ofPartial, EncodeRun.step] at hstep
    split at hstep
    next hw =>
      have hne : w.place ≠ .left := by simp [hw]
      split at hstep
      · obtain rfl := Option.some.inj hstep
        exact runInv_requestIdrFrame hI hne _ _
      · obtain rfl := Option.some.inj hstep
        exact runInv_place hI hne fun _ => Or.inl (by simp [hw, Place.late])
    next => cases hstep
  | image leave =>
    obtain ⟨hw, rfl⟩ := of_ite_some hstep
    exact runInv_place hI (by simp [hw]) fun _ => Or.inl (by simp [hw, Place.late])
  | encode calls refs =>
    simp only [ofPartial, EncodeRun.step] at hstep
    split at hstep
    next hw =>
      obtain ⟨⟨encoder, ok⟩, hcall, rfl⟩ := Option.map_eq_some_iff.mp hstep
      cases ok with
      | true => exact runInv_encode hI hw.1 hcall
      | false =>
        exact ⟨hI.law, hI.running, fun h => absurd rfl h, fun h => absurd rfl h, fun h => absurd rfl h⟩
    next => cases hstep

/-! ### The main result -/

/-- A new session in `encode_run`, from any frame number on, with what may be left in the two events. -/
def EncodeRun.start (encoder : EncodeSession) (frameNr : ℕ) (message : Option (Int64 × Int64)) (idr : Option Bool) :
    EncodeRun :=
  { encoder, frameNr, invalidateRefFramesEvents := { status := message }, idrEvents := { status := idr } }

/-- An encoder that has not encoded anything. -/
def EncodeSession.Fresh (c : EncodeSession) : Prop := c = .avcodec false [] 0 ∨ ∃ nvenc, c = .nvenc (.create nvenc)

theorem runInv_start {c : EncodeSession} (hc : c.Fresh) (frameNr : ℕ) (message : Option (Int64 × Int64))
    (idr : Option Bool) :
    RunInv (.start c frameNr message idr) := by
  refine ⟨always_nil, rfl, fun _ => ?_, fun _ j hj => (by cases hj), fun _ j hj => ?_⟩
  · rcases hc with rfl | ⟨nvenc, rfl⟩
    · trivial
    · refine ⟨rfiInv_create nvenc, fun e he => ?_⟩
      obtain ⟨e', -, rfl⟩ := Option.map_eq_some_iff.mp he
      rfl
  · cases mem_encodedIn_of_requested hj

/-- **No request is lost** in a run whose messages meet the guard: every encoded frame is an IDR frame, or was encoded
when no frame was usable that a message received before had named after it was encoded. -/
theorem no_request_lost {c : EncodeSession} (hc : c.Fresh) {frameNr : ℕ} {message : Option (Int64 × Int64)}
    {idr : Option Bool} {ops : List RunOp} {w : EncodeRun}
    (hrun : Run (Guarded EncodeRunStep Timely) (.start c frameNr message idr) ops w) : Always Lawful w.log :=
  (hrun.invariant_where (I := RunInv) (fun _ _ _ hI hg hs => runInv_step hI hg hs)
    (runInv_start hc frameNr message idr)).law

/-- An iteration without messages whose frame is encoded. -/
def iteration (idr : Bool) (refs : List UInt64) : List RunOp :=
  [.check false, .peek, .idr, .image false, .encode { data := [0], idr } refs]

/-- Two messages come after the third frame, and the second replaces the first. -/
def twoMessages : List RunOp :=
  iteration true [] ++ iteration false [1] ++ iteration false [2] ++
    [.message 1 1, .message 3 3, .check false, .peek, .pop [true], .peek, .idr, .image false,
      .encode { data := [0], idr := false } [1]]

/-- Frame 4 refers to frame 1, although a message named frame 1 before. -/
theorem request_lost :
    ∃ w, Run EncodeRunStep (.start (.nvenc (.create (some fiveFrames))) 1 none none) twoMessages w ∧
      w.log = [.encoded 1 true [], .encoded 2 false [1], .encoded 3 false [2, 1], .received 1 1, .received 3 3,
        .encoded 4 false [2, 1]] := by
  obtain ⟨w, hrun, hlog⟩ := exists_run_execWhere_and (f := EncodeRun.step) (G := fun _ _ => True)
    (s := .start (.nvenc (.create (some fiveFrames))) 1 none none) (l := twoMessages)
    (P := fun w => w.log = [.encoded 1 true [], .encoded 2 false [1], .encoded 3 false [2, 1], .received 1 1,
      .received 3 3, .encoded 4 false [2, 1]]) (by decide)
  exact ⟨w, hrun.of_guarded, hlog⟩

/-- One message after the second frame, taken before the third. -/
def oneMessage : List RunOp :=
  iteration true [] ++ iteration false [1] ++
    [.message 2 2, .check false, .peek, .pop [true], .peek, .idr, .image false,
      .encode { data := [0], idr := false } [1]]

theorem no_request_lost_oneMessage :
    ∃ w, Run EncodeRunStep (.start (.nvenc (.create (some fiveFrames))) 1 none none) oneMessage w ∧
      Always Lawful w.log := by
  have hrun := exists_run_execWhere (f := EncodeRun.step) (G := Timely)
    (s := .start (.nvenc (.create (some fiveFrames))) 1 none none) (l := oneMessage) (by decide)
  exact ⟨_, hrun.of_guarded, no_request_lost (Or.inr ⟨_, rfl⟩) hrun⟩

end MidnightSun.Video
