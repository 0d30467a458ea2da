import Mathlib.Logic.Function.Basic
import MidnightSun.Lib.Run
import MidnightSun.Video.ValidateEncoder

/-!
# Choosing an encoder (src/video.cpp, `probe_encoders`)

A probe goes through the list of encoders in up to three loops: for the encoder whose name is configured, for one that
meets the configured codec modes, and for any that works.  An encoder that fails is erased from the list; the later
loops try the others again.  The first and the third loop take an encoder as it is and give up the modes that it does
not meet.

* `chosen_of_probe`: which encoder a probe chooses, and what is known about it;
* `probe_encoders_consistent`: when exactly the modes that a probe leaves are those of the encoder that it chose.
-/

namespace MidnightSun.Video.Probe

open Lib Rtsp

/-! ### The model -/

/-- The loops of a probe. -/
inductive Phase where
  /-- for `config::video.encoder` -/
  | named
  /-- for an encoder that meets the codec modes -/
  | meeting
  | any
  deriving DecidableEq

/-- What a probe reads besides the state: the configuration, the platform, and the answers to each call of
`validate_encoder`. -/
structure Inputs where
  video : ConfigVideo
  allowEncoderProbing : Bool := true
  needsEncoderReenumeration : Bool := false
  answers : Phase → ℕ → Answers

/-- The encoders, named by numbers as by their addresses, and the globals that a probe sets. -/
structure World where
  encoders : ℕ → Encoder
  chosenEncoder : Option ℕ := none
  activeHevcMode : ℤ := 0
  activeAv1Mode : ℤ := 0
  lastEncoderProbeSupportedRefFramesInvalidation : Bool := false
  /-- for H.264, HEVC and AV1 -/
  lastEncoderProbeSupportedYuv444ForCodec : Bool × Bool × Bool := (false, false, false)
  /-- ghost: the validations of HEVC and AV1 that succeeded in the last probe that tried encoders -/
  passed : List (ℕ × VideoConfig) := []

namespace World

/-- `validate_encoder(*encoder, previous_encoder && previous_encoder != encoder)`. -/
def validate (w : World) (i : Inputs) (previous : Option ℕ) (phase : Phase) (e : ℕ) : Bool × World :=
  let v := validateEncoder i.video w.activeHevcMode w.activeAv1Mode (i.answers phase e)
    (previous.isSome && previous != some e) (w.encoders e)
  (v.ok, { w with
    encoders := Function.update w.encoders e v.encoder, passed := w.passed ++ v.passed.map fun c => (e, c) })

/-- One codec in `adjust_encoder_constraints`. -/
def adjustMode (mode : ℤ) (capabilities : Capabilities) : ℤ :=
  if mode == 3 && !capabilities.dynamicRange then 0
  else if mode == 2 && !capabilities.passed then 0
  else mode

/-- `adjust_encoder_constraints`. -/
def adjustEncoderConstraints (w : World) (e : ℕ) : World :=
  { w with
    activeHevcMode := adjustMode w.activeHevcMode (w.encoders e).hevc.capabilities
    activeAv1Mode := adjustMode w.activeAv1Mode (w.encoders e).av1.capabilities }

/-- The loop for the encoder whose name is configured: what is left of the list, and the state. -/
def findNamed (i : Inputs) (previous : Option ℕ) : List ℕ → World → List ℕ × World
  | [], w => ([], w)
  | e :: list, w =>
    if (w.encoders e).name = i.video.encoder then
      let (ok, w) := w.validate i previous .named e
      if !ok then (list, w)
      else (e :: list, { w.adjustEncoderConstraints e with chosenEncoder := some e })
    else
      let (list, w) := findNamed i previous list w
      (e :: list, w)

/-- One codec of the two checks in the second loop. -/
def misses (mode : ℤ) (capabilities : Capabilities) : Bool :=
  (decide (2 ≤ mode) && !capabilities.passed) || (mode == 3 && !capabilities.dynamicRange)

/-- The loop for an encoder that meets the codec modes. -/
def findMeeting (i : Inputs) (previous : Option ℕ) : List ℕ → World → List ℕ × World
  | [], w => ([], w)
  | e :: list, w =>
    let (ok, w) := w.validate i previous .meeting e
    if !ok then findMeeting i previous list w
    else if misses w.activeHevcMode (w.encoders e).hevc.capabilities ||
        misses w.activeAv1Mode (w.encoders e).av1.capabilities then
      let (list, w) := findMeeting i previous list w
      (e :: list, w)
    else (e :: list, { w with chosenEncoder := some e })

/-- The loop for any encoder that works. -/
def findAny (i : Inputs) (previous : Option ℕ) : List ℕ → World → List ℕ × World
  | [], w => ([], w)
  | e :: list, w =>
    let (ok, w) := w.validate i previous .any e
    if !ok then findAny i previous list w
    else (e :: list, { w.adjustEncoderConstraints e with chosenEncoder := some e })

/-- "Restart encoder selection". -/
def restart (w : World) (video : ConfigVideo) : World :=
  { w with
    chosenEncoder := none
    activeHevcMode := video.hevcMode
    activeAv1Mode := video.av1Mode
    lastEncoderProbeSupportedRefFramesInvalidation := false
    passed := [] }

/-- The three loops. -/
def select (w : World) (i : Inputs) (list : List ℕ) : World :=
  let previous := w.chosenEncoder
  let w := w.restart i.video
  let (list, w) := if i.video.encoder ≠ "" then findNamed i previous list w else (list, w)
  let (list, w) :=
    if w.chosenEncoder.isNone && (decide (2 ≤ w.activeHevcMode) || decide (2 ≤ w.activeAv1Mode)) then
      findMeeting i previous list w
    else (list, w)
  if w.chosenEncoder.isNone then (findAny i previous list w).2 else w

/-- The mode of a codec that nothing was asked of. -/
def settleMode (mode : ℤ) (capabilities : Capabilities) : ℤ :=
  if mode = 0 then (if capabilities.passed then (if capabilities.dynamicRange then 3 else 2) else 1) else mode

/-- What is set for the encoder that was chosen. -/
def settle (w : World) (encoder : Encoder) : World :=
  { w with
    lastEncoderProbeSupportedRefFramesInvalidation := encoder.refFramesInvalidation
    lastEncoderProbeSupportedYuv444ForCodec :=
      (encoder.h264.capabilities.passed && encoder.h264.capabilities.yuv444,
        encoder.hevc.capabilities.passed && encoder.hevc.capabilities.yuv444,
        encoder.av1.capabilities.passed && encoder.av1.capabilities.yuv444)
    activeHevcMode := settleMode w.activeHevcMode encoder.hevc.capabilities
    activeAv1Mode := settleMode w.activeAv1Mode encoder.av1.capabilities }

/-- Is another probe required. -/
def reprobes (w : World) (i : Inputs) : Bool :=
  match w.chosenEncoder with
  | some e => (w.encoders e).alwaysReprobe || i.needsEncoderReenumeration
  | none => true

/-- `probe_encoders`: the result and the state after it. -/
def probeEncoders (w : World) (list : List ℕ) (i : Inputs) : ℤ × World :=
  if !i.allowEncoderProbing then (-1, w)
  else if !w.reprobes i then (0, w)
  else
    let w := w.select i list
    match w.chosenEncoder with
    | none => (-1, w)
    | some e => (0, w.settle (w.encoders e))

end World

/-! ### One call of `validate_encoder`, seen from the beginning of the probe -/

/-- The call for the encoder `e` in a loop, which is made with the configured modes. -/
def validation (w : World) (i : Inputs) (phase : Phase) (e : ℕ) : Validation :=
  validateEncoder i.video i.video.hevcMode i.video.av1Mode (i.answers phase e)
    (w.chosenEncoder.isSome && w.chosenEncoder != some e) (w.encoders e)

/-- The codec meets its configured mode after the call. -/
def meets (w : World) (i : Inputs) (phase : Phase) (e : ℕ) : Bool :=
  !(World.misses i.video.hevcMode (validation w i phase e).encoder.hevc.capabilities ||
    World.misses i.video.av1Mode (validation w i phase e).encoder.av1.capabilities)

/-- No encoder has been chosen, and of the encoders only capability bits have changed. -/
structure Searching (w₀ : World) (i : Inputs) (w : World) : Prop where
  chosen : w.chosenEncoder = none
  hevcMode : w.activeHevcMode = i.video.hevcMode
  av1Mode : w.activeAv1Mode = i.video.av1Mode
  encoders : ∀ e, (w.encoders e).setAll = (w₀.encoders e).setAll

/-- The encoder `e` was chosen after its call in a loop. -/
structure Chose (w₀ : World) (i : Inputs) (phase : Phase) (e : ℕ) (w : World) : Prop where
  chosen : w.chosenEncoder = some e
  ok : (validation w₀ i phase e).ok = true
  encoder : w.encoders e = (validation w₀ i phase e).encoder
  passed : ∀ c ∈ (validation w₀ i phase e).passed, (e, c) ∈ w.passed
  meets : phase = .meeting → meets w₀ i phase e = true
  hevcMode : w.activeHevcMode = if phase = .meeting then i.video.hevcMode else
    World.adjustMode i.video.hevcMode (w.encoders e).hevc.capabilities
  av1Mode : w.activeAv1Mode = if phase = .meeting then i.video.av1Mode else
    World.adjustMode i.video.av1Mode (w.encoders e).av1.capabilities

variable {w₀ w : World} {i : Inputs} {phase : Phase}

/-- The state after the call for the encoder `e`. -/
def validated (w₀ : World) (i : Inputs) (w : World) (phase : Phase) (e : ℕ) : World :=
  { w with
    encoders := Function.update w.encoders e (validation w₀ i phase e).encoder
    passed := w.passed ++ (validation w₀ i phase e).passed.map fun c => (e, c) }

@[simp] theorem encoders_validated (e : ℕ) :
    (validated w₀ i w phase e).encoders e = (validation w₀ i phase e).encoder := Function.update_self ..

theorem validate_eq (h : Searching w₀ i w) (e : ℕ) :
    w.validate i w₀.chosenEncoder phase e = ((validation w₀ i phase e).ok, validated w₀ i w phase e) := by
  unfold World.validate validated validation
  simp only [h.hevcMode, h.av1Mode, validateEncoder_congr (h.encoders e)]

theorem Searching.validated (h : Searching w₀ i w) (phase : Phase) (e : ℕ) :
    Searching w₀ i (validated w₀ i w phase e) := by
  refine ⟨h.chosen, h.hevcMode, h.av1Mode, fun x => ?_⟩
  rcases eq_or_ne x e with rfl | hne
  · rw [encoders_validated]
    exact setAll_validateEncoder
  · unfold Probe.validated
    simpa only [Function.update_of_ne hne] using h.encoders x

theorem mem_passed_validated {e : ℕ} {c : VideoConfig} (hc : c ∈ (validation w₀ i phase e).passed) :
    (e, c) ∈ (validated w₀ i w phase e).passed :=
  List.mem_append_right _ (List.mem_map.mpr ⟨c, hc, rfl⟩)

theorem Searching.chose_adjusted (h : Searching w₀ i w) {e : ℕ} (hp : phase ≠ .meeting)
    (hok : (validation w₀ i phase e).ok = true) :
    Chose w₀ i phase e
      { (Probe.validated w₀ i w phase e).adjustEncoderConstraints e with chosenEncoder := some e } := by
  have hv := h.validated phase e
  refine ⟨rfl, hok, encoders_validated e, fun c hc => mem_passed_validated hc, fun hm => absurd hm hp, ?_, ?_⟩
  · rw [if_neg hp, ← hv.hevcMode]
    rfl
  · rw [if_neg hp, ← hv.av1Mode]
    rfl

theorem Searching.chose_meeting (h : Searching w₀ i w) {e : ℕ} (hok : (validation w₀ i .meeting e).ok = true)
    (hm : meets w₀ i .meeting e = true) :
    Chose w₀ i .meeting e { Probe.validated w₀ i w .meeting e with chosenEncoder := some e } := by
  have hv := h.validated .meeting e
  refine ⟨rfl, hok, encoders_validated e, fun c hc => mem_passed_validated hc, fun _ => hm, ?_, ?_⟩
  · rw [if_pos rfl]
    exact hv.hevcMode
  · rw [if_pos rfl]
    exact hv.av1Mode

/-! ### The loops -/

/-- Is this the encoder whose name is configured. -/
def isNamed (w : World) (i : Inputs) (e : ℕ) : Bool := (w.encoders e).name == i.video.encoder

theorem findNamed_spec (h : Searching w₀ i w) (list : List ℕ) :
    (∃ e, list.find? (isNamed w₀ i) = some e ∧
      Chose w₀ i .named e (World.findNamed i w₀.chosenEncoder list w).2) ∨
    ((∀ e, list.find? (isNamed w₀ i) = some e → (validation w₀ i .named e).ok = false) ∧
      Searching w₀ i (World.findNamed i w₀.chosenEncoder list w).2 ∧
      (World.findNamed i w₀.chosenEncoder list w).1 = list.eraseP (isNamed w₀ i)) := by
  induction list with
  | nil => exact Or.inr ⟨fun e he => (nomatch he), h, rfl⟩
  | cons e list ih =>
    have hname : (w.encoders e).name = (w₀.encoders e).name := by
      simpa only [Encoder.setAll] using congrArg Encoder.name (h.encoders e)
    unfold World.findNamed
    by_cases hn : (w₀.encoders e).name = i.video.encoder
    · have hnamed : isNamed w₀ i e = true := beq_iff_eq.mpr hn
      simp only [hname, if_pos hn, validate_eq h, List.find?_cons, hnamed, List.eraseP_cons]
      cases hok : (validation w₀ i .named e).ok with
      | true => exact Or.inl ⟨e, rfl, h.chose_adjusted (by simp) hok⟩
      | false =>
        refine Or.inr ⟨fun e' he' => ?_, h.validated _ e, rfl⟩
        obtain rfl := Option.some.inj he'
        exact hok
    · have hnamed : isNamed w₀ i e = false := beq_eq_false_iff_ne.mpr hn
      simp only [hname, if_neg hn, List.find?_cons, hnamed, List.eraseP_cons, cond_false]
      rcases ih with hchose | ⟨hfail, hsearch, hlist⟩
      · exact Or.inl hchose
      · exact Or.inr ⟨hfail, hsearch, congrArg (e :: ·) hlist⟩

theorem findMeeting_spec (h : Searching w₀ i w) (list : List ℕ) :
    (∃ e, list.find? (fun e => (validation w₀ i .meeting e).ok && meets w₀ i .meeting e) = some e ∧
      Chose w₀ i .meeting e (World.findMeeting i w₀.chosenEncoder list w).2) ∨
    (list.find? (fun e => (validation w₀ i .meeting e).ok && meets w₀ i .meeting e) = none ∧
      Searching w₀ i (World.findMeeting i w₀.chosenEncoder list w).2 ∧
      (World.findMeeting i w₀.chosenEncoder list w).1 = list.filter fun e => (validation w₀ i .meeting e).ok) := by
  induction list generalizing w with
  | nil => exact Or.inr ⟨rfl, h, rfl⟩
  | cons e list ih =>
    have hv := h.validated .meeting e
    have hmeets : (World.misses (Probe.validated w₀ i w .meeting e).activeHevcMode
        ((Probe.validated w₀ i w .meeting e).encoders e).hevc.capabilities ||
        World.misses (Probe.validated w₀ i w .meeting e).activeAv1Mode
        ((Probe.validated w₀ i w .meeting e).encoders e).av1.capabilities) = !meets w₀ i .meeting e := by
      rw [hv.hevcMode, hv.av1Mode, encoders_validated, meets, Bool.not_not]
    unfold World.findMeeting
    simp only [validate_eq h, hmeets, List.find?_cons, List.filter_cons]
    cases hok : (validation w₀ i .meeting e).ok with
    | false => exact ih hv
    | true =>
      cases hm : meets w₀ i .meeting e with
      | true => exact Or.inl ⟨e, rfl, h.chose_meeting hok hm⟩
      | false =>
        rcases ih hv with hchose | ⟨hnone, hsearch, hlist⟩
        · exact Or.inl hchose
        · exact Or.inr ⟨hnone, hsearch, congrArg (e :: ·) hlist⟩

theorem findAny_spec (h : Searching w₀ i w) (list : List ℕ) :
    (∃ e, list.find? (fun e => (validation w₀ i .any e).ok) = some e ∧
      Chose w₀ i .any e (World.findAny i w₀.chosenEncoder list w).2) ∨
    (list.find? (fun e => (validation w₀ i .any e).ok) = none ∧
      Searching w₀ i (World.findAny i w₀.chosenEncoder list w).2) := by
  induction list generalizing w with
  | nil => exact Or.inr ⟨rfl, h⟩
  | cons e list ih =>
    unfold World.findAny
    simp only [validate_eq h, List.find?_cons]
    cases hok : (validation w₀ i .any e).ok with
    | false => exact ih (h.validated _ e)
    | true => exact Or.inl ⟨e, rfl, h.chose_adjusted (by simp) hok⟩

/-! ### Which encoder is chosen -/

/-- A codec mode is asked for. -/
def demands (i : Inputs) : Bool := decide (2 ≤ i.video.hevcMode) || decide (2 ≤ i.video.av1Mode)

/-- The list after the first loop, where it has not chosen an encoder. -/
def afterNamed (w : World) (list : List ℕ) (i : Inputs) : List ℕ :=
  if i.video.encoder ≠ "" then list.eraseP (isNamed w i) else list

/-- The encoder with the configured name, if it works. -/
def namedEncoder (w : World) (list : List ℕ) (i : Inputs) : Option ℕ :=
  if i.video.encoder ≠ "" then (list.find? (isNamed w i)).filter fun e => (validation w i .named e).ok else none

/-- The first encoder that works and meets the codec modes, if any is asked for. -/
def meetingEncoder (w : World) (list : List ℕ) (i : Inputs) : Option ℕ :=
  if demands i then
    (afterNamed w list i).find? fun e => (validation w i .meeting e).ok && meets w i .meeting e
  else none

/-- The first encoder that works, of those that did not fail before. -/
def anyEncoder (w : World) (list : List ℕ) (i : Inputs) : Option ℕ :=
  (if demands i then (afterNamed w list i).filter fun e => (validation w i .meeting e).ok
    else afterNamed w list i).find? fun e => (validation w i .any e).ok

/-- The encoder that is chosen, and the loop that finds it. -/
def choice (w : World) (list : List ℕ) (i : Inputs) : Option (Phase × ℕ) :=
  ((namedEncoder w list i).map (.named, ·)).or
    (((meetingEncoder w list i).map (.meeting, ·)).or ((anyEncoder w list i).map (.any, ·)))

theorem searching_restart (w : World) (i : Inputs) : Searching w i (w.restart i.video) :=
  ⟨rfl, rfl, rfl, fun _ => rfl⟩

/-- The first loop, which is skipped where no name is configured. -/
theorem named_cases (h : Searching w₀ i w) (list : List ℕ) :
    (∃ e, namedEncoder w₀ list i = some e ∧ Chose w₀ i .named e
      (if i.video.encoder ≠ "" then World.findNamed i w₀.chosenEncoder list w else (list, w)).2) ∨
    (namedEncoder w₀ list i = none ∧
      Searching w₀ i (if i.video.encoder ≠ "" then World.findNamed i w₀.chosenEncoder list w else (list, w)).2 ∧
      (if i.video.encoder ≠ "" then World.findNamed i w₀.chosenEncoder list w else (list, w)).1 =
        afterNamed w₀ list i) := by
  unfold namedEncoder afterNamed
  by_cases hn : i.video.encoder ≠ ""
  · simp only [if_pos hn]
    rcases findNamed_spec h list with ⟨e, hfind, hchose⟩ | ⟨hfail, hsearch, hlist⟩
    · exact Or.inl ⟨e, by simp [hfind, Option.filter, hchose.ok], hchose⟩
    · refine Or.inr ⟨?_, hsearch, hlist⟩
      rw [Option.filter_eq_none_iff]
      intro e he
      simp [hfail e he]
  · simp only [if_neg hn]
    exact Or.inr ⟨trivial, h, trivial⟩

/-- The other two loops. -/
theorem meeting_cases (h : Searching w₀ i w) {list list₀ : List ℕ} (hlist : list = afterNamed w₀ list₀ i) :
    let r := if demands i then World.findMeeting i w₀.chosenEncoder list w else (list, w)
    (∃ e, meetingEncoder w₀ list₀ i = some e ∧ Chose w₀ i .meeting e r.2) ∨
    (meetingEncoder w₀ list₀ i = none ∧ Searching w₀ i r.2 ∧
      r.1 = if demands i then (afterNamed w₀ list₀ i).filter fun e => (validation w₀ i .meeting e).ok
        else afterNamed w₀ list₀ i) := by
  subst hlist
  intro r
  unfold meetingEncoder
  cases hd : demands i with
  | true =>
    simp only [r, hd, if_true]
    exact findMeeting_spec h _
  | false =>
    simp only [r, hd, Bool.false_eq_true, if_false]
    exact Or.inr ⟨trivial, h, trivial⟩

/-- **The choice.**  The loops choose an encoder exactly if there is one to choose. -/
theorem chosen_of_select (w : World) (list : List ℕ) (i : Inputs) :
    (∃ phase e, choice w list i = some (phase, e) ∧ Chose w i phase e (w.select i list)) ∨
      (choice w list i = none ∧ (w.select i list).chosenEncoder = none) := by
  have hmodes : ∀ {w' : World}, Searching w i w' →
      (w'.chosenEncoder.isNone && (decide (2 ≤ w'.activeHevcMode) || decide (2 ≤ w'.activeAv1Mode))) = demands i := by
    intro w' h
    rw [h.chosen, h.hevcMode, h.av1Mode]
    rfl
  have hnamed := named_cases (searching_restart w i) list
  unfold World.select choice
  simp only
  generalize (if i.video.encoder ≠ "" then World.findNamed i w.chosenEncoder list (w.restart i.video)
    else (list, w.restart i.video)) = r at hnamed ⊢
  rcases hnamed with ⟨e, he, hchose⟩ | ⟨hnone, hsearch, hlist⟩
  · refine Or.inl ⟨.named, e, by simp [he], ?_⟩
    simp only [hchose.chosen, Option.isNone_some, Bool.false_and, Bool.false_eq_true, if_false]
    exact hchose
  · have hmeeting := meeting_cases hsearch hlist
    simp only [hmodes hsearch] at hmeeting ⊢
    generalize (if demands i then World.findMeeting i w.chosenEncoder r.1 r.2 else (r.1, r.2)) = r' at hmeeting ⊢
    rcases hmeeting with ⟨e, he, hchose⟩ | ⟨hnone', hsearch', hlist'⟩
    · refine Or.inl ⟨.meeting, e, by simp [hnone, he], ?_⟩
      simp only [hchose.chosen, Option.isNone_some, Bool.false_eq_true, if_false]
      exact hchose
    · simp only [hsearch'.chosen, Option.isNone_none, if_true]
      rcases findAny_spec hsearch' r'.1 with ⟨e, he, hchose⟩ | ⟨he, hsearch''⟩
      · rw [hlist'] at he
        exact Or.inl ⟨.any, e, by simp [hnone, hnone', anyEncoder, he], hchose⟩
      · rw [hlist'] at he
        exact Or.inr ⟨by simp [hnone, hnone', anyEncoder, he], hsearch''.chosen⟩

/-! ### The modes -/

/-- A mode is settled, and the codec bears it out.  `hdr` says that the codec passed an HDR validation. -/
structure BornOut (mode : ℤ) (capabilities : Capabilities) (hdr : Prop) : Prop where
  range : mode = 1 ∨ mode = 2 ∨ mode = 3
  passed : 2 ≤ mode → capabilities.passed = true
  hdr : mode = 3 → hdr

theorem bornOut_of_meets {mode : ℤ} {c : Capabilities} {hdr : Prop} (hmode : 0 ≤ mode ∧ mode ≤ 3)
    (hm : World.misses mode c = false) (hc : c.passed = true → c.dynamicRange = true → hdr) :
    BornOut (World.settleMode mode c) c hdr := by
  obtain ⟨p, r, d, y, v⟩ := c
  obtain rfl | rfl | rfl | rfl : mode = 0 ∨ mode = 1 ∨ mode = 2 ∨ mode = 3 := by omega
  all_goals
    cases p <;> cases d <;> simp [World.misses] at hm hc <;>
      constructor <;> simp [World.settleMode, hc]

/-- A mode that the encoder was not checked for is given up if the encoder does not bear it out, unless the HDR bit of
a codec that does not work is set. -/
theorem bornOut_adjustMode_iff {mode : ℤ} {c : Capabilities} {hdr : Prop} (hmode : 0 ≤ mode ∧ mode ≤ 3)
    (hc : c.passed = true → c.dynamicRange = true → hdr) :
    BornOut (World.settleMode (World.adjustMode mode c) c) c hdr ↔
      ¬ (mode = 3 ∧ c.passed = false ∧ c.dynamicRange = true) := by
  constructor
  · rintro h ⟨rfl, hp, hd⟩
    have := h.passed (by simp [World.settleMode, World.adjustMode, hd])
    rw [hp] at this
    cases this
  · intro hnot
    obtain ⟨p, r, d, y, v⟩ := c
    obtain rfl | rfl | rfl | rfl : mode = 0 ∨ mode = 1 ∨ mode = 2 ∨ mode = 3 := by omega
    all_goals
      cases p <;> cases d <;> simp at hnot hc <;>
        constructor <;> simp [World.settleMode, World.adjustMode, hc]

/-- What a probe has found out, and the modes it has left, agree. -/
def World.Consistent (w : World) : Prop :=
  ∀ e, w.chosenEncoder = some e → ∀ k : Tested,
    BornOut (k.pick w.activeHevcMode w.activeAv1Mode) (k.codec (w.encoders e)).capabilities
      (∃ c, (e, c) ∈ w.passed ∧ c.videoFormat = k.videoFormat ∧ c.dynamicRange = 1)

/-- The condition on the inputs of a probe: where an encoder is taken without a look at its codecs, because of its name
or because no encoder meets the modes, no codec for which HDR is configured is one that the display supports and that
fails all its validations. -/
def Trusted (list : List ℕ) (w : World) (i : Inputs) : Prop :=
  i.allowEncoderProbing = true → w.reprobes i = true →
    ∀ phase e, choice w list i = some (phase, e) → phase ≠ .meeting →
      ∀ k : Tested, k.pick i.video.hevcMode i.video.av1Mode = 3 →
        (i.answers phase e).misleading (k.codec (w.encoders e)).name k.videoFormat = false

theorem pick_range (video : ConfigVideo) (k : Tested) :
    0 ≤ k.pick video.hevcMode video.av1Mode ∧ k.pick video.hevcMode video.av1Mode ≤ 3 := by
  cases k
  · exact video.hevcMode_range
  · exact video.av1Mode_range

theorem Chose.codecSpec {e : ℕ} (h : Chose w₀ i phase e w) (k : Tested) :
    CodecSpec (i.answers phase e) (testsCodec (k.pick i.video.hevcMode i.video.av1Mode) (w₀.encoders e))
      (k.codec (w₀.encoders e)).name k.videoFormat (k.codec (w.encoders e)).capabilities
      (validation w₀ i phase e).passed := by
  rw [h.encoder]
  exact codecSpec_validateEncoder k h.ok

/-- The modes agree with the encoder that was chosen exactly if it was checked, or its answers do not mislead. -/
theorem consistent_settle_iff {e : ℕ} (h : Chose w₀ i phase e w) :
    (w.settle (w.encoders e)).Consistent ↔ (phase ≠ .meeting → ∀ k : Tested,
      k.pick i.video.hevcMode i.video.av1Mode = 3 →
        (i.answers phase e).misleading (k.codec (w₀.encoders e)).name k.videoFormat = false) := by
  have hhdr : ∀ k : Tested, (k.codec (w.encoders e)).capabilities.passed = true →
      (k.codec (w.encoders e)).capabilities.dynamicRange = true →
        ∃ c, (e, c) ∈ w.passed ∧ c.videoFormat = k.videoFormat ∧ c.dynamicRange = 1 := by
    intro k hp hd
    obtain ⟨c, hc, hrest⟩ := (h.codecSpec k).hdr hp hd
    exact ⟨c, h.passed c hc, hrest⟩
  have hcons : (w.settle (w.encoders e)).Consistent ↔ ∀ k : Tested,
      BornOut (World.settleMode (k.pick w.activeHevcMode w.activeAv1Mode) (k.codec (w.encoders e)).capabilities)
        (k.codec (w.encoders e)).capabilities
        (∃ c, (e, c) ∈ w.passed ∧ c.videoFormat = k.videoFormat ∧ c.dynamicRange = 1) := by
    constructor
    · intro hc k
      have := hc e h.chosen k
      cases k <;> exact this
    · intro hb e' he' k
      obtain rfl := Option.some.inj (h.chosen.symm.trans he')
      have := hb k
      cases k <;> exact this
  rw [hcons]
  by_cases hp : phase = .meeting
  · subst hp
    refine iff_of_true (fun k => ?_) (fun hn => absurd rfl hn)
    have hm := h.meets rfl
    rw [meets, Bool.not_eq_true', Bool.or_eq_false_iff, ← h.encoder] at hm
    refine bornOut_of_meets ?_ ?_ (hhdr k)
    · rw [h.hevcMode, h.av1Mode, if_pos rfl, if_pos rfl]
      exact pick_range i.video k
    · rw [h.hevcMode, h.av1Mode, if_pos rfl, if_pos rfl]
      cases k
      · exact hm.1
      · exact hm.2
  · have hmode : ∀ k : Tested, k.pick w.activeHevcMode w.activeAv1Mode =
        World.adjustMode (k.pick i.video.hevcMode i.video.av1Mode) (k.codec (w.encoders e)).capabilities := by
      intro k
      rw [h.hevcMode, h.av1Mode, if_neg hp, if_neg hp]
      cases k <;> rfl
    simp only [hmode, bornOut_adjustMode_iff (pick_range i.video _) (hhdr _), ne_eq, hp, not_false_eq_true,
      true_imp_iff, not_and]
    refine forall_congr' fun k => imp_congr_right fun h3 => ?_
    have hspec := h.codecSpec k
    have htest : testsCodec (k.pick i.video.hevcMode i.video.av1Mode) (w₀.encoders e) = true := by
      rw [h3]
      rfl
    constructor
    · intro hnot
      by_contra hmis
      have hmis' : (i.answers phase e).misleading (k.codec (w₀.encoders e)).name k.videoFormat = true := by
        simpa using hmis
      have hfail := hspec.fails hmis'
      have hstale := hspec.stale hfail
      rw [htest, hmis'] at hstale
      exact hnot hfail hstale
    · intro hmis hfail hdr
      have hstale := hspec.stale hfail
      rw [hdr, hmis, Bool.and_false] at hstale
      cases hstale

/-! ### Any number of probes -/

/-- A probe, as a step. -/
abbrev ProbeStep (list : List ℕ) : World → Inputs → World → Prop :=
  ofPartial fun w i => some (w.probeEncoders list i).2

/-- A probe that succeeds leaves an encoder. -/
theorem chosen_of_probe {list : List ℕ} (h : (w.probeEncoders list i).1 = 0) :
    (w.probeEncoders list i).2.chosenEncoder.isSome = true := by
  unfold World.probeEncoders at h ⊢
  split at h
  · cases h
  next h₁ =>
    rw [if_neg h₁]
    split at h
    next h₂ =>
      rw [if_pos h₂]
      unfold World.reprobes at h₂
      cases hc : w.chosenEncoder with
      | none => simp [hc] at h₂
      | some e => rfl
    next h₂ =>
      rw [if_neg h₂]
      simp only at h ⊢
      cases hc : (w.select i list).chosenEncoder with
      | none => simp [hc] at h
      | some e => simp [World.settle, hc]

/-- **Step lemma.**  A probe keeps the modes and the encoder in agreement exactly if its inputs meet the condition. -/
theorem consistent_probe_iff (hw : w.Consistent) (list : List ℕ) (i : Inputs) :
    (w.probeEncoders list i).2.Consistent ↔ Trusted list w i := by
  unfold World.probeEncoders
  split
  next h₁ => exact iff_of_true hw fun h => by simp [h] at h₁
  next h₁ =>
    split
    next h₂ => exact iff_of_true hw fun _ h => by simp [h] at h₂
    next h₂ =>
      simp only [Bool.not_eq_true', Bool.not_eq_false] at h₁ h₂
      rcases chosen_of_select w list i with ⟨phase, e, hchoice, hchose⟩ | ⟨hchoice, hnone⟩
      · simp only [hchose.chosen]
        rw [consistent_settle_iff hchose]
        constructor
        · intro h _ _ phase' e' hchoice' hp k
          obtain ⟨rfl, rfl⟩ := Prod.mk.inj (Option.some.inj (hchoice.symm.trans hchoice'))
          exact h hp k
        · intro h hp k
          exact h h₁ h₂ phase e hchoice hp k
      · simp only [hnone]
        refine iff_of_true (fun e he => ?_) fun _ _ phase e he => ?_
        · cases hnone.symm.trans he
        · cases hchoice.symm.trans he

/-- The codec meets the mode: it works, and with HDR where that is asked for. -/
def Meets (mode : ℤ) (capabilities : Capabilities) : Prop :=
  (2 ≤ mode → capabilities.passed = true) ∧ (mode = 3 → capabilities.dynamicRange = true)

theorem misses_eq_false_iff {mode : ℤ} {c : Capabilities} : World.misses mode c = false ↔ Meets mode c := by
  unfold World.misses Meets
  cases c.passed <;> cases c.dynamicRange <;> simp

/-- Where codec modes are asked for and no name, a probe chooses an encoder that meets the modes if there is one. -/
theorem meets_of_probe {list : List ℕ} (hallow : i.allowEncoderProbing = true) (hre : w.reprobes i = true)
    (hname : i.video.encoder = "") (hd : demands i = true)
    (h : ∃ e ∈ list, (validation w i .meeting e).ok = true ∧ meets w i .meeting e = true) :
    (w.probeEncoders list i).1 = 0 ∧ ∃ e ∈ list, (w.probeEncoders list i).2.chosenEncoder = some e ∧
      ∀ k : Tested, Meets (k.pick i.video.hevcMode i.video.av1Mode)
        (k.codec ((w.probeEncoders list i).2.encoders e)).capabilities := by
  have hafter : afterNamed w list i = list := by simp [afterNamed, hname]
  have hnamed : namedEncoder w list i = none := by simp [namedEncoder, hname]
  obtain ⟨e, he⟩ : ∃ e, meetingEncoder w list i = some e := by
    rw [meetingEncoder, if_pos hd, hafter, ← Option.isSome_iff_exists, List.find?_isSome]
    obtain ⟨e, hmem, hok, hm⟩ := h
    exact ⟨e, hmem, by simp [hok, hm]⟩
  have hmem : e ∈ list := by
    rw [meetingEncoder, if_pos hd, hafter] at he
    exact List.mem_of_find?_eq_some he
  have hchoice : choice w list i = some (.meeting, e) := by simp [choice, hnamed, he]
  rcases chosen_of_select w list i with ⟨phase, e', hchoice', hchose⟩ | ⟨hchoice', -⟩
  · obtain ⟨rfl, rfl⟩ := Prod.mk.inj (Option.some.inj (hchoice.symm.trans hchoice'))
    have hm := hchose.meets rfl
    rw [meets, Bool.not_eq_true', Bool.or_eq_false_iff, ← hchose.encoder] at hm
    unfold World.probeEncoders
    simp only [hallow, hre, Bool.not_true, Bool.false_eq_true, if_false, hchose.chosen]
    refine ⟨trivial, e, hmem, hchose.chosen, fun k => ?_⟩
    cases k
    · exact misses_eq_false_iff.mp hm.1
    · exact misses_eq_false_iff.mp hm.2
  · cases hchoice.symm.trans hchoice'

/-- The state before the first probe. -/
def World.start (encoders : ℕ → Encoder) : World := { encoders }

/-- **A probe leaves a consistent result.**  If it succeeds, there is an encoder; after any number of probes the modes
and the encoder agree exactly if the inputs of all probes met the condition; and an encoder that meets the modes is
chosen if there is one. -/
theorem probe_encoders_consistent (encoders : ℕ → Encoder) (list : List ℕ) :
    (∀ (w : World) (i : Inputs), (w.probeEncoders list i).1 = 0 →
      (w.probeEncoders list i).2.chosenEncoder.isSome = true) ∧
    (∀ (is : List Inputs) (w : World), Run (ProbeStep list) (.start encoders) is w →
      ((∀ before after u, is = before ++ after → Run (ProbeStep list) (.start encoders) before u → u.Consistent) ↔
        Run (Guarded (ProbeStep list) (Trusted list)) (.start encoders) is w)) ∧
    ∀ (w : World) (i : Inputs), i.allowEncoderProbing = true → w.reprobes i = true → i.video.encoder = "" →
      demands i = true → (∃ e ∈ list, (validation w i .meeting e).ok = true ∧ meets w i .meeting e = true) →
        (w.probeEncoders list i).1 = 0 ∧ ∃ e ∈ list, (w.probeEncoders list i).2.chosenEncoder = some e ∧
          ∀ k : Tested, Meets (k.pick i.video.hevcMode i.video.av1Mode)
            (k.codec ((w.probeEncoders list i).2.encoders e)).capabilities := by
  refine ⟨fun w i h => chosen_of_probe h, fun is w hrun => ?_, fun w i => meets_of_probe⟩
  refine run_safe_iff (I := fun _ => True) (P := World.Consistent) (fun _ _ _ _ _ => trivial)
    (fun s i t _ hs ht => ?_) trivial (fun e he => by cases he) hrun
  obtain rfl := Option.some.inj ht
  exact consistent_probe_iff hs list i

/-- The software encoder. -/
def software : Encoder where
  name := "software"
  av1 := ⟨"libsvtav1", .reset⟩
  hevc := ⟨"libx265", .reset⟩
  h264 := ⟨"libx264", .reset⟩
  h264Only := true
  alwaysReprobe := true
  yuv444Support := true

/-- Every codec is supported by the display, and all validations succeed but those of the codec `broken`. -/
def answersBut (broken : ℤ) : Answers where
  resetDisplay _ := true
  isCodecSupported _ _ := true
  probe config :=
    { makeEncodeDevice := true
      makeEncodeSession := config.videoFormat != broken
      convert := true
      encode := some { isIdr := true, validateSps := some true } }

/-- HEVC with HDR is configured. -/
def hdrInputs (broken : ℤ) : Inputs where
  video := { hevcMode := 3 }
  answers _ _ := answersBut broken

/-- HEVC with HDR is reported to the clients, although no validation of HEVC succeeded. -/
theorem probe_inconsistent :
    ((World.start fun _ => software).probeEncoders [0] (hdrInputs 1)).1 = 0 ∧
      ((World.start fun _ => software).probeEncoders [0] (hdrInputs 1)).2.activeHevcMode = 3 ∧
      ((World.start fun _ => software).probeEncoders [0] (hdrInputs 1)).2.chosenEncoder = some 0 ∧
      (((World.start fun _ => software).probeEncoders [0] (hdrInputs 1)).2.encoders 0).hevc.capabilities.passed =
        false := by
  decide

/-- The same configuration where all validations succeed. -/
theorem probe_encoders_consistent_software :
    ∃ w, Run (ProbeStep [0]) (.start fun _ => software) [hdrInputs 9] w ∧ w.chosenEncoder = some 0 ∧
      w.activeHevcMode = 3 ∧ w.Consistent ∧ Meets 3 (w.encoders 0).hevc.capabilities := by
  have htrusted : Trusted [0] (.start fun _ => software) (hdrInputs 9) := by
    intro _ _ phase e _ _ k _
    cases k <;> rfl
  have hguarded : Run (Guarded (ProbeStep [0]) (Trusted [0])) (.start fun _ => software) [hdrInputs 9] _ :=
    Run.single ⟨htrusted, rfl⟩
  have hconsistent := ((probe_encoders_consistent (fun _ => software) [0]).2.1 _ _ hguarded.of_guarded).mpr hguarded
  obtain ⟨-, e, he, -, hmeets⟩ := (probe_encoders_consistent (fun _ => software) [0]).2.2
    (.start fun _ => software) (hdrInputs 9) rfl rfl rfl rfl ⟨0, by simp, by decide, by decide⟩
  obtain rfl := List.mem_singleton.mp he
  exact ⟨_, hguarded.of_guarded, by decide, by decide, hconsistent _ [] _ (by simp) hguarded.of_guarded, hmeets .hevc⟩

end MidnightSun.Video.Probe
