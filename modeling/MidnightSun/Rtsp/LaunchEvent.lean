import MidnightSun.Lib.Run
import MidnightSun.Safe.Event

/-!
# The pending launch session (src/rtsp.cpp, src/nvhttp.cpp, src/stream.cpp)

Three threads share `launch_event` and `raised_timer`: the HTTPS thread in `session_raise`, the RTSP thread in the
handlers of the timer and of `accept`, and the control thread in `session_clear`.  A step is what one of them does
between two points where another can act.
-/

namespace MidnightSun.Rtsp

open Lib Safe

/-- `launch_session_t`: the number of its request, and its `id`. -/
structure Launch where
  number : ℕ
  id : UInt32
  deriving DecidableEq

/-- How far `session_raise` is. -/
inductive Raising where
  | idle
  /-- `view` found no session -/
  | viewed (l : Launch)
  /-- the event is raised -/
  | raised (l : Launch)
  /-- `expires_after` has returned -/
  | rearmed (l : Launch)
  deriving DecidableEq

/-- How far `session_clear` is. -/
inductive Clearing where
  | idle
  /-- `view` found a session with this id -/
  | viewed (id : UInt32)
  /-- the timer is cancelled, `pop` is next -/
  | cancelled (id : UInt32)
  deriving DecidableEq

/-- A session that the handler of the timer took, with the session whose raise started the wait. -/
structure Discard where
  armedBy : Launch
  session : Launch
  deriving DecidableEq

/-- A session that `session_clear` took. -/
structure Cleared where
  id : UInt32
  session : Launch
  deriving DecidableEq

/-- An accepted socket: its session, and the one that was pending. -/
structure Accepted where
  session : Option Launch
  pending : Option Launch
  deriving DecidableEq

structure Handover where
  raising : Raising := .idle
  clearing : Clearing := .idle
  /-- `launch_event` -/
  event : Event Launch := {}
  /-- the wait of `raised_timer` that is going on, by the session whose raise started it -/
  armed : Option Launch := none
  /-- the handlers of expired waits that have not run yet; `cancel` does not reach them -/
  expired : List Launch := []
  /-- the number of the next request -/
  requests : ℕ := 0
  /-- ghost: the sessions of the requests answered with 200 -/
  answered : List Launch := []
  /-- ghost: the sessions that were pending after a call of `raise` -/
  pended : List Launch := []
  /-- ghost -/
  discarded : List Discard := []
  /-- ghost -/
  cleared : List Cleared := []
  /-- ghost -/
  accepted : List Accepted := []
  deriving DecidableEq

inductive HandoverOp where
  /-- `launch` or `resume` calls `session_raise`, which looks at the event -/
  | request (id : UInt32)
  /-- `launch_event.raise` -/
  | raise
  /-- `raised_timer.expires_after`, which ends the wait that is going on -/
  | expiresAfter
  /-- `raised_timer.async_wait`, and the request is answered -/
  | asyncWait
  /-- the time is over: the handler is queued -/
  | expire
  /-- the handler of the timer runs -/
  | handler
  /-- `handle_accept` -/
  | accept
  /-- `session_clear` looks at the event -/
  | clear (id : UInt32)
  /-- `raised_timer.cancel` -/
  | cancel
  /-- `launch_event.pop` returns -/
  | pop
  deriving DecidableEq

namespace Handover

variable (w : Handover)

/-- The start of `session_raise`: a session that is pending is not overwritten. -/
def request (id : UInt32) : Handover :=
  let l : Launch := ⟨w.requests, id⟩
  if w.event.viewNow.isSome then { w with requests := w.requests + 1, answered := l :: w.answered }
  else { w with requests := w.requests + 1, raising := .viewed l }

/-- The start of `session_clear`. -/
def clear (id : UInt32) : Handover :=
  match w.event.viewNow with
  | some l => if l.id ≠ id then w else { w with clearing := .viewed id }
  | none => w

def step : HandoverOp → Option Handover
  | .request id => if w.raising = .idle then some (w.request id) else none
  | .raise =>
    match w.raising with
    | .viewed l =>
      some { w with
        raising := .raised l, event := w.event.raise l, pended := (w.event.raise l).status.toList ++ w.pended }
    | _ => none
  | .expiresAfter =>
    match w.raising with
    | .raised l => some { w with raising := .rearmed l, armed := none }
    | _ => none
  | .asyncWait =>
    match w.raising with
    | .rearmed l => some { w with raising := .idle, armed := some l, answered := l :: w.answered }
    | _ => none
  | .expire =>
    match w.armed with
    | some l => some { w with armed := none, expired := w.expired ++ [l] }
    | none => none
  | .handler =>
    match w.expired with
    | l :: rest =>
      some { w with
        expired := rest, event := w.event.popNow,
        discarded := (w.event.viewNow.toList.map fun v => ⟨l, v⟩) ++ w.discarded }
    | [] => none
  | .accept => some { w with accepted := ⟨w.event.viewNow, w.event.status⟩ :: w.accepted }
  | .clear id => if w.clearing = .idle then some (w.clear id) else none
  | .cancel =>
    match w.clearing with
    | .viewed id => some { w with clearing := .cancelled id, armed := none }
    | _ => none
  | .pop =>
    match w.clearing with
    | .cancelled id =>
      if w.event.popReturns then
        some { w with
          clearing := .idle, event := w.event.popNow,
          cleared := (w.event.viewNow.toList.map fun v => ⟨id, v⟩) ++ w.cleared }
      else none
    | _ => none

end Handover

/-- The steps of the three threads. -/
def HandoverStep : Handover → HandoverOp → Handover → Prop := ofPartial Handover.step

/-- Nothing is lost: a request answered with 200 made its session the pending one, the timer discards the session whose
raise armed it, `session_clear` takes a session with the id it was given and need not wait for one, and a socket has the
session that was pending. -/
structure HandedOver (w : Handover) : Prop where
  pended : ∀ l ∈ w.answered, l ∈ w.pended
  own : ∀ d ∈ w.discarded, d.session = d.armedBy
  id_eq : ∀ c ∈ w.cleared, c.session.id = c.id
  returns : ∀ id, w.clearing = .cancelled id → w.event.popReturns = true
  bound : ∀ a ∈ w.accepted, a.session = a.pending

/-- No request comes while a session is pending; no handler of an earlier timer is queued when a session is raised, and
no earlier timer expires before this one is set; no handler runs within a call of `session_clear` that found its
session. -/
def HandoverGuard (w : Handover) : HandoverOp → Prop
  | .request _ => w.event.status = none
  | .raise => w.expired = []
  | .expire => ∀ l, w.raising ≠ .raised l
  | .handler => w.clearing = .idle
  | _ => True

instance (w : Handover) : DecidablePred (HandoverGuard w) := by
  intro op
  cases op with
  | request id => exact inferInstanceAs (Decidable (w.event.status = none))
  | raise => exact inferInstanceAs (Decidable (w.expired = []))
  | expire =>
    unfold HandoverGuard
    cases w.raising with
    | raised l => exact isFalse fun h => h l rfl
    | idle => exact isTrue fun _ h => Raising.noConfusion h
    | viewed l => exact isTrue fun _ h => Raising.noConfusion h
    | rearmed l => exact isTrue fun _ h => Raising.noConfusion h
  | handler => exact inferInstanceAs (Decidable (w.clearing = .idle))
  | expiresAfter => exact isTrue trivial
  | asyncWait => exact isTrue trivial
  | accept => exact isTrue trivial
  | clear id => exact isTrue trivial
  | cancel => exact isTrue trivial
  | pop => exact isTrue trivial

/-! ### The invariant -/

/-- Between the steps of a run that meets the guard. -/
structure Handover.Sound (w : Handover) : Prop where
  running : w.event.running = true
  free : ∀ l, w.raising = .viewed l → w.event.status = none
  /-- the session that was raised is the one that is pending, until it is taken -/
  raised : ∀ l, w.raising = .raised l ∨ w.raising = .rearmed l → l ∈ w.pended ∧ ∀ v ∈ w.event.status, v = l
  /-- so is the session of the timer, unless it is about to be armed anew -/
  armed : (∀ l, w.raising ≠ .raised l) → ∀ l ∈ w.armed, ∀ v ∈ w.event.status, v = l
  expired : ∀ l ∈ w.expired, ∀ v ∈ w.event.status, v = l
  clearing : ∀ id, w.clearing = .viewed id ∨ w.clearing = .cancelled id → ∃ v ∈ w.event.status, v.id = id
  pended : ∀ l ∈ w.answered, l ∈ w.pended
  own : ∀ d ∈ w.discarded, d.session = d.armedBy
  id_eq : ∀ c ∈ w.cleared, c.session.id = c.id
  bound : ∀ a ∈ w.accepted, a.session = a.pending

namespace Handover.Sound

variable {w : Handover}

lemma not_clearing (hidle : w.clearing = .idle) (id : UInt32) :
    ¬(w.clearing = .viewed id ∨ w.clearing = .cancelled id) := by simp [hidle]

variable (h : w.Sound)

include h

lemma handedOver : HandedOver w where
  pended := h.pended
  own := h.own
  id_eq := h.id_eq
  returns id hid := by
    obtain ⟨v, hv, -⟩ := h.clearing id (Or.inr hid)
    rw [Event.popReturns_of_running h.running, Option.mem_def.mp hv]
    rfl
  bound := h.bound

lemma request (id : UInt32) (hidle : w.raising = .idle) (hfree : w.event.status = none) : (w.request id).Sound := by
  have hview : w.event.viewNow.isSome = false := by
    rw [Event.viewNow_of_running h.running, hfree]
    rfl
  rw [Handover.request, hview, if_neg Bool.false_ne_true]
  refine { h with free := fun _ _ => hfree, raised := ?_, armed := ?_ }
  · rintro l (h' | h') <;> cases h'
  · intro _
    apply h.armed
    intro l hl
    rw [hidle] at hl
    cases hl

/-- With nothing pending there is no call of `session_clear` that found its session. -/
lemma clearing_eq_idle (hfree : w.event.status = none) : w.clearing = .idle := by
  cases hclearing : w.clearing with
  | idle => rfl
  | viewed id =>
    obtain ⟨v, hv, -⟩ := h.clearing id (Or.inl hclearing)
    rw [hfree] at hv
    cases hv
  | cancelled id =>
    obtain ⟨v, hv, -⟩ := h.clearing id (Or.inr hclearing)
    rw [hfree] at hv
    cases hv

lemma raise {l : Launch} (hl : w.raising = .viewed l) (hexpired : w.expired = []) :
    Sound { w with
      raising := .raised l, event := w.event.raise l, pended := (w.event.raise l).status.toList ++ w.pended } := by
  have hidle := h.clearing_eq_idle (h.free l hl)
  rw [Event.raise_of_running h.running]
  refine
    { h with
      free := ?_, raised := ?_, armed := fun hne => absurd rfl (hne l), expired := ?_, clearing := ?_, pended := ?_ }
  · intro l' hl'
    cases hl'
  · rintro l' (hl' | hl') <;> cases hl'
    refine ⟨List.mem_cons_self, fun v hv => ?_⟩
    exact (Option.some.inj hv).symm
  · intro l' hl'
    have hmem : l' ∈ w.expired := hl'
    rw [hexpired] at hmem
    cases hmem
  · exact fun id hid => absurd hid (not_clearing hidle id)
  · intro l' hl'
    exact List.mem_cons_of_mem l (h.pended l' hl')

lemma expiresAfter {l : Launch} (hl : w.raising = .raised l) :
    Sound { w with raising := .rearmed l, armed := none } := by
  refine { h with free := ?_, raised := ?_, armed := ?_ }
  · intro l' hl'
    cases hl'
  · rintro l' (hl' | hl') <;> cases hl'
    exact h.raised l (Or.inl hl)
  · intro _ l' hl'
    cases hl'

lemma asyncWait {l : Launch} (hl : w.raising = .rearmed l) :
    Sound { w with raising := .idle, armed := some l, answered := l :: w.answered } := by
  obtain ⟨hmem, heq⟩ := h.raised l (Or.inr hl)
  refine { h with free := ?_, raised := ?_, armed := ?_, pended := ?_ }
  · intro l' hl'
    cases hl'
  · rintro l' (hl' | hl') <;> cases hl'
  · intro _ l' hl'
    obtain rfl : l = l' := Option.some.inj hl'
    exact heq
  · intro l' hl'
    rcases List.mem_cons.mp hl' with rfl | hl'
    · exact hmem
    · exact h.pended l' hl'

lemma expire {l : Launch} (hl : w.armed = some l) (hraising : ∀ l, w.raising ≠ .raised l) :
    Sound { w with armed := none, expired := w.expired ++ [l] } := by
  refine { h with armed := ?_, expired := ?_ }
  · intro _ l' hl'
    cases hl'
  · intro l' hl'
    rcases List.mem_append.mp hl' with hl' | hl'
    · exact h.expired l' hl'
    · obtain rfl := List.mem_singleton.mp hl'
      exact h.armed hraising l' hl

/-- After a call of `pop` nothing is pending. -/
lemma popped (hclearing : w.clearing = .idle) : Sound { w with event := { w.event with status := none } } := by
  refine { h with free := fun _ _ => rfl, raised := ?_, armed := ?_, expired := ?_, clearing := ?_ }
  · intro l hl
    refine ⟨(h.raised l hl).1, fun v hv => ?_⟩
    cases hv
  · intro _ l _ v hv
    cases hv
  · intro l _ v hv
    cases hv
  · exact fun id hid => absurd hid (not_clearing hclearing id)

lemma handler {l : Launch} {rest : List Launch} (hl : w.expired = l :: rest) (hclearing : w.clearing = .idle) :
    Sound { w with
      expired := rest, event := w.event.popNow,
      discarded := (w.event.viewNow.toList.map fun v => ⟨l, v⟩) ++ w.discarded } := by
  rw [Event.popNow_of_running h.running, Event.viewNow_of_running h.running]
  refine { h.popped hclearing with expired := ?_, own := ?_ }
  · intro l' _ v hv
    cases hv
  · intro d hd
    rcases List.mem_append.mp hd with hd | hd
    · obtain ⟨v, hv, rfl⟩ := List.mem_map.mp hd
      exact h.expired l (by rw [hl]; exact List.mem_cons_self) v (Option.mem_toList.mp hv)
    · exact h.own d hd

lemma accept : Sound { w with accepted := ⟨w.event.viewNow, w.event.status⟩ :: w.accepted } := by
  refine { h with bound := ?_ }
  intro a ha
  rcases List.mem_cons.mp ha with rfl | ha
  · exact Event.viewNow_of_running h.running
  · exact h.bound a ha

lemma clear (id : UInt32) : (w.clear id).Sound := by
  rw [Handover.clear, Event.viewNow_of_running h.running]
  cases hstatus : w.event.status with
  | none => exact h
  | some l =>
    dsimp only
    split_ifs with hid
    · exact h
    · refine { h with clearing := ?_ }
      rintro id' (hid' | hid') <;> cases hid'
      exact ⟨l, hstatus, not_not.mp hid⟩

lemma cancel {id : UInt32} (hid : w.clearing = .viewed id) :
    Sound { w with clearing := .cancelled id, armed := none } := by
  refine { h with armed := ?_, clearing := ?_ }
  · intro _ l hl
    cases hl
  · rintro id' (hid' | hid') <;> cases hid'
    exact h.clearing id (Or.inl hid)

lemma pop {id : UInt32} (hid : w.clearing = .cancelled id) :
    Sound { w with
      clearing := .idle, event := w.event.popNow,
      cleared := (w.event.viewNow.toList.map fun v => ⟨id, v⟩) ++ w.cleared } := by
  have hidle : Sound { w with clearing := .idle } := by
    refine { h with clearing := ?_ }
    rintro id' (hid' | hid') <;> cases hid'
  rw [Event.popNow_of_running h.running, Event.viewNow_of_running h.running]
  refine { hidle.popped rfl with id_eq := ?_ }
  intro c hc
  rcases List.mem_append.mp hc with hc | hc
  · obtain ⟨v, hv, rfl⟩ := List.mem_map.mp hc
    obtain ⟨v', hv', hveq⟩ := h.clearing id (Or.inr hid)
    obtain rfl : v = v' := Option.mem_unique (Option.mem_toList.mp hv) hv'
    exact hveq
  · exact h.id_eq c hc

theorem step {op : HandoverOp} {w' : Handover} (hguard : HandoverGuard w op) (hstep : HandoverStep w op w') :
    w'.Sound := by
  change w.step op = some w' at hstep
  cases op with
  | request id =>
    obtain ⟨hidle, rfl⟩ := of_ite_some hstep
    exact h.request id hidle hguard
  | raise =>
    rw [Handover.step] at hstep
    split at hstep
    next l hl =>
      cases hstep
      exact h.raise hl hguard
    next => cases hstep
  | expiresAfter =>
    rw [Handover.step] at hstep
    split at hstep
    next l hl =>
      cases hstep
      exact h.expiresAfter hl
    next => cases hstep
  | asyncWait =>
    rw [Handover.step] at hstep
    split at hstep
    next l hl =>
      cases hstep
      exact h.asyncWait hl
    next => cases hstep
  | expire =>
    rw [Handover.step] at hstep
    split at hstep
    next l hl =>
      cases hstep
      exact h.expire hl hguard
    next => cases hstep
  | handler =>
    rw [Handover.step] at hstep
    split at hstep
    next l rest hl =>
      cases hstep
      exact h.handler hl hguard
    next => cases hstep
  | accept =>
    cases hstep
    exact h.accept
  | clear id =>
    obtain ⟨-, rfl⟩ := of_ite_some hstep
    exact h.clear id
  | cancel =>
    rw [Handover.step] at hstep
    split at hstep
    next id hid =>
      cases hstep
      exact h.cancel hid
    next => cases hstep
  | pop =>
    rw [Handover.step] at hstep
    split at hstep
    next id hid =>
      obtain ⟨-, rfl⟩ := of_ite_some hstep
      exact h.pop hid
    next => cases hstep

end Handover.Sound

lemma Handover.Sound.start : Handover.Sound {} where
  running := rfl
  free _ _ := rfl
  raised l hl := by rcases hl with hl | hl <;> cases hl
  armed _ l hl := by cases hl
  expired l hl := by cases hl
  clearing id hid := by rcases hid with hid | hid <;> cases hid
  pended l hl := by cases hl
  own d hd := by cases hd
  id_eq c hc := by cases hc
  bound a ha := by cases ha

/-- **No launch session is lost** in a run that meets the guard. -/
theorem handed_over {ops : List HandoverOp} {w : Handover} (h : Run (Guarded HandoverStep HandoverGuard) {} ops w) :
    HandedOver w := by
  have hsound : w.Sound := h.invariant_where (fun _ _ _ hs hguard hstep => hs.step hguard hstep) Handover.Sound.start
  exact hsound.handedOver

/-- A session is raised, a client connects, its control stream clears the session, and a second one times out. -/
def launchOps : List HandoverOp :=
  [.request 1, .raise, .expiresAfter, .asyncWait, .accept, .clear 1, .cancel, .pop,
    .request 2, .raise, .expiresAfter, .asyncWait, .expire, .handler]

theorem handed_over_launchOps : ∃ w, Run (Guarded HandoverStep HandoverGuard) {} launchOps w ∧
    w.answered = [⟨1, 2⟩, ⟨0, 1⟩] ∧ HandedOver w := by
  obtain ⟨w, hrun, hanswered⟩ := exists_run_execWhere_and (f := Handover.step) (G := HandoverGuard) (s := {})
    (l := launchOps) (P := fun w => w.answered = [⟨1, 2⟩, ⟨0, 1⟩]) (by decide)
  exact ⟨w, hrun, hanswered, handed_over hrun⟩

/-- A second client's request comes while the session of the first is pending. -/
def swallowedOps : List HandoverOp := [.request 1, .raise, .expiresAfter, .asyncWait, .request 2]

/-- It is answered, but its session is never pending. -/
theorem request_swallowed : ¬∀ (ops : List HandoverOp) (w : Handover), Run HandoverStep {} ops w → HandedOver w := by
  intro h
  obtain ⟨w, hrun, hanswered, hpended⟩ := exists_run_execWhere_and (f := Handover.step) (G := fun _ _ => True) (s := {})
    (l := swallowedOps) (P := fun w => w.answered = [⟨1, 2⟩, ⟨0, 1⟩] ∧ w.pended = [⟨0, 1⟩]) (by decide)
  have hmem := (h _ w (Run.of_guarded hrun)).pended ⟨1, 2⟩ (by rw [hanswered]; exact List.mem_cons_self)
  rw [hpended] at hmem
  exact absurd hmem (by decide)

end MidnightSun.Rtsp
