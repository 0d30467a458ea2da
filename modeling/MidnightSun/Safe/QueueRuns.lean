import Mathlib.Data.Nat.Notation
import Mathlib.Logic.Function.Basic
import MidnightSun.Lib.Fifo
import MidnightSun.Lib.Run
import MidnightSun.Safe.Queue

/-!
# Runs of `safe::queue_t` (src/thread_safe.h)

Any number of threads call `raise`, `pop` and `stop`.  A call is one step as long as it has the lock; a `pop` that finds
the queue empty gives the lock up and waits, and what it does once it has the lock again is a step of its own.
-/

namespace MidnightSun.Safe

open Lib

/-- An element, with the number of the call of `raise` that it came with. -/
structure Raised (α : Type*) where
  number : ℕ
  value : α
  deriving DecidableEq, Repr

/-- `pop()` and `pop(delay)`. -/
inductive PopKind
  | untimed
  | timed
  deriving DecidableEq

/-- A queue and the threads that wait for it. -/
structure QueueWorld (α : Type*) where
  q : Queue (Raised α)
  /-- the calls of `pop` that wait, by their threads -/
  waiting : ℕ → Option PopKind := fun _ => none
  /-- ghost: the elements of all calls of `raise` -/
  raised : List (Raised α) := []
  /-- ghost: the elements that calls of `pop` reported -/
  popped : List (Raised α) := []
  /-- ghost: what calls of `pop` reported while the queue was stopped -/
  afterStop : List (Option (Raised α)) := []

inductive QueueOp (α : Type*)
  | raise (x : α)
  | stop
  /-- thread `t` calls `pop` -/
  | pop (t : ℕ) (kind : PopKind)
  /-- `wait` or `wait_for` returns in thread `t`, notified or not -/
  | wake (t : ℕ)
  /-- `wait_for` returns `timeout` in thread `t` -/
  | timeout (t : ℕ)

namespace QueueWorld

variable {α : Type*} (w : QueueWorld α)

/-- The element of the next call of `raise`. -/
def next (x : α) : Raised α := ⟨w.raised.length, x⟩

def raise (x : α) : QueueWorld α := { w with q := w.q.raise (w.next x), raised := w.raised ++ [w.next x] }

/-- A call of `pop` returns. -/
def report (r : Option (Raised α)) : QueueWorld α :=
  { w with
    popped := w.popped ++ r.toList
    afterStop := if w.q.running then w.afterStop else w.afterStop ++ [r] }

/-- The end of `pop`, where the queue is not empty. -/
def takeFront : QueueWorld α :=
  match w.q.queue with
  | [] => w
  | x :: xs => { w with q := { w.q with queue := xs } }.report (some x)

/-- The start of `pop`, up to the first wait. -/
def pop (t : ℕ) (kind : PopKind) : QueueWorld α :=
  match w.q.pop with
  | .stopped => w.report none
  | .waits => { w with waiting := Function.update w.waiting t (some kind) }
  | .element x q => { w with q }.report (some x)

/-- Thread `t` no longer waits. -/
def leave (t : ℕ) : QueueWorld α := { w with waiting := Function.update w.waiting t none }

/-- The loop of `pop` after a wait.  `pop()` looks at `_continue` first, `pop(delay)` only if the queue is empty. -/
def resume (t : ℕ) : PopKind → QueueWorld α
  | .untimed =>
    if w.q.running then
      if w.q.queue.isEmpty then w else (w.leave t).takeFront
    else (w.leave t).report none
  | .timed =>
    if w.q.queue.isEmpty then
      if w.q.running then w else (w.leave t).report none
    else (w.leave t).takeFront

def step : QueueOp α → Option (QueueWorld α)
  | .raise x => some (w.raise x)
  | .stop => some { w with q := w.q.stop }
  | .pop t kind => if w.waiting t = none then some (w.pop t kind) else none
  | .wake t => (w.waiting t).map (w.resume t)
  | .timeout t => if w.waiting t = some .timed then some ((w.leave t).report none) else none

/-- An element that was raised is neither popped nor held. -/
def Lost (x : Raised α) : Prop := Lib.Lost w.raised w.popped w.q.queue x

/-- What a step may lose: the whole backlog when `raise` finds the queue full, and anything after `stop`. -/
inductive LosesRightly (w : QueueWorld α) : QueueOp α → QueueWorld α → Prop
  | nothing {op : QueueOp α} {w' : QueueWorld α} : (∀ x, w'.Lost x ↔ w.Lost x) → LosesRightly w op w'
  | backlog {x : α} {w' : QueueWorld α} : w.q.queue.length = w.q.maxElements → w'.q.queue = [w.next x] →
    (∀ y, w'.Lost y ↔ w.Lost y ∨ y ∈ w.q.queue) → LosesRightly w (.raise x) w'
  | stopped {op : QueueOp α} {w' : QueueWorld α} : w.q.running = false → LosesRightly w op w'

/-- A bounded queue, first in, first out, that loses whole backlogs only. -/
structure Fifo : Prop where
  bounded : w.q.queue.length ≤ w.q.maxElements
  inOrder : w.popped.Sublist w.raised
  nodup : w.popped.Nodup
  losses : ∀ op w', w.step op = some w' → w.LosesRightly op w'

/-- After `stop` every `pop` reports that there is no element. -/
def Silent : Prop := ∀ r ∈ w.afterStop, r = none

/-- No waiting `pop(delay)` comes back to a stopped queue that holds an element. -/
def Guard : QueueOp α → Prop
  | .wake t => w.waiting t = some .timed → w.q.running = false → w.q.queue.isEmpty = true
  | _ => True

instance : DecidablePred w.Guard := by
  intro op
  cases op with
  | wake t => exact inferInstanceAs (Decidable (_ → _ → _))
  | raise | stop | pop | timeout => exact instDecidableTrue

/-! ### What a step does -/

/-- The step leaves the elements alone; what it reports, if it does, is that there is none. -/
structure Same (w w' : QueueWorld α) : Prop where
  queue : w'.q.queue = w.q.queue
  maxElements : w'.q.maxElements = w.q.maxElements
  raised : w'.raised = w.raised
  popped : w'.popped = w.popped
  afterStop : ∀ r ∈ w'.afterStop, r ∈ w.afterStop ∨ r = none

/-- The step pops the first element. -/
structure Takes (w w' : QueueWorld α) (x : Raised α) : Prop where
  queue : w.q.queue = x :: w'.q.queue
  maxElements : w'.q.maxElements = w.q.maxElements
  raised : w'.raised = w.raised
  popped : w'.popped = w.popped ++ [x]
  afterStop : w'.afterStop = if w.q.running then w.afterStop else w.afterStop ++ [some x]

variable {w} {w' : QueueWorld α}

lemma Same.refl : w.Same w where
  queue := rfl
  maxElements := rfl
  raised := rfl
  popped := rfl
  afterStop := fun _ h => Or.inl h

lemma same_report_none : w.Same (w.report none) where
  queue := rfl
  maxElements := rfl
  raised := rfl
  popped := List.append_nil _
  afterStop := by
    intro r hr
    change r ∈ (if w.q.running then w.afterStop else w.afterStop ++ [none]) at hr
    split at hr
    · exact Or.inl hr
    · rcases List.mem_append.mp hr with hr | hr
      · exact Or.inl hr
      · exact Or.inr (List.mem_singleton.mp hr)

lemma Same.of_leave {t : ℕ} (h : (w.leave t).Same w') : w.Same w' where
  queue := h.queue
  maxElements := h.maxElements
  raised := h.raised
  popped := h.popped
  afterStop := h.afterStop

lemma Takes.of_leave {t : ℕ} {x : Raised α} (h : (w.leave t).Takes w' x) : w.Takes w' x where
  queue := h.queue
  maxElements := h.maxElements
  raised := h.raised
  popped := h.popped
  afterStop := h.afterStop

lemma takes_takeFront (h : w.q.queue.isEmpty = false) : ∃ x, w.Takes w.takeFront x := by
  unfold takeFront
  cases hq : w.q.queue with
  | nil =>
    rw [hq] at h
    cases h
  | cons x xs => exact ⟨x, hq, rfl, rfl, rfl, rfl⟩

/-- A call of `pop` waits, reports that there is none, or takes the first element of a running queue. -/
lemma pop_cases (t : ℕ) (kind : PopKind) :
    w.Same (w.pop t kind) ∨ ∃ x, w.Takes (w.pop t kind) x ∧ w.q.running = true := by
  unfold pop
  cases hpop : w.q.pop with
  | stopped => exact Or.inl same_report_none
  | waits => exact Or.inl { Same.refl with }
  | element x q =>
    obtain ⟨hrunning, hqueue, hrunning', hmax⟩ := Queue.pop_eq_element hpop
    refine Or.inr ⟨x, ⟨hqueue, hmax, rfl, rfl, ?_⟩, hrunning⟩
    change (if q.running then w.afterStop else w.afterStop ++ [some x]) = _
    rw [hrunning, hrunning']

lemma resume_untimed (t : ℕ) : w.resume t .untimed =
    if w.q.running then if w.q.queue.isEmpty then w else (w.leave t).takeFront else (w.leave t).report none := rfl

lemma resume_timed (t : ℕ) : w.resume t .timed =
    if w.q.queue.isEmpty then if w.q.running then w else (w.leave t).report none else (w.leave t).takeFront := rfl

/-- A call that waited waits on, reports that there is none, or takes the first element.  On a stopped queue that holds
one, only `pop(delay)` takes it. -/
lemma resume_cases (t : ℕ) (kind : PopKind) :
    w.Same (w.resume t kind) ∧ (kind = .timed → w.q.queue.isEmpty = true) ∨
      ∃ x, w.Takes (w.resume t kind) x ∧ (w.q.running = false → kind = .timed ∧ w.q.queue.isEmpty = false) := by
  cases kind with
  | untimed =>
    rw [resume_untimed]
    by_cases hrunning : w.q.running = true
    · rw [if_pos hrunning]
      cases hqueue : w.q.queue.isEmpty with
      | true => exact Or.inl ⟨Same.refl, nofun⟩
      | false =>
        obtain ⟨x, hx⟩ := takes_takeFront (w := w.leave t) hqueue
        exact Or.inr ⟨x, hx.of_leave, fun hstopped => by rw [hrunning] at hstopped; cases hstopped⟩
    · rw [if_neg hrunning]
      exact Or.inl ⟨same_report_none.of_leave, nofun⟩
  | timed =>
    rw [resume_timed]
    cases hqueue : w.q.queue.isEmpty with
    | true =>
      refine Or.inl ⟨?_, fun _ => rfl⟩
      cases w.q.running with
      | true => exact Same.refl
      | false => exact same_report_none.of_leave
    | false =>
      obtain ⟨x, hx⟩ := takes_takeFront (w := w.leave t) hqueue
      exact Or.inr ⟨x, hx.of_leave, fun _ => ⟨rfl, rfl⟩⟩

/-- **All that a step can do.**  It raises an element, or leaves the elements alone, or pops the first; the guard holds
unless an element is popped from a stopped queue. -/
theorem step_cases {op : QueueOp α} (hstep : w.step op = some w') :
    (∃ x, op = .raise x ∧ w' = w.raise x) ∨ w.Same w' ∧ w.Guard op ∨
      ∃ x, w.Takes w' x ∧ (w.Guard op ↔ w.q.running = true) := by
  cases op with
  | raise x =>
    cases hstep
    exact Or.inl ⟨x, rfl, rfl⟩
  | stop =>
    cases hstep
    exact Or.inr (Or.inl ⟨{ Same.refl with }, trivial⟩)
  | pop t kind =>
    obtain ⟨-, rfl⟩ := of_ite_some hstep
    rcases pop_cases (w := w) t kind with hsame | ⟨x, hx, hrunning⟩
    · exact Or.inr (Or.inl ⟨hsame, trivial⟩)
    · exact Or.inr (Or.inr ⟨x, hx, iff_of_true trivial hrunning⟩)
  | wake t =>
    obtain ⟨kind, hkind, rfl⟩ := Option.map_eq_some_iff.mp hstep
    rcases resume_cases (w := w) t kind with ⟨hsame, hguard⟩ | ⟨x, hx, hguard⟩
    · refine Or.inr (Or.inl ⟨hsame, fun htimed _ => hguard ?_⟩)
      exact Option.some.inj (hkind.symm.trans htimed)
    · refine Or.inr (Or.inr ⟨x, hx, fun h => ?_, fun hrunning _ hstopped => ?_⟩)
      · by_contra hstopped
        rw [Bool.not_eq_true] at hstopped
        obtain ⟨rfl, hqueue⟩ := hguard hstopped
        have hempty := h hkind hstopped
        rw [hqueue] at hempty
        cases hempty
      · rw [hrunning] at hstopped
        cases hstopped
  | timeout t =>
    obtain ⟨-, rfl⟩ := of_ite_some hstep
    exact Or.inr (Or.inl ⟨same_report_none.of_leave, trivial⟩)

/-! ### The invariant -/

structure Inv (w : QueueWorld α) : Prop where
  pos : 0 < w.q.maxElements
  bounded : w.q.queue.length ≤ w.q.maxElements
  inOrder : InOrder w.raised w.popped w.q.queue
  numbers : w.raised.map Raised.number = List.range w.raised.length

/-- A queue with its capacity, as its constructor leaves it. -/
def start (α : Type*) (capacity : ℕ) : QueueWorld α := { q := { maxElements := capacity } }

lemma Inv.start {capacity : ℕ} (hpos : 0 < capacity) : (start α capacity).Inv where
  pos := hpos
  bounded := Nat.zero_le _
  inOrder := InOrder.empty
  numbers := rfl

namespace Inv

variable (h : w.Inv)

include h

lemma nodup : w.raised.Nodup := by
  refine List.Nodup.of_map Raised.number ?_
  rw [h.numbers]
  exact List.nodup_range

lemma next_not_mem (x : α) : w.next x ∉ w.raised := by
  intro hmem
  have hnumber := List.mem_map_of_mem (f := Raised.number) hmem
  rw [h.numbers, List.mem_range] at hnumber
  exact Nat.lt_irrefl _ hnumber

lemma numbers_raise (x : α) : (w.raise x).raised.map Raised.number = List.range (w.raise x).raised.length := by
  change (w.raised ++ [w.next x]).map Raised.number = List.range (w.raised ++ [w.next x]).length
  rw [List.map_append, h.numbers, List.length_append, List.length_singleton, List.range_succ]
  rfl

lemma raise (x : α) : (w.raise x).Inv where
  pos := by
    change 0 < (w.q.raise (w.next x)).maxElements
    rw [Queue.raise_maxElements]
    exact h.pos
  bounded := Queue.raise_length_le h.pos h.bounded (w.next x)
  inOrder := by
    change InOrder (w.raised ++ [w.next x]) w.popped (w.q.raise (w.next x)).queue
    rcases w.q.raise_cases (w.next x) with ⟨-, hq⟩ | ⟨-, hq⟩ | hq
    · rw [hq]
      exact h.inOrder.refuse _
    · rw [hq]
      exact h.inOrder.clear _
    · rw [hq]
      exact h.inOrder.come _
  numbers := h.numbers_raise x

lemma same (hs : w.Same w') : w'.Inv where
  pos := hs.maxElements ▸ h.pos
  bounded := by
    rw [hs.queue, hs.maxElements]
    exact h.bounded
  inOrder := by
    rw [hs.raised, hs.popped, hs.queue]
    exact h.inOrder
  numbers := hs.raised ▸ h.numbers

lemma takes {x : Raised α} (ht : w.Takes w' x) : w'.Inv where
  pos := ht.maxElements ▸ h.pos
  bounded := by
    have hbounded := h.bounded
    rw [ht.queue, List.length_cons] at hbounded
    rw [ht.maxElements]
    exact Nat.le_of_succ_le hbounded
  inOrder := by
    have hinOrder := h.inOrder
    rw [ht.queue] at hinOrder
    rw [ht.raised, ht.popped]
    exact hinOrder.take
  numbers := ht.raised ▸ h.numbers

theorem step {op : QueueOp α} (hstep : w.step op = some w') : w'.Inv := by
  rcases step_cases hstep with ⟨x, -, rfl⟩ | ⟨hsame, -⟩ | ⟨x, htakes, -⟩
  · exact h.raise x
  · exact h.same hsame
  · exact h.takes htakes

lemma losesRightly_raise (x : α) : w.LosesRightly (.raise x) (w.raise x) := by
  rcases w.q.raise_cases (w.next x) with ⟨hstopped, -⟩ | ⟨hfull, hq⟩ | hq
  · exact .stopped hstopped
  · refine .backlog hfull hq fun y => ?_
    change Lib.Lost (w.raised ++ [w.next x]) w.popped (w.q.raise (w.next x)).queue y ↔ _
    rw [hq]
    exact lost_clear h.inOrder h.nodup (h.next_not_mem x)
  · refine .nothing fun y => ?_
    change Lib.Lost (w.raised ++ [w.next x]) w.popped (w.q.raise (w.next x)).queue y ↔ _
    rw [hq]
    exact lost_come (h.next_not_mem x)

theorem losesRightly {op : QueueOp α} (hstep : w.step op = some w') : w.LosesRightly op w' := by
  rcases step_cases hstep with ⟨x, rfl, rfl⟩ | ⟨hsame, -⟩ | ⟨x, htakes, -⟩
  · exact h.losesRightly_raise x
  · refine .nothing fun y => ?_
    unfold Lost
    rw [hsame.raised, hsame.popped, hsame.queue]
  · refine .nothing fun y => ?_
    unfold Lost
    rw [htakes.raised, htakes.popped, htakes.queue]
    exact lost_take

theorem fifo : w.Fifo where
  bounded := h.bounded
  inOrder := h.inOrder.taken_sublist
  nodup := h.inOrder.taken_sublist.nodup h.nodup
  losses := fun _ _ => h.losesRightly

end Inv

/-! ### Silence -/

lemma Silent.step {op : QueueOp α} (h : w.Silent) (hguard : w.Guard op) (hstep : w.step op = some w') : w'.Silent := by
  intro r hr
  rcases step_cases hstep with ⟨x, -, rfl⟩ | ⟨hsame, -⟩ | ⟨x, htakes, hrunning⟩
  · exact h r hr
  · rcases hsame.afterStop r hr with hr | hr
    · exact h r hr
    · exact hr
  · rw [htakes.afterStop, if_pos (hrunning.mp hguard)] at hr
    exact h r hr

lemma guard_of_silent {op : QueueOp α} (hstep : w.step op = some w') (h : w'.Silent) : w.Guard op := by
  rcases step_cases hstep with ⟨x, rfl, -⟩ | ⟨-, hguard⟩ | ⟨x, htakes, hrunning⟩
  · trivial
  · exact hguard
  · refine hrunning.mpr ?_
    by_contra hstopped
    have hmem : some x ∈ w'.afterStop := by
      rw [htakes.afterStop, if_neg hstopped]
      exact List.mem_append_right _ List.mem_cons_self
    cases h _ hmem

/-! ### All runs -/

/-- **In every run** the queue is bounded, first in, first out, and loses whole backlogs only. -/
theorem fifo_of_run {capacity : ℕ} (hpos : 0 < capacity) {ops : List (QueueOp α)}
    (h : Run (ofPartial step) (start α capacity) ops w) : w.Fifo :=
  (h.invariant (fun _ _ _ hI hstep => hI.step hstep) (Inv.start hpos)).fifo

/-- **When a queue is silent after `stop` as well.** -/
theorem fifo_and_silent_iff {capacity : ℕ} (hpos : 0 < capacity) {ops : List (QueueOp α)}
    (h : Run (ofPartial step) (start α capacity) ops w) :
    (∀ as bs u, ops = as ++ bs → Run (ofPartial step) (start α capacity) as u → u.Fifo ∧ u.Silent) ↔
      Run (Guarded (ofPartial step) Guard) (start α capacity) ops w :=
  run_safe_where_iff (I := fun u => u.Inv ∧ u.Silent) (fun _ hI => ⟨hI.1.fifo, hI.2⟩)
    (fun _ _ _ hI hguard hstep => ⟨hI.1.step hstep, hI.2.step hguard hstep⟩)
    (fun _ _ _ _ hstep hP => guard_of_silent hstep hP.2)
    ⟨Inv.start hpos, nofun⟩ h

/-- Three elements in a queue for two, and a `pop()` that waits for the fourth. -/
theorem fifo_and_silent_overflow :
    ∃ (ops : List (QueueOp ℕ)) (w : QueueWorld ℕ), Run (ofPartial step) (start ℕ 2) ops w ∧
      w.raised.map Raised.value = [10, 11, 12, 13] ∧ w.popped.map Raised.value = [12, 13] ∧
      ∀ as bs u, ops = as ++ bs → Run (ofPartial step) (start ℕ 2) as u → u.Fifo ∧ u.Silent := by
  obtain ⟨w, hrun, hraised, hpopped⟩ := exists_run_execWhere_and (f := step) (G := Guard) (s := start ℕ 2)
    (l := [.raise 10, .raise 11, .raise 12, .pop 0 .timed, .pop 1 .untimed, .raise 13, .wake 1, .stop, .pop 0 .timed])
    (P := fun w => w.raised.map Raised.value = [10, 11, 12, 13] ∧ w.popped.map Raised.value = [12, 13]) (by decide)
  exact ⟨_, w, hrun.of_guarded, hraised, hpopped, (fifo_and_silent_iff (by decide) hrun.of_guarded).mpr hrun⟩

/-- An element comes and the queue is stopped before a `pop(delay)` that waits has the lock again: it reports the
element. -/
theorem pop_after_stop :
    ¬∀ (capacity : ℕ) (ops : List (QueueOp ℕ)) (w : QueueWorld ℕ), 0 < capacity →
      Run (ofPartial step) (start ℕ capacity) ops w → w.Fifo ∧ w.Silent := by
  intro h
  obtain ⟨w, hrun, hreported⟩ := exists_run_execWhere_and (f := step) (G := fun _ _ => True) (s := start ℕ 32)
    (l := [.pop 0 .timed, .raise 10, .stop, .wake 0]) (P := fun w => w.afterStop = [some ⟨0, 10⟩]) (by decide)
  have hsilent := (h 32 _ w (by decide) hrun.of_guarded).2 (some ⟨0, 10⟩) (hreported ▸ List.mem_cons_self)
  cases hsilent

end QueueWorld

end MidnightSun.Safe
