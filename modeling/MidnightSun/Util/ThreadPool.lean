import MidnightSun.Util.TaskPool

/-!
# `ThreadPool` (src/thread_pool.h)

A task pool and the threads that run its tasks (`_main`).  The calls of the task pool are atomic; `_lock` is held by a
caller from the change of the pool to its notification, and by a worker from the moment it found nothing to do until it
waits.  Workers may wake up without a notification.

* `sleeping_conserves`: while a worker sleeps, no more tasks are queued than workers are about to look for one;
* `done_drained`: once a worker has ended, what is queued was pushed after `stop`, and nobody sleeps.
-/

namespace MidnightSun.ThreadPoolUtil

open Lib TaskPoolUtil

/-- Where a worker is in `_main`. -/
inductive Worker (Id : Type*) where
  /-- `while (_continue)` -/
  | loop
  /-- `pop()`, in that loop -/
  | popping
  | running (task : Option Id)
  /-- takes `_lock` -/
  | acquire
  /-- `if (ready())` -/
  | held
  /-- `if (!_continue)` -/
  | checked
  /-- `next()` -/
  | timing
  /-- in `wait_until` or `wait` -/
  | waiting (deadline : Option ℤ)
  /-- takes `_lock` again, to return from the wait -/
  | woken
  /-- `pop()`, after the loop -/
  | draining
  | runningLast (task : Option Id)
  | done
  deriving DecidableEq

/-- Who has `_lock`: a worker, or a caller that is about to notify. -/
inductive Holder where
  | worker (t : ℕ)
  | notifyOne
  | notifyAll
  deriving DecidableEq

namespace Worker

variable {Id : Type*}

/-- The worker is awake and has no task; it will look for one before it sleeps or ends. -/
def looks : Worker Id → Bool
  | .loop | .popping | .acquire | .held | .woken | .draining => true
  | _ => false

def sleeps : Worker Id → Bool
  | .waiting _ => true
  | _ => false

def locks : Worker Id → Bool
  | .held | .checked | .timing => true
  | _ => false

/-- The worker has found no task, and still has the lock. -/
def settled : Worker Id → Bool
  | .checked | .timing => true
  | _ => false

/-- The worker runs a task. -/
def runs [DecidableEq Id] (task : Option Id) : Worker Id → Bool
  | .running task' | .runningLast task' => decide (task' = task)
  | _ => false

/-- A notified worker. -/
def wake : Worker Id → Worker Id
  | .waiting _ => .woken
  | w => w

end Worker

structure ThreadPool (Id : Type*) where
  /-- the task pool, with its history -/
  log : Logged Id := {}
  now : ℤ := 0
  /-- `_continue` -/
  continues : Bool := false
  workers : List (Worker Id) := []
  /-- the holder of `_lock` -/
  lock : Option Holder := none
  /-- ghost: the tasks that have been run -/
  finished : List (Option Id) := []
  /-- ghost: pushed while `_continue` was false -/
  late : List Id := []

inductive ThreadOp (Id : Type*) where
  | push (task : Id)
  /-- `read` is what `steady_clock::now()` was before the task pool was locked -/
  | pushDelayed (task : Id) (read duration : ℤ)
  | pushDelayedAt (timePoint : ℤ) (task : Id)
  | delay (taskId : Option Id) (read duration : ℤ)
  | cancel (taskId : Option Id)
  | popTask (taskId : Option Id)
  | start (threads : ℕ)
  | stop
  /-- the caller that has the lock notifies; `notify_one` wakes worker `t`, if any worker waits -/
  | notify (t : ℕ)
  /-- worker `t` goes on -/
  | work (t : ℕ)
  /-- a wait ends without a notification -/
  | wake (t : ℕ)
  | tick (d : ℕ)

namespace ThreadPool

variable {Id : Type*} [DecidableEq Id] (s : ThreadPool Id)

def setWorker (t : ℕ) (w : Worker Id) : ThreadPool Id := { s with workers := s.workers.set t w }

/-- A worker calls `pop()`. -/
def popTo (t : ℕ) (task : Option Id → Worker Id) (nothing : Worker Id) : Option (ThreadPool Id) :=
  (s.log.step (.pop s.now)).map fun log =>
    { s with
      log
      workers := s.workers.set t (match (s.log.pool.pop s.now).2 with
        | some id => task id
        | none => nothing) }

/-- One step of `_main` in worker `t`. -/
def work (t : ℕ) : Worker Id → Option (ThreadPool Id)
  | .loop => some (s.setWorker t (if s.continues then .popping else .draining))
  | .popping => s.popTo t .running .acquire
  | .running task => some { s.setWorker t .loop with finished := s.finished ++ [task] }
  | .acquire => if s.lock = none then some { s.setWorker t .held with lock := some (.worker t) } else none
  | .held =>
    if s.log.pool.ready s.now then some { s.setWorker t .loop with lock := none }
    else some (s.setWorker t .checked)
  | .checked =>
    if s.continues then some (s.setWorker t .timing) else some { s.setWorker t .draining with lock := none }
  | .timing => some { s.setWorker t (.waiting s.log.pool.next) with lock := none }
  | .waiting _ => none
  | .woken => if s.lock = none then some (s.setWorker t .loop) else none
  | .draining => s.popTo t .runningLast .done
  | .runningLast task => some { s.setWorker t .draining with finished := s.finished ++ [task] }
  | .done => none

/-- The end of `push`, `pushDelayed` and `stop`. -/
def notify (t : ℕ) : Option (ThreadPool Id) :=
  match s.lock with
  | some .notifyOne =>
    if s.workers.any Worker.sleeps then
      if s.workers[t]?.any Worker.sleeps then some { s.setWorker t .woken with lock := none } else none
    else some { s with lock := none }
  | some .notifyAll => some { s with workers := s.workers.map Worker.wake, lock := none }
  | _ => none

/-- The calls of the task pool that wait for `_lock`, or do not. -/
def call (op : PoolOp Id) (locked : Bool) (lock : Option Holder) : Option (ThreadPool Id) :=
  if locked ∧ s.lock ≠ none then none
  else (s.log.step op).map fun log => { s with log, lock := if locked then lock else s.lock }

def step : ThreadOp Id → Option (ThreadPool Id)
  | .push task =>
    (s.call (.push task) true (some .notifyOne)).map fun t =>
      { t with late := if s.continues then s.late else s.late ++ [task] }
  | .pushDelayed task read duration =>
    if read ≤ s.now then s.call (.pushDelayed task read duration) true (some .notifyAll) else none
  | .pushDelayedAt timePoint task => s.call (.pushDelayedAt timePoint task) true none
  | .delay taskId read duration =>
    if read ≤ s.now then s.call (.delay taskId read duration) false none else none
  | .cancel taskId => s.call (.cancel taskId) false none
  | .popTask taskId => s.call (.popTask taskId) false none
  | .start threads =>
    -- after `join`, if there was a `start` before
    if ∀ w ∈ s.workers, w = .done then
      some { s with continues := true, workers := List.replicate threads .loop, late := [] }
    else none
  | .stop => if s.lock = none then some { s with continues := false, lock := some .notifyAll } else none
  | .notify t => s.notify t
  | .work t => s.workers[t]?.bind (s.work t)
  | .wake t => if s.workers[t]?.any Worker.sleeps then some (s.setWorker t .woken) else none
  | .tick d => some { s with now := s.now + d }

/-! ### The tasks of the pool -/

end ThreadPool

section Pool

variable {Id : Type*} {now : ℤ}

theorem pop_tasks (p : TaskPool Id) : (p.pop now).1.tasks = p.tasks.tail := by
  unfold TaskPool.pop
  split
  next task rest htasks => rw [htasks]; rfl
  next htasks =>
    rw [htasks]
    split
    · exact htasks
    · split
      · rfl
      · exact htasks

theorem pop_timers (p : TaskPool Id) : (p.pop now).1.timerTasks ⊆ p.timerTasks := by
  unfold TaskPool.pop
  split
  · exact List.Subset.refl _
  · split
    · exact List.Subset.refl _
    · split
      · exact (List.dropLast_sublist _).subset
      · exact List.Subset.refl _

theorem tasks_of_ready_eq_false {p : TaskPool Id} (h : p.ready now = false) : p.tasks = [] := by
  unfold TaskPool.ready at h
  rw [Bool.or_eq_false_iff] at h
  exact List.isEmpty_iff.mp (by simpa using h.1)

theorem tasks_of_pop_eq_none {p : TaskPool Id} (h : (p.pop now).2 = none) : p.tasks = [] := by
  refine @tasks_of_ready_eq_false _ now _ ?_
  rw [← TaskPool.isSome_pop, h]
  rfl

/-- The calls that callers make, `push` apart, leave the tasks alone. -/
theorem tasks_step [DecidableEq Id] {l l' : Logged Id} {op : PoolOp Id} (hst : l.step op = some l')
    (hpush : ∀ task, op ≠ .push task) (hpop : ∀ now, op ≠ .pop now) : l'.pool.tasks = l.pool.tasks := by
  cases op with
  | push task => exact absurd rfl (hpush task)
  | pop now => exact absurd rfl (hpop now)
  | pushDelayed task now duration =>
    obtain ⟨-, rfl⟩ := of_ite_some hst
    rfl
  | pushDelayedAt timePoint task =>
    obtain ⟨-, rfl⟩ := of_ite_some hst
    rfl
  | delay taskId now duration =>
    obtain rfl := Option.some.inj hst
    unfold Logged.delay TaskPool.delay
    simp only
    split <;> rfl
  | cancel taskId =>
    obtain rfl := Option.some.inj hst
    unfold TaskPool.cancel
    simp only
    split <;> rfl
  | popTask taskId =>
    obtain rfl := Option.some.inj hst
    unfold TaskPool.popTask
    simp only
    split <;> rfl

end Pool

namespace Worker

variable {Id : Type*}

/-- The worker has left the loop. -/
def ended : Worker Id → Bool
  | .draining | .runningLast _ | .done => true
  | _ => false

def isTiming : Worker Id → Bool
  | .timing => true
  | _ => false

def isDone : Worker Id → Bool
  | .done => true
  | _ => false

end Worker

namespace ThreadPool

variable {Id : Type*} {s t : ThreadPool Id} {i : ℕ} {w w' : Worker Id}

/-- What a step of worker `i` does. -/
structure Moved (s t : ThreadPool Id) (i : ℕ) (w w' : Worker Id) : Prop where
  workers : t.workers = s.workers.set i w'
  continues : t.continues = s.continues
  late : t.late = s.late
  lock : t.lock = if w'.locks then some (.worker i) else if w.locks then none else s.lock
  free : w.locks = false → w'.locks = true → s.lock = none
  tasks : t.log.pool.tasks = s.log.pool.tasks ∨ t.log.pool.tasks = s.log.pool.tasks.tail
  timers : t.log.pool.timerTasks ⊆ s.log.pool.timerTasks
  /-- a worker that stops looking has taken a task, if there was one -/
  looks : t.log.pool.tasks = [] ∨ t.log.pool.tasks.length + (if w.looks then 1 else 0) ≤
    s.log.pool.tasks.length + if w'.looks then 1 else 0
  settles : w'.settled = true → w.settled = true ∨ t.log.pool.tasks = []
  sleeps : w'.sleeps = true → w.isTiming = true
  times : w'.isTiming = true → s.continues = true
  ends : w'.ended = true → w.ended = true ∨ s.continues = false
  ended : w'.isDone = true → t.log.pool.tasks = []

theorem popTo_spec [DecidableEq Id] {task : Option Id → Worker Id} {nothing : Worker Id}
    (h : s.popTo i task nothing = some t) :
    ∃ w', t = { s with log := t.log, workers := s.workers.set i w' } ∧
      t.log.pool.tasks = s.log.pool.tasks.tail ∧ t.log.pool.timerTasks ⊆ s.log.pool.timerTasks ∧
      ((∃ id, w' = task id) ∨ w' = nothing ∧ s.log.pool.tasks = []) := by
  obtain ⟨log, hlog, rfl⟩ := Option.map_eq_some_iff.mp h
  obtain rfl := Option.some.inj hlog
  refine ⟨_, rfl, pop_tasks _, pop_timers _, ?_⟩
  split
  next id hid => exact Or.inl ⟨id, rfl⟩
  next hnone => exact Or.inr ⟨rfl, tasks_of_pop_eq_none hnone⟩

/-- A step that leaves the pool alone. -/
theorem Moved.still (hlog : t.log = s.log) (hworkers : t.workers = s.workers.set i w')
    (hcontinues : t.continues = s.continues) (hlate : t.late = s.late)
    (hlock : t.lock = if w'.locks then some (.worker i) else if w.locks then none else s.lock)
    (hfree : w.locks = false → w'.locks = true → s.lock = none)
    (hlooks : w.looks = true → w'.looks = true ∨ s.log.pool.tasks = [])
    (hsettles : w'.settled = true → w.settled = true ∨ s.log.pool.tasks = [])
    (hsleeps : w'.sleeps = true → w.isTiming = true) (htimes : w'.isTiming = true → s.continues = true)
    (hends : w'.ended = true → w.ended = true ∨ s.continues = false) (hdone : w'.isDone = false) :
    Moved s t i w w' := by
  refine ⟨hworkers, hcontinues, hlate, hlock, hfree, Or.inl (by rw [hlog]), ?_, ?_, by rwa [hlog], hsleeps, htimes,
    hends, ?_⟩
  · rw [hlog]
    exact List.Subset.refl _
  · rw [hlog]
    cases hw : w.looks with
    | false => exact Or.inr (Nat.le_add_right _ _)
    | true =>
      rcases hlooks hw with hw' | hnil
      · rw [hw']
        exact Or.inr (Nat.le_refl _)
      · exact Or.inl hnil
  · intro htrue
    rw [hdone] at htrue
    cases htrue

/-- A worker that looks for a task calls `pop()`. -/
theorem Moved.ofPop [DecidableEq Id] {task : Option Id → Worker Id} {nothing : Worker Id}
    (h : s.popTo i task nothing = some t)
    (hlocks : w.locks = false) (hlooks : w.looks = true)
    (htask : ∀ id, (task id).locks = false ∧ (task id).looks = false ∧ (task id).sleeps = false ∧
      (task id).settled = false ∧ (task id).isTiming = false ∧ (task id).isDone = false ∧
      ((task id).ended = true → w.ended = true))
    (hnothing : nothing.locks = false ∧ nothing.sleeps = false ∧ nothing.settled = false ∧ nothing.isTiming = false ∧
      (nothing.ended = true → w.ended = true)) :
    ∃ w', Moved s t i w w' := by
  obtain ⟨w', ht, htasks, htimers, hw'⟩ := popTo_spec h
  refine ⟨w', ?_⟩
  rcases hw' with ⟨id, rfl⟩ | ⟨rfl, hnil⟩
  · obtain ⟨h₁, h₂, h₃, h₄, h₅, h₆, h₇⟩ := htask id
    refine ⟨by rw [ht], by rw [ht], by rw [ht], by rw [h₁, hlocks, ht]; rfl, by simp [h₁], Or.inr htasks, htimers, ?_,
      by simp [h₄], by simp [h₃], by simp [h₅], fun he => Or.inl (h₇ he), by simp [h₆]⟩
    rw [htasks, hlooks, h₂]
    cases s.log.pool.tasks with
    | nil => exact Or.inl rfl
    | cons task rest => exact Or.inr (Nat.le_refl _)
  · obtain ⟨h₁, h₂, h₃, h₄, h₅⟩ := hnothing
    have htnil : t.log.pool.tasks = [] := by rw [htasks, hnil]; rfl
    exact ⟨by rw [ht], by rw [ht], by rw [ht], by rw [h₁, hlocks, ht]; rfl, by simp [h₁], Or.inr htasks, htimers,
      Or.inl htnil, by simp [h₃], by simp [h₂], by simp [h₄], fun he => Or.inl (h₅ he), fun _ => htnil⟩

theorem work_moved [DecidableEq Id] (hlock : w.locks = true → s.lock = some (.worker i)) (h : s.work i w = some t) :
    ∃ w', Moved s t i w w' := by
  cases w with
  | loop =>
    obtain rfl := Option.some.inj h
    cases hc : s.continues with
    | true => exact ⟨.popping, .still rfl rfl rfl rfl rfl nofun (fun _ => Or.inl rfl) nofun nofun nofun nofun rfl⟩
    | false =>
      exact ⟨.draining, .still rfl rfl rfl rfl rfl nofun (fun _ => Or.inl rfl) nofun nofun nofun (fun _ => Or.inr hc)
        rfl⟩
  | popping =>
    exact Moved.ofPop h rfl rfl (fun id => ⟨rfl, rfl, rfl, rfl, rfl, rfl, nofun⟩) ⟨rfl, rfl, rfl, rfl, nofun⟩
  | running task =>
    obtain rfl := Option.some.inj h
    exact ⟨.loop, .still rfl rfl rfl rfl rfl nofun nofun nofun nofun nofun nofun rfl⟩
  | acquire =>
    obtain ⟨hfree, rfl⟩ := of_ite_some h
    exact ⟨.held, .still rfl rfl rfl rfl rfl (fun _ _ => hfree) (fun _ => Or.inl rfl) nofun nofun nofun nofun rfl⟩
  | held =>
    simp only [work] at h
    split at h
    next =>
      obtain rfl := Option.some.inj h
      exact ⟨.loop, .still rfl rfl rfl rfl rfl nofun (fun _ => Or.inl rfl) nofun nofun nofun nofun rfl⟩
    next hready =>
      obtain rfl := Option.some.inj h
      have hnil := tasks_of_ready_eq_false (Bool.eq_false_iff.mpr hready)
      exact ⟨.checked, .still rfl rfl rfl rfl (hlock rfl) nofun (fun _ => Or.inr hnil) (fun _ => Or.inr hnil) nofun
        nofun nofun rfl⟩
  | checked =>
    simp only [work] at h
    split at h
    next hc =>
      obtain rfl := Option.some.inj h
      exact ⟨.timing, .still rfl rfl rfl rfl (hlock rfl) nofun nofun (fun _ => Or.inl rfl) nofun (fun _ => hc) nofun
        rfl⟩
    next hc =>
      obtain rfl := Option.some.inj h
      exact ⟨.draining, .still rfl rfl rfl rfl rfl nofun nofun nofun nofun nofun
        (fun _ => Or.inr (Bool.eq_false_iff.mpr hc)) rfl⟩
  | timing =>
    obtain rfl := Option.some.inj h
    exact ⟨.waiting _, .still rfl rfl rfl rfl rfl nofun nofun nofun (fun _ => rfl) nofun nofun rfl⟩
  | waiting deadline => cases h
  | woken =>
    obtain ⟨-, rfl⟩ := of_ite_some h
    exact ⟨.loop, .still rfl rfl rfl rfl rfl nofun (fun _ => Or.inl rfl) nofun nofun nofun nofun rfl⟩
  | draining =>
    exact Moved.ofPop h rfl rfl (fun id => ⟨rfl, rfl, rfl, rfl, rfl, rfl, fun _ => rfl⟩)
      ⟨rfl, rfl, rfl, rfl, fun _ => rfl⟩
  | runningLast task =>
    obtain rfl := Option.some.inj h
    exact ⟨.draining, .still rfl rfl rfl rfl rfl nofun nofun nofun nofun nofun (fun _ => Or.inl rfl) rfl⟩
  | done => cases h

/-! ### The invariant of the workers -/

structure Inv (s : ThreadPool Id) : Prop where
  lockOf : ∀ i w, s.workers[i]? = some w → (w.locks = true ↔ s.lock = some (.worker i))
  lockIn : ∀ i, s.lock = some (.worker i) → i < s.workers.length
  settled : ∀ w ∈ s.workers, w.settled = true → s.log.pool.tasks = []
  conserves : (∃ w ∈ s.workers, w.sleeps = true) →
    s.log.pool.tasks.length ≤ s.workers.countP Worker.looks + if s.lock = some .notifyOne then 1 else 0
  notTiming : s.continues = false → ∀ w ∈ s.workers, w.isTiming = false
  awake : s.continues = false → s.lock ≠ some .notifyAll → ∀ w ∈ s.workers, w.sleeps = false
  ended : ∀ w ∈ s.workers, w.ended = true → s.continues = false
  done : ∀ w ∈ s.workers, w.isDone = true → ∀ id ∈ s.log.pool.tasks, id ∈ s.late

theorem countP_set_add {p : Worker Id → Bool} {l : List (Worker Id)} (hi : l[i]? = some w) :
    (l.set i w').countP p + (if p w then 1 else 0) = l.countP p + if p w' then 1 else 0 := by
  obtain ⟨hlt, hw⟩ := List.getElem?_eq_some_iff.mp hi
  have hpos : p w = true → 0 < l.countP p := fun hp => List.countP_pos_iff.mpr ⟨w, List.mem_of_getElem? hi, hp⟩
  rw [List.countP_set hlt, hw]
  by_cases hp : p w = true
  · have := hpos hp
    rw [if_pos hp]
    omega
  · rw [if_neg hp]
    omega

theorem locks_of_settled (h : w.settled = true) : w.locks = true := by
  cases w with
  | checked | timing => rfl
  | _ => cases h

section Move

variable (h : s.Inv) (hi : s.workers[i]? = some w) (hm : Moved s t i w w')

include h hi hm

theorem Moved.lock_eq_iff {holder : Holder} (hholder : ∀ j, holder ≠ .worker j) :
    t.lock = some holder ↔ s.lock = some holder := by
  have hlock := h.lockOf i w hi
  have hne : ¬ some (Holder.worker i) = some holder := fun heq => hholder i (Option.some.inj heq).symm
  rw [hm.lock]
  by_cases hw : w.locks = true
  · rw [hlock.mp hw, if_pos hw]
    split
    · exact Iff.rfl
    · exact ⟨nofun, fun heq => absurd heq hne⟩
  · by_cases hw' : w'.locks = true
    · rw [if_pos hw', hm.free (Bool.eq_false_iff.mpr hw) hw']
      exact ⟨fun heq => absurd heq hne, nofun⟩
    · rw [if_neg hw', if_neg hw]

theorem Moved.lockOf (j : ℕ) (v : Worker Id) (hv : t.workers[j]? = some v) :
    v.locks = true ↔ t.lock = some (.worker j) := by
  have hlock := h.lockOf i w hi
  rw [hm.workers, List.getElem?_set] at hv
  rw [hm.lock]
  split at hv
  next heq =>
    subst heq
    split at hv
    next hlt =>
      obtain rfl := Option.some.inj hv
      by_cases hw' : w'.locks = true
      · rw [if_pos hw']
        exact ⟨fun _ => rfl, fun _ => hw'⟩
      · rw [if_neg hw']
        refine ⟨fun hv' => absurd hv' hw', fun heq => ?_⟩
        split at heq
        · cases heq
        next hw => exact absurd (hlock.mpr heq) hw
    next => cases hv
  next hne =>
    have hother := h.lockOf j v hv
    have hji : ¬ some (Holder.worker i) = some (.worker j) := by
      rintro heq
      cases heq
      exact hne rfl
    by_cases hw : w.locks = true
    · rw [hlock.mp hw] at hother
      rw [if_pos hw]
      split
      · exact hother
      · exact ⟨fun hv' => absurd (hother.mp hv') hji, nofun⟩
    · by_cases hw' : w'.locks = true
      · rw [hm.free (Bool.eq_false_iff.mpr hw) hw'] at hother
        rw [if_pos hw']
        exact ⟨fun hv' => absurd (hother.mp hv') nofun, fun heq => absurd heq hji⟩
      · rw [if_neg hw', if_neg hw]
        exact hother

theorem Moved.lockIn (j : ℕ) (hj : t.lock = some (.worker j)) : j < t.workers.length := by
  rw [hm.workers, List.length_set]
  rw [hm.lock] at hj
  split at hj
  · cases hj
    exact (List.getElem?_eq_some_iff.mp hi).1
  · split at hj
    · cases hj
    · exact h.lockIn j hj

theorem Moved.inv : t.Inv := by
  have hmem := List.mem_of_getElem? hi
  have hnil : s.log.pool.tasks = [] → t.log.pool.tasks = [] := by
    intro hs
    rcases hm.tasks with ht | ht
    · rw [ht, hs]
    · rw [ht, hs]
      rfl
  have htasks : ∀ id ∈ t.log.pool.tasks, id ∈ s.log.pool.tasks := by
    intro id hid
    rcases hm.tasks with ht | ht
    · rwa [ht] at hid
    · rw [ht] at hid
      exact List.mem_of_mem_tail hid
  have hcases : ∀ v ∈ t.workers, v ∈ s.workers ∨ v = w' := by
    intro v hv
    rw [hm.workers] at hv
    exact List.mem_or_eq_of_mem_set hv
  have htiming : w.isTiming = true → w.settled = true := by
    intro hw
    cases w with
    | timing => rfl
    | _ => cases hw
  refine ⟨hm.lockOf h hi, hm.lockIn h hi, ?_, ?_, ?_, ?_, ?_, ?_⟩
  · intro v hv hsettled
    rcases hcases v hv with hv | rfl
    · exact hnil (h.settled v hv hsettled)
    · rcases hm.settles hsettled with hw | ht
      · exact hnil (h.settled w hmem hw)
      · exact ht
  · rintro ⟨v, hv, hsleeps⟩
    rcases hcases v hv with hv | rfl
    · have hle := h.conserves ⟨v, hv, hsleeps⟩
      have hcount := @countP_set_add _ _ _ w' Worker.looks _ hi
      have hnotify : t.lock = some .notifyOne ↔ s.lock = some .notifyOne := hm.lock_eq_iff h hi nofun
      simp only [hnotify, hm.workers]
      rcases hm.looks with ht | hlooks
      · rw [ht]
        exact Nat.zero_le _
      · omega
    · rw [hnil (h.settled w hmem (htiming (hm.sleeps hsleeps)))]
      exact Nat.zero_le _
  · intro hc v hv
    rw [hm.continues] at hc
    rcases hcases v hv with hv | rfl
    · exact h.notTiming hc v hv
    · apply Bool.eq_false_iff.mpr
      intro hv'
      rw [hm.times hv'] at hc
      cases hc
  · intro hc hall v hv
    rw [hm.continues] at hc
    rcases hcases v hv with hv | rfl
    · have hnotify : t.lock = some .notifyAll ↔ s.lock = some .notifyAll := hm.lock_eq_iff h hi nofun
      exact h.awake hc (fun heq => hall (hnotify.mpr heq)) v hv
    · apply Bool.eq_false_iff.mpr
      intro hv'
      have hw := h.notTiming hc w hmem
      rw [hm.sleeps hv'] at hw
      cases hw
  · intro v hv hended
    rw [hm.continues]
    rcases hcases v hv with hv | rfl
    · exact h.ended v hv hended
    · rcases hm.ends hended with hw | hc
      · exact h.ended w hmem hw
      · exact hc
  · intro v hv hdone id hid
    rw [hm.late]
    rcases hcases v hv with hv | rfl
    · exact h.done v hv hdone id (htasks id hid)
    · rw [hm.ended hdone] at hid
      cases hid

end Move

/-! ### The other steps -/

section Others

variable (h : s.Inv)

include h

theorem Inv.unlocked_of_lock (hlock : ∀ i, s.lock ≠ some (.worker i)) : ∀ w ∈ s.workers, w.locks = false := by
  intro w hw
  obtain ⟨i, hi⟩ := List.mem_iff_getElem?.mp hw
  apply Bool.eq_false_iff.mpr
  intro hlocks
  exact hlock i ((h.lockOf i w hi).mp hlocks)

/-- Calls that leave the workers and the tasks alone. -/
theorem Inv.ofCall (hworkers : t.workers = s.workers) (htasks : t.log.pool.tasks = s.log.pool.tasks)
    (hcontinues : t.continues = s.continues) (hlate : t.late = s.late)
    (hlock : t.lock = s.lock ∨ s.lock = none ∧ ∀ i, t.lock ≠ some (.worker i)) : t.Inv := by
  have hone : s.lock = some .notifyOne → t.lock = some .notifyOne := by
    intro hs
    rcases hlock with ht | ⟨hnone, -⟩
    · rw [ht, hs]
    · rw [hs] at hnone
      cases hnone
  refine ⟨?_, ?_, ?_, ?_, ?_, ?_, ?_, ?_⟩
  · intro i w hi
    rw [hworkers] at hi
    have hs := h.lockOf i w hi
    rcases hlock with ht | ⟨hnone, ht⟩
    · rw [ht]
      exact hs
    · rw [hnone] at hs
      exact ⟨fun hw => absurd (hs.mp hw) nofun, fun heq => absurd heq (ht i)⟩
  · intro i hi
    rw [hworkers]
    rcases hlock with ht | ⟨-, ht⟩
    · exact h.lockIn i (ht ▸ hi)
    · exact absurd hi (ht i)
  · rw [hworkers, htasks]
    exact h.settled
  · rw [hworkers, htasks]
    intro hsleeps
    have hle := h.conserves hsleeps
    by_cases hs : s.lock = some .notifyOne
    · rw [if_pos hs] at hle
      rw [if_pos (hone hs)]
      exact hle
    · rw [if_neg hs] at hle
      omega
  · rw [hworkers, hcontinues]
    exact h.notTiming
  · rw [hworkers, hcontinues]
    intro hc hall
    refine h.awake hc ?_
    intro hs
    rcases hlock with ht | ⟨hnone, -⟩
    · exact hall (ht.trans hs)
    · rw [hs] at hnone
      cases hnone
  · rw [hworkers, hcontinues]
    exact h.ended
  · rw [hworkers, htasks, hlate]
    exact h.done

theorem Inv.push {log : Logged Id} {task : Id} (hlock : s.lock = none)
    (htasks : log.pool.tasks = s.log.pool.tasks ++ [task]) :
    Inv { s with log, lock := some .notifyOne, late := if s.continues then s.late else s.late ++ [task] } := by
  have hunlocked := h.unlocked_of_lock (by rw [hlock]; nofun)
  refine ⟨?_, nofun, ?_, ?_, h.notTiming, ?_, h.ended, ?_⟩
  · intro i w hi
    rw [hunlocked w (List.mem_of_getElem? hi)]
    exact ⟨nofun, nofun⟩
  · intro w hw hsettled
    have := hunlocked w hw
    rw [locks_of_settled hsettled] at this
    cases this
  · intro hsleeps
    have hle := h.conserves hsleeps
    rw [hlock] at hle
    show log.pool.tasks.length ≤ s.workers.countP Worker.looks + 1
    rw [htasks, List.length_append]
    simpa using hle
  · intro hc _ w hw
    exact h.awake hc (by rw [hlock]; nofun) w hw
  · intro w hw hdone id hid
    have hc : s.continues = false := by
      apply h.ended w hw
      cases w with
      | done => rfl
      | _ => cases hdone
    show id ∈ if s.continues then s.late else s.late ++ [task]
    have hid' : id ∈ log.pool.tasks := hid
    rw [htasks] at hid'
    rw [hc]
    rcases List.mem_append.mp hid' with hid' | hid'
    · exact List.mem_append_left _ (h.done w hw hdone id hid')
    · exact List.mem_append_right _ hid'

theorem Inv.stop (hlock : s.lock = none) : Inv { s with continues := false, lock := some .notifyAll } := by
  have hunlocked := h.unlocked_of_lock (by rw [hlock]; nofun)
  refine ⟨?_, nofun, h.settled, ?_, ?_, fun _ hall => absurd rfl hall, fun _ _ _ => rfl, h.done⟩
  · intro i w hi
    rw [hunlocked w (List.mem_of_getElem? hi)]
    exact ⟨nofun, nofun⟩
  · intro hsleeps
    have hle := h.conserves hsleeps
    rw [hlock] at hle
    exact hle
  · intro _ w hw
    have := hunlocked w hw
    cases w with
    | timing => cases this
    | _ => rfl

/-- A worker that sleeps, woken by a notification or by itself. -/
theorem Inv.setWoken {deadline : Option ℤ} (hi : s.workers[i]? = some (.waiting deadline)) {lock : Option Holder}
    (hlock : lock = s.lock ∨ s.lock = some .notifyOne ∧ lock = none) :
    Inv { s.setWorker i .woken with lock } := by
  have hcases : ∀ v ∈ s.workers.set i .woken, v ∈ s.workers ∨ v = .woken := fun _ => List.mem_or_eq_of_mem_set
  have hworker : ∀ j, lock = some (.worker j) ↔ s.lock = some (.worker j) := by
    intro j
    rcases hlock with rfl | ⟨hs, rfl⟩
    · exact Iff.rfl
    · rw [hs]
      exact ⟨nofun, nofun⟩
  refine ⟨?_, ?_, ?_, ?_, ?_, ?_, ?_, ?_⟩
  · intro j v hv
    have hv' : (s.workers.set i .woken)[j]? = some v := hv
    show v.locks = true ↔ lock = some (.worker j)
    rw [hworker j]
    rw [List.getElem?_set] at hv'
    split at hv'
    next heq =>
      subst heq
      split at hv'
      · obtain rfl := Option.some.inj hv'
        exact h.lockOf i (.waiting deadline) hi
      · cases hv'
    next => exact h.lockOf j v hv'
  · intro j hj
    show j < (s.workers.set i .woken).length
    rw [List.length_set]
    exact h.lockIn j ((hworker j).mp hj)
  · intro v hv hsettled
    rcases hcases v hv with hv | rfl
    · exact h.settled v hv hsettled
    · cases hsettled
  · rintro ⟨v, hv, hsleeps⟩
    rcases hcases v hv with hv | rfl
    · have hle := h.conserves ⟨v, hv, hsleeps⟩
      have hcount := @countP_set_add _ _ _ .woken Worker.looks _ hi
      have hwoken : Worker.looks (.woken : Worker Id) = true := rfl
      have hwaiting : Worker.looks (.waiting deadline : Worker Id) = false := rfl
      rw [hwoken, hwaiting] at hcount
      show s.log.pool.tasks.length ≤
        (s.workers.set i .woken).countP Worker.looks + if lock = some .notifyOne then 1 else 0
      rcases hlock with rfl | ⟨hs, rfl⟩
      · simp only [Bool.false_eq_true, if_false, if_true] at hcount
        omega
      · rw [if_pos hs] at hle
        simp only [Bool.false_eq_true, if_false, if_true] at hcount
        omega
    · cases hsleeps
  · intro hc v hv
    rcases hcases v hv with hv | rfl
    · exact h.notTiming hc v hv
    · rfl
  · intro hc hall v hv
    rcases hcases v hv with hv | rfl
    · refine h.awake hc ?_ v hv
      rcases hlock with rfl | ⟨hs, -⟩
      · exact hall
      · rw [hs]
        nofun
    · rfl
  · intro v hv hended
    rcases hcases v hv with hv | rfl
    · exact h.ended v hv hended
    · cases hended
  · intro v hv hdone
    rcases hcases v hv with hv | rfl
    · exact h.done v hv hdone
    · cases hdone

/-- `notify_one` finds nobody asleep. -/
theorem Inv.notifyNobody (hs : s.lock = some .notifyOne) (hnobody : s.workers.any Worker.sleeps = false) :
    Inv { s with lock := none } := by
  have hawake : ∀ w ∈ s.workers, w.sleeps = false := by
    intro w hw
    exact Bool.eq_false_iff.mpr fun hsleeps => by simp [List.any_eq_false.mp hnobody w hw] at hsleeps
  have hunlocked := h.unlocked_of_lock (by rw [hs]; nofun)
  refine ⟨?_, nofun, h.settled, ?_, h.notTiming, fun _ _ => hawake, h.ended, h.done⟩
  · intro i w hi
    rw [hunlocked w (List.mem_of_getElem? hi)]
    exact ⟨nofun, nofun⟩
  · rintro ⟨w, hw, hsleeps⟩
    rw [hawake w hw] at hsleeps
    cases hsleeps

theorem Inv.notifyAll (hs : s.lock = some .notifyAll) :
    Inv { s with workers := s.workers.map Worker.wake, lock := none } := by
  have hmem : ∀ v ∈ s.workers.map Worker.wake, v = .woken ∨ v ∈ s.workers ∧ v.sleeps = false := by
    intro v hv
    obtain ⟨w, hw, rfl⟩ := List.mem_map.mp hv
    cases w with
    | waiting deadline => exact Or.inl rfl
    | _ => exact Or.inr ⟨hw, rfl⟩
  have hunlocked := h.unlocked_of_lock (by rw [hs]; nofun)
  refine ⟨?_, nofun, ?_, ?_, ?_, ?_, ?_, ?_⟩
  · intro i v hv
    rcases hmem v (List.mem_of_getElem? hv) with rfl | ⟨hv', -⟩
    · exact ⟨nofun, nofun⟩
    · rw [hunlocked v hv']
      exact ⟨nofun, nofun⟩
  · intro v hv hsettled
    rcases hmem v hv with rfl | ⟨hv', -⟩
    · cases hsettled
    · exact h.settled v hv' hsettled
  · rintro ⟨v, hv, hsleeps⟩
    rcases hmem v hv with rfl | ⟨-, hawake⟩
    · cases hsleeps
    · rw [hawake] at hsleeps
      cases hsleeps
  · intro hc v hv
    rcases hmem v hv with rfl | ⟨hv', -⟩
    · rfl
    · exact h.notTiming hc v hv'
  · intro _ _ v hv
    rcases hmem v hv with rfl | ⟨-, hawake⟩
    · rfl
    · exact hawake
  · intro v hv hended
    rcases hmem v hv with rfl | ⟨hv', -⟩
    · cases hended
    · exact h.ended v hv' hended
  · intro v hv hdone
    rcases hmem v hv with rfl | ⟨hv', -⟩
    · cases hdone
    · exact h.done v hv' hdone

theorem Inv.start (threads : ℕ) (hdone : ∀ w ∈ s.workers, w = .done) :
    Inv { s with continues := true, workers := List.replicate threads .loop, late := [] } := by
  have hmem : ∀ v ∈ List.replicate threads (Worker.loop : Worker Id), v = .loop := fun _ => List.eq_of_mem_replicate
  have hfree : ∀ i, s.lock ≠ some (.worker i) := by
    intro i hi
    have hget := List.getElem?_eq_getElem (h.lockIn i hi)
    have hlocks := (h.lockOf i _ hget).mpr hi
    rw [hdone _ (List.mem_of_getElem? hget)] at hlocks
    cases hlocks
  refine ⟨?_, fun i hi => absurd hi (hfree i), ?_, ?_, nofun, nofun, ?_, ?_⟩
  · intro i v hv
    rw [hmem v (List.mem_of_getElem? hv)]
    exact ⟨nofun, fun hi => absurd hi (hfree i)⟩
  · intro v hv hsettled
    rw [hmem v hv] at hsettled
    cases hsettled
  · rintro ⟨v, hv, hsleeps⟩
    rw [hmem v hv] at hsleeps
    cases hsleeps
  · intro v hv hended
    rw [hmem v hv] at hended
    cases hended
  · intro v hv hdone'
    rw [hmem v hv] at hdone'
    cases hdone'

end Others

theorem inv_notify (h : s.Inv) (hst : s.notify i = some t) : t.Inv := by
  unfold notify at hst
  split at hst
  next hs =>
    split at hst
    next =>
      obtain ⟨hsleeps, rfl⟩ := of_ite_some hst
      obtain ⟨w, hi, hw⟩ := (Option.any_eq_true _ _).mp hsleeps
      cases w with
      | waiting deadline => exact h.setWoken hi (Or.inr ⟨hs, rfl⟩)
      | _ => cases hw
    next hnobody =>
      obtain rfl := Option.some.inj hst
      exact h.notifyNobody hs (Bool.eq_false_iff.mpr hnobody)
  next hs =>
    obtain rfl := Option.some.inj hst
    exact h.notifyAll hs
  · cases hst

theorem inv_init : Inv ({} : ThreadPool Id) :=
  ⟨nofun, nofun, nofun, nofun, nofun, nofun, nofun, nofun⟩

variable [DecidableEq Id]

theorem inv_call (h : s.Inv) {op : PoolOp Id} {locked : Bool} {lock : Option Holder}
    (hst : s.call op locked lock = some t) (hpush : ∀ task, op ≠ .push task) (hpop : ∀ now, op ≠ .pop now)
    (hlock : ∀ i, lock ≠ some (.worker i)) : t.Inv := by
  unfold call at hst
  split at hst
  · cases hst
  next hnot =>
    obtain ⟨log, hlog, rfl⟩ := Option.map_eq_some_iff.mp hst
    refine h.ofCall rfl (tasks_step hlog hpush hpop) rfl rfl ?_
    cases locked with
    | false => exact Or.inl rfl
    | true => exact Or.inr ⟨by simpa using hnot, hlock⟩

theorem inv_push (h : s.Inv) {task : Id} (hst : s.step (.push task) = some t) : t.Inv := by
  obtain ⟨u, hu, rfl⟩ := Option.map_eq_some_iff.mp hst
  unfold call at hu
  split at hu
  · cases hu
  next hnot =>
    obtain ⟨log, hlog, rfl⟩ := Option.map_eq_some_iff.mp hu
    obtain ⟨-, rfl⟩ := of_ite_some hlog
    exact h.push (by simpa using hnot) rfl

theorem inv_step (h : s.Inv) {op : ThreadOp Id} (hst : s.step op = some t) : t.Inv := by
  cases op with
  | push task => exact inv_push h hst
  | pushDelayed task read duration =>
    simp only [step] at hst
    split at hst
    · exact inv_call h hst nofun nofun nofun
    · cases hst
  | pushDelayedAt timePoint task => exact inv_call h hst nofun nofun nofun
  | delay taskId read duration =>
    simp only [step] at hst
    split at hst
    · exact inv_call h hst nofun nofun nofun
    · cases hst
  | cancel taskId => exact inv_call h hst nofun nofun nofun
  | popTask taskId => exact inv_call h hst nofun nofun nofun
  | start threads =>
    obtain ⟨hdone, rfl⟩ := of_ite_some hst
    exact h.start threads hdone
  | stop =>
    obtain ⟨hlock, rfl⟩ := of_ite_some hst
    exact h.stop hlock
  | notify i => exact inv_notify h hst
  | work i =>
    obtain ⟨w, hi, hw⟩ := Option.bind_eq_some_iff.mp hst
    obtain ⟨w', hm⟩ := work_moved (fun hlocks => (h.lockOf i w hi).mp hlocks) hw
    exact hm.inv h hi
  | wake i =>
    obtain ⟨hsleeps, rfl⟩ := of_ite_some hst
    obtain ⟨w, hi, hw⟩ := (Option.any_eq_true _ _).mp hsleeps
    cases w with
    | waiting deadline => exact h.setWoken hi (Or.inl rfl)
    | _ => cases hw
  | tick d =>
    obtain rfl := Option.some.inj hst
    exact h.ofCall rfl rfl rfl rfl (Or.inl rfl)

theorem run_inv {ops : List (ThreadOp Id)} (h : Run (ofPartial step) {} ops s) : s.Inv :=
  h.invariant (fun _ _ _ hs hst => inv_step hs hst) inv_init

/-- **No wake-up is lost.**  While a worker sleeps, every queued task has a worker that is awake and about to look for
one, except for a task whose caller has yet to notify. -/
theorem sleeping_conserves {ops : List (ThreadOp Id)} (h : Run (ofPartial step) {} ops s)
    (hsleeps : ∃ w ∈ s.workers, w.sleeps = true) :
    s.log.pool.tasks.length ≤ s.workers.countP Worker.looks + if s.lock = some .notifyOne then 1 else 0 :=
  (run_inv h).conserves hsleeps

/-- Once a worker has ended, nobody sleeps but until the notification of a caller, and what is queued was pushed after
`stop`. -/
theorem done_drained {ops : List (ThreadOp Id)} (h : Run (ofPartial step) {} ops s) (hw : w ∈ s.workers)
    (hdone : w = .done) :
    s.continues = false ∧ (s.lock ≠ some .notifyAll → ∀ v ∈ s.workers, v.sleeps = false) ∧
      ∀ id ∈ s.log.pool.tasks, id ∈ s.late := by
  subst hdone
  have hinv := run_inv h
  have hstopped := hinv.ended _ hw rfl
  exact ⟨hstopped, hinv.awake hstopped, hinv.done _ hw rfl⟩

/-- One worker goes to sleep, and a task is pushed. -/
theorem sleeping_conserves_pushed : ∃ t : ThreadPool ℕ,
    t.log.pool.tasks = [7] ∧ (∃ w ∈ t.workers, w.sleeps = true) ∧
      t.log.pool.tasks.length ≤ t.workers.countP Worker.looks + if t.lock = some .notifyOne then 1 else 0 := by
  obtain ⟨t, hrun, htasks, hsleeps⟩ := exists_run_execWhere_and (f := step) (G := fun _ _ => True)
    (s := ({} : ThreadPool ℕ)) (l := .start 1 :: List.replicate 6 (.work 0) ++ [.push 7])
    (P := fun t => t.log.pool.tasks = [7] ∧ ∃ w ∈ t.workers, w.sleeps = true) (by decide)
  exact ⟨t, htasks, hsleeps, sleeping_conserves hrun.of_guarded hsleeps⟩

end ThreadPool

end MidnightSun.ThreadPoolUtil
