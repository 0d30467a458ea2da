import MidnightSun.Util.ThreadPool

/-!
# What the threads of a `ThreadPool` run (src/thread_pool.h)

* `all_done_finished`: when all workers have ended, what was pushed before `stop` has been run, but for timer tasks that
  were not due at the last look for a task;
* `sleeping_punctual_iff`: when exactly no worker sleeps past the time of a timer task.
-/

namespace MidnightSun.ThreadPoolUtil

open Lib TaskPoolUtil

namespace ThreadPool

variable {Id : Type*} [DecidableEq Id] {s t : ThreadPool Id} {i : ℕ} {w w' : Worker Id}

/-! ### What has been run -/

/-- No waiting timer task is taken by its id or brought forward past another one. -/
def Orderly (s : ThreadPool Id) : ThreadOp Id → Prop
  | .delay taskId read duration => s.log.Orderly (.delay taskId read duration)
  | .popTask taskId => s.log.Orderly (.popTask taskId)
  | _ => True

instance (s : ThreadPool Id) : (op : ThreadOp Id) → Decidable (s.Orderly op)
  | .delay taskId read duration => inferInstanceAs (Decidable (s.log.Orderly (.delay taskId read duration)))
  | .popTask taskId => inferInstanceAs (Decidable (s.log.Orderly (.popTask taskId)))
  | .push _ | .pushDelayed _ _ _ | .pushDelayedAt _ _ | .cancel _ | .start _ | .stop | .notify _ | .work _ | .wake _
  | .tick _ => instDecidableTrue

/-- What was returned by the task pool has been run or is being run. -/
structure Accounted (s : ThreadPool Id) : Prop where
  log : s.log.Inv
  ran : ∀ x, s.log.returned.count x = s.finished.count x + s.workers.countP (Worker.runs x)

theorem returned_step {l l' : Logged Id} {op : PoolOp Id} (hst : l.step op = some l') (hG : l.Orderly op)
    (hpop : ∀ now, op ≠ .pop now) : l'.returned = l.returned := by
  cases op with
  | pop now => exact absurd rfl (hpop now)
  | push task =>
    obtain ⟨-, rfl⟩ := of_ite_some hst
    rfl
  | pushDelayed task now duration =>
    obtain ⟨-, rfl⟩ := of_ite_some hst
    rfl
  | pushDelayedAt timePoint task =>
    obtain ⟨-, rfl⟩ := of_ite_some hst
    rfl
  | delay taskId now duration =>
    obtain rfl := Option.some.inj hst
    rfl
  | cancel taskId =>
    obtain rfl := Option.some.inj hst
    rfl
  | popTask taskId =>
    obtain rfl := Option.some.inj hst
    have hpop : l.pool.popTask taskId = (l.pool, none) := by
      simp only [TaskPool.popTask, TaskPool.not_waiting_iff.mp hG]
    rw [hpop]
    exact List.append_nil _

theorem accounted_call (h : s.Accounted) {op : PoolOp Id} {locked : Bool} {lock : Option Holder}
    (hst : s.call op locked lock = some t) (hG : s.log.Orderly op) (hpop : ∀ now, op ≠ .pop now) : t.Accounted := by
  unfold call at hst
  split at hst
  · cases hst
  next =>
    obtain ⟨log, hlog, rfl⟩ := Option.map_eq_some_iff.mp hst
    refine ⟨h.log.step hG hlog, fun x => ?_⟩
    rw [returned_step hlog hG hpop]
    exact h.ran x

theorem Accounted.ofSet (h : s.Accounted) (hi : s.workers[i]? = some w) (hlog : t.log = s.log)
    (hworkers : t.workers = s.workers.set i w')
    (hruns : ∀ x, t.finished.count x + (if Worker.runs x w' then 1 else 0) =
      s.finished.count x + if Worker.runs x w then 1 else 0) : t.Accounted := by
  refine ⟨by rw [hlog]; exact h.log, fun x => ?_⟩
  have hran := h.ran x
  have hcount := @countP_set_add _ _ _ w' (Worker.runs x) _ hi
  have hx := hruns x
  rw [hlog, hworkers]
  omega

/-- A worker that runs nothing calls `pop()`. -/
theorem accounted_popTo (h : s.Accounted) (hi : s.workers[i]? = some w) (hw : ∀ x, Worker.runs x w = false)
    {task : Option Id → Worker Id} {nothing : Worker Id}
    (htask : ∀ id x, Worker.runs x (task id) = decide (id = x)) (hnothing : ∀ x, Worker.runs x nothing = false)
    (hst : s.popTo i task nothing = some t) : t.Accounted := by
  obtain ⟨log, hlog, rfl⟩ := Option.map_eq_some_iff.mp hst
  have horderly : s.log.Orderly (.pop s.now) := trivial
  have hinv := h.log.step horderly hlog
  obtain rfl := Option.some.inj hlog
  refine ⟨hinv, fun x => ?_⟩
  have hran := h.ran x
  show (s.log.returned ++ (s.log.pool.pop s.now).2.toList).count x =
    s.finished.count x + (s.workers.set i _).countP (Worker.runs x)
  rw [List.count_append, hran]
  cases (s.log.pool.pop s.now).2 with
  | some id =>
    have hcount := @countP_set_add _ _ _ (task id) (Worker.runs x) _ hi
    rw [hw x, htask id x] at hcount
    rw [Option.toList_some, List.count_singleton]
    by_cases hx : id = x
    · simp only [hx, decide_true, if_true, Bool.false_eq_true, if_false, beq_self_eq_true] at hcount ⊢
      omega
    · have hne : (id == x) = false := by simpa using hx
      simp only [hx, hne, decide_false, Bool.false_eq_true, if_false] at hcount ⊢
      omega
  | none =>
    have hcount := @countP_set_add _ _ _ nothing (Worker.runs x) _ hi
    rw [hw x, hnothing x] at hcount
    simp only [Option.toList_none, List.count_nil, Bool.false_eq_true, if_false] at hcount ⊢
    omega

theorem accounted_work (h : s.Accounted) (hi : s.workers[i]? = some w) (hst : s.work i w = some t) :
    t.Accounted := by
  have hfinish : ∀ task x, (s.finished ++ [task]).count x + 0 =
      s.finished.count x + if decide (task = x) = true then 1 else 0 := by
    intro task x
    rw [List.count_append, List.count_singleton]
    by_cases hx : task = x
    · simp [hx]
    · simp [hx]
  cases w with
  | loop =>
    obtain rfl := Option.some.inj hst
    refine h.ofSet hi rfl rfl fun x => ?_
    split <;> rfl
  | popping => exact accounted_popTo h hi (fun _ => rfl) (fun _ _ => rfl) (fun _ => rfl) hst
  | running task =>
    obtain rfl := Option.some.inj hst
    exact h.ofSet hi rfl rfl (hfinish task)
  | acquire =>
    obtain ⟨-, rfl⟩ := of_ite_some hst
    exact h.ofSet hi rfl rfl fun _ => rfl
  | held =>
    simp only [work] at hst
    split at hst
    · obtain rfl := Option.some.inj hst
      exact h.ofSet hi rfl rfl fun _ => rfl
    · obtain rfl := Option.some.inj hst
      exact h.ofSet hi rfl rfl fun _ => rfl
  | checked =>
    simp only [work] at hst
    split at hst
    · obtain rfl := Option.some.inj hst
      exact h.ofSet hi rfl rfl fun _ => rfl
    · obtain rfl := Option.some.inj hst
      exact h.ofSet hi rfl rfl fun _ => rfl
  | timing =>
    obtain rfl := Option.some.inj hst
    exact h.ofSet hi rfl rfl fun _ => rfl
  | waiting deadline => cases hst
  | woken =>
    obtain ⟨-, rfl⟩ := of_ite_some hst
    exact h.ofSet hi rfl rfl fun _ => rfl
  | draining => exact accounted_popTo h hi (fun _ => rfl) (fun _ _ => rfl) (fun _ => rfl) hst
  | runningLast task =>
    obtain rfl := Option.some.inj hst
    exact h.ofSet hi rfl rfl (hfinish task)
  | done => cases hst

theorem accounted_wake (h : s.Accounted) (hi : s.workers[i]?.any Worker.sleeps = true) (lock : Option Holder) :
    Accounted { s.setWorker i .woken with lock } := by
  obtain ⟨w, hw, hsleeps⟩ := (Option.any_eq_true _ _).mp hi
  cases w with
  | waiting deadline => exact h.ofSet hw rfl rfl fun _ => rfl
  | _ => cases hsleeps

theorem accounted_notify (h : s.Accounted) (hst : s.notify i = some t) : t.Accounted := by
  unfold notify at hst
  split at hst
  · split at hst
    · obtain ⟨hsleeps, rfl⟩ := of_ite_some hst
      exact accounted_wake h hsleeps none
    · obtain rfl := Option.some.inj hst
      exact ⟨h.log, h.ran⟩
  · obtain rfl := Option.some.inj hst
    refine ⟨h.log, fun x => ?_⟩
    have hruns : ∀ v : Worker Id, Worker.runs x v.wake = Worker.runs x v := by
      intro v
      cases v <;> rfl
    show s.log.returned.count x = s.finished.count x + (s.workers.map Worker.wake).countP (Worker.runs x)
    rw [h.ran x, List.countP_map]
    congr 2
    exact funext fun v => (hruns v).symm
  · cases hst

theorem accounted_step (h : s.Accounted) {op : ThreadOp Id} (hG : s.Orderly op) (hst : s.step op = some t) :
    t.Accounted := by
  cases op with
  | push task =>
    obtain ⟨u, hu, rfl⟩ := Option.map_eq_some_iff.mp hst
    have hu' := accounted_call h hu trivial (by simp)
    exact ⟨hu'.log, hu'.ran⟩
  | pushDelayed task read duration =>
    simp only [step] at hst
    split at hst
    · exact accounted_call h hst trivial (by simp)
    · cases hst
  | pushDelayedAt timePoint task => exact accounted_call h hst trivial (by simp)
  | delay taskId read duration =>
    simp only [step] at hst
    split at hst
    · exact accounted_call h hst hG (by simp)
    · cases hst
  | cancel taskId => exact accounted_call h hst trivial (by simp)
  | popTask taskId => exact accounted_call h hst hG (by simp)
  | start threads =>
    obtain ⟨hdone, rfl⟩ := of_ite_some hst
    refine ⟨h.log, fun x => ?_⟩
    have hnone : s.workers.countP (Worker.runs x) = 0 := by
      rw [List.countP_eq_zero]
      intro w hw
      rw [hdone w hw]
      exact Bool.false_ne_true
    have hloop : (List.replicate threads (Worker.loop : Worker Id)).countP (Worker.runs x) = 0 := by
      rw [List.countP_eq_zero]
      intro w hw
      rw [List.eq_of_mem_replicate hw]
      exact Bool.false_ne_true
    have hran := h.ran x
    show s.log.returned.count x =
      s.finished.count x + (List.replicate threads (Worker.loop : Worker Id)).countP (Worker.runs x)
    omega
  | stop =>
    obtain ⟨-, rfl⟩ := of_ite_some hst
    exact ⟨h.log, h.ran⟩
  | notify i => exact accounted_notify h hst
  | work i =>
    obtain ⟨w, hi, hw⟩ := Option.bind_eq_some_iff.mp hst
    exact accounted_work h hi hw
  | wake i =>
    obtain ⟨hsleeps, rfl⟩ := of_ite_some hst
    exact accounted_wake h hsleeps s.lock
  | tick d =>
    obtain rfl := Option.some.inj hst
    exact ⟨h.log, h.ran⟩

/-! ### The last look for a task -/

theorem timers_delay {p : TaskPool Id} {taskId : Option Id} {timePoint : ℤ} {e : ℤ × Option Id} :
    e ∈ (p.delay taskId timePoint).timerTasks →
      e ∈ p.timerTasks ∨ p.Waiting taskId ∧ e = (timePoint, taskId) := by
  intro he
  unfold TaskPool.delay at he
  cases hloc : TaskPool.locate taskId p.timerTasks with
  | none =>
    rw [hloc] at he
    exact Or.inl he
  | some r =>
    obtain ⟨before, f, after⟩ := r
    obtain ⟨hl, hf⟩ := TaskPool.locate_eq_some hloc
    rw [hloc] at he
    have hmem := settle_perm.mem_iff.mp he
    rw [hl]
    simp only [List.mem_append, List.mem_reverse, List.mem_cons] at hmem ⊢
    rcases hmem with he | rfl | he
    · exact Or.inl (Or.inl he)
    · refine Or.inr ⟨⟨f, ?_, hf⟩, by rw [hf]⟩
      rw [hl]
      exact List.mem_append_right _ List.mem_cons_self
    · exact Or.inl (Or.inr (Or.inr he))

theorem timers_popTask {p : TaskPool Id} {taskId : Option Id} (hw : ¬p.Waiting taskId) :
    (p.popTask taskId).1 = p := by
  simp only [TaskPool.popTask, TaskPool.not_waiting_iff.mp hw]

/-- The call gives a timer task a time. -/
def Times (op : ThreadOp Id) (task : Option Id) : Prop :=
  match op with
  | .pushDelayed task' _ _ | .pushDelayedAt _ task' => task = some task'
  | .delay taskId _ _ => task = taskId
  | _ => False

/-- The last step of a worker is the look that ends it.  No timer task was due then; whatever is left was not due, or
was given a time after that. -/
def LookedLast (ops : List (ThreadOp Id)) (s : ThreadPool Id) : Prop :=
  ∃ before i after u, ops = before ++ .work i :: after ∧ Run (ofPartial step) {} before u ∧
    u.workers[i]? = some .draining ∧ (∀ op ∈ after, ∀ j, op ≠ .work j) ∧
    (∀ e ∈ u.log.pool.timerTasks, u.now < e.1) ∧
    ∀ e ∈ s.log.pool.timerTasks, u.now < e.1 ∨ ∃ op ∈ after, Times op e.2

omit [DecidableEq Id] in
theorem timers_pushDelayed {p : TaskPool Id} {timePoint : ℤ} {task : Id} {e : ℤ × Option Id}
    (he : e ∈ (p.pushDelayed timePoint task).timerTasks) : e ∈ p.timerTasks ∨ e.2 = some task := by
  rcases List.mem_cons.mp (insertDescending_perm.mem_iff.mp he) with rfl | he
  · exact Or.inr rfl
  · exact Or.inl he

theorem timers_cancel {p : TaskPool Id} {taskId : Option Id} : (p.cancel taskId).1.timerTasks ⊆ p.timerTasks := by
  unfold TaskPool.cancel
  cases hloc : TaskPool.locate taskId p.timerTasks with
  | none => exact List.Subset.refl _
  | some r =>
    obtain ⟨before, f, after⟩ := r
    rw [(TaskPool.locate_eq_some hloc).1]
    exact ((List.sublist_cons_self f after).append_left before).subset

theorem call_eq_some {op : PoolOp Id} {locked : Bool} {lock : Option Holder} (hst : s.call op locked lock = some t) :
    t.workers = s.workers ∧ s.log.step op = some t.log := by
  unfold call at hst
  split at hst
  · cases hst
  · obtain ⟨log, hlog, rfl⟩ := Option.map_eq_some_iff.mp hst
    exact ⟨rfl, hlog⟩

/-- What the calls and the wake-ups do to the workers and the timer tasks. -/
theorem step_others {op : ThreadOp Id} (hG : s.Orderly op) (hst : s.step op = some t) (hwork : ∀ i, op ≠ .work i)
    (hstart : ∀ threads, op ≠ .start threads) :
    (t.workers = s.workers ∨ (∃ i, s.workers[i]?.any Worker.sleeps = true ∧ t.workers = s.workers.set i .woken) ∨
        t.workers = s.workers.map Worker.wake) ∧
      ∀ e ∈ t.log.pool.timerTasks, e ∈ s.log.pool.timerTasks ∨ Times op e.2 := by
  cases op with
  | push task =>
    obtain ⟨u, hu, rfl⟩ := Option.map_eq_some_iff.mp hst
    obtain ⟨hworkers, hlog⟩ := call_eq_some hu
    obtain ⟨-, heq⟩ := of_ite_some hlog
    refine ⟨Or.inl hworkers, fun e he => Or.inl ?_⟩
    have he' : e ∈ u.log.pool.timerTasks := he
    rw [← heq] at he'
    exact he'
  | pushDelayed task read duration =>
    obtain ⟨hworkers, hlog⟩ := call_eq_some (Option.ite_none_right_eq_some.mp hst).2
    obtain ⟨-, heq⟩ := of_ite_some hlog
    refine ⟨Or.inl hworkers, fun e he => ?_⟩
    rw [← heq] at he
    exact timers_pushDelayed he
  | pushDelayedAt timePoint task =>
    obtain ⟨hworkers, hlog⟩ := call_eq_some hst
    obtain ⟨-, heq⟩ := of_ite_some hlog
    refine ⟨Or.inl hworkers, fun e he => ?_⟩
    rw [← heq] at he
    exact timers_pushDelayed he
  | delay taskId read duration =>
    obtain ⟨hworkers, hlog⟩ := call_eq_some (Option.ite_none_right_eq_some.mp hst).2
    have heq := Option.some.inj hlog
    refine ⟨Or.inl hworkers, fun e he => ?_⟩
    rw [← heq] at he
    rcases timers_delay he with he | ⟨-, rfl⟩
    · exact Or.inl he
    · exact Or.inr rfl
  | cancel taskId =>
    obtain ⟨hworkers, hlog⟩ := call_eq_some hst
    have heq := Option.some.inj hlog
    refine ⟨Or.inl hworkers, fun e he => Or.inl ?_⟩
    rw [← heq] at he
    exact timers_cancel he
  | popTask taskId =>
    obtain ⟨hworkers, hlog⟩ := call_eq_some hst
    have heq := Option.some.inj hlog
    refine ⟨Or.inl hworkers, fun e he => Or.inl ?_⟩
    rw [← heq] at he
    have he' : e ∈ (s.log.pool.popTask taskId).1.timerTasks := he
    rwa [timers_popTask hG] at he'
  | start threads => exact absurd rfl (hstart threads)
  | stop =>
    obtain ⟨-, rfl⟩ := of_ite_some hst
    exact ⟨Or.inl rfl, fun e he => Or.inl he⟩
  | notify i =>
    simp only [step, notify] at hst
    split at hst
    · split at hst
      · obtain ⟨hsleeps, rfl⟩ := of_ite_some hst
        exact ⟨Or.inr (Or.inl ⟨i, hsleeps, rfl⟩), fun e he => Or.inl he⟩
      · obtain rfl := Option.some.inj hst
        exact ⟨Or.inl rfl, fun e he => Or.inl he⟩
    · obtain rfl := Option.some.inj hst
      exact ⟨Or.inr (Or.inr rfl), fun e he => Or.inl he⟩
    · cases hst
  | work i => exact absurd rfl (hwork i)
  | wake i =>
    obtain ⟨hsleeps, rfl⟩ := of_ite_some hst
    exact ⟨Or.inr (Or.inl ⟨i, hsleeps, rfl⟩), fun e he => Or.inl he⟩
  | tick d =>
    obtain rfl := Option.some.inj hst
    exact ⟨Or.inl rfl, fun e he => Or.inl he⟩

theorem ne_start_of_done {op : ThreadOp Id} (hst : s.step op = some t) (hdone : ∀ w ∈ t.workers, w = .done)
    (hne : t.workers ≠ []) (threads : ℕ) : op ≠ .start threads := by
  rintro rfl
  obtain ⟨-, rfl⟩ := of_ite_some hst
  obtain ⟨w, hw⟩ := List.exists_mem_of_ne_nil _ hne
  cases (hdone w hw).symm.trans (List.eq_of_mem_replicate hw)

/-- Workers that have ended now had ended before, unless one of them took the step. -/
theorem all_done_of_step {op : ThreadOp Id} (hG : s.Orderly op) (hst : s.step op = some t)
    (hwork : ∀ i, op ≠ .work i) (hdone : ∀ w ∈ t.workers, w = .done) (hne : t.workers ≠ []) :
    (∀ w ∈ s.workers, w = .done) ∧ s.workers ≠ [] := by
  rcases (step_others hG hst hwork (ne_start_of_done hst hdone hne)).1 with h | ⟨i, hi, h⟩ | h
  · rw [h] at hdone hne
    exact ⟨hdone, hne⟩
  · -- a worker that was woken has not ended
    obtain ⟨w, hw, -⟩ := (Option.any_eq_true _ _).mp hi
    obtain ⟨hlt, -⟩ := List.getElem?_eq_some_iff.mp hw
    have hwoken := hdone .woken (by rw [h]; exact List.mem_set hlt _)
    cases hwoken
  · rw [h] at hdone hne
    refine ⟨fun w hw => ?_, fun hnil => hne (by rw [hnil]; rfl)⟩
    have hwake := hdone w.wake (List.mem_map_of_mem hw)
    cases w with
    | done => rfl
    | waiting deadline => cases hwake
    | _ => cases hwake

/-- The step by which a worker ends is a look that finds nothing. -/
theorem draining_of_done (hi : s.workers[i]? = some w) (hst : s.work i w = some t)
    (hdone : t.workers[i]? = some .done) :
    w = .draining ∧ (s.log.pool.pop s.now).2 = none ∧ t.log.pool = (s.log.pool.pop s.now).1 ∧ t.now = s.now := by
  obtain ⟨hlt, -⟩ := List.getElem?_eq_some_iff.mp hi
  have hset : ∀ v, t.workers = s.workers.set i v → v = .done := by
    intro v hv
    rw [hv, List.getElem?_set_self hlt] at hdone
    exact Option.some.inj hdone
  have hpop : ∀ task nothing, s.popTo i task nothing = some t → (∀ id, task id ≠ .done) →
      nothing = .done ∧ (s.log.pool.pop s.now).2 = none ∧ t.log.pool = (s.log.pool.pop s.now).1 ∧ t.now = s.now := by
    intro task nothing hst htask
    obtain ⟨log, hlog, rfl⟩ := Option.map_eq_some_iff.mp hst
    obtain rfl := Option.some.inj hlog
    have hw' := hset _ rfl
    cases hres : (s.log.pool.pop s.now).2 with
    | some id =>
      rw [hres] at hw'
      exact absurd hw' (htask id)
    | none =>
      rw [hres] at hw'
      exact ⟨hw', rfl, rfl, rfl⟩
  cases w with
  | draining => exact ⟨rfl, (hpop _ _ hst (by simp)).2⟩
  | popping => exact absurd (hpop _ _ hst (by simp)).1 (by simp)
  | loop =>
    obtain rfl := Option.some.inj hst
    have hw' := hset _ rfl
    split at hw' <;> cases hw'
  | running task =>
    obtain rfl := Option.some.inj hst
    cases hset _ rfl
  | acquire =>
    obtain ⟨-, rfl⟩ := of_ite_some hst
    cases hset _ rfl
  | held =>
    simp only [work] at hst
    split at hst
    all_goals
      obtain rfl := Option.some.inj hst
      cases hset _ rfl
  | checked =>
    simp only [work] at hst
    split at hst
    all_goals
      obtain rfl := Option.some.inj hst
      cases hset _ rfl
  | timing =>
    obtain rfl := Option.some.inj hst
    cases hset _ rfl
  | waiting deadline => cases hst
  | woken =>
    obtain ⟨-, rfl⟩ := of_ite_some hst
    cases hset _ rfl
  | runningLast task =>
    obtain rfl := Option.some.inj hst
    cases hset _ rfl
  | done => cases hst

/-- Once all workers have ended, the last step of a worker was a look that found nothing. -/
theorem lookedLast_of_run {ops : List (ThreadOp Id)} (h : Run (Guarded (ofPartial step) Orderly) {} ops s) :
    (∀ w ∈ s.workers, w = .done) → s.workers ≠ [] → LookedLast ops s := by
  refine h.invariant_labels (I := fun ops s => (∀ w ∈ s.workers, w = .done) → s.workers ≠ [] → LookedLast ops s) ?_ ?_
  · intro _ hne
    exact absurd rfl hne
  · rintro ops s op t hrun ih ⟨hG, hst⟩ hdone hne
    by_cases hwork : ∃ i, op = .work i
    · obtain ⟨i, rfl⟩ := hwork
      obtain ⟨w, hi, hw⟩ := Option.bind_eq_some_iff.mp hst
      have hacc : s.Accounted := hrun.invariant_where (fun _ _ _ hs hG hst => accounted_step hs hG hst)
        ⟨Logged.inv_empty, fun _ => rfl⟩
      have hinv : s.Inv := run_inv hrun.of_guarded
      obtain ⟨w', hm⟩ := work_moved (fun hlocks => (hinv.lockOf i w hi).mp hlocks) hw
      have hworker : t.workers[i]? = some .done := by
        have hget : t.workers[i]? = some w' := by
          rw [hm.workers, List.getElem?_set_self (List.getElem?_eq_some_iff.mp hi).1]
        rw [hget, hdone w' (List.mem_of_getElem? hget)]
      obtain ⟨rfl, hnone, hlog, hnow⟩ := draining_of_done hi hw hworker
      obtain ⟨hsame, hdue⟩ := TaskPool.pop_eq_none hacc.log.descending hnone
      refine ⟨ops, i, [], s, rfl, hrun.of_guarded, hi, by simp, hdue, fun e he => Or.inl ?_⟩
      rw [hlog, hsame] at he
      exact hdue e he
    · have hwork : ∀ i, op ≠ .work i := fun i heq => hwork ⟨i, heq⟩
      obtain ⟨hdone', hne'⟩ := all_done_of_step hG hst hwork hdone hne
      obtain ⟨before, i, after, u, rfl, hu, hi, hafter, hdue, hleft⟩ := ih hdone' hne'
      obtain ⟨-, htimers⟩ := step_others hG hst hwork (ne_start_of_done hst hdone hne)
      refine ⟨before, i, after ++ [op], u, by simp, hu, hi, ?_, hdue, fun e he => ?_⟩
      · intro op' hop'
        rcases List.mem_append.mp hop' with hop' | hop'
        · exact hafter op' hop'
        · rw [List.mem_singleton.mp hop']
          exact hwork
      · rcases htimers e he with he | htimes
        · rcases hleft e he with hlt | ⟨op', hop', htimes⟩
          · exact Or.inl hlt
          · exact Or.inr ⟨op', List.mem_append_left _ hop', htimes⟩
        · exact Or.inr ⟨op, List.mem_append_right _ List.mem_cons_self, htimes⟩

/-- **`stop` and `join` finish the work.**  When all workers have ended, every task that was pushed before `stop` has
been run exactly as often as it was pushed, unless it was cancelled or is left as a timer task; and what is left was not
due when a worker looked for a task the last time, or was given a time after that. -/
theorem all_done_finished {ops : List (ThreadOp Id)} (h : Run (Guarded (ofPartial step) Orderly) {} ops s)
    (hdone : ∀ w ∈ s.workers, w = .done) (hne : s.workers ≠ []) :
    s.continues = false ∧ LookedLast ops s ∧ ∀ id ∉ s.late, s.log.pushed.count id = s.finished.count (some id) +
      s.log.cancelled.count (some id) + (s.log.pool.timerTasks.map Prod.snd).count (some id) := by
  obtain ⟨w, hw⟩ := List.exists_mem_of_ne_nil _ hne
  obtain ⟨hstopped, -, hlate⟩ := done_drained h.of_guarded hw (hdone w hw)
  have hacc : s.Accounted := h.invariant_where (fun _ _ _ hs hG hst => accounted_step hs hG hst)
    ⟨Logged.inv_empty, fun _ => rfl⟩
  refine ⟨hstopped, lookedLast_of_run h hdone hne, fun id hid => ?_⟩
  have hpushed := hacc.log.accounted id
  have hran := hacc.ran (some id)
  have hidle : s.workers.countP (Worker.runs (some id)) = 0 := by
    rw [List.countP_eq_zero]
    intro v hv
    rw [hdone v hv]
    exact Bool.false_ne_true
  have htasks : s.log.pool.tasks.count id = 0 := List.count_eq_zero.mpr fun hm => hid (hlate id hm)
  omega

/-- A task is pushed and run and the pool is stopped while it runs; a timer task that is not due is left. -/
theorem all_done_finished_one : ∃ ops, ∃ t : ThreadPool ℕ, t.finished = [some 7] ∧
    t.log.pool.timerTasks = [(10, some 8)] ∧ t.continues = false ∧ LookedLast ops t ∧
    ∀ id ∉ t.late, t.log.pushed.count id = t.finished.count (some id) + t.log.cancelled.count (some id) +
      (t.log.pool.timerTasks.map Prod.snd).count (some id) := by
  obtain ⟨t, hrun, hfinished, htimers, hdone, hne⟩ := exists_run_execWhere_and (f := step) (G := Orderly)
    (s := ({} : ThreadPool ℕ))
    (l := [.start 1, .pushDelayed 8 0 10, .notify 0, .push 7, .notify 0, .work 0, .work 0, .stop, .notify 0, .work 0,
      .work 0, .work 0])
    (P := fun t => t.finished = [some 7] ∧ t.log.pool.timerTasks = [(10, some 8)] ∧ (∀ w ∈ t.workers, w = .done) ∧
      t.workers ≠ []) (by decide)
  exact ⟨_, t, hfinished, htimers, all_done_finished hrun hdone hne⟩

/-! ### Timer tasks -/

/-- A wait until `deadline` ends by `timePoint`. -/
def EndsBy (deadline : Option ℤ) (timePoint : ℤ) : Prop := ∃ d, deadline = some d ∧ d ≤ timePoint

/-- No worker sleeps past the time of a timer task, but until the notification of a caller. -/
def Punctual (s : ThreadPool Id) : Prop :=
  s.lock ≠ some .notifyAll → ∀ deadline, Worker.waiting deadline ∈ s.workers → ∀ e ∈ s.log.pool.timerTasks,
    EndsBy deadline e.1

/-- The calls that do not notify give no task a time before which a worker sleeps. -/
def Timely (s : ThreadPool Id) : ThreadOp Id → Prop
  | .pushDelayedAt timePoint _ => ∀ deadline, Worker.waiting deadline ∈ s.workers → EndsBy deadline timePoint
  | .delay taskId read duration => s.log.Orderly (.delay taskId read duration) ∧
      (s.lock ≠ some .notifyAll → s.log.pool.Waiting taskId → ∀ deadline, Worker.waiting deadline ∈ s.workers →
        EndsBy deadline (read + duration))
  | .popTask taskId => s.log.Orderly (.popTask taskId)
  | _ => True

theorem mem_timers_delay {p : TaskPool Id} {taskId : Option Id} {timePoint : ℤ} (hw : p.Waiting taskId) :
    (timePoint, taskId) ∈ (p.delay taskId timePoint).timerTasks := by
  unfold TaskPool.delay
  cases hloc : TaskPool.locate taskId p.timerTasks with
  | none => exact absurd hw (TaskPool.not_waiting_iff.mpr hloc)
  | some r =>
    obtain ⟨before, f, after⟩ := r
    obtain ⟨-, hf⟩ := TaskPool.locate_eq_some hloc
    refine settle_perm.mem_iff.mpr (List.mem_append_right _ ?_)
    rw [hf]
    exact List.mem_cons_self

omit [DecidableEq Id] in
theorem Punctual.mono (h : s.Punctual) (hlock : s.lock = some .notifyAll → t.lock = some .notifyAll)
    (hworkers : ∀ deadline, Worker.waiting deadline ∈ t.workers → Worker.waiting deadline ∈ s.workers)
    (htimers : t.log.pool.timerTasks ⊆ s.log.pool.timerTasks) : t.Punctual :=
  fun hall deadline hw e he => h (fun hs => hall (hlock hs)) deadline (hworkers deadline hw) e (htimers he)

omit [DecidableEq Id] in
theorem Punctual.setWoken (h : s.Punctual) {lock : Option Holder} (hlock : s.lock = some .notifyAll → lock = s.lock) :
    Punctual { s.setWorker i .woken with lock } := by
  refine h.mono (fun hs => (hlock hs).trans hs) (fun deadline hw => ?_) (List.Subset.refl _)
  rcases List.mem_or_eq_of_mem_set hw with hw | heq
  · exact hw
  · cases heq

theorem punctual_work (hinv : s.Inv) (hsorted : Descending s.log.pool.timerTasks) (h : s.Punctual)
    (hi : s.workers[i]? = some w) (hst : s.work i w = some t) : t.Punctual := by
  by_cases hw : w.isTiming = true
  · obtain rfl : w = .timing := by
      cases w with
      | timing => rfl
      | _ => cases hw
    have hlock := (hinv.lockOf i _ hi).mp rfl
    obtain rfl := Option.some.inj hst
    intro _ deadline hmem e he
    rcases List.mem_or_eq_of_mem_set hmem with hmem | heq
    · exact h (by rw [hlock]; simp) deadline hmem e he
    · -- the worker waits until the time of the task that is due first
      obtain rfl := Worker.waiting.inj heq
      cases hnext : s.log.pool.next with
      | none =>
        have hnil : s.log.pool.timerTasks = [] := by
          unfold TaskPool.next at hnext
          exact List.getLast?_eq_none_iff.mp (Option.map_eq_none_iff.mp hnext)
        have he' : e ∈ s.log.pool.timerTasks := he
        rw [hnil] at he'
        cases he'
      | some d => exact ⟨d, rfl, (TaskPool.next_eq_some hsorted hnext).2 e he⟩
  · obtain ⟨w', hm⟩ := work_moved (fun hlocks => (hinv.lockOf i w hi).mp hlocks) hst
    have hnotify : t.lock = some .notifyAll ↔ s.lock = some .notifyAll := hm.lock_eq_iff hinv hi (by simp)
    refine h.mono hnotify.mpr (fun deadline hmem => ?_) hm.timers
    rw [hm.workers] at hmem
    rcases List.mem_or_eq_of_mem_set hmem with hmem | rfl
    · exact hmem
    · exact absurd (hm.sleeps rfl) hw

omit [DecidableEq Id] in
theorem punctual_notify (h : s.Punctual) (hst : s.notify i = some t) : t.Punctual := by
  unfold notify at hst
  split at hst
  next hs =>
    split at hst
    · obtain ⟨-, rfl⟩ := of_ite_some hst
      exact h.setWoken (by rw [hs]; simp)
    · obtain rfl := Option.some.inj hst
      exact h.mono (by rw [hs]; simp) (fun _ => id) (List.Subset.refl _)
  next =>
    obtain rfl := Option.some.inj hst
    intro _ deadline hmem
    obtain ⟨w, -, hw⟩ := List.mem_map.mp hmem
    cases w with
    | _ => cases hw
  · cases hst

/-- The calls that notify all, or do not touch the timer tasks, or only take some away. -/
theorem punctual_call (h : s.Punctual) {op : PoolOp Id} {locked : Bool} {lock : Option Holder}
    (hst : s.call op locked lock = some t)
    (htimers : ∀ log, s.log.step op = some log → locked = true ∧ lock = some .notifyAll ∨
      log.pool.timerTasks ⊆ s.log.pool.timerTasks) : t.Punctual := by
  unfold call at hst
  split at hst
  · cases hst
  next hnot =>
    obtain ⟨log, hlog, rfl⟩ := Option.map_eq_some_iff.mp hst
    rcases htimers log hlog with ⟨rfl, rfl⟩ | hsub
    · exact fun hall => absurd rfl hall
    · refine h.mono (fun hs => ?_) (fun _ => id) hsub
      cases locked with
      | false => exact hs
      | true =>
        rw [hs] at hnot
        exact absurd ⟨rfl, by simp⟩ hnot

theorem punctual_step (hinv : s.Inv) (hsorted : Descending s.log.pool.timerTasks) (h : s.Punctual) {op : ThreadOp Id}
    (hG : s.Timely op) (hst : s.step op = some t) : t.Punctual := by
  cases op with
  | push task =>
    obtain ⟨u, hu, rfl⟩ := Option.map_eq_some_iff.mp hst
    refine punctual_call (t := u) h hu fun log hlog => ?_
    obtain ⟨-, rfl⟩ := of_ite_some hlog
    exact Or.inr (List.Subset.refl _)
  | pushDelayed task read duration =>
    simp only [step] at hst
    split at hst
    · exact punctual_call h hst fun _ _ => Or.inl ⟨rfl, rfl⟩
    · cases hst
  | pushDelayedAt timePoint task =>
    simp only [step, call] at hst
    split at hst
    · cases hst
    next hnot =>
      obtain ⟨log, hlog, rfl⟩ := Option.map_eq_some_iff.mp hst
      obtain ⟨-, rfl⟩ := of_ite_some hlog
      have hfree : s.lock = none := by simpa using hnot
      intro _ deadline hmem e he
      rcases List.mem_cons.mp ((insertDescending_perm).mem_iff.mp he) with rfl | he
      · exact hG deadline hmem
      · exact h (by rw [hfree]; simp) deadline hmem e he
  | delay taskId read duration =>
    simp only [step] at hst
    split at hst
    next =>
      obtain rfl : t = { s with log := s.log.delay taskId (read + duration) } := by
        simpa [call, Logged.step] using hst.symm
      intro hall deadline hmem e he
      rcases timers_delay he with he | ⟨hw, rfl⟩
      · exact h hall deadline hmem e he
      · exact hG.2 hall hw deadline hmem
    next => cases hst
  | cancel taskId =>
    refine punctual_call h hst fun log hlog => ?_
    obtain rfl := Option.some.inj hlog
    exact Or.inr timers_cancel
  | popTask taskId =>
    refine punctual_call h hst fun log hlog => ?_
    obtain rfl := Option.some.inj hlog
    refine Or.inr ?_
    rw [timers_popTask hG]
    exact List.Subset.refl _
  | start threads =>
    obtain ⟨-, rfl⟩ := of_ite_some hst
    intro _ deadline hmem
    cases List.eq_of_mem_replicate hmem
  | stop =>
    obtain ⟨-, rfl⟩ := of_ite_some hst
    exact fun hall => absurd rfl hall
  | notify i => exact punctual_notify h hst
  | work i =>
    obtain ⟨w, hi, hw⟩ := Option.bind_eq_some_iff.mp hst
    exact punctual_work hinv hsorted h hi hw
  | wake i =>
    obtain ⟨-, rfl⟩ := of_ite_some hst
    exact h.setWoken fun _ => rfl
  | tick d =>
    obtain rfl := Option.some.inj hst
    exact h

/-- A call after which the pool is good and the workers are punctual had to be timely. -/
theorem timely_of_punctual {op : ThreadOp Id} (hst : s.step op = some t) (hgood : t.log.Good) (h : t.Punctual) :
    s.Timely op := by
  cases op with
  | pushDelayedAt timePoint task =>
    simp only [step, call] at hst
    split at hst
    · cases hst
    · obtain ⟨log, hlog, rfl⟩ := Option.map_eq_some_iff.mp hst
      obtain ⟨-, rfl⟩ := of_ite_some hlog
      intro deadline hmem
      exact h (by simp) deadline hmem _ (insertDescending_perm.mem_iff.mpr List.mem_cons_self)
  | delay taskId read duration =>
    simp only [step] at hst
    split at hst
    next =>
      obtain rfl : t = { s with log := s.log.delay taskId (read + duration) } := by
        simpa [call, Logged.step] using hst.symm
      have hop : s.log.step (.delay taskId read duration) = some (s.log.delay taskId (read + duration)) := rfl
      refine ⟨Logged.orderly_of_good hop hgood, ?_⟩
      intro hall hw deadline hmem
      exact h hall deadline hmem _ (mem_timers_delay hw)
    next => cases hst
  | popTask taskId =>
    obtain rfl : t = { s with log := ((s.log.step (.popTask taskId)).get rfl) } := by
      simpa [step, call, Logged.step] using hst.symm
    have hop : s.log.step (.popTask taskId) = some ((s.log.step (.popTask taskId)).get rfl) := rfl
    exact Logged.orderly_of_good hop hgood
  | push | pushDelayed | cancel | start | stop | notify | work | wake | tick => trivial

theorem orderly_of_timely {op : ThreadOp Id} (h : s.Timely op) : s.Orderly op := by
  cases op with
  | delay taskId read duration => exact h.1
  | popTask taskId => exact h
  | push | pushDelayed | pushDelayedAt | cancel | start | stop | notify | work | wake | tick => trivial

/-- **Workers are punctual exactly if the calls are timely.**  At every point of a run the task pool is in order, and no
worker sleeps past the time of a timer task, exactly if no call brings a timer task forward past another one or takes
one by its id, and none that does not notify gives a task a time before which a worker sleeps. -/
theorem sleeping_punctual_iff {ops : List (ThreadOp Id)} (h : Run (ofPartial step) {} ops t) :
    (∀ before after u, ops = before ++ after → Run (ofPartial step) {} before u → u.log.Good ∧ u.Punctual) ↔
      Run (Guarded (ofPartial step) Timely) {} ops t := by
  have hinit : Punctual ({} : ThreadPool Id) := fun _ _ hw => absurd hw List.not_mem_nil
  refine run_safe_where_iff (I := fun s => s.Inv ∧ s.Accounted ∧ s.Punctual)
    (fun s hs => ⟨hs.2.1.log.toGood, hs.2.2⟩) ?_ ?_ ⟨inv_init, ⟨Logged.inv_empty, fun _ => rfl⟩, hinit⟩ h
  · rintro s op t ⟨hinv, hacc, hpunctual⟩ hG hst
    exact ⟨inv_step hinv hst, accounted_step hacc (orderly_of_timely hG) hst,
      punctual_step hinv hacc.log.descending hpunctual hG hst⟩
  · rintro s op t - hst ⟨hgood, hpunctual⟩
    exact timely_of_punctual hst hgood hpunctual

/-- The calls that change the timer tasks without a notification. -/
def silent : ThreadOp Id → Bool
  | .pushDelayedAt _ _ | .delay _ _ _ | .popTask _ => true
  | _ => false

theorem timely_of_silent_eq_false {op : ThreadOp Id} (h : silent op = false) : s.Timely op := by
  cases op with
  | pushDelayedAt | delay | popTask => cases h
  | push | pushDelayed | cancel | start | stop | notify | work | wake | tick => trivial

/-- A worker sleeps without a deadline, is notified of a timer task, sleeps until that is due, and runs it. -/
def timerRun : List (ThreadOp ℕ) :=
  .start 1 :: List.replicate 6 (.work 0) ++ [.pushDelayed 7 0 10, .notify 0] ++ List.replicate 7 (.work 0) ++
    [.tick 10, .wake 0] ++ List.replicate 4 (.work 0)

theorem sleeping_punctual_iff_timerRun : ∃ t : ThreadPool ℕ, t.finished = [some 7] ∧ t.now = 10 ∧
    ∀ before after u, timerRun = before ++ after → Run (ofPartial step) {} before u → u.log.Good ∧ u.Punctual := by
  obtain ⟨t, hrun, hfinished, hnow⟩ := exists_run_execWhere_and (f := step) (G := fun _ op => silent op = false)
    (s := ({} : ThreadPool ℕ)) (l := timerRun) (P := fun t => t.finished = [some 7] ∧ t.now = 10) (by decide)
  have htimely : Run (Guarded (ofPartial step) Timely) {} timerRun t :=
    hrun.mono fun _ _ _ h => ⟨timely_of_silent_eq_false h.1, h.2⟩
  exact ⟨t, hfinished, hnow, (sleeping_punctual_iff hrun.of_guarded).mpr htimely⟩

end ThreadPool

end MidnightSun.ThreadPoolUtil
