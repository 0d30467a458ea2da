import Mathlib.Data.List.Count
import Mathlib.Data.List.Nodup
import Mathlib.Logic.Function.Basic
import MidnightSun.Lib.Descending
import MidnightSun.Lib.Run

/-!
# `TaskPool` (src/task_pool.h)

Tasks that wait for a thread and timer tasks that wait for a deadline.  Each call is one step, as it runs under the
lock. A task is known by its address, its `task_id_t`; a new one may get the address of a task that has left the pool.
-/

namespace MidnightSun.TaskPoolUtil

open Lib Function

/-- `TaskPool`.  A time point is a number of nanoseconds; `none` is a `unique_ptr` that was moved from. -/
structure TaskPool (Id : Type*) where
  tasks : List Id := []
  timerTasks : List (ℤ × Option Id) := []
  deriving DecidableEq

namespace TaskPool

variable {Id : Type*} [DecidableEq Id]

/-- The loop over the entries: the first one of the task, with what is in front of it and behind it. -/
def locate (taskId : Option Id) :
    List (ℤ × Option Id) → Option (List (ℤ × Option Id) × (ℤ × Option Id) × List (ℤ × Option Id))
  | [] => none
  | e :: rest => if e.2 = taskId then some ([], e, rest) else (locate taskId rest).map fun r => (e :: r.1, r.2)

/-- `push`. -/
def push (s : TaskPool Id) (task : Id) : TaskPool Id := { s with tasks := s.tasks ++ [task] }

/-- `pushDelayed`: in front of the first entry with a smaller time point. -/
def pushDelayed (s : TaskPool Id) (timePoint : ℤ) (task : Id) : TaskPool Id :=
  { s with timerTasks := insertDescending (timePoint, some task) s.timerTasks }

/-- `delay`: the new time point is written, and one pass goes from the entry to the front. -/
def delay (s : TaskPool Id) (taskId : Option Id) (timePoint : ℤ) : TaskPool Id :=
  match locate taskId s.timerTasks with
  | none => s
  | some (before, e, after) => { s with timerTasks := settle before.reverse (timePoint, e.2) after }

/-- `cancel`. -/
def cancel (s : TaskPool Id) (taskId : Option Id) : TaskPool Id × Bool :=
  match locate taskId s.timerTasks with
  | none => (s, false)
  | some (before, _, after) => ({ s with timerTasks := before ++ after }, true)

/-- `pop(task_id)`: the pair is moved from, and stays. -/
def popTask (s : TaskPool Id) (taskId : Option Id) : TaskPool Id × Option (ℤ × Option Id) :=
  match locate taskId s.timerTasks with
  | none => (s, none)
  | some (before, e, after) => ({ s with timerTasks := before ++ (e.1, none) :: after }, some e)

/-- `pop`. -/
def pop (s : TaskPool Id) (now : ℤ) : TaskPool Id × Option (Option Id) :=
  match s.tasks with
  | task :: rest => ({ s with tasks := rest }, some (some task))
  | [] =>
    match s.timerTasks.getLast? with
    | none => (s, none)
    | some e => if e.1 ≤ now then ({ s with timerTasks := s.timerTasks.dropLast }, some e.2) else (s, none)

/-- `ready`. -/
def ready (s : TaskPool Id) (now : ℤ) : Bool :=
  !s.tasks.isEmpty || s.timerTasks.getLast?.any fun e => e.1 ≤ now

/-- `next`. -/
def next (s : TaskPool Id) : Option ℤ := s.timerTasks.getLast?.map (·.1)

/-- A timer task waits. -/
def Waiting (s : TaskPool Id) (taskId : Option Id) : Prop := ∃ e ∈ s.timerTasks, e.2 = taskId

instance (s : TaskPool Id) (taskId : Option Id) : Decidable (s.Waiting taskId) :=
  inferInstanceAs (Decidable (∃ e ∈ s.timerTasks, e.2 = taskId))

end TaskPool

/-! ### What is observed of a run -/

/-- A call that was answered, with the pool it found. -/
inductive Event (Id : Type*)
  | cancel (before : TaskPool Id) (taskId : Option Id) (answer : Bool)
  | pop (before : TaskPool Id) (now : ℤ) (answer : Option (Option Id))

/-- `cancel` is true for a waiting task; `pop` returns a timer task whose time has come, and before all others. -/
def Event.Ok {Id : Type*} : Event Id → Prop
  | .cancel before taskId answer => answer = true ↔ before.Waiting taskId
  | .pop before now answer => ∀ task ∈ answer, (∃ id ∈ before.tasks.head?, task = some id) ∨
      ∃ e ∈ before.timerTasks, e.2 = task ∧ e.1 ≤ now ∧ ∀ f ∈ before.timerTasks, e.1 ≤ f.1

instance {Id : Type*} [DecidableEq Id] : (ev : Event Id) → Decidable ev.Ok
  | .cancel before taskId answer => inferInstanceAs (Decidable (answer = true ↔ before.Waiting taskId))
  | .pop before now answer => inferInstanceAs (Decidable (∀ task ∈ answer, (∃ id ∈ before.tasks.head?, task = some id) ∨
      ∃ e ∈ before.timerTasks, e.2 = task ∧ e.1 ≤ now ∧ ∀ f ∈ before.timerTasks, e.1 ≤ f.1))

/-- A pool and its history. -/
structure Logged (Id : Type*) where
  pool : TaskPool Id := {}
  pushed : List Id := []
  /-- by either `pop` -/
  returned : List (Option Id) := []
  cancelled : List (Option Id) := []
  /-- the time points last given -/
  given : Id → Option ℤ := fun _ => none
  events : List (Event Id) := []

/-- The calls, with the readings of the clock. -/
inductive PoolOp (Id : Type*)
  | push (task : Id)
  /-- `now` is read before the lock is taken -/
  | pushDelayed (task : Id) (now duration : ℤ)
  /-- the overload that is given a time point and a task -/
  | pushDelayedAt (timePoint : ℤ) (task : Id)
  | delay (taskId : Option Id) (now duration : ℤ)
  | cancel (taskId : Option Id)
  | popTask (taskId : Option Id)
  | pop (now : ℤ)

namespace Logged

variable {Id : Type*} [DecidableEq Id]

/-- No task of the pool has the address. -/
def Fresh (s : Logged Id) (task : Id) : Prop := task ∉ s.pool.tasks ∧ some task ∉ s.pool.timerTasks.map Prod.snd

instance (s : Logged Id) (task : Id) : Decidable (s.Fresh task) := inferInstanceAs (Decidable (_ ∧ _))

def pushDelayed (s : Logged Id) (timePoint : ℤ) (task : Id) : Logged Id := { s with
  pool := s.pool.pushDelayed timePoint task
  pushed := s.pushed ++ [task]
  given := update s.given task (some timePoint) }

def delay (s : Logged Id) (taskId : Option Id) (timePoint : ℤ) : Logged Id := { s with
  pool := s.pool.delay taskId timePoint
  given := match taskId with
    | none => s.given
    | some id => update s.given id (some timePoint) }

def step (s : Logged Id) : PoolOp Id → Option (Logged Id)
  | .push task =>
    if s.Fresh task then some { s with pool := s.pool.push task, pushed := s.pushed ++ [task] } else none
  | .pushDelayed task now duration => if s.Fresh task then some (s.pushDelayed (now + duration) task) else none
  | .pushDelayedAt timePoint task => if s.Fresh task then some (s.pushDelayed timePoint task) else none
  | .delay taskId now duration => some (s.delay taskId (now + duration))
  | .cancel taskId =>
    let r := s.pool.cancel taskId
    some { s with
      pool := r.1
      cancelled := if r.2 then s.cancelled ++ [taskId] else s.cancelled
      events := s.events ++ [.cancel s.pool taskId r.2] }
  | .popTask taskId =>
    let r := s.pool.popTask taskId
    some { s with pool := r.1, returned := s.returned ++ (r.2.map (·.2)).toList }
  | .pop now =>
    let r := s.pool.pop now
    some { s with pool := r.1, returned := s.returned ++ r.2.toList, events := s.events ++ [.pop s.pool now r.2] }

abbrev PoolStep : Logged Id → PoolOp Id → Logged Id → Prop := ofPartial step

/-- The representation and the history are as they should be. -/
structure Good (s : Logged Id) : Prop where
  descending : Descending s.pool.timerTasks
  noNull : ∀ e ∈ s.pool.timerTasks, e.2 ≠ none
  deadlines : ∀ e ∈ s.pool.timerTasks, ∀ id, e.2 = some id → s.given id = some e.1
  /-- what was pushed was returned or cancelled, or waits, each of these once -/
  accounted : ∀ id, s.pushed.count id = s.returned.count (some id) + s.cancelled.count (some id) +
    (s.pool.tasks.count id + (s.pool.timerTasks.map Prod.snd).count (some id))
  events : ∀ ev ∈ s.events, ev.Ok

structure Inv (s : Logged Id) : Prop extends Good s where
  nodup : (s.pool.timerTasks.map Prod.snd).Nodup

end Logged

/-! ### One call -/

namespace TaskPool

variable {Id : Type*} {s : TaskPool Id}

/-- A timer task that `pop` returns has come to its time, before all others. -/
theorem pop_ok (h : Descending s.timerTasks) (now : ℤ) : (Event.pop s now (s.pop now).2).Ok := by
  intro task htask
  unfold pop at htask
  split at htask
  next id rest htasks =>
    obtain rfl := Option.some.inj htask
    exact Or.inl ⟨id, by rw [htasks]; rfl, rfl⟩
  next htasks =>
    split at htask
    · cases htask
    next e hlast =>
      split at htask
      next hdue =>
        obtain rfl := Option.some.inj htask
        exact Or.inr ⟨e, List.mem_of_getLast? hlast, rfl, hdue, h.getLast_le hlast⟩
      · cases htask

theorem next_eq_some {timePoint : ℤ} (h : Descending s.timerTasks) (hnext : s.next = some timePoint) :
    (∃ e ∈ s.timerTasks, e.1 = timePoint) ∧ ∀ e ∈ s.timerTasks, timePoint ≤ e.1 := by
  obtain ⟨e, hlast, rfl⟩ := Option.map_eq_some_iff.mp hnext
  exact ⟨⟨e, List.mem_of_getLast? hlast, rfl⟩, h.getLast_le hlast⟩

/-- `pop` returns a task exactly when the pool is `ready`. -/
theorem isSome_pop (now : ℤ) : (s.pop now).2.isSome = s.ready now := by
  unfold pop ready
  cases s.tasks with
  | cons task rest => rfl
  | nil =>
    cases s.timerTasks.getLast? with
    | none => rfl
    | some e => by_cases hdue : e.1 ≤ now <;> simp [hdue]

/-- When `pop` finds nothing, no timer task is due, and the pool is what it was. -/
theorem pop_eq_none {now : ℤ} (h : Descending s.timerTasks) (hpop : (s.pop now).2 = none) :
    (s.pop now).1 = s ∧ ∀ e ∈ s.timerTasks, now < e.1 := by
  unfold pop at hpop ⊢
  cases htasks : s.tasks with
  | cons task rest =>
    rw [htasks] at hpop
    cases hpop
  | nil =>
    rw [htasks] at hpop
    cases hlast : s.timerTasks.getLast? with
    | none =>
      rw [List.getLast?_eq_none_iff.mp hlast]
      exact ⟨rfl, fun e he => absurd he List.not_mem_nil⟩
    | some e =>
      simp only [hlast] at hpop ⊢
      split at hpop
      · cases hpop
      next hdue =>
        rw [if_neg hdue]
        refine ⟨rfl, ?_⟩
        intro f hf
        have hle := h.getLast_le hlast f hf
        omega

variable [DecidableEq Id] {taskId : Option Id} {e : ℤ × Option Id} {l before after : List (ℤ × Option Id)}

theorem locate_eq_some (h : locate taskId l = some (before, e, after)) : l = before ++ e :: after ∧ e.2 = taskId := by
  induction l generalizing before with
  | nil => cases h
  | cons f rest ih =>
    unfold locate at h
    split at h
    next heq =>
      obtain ⟨rfl, rfl, rfl⟩ : [] = before ∧ f = e ∧ rest = after := by simpa using h
      exact ⟨rfl, heq⟩
    next hne =>
      obtain ⟨⟨before', e', after'⟩, hrest, heq⟩ := Option.map_eq_some_iff.mp h
      obtain ⟨rfl, rfl, rfl⟩ : f :: before' = before ∧ e' = e ∧ after' = after := by simpa using heq
      obtain ⟨rfl, he⟩ := ih hrest
      exact ⟨rfl, he⟩

theorem locate_eq_none_iff : locate taskId l = none ↔ ∀ e ∈ l, e.2 ≠ taskId := by
  induction l with
  | nil => simp [locate]
  | cons f rest ih =>
    unfold locate
    by_cases heq : f.2 = taskId
    · simp [heq]
    · simp [heq, ih]

theorem not_waiting_iff : ¬s.Waiting taskId ↔ locate taskId s.timerTasks = none := by
  rw [locate_eq_none_iff, Waiting]
  simp only [not_exists, not_and, ne_eq]

theorem cancel_eq_true_iff : (s.cancel taskId).2 = true ↔ s.Waiting taskId := by
  rw [← not_iff_not, not_waiting_iff]
  unfold cancel
  cases locate taskId s.timerTasks <;> simp

theorem descending_delay (h : Descending s.timerTasks) {timePoint : ℤ}
    (hloc : locate taskId s.timerTasks = some (before, e, after)) (hle : ∀ f ∈ after, f.1 ≤ timePoint) :
    Descending (settle before.reverse (timePoint, e.2) after) := by
  rw [(locate_eq_some hloc).1] at h
  obtain ⟨hbefore, hrest, hcross⟩ := List.pairwise_append.mp h
  refine Descending.settle (List.pairwise_cons.mp hrest).2 hle ?_ ?_
  · exact List.pairwise_reverse.mpr hbefore
  · intro p hp f hf
    exact hcross p (List.mem_reverse.mp hp) f (List.mem_cons_of_mem _ hf)

end TaskPool

/-! ### Runs -/

namespace Logged

variable {Id : Type*} [DecidableEq Id] {s t : Logged Id}

theorem inv_empty : ({} : Logged Id).Inv where
  descending := List.Pairwise.nil
  noNull := by simp
  deadlines := by simp
  accounted := by simp
  events := by simp
  nodup := List.nodup_nil

theorem Inv.push (hI : s.Inv) (task : Id) :
    Inv { s with pool := s.pool.push task, pushed := s.pushed ++ [task] } where
  descending := hI.descending
  noNull := hI.noNull
  deadlines := hI.deadlines
  accounted := by
    intro id
    have h := hI.accounted id
    simp only [TaskPool.push, List.count_append] at h ⊢
    omega
  events := hI.events
  nodup := hI.nodup

theorem Inv.pushDelayed (hI : s.Inv) {task : Id} (hfresh : s.Fresh task) (timePoint : ℤ) :
    (s.pushDelayed timePoint task).Inv := by
  have hperm := insertDescending_perm (x := (timePoint, some task)) (l := s.pool.timerTasks)
  have hmem {e : ℤ × Option Id} : e ∈ (s.pool.pushDelayed timePoint task).timerTasks ↔
      e = (timePoint, some task) ∨ e ∈ s.pool.timerTasks := by
    rw [TaskPool.pushDelayed, hperm.mem_iff, List.mem_cons]
  refine { descending := hI.descending.insert, noNull := ?_, deadlines := ?_, accounted := ?_, events := hI.events,
           nodup := ?_ }
  · intro e he
    rcases hmem.mp he with rfl | he
    · exact Option.some_ne_none task
    · exact hI.noNull e he
  · intro e he id hid
    show update s.given task (some timePoint) id = some e.1
    rcases hmem.mp he with rfl | hold
    · obtain rfl := Option.some.inj hid
      exact update_self ..
    · have hne : id ≠ task := by
        rintro rfl
        exact hfresh.2 (hid ▸ List.mem_map_of_mem hold)
      rw [update_of_ne hne]
      exact hI.deadlines e hold id hid
  · intro id
    have h := hI.accounted id
    have hcount := (hperm.map Prod.snd).count_eq (some id)
    rw [List.map_cons, List.count_cons, Option.some_beq_some] at hcount
    show (s.pushed ++ [task]).count id = s.returned.count (some id) + s.cancelled.count (some id) +
      (s.pool.tasks.count id +
        ((insertDescending (timePoint, some task) s.pool.timerTasks).map Prod.snd).count (some id))
    rw [hcount, List.count_append, List.count_singleton, h]
    omega
  · exact (hperm.map Prod.snd).nodup_iff.mpr (List.nodup_cons.mpr ⟨hfresh.2, hI.nodup⟩)

theorem Inv.delay (hI : s.Inv) {taskId : Option Id} {timePoint : ℤ}
    (hle : ∀ before e after, TaskPool.locate taskId s.pool.timerTasks = some (before, e, after) →
      ∀ f ∈ after, f.1 ≤ timePoint) : (s.delay taskId timePoint).Inv := by
  have hgiven : ∀ id, taskId ≠ some id → (s.delay taskId timePoint).given id = s.given id := by
    intro id hne
    cases taskId with
    | none => rfl
    | some task => exact update_of_ne (fun heq => hne (congrArg some heq.symm)) ..
  cases hloc : TaskPool.locate taskId s.pool.timerTasks with
  | none =>
    have hpool : (s.delay taskId timePoint).pool = s.pool := by simp only [Logged.delay, TaskPool.delay, hloc]
    have hother := TaskPool.locate_eq_none_iff.mp hloc
    refine { descending := ?_, noNull := ?_, deadlines := ?_, accounted := ?_, events := hI.events, nodup := ?_ }
    · rw [hpool]; exact hI.descending
    · rw [hpool]; exact hI.noNull
    · rw [hpool]
      intro e he id hid
      rw [hgiven id fun heq => hother e he (hid.trans heq.symm)]
      exact hI.deadlines e he id hid
    · rw [hpool]; exact hI.accounted
    · rw [hpool]; exact hI.nodup
  | some r =>
    obtain ⟨before, e, after⟩ := r
    obtain ⟨hl, he⟩ := TaskPool.locate_eq_some hloc
    have hpool : (s.delay taskId timePoint).pool =
        { s.pool with timerTasks := settle before.reverse (timePoint, e.2) after } := by
      simp only [Logged.delay, TaskPool.delay, hloc]
    -- the tasks are the same, with one time point changed
    have hperm : (settle before.reverse (timePoint, e.2) after).Perm (before ++ (timePoint, e.2) :: after) :=
      settle_perm.trans (before.reverse_perm.append_right _)
    have hids : ((settle before.reverse (timePoint, e.2) after).map Prod.snd).Perm
        (s.pool.timerTasks.map Prod.snd) := by
      rw [hl]
      simpa using hperm.map Prod.snd
    have hmem : ∀ f ∈ settle before.reverse (timePoint, e.2) after,
        f = (timePoint, taskId) ∨ f ∈ s.pool.timerTasks ∧ f.2 ≠ taskId := by
      intro f hf
      have hnodup := hI.nodup
      rw [hl, List.map_append, List.map_cons, List.nodup_middle, List.nodup_cons, ← List.map_append, he] at hnodup
      rcases List.mem_cons.mp (List.perm_middle.mem_iff.mp (hperm.mem_iff.mp hf)) with rfl | hf'
      · exact Or.inl (by rw [he])
      · refine Or.inr ⟨?_, fun heq => hnodup.1 (heq ▸ List.mem_map_of_mem hf')⟩
        rw [hl]
        exact List.perm_middle.mem_iff.mpr (List.mem_cons_of_mem _ hf')
    have hnotNull : e.2 ≠ none := hI.noNull e (by rw [hl]; simp)
    refine { descending := ?_, noNull := ?_, deadlines := ?_, accounted := ?_, events := hI.events, nodup := ?_ }
    · rw [hpool]
      exact TaskPool.descending_delay hI.descending hloc (hle before e after hloc)
    · rw [hpool]
      intro f hf
      rcases hmem f hf with rfl | ⟨hf', -⟩
      · exact he ▸ hnotNull
      · exact hI.noNull f hf'
    · rw [hpool]
      intro f hf id hid
      rcases hmem f hf with rfl | ⟨hf', hne⟩
      · obtain rfl : taskId = some id := hid
        exact update_self ..
      · rw [hgiven id fun heq => hne (hid.trans heq.symm)]
        exact hI.deadlines f hf' id hid
    · rw [hpool]
      intro id
      rw [hids.count_eq]
      exact hI.accounted id
    · rw [hpool]
      exact hids.nodup_iff.mpr hI.nodup

/-- With an entry taken out, the rest is as it was. -/
theorem Inv.remove (hI : s.Inv) {before after : List (ℤ × Option Id)} {e : ℤ × Option Id}
    (hl : s.pool.timerTasks = before ++ e :: after) {returned cancelled : List (Option Id)} {events : List (Event Id)}
    (hcount : ∀ id, returned.count (some id) + cancelled.count (some id) =
      s.returned.count (some id) + s.cancelled.count (some id) + [e.2].count (some id))
    (hevents : ∀ ev ∈ events, ev.Ok) :
    Inv { s with pool := { s.pool with timerTasks := before ++ after }, returned, cancelled, events } := by
  have hsub : (before ++ after).Sublist s.pool.timerTasks := by
    rw [hl]
    exact (List.sublist_cons_self e after).append_left before
  exact {
    descending := hI.descending.sublist hsub
    noNull := fun f hf => hI.noNull f (hsub.subset hf)
    deadlines := fun f hf => hI.deadlines f (hsub.subset hf)
    accounted := by
      intro id
      have h := hI.accounted id
      have hid := hcount id
      rw [hl, List.map_append, List.map_cons, List.count_append, List.count_cons] at h
      rw [List.count_singleton] at hid
      simp only [List.map_append, List.count_append]
      omega
    events := hevents
    nodup := hI.nodup.sublist (hsub.map _) }

theorem Inv.events_append (hI : s.Inv) (ev : Event Id) (hev : ev.Ok) : ∀ ev' ∈ s.events ++ [ev], ev'.Ok := by
  intro ev' hmem
  rcases List.mem_append.mp hmem with hmem | hmem
  · exact hI.events ev' hmem
  · rw [List.mem_singleton.mp hmem]
    exact hev

theorem Inv.cancel (hI : s.Inv) {taskId : Option Id} (hst : s.step (.cancel taskId) = some t) : t.Inv := by
  obtain rfl := Option.some.inj hst
  have hevents := hI.events_append (.cancel s.pool taskId (s.pool.cancel taskId).2) TaskPool.cancel_eq_true_iff
  cases hloc : TaskPool.locate taskId s.pool.timerTasks with
  | none =>
    have hcancel : s.pool.cancel taskId = (s.pool, false) := by simp only [TaskPool.cancel, hloc]
    rw [hcancel] at hevents ⊢
    exact { hI with events := hevents }
  | some r =>
    obtain ⟨before, e, after⟩ := r
    obtain ⟨hl, he⟩ := TaskPool.locate_eq_some hloc
    have hcancel : s.pool.cancel taskId = ({ s.pool with timerTasks := before ++ after }, true) := by
      simp only [TaskPool.cancel, hloc]
    rw [hcancel] at hevents ⊢
    refine hI.remove hl (fun id => ?_) hevents
    rw [if_pos rfl, List.count_append, he]
    omega

theorem Inv.pop (hI : s.Inv) {now : ℤ} (hst : s.step (.pop now) = some t) : t.Inv := by
  obtain rfl := Option.some.inj hst
  have hevents := hI.events_append _ (TaskPool.pop_ok hI.descending now)
  unfold TaskPool.pop at hevents ⊢
  cases htasks : s.pool.tasks with
  | cons task rest =>
    rw [htasks] at hevents
    refine { hI with accounted := fun id => ?_, events := hevents }
    have h := hI.accounted id
    rw [htasks, List.count_cons] at h
    show s.pushed.count id = (s.returned ++ [some task]).count (some id) + s.cancelled.count (some id) +
      (rest.count id + (s.pool.timerTasks.map Prod.snd).count (some id))
    rw [List.count_append, List.count_singleton, Option.some_beq_some]
    omega
  | nil =>
    rw [htasks] at hevents
    cases hlast : s.pool.timerTasks.getLast? with
    | none =>
      rw [hlast] at hevents
      refine { hI with accounted := fun id => ?_, events := hevents }
      simpa using hI.accounted id
    | some e =>
      rw [hlast] at hevents
      dsimp only at hevents ⊢
      by_cases hdue : e.1 ≤ now
      · rw [if_pos hdue] at hevents ⊢
        obtain ⟨init, hinit⟩ := List.getLast?_eq_some_iff.mp hlast
        have hcount : ∀ id, (s.returned ++ [e.2]).count (some id) + s.cancelled.count (some id) =
            s.returned.count (some id) + s.cancelled.count (some id) + [e.2].count (some id) := by
          intro id
          rw [List.count_append]
          omega
        have hremove := hI.remove hinit hcount hevents
        simpa [hinit, htasks] using hremove
      · rw [if_neg hdue] at hevents ⊢
        refine { hI with accounted := fun id => ?_, events := hevents }
        simpa using hI.accounted id

/-! ### When the pool keeps its invariant -/

/-- No waiting task is taken by its id, and none is delayed to a time before that of a task behind it. -/
def Orderly (s : Logged Id) : PoolOp Id → Prop
  | .delay taskId now duration => ∀ r ∈ TaskPool.locate taskId s.pool.timerTasks, ∀ f ∈ r.2.2, f.1 ≤ now + duration
  | .popTask taskId => ¬s.pool.Waiting taskId
  | _ => True

instance (s : Logged Id) : (op : PoolOp Id) → Decidable (s.Orderly op)
  | .delay taskId now duration =>
    inferInstanceAs (Decidable (∀ r ∈ TaskPool.locate taskId s.pool.timerTasks, ∀ f ∈ r.2.2, f.1 ≤ now + duration))
  | .popTask taskId => inferInstanceAs (Decidable (¬s.pool.Waiting taskId))
  | .push _ | .pushDelayed _ _ _ | .pushDelayedAt _ _ | .cancel _ | .pop _ => instDecidableTrue

theorem Inv.step {op : PoolOp Id} (hI : s.Inv) (hG : s.Orderly op) (hst : s.step op = some t) : t.Inv := by
  cases op with
  | push task =>
    obtain ⟨-, rfl⟩ := of_ite_some hst
    exact hI.push task
  | pushDelayed task now duration =>
    obtain ⟨hfresh, rfl⟩ := of_ite_some hst
    exact hI.pushDelayed hfresh (now + duration)
  | pushDelayedAt timePoint task =>
    obtain ⟨hfresh, rfl⟩ := of_ite_some hst
    exact hI.pushDelayed hfresh timePoint
  | delay taskId now duration =>
    obtain rfl := Option.some.inj hst
    exact hI.delay fun before e after hloc => hG (before, e, after) hloc
  | cancel taskId => exact hI.cancel hst
  | popTask taskId =>
    obtain rfl := Option.some.inj hst
    have hpop : s.pool.popTask taskId = (s.pool, none) := by
      simp only [TaskPool.popTask, TaskPool.not_waiting_iff.mp hG]
    rw [hpop]
    simpa using hI
  | pop now => exact hI.pop hst

/-- A call that leaves everything good had to be orderly. -/
theorem orderly_of_good {op : PoolOp Id} (hst : s.step op = some t) (hgood : t.Good) : s.Orderly op := by
  cases op with
  | delay taskId now duration =>
    obtain rfl := Option.some.inj hst
    rintro ⟨before, e, after⟩ hloc
    have hsorted := hgood.descending
    simp only [Logged.delay, TaskPool.delay, Option.mem_def.mp hloc] at hsorted
    exact hsorted.of_settle
  | popTask taskId =>
    obtain rfl := Option.some.inj hst
    rw [Orderly, TaskPool.not_waiting_iff]
    by_contra hne
    obtain ⟨⟨before, e, after⟩, hloc⟩ := Option.ne_none_iff_exists'.mp hne
    have hnull := hgood.noNull (e.1, none)
    simp only [TaskPool.popTask, hloc] at hnull
    exact hnull (by simp) rfl
  | push task => trivial
  | pushDelayed task now duration => trivial
  | pushDelayedAt timePoint task => trivial
  | cancel taskId => trivial
  | pop now => trivial

/-- In a run of calls every state is good exactly if every call is orderly. -/
theorem taskPool_good_iff {ops : List (PoolOp Id)} (hrun : Run PoolStep {} ops t) :
    (∀ before after u, ops = before ++ after → Run PoolStep {} before u → u.Good) ↔
      Run (Guarded PoolStep Orderly) {} ops t :=
  run_safe_where_iff (fun _ hI => hI.toGood) (fun _ _ _ hI hG hst => hI.step hG hst)
    (fun _ _ _ _ hst hgood => orderly_of_good hst hgood) inv_empty hrun

/-- Two timer tasks, the first one put off and cancelled; the second is popped when it is due, after a task. -/
theorem taskPool_good_put_off :
    ∃ t : Logged ℕ,
      Run PoolStep {} [.pushDelayed 1 0 10, .pushDelayed 2 0 20, .push 3, .delay (some 2) 5 30, .delay (some 1) 6 10,
        .pop 6, .pop 7, .cancel (some 2), .pop 16] t ∧
      t.returned = [some 3, some 1] ∧ t.cancelled = [some 2] ∧
      ∀ before after u, [.pushDelayed 1 0 10, .pushDelayed 2 0 20, .push 3, .delay (some 2) 5 30, .delay (some 1) 6 10,
        .pop 6, .pop 7, .cancel (some 2), .pop 16] = before ++ after → Run PoolStep {} before u → u.Good := by
  obtain ⟨t, hrun, hreturned, hcancelled⟩ := exists_run_execWhere_and (f := step) (G := Orderly) (s := ({} : Logged ℕ))
    (l := [.pushDelayed 1 0 10, .pushDelayed 2 0 20, .push 3, .delay (some 2) 5 30, .delay (some 1) 6 10,
      .pop 6, .pop 7, .cancel (some 2), .pop 16])
    (P := fun t => t.returned = [some 3, some 1] ∧ t.cancelled = [some 2]) (by decide)
  exact ⟨t, hrun.of_guarded, hreturned, hcancelled, (taskPool_good_iff hrun.of_guarded).mpr hrun⟩

/-- A task is brought forward from 20 to 5, and `pop` at 10 returns the one that is due at 10 instead; another one is
taken by its id, and a null task stays. -/
theorem not_good_brought_forward :
    (∃ t : Logged ℕ, Run PoolStep {} [.pushDelayed 1 0 10, .pushDelayed 2 0 20, .delay (some 2) 0 5, .pop 10] t ∧
      t.returned = [some 1] ∧ t.pool.timerTasks = [(5, some 2)] ∧ ¬t.Good) ∧
    ∃ t : Logged ℕ, Run PoolStep {} [.pushDelayed 1 0 10, .popTask (some 1)] t ∧ t.pool.timerTasks = [(10, none)] ∧
      ¬t.Good := by
  constructor
  · obtain ⟨t, hrun, hreturned, htimer, hbad⟩ :=
      exists_run_execWhere_and (f := step) (G := fun _ _ => True) (s := ({} : Logged ℕ))
        (l := [.pushDelayed 1 0 10, .pushDelayed 2 0 20, .delay (some 2) 0 5, .pop 10])
        (P := fun t => t.returned = [some 1] ∧ t.pool.timerTasks = [(5, some 2)] ∧ ¬∀ ev ∈ t.events, ev.Ok) (by decide)
    exact ⟨t, hrun.of_guarded, hreturned, htimer, fun hgood => hbad hgood.events⟩
  · obtain ⟨t, hrun, htimer⟩ := exists_run_execWhere_and (f := step) (G := fun _ _ => True) (s := ({} : Logged ℕ))
      (l := [.pushDelayed 1 0 10, .popTask (some 1)]) (P := fun t => t.pool.timerTasks = [(10, none)]) (by decide)
    exact ⟨t, hrun.of_guarded, htimer, fun hgood => hgood.noNull (10, none) (by rw [htimer]; decide) rfl⟩

end Logged

end MidnightSun.TaskPoolUtil
