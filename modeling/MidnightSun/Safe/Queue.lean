import Mathlib.Data.List.Basic

/-!
# `safe::queue_t` (src/thread_safe.h)

The queue between two threads: `raise` appends, after dropping the whole backlog when the queue is full; `pop` takes
the oldest element; `stop` makes every later call report no element.  Each call is one step, as it runs under the
queue's lock.
-/

namespace MidnightSun.Safe

/-- `queue_t<T>` with the capacity its constructor was given. -/
structure Queue (α : Type*) where
  maxElements : ℕ := 32
  running : Bool := true
  queue : List α := []
  deriving DecidableEq, Repr

namespace Queue

variable {α : Type*}

/-- `raise`: a full queue is cleared before the new element is appended. -/
def raise (q : Queue α) (x : α) : Queue α :=
  if q.running then
    { q with queue := (if q.queue.length = q.maxElements then [] else q.queue) ++ [x] }
  else q

/-- `peek`: is there an element to pop. -/
def peek (q : Queue α) : Bool := q.running && !q.queue.isEmpty

/-- What one call of `pop` does. -/
inductive Popped (α : Type*) where
  /-- the queue is stopped: `false_v` -/
  | stopped
  /-- the queue is empty: the call waits -/
  | waits
  | element (x : α) (rest : Queue α)

/-- `pop`. -/
def pop (q : Queue α) : Popped α :=
  if q.running then
    match q.queue with
    | [] => .waits
    | x :: xs => .element x { q with queue := xs }
  else .stopped

/-- `stop`. -/
def stop (q : Queue α) : Queue α := { q with running := false }

/-- `while (q->peek()) { … q->pop() … }`: the elements the loop takes, oldest first, and the queue it leaves. -/
def drain (q : Queue α) : List α × Queue α :=
  if q.peek then (q.queue, { q with queue := [] }) else ([], q)

/-! ### What the calls leave -/

@[simp] theorem raise_maxElements (q : Queue α) (x : α) : (q.raise x).maxElements = q.maxElements := by
  unfold raise; split <;> rfl

@[simp] theorem raise_running (q : Queue α) (x : α) : (q.raise x).running = q.running := by
  unfold raise; split <;> rfl

/-- What a queue holds after `raise` was there before or is the new element. -/
theorem mem_raise {q : Queue α} {x y : α} (h : y ∈ (q.raise x).queue) : y ∈ q.queue ∨ y = x := by
  unfold raise at h
  split at h
  · simp only [List.mem_append, List.mem_singleton] at h
    rcases h with h | h
    · split at h
      · simp at h
      · exact Or.inl h
    · exact Or.inr h
  · exact Or.inl h

theorem getLast?_raise {q : Queue α} (h : q.running = true) (x : α) : (q.raise x).queue.getLast? = some x := by
  rw [raise, if_pos h, List.getLast?_concat]

/-- All that `raise` can do. -/
theorem raise_cases (q : Queue α) (x : α) :
    q.running = false ∧ (q.raise x).queue = q.queue ∨
      q.queue.length = q.maxElements ∧ (q.raise x).queue = [x] ∨ (q.raise x).queue = q.queue ++ [x] := by
  unfold raise
  split
  · by_cases hfull : q.queue.length = q.maxElements
    · exact Or.inr (Or.inl ⟨hfull, by simp [hfull]⟩)
    · exact Or.inr (Or.inr (by simp [hfull]))
  next hrun => exact Or.inl ⟨by simpa using hrun, rfl⟩

theorem raise_length_le {q : Queue α} (hpos : 0 < q.maxElements) (h : q.queue.length ≤ q.maxElements) (x : α) :
    (q.raise x).queue.length ≤ (q.raise x).maxElements := by
  rw [raise_maxElements]
  unfold raise
  split
  · simp only [List.length_append, List.length_singleton]
    split
    · simp only [List.length_nil]; omega
    · omega
  · exact h

/-- `pop` takes the head. -/
theorem pop_eq_element {q r : Queue α} {x : α} (h : q.pop = .element x r) :
    q.running = true ∧ q.queue = x :: r.queue ∧ r.running = true ∧ r.maxElements = q.maxElements := by
  unfold pop at h
  split at h
  next hrun =>
    split at h
    · cases h
    next y ys hq =>
      cases h
      exact ⟨hrun, hq, hrun, rfl⟩
  · cases h

theorem drain_eq {q : Queue α} (h : q.running = true) : q.drain = (q.queue, { q with queue := [] }) := by
  unfold drain peek
  obtain ⟨n, r, l⟩ := q
  cases l <;> simp_all

end Queue

end MidnightSun.Safe
