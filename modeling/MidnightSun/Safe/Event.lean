import Mathlib.Data.List.Basic

/-!
# `safe::event_t` (src/thread_safe.h)

A slot for one value between threads: `raise` overwrites it, `view` reads it and `pop` takes it.  Each call is one step,
as it runs under the event's lock; a call with a delay of nothing does not wait.
-/

namespace MidnightSun.Safe

/-- `event_t<T>`. -/
structure Event (α : Type*) where
  running : Bool := true
  status : Option α := none
  deriving DecidableEq

namespace Event

variable {α : Type*} (e : Event α)

def raise (x : α) : Event α := if e.running then { e with status := some x } else e

/-- `view(0s)`. -/
def viewNow : Option α := if e.running then e.status else none

/-- The event after `pop(0s)`, which returns what `view(0s)` does. -/
def popNow : Event α := if e.running then { e with status := none } else e

/-- `pop()` returns: a value is there, or the event is stopped. -/
def popReturns : Bool := !e.running || e.status.isSome

variable {e}

lemma raise_of_running (h : e.running = true) (x : α) : e.raise x = { e with status := some x } := if_pos h

lemma viewNow_of_running (h : e.running = true) : e.viewNow = e.status := if_pos h

lemma popNow_of_running (h : e.running = true) : e.popNow = { e with status := none } := if_pos h

lemma popReturns_of_running (h : e.running = true) : e.popReturns = e.status.isSome := by
  rw [popReturns, h]
  rfl

end Event

end MidnightSun.Safe
