import MidnightSun.Input.Passthrough
import MidnightSun.Lib.Coalesce

/-!
# The task pool and the input contexts (src/input.cpp, src/task_pool.h)

All contexts, the tasks of the pool and its one worker thread.  Packets arrive on other threads at any time; the worker
takes the tasks in order and runs a delayed task only when no task waits; which delayed task is due is left open.  A
call of `reset` is three steps of another thread.
-/

namespace MidnightSun.Input

open Lib Platf

inductive Task where
  /-- `passthrough_next_message`, for the context with this number -/
  | nextMessage (i : ℕ)
  /-- the task of `reset` -/
  | reset
  /-- the task of `~gamepad_t` -/
  | freeGamepad (id : ℤ)
  deriving DecidableEq

/-- What a platform call was made for. -/
inductive Cause where
  | packet (i : ℕ) (p : Packet)
  | task (t : Task)
  | timer (t : Timer)
  deriving DecidableEq

/-- An `input_t` with its queue. -/
structure Entry where
  context : Context := {}
  inputQueue : List Packet := []

structure World where
  host : Host := {}
  tasks : List Task := []
  inputs : ℕ → Option Entry := fun _ => none
  /-- ghost: all platform calls -/
  log : List (Cause × Call) := []
  /-- ghost: the packets that handlers were called with -/
  received : List Packet := []

/-- What can happen. -/
inductive Op where
  /-- `input::alloc` -/
  | alloc (i : ℕ) (r : Response)
  /-- the video thread raises `touch_port_event` -/
  | touchPort (i : ℕ) (port : TouchPort)
  /-- `input::passthrough` on the control thread -/
  | passthrough (i : ℕ) (p : Packet)
  /-- the worker runs the next task -/
  | work (r : Response)
  /-- the worker runs a delayed task -/
  | fire (id : TaskId) (r : Response)
  /-- `reset` cancels the key repeat -/
  | cancelRepeat
  /-- `reset` cancels the left release -/
  | cancelLeft (i : ℕ)
  /-- `reset` pushes its task -/
  | pushReset
  /-- the last reference to the context goes -/
  | destroy (i : ℕ)
  /-- another part of the program delays a task -/
  | delayOther (r : Response)

/-- `batch`, as the scan of a queue uses it. -/
def BatchResult.toMerge : BatchResult Packet → Merge Packet
  | .batched dest => .absorb dest
  | .notBatchable => .pass
  | .terminateBatch => .stop

def merge (lim : Limelight) (dest src : Packet) : Merge Packet := (batch lim dest src).toMerge

/-- An address for a new delayed task: neither of the two special values nor that of a delayed task that exists. -/
def World.fresh (w : World) (r : Response) : Prop :=
  disableLeftButtonDelay < r.newId ∧ ∀ x ∈ w.host.timers, x.1 ≠ r.newId

instance (w : World) (r : Response) : Decidable (w.fresh r) := by unfold World.fresh; infer_instance

/-- The state after a handler ran for the context `i`. -/
def World.handled (w : World) (i : ℕ) (e : Entry) (cause : Cause) (out : Host × Context × List Call) : World :=
  { w with
    host := out.1
    inputs := Function.update w.inputs i (some { e with context := out.2.1 })
    log := w.log ++ out.2.2.map (cause, ·) }

/-- The state after a task ran that concerns no context. -/
def World.ran (w : World) (cause : Cause) (out : Host × List Call) : World :=
  { w with host := out.1, log := w.log ++ out.2.map (cause, ·) }

variable (env : Env)

/-- `passthrough_next_message`: the first entry absorbs what it can of the queue and goes to its handler. -/
def nextMessage (r : Response) (w : World) (i : ℕ) : World :=
  match w.inputs i with
  | none => w
  | some e =>
    match e.inputQueue with
    | [] => w
    | d :: q =>
      let (p, rest) := coalesce (merge env.lim) d q
      { w.handled i { e with inputQueue := rest } (.packet i p) (passthrough env i r w.host e.context p) with
        received := w.received ++ [p] }

def runTask (r : Response) (w : World) (t : Task) : World :=
  match t with
  | .nextMessage i => nextMessage env r w i
  | .reset => w.ran (.task t) (resetTask w.host)
  | .freeGamepad id => w.ran (.task t) (freeGamepad w.host id)

/-- A delayed task, already taken from the pool.  It holds the context that it names. -/
def runTimer (r : Response) (w : World) (t : Timer) : World :=
  match t with
  | .leftRelease i =>
    match w.inputs i with
    | none => w
    | some e => w.handled i e (.timer t) (leftRelease env w.host e.context)
  | .repeatKey keyCode flags synthetic => w.ran (.timer t) (repeatKey env r w.host keyCode flags synthetic)
  | .backButton i c =>
    match w.inputs i with
    | none => w
    | some e => w.handled i e (.timer t) (w.host, backButton e.context c)
  | .nudge => w.ran (.timer t) (w.host, [.moveMouse 1 1, .moveMouse (-1) (-1)])
  | .other => w

/-- A task or delayed task holds a reference to the context. -/
def World.referenced (w : World) (i : ℕ) : Prop :=
  .nextMessage i ∈ w.tasks ∨ (∃ x ∈ w.host.timers, x.2 = .leftRelease i ∨ ∃ c, x.2 = .backButton i c)

instance (w : World) (i : ℕ) : Decidable (w.referenced i) := by unfold World.referenced; infer_instance

/-- `~input_t`: every allocated gamepad is freed by a task. -/
def destroyed (w : World) (i : ℕ) (e : Entry) : World :=
  { w with
    inputs := Function.update w.inputs i none
    tasks := w.tasks ++ ((List.finRange maxGamepads).map fun c => (e.context.gamepads c).id).filterMap
      fun id => if 0 ≤ id then some (Task.freeGamepad id) else none }

def step (w : World) : Op → Option World
  | .alloc i r =>
    if w.inputs i = none ∧ w.fresh r then
      some { w with inputs := Function.update w.inputs i (some {}), host := w.host.pushDelayed r.newId .nudge }
    else none
  | .touchPort i port =>
    (w.inputs i).map fun e =>
      { w with inputs := Function.update w.inputs i
                (some { e with context := { e.context with touchPortEvent := some port } }) }
  | .passthrough i p =>
    (w.inputs i).map fun e =>
      { w with
        inputs := Function.update w.inputs i (some { e with inputQueue := e.inputQueue ++ [p] })
        tasks := w.tasks ++ [.nextMessage i] }
  | .work r =>
    match w.tasks with
    | [] => none
    | t :: ts => if w.fresh r then some (runTask env r { w with tasks := ts } t) else none
  | .fire id r =>
    match w.tasks with
    | [] =>
      if w.fresh r then
        (w.host.timers.find? (·.1 = id)).map fun x => runTimer env r { w with host := w.host.cancel id } x.2
      else none
    | _ :: _ => none
  | .cancelRepeat => some { w with host := w.host.cancel w.host.keyPressRepeatId }
  | .cancelLeft i =>
    (w.inputs i).map fun e => { w with host := w.host.cancel e.context.mouseLeftButtonTimeout }
  | .pushReset => some { w with tasks := w.tasks ++ [.reset] }
  | .destroy i =>
    match w.inputs i with
    | none => none
    | some e => if w.referenced i then none else some (destroyed w i e)
  | .delayOther r => if w.fresh r then some { w with host := w.host.pushDelayed r.newId .other } else none

/-- A step of the system. -/
abbrev WorldStep : World → Op → World → Prop := ofPartial (step env)

def World.boot : World := {}

/-- The constants of the protocol, and the default configuration, for the runs on concrete inputs. -/
def demoEnv : Env where
  config := {}
  lim :=
    { buttonLeft := 1, buttonRight := 3, modifierShift := 1, modifierCtrl := 2, modifierAlt := 4,
      touchEventHover := 0, touchEventMove := 3, rotUnknown := 0xFFFF }

/-- What the next task hands to a handler: the context and the packet. -/
def World.next? (lim : Limelight) (w : World) : Option (ℕ × Context × Packet) :=
  match w.tasks with
  | .nextMessage i :: _ =>
    match w.inputs i with
    | none => none
    | some e =>
      match e.inputQueue with
      | [] => none
      | d :: q => some (i, e.context, (coalesce (merge lim) d q).1)
  | _ => none

theorem next?_eq {lim : Limelight} {w : World} {i : ℕ} {ts : List Task} {e : Entry} {d : Packet} {q : List Packet}
    (ht : w.tasks = .nextMessage i :: ts) (hi : w.inputs i = some e) (hq : e.inputQueue = d :: q) :
    w.next? lim = some (i, e.context, (coalesce (merge lim) d q).1) := by
  simp only [World.next?, ht, hi, hq]

end MidnightSun.Input
