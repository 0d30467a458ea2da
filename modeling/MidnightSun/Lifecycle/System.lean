import Mathlib.Logic.Function.Basic
import MidnightSun.Lib.Run
import MidnightSun.Safe.Queue

/-!
# Stream sessions and the broadcast threads (src/stream.cpp, src/rtsp.cpp)

The threads that share stream sessions: the RTSP thread in `cmd_announce` and `session::start`, the threads that call
`rtsp_server_t::clear`, the two threads of each session, and the threads of the broadcast context.  A step is what one
thread does between two points where another can act: one access to shared data, or one locked section.
-/

namespace MidnightSun.Lifecycle

open Lib

/-- `session::state_e`. -/
inductive State where
  | stopped
  | stopping
  | starting
  | running
  deriving DecidableEq

/-- How far `cmd_announce` is with its session; after `referenced` it is inside `session::start`. -/
inductive Announce where
  | none
  | allocated
  | inserted
  | referenced
  | pushed
  | audioStarted
  | videoStarted
  /-- `RUNNING` is stored -/
  | running
  /-- `running_sessions` counts the session and `start` returned 0 -/
  | started
  /-- `start` returned -1 -/
  | failed
  | removed
  deriving DecidableEq

/-- How far `clear` is with stopping and joining the session. -/
inductive Join where
  | idle
  | stop
  | enter
  | video
  | audio
  | control
  | count
  | erase
  | done
  deriving DecidableEq

inductive Media where
  | video
  | audio
  deriving DecidableEq

/-- `videoThread` and `audioThread`: a thread that was not created or is joined is not joinable. -/
inductive Thread where
  | none
  | created
  /-- it holds a reference to the broadcast context: `recv_ping`, then `capture` -/
  | capturing
  | released
  | ended
  | joined
  deriving DecidableEq

/-- `session_t`, as far as the threads share it. -/
structure Session where
  announce : Announce := .none
  state : State := .stopped
  join : Join := .idle
  thread : Media → Thread := fun _ => .none
  controlEnd : Bool := false
  /-- `broadcast_ref` is set -/
  broadcastRef : Bool := false
  /-- `cmd_announce` holds a `shared_ptr` to the session -/
  held : Bool := false
  destroyed : Bool := false
  /-- `ML_FF_SESSION_ID_V1` is among the client's feature flags -/
  sessionIdV1 : Bool := false
  connectData : UInt32 := 0
  expectedPeerAddress : String := ""
  peer : Option ℕ := none
  /-- ghost: how often `join` was entered -/
  entries : ℕ := 0

/-- Who holds a reference that `shared_t::_count` counts. -/
inductive Holder where
  | session (s : ℕ)
  | thread (s : ℕ) (m : Media)
  deriving DecidableEq

/-- Where `controlBroadcastThread` is. -/
inductive Control where
  /-- there is no broadcast context -/
  | none
  | top
  | locking
  /-- in the loop over the sessions, with the lock -/
  | sweep
  | swept
  | iterate
  | exiting
  /-- in the last loop over the sessions, with the lock -/
  | closing
  | returned
  deriving DecidableEq

/-- Where `videoBroadcastThread` or `audioBroadcastThread` is. -/
inductive Sender where
  | popping
  | processing (s : ℕ)
  | returned
  deriving DecidableEq

/-- `broadcast` and its `broadcast_ctx_t`.  `_count` is the number of references. -/
structure Broadcast where
  refs : List Holder := []
  control : Control := .none
  /-- the sessions that the loop of the control thread has still to visit -/
  todo : List ℕ := []
  /-- `has_session_awaiting_peer` -/
  awaiting : Bool := false
  /-- `control_server._sessions` -/
  sessions : List ℕ := []
  /-- `control_server._peer_to_session` -/
  peerToSession : List (ℕ × ℕ) := []
  /-- `mail::broadcast_shutdown` is raised -/
  shutdown : Bool := false
  /-- `mail::video_packets` and `mail::audio_packets`, of which only `channel_data` is kept -/
  packets : Media → Safe.Queue ℕ := fun _ => {}
  sender : Media → Sender := fun _ => .returned

/-- A run of `rtsp_server_t::clear`, which holds the lock of `_session_slots`. -/
structure Clear where
  all : Bool
  todo : List ℕ
  current : Option ℕ := none

/-- A peer that `get_session` bound to a session, with the event's data and the peer's address. -/
structure Binding where
  peer : ℕ
  session : ℕ
  data : UInt32
  address : String

structure World where
  /-- `mail::shutdown` is raised -/
  shutdown : Bool := false
  session : ℕ → Session := fun _ => {}
  /-- `_session_slots` -/
  slots : List ℕ := []
  clear : Option Clear := none
  runningSessions : UInt32 := 0
  broadcast : Broadcast := {}
  /-- ghost: the sessions whose `start`, and those whose `join`, reached its count of `running_sessions` -/
  started : List ℕ := []
  joined : List ℕ := []
  /-- ghost: the sessions for which a call of `stop` is over -/
  stops : List ℕ := []
  /-- ghost: what `get_session` bound -/
  bound : List Binding := []

def World.set (w : World) (s : ℕ) (x : Session) : World := { w with session := Function.update w.session s x }

/-! ### `session::stop` -/

/-- The compare-and-exchange of `stop`. -/
def State.stop : State → State
  | .running => .stopping
  | state => state

/-- `session::stop`; `while_starting_do_nothing` lets it wait while the state is `STARTING`. -/
def World.stop (w : World) (s : ℕ) : World :=
  { w.set s { w.session s with state := (w.session s).state.stop } with stops := s :: w.stops }

/-! ### `broadcast`, a `shared_t` -/

/-- `ref`: the first reference constructs the context and starts its threads. -/
def Broadcast.ref (b : Broadcast) (h : Holder) : Broadcast :=
  if b.refs = [] then { refs := [h], control := .top, sender := fun _ => .popping } else { b with refs := h :: b.refs }

/-- `release`: with the last reference `end_broadcast` begins, which stops the queues. -/
def Broadcast.release (b : Broadcast) (h : Holder) : Broadcast :=
  let b := { b with refs := b.refs.erase h }
  if b.refs = [] then { b with shutdown := true, packets := fun m => (b.packets m).stop } else b

/-- `ref` can be called: no `end_broadcast` is going on. -/
def Broadcast.free (b : Broadcast) : Prop := b.refs = [] → b.control = .none

instance (b : Broadcast) : Decidable b.free := by unfold Broadcast.free; infer_instance

/-! ### The control server -/

/-- An event that `enet_host_service` returns. -/
inductive EventType where
  | receive
  | connect
  | disconnect
  deriving DecidableEq

structure Event where
  type : EventType
  peer : ℕ
  data : UInt32
  /-- the peer's address -/
  address : String

/-- The conditions of `get_session` on a session that waits for a peer. -/
def Session.matches (x : Session) (e : Event) : Bool :=
  x.peer.isNone && if x.sessionIdV1 then x.connectData == e.data else x.expectedPeerAddress == e.address

/-- `get_session`: the session of a peer that is known, otherwise the first one that waits for such a peer. -/
def World.getSession (w : World) (e : Event) : Option ℕ :=
  match w.broadcast.peerToSession.lookup e.peer with
  | some s => some s
  | none => w.broadcast.sessions.find? fun s => (w.session s).matches e

/-- What `get_session` leaves. -/
def World.bind (w : World) (e : Event) : World :=
  match w.broadcast.peerToSession.lookup e.peer with
  | some _ => w
  | none =>
    match w.broadcast.sessions.find? fun s => (w.session s).matches e with
    | none => w
    | some s =>
      { w.set s { w.session s with peer := some e.peer } with
        broadcast := { w.broadcast with peerToSession := (e.peer, s) :: w.broadcast.peerToSession }
        bound := ⟨e.peer, s, e.data, e.address⟩ :: w.bound }

/-- One visit of the control thread's loop: a session that is `STOPPING` is taken out and its `controlEnd` raised. -/
def World.sweep (w : World) (s : ℕ) : World :=
  let b := { w.broadcast with todo := w.broadcast.todo.tail }
  if (w.session s).state = .stopping then
    { w.set s { w.session s with controlEnd := true } with
      broadcast :=
        { b with
          sessions := b.sessions.erase s
          peerToSession := match (w.session s).peer with
            | some peer => b.peerToSession.filter (·.1 ≠ peer)
            | none => b.peerToSession } }
  else { w with broadcast := { b with awaiting := b.awaiting || (w.session s).peer.isNone } }

/-! ### Steps -/

/-- What can happen. -/
inductive Op where
  /-- `mail::shutdown` is raised -/
  | shutDown
  /-- `cmd_announce`: `session::alloc` -/
  | alloc (s : ℕ) (sessionIdV1 : Bool) (connectData : UInt32)
  /-- `rtsp_server_t::insert` -/
  | insert (s : ℕ)
  /-- `start`: `broadcast.ref()` succeeds -/
  | ref (s : ℕ)
  /-- `start`: `broadcast.ref()` fails -/
  | refFails (s : ℕ)
  /-- `start`: the session is pushed to `control_server._sessions` -/
  | push (s : ℕ) (address : String)
  | startAudio (s : ℕ)
  | startVideo (s : ℕ)
  /-- `start`: `RUNNING` is stored -/
  | run (s : ℕ)
  /-- `start`: `++running_sessions` -/
  | count (s : ℕ)
  /-- `rtsp_server_t::remove` -/
  | remove (s : ℕ)
  /-- `cmd_announce` returns -/
  | announced (s : ℕ)
  /-- `rtsp_server_t::clear` takes the lock -/
  | clear (all : Bool)
  /-- `clear` looks at a slot -/
  | visit (s : ℕ)
  /-- `clear` stops the session -/
  | clearStop (s : ℕ)
  /-- `join` is entered -/
  | joinEnter (s : ℕ)
  /-- `join` waits for a thread; `std::thread::join` throws if it is not joinable -/
  | joinThread (s : ℕ) (m : Media)
  /-- `join`: `controlEnd.view()` -/
  | joinControl (s : ℕ)
  /-- `join`: `--running_sessions` -/
  | joinCount (s : ℕ)
  /-- `clear` erases the slot -/
  | erase (s : ℕ)
  /-- `clear` returns -/
  | cleared
  /-- `~session_t` releases `broadcast_ref` -/
  | release (s : ℕ)
  /-- `videoThread` or `audioThread`: `broadcast.ref()` -/
  | threadRef (s : ℕ) (m : Media)
  /-- an encoder raises a packet -/
  | raise (s : ℕ) (m : Media)
  /-- the audio encoder fails and stops the queue -/
  | encoderFails (s : ℕ)
  /-- the thread gives its reference back -/
  | threadRelease (s : ℕ) (m : Media)
  /-- the thread stops the session and ends -/
  | threadStop (s : ℕ) (m : Media)
  /-- the control thread tests whether to go on -/
  | loop
  /-- it locks the sessions -/
  | lock
  /-- it finds a session's ping timeout expired -/
  | timeout (s : ℕ)
  /-- it visits a session -/
  | sweep (s : ℕ)
  | swept
  /-- it asks whether an app is running -/
  | decide (appRunning : Bool)
  /-- `iterate`; `stops`: the handler of a received message stops the session -/
  | iterate (e : Option Event) (stops : Bool)
  /-- it locks the sessions for the last time -/
  | close
  | closeSession (s : ℕ)
  | closed
  /-- `videoBroadcastThread` gets no timer -/
  | noTimer
  /-- a broadcast thread pops a packet -/
  | pop (m : Media)
  /-- it has processed the packet; `fails`: the audio packet cannot be encoded -/
  | sent (m : Media) (fails : Bool)
  /-- `end_broadcast` has joined the threads -/
  | endBroadcast

/-- Who acts. -/
inductive Actor where
  /-- `cmd_announce` -/
  | announce
  /-- `clear`, and `~session_t` -/
  | clear
  /-- the two threads of a session -/
  | media
  /-- `controlBroadcastThread` -/
  | control
  /-- the other broadcast threads, `end_broadcast` and `mail::shutdown` -/
  | broadcast

def Op.actor : Op → Actor
  | alloc .. | insert _ | ref _ | refFails _ | push .. | startAudio _ | startVideo _ | run _ | count _ | remove _
  | announced _ => .announce
  | clear _ | visit _ | clearStop _ | joinEnter _ | joinThread .. | joinControl _ | joinCount _ | erase _ | cleared
  | release _ => .clear
  | threadRef .. | raise .. | encoderFails _ | threadRelease .. | threadStop .. => .media
  | loop | lock | timeout _ | sweep _ | swept | decide _ | iterate .. | close | closeSession _ | closed => .control
  | shutDown | noTimer | pop _ | sent .. | endBroadcast => .broadcast

/-- The session is destroyed when its last `shared_ptr` goes. -/
def World.drop (w : World) (s : ℕ) : World :=
  if (w.session s).held ∨ s ∈ w.slots then w else w.set s { w.session s with destroyed := true }

/-- The thread leaves its loop and raises `broadcast_shutdown`. -/
def Broadcast.senderReturns (b : Broadcast) (m : Media) : Broadcast :=
  { b with sender := Function.update b.sender m .returned, shutdown := true }

/-- `packets->pop()` and the test of the shutdown event. -/
def Broadcast.pop (b : Broadcast) (m : Media) : Option Broadcast :=
  match (b.packets m).pop with
  | .stopped => some (b.senderReturns m)
  | .waits => none
  | .element s rest =>
    let b := { b with packets := Function.update b.packets m rest }
    some (if b.shutdown then b.senderReturns m else { b with sender := Function.update b.sender m (.processing s) })

/-- `iterate`: the peer's session is looked up, or bound, and the event handled. -/
def World.iterate (w : World) (e : Event) (stops : Bool) : World :=
  match w.getSession e with
  | none => w
  | some s =>
    let w := w.bind e
    match e.type with
    | .connect => w
    | .receive => if stops then w.stop s else w
    | .disconnect => if (w.session s).state = .running then w.stop s else w

def World.setThread (w : World) (s : ℕ) (m : Media) (t : Thread) : World :=
  w.set s { w.session s with thread := Function.update (w.session s).thread m t }

/-- `cmd_announce` goes on. -/
def World.advance (w : World) (s : ℕ) (next : Announce) : World := w.set s { w.session s with announce := next }

/-- `clear` goes on with the session. -/
def World.joins (w : World) (s : ℕ) (next : Join) : World := w.set s { w.session s with join := next }

/-- The `clear` that is going on is at this point of stopping and joining the session. -/
def World.joining (w : World) (s : ℕ) (here : Join) : Prop :=
  (w.clear.bind (·.current)) = some s ∧ (w.session s).join = here

instance (w : World) (s : ℕ) (here : Join) : Decidable (w.joining s here) := by unfold World.joining; infer_instance

def World.control (w : World) (next : Control) : World := { w with broadcast := { w.broadcast with control := next } }

/-- The point at which `join` waits for the thread, and the next one. -/
def Media.join : Media → Join
  | .video => .video
  | .audio => .audio

def Media.joined : Media → Join
  | .video => .audio
  | .audio => .control

/-- `std::thread::join`: it returns when the thread has ended, and throws if the thread is not joinable. -/
def World.joinThread (w : World) (s : ℕ) (m : Media) : Option World :=
  match (w.session s).thread m with
  | .none | .joined => some { w.joins s .idle with clear := none }
  | .ended => some ((w.setThread s m .joined).joins s m.joined)
  | _ => none

/-- `clear` looks at a slot. -/
def World.visit (w : World) (s : ℕ) (c : Clear) : World :=
  if c.all ∨ (w.session s).state = .stopping then
    { w.joins s .stop with clear := some { c with todo := c.todo.erase s, current := some s } }
  else { w with clear := some { c with todo := c.todo.erase s } }

/-- The events that end the loops of the broadcast threads. -/
def World.ending (w : World) : Bool := w.shutdown || w.broadcast.shutdown

def step (w : World) : Op → Option World
  | .shutDown => some { w with shutdown := true }
  | .alloc s sessionIdV1 connectData =>
    if (w.session s).announce = .none then
      some (w.set s
        { announce := .allocated, held := true, sessionIdV1 := sessionIdV1, connectData := connectData })
    else none
  | .insert s =>
    if (w.session s).announce = .allocated ∧ w.clear.isNone then
      some { w.advance s .inserted with slots := s :: w.slots }
    else none
  | .ref s =>
    if (w.session s).announce = .inserted ∧ w.broadcast.free then
      some { w.set s { w.session s with announce := .referenced, broadcastRef := true } with
        broadcast := w.broadcast.ref (.session s) }
    else none
  | .refFails s =>
    if (w.session s).announce = .inserted ∧ w.broadcast.refs = [] ∧ w.broadcast.control = .none then
      some (w.advance s .failed)
    else none
  | .push s address =>
    if (w.session s).announce = .referenced ∧ w.broadcast.control ≠ .sweep ∧ w.broadcast.control ≠ .closing then
      some { w.set s { w.session s with announce := .pushed, expectedPeerAddress := address } with
        broadcast := { w.broadcast with sessions := w.broadcast.sessions ++ [s] } }
    else none
  | .startAudio s =>
    if (w.session s).announce = .pushed then some ((w.setThread s .audio .created).advance s .audioStarted) else none
  | .startVideo s =>
    if (w.session s).announce = .audioStarted then some ((w.setThread s .video .created).advance s .videoStarted)
    else none
  | .run s =>
    if (w.session s).announce = .videoStarted then
      some (w.set s { w.session s with announce := .running, state := .running })
    else none
  | .count s =>
    if (w.session s).announce = .running then
      some { w.advance s .started with runningSessions := w.runningSessions + 1, started := s :: w.started }
    else none
  | .remove s =>
    if (w.session s).announce = .failed ∧ w.clear.isNone then
      some { w.advance s .removed with slots := w.slots.erase s }
    else none
  | .announced s =>
    if ((w.session s).announce = .started ∨ (w.session s).announce = .removed) ∧ (w.session s).held then
      some ((w.set s { w.session s with held := false }).drop s)
    else none
  | .clear all => if w.clear.isNone then some { w with clear := some { all := all, todo := w.slots } } else none
  | .visit s =>
    w.clear.bind fun c => if c.current = none ∧ s ∈ c.todo then some (w.visit s c) else none
  | .clearStop s =>
    if w.joining s .stop ∧ (w.session s).state ≠ .starting then some ((w.stop s).joins s .enter) else none
  | .joinEnter s =>
    if w.joining s .enter then
      some (w.set s { w.session s with join := .video, entries := (w.session s).entries + 1 })
    else none
  | .joinThread s m => if w.joining s m.join then w.joinThread s m else none
  | .joinControl s => if w.joining s .control ∧ (w.session s).controlEnd then some (w.joins s .count) else none
  | .joinCount s =>
    if w.joining s .count then
      some { w.joins s .erase with runningSessions := w.runningSessions - 1, joined := s :: w.joined }
    else none
  | .erase s =>
    w.clear.bind fun c =>
      if w.joining s .erase then
        some ({ w.joins s .done with slots := w.slots.erase s, clear := some { c with current := none } }.drop s)
      else none
  | .cleared => w.clear.bind fun c => if c.current = none ∧ c.todo = [] then some { w with clear := none } else none
  | .release s =>
    if (w.session s).destroyed ∧ (w.session s).broadcastRef then
      some { w.set s { w.session s with broadcastRef := false } with broadcast := w.broadcast.release (.session s) }
    else none
  | .threadRef s m =>
    if (w.session s).thread m = .created ∧ (w.session s).state ≠ .starting ∧ w.broadcast.free then
      some { w.setThread s m .capturing with broadcast := w.broadcast.ref (.thread s m) }
    else none
  | .raise s m =>
    if (w.session s).thread m = .capturing then
      some { w with broadcast := { w.broadcast with
        packets := Function.update w.broadcast.packets m ((w.broadcast.packets m).raise s) } }
    else none
  | .encoderFails s =>
    if (w.session s).thread .audio = .capturing then
      some { w with broadcast := { w.broadcast with
        packets := Function.update w.broadcast.packets .audio (w.broadcast.packets .audio).stop } }
    else none
  | .threadRelease s m =>
    if (w.session s).thread m = .capturing then
      some { w.setThread s m .released with broadcast := w.broadcast.release (.thread s m) }
    else none
  | .threadStop s m =>
    if (w.session s).thread m = .released ∧ (w.session s).state ≠ .starting then
      some ((w.stop s).setThread s m .ended)
    else none
  | .loop =>
    if w.broadcast.control = .top then some (w.control (if w.ending then .exiting else .locking)) else none
  | .lock =>
    if w.broadcast.control = .locking then
      some { w with broadcast :=
        { w.broadcast with control := .sweep, todo := w.broadcast.sessions, awaiting := false } }
    else none
  | .timeout s =>
    if w.broadcast.control = .sweep ∧ w.broadcast.todo.head? = some s ∧ (w.session s).state ≠ .starting then
      some (w.stop s)
    else none
  | .sweep s =>
    if w.broadcast.control = .sweep ∧ w.broadcast.todo.head? = some s then some (w.sweep s) else none
  | .swept =>
    if w.broadcast.control = .sweep ∧ (w.broadcast.todo = [] ∨ w.ending) then some (w.control .swept) else none
  | .decide appRunning =>
    if w.broadcast.control = .swept then
      some (w.control (if !appRunning && !w.broadcast.awaiting then .exiting else .iterate))
    else none
  | .iterate e stops =>
    if w.broadcast.control = .iterate then
      some (match e with
        | some e => (w.iterate e stops).control .top
        | none => w.control .top)
    else none
  | .close =>
    if w.broadcast.control = .exiting then
      some { w with broadcast := { w.broadcast with control := .closing, todo := w.broadcast.sessions } }
    else none
  | .closeSession s =>
    if w.broadcast.control = .closing ∧ w.broadcast.todo.head? = some s then
      some { w.set s { w.session s with controlEnd := true } with
        broadcast := { w.broadcast with todo := w.broadcast.todo.tail } }
    else none
  | .closed =>
    if w.broadcast.control = .closing ∧ w.broadcast.todo = [] then some (w.control .returned) else none
  | .noTimer =>
    if w.broadcast.sender .video = .popping then
      some { w with broadcast :=
        { w.broadcast with sender := Function.update w.broadcast.sender .video .returned } }
    else none
  | .pop m =>
    if w.broadcast.sender m = .popping then (w.broadcast.pop m).map fun b => { w with broadcast := b } else none
  | .sent m fails =>
    if w.broadcast.sender m ≠ .popping ∧ w.broadcast.sender m ≠ .returned ∧ (fails → m = .audio) then
      some { w with broadcast :=
        if fails then w.broadcast.senderReturns m
        else { w.broadcast with sender := Function.update w.broadcast.sender m .popping } }
    else none
  | .endBroadcast =>
    if w.broadcast.refs = [] ∧ w.broadcast.control = .returned ∧ w.broadcast.sender .video = .returned ∧
        w.broadcast.sender .audio = .returned then
      some { w with broadcast := {} }
    else none

abbrev WorldStep : World → Op → World → Prop := ofPartial step

def World.boot : World := {}

end MidnightSun.Lifecycle
