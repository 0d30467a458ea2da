import Mathlib.Data.Fintype.Prod
import MidnightSun.Boost.PropertyTree
import MidnightSun.Lib.Registry
import MidnightSun.Lib.Run
import MidnightSun.Lib.Search
import MidnightSun.Safe.Queue
import MidnightSun.Util.Decimal

/-!
# The first ping of a session (src/stream.cpp, `recvThread` and `recv_ping`)

A thread of a session asks for the datagrams of its client: it puts its queue into `message_queue_queue`, under the ping
payload of the session and, for a client without session ids, under its address, too.  The receiver takes what is in
that queue when a datagram arrives, and looks the datagram up.  Every call of `raise` and `pop` is a step of its own.
A receive is always outstanding on each socket, and both write the sender to one variable.
-/

namespace MidnightSun.Stream.Ping

open Lib

/-- `socket_e`. -/
inductive SocketE | video | audio
  deriving DecidableEq

instance : Fintype SocketE := ⟨{.video, .audio}, fun x => by cases x <;> decide⟩

/-- `SS_PING`. -/
structure SsPing where
  size : ℕ
  payloadOffset : ℕ
  payloadSize : ℕ
  fits : payloadOffset + payloadSize ≤ size
  /-- no datagram has the length of both kinds of ping -/
  large : 4 < size

variable {S A : Type}

/-- `av_session_id_t`. -/
inductive SessionId (A : Type) where
  | address (address : A)
  | payload (s : Str)
  deriving DecidableEq

/-- `udp::endpoint`. -/
structure Endpoint (A : Type) where
  address : A
  port : ℕ
  deriving DecidableEq

/-- What `recv_ping` reads of a session. -/
structure Session (A : Type) where
  /-- `ML_FF_SESSION_ID_V1` is among the client's features -/
  sessionIdV1 : Bool
  pingPayload : Str
  /-- where its RTSP connection came from -/
  address : A

/-- A thread of a session, with its queue. -/
abbrev Waiter (S : Type) := S × SocketE

/-- Where `recv_ping` is: with the address raised, with both raised, out of the loop, with the queue stopped, with the
address withdrawn, with both withdrawn. -/
inductive Phase | idle | named | waiting | leaving | stopped | unnamed | done
  deriving DecidableEq

/-- `recv_ping`, with `messages` and `peer`. -/
structure Thread (A : Type) where
  phase : Phase := .idle
  messages : Safe.Queue (Endpoint A × Str) := { maxElements := 30 }
  peer : Endpoint A

/-- The error code of a receive. -/
inductive ErrorCode | success | connectionRefused | connectionReset | other
  deriving DecidableEq

/-- What a receive of `async_receive_from` ends with, on one of the sockets. -/
structure Datagram (A : Type) where
  socket : SocketE
  peer : Endpoint A
  ec : ErrorCode := .success
  buf : Str
  deriving DecidableEq

/-- A key of one of the two maps. -/
abbrev Key (A : Type) := SocketE × SessionId A

structure State (S A : Type) where
  thread : Waiter S → Thread A
  messageQueueQueue : Safe.Queue (Update (Key A) (Waiter S)) := { maxElements := 30 }
  /-- `peer_to_video_session` and `peer_to_audio_session` -/
  peerToSession : Key A → Option (Waiter S) := fun _ => none
  /-- what was received on a socket, its handler not called yet -/
  received : SocketE → Option (Datagram A) := fun _ => none
  /-- the datagram that is being handled -/
  handled : Option (Datagram A) := none
  /-- `peer` of `recvThread`: the sender of what was received last -/
  peer : Endpoint A

inductive Label (S A : Type) where
  | name (w : Waiter S)
  | identify (w : Waiter S)
  | pop (w : Waiter S)
  | timeout (w : Waiter S)
  | stop (w : Waiter S)
  | unname (w : Waiter S)
  | leave (w : Waiter S)
  | receive (d : Datagram A)
  | handle (socket : SocketE)
  | populate
  | deliver

variable (ping : SsPing) (session : S → Session A)

/-- `session::start` sets the peers of the sessions. -/
def State.init (peer : Endpoint A) : State S A where
  thread := fun w => { peer := { address := (session w.1).address, port := 0 } }
  peer := peer

/-- The key under which the client's address is raised. -/
def addressKey (w : Waiter S) (address : A) : Key A := (w.2, .address address)

def payloadKey (w : Waiter S) : Key A := (w.2, .payload (session w.1).pingPayload)

/-- The loop of `recv_ping` takes the message for a ping. -/
def accepts (w : Waiter S) (msg : Str) : Bool :=
  (search (session w.1).pingPayload msg).isSome || (!(session w.1).sessionIdV1 && msg == str "PING")

/-- The key that the handler looks up with `peer`, if it looks one up. -/
def lookedUp (peer : Endpoint A) (d : Datagram A) : Option (Key A) :=
  if d.ec = .connectionRefused ∨ d.ec = .connectionReset then none
  else if d.ec ≠ .success ∨ d.buf.length = 0 then none
  else if d.buf.length = 4 then some (d.socket, .address peer.address)
  else if d.buf.length ≥ ping.size then
    some (d.socket, .payload ((d.buf.drop ping.payloadOffset).take ping.payloadSize))
  else none

namespace State

def raise (s : State S A) (u : Update (Key A) (Waiter S)) : State S A :=
  { s with messageQueueQueue := s.messageQueueQueue.raise u }

variable [DecidableEq S]

def set (s : State S A) (w : Waiter S) (x : Thread A) : State S A := { s with thread := Function.update s.thread w x }

variable [DecidableEq A]

def step (s : State S A) : Label S A → Option (State S A)
  | .name w =>
    let x := s.thread w
    if x.phase = .idle ∧ (session w.1).sessionIdV1 = false then
      some ((s.raise (.enter (addressKey w x.peer.address) w)).set w { x with phase := .named })
    else none
  | .identify w =>
    let x := s.thread w
    if x.phase = .idle ∧ (session w.1).sessionIdV1 = true ∨ x.phase = .named then
      some ((s.raise (.enter (payloadKey session w) w)).set w { x with phase := .waiting })
    else none
  | .pop w =>
    let x := s.thread w
    if x.phase = .waiting then
      match x.messages.pop with
      | .element (recvPeer, msg) rest =>
        if accepts session w msg then some (s.set w { phase := .leaving, messages := rest, peer := recvPeer })
        else some (s.set w { x with messages := rest })
      | _ => none
    else none
  | .timeout w =>
    let x := s.thread w
    if x.phase = .waiting then some (s.set w { x with phase := .leaving }) else none
  -- the fail guard
  | .stop w =>
    let x := s.thread w
    if x.phase = .leaving then some (s.set w { x with phase := .stopped, messages := x.messages.stop }) else none
  | .unname w =>
    let x := s.thread w
    if x.phase = .stopped ∧ (session w.1).sessionIdV1 = false then
      some ((s.raise (.remove (addressKey w x.peer.address))).set w { x with phase := .unnamed })
    else none
  | .leave w =>
    let x := s.thread w
    if x.phase = .stopped ∧ (session w.1).sessionIdV1 = true ∨ x.phase = .unnamed then
      some ((s.raise (.remove (payloadKey session w))).set w { x with phase := .done })
    else none
  -- a handler asks for the next datagram of its socket when it ends
  | .receive d =>
    if s.received d.socket = none ∧ s.handled.map Datagram.socket ≠ some d.socket then
      some { s with
        received := Function.update s.received d.socket (some d)
        peer := if d.ec = .success then d.peer else s.peer }
    else none
  | .handle socket =>
    if s.handled = none then
      (s.received socket).map fun d =>
        { s with received := Function.update s.received socket none, handled := some d }
    else none
  | .populate =>
    if s.handled.isSome then
      match s.messageQueueQueue.pop with
      | .element u rest => some { s with peerToSession := u.apply s.peerToSession, messageQueueQueue := rest }
      | _ => none
    else none
  | .deliver =>
    s.handled.bind fun d =>
      if s.messageQueueQueue.peek then none else
      let s := { s with handled := none }
      match (lookedUp ping s.peer d).bind s.peerToSession with
      | none => some s
      | some w =>
        let x := s.thread w
        some (s.set w { x with messages := x.messages.raise (s.peer, d.buf) })

end State

/-! ### Delivery and withdrawal -/

/-- The address of the client is raised and not withdrawn. -/
def Phase.hasAddress : Phase → Bool
  | .named | .waiting | .leaving | .stopped => true
  | _ => false

/-- The ping payload is raised and not withdrawn. -/
def Phase.hasPayload : Phase → Bool
  | .waiting | .leaving | .stopped | .unnamed => true
  | _ => false

/-- A ping for the thread is still of use. -/
def Phase.awaits : Phase → Bool
  | .idle | .named | .waiting => true
  | _ => false

/-- A thread in this phase holds the key. -/
def Held (w : Waiter S) (p : Phase) (k : Key A) : Prop :=
  (session w.1).sessionIdV1 = false ∧ p.hasAddress = true ∧ k = addressKey w (session w.1).address ∨
    p.hasPayload = true ∧ k = payloadKey session w

instance [DecidableEq A] (w : Waiter S) (p : Phase) (k : Key A) : Decidable (Held session w p k) :=
  inferInstanceAs (Decidable (_ ∨ _))

/-- The datagram is a ping of the session's client. -/
def Addressed (d : Datagram A) (w : Waiter S) : Prop :=
  d.socket = w.2 ∧ d.ec = .success ∧
    (ping.size ≤ d.buf.length ∧ (d.buf.drop ping.payloadOffset).take ping.payloadSize = (session w.1).pingPayload ∨
      (session w.1).sessionIdV1 = false ∧ d.buf = str "PING" ∧ d.peer.address = (session w.1).address)

instance [DecidableEq A] (d : Datagram A) (w : Waiter S) : Decidable (Addressed ping session d w) :=
  inferInstanceAs (Decidable (_ ∧ _))

namespace State

def Holds (s : State S A) (w : Waiter S) (k : Key A) : Prop := Held session w (s.thread w).phase k

variable [DecidableEq A]

/-- The two maps, once everything that is queued is taken. -/
def entries (s : State S A) : Key A → Option (Waiter S) := view s.peerToSession s.messageQueueQueue.queue

structure Good [DecidableEq S] (s : State S A) : Prop where
  /-- a ping that is looked up comes to the queue of its session -/
  delivered : ∀ d w t, s.handled = some d → (s.thread w).phase = .waiting → Addressed ping session d w →
    s.step ping session .deliver = some t → (t.thread w).messages.queue.getLast? = some (d.peer, d.buf)
  /-- a session that has finished leaves no entry -/
  withdrawn : ∀ w k, (s.thread w).phase = .done → s.entries k ≠ some w

/-- The queue takes another update without dropping what it has. -/
def HasRoom (s : State S A) : Prop := s.messageQueueQueue.queue.length ≠ 30

/-- Nobody else holds the key. -/
def Free (s : State S A) (w : Waiter S) (k : Key A) : Prop := ∀ w', w' ≠ w → ¬s.Holds session w' k

/-- `recv_ping` takes the next message for a ping of another address. -/
def AcceptsOther (s : State S A) (w : Waiter S) : Prop :=
  match (s.thread w).messages.pop with
  | .element (recvPeer, msg) _ => accepts session w msg = true ∧ recvPeer.address ≠ (session w.1).address
  | _ => False

/-- The datagrams that have been received and not been handled. -/
def ForPending (s : State S A) (P : Datagram A → Prop) : Prop :=
  (∀ d ∈ s.handled, P d) ∧ ∀ socket, ∀ d ∈ s.received socket, P d

/-- Some thread still has use for the datagram. -/
def Awaited (s : State S A) (d : Datagram A) : Prop :=
  ∃ w, (s.thread w).phase.awaits = true ∧ Addressed ping session d w

def Guard (s : State S A) : Label S A → Prop
  | .name w => s.HasRoom ∧ s.Free session w (addressKey w (session w.1).address)
  | .identify w => s.HasRoom ∧ s.Free session w (payloadKey session w)
  | .pop w => (session w.1).sessionIdV1 = false → ¬s.AcceptsOther session w
  | .unname _ => s.HasRoom
  | .leave _ => s.HasRoom
  | .receive d => d.ec = .success → s.ForPending fun d' => s.Awaited ping session d' → d'.peer = d.peer
  | _ => True

end State

namespace State

variable [DecidableEq A]

instance (s : State S A) (w : Waiter S) : Decidable (s.AcceptsOther session w) :=
  match h : (s.thread w).messages.pop with
  | .element (recvPeer, msg) _ =>
    decidable_of_iff (accepts session w msg = true ∧ recvPeer.address ≠ (session w.1).address) (by rw [AcceptsOther, h])
  | .stopped => isFalse (by rw [AcceptsOther, h]; exact id)
  | .waits => isFalse (by rw [AcceptsOther, h]; exact id)

instance (s : State S A) (w : Waiter S) (k : Key A) : Decidable (s.Holds session w k) :=
  inferInstanceAs (Decidable (Held session w _ k))

instance (s : State S A) : Decidable s.HasRoom := inferInstanceAs (Decidable (_ ≠ _))

variable [DecidableEq S] [Fintype S]

instance (s : State S A) (w : Waiter S) (k : Key A) : Decidable (s.Free session w k) :=
  inferInstanceAs (Decidable (∀ _, _ → _))

instance (s : State S A) (d : Datagram A) : Decidable (s.Awaited ping session d) :=
  inferInstanceAs (Decidable (∃ _, _))

instance (s : State S A) (P : Datagram A → Prop) [DecidablePred P] : Decidable (s.ForPending P) :=
  inferInstanceAs (Decidable (_ ∧ _))

instance (s : State S A) : (a : Label S A) → Decidable (s.Guard ping session a)
  | .name _ | .identify _ => inferInstanceAs (Decidable (_ ∧ _))
  | .pop _ | .receive _ => inferInstanceAs (Decidable (_ → _))
  | .unname _ | .leave _ => inferInstanceAs (Decidable (HasRoom _))
  | .timeout _ | .stop _ | .handle _ | .populate | .deliver => instDecidableTrue

end State

/-! ### The invariant -/

/-- The thread has not stopped its queue. -/
def Phase.listens : Phase → Bool
  | .idle | .named | .waiting | .leaving => true
  | _ => false

namespace State

structure Inv [DecidableEq A] (s : State S A) : Prop where
  running : s.messageQueueQueue.running = true
  capacity : s.messageQueueQueue.maxElements = 30
  faithful : Faithful (s.Holds session) s.entries
  address : ∀ w, (session w.1).sessionIdV1 = false → (s.thread w).peer.address = (session w.1).address
  listens : ∀ w, (s.thread w).phase.listens = true → (s.thread w).messages.running = true
  /-- no other receive has replaced the sender -/
  sender : s.ForPending fun d => s.Awaited ping session d → d.peer = s.peer

variable {ping session} {s t : State S A}

theorem inv_init [DecidableEq A] (peer : Endpoint A) : (init session peer : State S A).Inv ping session where
  running := rfl
  capacity := rfl
  faithful := by
    intro k w
    refine iff_of_false (Option.some_ne_none w).symm ?_
    rintro (⟨-, hphase, -⟩ | ⟨hphase, -⟩) <;> cases hphase
  address := fun _ _ => rfl
  listens := fun _ _ => rfl
  sender := ⟨fun d hd => (Option.not_mem_none d hd).elim, fun _ d hd => (Option.not_mem_none d hd).elim⟩

lemma entries_raise [DecidableEq A] (hI : s.Inv ping session) (hroom : s.HasRoom) (u : Update (Key A) (Waiter S)) :
    (s.raise u).entries = u.apply s.entries := by
  unfold entries raise
  rw [Safe.Queue.raise, if_pos hI.running, hI.capacity, if_neg hroom, view_append_singleton]

/-- The maps, the queue for them and the datagrams move, and the threads do not. -/
theorem Inv.keep [DecidableEq A] (hI : s.Inv ping session) (hthread : t.thread = s.thread)
    (hrunning : t.messageQueueQueue.running = s.messageQueueQueue.running)
    (hcapacity : t.messageQueueQueue.maxElements = s.messageQueueQueue.maxElements) (hentries : t.entries = s.entries)
    (hsender : t.ForPending fun d => s.Awaited ping session d → d.peer = t.peer) : t.Inv ping session where
  running := hrunning.trans hI.running
  capacity := hcapacity.trans hI.capacity
  faithful := by
    have hholds : t.Holds session = s.Holds session := by
      funext w k
      rw [Holds, hthread, Holds]
    rw [hentries, hholds]
    exact hI.faithful
  address := by
    rw [hthread]
    exact hI.address
  listens := by
    rw [hthread]
    exact hI.listens
  sender := by
    have hawaited : ∀ d, t.Awaited ping session d ↔ s.Awaited ping session d := fun d => by
      rw [Awaited, hthread, Awaited]
    simp only [hawaited]
    exact hsender

lemma Awaited.ec {d : Datagram A} (h : s.Awaited ping session d) : d.ec = .success := by
  obtain ⟨w, -, -, hec, -⟩ := h
  exact hec

lemma payloadKey_ne_addressKey (w w' : Waiter S) (address : A) : payloadKey session w ≠ addressKey w' address := by
  simp [payloadKey, addressKey]

lemma lookedUp_of_addressed {d : Datagram A} {w : Waiter S} (h : Addressed ping session d w) :
    ∃ k, lookedUp ping d.peer d = some k ∧ Held session w .waiting k := by
  obtain ⟨hsocket, hec, ⟨hsize, hpayload⟩ | ⟨hlegacy, hbuf, haddress⟩⟩ := h
  · have hlarge := ping.large
    have hgood : ¬(d.ec ≠ .success ∨ d.buf.length = 0) := by
      rintro (hne | hzero)
      · exact hne hec
      · omega
    refine ⟨payloadKey session w, ?_, Or.inr ⟨rfl, rfl⟩⟩
    rw [lookedUp, if_neg (by simp [hec]), if_neg hgood, if_neg (by omega), if_pos hsize, hpayload, hsocket]
    rfl
  · refine ⟨addressKey w (session w.1).address, ?_, Or.inl ⟨hlegacy, rfl, rfl⟩⟩
    have hlength : d.buf.length = 4 := by rw [hbuf]; rfl
    rw [lookedUp, if_neg (by simp [hec]), if_neg (by simp [hec, hlength]), if_pos hlength, haddress, hsocket]
    rfl

/-! #### One thread moves -/

section threads

variable [DecidableEq S]

lemma holds_set (s : State S A) (w : Waiter S) (x : Thread A) (w' : Waiter S) (k : Key A) :
    (s.set w x).Holds session w' k ↔ if w' = w then Held session w x.phase k else s.Holds session w' k := by
  unfold Holds set
  by_cases hw : w' = w
  · subst hw
    simp
  · simp [hw]

lemma holds_set_enter {w : Waiter S} {x : Thread A} {key : Key A}
    (h : ∀ k, Held session w x.phase k ↔ s.Holds session w k ∨ k = key) (w' : Waiter S) (k : Key A) :
    (s.set w x).Holds session w' k ↔ s.Holds session w' k ∨ w' = w ∧ k = key := by
  rw [holds_set]
  split_ifs with hw
  · rw [h, hw]
    simp
  · simp [hw]

lemma holds_set_remove {w : Waiter S} {x : Thread A} {key : Key A}
    (h : ∀ k, Held session w x.phase k ↔ s.Holds session w k ∧ k ≠ key) (w' : Waiter S) (k : Key A) :
    (s.set w x).Holds session w' k ↔ s.Holds session w' k ∧ ¬(w' = w ∧ k = key) := by
  rw [holds_set]
  split_ifs with hw
  · rw [h, hw]
    simp
  · simp [hw]

lemma holds_set_same {w : Waiter S} {x : Thread A} (haddress : x.phase.hasAddress = (s.thread w).phase.hasAddress)
    (hpayload : x.phase.hasPayload = (s.thread w).phase.hasPayload) (w' : Waiter S) (k : Key A) :
    (s.set w x).Holds session w' k ↔ s.Holds session w' k := by
  rw [holds_set]
  split_ifs with hw
  · rw [Holds, Held, Held, haddress, hpayload, hw]
  · rfl

lemma forall_thread_set {P : Waiter S → Thread A → Prop} {w : Waiter S} {x : Thread A} (hx : P w x)
    (h : ∀ w', P w' (s.thread w')) (w' : Waiter S) : P w' ((s.set w x).thread w') := by
  by_cases hw : w' = w
  · subst hw
    simpa [set] using hx
  · simpa [set, hw] using h w'

lemma Awaited.of_set {w : Waiter S} {x : Thread A} {d : Datagram A}
    (hawaits : x.phase.awaits = true → (s.thread w).phase.awaits = true)
    (h : (s.set w x).Awaited ping session d) : s.Awaited ping session d := by
  obtain ⟨w', hphase, haddressed⟩ := h
  refine ⟨w', ?_, haddressed⟩
  by_cases hw : w' = w
  · subst hw
    apply hawaits
    simpa [set] using hphase
  · simpa [set, hw] using hphase

variable [DecidableEq A]

theorem Inv.set (hI : s.Inv ping session) {w : Waiter S} {x : Thread A}
    (haddress : x.phase.hasAddress = (s.thread w).phase.hasAddress)
    (hpayload : x.phase.hasPayload = (s.thread w).phase.hasPayload)
    (hpeer : (session w.1).sessionIdV1 = false → x.peer.address = (session w.1).address)
    (hlistens : x.phase.listens = true → x.messages.running = true)
    (hawaits : x.phase.awaits = true → (s.thread w).phase.awaits = true) : (s.set w x).Inv ping session where
  running := hI.running
  capacity := hI.capacity
  faithful := hI.faithful.congr (holds_set_same haddress hpayload)
  address := forall_thread_set
    (P := fun w x => (session w.1).sessionIdV1 = false → x.peer.address = (session w.1).address) hpeer hI.address
  listens := forall_thread_set (P := fun _ x => x.phase.listens = true → x.messages.running = true) hlistens hI.listens
  sender := ⟨fun d hd h => hI.sender.1 d hd (h.of_set hawaits),
    fun socket d hd h => hI.sender.2 socket d hd (h.of_set hawaits)⟩

/-- A thread raises an update and moves. -/
theorem Inv.raise (hI : s.Inv ping session) (hroom : s.HasRoom) {u : Update (Key A) (Waiter S)} {w : Waiter S}
    {x : Thread A} (hfaithful : Faithful ((s.set w x).Holds session) (u.apply s.entries))
    (hpeer : x.peer = (s.thread w).peer) (hmessages : x.messages = (s.thread w).messages)
    (hlistens : x.phase.listens = true → (s.thread w).phase.listens = true)
    (hawaits : x.phase.awaits = true → (s.thread w).phase.awaits = true) :
    ((s.raise u).set w x).Inv ping session where
  running := (s.messageQueueQueue.raise_running u).trans hI.running
  capacity := (s.messageQueueQueue.raise_maxElements u).trans hI.capacity
  faithful := by
    rw [← entries_raise hI hroom] at hfaithful
    exact hfaithful
  address := by
    refine forall_thread_set
      (P := fun w x => (session w.1).sessionIdV1 = false → x.peer.address = (session w.1).address)
      (fun hlegacy => ?_) hI.address
    rw [hpeer]
    exact hI.address w hlegacy
  listens := by
    refine forall_thread_set (P := fun _ x => x.phase.listens = true → x.messages.running = true) (fun h => ?_)
      hI.listens
    rw [hmessages]
    exact hI.listens w (hlistens h)
  sender := ⟨fun d hd h => hI.sender.1 d hd (h.of_set hawaits),
    fun socket d hd h => hI.sender.2 socket d hd (h.of_set hawaits)⟩

/-! #### The steps -/

theorem Inv.name (hI : s.Inv ping session) {w : Waiter S} (hG : s.Guard ping session (.name w))
    (hst : s.step ping session (.name w) = some t) : t.Inv ping session := by
  obtain ⟨⟨hidle, hlegacy⟩, rfl⟩ := of_ite_some hst
  obtain ⟨hroom, hfree⟩ := hG
  rw [← hI.address w hlegacy] at hfree
  refine hI.raise hroom (hI.faithful.enter ?_ (holds_set_enter fun k => ?_)) rfl rfl (fun _ => by rw [hidle]; rfl)
    fun _ => by rw [hidle]; rfl
  · intro w' hholds
    by_cases hw : w' = w
    · subst hw
      rw [Holds, hidle] at hholds
      simp [Held, Phase.hasAddress, Phase.hasPayload] at hholds
    · exact hfree w' hw hholds
  · rw [Holds, hidle]
    simp [Held, Phase.hasAddress, Phase.hasPayload, hlegacy, hI.address w hlegacy]

theorem Inv.identify (hI : s.Inv ping session) {w : Waiter S} (hG : s.Guard ping session (.identify w))
    (hst : s.step ping session (.identify w) = some t) : t.Inv ping session := by
  obtain ⟨hphase, rfl⟩ := of_ite_some hst
  obtain ⟨hroom, hfree⟩ := hG
  have hearly : (s.thread w).phase.listens = true ∧ (s.thread w).phase.awaits = true := by
    rcases hphase with ⟨hidle, -⟩ | hnamed
    · rw [hidle]
      exact ⟨rfl, rfl⟩
    · rw [hnamed]
      exact ⟨rfl, rfl⟩
  refine hI.raise hroom (hI.faithful.enter ?_ (holds_set_enter fun k => ?_)) rfl rfl (fun _ => hearly.1)
    fun _ => hearly.2
  · intro w' hholds
    by_cases hw : w' = w
    · subst hw
      rcases hholds with ⟨-, -, hkey⟩ | ⟨hpayload, -⟩
      · exact payloadKey_ne_addressKey _ _ _ hkey
      · rcases hphase with ⟨hidle, -⟩ | hnamed
        · rw [hidle] at hpayload; cases hpayload
        · rw [hnamed] at hpayload; cases hpayload
    · exact hfree w' hw hholds
  · rw [Holds]
    rcases hphase with ⟨hidle, hv1⟩ | hnamed
    · rw [hidle]
      simp [Held, Phase.hasAddress, Phase.hasPayload, hv1]
    · rw [hnamed]
      simp [Held, Phase.hasAddress, Phase.hasPayload]

theorem Inv.pop (hI : s.Inv ping session) {w : Waiter S} (hG : s.Guard ping session (.pop w))
    (hst : s.step ping session (.pop w) = some t) : t.Inv ping session := by
  simp only [step] at hst
  split_ifs at hst with hphase
  have hlistens := hI.listens w (by rw [hphase]; rfl)
  cases hpop : (s.thread w).messages.pop with
  | stopped => simp [hpop] at hst
  | waits => simp [hpop] at hst
  | element e rest =>
    obtain ⟨recvPeer, msg⟩ := e
    have hrest := (Safe.Queue.pop_eq_element hpop).2.2.1
    simp only [hpop] at hst
    split_ifs at hst with haccepts
    · obtain rfl := Option.some.inj hst
      refine hI.set (by rw [hphase]; rfl) (by rw [hphase]; rfl) (fun hlegacy => ?_) (fun _ => hrest)
        fun h => by cases h
      have hsame := hG hlegacy
      simp only [AcceptsOther, hpop, haccepts, true_and, not_not] at hsame
      exact hsame
    · obtain rfl := Option.some.inj hst
      exact hI.set rfl rfl (hI.address w) (fun _ => hrest) id

theorem Inv.timeout (hI : s.Inv ping session) {w : Waiter S} (hst : s.step ping session (.timeout w) = some t) :
    t.Inv ping session := by
  obtain ⟨hphase, rfl⟩ := of_ite_some hst
  exact hI.set (by rw [hphase]; rfl) (by rw [hphase]; rfl) (hI.address w)
    (fun _ => hI.listens w (by rw [hphase]; rfl)) fun h => by cases h

theorem Inv.stop (hI : s.Inv ping session) {w : Waiter S} (hst : s.step ping session (.stop w) = some t) :
    t.Inv ping session := by
  obtain ⟨hphase, rfl⟩ := of_ite_some hst
  exact hI.set (by rw [hphase]; rfl) (by rw [hphase]; rfl) (hI.address w) (fun h => by cases h) fun h => by cases h

theorem Inv.unname (hI : s.Inv ping session) {w : Waiter S} (hG : s.Guard ping session (.unname w))
    (hst : s.step ping session (.unname w) = some t) : t.Inv ping session := by
  obtain ⟨⟨hstopped, hlegacy⟩, rfl⟩ := of_ite_some hst
  have hkey := hI.address w hlegacy
  refine hI.raise hG (hI.faithful.remove ?_ (holds_set_remove fun k => ?_)) rfl rfl (fun h => by cases h)
    fun h => by cases h
  · exact Or.inl ⟨hlegacy, by rw [hstopped]; rfl, by rw [hkey]⟩
  · rw [Holds, hstopped, hkey]
    simp only [Held, Phase.hasAddress, Phase.hasPayload, hlegacy, true_and, Bool.false_eq_true, false_and, false_or]
    constructor
    · rintro rfl
      exact ⟨Or.inr rfl, payloadKey_ne_addressKey _ _ _⟩
    · rintro ⟨hk | hk, hne⟩
      · exact absurd hk hne
      · exact hk

theorem Inv.leave (hI : s.Inv ping session) {w : Waiter S} (hG : s.Guard ping session (.leave w))
    (hst : s.step ping session (.leave w) = some t) : t.Inv ping session := by
  obtain ⟨hphase, rfl⟩ := of_ite_some hst
  refine hI.raise hG (hI.faithful.remove (o := w) ?_ (holds_set_remove fun k => ?_)) rfl rfl (fun h => by cases h)
    fun h => by cases h
  · refine Or.inr ⟨?_, rfl⟩
    rcases hphase with ⟨hstopped, -⟩ | hunnamed
    · rw [hstopped]; rfl
    · rw [hunnamed]; rfl
  · rw [Holds]
    rcases hphase with ⟨hstopped, hv1⟩ | hunnamed
    · rw [hstopped]
      simp [Held, Phase.hasAddress, Phase.hasPayload, hv1]
    · rw [hunnamed]
      simp [Held, Phase.hasAddress, Phase.hasPayload]

theorem Inv.populate (hI : s.Inv ping session) (hst : s.step ping session .populate = some t) : t.Inv ping session := by
  simp only [step] at hst
  split_ifs at hst with hhandled
  cases hpop : s.messageQueueQueue.pop with
  | stopped => simp [hpop] at hst
  | waits => simp [hpop] at hst
  | element u rest =>
    obtain ⟨hrun, hqueue, hrest, hmax⟩ := Safe.Queue.pop_eq_element hpop
    simp only [hpop] at hst
    obtain rfl := Option.some.inj hst
    refine hI.keep rfl (hrest.trans hrun.symm) hmax ?_ hI.sender
    rw [entries, entries, hqueue, view_cons]

theorem Inv.receive (hI : s.Inv ping session) {d : Datagram A} (hG : s.Guard ping session (.receive d))
    (hst : s.step ping session (.receive d) = some t) : t.Inv ping session := by
  obtain ⟨-, rfl⟩ := of_ite_some hst
  have hsender : s.ForPending fun d' =>
      s.Awaited ping session d' → d'.peer = if d.ec = .success then d.peer else s.peer := by
    split_ifs with hec
    · exact hG hec
    · exact hI.sender
  refine hI.keep rfl rfl rfl rfl ⟨hsender.1, fun socket d' hd' => ?_⟩
  by_cases hsocket : socket = d.socket
  · subst hsocket
    obtain rfl : d = d' := by simpa using hd'
    exact fun hawaited => (if_pos hawaited.ec).symm
  · exact hsender.2 socket d' (by simpa [hsocket] using hd')

theorem Inv.handle (hI : s.Inv ping session) {socket : SocketE} (hst : s.step ping session (.handle socket) = some t) :
    t.Inv ping session := by
  simp only [step] at hst
  split_ifs at hst
  obtain ⟨d, hd, rfl⟩ := Option.map_eq_some_iff.mp hst
  refine hI.keep rfl rfl rfl rfl ⟨fun d' hd' => ?_, fun socket' d' hd' => ?_⟩
  · obtain rfl : d = d' := by simpa using hd'
    exact hI.sender.2 socket d hd
  · by_cases hsocket : socket' = socket
    · subst hsocket
      simp at hd'
    · exact hI.sender.2 socket' d' (by simpa [hsocket] using hd')

/-- What the handler does after its last peek. -/
lemma of_deliver (hI : s.Inv ping session) (hst : s.step ping session .deliver = some t) :
    ∃ d, s.handled = some d ∧ s.messageQueueQueue.queue = [] ∧
      t = match (lookedUp ping s.peer d).bind s.peerToSession with
        | none => { s with handled := none }
        | some w => State.set { s with handled := none } w
          { s.thread w with messages := (s.thread w).messages.raise (s.peer, d.buf) } := by
  obtain ⟨d, hd, hst⟩ := Option.bind_eq_some_iff.mp hst
  split_ifs at hst with hpeek
  have hempty : s.messageQueueQueue.queue = [] := by
    rw [Safe.Queue.peek, hI.running] at hpeek
    simpa using hpeek
  refine ⟨d, hd, hempty, ?_⟩
  cases hfound : (lookedUp ping s.peer d).bind s.peerToSession with
  | none =>
    simp only [hfound] at hst
    exact (Option.some.inj hst).symm
  | some w =>
    simp only [hfound] at hst
    exact (Option.some.inj hst).symm

theorem Inv.deliver (hI : s.Inv ping session) (hst : s.step ping session .deliver = some t) : t.Inv ping session := by
  obtain ⟨d, -, -, rfl⟩ := of_deliver hI hst
  have hkeep : State.Inv ping session { s with handled := none } :=
    hI.keep rfl rfl rfl rfl ⟨fun d hd => (Option.not_mem_none d hd).elim, hI.sender.2⟩
  cases (lookedUp ping s.peer d).bind s.peerToSession with
  | none => exact hkeep
  | some w =>
    refine hkeep.set rfl rfl (hI.address w) (fun h => ?_) id
    exact ((s.thread w).messages.raise_running _).trans (hI.listens w h)

/-- **One step.**  What meets the guard keeps the invariant. -/
theorem Inv.step (hI : s.Inv ping session) {a : Label S A} (hG : s.Guard ping session a)
    (hst : s.step ping session a = some t) :
    t.Inv ping session := by
  cases a with
  | name w => exact hI.name hG hst
  | identify w => exact hI.identify hG hst
  | pop w => exact hI.pop hG hst
  | timeout w => exact hI.timeout hst
  | stop w => exact hI.stop hst
  | unname w => exact hI.unname hG hst
  | leave w => exact hI.leave hG hst
  | receive d => exact hI.receive hG hst
  | handle socket => exact hI.handle hst
  | populate => exact hI.populate hst
  | deliver => exact hI.deliver hst

/-! #### What the invariant is for -/

theorem Inv.good (hI : s.Inv ping session) : s.Good ping session where
  delivered := by
    intro d w t hd hwaiting haddressed hst
    obtain ⟨d', hd', hempty, rfl⟩ := of_deliver hI hst
    obtain rfl := Option.some.inj (hd.symm.trans hd')
    obtain ⟨k, hlookedUp, hheld⟩ := lookedUp_of_addressed haddressed
    have hentry : s.entries k = some w := by
      apply (hI.faithful k w).mpr
      rw [Holds, hwaiting]
      exact hheld
    -- The queue is empty, so the entry is in the map already.
    rw [entries, hempty] at hentry
    have hpeer : d.peer = s.peer := hI.sender.1 d hd ⟨w, by rw [hwaiting]; rfl, haddressed⟩
    rw [hpeer] at hlookedUp
    have hfound : (lookedUp ping s.peer d).bind s.peerToSession = some w := by
      rw [hlookedUp]
      exact hentry
    rw [hfound, hpeer]
    simp only [State.set, Function.update_self]
    exact Safe.Queue.getLast?_raise (hI.listens w (by rw [hwaiting]; rfl)) _
  withdrawn := by
    intro w k hdone hentry
    have hholds := (hI.faithful k w).mp hentry
    rw [Holds, hdone] at hholds
    rcases hholds with ⟨-, h, -⟩ | ⟨h, -⟩ <;> cases h

end threads

end State

variable {ping session} [DecidableEq S] [DecidableEq A]

/-- **Initial pings reach their session**, and a session that has finished leaves no entry behind: in every state of a
run in which every update finds room in the queue, no key is raised that somebody else holds, no client of the old
kind changes its address, and no receive takes the sender from a ping that has not been handled. -/
theorem pings_good {peer : Endpoint A} {t : State S A} {as : List (Label S A)}
    (h : Run (Guarded (ofPartial (State.step ping session)) (State.Guard ping session)) (State.init session peer) as
      t) :
    t.Good ping session :=
  (h.invariant_where (fun _ _ _ hI hG hst => hI.step hG hst) (State.inv_init peer)).good

/-- The layout of a ping, with a payload of sixteen characters before a sequence number. -/
def ssPing : SsPing where
  size := 20
  payloadOffset := 0
  payloadSize := 16
  fits := by decide
  large := by decide

/-- Sessions without ids, each with an address of its own. -/
def oldSession (i : Fin 2) : Session ℕ where
  sessionIdV1 := false
  pingPayload := str "001122334455661" ++ Util.decimal i
  address := i

/-- Sessions with ids. -/
def newSession (i : ℕ) : Session ℕ where
  sessionIdV1 := true
  pingPayload := str "00112233445566" ++ Util.decimal (10 + i)
  address := i

def noPeer : Endpoint ℕ := { address := 0, port := 0 }

/-- A ping of the old kind, and then one with a payload. -/
theorem pings_good_two_sessions :
    ∃ (as : List (Label (Fin 2) ℕ)) (t : State (Fin 2) ℕ),
      Run (ofPartial (State.step ssPing oldSession)) (State.init oldSession noPeer) as t ∧
      (t.thread (0, .video)).phase = .done ∧ (t.thread (1, .video)).phase = .leaving ∧ t.Good ssPing oldSession := by
  obtain ⟨t, hrun, hdone, hleaving⟩ := exists_run_execWhere_and (f := State.step ssPing oldSession)
    (G := State.Guard ssPing oldSession) (s := State.init oldSession noPeer)
    (l := [.name (0, .video), .identify (0, .video), .name (1, .video), .identify (1, .video),
      .receive { socket := .video, peer := { address := 0, port := 5 }, buf := str "PING" }, .handle .video,
      .populate, .populate, .populate, .populate, .deliver, .pop (0, .video), .stop (0, .video), .unname (0, .video),
      .receive { socket := .video, peer := { address := 1, port := 6 }, buf := str "0011223344556611" ++ [0, 0, 0, 1] },
      .leave (0, .video), .handle .video, .populate, .populate, .deliver, .pop (1, .video)])
    (P := fun t => (t.thread (0, .video)).phase = .done ∧ (t.thread (1, .video)).phase = .leaving) (by decide +kernel)
  exact ⟨_, t, hrun.of_guarded, hdone, hleaving, pings_good hrun⟩

/-- The threads of a session that never gets a ping. -/
def givesUp (i : ℕ) : List (Label ℕ ℕ) :=
  [.identify (i, .audio), .identify (i, .video), .timeout (i, .audio), .timeout (i, .video), .stop (i, .audio),
    .leave (i, .audio), .stop (i, .video), .leave (i, .video)]

/-- A session without ids accepts a ping that comes from another address, and its own address stays in the map.  Where
seven sessions have given up before a datagram came, the third thread that waits drops what the first two have raised.
And a ping on the audio socket takes the sender from one on the video socket, which is then lost. -/
theorem not_good_moved_dropped_replaced :
    (∃ (as : List (Label (Fin 2) ℕ)) (t : State (Fin 2) ℕ),
      Run (ofPartial (State.step ssPing oldSession)) (State.init oldSession noPeer) as t ∧
      (t.thread (0, .video)).phase = .done ∧ ¬t.Good ssPing oldSession) ∧
    (∃ (as : List (Label ℕ ℕ)) (t : State ℕ ℕ),
      Run (ofPartial (State.step ssPing newSession)) (State.init newSession noPeer) as t ∧
      (t.thread (7, .video)).phase = .waiting ∧ ¬t.Good ssPing newSession) ∧
    ∃ (as : List (Label (Fin 2) ℕ)) (t : State (Fin 2) ℕ),
      Run (ofPartial (State.step ssPing oldSession)) (State.init oldSession noPeer) as t ∧
      (t.thread (0, .video)).phase = .waiting ∧ ¬t.Good ssPing oldSession := by
  refine ⟨?_, ?_, ?_⟩
  · obtain ⟨t, hrun, hdone, hentry⟩ := exists_run_execWhere_and (f := State.step ssPing oldSession)
      (G := fun _ _ => True) (s := State.init oldSession noPeer)
      (l := [.name (0, .video), .identify (0, .video),
        .receive {
          socket := .video, peer := { address := 9, port := 5 }, buf := str "0011223344556610" ++ [0, 0, 0, 1] },
        .handle .video, .populate, .populate, .deliver, .pop (0, .video), .stop (0, .video), .unname (0, .video),
        .leave (0, .video)])
      (P := fun t => (t.thread (0, .video)).phase = .done ∧
        t.entries (addressKey (0, .video) 0) = some (0, .video)) (by decide +kernel)
    exact ⟨_, t, hrun.of_guarded, hdone, fun hgood => hgood.withdrawn _ _ hdone hentry⟩
  · let d : Datagram ℕ :=
      { socket := .video, peer := { address := 7, port := 5 }, buf := str "0011223344556617" ++ [0, 0, 0, 1] }
    obtain ⟨t, hrun, hwaiting, hhandled, hlost⟩ := exists_run_execWhere_and (f := State.step ssPing newSession)
      (G := fun _ _ => True) (s := State.init newSession noPeer)
      (l := (List.range 7).flatMap givesUp ++
        [.identify (7, .audio), .identify (7, .video), .identify (8, .audio), .receive d, .handle .video, .populate])
      (P := fun t => (t.thread (7, .video)).phase = .waiting ∧ t.handled = some d ∧
        (t.step ssPing newSession .deliver).any fun u => (u.thread (7, .video)).messages.queue.isEmpty)
          (by decide +kernel)
    obtain ⟨u, hu, hempty⟩ := (Option.any_eq_true _ _).mp hlost
    refine ⟨_, t, hrun.of_guarded, hwaiting, fun hgood => ?_⟩
    have hlast := hgood.delivered d (7, .video) u hhandled hwaiting ⟨rfl, rfl, Or.inl (by decide)⟩ hu
    rw [List.isEmpty_iff.mp hempty] at hlast
    cases hlast
  · let d : Datagram ℕ := { socket := .video, peer := { address := 0, port := 5 }, buf := str "PING" }
    obtain ⟨t, hrun, hwaiting, hhandled, hlost⟩ := exists_run_execWhere_and (f := State.step ssPing oldSession)
      (G := fun _ _ => True) (s := State.init oldSession noPeer)
      (l := [.name (0, .video), .identify (0, .video), .receive d,
        .receive { socket := .audio, peer := { address := 1, port := 6 }, buf := str "PING" }, .handle .video,
        .populate, .populate])
      (P := fun t => (t.thread (0, .video)).phase = .waiting ∧ t.handled = some d ∧
        (t.step ssPing oldSession .deliver).any fun u => (u.thread (0, .video)).messages.queue.isEmpty)
          (by decide +kernel)
    obtain ⟨u, hu, hempty⟩ := (Option.any_eq_true _ _).mp hlost
    refine ⟨_, t, hrun.of_guarded, hwaiting, fun hgood => ?_⟩
    have hlast := hgood.delivered d (0, .video) u hhandled hwaiting ⟨rfl, rfl, Or.inr ⟨rfl, rfl, rfl⟩⟩ hu
    rw [List.isEmpty_iff.mp hempty] at hlast
    cases hlast

end MidnightSun.Stream.Ping
