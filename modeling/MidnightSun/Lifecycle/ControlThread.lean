import MidnightSun.Lifecycle.Ownership

/-!
# The control thread serves its sessions (src/stream.cpp)

`control_step` says once what a step can do to the control server.  From it: when no session is pushed to a broadcast
context whose control thread has returned, every session that was pushed is still served or has its `controlEnd` raised.
-/

namespace MidnightSun.Lifecycle

open Lib

/-- `start` has pushed the session to `control_server._sessions`. -/
def Announce.reached : Announce → Bool
  | .pushed | .audioStarted | .videoStarted | .running | .started => true
  | _ => false

/-! ### What a step does to the control server -/

structure Session.Quiet (x y : Session) : Prop where
  reached : y.announce.reached = x.announce.reached
  controlEnd : y.controlEnd = x.controlEnd
  sessionIdV1 : y.sessionIdV1 = x.sessionIdV1
  connectData : y.connectData = x.connectData
  expectedPeerAddress : y.expectedPeerAddress = x.expectedPeerAddress
  peer : y.peer = x.peer

structure World.Quiet (w w' : World) : Prop where
  control : w'.broadcast.control = w.broadcast.control
  todo : w'.broadcast.todo = w.broadcast.todo
  sessions : w'.broadcast.sessions = w.broadcast.sessions
  peerToSession : w'.broadcast.peerToSession = w.broadcast.peerToSession
  bound : w'.bound = w.bound
  session : ∀ s, (w.session s).Quiet (w'.session s)

theorem Session.Quiet.refl (x : Session) : x.Quiet x := ⟨rfl, rfl, rfl, rfl, rfl, rfl⟩

theorem Session.Quiet.trans {x y z : Session} (h : x.Quiet y) (h' : y.Quiet z) : x.Quiet z :=
  ⟨h'.reached.trans h.reached, h'.controlEnd.trans h.controlEnd, h'.sessionIdV1.trans h.sessionIdV1,
    h'.connectData.trans h.connectData, h'.expectedPeerAddress.trans h.expectedPeerAddress, h'.peer.trans h.peer⟩

namespace World.Quiet

variable {w w' w'' : World}

theorem trans {u : World} (h : w.Quiet u) (h' : u.Quiet w'') : w.Quiet w'' :=
  ⟨h'.control.trans h.control, h'.todo.trans h.todo, h'.sessions.trans h.sessions,
    h'.peerToSession.trans h.peerToSession, h'.bound.trans h.bound, fun s => (h.session s).trans (h'.session s)⟩

theorem of_set {s : ℕ} {x : Session} (hsession : ∀ t, w'.session t = if t = s then x else w.session t)
    (hx : (w.session s).Quiet x) (hcontrol : w'.broadcast.control = w.broadcast.control)
    (htodo : w'.broadcast.todo = w.broadcast.todo) (hsessions : w'.broadcast.sessions = w.broadcast.sessions)
    (hpeers : w'.broadcast.peerToSession = w.broadcast.peerToSession) (hbound : w'.bound = w.bound) : w.Quiet w' := by
  refine ⟨hcontrol, htodo, hsessions, hpeers, hbound, fun t => ?_⟩
  rw [hsession]
  split
  next ht => exact ht ▸ hx
  next => exact Session.Quiet.refl _

theorem set {s : ℕ} {x : Session} (hx : (w.session s).Quiet x) : w.Quiet (w.set s x) :=
  of_set (fun t => w.set_session s t x) hx rfl rfl rfl rfl rfl

theorem stop (s : ℕ) : w.Quiet (w.stop s) :=
  of_set (s := s) (fun t => w.set_session s t _) ⟨rfl, rfl, rfl, rfl, rfl, rfl⟩ rfl rfl rfl rfl rfl

theorem drop (s : ℕ) : w.Quiet (w.drop s) := by
  unfold World.drop
  split
  · exact ⟨rfl, rfl, rfl, rfl, rfl, fun _ => Session.Quiet.refl _⟩
  · exact set ⟨rfl, rfl, rfl, rfl, rfl, rfl⟩

/-- Apart from the binding of the peer. -/
theorem iterate (w : World) (e : Event) (stops : Bool) : (w.bind e).Quiet (w.iterate e stops) := by
  have hrefl : ∀ w : World, w.Quiet w := fun _ => ⟨rfl, rfl, rfl, rfl, rfl, fun _ => Session.Quiet.refl _⟩
  unfold World.iterate
  split
  next hnone =>
    have hbind : w.bind e = w := by
      unfold World.getSession at hnone
      unfold World.bind
      split at hnone
      · cases hnone
      · simp only [hnone]
    rw [hbind]
    exact hrefl w
  next s _ =>
    dsimp only
    split
    · exact hrefl _
    · split
      · exact stop s
      · exact hrefl _
    · split
      · exact stop s
      · exact hrefl _

theorem ref {b : Broadcast} {h : Holder} (hne : b.refs ≠ []) :
    (b.ref h).control = b.control ∧ (b.ref h).todo = b.todo ∧ (b.ref h).sessions = b.sessions ∧
      (b.ref h).peerToSession = b.peerToSession := by
  unfold Broadcast.ref
  rw [if_neg hne]
  exact ⟨rfl, rfl, rfl, rfl⟩

theorem release (b : Broadcast) (h : Holder) :
    (b.release h).control = b.control ∧ (b.release h).todo = b.todo ∧ (b.release h).sessions = b.sessions ∧
      (b.release h).peerToSession = b.peerToSession := by
  unfold Broadcast.release
  dsimp only
  split
  · exact ⟨rfl, rfl, rfl, rfl⟩
  · exact ⟨rfl, rfl, rfl, rfl⟩

end World.Quiet

/-- The control thread goes from one point to the next and changes nothing else. -/
inductive Goes (w : World) : Control → Prop
  | top (next : Control) : w.broadcast.control = .top → next = .exiting ∨ next = .locking → Goes w next
  | swept : w.broadcast.control = .sweep → Goes w .swept
  | decide (next : Control) : w.broadcast.control = .swept → next = .exiting ∨ next = .iterate → Goes w next
  | iterate : w.broadcast.control = .iterate → Goes w .top
  | closed : w.broadcast.control = .closing → w.broadcast.todo = [] → Goes w .returned

/-- What a step can do to the control server. -/
inductive ControlStep (w : World) : Op → World → Prop
  | quiet {op : Op} {w' : World} : w.Quiet w' → ControlStep w op w'
  /-- a session is allocated -/
  | alloc {s : ℕ} {sessionIdV1 : Bool} {connectData : UInt32} : (w.session s).announce = .none →
      ControlStep w (.alloc s sessionIdV1 connectData) (w.set s
        { announce := .allocated, held := true, sessionIdV1 := sessionIdV1, connectData := connectData })
  /-- a context is constructed -/
  | construct {op : Op} {w' : World} : w.broadcast.refs = [] → w.broadcast.control = .none →
      w'.broadcast.control = .top → w'.broadcast.sessions = [] → w'.broadcast.peerToSession = [] →
      w'.bound = w.bound → (∀ s, (w.session s).Quiet (w'.session s)) → ControlStep w op w'
  | push {s : ℕ} {address : String} : (w.session s).announce = .referenced → w.broadcast.control ≠ .sweep →
      w.broadcast.control ≠ .closing →
      ControlStep w (.push s address)
        { w.set s { w.session s with announce := .pushed, expectedPeerAddress := address } with
          broadcast := { w.broadcast with sessions := w.broadcast.sessions ++ [s] } }
  | goes {op : Op} {next : Control} : Goes w next → ControlStep w op (w.control next)
  | lock : w.broadcast.control = .locking →
      ControlStep w .lock { w with broadcast :=
        { w.broadcast with control := .sweep, todo := w.broadcast.sessions, awaiting := false } }
  | sweep {s : ℕ} : w.broadcast.control = .sweep → w.broadcast.todo.head? = some s →
      ControlStep w (.sweep s) (w.sweep s)
  | event {e : Event} {stops : Bool} {w' : World} : w.broadcast.control = .iterate →
      ((w.bind e).control .top).Quiet w' → ControlStep w (.iterate (some e) stops) w'
  | close : w.broadcast.control = .exiting →
      ControlStep w .close
        { w with broadcast := { w.broadcast with control := .closing, todo := w.broadcast.sessions } }
  | closeSession {s : ℕ} : w.broadcast.control = .closing → w.broadcast.todo.head? = some s →
      ControlStep w (.closeSession s)
        { w.set s { w.session s with controlEnd := true } with
          broadcast := { w.broadcast with todo := w.broadcast.todo.tail } }
  | endBroadcast : w.broadcast.refs = [] → w.broadcast.control = .returned →
      ControlStep w .endBroadcast { w with broadcast := {} }

/-- `ref` constructs a context or only counts. -/
theorem ControlStep.of_ref {w w' : World} {op : Op} {h : Holder} {s : ℕ} {x : Session} (hfree : w.broadcast.free)
    (hw : w' = { w.set s x with broadcast := w.broadcast.ref h }) (hx : (w.session s).Quiet x) :
    ControlStep w op w' := by
  subst hw
  have hsession : ∀ t, (w.session t).Quiet (World.session { w.set s x with broadcast := w.broadcast.ref h } t) :=
    (World.Quiet.set hx).session
  by_cases hrefs : w.broadcast.refs = []
  · refine .construct hrefs (hfree hrefs) ?_ ?_ ?_ rfl hsession
    · simp [Broadcast.ref, hrefs]
    · simp [Broadcast.ref, hrefs]
    · simp [Broadcast.ref, hrefs]
  · obtain ⟨hcontrol, htodo, hsessions, hpeers⟩ := World.Quiet.ref (h := h) hrefs
    exact .quiet ⟨hcontrol, htodo, hsessions, hpeers, rfl, hsession⟩

theorem ControlStep.of_release {w w' : World} {op : Op} {h : Holder} {s : ℕ} {x : Session}
    (hw : w' = { w.set s x with broadcast := w.broadcast.release h }) (hx : (w.session s).Quiet x) :
    ControlStep w op w' := by
  subst hw
  obtain ⟨hcontrol, htodo, hsessions, hpeers⟩ := World.Quiet.release w.broadcast h
  exact .quiet ⟨hcontrol, htodo, hsessions, hpeers, rfl, (World.Quiet.set hx).session⟩

theorem World.Quiet.same {w w' : World} (hs : w'.session = w.session) (hb : w'.bound = w.bound)
    (hc : w'.broadcast.control = w.broadcast.control) (ht : w'.broadcast.todo = w.broadcast.todo)
    (hss : w'.broadcast.sessions = w.broadcast.sessions)
    (hp : w'.broadcast.peerToSession = w.broadcast.peerToSession) : w.Quiet w' :=
  ⟨hc, ht, hss, hp, hb, fun s => by rw [hs]; exact Session.Quiet.refl _⟩

theorem ControlStep.of_announce {w w' : World} {op : Op} (hop : op.actor = .announce) (hstep : step w op = some w') :
    ControlStep w op w' := by
  cases op with
  | alloc s sessionIdV1 connectData =>
    obtain ⟨hann, rfl⟩ := of_ite_some hstep
    exact .alloc hann
  | insert s =>
    obtain ⟨⟨hann, -⟩, rfl⟩ := of_ite_some hstep
    exact .quiet (.of_set (s := s) (fun t => w.set_session s t _)
      ⟨by simp [hann, Announce.reached], rfl, rfl, rfl, rfl, rfl⟩ rfl rfl rfl rfl rfl)
  | ref s =>
    obtain ⟨⟨hann, hfree⟩, rfl⟩ := of_ite_some hstep
    exact .of_ref hfree (s := s) rfl ⟨by simp [hann, Announce.reached], rfl, rfl, rfl, rfl, rfl⟩
  | refFails s =>
    obtain ⟨⟨hann, -⟩, rfl⟩ := of_ite_some hstep
    exact .quiet (.set ⟨by simp [hann, Announce.reached], rfl, rfl, rfl, rfl, rfl⟩)
  | push s address =>
    obtain ⟨⟨hann, hsweep, hclosing⟩, rfl⟩ := of_ite_some hstep
    exact .push hann hsweep hclosing
  | startAudio s =>
    obtain ⟨hann, rfl⟩ := of_ite_some hstep
    exact .quiet (World.Quiet.trans (u := w.setThread s .audio .created)
      (.set ⟨rfl, rfl, rfl, rfl, rfl, rfl⟩)
      (.set ⟨by simp [World.setThread, hann, Announce.reached], rfl, rfl, rfl, rfl, rfl⟩))
  | startVideo s =>
    obtain ⟨hann, rfl⟩ := of_ite_some hstep
    exact .quiet (World.Quiet.trans (u := w.setThread s .video .created)
      (.set ⟨rfl, rfl, rfl, rfl, rfl, rfl⟩)
      (.set ⟨by simp [World.setThread, hann, Announce.reached], rfl, rfl, rfl, rfl, rfl⟩))
  | run s =>
    obtain ⟨hann, rfl⟩ := of_ite_some hstep
    exact .quiet (.set ⟨by simp [hann, Announce.reached], rfl, rfl, rfl, rfl, rfl⟩)
  | count s =>
    obtain ⟨hann, rfl⟩ := of_ite_some hstep
    exact .quiet (.of_set (s := s) (fun t => w.set_session s t _)
      ⟨by simp [hann, Announce.reached], rfl, rfl, rfl, rfl, rfl⟩ rfl rfl rfl rfl rfl)
  | remove s =>
    obtain ⟨⟨hann, -⟩, rfl⟩ := of_ite_some hstep
    exact .quiet (.of_set (s := s) (fun t => w.set_session s t _)
      ⟨by simp [hann, Announce.reached], rfl, rfl, rfl, rfl, rfl⟩ rfl rfl rfl rfl rfl)
  | announced s =>
    obtain ⟨-, rfl⟩ := of_ite_some hstep
    exact .quiet (World.Quiet.trans (u := w.set s { w.session s with held := false })
      (.set ⟨rfl, rfl, rfl, rfl, rfl, rfl⟩) (.drop s))
  | _ => cases hop

theorem ControlStep.of_clear {w w' : World} {op : Op} (hop : op.actor = .clear) (hstep : step w op = some w') :
    ControlStep w op w' := by
  cases op with
  | clear all =>
    obtain ⟨-, rfl⟩ := of_ite_some hstep
    exact .quiet (.same rfl rfl rfl rfl rfl rfl)
  | visit s =>
    obtain ⟨c, -, hif⟩ := Option.bind_eq_some_iff.mp hstep
    obtain ⟨-, rfl⟩ := of_ite_some hif
    unfold World.visit
    split
    · exact .quiet (.of_set (s := s) (fun t => w.set_session s t _) ⟨rfl, rfl, rfl, rfl, rfl, rfl⟩ rfl rfl rfl rfl rfl)
    · exact .quiet (.same rfl rfl rfl rfl rfl rfl)
  | clearStop s =>
    obtain ⟨-, rfl⟩ := of_ite_some hstep
    exact .quiet (World.Quiet.trans (u := w.stop s) (.stop s) (.set ⟨rfl, rfl, rfl, rfl, rfl, rfl⟩))
  | joinEnter s =>
    obtain ⟨-, rfl⟩ := of_ite_some hstep
    exact .quiet (.set ⟨rfl, rfl, rfl, rfl, rfl, rfl⟩)
  | joinThread s m =>
    obtain ⟨-, hthread⟩ := Option.ite_none_right_eq_some.mp hstep
    unfold World.joinThread at hthread
    have hthrows : w.Quiet { w.joins s .idle with clear := none } :=
      .of_set (s := s) (fun t => w.set_session s t _) ⟨rfl, rfl, rfl, rfl, rfl, rfl⟩ rfl rfl rfl rfl rfl
    split at hthread
    · exact .quiet (Option.some.inj hthread ▸ hthrows)
    · exact .quiet (Option.some.inj hthread ▸ hthrows)
    · obtain rfl := Option.some.inj hthread
      exact .quiet (World.Quiet.trans (u := w.setThread s m .joined) (.set ⟨rfl, rfl, rfl, rfl, rfl, rfl⟩)
        (.set ⟨rfl, rfl, rfl, rfl, rfl, rfl⟩))
    · cases hthread
  | joinControl s =>
    obtain ⟨-, rfl⟩ := of_ite_some hstep
    exact .quiet (.set ⟨rfl, rfl, rfl, rfl, rfl, rfl⟩)
  | joinCount s =>
    obtain ⟨-, rfl⟩ := of_ite_some hstep
    exact .quiet (.of_set (s := s) (fun t => w.set_session s t _) ⟨rfl, rfl, rfl, rfl, rfl, rfl⟩ rfl rfl rfl rfl rfl)
  | erase s =>
    obtain ⟨c, -, hif⟩ := Option.bind_eq_some_iff.mp hstep
    obtain ⟨-, rfl⟩ := of_ite_some hif
    exact .quiet (World.Quiet.trans
      (u := { w.joins s .done with slots := w.slots.erase s, clear := some { c with current := none } })
      (.of_set (s := s) (fun t => w.set_session s t _) ⟨rfl, rfl, rfl, rfl, rfl, rfl⟩ rfl rfl rfl rfl rfl) (.drop s))
  | cleared =>
    obtain ⟨c, -, hif⟩ := Option.bind_eq_some_iff.mp hstep
    obtain ⟨-, rfl⟩ := of_ite_some hif
    exact .quiet (.same rfl rfl rfl rfl rfl rfl)
  | release s =>
    obtain ⟨-, rfl⟩ := of_ite_some hstep
    exact .of_release (s := s) rfl ⟨rfl, rfl, rfl, rfl, rfl, rfl⟩
  | _ => cases hop

theorem ControlStep.of_media {w w' : World} {op : Op} (hop : op.actor = .media) (hstep : step w op = some w') :
    ControlStep w op w' := by
  cases op with
  | threadRef s m =>
    obtain ⟨⟨-, -, hfree⟩, rfl⟩ := of_ite_some hstep
    exact .of_ref hfree (s := s) rfl ⟨rfl, rfl, rfl, rfl, rfl, rfl⟩
  | raise s m =>
    obtain ⟨-, rfl⟩ := of_ite_some hstep
    exact .quiet (.same rfl rfl rfl rfl rfl rfl)
  | encoderFails s =>
    obtain ⟨-, rfl⟩ := of_ite_some hstep
    exact .quiet (.same rfl rfl rfl rfl rfl rfl)
  | threadRelease s m =>
    obtain ⟨-, rfl⟩ := of_ite_some hstep
    exact .of_release (s := s) rfl ⟨rfl, rfl, rfl, rfl, rfl, rfl⟩
  | threadStop s m =>
    obtain ⟨-, rfl⟩ := of_ite_some hstep
    exact .quiet (World.Quiet.trans (u := w.stop s) (.stop s) (.set ⟨rfl, rfl, rfl, rfl, rfl, rfl⟩))
  | _ => cases hop

theorem ControlStep.of_control {w w' : World} {op : Op} (hop : op.actor = .control) (hstep : step w op = some w') :
    ControlStep w op w' := by
  cases op with
  | loop =>
    obtain ⟨hcontrol, rfl⟩ := of_ite_some hstep
    refine .goes (.top _ hcontrol ?_)
    split
    · exact Or.inl rfl
    · exact Or.inr rfl
  | lock =>
    obtain ⟨hcontrol, rfl⟩ := of_ite_some hstep
    exact .lock hcontrol
  | timeout s =>
    obtain ⟨-, rfl⟩ := of_ite_some hstep
    exact .quiet (.stop s)
  | sweep s =>
    obtain ⟨⟨hcontrol, hhead⟩, rfl⟩ := of_ite_some hstep
    exact .sweep hcontrol hhead
  | swept =>
    obtain ⟨⟨hcontrol, -⟩, rfl⟩ := of_ite_some hstep
    exact .goes (.swept hcontrol)
  | decide appRunning =>
    obtain ⟨hcontrol, rfl⟩ := of_ite_some hstep
    refine .goes (.decide _ hcontrol ?_)
    split
    · exact Or.inl rfl
    · exact Or.inr rfl
  | iterate e stops =>
    obtain ⟨hcontrol, rfl⟩ := of_ite_some hstep
    cases e with
    | none => exact .goes (.iterate hcontrol)
    | some e =>
      have hiterate := World.Quiet.iterate w e stops
      exact .event hcontrol
        ⟨rfl, hiterate.todo, hiterate.sessions, hiterate.peerToSession, hiterate.bound, hiterate.session⟩
  | close =>
    obtain ⟨hcontrol, rfl⟩ := of_ite_some hstep
    exact .close hcontrol
  | closeSession s =>
    obtain ⟨⟨hcontrol, hhead⟩, rfl⟩ := of_ite_some hstep
    exact .closeSession hcontrol hhead
  | closed =>
    obtain ⟨⟨hcontrol, htodo⟩, rfl⟩ := of_ite_some hstep
    exact .goes (.closed hcontrol htodo)
  | _ => cases hop

theorem ControlStep.of_broadcast {w w' : World} {op : Op} (hop : op.actor = .broadcast) (hstep : step w op = some w') :
    ControlStep w op w' := by
  cases op with
  | shutDown =>
    obtain rfl := Option.some.inj hstep
    exact .quiet (.same rfl rfl rfl rfl rfl rfl)
  | noTimer =>
    obtain ⟨-, rfl⟩ := of_ite_some hstep
    exact .quiet (.same rfl rfl rfl rfl rfl rfl)
  | pop m =>
    obtain ⟨-, hpop⟩ := Option.ite_none_right_eq_some.mp hstep
    obtain ⟨b, hb, rfl⟩ := Option.map_eq_some_iff.mp hpop
    obtain ⟨-, hcontrol, htodo, hsessions, hpeers⟩ := Broadcast.pop_frame hb
    exact .quiet (.same rfl rfl hcontrol htodo hsessions hpeers)
  | sent m fails =>
    obtain ⟨-, rfl⟩ := of_ite_some hstep
    split
    · exact .quiet (.same rfl rfl rfl rfl rfl rfl)
    · exact .quiet (.same rfl rfl rfl rfl rfl rfl)
  | endBroadcast =>
    obtain ⟨⟨hrefs, hcontrol, -⟩, rfl⟩ := of_ite_some hstep
    exact .endBroadcast hrefs hcontrol
  | _ => cases hop

/-- The only steps that touch the control server are those of `ControlStep`. -/
theorem control_step {w w' : World} {op : Op} (hstep : step w op = some w') : ControlStep w op w' := by
  cases hop : op.actor with
  | announce => exact .of_announce hop hstep
  | clear => exact .of_clear hop hstep
  | media => exact .of_media hop hstep
  | control => exact .of_control hop hstep
  | broadcast => exact .of_broadcast hop hstep

theorem Goes.ne {w : World} {next : Control} (h : Goes w next) : next ≠ .closing ∧ next ≠ .none ∧ next ≠ .sweep := by
  cases h with
  | top _ _ hnext => rcases hnext with rfl | rfl <;> simp
  | swept => simp
  | decide _ _ hnext => rcases hnext with rfl | rfl <;> simp
  | iterate => simp
  | closed => simp

theorem Goes.returned {w : World} (h : Goes w .returned) :
    w.broadcast.control = .closing ∧ w.broadcast.todo = [] := by
  cases h with
  | top _ _ hnext => rcases hnext with h | h <;> cases h
  | decide _ _ hnext => rcases hnext with h | h <;> cases h
  | closed hc htodo => exact ⟨hc, htodo⟩

theorem World.bind_broadcast (w : World) (e : Event) :
    (w.bind e).broadcast.control = w.broadcast.control ∧ (w.bind e).broadcast.todo = w.broadcast.todo ∧
      (w.bind e).broadcast.sessions = w.broadcast.sessions := by
  unfold World.bind
  split
  · exact ⟨rfl, rfl, rfl⟩
  split
  · exact ⟨rfl, rfl, rfl⟩
  · exact ⟨rfl, rfl, rfl⟩

/-- `get_session` changes only the peer of a session. -/
theorem World.bind_session (w : World) (e : Event) (s : ℕ) :
    ((w.bind e).session s).announce = (w.session s).announce ∧
      ((w.bind e).session s).controlEnd = (w.session s).controlEnd := by
  unfold World.bind
  split
  · exact ⟨rfl, rfl⟩
  split
  · exact ⟨rfl, rfl⟩
  · simp only [World.set_session]
    split
    next hs => exact hs ▸ ⟨rfl, rfl⟩
    next => exact ⟨rfl, rfl⟩

/-! ### No session is stranded -/

/-- Every session that was pushed is still listed with a thread that will visit it, or has its `controlEnd` raised. -/
structure World.Served (w : World) : Prop where
  listed : ∀ s ∈ w.broadcast.sessions, (w.session s).announce.reached = true
  closing : w.broadcast.control = .closing →
    ∀ s ∈ w.broadcast.sessions, s ∈ w.broadcast.todo ∨ (w.session s).controlEnd = true
  returned : w.broadcast.control = .returned → ∀ s ∈ w.broadcast.sessions, (w.session s).controlEnd = true
  none : w.broadcast.control = .none → w.broadcast.sessions = []
  pushed : ∀ s, (w.session s).announce.reached = true →
    (w.session s).controlEnd = true ∨ s ∈ w.broadcast.sessions

/-- The condition on a step: no session is pushed to a context whose control thread has returned. -/
def ControlGuard (w : World) : Op → Prop
  | .push _ _ => w.broadcast.control ≠ .returned
  | _ => True

instance (w : World) : (op : Op) → Decidable (ControlGuard w op)
  | .push .. => inferInstanceAs (Decidable (w.broadcast.control ≠ .returned))
  | .shutDown .. | .alloc .. | .insert .. | .ref .. | .refFails .. | .startAudio .. | .startVideo .. | .run ..
    | .count .. | .remove .. | .announced .. | .clear .. | .visit .. | .clearStop .. | .joinEnter .. | .joinThread ..
    | .joinControl .. | .joinCount .. | .erase .. | .cleared .. | .release .. | .threadRef .. | .raise ..
    | .encoderFails .. | .threadRelease .. | .threadStop .. | .loop .. | .lock .. | .timeout .. | .sweep ..
    | .swept .. | .decide .. | .iterate .. | .close .. | .closeSession .. | .closed .. | .noTimer .. | .pop ..
    | .sent .. | .endBroadcast .. => instDecidableTrue

namespace World.Served

variable {w w' : World}

/-- Nothing that matters here changes. -/
theorem same (h : w.Served) (hcontrol : w'.broadcast.control = w.broadcast.control)
    (htodo : w'.broadcast.todo = w.broadcast.todo) (hsessions : w'.broadcast.sessions = w.broadcast.sessions)
    (hreached : ∀ s, (w'.session s).announce.reached = (w.session s).announce.reached)
    (hend : ∀ s, (w'.session s).controlEnd = (w.session s).controlEnd) : w'.Served := by
  refine ⟨?_, ?_, ?_, ?_, ?_⟩
  · intro s hs
    rw [hreached]
    exact h.listed s (hsessions ▸ hs)
  · rw [hcontrol, hsessions, htodo]
    intro hc s hs
    rw [hend]
    exact h.closing hc s hs
  · rw [hcontrol, hsessions]
    intro hc s hs
    rw [hend]
    exact h.returned hc s hs
  · rw [hcontrol, hsessions]
    exact h.none
  · intro s hs
    rw [hreached] at hs
    rw [hend, hsessions]
    exact h.pushed s hs

/-- Without a thread every session that was pushed has its `controlEnd` raised. -/
theorem ended (h : w.Served) (hc : w.broadcast.control = .none ∨ w.broadcast.control = .returned) {s : ℕ}
    (hs : (w.session s).announce.reached = true) : (w.session s).controlEnd = true := by
  rcases h.pushed s hs with hend | hmem
  · exact hend
  · rcases hc with hc | hc
    · rw [h.none hc] at hmem
      cases hmem
    · exact h.returned hc s hmem

theorem goes (h : w.Served) {next : Control} (hg : Goes w next) : (w.control next).Served := by
  refine ⟨h.listed, fun hn => absurd hn hg.ne.1, ?_, fun hn => absurd hn hg.ne.2.1, h.pushed⟩
  intro hn s hs
  obtain rfl : next = .returned := hn
  obtain ⟨hc, htodo⟩ := hg.returned
  rcases h.closing hc s hs with hmem | hend
  · rw [htodo] at hmem
    cases hmem
  · exact hend

theorem sweep (h : w.Served) {s : ℕ} (hc : w.broadcast.control = .sweep) : (w.sweep s).Served := by
  unfold World.sweep
  dsimp only
  split
  next hst =>
    refine ⟨?_, fun hn => ?_, fun hn => ?_, fun hn => ?_, ?_⟩
    · intro t ht
      have hold := h.listed t (List.mem_of_mem_erase ht)
      simp only [World.set_session]
      split
      next hts => exact hts ▸ hold
      next => exact hold
    · exact absurd (hc.symm.trans hn) (by simp)
    · exact absurd (hc.symm.trans hn) (by simp)
    · exact absurd (hc.symm.trans hn) (by simp)
    · intro t ht
      simp only [World.set_session] at ht ⊢
      by_cases hts : t = s
      · exact Or.inl (by simp [hts])
      · simp only [if_neg hts] at ht ⊢
        rcases h.pushed t ht with hend | hmem
        · exact Or.inl hend
        · exact Or.inr ((List.mem_erase_of_ne hts).mpr hmem)
  next =>
    exact ⟨h.listed, fun hn => absurd (hc.symm.trans hn) (by simp), fun hn => absurd (hc.symm.trans hn) (by simp),
      fun hn => absurd (hc.symm.trans hn) (by simp), h.pushed⟩

/-- A session is pushed while the thread is in its loop. -/
theorem push (h : w.Served) {s : ℕ} {address : String} (hclosing : w.broadcast.control ≠ .closing)
    (hreturned : w.broadcast.control ≠ .returned) (hnone : w.broadcast.control ≠ .none) :
    World.Served { w.set s { w.session s with announce := .pushed, expectedPeerAddress := address } with
      broadcast := { w.broadcast with sessions := w.broadcast.sessions ++ [s] } } := by
  refine ⟨?_, fun hn => absurd hn hclosing, fun hn => absurd hn hreturned, fun hn => absurd hn hnone, ?_⟩
  · intro t ht
    simp only [World.set_session]
    split
    · rfl
    next hts =>
      rcases List.mem_append.mp ht with ht | ht
      · exact h.listed t ht
      · exact absurd (List.mem_singleton.mp ht) hts
  · intro t ht
    simp only [World.set_session] at ht ⊢
    by_cases hts : t = s
    · exact Or.inr (by simp [hts])
    · simp only [if_neg hts] at ht ⊢
      rcases h.pushed t ht with hend | hmem
      · exact Or.inl hend
      · exact Or.inr (List.mem_append_left _ hmem)

/-- The last loop raises `controlEnd` of the session it visits. -/
theorem closeSession (h : w.Served) {s : ℕ} (hc : w.broadcast.control = .closing)
    (hhead : w.broadcast.todo.head? = some s) :
    World.Served { w.set s { w.session s with controlEnd := true } with
      broadcast := { w.broadcast with todo := w.broadcast.todo.tail } } := by
  obtain ⟨rest, htodo⟩ := List.head?_eq_some_iff.mp hhead
  refine ⟨?_, ?_, fun hn => absurd (hc.symm.trans hn) (by simp), fun hn => absurd (hc.symm.trans hn) (by simp), ?_⟩
  · intro t ht
    have hold := h.listed t ht
    simp only [World.set_session]
    split
    next hts => exact hts ▸ hold
    next => exact hold
  · intro _ t ht
    simp only [World.set_session]
    by_cases hts : t = s
    · exact Or.inr (by simp [hts])
    · rw [if_neg hts]
      rcases h.closing hc t ht with hmem | hend
      · rw [htodo] at hmem ⊢
        exact Or.inl ((List.mem_cons.mp hmem).resolve_left hts)
      · exact Or.inr hend
  · intro t ht
    simp only [World.set_session] at ht ⊢
    by_cases hts : t = s
    · exact Or.inl (by simp [hts])
    · simp only [if_neg hts] at ht ⊢
      exact h.pushed t ht

/-- A step that meets the guard leaves no session stranded. -/
theorem step {op : Op} (h : w.Served) (ho : w.Owned) (hguard : ControlGuard w op)
    (hstep : Lifecycle.step w op = some w') : w'.Served := by
  cases control_step hstep with
  | quiet hq =>
    exact h.same hq.control hq.todo hq.sessions (fun s => (hq.session s).reached) fun s => (hq.session s).controlEnd
  | @alloc s sessionIdV1 connectData hann =>
    -- the session is not listed yet
    have hother : ∀ t ∈ w.broadcast.sessions, t ≠ s := by
      rintro t ht rfl
      have := h.listed t ht
      simp [hann, Announce.reached] at this
    refine ⟨?_, ?_, ?_, h.none, ?_⟩
    · intro t ht
      rw [World.set_session, if_neg (hother t ht)]
      exact h.listed t ht
    · intro hc t ht
      rw [World.set_session, if_neg (hother t ht)]
      exact h.closing hc t ht
    · intro hc t ht
      rw [World.set_session, if_neg (hother t ht)]
      exact h.returned hc t ht
    · intro t ht
      rw [World.set_session] at ht ⊢
      split at ht
      · cases ht
      next hts =>
        rw [if_neg hts]
        exact h.pushed t ht
  | construct hrefs hnone hcontrol hsessions _ _ hsession =>
    refine ⟨by rw [hsessions]; simp, by rw [hcontrol]; simp, by rw [hcontrol]; simp, by rw [hcontrol]; simp, ?_⟩
    intro s hs
    rw [(hsession s).reached] at hs
    rw [(hsession s).controlEnd]
    exact Or.inl (h.ended (Or.inl hnone) hs)
  | @push s address hann hsweep hclosing =>
    -- the session holds a reference, so there is a context
    have hnone : w.broadcast.control ≠ .none :=
      ho.context (List.ne_nil_of_mem (ho.ref s ((ho.session s).ref hann)))
    exact h.push hclosing hguard hnone
  | goes hg => exact h.goes hg
  | lock => exact ⟨h.listed, nofun, nofun, nofun, h.pushed⟩
  | sweep hc _ => exact h.sweep hc
  | @event e _ _ hc hq =>
    obtain ⟨hcontrol, htodo, hsessions⟩ := w.bind_broadcast e
    have hbind : (w.bind e).Served :=
      h.same hcontrol htodo hsessions (fun s => by rw [(w.bind_session e s).1]) fun s => (w.bind_session e s).2
    exact (hbind.goes (.iterate (hcontrol.trans hc))).same hq.control hq.todo hq.sessions
      (fun s => (hq.session s).reached) fun s => (hq.session s).controlEnd
  | close => exact ⟨h.listed, fun _ s hs => Or.inl hs, nofun, nofun, h.pushed⟩
  | closeSession hc hhead => exact h.closeSession hc hhead
  | endBroadcast _ hc =>
    exact ⟨nofun, nofun, nofun, fun _ => rfl, fun s hs => Or.inl (h.ended (Or.inr hc) hs)⟩

theorem boot : World.boot.Served :=
  ⟨nofun, nofun, nofun, fun _ => rfl, by simp [World.boot, Announce.reached]⟩

end World.Served

/-- **No session is stranded.**  In every run that meets the guard: when the control thread has returned, every session
in `_sessions` has its `controlEnd` raised; and at any time every session that was pushed has, or is listed with a
control thread that has not returned. -/
theorem control_serves {ops : List Op} {w : World} (hrun : Run (Guarded WorldStep ControlGuard) World.boot ops w) :
    (w.broadcast.control = .returned → ∀ s ∈ w.broadcast.sessions, (w.session s).controlEnd = true) ∧
      ∀ s, (w.session s).announce.reached = true → (w.session s).controlEnd = true ∨
        s ∈ w.broadcast.sessions ∧ w.broadcast.control ≠ .returned ∧ w.broadcast.control ≠ .none := by
  have h : w.Owned ∧ w.Served := by
    refine hrun.invariant_where (I := fun w => w.Owned ∧ w.Served) ?_ ⟨World.Owned.boot, World.Served.boot⟩
    intro w op w' h hguard hstep
    exact ⟨h.1.step hstep, h.2.step h.1 hguard hstep⟩
  refine ⟨h.2.returned, ?_⟩
  intro s hs
  by_cases hend : (w.session s).controlEnd = true
  · exact Or.inl hend
  · refine Or.inr ⟨(h.2.pushed s hs).resolve_left hend, ?_, ?_⟩
    · exact fun hc => hend (h.2.ended (Or.inr hc) hs)
    · exact fun hc => hend (h.2.ended (Or.inl hc) hs)

/-- A session is connected when the app ends; the control thread says goodbye and returns. -/
def appEnds : List Op :=
  [.alloc 0 true 7, .insert 0, .ref 0, .push 0 "10.0.0.2", .loop, .lock, .sweep 0, .swept, .decide true,
    .iterate (some ⟨.connect, 3, 7, "10.0.0.2"⟩) false, .loop, .lock, .sweep 0, .swept, .decide false, .close,
    .closeSession 0, .closed]

theorem control_serves_appEnds : ∃ w,
    Run (Guarded WorldStep ControlGuard) World.boot appEnds w ∧ w.broadcast.sessions = [0] ∧
      (w.broadcast.control = .returned → ∀ s ∈ w.broadcast.sessions, (w.session s).controlEnd = true) ∧
      ∀ s, (w.session s).announce.reached = true → (w.session s).controlEnd = true ∨
        s ∈ w.broadcast.sessions ∧ w.broadcast.control ≠ .returned ∧ w.broadcast.control ≠ .none := by
  obtain ⟨w, hrun, hsessions⟩ := exists_run_execWhere_and (f := step) (G := ControlGuard) (s := World.boot)
    (l := appEnds) (P := fun w => w.broadcast.sessions = [0]) (by decide +kernel)
  exact ⟨w, hrun, hsessions, control_serves hrun⟩

/-- A second session starts while the first one keeps the context alive. -/
def startsLate : List Op := appEnds ++ [.alloc 1 true 8, .insert 1, .ref 1, .push 1 "10.0.0.3"]

/-- Nobody will raise its `controlEnd`. -/
theorem session_stranded : ¬ ∀ (ops : List Op) (w : World), Run WorldStep World.boot ops w →
    (w.broadcast.control = .returned → ∀ s ∈ w.broadcast.sessions, (w.session s).controlEnd = true) ∧
      ∀ s, (w.session s).announce.reached = true → (w.session s).controlEnd = true ∨
        s ∈ w.broadcast.sessions ∧ w.broadcast.control ≠ .returned ∧ w.broadcast.control ≠ .none := by
  intro h
  obtain ⟨w, hrun, hcontrol, hmem, hend⟩ := exists_run_execWhere_and (f := step) (G := fun _ _ => True)
    (s := World.boot) (l := startsLate)
    (P := fun w => w.broadcast.control = .returned ∧ 1 ∈ w.broadcast.sessions ∧ (w.session 1).controlEnd = false)
    (by decide +kernel)
  have := (h _ w (Run.of_guarded hrun)).1 hcontrol 1 hmem
  rw [hend] at this
  cases this

end MidnightSun.Lifecycle
