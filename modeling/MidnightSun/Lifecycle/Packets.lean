import MidnightSun.Lifecycle.Ownership

/-!
# The packets of a session (src/stream.cpp)

A packet refers to its session by a raw pointer.  A thread that captures raises packets of a session that is alive; that
the broadcast threads find it alive needs that no session is destroyed while a packet of it can still be processed.
-/

namespace MidnightSun.Lifecycle

open Lib

/-- A broadcast thread processes a packet of the session or can still pop one. -/
def Broadcast.uses (b : Broadcast) (s : ℕ) : Prop :=
  ∃ m, (b.packets m).running = true ∧ s ∈ (b.packets m).queue ∨ b.sender m = .processing s

theorem Broadcast.uses_iff {b : Broadcast} {s : ℕ} : b.uses s ↔
    ((b.packets .video).running = true ∧ s ∈ (b.packets .video).queue ∨ b.sender .video = .processing s) ∨
      ((b.packets .audio).running = true ∧ s ∈ (b.packets .audio).queue ∨ b.sender .audio = .processing s) := by
  constructor
  · rintro ⟨m, hm⟩
    cases m with
    | video => exact Or.inl hm
    | audio => exact Or.inr hm
  · rintro (hm | hm)
    · exact ⟨.video, hm⟩
    · exact ⟨.audio, hm⟩

instance (b : Broadcast) (s : ℕ) : Decidable (b.uses s) := decidable_of_iff _ Broadcast.uses_iff.symm

/-- The condition on a step: it destroys no session of which a packet can still be processed. -/
def PacketGuard (w : World) : Op → Prop
  | .erase s => (w.session s).held = false → ¬ w.broadcast.uses s
  | .announced s => s ∉ w.slots → ¬ w.broadcast.uses s
  | _ => True

instance (w : World) : (op : Op) → Decidable (PacketGuard w op)
  | .erase s => inferInstanceAs (Decidable ((w.session s).held = false → ¬ w.broadcast.uses s))
  | .announced s => inferInstanceAs (Decidable (s ∉ w.slots → ¬ w.broadcast.uses s))
  | .shutDown .. | .alloc .. | .insert .. | .ref .. | .refFails .. | .push .. | .startAudio .. | .startVideo ..
    | .run .. | .count .. | .remove .. | .clear .. | .visit .. | .clearStop .. | .joinEnter .. | .joinThread ..
    | .joinControl .. | .joinCount .. | .cleared .. | .release .. | .threadRef .. | .raise .. | .encoderFails ..
    | .threadRelease .. | .threadStop .. | .loop .. | .lock .. | .timeout .. | .sweep .. | .swept .. | .decide ..
    | .iterate .. | .close .. | .closeSession .. | .closed .. | .noTimer .. | .pop .. | .sent .. | .endBroadcast ..
    => instDecidableTrue

/-- Every session that the broadcast threads use is alive. -/
def World.Alive (w : World) : Prop := ∀ s, w.broadcast.uses s → (w.session s).destroyed = false

section
variable {b b' : Broadcast} {s : ℕ}

theorem Broadcast.uses_ref {h : Holder} (hu : (b.ref h).uses s) : b.uses s := by
  unfold Broadcast.ref at hu
  split at hu
  · obtain ⟨m, ⟨-, hmem⟩ | hs⟩ := hu
    · cases hmem
    · cases hs
  · exact hu

theorem Broadcast.uses_release {h : Holder} (hu : (b.release h).uses s) : b.uses s := by
  unfold Broadcast.release at hu
  dsimp only at hu
  split at hu
  · obtain ⟨m, ⟨hrun, -⟩ | hs⟩ := hu
    · cases hrun
    · exact ⟨m, Or.inr hs⟩
  · exact hu

theorem Broadcast.uses_raise {m : Media} {t : ℕ}
    (hu : Broadcast.uses { b with packets := Function.update b.packets m ((b.packets m).raise t) } s) :
    b.uses s ∨ s = t := by
  obtain ⟨m', ⟨hrun, hmem⟩ | hs⟩ := hu
  · by_cases hm : m' = m
    · subst hm
      simp only [Function.update_self, Safe.Queue.raise_running] at hrun hmem
      rcases Safe.Queue.mem_raise hmem with hmem | rfl
      · exact Or.inl ⟨m', Or.inl ⟨hrun, hmem⟩⟩
      · exact Or.inr rfl
    · simp only [Function.update_of_ne hm] at hrun hmem
      exact Or.inl ⟨m', Or.inl ⟨hrun, hmem⟩⟩
  · exact Or.inl ⟨m', Or.inr hs⟩

theorem Broadcast.uses_stop {m : Media}
    (hu : Broadcast.uses { b with packets := Function.update b.packets m (b.packets m).stop } s) : b.uses s := by
  obtain ⟨m', ⟨hrun, hmem⟩ | hs⟩ := hu
  · by_cases hm : m' = m
    · subst hm
      simp [Safe.Queue.stop] at hrun
    · simp only [Function.update_of_ne hm] at hrun hmem
      exact ⟨m', Or.inl ⟨hrun, hmem⟩⟩
  · exact ⟨m', Or.inr hs⟩

theorem Broadcast.uses_sender {m : Media} {x : Sender} (hx : ∀ t, x ≠ .processing t)
    (hpackets : b'.packets = b.packets) (hsender : b'.sender = Function.update b.sender m x) (hu : b'.uses s) :
    b.uses s := by
  obtain ⟨m', hq | hs⟩ := hu
  · exact ⟨m', Or.inl (hpackets ▸ hq)⟩
  · rw [hsender] at hs
    by_cases hm : m' = m
    · subst hm
      rw [Function.update_self] at hs
      exact absurd hs (hx s)
    · rw [Function.update_of_ne hm] at hs
      exact ⟨m', Or.inr hs⟩

theorem Broadcast.uses_senderReturns {m : Media} (hu : (b.senderReturns m).uses s) : b.uses s := by
  refine uses_sender (m := m) (x := .returned) (by simp) ?_ ?_ hu
  · rfl
  · rfl

/-- A packet that is popped was queued. -/
theorem Broadcast.uses_pop {m : Media} (hpop : b.pop m = some b') (hu : b'.uses s) : b.uses s := by
  unfold Broadcast.pop at hpop
  split at hpop
  · obtain rfl := Option.some.inj hpop
    exact uses_senderReturns hu
  · cases hpop
  next t rest ht =>
    obtain ⟨hrun, hqueue, hrest, -⟩ := Safe.Queue.pop_eq_element ht
    have hpackets : Broadcast.uses { b with packets := Function.update b.packets m rest } s → b.uses s := by
      rintro ⟨m', ⟨hrun', hmem⟩ | hs⟩
      · by_cases hm : m' = m
        · subst hm
          simp only [Function.update_self] at hmem
          exact ⟨m', Or.inl ⟨hrun, by rw [hqueue]; exact List.mem_cons_of_mem _ hmem⟩⟩
        · simp only [Function.update_of_ne hm] at hrun' hmem
          exact ⟨m', Or.inl ⟨hrun', hmem⟩⟩
      · exact ⟨m', Or.inr hs⟩
    have hpop := Option.some.inj hpop
    dsimp only at hpop
    split at hpop
    · subst hpop
      exact hpackets (uses_senderReturns hu)
    · subst hpop
      obtain ⟨m', hq | hs⟩ := hu
      · exact hpackets ⟨m', Or.inl hq⟩
      · by_cases hm : m' = m
        · subst hm
          simp only [Function.update_self, Sender.processing.injEq] at hs
          exact ⟨m', Or.inl ⟨hrun, by rw [hqueue, hs]; exact List.mem_cons_self⟩⟩
        · simp only [Function.update_of_ne hm] at hs
          exact ⟨m', Or.inr hs⟩

end

namespace World.Alive

variable {w w' : World}

theorem of_uses (h : w.Alive) (hu : ∀ s, w'.broadcast.uses s → w.broadcast.uses s)
    (hd : ∀ s, (w'.session s).destroyed = true → (w.session s).destroyed = true) : w'.Alive := by
  intro s hs
  have halive := h s (hu s hs)
  by_contra hdead
  rw [hd s (by simpa using hdead)] at halive
  cases halive

theorem of_set (h : w.Alive) {s : ℕ} {x : Session} (hsession : ∀ t, w'.session t = if t = s then x else w.session t)
    (hx : x.destroyed = true → (w.session s).destroyed = true)
    (hu : ∀ s, w'.broadcast.uses s → w.broadcast.uses s) : w'.Alive := by
  refine h.of_uses hu fun t ht => ?_
  rw [hsession] at ht
  split at ht
  next hts => exact hts ▸ hx ht
  next => exact ht

theorem set (h : w.Alive) {s : ℕ} {x : Session} (hx : x.destroyed = true → (w.session s).destroyed = true) :
    (w.set s x).Alive := h.of_set (fun t => w.set_session s t x) hx fun _ => id

/-- The last `shared_ptr` to a session goes of which no packet can be processed. -/
theorem drop (h : w.Alive) {s : ℕ} (hs : (w.session s).held = false → s ∉ w.slots → ¬ w.broadcast.uses s) :
    (w.drop s).Alive := by
  unfold World.drop
  split
  · exact h
  next hno =>
    rw [not_or] at hno
    intro t ht
    rw [World.set_session]
    split
    next hts => exact absurd (hts ▸ ht) (hs (by simpa using hno.1) hno.2)
    next => exact h t ht

theorem stop (h : w.Alive) (s : ℕ) : (w.stop s).Alive :=
  h.of_set (s := s) (fun t => w.set_session s t _) id fun _ => id

theorem bind (h : w.Alive) (e : Event) : (w.bind e).Alive := by
  unfold World.bind
  split
  · exact h
  split
  · exact h
  next s _ => exact h.of_set (s := s) (fun t => w.set_session s t _) id fun _ hu => hu

theorem iterate (h : w.Alive) (e : Event) (stops : Bool) : (w.iterate e stops).Alive := by
  unfold World.iterate
  split
  · exact h
  next s _ =>
    have hbind := h.bind e
    dsimp only
    split
    · exact hbind
    · split
      · exact hbind.stop s
      · exact hbind
    · split
      · exact hbind.stop s
      · exact hbind

theorem sweep (h : w.Alive) (s : ℕ) : (w.sweep s).Alive := by
  unfold World.sweep
  dsimp only
  split
  · exact h.of_set (s := s) (fun t => w.set_session s t _) id fun _ hu => hu
  · exact h.of_uses (fun _ hu => hu) fun _ => id

theorem same (h : w.Alive) (hu : ∀ s, w'.broadcast.uses s → w.broadcast.uses s) (hs : w'.session = w.session) :
    w'.Alive :=
  h.of_uses hu fun s => by rw [hs]; exact id

theorem step_announce {op : Op} (hop : op.actor = .announce) (h : w.Alive) (hguard : PacketGuard w op)
    (hstep : Lifecycle.step w op = some w') : w'.Alive := by
  cases op with
  | alloc s sessionIdV1 connectData =>
    obtain ⟨-, rfl⟩ := of_ite_some hstep
    exact h.set nofun
  | insert s =>
    obtain ⟨-, rfl⟩ := of_ite_some hstep
    exact h.of_set (s := s) (fun t => w.set_session s t _) id fun _ => id
  | ref s =>
    obtain ⟨-, rfl⟩ := of_ite_some hstep
    exact h.of_set (s := s) (fun t => w.set_session s t _) id fun _ => Broadcast.uses_ref
  | refFails s =>
    obtain ⟨-, rfl⟩ := of_ite_some hstep
    exact h.set id
  | push s address =>
    obtain ⟨-, rfl⟩ := of_ite_some hstep
    exact h.of_set (s := s) (fun t => w.set_session s t _) id fun _ hu => hu
  | startAudio s =>
    obtain ⟨-, rfl⟩ := of_ite_some hstep
    exact World.Alive.set (w := w.setThread s .audio .created) (h.set id) id
  | startVideo s =>
    obtain ⟨-, rfl⟩ := of_ite_some hstep
    exact World.Alive.set (w := w.setThread s .video .created) (h.set id) id
  | run s =>
    obtain ⟨-, rfl⟩ := of_ite_some hstep
    exact h.set id
  | count s =>
    obtain ⟨-, rfl⟩ := of_ite_some hstep
    exact h.of_set (s := s) (fun t => w.set_session s t _) id fun _ => id
  | remove s =>
    obtain ⟨-, rfl⟩ := of_ite_some hstep
    exact h.of_set (s := s) (fun t => w.set_session s t _) id fun _ => id
  | announced s =>
    obtain ⟨-, rfl⟩ := of_ite_some hstep
    exact World.Alive.drop (w := w.set s { w.session s with held := false }) (h.set id) fun _ => hguard
  | _ => cases hop

theorem step_clear {op : Op} (hop : op.actor = .clear) (h : w.Alive) (hguard : PacketGuard w op)
    (hstep : Lifecycle.step w op = some w') : w'.Alive := by
  cases op with
  | clear all =>
    obtain ⟨-, rfl⟩ := of_ite_some hstep
    exact h.same (fun _ => id) rfl
  | visit s =>
    obtain ⟨c, -, hif⟩ := Option.bind_eq_some_iff.mp hstep
    obtain ⟨-, rfl⟩ := of_ite_some hif
    unfold World.visit
    split
    · exact h.of_set (s := s) (fun t => w.set_session s t _) id fun _ => id
    · exact h.same (fun _ => id) rfl
  | clearStop s =>
    obtain ⟨-, rfl⟩ := of_ite_some hstep
    exact (h.stop s).set id
  | joinEnter s =>
    obtain ⟨-, rfl⟩ := of_ite_some hstep
    exact h.set id
  | joinThread s m =>
    obtain ⟨-, hthread⟩ := Option.ite_none_right_eq_some.mp hstep
    unfold World.joinThread at hthread
    have hthrows : World.Alive { w.joins s .idle with clear := none } :=
      h.of_set (s := s) (fun t => w.set_session s t _) id fun _ => id
    split at hthread
    · exact Option.some.inj hthread ▸ hthrows
    · exact Option.some.inj hthread ▸ hthrows
    · obtain rfl := Option.some.inj hthread
      exact World.Alive.set (w := w.setThread s m .joined) (h.set id) id
    · cases hthread
  | joinControl s =>
    obtain ⟨-, rfl⟩ := of_ite_some hstep
    exact h.set id
  | joinCount s =>
    obtain ⟨-, rfl⟩ := of_ite_some hstep
    exact h.of_set (s := s) (fun t => w.set_session s t _) id fun _ => id
  | erase s =>
    obtain ⟨c, -, hif⟩ := Option.bind_eq_some_iff.mp hstep
    obtain ⟨-, rfl⟩ := of_ite_some hif
    refine World.Alive.drop
      (w := { w.joins s .done with slots := w.slots.erase s, clear := some { c with current := none } })
      (h.of_set (s := s) (fun t => w.set_session s t _) id fun _ => id) ?_
    intro hheld _
    exact hguard (by simpa [World.joins] using hheld)
  | cleared =>
    obtain ⟨c, -, hif⟩ := Option.bind_eq_some_iff.mp hstep
    obtain ⟨-, rfl⟩ := of_ite_some hif
    exact h.same (fun _ => id) rfl
  | release s =>
    obtain ⟨-, rfl⟩ := of_ite_some hstep
    exact h.of_set (s := s) (fun t => w.set_session s t _) id fun _ => Broadcast.uses_release
  | _ => cases hop

theorem step_media {op : Op} (hop : op.actor = .media) (h : w.Alive) (ho : w.Owned)
    (hstep : Lifecycle.step w op = some w') : w'.Alive := by
  cases op with
  | threadRef s m =>
    obtain ⟨-, rfl⟩ := of_ite_some hstep
    exact h.of_set (s := s) (fun t => w.set_session s t _) id fun _ => Broadcast.uses_ref
  | raise s m =>
    obtain ⟨ht, rfl⟩ := of_ite_some hstep
    intro t hu
    rcases Broadcast.uses_raise hu with hu | rfl
    · exact h t hu
    · -- the thread that raises the packet has not ended
      by_contra hd
      exact (ho.session t).not_capturing (by simpa using hd) m ht
  | encoderFails s =>
    obtain ⟨-, rfl⟩ := of_ite_some hstep
    exact h.same (fun _ => Broadcast.uses_stop) rfl
  | threadRelease s m =>
    obtain ⟨-, rfl⟩ := of_ite_some hstep
    exact h.of_set (s := s) (fun t => w.set_session s t _) id fun _ => Broadcast.uses_release
  | threadStop s m =>
    obtain ⟨-, rfl⟩ := of_ite_some hstep
    exact (h.stop s).set id
  | _ => cases hop

theorem step_control {op : Op} (hop : op.actor = .control) (h : w.Alive)
    (hstep : Lifecycle.step w op = some w') : w'.Alive := by
  cases op with
  | loop =>
    obtain ⟨-, rfl⟩ := of_ite_some hstep
    exact h.same (fun _ hu => hu) rfl
  | lock =>
    obtain ⟨-, rfl⟩ := of_ite_some hstep
    exact h.same (fun _ hu => hu) rfl
  | timeout s =>
    obtain ⟨-, rfl⟩ := of_ite_some hstep
    exact h.stop s
  | sweep s =>
    obtain ⟨-, rfl⟩ := of_ite_some hstep
    exact h.sweep s
  | swept =>
    obtain ⟨-, rfl⟩ := of_ite_some hstep
    exact h.same (fun _ hu => hu) rfl
  | decide appRunning =>
    obtain ⟨-, rfl⟩ := of_ite_some hstep
    exact h.same (fun _ hu => hu) rfl
  | iterate e stops =>
    obtain ⟨-, rfl⟩ := of_ite_some hstep
    cases e with
    | none => exact h.same (fun _ hu => hu) rfl
    | some e => exact h.iterate e stops
  | close =>
    obtain ⟨-, rfl⟩ := of_ite_some hstep
    exact h.same (fun _ hu => hu) rfl
  | closeSession s =>
    obtain ⟨-, rfl⟩ := of_ite_some hstep
    exact h.of_set (s := s) (fun t => w.set_session s t _) id fun _ hu => hu
  | closed =>
    obtain ⟨-, rfl⟩ := of_ite_some hstep
    exact h.same (fun _ hu => hu) rfl
  | _ => cases hop

theorem step_broadcast {op : Op} (hop : op.actor = .broadcast) (h : w.Alive)
    (hstep : Lifecycle.step w op = some w') : w'.Alive := by
  cases op with
  | shutDown =>
    obtain rfl := Option.some.inj hstep
    exact h.same (fun _ => id) rfl
  | noTimer =>
    obtain ⟨-, rfl⟩ := of_ite_some hstep
    exact h.same (fun _ => Broadcast.uses_sender (m := .video) (x := .returned) (by simp) rfl rfl) rfl
  | pop m =>
    obtain ⟨-, hpop⟩ := Option.ite_none_right_eq_some.mp hstep
    obtain ⟨b, hb, rfl⟩ := Option.map_eq_some_iff.mp hpop
    exact h.same (fun _ => Broadcast.uses_pop hb) rfl
  | sent m fails =>
    obtain ⟨-, rfl⟩ := of_ite_some hstep
    split
    · exact h.same (fun _ => Broadcast.uses_senderReturns) rfl
    · exact h.same (fun _ => Broadcast.uses_sender (m := m) (x := .popping) (by simp) rfl rfl) rfl
  | endBroadcast =>
    obtain ⟨-, rfl⟩ := of_ite_some hstep
    intro s hu
    obtain ⟨m, ⟨-, hmem⟩ | hs⟩ := hu
    · cases hmem
    · cases hs
  | _ => cases hop

/-- A step that meets the guard leaves every session alive that is in use. -/
theorem step {op : Op} (h : w.Alive) (ho : w.Owned) (hguard : PacketGuard w op)
    (hstep : Lifecycle.step w op = some w') : w'.Alive := by
  cases hop : op.actor with
  | announce => exact step_announce hop h hguard hstep
  | clear => exact step_clear hop h hguard hstep
  | media => exact step_media hop h ho hstep
  | control => exact step_control hop h hstep
  | broadcast => exact step_broadcast hop h hstep

theorem boot : World.boot.Alive := by
  intro s _
  rfl

end World.Alive

/-- **The packets of a session.**  In every run that meets the guard, a packet that a broadcast thread processes refers
to a session that is not destroyed. -/
theorem processed_session_alive {ops : List Op} {w : World}
    (hrun : Run (Guarded WorldStep PacketGuard) World.boot ops w) {m : Media} {s : ℕ}
    (hm : w.broadcast.sender m = .processing s) : (w.session s).destroyed = false := by
  have h : w.Owned ∧ w.Alive := by
    refine hrun.invariant_where (I := fun w => w.Owned ∧ w.Alive) ?_ ⟨World.Owned.boot, World.Alive.boot⟩
    intro w op w' h hguard hstep
    exact ⟨h.1.step hstep, h.2.step h.1 hguard hstep⟩
  exact h.2 s ⟨m, Or.inr hm⟩

/-- `cmd_announce` for one session. -/
def announceOps (s : ℕ) : List Op :=
  [.alloc s true 7, .insert s, .ref s, .push s "10.0.0.2", .startAudio s, .startVideo s, .run s, .count s,
    .announced s, .threadRef s .video, .threadRef s .audio]

/-- A packet of a session that streams. -/
def packetSent : List Op := announceOps 0 ++ [.raise 0 .video, .pop .video]

theorem processed_session_alive_packetSent : ∃ w,
    Run (Guarded WorldStep PacketGuard) World.boot packetSent w ∧ w.broadcast.sender .video = .processing 0 ∧
      (w.session 0).destroyed = false := by
  obtain ⟨w, hrun, hs⟩ := exists_run_execWhere_and (f := step) (G := PacketGuard) (s := World.boot)
    (l := packetSent) (P := fun w => w.broadcast.sender .video = .processing 0) (by decide +kernel)
  exact ⟨w, hrun, hs, processed_session_alive hrun hs⟩

/-- The first session raises a packet and is stopped, joined and destroyed before the packet is popped. -/
def packetLeft : List Op :=
  announceOps 0 ++ announceOps 1 ++
    [.raise 0 .video, .threadRelease 0 .video, .threadStop 0 .video, .threadRelease 0 .audio, .threadStop 0 .audio,
      .loop, .lock, .sweep 0, .sweep 1, .swept, .clear false, .visit 0, .clearStop 0, .joinEnter 0,
      .joinThread 0 .video, .joinThread 0 .audio, .joinControl 0, .joinCount 0, .erase 0, .pop .video]

/-- The video thread processes a packet of a session that is destroyed. -/
theorem processed_after_destruction : ¬ ∀ (ops : List Op) (w : World), Run WorldStep World.boot ops w →
    ∀ (m : Media) (s : ℕ), w.broadcast.sender m = .processing s → (w.session s).destroyed = false := by
  intro h
  obtain ⟨w, hrun, hs, hd⟩ := exists_run_execWhere_and (f := step) (G := fun _ _ => True) (s := World.boot)
    (l := packetLeft)
    (P := fun w => w.broadcast.sender .video = .processing 0 ∧ (w.session 0).destroyed = true) (by decide +kernel)
  have := h _ w (Run.of_guarded hrun) .video 0 hs
  rw [hd] at this
  cases this

end MidnightSun.Lifecycle
