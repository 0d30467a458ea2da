import MidnightSun.Lifecycle.Sessions

/-!
# What keeps a session and the broadcast context alive (src/stream.cpp, src/rtsp.cpp)

`cmd_announce` and `_session_slots` keep a session alive until its threads are joined, and a session keeps the broadcast
context alive.  This holds in every run.
-/

namespace MidnightSun.Lifecycle

open Lib

structure Session.Owned (x : Session) : Prop where
  held : x.held = false → x.announce = .none ∨ x.announce = .started ∨ x.announce = .removed
  destroyed : x.destroyed = true → x.held = false ∧ ∀ m, x.thread m = .none ∨ x.thread m = .joined
  thread : ∀ m, x.thread m = .none ↔ x.announce.hasThread m = false
  past : ∀ m, x.join.past m = true → x.thread m = .joined
  ref : x.announce = .referenced → x.broadcastRef = true

structure World.Owned (w : World) : Prop where
  session : ∀ s, (w.session s).Owned
  slots : ∀ s, (w.session s).announce.published = true → s ∈ w.slots ∨ ∀ m, (w.session s).thread m = .joined
  ref : ∀ s, (w.session s).broadcastRef = true → .session s ∈ w.broadcast.refs
  context : w.broadcast.refs ≠ [] → w.broadcast.control ≠ .none

namespace Session.Owned

variable {x y : Session}

theorem not_capturing (h : x.Owned) (hd : x.destroyed = true) (m : Media) : x.thread m ≠ .capturing := by
  rcases (h.destroyed hd).2 m with ht | ht
  · simp [ht]
  · simp [ht]

/-- `cmd_announce` is not done with the session. -/
theorem held_of (h : x.Owned) (hn : x.announce ≠ .none) (hs : x.announce ≠ .started) (hr : x.announce ≠ .removed) :
    x.held = true := by
  by_contra hheld
  rcases h.held (by simpa using hheld) with ha | ha | ha
  · exact hn ha
  · exact hs ha
  · exact hr ha

theorem not_destroyed (h : x.Owned) (hheld : x.held = true) : x.destroyed ≠ true := by
  intro hd
  rw [(h.destroyed hd).1] at hheld
  cases hheld

/-- `cmd_announce` goes on. -/
theorem advance (h : x.Owned) (hheld : x.held = true) (hheld' : y.held = true) (hd : y.destroyed = x.destroyed)
    (ht : y.thread = x.thread) (hm : ∀ m, y.announce.hasThread m = x.announce.hasThread m) (hj : y.join = x.join)
    (href : y.announce = .referenced → y.broadcastRef = true) : y.Owned := by
  refine ⟨?_, ?_, ?_, ?_, href⟩
  · intro h'
    rw [hheld'] at h'
    cases h'
  · intro h'
    exact absurd (hd ▸ h') (h.not_destroyed hheld)
  · intro m
    rw [ht, hm]
    exact h.thread m
  · intro m hp
    rw [ht]
    exact h.past m (hj ▸ hp)

/-- Nothing that matters here changes. -/
theorem same (h : x.Owned) (hann : y.announce = x.announce) (hheld : y.held = x.held) (hd : y.destroyed = x.destroyed)
    (ht : y.thread = x.thread) (hj : ∀ m, y.join.past m = true → x.join.past m = true)
    (href : x.announce = .referenced → y.broadcastRef = x.broadcastRef) : y.Owned := by
  refine ⟨?_, ?_, ?_, ?_, ?_⟩
  · rw [hheld, hann]
    exact h.held
  · rw [hd, hheld, ht]
    exact h.destroyed
  · rw [hann, ht]
    exact h.thread
  · intro m hp
    rw [ht]
    exact h.past m (hj m hp)
  · intro ha
    rw [hann] at ha
    rw [href ha]
    exact h.ref ha

/-- A thread goes on. -/
theorem setThread (h : x.Owned) {m : Media} {t : Thread} (hx : x.thread m ≠ .none) (hx' : x.thread m ≠ .joined)
    (ht : t ≠ .none) : Session.Owned { x with thread := Function.update x.thread m t } := by
  have hdead : x.destroyed ≠ true := by
    intro hd
    rcases (h.destroyed hd).2 m with h' | h'
    · exact hx h'
    · exact hx' h'
  refine ⟨h.held, fun hd => absurd hd hdead, ?_, ?_, h.ref⟩
  · intro m'
    by_cases hm : m' = m
    · subst hm
      simp only [Function.update_self]
      exact ⟨fun h' => absurd h' ht, fun h' => absurd ((h.thread m').mpr h') hx⟩
    · simp only [Function.update_of_ne hm]
      exact h.thread m'
  · intro m' hp
    have hjoined := h.past m' hp
    by_cases hm : m' = m
    · subst hm
      exact absurd hjoined hx'
    · simp only [Function.update_of_ne hm]
      exact hjoined

/-- `start` creates a thread. -/
theorem start (h : x.Owned) {m : Media} {next : Announce} (hheld : x.held = true) (hx : x.thread m = .none)
    (hm : ∀ m', next.hasThread m' = (x.announce.hasThread m' || decide (m' = m))) (hne : next ≠ .referenced) :
    Session.Owned { x with thread := Function.update x.thread m .created, announce := next } := by
  refine ⟨?_, fun hd => absurd hd (h.not_destroyed hheld), ?_, ?_, fun ha => absurd ha hne⟩
  · intro h'
    rw [show x.held = false from h'] at hheld
    cases hheld
  · intro m'
    simp only [hm m', Function.update_apply]
    by_cases hmm : m' = m
    · simp [hmm]
    · simp [hmm, h.thread m']
  · intro m' hp
    have hjoined := h.past m' hp
    by_cases hmm : m' = m
    · rw [hmm, hx] at hjoined
      cases hjoined
    · simp only [Function.update_of_ne hmm]
      exact hjoined

/-- `join` has joined a thread. -/
theorem joinThread (h : x.Owned) {m : Media} (hx : x.join = m.join) (ht : x.thread m = .ended) :
    Session.Owned { x with thread := Function.update x.thread m .joined, join := m.joined } := by
  have hset := h.setThread (m := m) (t := .joined) (by simp [ht]) (by simp [ht]) (by simp)
  refine ⟨h.held, hset.destroyed, hset.thread, ?_, h.ref⟩
  intro m' hp
  have hpast := h.past m'
  rw [hx] at hpast
  by_cases hmm : m' = m
  · subst hmm
    simp
  · simp only [Function.update_of_ne hmm]
    cases m <;> cases m' <;> simp_all [Media.join, Media.joined, Join.past]

theorem destroy (h : x.Owned) (hheld : x.held = false) (ht : ∀ m, x.thread m = .none ∨ x.thread m = .joined) :
    Session.Owned { x with destroyed := true } :=
  ⟨h.held, fun _ => ⟨hheld, ht⟩, h.thread, h.past, h.ref⟩

end Session.Owned

namespace World.Owned

variable {w w' : World}

/-- One session changes. -/
theorem of_set (h : w.Owned) {s : ℕ} {x : Session} (hsession : ∀ t, w'.session t = if t = s then x else w.session t)
    (hx : x.Owned) (hslots : ∀ t, t ≠ s → t ∈ w.slots → t ∈ w'.slots)
    (hslot : x.announce.published = true → s ∈ w'.slots ∨ ∀ m, x.thread m = .joined)
    (hrefs : ∀ t, t ≠ s → .session t ∈ w.broadcast.refs → .session t ∈ w'.broadcast.refs)
    (href : x.broadcastRef = true → .session s ∈ w'.broadcast.refs)
    (hcontext : w'.broadcast.refs ≠ [] → w'.broadcast.control ≠ .none) : w'.Owned := by
  refine ⟨?_, ?_, ?_, hcontext⟩
  · intro t
    rw [hsession]
    split
    · exact hx
    · exact h.session t
  · intro t ht
    rw [hsession] at ht ⊢
    split at ht
    next hts =>
      rw [if_pos hts, hts]
      exact hslot ht
    next hts =>
      rw [if_neg hts]
      rcases h.slots t ht with hmem | hjoined
      · exact Or.inl (hslots t hts hmem)
      · exact Or.inr hjoined
  · intro t ht
    rw [hsession] at ht
    split at ht
    next hts => exact hts ▸ href ht
    next hts => exact hrefs t hts (h.ref t ht)

/-- One session changes, and the slots and the references do not. -/
theorem update (h : w.Owned) {s : ℕ} {x : Session} (hsession : ∀ t, w'.session t = if t = s then x else w.session t)
    (hx : x.Owned) (hslots : w'.slots = w.slots) (hrefs : w'.broadcast.refs = w.broadcast.refs)
    (hcontrol : w.broadcast.control ≠ .none → w'.broadcast.control ≠ .none)
    (hslot : x.announce.published = true →
      (w.session s).announce.published = true ∧ ∀ m, (w.session s).thread m = .joined → x.thread m = .joined)
    (href : x.broadcastRef = true → (w.session s).broadcastRef = true) : w'.Owned := by
  refine h.of_set hsession hx (fun t _ ht => hslots ▸ ht) ?_ (fun t _ ht => hrefs ▸ ht) ?_ ?_
  · intro hp
    obtain ⟨hp', hthreads⟩ := hslot hp
    rw [hslots]
    rcases h.slots s hp' with hmem | hjoined
    · exact Or.inl hmem
    · exact Or.inr fun m => hthreads m (hjoined m)
  · intro hb
    rw [hrefs]
    exact h.ref s (href hb)
  · rw [hrefs]
    exact fun hne => hcontrol (h.context hne)

theorem broadcast (h : w.Owned) {b : Broadcast} (hrefs : b.refs = w.broadcast.refs)
    (hcontrol : w.broadcast.control ≠ .none → b.control ≠ .none) : World.Owned { w with broadcast := b } where
  session := h.session
  slots := h.slots
  ref := fun s hs => by
    show _ ∈ b.refs
    rw [hrefs]
    exact h.ref s hs
  context := fun hne => hcontrol (h.context (by rwa [← show b.refs = w.broadcast.refs from hrefs]))

end World.Owned

theorem Broadcast.mem_ref {b : Broadcast} {h k : Holder} : k ∈ (b.ref h).refs ↔ k = h ∨ k ∈ b.refs := by
  unfold Broadcast.ref
  split
  next hnil => simp [hnil]
  next => simp

theorem Broadcast.ref_control (b : Broadcast) (h : Holder) (hb : b.refs ≠ [] → b.control ≠ .none) :
    (b.ref h).control ≠ .none := by
  unfold Broadcast.ref
  split
  next => simp
  next hne => exact hb hne

theorem Broadcast.release_refs (b : Broadcast) (h : Holder) : (b.release h).refs = b.refs.erase h := by
  unfold Broadcast.release
  dsimp only
  split <;> rfl

theorem Broadcast.release_control (b : Broadcast) (h : Holder) : (b.release h).control = b.control := by
  unfold Broadcast.release
  dsimp only
  split <;> rfl

theorem Broadcast.mem_release {b : Broadcast} {h k : Holder} (hne : k ≠ h) (hk : k ∈ b.refs) :
    k ∈ (b.release h).refs := by
  rw [Broadcast.release_refs]
  exact (List.mem_erase_of_ne hne).mpr hk

theorem Broadcast.release_control_ne {b : Broadcast} (h : Holder) (hb : b.refs ≠ [] → b.control ≠ .none)
    (hrefs : (b.release h).refs ≠ []) : (b.release h).control ≠ .none := by
  rw [Broadcast.release_refs] at hrefs
  rw [Broadcast.release_control]
  refine hb fun hnil => hrefs ?_
  rw [hnil]
  rfl

theorem Broadcast.pop_frame {b b' : Broadcast} {m : Media} (h : b.pop m = some b') :
    b'.refs = b.refs ∧ b'.control = b.control ∧ b'.todo = b.todo ∧ b'.sessions = b.sessions ∧
      b'.peerToSession = b.peerToSession := by
  unfold Broadcast.pop at h
  split at h
  · obtain rfl := Option.some.inj h
    exact ⟨rfl, rfl, rfl, rfl, rfl⟩
  · cases h
  · have h := Option.some.inj h
    subst h
    dsimp only
    split
    · exact ⟨rfl, rfl, rfl, rfl, rfl⟩
    · exact ⟨rfl, rfl, rfl, rfl, rfl⟩

namespace World.Owned

variable {w w' : World}

/-- A `shared_ptr` to a session goes that `cmd_announce` is done with. -/
theorem drop (h : w.Owned) {s : ℕ} (hann : (w.session s).held = false → (w.session s).announce ≠ .none) :
    (w.drop s).Owned := by
  unfold World.drop
  split
  · exact h
  next hno =>
    rw [not_or] at hno
    have hheld : (w.session s).held = false := by simpa using hno.1
    refine h.update (fun t => w.set_session s t _) ((h.session s).destroy hheld ?_) rfl rfl id
      (fun hp => ⟨hp, fun _ => id⟩) id
    intro m
    rcases (h.session s).held hheld with ha | ha | ha
    · exact absurd ha (hann hheld)
    · rcases h.slots s (by rw [ha]; rfl) with hmem | hjoined
      · exact absurd hmem hno.2
      · exact Or.inr (hjoined m)
    · exact Or.inl (((h.session s).thread m).mpr (by rw [ha]; rfl))

theorem sameSet (h : w.Owned) {s : ℕ} {x : Session} (hsession : ∀ t, w'.session t = if t = s then x else w.session t)
    (hann : x.announce = (w.session s).announce) (hheld : x.held = (w.session s).held)
    (hd : x.destroyed = (w.session s).destroyed) (ht : x.thread = (w.session s).thread)
    (hj : ∀ m, x.join.past m = true → (w.session s).join.past m = true)
    (hb : x.broadcastRef = (w.session s).broadcastRef) (hslots : w'.slots = w.slots)
    (hrefs : w'.broadcast.refs = w.broadcast.refs)
    (hcontrol : w.broadcast.control ≠ .none → w'.broadcast.control ≠ .none) : w'.Owned := by
  refine h.update hsession ((h.session s).same hann hheld hd ht hj fun _ => hb) hslots hrefs hcontrol ?_
    (by rw [hb]; exact id)
  intro hp
  rw [hann] at hp
  exact ⟨hp, fun m hm => by rw [ht]; exact hm⟩

theorem stop (h : w.Owned) (s : ℕ) : (w.stop s).Owned :=
  h.sameSet (s := s) (fun t => w.set_session s t _) rfl rfl rfl rfl (fun _ => id) rfl rfl rfl id

theorem joins (h : w.Owned) {s : ℕ} {j : Join} (hpast : ∀ m, j.past m = true → (w.session s).join.past m = true) :
    (w.joins s j).Owned :=
  h.sameSet (s := s) (fun t => w.set_session s t _) rfl rfl rfl rfl hpast rfl rfl rfl id

theorem bind (h : w.Owned) (e : Event) : (w.bind e).Owned := by
  unfold World.bind
  split
  · exact h
  split
  · exact h
  next s _ => exact h.sameSet (s := s) (fun t => w.set_session s t _) rfl rfl rfl rfl (fun _ => id) rfl rfl rfl id

theorem iterate (h : w.Owned) (e : Event) (stops : Bool) : (w.iterate e stops).Owned := by
  unfold World.iterate
  split
  · exact h
  next s _ =>
    have hbind := h.bind e
    dsimp only
    split
    · exact hbind
    · split
      · exact hbind.stop s
      · exact hbind
    · split
      · exact hbind.stop s
      · exact hbind

theorem sweep (h : w.Owned) (s : ℕ) : (w.sweep s).Owned := by
  unfold World.sweep
  dsimp only
  split
  · exact h.sameSet (s := s) (fun t => w.set_session s t _) rfl rfl rfl rfl (fun _ => id) rfl rfl rfl id
  · exact h.broadcast rfl id

/-- `cmd_announce` goes on, with no new thread and no new reference. -/
theorem advance (h : w.Owned) {s : ℕ} {a : Announce} (hn : (w.session s).announce ≠ .none)
    (hs : (w.session s).announce ≠ .started) (hr : (w.session s).announce ≠ .removed)
    (hm : ∀ m, a.hasThread m = (w.session s).announce.hasThread m) (hne : a ≠ .referenced)
    (hp : a.published = true → (w.session s).announce.published = true) : (w.advance s a).Owned := by
  have hheld := (h.session s).held_of hn hs hr
  exact h.update (s := s) (fun t => w.set_session s t _)
    ((h.session s).advance hheld hheld rfl rfl hm rfl fun ha => absurd ha hne) rfl rfl id
      (fun ha => ⟨hp ha, fun _ => id⟩) id

theorem mem_slots (h : w.Owned) {s : ℕ} {m : Media} (ht : (w.session s).thread m ≠ .joined)
    (hp : (w.session s).announce.published = true) : s ∈ w.slots := by
  rcases h.slots s hp with hmem | hjoined
  · exact hmem
  · exact absurd (hjoined m) ht

theorem start (h : w.Owned) {s : ℕ} {m : Media} {a : Announce} (hheld : (w.session s).held = true)
    (hp : (w.session s).announce.published = true) (hnone : (w.session s).announce.hasThread m = false)
    (hm : ∀ m', a.hasThread m' = ((w.session s).announce.hasThread m' || decide (m' = m))) (hne : a ≠ .referenced) :
    ((w.setThread s m .created).advance s a).Owned := by
  have hthread := ((h.session s).thread m).mpr hnone
  exact h.of_set (fun t => w.start_session s t m a) ((h.session s).start hheld hthread hm hne) (fun t _ ht => ht)
    (fun _ => Or.inl (h.mem_slots (m := m) (by simp [hthread]) hp)) (fun _ _ ht => ht) (h.ref s) h.context

/-- `cmd_announce` lets its `shared_ptr` go. -/
theorem announce_ends (h : w.Owned) {s : ℕ} (hheld : (w.session s).held = true)
    (hann : (w.session s).announce = .started ∨ (w.session s).announce = .removed) :
    World.Owned (World.drop (w.set s { w.session s with held := false }) s) := by
  have hx : Session.Owned { w.session s with held := false } := by
    refine ⟨?_, fun hd => absurd hd ((h.session s).not_destroyed hheld), (h.session s).thread, (h.session s).past,
      (h.session s).ref⟩
    intro _
    rcases hann with ha | ha
    · exact Or.inr (Or.inl ha)
    · exact Or.inr (Or.inr ha)
  refine World.Owned.drop (w := w.set s { w.session s with held := false }) ?_ ?_
  · exact h.update (s := s) (fun t => w.set_session s t _) hx rfl rfl id (fun hp => ⟨hp, fun _ => id⟩) id
  · intro _
    rw [World.set_session, if_pos rfl]
    rcases hann with ha | ha
    · simp [ha]
    · simp [ha]

theorem step_announce {op : Op} (hop : op.actor = .announce) (h : w.Owned) (hstep : Lifecycle.step w op = some w') :
    w'.Owned := by
  cases op with
  | alloc s sessionIdV1 connectData =>
    obtain ⟨hann, rfl⟩ := of_ite_some hstep
    exact h.update (s := s) (fun t => w.set_session s t _)
      ⟨by simp, by simp, fun m => by simp [Announce.hasThread], fun m => by simp [Join.past], by simp⟩ rfl rfl id
      (by simp [Announce.published]) (by simp)
  | insert s =>
    obtain ⟨⟨hann, -⟩, rfl⟩ := of_ite_some hstep
    have hheld := (h.session s).held_of (by simp [hann]) (by simp [hann]) (by simp [hann])
    exact h.of_set (s := s) (fun t => w.set_session s t _)
      ((h.session s).advance hheld hheld rfl rfl (by simp [hann, Announce.hasThread]) rfl (by simp))
      (fun t _ ht => List.mem_cons_of_mem _ ht) (fun _ => Or.inl List.mem_cons_self) (fun _ _ ht => ht) (h.ref s)
      h.context
  | ref s =>
    obtain ⟨⟨hann, -⟩, rfl⟩ := of_ite_some hstep
    have hheld := (h.session s).held_of (by simp [hann]) (by simp [hann]) (by simp [hann])
    refine h.of_set (s := s) (fun t => w.set_session s t _)
      ((h.session s).advance hheld hheld rfl rfl (by simp [hann, Announce.hasThread]) rfl (fun _ => rfl))
      (fun t _ ht => ht) (fun _ => h.slots s (by simp [hann, Announce.published])) ?_ (fun _ => ?_) ?_
    · exact fun t _ ht => Broadcast.mem_ref.mpr (Or.inr ht)
    · exact Broadcast.mem_ref.mpr (Or.inl rfl)
    · exact fun _ => Broadcast.ref_control _ _ h.context
  | refFails s =>
    obtain ⟨⟨hann, -⟩, rfl⟩ := of_ite_some hstep
    exact h.advance (by simp [hann]) (by simp [hann]) (by simp [hann]) (by simp [hann, Announce.hasThread]) (by simp)
      (by simp [hann, Announce.published])
  | push s address =>
    obtain ⟨⟨hann, -⟩, rfl⟩ := of_ite_some hstep
    have hheld := (h.session s).held_of (by simp [hann]) (by simp [hann]) (by simp [hann])
    exact h.update (s := s) (fun t => w.set_session s t _)
      ((h.session s).advance hheld hheld rfl rfl (by simp [hann, Announce.hasThread]) rfl (by simp)) rfl rfl id
      (fun _ => ⟨by simp [hann, Announce.published], fun _ => id⟩) id
  | startAudio s =>
    obtain ⟨hann, rfl⟩ := of_ite_some hstep
    have hheld := (h.session s).held_of (by simp [hann]) (by simp [hann]) (by simp [hann])
    exact h.start hheld (by simp [hann, Announce.published]) (by simp [hann, Announce.hasThread])
      (by simp [hann, Announce.hasThread]) (by simp)
  | startVideo s =>
    obtain ⟨hann, rfl⟩ := of_ite_some hstep
    have hheld := (h.session s).held_of (by simp [hann]) (by simp [hann]) (by simp [hann])
    have hthreads : ∀ m', Announce.hasThread .videoStarted m' =
        ((w.session s).announce.hasThread m' || decide (m' = Media.video)) := by
      intro m'
      cases m' <;> simp [hann, Announce.hasThread]
    exact h.start hheld (by simp [hann, Announce.published]) (by simp [hann, Announce.hasThread]) hthreads (by simp)
  | run s =>
    obtain ⟨hann, rfl⟩ := of_ite_some hstep
    have hheld := (h.session s).held_of (by simp [hann]) (by simp [hann]) (by simp [hann])
    exact h.update (s := s) (fun t => w.set_session s t _)
      ((h.session s).advance hheld hheld rfl rfl (by simp [hann, Announce.hasThread]) rfl (by simp)) rfl rfl id
      (fun _ => ⟨by simp [hann, Announce.published], fun _ => id⟩) id
  | count s =>
    obtain ⟨hann, rfl⟩ := of_ite_some hstep
    have := h.advance (s := s) (a := .started) (by simp [hann]) (by simp [hann]) (by simp [hann])
      (by simp [hann, Announce.hasThread]) (by simp) (by simp [hann, Announce.published])
    exact ⟨this.session, this.slots, this.ref, this.context⟩
  | remove s =>
    obtain ⟨⟨hann, -⟩, rfl⟩ := of_ite_some hstep
    have hheld := (h.session s).held_of (by simp [hann]) (by simp [hann]) (by simp [hann])
    exact h.of_set (s := s) (fun t => w.set_session s t _)
      ((h.session s).advance hheld hheld rfl rfl (by simp [hann, Announce.hasThread]) rfl (by simp))
      (fun t hne ht => (List.mem_erase_of_ne hne).mpr ht) (by simp [Announce.published]) (fun _ _ ht => ht) (h.ref s)
      h.context
  | announced s =>
    obtain ⟨⟨hann, hheld⟩, rfl⟩ := of_ite_some hstep
    exact h.announce_ends hheld hann
  | _ => cases hop

theorem step_clear {op : Op} (hop : op.actor = .clear) (h : w.Owned) (hstep : Lifecycle.step w op = some w') :
    w'.Owned := by
  cases op with
  | clear all =>
    obtain ⟨-, rfl⟩ := of_ite_some hstep
    exact ⟨h.session, h.slots, h.ref, h.context⟩
  | visit s =>
    obtain ⟨c, -, hif⟩ := Option.bind_eq_some_iff.mp hstep
    obtain ⟨-, rfl⟩ := of_ite_some hif
    unfold World.visit
    split
    · have := h.joins (s := s) (j := .stop) (by simp [Join.past])
      exact ⟨this.session, this.slots, this.ref, this.context⟩
    · exact ⟨h.session, h.slots, h.ref, h.context⟩
  | clearStop s =>
    obtain ⟨-, rfl⟩ := of_ite_some hstep
    exact (h.stop s).joins (by simp [Join.past])
  | joinEnter s =>
    obtain ⟨-, rfl⟩ := of_ite_some hstep
    exact h.sameSet (s := s) (fun t => w.set_session s t _) rfl rfl rfl rfl (by simp [Join.past]) rfl rfl rfl id
  | joinThread s m =>
    obtain ⟨⟨-, hjoin⟩, hthread⟩ := Option.ite_none_right_eq_some.mp hstep
    unfold World.joinThread at hthread
    have hthrows : World.Owned { w.joins s .idle with clear := none } := by
      have := h.joins (s := s) (j := .idle) (by simp [Join.past])
      exact ⟨this.session, this.slots, this.ref, this.context⟩
    split at hthread
    · exact Option.some.inj hthread ▸ hthrows
    · exact Option.some.inj hthread ▸ hthrows
    next ht =>
      obtain rfl := Option.some.inj hthread
      refine h.update (fun t => w.joins_session s t m m.joined) ((h.session s).joinThread hjoin ht) rfl rfl id
        (fun hp => ⟨hp, fun m' hm => ?_⟩) id
      by_cases hmm : m' = m
      · simp [hmm]
      · simpa [Function.update_of_ne hmm] using hm
    · cases hthread
  | joinControl s =>
    obtain ⟨⟨⟨-, hjoin⟩, -⟩, rfl⟩ := of_ite_some hstep
    exact h.joins (by simp [hjoin, Join.past])
  | joinCount s =>
    obtain ⟨⟨-, hjoin⟩, rfl⟩ := of_ite_some hstep
    have := h.joins (s := s) (j := .erase) (by simp [hjoin, Join.past])
    exact ⟨this.session, this.slots, this.ref, this.context⟩
  | erase s =>
    obtain ⟨c, -, hif⟩ := Option.bind_eq_some_iff.mp hstep
    obtain ⟨⟨-, hjoin⟩, rfl⟩ := of_ite_some hif
    have hjoined : ∀ m, (w.session s).thread m = .joined := fun m => (h.session s).past m (by simp [hjoin, Join.past])
    have herased : World.Owned
        { w.joins s .done with slots := w.slots.erase s, clear := some { c with current := none } } :=
      h.of_set (s := s) (fun t => w.set_session s t _)
        ((h.session s).same rfl rfl rfl rfl (by simp [hjoin, Join.past]) fun _ => rfl)
        (fun t hne ht => (List.mem_erase_of_ne hne).mpr ht) (fun _ => Or.inr hjoined) (fun _ _ ht => ht) (h.ref s)
        h.context
    refine herased.drop ?_
    intro _ hann
    have hself : (World.session { w.joins s .done with
        slots := w.slots.erase s, clear := some { c with current := none } } s).announce =
        (w.session s).announce := by simp [World.joins]
    rw [hself] at hann
    have := ((h.session s).thread .video).mpr (by simp [hann, Announce.hasThread])
    rw [hjoined .video] at this
    cases this
  | cleared =>
    obtain ⟨c, -, hif⟩ := Option.bind_eq_some_iff.mp hstep
    obtain ⟨-, rfl⟩ := of_ite_some hif
    exact ⟨h.session, h.slots, h.ref, h.context⟩
  | release s =>
    obtain ⟨⟨hd, -⟩, rfl⟩ := of_ite_some hstep
    have hne : (w.session s).announce ≠ .referenced := by
      intro ha
      exact (h.session s).not_destroyed ((h.session s).held_of (by simp [ha]) (by simp [ha]) (by simp [ha])) hd
    refine h.of_set (s := s) (fun t => w.set_session s t _)
      ((h.session s).same rfl rfl rfl rfl (fun _ => id) fun ha => absurd ha hne) (fun t _ ht => ht) (h.slots s) ?_
      (fun hb => by cases hb) (Broadcast.release_control_ne _ h.context)
    intro t hts ht
    exact Broadcast.mem_release (by simpa using hts) ht
  | _ => cases hop

theorem step_media {op : Op} (hop : op.actor = .media) (h : w.Owned) (hstep : Lifecycle.step w op = some w') :
    w'.Owned := by
  cases op with
  | threadRef s m =>
    obtain ⟨⟨ht, -⟩, rfl⟩ := of_ite_some hstep
    refine h.of_set (s := s) (fun t => w.set_session s t _)
      ((h.session s).setThread (by simp [ht]) (by simp [ht]) (by simp)) (fun t _ ht => ht)
      (fun hp => Or.inl (h.mem_slots (m := m) (by simp [ht]) hp)) ?_ ?_ ?_
    · exact fun t _ ht => Broadcast.mem_ref.mpr (Or.inr ht)
    · exact fun hb => Broadcast.mem_ref.mpr (Or.inr (h.ref s hb))
    · exact fun _ => Broadcast.ref_control _ _ h.context
  | raise s m =>
    obtain ⟨-, rfl⟩ := of_ite_some hstep
    exact h.broadcast rfl id
  | encoderFails s =>
    obtain ⟨-, rfl⟩ := of_ite_some hstep
    exact h.broadcast rfl id
  | threadRelease s m =>
    obtain ⟨ht, rfl⟩ := of_ite_some hstep
    exact h.of_set (s := s) (fun t => w.set_session s t _)
      ((h.session s).setThread (by simp [ht]) (by simp [ht]) (by simp)) (fun t _ ht => ht)
      (fun hp => Or.inl (h.mem_slots (m := m) (by simp [ht]) hp))
      (fun t _ ht => Broadcast.mem_release (by simp) ht) (fun hb => Broadcast.mem_release (by simp) (h.ref s hb))
      (Broadcast.release_control_ne _ h.context)
  | threadStop s m =>
    obtain ⟨⟨ht, -⟩, rfl⟩ := of_ite_some hstep
    have hstop := h.stop s
    have ht' : ((w.stop s).session s).thread m = .released := by simp [World.stop, ht]
    refine hstop.update (s := s) (fun t => (w.stop s).set_session s t _)
      ((hstop.session s).setThread (by simp [ht']) (by simp [ht']) (by simp)) rfl rfl id
      (fun hp => ⟨hp, fun m' hm => ?_⟩) id
    by_cases hmm : m' = m
    · rw [hmm, ht'] at hm
      cases hm
    · simpa [Function.update_of_ne hmm] using hm
  | _ => cases hop

theorem step_control {op : Op} (hop : op.actor = .control) (h : w.Owned) (hstep : Lifecycle.step w op = some w') :
    w'.Owned := by
  cases op with
  | loop =>
    obtain ⟨-, rfl⟩ := of_ite_some hstep
    exact h.broadcast rfl (fun _ => by split <;> simp)
  | lock =>
    obtain ⟨-, rfl⟩ := of_ite_some hstep
    exact h.broadcast rfl (by simp)
  | timeout s =>
    obtain ⟨-, rfl⟩ := of_ite_some hstep
    exact h.stop s
  | sweep s =>
    obtain ⟨-, rfl⟩ := of_ite_some hstep
    exact h.sweep s
  | swept =>
    obtain ⟨-, rfl⟩ := of_ite_some hstep
    exact h.broadcast rfl (by simp)
  | decide appRunning =>
    obtain ⟨-, rfl⟩ := of_ite_some hstep
    exact h.broadcast rfl (fun _ => by split <;> simp)
  | iterate e stops =>
    obtain ⟨-, rfl⟩ := of_ite_some hstep
    cases e with
    | none => exact h.broadcast rfl (by simp)
    | some e => exact (h.iterate e stops).broadcast rfl (by simp)
  | close =>
    obtain ⟨-, rfl⟩ := of_ite_some hstep
    exact h.broadcast rfl (by simp)
  | closeSession s =>
    obtain ⟨-, rfl⟩ := of_ite_some hstep
    exact h.sameSet (s := s) (fun t => w.set_session s t _) rfl rfl rfl rfl (fun _ => id) rfl rfl rfl id
  | closed =>
    obtain ⟨-, rfl⟩ := of_ite_some hstep
    exact h.broadcast rfl (by simp)
  | _ => cases hop

theorem step_broadcast {op : Op} (hop : op.actor = .broadcast) (h : w.Owned) (hstep : Lifecycle.step w op = some w') :
    w'.Owned := by
  cases op with
  | shutDown =>
    obtain rfl := Option.some.inj hstep
    exact ⟨h.session, h.slots, h.ref, h.context⟩
  | noTimer =>
    obtain ⟨-, rfl⟩ := of_ite_some hstep
    exact h.broadcast rfl id
  | pop m =>
    obtain ⟨-, hpop⟩ := Option.ite_none_right_eq_some.mp hstep
    obtain ⟨b, hb, rfl⟩ := Option.map_eq_some_iff.mp hpop
    obtain ⟨hrefs, hcontrol, -⟩ := Broadcast.pop_frame hb
    exact h.broadcast hrefs (by rw [hcontrol]; exact id)
  | sent m fails =>
    obtain ⟨-, rfl⟩ := of_ite_some hstep
    split
    · exact h.broadcast rfl id
    · exact h.broadcast rfl id
  | endBroadcast =>
    obtain ⟨⟨hrefs, -⟩, rfl⟩ := of_ite_some hstep
    refine ⟨h.session, h.slots, ?_, fun hne => absurd rfl hne⟩
    intro s hs
    have := h.ref s hs
    rw [hrefs] at this
    cases this
  | _ => cases hop

/-- **What is in use is alive.** -/
theorem step {op : Op} (h : w.Owned) (hstep : Lifecycle.step w op = some w') : w'.Owned := by
  cases hop : op.actor with
  | announce => exact step_announce hop h hstep
  | clear => exact step_clear hop h hstep
  | media => exact step_media hop h hstep
  | control => exact step_control hop h hstep
  | broadcast => exact step_broadcast hop h hstep

theorem boot : World.boot.Owned where
  session := fun _ => ⟨fun _ => Or.inl rfl, by simp [World.boot], fun m => by simp [World.boot, Announce.hasThread],
    fun m => by simp [World.boot, Join.past], by simp [World.boot]⟩
  slots := by simp [World.boot, Announce.published]
  ref := by simp [World.boot]
  context := fun hne => absurd rfl hne

end World.Owned

end MidnightSun.Lifecycle
