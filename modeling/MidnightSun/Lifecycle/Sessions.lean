import Mathlib.Data.List.Nodup
import Mathlib.Data.List.Perm.Subperm
import MidnightSun.Lifecycle.System

/-!
# The lifecycle of a session (src/stream.cpp, src/rtsp.cpp)

`Session.Orderly` links how far `cmd_announce` and `clear` are with a session to its state and its threads, and
`World.Orderly` the sessions to `_session_slots`, to the `clear` that is going on and to `running_sessions`.  Both hold
in every run in which no thread stops or joins a session before its `start` is done.
-/

namespace MidnightSun.Lifecycle

open Lib

/-! ### One session -/

/-- `RUNNING` is stored. -/
def Announce.ran : Announce → Bool
  | .running | .started => true
  | _ => false

/-- The thread is created. -/
def Announce.hasThread : Announce → Media → Bool
  | .audioStarted, m => m = .audio
  | .videoStarted, _ | .running, _ | .started, _ => true
  | _, _ => false

/-- The session can be in `_session_slots`. -/
def Announce.published : Announce → Bool
  | .none | .allocated | .removed => false
  | _ => true

/-- `join` was entered. -/
def Join.entered : Join → Bool
  | .idle | .stop | .enter => false
  | _ => true

/-- `join` has joined the thread. -/
def Join.past : Join → Media → Bool
  | .audio, m => m = .video
  | .control, _ | .count, _ | .erase, _ | .done, _ => true
  | _, _ => false

/-- `clear` is stopping or joining the session. -/
def Join.active : Join → Bool
  | .idle | .done => false
  | _ => true

/-- `join` has counted `running_sessions` down. -/
def Join.counted : Join → Bool
  | .erase | .done => true
  | _ => false

structure Session.Orderly (x : Session) : Prop where
  state : x.state = .stopped ↔ x.announce.ran = false
  starting : x.state ≠ .starting
  thread : ∀ m, x.thread m = .none ↔ x.announce.hasThread m = false
  join : x.join ≠ .idle → x.announce = .started
  joined : ∀ m, x.thread m = .joined ↔ x.join.past m = true
  entries : x.entries = if x.join.entered then 1 else 0

/-- What the lifecycle is about is the same. -/
structure Session.Same (x y : Session) : Prop where
  announce : y.announce = x.announce
  state : y.state = x.state
  join : y.join = x.join
  thread : y.thread = x.thread
  entries : y.entries = x.entries

namespace Session

variable {x y : Session}

theorem Same.refl (x : Session) : x.Same x := ⟨rfl, rfl, rfl, rfl, rfl⟩

theorem Orderly.same (h : x.Orderly) (hs : x.Same y) : y.Orderly := by
  obtain ⟨ha, hst, hj, ht, he⟩ := hs
  refine ⟨?_, ?_, ?_, ?_, ?_, ?_⟩
  · rw [ha, hst]
    exact h.state
  · rw [hst]
    exact h.starting
  · rw [ha, ht]
    exact h.thread
  · rw [hj, ha]
    exact h.join
  · rw [ht, hj]
    exact h.joined
  · rw [he, hj]
    exact h.entries

theorem Orderly.new (sessionIdV1 : Bool) (connectData : UInt32) :
    Session.Orderly
      { announce := .allocated, held := true, sessionIdV1 := sessionIdV1, connectData := connectData } :=
  ⟨by simp [Announce.ran], by simp, fun m => by simp [Announce.hasThread], by simp, fun m => by simp [Join.past], rfl⟩

theorem Orderly.idle (h : x.Orderly) (ha : x.announce ≠ .started) : x.join = .idle := by
  by_contra hj
  exact ha (h.join hj)

/-- `cmd_announce` goes on, without storing the state or creating a thread. -/
theorem Orderly.advance (h : x.Orderly) (hx : x.announce ≠ .started) (ha : y.announce.ran = x.announce.ran)
    (hm : ∀ m, y.announce.hasThread m = x.announce.hasThread m) (hst : y.state = x.state) (hj : y.join = x.join)
    (ht : y.thread = x.thread) (he : y.entries = x.entries) : y.Orderly := by
  have hidle : y.join = .idle := hj.trans (h.idle hx)
  refine ⟨?_, ?_, ?_, fun hne => absurd hidle hne, ?_, ?_⟩
  · rw [hst, ha]
    exact h.state
  · rw [hst]
    exact h.starting
  · intro m
    rw [ht, hm]
    exact h.thread m
  · rw [ht, hj]
    exact h.joined
  · rw [he, hj]
    exact h.entries

/-- `start` creates a thread. -/
theorem Orderly.start (h : x.Orderly) {m : Media} {next : Announce}
    (hm : ∀ m', next.hasThread m' = (x.announce.hasThread m' || decide (m' = m)))
    (hran : next.ran = x.announce.ran) (hne : x.announce ≠ .started) :
    Session.Orderly { x with thread := Function.update x.thread m .created, announce := next } := by
  have hidle : x.join = .idle := h.idle hne
  refine ⟨?_, h.starting, ?_, fun hj => absurd hidle hj, ?_, h.entries⟩
  · simp only [hran]
    exact h.state
  · intro m'
    simp only [hm m', Function.update_apply]
    by_cases hmm : m' = m
    · simp [hmm]
    · simp [hmm, h.thread m']
  · intro m'
    simp only [Function.update_apply]
    by_cases hmm : m' = m
    · simp [hmm, hidle, Join.past]
    · simp [hmm, h.joined m']

/-- A thread that runs goes on. -/
theorem Orderly.setThread (h : x.Orderly) {m : Media} {t : Thread} (hx : x.thread m ≠ .none)
    (hx' : x.thread m ≠ .joined) (ht : t ≠ .none) (ht' : t ≠ .joined) :
    Session.Orderly { x with thread := Function.update x.thread m t } := by
  refine ⟨h.state, h.starting, ?_, h.join, ?_, h.entries⟩
  · intro m'
    simp only [Function.update_apply]
    by_cases hmm : m' = m
    · subst hmm
      simp only [if_true]
      exact ⟨fun h' => absurd h' ht, fun h' => absurd ((h.thread m').mpr h') hx⟩
    · simp only [hmm, if_false]
      exact h.thread m'
  · intro m'
    simp only [Function.update_apply]
    by_cases hmm : m' = m
    · subst hmm
      simp only [if_true]
      exact ⟨fun h' => absurd h' ht', fun h' => absurd ((h.joined m').mpr h') hx'⟩
    · simp only [hmm, if_false]
      exact h.joined m'

theorem Orderly.run (h : x.Orderly) (hx : x.announce = .videoStarted) :
    Session.Orderly { x with announce := .running, state := .running } := by
  have hidle : x.join = .idle := h.idle (by simp [hx])
  refine ⟨by simp [Announce.ran], by simp, ?_, fun hj => absurd hidle hj, h.joined, h.entries⟩
  intro m
  have := h.thread m
  simpa [hx, Announce.hasThread] using this

theorem Orderly.stop (h : x.Orderly) : Session.Orderly { x with state := x.state.stop } := by
  refine ⟨?_, ?_, h.thread, h.join, h.joined, h.entries⟩
  · rw [← h.state]
    cases x.state <;> simp [State.stop]
  · have := h.starting
    cases hs : x.state <;> simp_all [State.stop]

/-- `clear` goes on with a session whose `start` is done. -/
theorem Orderly.joins (h : x.Orderly) {j : Join} (hx : x.announce = .started)
    (hpast : ∀ m, j.past m = x.join.past m) {entries : ℕ}
    (hentries : entries + (if x.join.entered then 1 else 0) = x.entries + if j.entered then 1 else 0) :
    Session.Orderly { x with join := j, entries := entries } := by
  refine ⟨h.state, h.starting, h.thread, fun _ => hx, ?_, ?_⟩
  · intro m
    rw [hpast m]
    exact h.joined m
  · have := h.entries
    show entries = if j.entered then 1 else 0
    omega

/-- `join` has joined a thread. -/
theorem Orderly.joinThread (h : x.Orderly) {m : Media} (hx : x.join = m.join) :
    Session.Orderly { x with thread := Function.update x.thread m .joined, join := m.joined } := by
  have hstarted : x.announce = .started := h.join (by rw [hx]; cases m <;> simp [Media.join])
  have hthread := h.thread
  have hjoined := h.joined
  have hentries := h.entries
  rw [hx] at hjoined hentries
  rw [hstarted] at hthread
  refine ⟨h.state, h.starting, ?_, fun _ => hstarted, ?_, ?_⟩
  · intro m'
    have := hthread m'
    simp only [hstarted, Announce.hasThread, Function.update_apply] at this ⊢
    split
    · simp
    · exact this
  · intro m'
    have := hjoined m'
    cases m <;> cases m' <;> simp_all [Media.join, Media.joined, Join.past]
  · cases m <;> simpa [Media.join, Media.joined, Join.entered] using hentries

/-- A thread that `join` waits for is joinable. -/
theorem Orderly.joinable (h : x.Orderly) {m : Media} (hx : x.join = m.join) :
    x.thread m ≠ .none ∧ x.thread m ≠ .joined := by
  have hstarted : x.announce = .started := h.join (by rw [hx]; cases m <;> simp [Media.join])
  refine ⟨?_, ?_⟩
  · intro ht
    have := (h.thread m).mp ht
    simp [hstarted, Announce.hasThread] at this
  · intro ht
    have := (h.joined m).mp ht
    cases m <;> simp [hx, Media.join, Join.past] at this

end Session

/-! ### All sessions -/

/-- The session that `clear` is stopping or joining. -/
def World.current (w : World) : Option ℕ := w.clear.bind (·.current)

structure World.Orderly (w : World) : Prop where
  session : ∀ s, (w.session s).Orderly
  nodup : w.slots.Nodup
  listed : ∀ s ∈ w.slots, (w.session s).announce.published = true ∧ (w.session s).join ≠ .done
  current : ∀ s, (w.session s).join.active = true → w.current = some s
  todo : ∀ c ∈ w.clear, c.todo.Nodup ∧ ∀ s ∈ c.todo, s ∈ w.slots ∧ c.current ≠ some s
  slot : ∀ s, w.current = some s → s ∈ w.slots
  started : w.started.Nodup ∧ ∀ s, s ∈ w.started ↔ (w.session s).announce = .started
  joined : w.joined.Nodup ∧ ∀ s, s ∈ w.joined ↔ (w.session s).join.counted = true
  count : w.runningSessions = UInt32.ofNat w.started.length - UInt32.ofNat w.joined.length
  stops : ∀ s ∈ w.stops, (w.session s).state = .stopping

/-- The list of sessions, the `clear` that is going on and the counts are the same. -/
structure World.Aside (w w' : World) : Prop where
  slots : w'.slots = w.slots
  clear : w'.clear = w.clear
  runningSessions : w'.runningSessions = w.runningSessions
  started : w'.started = w.started
  joined : w'.joined = w.joined

@[simp] theorem World.set_session (w : World) (s t : ℕ) (x : Session) :
    (w.set s x).session t = if t = s then x else w.session t := by
  simp [World.set, Function.update_apply]

theorem World.start_session (w : World) (s t : ℕ) (m : Media) (a : Announce) :
    ((w.setThread s m .created).advance s a).session t = if t = s then
      { w.session s with thread := Function.update (w.session s).thread m .created, announce := a }
      else w.session t := by
  simp only [World.advance, World.setThread, World.set_session]
  split <;> simp

theorem World.joins_session (w : World) (s t : ℕ) (m : Media) (j : Join) :
    ((w.setThread s m .joined).joins s j).session t = if t = s then
      { w.session s with thread := Function.update (w.session s).thread m .joined, join := j }
      else w.session t := by
  simp only [World.joins, World.setThread, World.set_session]
  split <;> simp

namespace World.Orderly

variable {w w' : World}

/-- Sessions change only in what the lifecycle is not about. -/
theorem same (h : w.Orderly) (ha : w.Aside w') (hs : ∀ s, (w.session s).Same (w'.session s))
    (hstops : w'.stops = w.stops) : w'.Orderly where
  session := fun s => (h.session s).same (hs s)
  nodup := ha.slots ▸ h.nodup
  listed := by
    intro s hmem
    rw [(hs s).announce, (hs s).join]
    exact h.listed s (ha.slots ▸ hmem)
  current := by
    intro s hs'
    rw [(hs s).join] at hs'
    rw [World.current, ha.clear]
    exact h.current s hs'
  todo := by
    rw [ha.clear, ha.slots]
    exact h.todo
  slot := by
    rw [World.current, ha.clear, ha.slots]
    exact h.slot
  started := by
    rw [ha.started]
    exact ⟨h.started.1, fun s => by rw [(hs s).announce]; exact h.started.2 s⟩
  joined := by
    rw [ha.joined]
    exact ⟨h.joined.1, fun s => by rw [(hs s).join]; exact h.joined.2 s⟩
  count := by
    rw [ha.runningSessions, ha.started, ha.joined]
    exact h.count
  stops := by
    intro s hmem
    rw [(hs s).state]
    exact h.stops s (hstops ▸ hmem)

/-- One session changes; what the lists say of the others stays. -/
theorem of_set (h : w.Orderly) {s : ℕ} {x : Session}
    (hsession : ∀ t, w'.session t = if t = s then x else w.session t) (hx : x.Orderly) (hnodup : w'.slots.Nodup)
    (hslots : ∀ t ∈ w'.slots, t ≠ s → t ∈ w.slots)
    (hlisted : s ∈ w'.slots → x.announce.published = true ∧ x.join ≠ .done)
    (hcurrent : ∀ t, t ≠ s → w.current = some t → w'.current = some t)
    (hactive : x.join.active = true → w'.current = some s)
    (htodo : ∀ c ∈ w'.clear, c.todo.Nodup ∧ ∀ t ∈ c.todo, t ∈ w'.slots ∧ c.current ≠ some t)
    (hslot : ∀ t, w'.current = some t → t ∈ w'.slots) (hstarted : w'.started.Nodup)
    (hstarted' : ∀ t, t ∈ w'.started ↔ if t = s then x.announce = .started else t ∈ w.started)
    (hjoined : w'.joined.Nodup)
    (hjoined' : ∀ t, t ∈ w'.joined ↔ if t = s then x.join.counted = true else t ∈ w.joined)
    (hcount : w'.runningSessions = UInt32.ofNat w'.started.length - UInt32.ofNat w'.joined.length)
    (hstops : ∀ t ∈ w'.stops, if t = s then x.state = .stopping else t ∈ w.stops) : w'.Orderly := by
  refine ⟨?_, hnodup, ?_, ?_, htodo, hslot, ⟨hstarted, ?_⟩, ⟨hjoined, ?_⟩, hcount, ?_⟩
  · intro t
    rw [hsession]
    split
    · exact hx
    · exact h.session t
  · intro t hmem
    rw [hsession]
    split
    next ht => exact hlisted (ht ▸ hmem)
    next ht => exact h.listed t (hslots t hmem ht)
  · intro t hact
    rw [hsession] at hact
    split at hact
    next ht => exact ht ▸ hactive hact
    next ht => exact hcurrent t ht (h.current t hact)
  · intro t
    rw [hstarted', hsession]
    split
    · rfl
    · exact h.started.2 t
  · intro t
    rw [hjoined', hsession]
    split
    · rfl
    · exact h.joined.2 t
  · intro t hmem
    have := hstops t hmem
    rw [hsession]
    split
    next ht => rwa [if_pos ht] at this
    next ht =>
      rw [if_neg ht] at this
      exact h.stops t this

theorem started_of_iff (h : w.Orderly) {s : ℕ} {x : Session}
    (hx : x.announce = .started ↔ (w.session s).announce = .started) (t : ℕ) :
    t ∈ w.started ↔ if t = s then x.announce = .started else t ∈ w.started := by
  split
  next ht => rw [h.started.2, ht, hx]
  next => rfl

theorem joined_of_eq (h : w.Orderly) {s : ℕ} {x : Session} (hx : x.join.counted = (w.session s).join.counted) (t : ℕ) :
    t ∈ w.joined ↔ if t = s then x.join.counted = true else t ∈ w.joined := by
  split
  next ht => rw [h.joined.2, ht, hx]
  next => rfl

theorem stops_of_imp (h : w.Orderly) {s : ℕ} {x : Session}
    (hx : (w.session s).state = .stopping → x.state = .stopping) (t : ℕ) (ht : t ∈ w.stops) :
    if t = s then x.state = .stopping else t ∈ w.stops := by
  split
  next hts => exact hx (hts ▸ h.stops t ht)
  next => exact ht

/-- One session changes, but not its place in the lists. -/
theorem update (h : w.Orderly) (ha : w.Aside w') {s : ℕ} {x : Session}
    (hsession : ∀ t, w'.session t = if t = s then x else w.session t) (hx : x.Orderly)
    (hpublished : (w.session s).announce.published = true → x.announce.published = true)
    (hstarted : x.announce = .started ↔ (w.session s).announce = .started)
    (hdone : x.join = .done ↔ (w.session s).join = .done) (hactive : x.join.active = true → w.current = some s)
    (hcounted : x.join.counted = (w.session s).join.counted)
    (hstate : (w.session s).state = .stopping → x.state = .stopping)
    (hstops : ∀ t ∈ w'.stops, t ∈ w.stops ∨ t = s ∧ x.state = .stopping) : w'.Orderly := by
  have hcurrent : w'.current = w.current := by rw [World.current, ha.clear]; rfl
  refine h.of_set hsession hx (ha.slots ▸ h.nodup) (fun t ht _ => ha.slots ▸ ht) ?_ (fun t _ ht => hcurrent ▸ ht)
    (fun hact => hcurrent ▸ hactive hact) ?_ ?_ (ha.started ▸ h.started.1) ?_ (ha.joined ▸ h.joined.1) ?_ ?_ ?_
  · intro hmem
    obtain ⟨hp, hd⟩ := h.listed s (ha.slots ▸ hmem)
    exact ⟨hpublished hp, fun h' => hd (hdone.mp h')⟩
  · rw [ha.clear, ha.slots]
    exact h.todo
  · rw [hcurrent, ha.slots]
    exact h.slot
  · rw [ha.started]
    exact h.started_of_iff hstarted
  · rw [ha.joined]
    exact h.joined_of_eq hcounted
  · rw [ha.runningSessions, ha.started, ha.joined]
    exact h.count
  · intro t hmem
    rcases hstops t hmem with hmem | ⟨rfl, hst⟩
    · exact h.stops_of_imp hstate t hmem
    · rw [if_pos rfl]
      exact hst

/-- `session::stop`, of a session that runs or is stopping. -/
theorem stop (h : w.Orderly) {s : ℕ} (hs : (w.session s).state ≠ .stopped) : (w.stop s).Orderly := by
  have hstop : (w.session s).state.stop = .stopping := by
    have := (h.session s).starting
    cases hst : (w.session s).state <;> simp_all [State.stop]
  refine h.update (s := s) ⟨rfl, rfl, rfl, rfl, rfl⟩ (fun t => w.set_session s t _) (h.session s).stop id Iff.rfl
    Iff.rfl (h.current s) rfl (fun _ => hstop) ?_
  intro t ht
  rcases List.mem_cons.mp ht with rfl | ht
  · exact Or.inr ⟨rfl, hstop⟩
  · exact Or.inl ht

theorem not_stopping (h : w.Orderly) {s : ℕ} (hs : (w.session s).announce.ran = false) :
    (w.session s).state ≠ .stopping := by
  rw [(h.session s).state.mpr hs]
  simp

/-- The threads of a session go on, or `cmd_announce` does before `start` is done. -/
theorem advance (h : w.Orderly) (ha : w.Aside w') {s : ℕ} {x : Session}
    (hsession : ∀ t, w'.session t = if t = s then x else w.session t) (hx : x.Orderly)
    (hpublished : (w.session s).announce.published = true → x.announce.published = true)
    (hstarted : x.announce = .started ↔ (w.session s).announce = .started)
    (hjoin : x.join = (w.session s).join)
    (hstate : x.state = (w.session s).state ∨ (w.session s).announce.ran = false)
    (hstops : w'.stops = w.stops) : w'.Orderly := by
  refine h.update ha hsession hx hpublished hstarted (by rw [hjoin]) (by rw [hjoin]; exact h.current s) (by rw [hjoin])
    ?_ (fun t ht => Or.inl (hstops ▸ ht))
  intro hst
  rcases hstate with hx' | hran
  · exact hx'.trans hst
  · exact absurd hst (h.not_stopping hran)

/-- `clear` goes on with its session. -/
theorem joins (h : w.Orderly) (ha : w.Aside w') {s : ℕ} {x : Session}
    (hsession : ∀ t, w'.session t = if t = s then x else w.session t) (hx : x.Orderly)
    (hann : x.announce = (w.session s).announce) (hstate : x.state = (w.session s).state)
    (hcurrent : w.current = some s) (hold : (w.session s).join.active = true) (hnew : x.join.active = true)
    (hcounted : x.join.counted = (w.session s).join.counted) (hstops : w'.stops = w.stops) : w'.Orderly := by
  refine h.update ha hsession hx (by rw [hann]; exact id) (by rw [hann]) ?_ (fun _ => hcurrent) hcounted
    (by rw [hstate]; exact id) (fun t ht => Or.inl (hstops ▸ ht))
  constructor
  · intro hd
    simp [hd, Join.active] at hnew
  · intro hd
    simp [hd, Join.active] at hold

/-- `insert`. -/
theorem insert (h : w.Orderly) {s : ℕ} (hs : (w.session s).announce = .allocated) (hclear : w.clear = none) :
    World.Orderly { w.advance s .inserted with slots := s :: w.slots } := by
  have hnew : s ∉ w.slots := by
    intro hmem
    have := (h.listed s hmem).1
    simp [hs, Announce.published] at this
  have hidle : (w.session s).join = .idle := (h.session s).idle (by simp [hs])
  refine h.of_set (fun t => w.set_session s t _)
    ((h.session s).advance (by simp [hs]) (by simp [hs, Announce.ran]) (by simp [hs, Announce.hasThread]) rfl rfl rfl
      rfl) (List.nodup_cons.mpr ⟨hnew, h.nodup⟩) ?_ (fun _ => ⟨rfl, by simp [hidle]⟩) (fun _ _ ht => ht) (h.current s)
    ?_ (fun t ht => List.mem_cons_of_mem _ (h.slot t ht)) h.started.1 ?_ h.joined.1 ?_ h.count ?_
  · intro t hmem hne
    exact (List.mem_cons.mp hmem).resolve_left hne
  · intro c hc
    rw [show World.clear { w.advance s .inserted with slots := s :: w.slots } = none from hclear] at hc
    cases hc
  · exact h.started_of_iff (by simp [hs])
  · exact h.joined_of_eq rfl
  · exact h.stops_of_imp fun hst => absurd hst (h.not_stopping (by simp [hs, Announce.ran]))

/-- `remove`. -/
theorem remove (h : w.Orderly) {s : ℕ} (hs : (w.session s).announce = .failed) (hclear : w.clear = none) :
    World.Orderly { w.advance s .removed with slots := w.slots.erase s } := by
  have hidle : (w.session s).join = .idle := (h.session s).idle (by simp [hs])
  have hcurrent : World.current { w.advance s .removed with slots := w.slots.erase s } = none := by
    rw [World.current, show World.clear { w.advance s .removed with slots := w.slots.erase s } = none from hclear]
    rfl
  refine h.of_set (fun t => w.set_session s t _)
    ((h.session s).advance (by simp [hs]) (by simp [hs, Announce.ran]) (by simp [hs, Announce.hasThread]) rfl rfl rfl
      rfl) (h.nodup.erase s) (fun t ht _ => List.mem_of_mem_erase ht) ?_ (fun _ _ ht => ht) (h.current s) ?_ ?_
    h.started.1 ?_ h.joined.1 ?_ h.count ?_
  · intro hmem
    exact absurd hmem h.nodup.not_mem_erase
  · intro c hc
    rw [show World.clear { w.advance s .removed with slots := w.slots.erase s } = none from hclear] at hc
    cases hc
  · intro t ht
    rw [hcurrent] at ht
    cases ht
  · exact h.started_of_iff (by simp [hs])
  · exact h.joined_of_eq rfl
  · exact h.stops_of_imp fun hst => absurd hst (h.not_stopping (by simp [hs, Announce.ran]))

/-- `++running_sessions`. -/
theorem counted (h : w.Orderly) {s : ℕ} (hs : (w.session s).announce = .running) :
    World.Orderly
      { w.advance s .started with runningSessions := w.runningSessions + 1, started := s :: w.started } := by
  have hidle : (w.session s).join = .idle := (h.session s).idle (by simp [hs])
  have hnew : s ∉ w.started := by
    rw [h.started.2, hs]
    simp
  refine h.of_set (fun t => w.set_session s t _)
    ((h.session s).advance (by simp [hs]) (by simp [hs, Announce.ran]) (by simp [hs, Announce.hasThread]) rfl rfl rfl
      rfl) h.nodup (fun t ht _ => ht) (fun _ => ⟨rfl, by simp [hidle]⟩) (fun _ _ ht => ht) (h.current s) h.todo h.slot
    (List.nodup_cons.mpr ⟨hnew, h.started.1⟩) ?_ h.joined.1 ?_ ?_ ?_
  · intro t
    split
    next ht => simp [ht]
    next ht => simp [ht]
  · exact h.joined_of_eq rfl
  · show w.runningSessions + 1 = UInt32.ofNat (w.started.length + 1) - UInt32.ofNat w.joined.length
    rw [h.count, UInt32.ofNat_add, UInt32.ofNat_one]
    grind
  · exact h.stops_of_imp id

/-- `clear` takes the lock. -/
theorem clear (h : w.Orderly) (all : Bool) (hclear : w.clear = none) :
    World.Orderly { w with clear := some { all := all, todo := w.slots } } := by
  have hnone : ∀ t, (w.session t).join.active ≠ true := by
    intro t ht
    have := h.current t ht
    simp [World.current, hclear] at this
  refine ⟨h.session, h.nodup, h.listed, fun t ht => absurd ht (hnone t), ?_, ?_, h.started, h.joined, h.count, h.stops⟩
  · intro c hc
    cases hc
    exact ⟨h.nodup, fun t ht => ⟨ht, by simp⟩⟩
  · intro t ht
    cases ht

/-- `clear` goes on without a session. -/
theorem withoutCurrent (h : w.Orderly) {c : Clear} (hc : w.clear = some c) (hcurrent : c.current = none)
    {next : Option Clear}
    (hnext : ∀ c' ∈ next, c'.todo.Nodup ∧ (∀ t ∈ c'.todo, t ∈ w.slots) ∧ c'.current = none) :
    World.Orderly { w with clear := next } := by
  have hnone : World.current { w with clear := next } = none := by
    cases hn : next with
    | none => rfl
    | some c' => exact (hnext c' (by rw [hn]; rfl)).2.2
  refine ⟨h.session, h.nodup, h.listed, ?_, ?_, ?_, h.started, h.joined, h.count, h.stops⟩
  · intro t ht
    have := h.current t ht
    simp [World.current, hc, hcurrent] at this
  · intro c' hc'
    obtain ⟨hnodup, hmem, hcur⟩ := hnext c' hc'
    exact ⟨hnodup, fun t ht => ⟨hmem t ht, by simp [hcur]⟩⟩
  · intro t ht
    rw [hnone] at ht
    cases ht

/-- `clear` looks at a slot, and it stops and joins only sessions whose `start` is done. -/
theorem visit (h : w.Orderly) {s : ℕ} {c : Clear} (hc : w.clear = some c) (hcurrent : c.current = none)
    (hs : s ∈ c.todo) (hguard : c.all = true ∨ (w.session s).state = .stopping → (w.session s).announce = .started) :
    (w.visit s c).Orderly := by
  obtain ⟨hnodup, htodo⟩ := h.todo c hc
  have hrest : ∀ t ∈ c.todo.erase s, t ≠ s ∧ t ∈ w.slots := by
    intro t ht
    obtain ⟨hne, ht⟩ := hnodup.mem_erase_iff.mp ht
    exact ⟨hne, (htodo t ht).1⟩
  have hslot := (htodo s hs).1
  have hno : ∀ t, w.current ≠ some t := by
    intro t ht
    simp [World.current, hc, hcurrent] at ht
  unfold World.visit
  split
  next htaken =>
    have hstarted := hguard htaken
    have hjoin : (w.session s).join = .idle := by
      have hactive : (w.session s).join.active ≠ true := fun ht => hno s (h.current s ht)
      have hdone := (h.listed s hslot).2
      cases hj : (w.session s).join <;> simp_all [Join.active]
    refine h.of_set (fun t => w.set_session s t _)
      ((h.session s).joins hstarted (j := .stop) (by simp [hjoin, Join.past]) (by simp [hjoin, Join.entered]))
      h.nodup (fun t ht _ => ht) (fun ht => ⟨(h.listed s ht).1, by simp⟩) (fun t _ ht => absurd ht (hno t))
      (fun _ => rfl) ?_ ?_ h.started.1 ?_ h.joined.1 ?_ h.count ?_
    · intro c' hc'
      cases hc'
      refine ⟨hnodup.erase s, fun t ht => ⟨(hrest t ht).2, ?_⟩⟩
      simp only [ne_eq, Option.some.injEq]
      exact fun hst => (hrest t ht).1 hst.symm
    · intro t ht
      cases ht
      exact hslot
    · exact h.started_of_iff (by simp [hstarted])
    · exact h.joined_of_eq (by simp [hjoin, Join.counted])
    · exact h.stops_of_imp id
  next =>
    refine h.withoutCurrent hc hcurrent ?_
    intro c' hc'
    cases hc'
    exact ⟨hnodup.erase s, fun t ht => (hrest t ht).2, hcurrent⟩

/-- `--running_sessions`. -/
theorem joinCounted (h : w.Orderly) {s : ℕ} (hs : w.joining s .count) :
    World.Orderly
      { w.joins s .erase with runningSessions := w.runningSessions - 1, joined := s :: w.joined } := by
  obtain ⟨hcurrent, hjoin⟩ := hs
  have hstarted : (w.session s).announce = .started := (h.session s).join (by simp [hjoin])
  have hnew : s ∉ w.joined := by
    rw [h.joined.2, hjoin]
    simp [Join.counted]
  refine h.of_set (fun t => w.set_session s t _)
    ((h.session s).joins hstarted (j := .erase) (by simp [hjoin, Join.past]) (by simp [hjoin, Join.entered]))
    h.nodup (fun t ht _ => ht) (fun ht => ⟨(h.listed s ht).1, by simp⟩) (fun _ _ ht => ht) (fun _ => hcurrent) h.todo
    h.slot h.started.1 ?_ (List.nodup_cons.mpr ⟨hnew, h.joined.1⟩) ?_ ?_ ?_
  · exact h.started_of_iff (by simp [hstarted])
  · intro t
    split
    next ht => simp [ht, Join.counted]
    next ht => simp [ht]
  · show w.runningSessions - 1 = UInt32.ofNat w.started.length - UInt32.ofNat (w.joined.length + 1)
    rw [h.count, UInt32.ofNat_add, UInt32.ofNat_one]
    grind
  · exact h.stops_of_imp id

/-- `clear` erases a slot. -/
theorem erase (h : w.Orderly) {s : ℕ} {c : Clear} (hc : w.clear = some c) (hs : w.joining s .erase) :
    World.Orderly { w.joins s .done with slots := w.slots.erase s, clear := some { c with current := none } } := by
  obtain ⟨hcurrent, hjoin⟩ := hs
  have hcur : c.current = some s := by simpa [World.current, hc] using hcurrent
  have hstarted : (w.session s).announce = .started := (h.session s).join (by simp [hjoin])
  obtain ⟨hnodup, htodo⟩ := h.todo c hc
  refine h.of_set (fun t => w.set_session s t _)
    ((h.session s).joins hstarted (j := .done) (by simp [hjoin, Join.past]) (by simp [hjoin, Join.entered]))
    (h.nodup.erase s) (fun t ht _ => List.mem_of_mem_erase ht) (fun ht => absurd ht h.nodup.not_mem_erase) ?_
    (fun hact => by simp [Join.active] at hact) ?_ ?_ h.started.1 ?_ h.joined.1 ?_ h.count ?_
  · intro t hne ht
    exact absurd (Option.some.inj (ht.symm.trans hcurrent)) hne
  · intro c' hc'
    cases hc'
    refine ⟨hnodup, fun t ht => ⟨?_, by simp⟩⟩
    obtain ⟨hslot, hne⟩ := htodo t ht
    exact h.nodup.mem_erase_iff.mpr ⟨fun hts => hne (by rw [hcur, hts]), hslot⟩
  · intro t ht
    cases ht
  · exact h.started_of_iff (by simp [hstarted])
  · exact h.joined_of_eq (by simp [hjoin, Join.counted])
  · exact h.stops_of_imp id

end World.Orderly

/-! ### Steps -/

namespace World.Orderly

variable {w w' : World}

theorem sameSet (h : w.Orderly) (ha : w.Aside w') {s : ℕ} {x : Session}
    (hsession : ∀ t, w'.session t = if t = s then x else w.session t) (hx : (w.session s).Same x)
    (hstops : w'.stops = w.stops) : w'.Orderly := by
  refine h.same ha (fun t => ?_) hstops
  rw [hsession]
  split
  next ht => exact ht ▸ hx
  next => exact Session.Same.refl _

theorem drop (h : w.Orderly) (s : ℕ) : (w.drop s).Orderly := by
  unfold World.drop
  split
  · exact h
  · exact h.sameSet ⟨rfl, rfl, rfl, rfl, rfl⟩ (fun t => w.set_session s t _) ⟨rfl, rfl, rfl, rfl, rfl⟩ rfl

theorem broadcast (h : w.Orderly) (b : Broadcast) : World.Orderly { w with broadcast := b } :=
  h.same ⟨rfl, rfl, rfl, rfl, rfl⟩ (fun _ => Session.Same.refl _) rfl

theorem sweep (h : w.Orderly) (s : ℕ) : (w.sweep s).Orderly := by
  unfold World.sweep
  dsimp only
  split
  · exact h.sameSet ⟨rfl, rfl, rfl, rfl, rfl⟩ (fun t => w.set_session s t _) ⟨rfl, rfl, rfl, rfl, rfl⟩ rfl
  · exact h.broadcast _

theorem bind (h : w.Orderly) (e : Event) : (w.bind e).Orderly := by
  unfold World.bind
  split
  · exact h
  split
  · exact h
  next s _ => exact h.sameSet ⟨rfl, rfl, rfl, rfl, rfl⟩ (fun t => w.set_session s t _) ⟨rfl, rfl, rfl, rfl, rfl⟩ rfl

end World.Orderly

/-- `get_session` changes no state of a session. -/
theorem World.bind_state (w : World) (e : Event) (s : ℕ) : ((w.bind e).session s).state = (w.session s).state := by
  unfold World.bind
  split
  · rfl
  split
  · rfl
  · simp only [World.set_session]
    split
    next hs => rw [hs]
    next => rfl

/-- The control thread handles an event. -/
theorem World.Orderly.iterate {w : World} (h : w.Orderly) {e : Event} {stops : Bool}
    (hguard : stops = true → ∀ s ∈ w.getSession e, (w.session s).state ≠ .stopped) : (w.iterate e stops).Orderly := by
  unfold World.iterate
  split
  · exact h
  next s hs =>
    have hbind := h.bind e
    dsimp only
    split
    · exact hbind
    · split
      next hstops => exact hbind.stop (by rw [World.bind_state]; exact hguard hstops s hs)
      next => exact hbind
    · split
      next hrunning => exact hbind.stop (by rw [hrunning]; simp)
      next => exact hbind

/-- The condition on a step: no thread stops a session whose `RUNNING` is not stored yet, and `clear` stops and joins
none whose `start` is not done. -/
def LifecycleGuard (w : World) : Op → Prop
  | .visit s => ∀ c ∈ w.clear, c.all = true ∨ (w.session s).state = .stopping → (w.session s).announce = .started
  | .threadStop s _ => (w.session s).state ≠ .stopped
  | .timeout s => (w.session s).state ≠ .stopped
  | .iterate e stops => stops = true → ∀ e' ∈ e, ∀ s ∈ w.getSession e', (w.session s).state ≠ .stopped
  | _ => True

instance (w : World) (op : Op) : Decidable (LifecycleGuard w op) := by
  cases op <;> unfold LifecycleGuard <;> infer_instance

open World.Orderly in
theorem World.Orderly.step_announce {w w' : World} {op : Op} (hop : op.actor = .announce) (h : w.Orderly)
    (hstep : Lifecycle.step w op = some w') : w'.Orderly := by
  cases op with
  | alloc s sessionIdV1 connectData =>
    obtain ⟨hann, rfl⟩ := of_ite_some hstep
    exact h.advance ⟨rfl, rfl, rfl, rfl, rfl⟩ (fun t => w.set_session s t _) (.new _ _)
      (by simp [hann, Announce.published]) (by simp [hann]) ((h.session s).idle (by simp [hann])).symm
      (Or.inr (by simp [hann, Announce.ran])) rfl
  | insert s =>
    obtain ⟨⟨hann, hclear⟩, rfl⟩ := of_ite_some hstep
    exact h.insert hann (Option.isNone_iff_eq_none.mp hclear)
  | ref s =>
    obtain ⟨⟨hann, -⟩, rfl⟩ := of_ite_some hstep
    refine h.advance (s := s) ⟨rfl, rfl, rfl, rfl, rfl⟩ (fun t => w.set_session s t _) ?_
      (by simp [Announce.published]) (by simp [hann]) rfl (Or.inl rfl) rfl
    exact (h.session s).advance (by simp [hann]) (by simp [hann, Announce.ran]) (by simp [hann, Announce.hasThread])
      rfl rfl rfl rfl
  | refFails s =>
    obtain ⟨⟨hann, -⟩, rfl⟩ := of_ite_some hstep
    refine h.advance (s := s) ⟨rfl, rfl, rfl, rfl, rfl⟩ (fun t => w.set_session s t _) ?_
      (by simp [Announce.published]) (by simp [hann]) rfl (Or.inl rfl) rfl
    exact (h.session s).advance (by simp [hann]) (by simp [hann, Announce.ran]) (by simp [hann, Announce.hasThread])
      rfl rfl rfl rfl
  | push s address =>
    obtain ⟨⟨hann, -⟩, rfl⟩ := of_ite_some hstep
    refine h.advance (s := s) ⟨rfl, rfl, rfl, rfl, rfl⟩ (fun t => w.set_session s t _) ?_
      (by simp [Announce.published]) (by simp [hann]) rfl (Or.inl rfl) rfl
    exact (h.session s).advance (by simp [hann]) (by simp [hann, Announce.ran]) (by simp [hann, Announce.hasThread])
      rfl rfl rfl rfl
  | startAudio s =>
    obtain ⟨hann, rfl⟩ := of_ite_some hstep
    refine h.advance ⟨rfl, rfl, rfl, rfl, rfl⟩ (fun t => w.start_session s t .audio _) ?_
      (by simp [Announce.published]) (by simp [hann]) rfl (Or.inl rfl) rfl
    exact (h.session s).start (by simp [hann, Announce.hasThread]) (by simp [hann, Announce.ran]) (by simp [hann])
  | startVideo s =>
    obtain ⟨hann, rfl⟩ := of_ite_some hstep
    refine h.advance ⟨rfl, rfl, rfl, rfl, rfl⟩ (fun t => w.start_session s t .video _) ?_
      (by simp [Announce.published]) (by simp [hann]) rfl (Or.inl rfl) rfl
    refine (h.session s).start ?_ (by simp [hann, Announce.ran]) (by simp [hann])
    intro m'
    cases m' <;> simp [hann, Announce.hasThread]
  | run s =>
    obtain ⟨hann, rfl⟩ := of_ite_some hstep
    exact h.advance ⟨rfl, rfl, rfl, rfl, rfl⟩ (fun t => w.set_session s t _) ((h.session s).run hann)
      (by simp [Announce.published]) (by simp [hann]) rfl (Or.inr (by simp [hann, Announce.ran])) rfl
  | count s =>
    obtain ⟨hann, rfl⟩ := of_ite_some hstep
    exact h.counted hann
  | remove s =>
    obtain ⟨⟨hann, hclear⟩, rfl⟩ := of_ite_some hstep
    exact h.remove hann (Option.isNone_iff_eq_none.mp hclear)
  | announced s =>
    obtain ⟨-, rfl⟩ := of_ite_some hstep
    refine World.Orderly.drop (w := w.set s { w.session s with held := false }) ?_ s
    exact h.sameSet (s := s) ⟨rfl, rfl, rfl, rfl, rfl⟩ (fun t => w.set_session s t _) ⟨rfl, rfl, rfl, rfl, rfl⟩ rfl
  | _ => cases hop

open World.Orderly in
theorem World.Orderly.step_clear {w w' : World} {op : Op} (hop : op.actor = .clear) (h : w.Orderly)
    (hguard : LifecycleGuard w op) (hstep : Lifecycle.step w op = some w') : w'.Orderly := by
  cases op with
  | clear all =>
    obtain ⟨hclear, rfl⟩ := of_ite_some hstep
    exact h.clear all (Option.isNone_iff_eq_none.mp hclear)
  | visit s =>
    obtain ⟨c, hc, hif⟩ := Option.bind_eq_some_iff.mp hstep
    obtain ⟨⟨hcurrent, hs⟩, rfl⟩ := of_ite_some hif
    exact h.visit hc hcurrent hs (hguard c hc)
  | clearStop s =>
    obtain ⟨⟨⟨hcurrent, hjoin⟩, -⟩, rfl⟩ := of_ite_some hstep
    have hstarted : (w.session s).announce = .started := (h.session s).join (by simp [hjoin])
    have hran : (w.session s).state ≠ .stopped := by
      intro hst
      have := (h.session s).state.mp hst
      simp [hstarted, Announce.ran] at this
    have hstop := h.stop hran
    have hself : (w.stop s).session s = { w.session s with state := (w.session s).state.stop } := by
      simp [World.stop]
    refine hstop.joins (s := s) ⟨rfl, rfl, rfl, rfl, rfl⟩ (fun t => (w.stop s).set_session s t _) ?_ rfl rfl hcurrent
      (by simp [hself, hjoin, Join.active]) rfl (by simp [hself, hjoin, Join.counted]) rfl
    exact (hstop.session s).joins (by simp [hself, hstarted]) (by simp [hself, hjoin, Join.past])
      (by simp [hself, hjoin, Join.entered])
  | joinEnter s =>
    obtain ⟨⟨hcurrent, hjoin⟩, rfl⟩ := of_ite_some hstep
    have hstarted : (w.session s).announce = .started := (h.session s).join (by simp [hjoin])
    refine h.joins (s := s) ⟨rfl, rfl, rfl, rfl, rfl⟩ (fun t => w.set_session s t _) ?_ rfl rfl hcurrent
      (by simp [hjoin, Join.active]) rfl (by simp [hjoin, Join.counted]) rfl
    exact (h.session s).joins hstarted (by simp [hjoin, Join.past]) (by simp [hjoin, Join.entered])
  | joinThread s m =>
    obtain ⟨⟨hcurrent, hjoin⟩, hthread⟩ := Option.ite_none_right_eq_some.mp hstep
    obtain ⟨hnone, hjoined⟩ := (h.session s).joinable hjoin
    unfold World.joinThread at hthread
    split at hthread
    next ht => exact absurd ht hnone
    next ht => exact absurd ht hjoined
    next =>
      obtain rfl := Option.some.inj hthread
      refine h.joins ⟨rfl, rfl, rfl, rfl, rfl⟩ (fun t => w.joins_session s t m m.joined)
        ((h.session s).joinThread hjoin) rfl rfl hcurrent ?_ ?_ ?_ rfl
      · cases m <;> simp [hjoin, Media.join, Join.active]
      · cases m <;> simp [Media.joined, Join.active]
      · cases m <;> simp [hjoin, Media.join, Media.joined, Join.counted]
    next => cases hthread
  | joinControl s =>
    obtain ⟨⟨⟨hcurrent, hjoin⟩, -⟩, rfl⟩ := of_ite_some hstep
    have hstarted : (w.session s).announce = .started := (h.session s).join (by simp [hjoin])
    refine h.joins (s := s) ⟨rfl, rfl, rfl, rfl, rfl⟩ (fun t => w.set_session s t _) ?_ rfl rfl hcurrent
      (by simp [hjoin, Join.active]) rfl (by simp [hjoin, Join.counted]) rfl
    exact (h.session s).joins hstarted (by simp [hjoin, Join.past]) (by simp [hjoin, Join.entered])
  | joinCount s =>
    obtain ⟨hs, rfl⟩ := of_ite_some hstep
    exact h.joinCounted hs
  | erase s =>
    obtain ⟨c, hc, hif⟩ := Option.bind_eq_some_iff.mp hstep
    obtain ⟨hs, rfl⟩ := of_ite_some hif
    exact (h.erase hc hs).drop s
  | cleared =>
    obtain ⟨c, hc, hif⟩ := Option.bind_eq_some_iff.mp hstep
    obtain ⟨⟨hcurrent, -⟩, rfl⟩ := of_ite_some hif
    exact h.withoutCurrent hc hcurrent nofun
  | release s =>
    obtain ⟨-, rfl⟩ := of_ite_some hstep
    exact h.sameSet (s := s) ⟨rfl, rfl, rfl, rfl, rfl⟩ (fun t => w.set_session s t _) ⟨rfl, rfl, rfl, rfl, rfl⟩ rfl
  | _ => cases hop

open World.Orderly in
theorem World.Orderly.step_media {w w' : World} {op : Op} (hop : op.actor = .media) (h : w.Orderly)
    (hguard : LifecycleGuard w op) (hstep : Lifecycle.step w op = some w') : w'.Orderly := by
  cases op with
  | threadRef s m =>
    obtain ⟨⟨ht, -⟩, rfl⟩ := of_ite_some hstep
    exact h.advance (s := s) ⟨rfl, rfl, rfl, rfl, rfl⟩ (fun t => w.set_session s t _)
      ((h.session s).setThread (by simp [ht]) (by simp [ht]) (by simp) (by simp)) id Iff.rfl rfl (Or.inl rfl) rfl
  | raise s m =>
    obtain ⟨-, rfl⟩ := of_ite_some hstep
    exact h.broadcast _
  | encoderFails s =>
    obtain ⟨-, rfl⟩ := of_ite_some hstep
    exact h.broadcast _
  | threadRelease s m =>
    obtain ⟨ht, rfl⟩ := of_ite_some hstep
    exact h.advance (s := s) ⟨rfl, rfl, rfl, rfl, rfl⟩ (fun t => w.set_session s t _)
      ((h.session s).setThread (by simp [ht]) (by simp [ht]) (by simp) (by simp)) id Iff.rfl rfl (Or.inl rfl) rfl
  | threadStop s m =>
    obtain ⟨⟨ht, -⟩, rfl⟩ := of_ite_some hstep
    have hstop := h.stop hguard
    have ht' : ((w.stop s).session s).thread m = .released := by simp [World.stop, ht]
    exact hstop.advance (s := s) ⟨rfl, rfl, rfl, rfl, rfl⟩ (fun t => (w.stop s).set_session s t _)
      ((hstop.session s).setThread (by simp [ht']) (by simp [ht']) (by simp) (by simp)) id Iff.rfl rfl (Or.inl rfl) rfl
  | _ => cases hop

open World.Orderly in
theorem World.Orderly.step_control {w w' : World} {op : Op} (hop : op.actor = .control) (h : w.Orderly)
    (hguard : LifecycleGuard w op) (hstep : Lifecycle.step w op = some w') : w'.Orderly := by
  cases op with
  | loop =>
    obtain ⟨-, rfl⟩ := of_ite_some hstep
    exact h.broadcast _
  | lock =>
    obtain ⟨-, rfl⟩ := of_ite_some hstep
    exact h.broadcast _
  | timeout s =>
    obtain ⟨-, rfl⟩ := of_ite_some hstep
    exact h.stop hguard
  | sweep s =>
    obtain ⟨-, rfl⟩ := of_ite_some hstep
    exact h.sweep s
  | swept =>
    obtain ⟨-, rfl⟩ := of_ite_some hstep
    exact h.broadcast _
  | decide appRunning =>
    obtain ⟨-, rfl⟩ := of_ite_some hstep
    exact h.broadcast _
  | iterate e stops =>
    obtain ⟨-, rfl⟩ := of_ite_some hstep
    cases e with
    | none => exact h.broadcast _
    | some e =>
      exact (h.iterate fun hstops s hs => hguard hstops e rfl s hs).broadcast _
  | close =>
    obtain ⟨-, rfl⟩ := of_ite_some hstep
    exact h.broadcast _
  | closeSession s =>
    obtain ⟨-, rfl⟩ := of_ite_some hstep
    exact h.sameSet (s := s) ⟨rfl, rfl, rfl, rfl, rfl⟩ (fun t => w.set_session s t _) ⟨rfl, rfl, rfl, rfl, rfl⟩ rfl
  | closed =>
    obtain ⟨-, rfl⟩ := of_ite_some hstep
    exact h.broadcast _
  | _ => cases hop

open World.Orderly in
theorem World.Orderly.step_broadcast {w w' : World} {op : Op} (hop : op.actor = .broadcast) (h : w.Orderly)
    (hstep : Lifecycle.step w op = some w') : w'.Orderly := by
  cases op with
  | shutDown =>
    obtain rfl := Option.some.inj hstep
    exact h.same ⟨rfl, rfl, rfl, rfl, rfl⟩ (fun s => Session.Same.refl _) rfl
  | noTimer =>
    obtain ⟨-, rfl⟩ := of_ite_some hstep
    exact h.broadcast _
  | pop m =>
    obtain ⟨-, hpop⟩ := Option.ite_none_right_eq_some.mp hstep
    obtain ⟨b, -, rfl⟩ := Option.map_eq_some_iff.mp hpop
    exact h.broadcast _
  | sent m fails =>
    obtain ⟨-, rfl⟩ := of_ite_some hstep
    exact h.broadcast _
  | endBroadcast =>
    obtain ⟨-, rfl⟩ := of_ite_some hstep
    exact h.broadcast _
  | _ => cases hop

/-- A step that meets the guard keeps the lifecycle orderly. -/
theorem World.Orderly.step {w w' : World} {op : Op} (h : w.Orderly) (hguard : LifecycleGuard w op)
    (hstep : step w op = some w') : w'.Orderly := by
  cases hop : op.actor with
  | announce => exact step_announce hop h hstep
  | clear => exact step_clear hop h hguard hstep
  | media => exact step_media hop h hguard hstep
  | control => exact step_control hop h hguard hstep
  | broadcast => exact step_broadcast hop h hstep

/-! ### Runs -/

theorem World.Orderly.boot : World.boot.Orderly where
  session := fun _ => ⟨by simp [World.boot, Announce.ran], by simp [World.boot],
    fun m => by simp [World.boot, Announce.hasThread], by simp [World.boot],
      fun m => by simp [World.boot, Join.past], rfl⟩
  nodup := List.nodup_nil
  listed := nofun
  current := by simp [World.boot, Join.active]
  todo := nofun
  slot := nofun
  started := ⟨List.nodup_nil, by simp [World.boot]⟩
  joined := ⟨List.nodup_nil, by simp [World.boot, Join.counted]⟩
  count := rfl
  stops := nofun

theorem World.Orderly.joined_le_started {w : World} (h : w.Orderly) : w.joined.length ≤ w.started.length := by
  refine (List.subperm_of_subset h.joined.1 fun s hs => ?_).length_le
  have hcounted := (h.joined.2 s).mp hs
  refine (h.started.2 s).mpr ((h.session s).join ?_)
  intro hidle
  simp [hidle, Join.counted] at hcounted

/-- **The lifecycle of sessions.**  In every run that meets the guard: `join` is entered at most once for a session and
only when its `start` is done, a session for which `stop` was called is stopping, and `running_sessions` is the number
of starts that are done less the number of joins that are done. -/
theorem session_lifecycle {ops : List Op} {w : World} (hrun : Run (Guarded WorldStep LifecycleGuard) World.boot ops w) :
    (∀ s, (w.session s).entries ≤ 1 ∧ (0 < (w.session s).entries → (w.session s).announce = .started)) ∧
      (∀ s ∈ w.stops, (w.session s).state = .stopping) ∧
      w.joined.length ≤ w.started.length ∧
      w.runningSessions = UInt32.ofNat (w.started.length - w.joined.length) := by
  have h : w.Orderly :=
    hrun.invariant_where (I := World.Orderly) (fun _ _ _ h hg hs => h.step hg hs) World.Orderly.boot
  refine ⟨?_, h.stops, h.joined_le_started, ?_⟩
  · intro s
    have hentries := (h.session s).entries
    constructor
    · rw [hentries]
      split <;> omega
    · intro hpos
      rw [hentries] at hpos
      split at hpos
      next hentered =>
        refine (h.session s).join ?_
        intro hidle
        simp [hidle, Join.entered] at hentered
      next => omega
  · rw [h.count, UInt32.ofNat_sub h.joined_le_started]

/-- A session is announced, streams, is stopped by its video thread, and `clear(false)` joins it. -/
def sessionRun : List Op :=
  [.alloc 0 true 7, .insert 0, .ref 0, .push 0 "10.0.0.2", .startAudio 0, .startVideo 0, .run 0, .count 0,
    .announced 0, .threadRef 0 .video, .threadRef 0 .audio, .loop, .lock, .sweep 0, .swept, .decide true,
    .iterate (some ⟨.connect, 3, 7, "10.0.0.2"⟩) false, .raise 0 .video, .pop .video, .sent .video false,
    .threadRelease 0 .video, .threadStop 0 .video, .threadRelease 0 .audio, .threadStop 0 .audio, .loop, .lock,
    .sweep 0, .swept, .decide true, .iterate none false, .clear false, .visit 0, .clearStop 0, .joinEnter 0,
    .joinThread 0 .video, .joinThread 0 .audio, .joinControl 0, .joinCount 0, .erase 0, .cleared, .release 0, .loop,
    .close, .closed, .pop .video, .pop .audio, .endBroadcast]

theorem session_lifecycle_joined : ∃ w,
    Run (Guarded WorldStep LifecycleGuard) World.boot sessionRun w ∧ w.joined = [0] ∧
      (∀ s, (w.session s).entries ≤ 1 ∧ (0 < (w.session s).entries → (w.session s).announce = .started)) ∧
      (∀ s ∈ w.stops, (w.session s).state = .stopping) ∧
      w.joined.length ≤ w.started.length ∧
      w.runningSessions = UInt32.ofNat (w.started.length - w.joined.length) := by
  obtain ⟨w, hrun, hjoined⟩ := exists_run_execWhere_and (f := step) (G := LifecycleGuard) (s := World.boot)
    (l := sessionRun) (P := fun w => w.joined = [0]) (by decide +kernel)
  exact ⟨w, hrun, hjoined, session_lifecycle hrun⟩

/-- `clear(true)` comes between `insert` and `start`. -/
def clearedEarly : List Op :=
  [.alloc 0 true 7, .insert 0, .clear true, .visit 0, .clearStop 0, .joinEnter 0]

/-- It enters `join` for a session that is not started, and its `stop` has no effect. -/
theorem join_before_start : ¬ ∀ (ops : List Op) (w : World), Run WorldStep World.boot ops w →
    (∀ s, (w.session s).entries ≤ 1 ∧ (0 < (w.session s).entries → (w.session s).announce = .started)) ∧
      (∀ s ∈ w.stops, (w.session s).state = .stopping) ∧
      w.joined.length ≤ w.started.length ∧
      w.runningSessions = UInt32.ofNat (w.started.length - w.joined.length) := by
  intro h
  obtain ⟨w, hrun, hentries, hann⟩ := exists_run_execWhere_and (f := step) (G := fun _ _ => True) (s := World.boot)
    (l := clearedEarly) (P := fun w => 0 < (w.session 0).entries ∧ (w.session 0).announce = .inserted)
    (by decide +kernel)
  have := ((h _ w (Run.of_guarded hrun)).1 0).2 hentries
  rw [hann] at this
  cases this

end MidnightSun.Lifecycle
