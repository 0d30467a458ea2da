import MidnightSun.Lib.Keyed
import MidnightSun.Lifecycle.ControlThread

/-!
# Peers and sessions of the control server (src/stream.cpp)

`_peer_to_session` and the `control.peer` of the listed sessions are inverse to each other, and a peer is bound only to
a session that its connect data or its address matches.  This holds in every run.
-/

namespace MidnightSun.Lifecycle

open Lib

/-- The bound session waited for such a peer. -/
def World.Matches (w : World) (b : Binding) : Prop :=
  if (w.session b.session).sessionIdV1 then (w.session b.session).connectData = b.data
  else (w.session b.session).expectedPeerAddress = b.address

structure World.Paired (w : World) : Prop where
  nodup : w.broadcast.sessions.Nodup
  listed : ∀ s ∈ w.broadcast.sessions, (w.session s).announce.reached = true
  fresh : ∀ s, (w.session s).announce.reached = false → (w.session s).peer = none
  keys : (w.broadcast.peerToSession.map Prod.fst).Nodup
  mapped : ∀ p s, (p, s) ∈ w.broadcast.peerToSession ↔ s ∈ w.broadcast.sessions ∧ (w.session s).peer = some p
  todo : w.broadcast.control = .sweep →
    w.broadcast.todo.Nodup ∧ ∀ s ∈ w.broadcast.todo, s ∈ w.broadcast.sessions
  bound : ∀ b ∈ w.bound, (w.session b.session).announce.reached = true ∧ w.Matches b

namespace World.Paired

variable {w w' : World}

/-- Nothing that matters here changes. -/
theorem same (h : w.Paired) (hsessions : w'.broadcast.sessions = w.broadcast.sessions)
    (htodo : w'.broadcast.control = .sweep →
      w.broadcast.control = .sweep ∧ w'.broadcast.todo = w.broadcast.todo)
    (hpeers : w'.broadcast.peerToSession = w.broadcast.peerToSession) (hbound : w'.bound = w.bound)
    (hsession : ∀ s, (w'.session s).announce.reached = (w.session s).announce.reached ∧
      (w'.session s).peer = (w.session s).peer ∧ (w'.session s).sessionIdV1 = (w.session s).sessionIdV1 ∧
      (w'.session s).connectData = (w.session s).connectData ∧
      (w'.session s).expectedPeerAddress = (w.session s).expectedPeerAddress) : w'.Paired := by
  refine ⟨hsessions ▸ h.nodup, ?_, ?_, hpeers ▸ h.keys, ?_, ?_, ?_⟩
  · intro s hs
    rw [(hsession s).1]
    exact h.listed s (hsessions ▸ hs)
  · intro s hs
    rw [(hsession s).1] at hs
    rw [(hsession s).2.1]
    exact h.fresh s hs
  · intro p s
    rw [hpeers, hsessions, (hsession s).2.1]
    exact h.mapped p s
  · intro hc
    obtain ⟨hc', ht⟩ := htodo hc
    rw [ht, hsessions]
    exact h.todo hc'
  · intro b hb
    obtain ⟨hreached, hmatch⟩ := h.bound b (hbound ▸ hb)
    obtain ⟨hr, -, hid, hdata, haddress⟩ := hsession b.session
    refine ⟨hr.trans hreached, ?_⟩
    unfold World.Matches
    rw [hid, hdata, haddress]
    exact hmatch

theorem quiet (h : w.Paired) (hq : w.Quiet w') : w'.Paired := by
  refine h.same hq.sessions (fun hc => ⟨hq.control ▸ hc, hq.todo⟩) hq.peerToSession hq.bound fun s => ?_
  have hs := hq.session s
  exact ⟨hs.reached, hs.peer, hs.sessionIdV1, hs.connectData, hs.expectedPeerAddress⟩

/-- A session changes that is not known to the control server yet. -/
theorem set (h : w.Paired) {s : ℕ} {x : Session} (hs : (w.session s).announce.reached = false)
    (hx : x.announce.reached = false → x.peer = none) : (w.set s x).Paired := by
  have hother : ∀ t, (w.session t).announce.reached = true → t ≠ s := by
    rintro t ht rfl
    rw [hs] at ht
    cases ht
  refine ⟨h.nodup, ?_, ?_, h.keys, ?_, h.todo, ?_⟩
  · intro t ht
    rw [World.set_session, if_neg (hother t (h.listed t ht))]
    exact h.listed t ht
  · intro t ht
    rw [World.set_session] at ht ⊢
    split at ht
    next hts =>
      rw [if_pos hts]
      exact hx ht
    next hts =>
      rw [if_neg hts]
      exact h.fresh t ht
  · intro p t
    rw [show (w.set s x).broadcast = w.broadcast from rfl, h.mapped p t]
    constructor
    · rintro ⟨hmem, hpeer⟩
      rw [World.set_session, if_neg (hother t (h.listed t hmem))]
      exact ⟨hmem, hpeer⟩
    · rintro ⟨hmem, hpeer⟩
      rw [World.set_session, if_neg (hother t (h.listed t hmem))] at hpeer
      exact ⟨hmem, hpeer⟩
  · intro b hb
    obtain ⟨hreached, hmatch⟩ := h.bound b hb
    have hne := hother _ hreached
    unfold World.Matches
    rw [World.set_session, if_neg hne]
    exact ⟨hreached, hmatch⟩

theorem push (h : w.Paired) {s : ℕ} {address : String} (hann : (w.session s).announce = .referenced)
    (hsweep : w.broadcast.control ≠ .sweep) :
    World.Paired { w.set s { w.session s with announce := .pushed, expectedPeerAddress := address } with
      broadcast := { w.broadcast with sessions := w.broadcast.sessions ++ [s] } } := by
  have hfresh : (w.session s).announce.reached = false := by simp [hann, Announce.reached]
  have hset := h.set hfresh (x := { w.session s with announce := .pushed, expectedPeerAddress := address })
    (fun hr => by cases hr)
  have hnew : s ∉ w.broadcast.sessions := by
    intro hmem
    have := h.listed s hmem
    rw [hfresh] at this
    cases this
  have hself : ((w.set s { w.session s with announce := .pushed, expectedPeerAddress := address }).session s).peer =
      none := by
    rw [World.set_session, if_pos rfl]
    exact h.fresh s hfresh
  refine ⟨?_, ?_, hset.fresh, hset.keys, ?_, fun hc => absurd hc hsweep, hset.bound⟩
  · exact List.nodup_append.mpr ⟨h.nodup, List.nodup_singleton s, by
      rintro a ha b hb rfl
      exact hnew (List.mem_singleton.mp hb ▸ ha)⟩
  · intro t ht
    rcases List.mem_append.mp ht with ht | ht
    · exact hset.listed t ht
    · rw [List.mem_singleton.mp ht]
      simp [Announce.reached]
  · intro p t
    constructor
    · intro hmem
      obtain ⟨hlisted, hpeer⟩ := (hset.mapped p t).mp hmem
      exact ⟨List.mem_append_left _ hlisted, hpeer⟩
    · rintro ⟨hlisted, hpeer⟩
      rcases List.mem_append.mp hlisted with hlisted | hlisted
      · exact (hset.mapped p t).mpr ⟨hlisted, hpeer⟩
      · rw [List.mem_singleton.mp hlisted, hself] at hpeer
        cases hpeer

/-- `get_session`. -/
theorem bind (h : w.Paired) (e : Event) : (w.bind e).Paired := by
  unfold World.bind
  split
  · exact h
  next hnone =>
  split
  · exact h
  next s hs =>
    have hmem := List.mem_of_find?_eq_some hs
    have hmatch := List.find?_some hs
    have hreached := h.listed s hmem
    unfold Session.matches at hmatch
    rw [Bool.and_eq_true, Option.isNone_iff_eq_none] at hmatch
    obtain ⟨hwaits, hmatch⟩ := hmatch
    have hkey : e.peer ∉ w.broadcast.peerToSession.map Prod.fst := by
      intro hkey
      obtain ⟨⟨p, t⟩, hpt, rfl⟩ := List.mem_map.mp hkey
      rw [(lookup_eq_some_of_keys h.keys).mpr hpt] at hnone
      cases hnone
    have hann : ∀ t, ((w.set s { w.session s with peer := some e.peer }).session t).announce =
        (w.session t).announce := by
      intro t
      rw [World.set_session]
      split
      next hts => rw [hts]
      next => rfl
    refine ⟨h.nodup, ?_, ?_, List.nodup_cons.mpr ⟨hkey, h.keys⟩, ?_, h.todo, ?_⟩
    · intro t ht
      rw [hann]
      exact h.listed t ht
    · intro t ht
      rw [hann] at ht
      have hts : t ≠ s := by
        rintro rfl
        rw [hreached] at ht
        cases ht
      simp only [World.set_session, if_neg hts]
      exact h.fresh t ht
    · intro p t
      simp only [List.mem_cons, Prod.mk.injEq, World.set_session]
      by_cases hts : t = s
      · subst hts
        simp only [and_true, if_true, Option.some.injEq]
        constructor
        · rintro (hp | hold)
          · exact ⟨hmem, hp.symm⟩
          · have := ((h.mapped p t).mp hold).2
            rw [hwaits] at this
            cases this
        · rintro ⟨-, hp⟩
          exact Or.inl hp.symm
      · simp only [hts, and_false, false_or, if_false]
        exact h.mapped p t
    · intro b hb
      have hkeep : ∀ t, ((w.set s { w.session s with peer := some e.peer }).session t).sessionIdV1 =
          (w.session t).sessionIdV1 ∧
          ((w.set s { w.session s with peer := some e.peer }).session t).connectData = (w.session t).connectData ∧
          ((w.set s { w.session s with peer := some e.peer }).session t).expectedPeerAddress =
            (w.session t).expectedPeerAddress := by
        intro t
        rw [World.set_session]
        split
        next hts => rw [hts]; exact ⟨rfl, rfl, rfl⟩
        next => exact ⟨rfl, rfl, rfl⟩
      have hmatches : ∀ b : Binding, (if (w.session b.session).sessionIdV1 then
          (w.session b.session).connectData = b.data else (w.session b.session).expectedPeerAddress = b.address) →
          (if ((w.set s { w.session s with peer := some e.peer }).session b.session).sessionIdV1 then
            ((w.set s { w.session s with peer := some e.peer }).session b.session).connectData = b.data
            else ((w.set s { w.session s with peer := some e.peer }).session b.session).expectedPeerAddress =
              b.address) := by
        intro b hb
        rw [(hkeep b.session).1, (hkeep b.session).2.1, (hkeep b.session).2.2]
        exact hb
      rcases List.mem_cons.mp hb with rfl | hb
      · refine ⟨by rw [hann]; exact hreached, hmatches _ ?_⟩
        show if (w.session s).sessionIdV1 then (w.session s).connectData = e.data
          else (w.session s).expectedPeerAddress = e.address
        split at hmatch
        next hid =>
          rw [if_pos hid]
          exact eq_of_beq hmatch
        next hid =>
          rw [if_neg hid]
          exact eq_of_beq hmatch
      · obtain ⟨hr, hm⟩ := h.bound b hb
        exact ⟨by rw [hann]; exact hr, hmatches b hm⟩

/-- The control thread takes a session out that is `STOPPING`, and its peer out of the map. -/
theorem sweep (h : w.Paired) {s : ℕ} (hc : w.broadcast.control = .sweep) (hhead : w.broadcast.todo.head? = some s) :
    (w.sweep s).Paired := by
  obtain ⟨rest, hrest⟩ := List.head?_eq_some_iff.mp hhead
  obtain ⟨hnodup, htodo⟩ := h.todo hc
  rw [hrest] at hnodup htodo
  obtain ⟨hnot, hnodup⟩ := List.nodup_cons.mp hnodup
  have hs : s ∈ w.broadcast.sessions := htodo s List.mem_cons_self
  have htail : ∀ t ∈ w.broadcast.todo.tail, t ≠ s ∧ t ∈ w.broadcast.sessions := by
    intro t ht
    rw [hrest, List.tail_cons] at ht
    refine ⟨?_, htodo t (List.mem_cons_of_mem _ ht)⟩
    rintro rfl
    exact hnot ht
  have hnodup' : w.broadcast.todo.tail.Nodup := by rw [hrest]; exact hnodup
  unfold World.sweep
  dsimp only
  split
  next =>
    have hsame : ∀ t, ((w.set s { w.session s with controlEnd := true }).session t).announce =
        (w.session t).announce ∧
        ((w.set s { w.session s with controlEnd := true }).session t).peer = (w.session t).peer ∧
        ((w.set s { w.session s with controlEnd := true }).session t).sessionIdV1 = (w.session t).sessionIdV1 ∧
        ((w.set s { w.session s with controlEnd := true }).session t).connectData = (w.session t).connectData ∧
        ((w.set s { w.session s with controlEnd := true }).session t).expectedPeerAddress =
          (w.session t).expectedPeerAddress := by
      intro t
      rw [World.set_session]
      split
      next hts => rw [hts]; exact ⟨rfl, rfl, rfl, rfl, rfl⟩
      next => exact ⟨rfl, rfl, rfl, rfl, rfl⟩
    have hset : (w.set s { w.session s with controlEnd := true }).Paired :=
      h.same rfl (fun hc => ⟨hc, rfl⟩) rfl rfl fun t => ⟨by rw [(hsame t).1], (hsame t).2⟩
    refine ⟨h.nodup.erase s, fun t ht => hset.listed t (List.mem_of_mem_erase ht), hset.fresh, ?_, ?_, ?_, hset.bound⟩
    · cases (w.session s).peer with
      | none => exact h.keys
      | some peer => exact (List.filter_sublist.map _).nodup h.keys
    · intro p t
      have hpeer' : ∀ b : Broadcast, (World.session
          { w.set s { w.session s with controlEnd := true } with broadcast := b } t).peer = (w.session t).peer :=
        fun _ => (hsame t).2.1
      rw [hpeer']
      dsimp only
      rw [h.nodup.mem_erase_iff]
      split
      next peer hpeer =>
        simp only [List.mem_filter, decide_eq_true_eq]
        rw [h.mapped p t]
        constructor
        · rintro ⟨⟨hmem, hp⟩, hne⟩
          refine ⟨⟨?_, hmem⟩, hp⟩
          rintro rfl
          rw [hpeer] at hp
          exact hne (Option.some.inj hp).symm
        · rintro ⟨⟨hts, hmem⟩, hp⟩
          refine ⟨⟨hmem, hp⟩, ?_⟩
          rintro rfl
          -- two listed sessions with one peer would be two values of one key
          have h₁ := (lookup_eq_some_of_keys h.keys).mpr ((h.mapped p t).mpr ⟨hmem, hp⟩)
          have h₂ := (lookup_eq_some_of_keys h.keys).mpr ((h.mapped p s).mpr ⟨hs, hpeer⟩)
          rw [h₁] at h₂
          exact hts (Option.some.inj h₂)
      next hpeer =>
        rw [h.mapped p t]
        constructor
        · rintro ⟨hmem, hp⟩
          refine ⟨⟨?_, hmem⟩, hp⟩
          rintro rfl
          rw [hpeer] at hp
          cases hp
        · rintro ⟨⟨-, hmem⟩, hp⟩
          exact ⟨hmem, hp⟩
    · intro _
      exact ⟨hnodup', fun t ht => h.nodup.mem_erase_iff.mpr (htail t ht)⟩
  next =>
    exact ⟨h.nodup, h.listed, h.fresh, h.keys, h.mapped, fun _ => ⟨hnodup', fun t ht => (htail t ht).2⟩, h.bound⟩

/-- Without an entry nothing is left to pair. -/
theorem empty (h : w.Paired) (hsessions : w'.broadcast.sessions = []) (hpeers : w'.broadcast.peerToSession = [])
    (hcontrol : w'.broadcast.control ≠ .sweep) (hbound : w'.bound = w.bound)
    (hsession : ∀ s, (w.session s).Quiet (w'.session s)) : w'.Paired := by
  refine ⟨by rw [hsessions]; exact List.nodup_nil, by rw [hsessions]; simp, ?_, by rw [hpeers]; exact List.nodup_nil,
    by rw [hsessions, hpeers]; simp, fun hc => absurd hc hcontrol, ?_⟩
  · intro s hs
    rw [(hsession s).reached] at hs
    rw [(hsession s).peer]
    exact h.fresh s hs
  · intro b hb
    obtain ⟨hreached, hmatch⟩ := h.bound b (hbound ▸ hb)
    have hs := hsession b.session
    refine ⟨hs.reached.trans hreached, ?_⟩
    unfold World.Matches
    rw [hs.sessionIdV1, hs.connectData, hs.expectedPeerAddress]
    exact hmatch

theorem goes (h : w.Paired) {next : Control} (hg : next ≠ .sweep) : (w.control next).Paired :=
  h.same rfl (fun hc => absurd hc hg) rfl rfl fun _ => ⟨rfl, rfl, rfl, rfl, rfl⟩

/-- Every step keeps peers and sessions paired. -/
theorem step {op : Op} (h : w.Paired) (hstep : Lifecycle.step w op = some w') : w'.Paired := by
  cases control_step hstep with
  | quiet hq => exact h.quiet hq
  | alloc hann => exact h.set (by simp [hann, Announce.reached]) fun _ => rfl
  | construct _ _ hcontrol hsessions hpeers hbound hsession =>
    exact h.empty hsessions hpeers (by rw [hcontrol]; simp) hbound hsession
  | push hann hsweep _ => exact h.push hann hsweep
  | goes hg => exact h.goes hg.ne.2.2
  | lock => exact ⟨h.nodup, h.listed, h.fresh, h.keys, h.mapped, fun _ => ⟨h.nodup, fun _ => id⟩, h.bound⟩
  | sweep hc hhead => exact h.sweep hc hhead
  | event _ hq => exact World.Paired.quiet ((h.bind _).goes (by simp)) hq
  | close => exact ⟨h.nodup, h.listed, h.fresh, h.keys, h.mapped, fun hc => (by cases hc), h.bound⟩
  | @closeSession s hc _ =>
    refine h.same rfl (fun hc' => absurd (hc.symm.trans hc') (by simp)) rfl rfl fun t => ?_
    simp only [World.set_session]
    split
    next hts => rw [hts]; exact ⟨rfl, rfl, rfl, rfl, rfl⟩
    next => exact ⟨rfl, rfl, rfl, rfl, rfl⟩
  | endBroadcast => exact h.empty rfl rfl (by simp) rfl fun _ => Session.Quiet.refl _

theorem boot : World.boot.Paired :=
  ⟨List.nodup_nil, nofun, fun _ _ => rfl, List.nodup_nil, by simp [World.boot], nofun, nofun⟩

end World.Paired

/-- **Peers and sessions are in bijection.**  In every run: a peer is mapped to a session exactly when the session is
listed with this peer, no session is listed twice, and a session was bound to a peer whose connect data (for clients
with a session id) or address it waited for. -/
theorem peers_paired {ops : List Op} {w : World} (hrun : Run WorldStep World.boot ops w) :
    (∀ p s, w.broadcast.peerToSession.lookup p = some s ↔
      s ∈ w.broadcast.sessions ∧ (w.session s).peer = some p) ∧
      w.broadcast.sessions.Nodup ∧ ∀ b ∈ w.bound, w.Matches b := by
  have h : w.Paired :=
    hrun.invariant (I := World.Paired) (fun _ _ _ h hstep => h.step hstep) World.Paired.boot
  refine ⟨fun p s => ?_, h.nodup, fun b hb => (h.bound b hb).2⟩
  rw [lookup_eq_some_of_keys h.keys, h.mapped]

theorem peers_paired_appEnds : ∃ w, Run WorldStep World.boot appEnds w ∧
    w.broadcast.peerToSession.lookup 3 = some 0 ∧
    (∀ p s, w.broadcast.peerToSession.lookup p = some s ↔
      s ∈ w.broadcast.sessions ∧ (w.session s).peer = some p) ∧
      w.broadcast.sessions.Nodup ∧ ∀ b ∈ w.bound, w.Matches b := by
  obtain ⟨w, hrun, hlookup⟩ := exists_run_execWhere_and (f := step) (G := fun _ _ => True) (s := World.boot)
    (l := appEnds) (P := fun w => w.broadcast.peerToSession.lookup 3 = some 0) (by decide +kernel)
  exact ⟨w, Run.of_guarded hrun, hlookup, peers_paired (Run.of_guarded hrun)⟩

end MidnightSun.Lifecycle
