import MidnightSun.Input.GamepadEffect

/-!
# The gamepad slot invariant

`Accounted` holds of every run.  `Tidy` is what keeps a delayed HOME press with the gamepad it was started for; it
holds of the runs that never free a gamepad with such a press behind it (`SlotGuard`).
-/

namespace MidnightSun.Input

open Lib Platf

/-- The leases agree with the mask and with what the platform saw. -/
def World.Accounted (w : World) : Prop := Leases.Accounted (leaseEvents w.log) w.leases

/-- A gamepad that is not allocated, or has had no update yet, has no HOME press behind it; and the platform calls were
in order so far. -/
structure World.Tidy (w : World) : Prop where
  idle : ∀ i e c, w.inputs i = some e →
    ((e.context.gamepads c).id < 0 ∨ awaitsUpdate w.log (e.context.gamepads c).id = true) →
    BackIdle i (w.host, e.context) c
  noContext : ∀ i c, w.inputs i = none → ¬ w.host.waiting (.backButton i c)
  used : Always UsesAllocated w.log
  first : Always FirstUpdateOwn w.log

/-! ### Effects -/

/-- The state in the middle of a handler for the context `i`. -/
def World.put (w : World) (i : ℕ) (e : Entry) (s : Host × Context) (log : List (Cause × Call)) : World :=
  { w with host := s.1, inputs := Function.update w.inputs i (some { e with context := s.2 }), log := log }

section
variable {w : World} {i : ℕ} {e : Entry} {s : Host × Context} {log : List (Cause × Call)}

@[simp] theorem put_inputs_self : (w.put i e s log).inputs i = some { e with context := s.2 } :=
  Function.update_self ..

theorem put_inputs_of_ne {j : ℕ} (h : j ≠ i) : (w.put i e s log).inputs j = w.inputs j := Function.update_of_ne h ..

@[simp] theorem gamepadId_put_self (c : Slot) : (w.put i e s log).gamepadId (i, c) = (s.2.gamepads c).id := by
  simp [World.gamepadId]

theorem gamepadId_put_of_ne {o : ℕ × Slot} (h : o.1 ≠ i) : (w.put i e s log).gamepadId o = w.gamepadId o := by
  simp only [World.gamepadId, put_inputs_of_ne h]

theorem put_eq_self (h : w.inputs i = some e) : w.put i e (w.host, e.context) w.log = w := by
  have : Function.update w.inputs i (some e) = w.inputs := by rw [← h, Function.update_eq_self]
  simp only [World.put, this]

/-- The leases when one gamepad of the context changes. -/
theorem leases_put_update (log : List (Cause × Call)) {host : Host} {c : Slot} {g : Gamepad}
    {log' : List (Cause × Call)} :
    (w.put i e (host, { s.2 with gamepads := Function.update s.2.gamepads c g }) log').leases =
      { held := Function.update (w.put i e s log).leases.held (i, c) (lease g.id)
        returning := (w.put i e s log).leases.returning
        taken := maskSet host.gamepadMask } := by
  simp only [World.leases, Leases.mk.injEq]
  refine ⟨?_, rfl, rfl⟩
  funext o
  obtain ⟨j, d⟩ := o
  by_cases hj : j = i
  · subst hj
    by_cases hd : d = c
    · subst hd
      simp
    · rw [Function.update_of_ne (by simp [hd]), gamepadId_put_self, gamepadId_put_self]
      simp [hd]
  · rw [Function.update_of_ne (by simp [hj]), gamepadId_put_of_ne hj, gamepadId_put_of_ne hj]

theorem held_put_self {c : Slot} (h : 0 ≤ (s.2.gamepads c).id) :
    (w.put i e s log).leases.held (i, c) = some (s.2.gamepads c).id := by
  simp only [World.leases, gamepadId_put_self]
  exact lease_eq_some.mpr ⟨rfl, h⟩

theorem allocated_of_held (hA : (w.put i e s log).Accounted) {c : Slot} (h : 0 ≤ (s.2.gamepads c).id) :
    allocated log (s.2.gamepads c).id = true := hA.leased_of_held (held_put_self h)

variable {env : Env} {p : Packet} {s₀ s' : Host × Context} {calls : List Call} {cause : Cause}

theorem accounted_put {t : Leases (ℕ × Slot) ℤ} {new : List (Cause × Call)} {evs : List (LeaseEvent ℤ)}
    (hleases : (w.put i e s (log ++ new)).leases = t) (hnew : leaseEvents new = evs)
    (h : Leases.Accounted (leaseEvents log ++ evs) t) : (w.put i e s (log ++ new)).Accounted := by
  have hlog : leaseEvents (w.put i e s (log ++ new)).log = leaseEvents log ++ evs := by
    rw [← hnew, ← leaseEvents_append]
    rfl
  unfold World.Accounted
  rw [hleases, hlog]
  exact h

theorem leases_put_congr {t : Host × Context} {log' : List (Cause × Call)} (hm : t.1.gamepadMask = s.1.gamepadMask)
    (hid : ∀ c, (t.2.gamepads c).id = (s.2.gamepads c).id) :
    (w.put i e t log').leases = (w.put i e s log).leases := by
  refine leases_congr ?_ rfl hm
  rintro ⟨j, c⟩
  by_cases hj : j = i
  · subst hj
    rw [gamepadId_put_self, gamepadId_put_self, hid]
  · rw [gamepadId_put_of_ne hj, gamepadId_put_of_ne hj]

theorem updateGamepad_gamepadMask (r : Response) (c : Slot) (m : MultiController) :
    (updateGamepad env i r s.1 s.2 c m).1.gamepadMask = s.1.gamepadMask := by
  simp only [updateGamepad, backTimer]
  repeat' split
  all_goals rfl

theorem updateGamepad_id (r : Response) (c d : Slot) (m : MultiController) :
    ((updateGamepad env i r s.1 s.2 c m).2.1.gamepads d).id = (s.2.gamepads d).id := by
  simp only [updateGamepad, Function.update_apply]
  split
  next h => rw [h]
  next => rfl

/-- Effects keep the leases accounted for. -/
theorem Effect.accounted (heff : Effect env i p s₀ s calls s') (hA : (w.put i e s log).Accounted) :
    (w.put i e s' (log ++ calls.map (cause, ·))).Accounted := by
  have hsame : Leases.Accounted (leaseEvents log ++ []) (w.put i e s log).leases := by
    rw [List.append_nil]
    exact hA
  cases heff with
  | quiet hm hg ht hcalls =>
    exact accounted_put (leases_put_congr hm fun c => by rw [hg]) (leaseEvents_unrelated (by simpa using hcalls)) hsame
  | @use _ c call hid hnr hev hup =>
    exact accounted_put (leases_put_congr rfl fun _ => rfl) (by simp [leaseEvents, hev]) hsame
  | grant c x metadata hid hfree =>
    have hnone : (w.put i e s log).leases.held (i, c) = none := by
      simp only [World.leases, gamepadId_put_self]
      exact lease_eq_none hid
    have hnew : (x : ℤ) ∉ (w.put i e s log).leases.taken := by
      intro hx
      have hx' : s.1.gamepadMask x = true := slot_mem_maskSet.mp hx
      rw [hfree] at hx'
      cases hx'
    have hgrant := hA.step (Leases.Step.grant (i, c) (x : ℤ) hnone hnew)
    refine accounted_put (leases_put_update log (s := s)) rfl ?_
    rw [maskSet_update, lease_eq_some.mpr ⟨rfl, Int.natCast_nonneg _⟩]
    exact hgrant
  | update c r m hp hc hactive hid =>
    exact accounted_put (leases_put_congr (updateGamepad_gamepadMask r c m) fun d => updateGamepad_id r c d m) rfl hsame
  | remove c m hp hc hactive hremoved hid =>
    have hrelease := hA.step (Leases.Step.release (i, c) _ (held_put_self hid))
    refine accounted_put (leases_put_update log (s := s)) rfl ?_
    rw [maskSet_freeId, lease_eq_none (show (-1 : ℤ) < 0 by omega)]
    exact hrelease

/-- What `Tidy` needs after an effect. -/
theorem tidy_put {t : Host × Context} (hT : (w.put i e s log).Tidy) {log' : List (Cause × Call)}
    (hctx : ∀ c, (t.2.gamepads c).id < 0 ∨ awaitsUpdate log' (t.2.gamepads c).id = true → BackIdle i t c)
    (hfresh : ∀ j d e', j ≠ i → w.inputs j = some e' → 0 ≤ (e'.context.gamepads d).id →
      awaitsUpdate log' (e'.context.gamepads d).id = true → awaitsUpdate log (e'.context.gamepads d).id = true)
    (hwait : ∀ j d, j ≠ i → t.1.waiting (.backButton j d) → s.1.waiting (.backButton j d))
    (hused : Always UsesAllocated log') (hfirst : Always FirstUpdateOwn log') : (w.put i e t log').Tidy where
  idle := by
    intro j e' d hj hd
    by_cases hji : j = i
    · subst hji
      rw [put_inputs_self] at hj
      obtain rfl := Option.some.inj hj
      exact hctx d hd
    · rw [put_inputs_of_ne hji] at hj
      have hd' : (e'.context.gamepads d).id < 0 ∨ awaitsUpdate log (e'.context.gamepads d).id = true := by
        rcases hd with hd | hd
        · exact Or.inl hd
        · rcases lt_or_ge (e'.context.gamepads d).id 0 with hneg | hpos
          · exact Or.inl hneg
          · exact Or.inr (hfresh j d e' hji hj hpos hd)
      have hidle := hT.idle j e' d ((put_inputs_of_ne hji).trans hj) hd'
      exact ⟨hidle.1, fun hw => hidle.2 (hwait j d hji hw)⟩
  noContext := by
    intro j d hj hw
    by_cases hji : j = i
    · subst hji
      rw [put_inputs_self] at hj
      cases hj
    · rw [put_inputs_of_ne hji] at hj
      exact hT.noContext j d ((put_inputs_of_ne hji).trans hj) (hwait j d hji hw)
  used := hused
  first := hfirst

theorem tidy_idle_self (hT : (w.put i e s log).Tidy) {c : Slot}
    (h : (s.2.gamepads c).id < 0 ∨ awaitsUpdate log (s.2.gamepads c).id = true) : BackIdle i s c :=
  hT.idle i { e with context := s.2 } c put_inputs_self h

theorem always_unrelated (hT : (w.put i e s log).Tidy) {new : List (Cause × Call)} (h : ∀ x ∈ new, unrelated x.2) :
    Always UsesAllocated (log ++ new) ∧ Always FirstUpdateOwn (log ++ new) := by
  have hmem : ∀ {before x after}, new = before ++ x :: after → unrelated x.2 := by
    intro before x after hx
    exact h x (by simp [hx])
  refine ⟨always_append hT.used ?_, always_append hT.first ?_⟩
  · intro before x after hx id hid
    rw [(hmem hx).2] at hid
    cases hid
  · intro before x after hx id state hstate
    have hnr := (hmem hx).2
    rw [hstate] at hnr
    cases hnr

theorem updateGamepad_calls {r : Response} {c : Slot} {m : MultiController}
    (hidle : (s.2.gamepads c).backButtonState = .none) :
    (updateGamepad env i r s.1 s.2 c m).2.2 = [.gamepadUpdate (s.2.gamepads c).id m.state] := by
  simp [updateGamepad, hidle, forceBack]

/-- `updateGamepad` starts a HOME press for no other gamepad. -/
theorem updateGamepad_waiting {r : Response} {c d : Slot} {m : MultiController} {j : ℕ} (hne : j ≠ i ∨ d ≠ c)
    (hw : (updateGamepad env i r s.1 s.2 c m).1.waiting (.backButton j d)) : s.1.waiting (.backButton j d) := by
  simp only [updateGamepad, backTimer] at hw
  split at hw
  · split at hw
    · split at hw
      · rcases (s.1.waiting_pushDelayed _ _ _).mp hw with hw | hw
        · exact hw
        · cases hw
          rcases hne with hne | hne
          · exact absurd rfl hne
          · exact absurd rfl hne
      · exact hw
    · split at hw
      · exact s.1.waiting_of_cancel _ hw
      · exact hw
  · exact hw

theorem updateGamepad_gamepads_of_ne {r : Response} {c d : Slot} {m : MultiController} (hne : d ≠ c) :
    (updateGamepad env i r s.1 s.2 c m).2.1.gamepads d = s.2.gamepads d := Function.update_of_ne hne ..

/-- The two calls of `free_gamepad`. -/
theorem always_free {id : ℤ} (hused : Always UsesAllocated log) (hfirst : Always FirstUpdateOwn log)
    (halloc : allocated log id = true) (hown : OwnState cause {}) :
    let log' := log ++ [Call.gamepadUpdate id {}, Call.freeGamepad id].map (cause, ·)
    Always UsesAllocated log' ∧ Always FirstUpdateOwn log' ∧
      ∀ n, awaitsUpdate log' n = true → awaitsUpdate log n = true ∧ id ≠ n := by
  intro log'
  have hlog : log' = (log ++ [(cause, Call.gamepadUpdate id {})]) ++ [(cause, Call.freeGamepad id)] := by
    simp [log']
  rw [hlog]
  refine ⟨always_snoc.mpr ⟨always_snoc.mpr ⟨hused, ?_⟩, ?_⟩, always_snoc.mpr ⟨always_snoc.mpr ⟨hfirst, ?_⟩, ?_⟩, ?_⟩
  · intro n hn
    obtain rfl : id = n := Option.some.inj hn
    exact halloc
  · intro n hn
    obtain rfl : id = n := Option.some.inj hn
    have hev : leaseEvents (log ++ [(cause, Call.gamepadUpdate id {})]) = leaseEvents log := by
      rw [leaseEvents_append]
      exact List.append_nil _
    rw [allocated, hev]
    exact halloc
  · intro n state hstate _
    obtain ⟨-, rfl⟩ : id = n ∧ {} = state := by simpa using hstate
    exact hown
  · intro n state hstate
    cases hstate
  · intro n hn
    rw [awaitsUpdate_snoc, awaitsUpdate_snoc] at hn
    simp only at hn
    split at hn
    · cases hn
    · exact ⟨hn, ‹_›⟩

/-- An allocated gamepad has had no update, and its slot no HOME press. -/
theorem tidy_grant {c x : Slot} (metadata : GamepadArrival) (hA : (w.put i e s log).Accounted)
    (hT : (w.put i e s log).Tidy) (hid : (s.2.gamepads c).id < 0) (hfree : s.1.gamepadMask x = false) :
    (w.put i e
      ({ s.1 with gamepadMask := Function.update s.1.gamepadMask x true },
        { s.2 with gamepads := Function.update s.2.gamepads c ({ s.2.gamepads c with id := x }) })
      (log ++ [(cause, Call.allocGamepad ⟨x, UInt8.ofNat c⟩ metadata false)])).Tidy := by
  have hsnoc : ∀ n, awaitsUpdate
      (log ++ [(cause, Call.allocGamepad ⟨x, UInt8.ofNat c⟩ metadata false)]) n =
        if (x : ℤ) = n then true else awaitsUpdate log n := awaitsUpdate_snoc _ _
  -- the new id is nobody else's
  have hother : ∀ o n, (w.put i e s log).leases.held o = some n → (x : ℤ) ≠ n := by
    intro o n ho hn
    have htaken := (hA.exact.taken_iff n).mpr (Or.inl ⟨o, ho⟩)
    rw [← hn] at htaken
    have : s.1.gamepadMask x = true := slot_mem_maskSet.mp htaken
    rw [hfree] at this
    cases this
  refine tidy_put hT ?_ ?_ (fun _ _ _ h => h) ?_ ?_
  · intro d hd
    by_cases hdc : d = c
    · subst hdc
      have hidle := tidy_idle_self hT (Or.inl hid)
      exact ⟨by simpa using hidle.1, hidle.2⟩
    · simp only [Function.update_of_ne hdc, hsnoc] at hd
      have hd' : (s.2.gamepads d).id < 0 ∨ awaitsUpdate log (s.2.gamepads d).id = true := by
        rcases hd with hd | hd
        · exact Or.inl hd
        · rcases lt_or_ge (s.2.gamepads d).id 0 with hneg | hpos
          · exact Or.inl hneg
          · rw [if_neg (hother (i, d) _ (held_put_self hpos))] at hd
            exact Or.inr hd
      have hidle := tidy_idle_self hT hd'
      exact ⟨by simpa [Function.update_of_ne hdc] using hidle.1, hidle.2⟩
  · intro j d e' hj he' hpos hd
    rw [hsnoc, if_neg] at hd
    · exact hd
    · refine hother (j, d) _ ?_
      simp only [World.leases, World.gamepadId, put_inputs_of_ne hj, he']
      exact lease_eq_some.mpr ⟨rfl, hpos⟩
  · refine always_snoc.mpr ⟨hT.used, ?_⟩
    intro n hn
    cases hn
  · refine always_snoc.mpr ⟨hT.first, ?_⟩
    intro n state hstate
    cases hstate

/-- The first update of a gamepad finds its BACK button idle and carries the state of the packet. -/
theorem tidy_update {c : Slot} {m : MultiController} (r : Response) (hA : (w.put i e s log).Accounted)
    (hT : (w.put i e s log).Tidy) (hp : p = .multiController m) (hc : slot? m.controllerNumber.toInt = some c)
    (hactive : m.active c = true) (hid : 0 ≤ (s.2.gamepads c).id) :
    (w.put i e ((updateGamepad env i r s.1 s.2 c m).1, (updateGamepad env i r s.1 s.2 c m).2.1)
      (log ++ (updateGamepad env i r s.1 s.2 c m).2.2.map (Cause.packet i p, ·))).Tidy := by
  have hcall : ∃ st, (updateGamepad env i r s.1 s.2 c m).2.2 = [.gamepadUpdate (s.2.gamepads c).id st] := ⟨_, rfl⟩
  obtain ⟨st, hst⟩ := hcall
  have hsnoc : ∀ n, awaitsUpdate (log ++ [(Cause.packet i p, Call.gamepadUpdate (s.2.gamepads c).id st)]) n =
      if (s.2.gamepads c).id = n then false else awaitsUpdate log n := awaitsUpdate_snoc _ _
  rw [hst]
  refine tidy_put hT ?_ ?_ (fun j d hj => updateGamepad_waiting (Or.inl hj)) ?_ ?_
  · intro d hd
    rw [updateGamepad_id, List.map_singleton, hsnoc] at hd
    by_cases hdc : d = c
    · subst hdc
      rw [if_pos rfl] at hd
      rcases hd with hd | hd
      · omega
      · cases hd
    · have hd' : (s.2.gamepads d).id < 0 ∨ awaitsUpdate log (s.2.gamepads d).id = true := by
        rcases hd with hd | hd
        · exact Or.inl hd
        · split at hd
          · cases hd
          · exact Or.inr hd
      have hidle := tidy_idle_self hT hd'
      exact ⟨by rw [updateGamepad_gamepads_of_ne hdc]; exact hidle.1,
        fun hw => hidle.2 (updateGamepad_waiting (Or.inr hdc) hw)⟩
  · intro j d e' _ _ _ hd
    rw [List.map_singleton, hsnoc] at hd
    split at hd
    · cases hd
    · exact hd
  · refine always_snoc.mpr ⟨hT.used, ?_⟩
    intro n hn
    obtain rfl : (s.2.gamepads c).id = n := Option.some.inj hn
    exact allocated_of_held hA hid
  · refine always_snoc.mpr ⟨hT.first, ?_⟩
    intro n state hstate hawaits
    -- the first update of the gamepad: its BACK button is idle, so the state is the packet's
    obtain ⟨rfl, rfl⟩ : (s.2.gamepads c).id = n ∧ st = state := by simpa using hstate
    have hidle := tidy_idle_self hT (Or.inr hawaits)
    rw [updateGamepad_calls hidle.1] at hst
    obtain rfl : m.state = st := by simpa using hst
    exact Or.inl ⟨i, m, c, by rw [hp], hc, by rw [if_pos hactive]⟩

/-- Effects keep `Tidy`, if the freed gamepads have no HOME press behind them. -/
theorem Effect.tidy (heff : Effect env i p s₀ s calls s') (hA : (w.put i e s log).Accounted)
    (hT : (w.put i e s log).Tidy) (hok : ∀ c, removed? env s₀.2 p = some c → BackIdle i s₀ c) :
    (w.put i e s' (log ++ calls.map (Cause.packet i p, ·))).Tidy := by
  cases heff with
  | quiet hm hg ht hcalls =>
    have hnew : ∀ x ∈ calls.map (Cause.packet i p, ·), unrelated x.2 := by simpa using hcalls
    obtain ⟨hused, hfirst⟩ := always_unrelated hT hnew
    refine tidy_put hT ?_ ?_ (fun j d _ => ht j d) hused hfirst
    · intro c hc
      rw [hg, awaitsUpdate_append_unrelated hnew] at hc
      have hidle := tidy_idle_self hT hc
      exact ⟨by rw [hg]; exact hidle.1, fun hw => hidle.2 (ht i c hw)⟩
    · intro j d e' _ _ _ hd
      rwa [awaitsUpdate_append_unrelated hnew] at hd
  | @use _ c call hid hnr hev hup =>
    have hsnoc : ∀ n, awaitsUpdate (log ++ [(Cause.packet i p, call)]) n = awaitsUpdate log n :=
      awaitsUpdate_snoc_of_unrelated hev hup
    refine tidy_put hT ?_ ?_ (fun _ _ _ h => h) ?_ ?_
    · intro d hd
      rw [List.map_singleton, hsnoc] at hd
      exact tidy_idle_self hT hd
    · intro j d e' _ _ _ hd
      rwa [List.map_singleton, hsnoc] at hd
    · refine always_snoc.mpr ⟨hT.used, ?_⟩
      intro n hn
      obtain rfl : (s.2.gamepads c).id = n := Option.some.inj (hnr.symm.trans hn)
      exact allocated_of_held hA hid
    · refine always_snoc.mpr ⟨hT.first, ?_⟩
      intro n state hstate
      exact absurd hstate (hup n state)
  | grant c x metadata hid hfree => exact tidy_grant metadata hA hT hid hfree
  | update c r m hp hc hactive hid => exact tidy_update r hA hT hp hc hactive hid
  | remove c m hp hc hactive hremoved hid =>
    have hidle₀ := hok c hremoved
    have hown : OwnState (Cause.packet i p) {} := Or.inl ⟨i, m, c, by rw [hp], hc, by simp [hactive]⟩
    obtain ⟨hused, hfirst, hawaits⟩ := always_free hT.used hT.first (allocated_of_held hA hid) hown
    refine tidy_put hT ?_ ?_ (fun _ _ _ h => h) hused hfirst
    · intro d hd
      by_cases hdc : d = c
      · subst hdc
        exact ⟨by simpa using hidle₀.1, hidle₀.2⟩
      · simp only [Function.update_of_ne hdc] at hd
        have hidle := tidy_idle_self hT (hd.imp_right fun h => (hawaits _ h).1)
        exact ⟨by simpa [Function.update_of_ne hdc] using hidle.1, hidle.2⟩
    · intro j d e' _ _ _ hd
      exact (hawaits _ hd).1

end

/-! ### Steps -/

theorem gamepadId_congr {w w' : World}
    (hin : ∀ j, (w'.inputs j).map (fun e => e.context.gamepads) = (w.inputs j).map fun e => e.context.gamepads)
    (o : ℕ × Slot) : w'.gamepadId o = w.gamepadId o := by
  have h := hin o.1
  unfold World.gamepadId
  cases hw : w.inputs o.1 with
  | none =>
    rw [hw, Option.map_none, Option.map_eq_none_iff] at h
    rw [h]
  | some e =>
    rw [hw, Option.map_some, Option.map_eq_some_iff] at h
    obtain ⟨e', he', hg⟩ := h
    rw [he']
    simp only [hg]

theorem accounted_congr {w w' : World} (hleases : w'.leases = w.leases)
    (hlog : leaseEvents w'.log = leaseEvents w.log) (hA : w.Accounted) : w'.Accounted := by
  unfold World.Accounted
  rw [hleases, hlog]
  exact hA

/-- A step that keeps the gamepads of every context and makes no gamepad call. -/
structure QuietStep (w w' : World) : Prop where
  gamepads : ∀ j, (w'.inputs j).map (fun e => e.context.gamepads) = (w.inputs j).map fun e => e.context.gamepads
  tasks : w'.tasks.filterMap Task.freed? = w.tasks.filterMap Task.freed?
  host : w.host.QuietTo w'.host
  log : ∃ new, w'.log = w.log ++ new ∧ ∀ x ∈ new, unrelated x.2

theorem QuietStep.accounted {w w' : World} (h : QuietStep w w') (hA : w.Accounted) : w'.Accounted := by
  obtain ⟨new, hlog, hnew⟩ := h.log
  refine accounted_congr (leases_congr (gamepadId_congr h.gamepads) h.tasks h.host.1) ?_ hA
  rw [hlog, leaseEvents_append, leaseEvents_unrelated hnew, List.append_nil]

theorem QuietStep.tidy {w w' : World} (h : QuietStep w w') (hT : w.Tidy) : w'.Tidy := by
  obtain ⟨new, hlog, hnew⟩ := h.log
  have hmem : ∀ {before x after}, new = before ++ x :: after → unrelated x.2 := by
    intro before x after hx
    exact hnew x (by simp [hx])
  constructor
  · intro i e c hi hc
    have hg := h.gamepads i
    rw [hi, Option.map_some, eq_comm, Option.map_eq_some_iff] at hg
    obtain ⟨e', he', hg⟩ := hg
    rw [hlog, awaitsUpdate_append_unrelated hnew] at hc
    have hidle := hT.idle i e' c he' (by rwa [hg])
    exact ⟨by rw [← hg]; exact hidle.1, fun hw => hidle.2 (h.host.2 i c hw)⟩
  · intro i c hi hw
    have hg := h.gamepads i
    rw [hi, Option.map_none, eq_comm, Option.map_eq_none_iff] at hg
    exact hT.noContext i c hg (h.host.2 i c hw)
  · rw [hlog]
    refine always_append hT.used fun before x after hx id hid => ?_
    rw [(hmem hx).2] at hid
    cases hid
  · rw [hlog]
    refine always_append hT.first fun before x after hx id state hstate => ?_
    have hnr := (hmem hx).2
    rw [hstate] at hnr
    cases hnr

variable {env : Env}

theorem map_gamepads_update {w : World} {i : ℕ} {e e' : Entry} (hi : w.inputs i = some e)
    (hg : e'.context.gamepads = e.context.gamepads) (j : ℕ) :
    (Function.update w.inputs i (some e') j).map (fun e => e.context.gamepads) =
      (w.inputs j).map fun e => e.context.gamepads := by
  by_cases hj : j = i
  · subst hj
    rw [Function.update_self, hi, Option.map_some, Option.map_some, hg]
  · rw [Function.update_of_ne hj]

theorem QuietStep.handled {w : World} {i : ℕ} {e : Entry} {cause : Cause} {out : Host × Context × List Call}
    (hi : w.inputs i = some e) (h : Quiet w.host e.context out) : QuietStep w (w.handled i e cause out) where
  gamepads := map_gamepads_update hi h.2.1
  tasks := rfl
  host := h.1
  log := ⟨_, rfl, by simpa using h.2.2⟩

theorem QuietStep.ran {w : World} (cause : Cause) {out : Host × List Call} (hh : w.host.QuietTo out.1)
    (hcalls : ∀ x ∈ out.2, unrelated x) : QuietStep w (w.ran cause out) where
  gamepads := fun _ => rfl
  tasks := rfl
  host := hh
  log := ⟨_, rfl, by simpa using hcalls⟩

theorem QuietStep.of_host {w w' : World}
    (hin : ∀ j, (w'.inputs j).map (fun e => e.context.gamepads) = (w.inputs j).map fun e => e.context.gamepads)
    (htasks : w'.tasks.filterMap Task.freed? = w.tasks.filterMap Task.freed?) (hh : w.host.QuietTo w'.host)
    (hlog : w'.log = w.log) : QuietStep w w' :=
  ⟨hin, htasks, hh, [], by rw [hlog, List.append_nil], by simp⟩

/-- Both invariants after the handler of a packet. -/
theorem handled_packet (env : Env) {w : World} {i : ℕ} {e : Entry} (e' : Entry) {p : Packet} {r : Response}
    (hi : w.inputs i = some e) (hA : w.Accounted) :
    let w' := w.handled i e' (.packet i p) (passthrough env i r w.host e.context p)
    w'.Accounted ∧
      (w.Tidy → (∀ c, removed? env e.context p = some c → BackIdle i (w.host, e.context) c) → w'.Tidy) := by
  intro w'
  obtain ⟨callss, hrun, hflat⟩ := passthrough_effects i r w.host e.context p
  -- the queue of the context does not matter
  have hq : QuietStep w (w.put i e' (w.host, e.context) w.log) :=
    .of_host (map_gamepads_update hi rfl) rfl (Host.QuietTo.refl _) rfl
  have hw' : w' = w.put i e' ((passthrough env i r w.host e.context p).1, (passthrough env i r w.host e.context p).2.1)
      (w.log ++ callss.flatten.map (Cause.packet i p, ·)) := by
    rw [hflat]
    rfl
  rw [hw']
  have hinv := hrun.invariant_labels
    (I := fun callss s => (w.put i e' s (w.log ++ callss.flatten.map (Cause.packet i p, ·))).Accounted ∧
      (w.Tidy → (∀ c, removed? env e.context p = some c → BackIdle i (w.host, e.context) c) →
        (w.put i e' s (w.log ++ callss.flatten.map (Cause.packet i p, ·))).Tidy))
    (by simpa using ⟨hq.accounted hA, fun hT _ => hq.tidy hT⟩)
    (by
      intro callss s calls s' _ hs hstep
      simp only [List.flatten_append, List.flatten_singleton, List.map_append, ← List.append_assoc]
      exact ⟨hstep.accounted hs.1, fun hT hok => hstep.tidy hs.1 (hs.2 hT hok) hok⟩)
  exact hinv

/-- The task of a destroyed gamepad. -/
theorem freed_gamepad {w : World} {id : ℤ} {ts : List Task} (hts : w.tasks = .freeGamepad id :: ts)
    (hA : w.Accounted) :
    let w' := World.ran { w with tasks := ts } (.task (.freeGamepad id)) (freeGamepad w.host id)
    w'.Accounted ∧ (w.Tidy → w'.Tidy) := by
  intro w'
  have hret : w.leases.returning = id :: ts.filterMap Task.freed? := by
    simp only [World.leases, hts]
    rfl
  have hleases : w'.leases =
      { held := w.leases.held, returning := ts.filterMap Task.freed?, taken := w.leases.taken \ {id} } := by
    simp only [w', World.leases, World.ran, freeGamepad, maskSet_freeId, World.gamepadId]
  constructor
  · have hstep := hA.step (Leases.Step.giveBack id _ hret)
    have hlog : leaseEvents w'.log = leaseEvents w.log ++ [.giveBack id] := by
      simp only [w', World.ran, freeGamepad, leaseEvents_append]
      rfl
    unfold World.Accounted
    rw [hleases, hlog]
    exact hstep
  · intro hT
    have halloc : allocated w.log id = true := hA.leased_of_returning (by rw [hret]; exact List.mem_cons_self)
    obtain ⟨hused, hfirst, hawaits⟩ := always_free hT.used hT.first halloc
      (Or.inr ⟨id, rfl, rfl⟩)
    refine ⟨?_, hT.noContext, hused, hfirst⟩
    intro i e c hi hc
    exact hT.idle i e c hi (hc.imp_right fun h => (hawaits _ h).1)

/-- The delayed HOME press: with `Tidy` its gamepad is allocated and has had its first update. -/
theorem fired_backButton {w : World} {i : ℕ} {c : Slot} {e : Entry} {id : TaskId}
    (hid : (id, Timer.backButton i c) ∈ w.host.timers) (hi : w.inputs i = some e) (hA : w.Accounted) :
    let w' := World.handled { w with host := w.host.cancel id } i e (.timer (.backButton i c))
      (w.host.cancel id, backButton e.context c)
    w'.Accounted ∧ (w.Tidy → w'.Tidy) := by
  intro w'
  have hquiet := w.host.quietTo_cancel id
  have hself : w = w.put i e (w.host, e.context) w.log := (put_eq_self hi).symm
  have hids : ∀ d, ((backButton e.context c).1.gamepads d).id = (e.context.gamepads d).id := by
    intro d
    simp only [backButton, Function.update_apply]
    split
    next h => rw [h]
    next => rfl
  have hleases : w'.leases = w.leases := by
    have hput : (w.put i e (w.host.cancel id, (backButton e.context c).1) w'.log).leases =
        (w.put i e (w.host, e.context) w.log).leases := leases_put_congr rfl hids
    rw [put_eq_self hi] at hput
    exact hput
  have hlog : w'.log = w.log ++ (backButton e.context c).2.map (Cause.timer (.backButton i c), ·) := rfl
  constructor
  · refine accounted_congr hleases ?_ hA
    rw [hlog, leaseEvents_append]
    exact List.append_nil _
  · intro hT
    -- the press is waiting, so the gamepad is not idle
    have hbusy : ¬ ((e.context.gamepads c).id < 0 ∨ awaitsUpdate w.log (e.context.gamepads c).id = true) := by
      intro h
      exact (hT.idle i e c hi h).2 ⟨id, hid⟩
    obtain ⟨hpos, hold⟩ : 0 ≤ (e.context.gamepads c).id ∧ awaitsUpdate w.log (e.context.gamepads c).id = false := by
      rw [not_or, Bool.not_eq_true] at hbusy
      exact ⟨by omega, hbusy.2⟩
    have halloc : allocated w.log (e.context.gamepads c).id = true := by
      rw [hself] at hA
      exact allocated_of_held (s := (w.host, e.context)) hA hpos
    have hupdates : ∀ states : List GamepadState,
        let log' := w.log ++ (states.map (Call.gamepadUpdate (e.context.gamepads c).id)).map
          (Cause.timer (.backButton i c), ·)
        Always UsesAllocated log' ∧ Always FirstUpdateOwn log' ∧ allocated log' (e.context.gamepads c).id = true ∧
          ∀ n, awaitsUpdate log' n = true → awaitsUpdate w.log n = true := by
      intro states
      induction states using List.reverseRecOn with
      | nil => simpa using ⟨hT.used, hT.first, halloc⟩
      | append_singleton states state ih =>
        obtain ⟨hused, hfirst, hal, hawaits⟩ := ih
        simp only [List.map_append, List.map_singleton, ← List.append_assoc]
        refine ⟨always_snoc.mpr ⟨hused, ?_⟩, always_snoc.mpr ⟨hfirst, ?_⟩, ?_, ?_⟩
        · intro n hn
          obtain rfl : (e.context.gamepads c).id = n := Option.some.inj hn
          exact hal
        · intro n st hst hn
          obtain ⟨rfl, -⟩ : (e.context.gamepads c).id = n ∧ state = st := by simpa using hst
          have := hawaits _ hn
          rw [hold] at this
          cases this
        · unfold allocated at hal ⊢
          rw [leaseEvents_append, show leaseEvents [(Cause.timer (.backButton i c),
            Call.gamepadUpdate (e.context.gamepads c).id state)] = [] from rfl, List.append_nil]
          exact hal
        · intro n hn
          rw [awaitsUpdate_snoc] at hn
          simp only at hn
          split at hn
          · cases hn
          · exact hawaits n hn
    obtain ⟨hused, hfirst, -, hawaits⟩ := hupdates [_, _, _]
    rw [hself] at hT
    refine tidy_put (t := (w.host.cancel id, (backButton e.context c).1)) hT ?_ ?_ ?_ hused hfirst
    · intro d hd
      rw [hids] at hd
      have hdc : d ≠ c := by
        rintro rfl
        exact hbusy (hd.imp_right (hawaits _))
      have hidle := tidy_idle_self hT (hd.imp_right (hawaits _))
      refine ⟨?_, fun hw => hidle.2 (hquiet.2 i d hw)⟩
      rw [← hidle.1]
      simp only [backButton, Function.update_of_ne hdc]
    · intro j d e' _ _ _ hd
      exact hawaits _ hd
    · intro j d _ hw
      exact hquiet.2 j d hw

/-- The gamepads of a destroyed context retire together. -/
theorem leases_destroyed {w : World} {i : ℕ} {e : Entry} (hi : w.inputs i = some e) :
    (destroyed w i e).leases = w.leases.retireAll ((List.finRange maxGamepads).map fun c => (i, c)) := by
  have hid : ∀ c, w.gamepadId (i, c) = (e.context.gamepads c).id := by
    intro c
    simp only [World.gamepadId, hi]
  unfold World.leases Leases.retireAll
  rw [Leases.mk.injEq]
  refine ⟨?_, ?_, rfl⟩
  · funext o
    obtain ⟨j, c⟩ := o
    simp only [List.mem_map, List.mem_finRange, Prod.mk.injEq, true_and, World.gamepadId, destroyed]
    by_cases hj : j = i
    · subst hj
      rw [Function.update_self, if_pos ⟨c, rfl, rfl⟩]
      exact lease_eq_none (show (-1 : ℤ) < 0 by omega)
    · rw [Function.update_of_ne hj, if_neg]
      rintro ⟨-, h, -⟩
      exact hj h.symm
  · simp only [destroyed, List.filterMap_append, List.filterMap_filterMap, List.filterMap_map]
    congr 1
    refine List.filterMap_congr fun c _ => ?_
    simp only [Function.comp_apply, hid, lease]
    split
    · rfl
    · rfl

theorem destroyed_gamepads {w : World} {i : ℕ} {e : Entry} (hi : w.inputs i = some e) (href : ¬ w.referenced i)
    (hA : w.Accounted) : (destroyed w i e).Accounted ∧ (w.Tidy → (destroyed w i e).Tidy) := by
  constructor
  · unfold World.Accounted
    rw [leases_destroyed hi]
    refine hA.retireAll ?_
    refine List.Nodup.map ?_ (List.nodup_finRange _)
    intro c d h
    exact (Prod.mk.inj h).2
  · intro hT
    refine ⟨?_, ?_, hT.used, hT.first⟩
    · intro j e' c hj hc
      by_cases hji : j = i
      · subst hji
        simp only [destroyed, Function.update_self] at hj
        cases hj
      · simp only [destroyed, Function.update_of_ne hji] at hj
        exact hT.idle j e' c hj hc
    · intro j c hj hw
      by_cases hji : j = i
      · subst hji
        obtain ⟨id, hid⟩ := hw
        exact href (Or.inr ⟨_, hid, Or.inr ⟨c, rfl⟩⟩)
      · simp only [destroyed, Function.update_of_ne hji] at hj
        exact hT.noContext j c hj hw

/-- A new context has no gamepads. -/
theorem alloc_gamepads {w : World} {i : ℕ} {r : Response} (hi : w.inputs i = none) (hA : w.Accounted) :
    let w' := { w with inputs := Function.update w.inputs i (some {}), host := w.host.pushDelayed r.newId .nudge }
    World.Accounted w' ∧ (w.Tidy → World.Tidy w') := by
  intro w'
  have hquiet : w.host.QuietTo w'.host := w.host.quietTo_pushDelayed r.newId (by
    intro j c h
    cases h)
  constructor
  · refine accounted_congr (w := w) (leases_congr ?_ rfl rfl) rfl hA
    rintro ⟨j, c⟩
    by_cases hj : j = i
    · subst hj
      simp [w', World.gamepadId, hi]
    · simp [w', World.gamepadId, hj]
  · intro hT
    refine ⟨?_, ?_, hT.used, hT.first⟩
    · intro j e c hj hc
      by_cases hji : j = i
      · subst hji
        simp only [w', Function.update_self] at hj
        obtain rfl := Option.some.inj hj
        exact ⟨rfl, fun hw => hT.noContext j c hi (hquiet.2 j c hw)⟩
      · simp only [w', Function.update_of_ne hji] at hj
        have hidle := hT.idle j e c hj hc
        exact ⟨hidle.1, fun hw => hidle.2 (hquiet.2 j c hw)⟩
    · intro j c hj hw
      by_cases hji : j = i
      · subst hji
        simp only [w', Function.update_self] at hj
        cases hj
      · simp only [w', Function.update_of_ne hji] at hj
        exact hT.noContext j c hj (hquiet.2 j c hw)

variable (env)

/-- The next packet does not free a gamepad that has a HOME press behind it. -/
def SlotGuard (w : World) : Op → Prop
  | .work _ => ∀ x ∈ w.next? env.lim, ∀ c ∈ removed? env x.2.1 x.2.2, BackIdle x.1 (w.host, x.2.1) c
  | _ => True

instance (w : World) (op : Op) : Decidable (SlotGuard env w op) := by
  cases op <;> unfold SlotGuard <;> infer_instance

variable {env}

/-- The task pool runs a task. -/
theorem step_gamepads_work {w w' : World} {r : Response} (hstep : step env w (.work r) = some w') (hA : w.Accounted) :
    w'.Accounted ∧ (SlotGuard env w (.work r) → w.Tidy → w'.Tidy) := by
  have quiet : ∀ {w''}, QuietStep w w'' → w''.Accounted ∧ (SlotGuard env w (.work r) → w.Tidy → w''.Tidy) :=
    fun h => ⟨h.accounted hA, fun _ => h.tidy⟩
  simp only [step] at hstep
  split at hstep
  · cases hstep
  next t ts hts =>
  split at hstep
  · obtain rfl := Option.some.inj hstep
    cases t with
    | nextMessage i =>
      -- taking the task from the pool changes nothing
      have htake : QuietStep w { w with tasks := ts } :=
        .of_host (fun _ => rfl) (by rw [hts]; rfl) (Host.QuietTo.refl _) rfl
      simp only [runTask, nextMessage]
      split
      · exact quiet htake
      next e hi =>
      split
      · exact quiet htake
      next d q hq =>
        have hhandled := handled_packet env (w := { w with tasks := ts })
          { e with inputQueue := (coalesce (merge env.lim) d q).2 }
          (p := (coalesce (merge env.lim) d q).1) (r := r) hi (htake.accounted hA)
        refine ⟨accounted_congr rfl rfl hhandled.1, fun hguard hT => ?_⟩
        have hT' := hhandled.2 (htake.tidy hT) fun c hc => hguard _ (next?_eq hts hi hq) c hc
        exact ⟨hT'.idle, hT'.noContext, hT'.used, hT'.first⟩
    | reset =>
      have htake : QuietStep w { w with tasks := ts } :=
        .of_host (fun _ => rfl) (by rw [hts]; rfl) (Host.QuietTo.refl _) rfl
      have hran := QuietStep.ran (w := { w with tasks := ts }) (.task .reset)
        (resetTask_quiet w.host).1 (resetTask_quiet w.host).2
      exact ⟨hran.accounted (htake.accounted hA), fun _ hT => hran.tidy (htake.tidy hT)⟩
    | freeGamepad id => exact ⟨(freed_gamepad hts hA).1, fun _ => (freed_gamepad hts hA).2⟩
  · cases hstep

/-- The task pool runs a delayed task. -/
theorem step_gamepads_fire {w w' : World} {id : TaskId} {r : Response} (hstep : step env w (.fire id r) = some w')
    (hA : w.Accounted) : w'.Accounted ∧ (SlotGuard env w (.fire id r) → w.Tidy → w'.Tidy) := by
  have quiet : ∀ {w''}, QuietStep w w'' → w''.Accounted ∧ (SlotGuard env w (.fire id r) → w.Tidy → w''.Tidy) :=
    fun h => ⟨h.accounted hA, fun _ => h.tidy⟩
  simp only [step] at hstep
  split at hstep
  next hts =>
    split at hstep
    · obtain ⟨⟨id', t⟩, hfind, rfl⟩ := Option.map_eq_some_iff.mp hstep
      obtain rfl : id' = id := by simpa using List.find?_some hfind
      have hmem : (id', t) ∈ w.host.timers := List.mem_of_find?_eq_some hfind
      have htake : QuietStep w { w with host := w.host.cancel id' } :=
        .of_host (fun _ => rfl) rfl (w.host.quietTo_cancel id') rfl
      have later : ∀ {w''}, QuietStep { w with host := w.host.cancel id' } w'' →
          w''.Accounted ∧ (SlotGuard env w (.fire id' r) → w.Tidy → w''.Tidy) :=
        fun h => ⟨h.accounted (htake.accounted hA), fun _ hT => h.tidy (htake.tidy hT)⟩
      cases t with
      | leftRelease i =>
        simp only [runTimer]
        split
        · exact quiet htake
        next e hi => exact later (.handled hi (leftRelease_quiet env _ _))
      | repeatKey keyCode flags synthetic =>
        exact later (.ran _ (repeatKey_quiet env _ r keyCode flags synthetic).1
          (repeatKey_quiet env _ r keyCode flags synthetic).2)
      | backButton i c =>
        simp only [runTimer]
        split
        · exact quiet htake
        next e hi => exact ⟨(fired_backButton hmem hi hA).1, fun _ => (fired_backButton hmem hi hA).2⟩
      | nudge => exact later (.ran _ (Host.QuietTo.refl _) (by simp [unrelated, leaseEvent, gamepadNr]))
      | other => exact quiet htake
    · cases hstep
  next => cases hstep

/-- What a step keeps. -/
theorem step_gamepads {w w' : World} {op : Op} (hstep : step env w op = some w') (hA : w.Accounted) :
    w'.Accounted ∧ (SlotGuard env w op → w.Tidy → w'.Tidy) := by
  have quiet : ∀ {w''}, QuietStep w w'' → w''.Accounted ∧ (SlotGuard env w op → w.Tidy → w''.Tidy) :=
    fun h => ⟨h.accounted hA, fun _ => h.tidy⟩
  cases op with
  | alloc i r =>
    simp only [step] at hstep
    split at hstep
    next h =>
      obtain rfl := Option.some.inj hstep
      exact ⟨(alloc_gamepads h.1 hA).1, fun _ => (alloc_gamepads h.1 hA).2⟩
    next => cases hstep
  | touchPort i port =>
    obtain ⟨e, hi, rfl⟩ := Option.map_eq_some_iff.mp hstep
    exact quiet (.of_host (map_gamepads_update hi rfl) rfl (Host.QuietTo.refl _) rfl)
  | passthrough i p =>
    obtain ⟨e, hi, rfl⟩ := Option.map_eq_some_iff.mp hstep
    exact quiet (.of_host (map_gamepads_update hi rfl) (by simp [Task.freed?]) (Host.QuietTo.refl _) rfl)
  | work r => exact step_gamepads_work hstep hA
  | fire id r => exact step_gamepads_fire hstep hA
  | cancelRepeat =>
    obtain rfl := Option.some.inj hstep
    exact quiet (.of_host (fun _ => rfl) rfl (w.host.quietTo_cancel _) rfl)
  | cancelLeft i =>
    obtain ⟨e, hi, rfl⟩ := Option.map_eq_some_iff.mp hstep
    exact quiet (.of_host (fun _ => rfl) rfl (w.host.quietTo_cancel _) rfl)
  | pushReset =>
    obtain rfl := Option.some.inj hstep
    exact quiet (.of_host (fun _ => rfl) (by simp [Task.freed?]) (Host.QuietTo.refl _) rfl)
  | destroy i =>
    simp only [step] at hstep
    split at hstep
    · cases hstep
    next e hi =>
      split at hstep
      · cases hstep
      next href =>
        obtain rfl := Option.some.inj hstep
        exact ⟨(destroyed_gamepads hi href hA).1, fun _ => (destroyed_gamepads hi href hA).2⟩
  | delayOther r =>
    simp only [step] at hstep
    split at hstep
    · obtain rfl := Option.some.inj hstep
      refine quiet (.of_host (fun _ => rfl) rfl (w.host.quietTo_pushDelayed r.newId ?_) rfl)
      intro j c h
      cases h
    · cases hstep

/-! ### Runs -/

theorem accounted_boot : World.boot.Accounted := by
  have hleases : World.boot.leases = Leases.empty := by
    simp only [World.leases, World.boot, Leases.empty, Leases.mk.injEq]
    refine ⟨rfl, rfl, ?_⟩
    ext n
    simp [maskSet]
  unfold World.Accounted
  rw [hleases]
  exact Leases.accounted_empty

theorem tidy_boot : World.boot.Tidy where
  idle := by
    intro i e c h
    cases h
  noContext := by
    rintro i c - ⟨id, hid⟩
    cases hid
  used := always_nil
  first := always_nil

theorem accounted_run {ops : List Op} {w : World} (hrun : Run (WorldStep env) World.boot ops w) : w.Accounted :=
  hrun.invariant (I := World.Accounted) (fun _ _ _ hA hstep => (step_gamepads hstep hA).1) accounted_boot

/-- **Gamepad slots.**  In every run that never frees a gamepad with a HOME press behind it: the ids of all live
gamepads and of the pending frees are pairwise distinct and are exactly those set in `gamepadMask`, every call uses an
allocated id, and the first update of a gamepad is the one its packet reports. -/
theorem gamepad_slots {ops : List Op} {w : World}
    (hrun : Run (Guarded (WorldStep env) (SlotGuard env)) World.boot ops w) :
    w.leases.Exact ∧ Always UsesAllocated w.log ∧ Always FirstUpdateOwn w.log := by
  have hinv : w.Accounted ∧ w.Tidy := by
    refine hrun.invariant_where (I := fun w => w.Accounted ∧ w.Tidy) ?_ ⟨accounted_boot, tidy_boot⟩
    intro w op w' h hguard hstep
    have hkeep := step_gamepads hstep h.1
    exact ⟨hkeep.1, hkeep.2 hguard h.2⟩
  exact ⟨hinv.1.exact, hinv.2.used, hinv.2.first⟩

/-- The configuration with the HOME button emulated after a long press of BACK. -/
def homeEnv : Env := { demoEnv with config := { demoEnv.config with backButtonTimeout := 500 } }

/-- A packet of the first controller, connected or not. -/
def demoController (connected : Bool) (buttons : UInt16) : Packet :=
  .multiController
    { controllerNumber := 0, activeGamepadMask := if connected then 1 else 0, buttonFlags := buttons,
      leftTrigger := 0, rightTrigger := 0, leftStickX := 0, leftStickY := 0, rightStickX := 0, rightStickY := 0,
      buttonFlags2 := 0 }

/-- A long press of BACK, then the gamepad is disconnected and its context destroyed. -/
def longPress : List Op :=
  [.alloc 0 ⟨2, false⟩, .passthrough 0 (demoController true 0x20), .work ⟨3, false⟩, .fire 3 ⟨4, false⟩,
    .passthrough 0 (demoController true 0), .work ⟨4, false⟩, .passthrough 0 (demoController true 0),
    .passthrough 0 (demoController false 0), .work ⟨4, false⟩, .work ⟨4, false⟩, .destroy 0]

theorem gamepad_slots_longPress : ∃ w,
    Run (Guarded (WorldStep homeEnv) (SlotGuard homeEnv)) World.boot longPress w ∧ w.log.length = 9 ∧
      w.leases.Exact ∧ Always UsesAllocated w.log ∧ Always FirstUpdateOwn w.log := by
  obtain ⟨w, hrun, hlog⟩ := exists_run_execWhere_and (f := step homeEnv) (G := SlotGuard homeEnv) (s := World.boot)
    (l := longPress) (P := fun w => w.log.length = 9) (by decide +kernel)
  exact ⟨w, hrun, hlog, gamepad_slots hrun⟩

/-- The gamepad is disconnected while its HOME press waits. -/
def removedEarly : List Op :=
  [.alloc 0 ⟨2, false⟩, .passthrough 0 (demoController true 0x20), .work ⟨3, false⟩,
    .passthrough 0 (demoController false 0), .work ⟨4, false⟩, .fire 3 ⟨4, false⟩]

/-- The HOME press of a removed gamepad goes to the id −1. -/
theorem removed_gamepad_updated : ¬ ∀ (env : Env) (ops : List Op) (w : World),
    Run (WorldStep env) World.boot ops w →
      w.leases.Exact ∧ Always UsesAllocated w.log ∧ Always FirstUpdateOwn w.log := by
  intro h
  obtain ⟨w, hrun, hcall, hfree⟩ := exists_run_execWhere_and (f := step homeEnv) (G := fun _ _ => True)
    (s := World.boot) (l := removedEarly)
    (P := fun w => (w.log[4]?.bind fun x => gamepadNr x.2) = some (-1) ∧ allocated (w.log.take 4) (-1) = false)
    (by decide +kernel)
  obtain ⟨x, hx, hnr⟩ := Option.bind_eq_some_iff.mp hcall
  have hused := (h homeEnv _ w (Run.of_guarded hrun)).2.1.getElem? hx (-1) hnr
  rw [hfree] at hused
  cases hused

end MidnightSun.Input
