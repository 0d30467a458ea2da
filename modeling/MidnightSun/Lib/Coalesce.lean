import MidnightSun.Lib.Run

/-!
# Queues whose entries are coalesced

A consumer takes the first packet of a queue, folds later packets into it and handles the result.  `merge d x` says
what happens when the taken packet `d` meets the queued packet `x`: it absorbs it, passes over it or stops there.  When
absorbing a packet is harmless (`Harmless`), the consumer is indistinguishable from one that handles every packet by
itself: a merged packet does what the two did, and the packets that were passed over commute with the absorbed one.
-/

namespace MidnightSun.Lib

/-- What a taken packet does with a queued one. -/
inductive Merge (P : Type*) where
  | absorb (d : P)
  | pass
  | stop

variable {S P : Type*}

/-- The taken packet after the scan of the queue, and the queue that is left. -/
def coalesce (merge : P → P → Merge P) (d : P) : List P → P × List P
  | [] => (d, [])
  | x :: rest =>
    match merge d x with
    | .absorb d' => coalesce merge d' rest
    | .pass => ((coalesce merge d rest).1, x :: (coalesce merge d rest).2)
    | .stop => (d, x :: rest)

/-- One round of the consumer. -/
def consume (handle : S → P → S) (merge : P → P → Merge P) : S × List P → S × List P
  | (s, []) => (s, [])
  | (s, d :: q) => (handle s (coalesce merge d q).1, (coalesce merge d q).2)

/-- The scan from `d` at `s` absorbs a packet only if `may` allows it there and every packet that was passed over,
those of `passed` included, may be overtaken in the state that `d` leads to. -/
def Harmless (handle : S → P → S) (merge : P → P → Merge P) (may overtaken : S → P → P → Prop) (s : S) :
    (passed : List P) → (d : P) → List P → Prop
  | _, _, [] => True
  | passed, d, x :: rest =>
    match merge d x with
    | .absorb d' =>
      may s d x ∧ (∀ y ∈ passed, overtaken (handle s d) d y) ∧ Harmless handle merge may overtaken s passed d' rest
    | .pass => Harmless handle merge may overtaken s (passed ++ [x]) d rest
    | .stop => True

/-- The laws that make coalescing sound.  `inv` holds of the states the consumer works in.  `settled t₀ d t` says of
the state `t₀` that handled `d` and of a later one what the packets that were passed over left as it was. -/
structure Coalescible (handle : S → P → S) (merge : P → P → Merge P) (may overtaken : S → P → P → Prop)
    (inv : S → Prop) (settled : S → P → S → Prop) : Prop where
  /-- every packet keeps the invariant -/
  inv_handle : ∀ s p, inv s → inv (handle s p)
  /-- a merged packet does what the two did -/
  absorb : ∀ s d x d', inv s → merge d x = .absorb d' → may s d x → handle (handle s d) x = handle s d'
  settled_handle : ∀ s d x d', inv s → merge d x = .absorb d' → may s d x → settled (handle s d) d (handle s d)
  settled_pass : ∀ t₀ d t y, inv t → settled t₀ d t → merge d y = .pass → overtaken t₀ d y → settled t₀ d (handle t y)
  /-- a packet that was passed over commutes with an absorbed one -/
  overtake : ∀ t₀ d t y x d', inv t → settled t₀ d t → merge d y = .pass → overtaken t₀ d y → merge d x = .absorb d' →
    handle (handle t y) x = handle (handle t x) y
  /-- what is passed over stays so -/
  pass_absorb : ∀ d x d' y, merge d x = .absorb d' → merge d y = .pass → merge d' y = .pass

section
variable {handle : S → P → S} {merge : P → P → Merge P} {may overtaken : S → P → P → Prop} {inv : S → Prop}
  {settled : S → P → S → Prop}

/-- An absorbed packet overtakes all packets that were passed over. -/
theorem Coalescible.overtake_all (h : Coalescible handle merge may overtaken inv settled) {d x d' : P}
    (hx : merge d x = .absorb d') {passed : List P} (hpass : ∀ y ∈ passed, merge d y = .pass) {t₀ t : S}
    (hover : ∀ y ∈ passed, overtaken t₀ d y) (ht : inv t) (hd : settled t₀ d t) :
    handle (passed.foldl handle t) x = passed.foldl handle (handle t x) := by
  induction passed generalizing t with
  | nil => rfl
  | cons y passed ih =>
    have hy := hpass y List.mem_cons_self
    have ho := hover y List.mem_cons_self
    have hrest := ih (fun z hz => hpass z (List.mem_cons_of_mem _ hz)) (fun z hz => hover z (List.mem_cons_of_mem _ hz))
      (h.inv_handle t y ht) (h.settled_pass t₀ d t y ht hd hy ho)
    rw [List.foldl_cons, List.foldl_cons, hrest, h.overtake t₀ d t y x d' ht hd hy ho hx]

/-- The scan of the queue does not change what handling everything leads to. -/
theorem Coalescible.foldl_coalesce (h : Coalescible handle merge may overtaken inv settled) {s : S} (hs : inv s)
    (q : List P) : ∀ (d : P) (passed : List P), (∀ y ∈ passed, merge d y = .pass) →
      Harmless handle merge may overtaken s passed d q →
      q.foldl handle (passed.foldl handle (handle s d)) =
        (coalesce merge d q).2.foldl handle (passed.foldl handle (handle s (coalesce merge d q).1)) := by
  induction q with
  | nil => intro d passed _ _; rfl
  | cons x rest ih =>
    intro d passed hpass hharm
    unfold Harmless at hharm
    unfold coalesce
    cases hm : merge d x with
    | stop => rfl
    | pass =>
      rw [hm] at hharm
      have hpass' : ∀ y ∈ passed ++ [x], merge d y = .pass := by
        intro y hy
        rcases List.mem_append.mp hy with hy | hy
        · exact hpass y hy
        · obtain rfl := List.mem_singleton.mp hy
          exact hm
      have := ih d (passed ++ [x]) hpass' hharm
      simpa [List.foldl_append] using this
    | absorb d' =>
      rw [hm] at hharm
      obtain ⟨hmay, hover, hrest⟩ := hharm
      have hd := h.settled_handle s d x d' hs hm hmay
      -- the absorbed packet moves to the front, over everything that was passed over, and is merged there
      have hmove : handle (passed.foldl handle (handle s d)) x = passed.foldl handle (handle s d') := by
        rw [h.overtake_all hm hpass hover (h.inv_handle s d hs) hd, h.absorb s d x d' hs hm hmay]
      have hpass' : ∀ y ∈ passed, merge d' y = .pass := fun y hy => h.pass_absorb d x d' y hm (hpass y hy)
      rw [List.foldl_cons, hmove]
      exact ih d' passed hpass' hrest

theorem Coalescible.foldl_consume (h : Coalescible handle merge may overtaken inv settled) {s : S} (hs : inv s)
    {d : P} {q : List P} (hharm : Harmless handle merge may overtaken s [] d q) :
    (consume handle merge (s, d :: q)).2.foldl handle (consume handle merge (s, d :: q)).1 =
      (d :: q).foldl handle s :=
  (h.foldl_coalesce hs q d [] (by simp) hharm).symm

/-- The condition on the state before a round. -/
def HarmlessRound (handle : S → P → S) (merge : P → P → Merge P) (may overtaken : S → P → P → Prop) :
    S × List P → Prop
  | (_, []) => True
  | (s, d :: q) => Harmless handle merge may overtaken s [] d q

/-- **Coalescing is sound.**  A run of harmless rounds that empties the queue ends where handling the packets one by one
ends. -/
theorem Coalescible.run (h : Coalescible handle merge may overtaken inv settled) {s t : S} {q : List P}
    {rounds : List Unit} (hs : inv s)
    (hrun : Run (Guarded (ofFun fun c (_ : Unit) => consume handle merge c)
      fun c _ => HarmlessRound handle merge may overtaken c) (s, q) rounds (t, [])) : t = q.foldl handle s := by
  have hinv : inv (t, ([] : List P)).1 ∧ (t, ([] : List P)).2.foldl handle (t, ([] : List P)).1 = q.foldl handle s := by
    refine hrun.invariant_where (I := fun c => inv c.1 ∧ c.2.foldl handle c.1 = q.foldl handle s) ?_ ⟨hs, rfl⟩
    rintro ⟨s₁, q₁⟩ _ c ⟨hs₁, hq₁⟩ hguard hstep
    obtain rfl : c = consume handle merge (s₁, q₁) := hstep
    cases q₁ with
    | nil => exact ⟨hs₁, hq₁⟩
    | cons d q₁ =>
      refine ⟨h.inv_handle s₁ _ hs₁, ?_⟩
      rw [h.foldl_consume hs₁ hguard]
      exact hq₁
  exact hinv.2

end

end MidnightSun.Lib
