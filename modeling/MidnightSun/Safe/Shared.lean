import Mathlib.Algebra.Order.Ring.Int
import Mathlib.Data.Finset.Card
import Mathlib.Logic.Function.Basic
import MidnightSun.Lib.Run

/-!
# `safe::shared_t` (src/thread_safe.h)

An element in a raw buffer, its count, and the handles (`ptr_t`) that own it.  Each call is one step, as it runs under
the object's lock.  A handle may pass from one object to another, so the state has all objects of one element type.

The copy assignment is left out: it applies `*` to a `ptr_t`, which has no such operator, so nothing that calls it
compiles.
-/

namespace MidnightSun.Safe

open Lib Function

/-- An element that `new (_object_buf.data()) element_type` made, and what was done to it. -/
structure Life where
  /-- `_construct` returned 0 -/
  constructed : Bool
  /-- the calls of `_destruct` -/
  destructs : ℕ := 0
  /-- the calls of `~element_type()` -/
  destructions : ℕ := 0
  deriving DecidableEq

/-- `shared_t`, with the elements that were in its buffer, oldest first.  The objects of the program have static
storage, so `_count` starts at 0. -/
structure Shared where
  count : UInt32 := 0
  lives : List Life := []
  deriving DecidableEq

namespace Shared

/-- `ref`, where `_construct` returns `result` if it is called, and whether the handle it returns owns the object. -/
def ref (s : Shared) (result : ℤ) : Shared × Bool :=
  if s.count = 0 then
    let lives := s.lives ++ [{ constructed := result == 0 }]
    if result ≠ 0 then ({ s with lives }, false)
    else ({ count := s.count + 1, lives }, true)
  else ({ s with count := s.count + 1 }, true)

/-- `_destruct(*get())` and `~element_type()` on what is in the buffer. -/
def destroy (s : Shared) : List Life :=
  match s.lives.getLast? with
  | none => []
  | some l => s.lives.dropLast ++ [{ l with destructs := l.destructs + 1, destructions := l.destructions + 1 }]

/-- `ptr_t::release`, seen from the object. -/
def release (s : Shared) : Shared :=
  let count := s.count - 1
  { count, lives := if count = 0 then s.destroy else s.lives }

/-- Construction and destruction balance, with `handles` handles that own the object. -/
structure Balanced (s : Shared) (handles : ℕ) : Prop where
  constructions : (s.lives.length : ℤ) - (s.lives.map (·.destructions)).sum = if 0 < s.count then 1 else 0
  count : s.count.toNat = handles
  /-- `_destruct` ran exactly once for each element that was constructed and is gone -/
  destructs : ∀ l ∈ if 0 < s.count then s.lives.dropLast else s.lives, l.destructs = if l.constructed then 1 else 0
  /-- and not yet for the one that is there -/
  alive : 0 < s.count → ∀ l ∈ s.lives.getLast?, l.constructed = true ∧ l.destructs = 0

/-- What the calls keep: every element that is gone was constructed, destructed and destroyed, and the one that is there
was constructed. -/
structure Inv (s : Shared) (handles : ℕ) : Prop where
  count : s.count.toNat = handles
  lives : ∃ n, s.lives = List.replicate n ⟨true, 1, 1⟩ ++ if 0 < s.count then [⟨true, 0, 0⟩] else []

variable {s : Shared} {n : ℕ} {result : ℤ}

lemma toNat_count_eq_zero_iff : s.count.toNat = 0 ↔ s.count = 0 := by
  rw [← UInt32.toNat_inj, UInt32.toNat_zero]

lemma toNat_count_add_one (h : s.count + 1 ≠ 0) : (s.count + 1).toNat = s.count.toNat + 1 := by
  have hlt := s.count.toNat_lt
  have hne : (s.count + 1).toNat ≠ 0 := fun h0 => h (by rw [← UInt32.toNat_inj, h0, UInt32.toNat_zero])
  rw [UInt32.toNat_add, UInt32.toNat_one] at hne ⊢
  omega

theorem inv_empty : ({} : Shared).Inv 0 where
  count := rfl
  lives := ⟨0, rfl⟩

theorem Inv.of_count_zero (hI : s.Inv n) (h : s.count = 0) : n = 0 ∧ ∃ k, s.lives = List.replicate k ⟨true, 1, 1⟩ := by
  obtain ⟨k, hk⟩ := hI.lives
  rw [h] at hk
  exact ⟨hI.count.symm.trans (toNat_count_eq_zero_iff.mpr h), k, by simpa using hk⟩

theorem Inv.of_count_ne_zero (hI : s.Inv n) (h : s.count ≠ 0) :
    ∃ k, s.lives = List.replicate k ⟨true, 1, 1⟩ ++ [⟨true, 0, 0⟩] := by
  obtain ⟨k, hk⟩ := hI.lives
  rw [if_pos (UInt32.pos_iff_ne_zero.mpr h)] at hk
  exact ⟨k, hk⟩

theorem Inv.balanced (hI : s.Inv n) : s.Balanced n := by
  by_cases h : s.count = 0
  · obtain ⟨hn, k, hk⟩ := hI.of_count_zero h
    refine ⟨?_, hI.count, ?_, fun hpos => absurd h (UInt32.pos_iff_ne_zero.mp hpos)⟩
    · simp [h, hk]
    · rw [h, if_neg (by decide), hk]
      intro l hl
      rw [List.eq_of_mem_replicate hl]
      rfl
  · obtain ⟨k, hk⟩ := hI.of_count_ne_zero h
    have hpos := UInt32.pos_iff_ne_zero.mpr h
    refine ⟨?_, hI.count, ?_, fun _ => ?_⟩
    · have hlen : s.lives.length = k + 1 := by simp [hk]
      have hsum : (s.lives.map (·.destructions)).sum = k := by simp [hk]
      rw [hlen, hsum, if_pos hpos]
      omega
    · rw [if_pos hpos, hk, List.dropLast_concat]
      intro l hl
      rw [List.eq_of_mem_replicate hl]
      rfl
    · rw [hk, List.getLast?_concat]
      intro l hl
      obtain rfl := Option.some.inj hl
      exact ⟨rfl, rfl⟩

/-! ### `ref` and `release` -/

/-- A `ref` whose construct succeeds returns an owner, and counts it. -/
theorem Inv.ref (hI : s.Inv n) (hresult : s.count = 0 → result = 0) (hwrap : s.count + 1 ≠ 0) :
    (s.ref result).2 = true ∧ (s.ref result).1.Inv (n + 1) := by
  have hcount : (s.count + 1).toNat = n + 1 := by rw [toNat_count_add_one hwrap, hI.count]
  have hpos : 0 < s.count + 1 := UInt32.pos_iff_ne_zero.mpr hwrap
  unfold Shared.ref
  by_cases h : s.count = 0
  · obtain ⟨hn, k, hk⟩ := hI.of_count_zero h
    rw [if_pos h, hresult h]
    exact ⟨rfl, hcount, k, by simp [hpos, hk]⟩
  · obtain ⟨k, hk⟩ := hI.of_count_ne_zero h
    rw [if_neg h]
    exact ⟨rfl, hcount, k, by simp [hpos, hk]⟩

theorem Inv.not_balanced_ref (hI : s.Inv n) (h : s.count = 0) (hresult : result ≠ 0) (m : ℕ) :
    (s.ref result).2 = false ∧ ¬(s.ref result).1.Balanced m := by
  obtain ⟨hn, k, hk⟩ := hI.of_count_zero h
  unfold Shared.ref
  rw [if_pos h]
  dsimp only
  rw [if_pos hresult]
  refine ⟨rfl, fun hB => ?_⟩
  have hlen : (s.lives ++ [(⟨result == 0, 0, 0⟩ : Life)]).length = k + 1 := by simp [hk]
  have hsum : ((s.lives ++ [(⟨result == 0, 0, 0⟩ : Life)]).map (·.destructions)).sum = k := by simp [hk]
  have hdiff := hB.constructions
  rw [hlen, hsum, h, if_neg (by decide)] at hdiff
  omega

theorem not_balanced_wrap (result : ℤ) (n : ℕ) (hwrap : s.count + 1 = 0) :
    (s.ref result).2 = true ∧ ¬(s.ref result).1.Balanced (n + 1) := by
  have h : s.count ≠ 0 := by
    intro h0
    rw [h0] at hwrap
    exact absurd hwrap (by decide)
  unfold Shared.ref
  rw [if_neg h]
  refine ⟨rfl, fun hB => ?_⟩
  have hcount := hB.count
  dsimp only at hcount
  rw [hwrap, UInt32.toNat_zero] at hcount
  omega

/-- The handle that was counted is counted off, and the last one takes the element with it. -/
theorem Inv.release (hI : s.Inv (n + 1)) : s.release.Inv n := by
  have h : s.count ≠ 0 := fun h0 => by
    have hcount := hI.count
    rw [h0, UInt32.toNat_zero] at hcount
    omega
  obtain ⟨k, hk⟩ := hI.of_count_ne_zero h
  have hcount : (s.count - 1).toNat = n := by
    have hle : (1 : UInt32) ≤ s.count := by
      rw [UInt32.le_iff_toNat_le, hI.count, UInt32.toNat_one]
      omega
    rw [UInt32.toNat_sub_of_le _ _ hle, hI.count, UInt32.toNat_one]
    omega
  unfold Shared.release
  refine ⟨hcount, ?_⟩
  dsimp only
  by_cases h0 : s.count - 1 = 0
  · refine ⟨k + 1, ?_⟩
    rw [if_pos h0, h0, if_neg (by decide), List.append_nil]
    simp [destroy, hk, List.replicate_succ']
  · rw [if_neg h0, if_pos (UInt32.pos_iff_ne_zero.mpr h0)]
    exact ⟨k, hk⟩

end Shared

/-! ### Handles -/

/-- The calls of the program.  `result` is what `_construct` returns if the call comes to it. -/
inductive PtrOp (H O : Type*)
  /-- `ptr_t h;` -/
  | null (h : H)
  /-- `auto h = o.ref();` -/
  | ref (o : O) (h : H) (result : ℤ)
  /-- `ptr_t h {g};` -/
  | copy (h g : H) (result : ℤ)
  /-- `ptr_t h {std::move(g)};` -/
  | move (h g : H)
  /-- `h = std::move(g);` -/
  | moveAssign (h g : H)
  /-- `h.release();` -/
  | release (h : H)
  /-- `h.~ptr_t();` -/
  | destroy (h : H)

/-- The objects and the handles. -/
structure Ptrs (H O : Type*) where
  shared : O → Shared := fun _ => {}
  /-- the handles between their constructor and their destructor -/
  alive : Finset H := ∅
  owner : H → Option O := fun _ => none
  /-- a null owner was dereferenced -/
  undefined : Bool := false

namespace Ptrs

variable {H O : Type*} [DecidableEq H] [DecidableEq O]

/-- The live handles that own `o`. -/
def holders (s : Ptrs H O) (o : O) : Finset H := s.alive.filter fun h => s.owner h = some o

def setShared (s : Ptrs H O) (o : O) (x : Shared) : Ptrs H O := { s with shared := update s.shared o x }

def setOwner (s : Ptrs H O) (h : H) (x : Option O) : Ptrs H O := { s with owner := update s.owner h x }

/-- A handle comes to life with an owner. -/
def create (s : Ptrs H O) (h : H) (x : Option O) : Ptrs H O := { s.setOwner h x with alive := insert h s.alive }

/-- `ptr_t::release`. -/
def release (s : Ptrs H O) (h : H) : Ptrs H O :=
  match s.owner h with
  | none => { s with undefined := true }
  | some o => (s.setShared o (s.shared o).release).setOwner h none

/-- `if (owner) { release(); }` -/
def releaseOwned (s : Ptrs H O) (h : H) : Ptrs H O := if (s.owner h).isSome then s.release h else s

/-- One call: a constructor makes a new handle, any other call is on one that is there. -/
def step (s : Ptrs H O) : PtrOp H O → Option (Ptrs H O)
  | .null h => if h ∉ s.alive then some (s.create h none) else none
  | .ref o h result =>
    if h ∉ s.alive then
      let r := (s.shared o).ref result
      some ((s.setShared o r.1).create h (if r.2 then some o else none))
    else none
  | .copy h g result =>
    if h ∉ s.alive ∧ g ∈ s.alive then
      match s.owner g with
      | none => some (s.create h none)
      -- the handle that `ref` returns is made to forget its owner
      | some o => some ((s.setShared o ((s.shared o).ref result).1).create h (some o))
    else none
  | .move h g =>
    if h ∉ s.alive ∧ g ∈ s.alive then some ((s.create h (s.owner g)).setOwner g none) else none
  | .moveAssign h g =>
    if h ∈ s.alive ∧ g ∈ s.alive then
      let s := s.releaseOwned h
      some ((s.setOwner h (s.owner g)).setOwner g (s.owner h))
    else none
  | .release h => if h ∈ s.alive then some (s.release h) else none
  | .destroy h =>
    if h ∈ s.alive then
      let s := s.releaseOwned h
      some { s with alive := s.alive.erase h }
    else none

/-! ### Who owns what -/

variable {s t : Ptrs H O} {h : H} {o : O}

omit [DecidableEq O] in
theorem card_filter_update (A : Finset H) (f : H → Option O) (x : Option O) (p : Option O → Prop) [DecidablePred p]
    (hA : h ∈ A) : (A.filter fun g => p (update f h x g)).card + (if p (f h) then 1 else 0) =
      (A.filter fun g => p (f g)).card + if p x then 1 else 0 := by
  have hrest : ((A.erase h).filter fun g => p (update f h x g)) = (A.erase h).filter fun g => p (f g) := by
    refine Finset.filter_congr fun g hg => ?_
    rw [update_of_ne (Finset.ne_of_mem_erase hg)]
  have hsplit (f : H → Option O) : (A.filter fun g => p (f g)).card =
      ((A.erase h).filter fun g => p (f g)).card + if p (f h) then 1 else 0 := by
    rw [← Finset.insert_erase hA, Finset.filter_insert, Finset.erase_insert (Finset.notMem_erase h A)]
    split
    · exact Finset.card_insert_of_notMem fun hmem => Finset.notMem_erase h A (Finset.mem_filter.mp hmem).1
    · rfl
  rw [hsplit, hsplit f, hrest, update_self]
  omega

theorem card_holders_setOwner (x : Option O) (halive : h ∈ s.alive) :
    ((s.setOwner h x).holders o).card + (if s.owner h = some o then 1 else 0) =
      (s.holders o).card + if x = some o then 1 else 0 :=
  card_filter_update s.alive s.owner x (· = some o) halive

theorem card_holders_create (x : Option O) (hnew : h ∉ s.alive) :
    ((s.create h x).holders o).card = (s.holders o).card + if x = some o then 1 else 0 := by
  have hrest : (s.alive.filter fun g => update s.owner h x g = some o) = s.holders o := by
    refine Finset.filter_congr fun g hg => ?_
    rw [update_of_ne (ne_of_mem_of_not_mem hg hnew)]
  show ((insert h s.alive).filter fun g => update s.owner h x g = some o).card = _
  rw [Finset.filter_insert, update_self, hrest]
  split
  · exact Finset.card_insert_of_notMem fun hmem => hnew (Finset.mem_filter.mp hmem).1
  · rfl

theorem holders_erase (hnull : s.owner h = none) : holders { s with alive := s.alive.erase h } o = s.holders o := by
  show (s.alive.erase h).filter _ = s.alive.filter _
  rw [Finset.filter_erase, Finset.erase_eq_of_notMem]
  simp [hnull]

/-! ### What the calls keep -/

/-- Nothing undefined happened, and every object is balanced with the handles that own it. -/
structure Balanced (s : Ptrs H O) : Prop where
  defined : s.undefined = false
  shared : ∀ o, (s.shared o).Balanced (s.holders o).card

structure Inv (s : Ptrs H O) : Prop where
  defined : s.undefined = false
  shared : ∀ o, (s.shared o).Inv (s.holders o).card

omit [DecidableEq H] in
theorem Inv.balanced (hI : s.Inv) : s.Balanced := ⟨hI.defined, fun o => (hI.shared o).balanced⟩

omit [DecidableEq H] in
theorem inv_empty : ({} : Ptrs H O).Inv := ⟨rfl, fun _ => Shared.inv_empty⟩

omit [DecidableEq H] in
theorem Inv.count_ne_zero (hI : s.Inv) (halive : h ∈ s.alive) (howner : s.owner h = some o) :
    (s.shared o).count ≠ 0 := by
  intro h0
  have hcard := ((hI.shared o).of_count_zero h0).1
  have hmem : h ∈ s.holders o := Finset.mem_filter.mpr ⟨halive, howner⟩
  rw [Finset.card_eq_zero.mp hcard] at hmem
  exact Finset.notMem_empty h hmem

theorem Inv.create_none (hI : s.Inv) (hnew : h ∉ s.alive) : (s.create h none).Inv where
  defined := hI.defined
  shared o := by
    rw [card_holders_create none hnew]
    exact hI.shared o

/-- A `ref` that goes through, into a new handle. -/
theorem Inv.create_ref (hI : s.Inv) (hnew : h ∉ s.alive) {result : ℤ}
    (hresult : (s.shared o).count = 0 → result = 0) (hwrap : (s.shared o).count + 1 ≠ 0) :
    ((s.setShared o ((s.shared o).ref result).1).create h (some o)).Inv where
  defined := hI.defined
  shared o' := by
    rw [card_holders_create (some o) (s := s.setShared o ((s.shared o).ref result).1) hnew]
    show (update s.shared o _ o').Inv ((s.holders o').card + _)
    by_cases heq : o' = o
    · subst heq
      rw [update_self, if_pos rfl]
      exact ((hI.shared o').ref hresult hwrap).2
    · rw [update_of_ne heq, if_neg fun h' => heq (Option.some.inj h').symm]
      exact hI.shared o'

theorem Inv.release (hI : s.Inv) (halive : h ∈ s.alive) (howner : s.owner h = some o) : (s.release h).Inv := by
  have hrel : s.release h = (s.setShared o (s.shared o).release).setOwner h none := by
    rw [Ptrs.release, howner]
  rw [hrel]
  refine ⟨hI.defined, fun o' => ?_⟩
  have hcard := card_holders_setOwner (s := s.setShared o (s.shared o).release) (o := o') none halive
  have hI' := hI.shared o'
  show (update s.shared o _ o').Inv _
  by_cases heq : o' = o
  · subst heq
    rw [update_self]
    rw [show (s.setShared o' (s.shared o').release).owner h = some o' from howner, if_pos rfl,
      if_neg (by simp)] at hcard
    rw [show (s.holders o').card = _ from hcard.symm] at hI'
    exact hI'.release
  · rw [update_of_ne heq]
    rw [show (s.setShared o (s.shared o).release).owner h = some o from howner,
      if_neg fun h' => heq (Option.some.inj h').symm, if_neg (by simp)] at hcard
    rw [show (s.holders o').card = _ from hcard.symm] at hI'
    exact hI'

/-- After `if (owner) { release(); }` the handle owns nothing. -/
theorem Inv.releaseOwned (hI : s.Inv) (halive : h ∈ s.alive) :
    (s.releaseOwned h).Inv ∧ (s.releaseOwned h).owner h = none ∧ (s.releaseOwned h).alive = s.alive := by
  unfold Ptrs.releaseOwned
  cases howner : s.owner h with
  | none => exact ⟨hI, howner, rfl⟩
  | some o =>
    have hrel : s.release h = (s.setShared o (s.shared o).release).setOwner h none := by rw [Ptrs.release, howner]
    refine ⟨hI.release halive howner, ?_, ?_⟩
    · show (s.release h).owner h = none
      rw [hrel]
      exact update_self ..
    · show (s.release h).alive = s.alive
      rw [hrel]
      rfl

theorem Inv.swap (hI : s.Inv) {g : H} (hh : h ∈ s.alive) (hg : g ∈ s.alive) (hnull : s.owner h = none) :
    ((s.setOwner h (s.owner g)).setOwner g (s.owner h)).Inv := by
  refine ⟨hI.defined, fun o => ?_⟩
  have h₁ := card_holders_setOwner (s := s) (o := o) (s.owner g) hh
  have h₂ := card_holders_setOwner (s := s.setOwner h (s.owner g)) (o := o) (s.owner h) hg
  have hcard : (((s.setOwner h (s.owner g)).setOwner g (s.owner h)).holders o).card = (s.holders o).card := by
    by_cases heq : g = h
    · subst heq
      simp only [setOwner, update_self, hnull, reduceCtorEq, if_false] at h₁ h₂ ⊢
      omega
    · simp only [setOwner, update_of_ne heq, hnull, reduceCtorEq, if_false] at h₁ h₂ ⊢
      omega
  rw [hcard]
  exact hI.shared o

theorem Inv.move (hI : s.Inv) {g : H} (hh : h ∉ s.alive) (hg : g ∈ s.alive) :
    ((s.create h (s.owner g)).setOwner g none).Inv := by
  refine ⟨hI.defined, fun o => ?_⟩
  have h₁ := card_holders_create (s := s) (o := o) (s.owner g) hh
  have h₂ := card_holders_setOwner (s := s.create h (s.owner g)) (o := o) none (Finset.mem_insert_of_mem hg)
  have howner : (s.create h (s.owner g)).owner g = s.owner g := update_of_ne (ne_of_mem_of_not_mem hg hh) ..
  have hcard : (((s.create h (s.owner g)).setOwner g none).holders o).card = (s.holders o).card := by
    rw [howner, if_neg (by simp : ¬none = some o)] at h₂
    omega
  rw [hcard]
  exact hI.shared o

/-! ### When the balance holds -/

/-- The construct that a `ref` runs succeeds, no count reaches 2 ^ 32, and no handle without an owner is released. -/
def Constructs (s : Ptrs H O) : PtrOp H O → Prop
  | .ref o _ result => ((s.shared o).count = 0 → result = 0) ∧ (s.shared o).count + 1 ≠ 0
  | .copy _ g _ => ∀ o ∈ s.owner g, (s.shared o).count + 1 ≠ 0
  | .release h => (s.owner h).isSome = true
  | _ => True

instance (s : Ptrs H O) : (op : PtrOp H O) → Decidable (s.Constructs op)
  | .ref _ _ _ => inferInstanceAs (Decidable (_ ∧ _))
  | .copy _ g _ => inferInstanceAs (Decidable (∀ o ∈ s.owner g, _))
  | .release _ => inferInstanceAs (Decidable (_ = true))
  | .null _ | .move _ _ | .moveAssign _ _ | .destroy _ => instDecidableTrue

theorem Inv.step {op : PtrOp H O} (hI : s.Inv) (hG : s.Constructs op) (hst : s.step op = some t) : t.Inv := by
  cases op with
  | null h =>
    obtain ⟨hnew, rfl⟩ := of_ite_some hst
    exact hI.create_none hnew
  | ref o h result =>
    obtain ⟨hnew, rfl⟩ := of_ite_some hst
    obtain ⟨hresult, hwrap⟩ := hG
    rw [((hI.shared o).ref hresult hwrap).1]
    exact hI.create_ref hnew hresult hwrap
  | copy h g result =>
    obtain ⟨hnew, hg, hst⟩ : h ∉ s.alive ∧ g ∈ s.alive ∧ _ := by
      simpa only [Ptrs.step, Option.ite_none_right_eq_some, and_assoc] using hst
    split at hst
    next hnull =>
      obtain rfl := Option.some.inj hst
      exact hI.create_none hnew
    next o howner =>
      obtain rfl := Option.some.inj hst
      exact hI.create_ref hnew (fun h0 => absurd h0 (hI.count_ne_zero hg howner)) (hG o howner)
  | move h g =>
    obtain ⟨⟨hnew, hg⟩, rfl⟩ := of_ite_some hst
    exact hI.move hnew hg
  | moveAssign h g =>
    obtain ⟨⟨hh, hg⟩, rfl⟩ := of_ite_some hst
    obtain ⟨hI', hnull, halive⟩ := hI.releaseOwned hh
    exact hI'.swap (halive ▸ hh) (halive ▸ hg) hnull
  | release h =>
    obtain ⟨hh, rfl⟩ := of_ite_some hst
    obtain ⟨o, howner⟩ := Option.isSome_iff_exists.mp hG
    exact hI.release hh howner
  | destroy h =>
    obtain ⟨hh, rfl⟩ := of_ite_some hst
    obtain ⟨hI', hnull, -⟩ := hI.releaseOwned hh
    refine ⟨hI'.defined, fun o => ?_⟩
    rw [holders_erase hnull]
    exact hI'.shared o

/-- A step that leaves everything balanced had to be one that constructs. -/
theorem Inv.constructs {op : PtrOp H O} (hI : s.Inv) (hst : s.step op = some t) (hB : t.Balanced) :
    s.Constructs op := by
  cases op with
  | ref o h result =>
    obtain ⟨hnew, rfl⟩ := of_ite_some hst
    have hBo := hB.shared o
    rw [card_holders_create (s := s.setShared o ((s.shared o).ref result).1) _ hnew] at hBo
    change (update s.shared o _ o).Balanced _ at hBo
    rw [update_self] at hBo
    refine ⟨fun h0 => ?_, fun hwrap => ?_⟩
    · by_contra hresult
      exact ((hI.shared o).not_balanced_ref h0 hresult _).2 hBo
    · have hnot := Shared.not_balanced_wrap result (s.holders o).card hwrap
      rw [hnot.1, if_pos rfl, if_pos rfl] at hBo
      exact hnot.2 hBo
  | copy h g result =>
    intro o howner hwrap
    obtain ⟨hnew, hg, hst⟩ : h ∉ s.alive ∧ g ∈ s.alive ∧ _ := by
      simpa only [Ptrs.step, Option.ite_none_right_eq_some, and_assoc] using hst
    rw [Option.mem_def.mp howner] at hst
    obtain rfl := Option.some.inj hst
    have hBo := hB.shared o
    rw [card_holders_create (s := s.setShared o ((s.shared o).ref result).1) _ hnew, if_pos rfl] at hBo
    change (update s.shared o _ o).Balanced _ at hBo
    rw [update_self] at hBo
    exact (Shared.not_balanced_wrap _ _ hwrap).2 hBo
  | release h =>
    obtain ⟨hh, rfl⟩ := of_ite_some hst
    rw [Constructs, Option.isSome_iff_ne_none]
    intro hnull
    have hdef := hB.defined
    rw [Ptrs.release, hnull] at hdef
    cases hdef
  | null h => trivial
  | move h g => trivial
  | moveAssign h g => trivial
  | destroy h => trivial

/-- In a run of calls on the handles of any number of objects, every state is balanced exactly if every call meets
`Constructs`. -/
theorem shared_balanced_iff {ops : List (PtrOp H O)} (hrun : Run (ofPartial Ptrs.step) {} ops t) :
    (∀ before after u, ops = before ++ after → Run (ofPartial Ptrs.step) {} before u → u.Balanced) ↔
      Run (Guarded (ofPartial Ptrs.step) Constructs) {} ops t :=
  run_safe_where_iff (fun _ hI => hI.balanced) (fun _ _ _ hI hG hst => hI.step hG hst)
    (fun _ _ _ hI hst hB => hI.constructs hst hB) inv_empty hrun

/-- Two objects; a handle is copied, moved and assigned from one to the other, and everything is given back. -/
theorem shared_balanced_two_objects :
    ∃ t : Ptrs ℕ Bool,
      Run (ofPartial Ptrs.step) {}
        [.ref true 0 0, .ref false 1 0, .copy 2 0 0, .move 3 2, .moveAssign 1 3, .release 0, .destroy 2, .destroy 1] t ∧
      ∀ before after u,
        [.ref true 0 0, .ref false 1 0, .copy 2 0 0, .move 3 2, .moveAssign 1 3, .release 0, .destroy 2, .destroy 1] =
          before ++ after → Run (ofPartial Ptrs.step) {} before u → u.Balanced := by
  have hrun := exists_run_execWhere (f := Ptrs.step (H := ℕ) (O := Bool)) (G := Constructs) (s := {})
    (l := [.ref true 0 0, .ref false 1 0, .copy 2 0 0, .move 3 2, .moveAssign 1 3, .release 0, .destroy 2, .destroy 1])
    (by decide)
  exact ⟨_, hrun.of_guarded, (shared_balanced_iff hrun.of_guarded).mpr hrun⟩

/-- The construct fails, is tried again and succeeds: two elements were made, and one is destroyed. -/
theorem not_balanced_failed_construct :
    ∃ t : Ptrs ℕ Unit, Run (ofPartial Ptrs.step) {} [.ref () 0 (-1), .ref () 1 0, .release 1] t ∧
      t.shared () = { count := 0, lives := [⟨false, 0, 0⟩, ⟨true, 1, 1⟩] } ∧ ¬t.Balanced := by
  obtain ⟨t, hrun, ht⟩ := exists_run_execWhere_and (f := Ptrs.step (H := ℕ) (O := Unit)) (G := fun _ _ => True)
    (s := {})
    (l := [.ref () 0 (-1), .ref () 1 0, .release 1])
    (P := fun t => t.shared () = { count := 0, lives := [⟨false, 0, 0⟩, ⟨true, 1, 1⟩] }) (by decide)
  refine ⟨t, hrun.of_guarded, ht, fun hB => ?_⟩
  have hdiff := (hB.shared ()).constructions
  rw [ht] at hdiff
  exact absurd hdiff (by decide)

end Ptrs

end MidnightSun.Safe
