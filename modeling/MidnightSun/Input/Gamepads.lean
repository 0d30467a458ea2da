import MidnightSun.Input.System
import MidnightSun.Lib.History
import MidnightSun.Lib.Lease

/-!
# Gamepad ids (src/input.cpp)

The ids of the gamepads are leased: `gamepadMask` is the bookkeeping of the lender, the gamepads of the contexts are
the owners, and a destroyed context leaves its ids to the tasks that free them.  `Effect` lists what a handler can do
to gamepads; the invariants are shown for each effect and hold of every run from there.
-/

namespace MidnightSun.Input

open Lib Platf

/-! ### The leases of a state -/

/-- The id of the gamepad, negative when there is none. -/
def World.gamepadId (w : World) (o : ℕ × Slot) : ℤ :=
  match w.inputs o.1 with
  | none => -1
  | some e => (e.context.gamepads o.2).id

/-- An allocated id. -/
def lease (id : ℤ) : Option ℤ := if 0 ≤ id then some id else none

theorem lease_eq_some {id n : ℤ} : lease id = some n ↔ id = n ∧ 0 ≤ n := by
  unfold lease
  split
  · constructor
    · intro h
      obtain rfl := Option.some.inj h
      exact ⟨rfl, ‹_›⟩
    · rintro ⟨rfl, -⟩
      rfl
  · constructor
    · intro h
      cases h
    · rintro ⟨rfl, h⟩
      exact absurd h ‹_›

theorem lease_eq_none {id : ℤ} (h : id < 0) : lease id = none := by
  unfold lease
  rw [if_neg (by omega)]

def Task.freed? : Task → Option ℤ
  | .freeGamepad id => some id
  | _ => none

/-- The ids set in the mask. -/
def maskSet (mask : Slot → Bool) : Set ℤ := {n | ∃ x : Slot, (x : ℤ) = n ∧ mask x = true}

def World.leases (w : World) : Leases (ℕ × Slot) ℤ where
  held := fun o => lease (w.gamepadId o)
  returning := w.tasks.filterMap Task.freed?
  taken := maskSet w.host.gamepadMask

theorem leases_congr {w w' : World} (hid : ∀ o, w'.gamepadId o = w.gamepadId o)
    (htasks : w'.tasks.filterMap Task.freed? = w.tasks.filterMap Task.freed?)
    (hmask : w'.host.gamepadMask = w.host.gamepadMask) : w'.leases = w.leases := by
  simp only [World.leases, hid, htasks, hmask]

theorem maskSet_update (mask : Slot → Bool) (x : Slot) :
    maskSet (Function.update mask x true) = insert (x : ℤ) (maskSet mask) := by
  ext n
  simp only [maskSet, Set.mem_ofPred_eq, Set.mem_insert_iff]
  constructor
  · rintro ⟨y, rfl, hy⟩
    by_cases hyx : y = x
    · exact Or.inl (by rw [hyx])
    · rw [Function.update_of_ne hyx] at hy
      exact Or.inr ⟨y, rfl, hy⟩
  · rintro (rfl | ⟨y, rfl, hy⟩)
    · exact ⟨x, rfl, Function.update_self ..⟩
    · refine ⟨y, rfl, ?_⟩
      rw [Function.update_apply]
      split
      · rfl
      · exact hy

theorem maskSet_freeId (mask : Slot → Bool) (id : ℤ) : maskSet (freeId mask id) = maskSet mask \ {id} := by
  ext n
  simp only [maskSet, Set.mem_ofPred_eq, Set.mem_sdiff, Set.mem_singleton_iff, freeId]
  constructor
  · rintro ⟨y, rfl, hy⟩
    split at hy
    · cases hy
    · exact ⟨⟨y, rfl, hy⟩, ‹_›⟩
  · rintro ⟨⟨y, rfl, hy⟩, hne⟩
    exact ⟨y, rfl, by rw [if_neg hne, hy]⟩

theorem slot_mem_maskSet {mask : Slot → Bool} {x : Slot} : (x : ℤ) ∈ maskSet mask ↔ mask x = true := by
  constructor
  · rintro ⟨y, hy, hm⟩
    obtain rfl : y = x := Fin.ext (by exact_mod_cast hy)
    exact hm
  · intro h
    exact ⟨x, rfl, h⟩

theorem allocId_eq_some {mask : Slot → Bool} {x : Slot} (h : allocId mask = some x) : mask x = false := by
  have := List.find?_some h
  simpa using this

theorem freeId_update_self {mask : Slot → Bool} {x : Slot} (h : mask x = false) :
    freeId (Function.update mask x true) x = mask := by
  funext y
  unfold freeId
  by_cases hy : y = x
  · subst hy
    rw [if_pos rfl, h]
  · rw [if_neg, Function.update_of_ne hy]
    intro heq
    exact hy (Fin.ext (by exact_mod_cast heq))

/-! ### What the platform sees -/

def leaseEvent : Call → Option (LeaseEvent ℤ)
  | .allocGamepad id _ false => some (.grant id.globalIndex)
  | .freeGamepad nr => some (.giveBack nr)
  | _ => none

/-- The id with which a gamepad function other than `alloc_gamepad` is called. -/
def gamepadNr : Call → Option ℤ
  | .gamepadUpdate nr _ => some nr
  | .freeGamepad nr => some nr
  | .gamepadTouch touch => some touch.id.globalIndex
  | .gamepadMotion motion => some motion.id.globalIndex
  | .gamepadBattery battery => some battery.id.globalIndex
  | _ => none

def leaseEvents (log : List (Cause × Call)) : List (LeaseEvent ℤ) := log.filterMap fun x => leaseEvent x.2

/-- The gamepad is allocated, as far as the platform can tell. -/
def allocated (log : List (Cause × Call)) (id : ℤ) : Bool := leased (leaseEvents log) id

/-- The gamepad is allocated and has had no update since. -/
def awaitsUpdate (log : List (Cause × Call)) (id : ℤ) : Bool :=
  log.foldl (fun b x => match x.2 with
    | .allocGamepad gid _ false => if gid.globalIndex = id then true else b
    | .gamepadUpdate nr _ => if nr = id then false else b
    | .freeGamepad nr => if nr = id then false else b
    | _ => b) false

/-- The call uses an id that is allocated at that moment. -/
def UsesAllocated (before : List (Cause × Call)) (x : Cause × Call) : Prop :=
  ∀ id, gamepadNr x.2 = some id → allocated before id = true

/-- The state is the one that the packet reports, or the neutral one with which a gamepad is freed. -/
def OwnState (cause : Cause) (state : GamepadState) : Prop :=
  (∃ i m c, cause = .packet i (.multiController m) ∧ slot? m.controllerNumber.toInt = some c ∧
    state = if m.active c then m.state else {}) ∨
  (∃ id, cause = .task (.freeGamepad id) ∧ state = {})

/-- The first update after an allocation has nothing of an earlier gamepad. -/
def FirstUpdateOwn (before : List (Cause × Call)) (x : Cause × Call) : Prop :=
  ∀ id state, x.2 = .gamepadUpdate id state → awaitsUpdate before id = true → OwnState x.1 state

theorem leaseEvents_append (log new : List (Cause × Call)) :
    leaseEvents (log ++ new) = leaseEvents log ++ leaseEvents new := List.filterMap_append

/-- Calls that are about no gamepad. -/
def unrelated (call : Call) : Prop := leaseEvent call = none ∧ gamepadNr call = none

theorem leaseEvents_unrelated {new : List (Cause × Call)} (h : ∀ x ∈ new, unrelated x.2) : leaseEvents new = [] :=
  List.filterMap_eq_nil_iff.mpr fun x hx => (h x hx).1

theorem awaitsUpdate_snoc (log : List (Cause × Call)) (x : Cause × Call) (id : ℤ) :
    awaitsUpdate (log ++ [x]) id = match x.2 with
      | .allocGamepad gid _ false => if gid.globalIndex = id then true else awaitsUpdate log id
      | .gamepadUpdate nr _ => if nr = id then false else awaitsUpdate log id
      | .freeGamepad nr => if nr = id then false else awaitsUpdate log id
      | _ => awaitsUpdate log id := by
  simp [awaitsUpdate, List.foldl_append]

theorem awaitsUpdate_snoc_of_unrelated {log : List (Cause × Call)} {x : Cause × Call}
    (h : leaseEvent x.2 = none) (hu : ∀ nr state, x.2 ≠ .gamepadUpdate nr state) (id : ℤ) :
    awaitsUpdate (log ++ [x]) id = awaitsUpdate log id := by
  rw [awaitsUpdate_snoc]
  obtain ⟨cause, call⟩ := x
  cases call with
  | gamepadUpdate nr state => exact absurd rfl (hu nr state)
  | freeGamepad nr => cases h
  | allocGamepad gid metadata failed =>
    cases failed with
    | true => rfl
    | false => cases h
  | _ => rfl

theorem awaitsUpdate_append_unrelated {log new : List (Cause × Call)} (h : ∀ x ∈ new, unrelated x.2) (id : ℤ) :
    awaitsUpdate (log ++ new) id = awaitsUpdate log id := by
  induction new using List.reverseRecOn with
  | nil => rw [List.append_nil]
  | append_singleton new x ih =>
    have hx := h x (by simp)
    rw [← List.append_assoc, awaitsUpdate_snoc_of_unrelated hx.1, ih fun y hy => h y (by simp [hy])]
    intro nr state heq
    have := hx.2
    rw [heq] at this
    cases this

end MidnightSun.Input
