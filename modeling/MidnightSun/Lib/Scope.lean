import Mathlib.Data.Option.Basic
import MidnightSun.Lib.Early

/-!
# Function bodies that are left early

A body is a sequence of statements that change a state.  It may be left before its end, by a `return` or by an
exception, and what its scope has to do on the way out is then done as well.  `Triple P b Q R`: from a state with `P`,
the body comes to its end with `Q`, or it is left with `R`.
-/

namespace MidnightSun.Lib

/-- How a body is left before its end. -/
inductive Exit where
  | returned
  | thrown
  deriving DecidableEq

abbrev Body (σ α : Type) := EStateM Exit σ α

namespace Body

variable {σ α β : Type}

/-- `return` from the midst of a body. -/
def leave : Body σ α := throw .returned

/-- The result of a call; `none` is an exception. -/
def result : Option α → Body σ α
  | some a => pure a
  | none => throw .thrown

/-- An `if` without an `else`. -/
def ifThen (p : Prop) [Decidable p] (b : Body σ Unit) : Body σ Unit := if p then b else pure ()

/-- A scope guard: `guard` runs whenever the body is left, at its end as well. -/
def withGuard (guard : σ → σ) (b : Body σ α) : Body σ α := fun s =>
  match b s with
  | .ok a t => .ok a (guard t)
  | .error e t => .error e (guard t)

/-- The state in which a call of the body leaves the caller. -/
def final (b : Body σ α) (s : σ) : σ :=
  match b s with
  | .ok _ t => t
  | .error _ t => t

/-! ### Preconditions and postconditions -/

/-- From `P`, the body comes to its end in `Q` or is left in `R`, in whichever way. -/
def Triple (P : σ → Prop) (b : Body σ α) (Q : α → σ → Prop) (R : σ → Prop) : Prop := Early.Triple P b Q fun _ => R

namespace Triple

variable {P P' : σ → Prop} {Q Q' : α → σ → Prop} {R R' : σ → Prop} {b : Body σ α}

/-- The two ways out of a body. -/
lemma outcome (h : Triple P b Q R) {s : σ} (hs : P s) :
    (∃ a t, b s = .ok a t ∧ Q a t) ∨ ∃ e t, b s = .error e t ∧ R t := by
  have hb := h s hs
  cases hr : b s with
  | ok a t =>
    rw [hr] at hb
    exact Or.inl ⟨a, t, rfl, hb⟩
  | error e t =>
    rw [hr] at hb
    exact Or.inr ⟨e, t, rfl, hb⟩

theorem final {Q : σ → Prop} (h : Triple P b (fun _ => Q) Q) {s : σ} (hs : P s) : Q (b.final s) := by
  unfold Body.final
  rcases h.outcome hs with ⟨a, t, hr, ha⟩ | ⟨e, t, hr, he⟩
  · rw [hr]
    exact ha
  · rw [hr]
    exact he

theorem mono (h : Triple P b Q R) (hP : ∀ s, P' s → P s) (hQ : ∀ a s, Q a s → Q' a s) (hR : ∀ s, R s → R' s) :
    Triple P' b Q' R' := (Early.Triple.conseq h hP hQ).early fun _ => hR

theorem of_and {φ : Prop} (h : φ → Triple P b Q R) : Triple (fun s => φ ∧ P s) b Q R := fun s hs => h hs.1 s hs.2

theorem pure {a : α} (h : ∀ s, P s → Q a s) : Triple P (Pure.pure a : Body σ α) Q R :=
  Early.Triple.ret a h

theorem leave (h : ∀ s, P s → R s) : Triple P (Body.leave : Body σ α) Q R :=
  Early.Triple.raise (E := fun _ => R) Exit.returned h

theorem throw (h : ∀ s, P s → R s) : Triple P (MonadExcept.throw Exit.thrown : Body σ α) Q R :=
  Early.Triple.raise (E := fun _ => R) Exit.thrown h

theorem assign {f : σ → σ} {Q : PUnit → σ → Prop} (h : ∀ s, P s → Q ⟨⟩ (f s)) :
    Triple P (modify f : Body σ PUnit) Q R := Early.Triple.update h

theorem result {x : Option α} (h : ∀ a, x = some a → ∀ s, P s → Q a s) (hnone : x = none → ∀ s, P s → R s) :
    Triple P (Body.result x) Q R := by
  cases x with
  | none => exact hnone rfl
  | some a => exact h a rfl

/-- One statement after the other. -/
theorem bind {f : α → Body σ β} {S : β → σ → Prop} (h : Triple P b Q R) (hf : ∀ a, Triple (Q a) (f a) S R) :
    Triple P (b >>= f) S R := Early.Triple.bind h hf

theorem ifThen {p : Prop} [Decidable p] {b : Body σ Unit} {Q : Unit → σ → Prop} (hb : p → Triple P b Q R)
    (hc : ¬p → ∀ s, P s → Q () s) : Triple P (Body.ifThen p b) Q R := Early.Triple.cond hb fun hp => pure (hc hp)

theorem withGuard {guard : σ → σ} (h : Triple P b (fun a s => Q a (guard s)) fun s => R (guard s)) :
    Triple P (b.withGuard guard) Q R := by
  intro s hs
  unfold Body.withGuard
  rcases h.outcome hs with ⟨a, t, hr, ha⟩ | ⟨e, t, hr, he⟩
  · rw [hr]
    exact ha
  · rw [hr]
    exact he

end Triple

/-! ### Invariants -/

/-- The body keeps `I`, however it is left. -/
abbrev Keeps (I : σ → Prop) (b : Body σ α) : Prop := Triple I b (fun _ => I) I

namespace Keeps

variable {I : σ → Prop}

theorem result (x : Option α) : Keeps I (Body.result x) := Triple.result (fun _ _ _ h => h) fun _ _ h => h

theorem leave : Keeps I (Body.leave : Body σ α) := Triple.leave fun _ h => h

theorem get : Keeps I (MonadState.get : Body σ σ) := fun _ h => h

theorem assign {f : σ → σ} (h : ∀ s, I s → I (f s)) : Keeps I (modify f : Body σ PUnit) := Triple.assign h

theorem bind {b : Body σ α} {f : α → Body σ β} (hb : Keeps I b) (hf : ∀ a, Keeps I (f a)) : Keeps I (b >>= f) :=
  Triple.bind hb hf

theorem ifThen {p : Prop} [Decidable p] {b : Body σ Unit} (hb : Keeps I b) : Keeps I (Body.ifThen p b) :=
  Triple.ifThen (fun _ => hb) fun _ _ h => h

theorem withGuard {guard : σ → σ} {b : Body σ α} (hb : Keeps I b) (hguard : ∀ s, I s → I (guard s)) :
    Keeps I (b.withGuard guard) :=
  Triple.withGuard (hb.mono (fun _ h => h) (fun _ s => hguard s) hguard)

end Keeps

end Body

end MidnightSun.Lib
