import Mathlib.Data.Nat.Notation

/-!
# Programs that may return early

A program of `EStateM ε σ` works on a state `σ` and returns, or returns early with an `ε`; what it did to the state
stays.  `Triple P p Q E` says that from `P` it returns in `Q` or returns early in `E`.
-/

namespace MidnightSun.Lib.Early

variable {ε σ α β : Type}

/-- From `P`, `p` returns in `Q` or returns early in `E`. -/
def Triple (P : σ → Prop) (p : EStateM ε σ α) (Q : α → σ → Prop) (E : ε → σ → Prop) : Prop :=
  ∀ s, P s →
    match p s with
    | .ok a t => Q a t
    | .error e t => E e t

namespace Triple

variable {P P' : σ → Prop} {p : EStateM ε σ α} {Q Q' : α → σ → Prop} {R : β → σ → Prop} {E : ε → σ → Prop}

theorem conseq (h : Triple P p Q E) (hP : ∀ s, P' s → P s) (hQ : ∀ a s, Q a s → Q' a s) : Triple P' p Q' E := by
  intro s hs
  have hrun := h s (hP s hs)
  split at hrun
  · exact hQ _ _ hrun
  · exact hrun

theorem pre (h : Triple P p Q E) (hP : ∀ s, P' s → P s) : Triple P' p Q E := h.conseq hP fun _ _ hs => hs

theorem early (h : Triple P p Q E) {E' : ε → σ → Prop} (hE : ∀ e s, E e s → E' e s) : Triple P p Q E' := by
  intro s hs
  have hrun := h s hs
  split at hrun
  · exact hrun
  · exact hE _ _ hrun

theorem ret (a : α) (h : ∀ s, P s → Q a s) : Triple P (pure a : EStateM ε σ α) Q E := fun s hs => h s hs

theorem raise (e : ε) (h : ∀ s, P s → E e s) : Triple P (throw e : EStateM ε σ α) Q E := fun s hs => h s hs

theorem bind {f : α → EStateM ε σ β} (h : Triple P p Q E) (hf : ∀ a, Triple (Q a) (f a) R E) :
    Triple P (p >>= f) R E := by
  intro s hs
  have hrun := h s hs
  show match EStateM.bind p f s with
    | .ok b t => R b t
    | .error e t => E e t
  unfold EStateM.bind
  cases hp : p s with
  | ok a t =>
    rw [hp] at hrun
    exact hf a t hrun
  | error e t =>
    rw [hp] at hrun
    exact hrun

theorem gets {f : σ → EStateM ε σ β} (h : ∀ s, P s → Triple (fun t => t = s) (f s) R E) :
    Triple P (get >>= f) R E := fun s hs => h s hs s rfl

theorem update {f : σ → σ} {Q : Unit → σ → Prop} (h : ∀ s, P s → Q () (f s)) :
    Triple P (modify f : EStateM ε σ Unit) Q E := fun s hs => h s hs

theorem cond {b : Prop} [Decidable b] {q : EStateM ε σ α} (hp : b → Triple P p Q E) (hq : ¬b → Triple P q Q E) :
    Triple P (if b then p else q) Q E := by
  split
  next hb => exact hp hb
  next hb => exact hq hb

theorem of_pre (h : ∀ s, P s → Triple (fun t => t = s) p Q E) : Triple P p Q E := fun s hs => h s hs s rfl

end Triple

end MidnightSun.Lib.Early
