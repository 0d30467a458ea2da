import Mathlib.Data.List.Basic
import Mathlib.Data.Nat.Notation

/-!
# Programs that may be killed

A program works on a state `σ` and calls its surroundings, whose replies `ε` come from a list; when no reply is left the
program has been killed, so a list of replies stands for a run that is cut off after as many calls.

* `Triple P p Q C`: from `P`, the program ends in `Q` if it returns, and in `C` wherever it is killed;
* `Returns n A P p Q`: from `P`, `n` replies that meet `A` are enough for the program to return, and then `Q` holds.
-/

namespace MidnightSun.Lib.Crash

universe w

/-- How a run ends, and with which replies unused. -/
inductive Outcome (σ ε α : Type*) where
  | done (a : α) (rest : List ε) (s : σ)
  | killed (s : σ)

namespace Outcome

variable {σ ε α : Type*}

/-- The state that is left. -/
def state : Outcome σ ε α → σ
  | done _ _ s => s
  | killed s => s

end Outcome

/-- A program with results in `α`. -/
def Prog (σ ε α : Type*) := List ε → σ → Outcome σ ε α

namespace Prog

variable {σ ε : Type*} {α β : Type w}

def pure (a : α) : Prog σ ε α := fun es s => .done a es s

def bind (p : Prog σ ε α) (f : α → Prog σ ε β) : Prog σ ε β := fun es s =>
  match p es s with
  | .done a rest t => f a rest t
  | .killed t => .killed t

instance : Monad (Prog σ ε) where
  pure := pure
  bind := bind

/-- A call of the surroundings. -/
def call (f : ε → σ → α × σ) : Prog σ ε α
  | [], s => .killed s
  | e :: es, s => .done (f e s).1 es (f e s).2

/-- What the program reads of its own state. -/
def gets (f : σ → α) : Prog σ ε α := fun es s => .done (f s) es s

/-- What the program does to its own state. -/
def modify (f : σ → σ) : Prog σ ε Unit := fun es s => .done () es (f s)

end Prog

variable {σ ε : Type*} {α β : Type w} {P P' : σ → Prop} {C : σ → Prop}

/-! ### What holds at the end and wherever the program is killed -/

/-- From `P`, `p` returns in `Q` or is killed in `C`. -/
def Triple (P : σ → Prop) (p : Prog σ ε α) (Q : α → σ → Prop) (C : σ → Prop) : Prop :=
  ∀ es s, P s →
    match p es s with
    | .done a _ t => Q a t
    | .killed t => C t

namespace Triple

variable {p : Prog σ ε α} {Q Q' : α → σ → Prop} {R : β → σ → Prop}

theorem conseq (h : Triple P p Q C) (hP : ∀ s, P' s → P s) (hQ : ∀ a s, Q a s → Q' a s) : Triple P' p Q' C := by
  intro es s hs
  have hrun := h es s (hP s hs)
  split at hrun
  · exact hQ _ _ hrun
  · exact hrun

theorem ret (a : α) (h : ∀ s, P s → Q a s) : Triple P (pure a : Prog σ ε α) Q C := fun _ s hs => h s hs

theorem bind {f : α → Prog σ ε β} (h : Triple P p Q C) (hf : ∀ a, Triple (Q a) (f a) R C) :
    Triple P (p >>= f) R C := by
  intro es s hs
  have hrun := h es s hs
  show match Prog.bind p f es s with
    | .done a _ t => R a t
    | .killed t => C t
  unfold Prog.bind
  cases hp : p es s with
  | done a rest t =>
    rw [hp] at hrun
    exact hf a rest t hrun
  | killed t =>
    rw [hp] at hrun
    exact hrun

theorem call {f : ε → σ → α × σ} (hC : ∀ s, P s → C s) (hf : ∀ e s, P s → Q (f e s).1 (f e s).2) :
    Triple P (Prog.call f) Q C := by
  intro es s hs
  cases es with
  | nil => exact hC s hs
  | cons e es => exact hf e s hs

theorem gets {f : σ → α} (h : ∀ s, P s → Q (f s) s) : Triple P (Prog.gets f : Prog σ ε α) Q C := fun _ s hs => h s hs

theorem modify {f : σ → σ} {Q : Unit → σ → Prop} (h : ∀ s, P s → Q () (f s)) :
    Triple P (Prog.modify f : Prog σ ε Unit) Q C := fun _ s hs => h s hs

theorem cond {b : Prop} [Decidable b] {q : Prog σ ε α} (hp : b → Triple P p Q C) (hq : ¬b → Triple P q Q C) :
    Triple P (if b then p else q) Q C := by
  split
  next hb => exact hp hb
  next hb => exact hq hb

theorem state (h : Triple P p (fun _ => C) C) {es : List ε} {s : σ} (hs : P s) : C (p es s).state := by
  have hrun := h es s hs
  cases hp : p es s with
  | done a rest t =>
    rw [hp] at hrun
    exact hrun
  | killed t =>
    rw [hp] at hrun
    exact hrun

end Triple

/-! ### When the program returns -/

/-- From `P`, `p` returns in `Q` if the replies meet `A` and there are at least `n`; it takes no more than that. -/
def Returns (n : ℕ) (A : ε → Prop) (P : σ → Prop) (p : Prog σ ε α) (Q : α → σ → Prop) : Prop :=
  ∀ es s, P s → (∀ e ∈ es, A e) → n ≤ es.length →
    ∃ a rest t, p es s = .done a rest t ∧ Q a t ∧ (∀ e ∈ rest, A e) ∧ es.length ≤ rest.length + n

namespace Returns

variable {A : ε → Prop} {n m : ℕ} {p : Prog σ ε α} {Q Q' : α → σ → Prop} {R : β → σ → Prop}

theorem conseq (h : Returns n A P p Q) (hP : ∀ s, P' s → P s) (hQ : ∀ a s, Q a s → Q' a s) (hn : n ≤ m) :
    Returns m A P' p Q' := by
  intro es s hs hes hlength
  obtain ⟨a, rest, t, hp, ht, hrest, hle⟩ := h es s (hP s hs) hes (by omega)
  exact ⟨a, rest, t, hp, hQ a t ht, hrest, by omega⟩

theorem ret (a : α) (h : ∀ s, P s → Q a s) : Returns 0 A P (pure a : Prog σ ε α) Q :=
  fun es s hs hes _ => ⟨a, es, s, rfl, h s hs, hes, Nat.le_refl _⟩

theorem bind {f : α → Prog σ ε β} (h : Returns n A P p Q) (hf : ∀ a, Returns m A (Q a) (f a) R) :
    Returns (n + m) A P (p >>= f) R := by
  intro es s hs hes hlength
  obtain ⟨a, rest, t, hp, ht, hrest, hle⟩ := h es s hs hes (by omega)
  obtain ⟨b, rest', u, hf', hu, hrest', hle'⟩ := hf a rest t ht hrest (by omega)
  refine ⟨b, rest', u, ?_, hu, hrest', by omega⟩
  show Prog.bind p f es s = _
  unfold Prog.bind
  rw [hp]
  exact hf'

theorem call {f : ε → σ → α × σ} (hf : ∀ e s, A e → P s → Q (f e s).1 (f e s).2) : Returns 1 A P (Prog.call f) Q := by
  intro es s hs hes hlength
  cases es with
  | nil => exact absurd hlength (by simp)
  | cons e es =>
    exact ⟨_, es, _, rfl, hf e s (hes e List.mem_cons_self) hs, fun e he => hes e (List.mem_cons_of_mem _ he),
      Nat.le_refl _⟩

theorem gets {f : σ → α} (h : ∀ s, P s → Q (f s) s) : Returns 0 A P (Prog.gets f : Prog σ ε α) Q :=
  fun es s hs hes _ => ⟨_, es, s, rfl, h s hs, hes, Nat.le_refl _⟩

theorem modify {f : σ → σ} {Q : Unit → σ → Prop} (h : ∀ s, P s → Q () (f s)) :
    Returns 0 A P (Prog.modify f : Prog σ ε Unit) Q :=
  fun es s hs hes _ => ⟨_, es, _, rfl, h s hs, hes, Nat.le_refl _⟩

end Returns

end MidnightSun.Lib.Crash
