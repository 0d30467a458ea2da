import Mathlib.Data.List.Basic
import Mathlib.Data.List.Induction

/-!
# Runs of a labelled transition system

A system is a relation `step : σ → α → σ → Prop`.  `Run step s as t` says that the labels `as`, in this order, lead
from `s` to `t`.  The rules below are the only inductions on runs in the development:

* `Run.invariant`: what every step preserves holds at the end of every run;
* `Run.invariant_where`: the same when the steps are restricted to those that meet a guard (`Guarded`);
* `run_safe_iff`, `run_safe_where_iff`, `run_frame_iff`, `run_guarded_iff`: when exactly all states of a run are safe, a
  run leaves an observation alone, or ends acceptably.
-/

namespace MidnightSun.Lib

variable {σ τ α β : Type*} {step : σ → α → σ → Prop}

/-- The labels `as` lead from `s` to `t`. -/
inductive Run (step : σ → α → σ → Prop) : σ → List α → σ → Prop
  | nil {s : σ} : Run step s [] s
  | snoc {s t u : σ} {as : List α} {a : α} : Run step s as t → step t a u → Run step s (as ++ [a]) u

/-- The steps of `step` whose source state and label meet the guard `G`. -/
def Guarded (step : σ → α → σ → Prop) (G : σ → α → Prop) (s : σ) (a : α) (t : σ) : Prop :=
  G s a ∧ step s a t

namespace Run

theorem single {s t : σ} {a : α} (h : step s a t) : Run step s [a] t := Run.nil.snoc h

theorem trans {s t u : σ} {as bs : List α} (h₁ : Run step s as t) (h₂ : Run step t bs u) :
    Run step s (as ++ bs) u := by
  induction h₂ with
  | nil => simpa using h₁
  | snoc _ hstep ih =>
    rw [← List.append_assoc]
    exact ih.snoc hstep

theorem cons {s t u : σ} {a : α} {as : List α} (h₂ : Run step t as u) (h₁ : step s a t) :
    Run step s (a :: as) u := (single h₁).trans h₂

/-- **Invariant rule.**  What holds at the start and is preserved by every step holds at the end. -/
theorem invariant {I : σ → Prop} (hstep : ∀ s a t, I s → step s a t → I t) {s t : σ} {as : List α}
    (h : Run step s as t) (hs : I s) : I t := by
  induction h with
  | nil => exact hs
  | snoc _ ht ih => exact hstep _ _ _ ih ht

theorem invariant_where {I : σ → Prop} {G : σ → α → Prop}
    (hstep : ∀ s a t, I s → G s a → step s a t → I t) {s t : σ} {as : List α}
    (h : Run (Guarded step G) s as t) (hs : I s) : I t :=
  h.invariant (fun s a t hI hst => hstep s a t hI hst.1 hst.2) hs

theorem invariant_labels {I : List α → σ → Prop} {s : σ} (hnil : I [] s)
    (hstep : ∀ as t a u, Run step s as t → I as t → step t a u → I (as ++ [a]) u) {t : σ} {as : List α}
    (h : Run step s as t) : I as t := by
  induction h with
  | nil => exact hnil
  | snoc hrun ht ih => exact hstep _ _ _ _ hrun ih ht

theorem mono {step' : σ → α → σ → Prop} (hstep : ∀ s a t, step s a t → step' s a t) {s t : σ} {as : List α}
    (h : Run step s as t) : Run step' s as t := by
  induction h with
  | nil => exact Run.nil
  | snoc _ ht ih => exact ih.snoc (hstep _ _ _ ht)

theorem of_guarded {G : σ → α → Prop} {s t : σ} {as : List α} (h : Run (Guarded step G) s as t) :
    Run step s as t := h.mono fun _ _ _ h => h.2

theorem guarded {G : σ → α → Prop} {s t : σ} {as : List α} (h : Run step s as t) (hG : ∀ a ∈ as, ∀ s, G s a) :
    Run (Guarded step G) s as t := by
  induction h with
  | nil => exact Run.nil
  | snoc _ ht ih =>
    exact (ih fun a ha => hG a (List.mem_append_left _ ha)).snoc
      ⟨hG _ (List.mem_append_right _ (List.mem_singleton_self _)) _, ht⟩

end Run

/-! ### The last step of a run -/

theorem run_nil_iff {step : σ → α → σ → Prop} {s t : σ} : Run step s [] t ↔ t = s := by
  constructor
  · intro h
    generalize hl : ([] : List α) = l at h
    cases h with
    | nil => rfl
    | snoc _ _ => simp at hl
  · rintro rfl
    exact Run.nil

theorem run_snoc_iff {step : σ → α → σ → Prop} {s u : σ} {as : List α} {a : α} :
    Run step s (as ++ [a]) u ↔ ∃ t, Run step s as t ∧ step t a u := by
  constructor
  · intro h
    generalize hl : as ++ [a] = l at h
    cases h with
    | nil => simp at hl
    | snoc hrun hstep =>
      obtain ⟨rfl, ha⟩ := List.append_inj' hl rfl
      obtain rfl : a = _ := by simpa using ha
      exact ⟨_, hrun, hstep⟩
  · rintro ⟨t, hrun, hstep⟩
    exact hrun.snoc hstep

/-! ### Systems given by a function -/

/-- The relation of a total step function. -/
def ofFun (f : σ → α → σ) (s : σ) (a : α) (t : σ) : Prop := t = f s a

theorem run_ofFun (f : σ → α → σ) (s : σ) (as : List α) : Run (ofFun f) s as (as.foldl f s) := by
  induction as using List.reverseRecOn with
  | nil => exact Run.nil
  | append_singleton as a ih =>
    rw [List.foldl_append]
    exact ih.snoc rfl

/-- The relation of a step function that is not enabled everywhere. -/
def ofPartial (f : σ → α → Option σ) (s : σ) (a : α) (t : σ) : Prop := f s a = some t

theorem run_ofPartial_unique {f : σ → α → Option σ} {s t u : σ} {as : List α} (ht : Run (ofPartial f) s as t)
    (hu : Run (ofPartial f) s as u) : t = u := by
  induction ht generalizing u with
  | nil => exact (run_nil_iff.mp hu).symm
  | snoc _ hstep ih =>
    obtain ⟨t', hrun, hstep'⟩ := run_snoc_iff.mp hu
    obtain rfl := ih hrun
    exact Option.some.inj (hstep.symm.trans hstep')

/-- The states on the way of a guarded run are reached by guarded runs. -/
theorem Run.guarded_prefix {f : σ → α → Option σ} {G : σ → α → Prop} {s t u : σ} {as bs : List α}
    (h : Run (Guarded (ofPartial f) G) s (as ++ bs) t) (hu : Run (ofPartial f) s as u) :
    Run (Guarded (ofPartial f) G) s as u := by
  induction bs using List.reverseRecOn generalizing t with
  | nil =>
    rw [List.append_nil] at h
    obtain rfl := run_ofPartial_unique hu h.of_guarded
    exact h
  | append_singleton bs b ih =>
    rw [← List.append_assoc] at h
    obtain ⟨v, hv, -⟩ := run_snoc_iff.mp h
    exact ih hv

/-- **Exact safety rule for an invariant of the guarded runs.**  Where `I` makes a state safe and is preserved by the
steps that meet the guard, and no other step from a state with `I` leads to a safe state, all states of a run are safe
exactly if all its steps meet the guard. -/
theorem run_safe_where_iff {f : σ → α → Option σ} {I P : σ → Prop} {G : σ → α → Prop} (hsafe : ∀ s, I s → P s)
    (hinv : ∀ s a t, I s → G s a → f s a = some t → I t) (hguard : ∀ s a t, I s → f s a = some t → P t → G s a)
    {s t : σ} {as : List α} (hs : I s) (h : Run (ofPartial f) s as t) :
    (∀ bs cs u, as = bs ++ cs → Run (ofPartial f) s bs u → P u) ↔ Run (Guarded (ofPartial f) G) s as t := by
  constructor
  · intro hall
    induction h with
    | nil => exact Run.nil
    | @snoc t u as a hrun ht ih =>
      have hG := ih fun bs cs v hbs hv => hall bs (cs ++ [a]) v (by simp [hbs]) hv
      have hIt : I t := hG.invariant_where hinv hs
      have hPu := hall (as ++ [a]) [] u (by simp) (hrun.snoc ht)
      exact hG.snoc ⟨hguard t a u hIt ht hPu, ht⟩
  · rintro hG bs cs u rfl hu
    exact hsafe u ((hG.guarded_prefix hu).invariant_where hinv hs)

/-- **Exact safety rule.**  Where a step that keeps the invariant `I` leads from a safe state to a safe one exactly if
the guard holds, all states of a run are safe exactly if all its steps meet the guard. -/
theorem run_safe_iff {f : σ → α → Option σ} {I P : σ → Prop} {G : σ → α → Prop}
    (hinv : ∀ s a t, I s → f s a = some t → I t)
    (hstep : ∀ s a t, I s → P s → f s a = some t → (P t ↔ G s a)) {s t : σ} {as : List α} (hI : I s) (hP : P s)
    (h : Run (ofPartial f) s as t) :
    (∀ bs cs u, as = bs ++ cs → Run (ofPartial f) s bs u → P u) ↔ Run (Guarded (ofPartial f) G) s as t := by
  refine run_safe_where_iff (I := fun s => I s ∧ P s) (fun _ hs => hs.2) ?_ ?_ ⟨hI, hP⟩ h
  · intro s a t hs hG hst
    exact ⟨hinv s a t hs.1 hst, (hstep s a t hs.1 hs.2 hst).mpr hG⟩
  · intro s a t hs hst hPt
    exact (hstep s a t hs.1 hs.2 hst).mp hPt

/-- **Exact frame rule.**  Where a step leaves `o` alone exactly if the guard holds, a run leaves it alone at every
point exactly if all its steps meet the guard. -/
theorem run_frame_iff {f : σ → α → Option σ} {o : σ → β} {G : σ → α → Prop}
    (hstep : ∀ s a t, f s a = some t → (o t = o s ↔ G s a)) {s t : σ} {as : List α} (h : Run (ofPartial f) s as t) :
    (∀ bs cs u, as = bs ++ cs → Run (ofPartial f) s bs u → o u = o s) ↔ Run (Guarded (ofPartial f) G) s as t := by
  refine run_safe_iff (I := fun _ => True) (P := fun u => o u = o s) (fun _ _ _ _ _ => trivial)
    (fun u a v _ hu hv => ?_) trivial rfl h
  rw [← hu]
  exact hstep u a v hv

/-- Where what has happened so far is acceptable exactly if it was so before and the step meets the guard, a run ends
acceptably exactly if all its steps meet the guard. -/
theorem run_guarded_iff {f : σ → α → Option σ} {P : σ → Prop} {G : σ → α → Prop}
    (hstep : ∀ s a t, f s a = some t → (P t ↔ P s ∧ G s a)) {s t : σ} {as : List α} (hP : P s)
    (h : Run (ofPartial f) s as t) : P t ↔ Run (Guarded (ofPartial f) G) s as t := by
  induction h with
  | nil => exact ⟨fun _ => Run.nil, fun _ => hP⟩
  | @snoc t u as a hrun ht ih =>
    rw [hstep t a u ht, ih]
    constructor
    · rintro ⟨hrun', hG⟩
      exact hrun'.snoc ⟨hG, ht⟩
    · intro hrun'
      obtain ⟨t', hrun'', hG, -⟩ := run_snoc_iff.mp hrun'
      obtain rfl := run_ofPartial_unique hrun''.of_guarded hrun
      exact ⟨hrun'', hG⟩

theorem of_ite_some {p : Prop} [Decidable p] {s t : σ} (h : (if p then some s else none) = some t) : p ∧ s = t := by
  split at h
  next hp => exact ⟨hp, Option.some.inj h⟩
  next => cases h

/-- The labels executed one after the other, as long as the guard holds and the step is enabled. -/
def execWhere (f : σ → α → Option σ) (G : σ → α → Prop) [∀ s a, Decidable (G s a)] : σ → List α → Option σ
  | s, [] => some s
  | s, a :: as => if G s a then (f s a).bind fun t => execWhere f G t as else none

theorem run_execWhere {f : σ → α → Option σ} {G : σ → α → Prop} [∀ s a, Decidable (G s a)] {s t : σ}
    {as : List α} (h : execWhere f G s as = some t) : Run (Guarded (ofPartial f) G) s as t := by
  induction as generalizing s with
  | nil =>
    obtain rfl := Option.some.inj h
    exact Run.nil
  | cons a as ih =>
    unfold execWhere at h
    split at h
    next hG =>
      obtain ⟨u, hu, hrest⟩ := Option.bind_eq_some_iff.mp h
      exact (ih hrest).cons ⟨hG, hu⟩
    · cases h

theorem exists_run_execWhere {f : σ → α → Option σ} {G : σ → α → Prop} [∀ s a, Decidable (G s a)] {s : σ}
    {l : List α} (h : (execWhere f G s l).isSome = true) :
    Run (Guarded (ofPartial f) G) s l ((execWhere f G s l).get h) :=
  run_execWhere (Option.some_get h).symm

theorem exists_run_execWhere_and {f : σ → α → Option σ} {G : σ → α → Prop} [∀ s a, Decidable (G s a)] {s : σ}
    {l : List α} {P : σ → Prop} [DecidablePred P] (h : ((execWhere f G s l).any fun t => decide (P t)) = true) :
    ∃ t, Run (Guarded (ofPartial f) G) s l t ∧ P t := by
  obtain ⟨t, ht, hP⟩ := (Option.any_eq_true _ _).mp h
  exact ⟨t, run_execWhere ht, of_decide_eq_true hP⟩

end MidnightSun.Lib
