import Mathlib.Data.List.Basic
import Mathlib.Data.List.Induction

/-!
# Properties of a log that look back

`Always P log` says that every entry of the log meets `P` together with the entries before it.
-/

namespace MidnightSun.Lib

variable {α : Type*} {P : List α → α → Prop}

def Always (P : List α → α → Prop) (log : List α) : Prop :=
  ∀ before x after, log = before ++ x :: after → P before x

theorem always_nil : Always P [] := by
  intro before x after h
  simp at h

theorem always_snoc {log : List α} {x : α} : Always P (log ++ [x]) ↔ Always P log ∧ P log x := by
  constructor
  · intro h
    refine ⟨fun before y after hy => h before y (after ++ [x]) (by simp [hy]), h log x [] rfl⟩
  · rintro ⟨h, hx⟩ before y after heq
    rcases List.eq_nil_or_concat after with rfl | ⟨after', z, rfl⟩
    · obtain ⟨rfl, hxy⟩ := List.append_inj' heq rfl
      obtain rfl : x = y := by simpa using hxy
      exact hx
    · have heq' : log ++ [x] = (before ++ y :: after') ++ [z] := by simpa using heq
      obtain ⟨hlog, -⟩ := List.append_inj' heq' rfl
      exact h before y after' hlog

theorem Always.getElem? {log : List α} (h : Always P log) {k : ℕ} {x : α} (hx : log[k]? = some x) :
    P (log.take k) x := by
  obtain ⟨hk, rfl⟩ := List.getElem?_eq_some_iff.mp hx
  refine h (log.take k) log[k] (log.drop (k + 1)) ?_
  rw [List.getElem_cons_drop, List.take_append_drop]

theorem always_append {log new : List α} (h : Always P log)
    (hnew : ∀ before x after, new = before ++ x :: after → P (log ++ before) x) : Always P (log ++ new) := by
  induction new using List.reverseRecOn with
  | nil => simpa using h
  | append_singleton new x ih =>
    rw [← List.append_assoc, always_snoc]
    refine ⟨ih fun before y after hy => hnew before y (after ++ [x]) (by simp [hy]), hnew new x [] rfl⟩

end MidnightSun.Lib
