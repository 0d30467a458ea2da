import Mathlib.Data.List.Basic
import Mathlib.Data.List.Perm.Basic

/-!
# Scanning a list for an acceptance

A scan asks one element after the other and stops at the first verdict that decides: `accept` ends it with `true`,
`reject` with `false`, `pass` goes on.  It finds every acceptance exactly when no rejection can come first.
-/

namespace MidnightSun.Lib

open List

inductive Verdict where
  | accept
  | reject
  | pass
  deriving DecidableEq, Repr

variable {α : Type*} (f : α → Verdict)

def scan : List α → Bool
  | [] => false
  | x :: xs =>
    match f x with
    | .accept => true
    | .reject => false
    | .pass => scan xs

variable {f}

theorem scan_cons_accept {x : α} (h : f x = .accept) (xs : List α) : scan f (x :: xs) = true := by simp [scan, h]

theorem scan_cons_reject {x : α} (h : f x = .reject) (xs : List α) : scan f (x :: xs) = false := by simp [scan, h]

theorem scan_cons_pass {x : α} (h : f x = .pass) (xs : List α) : scan f (x :: xs) = scan f xs := by simp [scan, h]

/-- A scan is sound: it accepts on behalf of an element. -/
theorem exists_accept_of_scan {xs : List α} (h : scan f xs = true) : ∃ x ∈ xs, f x = .accept := by
  induction xs with
  | nil => simp [scan] at h
  | cons x xs ih =>
    cases hx : f x with
    | accept => exact ⟨x, by simp, hx⟩
    | reject => simp [scan_cons_reject hx] at h
    | pass =>
      rw [scan_cons_pass hx] at h
      obtain ⟨y, hy, hacc⟩ := ih h
      exact ⟨y, List.mem_cons_of_mem _ hy, hacc⟩

/-- Without a rejection a scan is complete. -/
theorem scan_of_accept {xs : List α} (hrej : ∀ x ∈ xs, f x ≠ .reject) {x : α} (hx : x ∈ xs) (hacc : f x = .accept) :
    scan f xs = true := by
  induction xs with
  | nil => cases hx
  | cons y ys ih =>
    cases hy : f y with
    | accept => exact scan_cons_accept hy ys
    | reject => exact absurd hy (hrej y (by simp))
    | pass =>
      have hne : x ≠ y := by
        rintro rfl
        rw [hacc] at hy
        cases hy
      rw [scan_cons_pass hy]
      exact ih (fun z hz => hrej z (List.mem_cons_of_mem _ hz)) (List.mem_of_ne_of_mem hne hx)

/-- **Order-freeness.**  All orders of a list are scanned alike exactly if it has no acceptance or no rejection. -/
theorem scan_perm_iff (xs : List α) :
    (∀ ys, ys ~ xs → (scan f ys = true ↔ ∃ x ∈ xs, f x = .accept)) ↔
      (∀ x ∈ xs, f x ≠ .accept) ∨ ∀ x ∈ xs, f x ≠ .reject := by
  constructor
  · intro h
    by_contra hmix
    push Not at hmix
    obtain ⟨hacc, r, hr, hrej⟩ := hmix
    obtain ⟨zs, hzs⟩ : ∃ zs, r :: zs ~ xs := by
      obtain ⟨as, bs, rfl⟩ := List.append_of_mem hr
      exact ⟨as ++ bs, perm_middle.symm⟩
    have hfalse := scan_cons_reject hrej zs
    rw [(h _ hzs).mpr hacc] at hfalse
    cases hfalse
  · rintro h ys hys
    have hmem : ∀ x, x ∈ ys ↔ x ∈ xs := fun x => hys.mem_iff
    constructor
    · intro hscan
      obtain ⟨x, hx, hacc⟩ := exists_accept_of_scan hscan
      exact ⟨x, (hmem x).mp hx, hacc⟩
    · rintro ⟨x, hx, hacc⟩
      rcases h with hnone | hrej
      · exact absurd hacc (hnone x hx)
      · exact scan_of_accept (fun y hy => hrej y ((hmem y).mp hy)) ((hmem x).mpr hx) hacc

end MidnightSun.Lib
