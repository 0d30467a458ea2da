import Mathlib.Data.List.Basic
import Mathlib.Logic.Function.Basic

/-!
# Descriptors and what is held on them

A process opens and closes descriptors, and acquires and releases resources on them.  A table says what is open and what
is held; an operation that makes no sense for the table is a fault: a call on a descriptor that is not open, a release of
what is not held, and the closing of a descriptor on which something is still held.  A list of operations without a fault
that leads from the empty table back to it acquires nothing that it does not release once.
-/

namespace MidnightSun.Lib

variable {F R : Type*}

inductive DescriptorOp (F R : Type*) where
  | opens (f : F)
  /-- any other call on the descriptor -/
  | uses (f : F)
  | acquires (f : F) (r : R)
  | releases (f : F) (r : R)
  | closes (f : F)
  deriving DecidableEq

/-- For an open descriptor, the resources held on it. -/
abbrev Table (F R : Type*) := F → Option (List R)

def Table.empty : Table F R := fun _ => none

variable [DecidableEq F] {f : F} {r : R} {rs : List R} {t : Table F R}

/-- One descriptor is open. -/
def Table.single (f : F) (rs : List R) : Table F R := Function.update Table.empty f (some rs)

@[simp] lemma single_self (f : F) (rs : List R) : Table.single f rs f = some rs := Function.update_self ..

@[simp] lemma update_single (f : F) (rs rs' : List R) :
    Function.update (Table.single f rs) f (some rs') = Table.single f rs' := Function.update_idem ..

variable [DecidableEq R]

/-- The table after an operation; `none` is a fault. -/
def DescriptorOp.apply (t : Table F R) : DescriptorOp F R → Option (Table F R)
  | opens f => if t f = none then some (Function.update t f (some [])) else none
  | uses f => (t f).map fun _ => t
  | acquires f r => (t f).bind fun rs => if r ∈ rs then none else some (Function.update t f (some (r :: rs)))
  | releases f r => (t f).bind fun rs => if r ∈ rs then some (Function.update t f (some (rs.erase r))) else none
  | closes f => if t f = some [] then some (Function.update t f none) else none

/-- The table after operations. -/
def replay (t : Table F R) (ops : List (DescriptorOp F R)) : Option (Table F R) :=
  ops.foldlM DescriptorOp.apply t

@[simp] lemma replay_nil (t : Table F R) : replay t [] = some t := rfl

lemma replay_cons (t : Table F R) (op : DescriptorOp F R) (ops : List (DescriptorOp F R)) :
    replay t (op :: ops) = (op.apply t).bind fun u => replay u ops := rfl

theorem replay_append (t : Table F R) (ops ops' : List (DescriptorOp F R)) :
    replay t (ops ++ ops') = (replay t ops).bind fun u => replay u ops' := List.foldlM_append

lemma replay_append_of_eq {t u : Table F R} {ops : List (DescriptorOp F R)} (h : replay t ops = some u)
    (ops' : List (DescriptorOp F R)) : replay t (ops ++ ops') = replay u ops' := by
  rw [replay_append, h, Option.bind_some]

/-! ### A single descriptor -/

@[simp] lemma apply_opens (f : F) :
    (DescriptorOp.opens f).apply (Table.empty : Table F R) = some (Table.single f []) := rfl

@[simp] lemma apply_uses (f : F) (rs : List R) :
    (DescriptorOp.uses f).apply (Table.single f rs) = some (Table.single f rs) := by
  rw [DescriptorOp.apply, single_self, Option.map_some]

lemma apply_acquires (h : r ∉ rs) :
    (DescriptorOp.acquires f r).apply (Table.single f rs) = some (Table.single f (r :: rs)) := by
  rw [DescriptorOp.apply, single_self, Option.bind_some, if_neg h, update_single]

@[simp] lemma apply_releases_head (f : F) (r : R) (rs : List R) :
    (DescriptorOp.releases f r).apply (Table.single f (r :: rs)) = some (Table.single f rs) := by
  rw [DescriptorOp.apply, single_self, Option.bind_some, if_pos List.mem_cons_self, List.erase_cons_head, update_single]

@[simp] lemma apply_closes (f : F) :
    (DescriptorOp.closes f).apply (Table.single f ([] : List R)) = some Table.empty := by
  rw [DescriptorOp.apply, if_pos (single_self f []), Table.single, Function.update_idem]
  exact congrArg some (Function.update_eq_self f Table.empty)

lemma replay_uses {ops : List (DescriptorOp F R)} (h : ∀ op ∈ ops, op = .uses f) (rs : List R) :
    replay (Table.single f rs) ops = some (Table.single f rs) := by
  induction ops with
  | nil => rfl
  | cons op ops ih =>
    rw [replay_cons, h op List.mem_cons_self, apply_uses, Option.bind_some]
    exact ih fun x hx => h x (List.mem_cons_of_mem _ hx)

end MidnightSun.Lib
