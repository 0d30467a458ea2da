import Mathlib.Data.List.Basic

/-!
# `boost::property_tree::ptree`

The part of the property tree that the host uses: a node has a string and an ordered list of named children, names
may repeat, and a path walks to the first child of each name.  `Str` is `std::string`: a list of bytes.
-/

namespace MidnightSun

/-- `std::string`, byte by byte. -/
abbrev Str := List UInt8

instance : LawfulBEq Str := inferInstance

section Decide

variable {p : UInt8 → Prop} [DecidablePred p]

-- what holds of every character of a string is decided along the string, not over all bytes
instance decidableForallMemStr (s : Str) : Decidable (∀ c ∈ s, p c) := List.decidableBAll p s

instance decidableForallMemByte (ch : Option UInt8) : Decidable (∀ c ∈ ch, p c) := Option.decidableForallMem ch

end Decide

/-- The bytes of a string literal of the source. -/
def str (s : String) : Str := s.toList.map fun c => c.toNat.toUInt8

/-- `std::isspace`, in the C locale. -/
def isSpace (ch : UInt8) : Bool := ch = 32 || (9 ≤ ch && ch ≤ 13)

/-- `std::isdigit`. -/
def isDigit (ch : UInt8) : Bool := 48 ≤ ch && ch ≤ 57

namespace Boost

/-- `ptree`: its data and its named children, in order. -/
inductive Ptree where
  | node (data : Str) (children : List (String × Ptree))

namespace Ptree

def data : Ptree → Str
  | node d _ => d

def children : Ptree → List (String × Ptree)
  | node _ cs => cs

/-- The tree of the default constructor. -/
def empty : Ptree := node [] []

/-- A node with data and no children. -/
def leaf (d : Str) : Ptree := node d []

/-- The children with the first child named `k` changed by `f`; a missing child is appended empty first. -/
def setChild (k : String) (f : Ptree → Ptree) : List (String × Ptree) → List (String × Ptree)
  | [] => [(k, f empty)]
  | (k', t) :: cs => if k' = k then (k', f t) :: cs else (k', t) :: setChild k f cs

/-- `put(path, value)`: set the data at the path, creating what is missing. -/
def put : List String → Str → Ptree → Ptree
  | [], v, node _ cs => node v cs
  | k :: ks, v, node d cs => node d (setChild k (put ks v) cs)

/-- `add_child(path, tree)`: append the tree as a new child, creating the path to its parent. -/
def addChild : List String → Ptree → Ptree → Ptree
  | [], _, c => c
  | [k], node d cs, c => node d (cs ++ [(k, c)])
  | k :: ks, node d cs, c => node d (setChild k (fun t => addChild ks t c) cs)

/-- `push_back({"", tree})`. -/
def pushBack : Ptree → Ptree → Ptree
  | node d cs, c => node d (cs ++ [("", c)])

/-- `erase(key)`: remove every child of that name. -/
def erase (k : String) : Ptree → Ptree
  | node d cs => node d (cs.filter fun c => c.1 ≠ k)

/-- `get_child_optional(path)`. -/
def getChild? : List String → Ptree → Option Ptree
  | [], t => some t
  | k :: ks, node _ cs => (cs.lookup k).bind (getChild? ks)

/-- `count(key)` is non-zero. -/
def has (k : String) (t : Ptree) : Bool := (t.children.lookup k).isSome

/-- `get_optional<std::string>(path)`. -/
def get? (ks : List String) (t : Ptree) : Option Str := (t.getChild? ks).map data

/-- A boolean as the stream translator writes it. -/
def ofBool (b : Bool) : Str := if b then str "true" else str "false"

/-- A boolean as the stream translator reads it. -/
def toBool? (s : Str) : Option Bool :=
  let blank := fun c : UInt8 => c = 32 ∨ (9 ≤ c ∧ c ≤ 13)
  let t := ((s.dropWhile blank).reverse.dropWhile blank).reverse
  if t = str "true" ∨ t = str "1" then some true
  else if t = str "false" ∨ t = str "0" then some false
  else none

/-- `get<bool>(path, default)`. -/
def getBool (ks : List String) (dflt : Bool) (t : Ptree) : Bool := ((t.get? ks).bind toBool?).getD dflt

/-! ### Reading back what was written -/

theorem toBool?_ofBool (b : Bool) : toBool? (ofBool b) = some b := by cases b <;> decide

theorem lookup_cons_ite (k k' : String) (t : Ptree) (cs : List (String × Ptree)) :
    ((k', t) :: cs).lookup k = if k = k' then some t else cs.lookup k := by
  by_cases h : k = k'
  · subst h; simp
  · have hb : (k == k') = false := beq_false_of_ne h
    simp [List.lookup_cons, hb, h]

theorem lookup_setChild (k : String) (f : Ptree → Ptree) (cs : List (String × Ptree)) :
    (setChild k f cs).lookup k = some (f ((cs.lookup k).getD empty)) := by
  induction cs with
  | nil => simp [setChild]
  | cons c cs ih =>
    obtain ⟨k', t⟩ := c
    by_cases h : k' = k
    · subst h; simp [setChild]
    · simp [setChild, h, lookup_cons_ite, Ne.symm h, ih]

theorem lookup_setChild_of_ne {k j : String} (h : j ≠ k) (f : Ptree → Ptree) (cs : List (String × Ptree)) :
    (setChild k f cs).lookup j = cs.lookup j := by
  induction cs with
  | nil => simp [setChild, lookup_cons_ite, h]
  | cons c cs ih =>
    obtain ⟨k', t⟩ := c
    by_cases hk : k' = k
    · subst hk; simp [setChild, lookup_cons_ite, h]
    · simp only [setChild, if_neg hk, lookup_cons_ite, ih]

theorem lookup_erase (k : String) (cs : List (String × Ptree)) :
    (cs.filter fun c => c.1 ≠ k).lookup k = none := by
  induction cs with
  | nil => rfl
  | cons c cs ih =>
    by_cases h : c.1 = k
    · simpa [h] using ih
    · rw [List.filter_cons_of_pos (by simpa using h), lookup_cons_ite, if_neg (Ne.symm h)]
      exact ih

/-! ### What a change of one child leaves alone -/

/-- The children not named `k`, in order. -/
def others (k : String) (t : Ptree) : List (String × Ptree) := t.children.filter fun c => c.1 ≠ k

/-- The children named `k`, in order. -/
def named (k : String) (t : Ptree) : List (String × Ptree) := t.children.filter fun c => c.1 = k

theorem filter_setChild {p : String × Ptree → Bool} {k : String} (hp : ∀ t, p (k, t) = false) (f : Ptree → Ptree)
    (cs : List (String × Ptree)) : (setChild k f cs).filter p = cs.filter p := by
  induction cs with
  | nil => simp [setChild, hp]
  | cons c cs ih =>
    obtain ⟨k', t⟩ := c
    by_cases hk : k' = k
    · subst hk
      simp [setChild, hp]
    · rw [setChild, if_neg hk, List.filter_cons, List.filter_cons, ih]

theorem others_put (k : String) (ks : List String) (v : Str) (t : Ptree) :
    (put (k :: ks) v t).others k = t.others k := by
  obtain ⟨d, cs⟩ := t
  exact filter_setChild (by simp) _ cs

theorem others_addChild (k k' : String) (t c : Ptree) : (addChild [k, k'] t c).others k = t.others k := by
  obtain ⟨d, cs⟩ := t
  exact filter_setChild (by simp) _ cs

theorem others_erase (k : String) (t : Ptree) : (erase k t).others k = t.others k := by
  obtain ⟨d, cs⟩ := t
  simp [others, erase, children]

theorem named_put_of_ne {j k : String} (h : k ≠ j) (v : Str) (t : Ptree) : (put [k] v t).named j = t.named j := by
  obtain ⟨d, cs⟩ := t
  exact filter_setChild (by simp [h]) _ cs

theorem getChild?_put_of_ne {j k : String} (h : k ≠ j) (js : List String) (v : Str) (t : Ptree) :
    (put [k] v t).getChild? (j :: js) = t.getChild? (j :: js) := by
  obtain ⟨d, cs⟩ := t
  simp only [put, getChild?, lookup_setChild_of_ne (Ne.symm h)]

@[simp] theorem data_put (k : String) (ks : List String) (v : Str) (t : Ptree) :
    (put (k :: ks) v t).data = t.data := by cases t; rfl

@[simp] theorem data_addChild (k k' : String) (t c : Ptree) : (addChild [k, k'] t c).data = t.data := by cases t; rfl

@[simp] theorem data_erase (k : String) (t : Ptree) : (erase k t).data = t.data := by cases t; rfl

end Ptree

end Boost

end MidnightSun
