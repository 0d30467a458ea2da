import MidnightSun.Lib.Brackets
import MidnightSun.Util.Decimal

/-!
# `nlohmann::json`

A value and its compact dump.  The text of a `double` is a parameter, and the members of an object come in the order of
`items()`.
-/

namespace MidnightSun

namespace Nlohmann

open Util Lib

variable {F : Type}

inductive Json (F : Type) where
  | null
  | boolean (b : Bool)
  | integer (n : ℤ)
  | float (x : F)
  | string (s : Str)
  | array (elements : List (Json F))
  | object (members : List (Str × Json F))

/-- A hexadecimal digit of an escape. -/
def hexDigit (d : ℕ) : UInt8 := if d < 10 then (48 + d).toUInt8 else (87 + d).toUInt8

/-- A byte of a string: quotes, backslashes and control characters are escaped. -/
def escape (c : UInt8) : Str :=
  if c = 8 then str "\\b"
  else if c = 9 then str "\\t"
  else if c = 10 then str "\\n"
  else if c = 12 then str "\\f"
  else if c = 13 then str "\\r"
  else if c = 34 then str "\\\""
  else if c = 92 then str "\\\\"
  else if c < 32 then str "\\u00" ++ [hexDigit (c.toNat / 16), hexDigit (c.toNat % 16)]
  else [c]

def quote (s : Str) : Str := 34 :: s.flatMap escape ++ [34]

/-- The texts with commas between them. -/
def commas : List Str → Str
  | [] => []
  | [t] => t
  | t :: t' :: ts => t ++ 44 :: commas (t' :: ts)

namespace Json

variable (dumpFloat : F → Str)

mutual

/-- `dump()`. -/
def dump : Json F → Str
  | null => str "null"
  | boolean b => if b then str "true" else str "false"
  | integer n => decimal n
  | float x => dumpFloat x
  | string s => quote s
  | array es => 91 :: commas (dumpElements es) ++ [93]
  | object ms => 123 :: commas (dumpMembers ms) ++ [125]

def dumpElements : List (Json F) → List Str
  | [] => []
  | e :: es => dump e :: dumpElements es

def dumpMembers : List (Str × Json F) → List Str
  | [] => []
  | (k, v) :: ms => (quote k ++ 58 :: dump v) :: dumpMembers ms

end

/-! ### What a dump has of its own -/

mutual

/-- The bytes of the strings, the keys and the `double`s in a value. -/
def inner : Json F → Str
  | null => []
  | boolean _ => []
  | integer _ => []
  | float x => dumpFloat x
  | string s => s
  | array es => innerElements es
  | object ms => innerMembers ms

def innerElements : List (Json F) → Str
  | [] => []
  | e :: es => inner e ++ innerElements es

def innerMembers : List (Str × Json F) → Str
  | [] => []
  | (k, v) :: ms => k ++ inner v ++ innerMembers ms

end

/-- Escapes, digits and the words of the language have no such byte. -/
def Foreign (x : UInt8) : Prop := x = 35 ∨ x = 91 ∨ x = 93

lemma not_mem_escape {x : UInt8} (hx : Foreign x) {c : UInt8} (hne : x ≠ c) : x ∉ escape c := by
  have hdigit : ∀ d < 16, hexDigit d ≠ x := by
    rcases hx with rfl | rfl | rfl <;> decide
  unfold escape
  split_ifs
  all_goals try (rcases hx with rfl | rfl | rfl <;> decide)
  · have hc : c.toNat < 256 := c.toNat_lt
    have hhi := hdigit (c.toNat / 16) (by omega)
    have hlo := hdigit (c.toNat % 16) (by omega)
    have hlit : x ∉ str "\\u00" := by
      rcases hx with rfl | rfl | rfl <;> decide
    simp [hlit, hhi.symm, hlo.symm]
  · simpa using hne

lemma not_mem_quote {x : UInt8} (hx : Foreign x) {s : Str} (hs : x ∉ s) : x ∉ quote s := by
  have hquote : x ≠ 34 := by
    rcases hx with rfl | rfl | rfl <;> decide
  have hflat : x ∉ s.flatMap escape := by
    rw [List.mem_flatMap]
    rintro ⟨c, hc, hmem⟩
    exact not_mem_escape hx (fun heq => hs (heq ▸ hc)) hmem
  simp [quote, hquote, hflat]

/-- A text without comments whose brackets belong together. -/
def Harmless (t : Str) : Prop := 35 ∉ t ∧ Balanced 91 93 t

lemma Harmless.nil : Harmless [] := ⟨List.not_mem_nil, Balanced.nil⟩

lemma Harmless.append {t t' : Str} (h : Harmless t) (h' : Harmless t') : Harmless (t ++ t') :=
  ⟨by simp [h.1, h'.1], h.2.append h'.2⟩

lemma Harmless.of_forall {t : Str} (h : ∀ x, Foreign x → x ∉ t) : Harmless t :=
  ⟨h 35 (Or.inl rfl), Balanced.of_not_mem (h 91 (Or.inr (Or.inl rfl))) (h 93 (Or.inr (Or.inr rfl)))⟩

lemma Harmless.cons {c : UInt8} (hc : ¬Foreign c) {t : Str} (h : Harmless t) : Harmless (c :: t) := by
  have hone : Harmless [c] := Harmless.of_forall fun x hx hmem => hc (List.mem_singleton.mp hmem ▸ hx)
  exact hone.append h

lemma harmless_commas {ts : List Str} (h : ∀ t ∈ ts, Harmless t) : Harmless (commas ts) := by
  induction ts using commas.induct with
  | case1 => exact Harmless.nil
  | case2 t => exact h t (List.mem_singleton_self t)
  | case3 t t' ts ih =>
    have hrest := ih fun u hu => h u (List.mem_cons_of_mem t hu)
    exact (h t List.mem_cons_self).append (hrest.cons (by simp [Foreign]))

lemma harmless_decimal (n : ℤ) : Harmless (decimal n) := by
  apply Harmless.of_forall
  intro x hx hmem
  rcases mem_decimal hmem with rfl | ⟨d, hd, rfl⟩
  · simp [Foreign] at hx
  · have hall : ∀ d < 10, ¬Foreign (digit d) := by
      unfold Foreign
      decide
    exact hall d hd hx

lemma harmless_word {t : Str} (h : t ∈ [str "null", str "true", str "false"]) : Harmless t := by
  have hall : ∀ t ∈ [str "null", str "true", str "false"], ∀ x ∈ [(35 : UInt8), 91, 93], x ∉ t := by decide +kernel
  apply Harmless.of_forall
  rintro x (rfl | rfl | rfl)
  · exact hall t h 35 (by simp)
  · exact hall t h 91 (by simp)
  · exact hall t h 93 (by simp)

mutual

/-- **What a value dumps is harmless** if its strings, its keys and its `double`s have no `#` and no square bracket. -/
theorem harmless_dump : ∀ j : Json F, (∀ x, Foreign x → x ∉ inner dumpFloat j) → Harmless (dump dumpFloat j)
  | null, _ => harmless_word (by simp [dump])
  | boolean true, _ => harmless_word (by simp [dump])
  | boolean false, _ => harmless_word (by simp [dump])
  | integer n, _ => harmless_decimal n
  | float x, h => Harmless.of_forall h
  | string s, h => Harmless.of_forall fun x hx => not_mem_quote hx (h x hx)
  | array es, h => by
    obtain ⟨hcomment, hbalanced⟩ := harmless_commas (harmless_dumpElements es h)
    refine ⟨?_, hbalanced.wrap (by decide)⟩
    simpa [dump] using hcomment
  | object ms, h => by
    have hclose : Harmless [125] := Harmless.nil.cons (by simp [Foreign])
    exact ((harmless_commas (harmless_dumpMembers ms h)).append hclose).cons (by simp [Foreign])

theorem harmless_dumpElements : ∀ es : List (Json F), (∀ x, Foreign x → x ∉ innerElements dumpFloat es) →
    ∀ t ∈ dumpElements dumpFloat es, Harmless t
  | [], _ => fun _ ht => absurd ht List.not_mem_nil
  | e :: es, h => by
    have hsplit : ∀ x, Foreign x → x ∉ inner dumpFloat e ∧ x ∉ innerElements dumpFloat es := fun x hx => by
      simpa [innerElements] using h x hx
    intro t ht
    rcases List.mem_cons.mp ht with rfl | ht
    · exact harmless_dump e fun x hx => (hsplit x hx).1
    · exact harmless_dumpElements es (fun x hx => (hsplit x hx).2) t ht

theorem harmless_dumpMembers : ∀ ms : List (Str × Json F), (∀ x, Foreign x → x ∉ innerMembers dumpFloat ms) →
    ∀ t ∈ dumpMembers dumpFloat ms, Harmless t
  | [], _ => fun _ ht => absurd ht List.not_mem_nil
  | (k, v) :: ms, h => by
    have hsplit : ∀ x, Foreign x → x ∉ k ∧ x ∉ inner dumpFloat v ∧ x ∉ innerMembers dumpFloat ms := fun x hx => by
      simpa [innerMembers, and_assoc] using h x hx
    intro t ht
    rcases List.mem_cons.mp ht with rfl | ht
    · have hkey : Harmless (quote k) := Harmless.of_forall fun x hx => not_mem_quote hx (hsplit x hx).1
      have hvalue := harmless_dump v fun x hx => (hsplit x hx).2.1
      exact hkey.append (hvalue.cons (by simp [Foreign]))
    · exact harmless_dumpMembers ms (fun x hx => (hsplit x hx).2.2) t ht

end

end Json

end Nlohmann

end MidnightSun
