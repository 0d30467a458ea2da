import Mathlib.Data.List.GetD
import Mathlib.Data.List.TakeWhile
import MidnightSun.Boost.PropertyTree
import MidnightSun.Lib.Brackets

/-!
# Variables in commands (src/process.cpp, `find_match` and `parse_env_val`)

`$(NAME)` stands for the value of a variable and `$$` for a dollar.  The functions walk over the text with positions;
`Expands` is the grammar that they implement.  The byte behind the text, which `find_match` reads before it looks for
the end, is a parameter.
-/

namespace MidnightSun.Proc

open Lib

/-! ### The functions -/

/-- The loop of `find_match`, whose `begin` never passes the end. -/
def findMatchLoop (s : Str) (past : UInt8) (start : ℕ) (stack : ℤ) : ℕ :=
  let ch := s.getD start past
  let stack := if ch = 40 then stack + 1 else if ch = 41 then stack - 1 else stack
  if start < s.length ∧ stack ≠ 0 then findMatchLoop s past (start + 1) stack else start
termination_by s.length - start

/-- `find_match`; `none` is `std::out_of_range`. -/
def findMatch (s : Str) (past : UInt8) (start : ℕ) : Option ℕ :=
  let found := findMatchLoop s past start 0
  if found = s.length then none else some found

lemma le_findMatchLoop (s : Str) (past : UInt8) (start : ℕ) (stack : ℤ) :
    start ≤ findMatchLoop s past start stack := by
  fun_induction findMatchLoop s past start stack with
  | case1 _ _ _ _ _ ih => exact Nat.le_of_succ_le ih
  | case2 => exact Nat.le_refl _

lemma le_of_findMatch {s : Str} {past : UInt8} {start found : ℕ} (h : findMatch s past start = some found) :
    start ≤ found := by
  rw [findMatch] at h
  split_ifs at h
  rw [← Option.some.inj h]
  exact le_findMatchLoop s past start 0

/-- The text from one position to another. -/
def between (s : Str) (pos stop : ℕ) : Str := (s.drop pos).take (stop - pos)

/-- `std::find` of a dollar. -/
def findDollar (s : Str) (pos : ℕ) : ℕ := pos + ((s.drop pos).takeWhile fun ch => ch ≠ 36).length

/-- The loop of `parse_env_val`, with what has been written so far. -/
def parseLoop (env : Str → Str) (past : UInt8) (s : Str) (pos dollar : ℕ) (ss : Str) : Option Str :=
  if dollar < s.length then
    let next := dollar + 1
    if next < s.length then
      if s.getD next past = 40 then
        match _hmatch : findMatch s past next with
        | none => none
        | some varEnd =>
          let varName := between s (next + 1) varEnd
          parseLoop env past s (varEnd + 1) (findDollar s varEnd) (ss ++ between s pos dollar ++ env varName)
      else if s.getD next past = 36 then
        parseLoop env past s (next + 1) (findDollar s (next + 1)) (ss ++ between s pos next)
      else parseLoop env past s pos (findDollar s next) ss
    else parseLoop env past s pos next ss
  else some (ss ++ between s pos dollar)
termination_by s.length - dollar
decreasing_by
  · have hle := le_of_findMatch _hmatch
    rw [findDollar]
    omega
  · rw [findDollar]
    omega
  · rw [findDollar]
    omega
  · omega

/-- `parse_env_val`, where `env` gives `env[name].to_string()`. -/
def parseEnvVal (env : Str → Str) (past : UInt8) (s : Str) : Option Str :=
  parseLoop env past s 0 (findDollar s 0) []

/-! ### The grammar -/

/-- At the start of a text a piece is read, and something is left: `$$`, `$(NAME)` up to the parenthesis that belongs to
the opening one, or any other character. -/
inductive Token (env : Str → Str) : Str → Str → Str → Prop
  | dollar (rest : Str) : Token env (36 :: 36 :: rest) [36] rest
  | var (name rest : Str) (h : Closes 40 41 1 (name ++ [41])) :
    Token env (36 :: 40 :: (name ++ 41 :: rest)) (env name) rest
  | copy (c : UInt8) (rest : Str) (h : c = 36 → rest.head? ≠ some 36 ∧ rest.head? ≠ some 40) :
    Token env (c :: rest) [c] rest

/-- The reference expansion, from left to right. -/
inductive Expands (env : Str → Str) : Str → Str → Prop
  | nil : Expands env [] []
  | cons {s piece rest t : Str} (h : Token env s piece rest) (ht : Expands env rest t) : Expands env s (piece ++ t)

/-- Where the expansion gets to. -/
inductive ReadsTo (env : Str → Str) : Str → Str → Prop
  | refl (s : Str) : ReadsTo env s s
  | step {s piece rest s' : Str} (h : Token env s piece rest) (h' : ReadsTo env rest s') : ReadsTo env s s'

/-- The expansion gets to a `$(` that has no matching parenthesis. -/
def Unmatched (env : Str → Str) (s : Str) : Prop :=
  ∃ rest, ReadsTo env s (36 :: 40 :: rest) ∧ ¬∃ name after, rest = name ++ 41 :: after ∧ Closes 40 41 1 (name ++ [41])

/-! ### Matching parentheses -/

/-- The text up to the parenthesis that closes the last of `k` open ones, and what comes behind it. -/
def matchParen : ℕ → Str → Option (Str × Str)
  | _, [] => none
  | k, x :: l => if depthAfter 40 41 k x = 0 then some ([], l) else
    (matchParen (depthAfter 40 41 k x) l).map fun r => (x :: r.1, r.2)

lemma matchParen_eq_some_iff {k : ℕ} {l name after : Str} :
    matchParen (k + 1) l = some (name, after) ↔ l = name ++ 41 :: after ∧ Closes 40 41 (k + 1) (name ++ [41]) := by
  have hoc : (40 : UInt8) ≠ 41 := by decide
  induction l generalizing k name with
  | nil => simp [matchParen]
  | cons x l ih =>
    rw [matchParen]
    rcases hdepth : depthAfter 40 41 (k + 1) x with _ | j
    · -- the last parenthesis is closed
      have hx : x = 41 := by
        by_contra hx
        rw [depthAfter, if_neg hx] at hdepth
        split_ifs at hdepth
      rw [if_pos rfl, Option.some.injEq, Prod.mk.injEq]
      constructor
      · rintro ⟨rfl, rfl⟩
        have hcloses : Closes 40 41 (k + 1) [x] := by
          rw [closes_succ_cons hoc, hdepth]
          exact closes_nil.mpr rfl
        rw [hx] at hcloses
        exact ⟨by rw [hx, List.nil_append], hcloses⟩
      · rintro ⟨heq, hcloses⟩
        cases name with
        | nil =>
          obtain ⟨-, rfl⟩ := List.cons.inj heq
          exact ⟨rfl, rfl⟩
        | cons y name =>
          obtain ⟨rfl, rfl⟩ := List.cons.inj heq
          rw [List.cons_append, closes_succ_cons hoc, hdepth] at hcloses
          exact absurd hcloses (by cases name <;> exact not_closes_zero_cons _ _)
    · rw [if_neg (Nat.succ_ne_zero j), Option.map_eq_some_iff]
      constructor
      · rintro ⟨⟨name', after'⟩, hsome, heq⟩
        obtain ⟨rfl, rfl⟩ := Prod.mk.inj heq
        obtain ⟨rfl, hcloses⟩ := ih.mp hsome
        refine ⟨rfl, ?_⟩
        rw [List.cons_append, closes_succ_cons hoc, hdepth]
        exact hcloses
      · rintro ⟨heq, hcloses⟩
        cases name with
        | nil =>
          obtain ⟨rfl, rfl⟩ := List.cons.inj heq
          rw [List.nil_append, closes_succ_cons hoc, hdepth, closes_nil] at hcloses
          cases hcloses
        | cons y name =>
          obtain ⟨rfl, rfl⟩ := List.cons.inj heq
          rw [List.cons_append, closes_succ_cons hoc, hdepth] at hcloses
          exact ⟨(name, after), ih.mpr ⟨rfl, hcloses⟩, rfl⟩

/-- `find_match` finds the matching parenthesis, whatever stands behind the text. -/
lemma findMatchLoop_eq (s : Str) (past : UInt8) {start : ℕ} (hstart : start ≤ s.length) (k : ℕ) :
    findMatchLoop s past start (k + 1 : ℕ) =
      match matchParen (k + 1) (s.drop start) with
      | some (name, _) => start + name.length
      | none => s.length := by
  induction hn : s.length - start generalizing start k with
  | zero =>
    obtain rfl : start = s.length := by omega
    rw [findMatchLoop, List.drop_length]
    simp [matchParen]
  | succ n ih =>
    have hlt : start < s.length := by omega
    have hget : s.getD start past = s[start] := List.getD_eq_getElem s past hlt
    have hstack : (if s[start] = 40 then ((k + 1 : ℕ) : ℤ) + 1 else if s[start] = 41 then ((k + 1 : ℕ) : ℤ) - 1
        else (k + 1 : ℕ)) = (depthAfter 40 41 (k + 1) s[start] : ℤ) := by
      unfold depthAfter
      by_cases ho : s[start] = 40
      · rw [if_pos ho, if_pos ho, if_neg (by rw [ho]; decide)]
        push_cast
        rfl
      · rw [if_neg ho, if_neg ho]
        split_ifs <;> push_cast <;> omega
    rw [findMatchLoop, hget, hstack, List.drop_eq_getElem_cons hlt, matchParen]
    rcases depthAfter 40 41 (k + 1) s[start] with _ | j
    · rw [if_neg (by simp), if_pos rfl]
      rfl
    · rw [if_pos ⟨hlt, by omega⟩, if_neg (Nat.succ_ne_zero j), ih (show start + 1 ≤ s.length from hlt) j (by omega)]
      cases matchParen (j + 1) (s.drop (start + 1)) with
      | none => rfl
      | some r =>
        exact Nat.add_right_comm start 1 r.1.length

lemma findMatch_eq (s : Str) (past : UInt8) {start : ℕ} (hlt : start < s.length) (hopen : s[start] = 40) :
    findMatch s past start = (matchParen 1 (s.drop (start + 1))).map fun r => start + 1 + r.1.length := by
  have hget : s.getD start past = s[start] := List.getD_eq_getElem s past hlt
  have hloop : findMatchLoop s past start 0 = findMatchLoop s past (start + 1) ((0 + 1 : ℕ) : ℤ) := by
    rw [findMatchLoop, hget, hopen]
    exact if_pos ⟨hlt, by decide⟩
  rw [findMatch, hloop, findMatchLoop_eq s past (show start + 1 ≤ s.length from hlt)]
  rcases hmatch : matchParen (0 + 1) (s.drop (start + 1)) with _ | ⟨name, after⟩
  · rw [if_pos rfl]
    rfl
  · obtain ⟨heq, -⟩ := matchParen_eq_some_iff.mp hmatch
    have hlen := congrArg List.length heq
    rw [List.length_drop, List.length_append, List.length_cons] at hlen
    rw [if_neg (show ¬start + 1 + name.length = s.length by omega)]
    rfl

/-! ### What the grammar determines -/

section Grammar

variable {env : Str → Str} {s piece rest : Str}

/-- The next token is determined. -/
lemma Token.unique (h : Token env s piece rest) {piece' rest' : Str} (h' : Token env s piece' rest') :
    piece' = piece ∧ rest' = rest := by
  cases h with
  | dollar =>
    cases h' with
    | dollar => exact ⟨rfl, rfl⟩
    | copy _ _ h' => exact absurd rfl (h' rfl).1
  | var name rest h =>
    generalize htext : name ++ 41 :: rest = text at h'
    cases h' with
    | var name' rest' h' =>
      have hmatch : matchParen 1 (name ++ 41 :: rest) = some (name, rest) := matchParen_eq_some_iff.mpr ⟨rfl, h⟩
      have hmatch' : matchParen 1 (name ++ 41 :: rest) = some (name', rest') :=
        matchParen_eq_some_iff.mpr ⟨htext, h'⟩
      rw [hmatch] at hmatch'
      obtain ⟨rfl, rfl⟩ := Prod.mk.inj (Option.some.inj hmatch')
      exact ⟨rfl, rfl⟩
    | copy _ _ h' => exact absurd rfl (h' rfl).2
  | copy c rest h =>
    cases h' with
    | dollar => exact absurd rfl (h rfl).1
    | var => exact absurd rfl (h rfl).2
    | copy => exact ⟨rfl, rfl⟩

lemma Token.expands_iff (h : Token env s piece rest) {t : Str} :
    Expands env s t ↔ ∃ t', Expands env rest t' ∧ t = piece ++ t' := by
  constructor
  · rintro (_ | ⟨h', ht⟩)
    · cases h
    · obtain ⟨rfl, rfl⟩ := h.unique h'
      exact ⟨_, ht, rfl⟩
  · rintro ⟨t', ht, rfl⟩
    exact .cons h ht

lemma Token.unmatched_iff (h : Token env s piece rest) : Unmatched env s ↔ Unmatched env rest := by
  constructor
  · rintro ⟨r, hreads, hnone⟩
    cases hreads with
    | refl =>
      -- a `$(` that is read as a token has its parenthesis
      cases h with
      | var name rest h => exact absurd ⟨name, rest, rfl, h⟩ hnone
      | copy _ _ h => exact absurd rfl (h rfl).2
    | step h' hreads =>
      obtain ⟨rfl, rfl⟩ := h.unique h'
      exact ⟨r, hreads, hnone⟩
  · rintro ⟨r, hreads, hnone⟩
    exact ⟨r, .step h hreads, hnone⟩

/-- The outcome of expanding `s` behind `pre`. -/
structure Outcome (env : Str → Str) (s pre : Str) (r : Option Str) : Prop where
  some_iff : ∀ out, r = some out ↔ ∃ t, Expands env s t ∧ out = pre ++ t
  none_iff : r = none ↔ Unmatched env s

lemma Outcome.nil (pre : Str) : Outcome env [] pre (some pre) := by
  constructor
  · intro out
    constructor
    · intro h
      exact ⟨[], .nil, by rw [List.append_nil, Option.some.inj h]⟩
    · rintro ⟨t, ht, rfl⟩
      cases ht with
      | nil => rw [List.append_nil]
      | cons h => cases h
  · refine iff_of_false nofun ?_
    rintro ⟨r, hreads, -⟩
    cases hreads with
    | step h => cases h

lemma Outcome.of_token {pre : Str} {r : Option Str} (htoken : Token env s piece rest)
    (h : Outcome env rest (pre ++ piece) r) : Outcome env s pre r := by
  constructor
  · intro out
    rw [h.some_iff]
    constructor
    · rintro ⟨t, ht, rfl⟩
      exact ⟨piece ++ t, .cons htoken ht, List.append_assoc pre piece t⟩
    · rintro ⟨t, ht, rfl⟩
      obtain ⟨t', ht', rfl⟩ := htoken.expands_iff.mp ht
      exact ⟨t', ht', (List.append_assoc pre piece t').symm⟩
  · rw [h.none_iff, htoken.unmatched_iff]

lemma Outcome.copy {l pre : Str} {r : Option Str} (hl : 36 ∉ l) (h : Outcome env s (pre ++ l) r) :
    Outcome env (l ++ s) pre r := by
  induction l generalizing pre with
  | nil =>
    rw [List.append_nil] at h
    exact h
  | cons c l ih =>
    rw [List.mem_cons, not_or] at hl
    obtain ⟨hc, hl⟩ := hl
    refine Outcome.of_token (.copy c (l ++ s) fun h36 => absurd h36.symm hc) (ih hl ?_)
    rw [List.append_assoc]
    exact h

lemma Outcome.unmatched (pre : Str) (h : matchParen 1 rest = none) : Outcome env (36 :: 40 :: rest) pre none := by
  have hnone : ¬∃ name after, rest = name ++ 41 :: after ∧ Closes 40 41 1 (name ++ [41]) := by
    rintro ⟨name, after, heq⟩
    rw [matchParen_eq_some_iff.mpr heq] at h
    cases h
  constructor
  · intro out
    refine iff_of_false nofun ?_
    rintro ⟨t, ht, -⟩
    cases ht with
    | cons htoken =>
      cases htoken with
      | var name _ hcloses => exact hnone ⟨name, _, rfl, hcloses⟩
      | copy _ _ hc => exact absurd rfl (hc rfl).2
  · exact iff_of_true rfl ⟨rest, .refl _, hnone⟩

end Grammar

/-! ### The loop -/

section Loop

variable {s : Str} {pos stop : ℕ}

lemma between_append {mid : ℕ} (hpos : pos ≤ mid) (hmid : mid ≤ stop) :
    between s pos mid ++ between s mid stop = between s pos stop := by
  have hadd : stop - pos = (mid - pos) + (stop - mid) := by omega
  rw [between, between, between, hadd, List.take_add, List.drop_drop, Nat.add_sub_cancel' hpos]

lemma between_succ (hpos : pos < s.length) : between s pos (pos + 1) = [s[pos]] := by
  rw [between, Nat.add_sub_cancel_left, List.drop_eq_getElem_cons hpos]
  rfl

lemma le_findDollar (s : Str) (pos : ℕ) : pos ≤ findDollar s pos := Nat.le_add_right _ _

lemma between_findDollar (s : Str) (pos : ℕ) :
    between s pos (findDollar s pos) = (s.drop pos).takeWhile fun ch => ch ≠ 36 := by
  rw [between, findDollar, Nat.add_sub_cancel_left]
  exact (List.prefix_iff_eq_take.mp (List.takeWhile_prefix _)).symm

lemma drop_findDollar (s : Str) (pos : ℕ) :
    s.drop (findDollar s pos) = (s.drop pos).dropWhile fun ch => ch ≠ 36 := by
  have happ := List.takeWhile_append_dropWhile (p := fun ch : UInt8 => ch ≠ 36) (l := s.drop pos)
  rw [findDollar, ← List.drop_drop]
  exact (congrArg (List.drop _) happ.symm).trans List.drop_left

lemma not_mem_between_findDollar (s : Str) (pos : ℕ) : 36 ∉ between s pos (findDollar s pos) := by
  rw [between_findDollar]
  intro hmem
  exact absurd (List.mem_takeWhile_imp hmem) (by decide)

lemma drop_eq_between_append (s : Str) (pos : ℕ) :
    s.drop pos = between s pos (findDollar s pos) ++ s.drop (findDollar s pos) := by
  rw [between_findDollar, drop_findDollar, List.takeWhile_append_dropWhile]

lemma findDollar_le (hpos : pos ≤ s.length) : findDollar s pos ≤ s.length := by
  have hle := (List.takeWhile_prefix (p := fun ch : UInt8 => ch ≠ 36) (l := s.drop pos)).length_le
  rw [List.length_drop] at hle
  rw [findDollar]
  omega

lemma getElem_findDollar (h : findDollar s pos < s.length) : s[findDollar s pos] = 36 := by
  have hcons := List.drop_eq_getElem_cons h
  rw [drop_findDollar] at hcons
  have hhead := List.head?_dropWhile_not (fun ch : UInt8 => decide (ch ≠ 36)) (s.drop pos)
  rw [hcons] at hhead
  exact not_not.mp (of_decide_eq_false hhead)

lemma findDollar_succ (hpos : pos < s.length) (hne : s[pos] ≠ 36) : findDollar s pos = findDollar s (pos + 1) := by
  rw [findDollar, findDollar, List.drop_eq_getElem_cons hpos, List.takeWhile_cons_of_pos (by simpa using hne),
    List.length_cons]
  omega

lemma drop_dollar {dollar : ℕ} (hlt : dollar < s.length) (hdollar : ∀ h : dollar < s.length, s[dollar] = 36) :
    s.drop dollar = 36 :: s.drop (dollar + 1) := by rw [List.drop_eq_getElem_cons hlt, hdollar hlt]

lemma of_drop_eq_append {n : ℕ} {name after : Str} {c : UInt8} (h : s.drop n = name ++ c :: after) :
    ∃ hlt : n + name.length < s.length, s[n + name.length] = c ∧ s.drop (n + name.length + 1) = after := by
  have hend : s.drop (n + name.length) = c :: after := by rw [← List.drop_drop, h, List.drop_left]
  have hlt : n + name.length < s.length := by
    have hlen := congrArg List.length hend
    rw [List.length_drop, List.length_cons] at hlen
    omega
  have hcons := List.drop_eq_getElem_cons hlt
  rw [hend] at hcons
  obtain ⟨hc, hafter⟩ := List.cons.inj hcons
  exact ⟨hlt, hc.symm, hafter.symm⟩

/-- The loop, at a dollar or at the end. -/
theorem parseLoop_outcome (env : Str → Str) (past : UInt8) {pos dollar : ℕ} (hpos : pos ≤ dollar)
    (hle : dollar ≤ s.length) (hdollar : ∀ h : dollar < s.length, s[dollar] = 36) (ss : Str) :
    Outcome env (s.drop dollar) (ss ++ between s pos dollar) (parseLoop env past s pos dollar ss) := by
  fun_induction parseLoop env past s pos dollar ss with
  | case1 pos dollar ss hlt next hnext hopen hmatch =>
    -- a `$(` without its parenthesis
    rw [List.getD_eq_getElem s past hnext] at hopen
    rw [findMatch_eq s past hnext hopen, Option.map_eq_none_iff] at hmatch
    rw [drop_dollar hlt hdollar, List.drop_eq_getElem_cons hnext, hopen]
    exact .unmatched _ hmatch
  | case2 pos dollar ss hlt next hnext hopen varEnd hmatch varName ih =>
    rw [List.getD_eq_getElem s past hnext] at hopen
    rw [findMatch_eq s past hnext hopen, Option.map_eq_some_iff] at hmatch
    obtain ⟨⟨name, after⟩, hmatch, rfl⟩ := hmatch
    obtain ⟨heq, hcloses⟩ := matchParen_eq_some_iff.mp hmatch
    obtain ⟨hendlt, hclose, hafter⟩ := of_drop_eq_append heq
    have hname : varName = name := by
      change (s.drop (next + 1)).take (next + 1 + name.length - (next + 1)) = name
      rw [heq, Nat.add_sub_cancel_left, List.take_left]
    have hfind : findDollar s (next + 1 + name.length) = findDollar s (next + 1 + name.length + 1) :=
      findDollar_succ hendlt (by rw [hclose]; decide)
    rw [drop_dollar hlt hdollar, List.drop_eq_getElem_cons hnext, hopen]
    change Outcome env (36 :: 40 :: s.drop (next + 1)) _ _
    rw [heq]
    refine Outcome.of_token (.var name after hcloses) ?_
    rw [← hafter, drop_eq_between_append s (next + 1 + name.length + 1)]
    refine Outcome.copy (not_mem_between_findDollar s _) ?_
    rw [hname, hfind] at ih ⊢
    exact ih (le_findDollar s _) (findDollar_le hendlt) getElem_findDollar
  | case3 pos dollar ss hlt next hnext hopen hdbl ih =>
    -- of `$$` one dollar is written
    rw [List.getD_eq_getElem s past hnext] at hdbl
    rw [drop_dollar hlt hdollar, List.drop_eq_getElem_cons hnext, hdbl]
    refine Outcome.of_token (.dollar _) ?_
    rw [drop_eq_between_append s (next + 1)]
    refine Outcome.copy (not_mem_between_findDollar s (next + 1)) ?_
    have hpiece : between s pos next = between s pos dollar ++ [36] := by
      rw [← between_append hpos (Nat.le_succ dollar), between_succ hlt, hdollar hlt]
    rw [hpiece] at ih ⊢
    rw [List.append_assoc ss]
    exact ih (le_findDollar s (next + 1)) (findDollar_le hnext) getElem_findDollar
  | case4 pos dollar ss hlt next hnext hopen hdbl ih =>
    -- a dollar that nothing follows is copied
    rw [List.getD_eq_getElem s past hnext] at hopen hdbl
    have hnot : (36 : UInt8) = 36 → (s.drop next).head? ≠ some 36 ∧ (s.drop next).head? ≠ some 40 := by
      intro _
      rw [List.drop_eq_getElem_cons hnext, List.head?_cons]
      exact ⟨fun h => hdbl (Option.some.inj h), fun h => hopen (Option.some.inj h)⟩
    rw [drop_dollar hlt hdollar]
    refine Outcome.of_token (.copy 36 _ hnot) ?_
    rw [drop_eq_between_append s next]
    refine Outcome.copy (not_mem_between_findDollar s next) ?_
    have hstep : dollar ≤ findDollar s next := (Nat.le_succ dollar).trans (le_findDollar s next)
    have ih := ih (hpos.trans hstep) (findDollar_le hnext.le) getElem_findDollar
    rw [← between_append hpos hstep, ← between_append (Nat.le_succ dollar) (le_findDollar s next),
      between_succ hlt, hdollar hlt] at ih
    rw [List.append_assoc, List.append_assoc]
    exact ih
  | case5 pos dollar ss hlt next hnext ih =>
    -- and so is one at the end
    obtain hend : next = s.length := by omega
    have ih := ih (Nat.le_succ_of_le hpos) hend.le (fun h => absurd h hnext)
    rw [← between_append hpos (Nat.le_succ dollar), between_succ hlt, hdollar hlt, ← List.append_assoc] at ih
    rw [drop_dollar hlt hdollar]
    refine Outcome.of_token (.copy 36 _ fun _ => ?_) ih
    rw [show dollar + 1 = s.length from hend, List.drop_length]
    exact ⟨nofun, nofun⟩
  | case6 pos dollar ss hge =>
    obtain rfl : dollar = s.length := by omega
    rw [List.drop_length]
    exact .nil _

end Loop

/-! ### Quoting -/

/-- A text with each dollar doubled. -/
def quote (s : Str) : Str := s.flatMap fun ch => if ch = 36 then [36, 36] else [ch]

lemma expands_quote (env : Str → Str) (s : Str) : Expands env (quote s) s := by
  induction s with
  | nil => exact .nil
  | cons ch s ih =>
    rw [quote, List.flatMap_cons]
    split_ifs with h
    · rw [h]
      exact .cons (.dollar _) ih
    · exact .cons (.copy ch _ fun h36 => absurd h36 h) ih

/-- **`parse_env_val` is the reference expansion.**  It gives what the expansion gives, fails exactly if the expansion
gets to a `$(` that has no matching parenthesis, and undoes the doubling of dollars. -/
theorem parseEnvVal_expands (env : Str → Str) (past : UInt8) (s : Str) :
    (∀ t, parseEnvVal env past s = some t ↔ Expands env s t) ∧
      (parseEnvVal env past s = none ↔ Unmatched env s) ∧ parseEnvVal env past (quote s) = some s := by
  have houtcome : ∀ text, Outcome env text [] (parseEnvVal env past text) := by
    intro text
    have h := parseLoop_outcome env past (le_findDollar text 0) (findDollar_le (Nat.zero_le _)) getElem_findDollar []
    have hcopy := Outcome.copy (not_mem_between_findDollar text 0) h
    rw [← drop_eq_between_append, List.drop_zero] at hcopy
    exact hcopy
  have hsome : ∀ text t, parseEnvVal env past text = some t ↔ Expands env text t := by
    intro text t
    rw [(houtcome text).some_iff]
    constructor
    · rintro ⟨t', ht, rfl⟩
      exact ht
    · intro ht
      exact ⟨t, ht, rfl⟩
  exact ⟨hsome s, (houtcome s).none_iff, (hsome _ _).mpr (expands_quote env s)⟩

end MidnightSun.Proc
