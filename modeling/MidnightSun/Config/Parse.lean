import MidnightSun.Boost.PropertyTree
import MidnightSun.Lib.Brackets
import MidnightSun.Lib.Keyed
import MidnightSun.Lib.Trim

/-!
# Reading the configuration file (src/config.cpp, `to_string`, `skip_list`, `parse_option` and `parse_config`)

An iterator is the text from it on, and a range the text in it: `line` is `[begin, endl)`, `code` is `[begin, endc)`.
-/

namespace MidnightSun.Config

open Lib

def endline (ch : UInt8) : Bool := ch == 13 || ch == 10

def spaceTab (ch : UInt8) : Bool := ch == 32 || ch == 9

def whitespace (ch : UInt8) : Bool := spaceTab ch || endline ch

/-- `to_string`: the range without its comments. -/
def toString (range : Str) : Str :=
  if range = [] then [] else
  let comment := range.takeWhile (· != 35)
  comment ++ toString ((range.drop comment.length).dropWhile fun ch => !endline ch)
termination_by range.length
decreasing_by
  rename_i h
  cases range with
  | nil => exact absurd rfl h
  | cons c l =>
    by_cases hc : c = 35
    · subst hc
      simpa [endline] using Nat.lt_succ_of_le (List.length_dropWhile_le _ l)
    · have hle := List.length_dropWhile_le (fun ch => !endline ch) ((c :: l).drop (c :: l.takeWhile (· != 35)).length)
      simp [hc] at hle ⊢
      omega

/-- `skip_list`: how far the closing bracket is. -/
def skipList (skipper : Str) : ℕ := skip 91 93 1 skipper

/-- `parse_option`: the end of the line or of the list, and the option.  A list that the file ends in the middle of is
one, too, unless nothing follows its bracket. -/
def parseOption (pos : Str) : Str × Option (Str × Str) :=
  let begin := pos.dropWhile whitespace
  let line := begin.takeWhile fun ch => !endline ch
  let code := (line.takeWhile (· != 35)).rdropWhile whitespace
  let eq := (code.takeWhile (· != 61)).length
  if eq = code.length ∨ eq = 0 then (begin.drop line.length, none) else
  let name := (code.take eq).rdropWhile spaceTab
  let beginVal := eq + 1 + ((code.drop (eq + 1)).takeWhile spaceTab).length
  if beginVal = line.length then (begin.drop line.length, none) else
  let list := begin[beginVal]? = some 91
  let endl := if list then beginVal + 1 + skipList (begin.drop (beginVal + 1)) else line.length
  if list ∧ endl = begin.length ∧ begin.length = beginVal + 1 then (begin.drop endl, none) else
  (begin.drop endl, some (toString name, toString ((begin.take endl).drop beginVal)))

/-- The iterator after the end of the line: past `\r`, it skips a second character unseen. -/
def next : Str → Str
  | [] => []
  | c :: endl => if c = 13 then endl.drop 1 else endl

lemma length_parseOption_le (pos : Str) : (parseOption pos).1.length ≤ pos.length := by
  have hle : ∀ n, ((pos.dropWhile whitespace).drop n).length ≤ pos.length := fun n => by
    have hdrop := List.length_dropWhile_le whitespace pos
    rw [List.length_drop]
    omega
  simp only [parseOption]
  split_ifs <;> exact hle _

lemma length_next_lt {pos endl : Str} (hpos : pos ≠ []) (hle : endl.length ≤ pos.length) :
    (next endl).length < pos.length := by
  have hpos := List.length_pos_iff.mpr hpos
  cases endl with
  | nil => exact hpos
  | cons c endl =>
    rw [List.length_cons] at hle
    show (if c = 13 then endl.drop 1 else endl).length < pos.length
    split_ifs
    · rw [List.length_drop]
      omega
    · omega

/-- The loop of `parse_config` from `pos` on; the first option of a name stays. -/
def parseLoop (vars : List (Str × Str)) (pos : Str) : List (Str × Str) :=
  if pos = [] then vars else
  let option := parseOption pos
  parseLoop (option.2.elim vars (emplace vars)) (next option.1)
termination_by pos.length
decreasing_by
  rename_i h
  exact length_next_lt h (length_parseOption_le pos)

/-- `parse_config`: the map, in the order of insertion. -/
def parseConfig (fileContent : Str) : List (Str × Str) := parseLoop [] fileContent

/-! ### `to_string` -/

@[simp] lemma toString_nil : toString [] = [] := by rw [toString, if_pos rfl]

lemma toString_of_ne_nil {range : Str} (h : range ≠ []) :
    toString range = range.takeWhile (· != 35) ++
      toString ((range.drop (range.takeWhile (· != 35)).length).dropWhile fun ch => !endline ch) := by
  rw [toString, if_neg h]

theorem toString_append {text : Str} (h : 35 ∉ text) (rest : Str) :
    toString (text ++ rest) = text ++ toString rest := by
  by_cases hrest : rest = []
  · subst hrest
    by_cases htext : text = []
    · simp [htext]
    · have hall : text.takeWhile (· != 35) = text :=
        List.takeWhile_eq_self_iff.mpr fun c hc => bne_iff_ne.mpr fun heq => h (heq ▸ hc)
      rw [List.append_nil, toString_of_ne_nil htext, hall]
      simp
  · have htake : (text ++ rest).takeWhile (· != 35) = text ++ rest.takeWhile (· != 35) :=
      List.takeWhile_append_of_pos fun c hc => bne_iff_ne.mpr fun heq => h (heq ▸ hc)
    rw [toString_of_ne_nil (by simp [hrest]), htake, toString_of_ne_nil hrest, List.length_append, ← List.drop_drop,
      List.drop_left, List.append_assoc]

lemma toString_of_not_mem {text : Str} (h : 35 ∉ text) : toString text = text := by
  have happend := toString_append h []
  rwa [toString_nil, List.append_nil] at happend

/-- What is kept is a part of the text, and no `#` is kept. -/
theorem toString_subset (range : Str) : ∀ c ∈ toString range, c ∈ range ∧ c ≠ 35 := by
  induction range using toString.induct with
  | case1 => simp
  | case2 range h comment ih =>
    intro c hc
    rw [toString_of_ne_nil h, List.mem_append] at hc
    rcases hc with hc | hc
    · have hne : (c != 35) = true := List.mem_takeWhile_imp (p := (· != 35)) hc
      exact ⟨(List.takeWhile_sublist _).mem hc, bne_iff_ne.mp hne⟩
    · obtain ⟨hmem, hne⟩ := ih c hc
      exact ⟨List.mem_of_mem_drop ((List.dropWhile_sublist _).mem hmem), hne⟩

/-! ### `parse_option` on one assignment -/

/-- A name that the reader takes as it is. -/
def IsName (name : Str) : Prop := name ≠ [] ∧ ∀ c ∈ name, whitespace c = false ∧ c ≠ 61 ∧ c ≠ 35

/-- A name with blanks in it at most. -/
structure IsOptionName (name : Str) : Prop where
  nonempty : name ≠ []
  plain : ∀ c ∈ name, endline c = false ∧ c ≠ 61 ∧ c ≠ 35
  first : ∀ c ∈ name.head?, spaceTab c = false
  last : ∀ c ∈ name.getLast?, spaceTab c = false

lemma IsName.isOptionName {name : Str} (h : IsName name) : IsOptionName name where
  nonempty := h.1
  plain := fun c hc => ⟨(Bool.or_eq_false_iff.mp (h.2 c hc).1).2, (h.2 c hc).2⟩
  first := fun c hc => (Bool.or_eq_false_iff.mp (h.2 c (List.mem_of_head? hc)).1).1
  last := fun c hc => (Bool.or_eq_false_iff.mp (h.2 c (List.mem_of_getLast? hc)).1).1

/-- Where the value starts in what is left of the line behind `=`. -/
def valueStart (line : Str) : ℕ :=
  (((line.takeWhile (· != 35)).rdropWhile whitespace).takeWhile spaceTab).length

/-- Where the value ends, `n` being its start. -/
def valueEnd (text : Str) (n : ℕ) : ℕ :=
  if text[n]? = some 91 then n + 1 + skipList (text.drop (n + 1)) else (text.takeWhile fun ch => !endline ch).length

/-- What the reader makes of the text behind a name and `=`. -/
def assigned (name text : Str) : Str × Option (Str × Str) :=
  let line := text.takeWhile fun ch => !endline ch
  let n := valueStart line
  if n = line.length then (text.drop line.length, none) else
  if text[n]? = some 91 ∧ valueEnd text n = text.length ∧ text.length = n + 1 then (text.drop (valueEnd text n), none)
  else (text.drop (valueEnd text n), some (name, toString ((text.take (valueEnd text n)).drop n)))

/-- **One assignment.**  Blanks before the name and before `=` do not matter. -/
theorem parseOption_assign {blanks name before : Str} (hblanks : ∀ c ∈ blanks, whitespace c = true)
    (hname : IsOptionName name) (hbefore : ∀ c ∈ before, spaceTab c = true) (text : Str) :
    parseOption (blanks ++ (name ++ before ++ 61 :: text)) = assigned name text := by
  obtain ⟨hne, hall, hfirst, hlast⟩ := hname
  obtain ⟨first, name', rfl⟩ := List.exists_cons_of_ne_nil hne
  have hbegin : (blanks ++ (first :: name' ++ before ++ 61 :: text)).dropWhile whitespace =
      first :: name' ++ before ++ 61 :: text := by
    rw [List.dropWhile_append_of_pos hblanks]
    refine List.dropWhile_cons_of_neg (ne_true_of_eq_false ?_)
    exact Bool.or_eq_false_iff.mpr ⟨hfirst first rfl, (hall first List.mem_cons_self).1⟩
  have htrim : (first :: name' ++ before).rdropWhile spaceTab = first :: name' := by
    rw [rdropWhile_append_of_all hbefore, List.rdropWhile_eq_self_iff]
    intro hne
    exact ne_true_of_eq_false (hlast _ (List.getLast?_eq_some_getLast hne))
  have hfront : ∀ c ∈ first :: name' ++ before, (!endline c) = true ∧ (c != 61) = true ∧ (c != 35) = true := by
    intro c hc
    rcases List.mem_append.mp hc with hc | hc
    · obtain ⟨hend, heq, hhash⟩ := hall c hc
      simp [hend, heq, hhash]
    · have hblank := hbefore c hc
      simp only [spaceTab, Bool.or_eq_true, beq_iff_eq] at hblank
      rcases hblank with rfl | rfl <;> decide
  have htake : toString (first :: name') = first :: name' :=
    toString_of_not_mem fun hmem => (hall 35 hmem).2.2 rfl
  have hpos : (first :: name' ++ before).length ≠ 0 := by simp
  generalize first :: name' ++ before = front at *
  have hline : (front ++ 61 :: text).takeWhile (fun ch => !endline ch) =
      front ++ 61 :: text.takeWhile fun ch => !endline ch := by
    rw [List.takeWhile_append_of_pos fun c hc => (hfront c hc).1]
    rfl
  have hcode : ∀ line : Str, ((front ++ 61 :: line).takeWhile (· != 35)).rdropWhile whitespace =
      front ++ 61 :: (line.takeWhile (· != 35)).rdropWhile whitespace := by
    intro line
    rw [List.takeWhile_append_of_pos fun c hc => (hfront c hc).2.2]
    exact rdropWhile_append_cons (by decide) _ _
  have heq : ∀ code : Str, ((front ++ 61 :: code).takeWhile (· != 61)).length = front.length := by
    intro code
    rw [List.takeWhile_append_of_pos fun c hc => (hfront c hc).2.1]
    simp
  have hdrop : ∀ (l : Str) (n : ℕ), (front ++ 61 :: l).drop (front.length + 1 + n) = l.drop n := by
    intro l n
    rw [Nat.add_assoc, ← List.drop_drop, List.drop_left, Nat.add_comm 1 n, List.drop_succ_cons]
  have hget : ∀ n, (front ++ 61 :: text)[front.length + 1 + n]? = text[n]? := by
    intro n
    rw [← List.head?_drop, hdrop, List.head?_drop]
  have htakeTo : ∀ n, (front ++ 61 :: text).take (front.length + 1 + n) = front ++ 61 :: text.take n := by
    intro n
    rw [Nat.add_assoc, List.take_length_add_append, Nat.add_comm 1 n, List.take_succ_cons]
  simp only [parseOption, assigned, hbegin, hline, hcode, heq, List.take_left, htrim, htake]
  have hafter : ∀ l : Str, (front ++ 61 :: l).drop (front.length + 1) = l := fun l => hdrop l 0
  have hlength : ∀ l : Str, (front ++ 61 :: l).length = front.length + 1 + l.length := by
    intro l
    rw [List.length_append, List.length_cons]
    omega
  have hplace : ∀ code : Str, ¬(front.length = (front ++ 61 :: code).length ∨ front.length = 0) := by
    intro code
    rw [hlength]
    omega
  rw [if_neg (hplace _)]
  have hstart : ((((text.takeWhile fun ch => !endline ch).takeWhile (· != 35)).rdropWhile whitespace).takeWhile
      spaceTab).length = valueStart (text.takeWhile fun ch => !endline ch) := rfl
  have hend : ∀ n, (if text[n]? = some 91 then
      front.length + 1 + n + 1 + skipList ((front ++ 61 :: text).drop (front.length + 1 + n + 1))
      else front.length + 1 + (text.takeWhile fun ch => !endline ch).length) = front.length + 1 + valueEnd text n := by
    intro n
    unfold valueEnd
    split_ifs
    · rw [Nat.add_assoc _ n 1, hdrop]
      omega
    · rfl
  have hlast : ∀ m n, front.length + 1 + m = front.length + 1 + n + 1 ↔ m = n + 1 := by omega
  simp only [hafter, hlength, hget, hstart, hend, hdrop, htakeTo, hlast, Nat.add_left_cancel_iff]

/-! ### Where a value starts -/

/-- Blanks that nothing follows are not skipped. -/
lemma valueStart_lt {line : Str} (h : line ≠ []) : valueStart line < line.length := by
  have hle : ((line.takeWhile (· != 35)).rdropWhile whitespace).length ≤ line.length :=
    (List.rdropWhile_prefix whitespace _).length_le.trans (List.takeWhile_sublist _).length_le
  unfold valueStart
  generalize hcode : (line.takeWhile (· != 35)).rdropWhile whitespace = code at hle
  by_cases hnil : code = []
  · rw [hnil]
    exact List.length_pos_iff.mpr h
  · have hlast : whitespace (code.getLast hnil) = false := by
      subst hcode
      exact eq_false_of_ne_true (List.rdropWhile_last_not _ _ hnil)
    have hlt : (code.takeWhile spaceTab).length ≠ code.length := by
      intro hall
      have heq := (List.takeWhile_prefix spaceTab).eq_of_length hall
      have hblank := List.takeWhile_eq_self_iff.mp heq _ (List.getLast_mem hnil)
      simp [whitespace, hblank] at hlast
    have hsub := (List.takeWhile_sublist spaceTab (l := code)).length_le
    omega

lemma valueStart_of_kept {c : UInt8} (hc : whitespace c = false) (hne : c ≠ 35) (l : Str) :
    valueStart (32 :: c :: l) = 1 := by
  have hfirst : spaceTab 32 = true := by decide
  have hblank : spaceTab c = false := by
    simp only [whitespace, Bool.or_eq_false_iff] at hc
    exact hc.1
  have htake : (32 :: c :: l).takeWhile (· != 35) = [32] ++ c :: l.takeWhile (· != 35) := by simp [hne]
  rw [valueStart, htake, rdropWhile_append_cons hc]
  simp [hblank, hfirst]

/-- Another blank does not. -/
lemma valueStart_ne_one {c : UInt8} (hc : spaceTab c = true) (l : Str) : valueStart (32 :: c :: l) ≠ 1 := by
  unfold valueStart
  intro hone
  have hfirst : spaceTab 32 = true := by decide
  have htrim := List.rdropWhile_prefix whitespace ((32 :: c :: l).takeWhile (· != 35))
  have hlast := List.rdropWhile_last_not whitespace ((32 :: c :: l).takeWhile (· != 35))
  have hle := (List.takeWhile_prefix (· != 35) (l := 32 :: c :: l))
  generalize ((32 :: c :: l).takeWhile (· != 35)).rdropWhile whitespace = code at *
  have hcode := htrim.trans hle
  rcases code with _ | ⟨a, _ | ⟨b, code⟩⟩
  · simp at hone
  · obtain ⟨rfl, -⟩ := List.cons_prefix_cons.mp hcode
    exact hlast (List.cons_ne_nil _ _) (by decide)
  · obtain ⟨rfl, hcode'⟩ := List.cons_prefix_cons.mp hcode
    obtain ⟨rfl, -⟩ := List.cons_prefix_cons.mp hcode'
    simp [hc, hfirst] at hone

end MidnightSun.Config
