import MidnightSun.Config.Readers
import MidnightSun.Lib.Slices

/-!
# Comments and blanks (src/config.cpp)

`options` is what `parse_option` finds one after the other in a text.  A file of lines with comments and blanks is read
as the options that it means, unless a line has blanks behind its value.
-/

namespace MidnightSun.Config

open Lib

/-! ### The options of a text -/

/-- What the loop of `parse_config` finds. -/
def options (pos : Str) : List (Str × Str) :=
  if pos = [] then [] else
  let option := parseOption pos
  option.2.toList ++ options (next option.1)
termination_by pos.length
decreasing_by
  rename_i h
  exact length_next_lt h (length_parseOption_le pos)

@[simp] lemma options_nil : options [] = [] := by rw [options, if_pos rfl]

lemma options_of_ne_nil {pos : Str} (h : pos ≠ []) :
    options pos = (parseOption pos).2.toList ++ options (next (parseOption pos).1) := by rw [options, if_neg h]

theorem parseLoop_eq (vars : List (Str × Str)) (pos : Str) : parseLoop vars pos = (options pos).foldl emplace vars := by
  induction vars, pos using parseLoop.induct with
  | case1 vars => rw [parseLoop, if_pos rfl, options_nil, List.foldl_nil]
  | case2 vars pos h option ih =>
    rw [parseLoop, if_neg h, options_of_ne_nil h, List.foldl_append]
    refine ih.trans ?_
    congr 1
    cases (parseOption pos).2 <;> rfl

theorem parseConfig_eq (text : Str) : parseConfig text = (options text).foldl emplace [] := parseLoop_eq [] text

/-! ### Lines -/

/-- A line of an option.  Its value may be empty; its comment starts with `#`, and its end is the line feed that ends
it, with a carriage return or without. -/
structure Line where
  before : Str := []
  name : Str
  beforeEq : Str := []
  afterEq : Str := []
  value : Str
  after : Str := []
  comment : Str := []
  ending : Str := [10]

/-- A value on one line that has no comment sign, starts no list, and has no blank at its ends. -/
structure IsValue (value : Str) : Prop where
  plain : ∀ c ∈ value, endline c = false ∧ c ≠ 35
  first : ∀ c ∈ value.head?, spaceTab c = false ∧ c ≠ 91
  last : ∀ c ∈ value.getLast?, spaceTab c = false

structure Line.Valid (l : Line) : Prop where
  before : ∀ c ∈ l.before, whitespace c = true
  name : IsOptionName l.name
  beforeEq : ∀ c ∈ l.beforeEq, spaceTab c = true
  afterEq : ∀ c ∈ l.afterEq, spaceTab c = true
  value : IsValue l.value
  after : ∀ c ∈ l.after, spaceTab c = true
  comment : l.comment = [] ∨ l.comment.head? = some 35 ∧ ∀ c ∈ l.comment, endline c = false

instance (name : Str) : Decidable (IsOptionName name) :=
  decidable_of_iff (name ≠ [] ∧ (∀ c ∈ name, endline c = false ∧ c ≠ 61 ∧ c ≠ 35) ∧
      (∀ c ∈ name.head?, spaceTab c = false) ∧ ∀ c ∈ name.getLast?, spaceTab c = false)
    ⟨fun ⟨hne, hplain, hfirst, hlast⟩ => ⟨hne, hplain, hfirst, hlast⟩, fun h => ⟨h.1, h.2, h.3, h.4⟩⟩

instance (value : Str) : Decidable (IsValue value) :=
  decidable_of_iff ((∀ c ∈ value, endline c = false ∧ c ≠ 35) ∧
      (∀ c ∈ value.head?, spaceTab c = false ∧ c ≠ 91) ∧ ∀ c ∈ value.getLast?, spaceTab c = false)
    ⟨fun ⟨hplain, hfirst, hlast⟩ => ⟨hplain, hfirst, hlast⟩, fun h => ⟨h.1, h.2, h.3⟩⟩

instance (l : Line) : Decidable l.Valid :=
  decidable_of_iff ((∀ c ∈ l.before, whitespace c = true) ∧ IsOptionName l.name ∧
      (∀ c ∈ l.beforeEq, spaceTab c = true) ∧ (∀ c ∈ l.afterEq, spaceTab c = true) ∧ IsValue l.value ∧
      (∀ c ∈ l.after, spaceTab c = true) ∧
      (l.comment = [] ∨ l.comment.head? = some 35 ∧ ∀ c ∈ l.comment, endline c = false))
    ⟨fun ⟨h₁, h₂, h₃, h₄, h₅, h₆, h₇⟩ => ⟨h₁, h₂, h₃, h₄, h₅, h₆, h₇⟩, fun h => ⟨h.1, h.2, h.3, h.4, h.5, h.6, h.7⟩⟩

/-- What stands behind `=`. -/
def Line.tail (l : Line) : Str := l.afterEq ++ l.value ++ l.after ++ l.comment

def Line.text (l : Line) : Str := l.before ++ (l.name ++ l.beforeEq ++ 61 :: l.tail)

/-- A file of lines; only the last may lack its end. -/
def ValidFile : List Line → Prop
  | [] => True
  | l :: file => l.Valid ∧ (l.ending = [10] ∨ l.ending = [13, 10] ∨ l.ending = [] ∧ file = []) ∧ ValidFile file

instance : DecidablePred ValidFile
  | [] => instDecidableTrue
  | _ :: file =>
    have := instDecidablePredListLineValidFile file
    inferInstanceAs (Decidable (_ ∧ _ ∧ _))

def fileText (file : List Line) : Str := file.flatMap fun l => l.text ++ l.ending

/-- The option that a line means: none if it has no value. -/
def Line.means (l : Line) : Option (Str × Str) := if l.value = [] then none else some (l.name, l.value)

/-- The option that is found on a line. -/
def Line.found (l : Line) : Option (Str × Str) :=
  if l.tail = [] then none
  else if l.value = [] then some (l.name, l.afterEq ++ l.after)
  else some (l.name, l.value ++ l.after)

/-- There is no blank behind the value, and nothing at all behind `=` where there is no value. -/
def Line.Tidy (l : Line) : Prop := if l.value = [] then l.tail = [] else l.after = []

instance : DecidablePred Line.Tidy := fun l =>
  inferInstanceAs (Decidable (if l.value = [] then l.tail = [] else l.after = []))

/-! ### Reading a line -/

lemma not_endline_of_spaceTab {c : UInt8} (h : spaceTab c = true) : endline c = false ∧ c ≠ 35 ∧ c ≠ 91 := by
  simp only [spaceTab, Bool.or_eq_true, beq_iff_eq] at h
  rcases h with rfl | rfl <;> decide

lemma toString_comment {comment : Str}
    (h : comment = [] ∨ comment.head? = some 35 ∧ ∀ c ∈ comment, endline c = false) : toString comment = [] := by
  obtain rfl | ⟨hhead, hall⟩ := h
  · exact toString_nil
  · obtain ⟨text, rfl⟩ := List.head?_eq_some_iff.mp hhead
    have hnone : ((35 :: text).dropWhile fun ch => !endline ch) = [] :=
      List.dropWhile_eq_nil_iff.mpr fun c hc => by simp [hall c hc]
    rw [toString_of_ne_nil (List.cons_ne_nil _ _), List.takeWhile_cons_of_neg (by decide), List.length_nil,
      List.drop_zero,
      hnone, toString_nil]
    rfl

section Tail

variable {l : Line} (hl : l.Valid)

include hl

lemma takeWhile_comment {t : Str} (ht : 35 ∉ t) : (t ++ l.comment).takeWhile (· != 35) = t := by
  have hkeep : ∀ c ∈ t, (c != 35) = true := fun c hc => bne_iff_ne.mpr fun heq => ht (heq ▸ hc)
  rw [List.takeWhile_append_of_pos hkeep]
  obtain hnil | ⟨hhead, -⟩ := hl.comment
  · rw [hnil, List.takeWhile_nil, List.append_nil]
  · obtain ⟨text, htext⟩ := List.head?_eq_some_iff.mp hhead
    rw [htext, List.takeWhile_cons_of_neg (by decide), List.append_nil]

lemma not_mem_front : 35 ∉ l.afterEq ++ l.value ++ l.after := by
  intro hmem
  rcases List.mem_append.mp hmem with hmem | hmem
  · rcases List.mem_append.mp hmem with hmem | hmem
    · exact (not_endline_of_spaceTab (hl.afterEq 35 hmem)).2.1 rfl
    · exact (hl.value.plain 35 hmem).2 rfl
  · exact (not_endline_of_spaceTab (hl.after 35 hmem)).2.1 rfl

lemma not_endline_tail : ∀ c ∈ l.tail, endline c = false := by
  intro c hc
  simp only [Line.tail, List.mem_append] at hc
  rcases hc with ((hc | hc) | hc) | hc
  · exact (not_endline_of_spaceTab (hl.afterEq c hc)).1
  · exact (hl.value.plain c hc).1
  · exact (not_endline_of_spaceTab (hl.after c hc)).1
  · obtain hnil | ⟨-, hall⟩ := hl.comment
    · rw [hnil] at hc
      cases hc
    · exact hall c hc

lemma takeWhile_tail {rest : Str} (hrest : ∀ c ∈ rest.head?, endline c = true) :
    (l.tail ++ rest).takeWhile (fun ch => !endline ch) = l.tail := by
  rw [List.takeWhile_append_of_pos fun c hc => by simp [not_endline_tail hl c hc]]
  cases rest with
  | nil => rw [List.takeWhile_nil, List.append_nil]
  | cons c rest => rw [List.takeWhile_cons_of_neg (by simp [hrest c rfl]), List.append_nil]

/-- A value starts behind the blanks; where there is none, the blanks are not skipped. -/
lemma valueStart_tail : valueStart l.tail = if l.value = [] then 0 else l.afterEq.length := by
  have hafter : ∀ c ∈ l.after, whitespace c = true := fun c hc => by simp [whitespace, hl.after c hc]
  rw [valueStart, Line.tail, takeWhile_comment hl (not_mem_front hl), rdropWhile_append_of_all hafter]
  split_ifs with hvalue
  · have hblank : l.afterEq.rdropWhile whitespace = [] :=
      List.rdropWhile_eq_nil_iff.mpr fun c hc => by simp [whitespace, hl.afterEq c hc]
    rw [hvalue, List.append_nil, hblank]
    rfl
  · have hlast : whitespace (l.value.getLast hvalue) = false := by
      have hmem := List.getLast_mem hvalue
      rw [whitespace, hl.value.last _ (List.getLast?_eq_some_getLast hvalue), (hl.value.plain _ hmem).1]
      rfl
    have hkeep : (l.afterEq ++ l.value).rdropWhile whitespace = l.afterEq ++ l.value := by
      rw [List.rdropWhile_eq_self_iff]
      intro hne
      rw [List.getLast_append_of_ne_nil hne hvalue]
      exact ne_true_of_eq_false hlast
    obtain ⟨c, value, hcons⟩ := List.exists_cons_of_ne_nil hvalue
    have hfirst : spaceTab c = false := (hl.value.first c (by rw [hcons]; rfl)).1
    rw [hkeep, List.takeWhile_append_of_pos hl.afterEq, hcons, List.takeWhile_cons_of_neg (ne_true_of_eq_false hfirst),
      List.append_nil]

/-- No list starts there. -/
lemma getElem?_tail : l.tail[valueStart l.tail]? ≠ some 91 := by
  rw [valueStart_tail hl, ← List.head?_drop]
  split_ifs with hvalue
  · have hblank : ∀ c ∈ l.afterEq ++ l.after, spaceTab c = true := fun c hc =>
      (List.mem_append.mp hc).elim (hl.afterEq c) (hl.after c)
    rw [List.drop_zero, Line.tail, hvalue, List.append_nil]
    generalize l.afterEq ++ l.after = blanks at hblank
    rcases blanks with _ | ⟨c, blanks⟩
    · rw [List.nil_append]
      obtain hnil | ⟨hhead, -⟩ := hl.comment
      · rw [hnil]
        exact nofun
      · rw [hhead]
        decide
    · intro hhead
      exact (not_endline_of_spaceTab (hblank c List.mem_cons_self)).2.2 (Option.some.inj hhead)
  · obtain ⟨c, value, hcons⟩ := List.exists_cons_of_ne_nil hvalue
    rw [Line.tail, List.append_assoc, List.append_assoc, List.drop_left, hcons]
    intro hhead
    exact (hl.value.first 91 (by rw [hcons]; exact hhead)).2 rfl

/-- What stands behind `=` is read as the value with the blanks that follow it. -/
lemma toString_tail : toString (l.tail.drop (valueStart l.tail)) =
    if l.value = [] then l.afterEq ++ l.after else l.value ++ l.after := by
  rw [valueStart_tail hl, Line.tail]
  have hfront := not_mem_front hl
  split_ifs with hvalue
  · rw [hvalue, List.append_nil] at hfront ⊢
    rw [List.drop_zero, toString_append hfront, toString_comment hl.comment, List.append_nil]
  · have hvalueAfter : 35 ∉ l.value ++ l.after := by
      intro hmem
      refine hfront ?_
      rw [List.append_assoc]
      exact List.mem_append_right _ hmem
    rw [List.append_assoc, List.append_assoc, List.drop_left, ← List.append_assoc, toString_append hvalueAfter,
      toString_comment hl.comment, List.append_nil]

end Tail

/-- **One line.**  The reader finds one option, and stops at the end of the line. -/
theorem parseOption_text {l : Line} (hl : l.Valid) {rest : Str} (hrest : ∀ c ∈ rest.head?, endline c = true) :
    parseOption (l.text ++ rest) = (rest, l.found) := by
  have htext : l.text ++ rest = l.before ++ (l.name ++ l.beforeEq ++ 61 :: (l.tail ++ rest)) := by
    simp [Line.text]
  have hline := takeWhile_tail hl hrest
  rw [htext, parseOption_assign hl.before hl.name hl.beforeEq, assigned, hline, Line.found]
  by_cases htail : l.tail = []
  · rw [htail]
    exact if_pos rfl
  · have hlt := valueStart_lt htail
    have hlist : (l.tail ++ rest)[valueStart l.tail]? ≠ some 91 := by
      rw [List.getElem?_append_left hlt]
      exact getElem?_tail hl
    have hend : valueEnd (l.tail ++ rest) (valueStart l.tail) = l.tail.length := by
      rw [valueEnd, if_neg hlist, hline]
    rw [if_neg htail, if_neg (Nat.ne_of_lt hlt), if_neg fun h => hlist h.1, hend, List.drop_left, List.take_left,
      toString_tail hl]
    split_ifs <;> rfl

/-! ### Reading a file -/

lemma text_ne_nil (l : Line) (rest : Str) : l.text ++ rest ≠ [] := by simp [Line.text]

/-- **A file.**  Its options are those that are found on its lines. -/
theorem options_fileText {file : List Line} (hfile : ValidFile file) :
    options (fileText file) = file.flatMap fun l => l.found.toList := by
  induction file with
  | nil => exact options_nil
  | cons l file ih =>
    obtain ⟨hl, hending, hfile⟩ := hfile
    have htext : fileText (l :: file) = l.text ++ (l.ending ++ fileText file) := by
      rw [fileText, List.flatMap_cons, List.append_assoc]
      rfl
    have hrest : ∀ c ∈ (l.ending ++ fileText file).head?, endline c = true := by
      rcases hending with h | h | ⟨h, rfl⟩
      · rw [h]
        rintro c ⟨⟩
        decide
      · rw [h]
        rintro c ⟨⟩
        decide
      · rw [h]
        exact nofun
    have hnext : next (l.ending ++ fileText file) = fileText file := by
      rcases hending with h | h | ⟨h, rfl⟩
      · rw [h]
        rfl
      · rw [h]
        rfl
      · rw [h]
        rfl
    rw [htext, options_of_ne_nil (text_ne_nil _ _), parseOption_text hl hrest, hnext, ih hfile, List.flatMap_cons]

lemma found_eq_means_iff (l : Line) : l.found = l.means ↔ l.Tidy := by
  rw [Line.found, Line.means, Line.Tidy]
  by_cases hvalue : l.value = []
  · rw [if_pos hvalue, if_pos hvalue, if_pos hvalue]
    split_ifs with htail
    · exact iff_of_true rfl htail
    · exact iff_of_false nofun htail
  · have htail : l.tail ≠ [] := by simp [Line.tail, hvalue]
    rw [if_neg htail, if_neg hvalue, if_neg hvalue, if_neg hvalue]
    simp

lemma length_means_le (l : Line) : l.means.toList.length ≤ l.found.toList.length := by
  rw [Line.found, Line.means]
  by_cases hvalue : l.value = []
  · rw [if_pos hvalue]
    exact Nat.zero_le _
  · have htail : l.tail ≠ [] := by simp [Line.tail, hvalue]
    rw [if_neg hvalue, if_neg htail, if_neg hvalue]
    exact Nat.le_refl 1

/-! ### Main result -/

/-- The map of the options that a file means. -/
def meant (file : List Line) : Vars := (file.flatMap fun l => l.means.toList).foldl emplace []

/-- The file is read as the options that it means, and so are the numbers, truth values and texts in it. -/
structure ReadAsMeant (file : List Line) : Prop where
  options : options (fileText file) = file.flatMap fun l => l.means.toList
  number : ∀ name input, intF (parseConfig (fileText file)) name input = intF (meant file) name input
  boolean : ∀ name input, boolF (parseConfig (fileText file)) name input = boolF (meant file) name input
  string : ∀ name input, stringF (parseConfig (fileText file)) name input = stringF (meant file) name input

/-- **Comments and blanks do not matter**, but for blanks behind a value and whatever follows `=` in place of one. -/
theorem readAsMeant_iff (file : List Line) (hfile : ValidFile file) : ReadAsMeant file ↔ ∀ l ∈ file, l.Tidy := by
  have hoptions : options (fileText file) = (file.flatMap fun l => l.means.toList) ↔ ∀ l ∈ file, l.Tidy := by
    rw [options_fileText hfile, flatMap_eq_flatMap_iff fun l _ => length_means_le l]
    refine forall₂_congr fun l _ => ?_
    rw [← found_eq_means_iff]
    rcases l.found with _ | x <;> rcases l.means with _ | y <;> simp
  rw [← hoptions]
  refine ⟨fun h => h.options, fun h => ?_⟩
  have hconfig : parseConfig (fileText file) = meant file := by rw [parseConfig_eq, h, meant]
  exact ⟨h, fun name input => by rw [hconfig], fun name input => by rw [hconfig], fun name input => by rw [hconfig]⟩

/-- A line with blanks before its name and around `=`, a comment behind its value and a carriage return at its end. -/
theorem readAsMeant_port :
    ReadAsMeant [
      { before := str "  ", name := str "port", beforeEq := str "\t", afterEq := str " ", value := str "5",
        comment := str "# c", ending := [13, 10] }] := by
  refine (readAsMeant_iff _ ?_).mpr ?_
  · decide +kernel
  · rw [List.forall_mem_singleton]
    decide +kernel

/-- A comment behind a blank turns 5 into 34, and one in place of a value makes an option. -/
theorem comment_read_as_value : (¬∀ file, ValidFile file → ReadAsMeant file) ∧
    options (str "port = 5 # c\n") = [(str "port", str "5 ")] ∧
    (intF (parseConfig (str "port = 5 # c\n")) (str "port") 0).map Prod.snd = some 34 ∧
    options (str "port = # c\n") = [(str "port", str " ")] := by
  let file (value after : Str) : List Line := [⟨[], str "port", str " ", str " ", value, after, str "# c", [10]⟩]
  have hfive : options (str "port = 5 # c\n") = [(str "port", str "5 ")] := by
    have hvalid : ValidFile (file (str "5") (str " ")) := by decide +kernel
    exact (options_fileText hvalid).trans (by decide +kernel)
  have hnone : options (str "port = # c\n") = [(str "port", str " ")] := by
    have hvalid : ValidFile (file [] []) := by decide +kernel
    exact (options_fileText hvalid).trans (by decide +kernel)
  refine ⟨fun hholds => ?_, hfive, ?_, hnone⟩
  · have hread := (hholds (file (str "5") (str " ")) (by decide +kernel)).options
    exact absurd (hfive.symm.trans hread) (by decide +kernel)
  · rw [parseConfig_eq, hfive]
    decide +kernel

end MidnightSun.Config
