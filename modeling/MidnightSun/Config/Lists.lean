import MidnightSun.Config.Lines

/-!
# Lists in the configuration file (src/config.cpp, `parse_option` and `parse_config`)

A list ends at the bracket that closes it, whatever lines it runs over.  `Reaches` follows the loop of `parse_config`,
and `parseConfigAt` is that loop over positions, with every read checked against the end of the text.
-/

namespace MidnightSun.Config

open Lib

/-! ### The run of the parser -/

/-- The loop of `parse_config` over `text` has found `before` and is at `pos`. -/
inductive Reaches (text : Str) : List (Str × Str) → Str → Prop
  | start : Reaches text [] text
  | step {before : List (Str × Str)} {pos : Str} : Reaches text before pos → pos ≠ [] →
      Reaches text (before ++ (parseOption pos).2.toList) (next (parseOption pos).1)

theorem options_of_reaches {text pos : Str} {before : List (Str × Str)} (h : Reaches text before pos) :
    options text = before ++ options pos := by
  induction h with
  | start => rfl
  | step _ hpos ih => rw [ih, options_of_ne_nil hpos, List.append_assoc]

lemma parseOption_congr {p q : Str} (h : p.dropWhile whitespace = q.dropWhile whitespace) :
    parseOption p = parseOption q := by simp only [parseOption, h]

lemma options_of_blank {p : Str} (h : p.dropWhile whitespace = []) : options p = [] := by
  by_cases hp : p = []
  · rw [hp, options_nil]
  · rw [options_of_ne_nil hp, parseOption, h]
    exact options_nil

theorem options_congr {p q : Str} (h : p.dropWhile whitespace = q.dropWhile whitespace) : options p = options q := by
  by_cases hnil : q.dropWhile whitespace = []
  · rw [options_of_blank (h.trans hnil), options_of_blank hnil]
  · have hp : p ≠ [] := by
      rintro rfl
      exact hnil h.symm
    have hq : q ≠ [] := by
      rintro rfl
      exact hnil rfl
    rw [options_of_ne_nil hp, options_of_ne_nil hq, parseOption_congr h]

/-! ### Lists -/

/-- An option stands at `pos` whose value is `[` and what may be a list behind it. -/
def ListOption (pos name body : Str) : Prop :=
  ∃ blanks beforeEq afterEq, (∀ c ∈ blanks, whitespace c = true) ∧ IsOptionName name ∧
    (∀ c ∈ beforeEq, spaceTab c = true) ∧ (∀ c ∈ afterEq, spaceTab c = true) ∧
    pos = blanks ++ (name ++ beforeEq ++ 61 :: (afterEq ++ 91 :: body))

/-- The list ends with the bracket that closes it, outside of any comment, and `rest` follows. -/
def ListEnds (body inner rest : Str) : Prop :=
  body = inner ++ rest ∧ ∃ init, inner = init ++ [93] ∧ toString inner = toString init ++ [93] ∧
    Closes 91 93 1 (toString inner)

/-- Counted with those in comments, the brackets close the list with its last character, too; at the end of the file
they need only not close it before. -/
def ClosesWithComments (inner rest : Str) : Prop :=
  if rest = [] then StaysOpen 91 93 1 inner else Closes 91 93 1 inner

instance (inner rest : Str) : Decidable (ClosesWithComments inner rest) := by
  unfold ClosesWithComments
  infer_instance

/-- Nothing but white space is passed unseen. -/
def PassesBlank : Str → Prop
  | [] => True
  | c :: rest => whitespace c = true ∧ (c = 13 → ∀ ch ∈ rest.head?, whitespace ch = true)

instance : DecidablePred PassesBlank
  | [] => instDecidableTrue
  | _ :: _ => inferInstanceAs (Decidable (_ ∧ _))

lemma options_next {rest : Str} (h : PassesBlank rest) : options (next rest) = options rest := by
  cases rest with
  | nil => rfl
  | cons c rest =>
    obtain ⟨hc, hreturn⟩ := h
    refine options_congr ?_
    rw [List.dropWhile_cons_of_pos hc, next]
    split_ifs with h13
    · cases rest with
      | nil => rfl
      | cons ch rest => rw [List.drop_one, List.tail_cons, List.dropWhile_cons_of_pos (hreturn h13 ch rfl)]
    · rfl

lemma valueStart_list {afterEq : Str} (h : ∀ c ∈ afterEq, spaceTab c = true) (line : Str) :
    valueStart (afterEq ++ 91 :: line) = afterEq.length := by
  have hkeep : ∀ c ∈ afterEq, (c != 35) = true := fun c hc =>
    bne_iff_ne.mpr (not_endline_of_spaceTab (h c hc)).2.1
  rw [valueStart, List.takeWhile_append_of_pos hkeep, List.takeWhile_cons_of_pos (by decide),
    rdropWhile_append_cons (by decide), List.takeWhile_append_of_pos h, List.takeWhile_cons_of_neg (by decide),
    List.append_nil]

/-- **A list.**  It runs up to the bracket that closes it, or to the end of the file. -/
theorem parseOption_list {pos name body : Str} (h : ListOption pos name body) :
    parseOption pos = if body = [] then ([], none) else
      (body.drop (skipList body), some (name, toString (91 :: body.take (skipList body)))) := by
  obtain ⟨blanks, beforeEq, afterEq, hblanks, hname, hbefore, hafter, rfl⟩ := h
  have hline : (afterEq ++ 91 :: body).takeWhile (fun ch => !endline ch) =
      afterEq ++ 91 :: body.takeWhile fun ch => !endline ch := by
    rw [List.takeWhile_append_of_pos fun c hc => by simp [(not_endline_of_spaceTab (hafter c hc)).1],
      List.takeWhile_cons_of_pos (by decide)]
  have hlist : (afterEq ++ 91 :: body)[afterEq.length]? = some 91 := by
    rw [List.getElem?_append_right (Nat.le_refl _), Nat.sub_self, List.getElem?_cons_zero]
  have hdrop : ∀ n, (afterEq ++ 91 :: body).drop (afterEq.length + 1 + n) = body.drop n := by
    intro n
    rw [Nat.add_assoc, ← List.drop_drop, List.drop_left, Nat.add_comm, List.drop_succ_cons]
  have htake : ∀ n, (afterEq ++ 91 :: body).take (afterEq.length + 1 + n) = afterEq ++ 91 :: body.take n := by
    intro n
    rw [Nat.add_assoc, List.take_length_add_append, Nat.add_comm, List.take_succ_cons]
  have hend : valueEnd (afterEq ++ 91 :: body) afterEq.length = afterEq.length + 1 + skipList body := by
    rw [valueEnd, if_pos hlist, ← Nat.add_zero (afterEq.length + 1), hdrop 0, List.drop_zero, Nat.add_zero]
  have hlength : (afterEq ++ 91 :: body).length = afterEq.length + 1 + body.length := by
    rw [List.length_append, List.length_cons]
    omega
  have hstart : afterEq.length ≠ (afterEq ++ 91 :: body.takeWhile fun ch => !endline ch).length := by
    rw [List.length_append, List.length_cons]
    omega
  rw [parseOption_assign hblanks hname hbefore, assigned]
  simp only [hline, valueStart_list hafter, hend, hlist, hdrop, htake, List.drop_left]
  rw [if_neg hstart, hlength]
  by_cases hbody : body = []
  · subst hbody
    exact if_pos ⟨trivial, rfl, rfl⟩
  · have hpos := List.length_pos_iff.mpr hbody
    rw [if_neg (by omega), if_neg hbody]

section Found

variable {pos name body inner rest : Str}

lemma skipList_append_iff (inner rest : Str) :
    skipList (inner ++ rest) = inner.length ↔ ClosesWithComments inner rest := by
  unfold skipList ClosesWithComments
  split_ifs with hrest
  · rw [hrest, List.append_nil, skip_eq_length_iff (by decide)]
  · exact skip_append_eq_length_iff (by decide) hrest 1 inner

lemma parseOption_eq_list_iff (h : ListOption pos name body) (hends : ListEnds body inner rest) :
    parseOption pos = (rest, some (name, toString (91 :: inner))) ↔ ClosesWithComments inner rest := by
  obtain ⟨rfl, init, rfl, -⟩ := hends
  have hbody : init ++ [93] ++ rest ≠ [] := by simp
  rw [parseOption_list h, if_neg hbody, ← skipList_append_iff]
  constructor
  · intro heq
    have hle : skipList (init ++ [93] ++ rest) ≤ (init ++ [93] ++ rest).length := skip_le_length 1 _
    have hlength := congrArg (fun r => r.1.length) heq
    simp only [List.length_drop, List.length_append] at hle hlength ⊢
    omega
  · intro hskip
    rw [hskip, List.drop_left, List.take_left]

lemma parseOption_eq_none_iff (h : ListOption pos name body) : (parseOption pos).2 = none ↔ body = [] := by
  rw [parseOption_list h]
  split_ifs with hbody <;> simp [hbody]

lemma ListOption.ne_nil (h : ListOption pos name body) : pos ≠ [] := by
  obtain ⟨_, _, _, _, _, _, _, rfl⟩ := h
  simp

lemma options_eq_nil_iff (h : ListOption pos name body) : options pos = [] ↔ body = [] := by
  rw [options_of_ne_nil h.ne_nil, List.append_eq_nil_iff, Option.toList_eq_nil_iff, parseOption_eq_none_iff h]
  refine and_iff_left_of_imp fun hbody => ?_
  rw [parseOption_list h, if_pos hbody]
  exact options_nil

end Found

/-! ### Reads -/

/-- The characters at `[i, e)`. -/
def slice (text : Str) (i e : ℕ) : Str := (text.take e).drop i

/-- `std::find_if`. -/
def findIf (p : UInt8 → Bool) (text : Str) (i e : ℕ) : ℕ := i + ((slice text i e).takeWhile fun ch => !p ch).length

/-- `std::find_if` from the end, and `base`. -/
def rfindIf (p : UInt8 → Bool) (text : Str) (i e : ℕ) : ℕ := i + ((slice text i e).rdropWhile fun ch => !p ch).length

/-- `parse_option` over positions; `none` is a read past the end. -/
def parseOptionAt (text : Str) (pos : ℕ) : Option (ℕ × Option (Str × Str)) :=
  let fileEnd := text.length
  let begin := findIf (fun ch => !whitespace ch) text pos fileEnd
  let endl := findIf endline text begin fileEnd
  let endc := rfindIf (fun ch => !whitespace ch) text begin (findIf (· == 35) text begin endl)
  let eq := findIf (· == 61) text begin endc
  if eq = endc ∨ eq = begin then some (endl, none) else
  let endName := rfindIf (fun ch => !spaceTab ch) text begin eq
  let beginVal := findIf (fun ch => !spaceTab ch) text (eq + 1) endc
  if beginVal = endl then some (endl, none) else
  text[beginVal]?.bind fun ch =>
    let endl := if ch = 91 then beginVal + 1 + skipList (text.drop (beginVal + 1)) else endl
    if ch = 91 ∧ endl = fileEnd ∧ fileEnd = beginVal + 1 then some (endl, none)
    else some (endl, some (toString (slice text begin endName), toString (slice text beginVal endl)))

lemma slice_append (front l : Str) (i j : ℕ) :
    slice (front ++ l) (front.length + i) (front.length + j) = (l.take j).drop i := by
  rw [slice, List.take_length_add_append, ← List.drop_drop, List.drop_left]

section Front

variable {begin l : Str} (front : Str)

lemma slice_front (hl : l <+: begin) : slice (front ++ begin) front.length (front.length + l.length) = l := by
  have hslice := slice_append front begin 0 l.length
  rwa [← List.prefix_iff_eq_take.mp hl, List.drop_zero, Nat.add_zero] at hslice

lemma findIf_front (hl : l <+: begin) (p : UInt8 → Bool) (n : ℕ) :
    findIf p (front ++ begin) (front.length + n) (front.length + l.length) =
      front.length + (n + ((l.drop n).takeWhile fun ch => !p ch).length) := by
  rw [findIf, slice_append, ← List.prefix_iff_eq_take.mp hl, Nat.add_assoc]

lemma rfindIf_front (hl : l <+: begin) (p : UInt8 → Bool) :
    rfindIf p (front ++ begin) front.length (front.length + l.length) =
      front.length + (l.rdropWhile fun ch => !p ch).length := by
  rw [rfindIf, slice_front front hl]

lemma length_sub_drop {n : ℕ} (hn : n ≤ begin.length) :
    (front ++ begin).length - (begin.drop n).length = front.length + n := by
  rw [List.length_append, List.length_drop]
  omega

lemma skipList_le {n : ℕ} (hn : n < begin.length) : n + 1 + skipList (begin.drop (n + 1)) ≤ begin.length := by
  have hle := skip_le_length (o := 91) (c := 93) 1 (begin.drop (n + 1))
  rw [List.length_drop] at hle
  change n + 1 + skip 91 93 1 (begin.drop (n + 1)) ≤ begin.length
  omega

end Front

lemma exists_front (text : Str) (pos : ℕ) (hpos : pos ≤ text.length) :
    ∃ front, text = front ++ (text.drop pos).dropWhile whitespace ∧
      findIf (fun ch => !whitespace ch) text pos text.length = front.length := by
  refine ⟨text.take pos ++ (text.drop pos).takeWhile whitespace, ?_, ?_⟩
  · rw [List.append_assoc, List.takeWhile_append_dropWhile, List.take_append_drop]
  · rw [findIf, slice, List.take_length, List.length_append, List.length_take, Nat.min_eq_left hpos]
    simp only [Bool.not_not]

/-- **No read past the end.**  The positions are those of the texts. -/
theorem parseOptionAt_eq {text : Str} {pos : ℕ} (hpos : pos ≤ text.length) :
    parseOptionAt text pos =
      some (text.length - (parseOption (text.drop pos)).1.length, (parseOption (text.drop pos)).2) := by
  obtain ⟨front, htext, hbegin⟩ := exists_front text pos hpos
  rw [parseOptionAt, parseOption, hbegin]
  generalize (text.drop pos).dropWhile whitespace = begin at *
  subst htext
  have hlength : (front ++ begin).length = front.length + begin.length := List.length_append
  -- every range that is looked through is a part of `begin`, and starts and ends where the model's does
  have hfind : ∀ (p : UInt8 → Bool) (l : Str), l <+: begin →
      findIf p (front ++ begin) front.length (front.length + l.length) =
        front.length + (l.takeWhile fun ch => !p ch).length := by
    intro p l hl
    have h := findIf_front front hl p 0
    rwa [List.drop_zero, Nat.zero_add, Nat.add_zero] at h
  have hlinePrefix : (begin.takeWhile fun ch => !endline ch) <+: begin := List.takeWhile_prefix _
  have hcodePrefix : ((begin.takeWhile fun ch => !endline ch).takeWhile (· != 35)).rdropWhile whitespace <+:
      begin.takeWhile fun ch => !endline ch := (List.rdropWhile_prefix _ _).trans (List.takeWhile_prefix _)
  have hcommentPrefix := (List.takeWhile_prefix (l := begin.takeWhile fun ch => !endline ch) (· != 35)).trans
    hlinePrefix
  have hendl : findIf endline (front ++ begin) front.length (front ++ begin).length =
      front.length + (begin.takeWhile fun ch => !endline ch).length := by
    rw [hlength, hfind endline begin (List.prefix_refl _)]
  have hcomment := hfind (· == 35) _ hlinePrefix
  have hendc := rfindIf_front front hcommentPrefix fun ch => !whitespace ch
  simp only [Bool.not_not] at hendc
  rw [hendl]
  generalize (begin.takeWhile fun ch => !endline ch) = line at *
  rw [show findIf (fun x => x == 35) (front ++ begin) front.length (front.length + line.length) =
    front.length + (line.takeWhile (· != 35)).length from hcomment, hendc]
  generalize (line.takeWhile (· != 35)).rdropWhile whitespace = code at *
  have heq := hfind (· == 61) code (hcodePrefix.trans hlinePrefix)
  rw [show findIf (fun x => x == 61) (front ++ begin) front.length (front.length + code.length) =
    front.length + (code.takeWhile (· != 61)).length from heq]
  have heqLe : (code.takeWhile (· != 61)).length ≤ code.length := (List.takeWhile_prefix _).length_le
  generalize (code.takeWhile (· != 61)).length = eq at *
  have hname := rfindIf_front front ((List.take_prefix eq _).trans (hcodePrefix.trans hlinePrefix))
    fun ch => !spaceTab ch
  have hvalue : findIf (fun ch => !spaceTab ch) (front ++ begin) (front.length + eq + 1) (front.length + code.length) =
      front.length + (eq + 1 + ((code.drop (eq + 1)).takeWhile spaceTab).length) := by
    have h := findIf_front front (hcodePrefix.trans hlinePrefix) (fun ch => !spaceTab ch) (eq + 1)
    simpa only [Bool.not_not, Nat.add_assoc] using h
  rw [List.length_take, Nat.min_eq_left heqLe] at hname
  simp only [Bool.not_not] at hname
  have hnamePrefix : (code.take eq).rdropWhile spaceTab <+: begin :=
    (List.rdropWhile_prefix _ _).trans ((List.take_prefix _ _).trans (hcodePrefix.trans hlinePrefix))
  have hvalueLe : eq < code.length → eq + 1 + ((code.drop (eq + 1)).takeWhile spaceTab).length ≤ code.length := by
    intro hlt
    have hle := (List.takeWhile_prefix (l := code.drop (eq + 1)) spaceTab).length_le
    rw [List.length_drop] at hle
    omega
  have hcodeLe := hcodePrefix.length_le
  have hlineLe := hlinePrefix.length_le
  simp only [hname, hvalue, hlength, Nat.add_right_inj, Nat.add_eq_left, slice_front front hnamePrefix]
  generalize eq + 1 + ((code.drop (eq + 1)).takeWhile spaceTab).length = value at *
  have hend : ∀ n ≤ begin.length, front.length + begin.length - (begin.drop n).length = front.length + n := by
    intro n hn
    rw [← hlength, length_sub_drop front hn]
  by_cases hassign : eq = code.length ∨ eq = 0
  · rw [if_pos hassign, if_pos hassign, hend _ hlineLe]
  rw [if_neg hassign, if_neg hassign]
  by_cases hempty : value = line.length
  · rw [if_pos hempty, if_pos hempty, hend _ hlineLe]
  rw [if_neg hempty, if_neg hempty]
  have hread : value < begin.length := by
    have hlt := hvalueLe (by omega)
    omega
  rw [List.getElem?_append_right (Nat.le_add_right _ _), Nat.add_sub_cancel_left, List.getElem?_eq_getElem hread,
    Option.bind_some]
  have hdrop : (front ++ begin).drop (front.length + value + 1) = begin.drop (value + 1) := by
    rw [Nat.add_assoc, ← List.drop_drop, List.drop_left]
  have hskip := skipList_le hread
  rw [hdrop]
  by_cases hlist : begin[value] = 91
  · have hsum : front.length + value + 1 + skipList (begin.drop (value + 1)) =
        front.length + (value + 1 + skipList (begin.drop (value + 1))) := by omega
    have hlast : front.length + begin.length = front.length + value + 1 ↔ begin.length = value + 1 := by omega
    rw [hsum]
    generalize value + 1 + skipList (begin.drop (value + 1)) = last at *
    simp only [hlist, hlast, if_true, Nat.add_right_inj, slice_append, true_and]
    split_ifs
    · exact congrArg (fun n => some (n, none)) (hend _ hskip).symm
    · exact congrArg (fun n => some (n, _)) (hend _ hskip).symm
  · simp only [hlist, if_false, false_and, Option.some.injEq, slice_append]
    rw [hend _ hlineLe]

lemma length_parseOption_drop {text : Str} {pos : ℕ} (hpos : pos < text.length) :
    pos ≤ text.length - (parseOption (text.drop pos)).1.length := by
  have hle := length_parseOption_le (text.drop pos)
  rw [List.length_drop] at hle
  omega

lemma parseOption_drop_eq (text : Str) (pos : ℕ) :
    (parseOption (text.drop pos)).1 = text.drop (text.length - (parseOption (text.drop pos)).1.length) := by
  have hall : ∀ n, ((text.drop pos).dropWhile whitespace).drop n <:+ text := fun n =>
    (List.drop_suffix _ _).trans ((List.dropWhile_suffix _).trans (List.drop_suffix _ _))
  refine List.suffix_iff_eq_drop.mp ?_
  simp only [parseOption]
  split_ifs <;> exact hall _

/-- The position behind the end of a line or a list; `none` is a read past the end. -/
def nextAt (text : Str) (endl : ℕ) : Option ℕ :=
  if endl = text.length then some endl else text[endl]?.map fun ch => endl + if ch = 13 then 2 else 1

lemma nextAt_eq {text : Str} {endl : ℕ} (hle : endl ≤ text.length) :
    ∃ pos, nextAt text endl = some pos ∧ text.drop pos = next (text.drop endl) ∧ endl ≤ pos ∧
      (endl < text.length → endl < pos) := by
  by_cases hend : endl = text.length
  · refine ⟨endl, if_pos hend, ?_, Nat.le_refl _, fun hlt => absurd hend (Nat.ne_of_lt hlt)⟩
    rw [hend, List.drop_length]
    rfl
  · have hlt : endl < text.length := by omega
    refine ⟨endl + if text[endl] = 13 then 2 else 1, ?_, ?_, Nat.le_add_right _ _, fun _ => ?_⟩
    · rw [nextAt, if_neg hend, List.getElem?_eq_getElem hlt]
      rfl
    · rw [List.drop_eq_getElem_cons hlt, next]
      split_ifs
      · rw [List.drop_drop]
      · rfl
    · split_ifs <;> omega

/-- The loop of `parse_config` over positions; `none` is a read past the end, or a round that does not get on.  Behind a
carriage return that ends the file the position is past the end, and the loop stops without reading there. -/
def parseLoopAt (text : Str) (vars : List (Str × Str)) (pos : ℕ) : Option (List (Str × Str)) :=
  if pos < text.length then
    (parseOptionAt text pos).bind fun (endl, var) =>
      (nextAt text endl).bind fun next =>
        if pos < next then parseLoopAt text (var.elim vars (emplace vars)) next else none
  else some vars
termination_by text.length - pos

/-- **`parse_config` reads within its text**, and returns what the model says. -/
theorem parseLoopAt_eq (text : Str) (vars : List (Str × Str)) (pos : ℕ) :
    parseLoopAt text vars pos = some (parseLoop vars (text.drop pos)) := by
  rw [parseLoopAt, parseLoop]
  by_cases hpos : pos < text.length
  · have hne : text.drop pos ≠ [] := by
      rw [Ne, List.drop_eq_nil_iff]
      omega
    have hle := length_parseOption_drop hpos
    have hdrop := parseOption_drop_eq text pos
    have hend : text.length - (parseOption (text.drop pos)).1.length ≤ text.length := Nat.sub_le _ _
    rw [if_pos hpos, if_neg hne, parseOptionAt_eq (Nat.le_of_lt hpos), Option.bind_some]
    generalize text.length - (parseOption (text.drop pos)).1.length = endl at *
    obtain ⟨following, hnext, htext, hge, hgt⟩ := nextAt_eq hend
    have hmoves : pos < following := by omega
    dsimp only
    rw [hnext, Option.bind_some, if_pos hmoves, parseLoopAt_eq text _ following, htext, hdrop]
  · rw [if_neg hpos, if_pos (List.drop_eq_nil_of_le (by omega))]
termination_by text.length - pos

/-! ### Main result -/

/-- **A list option.**  It is read up to its own bracket exactly if the brackets in its comments do not change where
that is; the options behind it are read as without it if only white space is passed unseen; and a list that is not
closed is rejected exactly if nothing follows its bracket.  Every text is read to its end and not beyond. -/
theorem list_option_iff (text : Str) :
    (∀ before pos name body, Reaches text before pos → ListOption pos name body →
      (∀ inner rest, ListEnds body inner rest →
        (parseOption pos = (rest, some (name, toString (91 :: inner))) ↔ ClosesWithComments inner rest) ∧
        (ClosesWithComments inner rest → PassesBlank rest →
          options text = before ++ (name, toString (91 :: inner)) :: options rest)) ∧
      ((∀ inner rest, ¬ListEnds body inner rest) → (options text = before ↔ body = []))) ∧
    parseLoopAt text [] 0 = some (parseConfig text) := by
  refine ⟨fun before pos name body hreach hlist => ⟨fun inner rest hends => ⟨?_, fun hcloses hblank => ?_⟩,
    fun _ => ?_⟩, parseLoopAt_eq text [] 0⟩
  · exact parseOption_eq_list_iff hlist hends
  · rw [options_of_reaches hreach, options_of_ne_nil hlist.ne_nil, (parseOption_eq_list_iff hlist hends).mpr hcloses,
      options_next hblank]
    rfl
  · rw [options_of_reaches hreach, List.append_right_eq_self, options_eq_nil_iff hlist]

/-- A list over two lines. -/
theorem list_option_two_lines :
    options (str "a = [1,\n2]\nb = 3\n") = [] ++ (str "a", 91 :: str "1,\n2]") :: options (str "\nb = 3\n") := by
  have hlist : ListOption (str "a = [1,\n2]\nb = 3\n") (str "a") (str "1,\n2]\nb = 3\n") :=
    ⟨[], [32], [32], List.forall_mem_nil _, by decide +kernel, by decide +kernel, by decide +kernel, by decide +kernel⟩
  have hclean : toString (str "1,\n2]") = str "1,\n2]" := toString_of_not_mem (by decide +kernel)
  have hends : ListEnds (str "1,\n2]\nb = 3\n") (str "1,\n2]") (str "\nb = 3\n") := by
    refine ⟨by decide +kernel, str "1,\n2", by decide +kernel, ?_, ?_⟩
    · rw [hclean, toString_of_not_mem (by decide +kernel)]
      decide +kernel
    · rw [hclean]
      decide +kernel
  have hlists := ((list_option_iff _).1 _ _ _ _ .start hlist).1 _ _ hends
  rw [hlists.2 (by decide +kernel) (by decide +kernel), toString_of_not_mem (by decide +kernel)]

/-- A list that is not closed takes the rest of the file, a bracket in a comment closes a list, and the character
behind a list is lost. -/
theorem list_option_swallows :
    ¬(∀ text before pos name body, Reaches text before pos → ListOption pos name body →
      (∀ inner rest, ¬ListEnds body inner rest) → options text = before) ∧
    options (str "a = [1\nb = 2\n") = [(str "a", str "[1\nb = 2\n")] ∧
    (parseOption (str "a = [1,# ]\n2]\n")).2 = some (str "a", str "[1,") ∧
    options (str "a = [1]b = 2\n") = (str "a", str "[1]") :: options (str " = 2\n") := by
  have hlist : ∀ body, ListOption (str "a = [" ++ body) (str "a") body := fun body =>
    ⟨[], [32], [32], List.forall_mem_nil _, by decide +kernel, by decide +kernel, by decide +kernel, rfl⟩
  have hopen : options (str "a = [" ++ str "1\nb = 2\n") = [(str "a", str "[1\nb = 2\n")] := by
    rw [options_of_ne_nil (hlist _).ne_nil, parseOption_list (hlist _), if_neg (by decide +kernel),
      toString_of_not_mem (by decide +kernel)]
    have hend : (str "1\nb = 2\n").drop (skipList (str "1\nb = 2\n")) = [] := by decide +kernel
    rw [hend, next, options_nil]
    decide +kernel
  refine ⟨fun hholds => ?_, hopen, ?_, ?_⟩
  · have hrejected := hholds _ _ _ _ _ .start (hlist (str "1\nb = 2\n")) fun inner rest hends => by
      obtain ⟨hbody, init, rfl, -⟩ := hends
      have hmem : 93 ∈ str "1\nb = 2\n" := by
        rw [hbody]
        simp
      exact absurd hmem (by decide +kernel)
    exact absurd (hopen.symm.trans hrejected) (by decide +kernel)
  · have hcomment := parseOption_list (hlist (str "1,# ]\n2]\n"))
    have htext : str "a = [1,# ]\n2]\n" = str "a = [" ++ str "1,# ]\n2]\n" := by decide +kernel
    have hvalue : 91 :: (str "1,# ]\n2]\n").take (skipList (str "1,# ]\n2]\n")) = str "[1," ++ str "# ]" := by
      decide +kernel
    rw [htext, hcomment, if_neg (by decide +kernel), hvalue, toString_append (by decide +kernel),
      toString_comment (by decide +kernel), List.append_nil]
  · have htext : str "a = [1]b = 2\n" = str "a = [" ++ str "1]b = 2\n" := by decide +kernel
    have hend : (str "1]b = 2\n").drop (skipList (str "1]b = 2\n")) = str "b = 2\n" := by decide +kernel
    rw [htext, options_of_ne_nil (hlist _).ne_nil, parseOption_list (hlist _), if_neg (by decide +kernel), hend,
      toString_of_not_mem (by decide +kernel)]
    rfl

end MidnightSun.Config
