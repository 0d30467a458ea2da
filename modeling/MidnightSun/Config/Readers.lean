import MidnightSun.Config.Parse
import MidnightSun.Util.ReadInt

/-!
# Reading options (src/config.cpp, `string_f` to `map_int_int_f`)

A reader takes the value of an option out of the map and stores what it says, or leaves what was stored before.  It is
`none` where the program reads or writes outside an object, or a number overflows.
-/

namespace MidnightSun.Config

open Lib Util

/-- The options that are left. -/
abbrev Vars := List (Str × Str)

def erase (vars : Vars) (name : Str) : Vars := vars.filter fun option => option.1 ≠ name

def stringF (vars : Vars) (name : Str) (input : Str) : Vars × Str :=
  match vars.lookup name with
  | none => (vars, input)
  | some val => (erase vars name, val)

def intF (vars : Vars) (name : Str) (input : Int32) : Option (Vars × Int32) :=
  match vars.lookup name with
  | none => some (vars, input)
  | some val => (readInt val).map fun n => (erase vars name, n)

/-- `to_bool`; the lower case of the characters is computed and not used. -/
def toBool (boolean : Str) : Bool :=
  boolean = str "true" ∨ boolean = str "yes" ∨ boolean = str "enable" ∨ boolean = str "enabled" ∨ boolean = str "on" ∨
    49 ∈ boolean

def boolF (vars : Vars) (name : Str) (input : Bool) : Vars × Bool :=
  let (vars, tmp) := stringF vars name []
  if tmp = [] then (vars, input) else (vars, toBool tmp)

/-- The loop of `list_string_f`: `item` is `[begin, pos)`, and `rest` starts at `pos`.  Behind a list in the list a
character is passed unseen, which may not be there. -/
def listLoop (item rest : Str) : Option (List Str) :=
  match rest with
  | [] => some (if item = [] then [] else [item])
  | ch :: rest =>
    if ch = 91 then
      if skipList rest < rest.length then
        listLoop (item ++ ch :: rest.take (skipList rest + 1)) (rest.drop (skipList rest + 1))
      else none
    else if ch = 93 then some (if item = [] then [] else [item])
    else if ch = 44 then (listLoop [] (rest.dropWhile whitespace)).map (item :: ·)
    else listLoop (item ++ [ch]) rest
termination_by rest.length
decreasing_by
  · rw [List.length_drop, List.length_cons]
    omega
  · exact Nat.lt_succ_of_le (List.length_dropWhile_le _ _)
  · exact Nat.lt_succ_self _

/-- The items of a value. -/
def items (string : Str) : Option (List Str) :=
  let begin := (if string.head? = some 91 then string.drop 1 else string).dropWhile whitespace
  if begin = [] then some [] else listLoop [] begin

def listStringF (vars : Vars) (name : Str) (input : List Str) : Option (Vars × List Str) :=
  let (vars, string) := stringF vars name []
  if string = [] then some (vars, input) else (items string).map fun list => (vars, list)

def listIntF (vars : Vars) (name : Str) (input : List Int32) : Option (Vars × List Int32) :=
  (listStringF vars name []).bind fun (vars, list) =>
    if list = [] then some (vars, input) else (list.mapM readInt).map fun ints => (vars, ints)

/-- The loop of `map_int_int_f`; a key that is there keeps its value. -/
def emplacePairs (input : List (Int32 × Int32)) : List Int32 → List (Int32 × Int32)
  | key :: val :: list => emplacePairs (emplace input (key, val)) list
  | _ => input

def mapIntIntF (vars : Vars) (name : Str) (input : List (Int32 × Int32)) : Option (Vars × List (Int32 × Int32)) :=
  (listIntF vars name []).map fun (vars, list) =>
    if list.length % 2 ≠ 0 then (vars, input) else (vars, emplacePairs input list)

/-! ### The items of a list -/

/-- An item with the white space around it. -/
structure Item where
  before : Str := []
  text : Str
  after : Str := []

/-- The item does not start with white space and has no comma or bracket in it. -/
structure Item.Valid (i : Item) : Prop where
  before : ∀ c ∈ i.before, whitespace c = true
  nonempty : i.text ≠ []
  first : ∀ c ∈ i.text.head?, whitespace c = false
  plain : ∀ c ∈ i.text, c ≠ 91 ∧ c ≠ 93 ∧ c ≠ 44
  after : ∀ c ∈ i.after, whitespace c = true

/-- Items between commas. -/
def joined (is : List Item) : Str := [44].intercalate (is.map fun i => i.before ++ i.text ++ i.after)

/-- A list as it is written. -/
def listText (is : List Item) : Str := 91 :: joined is ++ [93]

lemma not_bracket_of_whitespace {c : UInt8} (h : whitespace c = true) : c ≠ 91 ∧ c ≠ 93 ∧ c ≠ 44 := by
  refine ⟨?_, ?_, ?_⟩ <;> rintro rfl <;> exact absurd h (by decide)

lemma listLoop_append {text : Str} (h : ∀ c ∈ text, c ≠ 91 ∧ c ≠ 93 ∧ c ≠ 44) (item rest : Str) :
    listLoop item (text ++ rest) = listLoop (item ++ text) rest := by
  induction text generalizing item with
  | nil => rw [List.nil_append, List.append_nil]
  | cons c text ih =>
    rw [List.forall_mem_cons] at h
    obtain ⟨⟨hopen, hclose, hcomma⟩, htext⟩ := h
    rw [List.cons_append, listLoop, if_neg hopen, if_neg hclose, if_neg hcomma, ih htext, List.append_assoc,
      List.singleton_append]

lemma listLoop_close (item rest : Str) : listLoop item (93 :: rest) = some (if item = [] then [] else [item]) := by
  rw [listLoop, if_neg (by decide), if_pos rfl]

lemma listLoop_comma (item rest : Str) :
    listLoop item (44 :: rest) = (listLoop [] (rest.dropWhile whitespace)).map (item :: ·) := by
  rw [listLoop, if_neg (by decide), if_neg (by decide), if_pos rfl]

lemma listLoop_item {i : Item} (hi : i.Valid) (rest : Str) :
    listLoop [] ((i.before ++ i.text ++ i.after ++ rest).dropWhile whitespace) = listLoop (i.text ++ i.after) rest := by
  obtain ⟨c, text, htext⟩ := List.exists_cons_of_ne_nil hi.nonempty
  have hfirst : whitespace c = false := hi.first c (by rw [htext]; rfl)
  have hplain : ∀ x ∈ i.text ++ i.after, x ≠ 91 ∧ x ≠ 93 ∧ x ≠ 44 := by
    intro x hx
    rcases List.mem_append.mp hx with hx | hx
    · exact hi.plain x hx
    · exact not_bracket_of_whitespace (hi.after x hx)
  have hdrop : (i.before ++ i.text ++ i.after ++ rest).dropWhile whitespace = i.text ++ i.after ++ rest := by
    rw [List.append_assoc, List.append_assoc, List.dropWhile_append_of_pos hi.before, htext, List.append_assoc]
    exact List.dropWhile_cons_of_neg (ne_true_of_eq_false hfirst)
  rw [hdrop, listLoop_append hplain, List.nil_append]

/-- The items of a list are read with the white space that follows them. -/
theorem listLoop_joined {is : List Item} (hne : is ≠ []) (his : ∀ i ∈ is, i.Valid) (rest : Str) :
    listLoop [] ((joined is ++ 93 :: rest).dropWhile whitespace) = some (is.map fun i => i.text ++ i.after) := by
  induction is with
  | nil => exact absurd rfl hne
  | cons i is ih =>
    rw [List.forall_mem_cons] at his
    obtain ⟨hi, his⟩ := his
    have hitem : i.text ++ i.after ≠ [] := List.append_ne_nil_of_left_ne_nil hi.nonempty _
    cases is with
    | nil =>
      rw [joined, List.map_singleton, List.intercalate_singleton, listLoop_item hi, listLoop_close, if_neg hitem]
      rfl
    | cons i' is =>
      have hjoined : joined (i :: i' :: is) ++ 93 :: rest =
          i.before ++ i.text ++ i.after ++ 44 :: (joined (i' :: is) ++ 93 :: rest) := by
        rw [joined, List.map_cons, List.map_cons, List.intercalate_cons_cons, List.append_assoc, List.append_assoc]
        rfl
      rw [hjoined, listLoop_item hi, listLoop_comma, ih (List.cons_ne_nil _ _) his]
      rfl

theorem items_listText {is : List Item} (his : ∀ i ∈ is, i.Valid) :
    items (listText is) = some (is.map fun i => i.text ++ i.after) := by
  have hbegin : (joined is ++ [93]).dropWhile whitespace ≠ [] := by
    rw [Ne, List.dropWhile_eq_nil_iff]
    exact fun h => absurd (h 93 (by simp)) (by decide)
  rw [items, listText, List.cons_append, List.head?_cons, if_pos rfl, List.drop_one, List.tail_cons, if_neg hbegin]
  by_cases hne : is = []
  · subst hne
    exact listLoop_close [] []
  · exact listLoop_joined hne his []

/-! ### Numbers -/

lemma mapM_eq_some_map_iff {α β γ : Type} {f : α → Option β} {g : γ → α} {h : γ → β} {l : List γ} :
    (l.map g).mapM f = some (l.map h) ↔ ∀ x ∈ l, f (g x) = some (h x) := by
  induction l with
  | nil => simp
  | cons x l ih =>
    rw [List.map_cons, List.map_cons, List.mapM_cons, List.forall_mem_cons, ← ih]
    rcases f (g x) with _ | y <;> rcases (l.map g).mapM f with _ | ys <;> simp

lemma mapM_ne_none_iff {α β : Type} {f : α → Option β} {l : List α} : l.mapM f ≠ none ↔ ∀ x ∈ l, f x ≠ none := by
  induction l with
  | nil => simp
  | cons x l ih =>
    rw [List.mapM_cons, List.forall_mem_cons, ← ih]
    rcases f x with _ | y <;> rcases l.mapM f with _ | ys <;> simp

section Readers

variable {vars : Vars} {name val : Str}

lemma stringF_of_lookup (h : vars.lookup name = some val) (input : Str) :
    stringF vars name input = (erase vars name, val) := by rw [stringF, h]

lemma intF_of_lookup (h : vars.lookup name = some val) (input : Int32) :
    intF vars name input = (readInt val).map fun n => (erase vars name, n) := by rw [intF, h]

lemma listStringF_of_lookup (h : vars.lookup name = some val) (hne : val ≠ []) (input : List Str) :
    listStringF vars name input = (items val).map fun list => (erase vars name, list) := by
  rw [listStringF, stringF_of_lookup h]
  exact if_neg hne

lemma listIntF_of_items {list : List Str} (h : vars.lookup name = some val) (hne : val ≠ [])
    (hitems : items val = some list) (hlist : list ≠ []) (input : List Int32) :
    listIntF vars name input = (list.mapM readInt).map fun ints => (erase vars name, ints) := by
  rw [listIntF, listStringF_of_lookup h hne, hitems]
  exact if_neg hlist

end Readers

/-- A character that numbers are written with. -/
def numeric (c : UInt8) : Bool := isHexDigit c || c = 45 || c = 34 || c = 120

lemma plain_of_numeric {c : UInt8} (h : numeric c = true) : whitespace c = false ∧ c ≠ 91 ∧ c ≠ 93 ∧ c ≠ 44 := by
  refine ⟨?_, ?_, ?_, ?_⟩
  · by_contra hblank
    simp only [whitespace, spaceTab, endline, Bool.not_eq_false, Bool.or_eq_true, beq_iff_eq] at hblank
    rcases hblank with (rfl | rfl) | (rfl | rfl) <;> exact absurd h (by decide)
  all_goals
    rintro rfl
    exact absurd h (by decide)

lemma numeric_decimal {n : ℤ} {c : UInt8} (h : c ∈ decimal n) : numeric c = true := by
  rcases mem_decimal h with rfl | ⟨d, hd, rfl⟩
  · decide
  · have hall : ∀ d < 10, numeric (digit d) = true := by decide
    exact hall d hd

lemma numeric_of_rendering {text : Str} {n : Int32} (h : Rendering text n) : ∀ c ∈ text, numeric c = true := by
  cases h with
  | decimal => exact fun c => numeric_decimal
  | quoted =>
    intro c hc
    rcases List.mem_append.mp hc with hc | hc
    · rcases List.mem_cons.mp hc with rfl | hc
      · decide
      · exact numeric_decimal hc
    · rw [List.mem_singleton.mp hc]
      decide
  | hex hdigits =>
    intro c hc
    rcases List.mem_append.mp hc with hc | hc
    · have hall : ∀ c ∈ str "0x", numeric c = true := by decide +kernel
      exact hall c hc
    · simp [numeric, hdigits c hc]

lemma rendering_ne_nil {text : Str} {n : Int32} (h : Rendering text n) : text ≠ [] := by
  cases h with
  | decimal => exact decimal_ne_nil _
  | quoted => exact List.append_ne_nil_of_left_ne_nil (List.cons_ne_nil _ _) _
  | hex => exact List.append_ne_nil_of_left_ne_nil (by decide) _

lemma valid_of_rendering {before text after : Str} {n : Int32} (h : Rendering text n)
    (hbefore : ∀ c ∈ before, whitespace c = true) (hafter : ∀ c ∈ after, whitespace c = true) :
    Item.Valid ⟨before, text, after⟩ where
  before := hbefore
  nonempty := rendering_ne_nil h
  first := fun c hc => (plain_of_numeric (numeric_of_rendering h c (List.mem_of_head? hc))).1
  plain := fun c hc => (plain_of_numeric (numeric_of_rendering h c hc)).2
  after := hafter

/-- **Numbers are read exactly**, but for hexadecimal numbers with an odd number of digits, and there is room for them
exactly if they fit. -/
theorem numbers_read_iff (vars : Vars) (name : Str) :
    (∀ text n, Rendering text n → ∀ input, vars.lookup name = some text →
      (intF vars name input = some (erase vars name, n) ↔ Paired text)) ∧
    (∀ list : List (Str × Int32), list ≠ [] → (∀ e ∈ list, Rendering e.1 e.2) → ∀ input,
      vars.lookup name = some (listText (list.map fun e => ⟨[], e.1, []⟩)) →
      (listIntF vars name input = some (erase vars name, list.map Prod.snd) ↔ ∀ e ∈ list, Paired e.1)) ∧
    (∀ text input, vars.lookup name = some text → (intF vars name input ≠ none ↔ Fits text)) ∧
    ∀ text list input, vars.lookup name = some text → items text = some list → list ≠ [] →
      (listIntF vars name input ≠ none ↔ ∀ item ∈ list, Fits item) := by
  refine ⟨fun text n h input hval => ?_, fun list hne h input hval => ?_, fun text input hval => ?_,
    fun text list input hval hitems hlist => ?_⟩
  · rw [intF_of_lookup hval, ← readInt_eq_iff h]
    rcases readInt text <;> simp
  · have hitems : items (listText (list.map fun e => ⟨[], e.1, []⟩)) = some (list.map Prod.fst) := by
      rw [items_listText, List.map_map]
      · simp only [Function.comp_def, List.append_nil]
      · intro i hi
        obtain ⟨e, he, rfl⟩ := List.mem_map.mp hi
        exact valid_of_rendering (h e he) (by simp) (by simp)
    rw [listIntF_of_items hval (List.cons_ne_nil _ _) hitems (by simpa using hne)]
    have hread : (∀ e ∈ list, Paired e.1) ↔ (list.map Prod.fst).mapM readInt = some (list.map Prod.snd) := by
      rw [mapM_eq_some_map_iff]
      exact forall₂_congr fun e he => (readInt_eq_iff (h e he)).symm
    rw [hread]
    rcases (list.map Prod.fst).mapM readInt <;> simp
  · rw [intF_of_lookup hval, Ne, Option.map_eq_none_iff, ← Ne, readInt_ne_none_iff]
  · have hne : text ≠ [] := by
      rintro rfl
      rw [show items [] = some [] by decide] at hitems
      exact hlist (Option.some.inj hitems).symm
    rw [listIntF_of_items hval hne hitems hlist, Ne, Option.map_eq_none_iff, ← Ne, mapM_ne_none_iff]
    exact forall₂_congr fun item _ => readInt_ne_none_iff

/-- `0x20` has an even number of digits. -/
theorem numbers_read_0x20 : intF [(str "port", str "0x20")] (str "port") 0 = some ([], 32) :=
  ((numbers_read_iff _ _).1 (str "0x20") 32
    (.hex (h := str "20") (by decide +kernel) (by decide) (by decide) (by decide)) 0 rfl).mpr fun _ => Or.inl
      (by decide)

/-- The one digit of `0xF` has no partner, and the ten digits of `0x0000000005` have no room, nor do 20 decimal ones. -/
theorem numbers_misread :
    ¬((∀ text n, Rendering text n → ∀ vars name input, vars.lookup name = some text →
        intF vars name input = some (erase vars name, n)) ∧
      ∀ vars name text input, vars.lookup name = some text → intF vars name input ≠ none) ∧
    intF [(str "port", str "0xF")] (str "port") 5 = some ([], 0) ∧
    intF [(str "port", str "0x0000000005")] (str "port") 5 = none ∧
    intF [(str "port", str "10000000000000000000")] (str "port") 5 = none := by
  have hodd : intF [(str "port", str "0xF")] (str "port") 5 = some ([], 0) := by decide +kernel
  refine ⟨fun hholds => ?_, hodd, by decide +kernel, by decide +kernel⟩
  have hread := hholds.1 (str "0xF") 15 (.hex (h := str "F") (by decide +kernel) (by decide) (by decide) (by decide))
    [(str "port", str "0xF")] (str "port") 5 rfl
  rw [hodd] at hread
  exact absurd hread (by decide +kernel)

end MidnightSun.Config
