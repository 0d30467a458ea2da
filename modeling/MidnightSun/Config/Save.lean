import MidnightSun.Config.Parse
import MidnightSun.Nlohmann.Json

/-!
# Writing the configuration file (src/confighttp.cpp, `saveConfig`)

The writer prints a line for an option, and the reader of the file is `parse_config`.  `Readable` says which texts
survive this; an option that does not is read as something else, and an open list takes its neighbours along.
-/

namespace MidnightSun.Config

open Lib Nlohmann

variable {F : Type} (dumpFloat : F → Str)

/-- The text that is written for a value. -/
def written : Json F → Str
  | .string s => s
  | v => v.dump dumpFloat

/-- `null` and empty strings are left out. -/
def leftOut : Json F → Bool
  | .null => true
  | .string s => s.isEmpty
  | _ => false

/-- A line of the file. -/
def line (k text : Str) : Str := k ++ str " = " ++ text ++ [10]

/-- What `saveConfig` writes to the file for the members of `input_tree`. -/
def saveConfig (inputTree : List (Str × Json F)) : Str :=
  inputTree.flatMap fun m => if leftOut m.2 then [] else line m.1 (written dumpFloat m.2)

/-- Letters, digits and the underscore. -/
def optionChar (c : UInt8) : Bool :=
  (97 ≤ c && c ≤ 122) || (65 ≤ c && c ≤ 90) || (48 ≤ c && c ≤ 57) || c == 95

/-- Non-empty strings, integers, booleans and arrays. -/
def Settable : Json F → Prop
  | .string s => s ≠ []
  | .integer _ | .boolean _ | .array _ => True
  | _ => False

/-- The options of a request. -/
structure Options (F : Type) where
  members : List (Str × Json F)
  keys : (members.map Prod.fst).Nodup
  names : ∀ m ∈ members, m.1 ≠ [] ∧ ∀ c ∈ m.1, optionChar c = true
  values : ∀ m ∈ members, Settable m.2

/-- What the file stands for. -/
def Options.entries (o : Options F) : List (Str × Str) := o.members.map fun m => (m.1, written dumpFloat m.2)

/-- A text without `#` that is a list closed by its last character, or a single line that starts with no blank. -/
def Readable : Str → Prop
  | [] => False
  | c :: t => 35 ∉ c :: t ∧
      if c = 91 then Closes 91 93 1 t else spaceTab c = false ∧ ∀ x ∈ c :: t, endline x = false

instance : DecidablePred Readable
  | [] => instDecidableFalse
  | _ :: _ => inferInstanceAs (Decidable (_ ∧ _))

lemma isName_of_optionChar {k : Str} (hne : k ≠ []) (h : ∀ c ∈ k, optionChar c = true) : IsName k := by
  refine ⟨hne, fun c hc => ⟨?_, ?_, ?_⟩⟩
  · by_contra hblank
    simp only [whitespace, spaceTab, endline, Bool.not_eq_false, Bool.or_eq_true, beq_iff_eq] at hblank
    rcases hblank with (rfl | rfl) | (rfl | rfl) <;> exact absurd (h _ hc) (by decide)
  · rintro rfl
    exact absurd (h _ hc) (by decide)
  · rintro rfl
    exact absurd (h _ hc) (by decide)

lemma written_ne_nil {v : Json F} (h : Settable v) : written dumpFloat v ≠ [] := by
  cases v with
  | string s => exact h
  | integer n =>
    show Util.decimal n ≠ []
    simp [Util.decimal, Util.digits]
  | boolean b =>
    show (if b then str "true" else str "false") ≠ []
    cases b <;> decide +kernel
  | array es => exact List.cons_ne_nil _ _
  | null => exact absurd h id
  | float x => exact absurd h id
  | object ms => exact absurd h id

lemma leftOut_of_settable {v : Json F} (h : Settable v) : leftOut v = false := by
  cases v with
  | string s => exact eq_false_of_ne_true fun hempty => h (List.isEmpty_iff.mp hempty)
  | integer n => rfl
  | boolean b => rfl
  | array es => rfl
  | null => exact absurd h id
  | float x => exact absurd h id
  | object ms => exact absurd h id

/-! ### One line -/

lemma takeWhile_line {t : Str} (h : ∀ x ∈ t, endline x = false) (rest : Str) :
    (t ++ 10 :: rest).takeWhile (fun ch => !endline ch) = t := by
  rw [List.takeWhile_append_of_pos fun x hx => by simp [h x hx], List.takeWhile_cons_of_neg (by decide),
    List.append_nil]

/-- The reader finds an option of that name on the line. -/
theorem parseOption_line {k : Str} (hk : IsName k) (t rest : Str) :
    let text := 32 :: (t ++ 10 :: rest)
    let n := valueStart (text.takeWhile fun ch => !endline ch)
    parseOption (line k t ++ rest) =
      (text.drop (valueEnd text n), some (k, toString ((text.take (valueEnd text n)).drop n))) := by
  intro text n
  have hline : line k t ++ rest = [] ++ (k ++ [32] ++ 61 :: text) := by
    show k ++ [32, 61, 32] ++ t ++ [10] ++ rest = _
    simp [text]
  have hblank : ∀ c ∈ [(32 : UInt8)], spaceTab c = true := by decide +kernel
  have hne : text.takeWhile (fun ch => !endline ch) ≠ [] := List.cons_ne_nil 32 _
  have hlt : n < (text.takeWhile fun ch => !endline ch).length := valueStart_lt hne
  have hnewline : (text.takeWhile fun ch => !endline ch).length < text.length := by
    refine Nat.lt_of_le_of_ne (List.takeWhile_sublist _).length_le fun heq => ?_
    have hall := List.takeWhile_eq_self_iff.mp ((List.takeWhile_prefix _).eq_of_length heq) 10 (by simp [text])
    exact absurd hall (by decide)
  rw [hline, parseOption_assign (by simp) hk.isOptionName hblank, assigned, if_neg (Nat.ne_of_lt hlt), if_neg]
  rintro ⟨-, -, hlength⟩
  omega

lemma valueStart_line {c : UInt8} (hc : whitespace c = false) (hne : c ≠ 35) (t rest : Str) :
    valueStart ((32 :: (c :: t ++ 10 :: rest)).takeWhile fun ch => !endline ch) = 1 := by
  have hendline : endline c = false := (Bool.or_eq_false_iff.mp hc).2
  have hspace : endline 32 = false := by decide
  have htake : (32 :: (c :: t ++ 10 :: rest)).takeWhile (fun ch => !endline ch) =
      32 :: c :: (t ++ 10 :: rest).takeWhile fun ch => !endline ch := by simp [hendline, hspace]
  rw [htake, valueStart_of_kept hc hne]

/-- **A readable text is read back**, and nothing of what follows it. -/
theorem parseOption_line_of_readable {k t : Str} (hk : IsName k) (ht : Readable t) (rest : Str) :
    parseOption (line k t ++ rest) = (10 :: rest, some (k, t)) := by
  rcases t with _ | ⟨c, t⟩
  · exact absurd ht id
  obtain ⟨hcomment, hform⟩ := ht
  have hne : c ≠ 35 := fun heq => hcomment (heq ▸ List.mem_cons_self)
  have hkept : whitespace c = false := by
    by_cases hc : c = 91
    · subst hc
      decide
    · rw [if_neg hc] at hform
      exact Bool.or_eq_false_iff.mpr ⟨hform.1, hform.2 c List.mem_cons_self⟩
  have hend : valueEnd (32 :: (c :: t ++ 10 :: rest)) 1 = t.length + 2 := by
    by_cases hc : c = 91
    · subst hc
      rw [if_pos rfl] at hform
      have hskip : skipList (t ++ 10 :: rest) = t.length :=
        (skip_append_eq_length_iff (by decide) (List.cons_ne_nil _ _) 1 t).mpr hform
      show 2 + skipList (t ++ 10 :: rest) = t.length + 2
      omega
    · rw [if_neg hc] at hform
      have hget : ¬(32 :: (c :: t ++ 10 :: rest))[1]? = some 91 := by simpa using hc
      rw [valueEnd, if_neg hget, ← List.cons_append, takeWhile_line]
      · rfl
      · intro x hx
        rcases List.mem_cons.mp hx with rfl | hx
        · decide
        · exact hform.2 x hx
  have hline := parseOption_line hk (c :: t) rest
  simp only [valueStart_line hkept hne, hend] at hline
  rw [hline]
  have hdrop : (32 :: (c :: t ++ 10 :: rest)).drop (t.length + 2) = 10 :: rest := by simp
  have htake : ((32 :: (c :: t ++ 10 :: rest)).take (t.length + 2)).drop 1 = c :: t := by simp
  rw [hdrop, htake, toString_of_not_mem hcomment]

/-- A range that reads as the text ends with the text: a shorter one reads shorter, and a longer one has the line
feed. -/
lemma length_of_toString_take {t rest : Str} {m : ℕ} (h : 35 ∉ t) (hread : toString ((t ++ 10 :: rest).take m) = t) :
    m = t.length := by
  rcases Nat.lt_trichotomy m t.length with hlt | heq | hgt
  · rw [List.take_append_of_le_length (Nat.le_of_lt hlt),
      toString_of_not_mem fun hmem => h (List.mem_of_mem_take hmem)] at hread
    have hlength := congrArg List.length hread
    rw [List.length_take] at hlength
    omega
  · exact heq
  · obtain ⟨j, rfl⟩ : ∃ j, m = t.length + (j + 1) := ⟨m - t.length - 1, by omega⟩
    rw [List.take_length_add_append, List.take_succ_cons, toString_append h] at hread
    have hfeed : toString ([10] ++ rest.take j) = [10] ++ toString (rest.take j) := toString_append (by decide) _
    rw [List.singleton_append] at hfeed
    rw [hfeed] at hread
    have hlength := congrArg List.length hread
    simp at hlength

lemma head_of_list {text : Str} {n : ℕ} (h : text[n]? = some 91) :
    ∃ t, toString ((text.take (valueEnd text n)).drop n) = 91 :: t := by
  obtain ⟨hn, hget⟩ := List.getElem?_eq_some_iff.mp h
  have hsplit : text.drop n = 91 :: text.drop (n + 1) := by rw [List.drop_eq_getElem_cons hn, hget]
  have hend : valueEnd text n - n = skipList (text.drop (n + 1)) + 1 := by
    rw [valueEnd, if_pos h]
    omega
  have hone : toString ([91] ++ (text.drop (n + 1)).take (skipList (text.drop (n + 1)))) =
      [91] ++ toString ((text.drop (n + 1)).take (skipList (text.drop (n + 1)))) := toString_append (by decide) _
  rw [List.drop_take, hend, hsplit, List.take_succ_cons]
  exact ⟨_, hone⟩

/-- Every line has an option of its name, and only a readable text is the text of that option. -/
theorem exists_parseOption_line {k t : Str} (hk : IsName k) (hne : t ≠ []) (rest : Str) :
    ∃ endl t', parseOption (line k t ++ rest) = (endl, some (k, t')) ∧ (t' = t → Readable t) := by
  refine ⟨_, _, parseOption_line hk t rest, fun hread => ?_⟩
  have hcomment : 35 ∉ t := fun hmem => (toString_subset _ 35 (hread ▸ hmem)).2 rfl
  obtain ⟨c, t, rfl⟩ := List.exists_cons_of_ne_nil hne
  refine ⟨hcomment, ?_⟩
  split_ifs with hc
  · subst hc
    have hm : skipList (t ++ 10 :: rest) + 1 = (91 :: t).length := by
      apply length_of_toString_take hcomment
      rw [valueStart_line (by decide) (by decide)] at hread
      have hend : valueEnd (32 :: (91 :: t ++ 10 :: rest)) 1 = skipList (t ++ 10 :: rest) + 1 + 1 := by
        show 2 + skipList (t ++ 10 :: rest) = _
        omega
      rwa [hend, List.take_succ_cons, List.drop_succ_cons, List.drop_zero] at hread
    exact (skip_append_eq_length_iff (by decide) (List.cons_ne_nil _ _) 1 t).mp (Nat.succ_inj.mp hm)
  · generalize hn : valueStart ((32 :: (c :: t ++ 10 :: rest)).takeWhile fun ch => !endline ch) = n at hread
    have hlist : ¬(32 :: (c :: t ++ 10 :: rest))[n]? = some 91 := by
      intro h
      obtain ⟨t', ht'⟩ := head_of_list h
      rw [ht'] at hread
      exact hc (List.cons.inj hread).1.symm
    -- The value ends with the line.
    rw [valueEnd, if_neg hlist, ← List.prefix_iff_eq_take.mp (List.takeWhile_prefix fun ch => !endline ch)] at hread
    have hlines : ∀ x ∈ c :: t, endline x = false := by
      intro x hx
      have hmem := List.mem_of_mem_drop (toString_subset _ x (hread ▸ hx)).1
      simpa using List.mem_takeWhile_imp (p := fun ch => !endline ch) hmem
    refine ⟨?_, hlines⟩
    have hall : ∀ x ∈ 32 :: c :: t, endline x = false := by
      intro x hx
      rcases List.mem_cons.mp hx with rfl | hx
      · decide
      · exact hlines x hx
    have htake := takeWhile_line hall rest
    rw [List.cons_append] at htake
    rw [htake] at hread hn
    have hspace : 35 ∉ 32 :: c :: t := by simpa using hcomment
    rw [toString_of_not_mem fun hmem => hspace (List.mem_of_mem_drop hmem)] at hread
    have hone : n = 1 := by
      have hlength := congrArg List.length hread
      simp only [List.length_drop, List.length_cons] at hlength
      omega
    exact eq_false_of_ne_true fun hblank => valueStart_ne_one hblank t (hn.trans hone)

/-! ### Which texts are readable -/

lemma readable_boolean (b : Bool) : Readable (written dumpFloat (.boolean b)) := by
  show Readable (if b then str "true" else str "false")
  cases b <;> decide +kernel

lemma readable_integer (n : ℤ) : Readable (written dumpFloat (.integer n)) := by
  show Readable (Util.decimal n)
  have hall : ∀ c ∈ Util.decimal n, c ≠ 35 ∧ c ≠ 91 ∧ whitespace c = false := by
    intro c hc
    rcases Util.mem_decimal hc with rfl | ⟨d, hd, rfl⟩
    · decide
    · have hdigits : ∀ d < 10, Util.digit d ≠ 35 ∧ Util.digit d ≠ 91 ∧ whitespace (Util.digit d) = false := by decide
      exact hdigits d hd
  have hne := written_ne_nil dumpFloat (v := .integer n) trivial
  change Util.decimal n ≠ [] at hne
  generalize Util.decimal n = t at *
  obtain ⟨c, t, rfl⟩ := List.exists_cons_of_ne_nil hne
  have hfirst := hall c List.mem_cons_self
  refine ⟨fun hmem => (hall 35 hmem).1 rfl, ?_⟩
  rw [if_neg hfirst.2.1]
  exact ⟨(Bool.or_eq_false_iff.mp hfirst.2.2).1, fun x hx => (Bool.or_eq_false_iff.mp (hall x hx).2.2).2⟩

lemma readable_array {es : List (Json F)} (h : ∀ x, Json.Foreign x → x ∉ Json.innerElements dumpFloat es) :
    Readable (written dumpFloat (.array es)) := by
  obtain ⟨hcomment, hbalanced⟩ := Json.harmless_commas (Json.harmless_dumpElements dumpFloat es h)
  show Readable (91 :: (commas (Json.dumpElements dumpFloat es) ++ [93]))
  refine ⟨by simpa using hcomment, ?_⟩
  rw [if_pos rfl]
  exact hbalanced.closes (by decide)

/-- Booleans, integers, readable strings, and arrays whose strings, keys and `double`s have no `#` and no square
bracket. -/
def Plain : Json F → Prop
  | .string s => Readable s
  | .integer _ | .boolean _ => True
  | .array es => ∀ x, Json.Foreign x → x ∉ Json.innerElements dumpFloat es
  | _ => False

theorem readable_of_plain {v : Json F} (h : Plain dumpFloat v) : Readable (written dumpFloat v) := by
  cases v with
  | string s => exact h
  | integer n => exact readable_integer dumpFloat n
  | boolean b => exact readable_boolean dumpFloat b
  | array es => exact readable_array dumpFloat h
  | null | float x | object ms => exact absurd h id

/-! ### The whole file -/

lemma parseLoop_nil (vars : List (Str × Str)) : parseLoop vars [] = vars := by rw [parseLoop, if_pos rfl]

lemma parseLoop_of_ne_nil {pos : Str} (h : pos ≠ []) (vars : List (Str × Str)) :
    parseLoop vars pos = parseLoop ((parseOption pos).2.elim vars (emplace vars)) (next (parseOption pos).1) := by
  rw [parseLoop, if_neg h]

theorem lookup_parseLoop_of_some {vars : List (Str × Str)} {k v : Str} (pos : Str) (h : vars.lookup k = some v) :
    (parseLoop vars pos).lookup k = some v := by
  induction vars, pos using parseLoop.induct with
  | case1 vars => rwa [parseLoop_nil]
  | case2 vars pos hpos option ih =>
    rw [parseLoop_of_ne_nil hpos]
    apply ih
    cases hvar : (parseOption pos).2 with
    | none => exact h
    | some var => exact lookup_emplace_of_some h var

lemma line_append_ne_nil {k t : Str} (hk : IsName k) (rest : Str) : line k t ++ rest ≠ [] := by
  simp [line, hk.1]

theorem parseLoop_line_of_readable {vars : List (Str × Str)} {k t : Str} (hk : IsName k) (hnew : vars.lookup k = none)
    (ht : Readable t) (rest : Str) : parseLoop vars (line k t ++ rest) = parseLoop (vars ++ [(k, t)]) rest := by
  rw [parseLoop_of_ne_nil (line_append_ne_nil hk rest), parseOption_line_of_readable hk ht]
  show parseLoop (emplace vars (k, t)) rest = _
  rw [emplace_of_none hnew]

theorem readable_of_parseLoop_line {vars : List (Str × Str)} {k t : Str} (hk : IsName k) (hnew : vars.lookup k = none)
    (hne : t ≠ []) {rest : Str} (hread : (parseLoop vars (line k t ++ rest)).lookup k = some t) : Readable t := by
  obtain ⟨endl, t', hoption, ht⟩ := exists_parseOption_line hk hne rest
  rw [parseLoop_of_ne_nil (line_append_ne_nil hk rest), hoption] at hread
  have hfound : (emplace vars (k, t')).lookup k = some t' := by
    rw [emplace_of_none hnew, List.lookup_append, hnew]
    simp
  have hstays := lookup_parseLoop_of_some (next endl) hfound
  exact ht (Option.some.inj (hstays.symm.trans hread))

namespace Options

lemma saveConfig_cons {m : Str × Json F} {ms : List (Str × Json F)} (h : Settable m.2) :
    saveConfig dumpFloat (m :: ms) = line m.1 (written dumpFloat m.2) ++ saveConfig dumpFloat ms := by
  rw [saveConfig, List.flatMap_cons, leftOut_of_settable h]
  rfl

variable {ms : List (Str × Json F)} {vars : List (Str × Str)}

lemma lookup_append_line {m : Str × Json F} (hm : m.1 ∉ ms.map Prod.fst) (hnew : ∀ m ∈ ms, vars.lookup m.1 = none)
    (t : Str) : ∀ m' ∈ ms, (vars ++ [(m.1, t)]).lookup m'.1 = none := by
  intro m' hm'
  have hne : m'.1 ≠ m.1 := fun heq => hm (heq ▸ List.mem_map_of_mem hm')
  exact lookup_append_singleton_of_ne (hnew m' hm') hne t

theorem parseLoop_of_readable (hnames : ∀ m ∈ ms, IsName m.1) (hvalues : ∀ m ∈ ms, Settable m.2)
    (hkeys : (ms.map Prod.fst).Nodup) (hnew : ∀ m ∈ ms, vars.lookup m.1 = none)
    (h : ∀ m ∈ ms, Readable (written dumpFloat m.2)) :
    parseLoop vars (saveConfig dumpFloat ms) = vars ++ ms.map fun m => (m.1, written dumpFloat m.2) := by
  induction ms generalizing vars with
  | nil => rw [List.map_nil, List.append_nil]; exact parseLoop_nil vars
  | cons m ms ih =>
    rw [List.forall_mem_cons] at hnames hvalues hnew h
    rw [List.map_cons, List.nodup_cons] at hkeys
    rw [saveConfig_cons dumpFloat hvalues.1, parseLoop_line_of_readable hnames.1 hnew.1 h.1]
    have hnew' := lookup_append_line hkeys.1 hnew.2 (written dumpFloat m.2)
    rw [ih hnames.2 hvalues.2 hkeys.2 hnew' h.2, List.append_assoc]
    rfl

/-- What is read back is readable: the first text that is not spoils its own option. -/
theorem readable_of_parseLoop (hnames : ∀ m ∈ ms, IsName m.1) (hvalues : ∀ m ∈ ms, Settable m.2)
    (hkeys : (ms.map Prod.fst).Nodup) (hnew : ∀ m ∈ ms, vars.lookup m.1 = none)
    (h : ∀ m ∈ ms, (parseLoop vars (saveConfig dumpFloat ms)).lookup m.1 = some (written dumpFloat m.2)) :
    ∀ m ∈ ms, Readable (written dumpFloat m.2) := by
  induction ms generalizing vars with
  | nil => simp
  | cons m ms ih =>
    rw [List.forall_mem_cons] at hnames hvalues hnew
    rw [List.map_cons, List.nodup_cons] at hkeys
    rw [saveConfig_cons dumpFloat hvalues.1] at h
    have hfirst : Readable (written dumpFloat m.2) :=
      readable_of_parseLoop_line hnames.1 hnew.1 (written_ne_nil dumpFloat hvalues.1) (h m List.mem_cons_self)
    have hnew' := lookup_append_line hkeys.1 hnew.2 (written dumpFloat m.2)
    have hrest : ∀ m' ∈ ms, (parseLoop (vars ++ [(m.1, written dumpFloat m.2)]) (saveConfig dumpFloat ms)).lookup m'.1 =
        some (written dumpFloat m'.2) := by
      intro m' hm'
      have hread := h m' (List.mem_cons_of_mem m hm')
      rwa [parseLoop_line_of_readable hnames.1 hnew.1 hfirst] at hread
    exact List.forall_mem_cons.mpr ⟨hfirst, ih hnames.2 hvalues.2 hkeys.2 hnew' hrest⟩

/-- The file reads as the options, and as nothing else. -/
def ReadsBack (o : Options F) : Prop :=
  ∀ k, (parseConfig (saveConfig dumpFloat o.members)).lookup k = (o.entries dumpFloat).lookup k

lemma isName (o : Options F) : ∀ m ∈ o.members, IsName m.1 := fun m hm =>
  isName_of_optionChar (o.names m hm).1 (o.names m hm).2

lemma readsBack_of_readable {o : Options F} (h : ∀ m ∈ o.members, Readable (written dumpFloat m.2)) :
    o.ReadsBack dumpFloat := by
  intro k
  rw [parseConfig, parseLoop_of_readable dumpFloat o.isName o.values o.keys (fun _ _ => List.lookup_nil) h]
  rfl

lemma readable_of_readsBack {o : Options F} (h : o.ReadsBack dumpFloat) :
    ∀ m ∈ o.members, Readable (written dumpFloat m.2) := by
  refine readable_of_parseLoop dumpFloat o.isName o.values o.keys (fun _ _ => List.lookup_nil) fun m hm => ?_
  have hkeys : ((o.entries dumpFloat).map Prod.fst).Nodup := by
    rw [entries, List.map_map]
    exact o.keys
  refine (h m.1).trans ((lookup_eq_some_of_keys hkeys).mpr ?_)
  exact List.mem_map_of_mem (f := fun m : Str × Json F => (m.1, written dumpFloat m.2)) hm

/-- **Saved options are read back** exactly if every text is readable. -/
theorem readsBack_iff (o : Options F) :
    o.ReadsBack dumpFloat ↔ ∀ m ∈ o.members, Readable (written dumpFloat m.2) :=
  ⟨readable_of_readsBack dumpFloat, readsBack_of_readable dumpFloat⟩

/-- **Plain options are read back.** -/
theorem readsBack_of_plain (o : Options F) (h : ∀ m ∈ o.members, Plain dumpFloat m.2) : o.ReadsBack dumpFloat :=
  readsBack_of_readable dumpFloat fun m hm => readable_of_plain dumpFloat (h m hm)

/-- A name that starts with a bracket, and an option after it. -/
def bracketedName : Options Empty where
  members := [(str "sunshine_name", .string (str "[TV")), (str "upnp", .boolean true)]
  keys := by decide +kernel
  names := by decide +kernel
  values := by
    rintro m hm
    rcases List.mem_pair.mp hm with rfl | rfl
    · exact List.cons_ne_nil _ _
    · trivial

/-- The open bracket takes the other option along. -/
theorem not_readsBack_bracketedName : ¬bracketedName.ReadsBack Empty.elim := by
  intro h
  have hreadable := readable_of_readsBack Empty.elim h _ List.mem_cons_self
  exact absurd hreadable (by decide)

end Options

end MidnightSun.Config
