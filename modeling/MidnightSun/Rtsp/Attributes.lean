import MidnightSun.Lib.Keyed
import MidnightSun.Lib.View
import MidnightSun.Rtsp.Announce

/-!
# The attributes of an ANNOUNCE request, index by index (src/rtsp.cpp, `cmd_announce`)

The loops over the payload with their positions and string views, where each read of a byte is checked against the
payload.
-/

namespace MidnightSun.Rtsp

open Lib

/-! ### The lines -/

/-- The inner loop: line breaks are skipped. -/
def skipBreaks (payload : Str) (pos : ℕ) : Except Fault ℕ :=
  if pos = payload.length then .ok pos
  else
    match h : payload[pos]? with
    | none => .error .outOfBounds
    | some ch => if isLineBreak ch then skipBreaks payload (pos + 1) else .ok pos
termination_by payload.length - pos
decreasing_by
  have hlt := (List.getElem?_eq_some_iff.mp h).1
  omega

lemma le_of_skipBreaks {payload : Str} {pos pos' : ℕ} (h : skipBreaks payload pos = .ok pos') : pos ≤ pos' := by
  fun_induction skipBreaks payload pos with
  | case1 =>
    cases h
    exact Nat.le_refl _
  | case2 => cases h
  | case3 pos _ _ _ _ ih => exact Nat.le_of_succ_le (ih h)
  | case4 =>
    cases h
    exact Nat.le_refl _

/-- The outer loop, with the lines found so far; `begin` is the start of the present one. -/
def splitLoop (payload : Str) (pos start : ℕ) (lines : List (View UInt8)) : Except Fault (List (View UInt8)) :=
  if pos = payload.length then .ok lines
  else
    match h : payload[pos]? with
    | none => .error .outOfBounds
    | some ch =>
      if isLineBreak ch then
        match hskip : skipBreaks payload (pos + 1) with
        | .error e => .error e
        | .ok next => splitLoop payload next next (lines ++ [⟨payload, start, pos - start⟩])
      else splitLoop payload (pos + 1) start lines
termination_by payload.length - pos
decreasing_by
  all_goals have hlt := (List.getElem?_eq_some_iff.mp h).1
  · have hle := le_of_skipBreaks hskip
    omega
  · omega

/-! ### The attributes -/

/-- `std::string_view::substr`; without a count it goes to the end. -/
def substr (v : View UInt8) (pos : ℕ) (count : Option ℕ) : Except Fault (View UInt8) :=
  if pos ≤ v.size then .ok (v.shift pos (min (count.getD v.size) (v.size - pos))) else .error .exception

/-- `operator[]` of a `std::string_view`, which is not bounded by its size. -/
def byteAt (v : View UInt8) (i : ℤ) : Except Fault UInt8 :=
  if 0 ≤ v.offset + i then
    match v.buffer[(v.offset + i).toNat]? with
    | some ch => .ok ch
    | none => .error .outOfBounds
  else .error .outOfBounds

/-- The name and the value of a line `a=`.  Without a colon `pos` is `npos`, and `pos + 1` is 0. -/
def nameAndValue (line : View UInt8) (text : Str) : Except Fault (View UInt8 × View UInt8) :=
  match text.idxOf? 58 with
  | some pos => do
    let name ← substr line 2 (some (pos - 2))
    let val ← substr line (pos + 1) none
    .ok (name, val)
  | none => do
    let name ← substr line 2 none
    let val ← substr line 0 none
    .ok (name, val)

/-- `val`, without the space at its end; of an empty one the byte before it is looked at. -/
def trimView (val : View UInt8) : Except Fault (View UInt8) := do
  let last ← byteAt val ((val.size : ℤ) - 1)
  if last = 32 then substr val 0 (some (val.size - 1)) else .ok val

/-- One turn of the loop over the lines. -/
def attributeStep (args : List (Str × Str)) (line : View UInt8) : Except Fault (List (Str × Str)) := do
  let text ← line.readAll
  if text.take 2 = str "s=" then
    let _ ← substr line 2 none
    .ok args
  else if text.take 2 = str "a=" then
    let (name, val) ← nameAndValue line text
    let val ← trimView val
    let key ← name.readAll
    let value ← val.readAll
    .ok (emplace args (key, value))
  else .ok args

/-- `args` before the defaults are added. -/
def parseAttributes (payload : Str) : Except Fault (List (Str × Str)) := do
  let lines ← splitLoop payload 0 0 []
  lines.foldlM attributeStep []

/-! ### No read leaves the payload -/

lemma splitLines_break {ch : UInt8} (h : isLineBreak ch = true) (line payload : Str) :
    splitLines false line (ch :: payload) = line :: splitLines true [] payload := by
  rw [splitLines, if_pos h, if_neg Bool.false_ne_true]

lemma splitLines_skip {ch : UInt8} (h : isLineBreak ch = true) (payload : Str) :
    splitLines true [] (ch :: payload) = splitLines true [] payload := by
  rw [splitLines, if_pos h, if_pos rfl]

lemma splitLines_char {ch : UInt8} (h : ¬isLineBreak ch = true) (skip : Bool) (line payload : Str) :
    splitLines skip line (ch :: payload) = splitLines false (line ++ [ch]) payload := by
  rw [splitLines, if_neg h]

/-- The inner loop stops within the payload, where the line breaks end. -/
lemma skipBreaks_spec {payload : Str} {pos : ℕ} (h : pos ≤ payload.length) :
    ∃ next, skipBreaks payload pos = .ok next ∧ next ≤ payload.length ∧
      splitLines true [] (payload.drop pos) = splitLines false [] (payload.drop next) := by
  fun_induction skipBreaks payload pos with
  | case1 =>
    refine ⟨_, rfl, h, ?_⟩
    rw [List.drop_length]
    rfl
  | case2 pos hend hnone =>
    have hge := List.getElem?_eq_none_iff.mp hnone
    omega
  | case3 pos hend ch hch hbreak ih =>
    obtain ⟨hlt, rfl⟩ := List.getElem?_eq_some_iff.mp hch
    rw [List.drop_eq_getElem_cons hlt, splitLines_skip hbreak]
    exact ih hlt
  | case4 pos hend ch hch hbreak =>
    obtain ⟨hlt, rfl⟩ := List.getElem?_eq_some_iff.mp hch
    refine ⟨_, rfl, h, ?_⟩
    rw [List.drop_eq_getElem_cons hlt, splitLines_char hbreak, splitLines_char hbreak]

/-- A string view that lies in the payload. -/
structure InPayload (payload : Str) (v : View UInt8) : Prop where
  buffer : v.buffer = payload
  start : 0 ≤ v.offset
  stop : v.offset + v.size ≤ payload.length

/-- The text of a string view. -/
def textOf (v : View UInt8) : Str := v.slice 0 v.size

/-- The outer loop finds the lines of the payload, as string views into it. -/
theorem splitLoop_spec {payload : Str} {pos start : ℕ} (hpos : pos ≤ payload.length) (hstart : start ≤ pos)
    {lines : List (View UInt8)} (hlines : ∀ v ∈ lines, InPayload payload v) :
    ∃ found, splitLoop payload pos start lines = .ok found ∧ (∀ v ∈ found, InPayload payload v) ∧
      found.map textOf =
        lines.map textOf ++ splitLines false ((payload.drop start).take (pos - start)) (payload.drop pos) := by
  fun_induction splitLoop payload pos start lines with
  | case1 start lines =>
    refine ⟨_, rfl, hlines, ?_⟩
    rw [List.drop_length, splitLines, List.append_nil]
  | case2 pos start lines hend hnone =>
    have hge := List.getElem?_eq_none_iff.mp hnone
    omega
  | case3 pos start lines hend ch hch hbreak e hskip =>
    obtain ⟨hlt, rfl⟩ := List.getElem?_eq_some_iff.mp hch
    obtain ⟨next, hnext, -⟩ := skipBreaks_spec (Nat.succ_le_of_lt hlt)
    rw [hnext] at hskip
    cases hskip
  | case4 pos start lines hend ch hch hbreak next hskip ih =>
    obtain ⟨hlt, rfl⟩ := List.getElem?_eq_some_iff.mp hch
    obtain ⟨next', hnext, hle, heq⟩ := skipBreaks_spec (Nat.succ_le_of_lt hlt)
    obtain rfl : next = next' := by
      rw [hnext] at hskip
      exact (Except.ok.inj hskip).symm
    have hline : InPayload payload ⟨payload, start, pos - start⟩ := by
      refine ⟨rfl, by simp, ?_⟩
      dsimp only
      omega
    obtain ⟨found, hfound, hin, hmap⟩ := ih hle (Nat.le_refl _) (by
      intro v hv
      rcases List.mem_append.mp hv with h | h
      · exact hlines v h
      · rw [List.mem_singleton.mp h]
        exact hline)
    refine ⟨found, hfound, hin, ?_⟩
    rw [hmap, Nat.sub_self, List.take_zero, List.drop_eq_getElem_cons hlt, splitLines_break hbreak, heq,
      List.map_append, List.append_assoc]
    simp [textOf, View.slice]
  | case5 pos start lines hend ch hch hbreak ih =>
    obtain ⟨hlt, rfl⟩ := List.getElem?_eq_some_iff.mp hch
    obtain ⟨found, hfound, hin, hmap⟩ := ih hlt (by omega) hlines
    refine ⟨found, hfound, hin, ?_⟩
    rw [hmap, List.drop_eq_getElem_cons hlt, splitLines_char hbreak, Nat.succ_sub hstart,
      List.take_succ_eq_append_getElem (by rw [List.length_drop]; omega), List.getElem_drop]
    simp only [Nat.add_sub_cancel' hstart]

section InPayload

variable {payload : Str} {v : View UInt8} (h : InPayload payload v)
include h

lemma InPayload.readAll : v.readAll = .ok (textOf v) := by
  apply View.read_eq_ok
  right
  have hstart := h.start
  have hstop := h.stop
  rw [h.buffer]
  omega

lemma InPayload.length_textOf : (textOf v).length = v.size := by
  have hstart := h.start
  have hstop := h.stop
  rw [textOf, View.slice, List.length_take, List.length_drop, h.buffer]
  omega

lemma InPayload.substr {pos : ℕ} (hpos : pos ≤ v.size) (count : Option ℕ) :
    ∃ w, substr v pos count = .ok w ∧ InPayload payload w ∧ w.offset = v.offset + pos ∧
      textOf w = ((textOf v).drop pos).take (count.getD v.size) := by
  have hstart := h.start
  have hstop := h.stop
  refine ⟨_, if_pos hpos, ⟨h.buffer, ?_, ?_⟩, rfl, ?_⟩
  · rw [View.shift]
    dsimp only
    omega
  · rw [View.shift]
    dsimp only
    omega
  · have hoff : (v.offset + pos + 0).toNat = (v.offset + 0).toNat + pos := by omega
    rw [textOf, textOf, View.slice, View.slice, View.shift]
    dsimp only
    rw [hoff, List.drop_take, List.take_take, List.drop_drop]

/-- The byte before the end of a view that does not end at the start of the payload: its last one if it has any. -/
lemma InPayload.byteAt (hend : 1 ≤ v.offset + v.size) :
    ∃ ch, byteAt v ((v.size : ℤ) - 1) = .ok ch ∧ (textOf v ≠ [] → (textOf v).getLast? = some ch) := by
  have hstart := h.start
  have hstop := h.stop
  obtain ⟨n, hn⟩ : ∃ n : ℕ, v.offset + ((v.size : ℤ) - 1) = n := ⟨_, (Int.toNat_of_nonneg (by omega)).symm⟩
  have hlt : n < payload.length := by omega
  refine ⟨payload[n], ?_, ?_⟩
  · rw [Rtsp.byteAt, hn, if_pos (by omega), h.buffer, Int.toNat_natCast, List.getElem?_eq_getElem hlt]
  · intro hne
    have hpos : 0 < v.size := by
      rw [← h.length_textOf]
      exact List.length_pos_iff.mpr hne
    rw [List.getLast?_eq_getElem?, h.length_textOf, textOf, View.slice, List.getElem?_take_of_lt (by omega),
      List.getElem?_drop, h.buffer, ← List.getElem?_eq_getElem hlt]
    congr 1
    omega

/-- The name and the value that an attribute line is read as. -/
lemma InPayload.nameAndValue (htype : (textOf v).take 2 = str "a=") :
    ∃ name val, nameAndValue v (textOf v) = .ok (name, val) ∧ InPayload payload name ∧ InPayload payload val ∧
      1 ≤ val.offset + val.size ∧ attributeOf (textOf v) = some (textOf name, trimSpace (textOf val)) := by
  have hlen := h.length_textOf
  have hsize : 2 ≤ v.size := by
    have htake := congrArg List.length htype
    rw [List.length_take, hlen, show (str "a=").length = 2 from rfl] at htake
    omega
  have hall : (textOf v).take v.size = textOf v := by rw [← hlen, List.take_length]
  have hstart := h.start
  rw [Rtsp.nameAndValue, attributeOf, if_pos htype]
  rcases hpos : (textOf v).idxOf? 58 with _ | pos
  · obtain ⟨name, hname, hin, -, htext⟩ := h.substr hsize none
    obtain ⟨val, hval, hin', hoff, htext'⟩ := h.substr (Nat.zero_le v.size) none
    have hsize' := hin'.length_textOf
    rw [Option.getD_none, List.take_of_length_le (by rw [List.length_drop]; omega)] at htext htext'
    rw [htext', List.drop_zero, hlen] at hsize'
    refine ⟨name, val, ?_, hin, hin', by omega, ?_⟩
    · rw [hname, hval]
      rfl
    · rw [htext, htext', List.drop_zero]
  · -- the name ends at the colon, and the value starts behind it
    obtain ⟨hlt, -⟩ := List.idxOf?_eq_some_iff.mp hpos
    rw [hlen] at hlt
    obtain ⟨name, hname, hin, -, htext⟩ := h.substr hsize (some (pos - 2))
    obtain ⟨val, hval, hin', hoff, htext'⟩ := h.substr (Nat.succ_le_of_lt hlt) none
    rw [Option.getD_none, List.take_of_length_le (by rw [List.length_drop]; omega)] at htext'
    refine ⟨name, val, ?_, hin, hin', by omega, ?_⟩
    · dsimp only
      rw [hname, hval]
      rfl
    · dsimp only
      rw [htext, htext', List.drop_take]
      rfl

/-- One space is dropped at the end of a value. -/
lemma InPayload.trimView (hend : 1 ≤ v.offset + v.size) :
    ∃ w, trimView v = .ok w ∧ InPayload payload w ∧ textOf w = trimSpace (textOf v) := by
  obtain ⟨ch, hch, hlast⟩ := h.byteAt hend
  rw [Rtsp.trimView, hch]
  change ∃ w, (if ch = 32 then _ else _) = _ ∧ _
  by_cases h32 : ch = 32
  · obtain ⟨w, hw, hin, -, htext⟩ := h.substr (Nat.zero_le v.size) (some (v.size - 1))
    refine ⟨w, by rw [if_pos h32, hw], hin, ?_⟩
    rw [htext, List.drop_zero, Option.getD_some, ← h.length_textOf, ← List.dropLast_eq_take, trimSpace]
    rcases eq_or_ne (textOf v) [] with hnil | hne
    · rw [hnil]
      rfl
    · rw [if_pos (by rw [hlast hne, h32])]
  · refine ⟨v, if_neg h32, h, ?_⟩
    rw [trimSpace, if_neg]
    intro hget
    have hne : textOf v ≠ [] := by
      intro hnil
      rw [hnil] at hget
      cases hget
    rw [hlast hne] at hget
    exact h32 (Option.some.inj hget)

/-- A turn of the loop adds the attribute of the line, if it has one. -/
theorem InPayload.attributeStep (args : List (Str × Str)) :
    attributeStep args v = .ok ((attributeOf (textOf v)).toList.foldl emplace args) := by
  have hlen := h.length_textOf
  rw [Rtsp.attributeStep, h.readAll]
  by_cases hs : (textOf v).take 2 = str "s="
  · have hsize : 2 ≤ v.size := by
      have htake := congrArg List.length hs
      rw [List.length_take, hlen, show (str "s=").length = 2 from rfl] at htake
      omega
    obtain ⟨client, hclient, -⟩ := h.substr hsize none
    have hne : attributeOf (textOf v) = none := by
      rw [attributeOf, hs]
      rfl
    simp only [Bind.bind, Except.bind, if_pos hs, hclient, hne]
    rfl
  · by_cases ha : (textOf v).take 2 = str "a="
    · obtain ⟨name, val, hread, hname, hval, hend, hattr⟩ := h.nameAndValue ha
      obtain ⟨w, hw, hin, htext⟩ := hval.trimView hend
      simp only [Bind.bind, Except.bind, if_neg hs, if_pos ha, hread, hw, hname.readAll, hin.readAll, hattr, htext]
      rfl
    · have hnone : attributeOf (textOf v) = none := by rw [attributeOf, if_neg ha]
      simp only [Bind.bind, Except.bind, if_neg hs, if_neg ha, hnone]
      rfl

end InPayload

/-- The entries that the loop makes of lines: the first of a name is kept. -/
def argsOf (lines : List Str) : List (Str × Str) := (lines.filterMap attributeOf).foldl emplace []

/-- The loops never read outside the payload, and make the entries of its lines. -/
theorem parseAttributes_eq (payload : Str) :
    parseAttributes payload = .ok (argsOf (splitLines false [] payload)) := by
  obtain ⟨lines, hlines, hin, hmap⟩ := splitLoop_spec (Nat.zero_le payload.length) (Nat.le_refl 0)
    (show ∀ v ∈ [], InPayload payload v by simp)
  rw [List.map_nil, List.nil_append, Nat.sub_self, List.take_zero, List.drop_zero] at hmap
  rw [parseAttributes, hlines, ← hmap, argsOf]
  change lines.foldlM attributeStep [] = _
  generalize ([] : List (Str × Str)) = args
  clear hlines hmap
  induction lines generalizing args with
  | nil => rfl
  | cons v lines ih =>
    rw [List.foldlM_cons, (hin v List.mem_cons_self).attributeStep]
    change lines.foldlM attributeStep _ = _
    rw [ih fun w hw => hin w (List.mem_cons_of_mem v hw)]
    rw [List.map_cons, List.filterMap_cons]
    cases attributeOf (textOf v) <;> rfl

/-! ### Which lines become entries -/

/-- The lines of the payload; a last one need not end in a line break. -/
def linesOf (payload : Str) : List Str := payload.splitOnP isLineBreak

/-- The lines that end in a line break. -/
def terminated (payload : Str) : List Str := (linesOf payload).dropLast

/-- A line `a=name:value`. -/
def IsAttribute (line name value : Str) : Prop := 58 ∉ name ∧ line = str "a=" ++ name ++ 58 :: value

/-- What the arguments of a payload should be: each name that has an attribute line has the value of the first one, with
at most one space dropped, other names have none, and a line without a colon adds no entry to those of the lines before
it. -/
structure ReadsAttributes (payload : Str) (args : List (Str × Str)) : Prop where
  complete : ∀ before line after name value, linesOf payload = before ++ line :: after →
    IsAttribute line name value → (∀ l ∈ before, ∀ v, ¬IsAttribute l name v) →
    args.lookup name = some (trimSpace value)
  absent : ∀ name, (∀ l ∈ linesOf payload, ∀ v, ¬IsAttribute l name v) → args.lookup name = none
  colonless : ∀ before line after, terminated payload = before ++ line :: after → 58 ∉ line →
    argsOf (before ++ [line]) = argsOf before

/-- Each line `a=name` without a colon comes after an attribute line of that name. -/
def ColonlessKnown (lines : List Str) : Prop :=
  ∀ before line after, lines = before ++ line :: after → line.take 2 = str "a=" → 58 ∉ line →
    ∃ l ∈ before, ∃ v, IsAttribute l (line.drop 2) v

/-- A last attribute line that does not end in a line break repeats the name of another. -/
def LastKnown (payload : Str) : Prop :=
  ∀ line name value, (linesOf payload).getLast? = some line → IsAttribute line name value →
    ∃ l ∈ terminated payload, ∃ v, IsAttribute l name v

lemma idxOf?_append_cons {l : Str} {a : UInt8} (h : a ∉ l) (r : Str) : (l ++ a :: r).idxOf? a = some l.length := by
  rw [List.idxOf?_eq_some_iff]
  refine ⟨by simp, by simp, fun j hj => ?_⟩
  rw [List.getElem_append_left hj]
  rintro rfl
  exact h (List.getElem_mem hj)

lemma attributeOf_of_isAttribute {line name value : Str} (h : IsAttribute line name value) :
    attributeOf line = some (name, trimSpace value) := by
  obtain ⟨hname, rfl⟩ := h
  have hpos := idxOf?_append_cons (l := str "a=" ++ name) (a := 58) (by
    rw [List.mem_append]
    rintro (h | h)
    · exact absurd h (by decide)
    · exact hname h) value
  rw [attributeOf, if_pos (by rw [List.append_assoc]; rfl), hpos]
  dsimp only
  rw [List.take_left, ← List.drop_drop, List.drop_left]
  rfl

/-- What becomes an entry is an attribute line, or has no colon. -/
lemma of_attributeOf {line name value : Str} (h : attributeOf line = some (name, value)) :
    (∃ v, IsAttribute line name v) ∨ (line.take 2 = str "a=" ∧ 58 ∉ line ∧ name = line.drop 2) := by
  rw [attributeOf] at h
  split_ifs at h with htype
  rcases hpos : line.idxOf? 58 with _ | pos
  · rw [hpos] at h
    exact Or.inr ⟨htype, List.idxOf?_eq_none_iff.mp hpos, (congrArg Prod.fst (Option.some.inj h)).symm⟩
  · rw [hpos] at h
    obtain ⟨hlt, hcolon, hbefore⟩ := List.idxOf?_eq_some_iff.mp hpos
    have hname : (line.take pos).drop 2 = name := congrArg Prod.fst (Option.some.inj h)
    have hnot : 58 ∉ line.take pos := by
      intro hmem
      obtain ⟨j, hj, heq⟩ := List.mem_iff_getElem.mp hmem
      rw [List.length_take] at hj
      rw [List.getElem_take] at heq
      exact hbefore j (by omega) heq
    refine Or.inl ⟨line.drop (pos + 1), ?_, ?_⟩
    · rw [← hname]
      exact fun hmem => hnot (List.mem_of_mem_drop hmem)
    · have hpos2 : 2 ≤ pos := by
        obtain ⟨rest, rfl⟩ : ∃ rest, line = 97 :: 61 :: rest :=
          ⟨line.drop 2, by rw [← List.take_append_drop 2 line, htype]; rfl⟩
        rcases pos with _ | _ | pos
        · exact absurd hcolon (show (97 : UInt8) ≠ 58 by decide)
        · exact absurd hcolon (show (61 : UInt8) ≠ 58 by decide)
        · exact Nat.le_add_left 2 pos
      have htake : (line.take pos).take 2 = str "a=" := by rw [List.take_take, Nat.min_eq_left hpos2, htype]
      rw [← hname, ← htake, List.take_append_drop, ← hcolon, ← List.drop_eq_getElem_cons hlt, List.take_append_drop]

/-- Text by text, the terminated lines are those of the splitter, up to empty ones. -/
lemma filterMap_splitLines {β : Type} {f : Str → Option β} (hf : f [] = none) (skip : Bool) (line payload : Str)
    (hskip : skip = true → line = []) :
    (splitLines skip line payload).filterMap f =
      (((payload.splitOnP isLineBreak).modifyHead (line ++ ·)).dropLast).filterMap f := by
  induction payload generalizing skip line with
  | nil => rfl
  | cons ch payload ih =>
    have hne := List.splitOnP_ne_nil isLineBreak payload
    by_cases hbreak : isLineBreak ch = true
    · have hsplit : (ch :: payload).splitOnP isLineBreak = [] :: payload.splitOnP isLineBreak := by
        rw [List.splitOnP_cons_eq_if_modifyHead, if_pos hbreak]
      have hih := ih true [] fun _ => rfl
      rw [show (fun x : Str => [] ++ x) = id from rfl, List.modifyHead_id] at hih
      rw [hsplit, List.modifyHead_cons, List.dropLast_cons_of_ne_nil hne, List.append_nil]
      cases skip with
      | false => rw [splitLines_break hbreak, List.filterMap_cons, List.filterMap_cons, hih, id]
      | true =>
        rw [hskip rfl, splitLines_skip hbreak, List.filterMap_cons, hf, hih, id]
    · rw [splitLines_char hbreak, ih false (line ++ [ch]) (by simp), List.splitOnP_cons_eq_if_modifyHead, if_neg hbreak,
        List.modifyHead_modifyHead]
      congr 3
      funext x
      exact (List.append_cons line ch x).symm

lemma argsOf_splitLines (payload : Str) : argsOf (splitLines false [] payload) = argsOf (terminated payload) := by
  have h := filterMap_splitLines (f := attributeOf) rfl false [] payload (by simp)
  rw [show (fun x : Str => [] ++ x) = id from rfl, List.modifyHead_id] at h
  rw [argsOf, argsOf, h]
  rfl

lemma lookup_argsOf (lines : List Str) (name : Str) :
    (argsOf lines).lookup name = (lines.filterMap attributeOf).lookup name := by
  rw [argsOf, lookup_foldl_emplace, List.nil_append]

lemma isSome_lookup_argsOf {lines : List Str} {line name value : Str} (hmem : line ∈ lines)
    (hattr : attributeOf line = some (name, value)) : ((argsOf lines).lookup name).isSome := by
  rw [lookup_argsOf, Option.isSome_iff_ne_none]
  intro hnone
  have hne := List.lookup_eq_none_iff.mp hnone (name, value) (List.mem_filterMap.mpr ⟨line, hmem, hattr⟩)
  exact bne_iff_ne.mp hne rfl

lemma ColonlessKnown.of_append {before after : List Str} (h : ColonlessKnown (before ++ after)) :
    ColonlessKnown before := by
  rintro b line a rfl
  exact h b line (a ++ after) (by simp)

lemma ColonlessKnown.exists_isAttribute {lines : List Str} (h : ColonlessKnown lines) {line name value : Str}
    (hmem : line ∈ lines) (hattr : attributeOf line = some (name, value)) : ∃ l ∈ lines, ∃ v, IsAttribute l name v := by
  rcases of_attributeOf hattr with hline | ⟨htype, hcolon, rfl⟩
  · exact ⟨line, hmem, hline⟩
  · obtain ⟨before, after, rfl⟩ := List.append_of_mem hmem
    obtain ⟨l, hl, hv⟩ := h before line after rfl htype hcolon
    exact ⟨l, List.mem_append_left _ hl, hv⟩

lemma ColonlessKnown.lookup_eq_none {lines : List Str} (h : ColonlessKnown lines) {name : Str}
    (hnone : ∀ l ∈ lines, ∀ v, ¬IsAttribute l name v) : (argsOf lines).lookup name = none := by
  rw [lookup_argsOf, List.lookup_eq_none_iff]
  rintro ⟨key, value⟩ hmem
  obtain ⟨line, hline, hattr⟩ := List.mem_filterMap.mp hmem
  rw [bne_iff_ne]
  rintro rfl
  obtain ⟨l, hl, v, hv⟩ := h.exists_isAttribute hline hattr
  exact hnone l hl v hv

lemma ColonlessKnown.lookup_eq_some {before after : List Str} {line name value : Str}
    (h : ColonlessKnown (before ++ line :: after)) (hattr : IsAttribute line name value)
    (hfirst : ∀ l ∈ before, ∀ v, ¬IsAttribute l name v) :
    (argsOf (before ++ line :: after)).lookup name = some (trimSpace value) := by
  have hnone := h.of_append.lookup_eq_none hfirst
  rw [lookup_argsOf] at hnone ⊢
  rw [List.filterMap_append, List.lookup_append, hnone, Option.none_or,
    List.filterMap_cons_some (attributeOf_of_isAttribute hattr), List.lookup_cons_self]

lemma argsOf_concat (before : List Str) (line : Str) :
    argsOf (before ++ [line]) = (attributeOf line).toList.foldl emplace (argsOf before) := by
  rw [argsOf, argsOf, List.filterMap_append, List.foldl_append, List.filterMap_cons]
  cases attributeOf line <;> rfl

lemma attributeOf_of_colonless {line : Str} (htype : line.take 2 = str "a=") (hcolon : 58 ∉ line) :
    attributeOf line = some (line.drop 2, trimSpace line) := by
  rw [attributeOf, if_pos htype, List.idxOf?_eq_none_iff.mpr hcolon]

/-- Lines without a colon that add no entry repeat a name. -/
lemma colonlessKnown_of_argsOf {lines : List Str}
    (h : ∀ before line after, lines = before ++ line :: after → 58 ∉ line → argsOf (before ++ [line]) = argsOf before) :
    ColonlessKnown lines := by
  intro before line after heq htype hcolon
  induction hn : before.length using Nat.strong_induction_on generalizing before line after with
  | _ n ih =>
    have hkeep := h before line after heq hcolon
    rw [argsOf_concat, attributeOf_of_colonless htype hcolon] at hkeep
    change emplace (argsOf before) _ = _ at hkeep
    rcases hlookup : (argsOf before).lookup (line.drop 2) with _ | value
    · rw [emplace_of_none hlookup] at hkeep
      exact absurd (congrArg List.length hkeep) (by simp)
    · rw [lookup_argsOf, List.lookup_eq_some_iff] at hlookup
      obtain ⟨l₁, l₂, hentries, -⟩ := hlookup
      obtain ⟨l, hl, hattr⟩ := List.mem_filterMap.mp (hentries ▸ List.mem_append_right l₁ List.mem_cons_self)
      rcases of_attributeOf hattr with hline | ⟨htype', hcolon', hname⟩
      · exact ⟨l, hl, hline⟩
      · -- the name was repeated there already
        obtain ⟨b₁, b₂, rfl⟩ := List.append_of_mem hl
        obtain ⟨l', hl', hv⟩ := ih b₁.length (by rw [← hn, List.length_append, List.length_cons]; omega) b₁ l
          (b₂ ++ line :: after) (by rw [heq, List.append_assoc, List.cons_append]) htype' hcolon' rfl
        rw [hname]
        exact ⟨l', List.mem_append_left _ hl', hv⟩

/-- **The attributes of an ANNOUNCE request are read as they should be, without a read outside the payload, where each
line `a=name` without a colon repeats the name of an earlier attribute and so does a last attribute line without a line
break** and nowhere else. -/
theorem parseAttributes_exact_iff (payload : Str) :
    (∃ args, parseAttributes payload = .ok args ∧ ReadsAttributes payload args) ↔
      ColonlessKnown (terminated payload) ∧ LastKnown payload := by
  have hne : linesOf payload ≠ [] := List.splitOnP_ne_nil _ _
  have hlast := List.dropLast_append_getLast hne
  rw [parseAttributes_eq, argsOf_splitLines]
  constructor
  · rintro ⟨_, ⟨⟩, hreads⟩
    have hknown := colonlessKnown_of_argsOf hreads.colonless
    refine ⟨hknown, ?_⟩
    intro line name value hget hattr
    by_contra hnone
    push Not at hnone
    rw [List.getLast?_eq_some_getLast hne, Option.some.injEq] at hget
    rw [hget] at hlast
    have hsome := hreads.complete (terminated payload) line [] name value hlast.symm hattr hnone
    rw [hknown.lookup_eq_none hnone] at hsome
    cases hsome
  · rintro ⟨hknown, hlastKnown⟩
    refine ⟨_, rfl, ?_, ?_, ?_⟩
    · intro before line after name value heq hattr hfirst
      rcases eq_or_ne after [] with rfl | hafter
      · -- the line is not terminated
        have hget : (linesOf payload).getLast? = some line := by rw [heq, List.getLast?_concat]
        have hbefore : terminated payload = before := by rw [terminated, heq, List.dropLast_concat]
        obtain ⟨l, hl, v, hv⟩ := hlastKnown line name value hget hattr
        rw [hbefore] at hl
        exact absurd hv (hfirst l hl v)
      · have hterminated : terminated payload = before ++ line :: after.dropLast := by
          rw [terminated, heq, List.dropLast_append_of_ne_nil (List.cons_ne_nil _ _),
            List.dropLast_cons_of_ne_nil hafter]
        rw [hterminated] at hknown ⊢
        exact hknown.lookup_eq_some hattr hfirst
    · intro name hnone
      exact hknown.lookup_eq_none fun l hl => hnone l (List.dropLast_subset _ hl)
    · intro before line after heq hcolon
      rw [argsOf_concat]
      by_cases htype : line.take 2 = str "a="
      · obtain ⟨l, hl, v, hv⟩ := hknown before line after heq htype hcolon
        rw [attributeOf_of_colonless htype hcolon]
        exact if_pos (isSome_lookup_argsOf hl (attributeOf_of_isAttribute hv))
      · rw [attributeOf, if_neg htype]
        rfl

/-- The value of the only line is lost when it does not end in a line break. -/
theorem parseAttributes_unterminated :
    ¬ ∀ payload, ∃ args, parseAttributes payload = .ok args ∧ ReadsAttributes payload args := by
  intro h
  obtain ⟨args, hargs, hreads⟩ := h (str "a=b:c")
  have hnil : args = [] := by
    rw [parseAttributes_eq] at hargs
    rw [← Except.ok.inj hargs]
    rfl
  have hsome := hreads.complete [] (str "a=b:c") [] (str "b") (str "c") rfl ⟨by decide, rfl⟩ (by simp)
  rw [hnil] at hsome
  cases hsome

end MidnightSun.Rtsp
