import MidnightSun.NvPrefs.Interface

/-!
# Undo data

What the JSON library makes of the text of the undo file, and what undo data do to the setting.
-/

namespace MidnightSun.NvPrefs

open Lib Lib.Crash Nlohmann Util

variable {F : Type} {p : Platform F}

/-! ### The text of the undo file -/

/-- The JSON library reads back what it has written, and nothing from a part of it. -/
structure Platform.Lawful (p : Platform F) : Prop where
  parse_write : ∀ data : UndoData, p.parse (data.write p) = some data.toJson
  parse_prefix : ∀ (data : UndoData) (text : Str), text <+: data.write p → text ≠ data.write p → p.parse text = none

lemma valueFromJson_valueToJson (v : UInt32) : valueFromJson p (valueToJson (some v)) = some v := by
  have hmod : ((v.toNat : ℤ) % 2 ^ 32).toNat = v.toNat := by
    have := v.toNat_lt
    omega
  show some (UInt32.ofNat ((v.toNat : ℤ) % 2 ^ 32).toNat) = some v
  rw [hmod, UInt32.ofNat_toNat]

lemma member_cons_self (key : Str) (value : Json F) (members : List (Str × Json F)) :
    member (.object ((key, value) :: members)) key = some value := by
  simp [member]

lemma member_cons_of_ne {key key' : Str} (h : key ≠ key') (value : Json F) (members : List (Str × Json F)) :
    member (.object ((key, value) :: members)) key' = member (.object members) key' := by
  simp [member, h]

theorem fromJson_toJson (data : UndoData) : UndoData.fromJson p data.toJson = some data := by
  have hne : str "our_value" ≠ str "undo_value" := by decide
  obtain ⟨_ | ⟨ourValue, undoValue⟩⟩ := data
  · simp [UndoData.fromJson, UndoData.toJson, member_cons_self]
  · have hour := valueFromJson_valueToJson (p := p) ourValue
    cases undoValue with
    | none =>
      simp only [valueToJson] at hour
      simp [UndoData.fromJson, UndoData.toJson, swapchainFromJson, member_cons_self, member_cons_of_ne hne, valueToJson,
        hour]
    | some v =>
      have hundo := valueFromJson_valueToJson (p := p) v
      simp only [valueToJson] at hour hundo
      simp [UndoData.fromJson, UndoData.toJson, swapchainFromJson, member_cons_self, member_cons_of_ne hne, valueToJson,
        hour, hundo]

theorem Platform.Lawful.read_write (h : p.Lawful) (data : UndoData) : UndoData.read p (data.write p) = data := by
  unfold UndoData.read
  rw [h.parse_write, Option.bind_some, fromJson_toJson, Option.getD_some]

theorem Platform.Lawful.read_take (h : p.Lawful) (data : UndoData) {n : ℕ} (hn : n < (data.write p).length) :
    UndoData.read p ((data.write p).take n) = {} := by
  unfold UndoData.read
  rw [h.parse_prefix data _ (List.take_prefix n _)]
  · rfl
  · intro heq
    have hlength := congrArg List.length heq
    rw [List.length_take] at hlength
    omega

lemma length_digits {fuel n k : ℕ} (h : n < 10 ^ (k + 1)) : (digits fuel n).length ≤ k + 1 := by
  induction fuel generalizing n k with
  | zero => exact Nat.zero_le _
  | succ fuel ih =>
    rw [digits, List.length_cons]
    split_ifs with hzero
    · simp
    · cases k with
      | zero => omega
      | succ k =>
        have := ih (n := n / 10) (k := k) (by rw [pow_succ] at h; omega)
        omega

lemma length_decimal (v : UInt32) : (decimal v.toNat).length ≤ 10 := by
  have hlt := v.toNat_lt
  have hfits : (v.toNat : ℤ).natAbs < 10 ^ (9 + 1) := by omega
  have hdigits := @length_digits ((v.toNat : ℤ).natAbs + 1) _ _ hfits
  unfold decimal
  rw [if_neg (by omega), List.nil_append, List.length_reverse]
  exact hdigits

/-- The file is small enough to be read again. -/
theorem length_write (data : UndoData) : (data.write p).length ≤ 1024 := by
  have hswapchain : (quote (str "opengl_swapchain")).length = 18 := by decide
  have hour : (quote (str "our_value")).length = 11 := by decide
  have hundo : (quote (str "undo_value")).length = 12 := by decide
  have hnull : (str "null").length = 4 := by decide
  obtain ⟨_ | ⟨ourValue, undoValue⟩⟩ := data
  · simp only [UndoData.write, UndoData.toJson, Json.dump, Json.dumpMembers, commas, List.length_cons,
      List.length_append, List.length_nil, hswapchain, hnull]
    omega
  · have hourValue := length_decimal ourValue
    cases undoValue with
    | none =>
      simp only [UndoData.write, UndoData.toJson, valueToJson, Json.dump, Json.dumpMembers, commas, List.length_cons,
        List.length_append, List.length_nil, hswapchain, hour, hundo, hnull]
      omega
    | some v =>
      have hv := length_decimal v
      simp only [UndoData.write, UndoData.toJson, valueToJson, Json.dump, Json.dumpMembers, commas, List.length_cons,
        List.length_append, List.length_nil, hswapchain, hour, hundo]
      omega

/-! ### What undo data are good for -/

/-- The setting after the data were applied to it. -/
def UndoData.restore (data : UndoData) (value : Option UInt32) : Option UInt32 :=
  match data.openglSwapchain with
  | some swapchain => if value = some swapchain.ourValue then swapchain.undoValue else value
  | none => value

/-- The data undo our value and nothing else, and bring back what the user chose. -/
structure Platform.Undoes (p : Platform F) (data : UndoData) (value user : Option UInt32) : Prop where
  ours : ∀ swapchain ∈ data.openglSwapchain,
    swapchain.ourValue = p.preferEnabled ∧ swapchain.undoValue ≠ some p.preferEnabled
  restores : p.effective (data.restore value) = user

section Undoes

variable {data data' : UndoData} {value user : Option UInt32}

theorem Platform.Undoes.restore_of_ne (h : p.Undoes data value user) {value' : Option UInt32}
    (hne : value' ≠ some p.preferEnabled) : data.restore value' = value' := by
  unfold UndoData.restore
  cases hswapchain : data.openglSwapchain with
  | none => rfl
  | some swapchain =>
    show (if value' = some swapchain.ourValue then _ else _) = _
    rw [(h.ours swapchain hswapchain).1, if_neg hne]

theorem Platform.Undoes.restore_ne (h : p.Undoes data value user) (hvalue : value = some p.preferEnabled)
    (hdata : data.openglSwapchain ≠ none) : data.restore value ≠ some p.preferEnabled := by
  unfold UndoData.restore
  cases hswapchain : data.openglSwapchain with
  | none => exact absurd hswapchain hdata
  | some swapchain =>
    obtain ⟨hours, hundo⟩ := h.ours swapchain hswapchain
    show (if value = some swapchain.ourValue then _ else _) ≠ _
    rw [hours, if_pos hvalue]
    exact hundo

theorem Platform.Undoes.after (h : p.Undoes data value user) (h' : p.Undoes data' value user) :
    p.Undoes data (data'.restore value) user := by
  refine ⟨h.ours, ?_⟩
  by_cases hvalue : value = some p.preferEnabled
  · by_cases hdata : data'.openglSwapchain = none
    · have hsame : data'.restore value = value := by
        unfold UndoData.restore
        rw [hdata]
      rw [hsame]
      exact h.restores
    · rw [h.restore_of_ne (h'.restore_ne hvalue hdata)]
      exact h'.restores
  · rw [h'.restore_of_ne hvalue]
    exact h.restores

theorem Platform.undoes_empty (hvalue : p.effective value = user) : p.Undoes {} value user := ⟨nofun, hvalue⟩

theorem Platform.Undoes.choose (h : p.Undoes data value user) {value' : Option UInt32}
    (hne : value' ≠ some p.preferEnabled) : p.Undoes data value' (p.effective value') :=
  ⟨h.ours, by rw [h.restore_of_ne hne]⟩

theorem Platform.Undoes.effective_eq (h : p.Undoes data value user) (hne : value ≠ some p.preferEnabled) :
    p.effective value = user := by
  have hrestores := h.restores
  rwa [h.restore_of_ne hne] at hrestores

end Undoes

theorem Platform.lookup_eq_own {own : Option UInt32} {v : UInt32} : p.lookup own = some (v, true) ↔ own = some v := by
  unfold Platform.lookup
  cases own with
  | none => cases p.predefined <;> simp
  | some w => simp

theorem Platform.map_lookup (own : Option UInt32) : (p.lookup own).map Prod.fst = p.effective own := by
  unfold Platform.lookup Platform.effective
  cases own with
  | none => cases p.predefined <;> rfl
  | some v => rfl

theorem Platform.effective_effective (value : Option UInt32) : p.effective (p.effective value) = p.effective value := by
  unfold Platform.effective
  cases value with
  | none => cases p.predefined <;> rfl
  | some v => rfl

/-! ### A driver and a small JSON library -/

/-- A number and what comes after it. -/
def parseNumber (text : Str) : UInt32 × Str :=
  (UInt32.ofNat (fromView (text.takeWhile isDigit)).toNat, text.dropWhile isDigit)

def parseValue (text : Str) : Option UInt32 :=
  if text.head? = some 110 then none else some (parseNumber text).1

/-- What the text of undo data can only mean. -/
def parseUndo (text : Str) : UndoData :=
  if (text.drop 20).head? = some 110 then {}
  else
    { openglSwapchain := some
        { ourValue := (parseNumber (text.drop 33)).1
          undoValue := parseValue ((parseNumber (text.drop 33)).2.drop 14) } }

def silent : Platform Empty :=
  { parse := fun _ => none, dumpFloat := nofun, castFloat := nofun, preferEnabled := 2, preferMax := 1
    predefined := some 5 }

/-- The library reads undo data, and the setting is predefined. -/
def driver : Platform Empty :=
  { silent with
    parse := fun text => if (parseUndo text).write silent = text then some (parseUndo text).toJson else none }

lemma isDigit_of_mem_decimal {v : UInt32} {c : UInt8} (hc : c ∈ decimal v.toNat) : isDigit c = true := by
  have hall : ∀ d < 10, isDigit (digit d) = true := by decide
  unfold decimal at hc
  rw [if_neg (by omega), List.nil_append, List.mem_reverse] at hc
  obtain ⟨d, hd, rfl⟩ := mem_digits hc
  exact hall d hd

lemma head?_decimal (v : UInt32) (rest : Str) : (decimal v.toNat ++ rest).head? = (decimal v.toNat).head? := by
  have hne : decimal v.toNat ≠ [] := by
    unfold decimal
    rw [if_neg (by omega), List.nil_append]
    exact fun h => digits_ne_nil (Nat.lt_succ_self _) (List.reverse_eq_nil_iff.mp h)
  obtain ⟨c, l, hcons⟩ := List.exists_cons_of_ne_nil hne
  rw [hcons]
  rfl

lemma takeWhile_decimal (v : UInt32) {c : UInt8} (hc : isDigit c = false) (rest : Str) :
    (decimal v.toNat ++ c :: rest).takeWhile isDigit = decimal v.toNat ∧
      (decimal v.toNat ++ c :: rest).dropWhile isDigit = c :: rest := by
  rw [List.takeWhile_append_of_pos fun _ => isDigit_of_mem_decimal,
    List.dropWhile_append_of_pos fun _ => isDigit_of_mem_decimal]
  simp [hc]

lemma parseNumber_decimal (v : UInt32) {c : UInt8} (hc : isDigit c = false) (rest : Str) :
    parseNumber (decimal v.toNat ++ c :: rest) = (v, c :: rest) := by
  obtain ⟨htake, hdrop⟩ := takeWhile_decimal v hc rest
  unfold parseNumber
  rw [htake, hdrop, fromView_decimal, BitVec.ofInt_natCast, BitVec.toNat_ofNat]
  have hlt := v.toNat_lt
  rw [Nat.mod_eq_of_lt (by omega), UInt32.ofNat_toNat]

lemma write_some (ourValue : UInt32) (undoValue : Option UInt32) :
    UndoData.write silent { openglSwapchain := some { ourValue, undoValue } } =
      str "\x7b\"opengl_swapchain\":\x7b\"our_value\":" ++ (decimal ourValue.toNat ++ 44 ::
        (str "\"undo_value\":" ++ ((valueToJson undoValue).dump silent.dumpFloat ++ [125, 125]))) := by
  have hswapchain : quote (str "opengl_swapchain") = str "\"opengl_swapchain\"" := by decide
  have hour : quote (str "our_value") = str "\"our_value\"" := by decide
  have hundo : quote (str "undo_value") = str "\"undo_value\"" := by decide
  simp only [UndoData.write, UndoData.toJson, Json.dump, Json.dumpMembers, commas, hswapchain, hour, hundo,
    List.append_assoc, List.cons_append]
  rfl

theorem parseUndo_write (data : UndoData) (rest : Str) : parseUndo (data.write silent ++ rest) = data := by
  obtain ⟨_ | ⟨ourValue, undoValue⟩⟩ := data
  · rfl
  · have hhead : ∀ text, ((str "\x7b\"opengl_swapchain\":\x7b\"our_value\":" ++ text).drop 20).head? = some 123 :=
      fun _ => rfl
    have hdrop : ∀ text, (str "\x7b\"opengl_swapchain\":\x7b\"our_value\":" ++ text).drop 33 = text := fun _ => rfl
    have hdrop' : ∀ text, (44 :: (str "\"undo_value\":" ++ text)).drop 14 = text := fun _ => rfl
    have hcomma := parseNumber_decimal ourValue (c := 44) (by decide)
      (str "\"undo_value\":" ++ ((valueToJson undoValue).dump silent.dumpFloat ++ ([125, 125] ++ rest)))
    have hundo : parseValue ((valueToJson undoValue).dump silent.dumpFloat ++ ([125, 125] ++ rest)) = undoValue := by
      cases undoValue with
      | none => rfl
      | some v =>
        have hhead : (decimal v.toNat ++ ([125, 125] ++ rest)).head? ≠ some 110 := by
          intro h
          rw [head?_decimal] at h
          exact absurd (isDigit_of_mem_decimal (List.mem_of_mem_head? h)) (by decide)
        show (if (decimal v.toNat ++ ([125, 125] ++ rest)).head? = some 110 then none
          else some (parseNumber (decimal v.toNat ++ ([125, 125] ++ rest))).1) = some v
        rw [if_neg hhead, List.cons_append, parseNumber_decimal v (by decide)]
    rw [write_some, List.append_assoc, List.append_assoc, List.cons_append, List.append_assoc, List.append_assoc]
    unfold parseUndo
    rw [if_neg (by rw [hhead]; decide), hdrop, hcomma]
    simp only
    rw [hdrop', hundo]

theorem driver_lawful : driver.Lawful := by
  have hwrite : ∀ data : UndoData, data.write driver = data.write silent := fun _ => rfl
  have hparse : ∀ data : UndoData, parseUndo (data.write silent) = data := by
    intro data
    have h := parseUndo_write data []
    rwa [List.append_nil] at h
  refine ⟨fun data => ?_, fun data text hprefix hne => ?_⟩
  · show (if (parseUndo (data.write silent)).write silent = data.write silent then _ else none) = _
    rw [hparse, if_pos rfl, hwrite, hparse]
  · refine if_neg fun heq => hne ?_
    obtain ⟨rest, hrest⟩ := hprefix
    rw [← heq, hwrite] at hrest
    have hsame := congrArg parseUndo hrest
    rw [parseUndo_write, hparse] at hsame
    rw [← heq, hsame, hwrite]

end MidnightSun.NvPrefs
