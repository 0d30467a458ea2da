import Mathlib.Data.Int.ModEq
import MidnightSun.Config.Lists

/-!
# Key bindings (src/config.cpp, src/input.cpp)

The list of `keybindings` becomes a map from key codes to key codes, in which `map_keycode` looks a key up.  A key that
has a binding keeps it, and so do the three that are bound from the start.
-/

namespace MidnightSun.Config

open Lib Util

/-! ### The map -/

/-- `input.keybindings` before any option is read. -/
def defaultKeybindings : List (Int32 × Int32) := [(0x10, 0xA0), (0x11, 0xA2), (0x12, 0xA4)]

/-- Whether the right Alt key is to act as the Windows key. -/
def mapRightaltToWin (vars : Vars) : Bool := (boolF vars (str "key_rightalt_to_key_win") false).2

/-- What `apply_config` does to `input.keybindings`. -/
def applyKeybindings (vars : Vars) : Option (Vars × List (Int32 × Int32)) :=
  (mapIntIntF vars (str "keybindings") defaultKeybindings).map fun (vars, keybindings) =>
    let (vars, mapRightaltToWin) := boolF vars (str "key_rightalt_to_key_win") false
    (vars, if mapRightaltToWin then emplace keybindings (0xA5, 0x5B) else keybindings)

/-- `map_keycode`, over the map that it looks in. -/
def mapKeycode (keybindings : List (Int32 × Int32)) (keycode : Int16) : Int16 :=
  match keybindings.lookup keycode.toInt32 with
  | some val => val.toInt16
  | none => keycode

/-! ### What a file binds -/

/-- The bindings that are there without the list. -/
def builtIn (vars : Vars) : List (Int32 × Int32) :=
  if mapRightaltToWin vars then defaultKeybindings ++ [(0xA5, 0x5B)] else defaultKeybindings

/-- A key and its value as they are written, with white space around them. -/
structure Binding where
  beforeKey : Str := []
  keyText : Str
  key : Int32
  afterKey : Str := []
  beforeValue : Str := []
  valueText : Str
  value : Int32
  afterValue : Str := []

structure Binding.Valid (b : Binding) : Prop where
  beforeKey : ∀ c ∈ b.beforeKey, whitespace c = true
  key : Rendering b.keyText b.key
  afterKey : ∀ c ∈ b.afterKey, whitespace c = true
  beforeValue : ∀ c ∈ b.beforeValue, whitespace c = true
  value : Rendering b.valueText b.value
  afterValue : ∀ c ∈ b.afterValue, whitespace c = true

def Binding.items (b : Binding) : List Item :=
  [⟨b.beforeKey, b.keyText, b.afterKey⟩, ⟨b.beforeValue, b.valueText, b.afterValue⟩]

/-- The list as it is written. -/
def bindingsText (bs : List Binding) : Str := listText (bs.flatMap Binding.items)

/-- What a number comes to with `after` behind it, as far as 32 bits show it: the digits of a hexadecimal one that have
a partner, or else all characters, if there is room for them. -/
def ReadsAs (text after : Str) (n : Int32) : Prop :=
  if str "0x" <+: text then (hexNumber ((text.drop 2).drop (text.length % 2)) : ℤ) ≡ n.toInt [ZMOD 2 ^ 32]
  else DecimalFits (unquoted (text ++ after)) ∧ signedNumber (unquoted (text ++ after)) ≡ n.toInt [ZMOD 2 ^ 32]

/-- With the white space behind them, the numbers come to these two. -/
def Binding.StandsFor (b : Binding) (p : Int32 × Int32) : Prop :=
  ReadsAs b.keyText b.afterKey p.1 ∧ ReadsAs b.valueText b.afterValue p.2

/-- With the white space behind them, the numbers come to what they are. -/
def Binding.Readable (b : Binding) : Prop := b.StandsFor (b.key, b.value)

/-- A key code fits into a `short`. -/
def IsShort (n : Int32) : Prop := n.toInt16.toInt32 = n

instance : DecidablePred IsShort := fun _ => inferInstanceAs (Decidable (_ = _))

/-- The value is a key code, and the key has no other binding from the start. -/
def Binding.Bindable (b : Binding) : Prop := IsShort b.value ∧ ∀ d ∈ defaultKeybindings, d.1 = b.key → d.2 = b.value

/-- Every key on the list has its value, and the others have what they have without it. -/
def TakesEffect (vars : Vars) (bs : List Binding) : Prop :=
  ∃ vars' keybindings, applyKeybindings vars = some (vars', keybindings) ∧
    (∀ b ∈ bs, (mapKeycode keybindings b.key.toInt16).toInt32 = b.value) ∧
    ∀ k : Int16, (∀ b ∈ bs, b.key ≠ k.toInt32) → mapKeycode keybindings k = mapKeycode (builtIn vars) k

/-- Every list in the list that the reader comes to is closed, and not by the last character. -/
inductive ListsClosed : Str → Prop
  | nil : ListsClosed []
  | close (text : Str) : ListsClosed (93 :: text)
  | char {ch : UInt8} {text : Str} : ch ≠ 91 → ListsClosed text → ListsClosed (ch :: text)
  | list {body text : Str} {ch : UInt8} :
    Closes 91 93 1 body → ListsClosed text → ListsClosed (91 :: (body ++ ch :: text))

/-! ### Reading the list -/

lemma ofInt_eq_iff {x : ℤ} {n : Int32} : Int32.ofInt x = n ↔ x ≡ n.toInt [ZMOD 2 ^ 32] := by
  rw [← Int32.toInt_inj, Int32.toInt_ofInt]
  change x.bmod 4294967296 = n.toInt ↔ x % 4294967296 = n.toInt % 4294967296
  constructor
  · intro h
    rw [← h]
    exact (Int.bmod_emod (x := x) (m := 4294967296)).symm
  · intro h
    rw [← Int.emod_bmod x 4294967296]
    change (x % 4294967296).bmod 4294967296 = n.toInt
    rw [h]
    exact (Int.emod_bmod n.toInt 4294967296).trans n.toInt_bmod

lemma not_isConvertable_of_whitespace {c : UInt8} (h : whitespace c = true) : ¬isConvertable c = true := by
  simp only [whitespace, spaceTab, endline, Bool.or_eq_true, beq_iff_eq] at h
  rcases h with (rfl | rfl) | (rfl | rfl) <;> decide

/-- An item is read as what it comes to with what follows it. -/
lemma readInt_item_iff {text after : Str} {m n : Int32} (h : Rendering text m)
    (hafter : ∀ c ∈ after, whitespace c = true) : readInt (text ++ after) = some n ↔ ReadsAs text after n := by
  have hplain : ¬str "0x" <+: text → 120 ∉ text → (readInt (text ++ after) = some n ↔ ReadsAs text after n) := by
    intro hhex hx
    have hunquoted : ¬str "0x" <+: unquoted (text ++ after) := by
      intro hhex
      have hmem := unquoted_subset (hhex.subset (show 120 ∈ str "0x" by decide))
      rcases List.mem_append.mp hmem with hmem | hmem
      · exact hx hmem
      · exact absurd (hafter 120 hmem) (by decide)
    rw [readInt, if_neg hunquoted, ReadsAs, if_neg hhex, Option.map_eq_some_iff]
    constructor
    · rintro ⟨x, hx, hn⟩
      obtain ⟨hfits, rfl⟩ := fromView64_eq_some_iff.mp hx
      exact ⟨hfits, ofInt_eq_iff.mp hn⟩
    · rintro ⟨hfits, hmod⟩
      exact ⟨_, fromView64_eq_some_iff.mpr ⟨hfits, rfl⟩, ofInt_eq_iff.mpr hmod⟩
  cases h with
  | decimal => exact hplain (not_hex_decimal _) (not_mem_decimal (by decide) (by decide) _)
  | quoted =>
    refine hplain (fun hhex => absurd (List.cons_prefix_cons.mp hhex).1 (by decide)) ?_
    rw [List.mem_append, List.mem_cons, List.mem_singleton]
    rintro ((hquote | hmem) | hquote)
    · exact absurd hquote (by decide)
    · exact not_mem_decimal (by decide) (by decide) _ hmem
    · exact absurd hquote (by decide)
  | @hex _ h hdigits _ hlength _ =>
    have hblank : after.filter isConvertable = [] := by
      rw [List.filter_eq_nil_iff]
      exact fun c hc => not_isConvertable_of_whitespace (hafter c hc)
    have hmod : (str "0x" ++ h).length % 2 = h.length % 2 := by
      rw [List.length_append]
      exact Nat.add_mod_left 2 _
    rw [List.append_assoc, readInt_hex_append hdigits (by omega) hblank, ReadsAs, if_pos (List.prefix_append _ _), hmod,
      Option.some.injEq, ← ofInt_eq_iff]
    rfl

lemma readsAs_nil_iff {text : Str} {n : Int32} (h : Rendering text n) : ReadsAs text [] n ↔ Paired text := by
  rw [← readInt_item_iff h (List.forall_mem_nil _), List.append_nil, readInt_eq_iff h]

lemma readable_of_nil {b : Binding} (hb : b.Valid) (hkey : Paired b.keyText) (hvalue : Paired b.valueText)
    (hafterKey : b.afterKey = []) (hafterValue : b.afterValue = []) : b.Readable := by
  rw [Binding.Readable, Binding.StandsFor, hafterKey, hafterValue]
  exact ⟨(readsAs_nil_iff hb.key).mpr hkey, (readsAs_nil_iff hb.value).mpr hvalue⟩

lemma Binding.Valid.items {b : Binding} (hb : b.Valid) : ∀ i ∈ b.items, i.Valid := by
  intro i hi
  rw [Binding.items, List.mem_pair] at hi
  obtain rfl | rfl := hi
  · exact valid_of_rendering hb.key hb.beforeKey hb.afterKey
  · exact valid_of_rendering hb.value hb.beforeValue hb.afterValue

section Bindings

variable {vars : Vars} {name : Str} {bs : List Binding} {ps : List (Int32 × Int32)}

/-- The items of a list of bindings, with the white space behind them. -/
def texts (bs : List Binding) : List Str :=
  bs.flatMap fun b => [b.keyText ++ b.afterKey, b.valueText ++ b.afterValue]

/-- The numbers of a list of pairs, one after the other. -/
def numbers (ps : List (Int32 × Int32)) : List Int32 := ps.flatMap fun p => [p.1, p.2]

lemma items_bindingsText (hvalid : ∀ b ∈ bs, b.Valid) : items (bindingsText bs) = some (texts bs) := by
  rw [bindingsText, items_listText, List.map_flatMap]
  · rfl
  · intro i hi
    obtain ⟨b, hb, hi⟩ := List.mem_flatMap.mp hi
    exact (hvalid b hb).items i hi

lemma mapM_readInt (hvalid : ∀ b ∈ bs, b.Valid) (h : List.Forall₂ Binding.StandsFor bs ps) :
    (texts bs).mapM readInt = some (numbers ps) := by
  induction h with
  | nil => rfl
  | @cons b p bs ps hb _ ih =>
    rw [List.forall_mem_cons] at hvalid
    have hkey := (readInt_item_iff hvalid.1.key hvalid.1.afterKey).mpr hb.1
    have hvalue := (readInt_item_iff hvalid.1.value hvalid.1.afterValue).mpr hb.2
    rw [texts, List.flatMap_cons, List.mapM_append, ← texts, ih hvalid.2, List.mapM_cons, List.mapM_cons,
      List.mapM_nil, hkey, hvalue]
    rfl

lemma exists_pairs (hvalid : ∀ b ∈ bs, b.Valid) (h : (texts bs).mapM readInt ≠ none) :
    ∃ ps, List.Forall₂ Binding.StandsFor bs ps := by
  rw [mapM_ne_none_iff] at h
  induction bs with
  | nil => exact ⟨[], .nil⟩
  | cons b bs ih =>
    rw [List.forall_mem_cons] at hvalid
    rw [texts, List.flatMap_cons, ← texts, List.forall_mem_append, List.forall_mem_cons, List.forall_mem_singleton] at h
    obtain ⟨⟨hkey, hvalue⟩, hbs⟩ := h
    obtain ⟨k, hk⟩ := Option.ne_none_iff_exists'.mp hkey
    obtain ⟨v, hv⟩ := Option.ne_none_iff_exists'.mp hvalue
    obtain ⟨ps, hps⟩ := ih hvalid.2 hbs
    exact ⟨(k, v) :: ps,
      .cons ⟨(readInt_item_iff hvalid.1.key hvalid.1.afterKey).mp hk,
        (readInt_item_iff hvalid.1.value hvalid.1.afterValue).mp hv⟩ hps⟩

lemma emplacePairs_numbers (input : List (Int32 × Int32)) :
    emplacePairs input (numbers ps) = ps.foldl emplace input := by
  induction ps generalizing input with
  | nil => rfl
  | cons p ps ih => exact ih _

lemma length_numbers (ps : List (Int32 × Int32)) : (numbers ps).length % 2 = 0 := by
  induction ps with
  | nil => rfl
  | cons p ps ih =>
    rw [numbers, List.flatMap_cons, List.length_append]
    change (2 + (numbers ps).length) % 2 = 0
    omega

lemma listIntF_bindings (hvalid : ∀ b ∈ bs, b.Valid) (hlookup : vars.lookup name = some (bindingsText bs)) :
    listIntF vars name [] = ((texts bs).mapM readInt).map fun ints => (erase vars name, ints) := by
  have hitems := items_bindingsText hvalid
  cases bs with
  | nil =>
    rw [listIntF, listStringF_of_lookup hlookup (List.cons_ne_nil _ _), hitems]
    rfl
  | cons b bs => exact listIntF_of_items hlookup (List.cons_ne_nil _ _) hitems (List.cons_ne_nil _ _) []

lemma mapIntIntF_bindings (hvalid : ∀ b ∈ bs, b.Valid) (hlookup : vars.lookup name = some (bindingsText bs))
    (hps : List.Forall₂ Binding.StandsFor bs ps) (input : List (Int32 × Int32)) :
    mapIntIntF vars name input = some (erase vars name, ps.foldl emplace input) := by
  rw [mapIntIntF, listIntF_bindings hvalid hlookup, mapM_readInt hvalid hps, Option.map_some, Option.map_some]
  dsimp only
  rw [if_neg (fun h => h (length_numbers ps)), emplacePairs_numbers]

lemma numbers_injective {ps qs : List (Int32 × Int32)} (h : numbers ps = numbers qs) : ps = qs := by
  induction ps generalizing qs with
  | nil =>
    cases qs with
    | nil => rfl
    | cons q qs => cases h
  | cons p ps ih =>
    cases qs with
    | nil => cases h
    | cons q qs =>
      obtain ⟨hkey, hrest⟩ := List.cons.inj h
      obtain ⟨hvalue, hrest⟩ := List.cons.inj hrest
      rw [Prod.ext hkey hvalue, ih hrest]

/-- What a list is to bind. -/
def pairs (bs : List Binding) : List (Int32 × Int32) := bs.map fun b => (b.key, b.value)

lemma forall₂_pairs_iff : List.Forall₂ Binding.StandsFor bs (pairs bs) ↔ ∀ b ∈ bs, b.Readable := by
  rw [pairs, List.forall₂_map_right_iff, List.forall₂_same]
  rfl

lemma listIntF_eq_numbers_iff (hvalid : ∀ b ∈ bs, b.Valid) (hlookup : vars.lookup name = some (bindingsText bs)) :
    listIntF vars name [] = some (erase vars name, numbers (pairs bs)) ↔ ∀ b ∈ bs, b.Readable := by
  rw [listIntF_bindings hvalid hlookup, ← forall₂_pairs_iff]
  constructor
  · intro h
    obtain ⟨ints, hints, heq⟩ := Option.map_eq_some_iff.mp h
    obtain ⟨ps, hps⟩ := exists_pairs hvalid (hints ▸ Option.some_ne_none ints)
    rw [mapM_readInt hvalid hps, Option.some.injEq] at hints
    rwa [← numbers_injective (hints.trans (Prod.mk.inj heq).2)]
  · intro h
    rw [mapM_readInt hvalid h, Option.map_some]

end Bindings

/-! ### Lists in the list -/

lemma listsClosed_cons_iff {ch : UInt8} (hopen : ch ≠ 91) (hclose : ch ≠ 93) {text : Str} :
    ListsClosed (ch :: text) ↔ ListsClosed text := by
  constructor
  · intro h
    cases h with
    | close => exact absurd rfl hclose
    | char _ h => exact h
    | list => exact absurd rfl hopen
  · exact .char hopen

lemma listsClosed_dropWhile_iff {text : Str} : ListsClosed (text.dropWhile whitespace) ↔ ListsClosed text := by
  induction text with
  | nil => exact Iff.rfl
  | cons ch text ih =>
    by_cases hblank : whitespace ch = true
    · obtain ⟨hopen, hclose, -⟩ := not_bracket_of_whitespace hblank
      rw [List.dropWhile_cons_of_pos hblank, ih, listsClosed_cons_iff hopen hclose]
    · rw [List.dropWhile_cons_of_neg hblank]

/-- Behind an opening bracket there is the list that it opens, one character, and the rest. -/
lemma listsClosed_open_iff {rest : Str} : ListsClosed (91 :: rest) ↔
    skipList rest < rest.length ∧ ListsClosed (rest.drop (skipList rest + 1)) := by
  constructor
  · intro h
    generalize htext : 91 :: rest = text at h
    cases h with
    | nil => cases htext
    | close => exact absurd (List.cons.inj htext).1 (by decide)
    | char hopen => exact absurd (List.cons.inj htext).1.symm hopen
    | @list body text ch hbody htext' =>
      obtain ⟨-, rfl⟩ := List.cons.inj htext
      have hskip : skipList (body ++ ch :: text) = body.length := hbody.skip_append (by decide) _
      rw [hskip, ← List.drop_drop, List.drop_left, List.length_append, List.length_cons]
      exact ⟨by omega, htext'⟩
  · rintro ⟨hlt, hrest⟩
    have hdrop := List.drop_eq_getElem_cons hlt
    have hbody : Closes 91 93 1 (rest.take (skipList rest)) := by
      have hne : rest.drop (skipList rest) ≠ [] := by
        rw [hdrop]
        exact List.cons_ne_nil _ _
      refine (skip_append_eq_length_iff (by decide) hne 1 _).mp ?_
      rw [List.take_append_drop, List.length_take, Nat.min_eq_left (Nat.le_of_lt hlt)]
      rfl
    have hsplit : rest = rest.take (skipList rest) ++ rest[skipList rest] :: rest.drop (skipList rest + 1) := by
      rw [← hdrop, List.take_append_drop]
    rw [hsplit]
    exact .list hbody hrest

/-- The loop stays within the text exactly if the lists in it are closed in time. -/
theorem listLoop_ne_none_iff (item rest : Str) : listLoop item rest ≠ none ↔ ListsClosed rest := by
  induction item, rest using listLoop.induct with
  | case1 item =>
    rw [listLoop]
    exact iff_of_true (Option.some_ne_none _) .nil
  | case2 item rest hlt ih => rw [listLoop, if_pos rfl, if_pos hlt, ih, listsClosed_open_iff, and_iff_right hlt]
  | case3 item rest hlt =>
    rw [listLoop, if_pos rfl, if_neg hlt, listsClosed_open_iff]
    exact iff_of_false (fun h => h rfl) fun h => hlt h.1
  | case4 item rest =>
    rw [listLoop_close]
    exact iff_of_true (Option.some_ne_none _) (.close rest)
  | case5 item rest _ _ ih =>
    rw [listLoop_comma, Ne, Option.map_eq_none_iff, ← Ne, ih, listsClosed_dropWhile_iff,
      listsClosed_cons_iff (by decide) (by decide)]
  | case6 item ch rest hopen hclose hcomma ih =>
    rw [listLoop, if_neg hopen, if_neg hclose, if_neg hcomma, ih, listsClosed_cons_iff hopen hclose]

theorem items_ne_none_iff (string : Str) :
    items string ≠ none ↔ ListsClosed (if string.head? = some 91 then string.drop 1 else string) := by
  rw [items]
  generalize (if string.head? = some 91 then string.drop 1 else string) = begin
  rw [← listsClosed_dropWhile_iff]
  split_ifs with hnil
  · rw [hnil]
    exact iff_of_true (Option.some_ne_none _) .nil
  · exact listLoop_ne_none_iff [] _

/-! ### The map and the keys -/

lemma lookup_erase {vars : Vars} {name other : Str} (hne : other ≠ name) :
    (erase vars name).lookup other = vars.lookup other := by
  induction vars with
  | nil => rfl
  | cons option vars ih =>
    obtain ⟨k, val⟩ := option
    rw [erase, List.filter_cons] at *
    by_cases hk : k = name
    · have hother : (other == k) = false := by simpa [hk] using hne
      rw [if_neg (by simpa using hk), ih, List.lookup_cons, hother]
    · rw [if_pos (by simpa using hk), List.lookup_cons, List.lookup_cons, ih]

lemma boolF_eq (vars : Vars) (name : Str) (input : Bool) : (boolF vars name input).2 =
    if (vars.lookup name).getD [] = [] then input else toBool ((vars.lookup name).getD []) := by
  rw [boolF, stringF]
  cases vars.lookup name with
  | none => rfl
  | some val =>
    dsimp only [Option.getD_some]
    split_ifs <;> rfl

lemma boolF_erase {vars : Vars} {name other : Str} (hne : other ≠ name) (input : Bool) :
    (boolF (erase vars name) other input).2 = (boolF vars other input).2 := by
  rw [boolF_eq, boolF_eq, lookup_erase hne]

/-- What the right Alt key is bound to, if it is. -/
def rightalt (vars : Vars) : List (Int32 × Int32) := if mapRightaltToWin vars then [(0xA5, 0x5B)] else []

lemma builtIn_eq (vars : Vars) : builtIn vars = defaultKeybindings ++ rightalt vars := by
  rw [builtIn, rightalt]
  split_ifs <;> rfl

lemma isShort_toInt32 (k : Int16) : IsShort k.toInt32 := by rw [IsShort, Int16.toInt16_toInt32]

lemma mapKeycode_of_lookup {keybindings : List (Int32 × Int32)} {k v : Int32} (hk : IsShort k)
    (h : keybindings.lookup k = some v) : mapKeycode keybindings k.toInt16 = v.toInt16 := by
  rw [mapKeycode, show k.toInt16.toInt32 = k from hk, h]

lemma isShort_defaultKeybindings : ∀ d ∈ defaultKeybindings, IsShort d.1 ∧ IsShort d.2 := by
  rw [defaultKeybindings, List.forall_mem_cons, List.forall_mem_cons, List.forall_mem_singleton]
  decide +kernel

lemma lookup_defaultKeybindings {k v : Int32} : defaultKeybindings.lookup k = some v ↔ (k, v) ∈ defaultKeybindings :=
  lookup_eq_some_of_keys (by decide +kernel)

section Map

variable {vars left : Vars} {bs : List Binding} {keybindings ps : List (Int32 × Int32)}

lemma applyKeybindings_of_read
    (hread : mapIntIntF vars (str "keybindings") defaultKeybindings = some (left, keybindings)) :
    ∃ left', applyKeybindings vars = some (left', if (boolF left (str "key_rightalt_to_key_win") false).2 then
      emplace keybindings (0xA5, 0x5B) else keybindings) := by
  rw [applyKeybindings, hread]
  exact ⟨_, rfl⟩

lemma applyKeybindings_eq (hvalid : ∀ b ∈ bs, b.Valid)
    (hlookup : vars.lookup (str "keybindings") = some (bindingsText bs))
    (hps : List.Forall₂ Binding.StandsFor bs ps) :
    ∃ left, applyKeybindings vars = some (left, (ps ++ rightalt vars).foldl emplace defaultKeybindings) := by
  have hne : str "key_rightalt_to_key_win" ≠ str "keybindings" := by decide +kernel
  have hright : (boolF (erase vars (str "keybindings")) (str "key_rightalt_to_key_win") false).2 =
      mapRightaltToWin vars := boolF_erase hne false
  obtain ⟨left, happly⟩ := applyKeybindings_of_read (mapIntIntF_bindings hvalid hlookup hps defaultKeybindings)
  refine ⟨left, happly.trans ?_⟩
  rw [hright, List.foldl_append, rightalt]
  split_ifs <;> rfl

lemma exists_pairs_of_applyKeybindings (hvalid : ∀ b ∈ bs, b.Valid)
    (hlookup : vars.lookup (str "keybindings") = some (bindingsText bs))
    (happly : applyKeybindings vars = some (left, keybindings)) :
    ∃ ps, List.Forall₂ Binding.StandsFor bs ps ∧
      keybindings = (ps ++ rightalt vars).foldl emplace defaultKeybindings := by
  have hread : (texts bs).mapM readInt ≠ none := by
    intro hnone
    rw [applyKeybindings, mapIntIntF, listIntF_bindings hvalid hlookup, hnone] at happly
    exact absurd happly (Option.some_ne_none _).symm
  obtain ⟨ps, hps⟩ := exists_pairs hvalid hread
  obtain ⟨left', happly'⟩ := applyKeybindings_eq hvalid hlookup hps
  rw [happly'] at happly
  exact ⟨ps, hps, (Prod.mk.inj (Option.some.inj happly)).2.symm⟩

lemma lookup_keybindings (k : Int32) : ((ps ++ rightalt vars).foldl emplace defaultKeybindings).lookup k =
    (defaultKeybindings.lookup k).or ((ps.lookup k).or ((rightalt vars).lookup k)) := by
  rw [lookup_foldl_emplace, List.lookup_append, List.lookup_append]

lemma mapKeycode_of_lookup_none {k : Int16} (h : ps.lookup k.toInt32 = none) :
    mapKeycode ((ps ++ rightalt vars).foldl emplace defaultKeybindings) k = mapKeycode (builtIn vars) k := by
  rw [mapKeycode, mapKeycode, lookup_keybindings, h, Option.none_or, builtIn_eq, List.lookup_append]

/-- Without a value that is a key code, or with a key that is bound to another one from the start, a binding has no
effect. -/
lemma bindable_of_takesEffect (hvalid : ∀ b ∈ bs, b.Valid)
    (hlookup : vars.lookup (str "keybindings") = some (bindingsText bs)) (h : TakesEffect vars bs) :
    ∀ b ∈ bs, b.Bindable := by
  obtain ⟨left, keybindings, happly, hlisted, -⟩ := h
  obtain ⟨ps, -, rfl⟩ := exists_pairs_of_applyKeybindings hvalid hlookup happly
  intro b hb
  refine ⟨hlisted b hb ▸ isShort_toInt32 _, fun d hd hkey => ?_⟩
  obtain ⟨hkeyShort, hvalueShort⟩ := isShort_defaultKeybindings d hd
  have hdefault : defaultKeybindings.lookup d.1 = some d.2 := lookup_defaultKeybindings.mpr hd
  have hfound := mapKeycode_of_lookup hkeyShort
    (show ((ps ++ rightalt vars).foldl emplace defaultKeybindings).lookup d.1 = some d.2 by
      rw [lookup_keybindings, hdefault, Option.some_or])
  rw [← hlisted b hb, ← hkey, hfound]
  exact hvalueShort.symm

lemma exists_standsFor (hps : List.Forall₂ Binding.StandsFor bs ps) {p : Int32 × Int32} (hp : p ∈ ps) :
    ∃ b ∈ bs, b.StandsFor p := by
  induction hps with
  | nil => cases hp
  | cons hb _ ih =>
    rcases List.mem_cons.mp hp with rfl | hp
    · exact ⟨_, List.mem_cons_self, hb⟩
    · obtain ⟨b, hmem, hstands⟩ := ih hp
      exact ⟨b, List.mem_cons_of_mem _ hmem, hstands⟩

/-- A key that gets a value it would not have without the list gets it from items that stand for both. -/
lemma standsFor_of_takesEffect (hvalid : ∀ b ∈ bs, b.Valid)
    (hlookup : vars.lookup (str "keybindings") = some (bindingsText bs)) (h : TakesEffect vars bs) {b : Binding}
    (hb : b ∈ bs) (hnew : (mapKeycode (builtIn vars) b.key.toInt16).toInt32 ≠ b.value) :
    ∃ b' ∈ bs, ∃ v, v.toInt16.toInt32 = b.value ∧ b'.StandsFor (b.key.toInt16.toInt32, v) := by
  obtain ⟨left, keybindings, happly, hlisted, -⟩ := h
  obtain ⟨ps, hps, rfl⟩ := exists_pairs_of_applyKeybindings hvalid hlookup happly
  have hvalue := hlisted b hb
  generalize b.key.toInt16 = k at *
  rcases hlist : ps.lookup k.toInt32 with _ | v
  · rw [mapKeycode_of_lookup_none hlist] at hvalue
    exact absurd hvalue hnew
  · have hdefault : defaultKeybindings.lookup k.toInt32 = none := by
      by_contra hsome
      obtain ⟨d, hd⟩ := Option.ne_none_iff_exists'.mp hsome
      rw [mapKeycode, lookup_keybindings, hd] at hvalue
      rw [mapKeycode, builtIn_eq, List.lookup_append, hd] at hnew
      exact hnew hvalue
    rw [mapKeycode, lookup_keybindings, hdefault, hlist] at hvalue
    obtain ⟨before, after, rfl, -⟩ := List.lookup_eq_some_iff.mp hlist
    obtain ⟨b', hb', hstands⟩ := exists_standsFor hps (List.mem_append_right before List.mem_cons_self)
    exact ⟨b', hb', v, hvalue, hstands⟩

/-- Otherwise it has. -/
lemma takesEffect_of_bindable (hvalid : ∀ b ∈ bs, b.Valid) (hkeys : (bs.map Binding.key).Nodup)
    (hlookup : vars.lookup (str "keybindings") = some (bindingsText bs)) (hread : ∀ b ∈ bs, b.Readable)
    (hshort : ∀ b ∈ bs, IsShort b.key) (hbind : ∀ b ∈ bs, b.Bindable) : TakesEffect vars bs := by
  obtain ⟨left, happly⟩ := applyKeybindings_eq hvalid hlookup (forall₂_pairs_iff.mpr hread)
  refine ⟨left, _, happly, fun b hb => ?_, fun k hk => mapKeycode_of_lookup_none ?_⟩
  · have hlist : (pairs bs).lookup b.key = some b.value := by
      refine (lookup_eq_some_of_keys ?_).mpr (List.mem_map_of_mem hb)
      rwa [pairs, List.map_map]
    have hfound : ((pairs bs ++ rightalt vars).foldl emplace defaultKeybindings).lookup b.key = some b.value := by
      rw [lookup_keybindings, hlist, Option.some_or]
      rcases hdefault : defaultKeybindings.lookup b.key with _ | v
      · rfl
      · rw [Option.some_or, ← (hbind b hb).2 _ (lookup_defaultKeybindings.mp hdefault) rfl]
    rw [mapKeycode_of_lookup (hshort b hb) hfound]
    exact (hbind b hb).1
  · rw [List.lookup_eq_none_iff]
    intro e he
    obtain ⟨b, hb, rfl⟩ := List.mem_map.mp he
    simpa using Ne.symm (hk b hb)

end Map

/-! ### The list in the file -/

lemma not_mem_joined {c : UInt8} (hcomma : c ≠ 44) {is : List Item}
    (h : ∀ i ∈ is, c ∉ i.before ++ i.text ++ i.after) : c ∉ joined is := by
  induction is with
  | nil => exact List.not_mem_nil
  | cons i is ih =>
    rw [List.forall_mem_cons] at h
    cases is with
    | nil =>
      rw [joined, List.map_singleton, List.intercalate_singleton]
      exact h.1
    | cons i' is =>
      rw [joined, List.map_cons, List.map_cons, List.intercalate_cons_cons, List.mem_append, List.mem_append,
        List.mem_singleton]
      rintro ((hmem | rfl) | hmem)
      · exact h.1 hmem
      · exact hcomma rfl
      · exact ih h.2 hmem

lemma not_mem_items {c : UInt8} (hblank : whitespace c = false) (hnumber : numeric c = false) {b : Binding}
    (hb : b.Valid) : ∀ i ∈ b.items, c ∉ i.before ++ i.text ++ i.after := by
  have hitem : ∀ before text after n, (∀ x ∈ before, whitespace x = true) → Rendering text n →
      (∀ x ∈ after, whitespace x = true) → c ∉ before ++ text ++ after := by
    intro before text after n hbefore htext hafter hmem
    rw [List.mem_append, List.mem_append] at hmem
    rcases hmem with (hmem | hmem) | hmem
    · exact ne_true_of_eq_false hblank (hbefore c hmem)
    · exact ne_true_of_eq_false hnumber (numeric_of_rendering htext c hmem)
    · exact ne_true_of_eq_false hblank (hafter c hmem)
  intro i hi
  rw [Binding.items, List.mem_pair] at hi
  obtain rfl | rfl := hi
  · exact hitem _ _ _ _ hb.beforeKey hb.key hb.afterKey
  · exact hitem _ _ _ _ hb.beforeValue hb.value hb.afterValue

/-- **The list is found in the file**, whatever follows it, unless an option of its name comes first. -/
theorem lookup_parseConfig {text pos rest : Str} {before : List (Str × Str)} {bs : List Binding}
    (hvalid : ∀ b ∈ bs, b.Valid) (hreach : Reaches text before pos) (hfirst : before.lookup (str "keybindings") = none)
    (hlist : ListOption pos (str "keybindings") (joined (bs.flatMap Binding.items) ++ [93] ++ rest)) :
    (parseConfig text).lookup (str "keybindings") = some (bindingsText bs) := by
  have hall : ∀ c : UInt8, whitespace c = false → numeric c = false → c ≠ 44 →
      c ∉ joined (bs.flatMap Binding.items) := by
    intro c hblank hnumber hcomma
    refine not_mem_joined hcomma fun i hi => ?_
    obtain ⟨b, hb, hi⟩ := List.mem_flatMap.mp hi
    exact not_mem_items hblank hnumber (hvalid b hb) i hi
  have hbalanced : Balanced 91 93 (joined (bs.flatMap Binding.items)) :=
    .of_not_mem (hall 91 (by decide) (by decide) (by decide)) (hall 93 (by decide) (by decide) (by decide))
  have hskip : skipList (joined (bs.flatMap Binding.items) ++ [93] ++ rest) =
      (joined (bs.flatMap Binding.items) ++ [93]).length := (hbalanced.closes (by decide)).skip_append (by decide) _
  have hclean : toString (bindingsText bs) = bindingsText bs := by
    refine toString_of_not_mem ?_
    rw [bindingsText, listText, List.mem_append, List.mem_cons, List.mem_singleton]
    rintro ((hopen | hmem) | hclose)
    · exact absurd hopen (by decide)
    · exact hall 35 (by decide) (by decide) (by decide) hmem
    · exact absurd hclose (by decide)
  rw [parseConfig_eq, lookup_foldl_emplace, List.nil_append, options_of_reaches hreach, options_of_ne_nil hlist.ne_nil,
    parseOption_list hlist, if_neg (by simp), hskip, List.take_left, ← List.cons_append]
  change List.lookup _ (before ++ (str "keybindings", toString (bindingsText bs)) :: _) = _
  rw [hclean, List.lookup_append, hfirst, Option.none_or, List.lookup_cons_self]

/-! ### Main result -/

/-- **Key bindings.**  The list is found in the file.  Its numbers are read exactly if each stands for itself with the
white space behind it, and then the bindings take effect exactly if their values are key codes and no key is bound to
another value from the start.  A binding whose numbers are not read takes effect only by way of one that is misread as
it.  The reader stays within the value exactly if the lists in it are closed in time. -/
theorem keybindings_takeEffect_iff (bs : List Binding) (hvalid : ∀ b ∈ bs, b.Valid) :
    (∀ vars, (bs.map Binding.key).Nodup → vars.lookup (str "keybindings") = some (bindingsText bs) →
      (listIntF vars (str "keybindings") [] = some (erase vars (str "keybindings"), numbers (pairs bs)) ↔
        ∀ b ∈ bs, b.Readable) ∧
      ((∀ b ∈ bs, b.Readable ∧ IsShort b.key) → (TakesEffect vars bs ↔ ∀ b ∈ bs, b.Bindable)) ∧
      (TakesEffect vars bs → ∀ b ∈ bs, b.Bindable ∧
        ((mapKeycode (builtIn vars) b.key.toInt16).toInt32 ≠ b.value →
          ∃ b' ∈ bs, ∃ v, v.toInt16.toInt32 = b.value ∧ b'.StandsFor (b.key.toInt16.toInt32, v)))) ∧
    (∀ text before pos rest, Reaches text before pos → before.lookup (str "keybindings") = none →
      ListOption pos (str "keybindings") (joined (bs.flatMap Binding.items) ++ [93] ++ rest) →
      (parseConfig text).lookup (str "keybindings") = some (bindingsText bs)) ∧
    ∀ string, items string ≠ none ↔ ListsClosed (if string.head? = some 91 then string.drop 1 else string) := by
  refine ⟨fun vars hkeys hlookup => ⟨listIntF_eq_numbers_iff hvalid hlookup, fun h => ⟨?_, fun hbind => ?_⟩,
    fun h b hb => ⟨?_, ?_⟩⟩, fun _ _ _ _ => lookup_parseConfig hvalid, items_ne_none_iff⟩
  · exact bindable_of_takesEffect hvalid hlookup
  · exact takesEffect_of_bindable hvalid hkeys hlookup (fun b hb => (h b hb).1) (fun b hb => (h b hb).2) hbind
  · exact bindable_of_takesEffect hvalid hlookup h b hb
  · exact standsFor_of_takesEffect hvalid hlookup h hb

/-- Bindings over three lines. -/
theorem keybindings_takeEffect_lines :
    TakesEffect (parseConfig (str "keybindings = [\n65,\n 0x42]\n"))
      [⟨str "\n", str "65", 65, [], str "\n ", str "0x42", 66, []⟩] := by
  let b : Binding := ⟨str "\n", str "65", 65, [], str "\n ", str "0x42", 66, []⟩
  have hvalue : Rendering (str "0x42") 66 := .hex (h := str "42") (by decide +kernel) (by decide) (by decide)
    (by decide)
  have hb : b.Valid := ⟨by decide +kernel, .decimal 65, by simp [b], by decide +kernel, hvalue, by simp [b]⟩
  have hvalid := List.forall_mem_singleton.mpr hb
  have hlist : ListOption (str "keybindings = [\n65,\n 0x42]\n") (str "keybindings")
      (joined ([b].flatMap Binding.items) ++ [93] ++ [10]) :=
    ⟨[], [32], [32], List.forall_mem_nil _, by decide +kernel, by decide +kernel, by decide +kernel, by decide +kernel⟩
  have hread : b.Readable := readable_of_nil hb (by decide +kernel) (by decide +kernel) rfl rfl
  have hbindings := keybindings_takeEffect_iff [b] hvalid
  have hlookup := hbindings.2.1 _ _ _ _ .start rfl hlist
  refine ((hbindings.1 _ (List.nodup_singleton _) hlookup).2.1 ?_).mpr ?_
  · exact List.forall_mem_singleton.mpr ⟨hread, by decide +kernel⟩
  · refine List.forall_mem_singleton.mpr ⟨by decide +kernel, ?_⟩
    rw [defaultKeybindings, List.forall_mem_cons, List.forall_mem_cons, List.forall_mem_singleton]
    decide +kernel

/-- The key 0x10 keeps the binding it starts with, the blank behind the 1 counts as a digit, and the reader passes the
end behind a list that the last character closes. -/
theorem keybindings_ignored :
    ¬((∀ vars bs, (∀ b ∈ bs, b.Valid) → (bs.map Binding.key).Nodup → (∀ b ∈ bs, IsShort b.key ∧ IsShort b.value) →
        vars.lookup (str "keybindings") = some (bindingsText bs) → TakesEffect vars bs) ∧
      ∀ string, items string ≠ none) ∧
    (∃ left, applyKeybindings [(str "keybindings", str "[16, 65]")] = some (left, defaultKeybindings)) ∧
    mapKeycode defaultKeybindings 16 = 160 ∧
    (∃ left, applyKeybindings [(str "keybindings", str "[1 , 2]")] = some (left, defaultKeybindings ++ [(-6, 2)])) ∧
    items (str "[1, [2]") = none := by
  have happly : ∀ (b : Binding) text p, b.Valid → text = bindingsText [b] → b.StandsFor p →
      ∃ left, applyKeybindings [(str "keybindings", text)] = some (left,
        ([p] ++ rightalt [(str "keybindings", text)]).foldl emplace defaultKeybindings) := by
    intro b text p hb htext hp
    refine applyKeybindings_eq (List.forall_mem_singleton.mpr hb) ?_ (.cons hp .nil)
    rw [List.lookup_cons_self, htext]
  let shift : Binding := ⟨[], str "16", 16, [], [32], str "65", 65, []⟩
  have hshift : shift.Valid := ⟨by simp [shift], .decimal 16, by simp [shift], by decide +kernel, .decimal 65,
    by simp [shift]⟩
  have htext : str "[16, 65]" = bindingsText [shift] := by decide +kernel
  have hread : shift.Readable := readable_of_nil hshift (by decide +kernel) (by decide +kernel) rfl rfl
  let spaced : Binding := ⟨[], str "1", 1, [32], [32], str "2", 2, []⟩
  have hspaced : spaced.Valid := ⟨by simp [spaced], .decimal 1, by decide +kernel, by decide +kernel, .decimal 2,
    by simp [spaced]⟩
  have hstands : spaced.StandsFor (-6, 2) :=
    ⟨(readInt_item_iff hspaced.key hspaced.afterKey).mp (by decide +kernel),
      (readInt_item_iff hspaced.value hspaced.afterValue).mp (by decide +kernel)⟩
  refine ⟨fun hholds => ?_, happly shift _ _ hshift htext hread, by decide +kernel,
    happly spaced _ _ hspaced (by decide +kernel) hstands, ?_⟩
  · have hvalid := List.forall_mem_singleton.mpr hshift
    have hlookup : List.lookup (str "keybindings") [(str "keybindings", str "[16, 65]")] =
      some (bindingsText [shift]) := by
      rw [List.lookup_cons_self, htext]
    have hshort : ∀ b ∈ [shift], IsShort b.key ∧ IsShort b.value :=
      List.forall_mem_singleton.mpr (by decide +kernel)
    have htakes := hholds.1 _ _ hvalid (List.nodup_singleton _) hshort hlookup
    have hbind := bindable_of_takesEffect hvalid hlookup htakes shift (List.mem_singleton_self _)
    exact absurd (hbind.2 (0x10, 0xA0) (by decide +kernel) rfl) (by decide +kernel)
  · have hopen : ¬ListsClosed (str "1, [2]") := by
      have htext : str "1, [2]" = 49 :: 44 :: 32 :: 91 :: str "2]" := by decide +kernel
      rw [htext, listsClosed_cons_iff (by decide) (by decide), listsClosed_cons_iff (by decide) (by decide),
        listsClosed_cons_iff (by decide) (by decide), listsClosed_open_iff]
      exact fun h => absurd h.1 (by decide +kernel)
    by_contra hread
    exact hopen ((items_ne_none_iff (str "[1, [2]")).mp hread)

end MidnightSun.Config
