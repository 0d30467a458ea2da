import Mathlib.Data.Nat.Notation
import MidnightSun.Lib.Brackets
import MidnightSun.Lib.Digits

/-!
# Typing Unicode text (src/platform/linux/input/inputtino_keyboard.cpp)

`unicode` enters a text the way an input method takes it: Ctrl+Shift+U, hexadecimal digits, and the release of Ctrl and
Shift.  `InputMethod` is what reads the keys.
-/

namespace MidnightSun.Platf.Keyboard

open Lib

/-! ### Key codes -/

/-- The key codes of Linux that `key_mappings` names. -/
inductive EventCode where
  | keyBackspace | keyTab | keyEnter | keyLeftshift | keyLeftctrl | keyCapslock | keyEsc | keySpace | keyPageup
  | keyPagedown | keyEnd | keyHome | keyLeft | keyUp | keyRight | keyDown | keySysrq | keyInsert | keyDelete
  | key0 | key1 | key2 | key3 | key4 | key5 | key6 | key7 | key8 | key9
  | keyA | keyB | keyC | keyD | keyE | keyF | keyG | keyH | keyI | keyJ | keyK | keyL | keyM
  | keyN | keyO | keyP | keyQ | keyR | keyS | keyT | keyU | keyV | keyW | keyX | keyY | keyZ
  | keyLeftmeta | keyRightmeta | keyKp0 | keyKp1 | keyKp2 | keyKp3 | keyKp4 | keyKp5 | keyKp6 | keyKp7 | keyKp8 | keyKp9
  | keyKpasterisk | keyKpplus | keyKpminus | keyKpdot | keyKpslash
  | keyF1 | keyF2 | keyF3 | keyF4 | keyF5 | keyF6 | keyF7 | keyF8 | keyF9 | keyF10 | keyF11 | keyF12
  | keyF13 | keyF14 | keyF15 | keyF16 | keyF17 | keyF18 | keyF19 | keyF20 | keyF21 | keyF22 | keyF23 | keyF24
  | keyNumlock | keyScrolllock | keyRightshift | keyRightctrl | keyLeftalt | keyRightalt
  | keySemicolon | keyEqual | keyComma | keyMinus | keyDot | keySlash | keyGrave | keyLeftbrace | keyBackslash
  | keyRightbrace | keyApostrophe | key102nd
  deriving DecidableEq

/-- `key_mappings`; of two entries with one key code, the map keeps the first. -/
def keyMappings : List (EventCode × UInt16) :=
  [(.keyBackspace, 0x08), (.keyTab, 0x09), (.keyEnter, 0x0D), (.keyLeftshift, 0x10), (.keyLeftctrl, 0x11),
    (.keyCapslock, 0x14), (.keyEsc, 0x1B), (.keySpace, 0x20), (.keyPageup, 0x21), (.keyPagedown, 0x22),
    (.keyEnd, 0x23), (.keyHome, 0x24), (.keyLeft, 0x25), (.keyUp, 0x26), (.keyRight, 0x27), (.keyDown, 0x28),
    (.keySysrq, 0x2C), (.keyInsert, 0x2D), (.keyDelete, 0x2E),
    (.key0, 0x30), (.key1, 0x31), (.key2, 0x32), (.key3, 0x33), (.key4, 0x34), (.key5, 0x35), (.key6, 0x36),
    (.key7, 0x37), (.key8, 0x38), (.key9, 0x39),
    (.keyA, 0x41), (.keyB, 0x42), (.keyC, 0x43), (.keyD, 0x44), (.keyE, 0x45), (.keyF, 0x46), (.keyG, 0x47),
    (.keyH, 0x48), (.keyI, 0x49), (.keyJ, 0x4A), (.keyK, 0x4B), (.keyL, 0x4C), (.keyM, 0x4D), (.keyN, 0x4E),
    (.keyO, 0x4F), (.keyP, 0x50), (.keyQ, 0x51), (.keyR, 0x52), (.keyS, 0x53), (.keyT, 0x54), (.keyU, 0x55),
    (.keyV, 0x56), (.keyW, 0x57), (.keyX, 0x58), (.keyY, 0x59), (.keyZ, 0x5A),
    (.keyLeftmeta, 0x5B), (.keyRightmeta, 0x5C),
    (.keyKp0, 0x60), (.keyKp1, 0x61), (.keyKp2, 0x62), (.keyKp3, 0x63), (.keyKp4, 0x64), (.keyKp5, 0x65),
    (.keyKp6, 0x66), (.keyKp7, 0x67), (.keyKp8, 0x68), (.keyKp9, 0x69),
    (.keyKpasterisk, 0x6A), (.keyKpplus, 0x6B), (.keyKpminus, 0x6D), (.keyKpdot, 0x6E), (.keyKpslash, 0x6F),
    (.keyF1, 0x70), (.keyF2, 0x71), (.keyF3, 0x72), (.keyF4, 0x73), (.keyF5, 0x74), (.keyF6, 0x75), (.keyF7, 0x76),
    (.keyF8, 0x77), (.keyF9, 0x78), (.keyF10, 0x79), (.keyF11, 0x7A), (.keyF12, 0x7B), (.keyF13, 0x7C),
    (.keyF14, 0x7D), (.keyF15, 0x7E), (.keyF16, 0x7F), (.keyF17, 0x80), (.keyF18, 0x81), (.keyF19, 0x82),
    (.keyF20, 0x83), (.keyF21, 0x84), (.keyF22, 0x85), (.keyF23, 0x86), (.keyF24, 0x87),
    (.keyNumlock, 0x90), (.keyScrolllock, 0x91), (.keyLeftshift, 0xA0), (.keyRightshift, 0xA1), (.keyLeftctrl, 0xA2),
    (.keyRightctrl, 0xA3), (.keyLeftalt, 0xA4), (.keyRightalt, 0xA5), (.keySemicolon, 0xBA), (.keyEqual, 0xBB),
    (.keyComma, 0xBC), (.keyMinus, 0xBD), (.keyDot, 0xBE), (.keySlash, 0xBF), (.keyGrave, 0xC0),
    (.keyLeftbrace, 0xDB), (.keyBackslash, 0xDC), (.keyRightbrace, 0xDD), (.keyApostrophe, 0xDE), (.key102nd, 0xE2)]

/-- The hexadecimal digits and their keys. -/
def digitKeys : List (Char × EventCode) :=
  [('0', .key0), ('1', .key1), ('2', .key2), ('3', .key3), ('4', .key4), ('5', .key5), ('6', .key6), ('7', .key7),
    ('8', .key8), ('9', .key9), ('A', .keyA), ('B', .keyB), ('C', .keyC), ('D', .keyD), ('E', .keyE), ('F', .keyF)]

/-! ### Keys of a text -/

/-- What the virtual keyboard is told, in the key codes of Moonlight. -/
inductive KeyEvent where
  | press (code : UInt16)
  | release (code : UInt16)
  deriving DecidableEq

def tap (code : UInt16) : List KeyEvent := [.press code, .release code]

def leftctrl : UInt16 := 0xA2
def leftshift : UInt16 := 0xA0
def keycodeU : UInt16 := 0x55

/-- The libraries that `unicode` calls. -/
structure TextEnv where
  /-- `to_utf<wchar_t>` and `utf_to_utf<char32_t>` of `boost::locale::conv` -/
  toUtf32 : List UInt8 → List UInt32
  /-- `libevdev_event_code_from_name`; `none` for -1 and for a key code that `key_mappings` does not name -/
  eventCodeFromName : String → Option EventCode

/-- `to_hex`. -/
def toHex (str : List UInt32) : List Char := (str.flatMap fun ch => Nat.toDigits 16 ch.toNat).map Char.toUpper

variable (env : TextEnv)

/-- The key for a character of the hexadecimal text, if there is one. -/
def wincode (ch : Char) : Option UInt16 :=
  (env.eventCodeFromName ("KEY_".push ch)).bind fun code => keyMappings.lookup code

/-- `unicode`, with `keyboard` telling whether there is a virtual keyboard. -/
def unicode (keyboard : Bool) (utf8 : List UInt8) : List KeyEvent :=
  if keyboard then
    [.press leftctrl, .press leftshift] ++ tap keycodeU ++
    (toHex (env.toUtf32 utf8)).flatMap (fun ch => ((wincode env ch).map tap).getD []) ++
    [.release leftshift, .release leftctrl]
  else []

/-! ### The input method -/

/-- The digit on a key. -/
def digitOn (code : UInt16) : Option ℕ :=
  if 0x30 ≤ code ∧ code ≤ 0x39 then some (code - 0x30).toNat
  else if 0x41 ≤ code ∧ code ≤ 0x46 then some (code - 0x37).toNat
  else none

/-- Which of Ctrl and Shift are down, the digits of the entry that has been started, and the code points so far. -/
structure InputMethod where
  ctrl : Bool := false
  shift : Bool := false
  entry : Option (List ℕ) := none
  typed : List ℕ := []

/-- The code point of an entry; an entry without digits has none. -/
def entered (digits : List ℕ) : List ℕ := if digits = [] then [] else [digitsValue 16 id digits]

def InputMethod.press (s : InputMethod) (code : UInt16) : InputMethod :=
  if code = leftctrl then { s with ctrl := true }
  else if code = leftshift then { s with shift := true }
  else
    match s.entry with
    | none => if code = keycodeU ∧ s.ctrl ∧ s.shift then { s with entry := some [] } else s
    | some digits => { s with entry := some (digits ++ (digitOn code).toList) }

/-- The entry ends when neither Ctrl nor Shift is down any more. -/
def InputMethod.finish (s : InputMethod) : InputMethod :=
  if s.ctrl ∨ s.shift then s else { s with entry := none, typed := s.typed ++ (s.entry.map entered).getD [] }

def InputMethod.release (s : InputMethod) (code : UInt16) : InputMethod :=
  if code = leftctrl then { s with ctrl := false }.finish
  else if code = leftshift then { s with shift := false }.finish
  else s

def InputMethod.key (s : InputMethod) : KeyEvent → InputMethod
  | .press code => s.press code
  | .release code => s.release code

/-- The code points that the input method reads from key events. -/
def decode (events : List KeyEvent) : List ℕ := (events.foldl InputMethod.key {}).typed

/-! ### Digits -/

/-- libevdev knows the keys of the hexadecimal digits. -/
def ResolvesDigits : Prop := ∀ x ∈ digitKeys, env.eventCodeFromName ("KEY_".push x.1) = some x.2

/-- The key of a hexadecimal digit. -/
def hexKey (d : ℕ) : UInt16 := if d < 10 then 0x30 + d.toUInt16 else 0x37 + d.toUInt16

variable {env}

lemma digitOn_hexKey {d : ℕ} (hd : d < 16) : digitOn (hexKey d) = some d := by
  have hall : ∀ d < 16, digitOn (hexKey d) = some d := by decide
  exact hall d hd

lemma hexKey_ne {d : ℕ} (hd : d < 16) : hexKey d ≠ leftctrl ∧ hexKey d ≠ leftshift := by
  have hall : ∀ d < 16, hexKey d ≠ leftctrl ∧ hexKey d ≠ leftshift := by decide
  exact hall d hd

lemma wincode_digit (hresolves : ResolvesDigits env) {d : ℕ} (hd : d < 16) :
    wincode env (Nat.digitChar d).toUpper = some (hexKey d) := by
  have hall : ∀ d < 16, ∃ x ∈ digitKeys, x.1 = (Nat.digitChar d).toUpper ∧
      keyMappings.lookup x.2 = some (hexKey d) := by
    decide
  obtain ⟨x, hx, hch, hcode⟩ := hall d hd
  rw [wincode, ← hch, hresolves x hx, Option.bind_some, hcode]

/-- A number is the value of its digits. -/
lemma toDigits_spec (n : ℕ) : ∃ digits : List ℕ, digits ≠ [] ∧ (∀ d ∈ digits, d < 16) ∧
    Nat.toDigits 16 n = digits.map Nat.digitChar ∧ digitsValue 16 id digits = n := by
  induction n using Nat.strongRecOn with
  | ind n ih =>
    by_cases hn : n < 16
    · refine ⟨[n], List.cons_ne_nil _ _, ?_, Nat.toDigits_of_lt_base hn, ?_⟩
      · intro d hd
        rwa [List.mem_singleton.mp hd]
      · simp [digitsValue]
    · have hle : 16 ≤ n := Nat.le_of_not_lt hn
      obtain ⟨digits, -, hlt, hdigits, hvalue⟩ := ih (n / 16) (by omega)
      refine ⟨digits ++ [n % 16], by simp, ?_, ?_, ?_⟩
      · intro d hd
        rcases List.mem_append.mp hd with hd | hd
        · exact hlt d hd
        · rw [List.mem_singleton.mp hd]
          exact Nat.mod_lt n (by decide)
      · rw [Nat.toDigits_of_base_le (by decide) hle, hdigits, List.map_append, List.map_singleton]
      · rw [digitsValue_concat, hvalue]
        exact Nat.div_add_mod n 16

/-- The digits of a text follow each other without a mark between them. -/
lemma toHex_spec (str : List UInt32) : ∃ digits : List ℕ, (digits = [] ↔ str = []) ∧ (∀ d ∈ digits, d < 16) ∧
    toHex str = digits.map (fun d => (Nat.digitChar d).toUpper) ∧
    ∀ ch, str = [ch] → digitsValue 16 id digits = ch.toNat := by
  induction str with
  | nil => exact ⟨[], iff_of_true rfl rfl, nofun, rfl, nofun⟩
  | cons ch str ih =>
    obtain ⟨digits, hne, hlt, hdigits, hvalue⟩ := toDigits_spec ch.toNat
    obtain ⟨rest, hnil, hltRest, hrest, -⟩ := ih
    refine ⟨digits ++ rest, iff_of_false (by simp [hne]) (List.cons_ne_nil _ _), ?_, ?_, ?_⟩
    · intro d hd
      exact (List.mem_append.mp hd).elim (hlt d) (hltRest d)
    · unfold toHex at hrest ⊢
      rw [List.flatMap_cons, List.map_append, hrest, hdigits, List.map_map, List.map_append]
      rfl
    · intro c hc
      obtain ⟨rfl, rfl⟩ := List.cons.inj hc
      rw [hnil.mpr rfl, List.append_nil, hvalue]

/-! ### What the input method reads -/

lemma foldl_taps {s : InputMethod} {before digits : List ℕ} (hentry : s.entry = some before)
    (hlt : ∀ d ∈ digits, d < 16) :
    (digits.flatMap fun d => tap (hexKey d)).foldl InputMethod.key s = { s with entry := some (before ++ digits) } := by
  induction digits generalizing s before with
  | nil => simp [← hentry]
  | cons d digits ih =>
    obtain ⟨hctrl, hshift⟩ := hexKey_ne (hlt d List.mem_cons_self)
    have htap : (tap (hexKey d)).foldl InputMethod.key s = { s with entry := some (before ++ [d]) } := by
      simp [tap, InputMethod.key, InputMethod.press, InputMethod.release, hctrl, hshift, hentry,
        digitOn_hexKey (hlt d List.mem_cons_self)]
    rw [List.flatMap_cons, List.foldl_append, htap, ih rfl fun x hx => hlt x (List.mem_cons_of_mem _ hx)]
    simp

lemma unicode_eq (hresolves : ResolvesDigits env) {utf8 : List UInt8} {digits : List ℕ} (hlt : ∀ d ∈ digits, d < 16)
    (hdigits : toHex (env.toUtf32 utf8) = digits.map fun d => (Nat.digitChar d).toUpper) :
    unicode env true utf8 = [.press leftctrl, .press leftshift] ++ tap keycodeU ++
      (digits.flatMap fun d => tap (hexKey d)) ++ [.release leftshift, .release leftctrl] := by
  have hkeys : (toHex (env.toUtf32 utf8)).flatMap (fun ch => ((wincode env ch).map tap).getD []) =
      digits.flatMap fun d => tap (hexKey d) := by
    rw [hdigits, List.flatMap_map]
    refine List.flatMap_congr fun d hd => ?_
    rw [wincode_digit hresolves (hlt d hd), Option.map_some, Option.getD_some]
  rw [unicode, if_pos rfl, hkeys]

lemma decode_unicode (hresolves : ResolvesDigits env) {utf8 : List UInt8} {digits : List ℕ} (hlt : ∀ d ∈ digits, d < 16)
    (hdigits : toHex (env.toUtf32 utf8) = digits.map fun d => (Nat.digitChar d).toUpper) :
    decode (unicode env true utf8) = entered digits := by
  have hstart : ([KeyEvent.press leftctrl, .press leftshift] ++ tap keycodeU).foldl InputMethod.key {} =
      { ctrl := true, shift := true, entry := some [] } := by rfl
  rw [unicode_eq hresolves hlt hdigits, decode, List.foldl_append, List.foldl_append, hstart,
    foldl_taps (rfl : _ = some []) hlt, List.nil_append]
  rfl

/-! ### Balance -/

lemma balanced_around {code : UInt16} {l : List KeyEvent} (h : Balanced (.press code) (.release code) l)
    (key : UInt16) :
    Balanced (.press code) (.release code) (.press key :: l ++ [.release key]) := by
  by_cases hkey : key = code
  · rw [hkey]
    exact Balanced.wrap KeyEvent.noConfusion h
  · have hpress : Balanced (KeyEvent.press code) (.release code) [.press key] :=
      Balanced.of_not_mem (by simp [Ne.symm hkey]) (by simp)
    have hrelease : Balanced (KeyEvent.press code) (.release code) [.release key] :=
      Balanced.of_not_mem (by simp) (by simp [Ne.symm hkey])
    exact (hpress.append h).append hrelease

/-- Every key that is pressed is released, whatever the libraries do. -/
theorem balanced_unicode (keyboard : Bool) (utf8 : List UInt8) (code : UInt16) :
    Balanced (.press code) (.release code) (unicode env keyboard utf8) := by
  have htaps : ∀ chars : List Char, Balanced (.press code) (.release code)
      (chars.flatMap fun ch => ((wincode env ch).map tap).getD []) := by
    intro chars
    induction chars with
    | nil => exact Balanced.nil
    | cons ch chars ih =>
      rw [List.flatMap_cons]
      refine Balanced.append ?_ ih
      cases wincode env ch with
      | none => exact Balanced.nil
      | some key => exact balanced_around Balanced.nil key
  unfold unicode
  split
  · have hnil : Balanced (KeyEvent.press code) (.release code) [] := Balanced.nil
    have hinner := (balanced_around hnil keycodeU).append (htaps (toHex (env.toUtf32 utf8)))
    have hall := balanced_around (balanced_around hinner leftshift) leftctrl
    simpa [tap] using hall
  · exact Balanced.nil

/-! ### Texts -/

def toUtf8 (text : List Char) : List UInt8 := text.flatMap String.utf8EncodeChar

/-- The conversion of a text is exact. -/
def ConvertsExactly (env : TextEnv) : Prop := ∀ text : List Char, env.toUtf32 (toUtf8 text) = text.map Char.val

/-- The keys are balanced, and the input method reads the text from them. -/
structure Recovered (env : TextEnv) (keyboard : Bool) (text : List Char) : Prop where
  balanced : ∀ code, Balanced (.press code) (.release code) (unicode env keyboard (toUtf8 text))
  decodes : decode (unicode env keyboard (toUtf8 text)) = text.map Char.toNat

/-- A single character, if there is a keyboard, or no text at all. -/
def SingleEntry (keyboard : Bool) (text : List Char) : Prop := text = [] ∨ keyboard = true ∧ ∃ ch, text = [ch]

lemma decodes_iff (hresolves : ResolvesDigits env) (hexact : ConvertsExactly env) (keyboard : Bool) (text : List Char) :
    decode (unicode env keyboard (toUtf8 text)) = text.map Char.toNat ↔ SingleEntry keyboard text := by
  cases keyboard with
  | false =>
    have hnone : decode (unicode env false (toUtf8 text)) = [] := rfl
    rw [hnone, eq_comm, List.map_eq_nil_iff, SingleEntry]
    simp
  | true =>
    obtain ⟨digits, hnil, hlt, hdigits, hvalue⟩ := toHex_spec (text.map Char.val)
    rw [List.map_eq_nil_iff] at hnil
    rw [← hexact] at hdigits
    rw [decode_unicode hresolves hlt hdigits, SingleEntry]
    match text, hnil, hvalue with
    | [], hnil, _ =>
      rw [hnil.mpr rfl]
      exact iff_of_true rfl (Or.inl rfl)
    | [ch], hnil, hvalue =>
      rw [entered, if_neg (mt hnil.mp (List.cons_ne_nil _ _)), hvalue ch.val rfl]
      exact iff_of_true rfl (Or.inr ⟨rfl, ch, rfl⟩)
    | ch :: ch' :: rest, hnil, _ =>
      -- one entry for at least two characters
      rw [entered, if_neg (mt hnil.mp (List.cons_ne_nil _ _))]
      exact iff_of_false (by simp) (by simp)

/-- **Typed text is recoverable exactly if it is a single character** and there is a keyboard (or there is no text), and
of such texts no two give the same keys. -/
theorem unicode_recovered_iff (hresolves : ResolvesDigits env) (hexact : ConvertsExactly env) (keyboard : Bool)
    (text : List Char) :
    (Recovered env keyboard text ↔ SingleEntry keyboard text) ∧
    ∀ text', SingleEntry keyboard text → SingleEntry keyboard text' →
      unicode env keyboard (toUtf8 text) = unicode env keyboard (toUtf8 text') → text = text' := by
  have hiff := decodes_iff hresolves hexact keyboard
  refine ⟨⟨fun h => (hiff text).mp h.decodes, fun h => ⟨balanced_unicode keyboard _, (hiff text).mpr h⟩⟩, ?_⟩
  intro text' h h' hsame
  have hcodes : text.map Char.toNat = text'.map Char.toNat := by
    rw [← (hiff text).mpr h, ← (hiff text').mpr h', hsame]
  exact List.map_injective_iff.mpr (fun _ _ => Char.toNat_inj.mp) hcodes

/-- Both libraries as documented. -/
def textEnv : TextEnv where
  toUtf32 utf8 := ((utf8.toByteArray.utf8Decode?).map fun chars => chars.toList.map Char.val).getD []
  eventCodeFromName name := (digitKeys.find? fun x => name = "KEY_".push x.1).map (·.2)

lemma textEnv_resolves : ResolvesDigits textEnv := by
  simp only [ResolvesDigits, digitKeys, List.forall_mem_cons]
  decide

lemma textEnv_exact : ConvertsExactly textEnv := by
  intro text
  have hdecode : (toUtf8 text).toByteArray.utf8Decode? = some text.toArray := List.utf8Decode?_utf8Encode
  simp [textEnv, hdecode]

theorem unicode_recovered_emoji : Recovered textEnv true [Char.ofNat 0x1F471] :=
  ((unicode_recovered_iff textEnv_resolves textEnv_exact true _).1).mpr (Or.inr ⟨rfl, _, rfl⟩)

/-- The digits of "ab" are those of U+6162. -/
theorem two_texts_same_keys :
    (¬∀ env, ResolvesDigits env → ConvertsExactly env → ∀ text, Recovered env true text) ∧
    unicode textEnv true (toUtf8 ['a', 'b']) = unicode textEnv true (toUtf8 [Char.ofNat 0x6162]) ∧
    decode (unicode textEnv true (toUtf8 ['a', 'b'])) = [0x6162] := by
  have hkeys : ∀ text, unicode textEnv true (toUtf8 text) = [.press leftctrl, .press leftshift] ++ tap keycodeU ++
      (toHex (text.map Char.val)).flatMap (fun ch => ((wincode textEnv ch).map tap).getD []) ++
      [.release leftshift, .release leftctrl] := by
    intro text
    rw [unicode, if_pos rfl, textEnv_exact]
  have hdecode : decode (unicode textEnv true (toUtf8 ['a', 'b'])) = [0x6162] := by
    rw [hkeys]
    decide +kernel
  refine ⟨fun hholds => ?_, ?_, hdecode⟩
  · have hab := (hholds textEnv textEnv_resolves textEnv_exact ['a', 'b']).decodes
    rw [hdecode] at hab
    exact absurd hab (by decide)
  · rw [hkeys, hkeys]
    decide +kernel

end MidnightSun.Platf.Keyboard
