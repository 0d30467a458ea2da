import MidnightSun.Input.Layout
import MidnightSun.Input.Merge
import MidnightSun.Input.System

/-!
# The reads of input packets (src/input.cpp)

`print`, `batch` and `passthrough` once more, now on the vector that was queued and with each read of it.  What a
handler reads depends on the configuration and on its state; the lists give the fields in the order of the source, each
once.  What it then does is what it does with the packet.
-/

namespace MidnightSun.Input

open Lib Platf

section Reads

variable (env : Env)

/-- The fields that the handler of gamepad messages reads for a controller that is allocated. -/
def gamepadFields (input : Context) (controllerNumber : UInt8) (fields : List Field) : List Field :=
  if !env.config.controller then []
  else
    .controllerNumber ::
      match slot? controllerNumber.toNat with
      | none => []
      | some c => if (input.gamepads c).id < 0 then [] else fields

/-- The fields that the handler of a packet reads. -/
def handlerFields (r : Response) (host : Host) (input : Context) : Packet → List Field
  | .relMouseMove _ => if !env.config.mouse then [] else [.deltaX, .deltaY]
  | .absMouseMove p =>
    if !env.config.mouse then [] else [.x, .y, .width] ++ if p.width = 0 then [] else [.height]
  | .mouseButton _ => if !env.config.mouse then [] else [.button]
  | .scroll _ => if !env.config.mouse then [] else [.scrollAmt1]
  | .hscroll _ => if !env.config.mouse then [] else [.scrollAmount]
  | .keyboard p =>
    if !env.config.keyboard then []
    else
      [.keyCode] ++
      (if !p.release ∧ !isModifier (p.keyCode &&& 0x00FF) ∧ !input.shortcutFlags.shortcut then [.modifiers] else []) ++
      [.flags]
  | .unicode _ => []
  | .multiController p =>
    if !env.config.controller then []
    else
      .controllerNumber ::
        match slot? p.controllerNumber.toInt with
        | none => []
        | some c =>
          let input := if p.active c ∧ (input.gamepads c).id < 0 then (allocGamepad r host input c {}).2.1 else input
          .activeGamepadMask ::
            if !p.active c ∨ (input.gamepads c).id < 0 then []
            else
              [.buttonFlags, .buttonFlags2, .leftTrigger, .rightTrigger, .leftStickX, .leftStickY, .rightStickX,
                .rightStickY]
  | .touch _ =>
    if !env.config.mouse then []
    else
      [.x, .y] ++
      if !input.popTouchPort.touchPort.monitored then []
      else [.rotation, .contactAreaMajor, .contactAreaMinor, .eventType, .pointerId, .pressureOrDistance]
  | .pen _ =>
    if !env.config.mouse then []
    else
      [.x, .y] ++
      if !input.popTouchPort.touchPort.monitored then []
      else
        [.rotation, .contactAreaMajor, .contactAreaMinor, .eventType, .toolType, .penButtons, .tilt,
          .pressureOrDistance]
  | .controllerArrival p =>
    if !env.config.controller then []
    else
      .controllerNumber ::
        match slot? p.controllerNumber.toNat with
        | none => []
        | some c => if 0 ≤ (input.gamepads c).id then [] else [.type, .capabilities, .supportedButtonFlags]
  | .controllerTouch p =>
    gamepadFields env input p.controllerNumber [.eventType, .pointerId, .x, .y, .pressure]
  | .controllerMotion p => gamepadFields env input p.controllerNumber [.motionType, .x, .y, .z]
  | .controllerBattery p => gamepadFields env input p.controllerNumber [.batteryState, .batteryPercentage]

end Reads

/-- The two packets of a `batch`. -/
inductive Side where
  | dest
  | src
  deriving DecidableEq

def Side.of {α : Type} (dest src : α) : Side → α
  | .dest => dest
  | .src => src

/-- A field of both packets, in a comparison. -/
def both (f : Field) : List (Side × Field) := [(.dest, f), (.src, f)]

/-- The fields that `batch` reads of two packets of the same type, up to the copy of the whole struct. -/
def batchFields (lim : Limelight) : Packet → Packet → List (Side × Field)
  | .relMouseMove d, .relMouseMove s =>
    both .deltaX ++ if !(addOverflow d.deltaX s.deltaX).1 then [] else both .deltaY
  | .absMouseMove d, .absMouseMove s => both .width ++ if d.width ≠ s.width then [] else both .height
  | .scroll _, .scroll _ => both .scrollAmt1
  | .hscroll _, .hscroll _ => both .scrollAmount
  | .multiController d, .multiController s =>
    both .activeGamepadMask ++
    if d.activeGamepadMask ≠ s.activeGamepadMask then []
    else
      both .controllerNumber ++
      if d.controllerNumber ≠ s.controllerNumber then []
      else both .buttonFlags ++ if d.buttonFlags ≠ s.buttonFlags then [] else both .buttonFlags2
  | .touch d, .touch s =>
    [(.dest, .eventType)] ++
    if !lim.moves d.eventType then []
    else [(.src, .eventType)] ++ if !lim.moves s.eventType then [] else both .pointerId
  | .pen d, .pen s =>
    [(.dest, .eventType)] ++
    if !lim.moves d.eventType then []
    else
      [(.src, .eventType)] ++
      if d.eventType ≠ s.eventType then []
      else both .penButtons ++ if d.penButtons ≠ s.penButtons then [] else both .toolType
  | .controllerTouch d, .controllerTouch s =>
    [(.dest, .eventType)] ++
    if !lim.moves d.eventType then []
    else
      both .controllerNumber ++
      if d.controllerNumber ≠ s.controllerNumber then []
      else [(.src, .eventType)] ++ if !lim.moves s.eventType then [] else both .pointerId
  | .controllerMotion d, .controllerMotion s =>
    both .controllerNumber ++ if d.controllerNumber ≠ s.controllerNumber then [] else both .motionType
  | _, _ => []

/-- Bytes that `batch` puts into the first packet, from a position on. -/
abbrev Store := ℕ × List UInt8

/-- `std::string::max_size()`. -/
def maxStringSize : ℕ := 2 ^ 62 - 1

/-- The two levels that packets are logged with. -/
def verbose : ℤ := 0
def debug : ℤ := 1

def Kind.severity : Kind → ℤ
  | .multiController | .controllerMotion | .controllerBattery => verbose
  | _ => debug

section Checked

variable (lay : Layout)

def Layout.readMagic (v : List UInt8) : Except Fault ℕ :=
  ((View.whole v).read lay.magicPos sizeofMagic).bind fun _ => .ok (lay.magic v)

/-- `header.size` of a UTF-8 packet, and with it the length of the text. -/
def Layout.readTextSize (v : List UInt8) : Except Fault ℕ :=
  ((View.whole v).read lay.sizePos sizeofMagic).bind fun _ => .ok (lay.textSize v)

def Layout.readField (k : Kind) (v : List UInt8) (f : Field) : Except Fault (List UInt8) :=
  (View.whole v).read (lay.pos k f) (lay.width k f)

def Layout.readFields (k : Kind) (v : List UInt8) : List Field → Except Fault Unit
  | [] => .ok ()
  | f :: fields => (lay.readField k v f).bind fun _ => readFields k v fields

/-- `print(PNV_UNICODE_PACKET)`: the string is made whatever the level. -/
def printUnicode (v : List UInt8) : Except Fault Unit :=
  (lay.readTextSize v).bind fun n =>
    if maxStringSize < n then .error .exception
    else ((View.whole v).read lay.headerSize n).bind fun _ => .ok ()

def print (minLogLevel : ℤ) (v : List UInt8) : Except Fault Unit :=
  (lay.readMagic v).bind fun magic =>
    match lay.kind magic with
    | none => .ok ()
    | some .unicode => printUnicode lay v
    | some k => if minLogLevel ≤ k.severity then lay.readFields k v (printFields k) else .ok ()

/-- `passthrough(PNV_UNICODE_PACKET)`; the text is read by `platf::unicode`, which a negative length leads outside. -/
def readUnicode (env : Env) (v : List UInt8) : Except Fault Unit :=
  if !env.config.keyboard then .ok ()
  else
    (lay.readTextSize v).bind fun _ =>
      if lay.textLength v < 0 then .error .outOfBounds
      else ((View.whole v).read lay.headerSize (lay.textLength v).toNat).bind fun _ => .ok ()

/-- The second switch of `passthrough_next_message`. -/
def passthroughBytes (env : Env) (i : ℕ) (r : Response) (host : Host) (input : Context) (v : List UInt8) :
    Except Fault (Host × Context × List Call) :=
  (lay.readMagic v).bind fun magic =>
    match lay.kind magic with
    | none => .ok (host, input, [])
    | some k =>
      let packet := lay.packet v k
      (if k = .unicode then readUnicode lay env v
        else lay.readFields k v (handlerFields env r host input packet)).bind fun _ =>
          .ok (passthrough env i r host input packet)

/-- The reads of both packets of a `batch`. -/
def Layout.readSides (k : Kind) (dest src : List UInt8) : List (Side × Field) → Except Fault Unit
  | [] => .ok ()
  | (side, f) :: fields =>
    (lay.readField k (side.of dest src) f).bind fun _ => readSides k dest src fields

/-- `util::endian::big` of a short. -/
def bigBytes (x : Int16) : List UInt8 := (leBytes 2 x.toUInt16.toNat).reverse

/-- What the assignments of `batch` write, for the packet that `dest` becomes. -/
def Layout.stores (k : Kind) (src : List UInt8) : Packet → List Store
  | .relMouseMove p => [(lay.pos k .deltaX, bigBytes p.deltaX), (lay.pos k .deltaY, bigBytes p.deltaY)]
  | .scroll p => [(lay.pos k .scrollAmt1, bigBytes p.scrollAmt1), (lay.pos k .scrollAmt2, bigBytes p.scrollAmt2)]
  | .hscroll p => [(lay.pos k .scrollAmount, bigBytes p.scrollAmount)]
  | _ => [(0, bytesAt src 0 (lay.size k))]

/-- `*dest = *src`, for the structs that are copied. -/
def Layout.readCopied (k : Kind) (src : List UInt8) : Except Fault Unit :=
  if k.copied then ((View.whole src).read 0 (lay.size k)).bind fun _ => .ok () else .ok ()

/-- `batch(PNV_INPUT_HEADER, PNV_INPUT_HEADER)`: a batched entry carries what is written to `dest`. -/
def batchBytes (lim : Limelight) (dest src : List UInt8) : Except Fault (BatchResult (List Store)) :=
  (lay.readMagic dest).bind fun magic =>
    (lay.readMagic src).bind fun srcMagic =>
      if magic ≠ srcMagic then .ok .terminateBatch
      else
        match lay.kind magic with
        | none => .ok .terminateBatch
        | some k =>
          (lay.readSides k dest src (batchFields lim (lay.packet dest k) (lay.packet src k))).bind fun _ =>
            match batch lim (lay.packet dest k) (lay.packet src k) with
            | .terminateBatch => .ok .terminateBatch
            | .notBatchable => .ok .notBatchable
            | .batched p => (lay.readCopied k src).bind fun _ => .ok (.batched (lay.stores k src p))

end Checked

/-! ### What a vector has to hold -/

section Covers

variable (lay : Layout) (lim : Limelight)

/-- The text of a UTF-8 packet, as long as its header says, is in the vector. -/
def TextFits (v : List UInt8) : Prop :=
  lay.sizePos + sizeofMagic ≤ v.length ∧ sizeofMagic ≤ lay.headerLength v ∧
    lay.headerLength v - sizeofMagic < 2 ^ 31 ∧ lay.headerLength v - sizeofMagic ≤ v.length - lay.headerSize

/-- The vector holds the magic and what a packet of this magic is read for. -/
structure Covers (v : List UInt8) : Prop where
  magic : lay.magicPos + sizeofMagic ≤ v.length
  fields : ∀ k, lay.kind (lay.magic v) = some k → ∀ f ∈ printFields k, lay.holds k f v
  text : lay.kind (lay.magic v) = some .unicode → TextFits lay v

/-- Where a struct is copied, the second vector holds the whole of it. -/
def CopyFits (dest src : List UInt8) : Prop :=
  lay.magic dest = lay.magic src → ∀ k, lay.kind (lay.magic dest) = some k →
    Copies lim (lay.packet dest k) (lay.packet src k) → lay.size k ≤ src.length

/-! ### What stays inside -/

/-- The length of a text, as both functions compute it, is between 0 and the number of bytes after the header. -/
def TextInside (v : List UInt8) : Prop :=
  lay.textSize v ≤ v.length - lay.headerSize ∧ 0 ≤ lay.textLength v ∧
    lay.textLength v ≤ ((v.length - lay.headerSize : ℕ) : ℤ)

/-- `print` and the handler come to their end, at every level and in every state. -/
structure Inside (v : List UInt8) : Prop where
  print : ∀ minLogLevel, Returns (print lay minLogLevel v)
  passthrough : ∀ config i r host input, Returns (passthroughBytes lay ⟨config, lim⟩ i r host input v)
  text : lay.kind (lay.magic v) = some .unicode → TextInside lay v

end Covers

/-! ### Reads that return -/

section Returns

variable {lay : Layout} {lim : Limelight} {k : Kind} {v dest src : List UInt8}

lemma returns_readFields_iff {fields : List Field} :
    Returns (lay.readFields k v fields) ↔ ∀ f ∈ fields, lay.holds k f v := by
  induction fields with
  | nil => exact iff_of_true (returns_ok _) (by simp)
  | cons f fields ih =>
    have hf : (View.whole v).Within (lay.pos k f) (lay.width k f) ↔ lay.holds k f v :=
      View.within_whole_iff (lay.width_pos k f)
    rw [Layout.readFields, Layout.readField, View.returns_read_bind_iff, hf, ih, List.forall_mem_cons]

lemma returns_readSides_iff {fields : List (Side × Field)} :
    Returns (lay.readSides k dest src fields) ↔ ∀ x ∈ fields, lay.holds k x.2 (x.1.of dest src) := by
  induction fields with
  | nil => exact iff_of_true (returns_ok _) (by simp)
  | cons x fields ih =>
    obtain ⟨side, f⟩ := x
    have hf : (View.whole (side.of dest src)).Within (lay.pos k f) (lay.width k f) ↔
        lay.holds k f (side.of dest src) := View.within_whole_iff (lay.width_pos k f)
    rw [Layout.readSides, Layout.readField, View.returns_read_bind_iff, hf, ih, List.forall_mem_cons]

lemma returns_readMagic_bind_iff {α : Type} {f : ℕ → Except Fault α} :
    Returns ((lay.readMagic v).bind f) ↔ lay.magicPos + sizeofMagic ≤ v.length ∧ Returns (f (lay.magic v)) := by
  rw [Layout.readMagic, bind_ok_bind _ (fun _ => lay.magic v), View.returns_read_bind_iff,
    View.within_whole_iff (by decide)]

lemma returns_readTextSize_bind_iff {α : Type} {f : ℕ → Except Fault α} :
    Returns ((lay.readTextSize v).bind f) ↔ lay.sizePos + sizeofMagic ≤ v.length ∧ Returns (f (lay.textSize v)) := by
  rw [Layout.readTextSize, bind_ok_bind _ (fun _ => lay.textSize v), View.returns_read_bind_iff,
    View.within_whole_iff (by decide)]

/-! ### The length of a text -/

lemma headerLength_lt : lay.headerLength v < 2 ^ 32 := by
  have hlt := leValue_lt (bytesAt v lay.sizePos sizeofMagic).reverse
  have hlen : (bytesAt v lay.sizePos sizeofMagic).reverse.length ≤ 4 := by
    rw [List.length_reverse, bytesAt]
    exact List.length_take_le _ _
  have hpow : 256 ^ (bytesAt v lay.sizePos sizeofMagic).reverse.length ≤ 256 ^ 4 :=
    Nat.pow_le_pow_right (by decide) hlen
  rw [Layout.headerLength]
  omega

lemma textSize_of_le (h : sizeofMagic ≤ lay.headerLength v) :
    lay.textSize v = lay.headerLength v - sizeofMagic := by
  have hlt : lay.headerLength v < 2 ^ 32 := headerLength_lt
  rw [Layout.textSize]
  omega

lemma textLength_eq :
    lay.textLength v = if lay.textSize v % 2 ^ 32 < 2 ^ 31 then ((lay.textSize v % 2 ^ 32 : ℕ) : ℤ)
      else ((lay.textSize v % 2 ^ 32 : ℕ) : ℤ) - 2 ^ 32 := by
  rw [Layout.textLength, BitVec.toInt_eq_toNat_cond, BitVec.toNat_ofNat]
  split_ifs <;> omega

/-- A length below the size of the magic wraps: it is too long for `size_t`, and negative as an `int`. -/
lemma textLength_neg (h : lay.headerLength v < sizeofMagic) :
    2 ^ 64 - sizeofMagic ≤ lay.textSize v ∧ lay.textLength v < 0 := by
  have h4 : sizeofMagic = 4 := rfl
  have hsize : lay.textSize v = 2 ^ 64 - sizeofMagic + lay.headerLength v := by
    rw [Layout.textSize]
    omega
  rw [textLength_eq, hsize]
  constructor
  · omega
  · split_ifs <;> omega

theorem textInside_iff : TextInside lay v ↔
    sizeofMagic ≤ lay.headerLength v ∧ lay.headerLength v - sizeofMagic < 2 ^ 31 ∧
      lay.headerLength v - sizeofMagic ≤ v.length - lay.headerSize := by
  rw [TextInside]
  by_cases h : sizeofMagic ≤ lay.headerLength v
  · have hlt : lay.headerLength v < 2 ^ 32 := headerLength_lt
    rw [textLength_eq, textSize_of_le h, Nat.mod_eq_of_lt (by omega)]
    split_ifs <;> omega
  · have hneg := (textLength_neg (Nat.lt_of_not_le h)).2
    exact iff_of_false (fun h' => by omega) fun h' => h h'.1

lemma textLength_toNat (h : lay.headerLength v - sizeofMagic < 2 ^ 31) (hle : sizeofMagic ≤ lay.headerLength v) :
    lay.textLength v = ((lay.headerLength v - sizeofMagic : ℕ) : ℤ) := by
  rw [textLength_eq, textSize_of_le hle, Nat.mod_eq_of_lt (by omega), if_pos h]

lemma within_text {n : ℕ} (h : n ≤ v.length - lay.headerSize) : (View.whole v).Within lay.headerSize n := by
  rw [View.Within, View.whole]
  dsimp only
  omega

lemma returns_printUnicode (h : TextFits lay v) : Returns (printUnicode lay v) := by
  obtain ⟨hsize, hle, hlt, hrest⟩ := h
  have hmax : ¬maxStringSize < lay.textSize v := by
    rw [textSize_of_le hle, maxStringSize]
    omega
  rw [printUnicode, returns_readTextSize_bind_iff, returns_ite_error_iff, View.returns_read_bind_iff,
    textSize_of_le hle]
  rw [textSize_of_le hle] at hmax
  exact ⟨hsize, hmax, within_text hrest, returns_ok _⟩

lemma returns_readUnicode (h : TextFits lay v) (env : Env) : Returns (readUnicode lay env v) := by
  obtain ⟨hsize, hle, hlt, hrest⟩ := h
  have hlength := textLength_toNat hlt hle
  rw [readUnicode, returns_ite_iff (returns_ok _), returns_readTextSize_bind_iff, returns_ite_error_iff,
    View.returns_read_bind_iff, hlength, Int.toNat_natCast]
  exact Or.inr ⟨hsize, by omega, within_text hrest, returns_ok _⟩

end Returns

/-! ### Fields that are read are fields that are printed -/

section Subset

variable (lay : Layout) (v dest src : List UInt8)

lemma gamepadFields_subset (env : Env) (input : Context) (n : UInt8) {fields l : List Field}
    (h : .controllerNumber :: fields ⊆ l) : gamepadFields env input n fields ⊆ l := by
  obtain ⟨hnumber, hfields⟩ := List.cons_subset.mp h
  rw [gamepadFields]
  split_ifs
  · exact List.nil_subset _
  · apply List.cons_subset.mpr
    refine ⟨hnumber, ?_⟩
    split
    · exact List.nil_subset _
    · split_ifs
      · exact List.nil_subset _
      · exact hfields

theorem handlerFields_subset (env : Env) (r : Response) (host : Host) (input : Context) (k : Kind) :
    handlerFields env r host input (lay.packet v k) ⊆ printFields k := by
  cases k with
  | relMouseMove =>
    rw [Layout.packet, handlerFields]
    split_ifs <;> decide
  | absMouseMove =>
    rw [Layout.packet, handlerFields]
    split_ifs <;> decide
  | mouseButton release =>
    rw [Layout.packet, handlerFields, printFields]
    split_ifs <;> decide
  | scroll =>
    rw [Layout.packet, handlerFields]
    split_ifs <;> decide
  | hscroll =>
    rw [Layout.packet, handlerFields]
    split_ifs <;> decide
  | keyboard release =>
    rw [Layout.packet, handlerFields, printFields]
    split_ifs <;> decide
  | unicode => exact List.nil_subset _
  | multiController =>
    rw [Layout.packet, handlerFields]
    split
    · decide
    · split
      · decide
      · dsimp only
        split_ifs <;> decide
  | touch =>
    rw [Layout.packet, handlerFields]
    split_ifs <;> decide
  | pen =>
    rw [Layout.packet, handlerFields]
    split_ifs <;> decide
  | controllerArrival =>
    rw [Layout.packet, handlerFields]
    split
    · decide
    · split
      · decide
      · split_ifs <;> decide
  | controllerTouch => exact gamepadFields_subset env input _ (by decide)
  | controllerMotion => exact gamepadFields_subset env input _ (by decide)
  | controllerBattery => exact gamepadFields_subset env input _ (by decide)

/-- A comparison of two fields is about the fields of the packet. -/
theorem batchFields_subset (lim : Limelight) (k : Kind) {x : Side × Field}
    (h : x ∈ batchFields lim (lay.packet dest k) (lay.packet src k)) : x.2 ∈ printFields k := by
  suffices hsub : (batchFields lim (lay.packet dest k) (lay.packet src k)).map Prod.snd ⊆ printFields k from
    hsub (List.mem_map_of_mem h)
  clear h
  cases k with
  | relMouseMove =>
    rw [Layout.packet, Layout.packet, batchFields]
    split_ifs <;> decide
  | absMouseMove =>
    rw [Layout.packet, Layout.packet, batchFields]
    split_ifs <;> decide
  | scroll => exact (by decide : (both .scrollAmt1).map Prod.snd ⊆ printFields .scroll)
  | hscroll => exact (by decide : (both .scrollAmount).map Prod.snd ⊆ printFields .hscroll)
  | multiController =>
    rw [Layout.packet, Layout.packet, batchFields]
    split_ifs <;> decide
  | touch =>
    rw [Layout.packet, Layout.packet, batchFields]
    split_ifs <;> decide
  | pen =>
    rw [Layout.packet, Layout.packet, batchFields]
    split_ifs <;> decide
  | controllerTouch =>
    rw [Layout.packet, Layout.packet, batchFields]
    split_ifs <;> decide
  | controllerMotion =>
    rw [Layout.packet, Layout.packet, batchFields]
    split_ifs <;> decide
  | mouseButton release => exact List.nil_subset _
  | keyboard release => exact List.nil_subset _
  | unicode => exact List.nil_subset _
  | controllerArrival => exact List.nil_subset _
  | controllerBattery => exact List.nil_subset _

lemma not_adds {k : Kind} (hk : k.copied = true) : ¬Adds (lay.packet dest k) (lay.packet src k) := by
  cases k <;> first | exact id | cases hk

theorem copies_iff (lim : Limelight) {k : Kind} (hk : k.copied = true) :
    Copies lim (lay.packet dest k) (lay.packet src k) ↔
      ∃ p, batch lim (lay.packet dest k) (lay.packet src k) = .batched p := by
  constructor
  · intro h
    exact ⟨_, batch_of_copies h⟩
  · rintro ⟨p, hp⟩
    obtain hadds | ⟨hcopies, -⟩ := batch_eq_batched hp
    · exact absurd hadds (not_adds lay dest src hk)
    · exact hcopies

end Subset

/-! ### Which vectors are read inside -/

section Main

variable {lay : Layout} {lim : Limelight} {v w : List UInt8}

lemma covers_of_inside (h : Inside lay lim v) : Covers lay v := by
  have hprint := h.print verbose
  rw [print, returns_readMagic_bind_iff] at hprint
  obtain ⟨hmagic, hprint⟩ := hprint
  refine ⟨hmagic, ?_, ?_⟩
  · -- at the lowest level everything is printed
    intro k hk f hf
    by_cases hunicode : k = .unicode
    · rw [hunicode] at hf
      cases hf
    · have hlevel : verbose ≤ k.severity := by
        unfold Kind.severity verbose debug
        split <;> decide
      rw [hk] at hprint
      have hfields : Returns (lay.readFields k v (printFields k)) := by
        cases k with
        | unicode => exact absurd rfl hunicode
        | _ => simpa only [if_pos hlevel] using hprint
      exact returns_readFields_iff.mp hfields f hf
  · intro hk
    rw [hk] at hprint
    rw [printUnicode, returns_readTextSize_bind_iff] at hprint
    exact ⟨hprint.1, textInside_iff.mp (h.text hk)⟩

lemma inside_of_covers (h : Covers lay v) : Inside lay lim v := by
  refine ⟨?_, ?_, fun hk => textInside_iff.mpr (h.text hk).2⟩
  · intro minLogLevel
    rw [print, returns_readMagic_bind_iff]
    refine ⟨h.magic, ?_⟩
    cases hk : lay.kind (lay.magic v) with
    | none => exact returns_ok _
    | some k =>
      have hfields : Returns (lay.readFields k v (printFields k)) := returns_readFields_iff.mpr (h.fields k hk)
      have hlogged : Returns (if minLogLevel ≤ k.severity then lay.readFields k v (printFields k) else .ok ()) := by
        split_ifs
        · exact hfields
        · exact returns_ok _
      cases k with
      | unicode => exact returns_printUnicode (h.text hk)
      | _ => exact hlogged
  · intro config i r host input
    rw [passthroughBytes, returns_readMagic_bind_iff]
    refine ⟨h.magic, ?_⟩
    cases hk : lay.kind (lay.magic v) with
    | none => exact returns_ok _
    | some k =>
      dsimp only
      rw [returns_bind_iff]
      suffices hreads : Returns (if k = .unicode then readUnicode lay ⟨config, lim⟩ v
          else lay.readFields k v (handlerFields ⟨config, lim⟩ r host input (lay.packet v k))) by
        obtain ⟨u, hu⟩ := hreads
        exact ⟨u, hu, returns_ok _⟩
      split_ifs with hunicode
      · rw [hunicode] at hk
        exact returns_readUnicode (h.text hk) _
      · apply returns_readFields_iff.mpr
        intro f hf
        exact h.fields k hk f (handlerFields_subset lay v _ r host input k hf)

theorem inside_iff : Inside lay lim v ↔ Covers lay v := ⟨covers_of_inside, inside_of_covers⟩

/-- Only the copy of a struct reads more than the fields. -/
theorem returns_batchBytes_iff (hv : Covers lay v) (hw : Covers lay w) :
    Returns (batchBytes lay lim v w) ↔ CopyFits lay lim v w := by
  rw [batchBytes, returns_readMagic_bind_iff, and_iff_right hv.magic, returns_readMagic_bind_iff,
    and_iff_right hw.magic, CopyFits]
  by_cases hmagic : lay.magic v = lay.magic w
  · rw [if_neg (not_not.mpr hmagic)]
    cases hk : lay.kind (lay.magic v) with
    | none => exact iff_of_true (returns_ok _) fun _ k h => nomatch h
    | some k =>
      have hkw : lay.kind (lay.magic w) = some k := hmagic ▸ hk
      obtain ⟨u, hu⟩ : Returns (lay.readSides k v w (batchFields lim (lay.packet v k) (lay.packet w k))) := by
        apply returns_readSides_iff.mpr
        rintro ⟨side, f⟩ hx
        have hf := batchFields_subset lay v w lim k hx
        cases side with
        | dest => exact hv.fields k hk f hf
        | src => exact hw.fields k hkw f hf
      have hkind : Copies lim (lay.packet v k) (lay.packet w k) → k.copied = true := by
        intro h
        cases k <;> first | rfl | exact h.elim
      have hfits : (lay.magic v = lay.magic w → ∀ k', some k = some k' →
          Copies lim (lay.packet v k') (lay.packet w k') → lay.size k' ≤ w.length) ↔
          (Copies lim (lay.packet v k) (lay.packet w k) → lay.size k ≤ w.length) := by
        constructor
        · intro h
          exact h hmagic k rfl
        · rintro h - k' ⟨⟩
          exact h
      dsimp only
      rw [hu, hfits, ok_bind]
      by_cases hcopies : Copies lim (lay.packet v k) (lay.packet w k)
      · obtain ⟨p, hp⟩ := (copies_iff lay v w lim (hkind hcopies)).mp hcopies
        have hread : (View.whole w).Within 0 (lay.size k) ↔ lay.size k ≤ w.length := by
          rw [View.Within, View.whole]
          dsimp only
          omega
        rw [hp, imp_iff_right hcopies]
        dsimp only
        rw [Layout.readCopied, if_pos (hkind hcopies), bind_ok_bind _ (fun _ => ()), View.returns_read_bind_iff, hread]
        exact and_iff_left (returns_ok _)
      · refine iff_of_true ?_ fun h => absurd h hcopies
        cases hb : batch lim (lay.packet v k) (lay.packet w k) with
        | terminateBatch => exact returns_ok _
        | notBatchable => exact returns_ok _
        | batched p =>
          -- a sum of two packets, for which no struct is copied
          have hcopied : k.copied = false := by
            rw [Bool.eq_false_iff]
            intro hc
            exact hcopies ((copies_iff lay v w lim hc).mpr ⟨p, hb⟩)
          dsimp only
          rw [Layout.readCopied, hcopied]
          exact returns_ok _
  · rw [if_pos hmagic]
    exact iff_of_true (returns_ok _) fun h => absurd h hmagic

end Main

/-- **Two queued vectors are read within their bytes exactly when both cover what their magics select and a struct that
is copied is there as a whole.** -/
theorem inside_iff_covers (lay : Layout) (lim : Limelight) (v w : List UInt8) :
    (Inside lay lim v ∧ Inside lay lim w ∧ Returns (batchBytes lay lim v w)) ↔
      Covers lay v ∧ Covers lay w ∧ CopyFits lay lim v w := by
  rw [inside_iff, inside_iff]
  constructor
  · rintro ⟨hv, hw, hbatch⟩
    exact ⟨hv, hw, (returns_batchBytes_iff hv hw).mp hbatch⟩
  · rintro ⟨hv, hw, hcopy⟩
    exact ⟨hv, hw, (returns_batchBytes_iff hv hw).mpr hcopy⟩

/-! ### A text that is longer than its packet -/

/-- Structs without gaps: their fields with the lengths. -/
def packedFields : Kind → List (Field × ℕ)
  | .relMouseMove => [(.deltaX, 2), (.deltaY, 2)]
  | .absMouseMove => [(.x, 2), (.y, 2), (.width, 2), (.height, 2)]
  | .mouseButton _ => [(.button, 1)]
  | .scroll => [(.scrollAmt1, 2), (.scrollAmt2, 2)]
  | .hscroll => [(.scrollAmount, 2)]
  | .keyboard _ => [(.flags, 1), (.keyCode, 2), (.modifiers, 1)]
  | .unicode => []
  | .multiController =>
    [(.controllerNumber, 2), (.activeGamepadMask, 2), (.buttonFlags, 2), (.leftTrigger, 1), (.rightTrigger, 1),
      (.leftStickX, 2), (.leftStickY, 2), (.rightStickX, 2), (.rightStickY, 2), (.buttonFlags2, 2)]
  | .touch =>
    [(.eventType, 1), (.rotation, 2), (.pointerId, 4), (.x, 4), (.y, 4), (.pressureOrDistance, 4),
      (.contactAreaMajor, 4), (.contactAreaMinor, 4)]
  | .pen =>
    [(.eventType, 1), (.toolType, 1), (.penButtons, 1), (.x, 4), (.y, 4), (.pressureOrDistance, 4), (.rotation, 2),
      (.tilt, 1), (.contactAreaMajor, 4), (.contactAreaMinor, 4)]
  | .controllerArrival => [(.controllerNumber, 1), (.type, 1), (.capabilities, 2), (.supportedButtonFlags, 4)]
  | .controllerTouch =>
    [(.controllerNumber, 1), (.eventType, 1), (.pointerId, 4), (.x, 4), (.y, 4), (.pressure, 4)]
  | .controllerMotion => [(.controllerNumber, 1), (.motionType, 1), (.x, 4), (.y, 4), (.z, 4)]
  | .controllerBattery => [(.controllerNumber, 1), (.batteryState, 1), (.batteryPercentage, 1)]

/-- A layout of packed structs, with some magics. -/
def packedLayout : Layout where
  kind magic :=
    [(7, Kind.relMouseMove), (5, .absMouseMove), (10, .scroll), (3, .keyboard false), (4, .keyboard true),
      (23, .unicode), (12, .multiController)].lookup magic
  headerSize := 8
  sizePos := 0
  magicPos := 4
  pos k f := 8 + (((packedFields k).takeWhile (·.1 ≠ f)).map Prod.snd).sum
  width k f := max 1 (((packedFields k).lookup f).getD 1)
  size k := 8 + ((packedFields k).map Prod.snd).sum
  magic_le := by decide
  width_pos k f := Nat.le_max_left 1 _
  headerSize_le k f _ := Nat.le_add_right 8 _
  field_le k := by
    cases k <;> decide +revert

/-- "hi", announced as 96 bytes. -/
def longText : List UInt8 := [0, 0, 0, 100, 23, 0, 0, 0, 104, 105]

theorem longText_read_outside :
    print packedLayout debug longText = .error .outOfBounds ∧
      ¬(Inside packedLayout demoEnv.lim longText ∧ Inside packedLayout demoEnv.lim longText ∧
        Returns (batchBytes packedLayout demoEnv.lim longText longText)) := by
  have hprint : print packedLayout debug longText = .error .outOfBounds := by decide
  refine ⟨hprint, fun h => ?_⟩
  have hreturns := h.1.print debug
  rw [hprint] at hreturns
  exact not_returns_error _ hreturns

end MidnightSun.Input
