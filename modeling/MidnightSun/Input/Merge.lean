import Mathlib.Logic.Basic
import Mathlib.Tactic.SplitIfs
import MidnightSun.Input.Packet

/-!
# Which packets are merged (src/input.cpp)

The outcomes of `batch`, read off its checks: two packets are added (`Adds`), the second takes the place of the first
(`Copies`), or the second is left in the queue and the scan goes on behind it (`Passes`).
-/

namespace MidnightSun.Input

/-- Packets whose amounts are summed. -/
def Adds : Packet → Packet → Prop
  | .relMouseMove _, .relMouseMove _ => True
  | .scroll _, .scroll _ => True
  | .hscroll _, .hscroll _ => True
  | _, _ => False

/-- Packets that carry an amount. -/
def Packet.isAmount : Packet → Bool
  | .relMouseMove _ | .scroll _ | .hscroll _ => true
  | _ => false

/-- Controller messages with the same buttons, while the same controllers are active. -/
structure Alike (d x : MultiController) : Prop where
  mask : d.activeGamepadMask = x.activeGamepadMask
  number : d.controllerNumber = x.controllerNumber
  flags : d.buttonFlags = x.buttonFlags
  flags2 : d.buttonFlags2 = x.buttonFlags2

section

variable (lim : Limelight)

/-- The two packets agree in all that `batch` compares before it copies a struct. -/
def Copies : Packet → Packet → Prop
  | .absMouseMove d, .absMouseMove s => d.width = s.width ∧ d.height = s.height
  | .multiController d, .multiController s => Alike d s
  | .touch d, .touch s => lim.moves d.eventType ∧ d.pointerId = s.pointerId ∧ d.eventType = s.eventType
  | .pen d, .pen s =>
    lim.moves d.eventType ∧ d.eventType = s.eventType ∧ d.penButtons = s.penButtons ∧ d.toolType = s.toolType
  | .controllerTouch d, .controllerTouch s =>
    lim.moves d.eventType ∧ d.controllerNumber = s.controllerNumber ∧ d.pointerId = s.pointerId ∧
      d.eventType = s.eventType
  | .controllerMotion d, .controllerMotion s =>
    d.controllerNumber = s.controllerNumber ∧ d.motionType = s.motionType
  | _, _ => False

/-- The second packet is of another controller, pointer or sensor. -/
def Passes : Packet → Packet → Prop
  | .multiController d, .multiController s =>
    d.activeGamepadMask = s.activeGamepadMask ∧ d.controllerNumber ≠ s.controllerNumber
  | .touch d, .touch s => lim.moves d.eventType ∧ lim.moves s.eventType ∧ d.pointerId ≠ s.pointerId
  | .controllerTouch d, .controllerTouch s =>
    lim.moves d.eventType ∧
      (d.controllerNumber ≠ s.controllerNumber ∨ lim.moves s.eventType ∧ d.pointerId ≠ s.pointerId)
  | .controllerMotion d, .controllerMotion s =>
    d.controllerNumber ≠ s.controllerNumber ∨ d.motionType ≠ s.motionType
  | _, _ => False

end

/-! ### A chain of checks -/

section Checks

variable {α β : Type} {p : Prop} [Decidable p] {r : BatchResult α} {a : α}

lemma ite_terminate_eq_batched : (if p then .terminateBatch else r) = .batched a ↔ ¬p ∧ r = .batched a := by
  split_ifs with hp
  · exact iff_of_false nofun fun h => h.1 hp
  · exact (and_iff_right hp).symm

lemma ite_pass_eq_batched : (if p then .notBatchable else r) = .batched a ↔ ¬p ∧ r = .batched a := by
  split_ifs with hp
  · exact iff_of_false nofun fun h => h.1 hp
  · exact (and_iff_right hp).symm

lemma ite_terminate_eq_notBatchable :
    (if p then .terminateBatch else r) = .notBatchable ↔ ¬p ∧ r = .notBatchable := by
  split_ifs with hp
  · exact iff_of_false nofun fun h => h.1 hp
  · exact (and_iff_right hp).symm

lemma ite_pass_eq_notBatchable : (if p then .notBatchable else r) = .notBatchable ↔ p ∨ r = .notBatchable := by
  split_ifs with hp
  · exact iff_of_true rfl (Or.inl hp)
  · exact (or_iff_right hp).symm

lemma batched_inj {b : α} : BatchResult.batched a = .batched b ↔ b = a := by
  constructor
  · rintro ⟨⟩
    rfl
  · rintro rfl
    rfl

lemma map_eq_batched {f : α → β} {b : β} : r.map f = .batched b ↔ ∃ a, r = .batched a ∧ f a = b := by
  cases r with
  | batched dest =>
    constructor
    · rintro ⟨⟩
      exact ⟨dest, rfl, rfl⟩
    · rintro ⟨a, ⟨⟩, rfl⟩
      rfl
  | notBatchable => exact iff_of_false nofun (by rintro ⟨a, ⟨⟩, -⟩)
  | terminateBatch => exact iff_of_false nofun (by rintro ⟨a, ⟨⟩, -⟩)

lemma map_eq_notBatchable {f : α → β} : r.map f = .notBatchable ↔ r = .notBatchable := by
  cases r with
  | batched dest => exact iff_of_false nofun nofun
  | notBatchable => exact iff_of_true rfl rfl
  | terminateBatch => exact iff_of_false nofun nofun

end Checks

/-! ### The outcomes -/

section Outcomes

variable {lim : Limelight} {d s p : Packet}

/-- **What is merged** is a sum or the second packet. -/
theorem batch_eq_batched (h : batch lim d s = .batched p) : Adds d s ∨ (Copies lim d s ∧ p = s) := by
  unfold batch at h
  split at h
  · exact Or.inl trivial
  · rename_i d s
    right
    rw [map_eq_batched, batchAbsMouseMove] at h
    obtain ⟨a, h, rfl⟩ := h
    rw [ite_terminate_eq_batched, batched_inj, not_or, not_not, not_not] at h
    exact ⟨h.1, by rw [h.2]⟩
  · exact Or.inl trivial
  · exact Or.inl trivial
  · rename_i d s
    right
    rw [map_eq_batched, batchMultiController] at h
    obtain ⟨a, h, rfl⟩ := h
    rw [ite_terminate_eq_batched, ite_pass_eq_batched, ite_terminate_eq_batched, batched_inj, not_or, not_not,
      not_not, not_not, not_not] at h
    obtain ⟨hmask, hnumber, ⟨hflags, hflags2⟩, rfl⟩ := h
    exact ⟨⟨hmask, hnumber, hflags, hflags2⟩, rfl⟩
  · rename_i d s
    right
    rw [map_eq_batched, batchTouch] at h
    obtain ⟨a, h, rfl⟩ := h
    rw [ite_terminate_eq_batched, ite_terminate_eq_batched, ite_pass_eq_batched, ite_terminate_eq_batched,
      batched_inj, not_not, not_not] at h
    obtain ⟨hd, -, hid, htype, rfl⟩ := h
    exact ⟨⟨by simpa using hd, hid, htype⟩, rfl⟩
  · rename_i d s
    right
    rw [map_eq_batched, batchPen] at h
    obtain ⟨a, h, rfl⟩ := h
    rw [ite_terminate_eq_batched, ite_terminate_eq_batched, ite_terminate_eq_batched, ite_terminate_eq_batched,
      batched_inj, not_not, not_not, not_not] at h
    obtain ⟨hd, htype, hbuttons, htool, rfl⟩ := h
    exact ⟨⟨by simpa using hd, htype, hbuttons, htool⟩, rfl⟩
  · rename_i d s
    right
    rw [map_eq_batched, batchControllerTouch] at h
    obtain ⟨a, h, rfl⟩ := h
    rw [ite_terminate_eq_batched, ite_pass_eq_batched, ite_terminate_eq_batched, ite_pass_eq_batched,
      ite_terminate_eq_batched, batched_inj, not_not, not_not, not_not] at h
    obtain ⟨hd, hnumber, -, hid, htype, rfl⟩ := h
    exact ⟨⟨by simpa using hd, hnumber, hid, htype⟩, rfl⟩
  · rename_i d s
    right
    rw [map_eq_batched, batchControllerMotion] at h
    obtain ⟨a, h, rfl⟩ := h
    rw [ite_pass_eq_batched, ite_pass_eq_batched, batched_inj, not_not, not_not] at h
    obtain ⟨hnumber, htype, rfl⟩ := h
    exact ⟨⟨hnumber, htype⟩, rfl⟩
  · cases h

theorem Adds.isAmount (hadds : Adds d s) (h : batch lim d s = .batched p) :
    d.isAmount = true ∧ s.isAmount = true ∧ p.isAmount = true := by
  unfold Adds at hadds
  split at hadds
  · obtain ⟨r, -, rfl⟩ := map_eq_batched.mp h
    exact ⟨rfl, rfl, rfl⟩
  · obtain ⟨r, -, rfl⟩ := map_eq_batched.mp h
    exact ⟨rfl, rfl, rfl⟩
  · obtain ⟨r, -, rfl⟩ := map_eq_batched.mp h
    exact ⟨rfl, rfl, rfl⟩
  · exact hadds.elim

/-- A packet that agrees takes the place of the first. -/
theorem batch_of_copies (h : Copies lim d s) : batch lim d s = .batched s := by
  unfold Copies at h
  split at h
  · simp [batch, batchAbsMouseMove, BatchResult.map, h.1, h.2]
  · simp [batch, batchMultiController, BatchResult.map, h.mask, h.number, h.flags, h.flags2]
  · obtain ⟨hd, hid, htype⟩ := h
    have hs := htype ▸ hd
    simp [batch, batchTouch, BatchResult.map, hs, hid, htype]
  · obtain ⟨hd, htype, hbuttons, htool⟩ := h
    have hs := htype ▸ hd
    simp [batch, batchPen, BatchResult.map, hs, htype, hbuttons, htool]
  · obtain ⟨hd, hnumber, hid, htype⟩ := h
    have hs := htype ▸ hd
    simp [batch, batchControllerTouch, BatchResult.map, hs, hnumber, hid, htype]
  · simp [batch, batchControllerMotion, BatchResult.map, h.1, h.2]
  · exact h.elim

lemma passes_of_batch (h : batch lim d s = .notBatchable) : Passes lim d s := by
  unfold batch at h
  split at h
  · rename_i d s
    rw [map_eq_notBatchable, batchRelMouseMove] at h
    obtain ⟨-, h⟩ := ite_terminate_eq_notBatchable.mp h
    obtain ⟨-, h⟩ := ite_terminate_eq_notBatchable.mp h
    cases h
  · rename_i d s
    rw [map_eq_notBatchable, batchAbsMouseMove, ite_terminate_eq_notBatchable] at h
    cases h.2
  · rename_i d s
    rw [map_eq_notBatchable, batchScroll] at h
    obtain ⟨-, h⟩ := ite_terminate_eq_notBatchable.mp h
    cases h
  · rename_i d s
    rw [map_eq_notBatchable, batchHScroll] at h
    obtain ⟨-, h⟩ := ite_terminate_eq_notBatchable.mp h
    cases h
  · rename_i d s
    rw [map_eq_notBatchable, batchMultiController, ite_terminate_eq_notBatchable, ite_pass_eq_notBatchable,
      ite_terminate_eq_notBatchable, not_not] at h
    obtain ⟨hmask, hnumber | ⟨-, ⟨⟩⟩⟩ := h
    exact ⟨hmask, hnumber⟩
  · rename_i d s
    rw [map_eq_notBatchable, batchTouch, ite_terminate_eq_notBatchable, ite_terminate_eq_notBatchable,
      ite_pass_eq_notBatchable, ite_terminate_eq_notBatchable] at h
    obtain ⟨hd, hs, hid | ⟨-, ⟨⟩⟩⟩ := h
    exact ⟨by simpa using hd, by simpa using hs, hid⟩
  · rename_i d s
    rw [map_eq_notBatchable, batchPen, ite_terminate_eq_notBatchable, ite_terminate_eq_notBatchable,
      ite_terminate_eq_notBatchable, ite_terminate_eq_notBatchable] at h
    cases h.2.2.2.2
  · rename_i d s
    rw [map_eq_notBatchable, batchControllerTouch, ite_terminate_eq_notBatchable, ite_pass_eq_notBatchable,
      ite_terminate_eq_notBatchable, ite_pass_eq_notBatchable, ite_terminate_eq_notBatchable] at h
    obtain ⟨hd, hnumber | ⟨hs, hid | ⟨-, ⟨⟩⟩⟩⟩ := h
    · exact ⟨by simpa using hd, Or.inl hnumber⟩
    · exact ⟨by simpa using hd, Or.inr ⟨by simpa using hs, hid⟩⟩
  · rename_i d s
    rw [map_eq_notBatchable, batchControllerMotion, ite_pass_eq_notBatchable, ite_pass_eq_notBatchable] at h
    obtain hnumber | htype | ⟨⟨⟩⟩ := h
    · exact Or.inl hnumber
    · exact Or.inr htype
  · cases h

lemma batch_of_passes (h : Passes lim d s) : batch lim d s = .notBatchable := by
  unfold Passes at h
  split at h
  · simp [batch, batchMultiController, BatchResult.map, h.1, h.2]
  · simp [batch, batchTouch, BatchResult.map, h.1, h.2.1, h.2.2]
  · obtain ⟨hd, hnumber | ⟨hs, hid⟩⟩ := h
    · simp [batch, batchControllerTouch, BatchResult.map, hd, hnumber]
    · simp [batch, batchControllerTouch, BatchResult.map, hd, hs, hid]
  · obtain hnumber | htype := h
    · simp [batch, batchControllerMotion, BatchResult.map, hnumber]
    · simp [batch, batchControllerMotion, BatchResult.map, htype]
  · exact h.elim

/-- **What the scan goes past.** -/
theorem batch_eq_notBatchable_iff : batch lim d s = .notBatchable ↔ Passes lim d s :=
  ⟨passes_of_batch, batch_of_passes⟩

/-- A packet that takes the place of another is passed by the same ones. -/
theorem Copies.passes {y : Packet} (h : Copies lim d s) (hy : Passes lim d y) : Passes lim s y := by
  unfold Copies at h
  split at h
  · exact hy.elim
  · cases y with
    | multiController y => exact ⟨h.mask ▸ hy.1, h.number ▸ hy.2⟩
    | _ => exact hy.elim
  · cases y with
    | touch y => exact ⟨h.2.2 ▸ hy.1, hy.2.1, h.2.1 ▸ hy.2.2⟩
    | _ => exact hy.elim
  · exact hy.elim
  · cases y with
    | controllerTouch y => exact ⟨h.2.2.2 ▸ hy.1, h.2.1 ▸ h.2.2.1 ▸ hy.2⟩
    | _ => exact hy.elim
  · cases y with
    | controllerMotion y =>
      rw [Passes, ← h.1, ← h.2]
      exact hy
    | _ => exact hy.elim
  · exact h.elim

theorem Adds.not_passes {y : Packet} (h : Adds d s) : ¬Passes lim d y := by
  intro hy
  cases d with
  | relMouseMove d => exact hy
  | scroll d => exact hy
  | hscroll d => exact hy
  | _ => exact h

end Outcomes

end MidnightSun.Input
