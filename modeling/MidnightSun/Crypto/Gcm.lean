import MidnightSun.Lib.Fields
import MidnightSun.Lib.Run
import Mathlib.Tactic.Linarith

/-!
# `gcm_t::decrypt` (src/crypto.cpp)

OpenSSL stays outside: `Evp` answers every call as it likes, within what it documents of GCM.  `decrypt` keeps the calls
that succeeded beside its result, so that what a returned 0 says can be compared with what was checked.
-/

namespace MidnightSun.Crypto

open Lib

def tagSize : ℕ := 16

def roundToPkcs7Padded (size : ℕ) : ℕ := (size + 15) / 16 * 16

/-- `(int) size`. -/
def toInt (size : ℕ) : ℤ := Int.bmod size (2 ^ 32)

theorem toInt_of_lt {n : ℕ} (h : n < 2 ^ 31) : toInt n = n := by
  unfold toInt
  rw [Int.bmod_eq_of_le] <;> omega

/-! ### OpenSSL -/

/-- The calls that `decrypt` makes, with what it hands over. -/
inductive EvpCall
  /-- `EVP_CIPHER_CTX_new()` -/
  | ctxNew
  /-- `EVP_DecryptInit_ex(ctx, EVP_aes_128_gcm(), nullptr, nullptr, nullptr)` -/
  | initCipher
  /-- `EVP_CIPHER_CTX_ctrl(ctx, EVP_CTRL_GCM_SET_IVLEN, n, nullptr)` -/
  | setIvLen (n : ℤ)
  /-- `EVP_DecryptInit_ex(ctx, nullptr, nullptr, key, iv)` -/
  | initKey (key iv : List UInt8)
  /-- `EVP_DecryptInit_ex(ctx, nullptr, nullptr, nullptr, iv)` -/
  | initIv (iv : List UInt8)
  /-- `EVP_DecryptUpdate(ctx, out, &outl, cipher, inl)` -/
  | update (cipher : List UInt8) (inl : ℤ)
  /-- `EVP_CIPHER_CTX_ctrl(ctx, EVP_CTRL_GCM_SET_TAG, n, tag)` -/
  | setTag (n : ℤ) (tag : List UInt8)
  /-- `EVP_DecryptFinal_ex(ctx, out, &outl)` -/
  | final
  deriving DecidableEq

/-- The call hands the IV over. -/
def EvpCall.setsIv : EvpCall → Bool
  | .initKey _ _ | .initIv _ => true
  | _ => false

/-- The call hands the tag over. -/
def EvpCall.setsTag : EvpCall → Bool
  | .setTag _ _ => true
  | _ => false

/-- OpenSSL during one `decrypt`: which calls succeed, and what they write.  GCM is a stream: an update writes as many
bytes as it was given, the last call none, and what was written is counted by an `int`. -/
structure Evp where
  ok : EvpCall → Bool
  out : EvpCall → List UInt8
  length_update : ∀ cipher inl, ok (.update cipher inl) = true → 0 ≤ inl → ((out (.update cipher inl)).length : ℤ) = inl
  length_update_lt : ∀ cipher inl, (out (.update cipher inl)).length < 2 ^ 31
  out_final : ok .final = true → out .final = []

/-! ### `decrypt` -/

/-- What a call of `decrypt` changes, and the OpenSSL calls of it that succeeded. -/
structure Decrypting where
  /-- `decrypt_ctx` is not null -/
  decryptCtx : Bool
  plaintext : List UInt8
  done : List EvpCall := []

def Decrypting.did (s : Decrypting) (c : EvpCall) : Decrypting := { s with done := s.done ++ [c] }

/-- `vector::resize`. -/
def resize (v : List UInt8) (n : ℕ) : List UInt8 := v.take n ++ List.replicate (n - v.length) 0

@[simp] theorem length_resize (v : List UInt8) (n : ℕ) : (resize v n).length = n := by
  unfold resize
  rw [List.length_append, List.length_take, List.length_replicate]
  omega

/-- `init_decrypt_gcm`.  The context is stored before anything is known to work. -/
def initDecryptGcm (evp : Evp) (key iv : List UInt8) (s : Decrypting) : ℤ × Decrypting :=
  if evp.ok .ctxNew = false then (-1, { s with decryptCtx := false }) else
  let s := { s.did .ctxNew with decryptCtx := true }
  if evp.ok .initCipher = false then (-1, s) else
  let s := s.did .initCipher
  if evp.ok (.setIvLen (toInt iv.length)) = false then (-1, s) else
  let s := s.did (.setIvLen (toInt iv.length))
  if evp.ok (.initKey key iv) = false then (-1, s) else
  (0, s.did (.initKey key iv))

/-- `decrypt` from the change of the IV on, with a context. -/
def decryptTagged (evp : Evp) (taggedCipher iv : List UInt8) (s : Decrypting) : ℤ × Decrypting :=
  -- `return false`
  if evp.ok (.initIv iv) = false then (0, s) else
  let s := s.did (.initIv iv)
  let cipher := taggedCipher.drop tagSize
  let tag := taggedCipher.take tagSize
  let s := { s with plaintext := resize s.plaintext (roundToPkcs7Padded cipher.length) }
  let update := EvpCall.update cipher (toInt cipher.length)
  if evp.ok update = false then (-1, s) else
  let s := { s.did update with plaintext := overwrite s.plaintext 0 (evp.out update) }
  let setTag := EvpCall.setTag (toInt tag.length) tag
  if evp.ok setTag = false then (-1, s) else
  let s := s.did setTag
  if evp.ok .final = false then (-1, s) else
  let s := { s.did .final with plaintext := overwrite s.plaintext (evp.out update).length (evp.out .final) }
  (0, { s with plaintext := resize s.plaintext ((evp.out update).length + (evp.out .final).length) })

/-- `gcm_t::decrypt`. -/
def decrypt (evp : Evp) (key taggedCipher iv : List UInt8) (s : Decrypting) : ℤ × Decrypting :=
  let init := if s.decryptCtx then (0, s) else initDecryptGcm evp key iv s
  if init.1 ≠ 0 then (-1, init.2) else decryptTagged evp taggedCipher iv init.2

/-! ### One cipher object over many calls -/

/-- A call of `decrypt`.  `substr` throws for an input without room for a tag. -/
structure DecryptCall where
  taggedCipher : List UInt8
  iv : List UInt8
  plaintext : List UInt8
  evp : Evp
  tagSize_le : tagSize ≤ taggedCipher.length

/-- What came of a call. -/
structure Outcome where
  call : DecryptCall
  ret : ℤ
  plaintext : List UInt8
  done : List EvpCall

/-- A 0 is for data whose IV was set, whose tag was set and which the last call authenticated. -/
def Outcome.Authentic (o : Outcome) : Prop :=
  o.ret = 0 → (∃ c ∈ o.done, c.setsIv = true) ∧ (∃ c ∈ o.done, c.setsTag = true) ∧ EvpCall.final ∈ o.done ∧
    o.plaintext.length = o.call.taggedCipher.length - tagSize

/-- `gcm_t`, with what came of its calls. -/
structure Gcm where
  key : List UInt8
  decryptCtx : Bool := false
  outcomes : List Outcome := []

def Gcm.decrypt (g : Gcm) (c : DecryptCall) : ℤ × Decrypting :=
  Crypto.decrypt c.evp g.key c.taggedCipher c.iv { decryptCtx := g.decryptCtx, plaintext := c.plaintext }

def Gcm.outcome (g : Gcm) (c : DecryptCall) : Outcome :=
  { call := c, ret := (g.decrypt c).1, plaintext := (g.decrypt c).2.plaintext, done := (g.decrypt c).2.done }

def Gcm.step (g : Gcm) (c : DecryptCall) : Option Gcm :=
  some { g with decryptCtx := (g.decrypt c).2.decryptCtx, outcomes := g.outcomes ++ [g.outcome c] }

instance (o : Outcome) : Decidable o.Authentic := inferInstanceAs (Decidable (_ → _ ∧ _ ∧ _ ∧ _))

abbrev GcmStep : Gcm → DecryptCall → Gcm → Prop := ofPartial Gcm.step

/-! ### What a call returns -/

section decrypt

variable {evp : Evp} {key taggedCipher iv : List UInt8} {s : Decrypting}

/-- `init_decrypt_gcm` gets through. -/
def Evp.InitOk (evp : Evp) (key iv : List UInt8) : Prop :=
  evp.ok .ctxNew = true ∧ evp.ok .initCipher = true ∧ evp.ok (.setIvLen (toInt iv.length)) = true ∧
    evp.ok (.initKey key iv) = true

instance (evp : Evp) (key iv : List UInt8) : Decidable (evp.InitOk key iv) :=
  inferInstanceAs (Decidable (_ ∧ _ ∧ _ ∧ _))

/-- The calls after the change of the IV succeed. -/
def Evp.TaggedOk (evp : Evp) (taggedCipher : List UInt8) : Prop :=
  evp.ok (.update (taggedCipher.drop tagSize) (toInt (taggedCipher.drop tagSize).length)) = true ∧
    evp.ok (.setTag (toInt (taggedCipher.take tagSize).length) (taggedCipher.take tagSize)) = true ∧
      evp.ok .final = true

instance (evp : Evp) (taggedCipher : List UInt8) : Decidable (evp.TaggedOk taggedCipher) :=
  inferInstanceAs (Decidable (_ ∧ _ ∧ _))

theorem initDecryptGcm_eq_zero_iff : (initDecryptGcm evp key iv s).1 = 0 ↔ evp.InitOk key iv := by
  unfold initDecryptGcm Evp.InitOk
  cases evp.ok .ctxNew
  · simp
  cases evp.ok .initCipher
  · simp
  cases evp.ok (.setIvLen (toInt iv.length))
  · simp
  cases evp.ok (.initKey key iv) <;> simp

theorem final_not_mem_initDecryptGcm (h : EvpCall.final ∉ s.done) :
    EvpCall.final ∉ (initDecryptGcm evp key iv s).2.done := by
  unfold initDecryptGcm Decrypting.did
  cases evp.ok .ctxNew
  · simpa using h
  cases evp.ok .initCipher
  · simpa using h
  cases evp.ok (.setIvLen (toInt iv.length))
  · simpa using h
  cases evp.ok (.initKey key iv) <;> simpa using h

theorem decryptTagged_of_initIv (h : evp.ok (.initIv iv) = false) : decryptTagged evp taggedCipher iv s = (0, s) :=
  if_pos h

theorem decryptTagged_eq_zero_iff (h : evp.ok (.initIv iv) = true) :
    (decryptTagged evp taggedCipher iv s).1 = 0 ↔ evp.TaggedOk taggedCipher := by
  unfold decryptTagged Evp.TaggedOk
  rw [if_neg (ne_false_of_eq_true h)]
  dsimp only
  cases evp.ok (.update (taggedCipher.drop tagSize) (toInt (taggedCipher.drop tagSize).length))
  · simp
  cases evp.ok (.setTag (toInt (taggedCipher.take tagSize).length) (taggedCipher.take tagSize))
  · simp
  cases evp.ok .final <;> simp

/-- What is there after all calls succeeded. -/
theorem decryptTagged_of_taggedOk (h : evp.ok (.initIv iv) = true) (hok : evp.TaggedOk taggedCipher) :
    (decryptTagged evp taggedCipher iv s).2.done = s.done ++ [
      .initIv iv,
      .update (taggedCipher.drop tagSize) (toInt (taggedCipher.drop tagSize).length),
      .setTag (toInt (taggedCipher.take tagSize).length) (taggedCipher.take tagSize),
      .final] ∧
    (decryptTagged evp taggedCipher iv s).2.plaintext.length =
      (evp.out (.update (taggedCipher.drop tagSize) (toInt (taggedCipher.drop tagSize).length))).length := by
  obtain ⟨hupdate, htag, hfinal⟩ := hok
  unfold decryptTagged Decrypting.did
  rw [if_neg (ne_false_of_eq_true h)]
  dsimp only
  rw [if_neg (ne_false_of_eq_true hupdate), if_neg (ne_false_of_eq_true htag),
    if_neg (ne_false_of_eq_true hfinal)]
  constructor
  · simp
  · rw [length_resize, evp.out_final hfinal, List.length_nil, Nat.add_zero]

/-- An update gives back as many bytes as the input has exactly where the length is an `int`. -/
theorem length_out_update_iff {cipher : List UInt8} (h : evp.ok (.update cipher (toInt cipher.length)) = true) :
    (evp.out (.update cipher (toInt cipher.length))).length = cipher.length ↔ cipher.length < 2 ^ 31 := by
  have hlt := evp.length_update_lt cipher (toInt cipher.length)
  constructor
  · intro heq
    omega
  · intro hlen
    have hint := toInt_of_lt hlen
    have hout := evp.length_update cipher (toInt cipher.length) h (by omega)
    omega

end decrypt

/-! ### When a 0 is earned -/

/-- The change of the IV succeeds where a call comes to it, and the length of an input that gets through all later calls
fits into an `int`. -/
def Earned (g : Gcm) (c : DecryptCall) : Prop :=
  g.decryptCtx = true ∨ c.evp.InitOk g.key c.iv →
    c.evp.ok (.initIv c.iv) = true ∧ (c.evp.TaggedOk c.taggedCipher → c.taggedCipher.length < 2 ^ 31 + tagSize)

instance (g : Gcm) (c : DecryptCall) : Decidable (Earned g c) := inferInstanceAs (Decidable (_ → _ ∧ (_ → _)))

/-- A call with a context, or that can make one, is `decryptTagged` after calls that finish nothing. -/
theorem Gcm.decrypt_of_ready {g : Gcm} {c : DecryptCall} (h : g.decryptCtx = true ∨ c.evp.InitOk g.key c.iv) :
    ∃ s : Decrypting, EvpCall.final ∉ s.done ∧ g.decrypt c = decryptTagged c.evp c.taggedCipher c.iv s := by
  let s : Decrypting := { decryptCtx := g.decryptCtx, plaintext := c.plaintext }
  by_cases hctx : g.decryptCtx = true
  · refine ⟨s, List.not_mem_nil, ?_⟩
    simp [Gcm.decrypt, Crypto.decrypt, hctx, s]
  · have hinit := initDecryptGcm_eq_zero_iff (s := s) |>.mpr (h.resolve_left hctx)
    refine ⟨(initDecryptGcm c.evp g.key c.iv s).2, final_not_mem_initDecryptGcm List.not_mem_nil, ?_⟩
    have hctx' : g.decryptCtx = false := by simpa using hctx
    simp only [s, hctx'] at hinit
    simp [Gcm.decrypt, Crypto.decrypt, hctx', hinit, s]

theorem Gcm.decrypt_of_not_ready {g : Gcm} {c : DecryptCall} (h : ¬(g.decryptCtx = true ∨ c.evp.InitOk g.key c.iv)) :
    (g.decrypt c).1 = -1 := by
  obtain ⟨hctx, hinit⟩ := not_or.mp h
  have hret := mt (initDecryptGcm_eq_zero_iff (s := { decryptCtx := g.decryptCtx, plaintext := c.plaintext })).mp hinit
  unfold Gcm.decrypt Crypto.decrypt
  dsimp only
  rw [if_neg hctx, if_pos hret]

theorem Gcm.authentic_outcome_iff {g : Gcm} {c : DecryptCall} : (g.outcome c).Authentic ↔ Earned g c := by
  by_cases hready : g.decryptCtx = true ∨ c.evp.InitOk g.key c.iv
  · obtain ⟨s, hs, heq⟩ := Gcm.decrypt_of_ready hready
    have hearned : Earned g c ↔ c.evp.ok (.initIv c.iv) = true ∧
        (c.evp.TaggedOk c.taggedCipher → c.taggedCipher.length < 2 ^ 31 + tagSize) := ⟨fun h => h hready, fun h _ => h⟩
    rw [hearned]
    unfold Outcome.Authentic Gcm.outcome
    rw [heq]
    dsimp only
    cases hiv : c.evp.ok (.initIv c.iv) with
    | false =>
      rw [decryptTagged_of_initIv hiv]
      simp [hs]
    | true =>
      rw [decryptTagged_eq_zero_iff hiv]
      have hlen : (c.taggedCipher.drop tagSize).length = c.taggedCipher.length - tagSize := List.length_drop
      have hle := c.tagSize_le
      constructor
      · refine fun hauth => ⟨rfl, fun hok => ?_⟩
        obtain ⟨-, -, -, hplain⟩ := hauth hok
        rw [(decryptTagged_of_taggedOk hiv hok).2, ← hlen, length_out_update_iff hok.1] at hplain
        omega
      · rintro ⟨-, hshort⟩ hok
        obtain ⟨hdone, hplain⟩ := decryptTagged_of_taggedOk (s := s) hiv hok
        have hlt := hshort hok
        rw [hdone, hplain, (length_out_update_iff hok.1).mpr (by omega), hlen]
        exact ⟨⟨.initIv c.iv, by simp, rfl⟩,
          ⟨.setTag (toInt (c.taggedCipher.take tagSize).length) (c.taggedCipher.take tagSize), by simp, rfl⟩,
            by simp, rfl⟩
  · have hret := Gcm.decrypt_of_not_ready hready
    exact ⟨fun _ h => absurd h hready, fun _ h => by rw [Gcm.outcome, hret] at h; cases h⟩

/-- In a run of calls every 0 is for authenticated data exactly if every call earns it. -/
theorem decrypt_authentic_iff (key : List UInt8) {cs : List DecryptCall} {g : Gcm} (hrun : Run GcmStep { key } cs g) :
    (∀ o ∈ g.outcomes, o.Authentic) ↔ Run (Guarded GcmStep Earned) { key } cs g := by
  refine run_guarded_iff (P := fun g => ∀ o ∈ g.outcomes, o.Authentic) (fun s c t hst => ?_)
    (fun o ho => absurd ho List.not_mem_nil) hrun
  obtain rfl := Option.some.inj hst
  simp only [List.mem_append, List.mem_singleton, or_imp, forall_and, forall_eq]
  rw [Gcm.authentic_outcome_iff]

/-- OpenSSL as it answers for authentic data. -/
def Evp.plain : Evp where
  ok
    | .update _ inl => decide (0 ≤ inl ∧ inl < 2 ^ 31)
    | _ => true
  out
    | .update cipher inl => if 0 ≤ inl ∧ inl < 2 ^ 31 then resize cipher inl.toNat else []
    | _ => []
  length_update := fun cipher inl hok _ => by
    dsimp only
    rw [if_pos (of_decide_eq_true hok), length_resize]
    omega
  length_update_lt := fun cipher inl => by
    dsimp only
    split
    · rw [length_resize]
      omega
    · exact Nat.two_pow_pos 31
  out_final := fun _ => rfl

/-- OpenSSL where the cipher cannot be had: without one, an IV cannot be set either. -/
def Evp.withoutCipher : Evp where
  ok
    | .ctxNew => true
    | _ => false
  out _ := []
  length_update := fun _ _ hok _ => absurd hok Bool.false_ne_true
  length_update_lt := fun _ _ => Nat.two_pow_pos 31
  out_final := fun _ => rfl

def DecryptCall.of (evp : Evp) (rest : List UInt8) : DecryptCall where
  taggedCipher := List.replicate tagSize 0 ++ rest
  iv := List.replicate 16 0
  plaintext := []
  evp := evp
  tagSize_le := by simp

theorem decrypt_authentic_two_calls :
    ∃ g : Gcm, Run GcmStep { key := [1] } [.of .plain [5, 6], .of .plain [7]] g ∧ g.outcomes.map (·.ret) = [0, 0] ∧
      ∀ o ∈ g.outcomes, o.Authentic := by
  obtain ⟨g, hrun, hret⟩ := exists_run_execWhere_and (f := Gcm.step) (G := Earned) (s := { key := [1] })
    (l := [.of .plain [5, 6], .of .plain [7]]) (P := fun g => g.outcomes.map (·.ret) = [0, 0]) (by decide)
  exact ⟨g, hrun.of_guarded, hret, (decrypt_authentic_iff [1] hrun.of_guarded).mpr hrun⟩

/-- The second call finds the context that the first one could not initialise, and returns `false`. -/
theorem decrypt_false_of_kept_context :
    ∃ g : Gcm, Run GcmStep { key := [1] } [.of .withoutCipher [5, 6], .of .withoutCipher [5, 6]] g ∧
      g.outcomes.map (·.ret) = [-1, 0] ∧ (∀ o ∈ g.outcomes, EvpCall.final ∉ o.done) ∧
      ¬∀ o ∈ g.outcomes, o.Authentic := by
  obtain ⟨g, hrun, hret, hdone⟩ := exists_run_execWhere_and (f := Gcm.step) (G := fun _ _ => True) (s := { key := [1] })
    (l := [.of .withoutCipher [5, 6], .of .withoutCipher [5, 6]])
    (P := fun g => g.outcomes.map (·.ret) = [-1, 0] ∧ ∀ o ∈ g.outcomes, EvpCall.final ∉ o.done) (by decide)
  refine ⟨g, hrun.of_guarded, hret, hdone, fun hall => ?_⟩
  obtain ⟨o, ho, hzero⟩ := List.mem_map.mp (show (0 : ℤ) ∈ g.outcomes.map (·.ret) by rw [hret]; decide)
  exact hdone o ho (hall o ho hzero).2.2.1

end MidnightSun.Crypto
