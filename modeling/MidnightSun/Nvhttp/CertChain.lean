import MidnightSun.Lib.Scan
import MidnightSun.Nvhttp.State

/-!
# The order of the paired certificates (src/crypto.cpp)

`cert_chain_t` keeps one store for each certificate, so that each client is verified on its own.  `verify` asks the
stores in the order of the `add` calls and returns at the first error that it does not tolerate: to the stores it is a
scan whose rejections are those errors.  `X509_verify_cert` is an arbitrary function here.
-/

namespace MidnightSun.Nvhttp

open List Lib

variable {X509 : Type} (ssl : OpenSSL X509) (x : X509)

/-- `cert_chain_t::add`. -/
def certChainAdd (certs : List (Option X509)) (cert : Option X509) : List (Option X509) := certs ++ [cert]

/-- What one store means to the loop of `verify`. -/
def storeVerdict (c : Option X509) : Verdict :=
  match ssl.verifyCert c x with
  | none => .accept
  | some code => if code.tolerated then .pass else .reject

/-- The store verifies the presented certificate, or fails with one of the two expected codes. -/
def Expected (c : Option X509) : Prop := ∀ code, ssl.verifyCert c x = some code → code.tolerated = true

variable {ssl x}

theorem foldl_certChainAdd (certs adds : List (Option X509)) : adds.foldl certChainAdd certs = certs ++ adds := by
  induction adds generalizing certs with
  | nil => simp
  | cons c cs ih => rw [List.foldl_cons, ih, certChainAdd, List.append_assoc, List.singleton_append]

theorem storeVerdict_eq_accept {c : Option X509} : storeVerdict ssl x c = .accept ↔ ssl.verifyCert c x = none := by
  unfold storeVerdict
  split
  next h => simp [h]
  next code h => split <;> simp [h]

theorem storeVerdict_ne_reject {c : Option X509} : storeVerdict ssl x c ≠ .reject ↔ Expected ssl x c := by
  unfold storeVerdict Expected
  split
  next h => simp [h]
  next code h => split <;> simp_all

/-- The loop of `verify` is a scan of the stores, whatever error code it starts from. -/
theorem certChainVerify_iff_scan (err : VerifyError) (certs : List (Option X509)) :
    certChainVerify ssl x err certs = none ↔ scan (storeVerdict ssl x) certs = true := by
  induction certs generalizing err with
  | nil => simp [certChainVerify, scan]
  | cons c cs ih =>
    unfold certChainVerify
    cases h : ssl.verifyCert c x with
    | none =>
      have hacc : storeVerdict ssl x c = .accept := storeVerdict_eq_accept.mpr h
      simp [scan_cons_accept hacc]
    | some code =>
      by_cases ht : code.tolerated = true
      · have hpass : storeVerdict ssl x c = .pass := by simp [storeVerdict, h, ht]
        simpa [ht, scan_cons_pass hpass] using ih code
      · have hrej : storeVerdict ssl x c = .reject := by simp [storeVerdict, h, ht]
        simp [ht, scan_cons_reject hrej]

/-- **Order of pairing.**  The presented certificate passes exactly if some store verifies it, in every order of the
`add` calls, if and only if no store verifies it or all stores that fail do so with an expected code. -/
theorem verify_order_free_iff (ssl : OpenSSL X509) (x : X509) (adds : List (Option X509)) :
    ((certChainVerify ssl x .ok (adds.foldl certChainAdd []) = none ↔ ∃ c ∈ adds, ssl.verifyCert c x = none) ∧
        ∀ adds', adds' ~ adds → (certChainVerify ssl x .ok (adds'.foldl certChainAdd []) = none ↔
          certChainVerify ssl x .ok (adds.foldl certChainAdd []) = none)) ↔
      (∀ c ∈ adds, ssl.verifyCert c x ≠ none) ∨ ∀ c ∈ adds, Expected ssl x c := by
  have hscan := scan_perm_iff (f := storeVerdict ssl x) adds
  simp only [storeVerdict_ne_reject, ne_eq, storeVerdict_eq_accept] at hscan
  simp only [foldl_certChainAdd, List.nil_append, certChainVerify_iff_scan, ne_eq]
  rw [← hscan]
  constructor
  · rintro ⟨hex, hperm⟩ adds' hadds'
    exact (hperm adds' hadds').trans hex
  · intro h
    exact ⟨h adds (.refl _), fun adds' hadds' => (h adds' hadds').trans (h adds (.refl _)).symm⟩

/-- Certificates as numbers, each verified by its own store; the store of 1 fails with another code. -/
def numberedSsl : OpenSSL ℕ where
  x509 _ := none
  pem _ := []
  verifyCert c x :=
    if c = some x then none else if c = some 1 then some (.other 7) else some .depthZeroSelfSignedCert

/-- Client 2 is verified if it was paired before client 1, and refused if it was paired after it. -/
theorem verify_depends_on_order :
    (∃ c ∈ [some 1, some 2], numberedSsl.verifyCert c 2 = none) ∧
      certChainVerify numberedSsl 2 .ok ([some 1, some 2].foldl certChainAdd []) = some (.other 7) ∧
      certChainVerify numberedSsl 2 .ok ([some 2, some 1].foldl certChainAdd []) = none := by
  refine ⟨⟨some 2, by simp, rfl⟩, rfl, rfl⟩

end MidnightSun.Nvhttp
