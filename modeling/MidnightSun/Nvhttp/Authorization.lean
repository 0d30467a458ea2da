import MidnightSun.Nvhttp.Clients

/-!
# Authorization is the list of paired clients

Three stores must agree on who is paired: `named_devices`, `cert_chain` and the `add_cert` queue.  `InStep` says that
the chain holds exactly the certificates of the list; it survives every operation except a handshake that drains a
certificate which was unpaired or erased after its pairing.  Where no handshake does that, the verify lambda accepts
exactly the authorized certificates, provided `cert_chain_t::verify` reaches the store of the certificate and the
text of a disabled client is the canonical one.
-/

namespace MidnightSun.Nvhttp

open Boost Safe Lib

variable {X509 : Type} {ssl : OpenSSL X509}

/-! ### The chain and the list in step -/

/-- The invariant of the three stores. -/
structure InStep (ssl : OpenSSL X509) (s : Server X509) : Prop where
  readable : s.file ≠ .unreadable
  running : s.addCert.running = true
  chain : ∀ o, o ∈ s.certChain ↔ ∃ c ∈ s.namedDevices, ssl.x509 c.cert = o

/-- Every queued certificate is one of a listed client. -/
def Drained (ssl : OpenSSL X509) (s : Server X509) : Prop := ∀ x ∈ s.addCert.queue, Listed ssl s x

/-- The guard of a run: a handshake finds no certificate in the queue whose client has been removed. -/
def NothingStale (ssl : OpenSSL X509) (s : Server X509) : Op X509 → Prop
  | .handshake (some _) => Drained ssl s
  | _ => True

instance [DecidableEq X509] (ssl : OpenSSL X509) (s : Server X509) : Decidable (Drained ssl s) :=
  inferInstanceAs (Decidable (∀ x ∈ s.addCert.queue, Listed ssl s x))

instance [DecidableEq X509] (ssl : OpenSSL X509) (s : Server X509) (op : Op X509) :
    Decidable (NothingStale ssl s op) := by
  unfold NothingStale
  split <;> infer_instance

lemma saveState_readable {s : Server X509} (h : s.file ≠ .unreadable) : (saveState s).file ≠ .unreadable := by
  obtain ⟨t, ht⟩ := saveState_file h
  simp [ht]

lemma inStep_reload (ssl : OpenSSL X509) {s : Server X509} (hr : s.file ≠ .unreadable) (hq : s.addCert.running = true)
    (gen : ℕ → Str) :
    ∃ s', loadState ssl gen (saveState s) = .ok s' ∧ InStep ssl s' ∧ s'.namedDevices = s.namedDevices := by
  refine ⟨_, loadState_saveState ssl gen hr, ⟨?_, ?_, ?_⟩, ?_⟩
  · exact saveState_readable hr
  · simpa using hq
  · intro o
    simp
  · simp

lemma inStep_boot {file : StateFile} (h : file ≠ .unreadable) : InStep ssl (.boot file) :=
  ⟨h, rfl, by simp [Server.boot]⟩

lemma inStep_loadState {gen : ℕ → Str} {s s' : Server X509} (h : InStep ssl s) (hs : loadState ssl gen s = .ok s') :
    InStep ssl s' := by
  obtain ⟨hq, hf, ⟨hd, hc⟩ | hc⟩ := loadState_ok hs
  · exact ⟨hf ▸ h.readable, hq ▸ h.running, by rw [hc, hd]; exact h.chain⟩
  · exact ⟨hf ▸ h.readable, hq ▸ h.running, by simp [hc]⟩

lemma inStep_start {gen : ℕ → Str} {file : StateFile} {s : Server X509} (hf : file ≠ .unreadable)
    (h : start ssl gen file = .ok s) : InStep ssl s := by
  unfold start at h
  split at h
  · cases h; exact inStep_boot hf
  · exact inStep_loadState (inStep_boot hf) h

lemma verify_some (x : X509) {s : Server X509} (h : s.addCert.running = true) :
    (verify ssl (some x) s).1 =
      { s with addCert := { s.addCert with queue := [] },
               certChain := s.certChain ++ s.addCert.queue.map some } := by
  unfold verify
  simp only [Queue.drain_eq h]
  split <;> rfl

lemma inStep_verify {s : Server X509} (x : X509) (h : InStep ssl s) (hd : Drained ssl s) :
    InStep ssl (verify ssl (some x) s).1 := by
  rw [verify_some x h.running]
  refine ⟨h.readable, h.running, fun o => ?_⟩
  simp only [List.mem_append, List.mem_map, h.chain]
  constructor
  · rintro (ho | ⟨y, hy, rfl⟩)
    · exact ho
    · exact hd y hy
  · exact Or.inl

/-- **Step lemma.**  Every operation that meets the guard keeps the chain in step with the list. -/
theorem inStep_step {s t : Server X509} {op : Op X509} (h : InStep ssl s) (hg : NothingStale ssl s op)
    (hstep : Step ssl false s op t) : InStep ssl t := by
  cases op with
  | pair gen name cert =>
    obtain ⟨x, -, rfl⟩ := Option.map_eq_some_iff.mp hstep
    obtain ⟨s', hs', hin, -⟩ := inStep_reload ssl
      (s := { s with addCert := s.addCert.raise x,
                     namedDevices := s.namedDevices ++ [{ name, cert, uuid := gen 0 }] })
      h.readable (by simpa using h.running) (fun n => gen (n + 1))
    have : completePairing ssl false gen name cert x s = .ok s' := by
      simpa [completePairing, addAuthorizedClient] using hs'
    rw [this]
    exact hin
  | unpairClient gen uuid =>
    obtain rfl := Option.some.inj hstep
    obtain ⟨s', hs', hin, -⟩ := inStep_reload ssl
      (s := { s with namedDevices := s.namedDevices.filter fun c => c.uuid ≠ uuid }) h.readable h.running gen
    have : unpairClient ssl gen uuid s = .ok (s', s.namedDevices.any fun c => c.uuid = uuid) := by
      simp only [unpairClient, hs', Except.map]
    rw [this]
    exact hin
  | eraseAllClients =>
    obtain rfl := Option.some.inj hstep
    refine ⟨saveState_readable h.readable, ?_, ?_⟩
    · simpa [eraseAllClients] using h.running
    · simp [eraseAllClients]
  | setClientEnabled uuid enabled =>
    obtain rfl := Option.some.inj hstep
    unfold setClientEnabled
    split
    next devices hd =>
      refine ⟨saveState_readable h.readable, by simpa using h.running, fun o => ?_⟩
      simp only [saveState_certChain, saveState_namedDevices, h.chain]
      have hmem : ∀ l : List NamedCert, (∃ c ∈ l, ssl.x509 c.cert = o) ↔ o ∈ (l.map NamedCert.cert).map ssl.x509 := by
        simp
      rw [hmem, hmem, map_cert_setFirstEnabled hd]
    · exact h
  | restart gen =>
    have hst : start ssl gen s.file = .ok t := by
      simp only [Step, ofPartial, Op.run] at hstep
      cases hs : start ssl gen s.file with
      | ok s' => rw [hs] at hstep; simpa [Except.toOption] using hstep
      | error s' => rw [hs] at hstep; simp [Except.toOption] at hstep
    exact inStep_start h.readable hst
  | handshake peer =>
    obtain rfl := Option.some.inj hstep
    cases peer with
    | none => exact h
    | some x => exact inStep_verify x h hg

/-! ### What the lambda accepts -/

lemma certChainVerify_eq_none {x : X509} {certs : List (Option X509)}
    (h : ∀ c ∈ certs, ∀ code, ssl.verifyCert c x = some code → code.tolerated = true) (err : VerifyError) :
    certChainVerify ssl x err certs = none ↔ ∃ c ∈ certs, ssl.verifyCert c x = none := by
  induction certs generalizing err with
  | nil => simp [certChainVerify]
  | cons c cs ih =>
    have ih := ih fun c' hc' => h c' (List.mem_cons_of_mem _ hc')
    unfold certChainVerify
    cases hv : ssl.verifyCert c x with
    | none => simp [hv]
    | some code =>
      have htol := h c (List.mem_cons_self ..) code hv
      simp only [htol, if_true, ih, List.mem_cons, exists_eq_or_imp, hv]
      simp

/-- A certificate that the list and the stores answer unambiguously: no store of a listed client fails on `x` with an
error that ends the search, and a disabled entry of `x` means that all its entries are disabled and that one of them
is its canonical text. -/
structure Unambiguous (ssl : OpenSSL X509) (s : Server X509) (x : X509) : Prop where
  tolerated : ∀ c ∈ s.namedDevices, ∀ code, ssl.verifyCert (ssl.x509 c.cert) x = some code → code.tolerated = true
  disabled : ∀ c ∈ s.namedDevices, ssl.x509 c.cert = some x → c.enabled = false →
    (∀ c' ∈ s.namedDevices, ssl.x509 c'.cert = some x → c'.enabled = false) ∧
      ∃ c' ∈ s.namedDevices, c'.cert = ssl.pem x

/-- For a listed certificate the enabled flag that the lambda reads is the one the list means. -/
lemma isClientEnabled_iff (hssl : ssl.Lawful) {s : Server X509} {x : X509} (hx : Unambiguous ssl s x)
    (hl : Listed ssl s x) : isClientEnabled s.namedDevices (ssl.pem x) = true ↔ Authorized ssl s x := by
  obtain ⟨c, hc, hcx⟩ := hl
  have hpem : ∀ c' ∈ s.namedDevices, c'.cert = ssl.pem x → ssl.x509 c'.cert = some x :=
    fun c' _ h => h ▸ hssl.x509_pem x
  unfold isClientEnabled
  cases hf : s.namedDevices.find? (fun c => c.cert = ssl.pem x) with
  | none =>
    -- no entry has the canonical text, so none is disabled
    have hno : ∀ c' ∈ s.namedDevices, c'.cert ≠ ssl.pem x := by simpa using hf
    simp only [true_iff]
    refine ⟨c, hc, hcx, ?_⟩
    by_contra hen
    obtain ⟨-, c', hc', hc'x⟩ := hx.disabled c hc hcx (by simpa using hen)
    exact hno c' hc' hc'x
  | some c₀ =>
    have hc₀ := List.mem_of_find?_eq_some hf
    have ht₀ : c₀.cert = ssl.pem x := by simpa using List.find?_some hf
    have hx₀ := hpem c₀ hc₀ ht₀
    constructor
    · exact fun hen => ⟨c₀, hc₀, hx₀, hen⟩
    · rintro ⟨c', hc', hc'x, hen⟩
      by_contra h₀
      have := (hx.disabled c₀ hc₀ hx₀ (by simpa using h₀)).1 c' hc' hc'x
      simp [this] at hen

lemma verify_iff_of_inStep (hssl : ssl.Lawful) {s : Server X509} (h : InStep ssl s) (hd : Drained ssl s) {x : X509}
    (hx : Unambiguous ssl s x) : (verify ssl (some x) s).2 = true ↔ Authorized ssl s x := by
  have hmem : ∀ o, o ∈ s.certChain ++ s.addCert.queue.map some ↔ ∃ c ∈ s.namedDevices, ssl.x509 c.cert = o := by
    have := (inStep_verify x h hd).chain
    rw [verify_some x h.running] at this
    exact this
  have hchain : certChainVerify ssl x .ok (s.certChain ++ s.addCert.queue.map some) = none ↔ Listed ssl s x := by
    rw [certChainVerify_eq_none]
    · constructor
      · rintro ⟨o, ho, hv⟩
        cases o with
        | none => exact absurd hv (hssl.verify_empty x)
        | some y =>
          obtain rfl := (hssl.verify_iff y x).mp hv
          exact (hmem _).mp ho
      · intro hl
        exact ⟨some x, (hmem _).mpr hl, (hssl.verify_iff x x).mpr rfl⟩
    · intro o ho code hcode
      obtain ⟨c, hc, rfl⟩ := (hmem o).mp ho
      exact hx.tolerated c hc code hcode
  unfold verify
  simp only [Queue.drain_eq h.running]
  cases hv : certChainVerify ssl x .ok (s.certChain ++ s.addCert.queue.map some) with
  | none => exact isClientEnabled_iff hssl hx (hchain.mp hv)
  | some code =>
    have hnl : ¬ Listed ssl s x := fun hl => by simp [hchain.mpr hl] at hv
    simp only [Bool.false_eq_true, false_iff]
    rintro ⟨c, hc, hcx, -⟩
    exact hnl ⟨c, hc, hcx⟩

/-- **Authorization is the paired-client list**, in every run in which no handshake drains a certificate whose client
was removed after its pairing. -/
theorem verify_iff_authorized (hssl : ssl.Lawful) {gen : ℕ → Str} {file : StateFile} {s₀ s : Server X509}
    {ops : List (Op X509)} (hfile : file ≠ .unreadable) (hstart : start ssl gen file = .ok s₀)
    (hrun : Run (Guarded (Step ssl false) (NothingStale ssl)) s₀ ops s) {x : X509} (hd : Drained ssl s)
    (hx : Unambiguous ssl s x) : (verify ssl (some x) s).2 = true ↔ Authorized ssl s x :=
  verify_iff_of_inStep hssl
    (hrun.invariant_where (fun _ _ _ h hg hst => inStep_step h hg hst) (inStep_start hfile hstart)) hd hx

/-! ### Runs on fixed certificates -/

/-- Certificates that are one byte, whose canonical text is that byte and which any text beginning with it parses to. -/
def byteSSL : OpenSSL UInt8 where
  x509 t := t.head?
  pem x := [x]
  verifyCert c x := if c = some x then none else some .depthZeroSelfSignedCert

lemma byteSSL_lawful : byteSSL.Lawful where
  verify_iff c x := by simp [byteSSL, eq_comm]
  verify_empty x := by simp [byteSSL]
  x509_pem x := rfl

/-- A client pairs and makes a handshake, then a second one pairs that has not connected yet. -/
def pairTwo : List (Op UInt8) :=
  [.pair (fun _ => [1]) (str "pad") [7], .handshake (some 7), .pair (fun _ => [2]) (str "tv") [9]]

theorem verify_iff_authorized_paired :
    ∃ s, Run (Guarded (Step byteSSL false) (NothingStale byteSSL)) (.boot .absent) pairTwo s ∧
      ((verify byteSSL (some 7) s).2 = true ↔ Authorized byteSSL s 7) := by
  have hrun := exists_run_execWhere (f := fun (s : Server UInt8) (op : Op UInt8) => op.run byteSSL false s)
    (G := NothingStale byteSSL) (s := .boot .absent) (l := pairTwo) (by decide)
  have hstart : start byteSSL (fun _ => []) .absent = .ok (.boot .absent) := rfl
  refine ⟨_, hrun, verify_iff_authorized byteSSL_lawful (by simp) hstart hrun
    (by decide) ⟨?_, ?_⟩⟩
  · intro c _ code hcode
    simp only [byteSSL] at hcode
    split at hcode
    · cases hcode
    · cases hcode; rfl
  · decide

/-- A client pairs and is unpaired before its first handshake. -/
def pairThenUnpair : List (Op UInt8) :=
  [.pair (fun _ => [1]) (str "pad") [7], .unpairClient (fun _ => []) [1]]

/-- **A removed client is accepted**: the handshake drains its certificate into the chain, and a text that no client
has counts as enabled. -/
theorem removed_client_verifies :
    ∃ s, Run (Step byteSSL false) (.boot .absent) pairThenUnpair s ∧
      (verify byteSSL (some 7) s).2 = true ∧ ¬ Authorized byteSSL s 7 := by
  have hrun := exists_run_execWhere (f := fun (s : Server UInt8) (op : Op UInt8) => op.run byteSSL false s)
    (G := fun _ _ => True) (s := .boot .absent) (l := pairThenUnpair) (by decide)
  exact ⟨_, hrun.of_guarded, by decide, by decide⟩

end MidnightSun.Nvhttp
