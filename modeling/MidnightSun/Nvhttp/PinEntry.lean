import MidnightSun.Nvhttp.PairingOrder

/-!
# Which session the PIN reaches

`pin` takes the first session of an unordered map, whoever waits.  `PinLaw` says what entering a PIN should do: one of
the waiting sessions takes it and is answered, every other session is left alone, and no removed session is touched.
In every reachable map that is what happens if the first session waits and has a salt, and only then.
-/

namespace MidnightSun.Nvhttp

open Boost Safe Lib Util

variable {X509 : Type} (crypto : PairCrypto X509)

/-- The session waits for a PIN: in phase NONE, with a request to answer. -/
def Waiting (sess : PairSession) : Prop := sess.lastPhase = .none ∧ sess.response.isSome = true

/-- What the result `r` of entering `digits` in the state `s` should be. -/
structure PinLaw (s : Pairing X509) (digits : Str) (r : Pairing X509 × Option (ℕ × Ptree) × Option Bool) : Prop where
  /-- a waiting session takes the PIN, and its request is answered -/
  reaches : (∃ uid sess, s.sessions.lookup uid = some sess ∧ Waiting sess) →
    ∃ uid sess request sess' tree, s.sessions.lookup uid = some sess ∧ Waiting sess ∧ sess.response = some request ∧
      r.1.sessions.lookup uid = some sess' ∧ sess'.lastPhase = .getservercert ∧
      sess'.cipherKey = some (crypto.pairKey sess.salt digits) ∧ r.2 = (some (request, tree), some true)
  others : ∀ uid sess, s.sessions.lookup uid = some sess → ¬ Waiting sess → r.1.sessions.lookup uid = some sess
  /-- no removed session is touched: the result is specified -/
  defined : r.2.2 ≠ none

/-- The session can take a PIN: it waits, and its salt is long enough. -/
def CanTakePin (sess : PairSession) : Prop := Waiting sess ∧ 32 ≤ sess.salt.length

/-! ### The first phase -/

theorem getservercert_eq_some {sess : PairSession} (hphase : sess.lastPhase = .none) (hsalt : 32 ≤ sess.salt.length)
    (tree : Ptree) (digits : Str) : ∃ answer, getservercert crypto sess tree digits =
      (some { sess with lastPhase := .getservercert, cipherKey := some (crypto.pairKey sess.salt digits) }, answer,
        [.getservercert digits sess.salt]) := by
  simp only [getservercert, hphase, ne_eq, not_true_eq_false, if_false, Nat.not_lt.mpr hsalt]
  exact ⟨_, rfl⟩

theorem getservercert_eq_none {sess : PairSession} (h : sess.lastPhase ≠ .none ∨ sess.salt.length < 32)
    (tree : Ptree) (digits : Str) : (getservercert crypto sess tree digits).1 = none := by
  unfold getservercert
  by_cases hphase : sess.lastPhase = .none
  · have hsalt : sess.salt.length < 32 := h.resolve_left fun hne => hne hphase
    simp [hphase, hsalt, failPair]
  · simp [hphase, failPair]

/-! ### What `pin` does -/

variable {crypto} {s : Pairing X509} {first digits : Str} {sess : PairSession}

theorem pin_of_removed (name : Str) (hsess : s.sessions.lookup first = some sess) (hvalid : validPin digits = true)
    (h : sess.lastPhase ≠ .none ∨ sess.salt.length < 32) : (pin crypto first digits name s).2.2 = none := by
  have hnone := getservercert_eq_none crypto h .empty digits
  simp only [pin, hsess, hvalid, Bool.not_true, Bool.false_eq_true, if_false]
  split
  next => rfl
  next heq => rw [heq] at hnone; cases hnone

variable (crypto) in
theorem pin_of_taken (name : Str) (hsess : s.sessions.lookup first = some sess) (hvalid : validPin digits = true)
    (hphase : sess.lastPhase = .none) (hsalt : 32 ≤ sess.salt.length) :
    ∃ answer, (pin crypto first digits name s).1.sessions = s.sessions.insert sess.uniqueID
        { sess with lastPhase := .getservercert, cipherKey := some (crypto.pairKey sess.salt digits), name := name,
                    response := none } ∧
      (pin crypto first digits name s).2 = (sess.response.map fun r => (r, answer), some sess.response.isSome) := by
  obtain ⟨answer, hcall⟩ := getservercert_eq_some crypto hphase hsalt .empty digits
  refine ⟨answer, ?_, ?_⟩
  · simp only [pin, hsess, hvalid, Bool.not_true, Bool.false_eq_true, if_false, hcall]
    rfl
  · simp only [pin, hsess, hvalid, Bool.not_true, Bool.false_eq_true, if_false, hcall]

/-- A first session that can take the PIN takes it, and nothing else happens. -/
theorem pinLaw_of_canTakePin (name : Str) (hsess : s.sessions.lookup first = some sess)
    (hkey : sess.uniqueID = first) (hvalid : validPin digits = true) (h : CanTakePin sess) :
    PinLaw crypto s digits (pin crypto first digits name s) := by
  obtain ⟨⟨hphase, hresponse⟩, hsalt⟩ := h
  obtain ⟨request, hrequest⟩ := Option.isSome_iff_exists.mp hresponse
  obtain ⟨answer, hsessions, hresult⟩ := pin_of_taken crypto name hsess hvalid hphase hsalt
  rw [hkey] at hsessions
  have hlookup := congrArg (AList.lookup first) hsessions
  rw [AList.lookup_insert] at hlookup
  refine ⟨?_, ?_, ?_⟩
  · intro _
    refine ⟨first, sess, request, _, answer, hsess, ⟨hphase, hresponse⟩, hrequest, hlookup, rfl, rfl, ?_⟩
    simp [hresult, hrequest]
  · intro uid u hu hnot
    have hne : uid ≠ first := by
      rintro rfl
      obtain rfl := Option.some.inj (hu.symm.trans hsess)
      exact hnot ⟨hphase, hresponse⟩
    rw [hsessions, AList.lookup_insert_ne hne]
    exact hu
  · rw [hresult]
    simp

/-- A PIN that does what it should was entered for a first session that can take it. -/
theorem canTakePin_of_pinLaw (name : Str) (hsess : s.sessions.lookup first = some sess)
    (hkey : sess.uniqueID = first) (hvalid : validPin digits = true)
    (h : PinLaw crypto s digits (pin crypto first digits name s)) : CanTakePin sess := by
  have hkept : ¬ (sess.lastPhase ≠ .none ∨ sess.salt.length < 32) := fun hfail =>
    h.defined (pin_of_removed name hsess hvalid hfail)
  push Not at hkept
  obtain ⟨hphase, hsalt⟩ := hkept
  obtain ⟨answer, hsessions, -⟩ := pin_of_taken crypto name hsess hvalid hphase hsalt
  refine ⟨⟨hphase, ?_⟩, hsalt⟩
  -- without a waiting request the session would be advanced for nobody
  by_contra hresponse
  have hsame := h.others first sess hsess fun hw => hresponse hw.2
  rw [hsessions, hkey, AList.lookup_insert] at hsame
  have hadvanced := congrArg PairSession.lastPhase (Option.some.inj hsame)
  rw [hphase] at hadvanced
  cases hadvanced

/-- **A PIN reaches a waiting session**, and nothing else is touched, exactly if there is no session at all or the
first session of the map waits and has a salt of 32 characters or more. -/
theorem pin_reaches_iff (crypto : PairCrypto X509) (flags : PairFlags) {server : Server X509} {ops : List PairOp}
    {s : Pairing X509} (hrun : Run (PairStep crypto flags) (.boot server) ops s) {first digits : Str} (name : Str)
    (hfirst : s.sessions.entries = [] ∨ first ∈ s.sessions.keys) (hvalid : validPin digits = true) :
    PinLaw crypto s digits (pin crypto first digits name s) ↔
      s.sessions.entries = [] ∨ ∃ sess, s.sessions.lookup first = some sess ∧ CanTakePin sess := by
  have hordered : Ordered crypto flags s := ordered_of_changes (changes_run hrun) (ordered_boot server)
  by_cases hempty : s.sessions.entries = []
  · have hnone : ∀ uid, s.sessions.lookup uid = none := by
      intro uid
      rw [AList.lookup_eq_none]
      simp [AList.mem_keys, AList.keys, hempty]
    refine iff_of_true ⟨?_, ?_, ?_⟩ (Or.inl hempty)
    · rintro ⟨uid, sess, hsess, -⟩
      rw [hnone] at hsess
      cases hsess
    · intro uid sess hsess
      rw [hnone] at hsess
      cases hsess
    · simp [pin, hnone]
  · have hmem : first ∈ s.sessions := AList.mem_keys.mpr (hfirst.resolve_left hempty)
    obtain ⟨sess, hsess⟩ := Option.isSome_iff_exists.mp (AList.lookup_isSome.mpr hmem)
    have hkey := hordered.keyed first sess hsess
    simp only [hempty, false_or, hsess, Option.some.injEq, exists_eq_left']
    exact ⟨canTakePin_of_pinLaw name hsess hkey hvalid, pinLaw_of_canTakePin name hsess hkey hvalid⟩

/-- A pairing request with these arguments. -/
def pairRequest (request : ℕ) (args : List (String × String)) : PairOp :=
  .pair { serversecret := [3], serverchallenge := [5], gen := fun _ => [8], stdinPin := [] } request
    (args.map fun arg => (str arg.1, str arg.2))

/-- Client `a` asks without a salt, client `b` with one. -/
def twoClients : List PairOp :=
  [pairRequest 0 [("uniqueid", "a"), ("phrase", "getservercert"), ("clientcert", "07")],
    pairRequest 1 [("uniqueid", "b"), ("phrase", "getservercert"), ("clientcert", "08"),
      ("salt", "00000000000000000000000000000000")]]

/-- With `a` in front, the PIN removes its session and goes on with it; `b` waits for the PIN before and after. -/
theorem pin_misses_waiting :
    ∃ s, Run (PairStep byteCrypto {}) (.boot (.boot .absent)) twoClients s ∧ str "a" ∈ s.sessions.keys ∧
      (pin byteCrypto (str "a") (str "1234") (str "tv") s).2 = (none, none) ∧
      ∀ t ∈ [s, (pin byteCrypto (str "a") (str "1234") (str "tv") s).1],
        ((t.sessions.lookup (str "b")).any fun sess => sess.lastPhase = .none ∧ sess.response = some 1) = true := by
  have hrun := exists_run_execWhere (f := fun (s : Pairing UInt8) (op : PairOp) => op.run byteCrypto {} s)
    (G := fun _ _ => True) (s := .boot (.boot .absent)) (l := twoClients) (by decide)
  exact ⟨_, hrun.of_guarded, by decide, by rfl, by decide⟩

/-- With `b` in front, the PIN reaches it. -/
theorem pin_reaches_waiting :
    ∃ s, Run (PairStep byteCrypto {}) (.boot (.boot .absent)) twoClients s ∧
      PinLaw byteCrypto s (str "1234") (pin byteCrypto (str "b") (str "1234") (str "tv") s) := by
  have hrun := exists_run_execWhere (f := fun (s : Pairing UInt8) (op : PairOp) => op.run byteCrypto {} s)
    (G := fun _ _ => True) (s := .boot (.boot .absent)) (l := twoClients) (by decide)
  refine ⟨_, hrun.of_guarded, (pin_reaches_iff byteCrypto {} hrun.of_guarded (str "tv") (Or.inr (by decide))
    (by decide)).mpr (Or.inr ?_)⟩
  exact ⟨_, rfl, ⟨by decide, by decide⟩, by decide⟩

end MidnightSun.Nvhttp
