import MidnightSun.Nvhttp.Authorization
import MidnightSun.Nvhttp.Pairing

/-!
# The order of the pairing phases

What was done to a session is the beginning of one fixed sequence of calls as long as the session is in the map, and
is closed once it is removed.  `Performed` relates a session to the calls it accepted, `Ended` says how a history can
end, and `Ordered` is the invariant of the whole map.
-/

namespace MidnightSun.Nvhttp

open Boost Safe Lib Util

variable {X509 : Type} (crypto : PairCrypto X509) (flags : PairFlags)

/-! ### Transcripts -/

/-- The data of one pairing. -/
structure Transcript where
  cert : Str
  pin : Str
  salt : Str
  challenge : Str
  serverchallenge : Str
  response : Str
  secret : Str

namespace Transcript

/-- The calls of a pairing, in the required order. -/
def events (t : Transcript) : List PairEvent :=
  [.created t.cert, .getservercert t.pin t.salt, .clientchallenge t.challenge t.serverchallenge,
    .serverchallengeresp t.response, .clientpairingsecret t.secret]

/-- The decrypted client hash. -/
def clienthash (t : Transcript) : Str := crypto.ecbDecrypt (crypto.pairKey t.salt t.pin) t.response

/-- The PIN was typed by the user, as four digits unless it was read from the standard input. -/
def Entered (t : Transcript) : Prop := flags.pinStdin = true ∨ validPin t.pin = true

/-- All that has to be checked before the client is authorized. -/
structure Verified (t : Transcript) : Prop where
  entered : t.Entered flags
  salt : 32 ≤ t.salt.length
  secret : 16 < t.secret.length
  client : ∃ x, crypto.x509 t.cert = some x ∧
    crypto.hash (t.serverchallenge ++ crypto.signature x ++ t.secret.take 16) = t.clienthash crypto ∧
    crypto.verify256 x (t.secret.take 16) (t.secret.drop 16) = true

end Transcript

/-- How many calls of the sequence a session in this phase has accepted. -/
def PairPhase.rank : PairPhase → ℕ
  | none => 1
  | getservercert => 2
  | clientchallenge => 3
  | serverchallengeresp => 4
  | clientpairingsecret => 5

/-- The session holds the data of the calls it accepted, and waits for another one. -/
structure Performed (sess : PairSession) (t : Transcript) : Prop where
  cert : sess.cert = t.cert
  key : 2 ≤ sess.lastPhase.rank →
    t.Entered flags ∧ 32 ≤ t.salt.length ∧ sess.cipherKey = some (crypto.pairKey t.salt t.pin)
  challenge : 3 ≤ sess.lastPhase.rank → sess.serverchallenge = t.serverchallenge
  hash : 4 ≤ sess.lastPhase.rank → sess.clienthash = t.clienthash crypto
  pending : sess.lastPhase.rank ≤ 4

/-- The calls of the four phases. -/
def PairEvent.IsCall : PairEvent → Prop
  | getservercert .. | clientchallenge .. | serverchallengeresp _ | clientpairingsecret _ => True
  | _ => False

/-- How the history of a removed session looks. -/
inductive Ended : List PairEvent → Prop
  | failed (t : Transcript) {k : ℕ} {call : PairEvent} (hk : 1 ≤ k) (hk' : k ≤ 4) (hcall : call.IsCall) :
    Ended (t.events.take k ++ [call, .failPair])
  | mismatch (t : Transcript) {same verified : Bool} (h : (same && verified) = false) :
    Ended (t.events ++ [.compared same verified])
  | paired (t : Transcript) (h : t.Verified crypto flags) :
    Ended (t.events ++ [.compared true true, .addAuthorizedClient t.cert])

/-! ### One phase -/

/-- The history `h` is what the session `sess` has accepted. -/
def Accepted (sess : PairSession) (h : List PairEvent) : Prop :=
  ∃ t : Transcript, Performed crypto flags sess t ∧ h = t.events.take sess.lastPhase.rank

/-- A session that is kept is in step with the history, a removed one leaves it closed. -/
def Settled : Option PairSession → List PairEvent → Prop
  | some sess, h => Accepted crypto flags sess h
  | none, h => Ended crypto flags h

/-- A phase keeps the session in step with its history, or removes it with a history that is closed. -/
def Sound (sess : PairSession) (phase : Phase) : Prop :=
  ∀ h, Accepted crypto flags sess h →
    match phase.1 with
    | some sess' => sess'.uniqueID = sess.uniqueID ∧ sess'.serial = sess.serial ∧
        Accepted crypto flags sess' (h ++ phase.2.2)
    | none => Ended crypto flags (h ++ phase.2.2)

variable {crypto flags}

lemma PairPhase.one_le_rank (p : PairPhase) : 1 ≤ p.rank := by cases p <;> decide

theorem failPair_sound (sess : PairSession) (msg : String) (tree : Ptree) {call : PairEvent} (hcall : call.IsCall) :
    Sound crypto flags sess (failPair msg tree call) := by
  rintro h ⟨t, ht, rfl⟩
  exact .failed t sess.lastPhase.one_le_rank ht.pending hcall

theorem getservercert_sound (sess : PairSession) (tree : Ptree) {pin : Str}
    (hpin : flags.pinStdin = true ∨ validPin pin = true) :
    Sound crypto flags sess (getservercert crypto sess tree pin) := by
  unfold getservercert
  split
  · exact failPair_sound sess _ _ trivial
  next hphase =>
    split
    · exact failPair_sound sess _ _ trivial
    next hsalt =>
      rintro h ⟨t, ht, rfl⟩
      have hp : sess.lastPhase = .none := by simpa using hphase
      have hlen : 32 ≤ sess.salt.length := by omega
      refine ⟨rfl, rfl, { t with pin := pin, salt := sess.salt }, ?_, ?_⟩
      · exact ⟨ht.cert, fun _ => ⟨hpin, hlen, rfl⟩, by simp [PairPhase.rank], by simp [PairPhase.rank],
          by simp [PairPhase.rank]⟩
      · simp [hp, PairPhase.rank, Transcript.events]

theorem clientchallenge_sound (sess : PairSession) (tree : Ptree) (challenge serversecret serverchallenge : Str) :
    Sound crypto flags sess (clientchallenge crypto sess tree challenge serversecret serverchallenge) := by
  unfold clientchallenge
  split
  · exact failPair_sound sess _ _ trivial
  next hphase =>
    split
    · exact failPair_sound sess _ _ trivial
    next key hkey =>
      rintro h ⟨t, ht, rfl⟩
      have hp : sess.lastPhase = .getservercert := by simpa using hphase
      have hk := ht.key (by rw [hp]; decide)
      refine ⟨rfl, rfl, { t with challenge := challenge, serverchallenge := serverchallenge }, ?_, ?_⟩
      · exact ⟨ht.cert, fun _ => hk, fun _ => rfl, by simp [PairPhase.rank], by simp [PairPhase.rank]⟩
      · simp [hp, PairPhase.rank, Transcript.events]

theorem serverchallengeresp_sound (sess : PairSession) (tree : Ptree) (response : Str) :
    Sound crypto flags sess (serverchallengeresp crypto sess tree response) := by
  unfold serverchallengeresp
  split
  · exact failPair_sound sess _ _ trivial
  next hphase =>
    split
    · exact failPair_sound sess _ _ trivial
    · exact failPair_sound sess _ _ trivial
    next key hkey _ =>
      rintro h ⟨t, ht, rfl⟩
      have hp : sess.lastPhase = .clientchallenge := by simpa using hphase
      have hk := ht.key (by rw [hp]; decide)
      have hc := ht.challenge (by rw [hp]; decide)
      have hkey' : key = crypto.pairKey t.salt t.pin := by
        rw [hk.2.2] at hkey
        exact (Option.some.inj hkey).symm
      refine ⟨rfl, rfl, { t with response := response }, ?_, ?_⟩
      · exact ⟨ht.cert, fun _ => hk, fun _ => hc, fun _ => by rw [hkey']; rfl, by simp [PairPhase.rank]⟩
      · simp [hp, PairPhase.rank, Transcript.events]

/-- With the file written and read back, `add_authorized_client` does not throw. -/
theorem addAuthorizedClient_ok (ssl : OpenSSL X509) (freshState : Bool) (gen : ℕ → Str) (name cert : Str)
    (s : Server X509) : ∃ s', addAuthorizedClient ssl freshState gen name cert s = .ok s' := by
  unfold addAuthorizedClient
  dsimp only
  split
  · exact ⟨_, rfl⟩
  · by_cases hfile : s.file = .unreadable
    · simp only [saveState, hfile, loadState]
      exact ⟨_, rfl⟩
    · exact ⟨_, loadState_saveState ssl _ hfile⟩

theorem clientpairingsecret_sound (freshState : Bool) (gen : ℕ → Str) (sess : PairSession) (server : Server X509)
    (tree : Ptree) (secret : Str) :
    Sound crypto flags sess (clientpairingsecret crypto freshState gen sess server tree secret).2 := by
  unfold clientpairingsecret
  split
  · exact failPair_sound sess _ _ trivial
  next hphase =>
    split
    · exact failPair_sound sess _ _ trivial
    next hlen =>
      split
      · exact failPair_sound sess _ _ trivial
      next x hx =>
        have hp : sess.lastPhase = .serverchallengeresp := by simpa using hphase
        dsimp only
        split
        next hok =>
          obtain ⟨server', hserver⟩ := addAuthorizedClient_ok crypto.toOpenSSL freshState gen sess.name sess.cert
            { server with addCert := server.addCert.raise x }
          have hdone : completePairing crypto.toOpenSSL freshState gen sess.name sess.cert x server = .ok server' :=
            hserver
          rw [hdone]
          rintro h ⟨t, ht, rfl⟩
          obtain ⟨hentered, hsalt, -⟩ := ht.key (by rw [hp]; decide)
          have hc := ht.challenge (by rw [hp]; decide)
          have hh := ht.hash (by rw [hp]; decide)
          obtain ⟨hsame, hverify⟩ := Bool.and_eq_true_iff.mp hok
          have hver : ({ t with secret := secret } : Transcript).Verified crypto flags := by
            refine ⟨hentered, hsalt, by simpa using hlen, x, ht.cert ▸ hx, ?_, hverify⟩
            have := of_decide_eq_true hsame
            rw [hc, hh] at this
            exact this
          have := Ended.paired _ hver
          simpa [hp, PairPhase.rank, Transcript.events, hsame, hverify, ht.cert] using this
        next hok =>
          rintro h ⟨t, ht, rfl⟩
          have hended : Ended crypto flags ({ t with secret := secret }.events ++ [.compared _ _]) :=
            Ended.mismatch { t with secret := secret } (by simpa using hok)
          simpa [hp, PairPhase.rank, Transcript.events] using hended

/-! ### The map -/

/-- Every session in the map is in step with its history, and every other history is closed. -/
structure Ordered (crypto : PairCrypto X509) (flags : PairFlags) (s : Pairing X509) : Prop where
  keyed : ∀ uid sess, s.sessions.lookup uid = some sess → sess.uniqueID = uid
  numbered : ∀ uid sess, s.sessions.lookup uid = some sess → sess.serial < s.created
  distinct : ∀ uid sess uid' sess', s.sessions.lookup uid = some sess → s.sessions.lookup uid' = some sess' →
    sess.serial = sess'.serial → uid = uid'
  live : ∀ uid sess, s.sessions.lookup uid = some sess → Accepted crypto flags sess (s.history sess.serial)
  ended : ∀ n < s.created, ¬ s.Live n → Ended crypto flags (s.history n)
  unused : ∀ n, s.created ≤ n → s.history n = []

theorem ordered_boot (server : Server X509) : Ordered crypto flags (.boot server) where
  keyed := by simp [Pairing.boot]
  numbered := by simp [Pairing.boot]
  distinct := by simp [Pairing.boot]
  live := by simp [Pairing.boot]
  ended := by simp [Pairing.boot]
  unused := by simp [Pairing.boot, Pairing.history]

theorem history_append (s : Pairing X509) (n m : ℕ) (events : List PairEvent) :
    ({ s with log := s.log ++ events.map fun e => (m, e) } : Pairing X509).history n =
      s.history n ++ if m = n then events else [] := by
  unfold Pairing.history
  rw [List.filter_append, List.map_append]
  congr 1
  split
  next h => simp [h, List.filter_map, Function.comp_def]
  next h => simp [h, List.filter_map, Function.comp_def]

/-- A session whose new salt, waiting request or name no phase has looked at yet. -/
structure Same (sess sess' : PairSession) : Prop where
  uniqueID : sess'.uniqueID = sess.uniqueID
  serial : sess'.serial = sess.serial
  cert : sess'.cert = sess.cert
  lastPhase : sess'.lastPhase = sess.lastPhase
  cipherKey : sess'.cipherKey = sess.cipherKey
  serverchallenge : sess'.serverchallenge = sess.serverchallenge
  clienthash : sess'.clienthash = sess.clienthash

theorem Same.accepted {sess sess' : PairSession} (h : Same sess sess') {hist : List PairEvent}
    (ha : Accepted crypto flags sess hist) : Accepted crypto flags sess' hist := by
  obtain ⟨t, ht, rfl⟩ := ha
  refine ⟨t, ⟨h.cert.trans ht.cert, ?_, ?_, ?_, ?_⟩, by rw [h.lastPhase]⟩
  · rw [h.lastPhase, h.cipherKey]; exact ht.key
  · rw [h.lastPhase, h.serverchallenge]; exact ht.challenge
  · rw [h.lastPhase, h.clienthash]; exact ht.hash
  · rw [h.lastPhase]; exact ht.pending

/-- The session `sess` of the map became `sess'`, and `events` were done to it. -/
structure Replaced (s t : Pairing X509) (uid : Str) (sess : PairSession) (sess' : Option PairSession)
    (events : List PairEvent) : Prop where
  found : s.sessions.lookup uid = some sess
  serial : ∀ u ∈ sess', u.uniqueID = uid ∧ u.serial = sess.serial
  lookup : t.sessions.lookup uid = sess'
  other : ∀ v ≠ uid, t.sessions.lookup v = s.sessions.lookup v
  created : t.created = s.created
  history : ∀ n, t.history n = s.history n ++ if sess.serial = n then events else []

namespace Replaced

variable {s t : Pairing X509} {uid : Str} {sess : PairSession} {sess' : Option PairSession} {events : List PairEvent}

theorem cases (hr : Replaced s t uid sess sess' events) {v : Str} {u : PairSession}
    (hu : t.sessions.lookup v = some u) :
    (v = uid ∧ sess' = some u) ∨ (v ≠ uid ∧ s.sessions.lookup v = some u) := by
  by_cases hv : v = uid
  · subst hv
    exact Or.inl ⟨rfl, hr.lookup ▸ hu⟩
  · exact Or.inr ⟨hv, hr.other v hv ▸ hu⟩

theorem serial_ne (hr : Replaced s t uid sess sess' events) (h : Ordered crypto flags s) {v : Str} {u : PairSession}
    (hv : v ≠ uid) (hu : s.sessions.lookup v = some u) : u.serial ≠ sess.serial :=
  fun heq => hv (h.distinct v u uid sess hu hr.found heq)

theorem ordered (hr : Replaced s t uid sess sess' events) (h : Ordered crypto flags s)
    (hacc : Settled crypto flags sess' (s.history sess.serial ++ events)) : Ordered crypto flags t := by
  refine ⟨?_, ?_, ?_, ?_, ?_, ?_⟩
  · intro v u hu
    obtain ⟨rfl, hnew⟩ | ⟨-, hold⟩ := hr.cases hu
    · exact (hr.serial u hnew).1
    · exact h.keyed v u hold
  · intro v u hu
    rw [hr.created]
    obtain ⟨rfl, hnew⟩ | ⟨-, hold⟩ := hr.cases hu
    · rw [(hr.serial u hnew).2]
      exact h.numbered v sess hr.found
    · exact h.numbered v u hold
  · intro v u v' u' hu hu' heq
    obtain ⟨rfl, hnew⟩ | ⟨hv, hold⟩ := hr.cases hu <;> obtain ⟨rfl, hnew'⟩ | ⟨hv', hold'⟩ := hr.cases hu'
    · rfl
    · rw [(hr.serial u hnew).2] at heq
      exact absurd heq.symm (hr.serial_ne h hv' hold')
    · rw [(hr.serial u' hnew').2] at heq
      exact absurd heq (hr.serial_ne h hv hold)
    · exact h.distinct v u v' u' hold hold' heq
  · intro v u hu
    rw [hr.history]
    obtain ⟨rfl, hnew⟩ | ⟨hv, hold⟩ := hr.cases hu
    · subst hnew
      rw [(hr.serial u rfl).2, if_pos rfl]
      exact hacc
    · rw [if_neg (hr.serial_ne h hv hold).symm, List.append_nil]
      exact h.live v u hold
  · intro n hn hdead
    rw [hr.history]
    by_cases hns : sess.serial = n
    · subst hns
      rw [if_pos rfl]
      cases sess' with
      | none => exact hacc
      | some u => exact absurd ⟨uid, u, hr.lookup, (hr.serial u rfl).2⟩ hdead
    · rw [if_neg hns, List.append_nil]
      refine h.ended n (hr.created ▸ hn) fun ⟨v, u, hu, hun⟩ => ?_
      by_cases hv : v = uid
      · subst hv
        rw [hr.found] at hu
        obtain rfl := Option.some.inj hu
        exact hns hun
      · exact hdead ⟨v, u, (hr.other v hv).trans hu, hun⟩
  · intro n hn
    have hlt := h.numbered uid sess hr.found
    have hn' : s.created ≤ n := hr.created ▸ hn
    rw [hr.history, if_neg (by omega), List.append_nil]
    exact h.unused n hn'

theorem frozen (hr : Replaced s t uid sess sess' events) {n : ℕ} (hdead : ¬ s.Live n) :
    ¬ t.Live n ∧ t.history n = s.history n := by
  have hne : sess.serial ≠ n := fun hn => hdead ⟨uid, sess, hr.found, hn⟩
  constructor
  · rintro ⟨v, u, hu, hun⟩
    obtain ⟨rfl, hnew⟩ | ⟨-, hold⟩ := hr.cases hu
    · exact hne ((hr.serial u hnew).2.symm.trans hun)
    · exact hdead ⟨v, u, hold, hun⟩
  · rw [hr.history, if_neg hne, List.append_nil]

end Replaced

theorem lookup_settleSession (sess : PairSession) (sessions : AList fun _ : Str => PairSession)
    (sess' : Option PairSession) : (settleSession sess sessions sess').lookup sess.uniqueID = sess' := by
  cases sess' with
  | none => exact AList.lookup_erase _ _
  | some u => exact AList.lookup_insert _

theorem lookup_settleSession_of_ne {sess : PairSession} {uid : Str} (h : uid ≠ sess.uniqueID)
    (sessions : AList fun _ : Str => PairSession) (sess' : Option PairSession) :
    (settleSession sess sessions sess').lookup uid = sessions.lookup uid := by
  cases sess' with
  | none => exact AList.lookup_erase_ne h
  | some u => exact AList.lookup_insert_ne h

/-- A sound phase on a session of the map, whatever request it waits for. -/
theorem Ordered.replaced_after {s : Pairing X509} (h : Ordered crypto flags s) {uid : Str} {sess sess' : PairSession}
    (hsess : s.sessions.lookup uid = some sess) (hsame : Same sess sess') {phase : Phase}
    (hphase : Sound crypto flags sess' phase) (server : Server X509) :
    Replaced s (s.after server sess' phase) uid sess phase.1 phase.2.2 ∧
      Settled crypto flags phase.1 (s.history sess.serial ++ phase.2.2) := by
  have huid : sess'.uniqueID = uid := hsame.uniqueID.trans (h.keyed uid sess hsess)
  have hsound := hphase _ (hsame.accepted (h.live uid sess hsess))
  refine ⟨⟨hsess, ?_, ?_, ?_, rfl, ?_⟩, ?_⟩
  · intro u hu
    rw [hu] at hsound
    exact ⟨hsound.1.trans huid, hsound.2.1.trans hsame.serial⟩
  · rw [← huid]
    exact lookup_settleSession _ _ _
  · intro v hv
    exact lookup_settleSession_of_ne (huid ▸ hv) _ _
  · intro n
    rw [← hsame.serial]
    exact history_append s n sess'.serial phase.2.2
  · cases hp : phase.1 with
    | none => rw [hp] at hsound; exact hsound
    | some u => rw [hp] at hsound; exact hsound.2.2

theorem Ordered.replaced_store {s : Pairing X509} (h : Ordered crypto flags s) {uid : Str}
    {sess sess' : PairSession} (hsess : s.sessions.lookup uid = some sess) (hsame : Same sess sess') :
    Replaced s { s with sessions := s.sessions.insert uid sess' } uid sess (some sess') [] where
  found := hsess
  serial u hu := by
    obtain rfl := Option.some.inj hu
    exact ⟨hsame.uniqueID.trans (h.keyed uid sess hsess), hsame.serial⟩
  lookup := AList.lookup_insert _
  other v hv := AList.lookup_insert_ne hv
  created := rfl
  history n := by
    rw [ite_self, List.append_nil]
    rfl

/-! ### A new session -/

/-- The session that `getservercert` creates. -/
def newSession (s : Pairing X509) (uid clientcert : Str) : PairSession :=
  { uniqueID := uid, cert := fromHexVec clientcert true, serial := s.created }

theorem emplace_of_lookup_none {s : Pairing X509} {uid : Str} (h : s.sessions.lookup uid = none) (clientcert : Str) :
    emplace uid clientcert s =
      ({ s with
        sessions := s.sessions.insert uid (newSession s uid clientcert)
        created := s.created + 1
        log := s.log ++ [(s.created, .created (fromHexVec clientcert true))] }, newSession s uid clientcert) := by
  unfold emplace
  rw [h]
  rfl

/-- `t` is `s` with a new session under the unused id `uid`. -/
structure Created (s t : Pairing X509) (uid : Str) (sess : PairSession) : Prop where
  absent : s.sessions.lookup uid = none
  sessions : t.sessions = s.sessions.insert uid sess
  created : t.created = s.created + 1
  history : ∀ n, t.history n = s.history n ++ if s.created = n then [.created sess.cert] else []
  uniqueID : sess.uniqueID = uid
  serial : sess.serial = s.created
  lastPhase : sess.lastPhase = .none

namespace Created

variable {s t : Pairing X509} {uid : Str} {sess : PairSession}

theorem cases (hc : Created s t uid sess) {v : Str} {u : PairSession} (hu : t.sessions.lookup v = some u) :
    (v = uid ∧ u = sess) ∨ (v ≠ uid ∧ s.sessions.lookup v = some u) := by
  rw [hc.sessions] at hu
  by_cases hv : v = uid
  · subst hv
    rw [AList.lookup_insert] at hu
    exact Or.inl ⟨rfl, (Option.some.inj hu).symm⟩
  · exact Or.inr ⟨hv, AList.lookup_insert_ne hv ▸ hu⟩

theorem live_of_live (hc : Created s t uid sess) {n : ℕ} (h : s.Live n) : t.Live n := by
  obtain ⟨v, u, hu, hun⟩ := h
  have hv : v ≠ uid := by
    rintro rfl
    rw [hc.absent] at hu
    cases hu
  exact ⟨v, u, by rw [hc.sessions, AList.lookup_insert_ne hv, hu], hun⟩

theorem ordered (hc : Created s t uid sess) (h : Ordered crypto flags s) : Ordered crypto flags t := by
  refine ⟨?_, ?_, ?_, ?_, ?_, ?_⟩
  · intro v u hu
    obtain ⟨rfl, rfl⟩ | ⟨-, hold⟩ := hc.cases hu
    · exact hc.uniqueID
    · exact h.keyed v u hold
  · intro v u hu
    rw [hc.created]
    obtain ⟨rfl, rfl⟩ | ⟨-, hold⟩ := hc.cases hu
    · have := hc.serial
      omega
    · exact Nat.lt_succ_of_lt (h.numbered v u hold)
  · intro v u v' u' hu hu' heq
    have hserial := hc.serial
    obtain ⟨rfl, rfl⟩ | ⟨-, hold⟩ := hc.cases hu <;> obtain ⟨rfl, rfl⟩ | ⟨-, hold'⟩ := hc.cases hu'
    · rfl
    · have hlt := h.numbered v' u' hold'
      omega
    · have hlt := h.numbered v u hold
      omega
    · exact h.distinct v u v' u' hold hold' heq
  · intro v u hu
    rw [hc.history]
    obtain ⟨rfl, rfl⟩ | ⟨-, hold⟩ := hc.cases hu
    · have hrank : u.lastPhase.rank = 1 := by rw [hc.lastPhase]; rfl
      rw [hc.serial, h.unused _ le_rfl, if_pos rfl]
      refine ⟨⟨u.cert, [], [], [], [], [], []⟩, ⟨rfl, ?_, ?_, ?_, by omega⟩, by rw [hrank]; rfl⟩
      · omega
      · omega
      · omega
    · have hlt := h.numbered v u hold
      rw [if_neg (by omega), List.append_nil]
      exact h.live v u hold
  · intro n hn hdead
    have hne : s.created ≠ n := by
      rintro rfl
      exact hdead ⟨uid, sess, by rw [hc.sessions, AList.lookup_insert], hc.serial⟩
    have hn' : n < s.created := by
      have := hc.created
      omega
    rw [hc.history, if_neg hne, List.append_nil]
    exact h.ended n hn' fun hlive => hdead (hc.live_of_live hlive)
  · intro n hn
    have hcreated := hc.created
    rw [hc.history, if_neg (by omega), List.append_nil]
    exact h.unused n (by omega)

theorem frozen (hc : Created s t uid sess) {n : ℕ} (hn : n < s.created) (hdead : ¬ s.Live n) :
    ¬ t.Live n ∧ t.history n = s.history n := by
  constructor
  · rintro ⟨v, u, hu, hun⟩
    obtain ⟨rfl, rfl⟩ | ⟨-, hold⟩ := hc.cases hu
    · have := hc.serial
      omega
    · exact hdead ⟨v, u, hold, hun⟩
  · rw [hc.history, if_neg (by omega), List.append_nil]

end Created

/-! ### What a request can do -/

/-- The changes that requests are made of. -/
inductive Change (crypto : PairCrypto X509) (flags : PairFlags) (s : Pairing X509) : Pairing X509 → Prop
  | create {uid : Str} (clientcert : Str) (habsent : s.sessions.lookup uid = none) :
    Change crypto flags s (emplace uid clientcert s).1
  | store {uid : Str} {sess sess' : PairSession} (hsess : s.sessions.lookup uid = some sess)
    (hsame : Same sess sess') : Change crypto flags s { s with sessions := s.sessions.insert uid sess' }
  | phase {uid : Str} {sess sess' : PairSession} (hsess : s.sessions.lookup uid = some sess) (hsame : Same sess sess')
    {phase : Phase} (hphase : Sound crypto flags sess' phase) (server : Server X509) :
    Change crypto flags s (s.after server sess' phase)

/-- The state `t` is reached from `s` by some changes. -/
abbrev Changes (crypto : PairCrypto X509) (flags : PairFlags) : Pairing X509 → Pairing X509 → Prop :=
  Relation.ReflTransGen (Change crypto flags)

theorem created_emplace {s : Pairing X509} {uid : Str} (habsent : s.sessions.lookup uid = none) (clientcert : Str) :
    Created s (emplace uid clientcert s).1 uid (newSession s uid clientcert) := by
  rw [emplace_of_lookup_none habsent]
  exact ⟨habsent, rfl, rfl, fun n => history_append s n s.created [.created (fromHexVec clientcert true)], rfl,
    rfl, rfl⟩

theorem Change.ordered {s t : Pairing X509} (hst : Change crypto flags s t) (h : Ordered crypto flags s) :
    Ordered crypto flags t := by
  cases hst with
  | create clientcert habsent => exact (created_emplace habsent clientcert).ordered h
  | store hsess hsame =>
    refine (h.replaced_store hsess hsame).ordered h ?_
    rw [List.append_nil]
    exact hsame.accepted (h.live _ _ hsess)
  | phase hsess hsame hphase server =>
    obtain ⟨hr, hacc⟩ := h.replaced_after hsess hsame hphase server
    exact hr.ordered h hacc

theorem Change.frozen {s t : Pairing X509} (hst : Change crypto flags s t) (h : Ordered crypto flags s) {n : ℕ}
    (hn : n < s.created) (hdead : ¬ s.Live n) : n < t.created ∧ ¬ t.Live n ∧ t.history n = s.history n := by
  cases hst with
  | create clientcert habsent =>
    have hc := created_emplace habsent clientcert
    exact ⟨by rw [hc.created]; omega, hc.frozen hn hdead⟩
  | store hsess hsame => exact ⟨hn, (h.replaced_store hsess hsame).frozen hdead⟩
  | phase hsess hsame hphase server => exact ⟨hn, (h.replaced_after hsess hsame hphase server).1.frozen hdead⟩

theorem ordered_of_changes {s t : Pairing X509} (hst : Changes crypto flags s t) (h : Ordered crypto flags s) :
    Ordered crypto flags t := by
  induction hst with
  | refl => exact h
  | tail _ hchange ih => exact hchange.ordered ih

theorem frozen_of_changes {s t : Pairing X509} (hst : Changes crypto flags s t) (h : Ordered crypto flags s) {n : ℕ}
    (hn : n < s.created) (hdead : ¬ s.Live n) : n < t.created ∧ ¬ t.Live n ∧ t.history n = s.history n := by
  induction hst with
  | refl => exact ⟨hn, hdead, rfl⟩
  | tail hchanges hchange ih =>
    obtain ⟨hn', hdead', hhist⟩ := ih
    obtain ⟨hn'', hdead'', hhist'⟩ := hchange.frozen (ordered_of_changes hchanges h) hn' hdead'
    exact ⟨hn'', hdead'', hhist'.trans hhist⟩

theorem changes_emplace (crypto : PairCrypto X509) (flags : PairFlags) (uid clientcert : Str) (s : Pairing X509) :
    Changes crypto flags s (emplace uid clientcert s).1 ∧
      (emplace uid clientcert s).1.sessions.lookup uid = some (emplace uid clientcert s).2 := by
  cases hlook : s.sessions.lookup uid with
  | some sess =>
    have heq : emplace uid clientcert s = (s, sess) := by
      unfold emplace
      rw [hlook]
    rw [heq]
    exact ⟨.refl, hlook⟩
  | none =>
    refine ⟨.single (.create clientcert hlook), ?_⟩
    rw [emplace_of_lookup_none hlook]
    exact AList.lookup_insert _

theorem changes_pairGetservercert (draw : Draw) (request : ℕ) (uid : Str) (args : Args) (s : Pairing X509) :
    Changes crypto flags s (pairGetservercert crypto flags draw request uid args s).1 := by
  unfold pairGetservercert
  split
  · exact .refl
  next clientcert _ =>
    obtain ⟨hemplace, hlook⟩ := changes_emplace crypto flags uid clientcert s
    dsimp only
    split
    · exact hemplace
    next salt _ =>
      have hsame : Same (emplace uid clientcert s).2 { (emplace uid clientcert s).2 with salt := salt } :=
        ⟨rfl, rfl, rfl, rfl, rfl, rfl, rfl⟩
      split
      next hstdin => exact hemplace.tail (.phase hlook hsame (getservercert_sound _ _ (Or.inl hstdin)) _)
      · exact hemplace.tail (.store hlook ⟨rfl, rfl, rfl, rfl, rfl, rfl, rfl⟩)

theorem changes_pairContinue (draw : Draw) (args : Args) {s : Pairing X509} {uid : Str} {sess : PairSession}
    (hsess : s.sessions.lookup uid = some sess) :
    Changes crypto flags s (pairContinue crypto flags draw args sess s).1 := by
  have hsame : Same sess sess := ⟨rfl, rfl, rfl, rfl, rfl, rfl, rfl⟩
  unfold pairContinue
  split
  · exact .single (.phase hsess hsame (clientchallenge_sound _ _ _ _ _) _)
  · exact .single (.phase hsess hsame (serverchallengeresp_sound _ _ _) _)
  · exact .single (.phase hsess hsame (clientpairingsecret_sound _ _ _ _ _ _) _)
  · exact .refl

theorem changes_pair (draw : Draw) (request : ℕ) (args : Args) (s : Pairing X509) :
    Changes crypto flags s (pair crypto flags draw request args s).1 := by
  unfold pair
  split
  · exact .refl
  · split
    · exact changes_pairGetservercert _ _ _ _ _
    · split
      · exact .refl
      · split
        · exact .refl
        next hsess => exact changes_pairContinue _ _ hsess

theorem changes_pin (first digits name : Str) (s : Pairing X509) :
    Changes crypto flags s (pin crypto first digits name s).1 := by
  unfold pin
  split
  · exact .refl
  next sess hsess =>
    have hsame : Same sess sess := ⟨rfl, rfl, rfl, rfl, rfl, rfl, rfl⟩
    split
    · exact .refl
    next hvalid =>
      have hsound : Sound crypto flags sess (getservercert crypto sess .empty digits) :=
        getservercert_sound sess .empty (Or.inr (by simpa using hvalid))
      split
      next heq => exact .single (.phase hsess hsame (heq ▸ hsound) _)
      next sess' tree events heq =>
        refine .single (.phase hsess hsame (fun hist hacc => ?_) _)
        rw [heq] at hsound
        obtain ⟨huid, hserial, hacc'⟩ := hsound hist hacc
        have hnamed : Same sess' { sess' with name := name, response := none } := ⟨rfl, rfl, rfl, rfl, rfl, rfl, rfl⟩
        exact ⟨huid, hserial, hnamed.accepted hacc'⟩

theorem changes_step {s t : Pairing X509} {op : PairOp} (hstep : PairStep crypto flags s op t) :
    Changes crypto flags s t := by
  cases op with
  | pair draw request args =>
    obtain rfl := Option.some.inj hstep
    exact changes_pair draw request args s
  | pin first digits name =>
    simp only [ofPartial, PairOp.run] at hstep
    split at hstep
    · obtain rfl := Option.some.inj hstep
      exact changes_pin first digits name s
    · cases hstep

theorem changes_run {s t : Pairing X509} {ops : List PairOp} (hrun : Run (PairStep crypto flags) s ops t) :
    Changes crypto flags s t := by
  induction hrun with
  | nil => exact .refl
  | snoc _ hstep ih => exact ih.trans (changes_step hstep)

/-! ### The paired clients -/

/-- The last phase leaves the paired clients alone or adds one. -/
theorem clientpairingsecret_server (crypto : PairCrypto X509) (freshState : Bool) (gen : ℕ → Str) (sess : PairSession)
    (server : Server X509)
    (tree : Ptree) (secret : Str) :
    (clientpairingsecret crypto freshState gen sess server tree secret).1 = server ∨
      Step crypto.toOpenSSL freshState server (.pair gen sess.name sess.cert)
        (clientpairingsecret crypto freshState gen sess server tree secret).1 := by
  unfold clientpairingsecret
  split
  · exact Or.inl rfl
  · split
    · exact Or.inl rfl
    · split
      · exact Or.inl rfl
      next x hx =>
        dsimp only
        split
        · refine Or.inr ?_
          simp only [Step, ofPartial, Op.run, hx, Option.map_some]
          split <;> rename_i hdone <;> rw [hdone] <;> rfl
        · exact Or.inl rfl

/-- What a request does to the paired clients: nothing, or one completed pairing. -/
def AtMostPairs (ssl : OpenSSL X509) (freshState : Bool) (server server' : Server X509) : Prop :=
  server' = server ∨ ∃ gen name cert, Step ssl freshState server (.pair gen name cert) server'

theorem pairContinue_server (draw : Draw) (args : Args) (sess : PairSession) (s : Pairing X509) :
    AtMostPairs crypto.toOpenSSL flags.freshState s.server (pairContinue crypto flags draw args sess s).1.server := by
  unfold pairContinue
  split
  · exact Or.inl rfl
  · exact Or.inl rfl
  next secret _ _ _ =>
    rcases clientpairingsecret_server crypto flags.freshState draw.gen sess s.server .empty (fromHexVec secret true)
      with heq | hstep
    · exact Or.inl heq
    · exact Or.inr ⟨_, _, _, hstep⟩
  · exact Or.inl rfl

@[simp] theorem emplace_server (uid clientcert : Str) (s : Pairing X509) :
    (emplace uid clientcert s).1.server = s.server := by
  unfold emplace
  split <;> rfl

@[simp] theorem pairGetservercert_server (draw : Draw) (request : ℕ) (uid : Str) (args : Args) (s : Pairing X509) :
    (pairGetservercert crypto flags draw request uid args s).1.server = s.server := by
  unfold pairGetservercert
  split
  · rfl
  · dsimp only
    split
    · exact emplace_server _ _ _
    · split <;> exact emplace_server _ _ _

@[simp] theorem pin_server (first digits name : Str) (s : Pairing X509) :
    (pin crypto first digits name s).1.server = s.server := by
  unfold pin
  split
  · rfl
  · split
    · rfl
    · split <;> rfl

/-- Pairing refines the system of paired clients. -/
theorem server_step {s t : Pairing X509} {op : PairOp} (hstep : PairStep crypto flags s op t) :
    AtMostPairs crypto.toOpenSSL flags.freshState s.server t.server := by
  cases op with
  | pair draw request args =>
    obtain rfl := Option.some.inj hstep
    unfold pair
    split
    · exact Or.inl rfl
    · split
      · exact Or.inl (pairGetservercert_server draw request _ args s)
      · split
        · exact Or.inl rfl
        · split
          · exact Or.inl rfl
          · exact pairContinue_server _ _ _ _
  | pin first digits name =>
    simp only [ofPartial, PairOp.run] at hstep
    split at hstep
    · obtain rfl := Option.some.inj hstep
      exact Or.inl (pin_server first digits name s)
    · cases hstep

/-- **Pairing keeps the chain and the list in step**, whatever requests come in whatever order. -/
theorem inStep_of_pairing {s t : Pairing X509} {ops : List PairOp} (hfresh : flags.freshState = false)
    (hrun : Run (PairStep crypto flags) s ops t) (h : InStep crypto.toOpenSSL s.server) :
    InStep crypto.toOpenSSL t.server := by
  refine hrun.invariant (I := fun s => InStep crypto.toOpenSSL s.server) (fun s _ t hs hstep => ?_) h
  rcases server_step hstep with heq | ⟨gen, name, cert, hpair⟩
  · rw [heq]
    exact hs
  · have hguard : NothingStale crypto.toOpenSSL s.server (.pair gen name cert) := trivial
    rw [hfresh] at hpair
    exact inStep_step hs hguard hpair

/-! ### Reading a history -/

/-- Is the event a comparison of the client hash. -/
def PairEvent.isCompared : PairEvent → Bool
  | compared .. => true
  | _ => false

/-- Is the event the entry of a PIN. -/
def PairEvent.isPinEntry : PairEvent → Bool
  | getservercert .. => true
  | _ => false

/-- Is the event an error of the session. -/
def PairEvent.isFailure : PairEvent → Bool
  | failPair => true
  | compared same verified => !(same && verified)
  | _ => false

namespace Transcript

lemma not_isCompared {t : Transcript} {k : ℕ} {e : PairEvent} (he : e ∈ t.events.take k) :
    e.isCompared = false ∧ e.isFailure = false ∧ ∀ c, e ≠ .addAuthorizedClient c := by
  have hmem := List.mem_of_mem_take he
  simp only [events, List.mem_cons, List.not_mem_nil, or_false] at hmem
  rcases hmem with rfl | rfl | rfl | rfl | rfl <;> exact ⟨rfl, rfl, fun c h => by cases h⟩

lemma countP_isCompared (t : Transcript) (k : ℕ) : (t.events.take k).countP PairEvent.isCompared = 0 :=
  List.countP_eq_zero.mpr fun _ he => by simp [(not_isCompared he).1]

end Transcript

lemma PairEvent.IsCall.not_isCompared {e : PairEvent} (h : e.IsCall) :
    e.isCompared = false ∧ ∀ c, e ≠ .addAuthorizedClient c := by
  cases e <;> first | exact h.elim | exact ⟨rfl, fun c h => by cases h⟩

theorem Accepted.mem {sess : PairSession} {h : List PairEvent} (ha : Accepted crypto flags sess h) {e : PairEvent}
    (he : e ∈ h) : e.isCompared = false ∧ e.isFailure = false ∧ ∀ c, e ≠ .addAuthorizedClient c := by
  obtain ⟨t, -, rfl⟩ := ha
  exact Transcript.not_isCompared he

/-- A closed history authorizes a client only as its last event, after the whole sequence and all checks. -/
theorem Ended.authorized {h : List PairEvent} (he : Ended crypto flags h) {c : Str}
    (hc : .addAuthorizedClient c ∈ h) :
    ∃ t : Transcript, t.cert = c ∧ t.Verified crypto flags ∧
      h = t.events ++ [.compared true true, .addAuthorizedClient c] := by
  cases he with
  | failed t hk hk' hcall =>
    rcases List.mem_append.mp hc with hc | hc
    · exact absurd rfl ((Transcript.not_isCompared hc).2.2 c)
    · simp only [List.mem_cons, List.not_mem_nil, or_false, reduceCtorEq] at hc
      exact absurd hc.symm (hcall.not_isCompared.2 c)
  | mismatch t hne =>
    simp [Transcript.events] at hc
  | paired t hver =>
    have hcert : t.cert = c := by
      simp only [Transcript.events, List.mem_append, List.mem_cons, List.not_mem_nil, or_false, reduceCtorEq,
        PairEvent.addAuthorizedClient.injEq, false_or] at hc
      exact hc.symm
    exact ⟨t, hcert, hver, by rw [hcert]⟩

/-- A closed history has at most one comparison, and then exactly one PIN was entered. -/
theorem Ended.countP_isCompared {h : List PairEvent} (he : Ended crypto flags h) :
    h.countP PairEvent.isCompared = 0 ∨
      (h.countP PairEvent.isCompared = 1 ∧ h.countP PairEvent.isPinEntry = 1) := by
  cases he with
  | failed t hk hk' hcall =>
    left
    have hc := hcall.not_isCompared.1
    have hf : PairEvent.failPair.isCompared = false := rfl
    rw [List.countP_append, Transcript.countP_isCompared]
    simp [hc, hf]
  | mismatch t hne =>
    right
    simp [Transcript.events, List.countP_cons, PairEvent.isCompared, PairEvent.isPinEntry]
  | paired t hver =>
    right
    simp [Transcript.events, List.countP_cons, PairEvent.isCompared, PairEvent.isPinEntry]

theorem Ordered.history_cases {s : Pairing X509} (h : Ordered crypto flags s) (n : ℕ) :
    s.history n = [] ∨ (∃ sess, Accepted crypto flags sess (s.history n)) ∨ Ended crypto flags (s.history n) := by
  by_cases hn : s.created ≤ n
  · exact Or.inl (h.unused n hn)
  · by_cases hlive : s.Live n
    · obtain ⟨uid, sess, hsess, rfl⟩ := hlive
      exact Or.inr (Or.inl ⟨sess, h.live uid sess hsess⟩)
    · exact Or.inr (Or.inr (h.ended n (by omega) hlive))

/-! ### The main result -/

/-- **Pairing order.**  In every run of requests and PIN entries: a client is authorized only as the end of a session
that was created with its certificate and went through the four phases once, in order, with all checks passed; a
session compares the client hash at most once, after a single PIN entry; a session in the map has accepted a beginning
of the sequence and has met no failure; and a session that was removed is never continued. -/
theorem pairing_order {server : Server X509} {ops : List PairOp} {s : Pairing X509}
    (hrun : Run (PairStep crypto flags) (.boot server) ops s) :
    (∀ n c, .addAuthorizedClient c ∈ s.history n → ∃ t : Transcript, t.cert = c ∧ t.Verified crypto flags ∧
      s.history n = t.events ++ [.compared true true, .addAuthorizedClient c]) ∧
    (∀ n, (s.history n).countP PairEvent.isCompared = 0 ∨
      ((s.history n).countP PairEvent.isCompared = 1 ∧ (s.history n).countP PairEvent.isPinEntry = 1)) ∧
    (∀ uid sess, s.sessions.lookup uid = some sess →
      ∃ t : Transcript, t.cert = sess.cert ∧ s.history sess.serial = t.events.take sess.lastPhase.rank) ∧
    (∀ n, (∃ e ∈ s.history n, e.isFailure = true) → ¬ s.Live n) ∧
    (∀ n < s.created, ¬ s.Live n → ∀ ops' s', Run (PairStep crypto flags) s ops' s' →
      ¬ s'.Live n ∧ s'.history n = s.history n) := by
  have h : Ordered crypto flags s := ordered_of_changes (changes_run hrun) (ordered_boot server)
  refine ⟨?_, ?_, ?_, ?_, ?_⟩
  · intro n c hc
    obtain hnil | ⟨sess, hacc⟩ | hended := h.history_cases n
    · rw [hnil] at hc
      cases hc
    · exact absurd rfl ((hacc.mem hc).2.2 c)
    · exact hended.authorized hc
  · intro n
    obtain hnil | ⟨sess, hacc⟩ | hended := h.history_cases n
    · rw [hnil]
      exact Or.inl rfl
    · obtain ⟨t, -, ht⟩ := hacc
      rw [ht]
      exact Or.inl (t.countP_isCompared _)
    · exact hended.countP_isCompared
  · intro uid sess hsess
    obtain ⟨t, ht, hhist⟩ := h.live uid sess hsess
    exact ⟨t, ht.cert.symm, hhist⟩
  · rintro n ⟨e, he, hfail⟩ ⟨uid, sess, hsess, rfl⟩
    have := ((h.live uid sess hsess).mem he).2.1
    rw [hfail] at this
    cases this
  · intro n hn hdead ops' s' hrun'
    exact (frozen_of_changes (changes_run hrun') h hn hdead).2

/-- One-byte certificates that are their own signature, and a cipher and a hash that change nothing. -/
def byteCrypto : PairCrypto UInt8 where
  toOpenSSL := byteSSL
  hash := id
  ecbEncrypt _ plaintext := plaintext
  ecbDecrypt _ cipher := cipher
  signature x := [x]
  verify256 x _ sign := sign = [x]
  servercert := [1]
  serverSignature := [1]
  sign256 _ := [1]

/-- A client of the certificate `07` pairs with the PIN 1234 and the server challenge `05`. -/
def pairOnce : List PairOp :=
  let draw : Draw := { serversecret := [3], serverchallenge := [5], gen := fun _ => [8], stdinPin := [] }
  let request (args : List (String × String)) : PairOp :=
    .pair draw 0 ((("uniqueid", "a") :: args).map fun arg => (str arg.1, str arg.2))
  [request [("phrase", "getservercert"), ("clientcert", "07"), ("salt", "00000000000000000000000000000000")],
    .pin (str "a") (str "1234") (str "tv"),
    request [("clientchallenge", "11")],
    request [("serverchallengeresp", "050700000000000000000000000000000000")],
    request [("clientpairingsecret", "0000000000000000000000000000000007")]]

theorem pairing_order_once :
    ∃ s, Run (PairStep byteCrypto {}) (.boot (.boot .absent)) pairOnce s ∧
      .addAuthorizedClient [7] ∈ s.history 0 ∧
      ∃ t : Transcript, t.cert = [7] ∧ t.Verified byteCrypto {} ∧
        s.history 0 = t.events ++ [.compared true true, .addAuthorizedClient [7]] := by
  have hrun := exists_run_execWhere (f := fun (s : Pairing UInt8) (op : PairOp) => op.run byteCrypto {} s)
    (G := fun _ _ => True) (s := .boot (.boot .absent)) (l := pairOnce) (by decide)
  exact ⟨_, hrun.of_guarded, by decide, (pairing_order hrun.of_guarded).1 0 [7] (by decide)⟩

end MidnightSun.Nvhttp
