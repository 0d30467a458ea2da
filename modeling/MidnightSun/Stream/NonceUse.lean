import MidnightSun.Lib.Nonce
import MidnightSun.Stream.Wire

/-!
# Key and vector uniqueness

All messages of a launch session are encrypted under one key: its RTSP responses, and the control messages and video
shards of every stream session created from it.  The vectors are those of the deterministic construction, with the
fixed fields `HR`, `HC` and `V`, so they are unique exactly when no two stream sessions use the same field.
-/

namespace MidnightSun.Stream

open Lib Net Rtsp

/-! ### The three uses of a key -/

/-- What the fixed field of a vector says. -/
inductive Use where
  | rtsp
  | control
  | video
  deriving DecidableEq

lemma sequenceIv_eq_iff {seq seq' : BitVec 32} {fixed : String} : sequenceIv seq fixed = sequenceIv seq' fixed ↔
    seq = seq' := by
  constructor
  · intro h
    have hbytes := (List.append_inj (List.append_cancel_right h) (by simp)).1
    exact BitVec.eq_of_toNat_eq ((leBytes_inj seq.isLt seq'.isLt).mp hbytes)
  · rintro rfl
    rfl

lemma videoIv_eq_iff {counter counter' : BitVec 64} : videoIv counter = videoIv counter' ↔ counter = counter' := by
  constructor
  · intro h
    have hbytes := (List.append_inj (List.append_cancel_right h) (by simp)).1
    exact BitVec.eq_of_toNat_eq ((leBytes_inj counter.isLt counter'.isLt).mp hbytes)
  · rintro rfl
    rfl

lemma ofNat_eq_iff {w x y : ℕ} : BitVec.ofNat w x = BitVec.ofNat w y ↔ x % 2 ^ w = y % 2 ^ w := by
  rw [← BitVec.toNat_inj, BitVec.toNat_ofNat, BitVec.toNat_ofNat]

/-- The vector of the message with the number `j` of one use; the RTSP counter is incremented first. -/
def streamNonce : Use → ℕ → Str
  | .rtsp, j => sequenceIv (BitVec.ofNat 32 (j + 1)) "HR"
  | .control, j => sequenceIv (BitVec.ofNat 32 j) "HC"
  | .video, j => videoIv (BitVec.ofNat 64 j)

lemma getLast?_streamNonce (F : Use) (j : ℕ) :
    (streamNonce F j).getLast? = some (match F with | .rtsp => 82 | .control => 67 | .video => 86) := by
  cases F <;> simp [streamNonce, sequenceIv, videoIv, str]

lemma length_streamNonce (F : Use) (j : ℕ) : (streamNonce F j).length = 12 := by
  cases F <;> simp [streamNonce, sequenceIv, videoIv, str]

/-- The construction of the vectors. -/
def streamScheme : NonceScheme Use Str where
  period
    | .rtsp => 2 ^ 32
    | .control => 2 ^ 32
    | .video => 2 ^ 64
  period_pos F := by cases F <;> decide
  nonce := streamNonce
  nonce_eq_iff F F' j j' := by
    by_cases hF : F = F'
    · subst hF
      rw [eq_self_iff_true, true_and]
      cases F with
      | rtsp =>
        rw [streamNonce, streamNonce, sequenceIv_eq_iff, ofNat_eq_iff]
        change _ ↔ j % 2 ^ 32 = j' % 2 ^ 32
        omega
      | control => rw [streamNonce, streamNonce, sequenceIv_eq_iff, ofNat_eq_iff]
      | video => rw [streamNonce, streamNonce, videoIv_eq_iff, ofNat_eq_iff]
    · constructor
      · intro h
        have hlast := congrArg List.getLast? h
        rw [getLast?_streamNonce, getLast?_streamNonce] at hlast
        cases F <;> cases F' <;> first | exact absurd rfl hF | simp at hlast
      · rintro ⟨h, -⟩
        exact absurd h hF

/-! ### Senders -/

/-- Who encrypts with the key of a launch session: its RTSP sockets, and the control and video streams of its stream
sessions. -/
inductive GcmSender where
  | rtsp
  | control (k : ℕ)
  | video (k : ℕ)
  deriving DecidableEq

def GcmSender.use : GcmSender → Use
  | rtsp => .rtsp
  | control _ => .control
  | video _ => .video

def Sender.gcm? : Sender → Option GcmSender
  | rtsp => some .rtsp
  | control k => some (.control k)
  | video k => some (.video k)
  | audio _ => none

/-- The session encrypts its control messages with `SS_ENC_CONTROL_V2`. -/
def Session.encryptsControl (ss : EncryptionFlags) (s : Session) : Prop :=
  s.config.controlProtocolType = 13 ∧ s.config.enables ss.controlV2 = true

instance (ss : EncryptionFlags) (s : Session) : Decidable (s.encryptsControl ss) := by
  unfold Session.encryptsControl; infer_instance

lemma Session.SameSetup.encryptsControl_iff {ss : EncryptionFlags} {s s' : Session} (h : s.SameSetup s') :
    s'.encryptsControl ss ↔ s.encryptsControl ss := by
  unfold Session.encryptsControl
  rw [h.config]

/-- The counter of each sender that encrypts with the key of the launch session `n`. -/
def World.next (ss : EncryptionFlags) (w : World) (n : ℕ) : GcmSender → Option ℕ
  | .rtsp => w.launches[n]?.bind fun l => if l.rtspCipher then some l.rtspIvCounter.toNat else none
  | .control k =>
    w.sessions[k]?.bind fun s => if s.launch = n ∧ s.encryptsControl ss then some s.controlSeq.toNat else none
  | .video k =>
    w.sessions[k]?.bind fun s => if s.launch = n ∧ s.videoCipher = true then some s.gcmIvCounter.toNat else none

/-- A 12-byte vector that was used with the key of the launch session `n`. -/
def Sent.iv? (n : ℕ) (e : Sent) : Option Str :=
  if e.launch = n then e.message.iv.filter fun iv => iv.length = 12 else none

/-- All 12-byte vectors used with the key of the launch session `n`. -/
def World.ivs (w : World) (n : ℕ) : List Str := w.sent.filterMap (Sent.iv? n)

/-- The same vectors with their senders. -/
def Sent.gcm? (n : ℕ) (e : Sent) : Option (GcmSender × Str) :=
  e.sender.gcm?.bind fun i => (e.iv? n).map fun iv => (i, iv)

def World.gcmLog (w : World) (n : ℕ) : List (GcmSender × Str) := w.sent.filterMap (Sent.gcm? n)

/-- The sender that an operation is about. -/
def Op.gcm? (n : ℕ) : Op → Option GcmSender
  | .request m _ _ => if m = n then some .rtsp else none
  | .control k _ => some (.control k)
  | .shard k _ => some (.video k)
  | _ => none

/-- Who encrypts with the key of the launch session `n` in a step, if anybody does. -/
def World.encrypts (ss : EncryptionFlags) (w : World) (n : ℕ) (op : Op) : Option GcmSender :=
  (op.gcm? n).filter fun i => (w.next ss n i).isSome

/-! ### One message -/

section Functions

variable (lib : Library) (ss : EncryptionFlags)

lemma respond_of_rtspCipher {l : LaunchSession} (h : l.rtspCipher = true) (status : ℕ) :
    (respond lib l status).1.rtspIvCounter = l.rtspIvCounter + 1 ∧
      (respond lib l status).2.iv = some (streamNonce .rtsp l.rtspIvCounter.toNat) := by
  have hsucc : BitVec.ofNat 32 (l.rtspIvCounter.toNat + 1) = l.rtspIvCounter + 1 := by
    apply BitVec.eq_of_toNat_eq
    simp [BitVec.toNat_add]
  unfold respond
  rw [if_pos h]
  exact ⟨rfl, by rw [streamNonce, hsucc]⟩

lemma respond_of_not_rtspCipher {l : LaunchSession} (h : l.rtspCipher = false) (status : ℕ) :
    respond lib l status = (l, { iv := none, wire := .plain (lib.serializeRtspMessage status) }) := by
  unfold respond
  rw [h]
  rfl

lemma encodeControl_gcmIvCounter (s : Session) (plaintext : Str) :
    (encodeControl lib ss s plaintext).1.gcmIvCounter = s.gcmIvCounter := by
  unfold encodeControl
  split <;> rfl

lemma encodeControl_of_encrypts {s : Session} (h : s.encryptsControl ss) (plaintext : Str) :
    (encodeControl lib ss s plaintext).1.controlSeq = s.controlSeq + 1 ∧
      (encodeControl lib ss s plaintext).2.iv = some (streamNonce .control s.controlSeq.toNat) := by
  unfold encodeControl
  rw [if_neg (by simpa using h.1)]
  dsimp only
  rw [if_pos h.2]
  exact ⟨rfl, by simp [streamNonce]⟩

/-- A control message that is not encrypted with `SS_ENC_CONTROL_V2` has no vector, or one of 16 bytes. -/
lemma encodeControl_iv {s : Session} (h : ¬ s.encryptsControl ss) (plaintext : Str) :
    ∀ iv ∈ (encodeControl lib ss s plaintext).2.iv, iv.length = 16 := by
  unfold encodeControl
  split
  · simp
  next hproto =>
    have hv2 : ¬ s.config.enables ss.controlV2 = true := fun hv2 => h ⟨by simpa using hproto, hv2⟩
    dsimp only
    rw [if_neg hv2]
    simp [legacyIv]

lemma sendShard_controlSeq (s : Session) (shard : Str) : (sendShard lib s shard).1.controlSeq = s.controlSeq := by
  unfold sendShard
  split <;> rfl

lemma sendShard_of_videoCipher {s : Session} (h : s.videoCipher = true) (shard : Str) :
    (sendShard lib s shard).1.gcmIvCounter = s.gcmIvCounter + 1 ∧
      (sendShard lib s shard).2.iv = some (streamNonce .video s.gcmIvCounter.toNat) := by
  unfold sendShard
  rw [if_pos h]
  refine ⟨rfl, ?_⟩
  simp [streamNonce]

lemma sendShard_iv {s : Session} (h : ¬ s.videoCipher = true) (shard : Str) : (sendShard lib s shard).2.iv = none := by
  unfold sendShard
  rw [if_neg h]

lemma sendAudio_iv (s : Session) (packet : Str) :
    ∀ message ∈ (sendAudio lib ss s packet).2, ∀ iv ∈ message.iv, iv.length = 16 := by
  unfold sendAudio
  split
  · dsimp only
    split
    · simp [audioIv]
    · simp
  · simp

end Functions

/-! ### One step -/

section Steps

variable {env : AnnounceEnv} {lib : Library} {ss : EncryptionFlags} {w w' : World} {n k : ℕ}

/-- A sender that a step does not concern: its counter stays, or it is new and starts at zero. -/
def Untouched (next next' : GcmSender → Option ℕ) (i : GcmSender) : Prop :=
  next' i = next i ∨ (next i = none ∧ ∀ c, next' i = some c → c = 0)

lemma Untouched.keeps {next next' : GcmSender → Option ℕ} {i : GcmSender} (h : Untouched next next' i) {c : ℕ}
    (hc : next i = some c) : next' i = some c := by
  rcases h with h | ⟨h, -⟩
  · exact h.trans hc
  · rw [h] at hc
    cases hc

lemma Untouched.starts {next next' : GcmSender → Option ℕ} {i : GcmSender} (h : Untouched next next' i) {c : ℕ}
    (hi : next i = none) (hc : next' i = some c) : c = 0 := by
  rcases h with h | ⟨-, h⟩
  · rw [h, hi] at hc
    cases hc
  · exact h c hc

lemma tick_none {next next' : GcmSender → Option ℕ} {log log' : List (GcmSender × Str)}
    (hlog : log' = log) (hother : ∀ i, Untouched next next' i) :
    streamScheme.Tick GcmSender.use next next' log log' none where
  log_eq := by simpa using hlog
  sends i hi := by cases hi
  keeps i _ _ hc := (hother i).keeps hc
  starts i _ hi hc := (hother i).starts hi hc

/-- A step with one message under the key, of the sender `i`. -/
lemma tick_some {next next' : GcmSender → Option ℕ} {log log' : List (GcmSender × Str)} {i : GcmSender} {c c' : ℕ}
    (hc : next i = some c) (hc' : next' i = some c')
    (hsucc : c' % streamScheme.period i.use = (c + 1) % streamScheme.period i.use)
    (hlog : log' = log ++ [(i, streamNonce i.use c)]) (hother : ∀ j ≠ i, Untouched next next' j) :
    streamScheme.Tick GcmSender.use next next' log log' (some i) where
  log_eq := by
    rw [hlog, Option.toList_some, List.map_singleton, hc]
    rfl
  sends j hj := by
    obtain rfl := Option.some.inj hj
    exact ⟨c, c', hc, hc', hsucc⟩
  keeps j d hj hd := (hother j fun h => hj (by rw [h])).keeps hd
  starts j d hj hd := by
    have hne : j ≠ i := by
      rintro rfl
      rw [hc] at hj
      cases hj
    exact (hother j hne).starts hj hd

lemma next_control (ss : EncryptionFlags) {s : Session} (hs : w.sessions[k]? = some s) : w.next ss n (.control k) =
    if s.launch = n ∧ s.encryptsControl ss then some s.controlSeq.toNat else none := by
  rw [World.next, hs, Option.bind_some]

lemma next_video (ss : EncryptionFlags) {s : Session} (hs : w.sessions[k]? = some s) : w.next ss n (.video k) =
    if s.launch = n ∧ s.videoCipher = true then some s.gcmIvCounter.toNat else none := by
  rw [World.next, hs, Option.bind_some]

lemma next_rtsp (ss : EncryptionFlags) {l : LaunchSession} (hl : w.launches[n]? = some l) : w.next ss n .rtsp =
    if l.rtspCipher = true then some l.rtspIvCounter.toNat else none := by
  rw [World.next, hl, Option.bind_some]

/-- The session `k` became `s'`, and no launch session changed. -/
structure SetSession (w w' : World) (k : ℕ) (s s' : Session) : Prop where
  found : w.sessions[k]? = some s
  setup : s.SameSetup s'
  launches : w'.launches = w.launches
  sessions : w'.sessions = w.sessions.set k s'

namespace SetSession

variable {s s' : Session}

lemma getElem? (h : SetSession w w' k s s') : w'.sessions[k]? = some s' := by
  obtain ⟨hk, -⟩ := List.getElem?_eq_some_iff.mp h.found
  rw [h.sessions, List.getElem?_set, if_pos rfl, if_pos hk]

lemma next_other (h : SetSession w w' k s s') {i : GcmSender} (hcontrol : i ≠ .control k) (hvideo : i ≠ .video k) :
    w'.next ss n i = w.next ss n i := by
  cases i with
  | rtsp => rw [World.next, World.next, h.launches]
  | control j =>
    have hj : k ≠ j := fun hkj => hcontrol (by rw [hkj])
    rw [World.next, World.next, h.sessions, List.getElem?_set, if_neg hj]
  | video j =>
    have hj : k ≠ j := fun hkj => hvideo (by rw [hkj])
    rw [World.next, World.next, h.sessions, List.getElem?_set, if_neg hj]

lemma next_control_eq (h : SetSession w w' k s s') : w'.next ss n (.control k) =
    if s.launch = n ∧ s.encryptsControl ss then some s'.controlSeq.toNat else none := by
  simp only [next_control ss h.getElem?, h.setup.launch, h.setup.encryptsControl_iff]

lemma next_video_eq (h : SetSession w w' k s s') : w'.next ss n (.video k) =
    if s.launch = n ∧ s.videoCipher = true then some s'.gcmIvCounter.toNat else none := by
  rw [next_video ss h.getElem?, h.setup.launch, h.setup.videoCipher]

lemma untouched_control (ss : EncryptionFlags) (h : SetSession w w' k s s') (hseq : s'.controlSeq = s.controlSeq) :
    Untouched (w.next ss n) (w'.next ss n) (.control k) := by
  left
  rw [h.next_control_eq, next_control ss h.found, hseq]

lemma untouched_video (ss : EncryptionFlags) (h : SetSession w w' k s s')
    (hcounter : s'.gcmIvCounter = s.gcmIvCounter) :
    Untouched (w.next ss n) (w'.next ss n) (.video k) := by
  left
  rw [h.next_video_eq, next_video ss h.found, hcounter]

end SetSession

/-! ### The messages of a step -/

lemma gcmLog_of_append {u : World} {e : Sent} (h : u.sent = w.sent ++ [e]) :
    u.gcmLog n = w.gcmLog n ++ (e.gcm? n).toList := by
  unfold World.gcmLog
  rw [h, List.filterMap_append]
  congr 1

/-- A message that is not encrypted with the key of the launch session `n` and a 12-byte vector. -/
lemma gcm?_eq_none {e : Sent} (h : e.launch = n → ∀ iv ∈ e.message.iv, iv.length ≠ 12) : e.gcm? n = none := by
  have hiv : e.iv? n = none := by
    unfold Sent.iv?
    split
    next hn =>
      rw [Option.filter_eq_none_iff]
      intro iv hiv
      simpa using h hn iv hiv
    · rfl
  unfold Sent.gcm?
  cases e.sender.gcm? <;> simp [hiv]

lemma gcm?_eq_some {e : Sent} {i : GcmSender} {iv : Str} (hlaunch : e.launch = n) (hsender : e.sender.gcm? = some i)
    (hiv : e.message.iv = some iv) (hlength : iv.length = 12) : e.gcm? n = some (i, iv) := by
  unfold Sent.gcm? Sent.iv?
  rw [if_pos hlaunch, hiv, Option.filter_some, if_pos (by simpa using hlength), hsender]
  rfl

theorem tick_control {s : Session} (hs : w.sessions[k]? = some s) (plaintext : Str)
    (hw : w' = w.sends k (encodeControl lib ss s plaintext).1 (.control k) (encodeControl lib ss s plaintext).2) :
    streamScheme.Tick GcmSender.use (w.next ss n) (w'.next ss n) (w.gcmLog n) (w'.gcmLog n)
      (w.encrypts ss n (.control k plaintext)) := by
  subst hw
  set e := encodeControl lib ss s plaintext with he
  have hset : SetSession w (w.sends k e.1 (.control k) e.2) k s e.1 :=
    ⟨hs, encodeControl_setup lib ss s plaintext, rfl, rfl⟩
  have hlog := gcmLog_of_append (n := n) (w := w) (u := w.sends k e.1 (.control k) e.2) rfl
  have hvideo := hset.untouched_video ss (n := n) (encodeControl_gcmIvCounter lib ss s plaintext)
  have hold := next_control ss (n := n) hs
  by_cases henc : s.launch = n ∧ s.encryptsControl ss
  · obtain ⟨hseq, hiv⟩ := encodeControl_of_encrypts lib ss henc.2 plaintext
    rw [if_pos henc] at hold
    have hsend : w.encrypts ss n (.control k plaintext) = some (.control k) := by simp [World.encrypts, Op.gcm?, hold]
    have hgcm := gcm?_eq_some (n := n) (e := ⟨e.1.launch, .control k, e.2⟩) (hset.setup.launch.trans henc.1) rfl hiv
      (length_streamNonce _ _)
    have hnew : (w.sends k e.1 (.control k) e.2).next ss n (.control k) = some e.1.controlSeq.toNat := by
      rw [hset.next_control_eq, if_pos henc]
    rw [hsend]
    refine tick_some hold hnew ?_ (by rw [hlog, hgcm]; rfl) fun j hj => ?_
    · rw [hseq, BitVec.toNat_add]
      exact Nat.mod_mod _ _
    · by_cases hj' : j = .video k
      · exact hj' ▸ hvideo
      · exact Or.inl (hset.next_other hj hj')
  · rw [if_neg henc] at hold
    have hsend : w.encrypts ss n (.control k plaintext) = none := by simp [World.encrypts, Op.gcm?, hold]
    have hgcm : Sent.gcm? n ⟨e.1.launch, .control k, e.2⟩ = none := by
      refine gcm?_eq_none fun hlaunch iv hiv => ?_
      have hnot : ¬ s.encryptsControl ss := fun h => henc ⟨hset.setup.launch.symm.trans hlaunch, h⟩
      have h16 := encodeControl_iv lib ss hnot plaintext iv hiv
      omega
    rw [hsend]
    refine tick_none (by rw [hlog, hgcm]; exact List.append_nil _) fun j => ?_
    by_cases hj : j = .control k
    · subst hj
      left
      rw [hold, hset.next_control_eq, if_neg henc]
    · by_cases hj' : j = .video k
      · exact hj' ▸ hvideo
      · exact Or.inl (hset.next_other hj hj')

theorem tick_shard {s : Session} (hs : w.sessions[k]? = some s) (shard : Str)
    (hw : w' = w.sends k (sendShard lib s shard).1 (.video k) (sendShard lib s shard).2) :
    streamScheme.Tick GcmSender.use (w.next ss n) (w'.next ss n) (w.gcmLog n) (w'.gcmLog n)
      (w.encrypts ss n (.shard k shard)) := by
  subst hw
  set e := sendShard lib s shard with he
  have hset : SetSession w (w.sends k e.1 (.video k) e.2) k s e.1 := ⟨hs, sendShard_setup lib s shard, rfl, rfl⟩
  have hlog := gcmLog_of_append (n := n) (w := w) (u := w.sends k e.1 (.video k) e.2) rfl
  have hcontrol := hset.untouched_control ss (n := n) (sendShard_controlSeq lib s shard)
  have hold := next_video ss (n := n) hs
  by_cases henc : s.launch = n ∧ s.videoCipher = true
  · obtain ⟨hcounter, hiv⟩ := sendShard_of_videoCipher lib henc.2 shard
    rw [if_pos henc] at hold
    have hsend : w.encrypts ss n (.shard k shard) = some (.video k) := by simp [World.encrypts, Op.gcm?, hold]
    have hgcm := gcm?_eq_some (n := n) (e := ⟨e.1.launch, .video k, e.2⟩) (hset.setup.launch.trans henc.1) rfl hiv
      (length_streamNonce _ _)
    have hnew : (w.sends k e.1 (.video k) e.2).next ss n (.video k) = some e.1.gcmIvCounter.toNat := by
      rw [hset.next_video_eq, if_pos henc]
    rw [hsend]
    refine tick_some hold hnew ?_ (by rw [hlog, hgcm]; rfl) fun j hj => ?_
    · rw [hcounter, BitVec.toNat_add]
      exact Nat.mod_mod _ _
    · by_cases hj' : j = .control k
      · exact hj' ▸ hcontrol
      · exact Or.inl (hset.next_other hj' hj)
  · rw [if_neg henc] at hold
    have hsend : w.encrypts ss n (.shard k shard) = none := by simp [World.encrypts, Op.gcm?, hold]
    have hgcm : Sent.gcm? n ⟨e.1.launch, .video k, e.2⟩ = none := by
      refine gcm?_eq_none fun hlaunch iv hiv => ?_
      have hnot : ¬ s.videoCipher = true := fun h => henc ⟨hset.setup.launch.symm.trans hlaunch, h⟩
      rw [sendShard_iv lib hnot shard] at hiv
      cases hiv
    rw [hsend]
    refine tick_none (by rw [hlog, hgcm]; exact List.append_nil _) fun j => ?_
    by_cases hj : j = .video k
    · subst hj
      left
      rw [hold, hset.next_video_eq, if_neg henc]
    · by_cases hj' : j = .control k
      · exact hj' ▸ hcontrol
      · exact Or.inl (hset.next_other hj' hj)

/-- A step of the session `k` that leaves its counters alone and sends nothing with a 12-byte vector. -/
theorem tick_silent {s s' : Session} (hset : SetSession w w' k s s') (hcounters : s.SameCounters s')
    (hlog : w'.gcmLog n = w.gcmLog n) :
    streamScheme.Tick GcmSender.use (w.next ss n) (w'.next ss n) (w.gcmLog n) (w'.gcmLog n) none := by
  refine tick_none hlog fun i => ?_
  by_cases hcontrol : i = .control k
  · exact hcontrol ▸ hset.untouched_control ss hcounters.controlSeq
  · by_cases hvideo : i = .video k
    · exact hvideo ▸ hset.untouched_video ss hcounters.gcmIvCounter
    · exact Or.inl (hset.next_other hcontrol hvideo)

/-- A new launch session starts at zero. -/
theorem tick_launch {l : LaunchSession} (hlaunches : w'.launches = w.launches ++ [{ l with rtspIvCounter := 0 }])
    (hsessions : w'.sessions = w.sessions) (hsent : w'.sent = w.sent) :
    streamScheme.Tick GcmSender.use (w.next ss n) (w'.next ss n) (w.gcmLog n) (w'.gcmLog n) none := by
  refine tick_none (by rw [World.gcmLog, hsent]; rfl) fun i => ?_
  cases i with
  | rtsp =>
    rw [Untouched, World.next, World.next, hlaunches]
    by_cases hn : n < w.launches.length
    · exact Or.inl (by rw [List.getElem?_append_left hn])
    · right
      have hnone : w.launches[n]? = none := List.getElem?_eq_none (by omega)
      refine ⟨by rw [hnone]; rfl, fun c hc => ?_⟩
      obtain ⟨l', hl', hc⟩ := Option.bind_eq_some_iff.mp hc
      rw [List.getElem?_append_right (by omega), List.getElem?_singleton] at hl'
      split at hl'
      · obtain rfl := Option.some.inj hl'
        dsimp only at hc
        split at hc
        · exact (Option.some.inj hc).symm
        · cases hc
      · cases hl'
  | control j => exact Or.inl (by rw [World.next, World.next, hsessions])
  | video j => exact Or.inl (by rw [World.next, World.next, hsessions])

lemma handleRequest_counters {m : ℕ} {address : Address} {l : LaunchSession} {req : Request} {s : Session}
    (h : (handleRequest env m address l req).1 = some s) : s.controlSeq = 0 ∧ s.gcmIvCounter = 0 := by
  cases req with
  | malformed => cases h
  | answered status => cases h
  | announce req started =>
    simp only [handleRequest, announce] at h
    split at h
    · cases h
    · cases h
    · cases started
      · cases h
      · obtain rfl := Option.some.inj h
        exact ⟨rfl, rfl⟩

/-- The control and video counters when at most one session is added. -/
lemma untouched_of_append (ss : EncryptionFlags) {o : Option Session}
    (ho : ∀ s ∈ o, s.controlSeq = 0 ∧ s.gcmIvCounter = 0)
    (hsessions : w'.sessions = w.sessions ++ o.toList) {i : GcmSender} (hi : i ≠ .rtsp) :
    Untouched (w.next ss n) (w'.next ss n) i := by
  have hnew : ∀ k : ℕ, (w'.sessions[k]? = w.sessions[k]?) ∨
      (w.sessions[k]? = none ∧ ∀ s : Session, w'.sessions[k]? = some s → s.controlSeq = 0 ∧ s.gcmIvCounter = 0) := by
    intro k
    rw [hsessions]
    by_cases hk : k < w.sessions.length
    · exact Or.inl (List.getElem?_append_left hk)
    · right
      refine ⟨List.getElem?_eq_none (by omega), fun s hs => ?_⟩
      rw [List.getElem?_append_right (by omega)] at hs
      cases o with
      | none => simp at hs
      | some s₀ =>
        rw [Option.toList_some, List.getElem?_singleton] at hs
        split at hs
        · obtain rfl := Option.some.inj hs
          exact ho s₀ rfl
        · cases hs
  -- a counter of a session, whichever it is
  have hcounter : ∀ (k : ℕ) (f : Session → Option ℕ),
      (∀ s : Session, s.controlSeq = 0 ∧ s.gcmIvCounter = 0 → ∀ c, f s = some c → c = 0) →
      w'.sessions[k]?.bind f = w.sessions[k]?.bind f ∨
        (w.sessions[k]?.bind f = none ∧ ∀ c, w'.sessions[k]?.bind f = some c → c = 0) := by
    intro k f hf
    rcases hnew k with h | ⟨hnone, hzero⟩
    · exact Or.inl (by rw [h])
    · refine Or.inr ⟨by rw [hnone]; rfl, fun c hc => ?_⟩
      obtain ⟨s, hs, hc⟩ := Option.bind_eq_some_iff.mp hc
      exact hf s (hzero s hs) c hc
  cases i with
  | rtsp => exact absurd rfl hi
  | control k =>
    refine hcounter k _ fun s hs c hc => ?_
    obtain ⟨-, rfl⟩ := of_ite_some hc
    rw [hs.1]
    rfl
  | video k =>
    refine hcounter k _ fun s hs c hc => ?_
    obtain ⟨-, rfl⟩ := of_ite_some hc
    rw [hs.2]
    rfl

/-- Every request is answered once, under the key of its launch session if RTSP is encrypted. -/
theorem tick_request {m : ℕ} {l : LaunchSession} (hl : w.launches[m]? = some l) (address : Address) (req : Request)
    {status : ℕ} {o : Option Session} (ho : ∀ s ∈ o, s.controlSeq = 0 ∧ s.gcmIvCounter = 0)
    (hlaunches : w'.launches = w.launches.set m (respond lib l status).1)
    (hsessions : w'.sessions = w.sessions ++ o.toList)
    (hsent : w'.sent = w.sent ++ [⟨m, .rtsp, (respond lib l status).2⟩]) :
    streamScheme.Tick GcmSender.use (w.next ss n) (w'.next ss n) (w.gcmLog n) (w'.gcmLog n)
      (w.encrypts ss n (.request m address req)) := by
  have hlog := gcmLog_of_append (n := n) hsent
  obtain ⟨hm, -⟩ := List.getElem?_eq_some_iff.mp hl
  have hother := fun i hi => untouched_of_append ss (n := n) (i := i) ho hsessions hi
  -- an answer without a vector leaves the counter of RTSP alone
  have hquiet (hsend : w.encrypts ss n (.request m address req) = none)
      (hgcm : Sent.gcm? n ⟨m, .rtsp, (respond lib l status).2⟩ = none)
      (hrtsp : w'.next ss n .rtsp = w.next ss n .rtsp) :
      streamScheme.Tick GcmSender.use (w.next ss n) (w'.next ss n) (w.gcmLog n) (w'.gcmLog n)
        (w.encrypts ss n (.request m address req)) := by
    rw [hsend]
    refine tick_none (by rw [hlog, hgcm]; exact List.append_nil _) fun j => ?_
    by_cases hj : j = .rtsp
    · subst hj
      exact Or.inl hrtsp
    · exact hother j hj
  by_cases hmn : m = n
  · subst hmn
    have hl' : w'.launches[m]? = some (respond lib l status).1 := by
      rw [hlaunches, List.getElem?_set, if_pos rfl, if_pos hm]
    have hold := next_rtsp ss hl
    have hnew := next_rtsp ss hl'
    rw [respond_rtspCipher] at hnew
    by_cases hcipher : l.rtspCipher = true
    · obtain ⟨hcounter, hiv⟩ := respond_of_rtspCipher lib hcipher status
      rw [if_pos hcipher] at hold hnew
      have hsend : w.encrypts ss m (.request m address req) = some .rtsp := by simp [World.encrypts, Op.gcm?, hold]
      have hgcm := gcm?_eq_some (n := m) (e := ⟨m, .rtsp, (respond lib l status).2⟩) rfl rfl hiv
        (length_streamNonce _ _)
      rw [hsend]
      refine tick_some hold hnew ?_ (by rw [hlog, hgcm]; rfl) fun j hj => hother j hj
      rw [hcounter, BitVec.toNat_add]
      exact Nat.mod_mod _ _
    · rw [if_neg hcipher] at hold hnew
      have hsend : w.encrypts ss m (.request m address req) = none := by simp [World.encrypts, Op.gcm?, hold]
      have hgcm : Sent.gcm? m ⟨m, .rtsp, (respond lib l status).2⟩ = none := by
        refine gcm?_eq_none fun _ iv hiv => ?_
        rw [respond_of_not_rtspCipher lib (by simpa using hcipher)] at hiv
        cases hiv
      exact hquiet hsend hgcm (hnew.trans hold.symm)
  · have hsend : w.encrypts ss n (.request m address req) = none := by simp [World.encrypts, Op.gcm?, hmn]
    have hgcm : Sent.gcm? n ⟨m, .rtsp, (respond lib l status).2⟩ = none :=
      gcm?_eq_none fun h => absurd h hmn
    refine hquiet hsend hgcm ?_
    rw [World.next, World.next, hlaunches, List.getElem?_set, if_neg hmn]

/-- **Every step is a step of the counters**, with the sender that the operation is about. -/
theorem tick_step {op : Op} (h : WorldStep env lib w op w') (n : ℕ) :
    streamScheme.Tick GcmSender.use (w.next env.ss n) (w'.next env.ss n) (w.gcmLog n) (w'.gcmLog n)
      (w.encrypts env.ss n op) := by
  cases op with
  | launch address l =>
    have hw := Option.some.inj h
    have hsend : w.encrypts env.ss n (.launch address l) = none := rfl
    rw [hsend]
    split at hw
    · subst hw
      exact tick_launch rfl rfl rfl
    · subst hw
      exact tick_none rfl fun i => Or.inl rfl
  | request m address req =>
    obtain ⟨l, hl, rfl⟩ := Option.map_eq_some_iff.mp h
    exact tick_request hl address req (fun s hs => handleRequest_counters hs) rfl rfl rfl
  | control k plaintext =>
    obtain ⟨s, hs, rfl⟩ := Option.map_eq_some_iff.mp h
    exact tick_control hs plaintext rfl
  | shard k shard =>
    obtain ⟨s, hs, rfl⟩ := Option.map_eq_some_iff.mp h
    exact tick_shard hs shard rfl
  | audio k packet =>
    obtain ⟨s, hs, rfl⟩ := Option.map_eq_some_iff.mp h
    have hcounters := sendAudio_counters lib env.ss s packet
    have hiv := sendAudio_iv lib env.ss s packet
    have hsend : w.encrypts env.ss n (.audio k packet) = none := rfl
    rw [hsend]
    generalize sendAudio lib env.ss s packet = r at hcounters hiv
    obtain ⟨s', message⟩ := r
    cases message with
    | none => exact tick_silent ⟨hs, hcounters.toSameSetup, rfl, rfl⟩ hcounters rfl
    | some message =>
      refine tick_silent (k := k) ⟨hs, hcounters.toSameSetup, rfl, rfl⟩ hcounters ?_
      have hgcm : Sent.gcm? n ⟨s'.launch, .audio k, message⟩ = none := rfl
      have hlog := gcmLog_of_append (n := n) (w := w) (u := w.sends k s' (.audio k) message) rfl
      rw [hgcm] at hlog
      exact hlog.trans (List.append_nil _)
  | receive k type payload =>
    obtain ⟨s, hs, rfl⟩ := Option.map_eq_some_iff.mp h
    have hcounters := call_counters lib env.ss s type payload
    exact tick_silent ⟨hs, hcounters.toSameSetup, rfl, rfl⟩ hcounters rfl

/-! ### Whole runs -/

/-- The launch session or stream session of the operation exists. -/
def Known (w : World) : Op → Prop
  | .request m _ _ => m < w.launches.length
  | .control k _ | .shard k _ => k < w.sessions.length
  | _ => True

lemma known_of_step {op : Op} (h : WorldStep env lib w op w') : Known w op := by
  cases op with
  | launch => trivial
  | request m address req =>
    obtain ⟨l, hl, -⟩ := Option.map_eq_some_iff.mp h
    exact (List.getElem?_eq_some_iff.mp hl).1
  | control k plaintext =>
    obtain ⟨s, hs, -⟩ := Option.map_eq_some_iff.mp h
    exact (List.getElem?_eq_some_iff.mp hs).1
  | shard k shard =>
    obtain ⟨s, hs, -⟩ := Option.map_eq_some_iff.mp h
    exact (List.getElem?_eq_some_iff.mp hs).1
  | audio => trivial
  | receive => trivial

lemma launches_length_le {op : Op} (h : WorldStep env lib w op w') {m : ℕ} (hm : m < w.launches.length) :
    m < w'.launches.length := by
  obtain ⟨l', hl', -⟩ := launch_step h m _ (List.getElem?_eq_getElem hm)
  exact (List.getElem?_eq_some_iff.mp hl').1

lemma sessions_length_le {op : Op} (h : WorldStep env lib w op w') (hk : k < w.sessions.length) :
    k < w'.sessions.length := by
  obtain ⟨s', hs', -⟩ := setup_step h k _ (List.getElem?_eq_getElem hk)
  exact (List.getElem?_eq_some_iff.mp hs').1

lemma Known.step {op op' : Op} (hop : Known w op) (h : WorldStep env lib w op' w') : Known w' op := by
  cases op with
  | request m address req => exact launches_length_le h hop
  | control k plaintext => exact sessions_length_le h hop
  | shard k shard => exact sessions_length_le h hop
  | launch => trivial
  | audio => trivial
  | receive => trivial

lemma next_isSome_step {op' : Op} (h : WorldStep env lib w op' w') {i : GcmSender}
    (hi : match i with | .rtsp => n < w.launches.length | .control k | .video k => k < w.sessions.length) :
    (w'.next env.ss n i).isSome = (w.next env.ss n i).isSome := by
  cases i with
  | rtsp =>
    obtain ⟨l', hl', hcipher⟩ := launch_step h n _ (List.getElem?_eq_getElem hi)
    rw [next_rtsp _ hl', next_rtsp _ (List.getElem?_eq_getElem hi), hcipher]
    split <;> rfl
  | control k =>
    obtain ⟨s', hs', hset⟩ := setup_step h k _ (List.getElem?_eq_getElem hi)
    simp only [next_control _ hs', next_control _ (List.getElem?_eq_getElem hi), hset.launch, hset.encryptsControl_iff]
    split <;> rfl
  | video k =>
    obtain ⟨s', hs', hset⟩ := setup_step h k _ (List.getElem?_eq_getElem hi)
    rw [next_video _ hs', next_video _ (List.getElem?_eq_getElem hi), hset.launch, hset.videoCipher]
    split <;> rfl

/-- Who encrypts in an operation is settled once its session exists. -/
lemma encrypts_step {op op' : Op} (hop : Known w op) (h : WorldStep env lib w op' w') :
    w'.encrypts env.ss n op = w.encrypts env.ss n op := by
  have hnext : ∀ i ∈ op.gcm? n, (w'.next env.ss n i).isSome = (w.next env.ss n i).isSome := by
    intro i hi
    refine next_isSome_step h ?_
    cases op with
    | request m address req =>
      simp only [Op.gcm?] at hi
      split at hi
      next hm =>
        obtain rfl := Option.some.inj hi
        exact hm ▸ hop
      · cases hi
    | control k plaintext =>
      obtain rfl := Option.some.inj hi
      exact hop
    | shard k shard =>
      obtain rfl := Option.some.inj hi
      exact hop
    | launch => cases hi
    | audio => cases hi
    | receive => cases hi
  unfold World.encrypts
  cases hg : op.gcm? n with
  | none => rfl
  | some i => rw [Option.filter_some, Option.filter_some, hnext i hg]

/-- The counters and the log of a run, and who encrypted in it. -/
theorem metered_run {ops : List Op} (hrun : Run (WorldStep env lib) .boot ops w) (n : ℕ) :
    streamScheme.Metered GcmSender.use (w.next env.ss n) (w.gcmLog n) ∧
      (w.gcmLog n).map Prod.fst = ops.filterMap (w.encrypts env.ss n) := by
  have hinv := hrun.invariant_labels (I := fun ops w =>
    (∀ op ∈ ops, Known w op) ∧ streamScheme.Metered GcmSender.use (w.next env.ss n) (w.gcmLog n) ∧
      (w.gcmLog n).map Prod.fst = ops.filterMap (w.encrypts env.ss n)) ?_ ?_
  · exact hinv.2
  · refine ⟨by simp, ⟨rfl, ?_, ?_⟩, rfl⟩
    · intro i c hc
      cases i <;> simp [World.next, World.boot] at hc
    · intro i hi
      cases hi
  · rintro as s op t - ⟨hknown, hmetered, hsenders⟩ hstep
    have htick := tick_step hstep n
    have hop := known_of_step hstep
    refine ⟨?_, hmetered.tick htick, ?_⟩
    · intro op' hop'
      rcases List.mem_append.mp hop' with hmem | hmem
      · exact (hknown op' hmem).step hstep
      · obtain rfl := List.mem_singleton.mp hmem
        exact hop.step hstep
    · have hold : as.filterMap (t.encrypts env.ss n) = as.filterMap (s.encrypts env.ss n) :=
        List.filterMap_congr fun op' hop' => encrypts_step (hknown op' hop') hstep
      rw [htick.log_eq, List.map_append, hsenders, List.filterMap_append, hold, List.filterMap_cons,
        encrypts_step hop hstep]
      cases s.encrypts env.ss n op <;> simp

/-- Audio packets use vectors of 16 bytes. -/
theorem audio_iv_run {ops : List Op} (hrun : Run (WorldStep env lib) .boot ops w) :
    ∀ e ∈ w.sent, e.sender.gcm? = none → ∀ iv ∈ e.message.iv, iv.length = 16 := by
  refine hrun.invariant (I := fun w => ∀ e ∈ w.sent, e.sender.gcm? = none → ∀ iv ∈ e.message.iv, iv.length = 16)
    ?_ (by simp [World.boot])
  intro s op t h hstep
  have hmore : ∀ e : Sent, (e.sender.gcm? = none → ∀ iv ∈ e.message.iv, iv.length = 16) →
      ∀ e' ∈ s.sent ++ [e], e'.sender.gcm? = none → ∀ iv ∈ e'.message.iv, iv.length = 16 := by
    intro e he e' he'
    rcases List.mem_append.mp he' with hmem | hmem
    · exact h e' hmem
    · obtain rfl := List.mem_singleton.mp hmem
      exact he
  cases op with
  | launch address l =>
    have hw := Option.some.inj hstep
    split at hw <;> subst hw <;> exact h
  | request m address req =>
    obtain ⟨l, hl, rfl⟩ := Option.map_eq_some_iff.mp hstep
    exact hmore _ fun hnone => by cases hnone
  | control k plaintext =>
    obtain ⟨u, hu, rfl⟩ := Option.map_eq_some_iff.mp hstep
    exact hmore _ fun hnone => by cases hnone
  | shard k shard =>
    obtain ⟨u, hu, rfl⟩ := Option.map_eq_some_iff.mp hstep
    exact hmore _ fun hnone => by cases hnone
  | audio k packet =>
    obtain ⟨u, hu, rfl⟩ := Option.map_eq_some_iff.mp hstep
    have hiv := sendAudio_iv lib env.ss u packet
    generalize sendAudio lib env.ss u packet = r at hiv
    obtain ⟨u', message⟩ := r
    cases message with
    | none => exact h
    | some message => exact hmore _ fun _ => hiv message rfl
  | receive k type payload =>
    obtain ⟨u, hu, rfl⟩ := Option.map_eq_some_iff.mp hstep
    exact h

lemma ivs_eq_gcmLog (h : ∀ e ∈ w.sent, e.sender.gcm? = none → ∀ iv ∈ e.message.iv, iv.length = 16) :
    w.ivs n = (w.gcmLog n).map Prod.snd := by
  unfold World.ivs World.gcmLog
  rw [List.map_filterMap]
  refine List.filterMap_congr fun e he => ?_
  unfold Sent.gcm?
  cases hg : e.sender.gcm? with
  | some i => cases e.iv? n <;> rfl
  | none =>
    have hiv : e.iv? n = none := by
      unfold Sent.iv?
      split
      · rw [Option.filter_eq_none_iff]
        intro iv hmem
        simp [h e he hg iv hmem]
      · rfl
    rw [hiv]
    rfl

end Steps

/-- At most one control stream and at most one video stream use the key, and no counter that can wrap does. -/
structure OneStreamEach (senders : List GcmSender) : Prop where
  control : ∀ k k', .control k ∈ senders → .control k' ∈ senders → k = k'
  video : ∀ k k', .video k ∈ senders → .video k' ∈ senders → k = k'
  responses : senders.count .rtsp ≤ 2 ^ 32
  shards : ∀ k, senders.count (.video k) ≤ 2 ^ 64

/-- **Vectors are unique exactly when one stream session uses the key.**  In a run with fewer than `2 ^ 32` control
messages of each session, the 12-byte vectors used with the key of a launch session are pairwise different if and only
if at most one of its stream sessions encrypts control messages, at most one encrypts video, and there are at most
`2 ^ 32` RTSP responses and `2 ^ 64` video shards. -/
theorem ivs_nodup_iff {env : AnnounceEnv} {lib : Library} {ops : List Op} {w : World}
    (hrun : Run (WorldStep env lib) .boot ops w) (n : ℕ)
    (hcontrol : ∀ k, (ops.filterMap (w.encrypts env.ss n)).count (.control k) < 2 ^ 32) :
    (w.ivs n).Nodup ↔ OneStreamEach (ops.filterMap (w.encrypts env.ss n)) := by
  obtain ⟨hmetered, hsenders⟩ := metered_run hrun n
  rw [ivs_eq_gcmLog (audio_iv_run hrun), hmetered.nonces_eq, hsenders, streamScheme.nodup_nonces_iff]
  generalize ops.filterMap (w.encrypts env.ss n) = senders at hcontrol
  constructor
  · rintro ⟨hcount, hfield⟩
    refine ⟨?_, ?_, ?_, ?_⟩
    · intro k k' hk hk'
      exact GcmSender.control.inj (hfield _ hk _ hk' rfl)
    · intro k k' hk hk'
      exact GcmSender.video.inj (hfield _ hk _ hk' rfl)
    · by_cases hmem : GcmSender.rtsp ∈ senders
      · exact hcount _ hmem
      · rw [List.count_eq_zero_of_not_mem hmem]
        omega
    · intro k
      by_cases hmem : GcmSender.video k ∈ senders
      · exact hcount _ hmem
      · rw [List.count_eq_zero_of_not_mem hmem]
        omega
  · intro h
    refine ⟨?_, ?_⟩
    · intro i hi
      cases i with
      | rtsp => exact h.responses
      | control k => exact (hcontrol k).le
      | video k => exact h.shards k
    · intro i hi j hj huse
      cases i <;> cases j <;> try first | rfl | cases huse
      · rw [h.control _ _ hi hj]
      · rw [h.video _ _ hi hj]

/-! ### Runs with fixed requests -/

/-- A client that announces once and then exchanges messages. -/
def announceOnce : List Op :=
  [.launch (.v4 0) demoLaunch, .request 0 (.v4 0) (.announce (demoAnnounce "13" "3") true), .control 0 [1],
    .shard 0 [2], .control 0 [3]]

theorem ivs_nodup_announceOnce :
    ∃ w, Run (WorldStep (demoEnv .opportunistic) demoLibrary) .boot announceOnce w ∧
      (w.ivs 0).length = 4 ∧ (w.ivs 0).Nodup := by
  obtain ⟨w, hrun, hlength, hsenders⟩ := exists_run_execWhere_and
    (f := fun (w : World) (op : Op) => w.step (demoEnv .opportunistic) demoLibrary op) (G := fun _ _ => True)
    (s := .boot) (l := announceOnce)
    (P := fun w => (w.ivs 0).length = 4 ∧ announceOnce.filterMap (w.encrypts (demoEnv .opportunistic).ss 0) =
      [.rtsp, .control 0, .video 0, .control 0]) (by decide +kernel)
  have hone : OneStreamEach (announceOnce.filterMap (w.encrypts (demoEnv .opportunistic).ss 0)) := by
    rw [hsenders]
    exact ⟨by simp, by simp, by decide, fun k => List.count_le_length.trans (by decide)⟩
  refine ⟨w, hrun.of_guarded, hlength, (ivs_nodup_iff hrun.of_guarded 0 fun k => ?_).mpr hone⟩
  rw [hsenders]
  exact lt_of_le_of_lt List.count_le_length (by decide)

/-- A client that announces twice while its launch session is still pending. -/
def announceTwice : List Op :=
  [.launch (.v4 0) demoLaunch, .request 0 (.v4 0) (.announce (demoAnnounce "13" "3") true),
    .request 0 (.v4 0) (.announce (demoAnnounce "13" "3") true), .control 0 [1], .control 1 [2]]

/-- **Two sessions of one launch repeat their vectors**: both count their control messages from zero. -/
theorem ivs_not_nodup_announceTwice :
    ∃ w, Run (WorldStep (demoEnv .opportunistic) demoLibrary) .boot announceTwice w ∧
      (∀ k, (announceTwice.filterMap (w.encrypts (demoEnv .opportunistic).ss 0)).count (.control k) < 2 ^ 32) ∧
      ¬ (w.ivs 0).Nodup := by
  obtain ⟨w, hrun, hdup⟩ := exists_run_execWhere_and
    (f := fun (w : World) (op : Op) => w.step (demoEnv .opportunistic) demoLibrary op) (G := fun _ _ => True)
    (s := .boot) (l := announceTwice) (P := fun w => ¬ (w.ivs 0).Nodup) (by decide +kernel)
  refine ⟨w, hrun.of_guarded, fun k => ?_, hdup⟩
  have hle : (announceTwice.filterMap (w.encrypts (demoEnv .opportunistic).ss 0)).count (.control k) ≤ 5 :=
    List.count_le_length.trans (List.length_filterMap_le _ _)
  omega

end MidnightSun.Stream
