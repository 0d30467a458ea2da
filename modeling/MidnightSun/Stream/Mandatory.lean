import MidnightSun.Stream.Wire

/-!
# Mandatory encryption

For clients at an address with `ENCRYPTION_MODE_MANDATORY`, `cmd_announce` insists on the flags for video and audio.
The control stream goes by the control protocol of the request instead, which is not checked: a session of another
protocol than 13 sends and accepts control messages as they are.
-/

namespace MidnightSun.Stream

open Lib Net Rtsp Util

variable {env : AnnounceEnv} {lib : Library}

/-! ### What an accepted ANNOUNCE has -/

/-- The control protocol that an ANNOUNCE request asks for. -/
def requestedProtocol (req : AnnounceRequest) : Option ℤ :=
  (argAt (announceArgs req.payload) "x-nv-general.useReliableUdp").map toInt

lemma readConfig_controlProtocolType {ss : EncryptionFlags} {launch : LaunchParams} {args : List (Str × Str)}
    {config : Config} {kbps : ℤ} (h : readConfig ss launch args = some (config, kbps)) :
    (argAt args "x-nv-general.useReliableUdp").map toInt = some config.controlProtocolType := by
  obtain ⟨audio, -, h⟩ := Option.bind_eq_some_iff.mp h
  obtain ⟨protocol, hprotocol, h⟩ := Option.bind_eq_some_iff.mp h
  obtain ⟨packetsize, -, h⟩ := Option.bind_eq_some_iff.mp h
  obtain ⟨minRequiredFecPackets, -, h⟩ := Option.bind_eq_some_iff.mp h
  obtain ⟨mlFeatureFlags, -, h⟩ := Option.bind_eq_some_iff.mp h
  obtain ⟨audioQosType, -, h⟩ := Option.bind_eq_some_iff.mp h
  obtain ⟨videoQosType, -, h⟩ := Option.bind_eq_some_iff.mp h
  obtain ⟨encryptionEnabled, -, h⟩ := Option.bind_eq_some_iff.mp h
  obtain ⟨featureFlags, -, h⟩ := Option.bind_eq_some_iff.mp h
  obtain ⟨monitor, -, h⟩ := Option.bind_eq_some_iff.mp h
  obtain ⟨bitrate, -, h⟩ := Option.bind_eq_some_iff.mp h
  rw [hprotocol, ← (Prod.mk.inj (Option.some.inj h)).1]
  rfl

lemma and_eq_of_and_or_eq {f v a : BitVec 32} (h : f &&& (v ||| a) = v ||| a) : f &&& v = v ∧ f &&& a = a := by
  have hbit : ∀ i, (f.getLsbD i && (v.getLsbD i || a.getLsbD i)) = (v.getLsbD i || a.getLsbD i) := by
    intro i
    have hi := congrArg (fun x => BitVec.getLsbD x i) h
    simpa only [BitVec.getLsbD_and, BitVec.getLsbD_or] using hi
  constructor <;>
  · refine BitVec.eq_of_getLsbD_eq fun i _ => ?_
    have hi := hbit i
    rw [BitVec.getLsbD_and]
    revert hi
    cases f.getLsbD i <;> cases v.getLsbD i <;> cases a.getLsbD i <;> decide

/-- An accepted request has the configuration it asked for, and at an address with mandatory encryption both flags. -/
theorem cmdAnnounce_accepted {launch : LaunchParams} {address : Address} {req : AnnounceRequest} {config : Config}
    (h : cmdAnnounce env launch address req = .accepted config) :
    requestedProtocol req = some config.controlProtocolType ∧
      (encryptionModeForAddress env.encryption address = .mandatory →
        config.encryptionFlagsEnabled &&& env.ss.video = env.ss.video ∧
          config.encryptionFlagsEnabled &&& env.ss.audio = env.ss.audio) := by
  unfold cmdAnnounce at h
  split at h
  · cases h
  next config₀ kbps hread =>
    dsimp only at h
    split at h
    · cases h
    · split at h
      · cases h
      · split at h
        · cases h
        next hflags =>
          obtain rfl := Announced.accepted.inj h
          have hprotocol := readConfig_controlProtocolType hread
          refine ⟨hprotocol, fun hmode => ?_⟩
          have hall := Decidable.not_not.mp fun hne => hflags ⟨hmode, hne⟩
          exact and_eq_of_and_or_eq hall

/-! ### Protected sessions -/

/-- The address is one at which encryption is mandatory. -/
def MandatoryAt (env : AnnounceEnv) (address : Address) : Prop :=
  encryptionModeForAddress env.encryption address = .mandatory

instance (env : AnnounceEnv) (address : Address) : Decidable (MandatoryAt env address) := by
  unfold MandatoryAt; infer_instance

/-- All streams of the session are encrypted. -/
structure Session.Encrypted (ss : EncryptionFlags) (s : Session) : Prop where
  control : s.config.controlProtocolType = 13
  video : s.videoCipher = true
  audio : s.config.enables ss.audio = true

lemma Session.SameSetup.encrypted {ss : EncryptionFlags} {s s' : Session} (h : s.SameSetup s')
    (he : s.Encrypted ss) : s'.Encrypted ss where
  control := by rw [h.config, he.control]
  video := by rw [h.videoCipher, he.video]
  audio := by rw [h.config, he.audio]

/-- What a step must meet: an ANNOUNCE that is accepted from an address with mandatory encryption asks for the control
protocol 13, and the cipher does not fail on a video shard of a session of such an address. -/
def Complies (env : AnnounceEnv) (lib : Library) (w : World) : Op → Prop
  | .request n address (.announce req started) => ∀ l ∈ w.launches[n]?,
      (cmdAnnounce env l.params address req).isAccepted = true → started = true → MandatoryAt env address →
        requestedProtocol req = some 13
  | .shard k shard => ∀ s ∈ w.sessions[k]?, MandatoryAt env s.address →
      lib.gcmEncrypt s.gcmKey (videoIv s.gcmIvCounter) shard ≠ none
  | _ => True

instance (w : World) (op : Op) : Decidable (Complies env lib w op) := by
  unfold Complies
  split <;> infer_instance

/-- The session a message comes from. -/
def Sender.session? : Sender → Option ℕ
  | rtsp => none
  | control k | video k | audio k => some k

/-- Nothing leaves or enters a session unencrypted where encryption is mandatory. -/
structure Protected (env : AnnounceEnv) (w : World) : Prop where
  setup : ∀ (k : ℕ) (s : Session), w.sessions[k]? = some s → MandatoryAt env s.address → s.Encrypted env.ss
  sent : ∀ e ∈ w.sent, ∀ k ∈ e.sender.session?, ∃ s, w.sessions[k]? = some s ∧
    (MandatoryAt env s.address → ∀ bytes, e.message.wire ≠ .plain bytes)
  actions : ∀ k type payload decrypted, (k, Action.handle type payload decrypted) ∈ w.actions →
    ∃ s, w.sessions[k]? = some s ∧ (MandatoryAt env s.address → decrypted = true)

lemma encodeControl_wire {s : Session} (h : s.Encrypted env.ss) (plaintext bytes : Str) :
    (encodeControl lib env.ss s plaintext).2.wire ≠ .plain bytes := by
  unfold encodeControl
  rw [if_neg (by simpa using h.control)]
  dsimp only
  split <;> simp

lemma sendShard_wire {s : Session} (h : s.Encrypted env.ss) {shard : Str}
    (hcipher : lib.gcmEncrypt s.gcmKey (videoIv s.gcmIvCounter) shard ≠ none) (bytes : Str) :
    (sendShard lib s shard).2.wire ≠ .plain bytes := by
  unfold sendShard
  rw [if_pos h.video]
  dsimp only
  split
  · simp
  next hnone => exact absurd hnone hcipher

lemma sendAudio_wire {s : Session} (h : s.Encrypted env.ss) (packet bytes : Str) :
    ∀ message ∈ (sendAudio lib env.ss s packet).2, message.wire ≠ .plain bytes := by
  unfold sendAudio
  rw [if_pos h.audio]
  dsimp only
  split <;> simp

/-- With the control protocol 13 a handler only sees what was decrypted. -/
lemma call_decrypted {s : Session} (h : s.Encrypted env.ss) (type : ℕ) (payload : Str) {handler : PacketType}
    {bytes : Str} {decrypted : Bool} (hmem : .handle handler bytes decrypted ∈ (call lib env.ss s type payload).2) :
    decrypted = true := by
  unfold call at hmem
  split at hmem
  · cases hmem
  next hdrop =>
    have htype : packetType type = some .encrypted := by simpa [dropsUnencrypted, h.control] using hdrop
    simp only [htype, handleEncrypted, callDecrypted] at hmem
    split at hmem
    · cases hmem
    · split at hmem
      · simp at hmem
      · split at hmem
        · cases hmem
        · simp at hmem
        · simp only [List.mem_singleton, Action.handle.injEq] at hmem
          exact hmem.2.2

/-- The session that an accepted ANNOUNCE request starts is protected. -/
lemma encrypted_of_announce (hvideo : env.ss.video ≠ 0) (haudio : env.ss.audio ≠ 0) {n : ℕ} {address : Address}
    {l : LaunchSession} {req : AnnounceRequest} {started : Bool} {s : Session}
    (hcomplies : (cmdAnnounce env l.params address req).isAccepted = true → started = true → MandatoryAt env address →
      requestedProtocol req = some 13)
    (h : (announce env n address l req started).1 = some s) (hmode : MandatoryAt env s.address) :
    s.Encrypted env.ss := by
  unfold announce at h
  split at h
  · cases h
  · cases h
  next config haccepted =>
    cases started
    · cases h
    · obtain rfl := Option.some.inj h
      obtain ⟨hprotocol, hflags⟩ := cmdAnnounce_accepted haccepted
      obtain ⟨hv, ha⟩ := hflags hmode
      have h13 := hcomplies (by rw [haccepted]; rfl) rfl hmode
      rw [hprotocol] at h13
      refine ⟨Option.some.inj h13, ?_, ?_⟩
      · simpa [alloc, Config.enables, hv] using hvideo
      · simpa [alloc, Config.enables, ha] using haudio

namespace Protected

variable {w w' : World}

lemma old_sent (h : Protected env w) {op : Op} (hstep : WorldStep env lib w op w') {e : Sent} (he : e ∈ w.sent) :
    ∀ k ∈ e.sender.session?, ∃ s, w'.sessions[k]? = some s ∧
      (MandatoryAt env s.address → ∀ bytes, e.message.wire ≠ .plain bytes) := by
  intro k hk
  obtain ⟨s, hs, hwire⟩ := h.sent e he k hk
  obtain ⟨s', hs', hset⟩ := setup_step hstep k s hs
  exact ⟨s', hs', fun hmode => hwire (hset.address ▸ hmode)⟩

lemma old_actions (h : Protected env w) {op : Op} (hstep : WorldStep env lib w op w') {k : ℕ} {type : PacketType}
    {payload : Str} {decrypted : Bool} (hmem : (k, Action.handle type payload decrypted) ∈ w.actions) :
    ∃ s, w'.sessions[k]? = some s ∧ (MandatoryAt env s.address → decrypted = true) := by
  obtain ⟨s, hs, hdec⟩ := h.actions k type payload decrypted hmem
  obtain ⟨s', hs', hset⟩ := setup_step hstep k s hs
  exact ⟨s', hs', fun hmode => hdec (hset.address ▸ hmode)⟩

/-- The setup of all sessions, after a step of the session `k`. -/
lemma setup_of_set (h : Protected env w) {k : ℕ} {s s' : Session} (hs : w.sessions[k]? = some s)
    (hset : s.SameSetup s') (j : ℕ) (u : Session) (hu : (w.sessions.set k s')[j]? = some u)
    (hmode : MandatoryAt env u.address) : u.Encrypted env.ss := by
  obtain ⟨hlt, -⟩ := List.getElem?_eq_some_iff.mp hs
  rw [List.getElem?_set] at hu
  by_cases hj : k = j
  · subst hj
    rw [if_pos rfl, if_pos hlt] at hu
    obtain rfl := Option.some.inj hu
    exact hset.encrypted (h.setup k s hs (hset.address ▸ hmode))
  · rw [if_neg hj] at hu
    exact h.setup j u hu hmode

/-- One more message of the session `k`. -/
lemma of_message (h : Protected env w) {op : Op} (hstep : WorldStep env lib w op w') {k : ℕ} {s s' : Session}
    {sender : Sender} {message : Message} (hs : w.sessions[k]? = some s) (hset : s.SameSetup s')
    (hsessions : w'.sessions = w.sessions.set k s') (hk : ∀ j ∈ sender.session?, j = k)
    (hsent : w'.sent = w.sent ++ [⟨s'.launch, sender, message⟩]) (hactions : w'.actions = w.actions)
    (hwire : MandatoryAt env s.address → ∀ bytes, message.wire ≠ .plain bytes) : Protected env w' := by
  obtain ⟨hlt, -⟩ := List.getElem?_eq_some_iff.mp hs
  have hget : w'.sessions[k]? = some s' := by rw [hsessions, List.getElem?_set, if_pos rfl, if_pos hlt]
  refine ⟨?_, ?_, ?_⟩
  · rw [hsessions]
    exact h.setup_of_set hs hset
  · intro e he
    rw [hsent] at he
    rcases List.mem_append.mp he with hmem | hmem
    · exact h.old_sent hstep hmem
    · obtain rfl := List.mem_singleton.mp hmem
      intro j hj
      obtain rfl := hk j hj
      exact ⟨s', hget, fun hmode => hwire (hset.address ▸ hmode)⟩
  · intro j type payload decrypted hmem
    rw [hactions] at hmem
    exact h.old_actions hstep hmem

theorem step (hvideo : env.ss.video ≠ 0) (haudio : env.ss.audio ≠ 0) (h : Protected env w) {op : Op}
    (hcomplies : Complies env lib w op) (hstep : WorldStep env lib w op w') : Protected env w' := by
  have hstep' := hstep
  cases op with
  | launch address l =>
    have hw := Option.some.inj hstep
    split at hw
    · subst hw
      exact ⟨h.setup, h.sent, h.actions⟩
    · subst hw
      exact h
  | request m address req =>
    obtain ⟨l, hl, rfl⟩ := Option.map_eq_some_iff.mp hstep
    refine ⟨?_, ?_, fun k type payload decrypted hmem => h.old_actions hstep' hmem⟩
    · intro k s hs hmode
      rcases Nat.lt_or_ge k w.sessions.length with hk | hk
      · exact h.setup k s ((List.getElem?_append_left hk).symm.trans hs) hmode
      · have hnew := List.mem_of_getElem? ((List.getElem?_append_right hk).symm.trans hs)
        have hreq : (handleRequest env m address l req).1 = some s := Option.mem_toList.mp hnew
        cases req with
        | malformed => cases hreq
        | answered status => cases hreq
        | announce req started => exact encrypted_of_announce hvideo haudio (hcomplies l hl) hreq hmode
    · intro e he
      rcases List.mem_append.mp he with hmem | hmem
      · exact h.old_sent hstep' hmem
      · obtain rfl := List.mem_singleton.mp hmem
        intro k hk
        cases hk
  | control k plaintext =>
    obtain ⟨s, hs, rfl⟩ := Option.map_eq_some_iff.mp hstep
    refine h.of_message hstep' hs (encodeControl_setup lib env.ss s plaintext) rfl ?_ rfl rfl ?_
    · exact fun j hj => (Option.some.inj hj).symm
    · exact fun hmode bytes => encodeControl_wire (h.setup k s hs hmode) plaintext bytes
  | shard k shard =>
    obtain ⟨s, hs, rfl⟩ := Option.map_eq_some_iff.mp hstep
    refine h.of_message hstep' hs (sendShard_setup lib s shard) rfl ?_ rfl rfl ?_
    · exact fun j hj => (Option.some.inj hj).symm
    · exact fun hmode bytes => sendShard_wire (h.setup k s hs hmode) (hcomplies s hs hmode) bytes
  | audio k packet =>
    obtain ⟨s, hs, rfl⟩ := Option.map_eq_some_iff.mp hstep
    have hset := (sendAudio_counters lib env.ss s packet).toSameSetup
    have hwire : MandatoryAt env s.address → ∀ bytes, ∀ message ∈ (sendAudio lib env.ss s packet).2,
        message.wire ≠ .plain bytes :=
      fun hmode bytes => sendAudio_wire (h.setup k s hs hmode) packet bytes
    generalize sendAudio lib env.ss s packet = r at hset hwire hstep'
    obtain ⟨s', message⟩ := r
    cases message with
    | some message =>
      refine h.of_message (k := k) hstep' hs hset rfl ?_ rfl rfl fun hmode bytes => hwire hmode bytes message rfl
      exact fun j hj => (Option.some.inj hj).symm
    | none =>
      exact ⟨h.setup_of_set hs hset, fun e he => h.old_sent hstep' he,
        fun _ _ _ _ hmem => h.old_actions hstep' hmem⟩
  | receive k type payload =>
    obtain ⟨s, hs, rfl⟩ := Option.map_eq_some_iff.mp hstep
    have hset := (call_counters lib env.ss s type payload).toSameSetup
    refine ⟨h.setup_of_set hs hset, fun e he => h.old_sent hstep' he, ?_⟩
    intro j handler bytes decrypted hmem
    rcases List.mem_append.mp hmem with hold | hnew
    · exact h.old_actions hstep' hold
    · obtain ⟨action, haction, hpair⟩ := List.mem_map.mp hnew
      obtain ⟨rfl, rfl⟩ := Prod.mk.inj hpair
      obtain ⟨hlt, -⟩ := List.getElem?_eq_some_iff.mp hs
      refine ⟨_, by rw [List.getElem?_set, if_pos rfl, if_pos hlt], fun hmode => ?_⟩
      exact call_decrypted (h.setup k s hs (hset.address ▸ hmode)) type payload haction

end Protected

/-- **Mandatory encryption is kept** in every run whose steps comply: no session that was announced from an address
with mandatory encryption sends anything in the clear or handles a control message that was not decrypted. -/
theorem mandatory_encryption (hvideo : env.ss.video ≠ 0) (haudio : env.ss.audio ≠ 0) {ops : List Op} {w : World}
    (hrun : Run (Guarded (WorldStep env lib) (Complies env lib)) .boot ops w) {k : ℕ} {s : Session}
    (hs : w.sessions[k]? = some s) (hmode : MandatoryAt env s.address) :
    (∀ e ∈ w.sent, e.sender.session? = some k → ∀ bytes, e.message.wire ≠ .plain bytes) ∧
      ∀ type payload decrypted, (k, Action.handle type payload decrypted) ∈ w.actions → decrypted = true := by
  have h : Protected env w := hrun.invariant_where
    (fun _ _ _ h hcomplies hstep => h.step hvideo haudio hcomplies hstep)
    ⟨by simp [World.boot], by simp [World.boot], by simp [World.boot]⟩
  constructor
  · intro e he hk
    obtain ⟨s', hs', hwire⟩ := h.sent e he k hk
    rw [hs] at hs'
    obtain rfl := Option.some.inj hs'
    exact hwire hmode
  · intro type payload decrypted hmem
    obtain ⟨s', hs', hdec⟩ := h.actions k type payload decrypted hmem
    rw [hs] at hs'
    obtain rfl := Option.some.inj hs'
    exact hdec hmode

/-- A client at an address with mandatory encryption announces a session, which then exchanges messages. -/
def mandatoryRun (protocol : String) : List Op :=
  [.launch (.v4 0) demoLaunch, .request 0 (.v4 0) (.announce (demoAnnounce protocol "6") true), .control 0 [1],
    .shard 0 [2], .audio 0 [3], .receive 0 0x0302 []]

theorem mandatory_encryption_demo :
    ∃ w, Run (Guarded (WorldStep (demoEnv .mandatory) demoLibrary) (Complies (demoEnv .mandatory) demoLibrary)) .boot
        (mandatoryRun "13") w ∧
      (∃ s, w.sessions[0]? = some s ∧ MandatoryAt (demoEnv .mandatory) s.address) ∧
      ∀ e ∈ w.sent, e.sender.session? = some 0 → ∀ bytes, e.message.wire ≠ .plain bytes := by
  obtain ⟨w, hrun, hmode⟩ := exists_run_execWhere_and
    (f := fun (w : World) (op : Op) => w.step (demoEnv .mandatory) demoLibrary op)
    (G := Complies (demoEnv .mandatory) demoLibrary) (s := .boot) (l := mandatoryRun "13")
    (P := fun w => ((w.sessions[0]?).any fun s => decide (MandatoryAt (demoEnv .mandatory) s.address)) = true)
    (by decide +kernel)
  obtain ⟨s, hs, hmode⟩ := (Option.any_eq_true _ _).mp hmode
  have hmode := of_decide_eq_true hmode
  exact ⟨w, hrun, ⟨s, hs, hmode⟩, (mandatory_encryption (by decide) (by decide) hrun hs hmode).1⟩

/-- **A session of the old control protocol is not encrypted**: it is started at an address with mandatory encryption,
sends its control messages as they are and handles a control message that arrived unencrypted. -/
theorem mandatory_not_encrypted :
    ∃ w, Run (WorldStep (demoEnv .mandatory) demoLibrary) .boot (mandatoryRun "1") w ∧
      (∃ s, w.sessions[0]? = some s ∧ MandatoryAt (demoEnv .mandatory) s.address) ∧
      ⟨0, .control 0, { iv := none, wire := .plain [1] }⟩ ∈ w.sent ∧
      (0, .handle .requestIdrFrame [] false) ∈ w.actions := by
  obtain ⟨w, hrun, hmode, hplain⟩ := exists_run_execWhere_and
    (f := fun (w : World) (op : Op) => w.step (demoEnv .mandatory) demoLibrary op) (G := fun _ _ => True)
    (s := .boot) (l := mandatoryRun "1")
    (P := fun w => ((w.sessions[0]?).any fun s => decide (MandatoryAt (demoEnv .mandatory) s.address)) = true ∧
      ⟨0, .control 0, { iv := none, wire := .plain [1] }⟩ ∈ w.sent ∧
      (0, .handle .requestIdrFrame [] false) ∈ w.actions)
    (by decide +kernel)
  obtain ⟨s, hs, hmode⟩ := (Option.any_eq_true _ _).mp hmode
  exact ⟨w, hrun.of_guarded, ⟨s, hs, of_decide_eq_true hmode⟩, hplain⟩

end MidnightSun.Stream
