import MidnightSun.Lib.Scope
import MidnightSun.Net.Address
import MidnightSun.Nvhttp.LaunchSession
import MidnightSun.Safe.Event

/-!
# The display during a launch request (src/nvhttp.cpp)

`launch` and `resume` configure the display before they know whether the request succeeds.  A scope guard writes the
answer when the handler is left; the one of `launch` reverts the display configuration as well, unless the flag
`revert_display_configuration` was taken back.
-/

namespace MidnightSun.Nvhttp

open Boost Lib Net Safe Util

/-- The calls of a handler that others see. -/
inductive LaunchCall where
  | configureDisplay (session : LaunchSession)
  | probeEncoders
  | execute (appid : ℤ) (session : LaunchSession)
  | launchSessionRaise (session : LaunchSession)
  | revertConfiguration
  | respond (tree : Ptree)

/-- A request, and what the functions return that its handler calls; `none` is an exception. -/
structure LaunchEnv where
  args : Args
  remote : Address
  /-- `addr_to_url_escaped_string` of the local endpoint -/
  localAddress : Str
  /-- `map_port(RTSP_SETUP_PORT)` -/
  rtspPort : ℕ
  encryption : EncryptionConfig
  /-- `proc.running()` -/
  running : ℤ
  sessionCount : ℤ
  random : LaunchRandom
  /-- `make_launch_session` comes to its end -/
  builds : Bool
  configureDisplay : Option Unit
  probeEncoders : Option ℤ
  execute : Option ℤ

/-- The globals that a handler changes, and its local variables. -/
structure Serving where
  hostAudio : Bool
  sessionIdCounter : UInt32
  launchEvent : Event LaunchSession := {}
  tree : Ptree := .empty
  revertDisplayConfiguration : Bool := false
  /-- ghost -/
  calls : List LaunchCall := []

namespace Serving

/-! ### The statements -/

def call (c : LaunchCall) : Body Serving Unit := modify fun s => { s with calls := s.calls ++ [c] }

/-- `tree.put` of one value after the other. -/
def puts (values : List (List String × Str)) : Body Serving Unit :=
  modify fun s => { s with tree := values.foldl (fun tree value => tree.put value.1 value.2) s.tree }

/-- A request that is refused: the answer says so, and the handler returns. -/
def refuse (values : List (List String × Str)) : Body Serving Unit := do
  puts values
  Body.leave

/-- `make_launch_session`. -/
def makeLaunchSession (env : LaunchEnv) : Body Serving LaunchSession := do
  modify fun s => { s with sessionIdCounter := s.sessionIdCounter + 1 }
  let s ← get
  Body.result (if env.builds then Nvhttp.makeLaunchSession s.sessionIdCounter env.random s.hostAudio env.args else none)

def configureDisplay (env : LaunchEnv) (session : LaunchSession) : Body Serving Unit := do
  call (.configureDisplay session)
  Body.result env.configureDisplay

def probeEncoders (env : LaunchEnv) : Body Serving ℤ := do
  call .probeEncoders
  Body.result env.probeEncoders

def execute (env : LaunchEnv) (appid : ℤ) (session : LaunchSession) : Body Serving ℤ := do
  call (.execute appid session)
  Body.result env.execute

/-- `session_raise`: a session that is pending is not overwritten. -/
def sessionRaise (session : LaunchSession) (event : Event LaunchSession) : Event LaunchSession :=
  if event.viewNow.isSome then event else event.raise session

def launchSessionRaise (session : LaunchSession) : Body Serving Unit := do
  call (.launchSessionRaise session)
  modify fun s => { s with launchEvent := sessionRaise session s.launchEvent }

/-- `root.sessionUrl0`. -/
def sessionUrl (env : LaunchEnv) (session : LaunchSession) : Str :=
  session.rtspUrlScheme ++ env.localAddress ++ str ":" ++ decimal env.rtspPort

/-- The client cannot encrypt, but has to. -/
def lacksEncryption (env : LaunchEnv) (session : LaunchSession) : Prop :=
  session.rtspCipher = none ∧ encryptionModeForAddress env.encryption env.remote = .mandatory

instance (env : LaunchEnv) (session : LaunchSession) : Decidable (lacksEncryption env session) :=
  inferInstanceAs (Decidable (_ ∧ _))

def noDisplay : Str := str "Failed to initialize video capture/encoding. Is a display connected and turned on?"

def mandatoryEncryption : Str := str "Encryption is mandatory for this host but unsupported by the client"

/-! ### The handlers -/

def launchBody (env : LaunchEnv) : Body Serving Unit := do
  Body.ifThen (env.args.find "rikey" = none ∨ env.args.find "rikeyid" = none ∨
      env.args.find "localAudioPlayMode" = none ∨ env.args.find "appid" = none) do
    refuse [(["root", "resume"], str "0"), (statusCode, str "400"),
      (statusMessage, str "Missing a required launch parameter")]
  let appid ← Body.result (getArg env.args "appid")
  Body.ifThen (0 < env.running) do
    refuse [(["root", "resume"], str "0"), (statusCode, str "400"),
      (statusMessage, str "An app is already running on this host")]
  let localAudioPlayMode ← Body.result (getArg env.args "localAudioPlayMode")
  modify fun s => { s with hostAudio := flag localAudioPlayMode }
  let session ← makeLaunchSession env
  Body.ifThen (env.sessionCount = 0) do
    modify fun s => { s with revertDisplayConfiguration := true }
    configureDisplay env session
    let err ← probeEncoders env
    Body.ifThen (err ≠ 0) do
      refuse [(statusCode, str "503"), (statusMessage, noDisplay), (["root", "gamesession"], str "0")]
  Body.ifThen (lacksEncryption env session) do
    refuse [(statusCode, str "403"), (statusMessage, mandatoryEncryption), (["root", "gamesession"], str "0")]
  Body.ifThen (0 < (fromView appid).toInt) do
    let err ← execute env (toInt (fromView appid)) session
    Body.ifThen (err ≠ 0) do
      refuse [(statusCode, decimal err), (statusMessage, str "Failed to start the specified application"),
        (["root", "gamesession"], str "0")]
  puts [(statusCode, str "200"), (["root", "sessionUrl0"], sessionUrl env session), (["root", "gamesession"], str "1")]
  launchSessionRaise session
  modify fun s => { s with revertDisplayConfiguration := false }

def resumeBody (env : LaunchEnv) : Body Serving Unit := do
  Body.ifThen (env.running = 0) do
    refuse [(["root", "resume"], str "0"), (statusCode, str "503"), (statusMessage, str "No running app to resume")]
  Body.ifThen (env.args.find "rikey" = none ∨ env.args.find "rikeyid" = none) do
    refuse [(["root", "resume"], str "0"), (statusCode, str "400"),
      (statusMessage, str "Missing a required resume parameter")]
  Body.ifThen (env.sessionCount = 0 ∧ env.args.find "localAudioPlayMode" ≠ none) do
    let localAudioPlayMode ← Body.result (getArg env.args "localAudioPlayMode")
    modify fun s => { s with hostAudio := flag localAudioPlayMode }
  let session ← makeLaunchSession env
  Body.ifThen (env.sessionCount = 0) do
    configureDisplay env session
    let err ← probeEncoders env
    Body.ifThen (err ≠ 0) do
      refuse [(["root", "resume"], str "0"), (statusCode, str "503"), (statusMessage, noDisplay)]
  Body.ifThen (lacksEncryption env session) do
    refuse [(statusCode, str "403"), (statusMessage, mandatoryEncryption), (["root", "gamesession"], str "0")]
  puts [(statusCode, str "200"), (["root", "sessionUrl0"], sessionUrl env session), (["root", "resume"], str "1")]
  launchSessionRaise session

/-- The answer that the guard of a handler writes. -/
def respond (s : Serving) : Serving := { s with calls := s.calls ++ [.respond s.tree] }

/-- The guard of `launch`. -/
def respondAndRevert (s : Serving) : Serving :=
  let s := s.respond
  if s.revertDisplayConfiguration then { s with calls := s.calls ++ [.revertConfiguration] } else s

def launch (env : LaunchEnv) : Body Serving Unit := (launchBody env).withGuard respondAndRevert

def resume (env : LaunchEnv) : Body Serving Unit := (resumeBody env).withGuard respond

end Serving

/-- The two requests. -/
inductive LaunchRequest where
  | launch
  | resume

/-- The handler of a request, called with what the globals are then. -/
def LaunchRequest.serve (request : LaunchRequest) (env : LaunchEnv) (hostAudio : Bool) (sessionIdCounter : UInt32)
    (launchEvent : Event LaunchSession) : Serving :=
  let s : Serving := { hostAudio, sessionIdCounter, launchEvent }
  match request with
  | .launch => (Serving.launch env).final s
  | .resume => (Serving.resume env).final s

/-- `resume` comes to `configure_display`. -/
def LaunchEnv.Configures (env : LaunchEnv) : Prop :=
  env.running ≠ 0 ∧ env.args.find "rikey" ≠ none ∧ env.args.find "rikeyid" ≠ none ∧ env.builds = true ∧
    env.sessionCount = 0

/-- Nothing goes wrong from `configure_display` on: it does not throw, an encoder is found, and the client encrypts if
it has to. -/
def LaunchEnv.Completes (env : LaunchEnv) : Prop :=
  env.configureDisplay ≠ none ∧ env.probeEncoders = some 0 ∧
    (env.args.encryptsRtsp = true ∨ encryptionModeForAddress env.encryption env.remote ≠ .mandatory)

instance (env : LaunchEnv) : Decidable env.Configures := inferInstanceAs (Decidable (_ ∧ _))

instance (env : LaunchEnv) : Decidable env.Completes := inferInstanceAs (Decidable (_ ∧ _))

/-! ### What is said of the calls -/

def LaunchCall.isConfigure : LaunchCall → Bool
  | .configureDisplay _ => true
  | _ => false

def LaunchCall.isRaise : LaunchCall → Bool
  | .launchSessionRaise _ => true
  | _ => false

def LaunchCall.isRevert : LaunchCall → Bool
  | .revertConfiguration => true
  | _ => false

namespace Serving

variable (s : Serving)

def configured : Bool := s.calls.any LaunchCall.isConfigure

def raised : Bool := s.calls.any LaunchCall.isRaise

def reverted : Bool := s.calls.any LaunchCall.isRevert

/-- A request that is refused leaves the display as it was: the configuration is reverted after it was made.  It is not
when the session was raised. -/
structure DisplayLeft : Prop where
  refused : s.raised = false → ∀ before c after, s.calls = before ++ c :: after → c.isConfigure = true →
    after.any LaunchCall.isRevert = true
  raised : s.raised = true → s.reverted = false

/-- Nothing was raised or reverted, and the guard will revert what was configured. -/
structure Quiet : Prop where
  raised : s.raised = false
  reverted : s.reverted = false
  flag : s.configured = true → s.revertDisplayConfiguration = true

/-- A session was raised, and the guard will not revert. -/
structure Done : Prop where
  raised : s.raised = true
  reverted : s.reverted = false
  flag : s.revertDisplayConfiguration = false

variable {s} {t : Serving} {c : LaunchCall}

/-! ### One more call -/

lemma any_calls (p : LaunchCall → Bool) (h : t.calls = s.calls ++ [c]) : t.calls.any p = (s.calls.any p || p c) := by
  rw [h, List.any_append, List.any_cons, List.any_nil, Bool.or_false]

lemma configured_of_calls (h : t.calls = s.calls ++ [c]) : t.configured = (s.configured || c.isConfigure) :=
  any_calls _ h

lemma raised_of_calls (h : t.calls = s.calls ++ [c]) : t.raised = (s.raised || c.isRaise) := any_calls _ h

lemma reverted_of_calls (h : t.calls = s.calls ++ [c]) : t.reverted = (s.reverted || c.isRevert) := any_calls _ h

/-! ### The handler of `/launch` -/

lemma Quiet.of_calls (h : s.Quiet) (hcalls : t.calls = s.calls)
    (hflag : s.revertDisplayConfiguration = true → t.revertDisplayConfiguration = true) : t.Quiet where
  raised := by
    unfold Serving.raised
    rw [hcalls]
    exact h.raised
  reverted := by
    unfold Serving.reverted
    rw [hcalls]
    exact h.reverted
  flag := by
    unfold configured
    rw [hcalls]
    exact fun hc => hflag (h.flag hc)

lemma Quiet.call (h : s.Quiet) (hraise : c.isRaise = false) (hrevert : c.isRevert = false)
    (hconfigure : c.isConfigure = true → s.revertDisplayConfiguration = true) :
    Quiet { s with calls := s.calls ++ [c] } where
  raised := by rw [raised_of_calls rfl, h.raised, hraise, Bool.or_false]
  reverted := by rw [reverted_of_calls rfl, h.reverted, hrevert, Bool.or_false]
  flag := by
    intro hc
    rw [configured_of_calls rfl, Bool.or_eq_true] at hc
    rcases hc with hc | hc
    · exact h.flag hc
    · exact hconfigure hc

variable {env : LaunchEnv}

lemma keeps_refuse {I : Serving → Prop} (values : List (List String × Str))
    (h : ∀ (s : Serving) (tree : Ptree), I s → I { s with tree }) : Body.Keeps I (refuse values) :=
  Body.Keeps.bind (Body.Keeps.assign fun s => h s _) fun _ => Body.Keeps.leave

lemma keeps_makeLaunchSession {I : Serving → Prop}
    (h : ∀ (s : Serving) (sessionIdCounter : UInt32), I s → I { s with sessionIdCounter }) :
    Body.Keeps I (makeLaunchSession env) :=
  Body.Keeps.bind (Body.Keeps.assign fun s => h s _) fun _ =>
    Body.Keeps.bind Body.Keeps.get fun _ => Body.Keeps.result _

lemma keeps_call {α : Type} {I : Serving → Prop} (x : Option α)
    (h : ∀ s : Serving, I s → I { s with calls := s.calls ++ [c] }) :
    Body.Keeps I (do call c; Body.result x) :=
  Body.Keeps.bind (Body.Keeps.assign h) fun _ => Body.Keeps.result x

lemma quiet_refuse {p : Prop} [Decidable p] (values : List (List String × Str)) :
    Body.Keeps Quiet (Body.ifThen p (refuse values)) :=
  Body.Keeps.ifThen (keeps_refuse values fun _ _ h => h.of_calls rfl id)

lemma quiet_call {α : Type} (x : Option α) (hraise : c.isRaise = false) (hrevert : c.isRevert = false)
    (hconfigure : c.isConfigure = false) : Body.Keeps Quiet (do call c; Body.result x) := by
  refine keeps_call x fun s h => h.call hraise hrevert fun hc => ?_
  rw [hconfigure] at hc
  cases hc

lemma quiet_configureDisplay (session : LaunchSession) :
    Body.Triple (fun s => s.Quiet ∧ s.revertDisplayConfiguration = true) (configureDisplay env session)
      (fun _ => Quiet) Quiet := by
  refine Body.Triple.bind (Q := fun _ => Quiet) (Body.Triple.assign fun _ h => ?_) fun _ => Body.Keeps.result _
  exact h.1.call rfl rfl fun _ => h.2

lemma Quiet.done (h : s.Quiet) (session : LaunchSession) (hcalls : t.calls = s.calls ++ [.launchSessionRaise session])
    (hflag : t.revertDisplayConfiguration = false) : t.Done where
  raised := (raised_of_calls hcalls).trans (Bool.or_true _)
  reverted := by
    rw [reverted_of_calls hcalls, h.reverted]
    rfl
  flag := hflag

/-- **Every exit of `launch`** before the session is raised leaves the flag set if the display was configured. -/
theorem launchBody_spec : Body.Triple Quiet (launchBody env) (fun _ => Done) Quiet := by
  unfold launchBody
  refine Body.Triple.bind (quiet_refuse _) fun _ => ?_
  refine Body.Triple.bind (Body.Keeps.result _) fun appid => ?_
  refine Body.Triple.bind (quiet_refuse _) fun _ => ?_
  refine Body.Triple.bind (Body.Keeps.result _) fun localAudioPlayMode => ?_
  refine Body.Triple.bind (Body.Keeps.assign fun _ h => h.of_calls rfl id) fun _ => ?_
  refine Body.Triple.bind (keeps_makeLaunchSession fun _ _ h => h.of_calls rfl id) fun session => ?_
  refine Body.Triple.bind (Q := fun _ => Quiet) (Body.Triple.ifThen (fun _ => ?_) fun _ _ h => h) fun _ => ?_
  · refine Body.Triple.bind (Q := fun _ s => s.Quiet ∧ s.revertDisplayConfiguration = true)
      (Body.Triple.assign fun s h => ?_) fun _ => ?_
    · exact ⟨Quiet.of_calls h rfl fun _ => rfl, rfl⟩
    refine Body.Triple.bind (quiet_configureDisplay session) fun _ => ?_
    exact Body.Triple.bind (quiet_call _ rfl rfl rfl) fun err => quiet_refuse _
  refine Body.Triple.bind (quiet_refuse _) fun _ => ?_
  refine Body.Triple.bind (Body.Keeps.ifThen ?_) fun _ => ?_
  · exact Body.Keeps.bind (quiet_call _ rfl rfl rfl) fun err => quiet_refuse _
  refine Body.Triple.bind (Body.Keeps.assign fun _ h => h.of_calls rfl id) fun _ => ?_
  intro s hs
  exact hs.done session rfl rfl

/-! ### The handler of `/resume` -/

/-- The display was configured, a session was raised, nothing was reverted. -/
structure Seen (configured raised : Bool) (s : Serving) : Prop where
  configured : s.configured = configured
  raised : s.raised = raised
  reverted : s.reverted = false

lemma Seen.call {configured raised : Bool} (h : Seen configured raised s) (c : LaunchCall)
    (hcalls : t.calls = s.calls ++ [c]) (hrevert : c.isRevert = false) :
    Seen (configured || c.isConfigure) (raised || c.isRaise) t where
  configured := by rw [configured_of_calls hcalls, h.configured]
  raised := by rw [raised_of_calls hcalls, h.raised]
  reverted := by rw [reverted_of_calls hcalls, h.reverted, hrevert, Bool.or_false]

lemma Seen.of_calls {configured raised : Bool} (h : Seen configured raised s) (hcalls : t.calls = s.calls) :
    Seen configured raised t where
  configured := by
    rw [← h.configured, Serving.configured, hcalls]
    rfl
  raised := by
    rw [← h.raised, Serving.raised, hcalls]
    rfl
  reverted := by
    rw [← h.reverted, Serving.reverted, hcalls]
    rfl

/-- How `resume` is left early: before the display was configured, or after. -/
def Refused (env : LaunchEnv) (s : Serving) : Prop :=
  ¬env.Configures ∧ Seen false false s ∨ (env.Configures ∧ ¬env.Completes) ∧ Seen true false s

lemma refuse_early (h : ¬env.Configures) (values : List (List String × Str)) {Q : Unit → Serving → Prop} :
    Body.Triple (Seen false false) (refuse values) Q (Refused env) :=
  Body.Triple.bind (Q := fun _ => Seen false false) (Body.Triple.assign fun _ hs => hs.of_calls rfl)
    fun _ => Body.Triple.leave fun _ hs => Or.inl ⟨h, hs⟩

lemma refuse_late (h : env.Configures) (hc : ¬env.Completes) (values : List (List String × Str))
    {Q : Unit → Serving → Prop} : Body.Triple (Seen true false) (refuse values) Q (Refused env) :=
  Body.Triple.bind (Q := fun _ => Seen true false) (Body.Triple.assign fun _ hs => hs.of_calls rfl)
    fun _ => Body.Triple.leave fun _ hs => Or.inr ⟨⟨h, hc⟩, hs⟩

/-- The session is built unless an exception is thrown. -/
lemma makeLaunchSession_spec (hrikey : env.args.find "rikey" ≠ none) (hrikeyid : env.args.find "rikeyid" ≠ none) :
    Body.Triple (Seen false false) (makeLaunchSession env)
      (fun session s => (env.builds = true ∧ session.rtspCipher.isSome = env.args.encryptsRtsp) ∧ Seen false false s)
      (Refused env) := by
  refine Body.Triple.bind (Q := fun _ => Seen false false) (Body.Triple.assign fun _ hs => hs.of_calls rfl) fun _ => ?_
  refine Body.Triple.bind (Q := fun _ => Seen false false) (fun _ hs => hs) fun w => ?_
  cases hbuilds : env.builds with
  | true =>
    obtain ⟨session, hsession, hcipher⟩ := makeLaunchSession_eq_some w.sessionIdCounter env.random w.hostAudio
      (Option.isSome_iff_ne_none.mpr hrikey) (Option.isSome_iff_ne_none.mpr hrikeyid)
    rw [if_pos rfl, hsession]
    exact Body.Triple.pure fun _ hs => ⟨⟨rfl, hcipher⟩, hs⟩
  | false =>
    rw [if_neg Bool.false_ne_true]
    refine Body.Triple.throw fun _ hs => Or.inl ⟨fun h => ?_, hs⟩
    have hbuilds' := h.2.2.2.1
    rw [hbuilds] at hbuilds'
    cases hbuilds'

/-- What `configure_display` and `probe_encoders` leave when there is no session: the display is configured. -/
lemma configure_spec (h : env.Configures) (session : LaunchSession) (values : List (List String × Str)) :
    Body.Triple (Seen false false)
      (do
        configureDisplay env session
        let err ← probeEncoders env
        Body.ifThen (err ≠ 0) (refuse values))
      (fun _ s => (env.configureDisplay ≠ none ∧ env.probeEncoders = some 0) ∧ Seen true false s) (Refused env) := by
  refine Body.Triple.bind (Q := fun _ s => env.configureDisplay ≠ none ∧ Seen true false s) ?_
    fun _ => Body.Triple.of_and fun hconfigure => ?_
  · refine Body.Triple.bind (Q := fun _ => Seen true false)
      (Body.Triple.assign fun _ hs => hs.call (.configureDisplay session) rfl rfl) fun _ => ?_
    refine Body.Triple.result (fun _ hx s hs => ⟨by rw [hx]; exact nofun, hs⟩) fun hnone s hs => ?_
    exact Or.inr ⟨⟨h, fun hc => hc.1 hnone⟩, hs⟩
  refine Body.Triple.bind (Q := fun err s => env.probeEncoders = some err ∧ Seen true false s) ?_
    fun err => Body.Triple.of_and fun hprobe => ?_
  · refine Body.Triple.bind (Q := fun _ => Seen true false)
      (Body.Triple.assign fun _ hs => hs.call .probeEncoders rfl rfl) fun _ => ?_
    refine Body.Triple.result (fun _ hx s hs => ⟨hx, hs⟩) fun hnone s hs => ?_
    refine Or.inr ⟨⟨h, fun hc => ?_⟩, hs⟩
    have hzero := hc.2.1
    rw [hnone] at hzero
    cases hzero
  refine Body.Triple.ifThen (fun herr => refuse_late h (fun hc => ?_) values) fun herr s hs => ?_
  · have hzero := hc.2.1
    rw [hprobe] at hzero
    exact herr (Option.some.inj hzero)
  · exact ⟨⟨hconfigure, by rw [hprobe, not_not.mp herr]⟩, hs⟩

/-- How `resume` goes on after the display was configured, or was not. -/
def Started (env : LaunchEnv) (s : Serving) : Prop :=
  ¬env.Configures ∧ Seen false false s ∨
    (env.Configures ∧ env.configureDisplay ≠ none ∧ env.probeEncoders = some 0) ∧ Seen true false s

/-- The check of the encryption is the last one. -/
lemma encryption_spec {session : LaunchSession} (hcipher : session.rtspCipher.isSome = env.args.encryptsRtsp)
    (values : List (List String × Str)) :
    Body.Triple (Started env) (Body.ifThen (lacksEncryption env session) (refuse values))
      (fun _ s => (env.Configures → env.Completes) ∧ ∃ configured, Seen configured false s) (Refused env) := by
  refine Body.Triple.ifThen (fun hlacks => ?_) fun hlacks s hs => ?_
  · refine Body.Triple.bind (Q := fun _ => Started env) (Body.Triple.assign fun s hs => ?_) fun _ =>
      Body.Triple.leave fun s hs => ?_
    · exact hs.imp (And.imp_right fun hs => hs.of_calls rfl) (And.imp_right fun hs => hs.of_calls rfl)
    rcases hs with hs | ⟨⟨h, -, -⟩, hs⟩
    · exact Or.inl hs
    · refine Or.inr ⟨⟨h, fun hc => ?_⟩, hs⟩
      rcases hc.2.2 with hencrypts | hmode
      · rw [← hcipher, hlacks.1] at hencrypts
        cases hencrypts
      · exact hmode hlacks.2
  · rcases hs with ⟨h, hs⟩ | ⟨⟨-, hconfigure, hprobe⟩, hs⟩
    · exact ⟨fun h' => absurd h' h, false, hs⟩
    · refine ⟨fun _ => ⟨hconfigure, hprobe, ?_⟩, true, hs⟩
      by_cases hmode : encryptionModeForAddress env.encryption env.remote = .mandatory
      · left
        rw [← hcipher, Option.isSome_iff_ne_none]
        exact fun hnone => hlacks ⟨hnone, hmode⟩
      · exact Or.inr hmode

/-- **Every exit of `resume`.** -/
theorem resumeBody_spec : Body.Triple (Seen false false) (resumeBody env)
    (fun _ s => (env.Configures → env.Completes) ∧ ∃ configured, Seen configured true s) (Refused env) := by
  unfold resumeBody
  refine Body.Triple.bind (Q := fun _ s => env.running ≠ 0 ∧ Seen false false s)
    (Body.Triple.ifThen (fun hp => refuse_early (fun h => h.1 hp) _) fun hp s hs => ⟨hp, hs⟩)
    fun _ => Body.Triple.of_and fun hrunning => ?_
  refine Body.Triple.bind
    (Q := fun _ s => (env.args.find "rikey" ≠ none ∧ env.args.find "rikeyid" ≠ none) ∧ Seen false false s)
    (Body.Triple.ifThen (fun hp => refuse_early (fun h => hp.elim h.2.1 h.2.2.1) _) fun hp _ hs => ⟨not_or.mp hp, hs⟩)
    fun _ => Body.Triple.of_and fun hkeys => ?_
  refine Body.Triple.bind (Q := fun _ => Seen false false) (Body.Triple.ifThen (fun haudio => ?_) fun _ _ hs => hs)
    fun _ => ?_
  · obtain ⟨arg, harg⟩ := getArg_eq_some (Option.isSome_iff_ne_none.mpr haudio.2)
    rw [harg]
    exact Body.Triple.bind (Q := fun _ => Seen false false) (Body.Triple.pure fun _ hs => hs)
      fun _ => Body.Triple.assign fun _ hs => hs.of_calls rfl
  refine Body.Triple.bind (makeLaunchSession_spec hkeys.1 hkeys.2) fun session => Body.Triple.of_and fun hsession => ?_
  obtain ⟨hbuilds, hcipher⟩ := hsession
  refine Body.Triple.bind (Q := fun _ => Started env) (Body.Triple.ifThen (fun hcount => ?_) fun hcount s hs => ?_)
    fun _ => ?_
  · have h : env.Configures := ⟨hrunning, hkeys.1, hkeys.2, hbuilds, hcount⟩
    exact (configure_spec h session _).mono (fun _ hs => hs) (fun _ _ hs => Or.inr ⟨⟨h, hs.1⟩, hs.2⟩) fun _ hs => hs
  · exact Or.inl ⟨fun h => hcount h.2.2.2.2, hs⟩
  refine Body.Triple.bind (encryption_spec hcipher _) fun _ => Body.Triple.of_and fun hcompletes => ?_
  rintro s ⟨configured, hs⟩
  exact ⟨hcompletes, _, hs.call (.launchSessionRaise session) rfl rfl⟩

/-! ### The display -/

/-- Where nothing was reverted, the display is left as it was unless it was configured and no session was raised. -/
lemma Seen.left_iff {configured raised : Bool} (h : Seen configured raised s) :
    s.DisplayLeft ↔ (configured = true → raised = true) := by
  constructor
  · rintro hleft rfl
    by_contra hraised
    have hraised' : s.raised = false := h.raised.trans (Bool.eq_false_iff.mpr hraised)
    obtain ⟨c, hmem, hc⟩ := List.any_eq_true.mp h.configured
    obtain ⟨before, after, hcalls⟩ := List.append_of_mem hmem
    have hrevert := hleft.refused hraised' before c after hcalls hc
    have hreverted := h.reverted
    rw [Serving.reverted, hcalls, List.any_append, List.any_cons, hrevert, Bool.or_true, Bool.or_true] at hreverted
    cases hreverted
  · intro himp
    refine ⟨fun hraised before c after hcalls hc => ?_, fun _ => h.reverted⟩
    have hconfigured : s.configured = true := by
      rw [Serving.configured, hcalls, List.any_append, List.any_cons, hc, Bool.true_or, Bool.or_true]
    rw [h.configured] at hconfigured
    rw [h.raised, himp hconfigured] at hraised
    cases hraised

lemma Seen.respond {configured raised : Bool} (h : Seen configured raised s) :
    Seen (configured || false) (raised || false) s.respond := h.call (.respond s.tree) rfl rfl

lemma respondAndRevert_of_not_flag (h : s.revertDisplayConfiguration = false) : s.respondAndRevert = s.respond := by
  change (if s.revertDisplayConfiguration = true then _ else _) = _
  rw [h]
  rfl

/-- The guard of `launch` reverts what is configured. -/
lemma Quiet.displayLeft (h : s.Quiet) : s.respondAndRevert.DisplayLeft := by
  cases hflag : s.revertDisplayConfiguration with
  | true =>
    have hcalls : s.respondAndRevert.calls = (s.calls ++ [.respond s.tree]) ++ [.revertConfiguration] := by
      change Serving.calls (if s.revertDisplayConfiguration = true then _ else _) = _
      rw [hflag]
      rfl
    refine ⟨fun _ before c after hafter hc => ?_, fun hraised => ?_⟩
    · rw [hcalls] at hafter
      rcases List.eq_nil_or_concat after with rfl | ⟨after, x, rfl⟩
      · obtain ⟨-, hlast⟩ := List.append_inj' hafter rfl
        rw [← List.singleton_inj.mp hlast] at hc
        cases hc
      · rw [List.concat_eq_append, ← List.cons_append, ← List.append_assoc] at hafter
        obtain ⟨-, hlast⟩ := List.append_inj' hafter rfl
        rw [List.concat_eq_append, ← List.singleton_inj.mp hlast, List.any_append]
        exact Bool.or_true _
    · have hnot : s.calls.any LaunchCall.isRaise = false := h.raised
      rw [Serving.raised, hcalls, List.any_append, List.any_append, hnot] at hraised
      cases hraised
  | false =>
    have hconfigured : s.configured = false := by
      by_contra hc
      have hset := h.flag (Bool.not_eq_false _ ▸ hc)
      rw [hflag] at hset
      cases hset
    have hseen : Seen false false s := ⟨hconfigured, h.raised, h.reverted⟩
    rw [respondAndRevert_of_not_flag hflag]
    exact hseen.respond.left_iff.mpr nofun

lemma Done.displayLeft (h : s.Done) : s.respondAndRevert.DisplayLeft := by
  have hseen : Seen s.configured true s := ⟨rfl, h.raised, h.reverted⟩
  rw [respondAndRevert_of_not_flag h.flag]
  exact hseen.respond.left_iff.mpr fun _ => rfl

theorem launch_spec : Body.Triple Quiet (launch env) (fun _ => DisplayLeft) DisplayLeft :=
  Body.Triple.withGuard (launchBody_spec.mono (fun _ h => h) (fun _ _ h => h.displayLeft) fun _ h => h.displayLeft)

theorem resume_spec : Body.Triple (Seen false false) (resume env)
    (fun _ s => s.DisplayLeft ↔ (env.Configures → env.Completes))
    (fun s => s.DisplayLeft ↔ (env.Configures → env.Completes)) := by
  refine Body.Triple.withGuard (resumeBody_spec.mono (fun _ h => h) ?_ ?_)
  · rintro _ s ⟨hcompletes, configured, hseen⟩
    exact iff_of_true (hseen.respond.left_iff.mpr fun _ => rfl) hcompletes
  · rintro s (⟨hconfigures, hseen⟩ | ⟨⟨hconfigures, hcompletes⟩, hseen⟩)
    · exact iff_of_true (hseen.respond.left_iff.mpr nofun) fun h => absurd h hconfigures
    · refine iff_of_false (fun hleft => ?_) fun h => hcompletes (h hconfigures)
      cases hseen.respond.left_iff.mp hleft rfl

/-! ### The pending session -/

/-- A session is pending exactly if the handler raised one. -/
def Tracks (s : Serving) : Prop := s.launchEvent.running = true ∧ s.launchEvent.status.isSome = s.raised

lemma Tracks.call (h : s.Tracks) (hc : c.isRaise = false) : Tracks { s with calls := s.calls ++ [c] } := by
  have hraised : Serving.raised { s with calls := s.calls ++ [c] } = (s.raised || c.isRaise) := raised_of_calls rfl
  rw [hc, Bool.or_false] at hraised
  exact ⟨h.1, h.2.trans hraised.symm⟩

lemma tracks_refuse {p : Prop} [Decidable p] (values : List (List String × Str)) :
    Body.Keeps Tracks (Body.ifThen p (refuse values)) :=
  Body.Keeps.ifThen (keeps_refuse values fun _ _ h => h)

lemma tracks_launchSessionRaise (session : LaunchSession) : Body.Keeps Tracks (launchSessionRaise session) := by
  intro s h
  have hraised : (s.calls ++ [LaunchCall.launchSessionRaise session]).any LaunchCall.isRaise = true :=
    List.any_append.trans (Bool.or_true _)
  refine ⟨?_, Eq.trans ?_ hraised.symm⟩
  · change (sessionRaise session s.launchEvent).running = true
    unfold sessionRaise
    split
    · exact h.1
    · rw [Event.raise_of_running h.1]
      exact h.1
  · change (sessionRaise session s.launchEvent).status.isSome = true
    unfold sessionRaise
    rw [Event.viewNow_of_running h.1]
    split
    next hpending => exact hpending
    · rw [Event.raise_of_running h.1]
      rfl

/-- What `configure_display` and `probe_encoders` do in both handlers. -/
lemma tracks_configure (session : LaunchSession) (values : List (List String × Str)) :
    Body.Keeps Tracks (do
      configureDisplay env session
      let err ← probeEncoders env
      Body.ifThen (err ≠ 0) (refuse values)) := by
  refine Body.Keeps.bind (keeps_call _ fun _ h => h.call rfl) fun _ => ?_
  refine Body.Keeps.bind (keeps_call _ fun _ h => h.call rfl) fun err => ?_
  exact tracks_refuse values

lemma tracks_launch : Body.Keeps Tracks (launch env) := by
  refine Body.Keeps.withGuard ?_ fun s h => ?_
  · unfold launchBody
    refine Body.Keeps.bind (tracks_refuse _) fun _ => ?_
    refine Body.Keeps.bind (Body.Keeps.result _) fun appid => ?_
    refine Body.Keeps.bind (tracks_refuse _) fun _ => ?_
    refine Body.Keeps.bind (Body.Keeps.result _) fun localAudioPlayMode => ?_
    refine Body.Keeps.bind (Body.Keeps.assign fun _ h => h) fun _ => ?_
    refine Body.Keeps.bind (keeps_makeLaunchSession fun _ _ h => h) fun session => ?_
    refine Body.Keeps.bind (Body.Keeps.ifThen ?_) fun _ => ?_
    · exact Body.Keeps.bind (Body.Keeps.assign fun _ h => h) fun _ => tracks_configure session _
    refine Body.Keeps.bind (tracks_refuse _) fun _ => ?_
    refine Body.Keeps.bind (Body.Keeps.ifThen ?_) fun _ => ?_
    · exact Body.Keeps.bind (keeps_call _ fun _ h => h.call rfl) fun err => tracks_refuse _
    refine Body.Keeps.bind (Body.Keeps.assign fun _ h => h) fun _ => ?_
    exact Body.Keeps.bind (tracks_launchSessionRaise session) fun _ => Body.Keeps.assign fun _ h => h
  · have hrespond : s.respond.Tracks := h.call rfl
    change Tracks (if s.revertDisplayConfiguration = true then _ else _)
    split
    · exact hrespond.call rfl
    · exact hrespond

lemma tracks_resume : Body.Keeps Tracks (resume env) := by
  refine Body.Keeps.withGuard ?_ fun s h => h.call rfl
  unfold resumeBody
  refine Body.Keeps.bind (tracks_refuse _) fun _ => ?_
  refine Body.Keeps.bind (tracks_refuse _) fun _ => ?_
  refine Body.Keeps.bind (Body.Keeps.ifThen ?_) fun _ => ?_
  · exact Body.Keeps.bind (Body.Keeps.result _) fun _ => Body.Keeps.assign fun _ h => h
  refine Body.Keeps.bind (keeps_makeLaunchSession fun _ _ h => h) fun session => ?_
  refine Body.Keeps.bind (Body.Keeps.ifThen (tracks_configure session _)) fun _ => ?_
  refine Body.Keeps.bind (tracks_refuse _) fun _ => ?_
  refine Body.Keeps.bind (Body.Keeps.assign fun _ h => h) fun _ => ?_
  exact tracks_launchSessionRaise session

end Serving

/-- Where no session is pending, a request leaves one exactly if it raises its own. -/
theorem pending_eq_raised (request : LaunchRequest) (env : LaunchEnv) (hostAudio : Bool) (sessionIdCounter : UInt32) :
    (request.serve env hostAudio sessionIdCounter {}).launchEvent.status.isSome =
      (request.serve env hostAudio sessionIdCounter {}).raised := by
  cases request with
  | launch => exact (Body.Triple.final (Q := Serving.Tracks) Serving.tracks_launch ⟨rfl, rfl⟩).2
  | resume => exact (Body.Triple.final (Q := Serving.Tracks) Serving.tracks_resume ⟨rfl, rfl⟩).2

lemma serve_resume_iff (env : LaunchEnv) (hostAudio : Bool) (sessionIdCounter : UInt32)
    (launchEvent : Event LaunchSession) :
    (LaunchRequest.resume.serve env hostAudio sessionIdCounter launchEvent).DisplayLeft ↔
      (env.Configures → env.Completes) :=
  Body.Triple.final Serving.resume_spec ⟨rfl, rfl, rfl⟩

/-- **When a request leaves the display as it was.**  `/launch` always does. -/
theorem displayLeft_iff (request : LaunchRequest) (env : LaunchEnv) (hostAudio : Bool) (sessionIdCounter : UInt32)
    (launchEvent : Event LaunchSession) :
    (request.serve env hostAudio sessionIdCounter launchEvent).DisplayLeft ↔
      (request = .resume → env.Configures → env.Completes) := by
  cases request with
  | launch =>
    refine iff_of_true (Body.Triple.final Serving.launch_spec ⟨rfl, rfl, ?_⟩) nofun
    exact nofun
  | resume =>
    rw [serve_resume_iff]
    exact ⟨fun h _ => h, fun h => h rfl⟩

/-- A client resumes the app, and no encoder is found. -/
def noEncoder : LaunchEnv where
  args := [(str "rikey", str "00112233445566778899AABBCCDDEEFF"), (str "rikeyid", str "1")]
  remote := .v4 0x7f000001
  localAddress := str "127.0.0.1"
  rtspPort := 48010
  encryption := {}
  running := 7
  sessionCount := 0
  random := ⟨List.replicate 8 0, 0⟩
  builds := true
  configureDisplay := some ()
  probeEncoders := some (-1)
  execute := some 0

/-- The display stays as it was configured. -/
theorem resume_keeps_display : ¬∀ (request : LaunchRequest) (env : LaunchEnv) (hostAudio : Bool)
    (sessionIdCounter : UInt32) (launchEvent : Event LaunchSession),
    (request.serve env hostAudio sessionIdCounter launchEvent).DisplayLeft := by
  intro h
  have hleft := (serve_resume_iff noEncoder false 0 {}).mp (h .resume noEncoder false 0 {})
  have hconfigures : noEncoder.Configures := by decide +kernel
  exact absurd (hleft hconfigures) (by decide +kernel)

end MidnightSun.Nvhttp
