import MidnightSun.Confighttp.Csrf

/-!
# The handlers of the web API that change something (src/confighttp.cpp)

Every handler makes its own checks before its first effect.  An effect is a call that changes the host; what the calls
answer, and whether the body and the files of a request can be read, are `Answers`.
-/

namespace MidnightSun.Confighttp

open Lib Net Util

inductive Effect
  | writeApps
  | refresh
  | terminate
  | setClientEnabled
  | terminateSessions
  | unpairClient
  | eraseAllClients
  | writeConfig
  | makeCoverDirectory
  | downloadCover
  | writeCover
  | saveUserCreds
  | reloadUserCreds
  | pin
  | resetPersistence
  | restart
  | runInstaller
  deriving DecidableEq

/-- What a handler meets on its way. -/
structure Answers where
  /-- nothing is thrown before the first effect: the body, the files and the values that it needs are as expected -/
  reads : Bool := true
  /-- `check_app_index` -/
  indexInRange : Bool := true
  /-- `enabled` of the body, and the result of `set_client_enabled` -/
  enabled : Bool := true
  clientChanged : Bool := true
  /-- no session is left, and an app runs -/
  noSessions : Bool := true
  appRuns : Bool := true
  /-- the results of `unpair_client` and of `get_all_clients().empty()` -/
  removed : Bool := true
  noClients : Bool := true
  /-- `key` and `url` of the body are not empty, and the host of `url` is the allowed one -/
  keyGiven : Bool := true
  urlGiven : Bool := false
  urlHostAllowed : Bool := true
  /-- there is a user name, the current credentials are right, and the new password is given twice -/
  usernameGiven : Bool := true
  credentialsRight : Bool := true
  passwordConfirmed : Bool := true
  /-- the installer of a Windows build -/
  installer : Bool := true

/-- How a handler ends: with the response of the check that failed, or past its checks. -/
structure Outcome where
  refused : Option Response := none
  effects : List Effect := []
  tokens : Tokens

abbrev Handler := Env → Tokens → Request → ℤ → Answers → Outcome

/-- The checks of most handlers, and then `body`: `json` says whether the content type is checked, and `skipsAuth`
whether there are no credentials to ask for. -/
def guarded (json : Bool) (skipsAuth : Env → Bool) (body : Answers → List Effect) : Handler :=
  fun env tokens request now answers =>
    match if json then checkContentType request (str "application/json") else none with
    | some response => { refused := some response, tokens }
    | none =>
      match if skipsAuth env then none else authenticate env request with
      | some response => { refused := some response, tokens }
      | none =>
        match validateCsrfToken env.csrfAllowedOrigins tokens request (getClientId env request) now with
        | (some response, tokens) => { refused := some response, tokens }
        | (none, tokens) => { effects := body answers, tokens }

def never (_ : Env) : Bool := false

def saveApp : Handler := guarded true never fun a => if a.reads then [.writeApps, .refresh] else []

def closeApp : Handler := guarded false never fun _ => [.terminate]

def deleteApp : Handler := guarded false never fun a =>
  if a.reads && a.indexInRange then [.writeApps, .refresh] else []

def updateClient : Handler := guarded true never fun a =>
  if a.reads then
    .setClientEnabled :: if !a.enabled && a.clientChanged then
      .terminateSessions :: if a.noSessions && a.appRuns then [.terminate] else []
    else []
  else []

def unpair : Handler := guarded true never fun a =>
  if a.reads then .unpairClient :: if a.removed && a.noClients then [.terminate] else [] else []

def unpairAll : Handler := guarded false never fun _ => [.eraseAllClients, .terminate]

def saveConfig : Handler := guarded true never fun a => if a.reads then [.writeConfig] else []

/-- `uploadCover` asks for no token. -/
def uploadCover : Handler := fun env tokens request _ answers =>
  match checkContentType request (str "application/json") with
  | some response => { refused := some response, tokens }
  | none =>
    match authenticate env request with
    | some response => { refused := some response, tokens }
    | none => {
        effects :=
          if answers.reads && answers.keyGiven then
            .makeCoverDirectory ::
              if answers.urlGiven then (if answers.urlHostAllowed then [.downloadCover] else []) else [.writeCover]
          else []
        tokens }

/-- Before the first password anybody may set it. -/
def savePassword : Handler := guarded true (fun env => env.username.isEmpty) fun a =>
  if a.reads && a.usernameGiven && a.credentialsRight && a.passwordConfirmed then [.saveUserCreds, .reloadUserCreds]
  else []

/-- A PIN out of range is answered with an error, and entered all the same. -/
def savePin : Handler := guarded true never fun a => if a.reads then [.pin] else []

def resetDisplayDevicePersistence : Handler := guarded false never fun _ => [.resetPersistence]

def restart : Handler := guarded false never fun _ => [.restart]

def installViGEmBus : Handler := guarded false never fun a => if a.installer then [.runInstaller] else []

/-- The resources of `start` whose handlers change something. -/
inductive Route
  | appsPost
  | appsDelete
  | appsClose
  | clientsUnpair
  | clientsUnpairAll
  | clientsUpdate
  | configPost
  | coversUpload
  | password
  | pin
  | resetDisplayDevicePersistence
  | restart
  | vigembusInstall
  deriving DecidableEq

def Route.handler : Route → Handler
  | .appsPost => saveApp
  | .appsDelete => deleteApp
  | .appsClose => closeApp
  | .clientsUnpair => Confighttp.unpair
  | .clientsUnpairAll => unpairAll
  | .clientsUpdate => updateClient
  | .configPost => saveConfig
  | .coversUpload => uploadCover
  | .password => savePassword
  | .pin => savePin
  | .resetDisplayDevicePersistence => Confighttp.resetDisplayDevicePersistence
  | .restart => Confighttp.restart
  | .vigembusInstall => installViGEmBus

/-- The route has no effect for a foreign request without a current token. -/
def Protected (route : Route) : Prop :=
  ∀ (env : Env) (calls : List Call) (request : Request) (now : ℤ) (answers : Answers),
    Foreign env.csrfAllowedOrigins request →
    (route.handler env (tokensAfter calls) request now answers).effects ≠ [] →
    ∃ token, presented request = some token ∧ Current calls (getClientId env request) token now

/-- **The common checks protect.** -/
theorem guarded_protects {json : Bool} {skipsAuth : Env → Bool} {body : Answers → List Effect} {env : Env}
    {calls : List Call}
    {request : Request} {now : ℤ} {answers : Answers} (hforeign : Foreign env.csrfAllowedOrigins request)
    (h : (guarded json skipsAuth body env (tokensAfter calls) request now answers).effects ≠ []) :
    ∃ token, presented request = some token ∧ Current calls (getClientId env request) token now := by
  apply current_of_validate hforeign
  unfold guarded at h
  cases hcontent : (if json then checkContentType request (str "application/json") else none) with
  | some response => simp [hcontent] at h
  | none =>
    cases hauth : (if skipsAuth env then none else authenticate env request) with
    | some response => simp [hcontent, hauth] at h
    | none =>
      simp only [hcontent, hauth] at h
      generalize validateCsrfToken env.csrfAllowedOrigins (tokensAfter calls) request (getClientId env request)
        now = v at *
      obtain ⟨response, tokens⟩ := v
      cases response with
      | some response => simp at h
      | none => rfl

/-- A host whose user is `u` with the password `p`, and which allows one origin. -/
def uploadEnv : Env where
  username := str "u"
  password := hexVec (str "p") false
  salt := []
  csrfAllowedOrigins := [str "https://localhost"]
  originWebUiAllowed := .lan
  decode := fun data => if data = str "dTpw" then str "u:p" else []
  hash := fun s => s
  addrToNormalizedString := fun _ => str "127.0.0.1"

/-- A page of another site posts a cover, with the credentials that the browser has kept. -/
def uploadRequest : Request where
  contentType := some (str "application/json")
  authorization := some (str "Basic dTpw")
  origin := some (str "https://example.com")
  remoteEndpoint := .v4 0x7f000001

lemma uploadCover_effects : Foreign uploadEnv.csrfAllowedOrigins uploadRequest ∧
    (uploadCover uploadEnv (tokensAfter []) uploadRequest 0 {}).effects = [.makeCoverDirectory, .writeCover] := by
  refine ⟨⟨Or.inl (Option.some_ne_none _), fun url hurl => ?_⟩, by decide⟩
  rcases hurl with hurl | hurl
  · obtain rfl := Option.some.inj hurl
    decide
  · cases hurl

lemma not_protected_coversUpload : ¬Protected .coversUpload := by
  intro h
  obtain ⟨hforeign, heffects⟩ := uploadCover_effects
  have hne : (uploadCover uploadEnv (tokensAfter []) uploadRequest 0 {}).effects ≠ [] := by
    rw [heffects]
    exact List.cons_ne_nil _ _
  obtain ⟨token, hpresented, -⟩ := h uploadEnv [] uploadRequest 0 {} hforeign hne
  cases hpresented

/-- **A route is protected** exactly if it is not the one for covers. -/
theorem protected_iff (route : Route) : Protected route ↔ route ≠ .coversUpload := by
  constructor
  · rintro h rfl
    exact not_protected_coversUpload h
  · intro hroute env calls request now answers hforeign h
    cases route with
    | coversUpload => exact absurd rfl hroute
    | _ => exact guarded_protects hforeign h

/-- The cover is written for a foreign request without a token. -/
theorem not_protected_upload :
    Foreign uploadEnv.csrfAllowedOrigins uploadRequest ∧ presented uploadRequest = none ∧
      (uploadCover uploadEnv (tokensAfter []) uploadRequest 0 {}).effects ≠ [] ∧ ¬Protected .coversUpload := by
  obtain ⟨hforeign, heffects⟩ := uploadCover_effects
  refine ⟨hforeign, rfl, ?_, not_protected_coversUpload⟩
  rw [heffects]
  exact List.cons_ne_nil _ _

end MidnightSun.Confighttp
