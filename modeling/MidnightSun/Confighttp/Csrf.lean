import Mathlib.Data.List.DropRight
import MidnightSun.Lib.Expiring
import MidnightSun.Net.Address
import MidnightSun.Util.Hex

/-!
# Who may call the web API (src/confighttp.cpp, `check_content_type` to `validate_csrf_token`)

The checks that the handlers make before they do anything.  A check that fails sends a response; where it passes, it
returns none.
-/

namespace MidnightSun.Confighttp

open Lib Net Util

/-- `config::sunshine` and `http::origin_web_ui_allowed`, as far as the checks read them. -/
structure Config where
  username : Str
  password : Str
  salt : Str
  csrfAllowedOrigins : List Str
  originWebUiAllowed : NetE

/-- The configuration, with what the checks use of other libraries. -/
structure Env extends Config where
  /-- `SimpleWeb::Crypto::Base64::decode` -/
  decode : Str → Str
  /-- `crypto::hash` -/
  hash : Str → Str
  /-- `addr_to_normalized_string` -/
  addrToNormalizedString : Address → Str

/-- The headers and the query that the checks read. -/
structure Request where
  contentType : Option Str := none
  authorization : Option Str := none
  origin : Option Str := none
  referer : Option Str := none
  xCsrfToken : Option Str := none
  /-- `csrf_token` of the query string -/
  csrfToken : Option Str := none
  remoteEndpoint : Address

inductive Response where
  | badRequest (errorMessage : String)
  | unauthorized
  | forbidden
  | redirect (path : String)
  deriving DecidableEq

/-! ### `check_content_type` -/

def toLower (s : Str) : Str := s.map fun c => if 65 ≤ c && c ≤ 90 then c + 32 else c

/-- `boost::algorithm::trim`. -/
def trim (s : Str) : Str := (s.dropWhile isSpace).rdropWhile isSpace

def checkContentType (request : Request) (contentType : Str) : Option Response :=
  match request.contentType with
  | none => some (.badRequest "Content type not provided")
  | some actual =>
    if toLower (trim (actual.takeWhile (· != 59))) = toLower contentType then none
    else some (.badRequest "Content type mismatch")

/-! ### `authenticate` and `get_client_id` -/

/-- The order of `net_e`. -/
def rank : NetE → ℕ
  | .pc => 0
  | .lan => 1
  | .wan => 2

/-- The user name and the password: a colon, and something behind it. -/
def splitCredentials (authData : Str) : Option (Str × Str) :=
  let index := (authData.takeWhile (· != 58)).length
  if index + 1 < authData.length then some (authData.take index, authData.drop (index + 1)) else none

/-- What is behind `Basic `; a shorter header makes `substr` throw. -/
def behindBasic (rawAuth : Str) : Option Str := if rawAuth.length < 6 then none else some (rawAuth.drop 6)

def authenticate (env : Env) (request : Request) : Option Response :=
  if rank (fromAddress request.remoteEndpoint) > rank env.originWebUiAllowed then some .forbidden
  else if env.username = [] then some (.redirect "/welcome")
  else
    match request.authorization.bind fun rawAuth =>
      (behindBasic rawAuth).bind fun data => splitCredentials (env.decode data) with
    | none => some .unauthorized
    | some (username, password) =>
      if toLower username ≠ toLower env.username ∨ hexVec (env.hash (password ++ env.salt)) false ≠ env.password then
        some .unauthorized
      else none

def getClientId (env : Env) (request : Request) : Str :=
  let byName :=
    if env.username = [] then none
    else request.authorization.bind fun rawAuth =>
      if (str "Basic ").isPrefixOf rawAuth then splitCredentials (env.decode (rawAuth.drop 6)) else none
  match byName with
  | some (username, _) => username
  | none => env.addrToNormalizedString request.remoteEndpoint

/-! ### The tokens -/

/-- `csrf_tokens`. -/
abbrev Tokens := Str → Option (Expiring Str)

/-- `CSRF_TOKEN_LIFETIME`, in nanoseconds. -/
def csrfTokenLifetime : ℤ := 3600 * 10 ^ 9

/-- `generate_csrf_token`, where `token` is what `crypto::rand_alphabet` returns. -/
def generateCsrfToken (tokens : Tokens) (clientId token : Str) (now : ℤ) : Tokens :=
  Expiring.put csrfTokenLifetime tokens clientId token now

/-- The response to a stored token that is not valid. -/
def checkedResponse : Expiring.Checked → Option Response
  | .absent => some (.badRequest "Invalid CSRF token")
  | .expired => some (.badRequest "CSRF token expired")
  | .mismatch => some (.badRequest "Invalid CSRF token")
  | .valid => none

def validateStoredCsrfToken (tokens : Tokens) (clientId providedToken : Str) (now : ℤ) : Option Response × Tokens :=
  let checked := Expiring.check tokens clientId providedToken now
  (checkedResponse checked.1, checked.2)

/-- `is_allowed_origin`: an allowed origin, followed by nothing, a port or a path. -/
def isAllowedOrigin (csrfAllowedOrigins : List Str) (url : Str) : Bool :=
  csrfAllowedOrigins.any fun allowedOrigin =>
    allowedOrigin.isPrefixOf url &&
      (url.length == allowedOrigin.length || url[allowedOrigin.length]? == some 58 ||
        url[allowedOrigin.length]? == some 47)

/-- The token that a request presents. -/
def presented (request : Request) : Option Str := request.xCsrfToken <|> request.csrfToken

def validateCsrfToken (csrfAllowedOrigins : List Str) (tokens : Tokens) (request : Request) (clientId : Str) (now : ℤ) :
    Option Response × Tokens :=
  if request.origin.any (isAllowedOrigin csrfAllowedOrigins) then (none, tokens)
  else if request.referer.any (isAllowedOrigin csrfAllowedOrigins) then (none, tokens)
  -- not a browser
  else if request.origin = none ∧ request.referer = none then (none, tokens)
  else
    match presented request with
    | none => (some (.badRequest "Missing CSRF token"), tokens)
    | some token => validateStoredCsrfToken tokens clientId token now

/-! ### What passes -/

/-- `generate_csrf_token` and `validate_stored_csrf_token`, called by anybody. -/
abbrev Call := Expiring.Access Str Str

/-- The tokens after the calls. -/
def tokensAfter (calls : List Call) : Tokens := Expiring.after csrfTokenLifetime calls

lemma tokensAfter_generate (calls : List Call) (clientId token : Str) (now : ℤ) :
    tokensAfter (calls ++ [.put clientId token now]) = generateCsrfToken (tokensAfter calls) clientId token now :=
  Expiring.after_put ..

lemma tokensAfter_validate (calls : List Call) (clientId token : Str) (now : ℤ) :
    tokensAfter (calls ++ [.check clientId token now]) =
      (validateStoredCsrfToken (tokensAfter calls) clientId token now).2 :=
  Expiring.after_check ..

/-- The token is the last that was generated for the client, and it has not expired. -/
def Current (calls : List Call) (clientId token : Str) (now : ℤ) : Prop :=
  ∃ e, Expiring.last csrfTokenLifetime clientId calls = some e ∧ now ≤ e.expiration ∧ e.value = token

lemma checkedResponse_eq_none {c : Expiring.Checked} : checkedResponse c = none ↔ c = .valid := by
  cases c <;> simp [checkedResponse]

theorem current_of_validateStored {calls : List Call} {clientId token : Str} {now : ℤ}
    (h : (validateStoredCsrfToken (tokensAfter calls) clientId token now).1 = none) :
    Current calls clientId token now := by
  obtain ⟨e, he, hle, hv⟩ := Expiring.check_eq_valid.mp (checkedResponse_eq_none.mp h)
  exact ⟨e, Expiring.last_of_after he, hle, hv⟩

theorem validateStored_iff {calls : List Call} {clientId token : Str} {now : ℤ} (hnow : ∀ c ∈ calls, c.now ≤ now) :
    (validateStoredCsrfToken (tokensAfter calls) clientId token now).1 = none ↔ Current calls clientId token now :=
  checkedResponse_eq_none.trans (Expiring.check_after_iff hnow)

/-- The request names a site in `Origin` or `Referer`, and no site that it names is allowed. -/
def Foreign (csrfAllowedOrigins : List Str) (request : Request) : Prop :=
  (request.origin ≠ none ∨ request.referer ≠ none) ∧
    ∀ url, request.origin = some url ∨ request.referer = some url → isAllowedOrigin csrfAllowedOrigins url = false

/-- **A foreign request passes** only with a current token. -/
theorem current_of_validate {csrfAllowedOrigins : List Str} {calls : List Call} {request : Request} {clientId : Str}
    {now : ℤ}
    (hforeign : Foreign csrfAllowedOrigins request)
    (h : (validateCsrfToken csrfAllowedOrigins (tokensAfter calls) request clientId now).1 = none) :
    ∃ token, presented request = some token ∧ Current calls clientId token now := by
  obtain ⟨hnames, hnone⟩ := hforeign
  have horigin : ¬request.origin.any (isAllowedOrigin csrfAllowedOrigins) = true := by
    intro hany
    obtain ⟨url, hurl, hallowed⟩ := (Option.any_eq_true _ _).mp hany
    rw [hnone url (Or.inl hurl)] at hallowed
    cases hallowed
  have hreferer : ¬request.referer.any (isAllowedOrigin csrfAllowedOrigins) = true := by
    intro hany
    obtain ⟨url, hurl, hallowed⟩ := (Option.any_eq_true _ _).mp hany
    rw [hnone url (Or.inr hurl)] at hallowed
    cases hallowed
  have hsome : ¬(request.origin = none ∧ request.referer = none) := not_and_or.mpr hnames
  rw [validateCsrfToken, if_neg horigin, if_neg hreferer, if_neg hsome] at h
  cases hpresented : presented request with
  | none => simp [hpresented] at h
  | some token =>
    simp only [hpresented] at h
    exact ⟨token, rfl, current_of_validateStored h⟩

end MidnightSun.Confighttp
