import Mathlib.Data.List.AList
import MidnightSun.Nvhttp.Clients
import MidnightSun.Util.Hex

/-!
# Pairing (src/nvhttp.cpp)

The four phases of a pairing session, the request handler `pair` that runs them and the call `pin` that enters the
PIN.  A session has a number that counts the sessions created before it, and the state keeps a log of what was done to
each number; both are ghost state, and no branch looks at them.
-/

namespace MidnightSun.Nvhttp

open Boost Safe Lib Util

/-! ### Sessions -/

/-- `PAIR_PHASE`. -/
inductive PairPhase where
  | none
  | getservercert
  | clientchallenge
  | serverchallengeresp
  | clientpairingsecret
  deriving DecidableEq, Repr

/-- `pair_session_t`.  `response` is the request that waits for the PIN, if there is one. -/
structure PairSession where
  uniqueID : Str
  cert : Str
  name : Str := []
  cipherKey : Option Str := Option.none
  clienthash : Str := []
  serversecret : Str := []
  serverchallenge : Str := []
  response : Option ℕ := Option.none
  salt : Str := []
  lastPhase : PairPhase := .none
  /-- ghost: how many sessions were created before this one -/
  serial : ℕ
  deriving DecidableEq

/-- The functions of the crypto library that pairing calls, and the host's own credentials. -/
structure PairCrypto (X509 : Type) extends OpenSSL X509 where
  /-- `crypto::hash` -/
  hash : Str → Str
  /-- what `ecb_t(key, false)` leaves in the output of `encrypt` and `decrypt` -/
  ecbEncrypt : Str → Str → Str
  ecbDecrypt : Str → Str → Str
  signature : X509 → Str
  verify256 : X509 → Str → Str → Bool
  /-- `conf_intern.servercert` and `crypto::signature(crypto::x509(conf_intern.servercert))` -/
  servercert : Str
  serverSignature : Str
  /-- `crypto::sign256` with `conf_intern.pkey` -/
  sign256 : Str → Str

/-- `crypto::gen_aes_key`. -/
def PairCrypto.genAesKey {X509 : Type} (crypto : PairCrypto X509) (salt pin : Str) : Str :=
  (crypto.hash (salt ++ pin)).take 16

/-- The key that a salt argument and a PIN give. -/
def PairCrypto.pairKey {X509 : Type} (crypto : PairCrypto X509) (salt pin : Str) : Str :=
  crypto.genAesKey (fromHex 16 (salt.take 32) true) pin

/-- What is done to a session: the calls of the four phases, and what they do besides answering. -/
inductive PairEvent where
  | created (cert : Str)
  | getservercert (pin salt : Str)
  | clientchallenge (challenge serverchallenge : Str)
  | serverchallengeresp (response : Str)
  | clientpairingsecret (secret : Str)
  | failPair
  /-- the client hash was compared and the signature verified -/
  | compared (sameHash verified : Bool)
  | addAuthorizedClient (cert : Str)
  deriving DecidableEq

/-! ### The four phases -/

/-- What a phase leaves: the session, unless it removed it, and the answer. -/
abbrev Phase := Option PairSession × Ptree × List PairEvent

def statusCode : List String := ["root", "<xmlattr>", "status_code"]
def statusMessage : List String := ["root", "<xmlattr>", "status_message"]

/-- The answer that `fail_pair` writes. -/
def failTree (msg : String) (tree : Ptree) : Ptree :=
  ((tree.put ["root", "paired"] (str "0")).put statusCode (str "400")).put statusMessage (str msg)

/-- `fail_pair`. -/
def failPair (msg : String) (tree : Ptree) (call : PairEvent) : Phase :=
  (none, failTree msg tree, [call, .failPair])

variable {X509 : Type} (crypto : PairCrypto X509)

/-- `getservercert`. -/
def getservercert (sess : PairSession) (tree : Ptree) (pin : Str) : Phase :=
  let call := PairEvent.getservercert pin sess.salt
  if sess.lastPhase ≠ .none then failPair "Out of order call to getservercert" tree call
  else if sess.salt.length < 32 then failPair "Salt too short" tree call
  else
    (some { sess with lastPhase := .getservercert, cipherKey := some (crypto.pairKey sess.salt pin) },
      ((tree.put ["root", "paired"] (str "1")).put ["root", "plaincert"] (hexVec crypto.servercert true)).put
        statusCode (str "200"),
      [call])

/-- `clientchallenge`, with the secret and the challenge that `crypto::rand` drew. -/
def clientchallenge (sess : PairSession) (tree : Ptree) (challenge serversecret serverchallenge : Str) : Phase :=
  let call := PairEvent.clientchallenge challenge serverchallenge
  if sess.lastPhase ≠ .getservercert then failPair "Out of order call to clientchallenge" tree call
  else
    match sess.cipherKey with
    | none => failPair "Cipher key not set" tree call
    | some key =>
      let decrypted := crypto.ecbDecrypt key challenge ++ crypto.serverSignature ++ serversecret
      let encrypted := crypto.ecbEncrypt key (crypto.hash decrypted ++ serverchallenge)
      (some { sess with lastPhase := .clientchallenge, serversecret, serverchallenge },
        ((tree.put ["root", "paired"] (str "1")).put ["root", "challengeresponse"] (hexVec encrypted true)).put
          statusCode (str "200"),
        [call])

/-- `serverchallengeresp`. -/
def serverchallengeresp (sess : PairSession) (tree : Ptree) (encryptedResponse : Str) : Phase :=
  let call := PairEvent.serverchallengeresp encryptedResponse
  if sess.lastPhase ≠ .clientchallenge then failPair "Out of order call to serverchallengeresp" tree call
  else
    match sess.cipherKey, sess.serversecret with
    | none, _ | _, [] => failPair "Cipher key or serversecret not set" tree call
    | some key, serversecret =>
      (some { sess with lastPhase := .serverchallengeresp, clienthash := crypto.ecbDecrypt key encryptedResponse },
        ((tree.put ["root", "pairingsecret"] (hexVec (serversecret ++ crypto.sign256 serversecret) true)).put
          ["root", "paired"] (str "1")).put statusCode (str "200"),
        [call])

/-- Is the hash of the server challenge, the signature of `x` and the secret the client hash. -/
def sameHash (sess : PairSession) (x : X509) (secret : Str) : Bool :=
  crypto.hash (sess.serverchallenge ++ crypto.signature x ++ secret) = sess.clienthash

/-- `clientpairingsecret`.  When `add_authorized_client` throws, the session stays. -/
def clientpairingsecret (freshState : Bool) (gen : ℕ → Str) (sess : PairSession) (server : Server X509)
    (tree : Ptree) (clientPairingSecret : Str) : Server X509 × Phase :=
  let call := PairEvent.clientpairingsecret clientPairingSecret
  if sess.lastPhase ≠ .serverchallengeresp then
    (server, failPair "Out of order call to clientpairingsecret" tree call)
  else if clientPairingSecret.length ≤ 16 then
    (server, failPair "Client pairing secret too short" tree call)
  else
    match crypto.x509 sess.cert with
    | none => (server, failPair "Invalid client certificate" tree call)
    | some x =>
      let secret := clientPairingSecret.take 16
      let sign := clientPairingSecret.drop 16
      let same := sameHash crypto sess x secret
      let verify := crypto.verify256 x secret sign
      if same && verify then
        let tree := tree.put ["root", "paired"] (str "1")
        let events := [call, .compared same verify, .addAuthorizedClient sess.cert]
        match completePairing crypto.toOpenSSL freshState gen sess.name sess.cert x server with
        | .ok server => (server, none, tree.put statusCode (str "200"), events)
        | .error server => (server, some { sess with lastPhase := .clientpairingsecret, cert := [] }, tree, events)
      else
        (server, none, (tree.put ["root", "paired"] (str "0")).put statusCode (str "200"),
          [call, .compared same verify])

/-! ### The request handler -/

/-- `args_t`: the arguments of the query, names compared without regard to case. -/
abbrev Args := List (Str × Str)

def lower (s : Str) : Str := s.map fun c => if 65 ≤ c && c ≤ 90 then c + 32 else c

def Args.find (args : Args) (name : String) : Option Str :=
  (List.find? (fun arg => lower arg.1 = lower (str name)) args).map Prod.snd

/-- The globals of pairing next to those of the server. -/
structure Pairing (X509 : Type) where
  server : Server X509
  /-- `map_id_sess` -/
  sessions : AList fun _ : Str => PairSession
  /-- ghost: how many sessions were created -/
  created : ℕ
  /-- ghost: what was done to each session -/
  log : List (ℕ × PairEvent)

/-- The state when the process starts. -/
def Pairing.boot (server : Server X509) : Pairing X509 where
  server := server
  sessions := ∅
  created := 0
  log := []

/-- The session map after a phase on `sess`: the session is stored back, or removed by its id. -/
def settleSession (sess : PairSession) (sessions : AList fun _ : Str => PairSession) :
    Option PairSession → AList fun _ : Str => PairSession
  | some sess' => sessions.insert sess.uniqueID sess'
  | none => sessions.erase sess.uniqueID

/-- The state after a phase on `sess` that left the server as `server`. -/
def Pairing.after (s : Pairing X509) (server : Server X509) (sess : PairSession) (phase : Phase) : Pairing X509 :=
  { s with
    server := server
    sessions := settleSession sess s.sessions phase.1
    log := s.log ++ phase.2.2.map fun e => (sess.serial, e) }

/-- What is drawn or read while a request is handled. -/
structure Draw where
  serversecret : Str
  serverchallenge : Str
  gen : ℕ → Str
  /-- the line that `PIN_STDIN` reads -/
  stdinPin : Str

/-- The flags of `config::sunshine` that pairing reads. -/
structure PairFlags where
  freshState : Bool := false
  pinStdin : Bool := false

variable (flags : PairFlags)

/-- What `pair` does with its response: it answers, keeps the request for `pin`, or answers while an exception
leaves. -/
inductive PairReply where
  | answer (tree : Ptree)
  | deferred
  | thrown (tree : Ptree)

/-- The session that a `getservercert` request finds or creates: `map_id_sess.emplace`. -/
def emplace (uniqID clientcert : Str) (s : Pairing X509) : Pairing X509 × PairSession :=
  match s.sessions.lookup uniqID with
  | some sess => (s, sess)
  | none =>
    let cert := fromHexVec clientcert true
    let sess : PairSession := { uniqueID := uniqID, cert := cert, serial := s.created }
    ({ s with
      sessions := s.sessions.insert uniqID sess
      created := s.created + 1
      log := s.log ++ [(s.created, .created cert)] }, sess)

/-- The branch of `pair` for the phrase `getservercert`. -/
def pairGetservercert (draw : Draw) (request : ℕ) (uniqID : Str) (args : Args) (s : Pairing X509) :
    Pairing X509 × PairReply :=
  match args.find "clientcert" with
  | none => (s, .thrown .empty)
  | some clientcert =>
    let (s, sess) := emplace uniqID clientcert s
    match args.find "salt" with
    | none => (s, .thrown .empty)
    | some salt =>
      let sess := { sess with salt := salt }
      if flags.pinStdin then
        let phase := getservercert crypto sess .empty draw.stdinPin
        (s.after s.server sess phase, .answer phase.2.1)
      else
        ({ s with sessions := s.sessions.insert uniqID { sess with response := some request } }, .deferred)

/-- The branches of `pair` that continue the session `sess`. -/
def pairContinue (draw : Draw) (args : Args) (sess : PairSession) (s : Pairing X509) : Pairing X509 × PairReply :=
  match args.find "clientchallenge", args.find "serverchallengeresp", args.find "clientpairingsecret" with
  | some challenge, _, _ =>
    let phase := clientchallenge crypto sess .empty (fromHexVec challenge true) draw.serversecret draw.serverchallenge
    (s.after s.server sess phase, .answer phase.2.1)
  | none, some response, _ =>
    let phase := serverchallengeresp crypto sess .empty (fromHexVec response true)
    (s.after s.server sess phase, .answer phase.2.1)
  | none, none, some secret =>
    let (server, phase) :=
      clientpairingsecret crypto flags.freshState draw.gen sess s.server .empty (fromHexVec secret true)
    (s.after server sess phase, if phase.1.isSome then .thrown phase.2.1 else .answer phase.2.1)
  | none, none, none =>
    (s, .answer ((Ptree.empty.put statusCode (str "404")).put statusMessage (str "Invalid pairing request")))

/-- `pair`, for the request with the number `request`. -/
def pair (draw : Draw) (request : ℕ) (args : Args) (s : Pairing X509) : Pairing X509 × PairReply :=
  match args.find "uniqueid" with
  | none =>
    (s, .answer ((Ptree.empty.put statusCode (str "400")).put statusMessage (str "Missing uniqueid parameter")))
  | some uniqID =>
    if args.find "phrase" = some (str "getservercert") then pairGetservercert crypto flags draw request uniqID args s
    else if args.find "phrase" = some (str "pairchallenge") then
      (s, .answer ((Ptree.empty.put ["root", "paired"] (str "1")).put statusCode (str "200")))
    else
      match s.sessions.lookup uniqID with
      | none => (s, .answer ((Ptree.empty.put statusCode (str "400")).put statusMessage (str "Invalid uniqueid")))
      | some sess => pairContinue crypto flags draw args sess s

/-- Four digits. -/
def validPin (pin : Str) : Bool := pin.length = 4 && pin.all fun c => 48 ≤ c && c ≤ 57

/-- `pin`, with the answer it writes to the waiting request and its result.  `first` is the key of
`std::begin(map_id_sess)`.  When `getservercert` removes the session, the code goes on with a reference to it; what it
returns then is not specified, and no session is left that it could write to. -/
def pin (first pin name : Str) (s : Pairing X509) : Pairing X509 × Option (ℕ × Ptree) × Option Bool :=
  match s.sessions.lookup first with
  | none => (s, none, some false)
  | some sess =>
    if !validPin pin then (s, none, some false)
    else
      match getservercert crypto sess .empty pin with
      | (none, tree, events) => (s.after s.server sess (none, tree, events), none, none)
      | (some sess', tree, events) =>
        let named := { sess' with name := name, response := none }
        (s.after s.server sess (some named, tree, events), sess.response.map fun r => (r, tree),
          some sess.response.isSome)

/-! ### The system -/

/-- A request of a client, or a PIN entered by the user. -/
inductive PairOp where
  | pair (draw : Draw) (request : ℕ) (args : Args)
  | pin (first digits name : Str)

/-- One operation.  Any session of a non-empty map can be its first. -/
def PairOp.run (s : Pairing X509) : PairOp → Option (Pairing X509)
  | .pair draw request args => some (Nvhttp.pair crypto flags draw request args s).1
  | .pin first digits name =>
    if s.sessions.entries = [] ∨ first ∈ s.sessions.keys then some (Nvhttp.pin crypto first digits name s).1 else none

/-- The transition relation of pairing. -/
abbrev PairStep : Pairing X509 → PairOp → Pairing X509 → Prop :=
  ofPartial fun s op => op.run crypto flags s

/-- What was done to the session with the number `n`, in order. -/
def Pairing.history (s : Pairing X509) (n : ℕ) : List PairEvent :=
  (s.log.filter fun e => e.1 = n).map Prod.snd

/-- The session with the number `n` is in the map. -/
def Pairing.Live (s : Pairing X509) (n : ℕ) : Prop :=
  ∃ uid sess, s.sessions.lookup uid = some sess ∧ sess.serial = n

end MidnightSun.Nvhttp
