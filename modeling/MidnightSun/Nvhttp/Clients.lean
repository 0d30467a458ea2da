import MidnightSun.Lib.Run
import MidnightSun.Nvhttp.State

/-!
# Paired clients (src/nvhttp.cpp)

The operations on the list of paired clients, the lambda that `start` installs as `https_server.verify`, and the
system they form: `Op.run` is one request, one call from the web interface, or a restart of the process.
-/

namespace MidnightSun.Nvhttp

open Boost Safe Lib

variable {X509 : Type} (ssl : OpenSSL X509)

/-! ### Operations -/

/-- `add_authorized_client`. -/
def addAuthorizedClient (freshState : Bool) (gen : ℕ → Str) (name cert : Str) (s : Server X509) :
    Except (Server X509) (Server X509) :=
  let s := { s with namedDevices := s.namedDevices ++ [{ name, cert, uuid := gen 0 }] }
  if freshState then .ok s else loadState ssl (fun n => gen (n + 1)) (saveState s)

/-- The branch of `clientpairingsecret` that pairs: the certificate is raised and the client added. -/
def completePairing (freshState : Bool) (gen : ℕ → Str) (name cert : Str) (x : X509) (s : Server X509) :
    Except (Server X509) (Server X509) :=
  addAuthorizedClient ssl freshState gen name cert { s with addCert := s.addCert.raise x }

/-- `unpair_client`, with its result. -/
def unpairClient (gen : ℕ → Str) (uuid : Str) (s : Server X509) : Except (Server X509) (Server X509 × Bool) :=
  let removed := s.namedDevices.any fun c => c.uuid = uuid
  let s := { s with namedDevices := s.namedDevices.filter fun c => c.uuid ≠ uuid }
  (loadState ssl gen (saveState s)).map fun s => (s, removed)

/-- `erase_all_clients`. -/
def eraseAllClients (s : Server X509) : Server X509 :=
  saveState { s with namedDevices := [], certChain := [] }

/-- The list with the first client of that uuid enabled or disabled, if there is one. -/
def setFirstEnabled (uuid : Str) (enabled : Bool) : List NamedCert → Option (List NamedCert)
  | [] => none
  | c :: cs =>
    if c.uuid = uuid then some ({ c with enabled } :: cs) else (setFirstEnabled uuid enabled cs).map (c :: ·)

theorem map_cert_setFirstEnabled {uuid : Str} {enabled : Bool} {devices devices' : List NamedCert}
    (h : setFirstEnabled uuid enabled devices = some devices') :
    devices'.map NamedCert.cert = devices.map NamedCert.cert := by
  induction devices generalizing devices' with
  | nil => simp [setFirstEnabled] at h
  | cons c cs ih =>
    unfold setFirstEnabled at h
    split at h
    · cases h; rfl
    · obtain ⟨cs', hcs', rfl⟩ := Option.map_eq_some_iff.mp h
      rw [List.map_cons, List.map_cons, ih hcs']

/-- `set_client_enabled`, with its result. -/
def setClientEnabled (uuid : Str) (enabled : Bool) (s : Server X509) : Server X509 × Bool :=
  match setFirstEnabled uuid enabled s.namedDevices with
  | some devices => (saveState { s with namedDevices := devices }, true)
  | none => (s, false)

/-- `is_client_enabled`: the first client with this text decides, an unknown text is enabled. -/
def isClientEnabled (devices : List NamedCert) (certPem : Str) : Bool :=
  match devices.find? fun c => c.cert = certPem with
  | some c => c.enabled
  | none => true

/-- `https_server.verify`: the queued certificates join the chain, then the chain and the enabled flag decide. -/
def verify (peer : Option X509) (s : Server X509) : Server X509 × Bool :=
  match peer with
  | none => (s, false)
  | some x =>
    let (added, addCert) := s.addCert.drain
    let s := { s with addCert, certChain := s.certChain ++ added.map some }
    match certChainVerify ssl x .ok s.certChain with
    | some _ => (s, false)
    | none => (s, isClientEnabled s.namedDevices (ssl.pem x))

/-! ### The system -/

/-- What can happen to the paired clients. -/
inductive Op (X509 : Type) where
  | pair (gen : ℕ → Str) (name cert : Str)
  | unpairClient (gen : ℕ → Str) (uuid : Str)
  | eraseAllClients
  | setClientEnabled (uuid : Str) (enabled : Bool)
  | restart (gen : ℕ → Str)
  | handshake (peer : Option X509)

/-- An exception ends the request, not the server. -/
def settle : Except (Server X509) (Server X509) → Server X509
  | .ok s => s
  | .error s => s

/-- One operation.  A pairing completes only with a certificate that parses; a start that throws ends the process. -/
def Op.run (freshState : Bool) (s : Server X509) : Op X509 → Option (Server X509)
  | .pair gen name cert => (ssl.x509 cert).map fun x => settle (completePairing ssl freshState gen name cert x s)
  | .unpairClient gen uuid => some (settle ((Nvhttp.unpairClient ssl gen uuid s).map Prod.fst))
  | .eraseAllClients => some (Nvhttp.eraseAllClients s)
  | .setClientEnabled uuid enabled => some (Nvhttp.setClientEnabled uuid enabled s).1
  | .restart gen => (start ssl gen s.file).toOption
  | .handshake peer => some (verify ssl peer s).1

/-- The transition relation of the paired clients. -/
abbrev Step (freshState : Bool) : Server X509 → Op X509 → Server X509 → Prop :=
  ofPartial fun s op => op.run ssl freshState s

/-- The client list holds an entry of this certificate. -/
def Listed (s : Server X509) (x : X509) : Prop := ∃ c ∈ s.namedDevices, ssl.x509 c.cert = some x

/-- The client list holds an enabled entry of this certificate. -/
def Authorized (s : Server X509) (x : X509) : Prop :=
  ∃ c ∈ s.namedDevices, ssl.x509 c.cert = some x ∧ c.enabled = true

instance [DecidableEq X509] (s : Server X509) (x : X509) : Decidable (Listed ssl s x) :=
  inferInstanceAs (Decidable (∃ c ∈ s.namedDevices, ssl.x509 c.cert = some x))

instance [DecidableEq X509] (s : Server X509) (x : X509) : Decidable (Authorized ssl s x) :=
  inferInstanceAs (Decidable (∃ c ∈ s.namedDevices, ssl.x509 c.cert = some x ∧ c.enabled = true))

end MidnightSun.Nvhttp
