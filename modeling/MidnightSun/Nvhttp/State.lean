import MidnightSun.Boost.PropertyTree
import MidnightSun.Safe.Queue

/-!
# The state of the GameStream server and its file (src/nvhttp.cpp)

`saveState` and `loadState` keep `client_root`, `cert_chain` and the unique id in step with the state file.  Read and
write of the file are inverse to each other on trees of strings, so a file is the tree that was written to it.
Random identifiers are drawn from a supply `gen`, one for each call that needs some.
-/

namespace MidnightSun.Nvhttp

open Boost Safe

/-! ### Certificates -/

/-- The outcomes of `X509_verify_cert` other than success that `cert_chain_t::verify` tells apart. -/
inductive VerifyError where
  /-- the value of `err_code` before any store was asked -/
  | ok
  | depthZeroSelfSignedCert
  | invalidCa
  | other (code : ℕ)
  deriving DecidableEq, Repr

/-- The certificate functions of OpenSSL that the server calls.  `none` is a null `X509 *`. -/
structure OpenSSL (X509 : Type) where
  /-- `crypto::x509`: the certificate parsed from a text -/
  x509 : Str → Option X509
  /-- `crypto::pem`: the canonical text of a certificate -/
  pem : X509 → Str
  /-- `X509_verify_cert` with the store that `cert_chain_t::add` made of the first argument; `none` is success -/
  verifyCert : Option X509 → X509 → Option VerifyError

/-- What the server relies on: a store verifies exactly the certificate it holds, and the canonical text of a
certificate parses to it. -/
structure OpenSSL.Lawful {X509 : Type} (ssl : OpenSSL X509) : Prop where
  verify_iff : ∀ c x, ssl.verifyCert (some c) x = none ↔ x = c
  verify_empty : ∀ x, ssl.verifyCert none x ≠ none
  x509_pem : ∀ x, ssl.x509 (ssl.pem x) = some x

/-- The errors after which `cert_chain_t::verify` goes on to the next store. -/
def VerifyError.tolerated : VerifyError → Bool
  | depthZeroSelfSignedCert | invalidCa => true
  | _ => false

/-- `cert_chain_t::verify` on the stored certificates, from the error code met so far; `none` is `nullptr`. -/
def certChainVerify {X509 : Type} (ssl : OpenSSL X509) (x : X509) :
    VerifyError → List (Option X509) → Option VerifyError
  | err, [] => some err
  | _, c :: certs =>
    match ssl.verifyCert c x with
    | none => none
    | some code => if code.tolerated then certChainVerify ssl x code certs else some code

/-! ### The state -/

/-- `named_cert_t`. -/
structure NamedCert where
  name : Str
  uuid : Str
  cert : Str
  enabled : Bool := true
  deriving DecidableEq, Repr

/-- The state file as `read_json` finds it. -/
inductive StateFile where
  | absent
  | unreadable
  | tree (t : Ptree)

/-- The globals of `nvhttp` that outlive a request, with the file and the queue between `pair` and the verify lambda. -/
structure Server (X509 : Type) where
  /-- `http::unique_id` -/
  uniqueId : Str
  /-- `client_root.named_devices` -/
  namedDevices : List NamedCert
  /-- `cert_chain._certs` -/
  certChain : List (Option X509)
  addCert : Queue X509
  /-- `config::nvhttp.file_state` -/
  file : StateFile

/-- The globals of a process that has not loaded anything yet. -/
def Server.boot {X509 : Type} (file : StateFile) : Server X509 where
  uniqueId := []
  namedDevices := []
  certChain := []
  addCert := { maxElements := 30 }
  file := file

/-! ### `save_state` -/

def namedCertNode (c : NamedCert) : Ptree :=
  (((Ptree.empty.put ["name"] c.name).put ["cert"] c.cert).put ["uuid"] c.uuid).put ["enabled"]
    (Ptree.ofBool c.enabled)

def namedCertNodes (devices : List NamedCert) : Ptree :=
  devices.foldl (fun nodes c => nodes.pushBack (namedCertNode c)) Ptree.empty

/-- The tree that `save_state` writes over the tree it read. -/
def stateTree (uniqueId : Str) (devices : List NamedCert) (root : Ptree) : Ptree :=
  ((root.erase "root").put ["root", "uniqueid"] uniqueId).addChild ["root", "named_devices"]
    (namedCertNodes devices)

variable {X509 : Type}

/-- `save_state`. -/
def saveState (s : Server X509) : Server X509 :=
  match s.file with
  | .absent => { s with file := .tree (stateTree s.uniqueId s.namedDevices Ptree.empty) }
  | .unreadable => s
  | .tree t => { s with file := .tree (stateTree s.uniqueId s.namedDevices t) }

/-! ### `load_state` -/

/-- The certificates of one entry of the old format; `none` when `get<std::string>("uniqueid")` throws. -/
def deviceCerts (device : Ptree) : Option (List Str) :=
  match device.get? ["uniqueid"] with
  | none => none
  | some _ =>
    match device.getChild? ["certs"] with
    | none => some []
    | some certs => some (certs.children.map fun el => el.2.data)

/-- The clients of the old format under `root.devices`, with generated uuids. -/
def importDevices (gen : ℕ → Str) (root : Ptree) : Option (List NamedCert) :=
  match root.getChild? ["devices"] with
  | none => some []
  | some devices =>
    (devices.children.mapM fun node => deviceCerts node.2).map fun certs =>
      certs.flatten.zipIdx.map fun p => { name := [], cert := p.1, uuid := gen p.2 }

/-- One client of `root.named_devices`; `none` when a `get_child` throws. -/
def namedCertOf (el : Ptree) : Option NamedCert :=
  match el.get? ["name"], el.get? ["cert"], el.get? ["uuid"] with
  | some name, some cert, some uuid => some { name, cert, uuid, enabled := el.getBool ["enabled"] true }
  | _, _, _ => none

def importNamedDevices (root : Ptree) : Option (List NamedCert) :=
  match root.getChild? ["named_devices"] with
  | none => some []
  | some nodes => nodes.children.mapM fun node => namedCertOf node.2

/-- `load_state`; `error` is an exception that leaves it, with the state at that moment. -/
def loadState (ssl : OpenSSL X509) (gen : ℕ → Str) (s : Server X509) : Except (Server X509) (Server X509) :=
  match s.file with
  | .absent => .ok { s with uniqueId := gen 0 }
  | .unreadable => .ok s
  | .tree t =>
    match t.getChild? ["root"], t.get? ["root", "uniqueid"] with
    | some root, some uniqueId =>
      let s := { s with uniqueId := uniqueId }
      match importDevices gen root, importNamedDevices root with
      | some old, some new =>
        .ok { s with namedDevices := old ++ new, certChain := (old ++ new).map fun c => ssl.x509 c.cert }
      | _, _ => .error s
    | _, _ => .ok { s with uniqueId := gen 0 }

/-- The part of `start` before the servers run, in a new process: the file is loaded if it exists. -/
def start (ssl : OpenSSL X509) (gen : ℕ → Str) (file : StateFile) : Except (Server X509) (Server X509) :=
  match file with
  | .absent => .ok (.boot .absent)
  | file => loadState ssl gen (.boot file)

/-! ### Loading what was saved -/

theorem children_namedCertNodes (devices : List NamedCert) :
    (namedCertNodes devices).children = devices.map fun c => ("", namedCertNode c) := by
  have key : ∀ (t : Ptree), (devices.foldl (fun nodes c => nodes.pushBack (namedCertNode c)) t).children =
      t.children ++ devices.map fun c => ("", namedCertNode c) := by
    induction devices with
    | nil => simp
    | cons c cs ih =>
      intro t
      obtain ⟨d, kids⟩ := t
      rw [List.foldl_cons, ih]
      simp [Ptree.pushBack, Ptree.children]
  simpa [namedCertNodes, Ptree.empty, Ptree.children] using key Ptree.empty

theorem namedCertOf_namedCertNode (c : NamedCert) : namedCertOf (namedCertNode c) = some c := by
  have hput : namedCertNode c = .node [] [("name", .leaf c.name), ("cert", .leaf c.cert), ("uuid", .leaf c.uuid),
      ("enabled", .leaf (Ptree.ofBool c.enabled))] := by
    simp [namedCertNode, Ptree.empty, Ptree.put, Ptree.setChild, Ptree.leaf]
  rw [hput]
  simp [namedCertOf, Ptree.get?, Ptree.getBool, Ptree.getChild?, Ptree.lookup_cons_ite, Ptree.leaf, Ptree.data,
    Ptree.toBool?_ofBool]

/-- The subtree `root` of a saved file. -/
theorem getChild?_stateTree (uid : Str) (devices : List NamedCert) (t : Ptree) :
    (stateTree uid devices t).getChild? ["root"] =
      some (.node [] [("uniqueid", .leaf uid), ("named_devices", namedCertNodes devices)]) := by
  obtain ⟨d, cs⟩ := t
  have h := Ptree.lookup_erase "root" cs
  have hput : Ptree.put ["uniqueid"] uid Ptree.empty = .node [] [("uniqueid", .leaf uid)] := rfl
  simp only [stateTree, Ptree.erase, Ptree.put, Ptree.addChild, Ptree.getChild?, Ptree.lookup_setChild, h,
    Option.getD_none, Option.getD_some, hput]
  rfl

theorem get?_stateTree (uid : Str) (devices : List NamedCert) (t : Ptree) :
    (stateTree uid devices t).get? ["root", "uniqueid"] = some uid := by
  have hroot := getChild?_stateTree uid devices t
  generalize stateTree uid devices t = t' at hroot ⊢
  obtain ⟨d, cs⟩ := t'
  simp only [Ptree.get?, Ptree.getChild?, Option.bind_eq_some_iff] at hroot ⊢
  obtain ⟨r, hr, hr'⟩ := hroot
  simp only [Option.some.injEq] at hr'
  subst hr'
  simp [hr, Ptree.getChild?, Ptree.leaf, Ptree.data]

theorem importDevices_saved (gen : ℕ → Str) (uid : Str) (nodes : Ptree) :
    importDevices gen (.node [] [("uniqueid", .leaf uid), ("named_devices", nodes)]) = some [] := by
  simp [importDevices, Ptree.getChild?, Ptree.lookup_cons_ite]

theorem importNamedDevices_saved (uid : Str) (devices : List NamedCert) :
    importNamedDevices (.node [] [("uniqueid", .leaf uid), ("named_devices", namedCertNodes devices)]) =
      some devices := by
  have hnodes : importNamedDevices (.node [] [("uniqueid", .leaf uid),
      ("named_devices", namedCertNodes devices)]) =
      (namedCertNodes devices).children.mapM fun node => namedCertOf node.2 := by
    simp [importNamedDevices, Ptree.getChild?, Ptree.lookup_cons_ite]
  rw [hnodes, children_namedCertNodes]
  clear hnodes
  induction devices with
  | nil => rfl
  | cons c cs ih =>
    rw [List.map_cons, List.mapM_cons, ih, namedCertOf_namedCertNode]
    rfl

/-- A readable or missing file is a tree after `save_state`. -/
theorem saveState_file {s : Server X509} (h : s.file ≠ .unreadable) :
    ∃ t, saveState s = { s with file := .tree (stateTree s.uniqueId s.namedDevices t) } := by
  unfold saveState
  split
  · exact ⟨_, rfl⟩
  next heq => exact absurd heq h
  next t _ => exact ⟨t, rfl⟩

@[simp] theorem saveState_namedDevices (s : Server X509) : (saveState s).namedDevices = s.namedDevices := by
  unfold saveState; split <;> rfl

@[simp] theorem saveState_certChain (s : Server X509) : (saveState s).certChain = s.certChain := by
  unfold saveState; split <;> rfl

@[simp] theorem saveState_addCert (s : Server X509) : (saveState s).addCert = s.addCert := by
  unfold saveState; split <;> rfl

/-- **Round trip of the state file.**  Loading what was saved gives the saved clients back, in order, and a
`cert_chain` of exactly their certificates. -/
theorem loadState_saveState (ssl : OpenSSL X509) (gen : ℕ → Str) {s : Server X509} (h : s.file ≠ .unreadable) :
    loadState ssl gen (saveState s) =
      .ok { saveState s with certChain := s.namedDevices.map fun c => ssl.x509 c.cert } := by
  obtain ⟨t, ht⟩ := saveState_file h
  rw [ht]
  simp only [loadState, getChild?_stateTree, get?_stateTree, importDevices_saved, importNamedDevices_saved,
    List.nil_append]

/-- All that a successful `load_state` can do: it keeps the list and the chain, or replaces the list and rebuilds the
chain from it. -/
theorem loadState_ok {ssl : OpenSSL X509} {gen : ℕ → Str} {s s' : Server X509} (h : loadState ssl gen s = .ok s') :
    s'.addCert = s.addCert ∧ s'.file = s.file ∧
      ((s'.namedDevices = s.namedDevices ∧ s'.certChain = s.certChain) ∨
        s'.certChain = s'.namedDevices.map fun c => ssl.x509 c.cert) := by
  unfold loadState at h
  split at h
  · cases h; exact ⟨rfl, rfl, Or.inl ⟨rfl, rfl⟩⟩
  · cases h; exact ⟨rfl, rfl, Or.inl ⟨rfl, rfl⟩⟩
  · split at h
    · dsimp only at h
      split at h
      · cases h; exact ⟨rfl, rfl, Or.inr rfl⟩
      · cases h
    · cases h; exact ⟨rfl, rfl, Or.inl ⟨rfl, rfl⟩⟩

end MidnightSun.Nvhttp
