import MidnightSun.Nvhttp.State
import MidnightSun.Util.Hex

/-!
# The web credentials (src/httpcommon.cpp)

`config::sunshine.credentials_file` is the state file of the server by default: the credentials are three children of
its top level, beside the subtree `root` that `save_state` writes.  `hash` is `crypto::hash`, and the salt is drawn
by `crypto::rand_alphabet`.
-/

namespace MidnightSun.Http

open Boost Nvhttp Util

/-- The `username`, `password` and `salt` of `config::sunshine`. -/
structure Creds where
  username : Str := []
  password : Str := []
  salt : Str := []
  deriving DecidableEq, Repr

/-- The tree that `save_user_creds` writes over the tree it read. -/
def credsTree (hash : Str → Str) (username password salt : Str) (t : Ptree) : Ptree :=
  ((t.put ["username"] username).put ["salt"] salt).put ["password"] (hexVec (hash (password ++ salt)) false)

/-- `save_user_creds`: the file after it; `none` for the result -1, where nothing is written. -/
def saveUserCreds (hash : Str → Str) (username password salt : Str) : StateFile → Option StateFile
  | .absent => some (.tree (credsTree hash username password salt .empty))
  | .unreadable => none
  | .tree t => some (.tree (credsTree hash username password salt t))

/-- `user_creds_exist`. -/
def userCredsExist : StateFile → Bool
  | .tree t => t.has "username" && t.has "password" && t.has "salt"
  | _ => false

/-- `reload_user_creds`: the credentials after it, and whether its result is 0.  The members assigned before the first
`get` that throws keep their new values. -/
def reloadUserCreds (file : StateFile) (creds : Creds) : Creds × Bool :=
  match file with
  | .tree t =>
    match t.get? ["username"] with
    | none => (creds, false)
    | some username =>
      match t.get? ["password"] with
      | none => ({ creds with username }, false)
      | some password =>
        match t.get? ["salt"] with
        | none => ({ creds with username, password }, false)
        | some salt => ({ username, password, salt }, true)
  | _ => (creds, false)

/-- `init`: the unique id and the credentials it sets, `none` for the result -1.  `keys` says whether the key and the
certificate of the host exist or could be created. -/
def init (freshState keys : Bool) (gen : ℕ → Str) (file : StateFile) : Option (Str × Creds) :=
  let uniqueId := if freshState then gen 0 else []
  if keys = false then none
  else if userCredsExist file = false then some (uniqueId, {})
  else
    match reloadUserCreds file {} with
    | (creds, true) => some (uniqueId, creds)
    | (_, false) => none

/-! ### Reading the credentials back -/

theorem isSome_get? (k : String) (t : Ptree) : (t.get? [k]).isSome = t.has k := by
  obtain ⟨d, cs⟩ := t
  simp only [Ptree.get?, Ptree.getChild?, Ptree.has, Ptree.children, Option.isSome_map]
  cases cs.lookup k <;> rfl

theorem reloadUserCreds_of_exist {file : StateFile} (h : userCredsExist file = true) (creds : Creds) :
    (reloadUserCreds file creds).2 = true := by
  cases file with
  | absent => cases h
  | unreadable => cases h
  | tree t =>
    simp only [userCredsExist, Bool.and_eq_true, ← isSome_get?, Option.isSome_iff_exists] at h
    obtain ⟨⟨⟨u, hu⟩, p, hp⟩, s, hs⟩ := h
    simp [reloadUserCreds, hu, hp, hs]

/-- Without the flag `init` fails for the lack of keys only, and leaves the unique id empty. -/
theorem init_eq {keys : Bool} {gen : ℕ → Str} {file : StateFile} {uid : Str} {creds : Creds}
    (freshState : Bool) (h : init freshState keys gen file = some (uid, creds)) :
    keys = true ∧ uid = if freshState then gen 0 else [] := by
  unfold init at h
  cases keys with
  | false => cases h
  | true =>
    simp only [Bool.true_eq_false, if_false] at h
    split at h
    · cases h
      exact ⟨rfl, rfl⟩
    · split at h
      · cases h
        exact ⟨rfl, rfl⟩
      · cases h

/-- The flag changes the unique id that `init` leaves, and nothing else. -/
theorem init_fresh (keys : Bool) (gen : ℕ → Str) (file : StateFile) :
    init true keys gen file = (init false keys gen file).map fun p => (gen 0, p.2) := by
  unfold init
  cases keys with
  | false => rfl
  | true =>
    simp only [Bool.true_eq_false, if_false, if_true, Bool.false_eq_true]
    split
    · rfl
    · split <;> rfl

/-- `init` succeeds wherever the keys are there. -/
theorem isSome_init (freshState : Bool) (gen : ℕ → Str) (file : StateFile) :
    (init freshState true gen file).isSome = true := by
  unfold init
  cases he : userCredsExist file with
  | false => rfl
  | true =>
    have hload := reloadUserCreds_of_exist he {}
    simp only [Bool.true_eq_false, if_false]
    split
    · rfl
    next heq => rw [heq] at hload; cases hload

/-! ### The credentials leave the server's part of the file alone -/

theorem named_root_credsTree (hash : Str → Str) (username password salt : Str) (t : Ptree) :
    (credsTree hash username password salt t).named "root" = t.named "root" := by
  simp only [credsTree]
  rw [Ptree.named_put_of_ne (by decide), Ptree.named_put_of_ne (by decide), Ptree.named_put_of_ne (by decide)]

theorem getChild?_root_credsTree (hash : Str → Str) (username password salt : Str) (js : List String) (t : Ptree) :
    (credsTree hash username password salt t).getChild? ("root" :: js) = t.getChild? ("root" :: js) := by
  simp only [credsTree]
  rw [Ptree.getChild?_put_of_ne (by decide), Ptree.getChild?_put_of_ne (by decide),
    Ptree.getChild?_put_of_ne (by decide)]

/-- `load_state` reads the same state from a tree with other credentials. -/
theorem loadState_credsTree {X509 : Type} (ssl : OpenSSL X509) (gen : ℕ → Str) (hash : Str → Str)
    (username password salt : Str) (s : Server X509) {t : Ptree} {u : Server X509}
    (h : loadState ssl gen { s with file := .tree t } = .ok u) :
    loadState ssl gen { s with file := .tree (credsTree hash username password salt t) } =
      .ok { u with file := .tree (credsTree hash username password salt t) } := by
  have hroot := getChild?_root_credsTree hash username password salt [] t
  have huid : (credsTree hash username password salt t).get? ["root", "uniqueid"] = t.get? ["root", "uniqueid"] :=
    congrArg (Option.map Ptree.data) (getChild?_root_credsTree hash username password salt ["uniqueid"] t)
  generalize credsTree hash username password salt t = t' at hroot huid ⊢
  simp only [loadState, hroot, huid] at h ⊢
  split at h
  next root uid hr hu =>
    split at h
    next old new ho hn =>
      cases h
      rfl
    next => cases h
  next hne =>
    cases h
    rfl

end MidnightSun.Http
