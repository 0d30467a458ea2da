import Mathlib.Data.Multiset.ZeroCons
import MidnightSun.Confighttp.Routes
import MidnightSun.Nlohmann.Json

/-!
# Editing the apps file (src/confighttp.cpp, `saveApp`, `deleteApp` and `check_app_index`)

The file is what `nlohmann::json::parse` makes of it: none if it is missing or no JSON.  An exception is answered with
its text; where a comparison of the sort reads a name that is not there, the behaviour is undefined.
-/

namespace MidnightSun.Confighttp.AppsFile

open Net Nlohmann Util

variable {F : Type}

/-! ### Values -/

/-- What `operator[]` with a key works on: an object, or nothing, which becomes an object. -/
def members? : Json F → Option (List (Str × Json F))
  | .null => some []
  | .object ms => some ms
  | _ => none

/-- The member of a key; `operator[]` makes one that is null if there is none. -/
def member (ms : List (Str × Json F)) (key : Str) : Json F := (ms.lookup key).getD .null

/-- The object with a member set, in the order of the keys. -/
def setMember (key : Str) (value : Json F) : List (Str × Json F) → List (Str × Json F)
  | [] => [(key, value)]
  | (k, v) :: ms =>
    if k = key then (key, value) :: ms
    else if key < k then (key, value) :: (k, v) :: ms
    else (k, v) :: setMember key value ms

/-- What `size` counts and `empty` asks for. -/
def items : Json F → List (Json F)
  | .null => []
  | .array es => es
  | .object ms => ms.map (·.2)
  | j => [j]

def isArray : Json F → Bool
  | .array _ => true
  | _ => false

/-- `get<int>()`, with the conversion of a `double` as a parameter. -/
def getInt (toInt : F → Int32) : Json F → Option Int32
  | .integer n => some (Int32.ofInt n)
  | .float x => some (toInt x)
  | .boolean b => some (if b then 1 else 0)
  | _ => none

/-- `app["name"].get<std::string>()`. -/
def nameOf : Json F → Option Str
  | .object ms =>
    match ms.lookup (str "name") with
    | some (.string s) => some s
    | _ => none
  | _ => none

/-- An object without a name; `operator[]` of a constant object must not be asked for it. -/
def lacksName : Json F → Bool
  | .object ms => (ms.lookup (str "name")).isNone
  | _ => false

/-! ### Sorting -/

inductive SortResult (F : Type) where
  | sorted (apps : List (Json F))
  /-- the first app without a text for a name that a comparison meets -/
  | meets (app : Json F)

/-- The order of the names. -/
def NameLe (a b : Json F) : Prop := ∃ x y, nameOf a = some x ∧ nameOf b = some y ∧ x ≤ y

/-- There is nothing to compare, or every app has a name. -/
def Sortable (apps : List (Json F)) : Prop := apps.length ≤ 1 ∨ ∀ app ∈ apps, (nameOf app).isSome

instance (apps : List (Json F)) : Decidable (Sortable apps) := inferInstanceAs (Decidable (_ ∨ _))

/-- `std::sort` by name.  The order of equal names is left open, and so is which of several apps without a name is
compared first. -/
structure Sorting (F : Type) where
  run : List (Json F) → SortResult F
  sorted : ∀ apps, Sortable apps → ∃ out, run apps = .sorted out ∧ out.Perm apps ∧ out.Pairwise NameLe
  meets : ∀ apps, ¬Sortable apps → ∃ app ∈ apps, nameOf app = none ∧ run apps = .meets app

/-! ### The handlers -/

/-- How `write_file` goes; its result is not looked at. -/
inductive WriteResult where
  | complete
  | notOpened
  /-- the file is opened, which empties it, and only a part is written -/
  | cut
  deriving DecidableEq

/-- The file after `dump(4)` of a tree was written; a part of an object is no JSON. -/
def writeFile (old : Option (Json F)) (tree : Json F) : WriteResult → Option (Json F)
  | .complete => some tree
  | .notOpened => old
  | .cut => none

inductive Reply where
  /-- the response of a check -/
  | refused (response : Response)
  /-- `bad_request` with the text of an exception -/
  | exception
  | success
  | undefined

/-- The checks of a handler before it looks at the body. -/
def checks (json : Bool) (env : Env) (tokens : Tokens) (request : Request) (now : ℤ) : Option Response :=
  (guarded json never (fun _ => []) env tokens request now {}).refused

/-- A member is erased if it is empty. -/
def eraseEmpty (ms : List (Str × Json F)) (key : Str) : List (Str × Json F) :=
  if (items (member ms key)).isEmpty then ms.filter (·.1 ≠ key) else ms

/-- The conversion of an `int` to `size_t`. -/
def toSizeT (index : Int32) : ℕ := index.toInt64.toUInt64.toNat

/-- The loops of both handlers: the apps with another one, or none, in the place of one of them.  `apps[i]` throws if
`apps` is no array. -/
def rebuild (isArray : Bool) (index : ℕ) (app : Option (Json F)) : ℕ → List (Json F) → Option (List (Json F))
  | _, [] => some []
  | i, e :: es =>
    if i = index then (rebuild isArray index app (i + 1) es).map (app.toList ++ ·)
    else if isArray then (rebuild isArray index app (i + 1) es).map (e :: ·)
    else none

/-- `push_back`, or the loop with the submitted app. -/
def newApps (apps : Json F) (index : Int32) (app : Json F) : Option (List (Json F)) :=
  if index = -1 then
    match apps with
    | .null => some [app]
    | .array es => some (es ++ [app])
    | _ => none
  else rebuild (isArray apps) (toSizeT index) (some app) 0 (items apps)

section
variable (toInt : F → Int32) (sorting : Sorting F) (write : WriteResult) (old : Option (Json F))

/-- The index and the app that a body asks to store. -/
def submitted (body : Option (Json F)) : Option (Int32 × Json F) := do
  let input ← body.bind members?
  let input := eraseEmpty (eraseEmpty input (str "prep-cmd")) (str "detached")
  let index ← getInt toInt (member input (str "index"))
  return (index, .object (input.filter (·.1 ≠ str "index")))

/-- What `saveApp` does with the body. -/
def saveAppBody (body : Option (Json F)) : Reply × Option (Json F) :=
  let edited := do
    let (index, app) ← submitted toInt body
    let tree ← old.bind members?
    let apps ← newApps (member tree (str "apps")) index app
    return (tree, apps)
  match edited with
  | none => (.exception, old)
  | some (tree, apps) =>
    match sorting.run apps with
    | .meets app => (if lacksName app then .undefined else .exception, old)
    | .sorted apps => (.success, writeFile old (.object (setMember (str "apps") (.array apps) tree)) write)

def saveApp (env : Env) (tokens : Tokens) (request : Request) (now : ℤ) (body : Option (Json F)) :
    Reply × Option (Json F) :=
  match checks true env tokens request now with
  | some response => (.refused response, old)
  | none => saveAppBody toInt sorting write old body

/-- `std::stoi` of a number in a path. -/
def stoi (n : ℕ) : Option Int32 := if n < 2 ^ 31 then some (Int32.ofNat n) else none

/-- `check_app_index`, for the apps of the file. -/
def checkAppIndex (apps : List (Json F)) (index : Int32) : Option Response :=
  if index < 0 ∨ Int32.ofNat apps.length ≤ index then
    let maxIndex := Int32.ofNat apps.length - 1
    if maxIndex < 0 then some (.badRequest "No applications found")
    else some (.badRequest ("'index' " ++ toString index ++ " out of range, max index is " ++ toString maxIndex))
  else none

/-- What `deleteApp` does with the index in its path. -/
def deleteAppBody (id : ℕ) : Reply × Option (Json F) :=
  let found := do
    let index ← stoi id
    let tree ← old.bind members?
    return (index, tree, member tree (str "apps"))
  match found with
  | none => (.exception, old)
  | some (index, tree, apps) =>
    match checkAppIndex (items apps) index with
    | some response => (.refused response, old)
    | none =>
      match rebuild (isArray apps) (toSizeT index) none 0 (items apps) with
      | none => (.exception, old)
      | some apps => (.success, writeFile old (.object (setMember (str "apps") (.array apps) tree)) write)

def deleteApp (env : Env) (tokens : Tokens) (request : Request) (now : ℤ) (id : ℕ) : Reply × Option (Json F) :=
  match checks false env tokens request now with
  | some response => (.refused response, old)
  | none => deleteAppBody write old id

end

/-! ### What the handlers are for -/

/-- The apps that are stored in a file. -/
def appsOf (file : Option (Json F)) : Option (List (Json F)) :=
  (file.bind members?).map fun tree => items (member tree (str "apps"))

/-- The apps with the submitted one behind them, or in the place of the one at its index. -/
def edited (es : List (Json F)) (index : Int32) (app : Json F) : List (Json F) :=
  if index = -1 then es ++ [app] else es.set (toSizeT index) app

section
variable (toInt : F → Int32) (sorting : Sorting F) (write : WriteResult) (old : Option (Json F))

/-- A success stores the submitted app, with the apps sorted; an error leaves the file as it is. -/
def SaveEdits (body : Option (Json F)) (out : Reply × Option (Json F)) : Prop :=
  match out.1 with
  | .success => ∃ index app es stored, submitted toInt body = some (index, app) ∧ appsOf old = some es ∧
      appsOf out.2 = some stored ∧ (index ≠ -1 → toSizeT index < es.length) ∧ stored.Perm (edited es index app) ∧
      stored.Pairwise NameLe
  | .refused _ | .exception => out.2 = old
  | .undefined => False

/-- A success takes out the app at the index; an error leaves the file as it is. -/
def DeleteEdits (id : ℕ) (out : Reply × Option (Json F)) : Prop :=
  match out.1 with
  | .success => ∃ es, appsOf old = some es ∧ id < es.length ∧ appsOf out.2 = some (es.eraseIdx id)
  | .refused _ | .exception => out.2 = old
  | .undefined => False

/-- The member `apps` is one that the handler can edit: an array, or what behaves like one. -/
def Editable (apps : Json F) (index : Int32) : Prop :=
  isArray apps = true ∨
    if index = -1 then apps = .null else items apps = [] ∨ (items apps).length = 1 ∧ toSizeT index = 0

/-- The sort does not come upon an app without a name.  If it comes to an end, the index is -1 or that of an app, and the
file is written, or it cannot be opened and is as it should be. -/
def Storable (es : List (Json F)) (index : Int32) (app : Json F) : Prop :=
  (∀ met, sorting.run (edited es index app) = .meets met → lacksName met = false) ∧
  (Sortable (edited es index app) → (index ≠ -1 → toSizeT index < es.length) ∧
    (write = .complete ∨ write = .notOpened ∧ index ≠ -1 ∧ es[toSizeT index]? = some app ∧ es.Pairwise NameLe))

/-- What a body that can be used asks to store can be stored, in a file that can be edited. -/
def SaveGuard (body : Option (Json F)) : Prop :=
  ∀ index app tree, submitted toInt body = some (index, app) → old.bind members? = some tree →
    Editable (member tree (str "apps")) index → Storable sorting write (items (member tree (str "apps"))) index app

/-- If there is an app to delete, the file is written. -/
def DeleteGuard (id : ℕ) : Prop :=
  ∀ index tree, stoi id = some index → old.bind members? = some tree →
    checkAppIndex (items (member tree (str "apps"))) index = none →
      isArray (member tree (str "apps")) = true ∨ (items (member tree (str "apps"))).length = 1 → write = .complete

end

/-! ### The tree -/

@[simp] lemma lookup_setMember (key : Str) (value : Json F) (ms : List (Str × Json F)) :
    (setMember key value ms).lookup key = some value := by
  induction ms with
  | nil => simp [setMember]
  | cons m ms ih =>
    obtain ⟨k, v⟩ := m
    unfold setMember
    split_ifs with hk hlt
    · simp
    · simp
    · rw [List.lookup_cons, beq_false_of_ne (Ne.symm hk)]
      exact ih

lemma appsOf_written (tree : List (Str × Json F)) (es : List (Json F)) :
    appsOf (some (.object (setMember (str "apps") (.array es) tree))) = some es := by
  simp [appsOf, members?, member, items]

/-! ### The loops -/

lemma rebuild_behind {index i : ℕ} (h : index < i) (app : Option (Json F)) (es : List (Json F)) :
    rebuild true index app i es = some es := by
  induction es generalizing i with
  | nil => rfl
  | cons e es ih => rw [rebuild, if_neg (by omega), if_pos rfl, ih (by omega), Option.map_some]

lemma rebuild_array {index i : ℕ} (h : i ≤ index) (app : Option (Json F)) (es : List (Json F)) :
    rebuild true index app i es = some (app.elim (es.eraseIdx (index - i)) (es.set (index - i))) := by
  induction es generalizing i with
  | nil => cases app <;> rfl
  | cons e es ih =>
    unfold rebuild
    by_cases hi : i = index
    · rw [if_pos hi, rebuild_behind (by omega), hi, Nat.sub_self]
      cases app <;> rfl
    · rw [if_neg hi, if_pos rfl, ih (by omega), show index - i = index - (i + 1) + 1 by omega]
      cases app <;> rfl

lemma rebuild_other {index : ℕ} {es : List (Json F)} (h : es = [] ∨ es.length = 1 ∧ index = 0) (app : Option (Json F)) :
    rebuild false index app 0 es = rebuild true index app 0 es := by
  rcases h with rfl | ⟨hlength, rfl⟩
  · rfl
  · obtain ⟨e, rfl⟩ := List.length_eq_one_iff.mp hlength
    rfl

lemma rebuild_throws {index : ℕ} {es : List (Json F)} (h : ¬(es = [] ∨ es.length = 1 ∧ index = 0))
    (app : Option (Json F)) : rebuild false index app 0 es = none := by
  match es with
  | [] => exact absurd (Or.inl rfl) h
  | [e] =>
    have hindex : 0 ≠ index := fun h0 => h (Or.inr ⟨rfl, h0.symm⟩)
    rw [rebuild, if_neg hindex]
    rfl
  | e :: e' :: es =>
    by_cases hindex : 0 = index
    · rw [rebuild, if_pos hindex, rebuild, if_neg (by omega)]
      rfl
    · rw [rebuild, if_neg hindex]
      rfl

lemma newApps_of_editable {apps : Json F} {index : Int32} (h : Editable apps index) (app : Json F) :
    newApps apps index app = some (edited (items apps) index app) := by
  unfold newApps edited
  by_cases hindex : index = -1
  · rw [if_pos hindex, if_pos hindex]
    rcases h with harray | hnull
    · cases apps with
      | array es => rfl
      | _ => cases harray
    · rw [if_pos hindex] at hnull
      rw [hnull]
      rfl
  · rw [if_neg hindex, if_neg hindex]
    have hset := rebuild_array (Nat.zero_le (toSizeT index)) (some app) (items apps)
    rw [Option.elim_some] at hset
    rcases h with harray | hother
    · rw [harray, hset, Nat.sub_zero]
    · rw [if_neg hindex] at hother
      cases hisArray : isArray apps with
      | true => rw [hset, Nat.sub_zero]
      | false => rw [rebuild_other hother, hset, Nat.sub_zero]

lemma newApps_of_not_editable {apps : Json F} {index : Int32} (h : ¬Editable apps index) (app : Json F) :
    newApps apps index app = none := by
  obtain ⟨harray, hother⟩ := not_or.mp h
  rw [Bool.not_eq_true] at harray
  unfold newApps
  by_cases hindex : index = -1
  · rw [if_pos hindex] at hother ⊢
    cases apps with
    | null => exact absurd rfl hother
    | array es => cases harray
    | _ => rfl
  · rw [if_neg hindex] at hother ⊢
    rw [harray, rebuild_throws hother]

/-! ### `saveApp` -/

/-- An element that can be replaced without a change is the same. -/
lemma getElem?_of_perm_set {α : Type} {l : List α} {i : ℕ} {x : α} (hi : i < l.length) (h : l.Perm (l.set i x)) :
    l[i]? = some x := by
  have hsplit : l = l.take i ++ l[i] :: l.drop (i + 1) := by
    rw [List.cons_getElem_drop_succ, List.take_append_drop]
  have hset : l.set i x = l.take i ++ x :: l.drop (i + 1) := by rw [List.set_eq_take_append_cons_drop, if_pos hi]
  rw [hset] at h
  have hboth : (l.take i ++ l[i] :: l.drop (i + 1)).Perm (l.take i ++ x :: l.drop (i + 1)) := by
    rw [← hsplit]
    exact h
  have hrest : (l[i] :: (l.take i ++ l.drop (i + 1))).Perm (x :: (l.take i ++ l.drop (i + 1))) :=
    List.perm_middle.symm.trans (hboth.trans List.perm_middle)
  have hsame : l[i] = x := by
    have hmultiset : l[i] ::ₘ (l.take i ++ l.drop (i + 1) : Multiset α) =
        x ::ₘ (l.take i ++ l.drop (i + 1) : Multiset α) :=
      Multiset.coe_eq_coe.mpr hrest
    exact (Multiset.cons_inj_left _).mp hmultiset
  rw [List.getElem?_eq_getElem hi, hsame]

section
variable {toInt : F → Int32} {sorting : Sorting F} {write : WriteResult} {old : Option (Json F)}

variable (write) in
/-- What becomes of sorted apps. -/
lemma stored_iff {index : Int32} {app : Json F} {tree : List (Str × Json F)} {out : List (Json F)}
    (htree : old.bind members? = some tree)
    (hperm : out.Perm (edited (items (member tree (str "apps"))) index app)) (hsorted : out.Pairwise NameLe) :
    (∃ stored, appsOf (writeFile old (.object (setMember (str "apps") (.array out) tree)) write) = some stored ∧
      stored.Perm (edited (items (member tree (str "apps"))) index app) ∧ stored.Pairwise NameLe ∧
      (index ≠ -1 → toSizeT index < (items (member tree (str "apps"))).length)) ↔
    (index ≠ -1 → toSizeT index < (items (member tree (str "apps"))).length) ∧
      (write = .complete ∨ write = .notOpened ∧ index ≠ -1 ∧
        (items (member tree (str "apps")))[toSizeT index]? = some app ∧
        (items (member tree (str "apps"))).Pairwise NameLe) := by
  have hold : appsOf old = some (items (member tree (str "apps"))) := by rw [appsOf, htree, Option.map_some]
  generalize items (member tree (str "apps")) = es at hperm hold ⊢
  cases write with
  | complete =>
    constructor
    · rintro ⟨-, -, -, -, hrange⟩
      exact ⟨hrange, Or.inl rfl⟩
    · rintro ⟨hrange, -⟩
      exact ⟨out, appsOf_written tree out, hperm, hsorted, hrange⟩
  | notOpened =>
    rw [writeFile, hold]
    constructor
    · rintro ⟨stored, hstored, hsame, hsortedOld, hrange⟩
      obtain rfl := Option.some.inj hstored
      have hindex : index ≠ -1 := by
        intro hindex
        rw [edited, if_pos hindex] at hsame
        have hlength := hsame.length_eq
        rw [List.length_append, List.length_singleton] at hlength
        omega
      rw [edited, if_neg hindex] at hsame
      exact ⟨hrange, Or.inr ⟨rfl, hindex, getElem?_of_perm_set (hrange hindex) hsame, hsortedOld⟩⟩
    · rintro ⟨hrange, hwrite | ⟨-, hindex, hget, hsortedOld⟩⟩
      · cases hwrite
      · obtain ⟨hlt, heq⟩ := List.getElem?_eq_some_iff.mp hget
        refine ⟨es, rfl, ?_, hsortedOld, hrange⟩
        rw [edited, if_neg hindex, ← heq, List.set_getElem_self]
  | cut =>
    refine iff_of_false ?_ ?_
    · rintro ⟨stored, hstored, -⟩
      cases hstored
    · rintro ⟨-, hwrite | ⟨hwrite, -⟩⟩ <;> cases hwrite

lemma storable_of_sorted {es out : List (Json F)} {index : Int32} {app : Json F} (h : Sortable (edited es index app))
    (hrun : sorting.run (edited es index app) = .sorted out) :
    Storable sorting write es index app ↔ (index ≠ -1 → toSizeT index < es.length) ∧
      (write = .complete ∨ write = .notOpened ∧ index ≠ -1 ∧ es[toSizeT index]? = some app ∧ es.Pairwise NameLe) := by
  refine ⟨fun hstorable => hstorable.2 h, fun hwritten => ⟨fun met hmet => ?_, fun _ => hwritten⟩⟩
  rw [hrun] at hmet
  cases hmet

lemma storable_of_meets {es : List (Json F)} {index : Int32} {app met : Json F} (h : ¬Sortable (edited es index app))
    (hrun : sorting.run (edited es index app) = .meets met) :
    Storable sorting write es index app ↔ lacksName met = false := by
  refine ⟨fun hstorable => hstorable.1 met hrun, fun hname => ⟨fun met' hmet => ?_, fun hs => absurd hs h⟩⟩
  rw [hrun] at hmet
  cases hmet
  exact hname

theorem saveEdits_body_iff (body : Option (Json F)) :
    SaveEdits toInt old body (saveAppBody toInt sorting write old body) ↔
      SaveGuard toInt sorting write old body := by
  unfold saveAppBody SaveGuard
  cases hsubmitted : submitted toInt body with
  | none => exact iff_of_true rfl nofun
  | some asked =>
    obtain ⟨index, app⟩ := asked
    cases htree : old.bind members? with
    | none => exact iff_of_true rfl nofun
    | some tree =>
      have hold : appsOf old = some (items (member tree (str "apps"))) := by rw [appsOf, htree, Option.map_some]
      by_cases heditable : Editable (member tree (str "apps")) index
      · have hnew := newApps_of_editable heditable app
        have hguard : (∀ index' app' tree', some (index, app) = some (index', app') → some tree = some tree' →
            Editable (member tree' (str "apps")) index' →
              Storable sorting write (items (member tree' (str "apps"))) index' app') ↔
            Storable sorting write (items (member tree (str "apps"))) index app := by
          constructor
          · exact fun h => h index app tree rfl rfl heditable
          · rintro h index' app' tree' ⟨⟩ ⟨⟩ -
            exact h
        rw [hguard]
        by_cases hsortable : Sortable (edited (items (member tree (str "apps"))) index app)
        · obtain ⟨out, hrun, hperm, hsorted⟩ := sorting.sorted _ hsortable
          rw [storable_of_sorted hsortable hrun, ← stored_iff write htree hperm hsorted]
          simp only [Option.bind_eq_bind, Option.bind_some, hnew, Option.pure_def, hrun, SaveEdits]
          constructor
          · rintro ⟨index', app', es, stored, hasked, hes, hread, hrange, hsame, hpairwise⟩
            rw [hsubmitted] at hasked
            rw [hold] at hes
            cases hasked
            cases hes
            exact ⟨stored, hread, hsame, hpairwise, hrange⟩
          · rintro ⟨stored, hread, hsame, hpairwise, hrange⟩
            exact ⟨index, app, _, stored, hsubmitted, hold, hread, hrange, hsame, hpairwise⟩
        · obtain ⟨met, -, -, hrun⟩ := sorting.meets _ hsortable
          simp only [Option.bind_eq_bind, Option.bind_some, hnew, Option.pure_def, hrun, SaveEdits]
          rw [storable_of_meets hsortable hrun]
          cases lacksName met with
          | true => exact iff_of_false id nofun
          | false => exact iff_of_true True.intro rfl
      · have hnone := newApps_of_not_editable heditable app
        simp only [Option.bind_eq_bind, Option.bind_some, hnone, Option.bind_none]
        refine iff_of_true rfl ?_
        rintro index' app' tree' ⟨⟩ ⟨⟩ h
        exact absurd h heditable

/-! ### `deleteApp` -/

/-- A number that `stoi` reads keeps its value as an `int` and as a `size_t`. -/
lemma toSizeT_stoi {id : ℕ} {index : Int32} (h : stoi id = some index) : index.toInt = id ∧ toSizeT index = id := by
  unfold stoi at h
  split_ifs at h with hlt
  obtain rfl := Option.some.inj h
  have hint : (Int32.ofNat id).toInt = id := Int32.toInt_ofNat_of_lt hlt
  have hwide : (Int32.ofNat id).toInt64.toInt = id := (Int32.toInt_toInt64 _).trans hint
  have hle : 0 ≤ (Int32.ofNat id).toInt64 := Int64.le_iff_toInt_le.mpr (by rw [hwide]; exact Int.natCast_nonneg id)
  rw [toSizeT, Int64.toNat_toUInt64_of_le hle]
  exact ⟨hint, congrArg Int.toNat hwide⟩

lemma lt_of_checkAppIndex {es : List (Json F)} {id : ℕ} {index : Int32} (hindex : stoi id = some index)
    (h : checkAppIndex es index = none) : id < es.length := by
  have hrange : ¬(index < 0 ∨ Int32.ofNat es.length ≤ index) := by
    intro hrange
    rw [checkAppIndex, if_pos hrange] at h
    dsimp only at h
    split at h <;> cases h
  have hlt : index.toInt < (Int32.ofNat es.length).toInt :=
    Int32.lt_iff_toInt_lt.mp (Int32.not_le.mp (not_or.mp hrange).2)
  rw [(toSizeT_stoi hindex).1, Int32.toInt_ofNat', Int.bmod_def] at hlt
  change (id : ℤ) < if (es.length : ℤ) % 4294967296 < (4294967296 + 1) / 2 then (es.length : ℤ) % 4294967296
    else (es.length : ℤ) % 4294967296 - 4294967296 at hlt
  split_ifs at hlt <;> omega

variable (write) in
lemma deleted_iff {id : ℕ} {tree : List (Str × Json F)} (htree : old.bind members? = some tree)
    (hlt : id < (items (member tree (str "apps"))).length) :
    appsOf (writeFile old
        (.object (setMember (str "apps") (.array ((items (member tree (str "apps"))).eraseIdx id)) tree))
      write) = some ((items (member tree (str "apps"))).eraseIdx id) ↔ write = .complete := by
  have hold : appsOf old = some (items (member tree (str "apps"))) := by rw [appsOf, htree, Option.map_some]
  cases write with
  | complete => exact iff_of_true (appsOf_written _ _) rfl
  | notOpened =>
    refine iff_of_false (fun h => ?_) nofun
    have hsame := congrArg List.length (Option.some.inj (hold.symm.trans h))
    rw [List.length_eraseIdx_of_lt hlt] at hsame
    omega
  | cut => exact iff_of_false nofun nofun

theorem deleteEdits_body_iff (id : ℕ) : DeleteEdits old id (deleteAppBody write old id) ↔ DeleteGuard write old id := by
  unfold deleteAppBody DeleteGuard
  cases hindex : stoi id with
  | none => exact iff_of_true rfl nofun
  | some index =>
    cases htree : old.bind members? with
    | none => exact iff_of_true rfl nofun
    | some tree =>
      have hold : appsOf old = some (items (member tree (str "apps"))) := by rw [appsOf, htree, Option.map_some]
      have hguard : (∀ index' tree', some index = some index' → some tree = some tree' →
          checkAppIndex (items (member tree' (str "apps"))) index' = none →
            isArray (member tree' (str "apps")) = true ∨ (items (member tree' (str "apps"))).length = 1 →
              write = .complete) ↔
          (checkAppIndex (items (member tree (str "apps"))) index = none →
            isArray (member tree (str "apps")) = true ∨ (items (member tree (str "apps"))).length = 1 →
              write = .complete) := by
        constructor
        · exact fun h => h index tree rfl rfl
        · rintro h index' tree' ⟨⟩ ⟨⟩
          exact h
      rw [hguard]
      simp only [Option.bind_eq_bind, Option.bind_some, Option.pure_def]
      cases hcheck : checkAppIndex (items (member tree (str "apps"))) index with
      | some response => exact iff_of_true rfl nofun
      | none =>
        have hlt := lt_of_checkAppIndex hindex hcheck
        have hdeleted := deleted_iff write htree hlt
        have hrebuilt := rebuild_array (Nat.zero_le (toSizeT index)) none (items (member tree (str "apps")))
        rw [Option.elim_none, Nat.sub_zero, (toSizeT_stoi hindex).2] at hrebuilt
        rw [(toSizeT_stoi hindex).2]
        by_cases hloop : isArray (member tree (str "apps")) = true ∨ (items (member tree (str "apps"))).length = 1
        · have hall : rebuild (isArray (member tree (str "apps"))) id none 0 (items (member tree (str "apps"))) =
              some ((items (member tree (str "apps"))).eraseIdx id) := by
            cases harray : isArray (member tree (str "apps")) with
            | true => exact hrebuilt
            | false =>
              rw [harray] at hloop
              obtain hfalse | hone := hloop
              · cases hfalse
              · rw [rebuild_other (Or.inr ⟨hone, by omega⟩), hrebuilt]
          simp only [hall, DeleteEdits]
          rw [← hdeleted]
          constructor
          · rintro ⟨es, hes, -, hread⟩ - -
            rw [hold] at hes
            cases hes
            exact hread
          · intro h
            exact ⟨_, hold, hlt, h trivial hloop⟩
        · obtain ⟨harray, hone⟩ := not_or.mp hloop
          rw [Bool.not_eq_true] at harray
          have hthrows : ¬(items (member tree (str "apps")) = [] ∨ (items (member tree (str "apps"))).length = 1 ∧
              id = 0) := by
            rintro (hempty | ⟨hlength, -⟩)
            · rw [hempty] at hlt
              cases hlt
            · exact hone hlength
          rw [harray, rebuild_throws hthrows]
          exact iff_of_true rfl fun _ h => absurd h (by simp [hone])

/-! ### The requests -/

/-- **Each request edits one app or none exactly if what reaches the apps can be stored**: for both handlers, unless the
checks refuse the request. -/
theorem apps_edited_iff (toInt : F → Int32) (sorting : Sorting F) (write : WriteResult) (old : Option (Json F))
    (env : Env)
    (tokens : Tokens) (request : Request) (now : ℤ) (body : Option (Json F)) (id : ℕ) :
    (SaveEdits toInt old body (saveApp toInt sorting write old env tokens request now body) ↔
      (checks true env tokens request now = none → SaveGuard toInt sorting write old body)) ∧
    (DeleteEdits old id (deleteApp write old env tokens request now id) ↔
      (checks false env tokens request now = none → DeleteGuard write old id)) := by
  constructor
  · unfold saveApp
    cases checks true env tokens request now with
    | some response => exact iff_of_true rfl nofun
    | none => exact (saveEdits_body_iff body).trans ⟨fun h _ => h, fun h => h rfl⟩
  · unfold deleteApp
    cases checks false env tokens request now with
    | some response => exact iff_of_true rfl nofun
    | none => exact (deleteEdits_body_iff id).trans ⟨fun h _ => h, fun h => h rfl⟩

end

/-! ### An index out of range -/

def firstName (a b : Json F) : Bool := decide ((nameOf a).getD [] ≤ (nameOf b).getD [])

/-- A stable sort. -/
def stableRun (apps : List (Json F)) : SortResult F :=
  if Sortable apps then .sorted (apps.mergeSort firstName)
  else .meets ((apps.find? fun app => (nameOf app).isNone).getD .null)

def stableSorting : Sorting F where
  run := stableRun
  sorted := by
    intro apps hsortable
    refine ⟨_, if_pos hsortable, List.mergeSort_perm _ _, ?_⟩
    rcases hsortable with hshort | hnamed
    · have hlength := (List.mergeSort_perm apps firstName).length_eq
      generalize apps.mergeSort firstName = out at hlength
      match out, hlength with
      | [], _ => exact List.Pairwise.nil
      | [app], _ => exact List.pairwise_singleton _ _
      | _ :: _ :: _, hlength =>
        simp only [List.length_cons] at hlength
        omega
    · have htrans : ∀ a b c : Json F, firstName a b = true → firstName b c = true → firstName a c = true :=
        fun a b c hab hbc => decide_eq_true (List.le_trans (of_decide_eq_true hab) (of_decide_eq_true hbc))
      have htotal : ∀ a b : Json F, (firstName a b || firstName b a) = true := fun a b => by
        simpa [firstName] using List.le_total ((nameOf a).getD []) ((nameOf b).getD [])
      refine (List.pairwise_mergeSort htrans htotal apps).imp_of_mem fun {a b} ha hb hle => ?_
      obtain ⟨x, hx⟩ := Option.isSome_iff_exists.mp (hnamed a ((List.mergeSort_perm _ _).mem_iff.mp ha))
      obtain ⟨y, hy⟩ := Option.isSome_iff_exists.mp (hnamed b ((List.mergeSort_perm _ _).mem_iff.mp hb))
      refine ⟨x, y, hx, hy, ?_⟩
      simpa [firstName, hx, hy] using hle
  meets := by
    intro apps hsortable
    have hsome : (apps.find? fun app => (nameOf app).isNone).isSome := by
      rw [List.find?_isSome]
      obtain ⟨app, happ, hname⟩ : ∃ app ∈ apps, ¬(nameOf app).isSome = true := by
        simpa using (not_or.mp hsortable).2
      exact ⟨app, happ, by simpa using hname⟩
    obtain ⟨app, happ⟩ := Option.isSome_iff_exists.mp hsome
    refine ⟨app, List.mem_of_find?_eq_some happ, by simpa using List.find?_some happ, ?_⟩
    rw [stableRun, if_neg hsortable, happ, Option.getD_some]

lemma stableSorting_singleton (app : Json F) : stableSorting.run [app] = .sorted [app] := by
  have hshort : Sortable [app] := Or.inl (Nat.le_refl 1)
  change stableRun [app] = _
  rw [stableRun, if_pos hshort, List.mergeSort_singleton]

/-- A file with one app. -/
def oneApp : Json Unit := .object [(str "apps", .array [.object [(str "name", .string (str "Desktop"))]])]

/-- An app to be stored in the place of the sixth one. -/
def sixthApp : Json Unit := .object [(str "index", .integer 5), (str "name", .string (str "Steam"))]

/-- The request succeeds, and the app is not stored. -/
theorem index_out_of_range_succeeds :
    (¬∀ (toInt : Unit → Int32) (sorting : Sorting Unit) (old : Option (Json Unit)) (env : Env) (tokens : Tokens)
      (request : Request) (now : ℤ) (body : Option (Json Unit)),
      SaveEdits toInt old body (saveApp toInt sorting .complete old env tokens request now body)) ∧
    saveApp (fun _ => 0) stableSorting .complete (some oneApp) uploadEnv (fun _ => none)
      { uploadRequest with origin := none } 0 (some sixthApp) = (.success, some oneApp) := by
  have hsaved : saveApp (fun _ => 0) stableSorting .complete (some oneApp) uploadEnv (fun _ => none)
      { uploadRequest with origin := none } 0 (some sixthApp) = (.success, some oneApp) := by
    have hchecks : checks true uploadEnv (fun _ => none) { uploadRequest with origin := none } 0 = none := by
      decide +kernel
    have hbody : saveAppBody (fun _ => 0) stableSorting .complete (some oneApp) (some sixthApp) =
        match (stableSorting : Sorting Unit).run [.object [(str "name", .string (str "Desktop"))]] with
        | .meets app => (if lacksName app then .undefined else .exception, some oneApp)
        | .sorted apps => (.success, writeFile (some oneApp) (.object [(str "apps", .array apps)]) .complete) := by rfl
    rw [saveApp, hchecks]
    dsimp only
    rw [hbody, stableSorting_singleton]
    rfl
  refine ⟨fun hholds => ?_, hsaved⟩
  have hedits := hholds (fun _ => 0) stableSorting (some oneApp) uploadEnv (fun _ => none)
    { uploadRequest with origin := none } 0 (some sixthApp)
  rw [hsaved] at hedits
  obtain ⟨index, app, es, stored, hasked, hes, -, hrange, -⟩ := hedits
  have hindex : index = 5 := by
    have hfive : submitted (fun _ => 0) (some sixthApp) =
        some (5, .object [(str "name", .string (str "Steam"))]) := by rfl
    exact (congrArg Prod.fst (Option.some.inj (hasked.symm.trans hfive)))
  have hlength : es.length = 1 := congrArg List.length (Option.some.inj hes).symm
  rw [hindex, hlength] at hrange
  exact absurd (hrange (by decide)) (by decide)

end MidnightSun.Confighttp.AppsFile
