import Mathlib.Data.List.Nodup
import MidnightSun.Lib.FirstChoice
import MidnightSun.Util.Decimal

/-!
# The list of applications (src/process.cpp, src/nvhttp.cpp)

`parse` reads the apps file and gives each application an id; `launch` takes an id back and `execute` looks it up.  The
expansion of variables, the image files and their hashes come from the system: `Host`.
-/

namespace MidnightSun.Proc

open Boost Util Lib

/-- `cmd_t`: a prep command. -/
structure Cmd where
  doCmd : Str
  undoCmd : Str
  elevated : Bool
  deriving DecidableEq

/-- `ctx_t`. -/
structure Ctx where
  prepCmds : List Cmd
  detached : List Str
  name : Str
  cmd : Str
  workingDir : Str
  output : Str
  imagePath : Str
  id : Str
  elevated : Bool
  autoDetach : Bool
  waitAll : Bool
  deriving DecidableEq

/-- Environment variables, the last setting first. -/
abbrev Env := List (String × Str)

/-- What `parse` takes from elsewhere. -/
structure Host where
  /-- `boost::this_process::environment()` -/
  environment : Env
  /-- `parse_env_val`; it throws for a missing bracket -/
  parseEnvVal : Env → Str → Option Str
  /-- `config::sunshine.prep_cmds` -/
  prepCmds : List Cmd
  /-- `calculate_crc32` -/
  crc32 : Str → UInt32
  validateAppImagePath : Str → Str
  calculateSha256 : Str → Option Str
  /-- `DEFAULT_APP_IMAGE_PATH` -/
  defaultAppImagePath : Str

namespace Host

variable (host : Host)

/-! ### Ids -/

/-- `abs((int32_t) checksum)`; the smallest number has no positive counterpart and stays. -/
def absInt (checksum : UInt32) : ℤ := checksum.toBitVec.abs.toInt

/-- The text that stands for an application: its name, and the hash or the path of its image. -/
def hashInput (appName appImagePath : Str) : Str :=
  let filePath := host.validateAppImagePath appImagePath
  if filePath ≠ host.defaultAppImagePath then appName ++ (host.calculateSha256 filePath).getD filePath else appName

def hashNoIndex (appName appImagePath : Str) : ℤ := absInt (host.crc32 (host.hashInput appName appImagePath))

def hashWithIndex (appName appImagePath : Str) (index : ℤ) : ℤ :=
  absInt (host.crc32 (host.hashInput appName appImagePath ++ decimal index))

/-- `calculate_app_id`. -/
def calculateAppId (appName appImagePath : Str) (index : ℤ) : Str × Str :=
  (decimal (host.hashNoIndex appName appImagePath), decimal (host.hashWithIndex appName appImagePath index))

/-! ### The apps file -/

/-- The environment after the variables of the file. -/
def parseEnv (env : Env) : List (String × Ptree) → Option Env
  | [] => some env
  | (name, val) :: rest => (host.parseEnvVal env val.data).bind fun v => parseEnv ((name, v) :: env) rest

/-- An optional text, expanded; a missing one is empty. -/
def expand (env : Env) : Option Str → Option Str
  | none => some []
  | some s => host.parseEnvVal env s

/-- The prep commands of an application: the global ones, unless it excludes them, and its own. -/
def parsePrepCmds (env : Env) (app : Ptree) : Option (List Cmd) := do
  let global ← (if app.getBool ["exclude-global-prep-cmd"] false then [] else host.prepCmds).mapM fun c => do
    return { c with doCmd := ← host.parseEnvVal env c.doCmd, undoCmd := ← host.parseEnvVal env c.undoCmd }
  let own ← (((app.getChild? ["prep-cmd"]).map Ptree.children).getD []).mapM fun node => do
    return {
      doCmd := ← host.parseEnvVal env ((node.2.get? ["do"]).getD [])
      undoCmd := ← host.parseEnvVal env ((node.2.get? ["undo"]).getD [])
      elevated := node.2.getBool ["elevated"] false : Cmd }
  return global ++ own

/-- An application of the file, at its position.  `ids` are the ids given so far. -/
def parseApp (env : Env) (ids : List Str) (i : ℕ) (app : Ptree) : Option Ctx := do
  let name ← host.parseEnvVal env (← app.get? ["name"])
  let prepCmds ← host.parsePrepCmds env app
  let detached ← (((app.getChild? ["detached"]).map Ptree.children).getD []).mapM fun d => host.parseEnvVal env d.2.data
  let output ← host.expand env (app.get? ["output"])
  let cmd ← host.expand env (app.get? ["cmd"])
  let workingDir ← host.expand env (app.get? ["working-dir"])
  let imagePath ← host.expand env (app.get? ["image-path"])
  let possibleIds := host.calculateAppId name imagePath i
  return {
    prepCmds, detached, name, cmd, workingDir, output, imagePath
    id := if possibleIds.1 ∈ ids then possibleIds.2 else possibleIds.1
    elevated := app.getBool ["elevated"] false
    autoDetach := app.getBool ["auto-detach"] true
    waitAll := app.getBool ["wait-all"] true }

/-- The loop over the applications. -/
def parseApps (env : Env) (ids : List Str) (i : ℕ) : List Ptree → Option (List Ctx)
  | [] => some []
  | app :: rest => do
    let ctx ← host.parseApp env ids i app
    let apps ← parseApps env (ids ++ [ctx.id]) (i + 1) rest
    return ctx :: apps

/-- `parse`, of a file that is read as `tree`. -/
def parse (tree : Ptree) : Option (List Ctx) := do
  let appsNode ← tree.getChild? ["apps"]
  let envVars ← tree.getChild? ["env"]
  let env ← host.parseEnv host.environment envVars.children
  host.parseApps env [] 0 (appsNode.children.map (·.2))

end Host

/-- The names and images of the applications. -/
def filesOf (apps : List Ctx) : List (Str × Str) := apps.map fun app => (app.name, app.imagePath)

/-! ### Launch -/

/-- The application that `execute` finds, by its position. -/
def findApp (apps : List Ctx) (appId : ℤ) : Option ℕ := apps.findIdx? fun app => app.id = decimal appId

/-- The application that a launch request runs, where nothing else keeps it from doing so. -/
def launched (apps : List Ctx) (appid : Str) : Option ℕ :=
  let appid := fromView appid
  if 0 < appid.toInt then findApp apps (toInt appid) else none

/-- The ids are different and positive, and each launches its application. -/
structure Launchable (apps : List Ctx) : Prop where
  nodup : (apps.map (·.id)).Nodup
  positive : ∀ app ∈ apps, ∃ n : ℤ, 0 < n ∧ n < 2 ^ 31 ∧ app.id = decimal n
  launches : ∀ i app, apps[i]? = some app → launched apps app.id = some i

/-! ### The ids that `parse` gives -/

namespace Host

variable {host : Host} {env : Env} {ids : List Str} {i : ℕ} {apps : List Ctx}

theorem absInt_range (checksum : UInt32) : -2 ^ 31 ≤ absInt checksum ∧ absInt checksum < 2 ^ 31 :=
  ⟨BitVec.le_toInt _, BitVec.toInt_lt⟩

theorem id_of_parseApp {app : Ptree} {ctx : Ctx} (h : host.parseApp env ids i app = some ctx) :
    ctx.id = if (host.calculateAppId ctx.name ctx.imagePath i).1 ∈ ids then
      (host.calculateAppId ctx.name ctx.imagePath i).2 else (host.calculateAppId ctx.name ctx.imagePath i).1 := by
  unfold parseApp at h
  simp only [Option.bind_eq_bind, Option.bind_eq_some_iff, Option.pure_def, Option.some.injEq] at h
  obtain ⟨-, -, name, -, -, -, -, -, -, -, -, -, -, -, imagePath, -, rfl⟩ := h
  rfl

theorem id_of_parseApps {nodes : List Ptree} (h : host.parseApps env ids i nodes = some apps) {j : ℕ} {ctx : Ctx}
    (hj : apps[j]? = some ctx) :
    ctx.id = if (host.calculateAppId ctx.name ctx.imagePath ↑(i + j)).1 ∈ ids ++ (apps.take j).map (·.id) then
      (host.calculateAppId ctx.name ctx.imagePath ↑(i + j)).2
    else (host.calculateAppId ctx.name ctx.imagePath ↑(i + j)).1 := by
  induction nodes generalizing ids i apps j with
  | nil =>
    obtain rfl := Option.some.inj h
    cases hj
  | cons node nodes ih =>
    unfold parseApps at h
    simp only [Option.bind_eq_bind, Option.bind_eq_some_iff, Option.pure_def, Option.some.injEq] at h
    obtain ⟨first, hfirst, rest, hrest, rfl⟩ := h
    cases j with
    | zero =>
      obtain rfl := Option.some.inj hj
      simpa using id_of_parseApp hfirst
    | succ j =>
      have hid := ih hrest hj
      rw [show i + 1 + j = i + (j + 1) by omega] at hid
      simpa using hid

/-! ### Which files can be told apart -/

/-- The hash of the `i`-th application of the file, from its name and image. -/
def firstChoice (host : Host) (files : List (Str × Str)) (i : ℕ) : ℤ :=
  host.hashNoIndex (files.getD i ([], [])).1 (files.getD i ([], [])).2

/-- The hash with its position. -/
def indexChoice (host : Host) (files : List (Str × Str)) (i : ℕ) : ℤ :=
  host.hashWithIndex (files.getD i ([], [])).1 (files.getD i ([], [])).2 i

/-- The hashes of the names and images keep the applications apart: the hash with the position of one that has to fall
back is neither the hash of an earlier one nor one that was fallen back on, and the hash that counts is positive (not
that of checksum 0 or 0x80000000). -/
structure ToldApart (host : Host) (files : List (Str × Str)) : Prop where
  different : ∀ i < files.length, FallsBack (host.firstChoice files) (host.indexChoice files) i →
    ∀ k < i, host.firstChoice files k ≠ host.indexChoice files i ∧
      (FallsBack (host.firstChoice files) (host.indexChoice files) k →
        host.indexChoice files k ≠ host.indexChoice files i)
  positive : ∀ i < files.length,
    (¬FallsBack (host.firstChoice files) (host.indexChoice files) i → 0 < host.firstChoice files i) ∧
      (FallsBack (host.firstChoice files) (host.indexChoice files) i → 0 < host.indexChoice files i)

lemma getD_filesOf {ctx : Ctx} (h : apps[i]? = some ctx) :
    (filesOf apps).getD i ([], []) = (ctx.name, ctx.imagePath) := by
  rw [filesOf, List.getD_eq_getElem?_getD, List.getElem?_map, h]
  rfl

theorem takes_range (files : List (Str × Str)) (i : ℕ) :
    -2 ^ 31 ≤ takes (host.firstChoice files) (host.indexChoice files) i ∧
      takes (host.firstChoice files) (host.indexChoice files) i < 2 ^ 31 := by
  unfold takes
  split
  · exact absInt_range _
  · exact absInt_range _

/-- The ids are the decimal forms of what the applications take. -/
theorem id_eq_decimal_takes {tree : Ptree} (h : host.parse tree = some apps) (i : ℕ) {ctx : Ctx}
    (hi : apps[i]? = some ctx) :
    ctx.id = decimal (takes (host.firstChoice (filesOf apps)) (host.indexChoice (filesOf apps)) i) := by
  unfold parse at h
  simp only [Option.bind_eq_bind, Option.bind_eq_some_iff] at h
  obtain ⟨appsNode, -, envVars, -, env, -, happs⟩ := h
  induction i using Nat.strongRecOn generalizing ctx with
  | ind i ih =>
    have hid := id_of_parseApps happs hi
    rw [Nat.zero_add, List.nil_append] at hid
    have hfile := getD_filesOf hi
    have hfirst : host.calculateAppId ctx.name ctx.imagePath i =
        (decimal (host.firstChoice (filesOf apps) i), decimal (host.indexChoice (filesOf apps) i)) := by
      rw [calculateAppId, firstChoice, indexChoice, hfile]
    rw [hfirst] at hid
    have htaken : decimal (host.firstChoice (filesOf apps) i) ∈ (apps.take i).map (·.id) ↔
        FallsBack (host.firstChoice (filesOf apps)) (host.indexChoice (filesOf apps)) i := by
      rw [fallsBack_iff]
      constructor
      · intro hmem
        obtain ⟨c, hc, heq⟩ := List.mem_map.mp hmem
        obtain ⟨k, hk, hget⟩ := List.mem_iff_getElem.mp hc
        rw [List.length_take] at hk
        have hck : apps[k]? = some c := by
          rw [← hget, List.getElem_take, List.getElem?_eq_getElem]
        refine ⟨k, by omega, (decimal_inj (takes_range _ _) (absInt_range _)).mp ?_⟩
        rw [← ih k (by omega) hck, heq]
        rfl
      · rintro ⟨k, hk, heq⟩
        have hlen : i < apps.length := (List.getElem?_eq_some_iff.mp hi).1
        have hck : apps[k]? = some apps[k] := List.getElem?_eq_getElem (by omega)
        refine List.mem_map.mpr ⟨apps[k], List.mem_iff_getElem.mpr ⟨k, by rw [List.length_take]; omega, ?_⟩, ?_⟩
        · rw [List.getElem_take]
        · rw [ih k hk hck, heq]
    unfold takes
    by_cases hback : FallsBack (host.firstChoice (filesOf apps)) (host.indexChoice (filesOf apps)) i
    · rw [if_pos (htaken.mpr hback)] at hid
      rw [if_pos hback, hid]
    · rw [if_neg (mt htaken.mp hback)] at hid
      rw [if_neg hback, hid]

theorem nodup_iff_takes_ne {tree : Ptree} (h : host.parse tree = some apps) :
    (apps.map (·.id)).Nodup ↔ ∀ i < apps.length, ∀ k < i,
      takes (host.firstChoice (filesOf apps)) (host.indexChoice (filesOf apps)) k ≠
        takes (host.firstChoice (filesOf apps)) (host.indexChoice (filesOf apps)) i := by
  have hget : ∀ i, (hi : i < apps.length) → (apps.map (·.id))[i]? =
      some (decimal (takes (host.firstChoice (filesOf apps)) (host.indexChoice (filesOf apps)) i)) := by
    intro i hi
    rw [List.getElem?_map, List.getElem?_eq_getElem hi, Option.map_some,
      id_eq_decimal_takes h i (List.getElem?_eq_getElem hi)]
  rw [List.nodup_iff_getElem?_ne_getElem?, List.length_map]
  constructor
  · intro hne i hi k hk heq
    exact hne k i hk hi (by rw [hget k (by omega), hget i hi, heq])
  · intro hne k i hk hi heq
    rw [hget k (by omega), hget i hi] at heq
    exact hne i hi k hk ((decimal_inj (takes_range _ _) (takes_range _ _)).mp (Option.some.inj heq))

theorem positive_iff_takes_pos {tree : Ptree} (h : host.parse tree = some apps) :
    (∀ app ∈ apps, ∃ n : ℤ, 0 < n ∧ n < 2 ^ 31 ∧ app.id = decimal n) ↔
      ∀ i < apps.length, 0 < takes (host.firstChoice (filesOf apps)) (host.indexChoice (filesOf apps)) i := by
  constructor
  · intro hall i hi
    obtain ⟨n, hpos, hlt, hid⟩ := hall apps[i] (List.getElem_mem hi)
    rw [id_eq_decimal_takes h i (List.getElem?_eq_getElem hi), decimal_inj (takes_range _ _) (by omega)] at hid
    rwa [hid]
  · intro hall app happ
    obtain ⟨i, hi, rfl⟩ := List.mem_iff_getElem.mp happ
    exact ⟨_, hall i hi, (takes_range _ _).2, id_eq_decimal_takes h i (List.getElem?_eq_getElem hi)⟩

end Host

/-- An application whose id is positive and nobody else's is the one that its id launches. -/
theorem launched_of_nodup {apps : List Ctx} (hnodup : (apps.map (·.id)).Nodup) {i : ℕ} {app : Ctx}
    (hi : apps[i]? = some app) {n : ℤ} (hpos : 0 < n) (hlt : n < 2 ^ 31) (hid : app.id = decimal n) :
    launched apps app.id = some i := by
  have hview : (BitVec.ofInt 64 n).toInt = n := by
    rw [BitVec.toInt_ofInt, Int.bmod_eq_of_le (by omega) (by omega)]
  have hint : toInt (BitVec.ofInt 64 n) = n := by
    have hnat : (BitVec.ofInt 64 n).toNat = n.toNat := by
      rw [BitVec.toNat_ofInt]
      omega
    rw [toInt, BitVec.toInt_setWidth, hnat, Int.toNat_of_nonneg (Int.le_of_lt hpos),
      Int.bmod_eq_of_le (by omega) (by omega)]
  obtain ⟨hlen, hget⟩ := List.getElem?_eq_some_iff.mp hi
  unfold launched findApp
  rw [hid, fromView_decimal]
  dsimp only
  rw [hview, hint, if_pos hpos, List.findIdx?_eq_some_iff_getElem]
  refine ⟨hlen, by simp [hget, hid], fun k hk heq => ?_⟩
  have hsame : apps[k].id = apps[i].id := by
    rw [hget, hid]
    simpa using heq
  rw [List.nodup_iff_getElem?_ne_getElem?, List.length_map] at hnodup
  refine hnodup k i hk hlen ?_
  rw [List.getElem?_map, List.getElem?_map, List.getElem?_eq_getElem (by omega), List.getElem?_eq_getElem hlen,
    Option.map_some, Option.map_some, hsame]

/-- The applications of a file can all be launched exactly if the hashes of their names and images tell them apart. -/
theorem parse_launchable_iff (host : Host) {tree : Ptree} {apps : List Ctx} (h : host.parse tree = some apps) :
    Launchable apps ↔ host.ToldApart (filesOf apps) := by
  have hlen : (filesOf apps).length = apps.length := List.length_map ..
  have hdifferent := (Host.nodup_iff_takes_ne h).trans (takes_injective_iff apps.length)
  have hpositive := Host.positive_iff_takes_pos h
  have hchoice : (∀ i < apps.length, 0 < takes (host.firstChoice (filesOf apps)) (host.indexChoice (filesOf apps)) i) ↔
      ∀ i < apps.length,
        (¬FallsBack (host.firstChoice (filesOf apps)) (host.indexChoice (filesOf apps)) i →
          0 < host.firstChoice (filesOf apps) i) ∧
        (FallsBack (host.firstChoice (filesOf apps)) (host.indexChoice (filesOf apps)) i →
          0 < host.indexChoice (filesOf apps) i) := by
    refine forall₂_congr fun i _ => ?_
    by_cases hback : FallsBack (host.firstChoice (filesOf apps)) (host.indexChoice (filesOf apps)) i
    · rw [takes_of_fallsBack hback]
      exact ⟨fun hpos => ⟨absurd hback, fun _ => hpos⟩, fun hpos => hpos.2 hback⟩
    · rw [takes_of_not_fallsBack hback]
      exact ⟨fun hpos => ⟨fun _ => hpos, fun hback' => absurd hback' hback⟩, fun hpos => hpos.1 hback⟩
  constructor
  · intro hL
    refine ⟨?_, ?_⟩
    · rw [hlen]
      exact hdifferent.mp hL.nodup
    · rw [hlen]
      exact hchoice.mp (hpositive.mp hL.positive)
  · intro hT
    have hnodup := hdifferent.mpr (hlen ▸ hT.different)
    have hpos := hpositive.mpr (hchoice.mpr (hlen ▸ hT.positive))
    refine ⟨hnodup, hpos, fun i app hi => ?_⟩
    obtain ⟨n, hn, hlt, hid⟩ := hpos app (List.mem_of_getElem? hi)
    exact launched_of_nodup hnodup hi hn hlt hid

/-! ### Files -/

/-- `boost::crc_32_type`, bit by bit. -/
def crcBits : ℕ → UInt32 → UInt32
  | 0, crc => crc
  | n + 1, crc => crcBits n (if crc &&& 1 = 1 then (crc >>> 1) ^^^ 0xEDB88320 else crc >>> 1)

/-- `calculate_crc32`. -/
def calculateCrc32 (input : Str) : UInt32 :=
  input.foldl (fun crc b => crcBits 8 (crc ^^^ b.toUInt32)) 0xFFFFFFFF ^^^ 0xFFFFFFFF

example : calculateCrc32 (str "123456789") = 0xCBF43926 := by decide +kernel

/-- A host without variables and without images. -/
def plainHost : Host where
  environment := []
  parseEnvVal _ s := some s
  prepCmds := []
  crc32 := calculateCrc32
  validateAppImagePath _ := str "box.png"
  calculateSha256 _ := none
  defaultAppImagePath := str "box.png"

/-- An apps file with applications of these names. -/
def appsFile (names : List String) : Ptree :=
  .node [] [("env", .empty), ("apps", .node [] (names.map fun name => ("", .node [] [("name", .leaf (str name))])))]

/-- Two applications of one name: the second one falls back. -/
theorem launchable_same_name :
    ∃ apps, plainHost.parse (appsFile ["Steam", "Steam"]) = some apps ∧ Launchable apps := by
  obtain ⟨apps, happs⟩ := Option.isSome_iff_exists.mp
    (show (plainHost.parse (appsFile ["Steam", "Steam"])).isSome = true by decide +kernel)
  refine ⟨apps, happs, (parse_launchable_iff plainHost happs).mpr ?_⟩
  have hfiles : filesOf apps = [(str "Steam", []), (str "Steam", [])] := by
    have hall : ∀ a ∈ plainHost.parse (appsFile ["Steam", "Steam"]),
        filesOf a = [(str "Steam", []), (str "Steam", [])] := by
      decide +kernel
    exact hall apps happs
  rw [hfiles]
  have hzero : ¬FallsBack (plainHost.firstChoice [(str "Steam", []), (str "Steam", [])])
      (plainHost.indexChoice [(str "Steam", []), (str "Steam", [])]) 0 := by
    rw [fallsBack_iff]
    rintro ⟨k, hk, -⟩
    omega
  have hone : FallsBack (plainHost.firstChoice [(str "Steam", []), (str "Steam", [])])
      (plainHost.indexChoice [(str "Steam", []), (str "Steam", [])]) 1 := .first Nat.zero_lt_one (by decide +kernel)
  constructor
  · intro i hi hback k hk
    obtain ⟨rfl, rfl⟩ : i = 1 ∧ k = 0 := by
      change i < 2 at hi
      omega
    exact ⟨by decide +kernel, fun h => absurd h hzero⟩
  · intro i hi
    change i < 2 at hi
    obtain rfl | rfl : i = 0 ∨ i = 1 := by omega
    · exact ⟨fun _ => by decide +kernel, fun h => absurd h hzero⟩
    · exact ⟨fun h => absurd hone h, fun _ => by decide +kernel⟩

/-- The third application falls back on the id of the first one, and its launch runs the first one. -/
theorem not_launchable_three_names :
    ∃ apps, plainHost.parse (appsFile ["A2", "A", "A"]) = some apps ∧
      (∃ first ∈ apps[0]?, ∃ third ∈ apps[2]?, third.id = first.id ∧ launched apps third.id = some 0) ∧
      ¬Launchable apps := by
  obtain ⟨apps, happs⟩ := Option.isSome_iff_exists.mp
    (show (plainHost.parse (appsFile ["A2", "A", "A"])).isSome = true by decide +kernel)
  have hsame : ∃ first ∈ apps[0]?, ∃ third ∈ apps[2]?, third.id = first.id ∧ launched apps third.id = some 0 := by
    have hall : ∀ a ∈ plainHost.parse (appsFile ["A2", "A", "A"]),
        ∃ first ∈ a[0]?, ∃ third ∈ a[2]?, third.id = first.id ∧ launched a third.id = some 0 := by decide +kernel
    exact hall apps happs
  refine ⟨apps, happs, hsame, fun hL => ?_⟩
  obtain ⟨first, -, third, hthird, -, hlaunched⟩ := hsame
  rw [hL.launches 2 third hthird] at hlaunched
  cases hlaunched

end MidnightSun.Proc
