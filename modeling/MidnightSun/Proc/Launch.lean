import MidnightSun.Lib.Run
import MidnightSun.Lib.Unwind
import MidnightSun.Proc.Apps

/-!
# Launching an app and taking its prep commands back (src/process.cpp, `proc_t`)

`execute` runs the do commands of an app, `terminate` the undo commands of those that it got past, from an iterator into
the copy of the app.  `refresh` assigns a new object over the one that knows this.  `launches` and `refreshes` record
what has happened.
-/

namespace MidnightSun.Proc

open Util Lib

/-- The `ec` of `run_command`. -/
inductive RunError | none | permissionDenied | other
  deriving DecidableEq

/-- What becomes of a do command: `run_command`, `wait` and `exit_code`. -/
structure DoAnswer where
  ec : RunError := .none
  waitFails : Bool := false
  exitCode : ℤ := 0

/-- How `execute` leaves a do command: empty, run, not run for want of permission and taken for done, or failed. -/
inductive DoResult | skipped | succeeded | denied | failed
  deriving DecidableEq

def doResult (desktop : Bool) (a : DoAnswer) : DoResult :=
  if a.ec ≠ .none ∧ ¬(desktop = true ∧ a.ec = .permissionDenied) then .failed
  else if a.waitFails then .failed
  else if a.exitCode ≠ 0 then .failed
  else if a.ec = .none then .succeeded
  else .denied

/-- The loop of `execute` from the command `i` on. -/
def doLoop (desktop : Bool) (dos : ℕ → DoAnswer) : ℕ → List Cmd → List DoResult
  | _, [] => []
  | i, cmd :: cmds =>
    if cmd.doCmd = [] then .skipped :: doLoop desktop dos (i + 1) cmds
    else if doResult desktop (dos i) = .failed then [.failed]
    else doResult desktop (dos i) :: doLoop desktop dos (i + 1) cmds

/-- Where the loop leaves `_app_prep_it`. -/
def passed (did : List DoResult) : ℕ := (did.takeWhile (· != .failed)).length

/-- The command has something to undo. -/
def hasUndo (prep : List Cmd) (i : ℕ) : Bool := prep[i]?.any fun cmd => !cmd.undoCmd.isEmpty

/-- `ctx_t` of the default constructor. -/
def Ctx.empty : Ctx where
  prepCmds := []
  detached := []
  name := []
  cmd := []
  workingDir := []
  output := []
  imagePath := []
  id := []
  elevated := false
  autoDetach := false
  waitAll := false

/-- `proc_t`. -/
structure ProcT where
  appId : ℤ := 0
  apps : List Ctx := []
  app : Ctx := .empty
  placebo : Bool := false
  /-- `_process` and `_process_group` are valid -/
  process : Bool := false
  processGroup : Bool := false
  /-- `_app_prep_it - _app_prep_begin` -/
  appPrepIt : ℕ := 0

/-- A launch: what its do commands came to, and which commands were undone. -/
structure Launch where
  prep : List Cmd
  did : List DoResult
  undone : List ℕ := []

structure World where
  proc : ProcT := {}
  processAlive : Bool := false
  groupAlive : Bool := false
  /-- the last one first -/
  launches : List Launch := []
  /-- of each `refresh`: an app that ran before it is reported after it -/
  refreshes : List Bool := []
  /-- the guard of `execute` has thrown -/
  crashed : Bool := false

/-- What `execute` meets: the do commands, whether the app can be started, and whether the undo commands can be waited
for, in `terminate` at its start and in its guard. -/
structure ExecuteAnswers where
  dos : ℕ → DoAnswer := fun _ => {}
  starts : Bool := true
  waits : ℕ → Bool := fun _ => true
  guardWaits : ℕ → Bool := fun _ => true

inductive Label where
  | execute (appId : ℤ) (a : ExecuteAnswers)
  /-- `exitedCleanly`: with 0, less than five seconds after the launch -/
  | running (exitedCleanly : Bool) (waits : ℕ → Bool)
  | terminate (waits : ℕ → Bool)
  /-- with what `parse` returns -/
  | refresh (apps : Option (List Ctx))
  | processExits
  | groupExits

namespace World

/-- The undo commands that `terminate` would run. -/
def pending (s : World) : List ℕ := todo (hasUndo s.proc.app.prepCmds) s.proc.appPrepIt

/-- The last launch has these commands undone. -/
def undo (tried : List ℕ) : List Launch → List Launch
  | [] => []
  | l :: ls => { l with undone := l.undone ++ tried } :: ls

/-- `terminate`, and whether it comes to its end: `wait` throws where an undo command cannot be waited for. -/
def terminate (s : World) (waits : ℕ → Bool) : World × Bool :=
  let (tried, left) := unwind (hasUndo s.proc.app.prepCmds) waits s.proc.appPrepIt
  let ended := { s with
    proc := { s.proc with placebo := false, process := false, processGroup := false, appPrepIt := left }
    processAlive := s.processAlive && !s.proc.processGroup
    groupAlive := s.groupAlive && !s.proc.processGroup
    launches := undo tried s.launches }
  if left = 0 then ({ ended with proc := { ended.proc with appId := -1 } }, true) else (ended, false)

/-- The fail guard of `execute`. -/
def fail (s : World) (waits : ℕ → Bool) : World :=
  let (s, done) := s.terminate waits
  if done then s else { s with crashed := true }

/-- The app is copied, and its do commands are run. -/
def prepare (s : World) (appId : ℤ) (a : ExecuteAnswers) (app : Ctx) : World :=
  let did := doLoop app.cmd.isEmpty a.dos 0 app.prepCmds
  { s with
    proc := { s.proc with appId, app, appPrepIt := passed did }
    launches := { prep := app.prepCmds, did } :: s.launches }

/-- What follows the do commands: the app, or the guard. -/
def start (s : World) (a : ExecuteAnswers) (app : Ctx) : World :=
  if .failed ∈ doLoop app.cmd.isEmpty a.dos 0 app.prepCmds then s.fail a.guardWaits
  else if app.cmd = [] then { s with proc := { s.proc with placebo := true } }
  else if a.starts then
    { s with proc := { s.proc with process := true, processGroup := true }, processAlive := true, groupAlive := true }
  else s.fail a.guardWaits

/-- `execute` once the clean slate is there. -/
def launch (s : World) (appId : ℤ) (a : ExecuteAnswers) (app : Ctx) : World := (s.prepare appId a app).start a app

def findApp (s : World) (appId : ℤ) : Option Ctx := s.proc.apps.find? fun app => app.id = decimal appId

def execute (s : World) (appId : ℤ) (a : ExecuteAnswers) : World :=
  let (s, done) := s.terminate a.waits
  if done then
    match s.findApp appId with
    | none => s
    | some app => s.launch appId a app
  else s

/-- `running` finds the app running. -/
def reports (s : World) : Bool :=
  s.proc.placebo || (s.proc.app.waitAll && s.proc.processGroup && s.groupAlive) || (s.proc.process && s.processAlive)

/-- `running` takes the app for a detached command. -/
def detaches (s : World) (exitedCleanly : Bool) : Bool := s.proc.app.autoDetach && s.proc.process && exitedCleanly

def running (s : World) (exitedCleanly : Bool) (waits : ℕ → Bool) : World :=
  if s.reports then s
  else if s.detaches exitedCleanly then { s with proc := { s.proc with placebo := true } }
  else if s.proc.process then (s.terminate waits).1
  else s

/-- `refresh`: the new object knows the apps, and nothing else. -/
def refresh (s : World) : Option (List Ctx) → World
  | none => s
  | some apps =>
    let t := { s with proc := { apps } }
    { t with refreshes := s.refreshes ++ [!s.reports || t.reports] }

def step (s : World) (l : Label) : Option World :=
  if s.crashed then none else
  some <| match l with
    | .execute appId a => s.execute appId a
    | .running exitedCleanly waits => s.running exitedCleanly waits
    | .terminate waits => (s.terminate waits).1
    | .refresh apps => s.refresh apps
    | .processExits => { s with processAlive := false }
    | .groupExits => { s with processAlive := false, groupAlive := false }

end World

/-! ### What should be undone -/

/-- The right commands are undone. -/
structure Launch.Exact (l : Launch) (undone : List ℕ) : Prop where
  /-- what succeeded is undone once -/
  once : ∀ i, l.did[i]? = some .succeeded → hasUndo l.prep i = true → undone.count i = 1
  /-- the last one first -/
  reverse : undone.Pairwise (· > ·)
  /-- what failed or was not reached is not undone -/
  only : ∀ i ∈ undone, l.did[i]? = some .succeeded ∨ l.did[i]? = some .skipped

/-- The do command is empty, or does not fail. -/
def Passes (desktop : Bool) (dos : ℕ → DoAnswer) (i : ℕ) (cmd : Cmd) : Prop :=
  cmd.doCmd = [] ∨ doResult desktop (dos i) ≠ .failed

/-- The first `i` commands pass, the first of them being number `j`. -/
def Reaches (desktop : Bool) (dos : ℕ → DoAnswer) (j : ℕ) (cmds : List Cmd) (i : ℕ) : Prop :=
  ∀ k < i, ∀ cmd ∈ cmds[k]?, Passes desktop dos (j + k) cmd

namespace World

structure Good (s : World) : Prop where
  /-- what the last launch has had undone, with what `terminate` would run now -/
  current : ∀ l ∈ s.launches.head?, l.Exact (l.undone ++ s.pending)
  earlier : ∀ l ∈ s.launches.tail, l.Exact l.undone
  /-- without an app nothing is left to undo -/
  settled : s.proc.placebo = false → s.proc.process = false → s.pending = []
  reported : ∀ kept ∈ s.refreshes, kept = true

/-- Every undo command that `terminate` would run can be waited for. -/
def Waits (s : World) (waits : ℕ → Bool) : Prop := ∀ i ∈ s.pending, waits i = true

/-- The guard of `execute` acts. -/
def Fails (app : Ctx) (a : ExecuteAnswers) : Prop :=
  ¬Reaches app.cmd.isEmpty a.dos 0 app.prepCmds app.prepCmds.length ∨ app.cmd ≠ [] ∧ a.starts = false

/-- No command that is taken for done without having run is to be undone. -/
def Ran (app : Ctx) (a : ExecuteAnswers) : Prop :=
  ∀ i < app.prepCmds.length, ∀ cmd ∈ app.prepCmds[i]?, cmd.doCmd ≠ [] → cmd.undoCmd ≠ [] →
    Reaches app.cmd.isEmpty a.dos 0 app.prepCmds i → doResult app.cmd.isEmpty (a.dos i) ≠ .denied

/-- The guard of `execute` can wait for what it undoes. -/
def GuardWaits (app : Ctx) (a : ExecuteAnswers) : Prop :=
  ∀ i < app.prepCmds.length, ∀ cmd ∈ app.prepCmds[i]?, cmd.undoCmd ≠ [] →
    Reaches app.cmd.isEmpty a.dos 0 app.prepCmds (i + 1) → a.guardWaits i = true

/-- What `execute` is to meet in an app. -/
def Meets (app : Ctx) (a : ExecuteAnswers) : Prop := Ran app a ∧ (Fails app a → GuardWaits app a)

def Guard (s : World) : Label → Prop
  | .execute appId a => s.Waits a.waits ∧ ∀ app ∈ s.findApp appId, Meets app a
  | .running exitedCleanly waits =>
    s.reports = false → s.detaches exitedCleanly = false → s.proc.process = true → s.Waits waits
  | .terminate waits => s.Waits waits
  | .refresh apps =>
    apps.isSome = true → s.reports = false ∧ ∀ l ∈ s.launches.head?, ∀ i ∈ s.pending, l.did[i]? ≠ some .succeeded
  | .processExits => True
  | .groupExits => True

instance (desktop : Bool) (dos : ℕ → DoAnswer) (i : ℕ) (cmd : Cmd) : Decidable (Passes desktop dos i cmd) :=
  inferInstanceAs (Decidable (_ ∨ _))

instance (desktop : Bool) (dos : ℕ → DoAnswer) (j : ℕ) (cmds : List Cmd) (i : ℕ) :
    Decidable (Reaches desktop dos j cmds i) :=
  inferInstanceAs (Decidable (∀ k < i, ∀ cmd ∈ cmds[k]?, Passes desktop dos (j + k) cmd))

instance (app : Ctx) (a : ExecuteAnswers) : Decidable (Fails app a) := inferInstanceAs (Decidable (_ ∨ _))

instance (app : Ctx) (a : ExecuteAnswers) : Decidable (Ran app a) :=
  inferInstanceAs (Decidable (∀ i < app.prepCmds.length, ∀ cmd ∈ app.prepCmds[i]?, cmd.doCmd ≠ [] → cmd.undoCmd ≠ [] →
    Reaches app.cmd.isEmpty a.dos 0 app.prepCmds i → doResult app.cmd.isEmpty (a.dos i) ≠ .denied))

instance (app : Ctx) (a : ExecuteAnswers) : Decidable (GuardWaits app a) :=
  inferInstanceAs (Decidable (∀ i < app.prepCmds.length, ∀ cmd ∈ app.prepCmds[i]?, cmd.undoCmd ≠ [] →
    Reaches app.cmd.isEmpty a.dos 0 app.prepCmds (i + 1) → a.guardWaits i = true))

instance (app : Ctx) (a : ExecuteAnswers) : Decidable (Meets app a) := inferInstanceAs (Decidable (_ ∧ (_ → _)))

instance (s : World) (waits : ℕ → Bool) : Decidable (s.Waits waits) :=
  inferInstanceAs (Decidable (∀ i ∈ s.pending, waits i = true))

instance (s : World) : ∀ lab, Decidable (s.Guard lab)
  | .execute _ _ => inferInstanceAs (Decidable (_ ∧ _))
  | .running _ _ => inferInstanceAs (Decidable (_ → _))
  | .terminate _ => inferInstanceAs (Decidable (Waits _ _))
  | .refresh _ => inferInstanceAs (Decidable (_ → _))
  | .processExits => inferInstanceAs (Decidable True)
  | .groupExits => inferInstanceAs (Decidable True)

end World

/-! ### The loop over the do commands -/

section Loop

variable {desktop : Bool} {dos : ℕ → DoAnswer} {cmds : List Cmd} {cmd : Cmd} {did : List DoResult} {r : DoResult}
  {i j : ℕ}

lemma reaches_cons : Reaches desktop dos j (cmd :: cmds) (i + 1) ↔
    Passes desktop dos j cmd ∧ Reaches desktop dos (j + 1) cmds i := by
  unfold Reaches
  rw [Nat.forall_lt_succ_left]
  simp [Nat.add_assoc, Nat.add_comm 1]

/-- What becomes of a do command where the loop goes on. -/
def passResult (desktop : Bool) (a : DoAnswer) (cmd : Cmd) : DoResult :=
  if cmd.doCmd = [] then .skipped else doResult desktop a

lemma passResult_ne_failed (h : Passes desktop dos j cmd) : passResult desktop (dos j) cmd ≠ .failed := by
  unfold passResult
  split_ifs with hskip
  · simp
  · exact h.resolve_left hskip

lemma doLoop_cons_of_passes (h : Passes desktop dos j cmd) :
    doLoop desktop dos j (cmd :: cmds) = passResult desktop (dos j) cmd :: doLoop desktop dos (j + 1) cmds := by
  rw [doLoop, passResult]
  split_ifs with hskip hfail
  · rfl
  · exact absurd hfail (h.resolve_left hskip)
  · rfl

lemma doLoop_cons_of_not_passes (h : ¬Passes desktop dos j cmd) : doLoop desktop dos j (cmd :: cmds) = [.failed] := by
  obtain ⟨hskip, hfail⟩ := not_or.mp h
  rw [doLoop, if_neg hskip, if_pos (not_not.mp hfail)]

lemma passed_cons (h : r ≠ .failed) : passed (r :: did) = passed did + 1 := by
  unfold passed
  rw [List.takeWhile_cons_of_pos (by simpa using h), List.length_cons]

lemma lt_passed_iff : i < passed (doLoop desktop dos j cmds) ↔
    i < cmds.length ∧ Reaches desktop dos j cmds (i + 1) := by
  induction cmds generalizing i j with
  | nil => simp [doLoop, passed]
  | cons cmd cmds ih =>
    rw [reaches_cons, List.length_cons]
    by_cases hp : Passes desktop dos j cmd
    · rw [doLoop_cons_of_passes hp, passed_cons (passResult_ne_failed hp)]
      cases i with
      | zero => simp [hp, Reaches]
      | succ i => simp [hp, ih]
    · rw [doLoop_cons_of_not_passes hp]
      simp [hp, passed]

lemma getElem?_doLoop (h : Reaches desktop dos j cmds (i + 1)) :
    (doLoop desktop dos j cmds)[i]? = cmds[i]?.map (passResult desktop (dos (j + i))) := by
  induction cmds generalizing i j with
  | nil => rfl
  | cons cmd cmds ih =>
    obtain ⟨hp, hrest⟩ := reaches_cons.mp h
    rw [doLoop_cons_of_passes hp]
    cases i with
    | zero => rfl
    | succ i =>
      rw [List.getElem?_cons_succ, List.getElem?_cons_succ, ih hrest, Nat.add_assoc, Nat.add_comm 1]

lemma reaches_of_getElem? (h : (doLoop desktop dos j cmds)[i]? = some r) (hr : r ≠ .failed) :
    Reaches desktop dos j cmds (i + 1) := by
  induction cmds generalizing i j with
  | nil => cases h
  | cons cmd cmds ih =>
    by_cases hp : Passes desktop dos j cmd
    · rw [doLoop_cons_of_passes hp] at h
      rw [reaches_cons]
      cases i with
      | zero => exact ⟨hp, fun k hk => absurd hk (Nat.not_lt_zero k)⟩
      | succ i => exact ⟨hp, ih h⟩
    · rw [doLoop_cons_of_not_passes hp] at h
      cases i with
      | zero => exact absurd (Option.some.inj h).symm hr
      | succ i => cases h

lemma failed_mem_doLoop : .failed ∈ doLoop desktop dos j cmds ↔ ¬Reaches desktop dos j cmds cmds.length := by
  induction cmds generalizing j with
  | nil => simp [doLoop, Reaches]
  | cons cmd cmds ih =>
    rw [List.length_cons, reaches_cons]
    by_cases hp : Passes desktop dos j cmd
    · rw [doLoop_cons_of_passes hp, List.mem_cons, or_iff_right (passResult_ne_failed hp).symm, ih]
      simp [hp]
    · rw [doLoop_cons_of_not_passes hp]
      simp [hp]

end Loop

namespace Launch

variable {l : Launch} {k : ℕ}

lemma Exact.congr {l' : Launch} {undone : List ℕ} (h : l.Exact undone) (hprep : l'.prep = l.prep)
    (hdid : l'.did = l.did) :
    l'.Exact undone where
  once := by rw [hprep, hdid]; exact h.once
  reverse := h.reverse
  only := by rw [hdid]; exact h.only

/-- What is undone from `k` on is what is to be undone. -/
structure Covers (l : Launch) (k : ℕ) : Prop where
  once : ∀ i, l.did[i]? = some .succeeded → i < k
  only : ∀ i ∈ todo (hasUndo l.prep) k, l.did[i]? = some .succeeded ∨ l.did[i]? = some .skipped

lemma Covers.exact (h : l.Covers k) : l.Exact (todo (hasUndo l.prep) k) where
  once i hi hundo := count_todo (h.once i hi) hundo
  reverse := pairwise_todo _ k
  only := h.only

lemma Covers.exact_nil (h : l.Covers k) (hnone : ∀ i ∈ todo (hasUndo l.prep) k, l.did[i]? ≠ some .succeeded) :
    l.Exact [] where
  once i hi hundo := absurd hi (hnone i (mem_todo.mpr ⟨h.once i hi, hundo⟩))
  reverse := List.Pairwise.nil
  only _ hi := absurd hi List.not_mem_nil

/-- The loop ends where everything that is to be undone, and nothing else, has been got past. -/
lemma covers_doLoop {desktop : Bool} {dos : ℕ → DoAnswer} {prep : List Cmd}
    (h : ∀ i < prep.length, ∀ cmd ∈ prep[i]?, cmd.doCmd ≠ [] → cmd.undoCmd ≠ [] → Reaches desktop dos 0 prep i →
      doResult desktop (dos i) ≠ .denied) :
    Covers { prep, did := doLoop desktop dos 0 prep } (passed (doLoop desktop dos 0 prep)) where
  once i hi := by
    have hreach := reaches_of_getElem? hi (by simp)
    rw [lt_passed_iff]
    refine ⟨?_, hreach⟩
    rw [getElem?_doLoop hreach] at hi
    obtain ⟨cmd, hcmd, -⟩ := Option.map_eq_some_iff.mp hi
    exact List.getElem?_eq_some_iff.mp hcmd |>.1
  only i hi := by
    obtain ⟨hlt, hundo⟩ := mem_todo.mp hi
    obtain ⟨hlen, hreach⟩ := lt_passed_iff.mp hlt
    obtain ⟨cmd, hcmd, hcmdUndo⟩ := (Option.any_eq_true _ _).mp hundo
    have hpass : Passes desktop dos i cmd := by simpa using hreach i (Nat.lt_succ_self i) cmd hcmd
    rw [getElem?_doLoop hreach, hcmd, Option.map_some, Nat.zero_add, passResult]
    split_ifs with hskip
    · exact Or.inr rfl
    · have hdenied := h i hlen cmd hcmd hskip (by simpa using hcmdUndo) fun k hk => hreach k (Nat.lt_succ_of_lt hk)
      have hfailed := hpass.resolve_left hskip
      cases hresult : doResult desktop (dos i) with
      | skipped => exact Or.inr rfl
      | succeeded => exact Or.inl rfl
      | denied => exact absurd hresult hdenied
      | failed => exact absurd hresult hfailed

end Launch

namespace World

variable {s : World} {waits : ℕ → Bool} {l : Launch} {tried : List ℕ} {ls : List Launch} {appId : ℤ}
  {a : ExecuteAnswers} {app : Ctx}

/-! ### `terminate` -/

@[simp] lemma head?_undo : (undo tried ls).head? = ls.head?.map fun l => { l with undone := l.undone ++ tried } := by
  cases ls <;> rfl

@[simp] lemma tail_undo : (undo tried ls).tail = ls.tail := by cases ls <;> rfl

/-- What `terminate` leaves where it comes to its end. -/
def terminated (s : World) : World where
  proc := { s.proc with appId := -1, placebo := false, process := false, processGroup := false, appPrepIt := 0 }
  processAlive := s.processAlive && !s.proc.processGroup
  groupAlive := s.groupAlive && !s.proc.processGroup
  launches := undo s.pending s.launches
  refreshes := s.refreshes
  crashed := s.crashed

lemma terminate_of_waits (h : s.Waits waits) : s.terminate waits = (s.terminated, true) := by
  have hunwind := unwind_of_ok h
  simp [terminate, hunwind, terminated, pending]

lemma terminate_of_not_waits (h : ¬s.Waits waits) :
    (s.terminate waits).2 = false ∧ ∃ tried i,
      (s.terminate waits).1.launches = undo (tried ++ [i]) s.launches ∧ i ∈ (s.terminate waits).1.pending := by
  obtain ⟨tried, i, hunwind, hi⟩ := unwind_of_not_ok h
  simp only [terminate, hunwind, Nat.succ_ne_zero, if_false]
  exact ⟨trivial, tried, i, rfl, mem_todo.mpr ⟨Nat.lt_succ_self i, hi⟩⟩

lemma not_good_terminate (hl : s.launches ≠ []) (h : ¬s.Waits waits) : ¬(s.terminate waits).1.Good := by
  obtain ⟨-, tried, i, hlaunches, hi⟩ := terminate_of_not_waits h
  intro hgood
  obtain ⟨l, ls, hls⟩ := List.exists_cons_of_ne_nil hl
  have hexact := hgood.current { l with undone := l.undone ++ (tried ++ [i]) } (by rw [hlaunches, hls]; rfl)
  have hlt := (List.pairwise_append.mp hexact.reverse).2.2 i (by simp) i hi
  omega

/-! ### What holds between two calls -/

/-- The iterator says what is to be undone of the last launch. -/
structure Tracks (s : World) : Prop where
  current : ∀ l ∈ s.launches.head?,
    (l.undone = [] ∧ s.proc.app.prepCmds = l.prep ∧ l.Covers s.proc.appPrepIt) ∨
      (s.proc.appPrepIt = 0 ∧ l.Exact l.undone)
  earlier : ∀ l ∈ s.launches.tail, l.Exact l.undone
  fresh : s.launches = [] → s.proc.appPrepIt = 0
  reported : ∀ kept ∈ s.refreshes, kept = true

structure Inv (s : World) : Prop extends Tracks s where
  settled : s.proc.placebo = false → s.proc.process = false → s.proc.appPrepIt = 0

lemma pending_of_zero (h : s.proc.appPrepIt = 0) : s.pending = [] := by rw [pending, h, todo_zero]

lemma Tracks.exact_current (h : s.Tracks) (hl : l ∈ s.launches.head?) : l.Exact (l.undone ++ s.pending) := by
  rcases h.current l hl with ⟨hundone, hprep, hcovers⟩ | ⟨hzero, hexact⟩
  · rw [hundone, List.nil_append, pending, hprep]
    exact hcovers.exact
  · rw [pending_of_zero hzero, List.append_nil]
    exact hexact

lemma Tracks.exact_of_mem (h : s.Tracks) (hnone : s.pending = []) (hl : l ∈ s.launches) : l.Exact l.undone := by
  cases hls : s.launches with
  | nil => exact absurd (hls ▸ hl) List.not_mem_nil
  | cons l' ls =>
    rw [hls] at hl
    rcases List.mem_cons.mp hl with rfl | hl
    · have hexact := h.exact_current (l := l) (by rw [hls]; rfl)
      rwa [hnone, List.append_nil] at hexact
    · exact h.earlier l (by rw [hls]; exact hl)

theorem Inv.good (h : s.Inv) : s.Good where
  current _ hl := h.exact_current hl
  earlier := h.earlier
  settled hplacebo hprocess := pending_of_zero (h.settled hplacebo hprocess)
  reported := h.reported

lemma inv_init (apps : List Ctx) : Inv { proc := { apps } } where
  current _ hl := by cases hl
  earlier _ hl := by cases hl
  fresh _ := rfl
  reported _ hkept := by cases hkept
  settled _ _ := rfl

lemma Tracks.inv_terminated (h : s.Tracks) : s.terminated.Inv where
  current l hl := by
    obtain ⟨l', hl', rfl⟩ := Option.map_eq_some_iff.mp (head?_undo ▸ hl)
    exact Or.inr ⟨rfl, (h.exact_current hl').congr rfl rfl⟩
  earlier l hl := h.earlier l (tail_undo ▸ hl)
  fresh _ := rfl
  reported := h.reported
  settled _ _ := rfl

lemma Tracks.inv_terminate (h : s.Tracks) (hw : s.Waits waits) : (s.terminate waits).1.Inv := by
  rw [terminate_of_waits hw]
  exact h.inv_terminated

lemma Tracks.waits_of_good (h : s.Tracks) (hgood : (s.terminate waits).1.Good) : s.Waits waits := by
  by_contra hw
  refine not_good_terminate (fun hnil => hw ?_) hw hgood
  intro i hi
  rw [pending_of_zero (h.fresh hnil)] at hi
  cases hi

/-! ### `execute` -/

lemma fail_of_waits (h : s.Waits waits) : s.fail waits = s.terminated := by simp [fail, terminate_of_waits h]

lemma not_good_fail (hl : s.launches ≠ []) (h : ¬s.Waits waits) : ¬(s.fail waits).Good := by
  have hdone := (terminate_of_not_waits h).1
  rintro ⟨hcurrent, hearlier, hsettled, hreported⟩
  simp only [fail, hdone] at hcurrent hearlier hsettled hreported
  exact not_good_terminate hl h ⟨hcurrent, hearlier, hsettled, hreported⟩

lemma start_of_fails (h : Fails app a) : s.start a app = s.fail a.guardWaits := by
  unfold start
  rcases h with h | ⟨hcmd, hstarts⟩
  · rw [if_pos (failed_mem_doLoop.mpr h)]
  · rw [if_neg hcmd, hstarts, if_neg Bool.false_ne_true, ite_self]

lemma start_of_not_fails (h : ¬Fails app a) :
    ∃ placebo process processGroup processAlive groupAlive, (placebo = true ∨ process = true) ∧
      s.start a app =
        { s with proc := { s.proc with placebo, process, processGroup }, processAlive, groupAlive } := by
  obtain ⟨hfailed, hstarts⟩ := not_or.mp h
  unfold start
  rw [if_neg (fun h => hfailed (failed_mem_doLoop.mp h))]
  by_cases hcmd : app.cmd = []
  · rw [if_pos hcmd]
    exact ⟨_, _, _, _, _, Or.inl rfl, rfl⟩
  · rw [if_neg hcmd, if_pos (by simpa [hcmd] using hstarts)]
    exact ⟨_, _, _, _, _, Or.inr rfl, rfl⟩

lemma Inv.tracks_prepare (h : s.Inv) (hnone : s.pending = []) (hm : Meets app a) :
    (s.prepare appId a app).Tracks where
  current l hl := by
    obtain rfl := Option.some.inj hl
    exact Or.inl ⟨rfl, rfl, Launch.covers_doLoop hm.1⟩
  earlier l hl := h.exact_of_mem hnone hl
  fresh hnil := by cases hnil
  reported := h.reported

lemma mem_pending_prepare {i : ℕ} : i ∈ (s.prepare appId a app).pending ↔
    ∃ cmd ∈ app.prepCmds[i]?, cmd.undoCmd ≠ [] ∧ Reaches app.cmd.isEmpty a.dos 0 app.prepCmds (i + 1) := by
  rw [pending, mem_todo]
  constructor
  · rintro ⟨hlt, hundo⟩
    obtain ⟨cmd, hcmd, hcmdUndo⟩ := (Option.any_eq_true _ _).mp hundo
    exact ⟨cmd, hcmd, by simpa using hcmdUndo, (lt_passed_iff.mp hlt).2⟩
  · rintro ⟨cmd, hcmd, hcmdUndo, hreach⟩
    exact ⟨lt_passed_iff.mpr ⟨(List.getElem?_eq_some_iff.mp hcmd).1, hreach⟩,
      (Option.any_eq_true _ _).mpr ⟨cmd, hcmd, by simpa using hcmdUndo⟩⟩

lemma waits_prepare_iff : (s.prepare appId a app).Waits a.guardWaits ↔ GuardWaits app a := by
  constructor
  · intro h i _ cmd hcmd hundo hreach
    exact h i (mem_pending_prepare.mpr ⟨cmd, hcmd, hundo, hreach⟩)
  · intro h i hi
    obtain ⟨cmd, hcmd, hundo, hreach⟩ := mem_pending_prepare.mp hi
    exact h i (List.getElem?_eq_some_iff.mp hcmd).1 cmd hcmd hundo hreach

lemma Inv.launch (h : s.Inv) (hnone : s.pending = []) (hm : Meets app a) : (s.launch appId a app).Inv := by
  have htracks : (s.prepare appId a app).Tracks := h.tracks_prepare hnone hm
  unfold World.launch
  by_cases hfails : Fails app a
  · rw [start_of_fails hfails, fail_of_waits (waits_prepare_iff.mpr (hm.2 hfails))]
    exact htracks.inv_terminated
  · obtain ⟨placebo, process, processGroup, processAlive, groupAlive, hrun, hstart⟩ :=
      start_of_not_fails (s := s.prepare appId a app) hfails
    rw [hstart]
    refine ⟨⟨htracks.current, htracks.earlier, htracks.fresh, htracks.reported⟩, fun hplacebo hprocess => ?_⟩
    rcases hrun with rfl | rfl
    · cases hplacebo
    · cases hprocess

/-- A launch that leaves all well met what it should. -/
lemma meets_of_good (hgood : (s.launch appId a app).Good) : Meets app a := by
  unfold launch at hgood
  have hwaits (hfails : Fails app a) : (s.prepare appId a app).Waits a.guardWaits := by
    by_contra hw
    rw [start_of_fails hfails] at hgood
    exact not_good_fail (by simp [prepare]) hw hgood
  refine ⟨fun i hlen cmd hcmd hdo hundo hbefore hdenied => ?_, fun hfails => waits_prepare_iff.mp (hwaits hfails)⟩
  -- the loop goes on, so the command is undone, now or later
  have hreach : Reaches app.cmd.isEmpty a.dos 0 app.prepCmds (i + 1) := by
    intro k hk cmd' hcmd'
    rcases Nat.lt_succ_iff_lt_or_eq.mp hk with hk | rfl
    · exact hbefore k hk cmd' hcmd'
    · exact Or.inr (by simp [hdenied])
  have hi : i ∈ (s.prepare appId a app).pending := mem_pending_prepare.mpr ⟨cmd, hcmd, hundo, hreach⟩
  have honly : (doLoop app.cmd.isEmpty a.dos 0 app.prepCmds)[i]? = some .succeeded ∨
      (doLoop app.cmd.isEmpty a.dos 0 app.prepCmds)[i]? = some .skipped := by
    by_cases hfails : Fails app a
    · rw [start_of_fails hfails, fail_of_waits (hwaits hfails)] at hgood
      exact (hgood.current _ rfl).only i (List.mem_append_left _ hi)
    · obtain ⟨placebo, process, processGroup, processAlive, groupAlive, -, hstart⟩ :=
        start_of_not_fails (s := s.prepare appId a app) hfails
      rw [hstart] at hgood
      exact (hgood.current _ rfl).only i hi
  rw [getElem?_doLoop hreach, Option.mem_def.mp hcmd, Option.map_some, Nat.zero_add, passResult, if_neg hdo,
    hdenied] at honly
  simp at honly

lemma pending_terminated : s.terminated.pending = [] := rfl

lemma execute_of_waits (h : s.Waits a.waits) :
    s.execute appId a = match s.findApp appId with
      | none => s.terminated
      | some app => s.terminated.launch appId a app := by
  simp only [execute, terminate_of_waits h, if_true]
  rfl

lemma execute_of_not_waits (h : ¬s.Waits a.waits) : s.execute appId a = (s.terminate a.waits).1 := by
  simp [execute, (terminate_of_not_waits h).1]

lemma Inv.execute (h : s.Inv) (hw : s.Waits a.waits) (hm : ∀ app ∈ s.findApp appId, Meets app a) :
    (s.execute appId a).Inv := by
  rw [execute_of_waits hw]
  split
  next => exact h.inv_terminated
  next app happ => exact h.inv_terminated.launch pending_terminated (hm app happ)

/-! ### Runs -/

lemma Inv.running (h : s.Inv) {exitedCleanly : Bool} (hw : s.reports = false → s.detaches exitedCleanly = false →
    s.proc.process = true → s.Waits waits) : (s.running exitedCleanly waits).Inv := by
  unfold World.running
  split_ifs with hreports hdetaches hprocess
  · exact h
  · exact ⟨⟨h.current, h.earlier, h.fresh, h.reported⟩, fun hplacebo => by cases hplacebo⟩
  · exact h.inv_terminate (hw (by simpa using hreports) (by simpa using hdetaches) hprocess)
  · exact h

lemma Inv.refresh (h : s.Inv) (apps : Option (List Ctx)) (hg : s.Guard (.refresh apps)) : (s.refresh apps).Inv := by
  cases apps with
  | none => exact h
  | some apps =>
    obtain ⟨hreports, hnone⟩ := hg rfl
    refine ⟨⟨fun l hl => Or.inr ⟨rfl, ?_⟩, h.earlier, fun _ => rfl, fun kept hkept => ?_⟩, fun _ _ => rfl⟩
    · rcases h.current l hl with ⟨hundone, hprep, hcovers⟩ | ⟨-, hexact⟩
      · rw [hundone]
        refine hcovers.exact_nil fun i hi => hnone l hl i ?_
        rwa [pending, hprep]
      · exact hexact
    · rcases List.mem_append.mp hkept with hkept | hkept
      · exact h.reported kept hkept
      · rw [List.mem_singleton.mp hkept, hreports]
        rfl

theorem Inv.step (h : s.Inv) {lab : Label} {t : World} (hg : s.Guard lab) (hst : s.step lab = some t) : t.Inv := by
  unfold World.step at hst
  split at hst
  · cases hst
  · obtain rfl := Option.some.inj hst
    cases lab with
    | execute appId a => exact h.execute hg.1 hg.2
    | running exitedCleanly waits => exact h.running hg
    | terminate waits => exact h.inv_terminate hg
    | refresh apps => exact h.refresh apps hg
    | processExits => exact ⟨⟨h.current, h.earlier, h.fresh, h.reported⟩, h.settled⟩
    | groupExits => exact ⟨⟨h.current, h.earlier, h.fresh, h.reported⟩, h.settled⟩

/-- A `refresh` that leaves all well had nothing to lose. -/
lemma Inv.guard_refresh (h : s.Inv) {apps : Option (List Ctx)} (hgood : (s.refresh apps).Good) :
    s.Guard (.refresh apps) := by
  intro happs
  obtain ⟨apps, rfl⟩ := Option.isSome_iff_exists.mp happs
  refine ⟨?_, fun l hl i hi hsucceeded => ?_⟩
  · have hkept : (!s.reports || false) = true :=
      hgood.reported _ (List.mem_append_right _ (List.mem_singleton_self _))
    simpa using hkept
  · rcases h.current l hl with ⟨hundone, hprep, -⟩ | ⟨hzero, -⟩
    · have hcount := (hgood.current l hl).once i hsucceeded (hprep ▸ (mem_todo.mp hi).2)
      have hnone : l.undone ++ (s.refresh (some apps)).pending = [] := by rw [hundone]; rfl
      rw [hnone] at hcount
      cases hcount
    · rw [pending_of_zero hzero] at hi
      cases hi

theorem Inv.guard (h : s.Inv) {lab : Label} {t : World} (hst : s.step lab = some t) (hgood : t.Good) :
    s.Guard lab := by
  unfold World.step at hst
  split at hst
  · cases hst
  · obtain rfl := Option.some.inj hst
    cases lab with
    | execute appId a =>
      have hw : s.Waits a.waits := by
        by_contra hw
        have hexecute : s.execute appId a = (s.terminate a.waits).1 := execute_of_not_waits hw
        refine hw (h.waits_of_good ?_)
        rw [← hexecute]
        exact hgood
      refine ⟨hw, fun app happ => ?_⟩
      simp only [execute_of_waits hw, Option.mem_def.mp happ] at hgood
      exact meets_of_good hgood
    | running exitedCleanly waits =>
      intro hreports hdetaches hprocess
      refine h.waits_of_good ?_
      simpa [World.running, hreports, hdetaches, hprocess] using hgood
    | terminate waits => exact h.waits_of_good hgood
    | refresh apps => exact h.guard_refresh hgood
    | processExits => trivial
    | groupExits => trivial

end World

/-- **When prep commands are undone exactly once.** -/
theorem prep_cmds_undone_once_iff {apps : List Ctx} {t : World} {as : List Label}
    (h : Run (ofPartial World.step) { proc := { apps } } as t) :
    (∀ bs cs u, as = bs ++ cs → Run (ofPartial World.step) { proc := { apps } } bs u → u.Good) ↔
      Run (Guarded (ofPartial World.step) World.Guard) { proc := { apps } } as t :=
  run_safe_where_iff (fun _ hI => hI.good) (fun _ _ _ hI hG hst => hI.step hG hst)
    (fun _ _ _ hI hst hP => hI.guard hst hP)
    (World.inv_init apps) h

/-- An app with three prep commands; the second has nothing to undo. -/
def steam : Ctx where
  prepCmds := [⟨str "res 4k", str "res native", false⟩, ⟨str "lock", [], false⟩, ⟨str "hdr on", str "hdr off", true⟩]
  detached := []
  name := str "Steam"
  cmd := str "steam -bigpicture"
  workingDir := []
  output := []
  imagePath := []
  id := str "7"
  elevated := false
  autoDetach := true
  waitAll := true

/-- The same without a command. -/
def desktop : Ctx := { steam with name := str "Desktop", cmd := [], id := str "8" }

/-- An app that exits, one whose last do command fails, and new apps when both are gone. -/
theorem prep_cmds_undone_once_exit_fail :
    ∃ (as : List Label) (t : World), Run (ofPartial World.step) { proc := { apps := [steam, desktop] } } as t ∧
      t.launches.map Launch.undone = [[0], [2, 0]] ∧
      ∀ bs cs u, as = bs ++ cs → Run (ofPartial World.step) { proc := { apps := [steam, desktop] } } bs u → u.Good := by
  obtain ⟨t, hrun, hundone⟩ := exists_run_execWhere_and (f := World.step) (G := World.Guard)
    (s := { proc := { apps := [steam, desktop] } })
    (l := [.execute 7 {}, .running false fun _ => true, .groupExits, .running false fun _ => true,
      .execute 8 { dos := fun i => { exitCode := if i = 2 then 1 else 0 } }, .refresh none, .refresh (some [steam])])
    (P := fun t => t.launches.map Launch.undone = [[0], [2, 0]]) (by decide +kernel)
  exact ⟨_, t, hrun.of_guarded, hundone, (prep_cmds_undone_once_iff hrun.of_guarded).mpr hrun⟩

/-- The apps are saved while the desktop is streamed: the new object does not know that it runs, or what to undo. -/
theorem not_good_refresh_desktop :
    ∃ (as : List Label) (t : World), Run (ofPartial World.step) { proc := { apps := [steam, desktop] } } as t ∧
      t.reports = false ∧ t.refreshes = [false] ∧ t.launches.map Launch.undone = [[]] ∧ t.pending = [] ∧ ¬t.Good := by
  obtain ⟨t, hrun, hreports, hrefreshes, hundone, hpending⟩ := exists_run_execWhere_and (f := World.step)
    (G := fun _ _ => True) (s := { proc := { apps := [steam, desktop] } })
    (l := [.execute 8 {}, .refresh (some [steam, desktop])])
    (P := fun t => t.reports = false ∧ t.refreshes = [false] ∧ t.launches.map Launch.undone = [[]] ∧ t.pending = [])
    (by decide +kernel)
  refine ⟨_, t, hrun.of_guarded, hreports, hrefreshes, hundone, hpending, fun hgood => ?_⟩
  exact Bool.false_ne_true (hgood.reported false (by simp [hrefreshes]))

end MidnightSun.Proc
