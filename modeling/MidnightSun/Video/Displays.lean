import MidnightSun.Lib.Cursor
import MidnightSun.Lib.Run
import MidnightSun.Util.Decimal

/-!
# The display that is captured (src/video.cpp, `refresh_displays`, `captureThread`, `encode_run_sync`)

The names of the displays are enumerated again whenever the display is opened again.  The index follows the selected
display into the new list.
-/

namespace MidnightSun.Video

open Lib Util

/-- `display_names` and `display_p`, which is -1 while it is not known. -/
structure Displays where
  names : List Str := []
  index : ℤ := -1
  deriving DecidableEq

/-- `current_display_name`; empty, if there is none. -/
def Displays.currentName (d : Displays) : Str :=
  if 0 ≤ d.index ∧ d.index < d.names.length then d.names.getD d.index.toNat [] else []

/-- The search for a name; the index has been reset to 0. -/
def searchName (names : List Str) (name : Str) : ℤ := ((names.idxOf? name).getD 0 : ℕ)

def refreshDisplays (outputName : Str) (enumerated : List Str) (d : Displays) : Displays :=
  -- the old list is put back
  if enumerated = [] ∧ d.names ≠ [] then d
  else
    let names := if enumerated = [] then [outputName] else enumerated
    if d.currentName ≠ [] then { names := names, index := searchName names d.currentName }
    else { names := names, index := searchName names outputName }

/-- `std::clamp`. -/
def clamp (v lo hi : ℤ) : ℤ := if v < lo then lo else if hi < v then hi else v

def switchDisplay (request : ℤ) (d : Displays) : Displays :=
  { d with index := clamp request 0 (d.names.length - 1) }

/-- What one iteration finds when a display is to be opened: the name of the output, the displays, and a request on
`switch_display_event`. -/
structure Reopening where
  outputName : Str
  enumerated : List Str
  request : Option ℤ := none

def Displays.reopen (d : Displays) (r : Reopening) : Displays :=
  let d := refreshDisplays r.outputName r.enumerated d
  match r.request with
  | some request => switchDisplay request d
  | none => d

/-- `display_names[display_p]`. -/
def Displays.selected (d : Displays) : Option Str := if 0 ≤ d.index then d.names[d.index.toNat]? else none

def Displays.InRange (d : Displays) : Prop := d.names ≠ [] ∧ 0 ≤ d.index ∧ d.index < d.names.length

/-! ### A cursor -/

/-- The cursor behind an enumeration.  A display without a name counts as none. -/
def refreshCursor (outputName : Str) (enumerated : List Str) (c : Option (Cursor Str)) : Cursor Str :=
  if h : enumerated = [] then c.getD (Cursor.find [outputName] (List.cons_ne_nil _ _) outputName)
  else
    let name := c.elim [] Cursor.selected
    Cursor.find enumerated h (if name = [] then outputName else name)

def Displays.Shows (d : Displays) (c : Cursor Str) : Prop := d.names = c.items ∧ d.index = c.index

/-- The state and its cursor, once there is one. -/
def Displays.Refines (d : Displays) : Option (Cursor Str) → Prop
  | none => d = {}
  | some c => d.Shows c

variable {d : Displays} {c : Cursor Str}

lemma Displays.Shows.currentName (h : d.Shows c) : d.currentName = c.selected := by
  have hlt := c.lt
  rw [Displays.currentName, h.1, h.2, if_pos (by omega), Int.toNat_natCast, List.getD_eq_getElem?_getD,
    c.getElem?_index, Option.getD_some]

lemma Displays.Shows.selected (h : d.Shows c) : d.selected = some c.selected := by
  rw [Displays.selected, h.1, h.2, if_pos (by omega), Int.toNat_natCast, c.getElem?_index]

lemma Displays.Shows.inRange (h : d.Shows c) : d.InRange := by
  have hlt := c.lt
  refine ⟨h.1 ▸ c.items_ne_nil, ?_, ?_⟩
  · rw [h.2]
    omega
  · rw [h.1, h.2]
    omega

lemma Displays.Refines.currentName {oc : Option (Cursor Str)} (h : d.Refines oc) :
    d.currentName = oc.elim [] Cursor.selected := by
  cases oc with
  | none =>
    obtain rfl := h
    rfl
  | some c => exact Displays.Shows.currentName h

lemma shows_search {names : List Str} (hne : names ≠ []) (name : Str) :
    ({ names := names, index := searchName names name } : Displays).Shows (Cursor.find names hne name) := ⟨rfl, rfl⟩

/-- `refresh_displays` refines the refresh of a cursor. -/
theorem refresh_refines {oc : Option (Cursor Str)} (h : d.Refines oc) (outputName : Str) (enumerated : List Str) :
    (refreshDisplays outputName enumerated d).Shows (refreshCursor outputName enumerated oc) := by
  unfold refreshDisplays refreshCursor
  rw [h.currentName]
  by_cases hnew : enumerated = []
  · rw [dif_pos hnew]
    cases oc with
    | none =>
      obtain rfl := h
      rw [if_neg (by simp), if_pos hnew]
      exact shows_search (List.cons_ne_nil _ _) outputName
    | some c =>
      rw [if_pos ⟨hnew, (Displays.Shows.inRange h).1⟩]
      exact h
  · rw [dif_neg hnew, if_neg fun hold => hnew hold.1]
    simp only [if_neg hnew]
    by_cases hname : oc.elim [] Cursor.selected = []
    · rw [if_neg (not_not.mpr hname), if_pos hname]
      exact shows_search hnew outputName
    · rw [if_pos hname, if_neg hname]
      exact shows_search hnew _

theorem switch_refines (h : d.Shows c) (request : ℤ) : (switchDisplay request d).Shows (c.move request) := by
  have hlt := c.lt
  refine ⟨h.1, ?_⟩
  simp only [switchDisplay, clamp, Cursor.move, h.1]
  split_ifs <;> omega

lemma reopen_refines {oc : Option (Cursor Str)} (h : d.Refines oc) (r : Reopening) : ∃ c, (d.reopen r).Shows c := by
  have hrefresh := refresh_refines h r.outputName r.enumerated
  unfold Displays.reopen
  cases r.request with
  | none => exact ⟨_, hrefresh⟩
  | some request => exact ⟨_, switch_refines hrefresh request⟩

theorem refines_run {rs : List Reopening} (h : Run (ofFun Displays.reopen) {} rs d) :
    ∃ oc, d.Refines oc ∧ (rs ≠ [] → oc ≠ none) := by
  refine h.invariant_labels (I := fun rs d => ∃ oc, d.Refines oc ∧ (rs ≠ [] → oc ≠ none))
    ⟨none, rfl, fun hne => absurd rfl hne⟩ ?_
  rintro rs d r d' - ⟨oc, hoc, -⟩ rfl
  obtain ⟨c, hc⟩ := reopen_refines hoc r
  exact ⟨some c, hc, fun _ => Option.some_ne_none c⟩

/-! ### The selected display -/

lemma selected_refresh {oc : Option (Cursor Str)} {outputName name : Str} {enumerated : List Str}
    (hname : oc.map Cursor.selected = some name) (hmem : name ∈ enumerated) (hempty : name = [] → outputName = []) :
    (refreshCursor outputName enumerated oc).selected = name := by
  obtain ⟨c, rfl, rfl⟩ := Option.map_eq_some_iff.mp hname
  have hfind : refreshCursor outputName enumerated (some c) = Cursor.find enumerated (List.ne_nil_of_mem hmem)
      (if c.selected = [] then outputName else c.selected) := dif_neg (List.ne_nil_of_mem hmem)
  rw [hfind]
  by_cases hc : c.selected = []
  · rw [hc] at hmem
    rw [if_pos hc, hempty hc, Cursor.selected_find hmem, hc]
  · rw [if_neg hc, Cursor.selected_find hmem]

/-- **The display is in range and followed.**  In every run the index is in the list from the first refresh on.  A
refresh that finds the selected name again selects it, unless that name is empty and the name of the output is not; one
that finds no displays changes nothing, once there is a list. -/
theorem displays_of_run {rs : List Reopening} (hrun : Run (ofFun Displays.reopen) {} rs d) (outputName : Str)
    (enumerated : List Str) :
    (rs ≠ [] → d.InRange) ∧ (refreshDisplays outputName enumerated d).InRange ∧
      (∀ name, d.selected = some name → name ∈ enumerated → (name = [] → outputName = []) →
        (refreshDisplays outputName enumerated d).selected = some name) ∧
      (enumerated = [] → d.names ≠ [] → refreshDisplays outputName enumerated d = d) := by
  obtain ⟨oc, hoc, hne⟩ := refines_run hrun
  have hrefresh := refresh_refines hoc outputName enumerated
  refine ⟨fun h => ?_, hrefresh.inRange, fun name hname hmem hempty => ?_, fun hnone hnames => if_pos ⟨hnone, hnames⟩⟩
  · obtain ⟨c, rfl⟩ := Option.ne_none_iff_exists'.mp (hne h)
    exact Displays.Shows.inRange hoc
  · have hselected : oc.map Cursor.selected = some name := by
      cases oc with
      | none =>
        obtain rfl := hoc
        cases hname
      | some c => exact (Displays.Shows.selected hoc).symm.trans hname
    rw [hrefresh.selected, selected_refresh hselected hmem hempty]

/-- A display without a name, which was offered when there was none, counts as no display and is not followed. -/
theorem refresh_empty_name :
    ∃ d : Displays, Run (ofFun Displays.reopen) {} [⟨[], [], none⟩] d ∧ d.selected = some [] ∧
      [] ∈ [str "A", []] ∧ (refreshDisplays (str "A") [str "A", []] d).selected ≠ some [] := by
  exact ⟨_, run_ofFun _ _ _, by decide +kernel, by simp, by decide +kernel⟩

/-- The second of two displays is selected on request, and stays selected when they change places. -/
theorem displays_change_places : ∃ d : Displays, d.selected = some (str "B") ∧
    (refreshDisplays (str "A") [str "B", str "A"] d).InRange ∧
      (refreshDisplays (str "A") [str "B", str "A"] d).selected = some (str "B") := by
  have h := displays_of_run
    (run_ofFun Displays.reopen {} [⟨str "A", [str "A", str "B"], some 7⟩]) (str "A") [str "B", str "A"]
  have hselected : ([⟨str "A", [str "A", str "B"], some 7⟩].foldl Displays.reopen {}).selected = some (str "B") := by
    decide +kernel
  exact ⟨_, hselected, h.2.1, h.2.2.1 (str "B") hselected (by simp) (by decide +kernel)⟩

end MidnightSun.Video
