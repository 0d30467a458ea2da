import Mathlib.Data.List.Nodup
import Mathlib.Data.List.Perm.Basic
import Mathlib.Data.List.Sort
import Mathlib.Order.Defs.LinearOrder
import MidnightSun.Lib.Run

/-!
# `safe::mail_raw_t` (src/thread_safe.h)

A map from ids to weak pointers.  A post lives as long as somebody holds it; its destructor then runs `cleanup`, which
has to take the lock of the map first.  So the drop of the last reference and the cleanup are two steps, and others may
come between them.
-/

namespace MidnightSun.Safe

open Lib

/-- `event_t` and `queue_t`. -/
inductive PostKind | event | queue
  deriving DecidableEq

/-- A `post_t`, by its serial number. -/
structure Post where
  serial : ℕ
  kind : PostKind
  deriving DecidableEq

/-- `mail_raw_t`, with those who hold its posts. -/
structure Mail (I : Type*) where
  /-- in the order of the ids -/
  idToPost : List (I × Post) := []
  /-- the shared pointers, each with the id it was asked for by -/
  holders : List (I × Post) := []
  /-- the posts whose destructor has not come to `cleanup` yet -/
  dying : ℕ := 0
  next : ℕ := 0
  /-- for each call of `event` and `queue`: it returned a post that is alive -/
  answers : List Bool := []
  /-- for each entry that `cleanup` removed: its post was alive -/
  erased : List Bool := []

namespace Mail

variable {I : Type*}

/-- The weak pointers to the post have expired: nobody holds it. -/
def expired (holders : List (I × Post)) (p : Post) : Bool := decide (p ∉ holders.map Prod.snd)

/-- A call returned a shared pointer, or null. -/
def answer (m : Mail I) (post : Option Post) : Mail I :=
  { m with answers := m.answers ++ [post.any fun p => !expired m.holders p] }

def hold (m : Mail I) (id : I) (p : Post) : Mail I := { m with holders := m.holders ++ [(id, p)] }

/-- `cleanup`: the first expired entry goes. -/
def cleanup (m : Mail I) : Mail I :=
  match m.idToPost.find? fun e => expired m.holders e.2 with
  | none => m
  | some e => { m with
      idToPost := m.idToPost.eraseP fun e => expired m.holders e.2
      erased := m.erased ++ [!expired m.holders e.2] }

/-- A shared pointer goes away, and the post with the last one. -/
def drop (m : Mail I) (i : ℕ) (p : Post) : Mail I :=
  let m := { m with holders := m.holders.eraseIdx i }
  if expired m.holders p then { m with dying := m.dying + 1 } else m

section calls

variable [LinearOrder I]

/-- `id_to_post.find(id)`. -/
def find (m : Mail I) (id : I) : Option (I × Post) := m.idToPost.find? fun e => e.1 = id

/-- `event` and `queue` differ in what they make. -/
def get (kind : PostKind) (m : Mail I) (id : I) : Mail I :=
  match m.find id with
  | some e =>
    -- `lock` of an expired pointer is null
    if expired m.holders e.2 then m.answer none else (m.hold id e.2).answer (some e.2)
  | none =>
    let post : Post := { serial := m.next, kind }
    let m := { m with
      idToPost := m.idToPost.orderedInsert (fun a b => a.1 ≤ b.1) (id, post)
      next := m.next + 1 }
    (m.hold id post).answer (some post)

def event (m : Mail I) (id : I) : Mail I := get .event m id

def queue (m : Mail I) (id : I) : Mail I := get .queue m id

/-- What the threads do. -/
inductive Op (I : Type*)
  | event (id : I)
  | queue (id : I)
  /-- a copy of the `i`-th shared pointer -/
  | copy (i : ℕ)
  /-- the `i`-th shared pointer goes away -/
  | drop (i : ℕ)
  /-- the destructor of a dying post runs `cleanup` -/
  | cleanup

def step (m : Mail I) : Op I → Option (Mail I)
  | .event id => some (m.event id)
  | .queue id => some (m.queue id)
  | .copy i => m.holders[i]?.map fun h => m.hold h.1 h.2
  | .drop i => m.holders[i]?.map fun h => m.drop i h.2
  | .cleanup => if 0 < m.dying then some { m.cleanup with dying := m.dying - 1 } else none

abbrev MailStep : Mail I → Op I → Mail I → Prop := ofPartial step

end calls

/-! ### What holds always -/

/-- Every call returned a live post, holders of one id hold one post, and no entry of a live post was removed. -/
structure Good (m : Mail I) : Prop where
  answers : ∀ b ∈ m.answers, b = true
  agree : ∀ id p q, (id, p) ∈ m.holders → (id, q) ∈ m.holders → p = q
  erased : ∀ b ∈ m.erased, b = false

structure Inv (m : Mail I) : Prop where
  keys : (m.idToPost.map Prod.fst).Nodup
  posts : (m.idToPost.map Prod.snd).Nodup
  /-- what is held is what the map has -/
  held : ∀ h ∈ m.holders, h ∈ m.idToPost
  fresh : ∀ e ∈ m.idToPost, e.2.serial < m.next
  erased : ∀ b ∈ m.erased, b = false
  /-- every expired entry has a cleanup that is still to come -/
  dying : m.idToPost.countP (fun e => expired m.holders e.2) = m.dying

variable {m n : Mail I}

theorem inv_empty : ({} : Mail I).Inv where
  keys := List.nodup_nil
  posts := List.nodup_nil
  held := by simp
  fresh := by simp
  erased := by simp
  dying := rfl

theorem Inv.agree (hI : m.Inv) {id : I} {p q : Post} (hp : (id, p) ∈ m.holders) (hq : (id, q) ∈ m.holders) : p = q := by
  have heq := List.inj_on_of_nodup_map hI.keys (hI.held _ hp) (hI.held _ hq) rfl
  exact congrArg Prod.snd heq

lemma expired_eq_false_iff {holders : List (I × Post)} {p : Post} :
    expired holders p = false ↔ p ∈ holders.map Prod.snd := by
  simp [expired]

lemma expired_append (holders : List (I × Post)) (h : I × Post) (p : Post) :
    expired (holders ++ [h]) p = (expired holders p && !decide (p = h.2)) := by
  by_cases heq : p = h.2 <;> simp [expired, heq]

/-- A new holder of a live post changes nothing else. -/
theorem Inv.hold (hI : m.Inv) {id : I} {p : Post} (hmem : (id, p) ∈ m.idToPost) (hlive : expired m.holders p = false) :
    (m.hold id p).Inv where
  keys := hI.keys
  posts := hI.posts
  held := by
    intro h hh
    rcases List.mem_append.mp hh with hh | hh
    · exact hI.held h hh
    · rw [List.mem_singleton.mp hh]
      exact hmem
  fresh := hI.fresh
  erased := hI.erased
  dying := by
    have hsame : ∀ q, expired (m.holders ++ [(id, p)]) q = expired m.holders q := by
      intro q
      rw [expired_append]
      by_cases heq : q = p
      · rw [heq, hlive, Bool.false_and]
      · rw [decide_eq_false heq, Bool.not_false, Bool.and_true]
    show m.idToPost.countP (fun e => expired (m.holders ++ [(id, p)]) e.2) = m.dying
    simp only [hsame]
    exact hI.dying

theorem Inv.answer (hI : m.Inv) (post : Option Post) : (m.answer post).Inv := { hI with }

lemma expired_eraseIdx {holders : List (I × Post)} {i : ℕ} {h : I × Post} (hi : holders[i]? = some h) (p : Post) :
    expired holders p = (expired (holders.eraseIdx i) p && !decide (p = h.2)) := by
  obtain ⟨hlt, rfl⟩ := List.getElem?_eq_some_iff.mp hi
  have hmem := ((List.getElem_cons_eraseIdx_perm hlt).map Prod.snd).mem_iff (a := p)
  rw [List.map_cons, List.mem_cons] at hmem
  unfold expired
  rw [← decide_not, ← Bool.decide_and, decide_eq_decide, ← hmem, not_or, and_comm]

/-- The drop of a shared pointer: the last one leaves an expired entry and a cleanup to come. -/
theorem Inv.drop (hI : m.Inv) {i : ℕ} {h : I × Post} (hi : m.holders[i]? = some h) : (m.drop i h.2).Inv := by
  have hheld : ∀ g ∈ m.holders.eraseIdx i, g ∈ m.idToPost := fun g hg => hI.held g (List.mem_of_mem_eraseIdx hg)
  have hwas := expired_eraseIdx hi
  unfold Mail.drop
  dsimp only
  cases hlast : expired (m.holders.eraseIdx i) h.2 with
  | false =>
    have hsame : ∀ q, expired (m.holders.eraseIdx i) q = expired m.holders q := by
      intro q
      rw [hwas q]
      by_cases heq : q = h.2
      · rw [heq, hlast, Bool.false_and]
      · rw [decide_eq_false heq, Bool.not_false, Bool.and_true]
    rw [if_neg Bool.false_ne_true]
    refine { hI with held := hheld, dying := ?_ }
    simp only [hsame]
    exact hI.dying
  | true =>
    rw [if_pos rfl]
    refine { hI with held := hheld, dying := ?_ }
    -- the entry of the post is the only one that expires
    obtain ⟨as, bs, hsplit⟩ := List.append_of_mem (hI.held h (List.mem_of_getElem? hi))
    have hposts := hI.posts
    have hdying := hI.dying
    rw [hsplit] at hposts hdying
    rw [List.map_append, List.map_cons, List.nodup_middle, List.nodup_cons, ← List.map_append] at hposts
    have hcount : (as ++ bs).countP (fun e => expired (m.holders.eraseIdx i) e.2) =
        (as ++ bs).countP fun e => expired m.holders e.2 := by
      refine List.countP_congr fun e he => ?_
      have hne : e.2 ≠ h.2 := fun heq => hposts.1 (List.mem_map.mpr ⟨e, he, heq⟩)
      rw [hwas e.2, decide_eq_false hne, Bool.not_false, Bool.and_true]
    have halive : expired m.holders h.2 = false := by rw [hwas, decide_eq_true rfl, Bool.not_true, Bool.and_false]
    show m.idToPost.countP (fun e => expired (m.holders.eraseIdx i) e.2) = m.dying + 1
    rw [hsplit, List.countP_append, List.countP_cons, hlast, if_pos rfl]
    rw [List.countP_append, List.countP_cons, halive, if_neg Bool.false_ne_true] at hdying
    rw [List.countP_append, List.countP_append] at hcount
    omega

/-- `cleanup` removes an expired entry. -/
theorem Inv.cleanup (hI : m.Inv) : Inv { m.cleanup with dying := m.dying - 1 } := by
  unfold Mail.cleanup
  cases hfind : m.idToPost.find? fun e => expired m.holders e.2 with
  | none =>
    have hzero : m.dying = 0 := by
      rw [← hI.dying, List.countP_eq_zero]
      exact List.find?_eq_none.mp hfind
    exact { hI with dying := by rw [hzero]; exact hI.dying.trans hzero }
  | some e =>
    have hexpired : expired m.holders e.2 = true :=
      List.find?_some (p := fun e : I × Post => expired m.holders e.2) hfind
    obtain ⟨a, as, bs, -, ha, hl, herase⟩ :=
      List.exists_of_eraseP (p := fun e => expired m.holders e.2) (List.mem_of_find?_eq_some hfind) hexpired
    have hsub : (m.idToPost.eraseP fun e => expired m.holders e.2).Sublist m.idToPost := List.eraseP_sublist
    exact {
      keys := hI.keys.sublist (hsub.map _)
      posts := hI.posts.sublist (hsub.map _)
      held := fun h hh => by
        have hlive := expired_eq_false_iff.mpr (List.mem_map.mpr ⟨h, hh, rfl⟩)
        exact (List.mem_eraseP_of_neg (by rw [hlive]; exact Bool.false_ne_true)).mpr (hI.held h hh)
      fresh := fun f hf => hI.fresh f (hsub.subset hf)
      erased := by
        intro b hb
        rcases List.mem_append.mp hb with hb | hb
        · exact hI.erased b hb
        · rw [List.mem_singleton.mp hb, hexpired]
          rfl
      dying := by
        have hcount := hI.dying
        rw [hl, List.countP_append, List.countP_cons, if_pos ha] at hcount
        show (m.idToPost.eraseP fun e => expired m.holders e.2).countP (fun e => expired m.holders e.2) = m.dying - 1
        rw [herase, List.countP_append]
        omega }

section calls

variable [LinearOrder I]

theorem mem_of_find {id : I} {e : I × Post} (h : m.find id = some e) : e ∈ m.idToPost ∧ e.1 = id :=
  ⟨List.mem_of_find?_eq_some h, by simpa using List.find?_some h⟩

theorem notMem_of_find {id : I} (h : m.find id = none) : id ∉ m.idToPost.map Prod.fst := by
  intro hmem
  obtain ⟨e, he, rfl⟩ := List.mem_map.mp hmem
  simpa using List.find?_eq_none.mp h e he

/-- A new post with its first holder. -/
theorem Inv.emplace (hI : m.Inv) {id : I} (hnew : id ∉ m.idToPost.map Prod.fst) (kind : PostKind) :
    (Mail.hold { m with
      idToPost := m.idToPost.orderedInsert (fun a b => a.1 ≤ b.1) (id, ⟨m.next, kind⟩)
      next := m.next + 1 } id ⟨m.next, kind⟩).Inv := by
  have hperm := List.perm_orderedInsert (fun a b : I × Post => a.1 ≤ b.1) (id, (⟨m.next, kind⟩ : Post)) m.idToPost
  have hfresh : ∀ e ∈ m.idToPost, e.2 ≠ ⟨m.next, kind⟩ := by
    intro e he heq
    have hlt := hI.fresh e he
    rw [heq] at hlt
    exact lt_irrefl _ hlt
  refine ⟨?_, ?_, ?_, ?_, hI.erased, ?_⟩
  · exact (hperm.map Prod.fst).nodup_iff.mpr (List.nodup_cons.mpr ⟨hnew, hI.keys⟩)
  · refine (hperm.map Prod.snd).nodup_iff.mpr (List.nodup_cons.mpr ⟨fun hmem => ?_, hI.posts⟩)
    obtain ⟨e, he, heq⟩ := List.mem_map.mp hmem
    exact hfresh e he heq
  · intro h hh
    refine hperm.mem_iff.mpr ?_
    rcases List.mem_append.mp hh with hh | hh
    · exact List.mem_cons_of_mem _ (hI.held h hh)
    · rw [List.mem_singleton.mp hh]
      exact List.mem_cons_self
  · intro e he
    show e.2.serial < m.next + 1
    rcases List.mem_cons.mp (hperm.mem_iff.mp he) with rfl | he
    · exact Nat.lt_succ_self _
    · exact Nat.lt_succ_of_lt (hI.fresh e he)
  · rw [← hI.dying]
    refine (hperm.countP_eq _).trans ?_
    show List.countP (fun e : I × Post => expired (m.holders ++ [(id, ⟨m.next, kind⟩)]) e.2) _ = _
    rw [List.countP_cons, expired_append, decide_eq_true rfl, Bool.not_true, Bool.and_false, if_neg Bool.false_ne_true,
      Nat.add_zero]
    refine List.countP_congr fun e he => ?_
    rw [expired_append, decide_eq_false (hfresh e he), Bool.not_false, Bool.and_true]

/-! ### When every call is answered -/

/-- The entry of the id, if there is one, has not expired. -/
def Answered (m : Mail I) (id : I) : Prop := ∀ e ∈ m.find id, expired m.holders e.2 = false

/-- No id is asked for between the drop of its post and the cleanup of its entry. -/
def Asked (m : Mail I) : Op I → Prop
  | .event id | .queue id => m.Answered id
  | .copy _ | .drop _ | .cleanup => True

instance (m : Mail I) (id : I) : Decidable (m.Answered id) := inferInstanceAs (Decidable (∀ e ∈ m.find id, _))

instance (m : Mail I) : (op : Op I) → Decidable (m.Asked op)
  | .event id | .queue id => inferInstanceAs (Decidable (m.Answered id))
  | .copy _ | .drop _ | .cleanup => instDecidableTrue

/-- What one call does: it takes the live post, makes one, or returns null for an expired entry. -/
theorem Inv.get (hI : m.Inv) (kind : PostKind) (id : I) :
    (m.get kind id).Inv ∧
      ∃ b, (m.get kind id).answers = m.answers ++ [b] ∧ (b = true ↔ m.Answered id) := by
  unfold Mail.get Answered
  cases hfind : m.find id with
  | none =>
    refine ⟨(hI.emplace (notMem_of_find hfind) kind).answer _, _, rfl, ?_⟩
    simp [Mail.hold, expired]
  | some e =>
    obtain ⟨hmem, rfl⟩ := mem_of_find hfind
    dsimp only
    cases hexpired : expired m.holders e.2 with
    | true =>
      rw [if_pos rfl]
      exact ⟨hI.answer none, _, rfl, by simp [hexpired]⟩
    | false =>
      rw [if_neg Bool.false_ne_true]
      exact ⟨(hI.hold hmem hexpired).answer _, _, rfl, by simp [Mail.hold, expired_append, hexpired]⟩

theorem Inv.step {op : Op I} (hI : m.Inv) (hst : m.step op = some n) : n.Inv := by
  cases op with
  | event id =>
    obtain rfl := Option.some.inj hst
    exact (hI.get .event id).1
  | queue id =>
    obtain rfl := Option.some.inj hst
    exact (hI.get .queue id).1
  | copy i =>
    obtain ⟨h, hi, rfl⟩ := Option.map_eq_some_iff.mp hst
    have hmem := List.mem_of_getElem? hi
    exact hI.hold (hI.held h hmem) (expired_eq_false_iff.mpr (List.mem_map.mpr ⟨h, hmem, rfl⟩))
  | drop i =>
    obtain ⟨h, hi, rfl⟩ := Option.map_eq_some_iff.mp hst
    exact hI.drop hi
  | cleanup =>
    obtain ⟨-, rfl⟩ := of_ite_some hst
    exact hI.cleanup

/-- In every run holders of one id hold one post, and no entry of a live post is removed. -/
theorem mail_shared {ops : List (Op I)} (hrun : Run MailStep {} ops m) :
    (∀ id p q, (id, p) ∈ m.holders → (id, q) ∈ m.holders → p = q) ∧ ∀ b ∈ m.erased, b = false := by
  have hI : m.Inv := hrun.invariant (fun _ _ _ hI hst => hI.step hst) inv_empty
  exact ⟨fun _ _ _ => hI.agree, hI.erased⟩

/-- An answer is a live post exactly where the id is not between drop and cleanup. -/
theorem Inv.good_iff {op : Op I} (hI : m.Inv) (hgood : m.Good) (hst : m.step op = some n) : n.Good ↔ m.Asked op := by
  have hn := hI.step hst
  have hanswers : n.Good ↔ ∀ b ∈ n.answers, b = true :=
    ⟨fun h => h.answers, fun h => ⟨h, fun _ _ _ => hn.agree, hn.erased⟩⟩
  rw [hanswers]
  have hcall (kind : PostKind) (id : I) : (∀ b ∈ (m.get kind id).answers, b = true) ↔ m.Answered id := by
    obtain ⟨-, b, hb, hiff⟩ := hI.get kind id
    rw [hb, ← hiff]
    exact ⟨fun h => h b (by simp), fun h c hc => (List.mem_append.mp hc).elim (hgood.answers c)
      fun hc => (List.mem_singleton.mp hc).trans h⟩
  cases op with
  | event id =>
    obtain rfl := Option.some.inj hst
    exact hcall .event id
  | queue id =>
    obtain rfl := Option.some.inj hst
    exact hcall .queue id
  | copy i =>
    obtain ⟨h, -, rfl⟩ := Option.map_eq_some_iff.mp hst
    exact iff_of_true hgood.answers trivial
  | drop i =>
    obtain ⟨h, -, rfl⟩ := Option.map_eq_some_iff.mp hst
    refine iff_of_true (fun b hb => hgood.answers b ?_) trivial
    unfold Mail.drop at hb
    dsimp only at hb
    split at hb <;> exact hb
  | cleanup =>
    obtain ⟨-, rfl⟩ := of_ite_some hst
    refine iff_of_true (fun b hb => hgood.answers b ?_) trivial
    unfold Mail.cleanup at hb
    dsimp only at hb
    split at hb <;> exact hb

/-- In an interleaving every state is good exactly if no id is asked for between the drop of its post and the cleanup of
its entry. -/
theorem mail_good_iff {ops : List (Op I)} (hrun : Run MailStep {} ops m) :
    (∀ before after u, ops = before ++ after → Run MailStep {} before u → u.Good) ↔
      Run (Guarded MailStep Asked) {} ops m :=
  run_safe_iff (fun _ _ _ hI hst => hI.step hst) (fun _ _ _ hI hgood hst => hI.good_iff hgood hst) inv_empty
    ⟨by simp, by simp, by simp⟩ hrun

/-- Two streams share a post, both end, and a third one gets a new post after the cleanup. -/
theorem mail_good_three_streams :
    ∃ m : Mail ℕ, Run MailStep {} [.event 5, .queue 7, .event 5, .drop 0, .drop 1, .cleanup, .event 5] m ∧
      m.holders = [(7, ⟨1, .queue⟩), (5, ⟨2, .event⟩)] ∧
      ∀ before after u, [.event 5, .queue 7, .event 5, .drop 0, .drop 1, .cleanup, .event 5] = before ++ after →
        Run MailStep {} before u → u.Good := by
  obtain ⟨m, hrun, hm⟩ := exists_run_execWhere_and (f := step) (G := Asked) (s := ({} : Mail ℕ))
    (l := [.event 5, .queue 7, .event 5, .drop 0, .drop 1, .cleanup, .event 5])
    (P := fun m => m.holders = [(7, ⟨1, .queue⟩), (5, ⟨2, .event⟩)]) (by decide)
  exact ⟨m, hrun.of_guarded, hm, (mail_good_iff hrun.of_guarded).mpr hrun⟩

/-- The next stream asks before the post of the last one has come to its cleanup, and gets null. -/
theorem not_good_between_drop_and_cleanup :
    ∃ m : Mail ℕ, Run MailStep {} [.event 5, .drop 0, .event 5] m ∧ m.answers = [true, false] ∧ m.holders = [] ∧
      ¬m.Good := by
  obtain ⟨m, hrun, hanswers, hholders⟩ := exists_run_execWhere_and (f := step) (G := fun _ _ => True)
    (s := ({} : Mail ℕ))
    (l := [.event 5, .drop 0, .event 5]) (P := fun m => m.answers = [true, false] ∧ m.holders = []) (by decide)
  refine ⟨m, hrun.of_guarded, hanswers, hholders, fun hgood => ?_⟩
  exact Bool.false_ne_true (hgood.answers false (by rw [hanswers]; decide))

end calls

end Mail

end MidnightSun.Safe
