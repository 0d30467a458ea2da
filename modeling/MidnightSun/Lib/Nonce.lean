import Mathlib.Data.List.Nodup
import Mathlib.Data.List.Induction
import Mathlib.Data.List.Count

/-!
# Deterministic nonces

A nonce is built from a fixed field, which names one use of a key, and an invocation field, which counts the messages
of that use and wraps around.  Senders encrypt messages under one key in any order.  `nodup_nonces_iff` says exactly
when no nonce repeats: no counter wraps, and no two senders share a fixed field.
-/

namespace MidnightSun.Lib

variable {ι κ N : Type*}

/-! ### Numbered messages -/

section Numbered

variable [DecidableEq ι]

/-- The messages of a log, each with the number of messages its sender sent before it; `seen` was sent earlier. -/
def numberedFrom (seen : List ι) : List ι → List (ι × ℕ)
  | [] => []
  | i :: log => (i, seen.count i) :: numberedFrom (seen ++ [i]) log

/-- The messages of a log, numbered for each sender. -/
def numbered (log : List ι) : List (ι × ℕ) := numberedFrom [] log

lemma numberedFrom_concat (seen log : List ι) (i : ι) :
    numberedFrom seen (log ++ [i]) = numberedFrom seen log ++ [(i, (seen ++ log).count i)] := by
  induction log generalizing seen with
  | nil => simp [numberedFrom]
  | cons k log ih =>
    rw [List.cons_append, numberedFrom, numberedFrom, ih, List.cons_append, List.append_assoc, List.singleton_append]

lemma numbered_concat (log : List ι) (i : ι) : numbered (log ++ [i]) = numbered log ++ [(i, log.count i)] := by
  simpa [numbered] using numberedFrom_concat [] log i

theorem mem_numbered {log : List ι} {i : ι} {j : ℕ} : (i, j) ∈ numbered log ↔ j < log.count i := by
  induction log using List.reverseRecOn with
  | nil => simp [numbered, numberedFrom]
  | append_singleton log k ih =>
    rw [numbered_concat, List.mem_append, ih, List.count_append, List.mem_singleton, Prod.mk.injEq]
    by_cases hk : i = k
    · subst hk
      simp only [true_and, List.count_singleton_self]
      omega
    · have hz : [k].count i = 0 := by simp [Ne.symm hk]
      simp [hk, hz]

theorem nodup_numbered (log : List ι) : (numbered log).Nodup := by
  induction log using List.reverseRecOn with
  | nil => exact List.nodup_nil
  | append_singleton log k ih =>
    rw [numbered_concat]
    refine List.nodup_append.mpr ⟨ih, List.nodup_singleton _, ?_⟩
    rintro ⟨i, j⟩ hmem b hb rfl
    obtain ⟨rfl, rfl⟩ := Prod.mk.inj (List.mem_singleton.mp hb)
    exact absurd (mem_numbered.mp hmem) (Nat.lt_irrefl _)

end Numbered

/-! ### Nonces -/

/-- A way to build nonces: the invocation field of the fixed field `F` wraps around after `period F` messages. -/
structure NonceScheme (κ N : Type*) where
  period : κ → ℕ
  period_pos : ∀ F, 0 < period F
  nonce : κ → ℕ → N
  nonce_eq_iff : ∀ F F' j j', nonce F j = nonce F' j' ↔ F = F' ∧ j % period F = j' % period F

namespace NonceScheme

variable (S : NonceScheme κ N) (field : ι → κ) [DecidableEq ι]

/-- The nonces of a log of senders, in order. -/
def nonces (log : List ι) : List N := (numbered log).map fun p => S.nonce (field p.1) p.2

lemma nonces_concat (log : List ι) (i : ι) :
    S.nonces field (log ++ [i]) = S.nonces field log ++ [S.nonce (field i) (log.count i)] := by
  unfold nonces
  rw [numbered_concat, List.map_append, List.map_singleton]

/-- **Nonces are unique exactly when** no sender has sent more messages than its counter can count, and no two senders
use the same fixed field. -/
theorem nodup_nonces_iff (log : List ι) :
    (S.nonces field log).Nodup ↔
      (∀ i ∈ log, log.count i ≤ S.period (field i)) ∧ ∀ i ∈ log, ∀ i' ∈ log, field i = field i' → i = i' := by
  constructor
  · intro h
    have hinj : ∀ p ∈ numbered log, ∀ q ∈ numbered log,
        S.nonce (field p.1) p.2 = S.nonce (field q.1) q.2 → p = q := fun p hp q hq =>
      List.inj_on_of_nodup_map h hp hq
    constructor
    · intro i hi
      by_contra hlt
      have hpos := S.period_pos (field i)
      have hfirst : (i, 0) ∈ numbered log := mem_numbered.mpr (by omega)
      have hwrapped : (i, S.period (field i)) ∈ numbered log := mem_numbered.mpr (by omega)
      have heq := hinj _ hfirst _ hwrapped ((S.nonce_eq_iff _ _ _ _).mpr ⟨rfl, by simp⟩)
      have : 0 = S.period (field i) := congrArg Prod.snd heq
      omega
    · intro i hi i' hi' hfield
      have hmem : (i, 0) ∈ numbered log := mem_numbered.mpr (List.count_pos_iff.mpr hi)
      have hmem' : (i', 0) ∈ numbered log := mem_numbered.mpr (List.count_pos_iff.mpr hi')
      exact congrArg Prod.fst (hinj _ hmem _ hmem' ((S.nonce_eq_iff _ _ _ _).mpr ⟨hfield, rfl⟩))
  · rintro ⟨hcount, hfield⟩
    refine List.Nodup.map_on ?_ (nodup_numbered log)
    rintro ⟨i, j⟩ hp ⟨i', j'⟩ hq heq
    have hj := mem_numbered.mp hp
    have hj' := mem_numbered.mp hq
    obtain ⟨hF, hmod⟩ := (S.nonce_eq_iff _ _ _ _).mp heq
    have hi : i ∈ log := List.count_pos_iff.mp (by omega)
    have hi' : i' ∈ log := List.count_pos_iff.mp (by omega)
    obtain rfl := hfield i hi i' hi' hF
    have hle := hcount i hi
    have hjj : j = j' := by
      dsimp only at hmod
      rwa [Nat.mod_eq_of_lt (by omega), Nat.mod_eq_of_lt (by omega)] at hmod
    rw [hjj]

/-! ### Counters -/

/-- The counters of the senders that can encrypt, against the nonces used so far: the nonces are those of the log of
senders, and a counter is the number of messages, up to its period. -/
structure Metered (next : ι → Option ℕ) (log : List (ι × N)) : Prop where
  nonces_eq : log.map Prod.snd = S.nonces field (log.map Prod.fst)
  count : ∀ i c, next i = some c → c % S.period (field i) = (log.map Prod.fst).count i % S.period (field i)
  known : ∀ i ∈ log.map Prod.fst, (next i).isSome = true

/-- One step of the senders: `e` sends a message, if anybody does, and senders that are new start at zero. -/
structure Tick (next next' : ι → Option ℕ) (log log' : List (ι × N)) (e : Option ι) : Prop where
  log_eq : log' = log ++ e.toList.map fun i => (i, S.nonce (field i) ((next i).getD 0))
  sends : ∀ i ∈ e, ∃ c c', next i = some c ∧ next' i = some c' ∧ c' % S.period (field i) = (c + 1) % S.period (field i)
  keeps : ∀ i c, e ≠ some i → next i = some c → next' i = some c
  starts : ∀ i c, next i = none → next' i = some c → c = 0

variable {S field}

lemma Metered.count_eq_zero {next : ι → Option ℕ} {log : List (ι × N)} (h : S.Metered field next log) {i : ι}
    (hi : next i = none) : (log.map Prod.fst).count i = 0 := by
  refine List.count_eq_zero_of_not_mem fun hmem => ?_
  have hsome := h.known i hmem
  rw [hi] at hsome
  cases hsome

theorem Metered.tick {next next' : ι → Option ℕ} {log log' : List (ι × N)} {e : Option ι}
    (h : S.Metered field next log) (ht : S.Tick field next next' log log' e) : S.Metered field next' log' := by
  cases e with
  | none =>
    have hlog : log' = log := by simpa using ht.log_eq
    rw [hlog]
    refine ⟨h.nonces_eq, ?_, ?_⟩
    · intro i c hc
      cases hi : next i with
      | none =>
        obtain rfl := ht.starts i c hi hc
        rw [h.count_eq_zero hi]
      | some c₀ =>
        have := ht.keeps i c₀ (by simp) hi
        rw [this] at hc
        obtain rfl := Option.some.inj hc
        exact h.count i c₀ hi
    · intro i hi
      obtain ⟨c, hc⟩ := Option.isSome_iff_exists.mp (h.known i hi)
      rw [ht.keeps i c (by simp) hc]
      rfl
  | some k =>
    obtain ⟨c, c', hc, hc', hsucc⟩ := ht.sends k rfl
    have hlog : log' = log ++ [(k, S.nonce (field k) c)] := by simpa [hc] using ht.log_eq
    have hfst : log'.map Prod.fst = log.map Prod.fst ++ [k] := by rw [hlog, List.map_append]; rfl
    have hcount := h.count k c hc
    refine ⟨?_, ?_, ?_⟩
    · have hnonce : S.nonce (field k) c = S.nonce (field k) ((log.map Prod.fst).count k) :=
        (S.nonce_eq_iff _ _ _ _).mpr ⟨rfl, hcount⟩
      rw [hfst, nonces_concat, hlog, List.map_append, h.nonces_eq, ← hnonce]
      rfl
    · intro i d hd
      rw [hfst, List.count_append]
      by_cases hik : i = k
      · subst hik
        rw [hc'] at hd
        obtain rfl := Option.some.inj hd
        rw [hsucc, List.count_singleton_self, Nat.add_mod, hcount, ← Nat.add_mod]
      · have hz : [k].count i = 0 := by simp [Ne.symm hik]
        rw [hz, Nat.add_zero]
        cases hi : next i with
        | none =>
          obtain rfl := ht.starts i d hi hd
          rw [h.count_eq_zero hi]
        | some c₀ =>
          have := ht.keeps i c₀ (by simpa using Ne.symm hik) hi
          rw [this] at hd
          obtain rfl := Option.some.inj hd
          exact h.count i c₀ hi
    · intro i hi
      rw [hfst, List.mem_append, List.mem_singleton] at hi
      by_cases hik : i = k
      · subst hik
        rw [hc']
        rfl
      · obtain ⟨c₀, hc₀⟩ := Option.isSome_iff_exists.mp (h.known i (hi.resolve_right hik))
        rw [ht.keeps i c₀ (by simpa using Ne.symm hik) hc₀]
        rfl

end NonceScheme

end MidnightSun.Lib
