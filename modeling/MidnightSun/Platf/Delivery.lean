import Mathlib.Data.List.GetD
import MidnightSun.Platf.SendBatch

/-!
# What a batch hands to the socket

The messages of `send_batch` are the shards of the batch, and a loop that goes on after partial progress hands over a
prefix of them.  What then follows a hard error decides whether a shard is sent twice.
-/

namespace MidnightSun.Platf

open Lib

/-! ### The messages -/

namespace ShardBuffers

variable (f : ShardBuffers)

lemma length_of_mem_take {k : ℕ} : ∀ s ∈ f.shards.take k, s.length = f.blocksize :=
  fun s hs => f.length_shard s (List.mem_of_mem_take hs)

lemma length_of_mem_drop {k : ℕ} : ∀ s ∈ f.shards.drop k, s.length = f.blocksize :=
  fun s hs => f.length_shard s (List.mem_of_mem_drop hs)

lemma bufferForPayloadOffset_lt {k : ℕ} (hk : k < f.aligned) (hlen : k < f.shards.length) :
    bufferForPayloadOffset f.payloadBuffers (k * f.blocksize) = ((f.shards.take f.aligned).drop k).flatten := by
  have hlt : k * f.blocksize < (f.shards.take f.aligned).flatten.length := by
    rw [length_flatten_of_length f.length_of_mem_take, List.length_take]
    exact Nat.mul_lt_mul_of_pos_right (lt_min hk hlen) f.blocksize_pos
  rw [payloadBuffers, bufferForPayloadOffset, if_pos hlt]
  exact drop_flatten f.length_of_mem_take k

lemma bufferForPayloadOffset_ge {k : ℕ} (hk : f.aligned ≤ k) (hlen : k < f.shards.length) :
    bufferForPayloadOffset f.payloadBuffers (k * f.blocksize) = (f.shards.drop k).flatten := by
  have hfirst : (f.shards.take f.aligned).flatten.length = f.aligned * f.blocksize := by
    rw [length_flatten_of_length f.length_of_mem_take, List.length_take, min_eq_left (by omega)]
  have hsecond : (f.shards.drop f.aligned).flatten.length = (f.shards.length - f.aligned) * f.blocksize := by
    rw [length_flatten_of_length f.length_of_mem_drop, List.length_drop]
  have hge : ¬k * f.blocksize < f.aligned * f.blocksize := by
    rw [not_lt]
    exact Nat.mul_le_mul_right _ hk
  have hsub : k * f.blocksize - f.aligned * f.blocksize = (k - f.aligned) * f.blocksize := (Nat.sub_mul _ _ _).symm
  have hlt : (k - f.aligned) * f.blocksize < (f.shards.length - f.aligned) * f.blocksize :=
    Nat.mul_lt_mul_of_pos_right (by omega) f.blocksize_pos
  rw [payloadBuffers, bufferForPayloadOffset, hfirst, if_neg hge, bufferForPayloadOffset, hsub, hsecond, if_pos hlt,
    drop_flatten f.length_of_mem_drop, List.drop_drop, Nat.add_sub_cancel' hk]

lemma take_drop_one {k : ℕ} (hk : k < f.shards.length) : (f.shards.drop k).take 1 = [f.data k] := by
  rw [List.drop_eq_getElem_cons hk, List.take_succ_cons, List.take_zero, data, List.getD_eq_getElem _ _ hk]

lemma take_bufferForPayloadOffset {k : ℕ} (hk : k < f.shards.length) :
    (bufferForPayloadOffset f.payloadBuffers (k * f.blocksize)).take f.blocksize = f.data k := by
  rcases Nat.lt_or_ge k f.aligned with h | h
  · have hmem : ∀ s ∈ (f.shards.take f.aligned).drop k, s.length = f.blocksize :=
      fun s hs => f.length_of_mem_take s (List.mem_of_mem_drop hs)
    have htake : ((f.shards.take f.aligned).drop k).take 1 = (f.shards.drop k).take 1 := by
      rw [List.drop_take, List.take_take, min_eq_left (by omega)]
    have hone := take_flatten hmem 1
    rw [Nat.one_mul, htake, f.take_drop_one hk, List.flatten_singleton] at hone
    rw [f.bufferForPayloadOffset_lt h hk, hone]
  · have hone := take_flatten (f.length_of_mem_drop (k := k)) 1
    rw [Nat.one_mul, f.take_drop_one hk, List.flatten_singleton] at hone
    rw [f.bufferForPayloadOffset_ge h hk, hone]

lemma length_data {k : ℕ} (hk : k < f.shards.length) : (f.data k).length = f.blocksize := by
  rw [data, List.getD_eq_getElem _ _ hk]
  exact f.length_shard _ (List.getElem_mem hk)

lemma length_header {k : ℕ} (hk : k < f.shards.length) : (f.header k).length = f.prefixsize := by
  have hle : (k + 1) * f.prefixsize ≤ f.shards.length * f.prefixsize := Nat.mul_le_mul_right _ hk
  rw [Nat.succ_mul] at hle
  rw [header, List.length_take, List.length_drop, f.length_headers, min_eq_left (by omega)]

lemma length_datagram {k : ℕ} (hk : k < f.shards.length) :
    (f.datagram k).2.length = f.prefixsize + f.blocksize := by
  rw [datagram, List.length_append, f.length_header hk, f.length_data hk]

lemma header_of_null (h : f.nullHeaders = true) (k : ℕ) : f.header k = [] := by
  rw [header, f.prefixsize_of_null h, List.take_zero]

@[simp] lemma length_batch (offset count : ℕ) : (f.batch offset count).length = count := by
  rw [batch, List.length_map, List.length_range']

lemma batch_add (offset m n : ℕ) : f.batch offset (m + n) = f.batch offset m ++ f.batch (offset + m) n := by
  rw [batch, batch, batch, ← List.map_append]
  congr 1
  have h := @List.range'_append offset m n 1
  rw [Nat.one_mul] at h
  exact h.symm

lemma map_fst_batch (offset count : ℕ) : (f.batch offset count).map Prod.fst = List.range' offset count := by
  rw [batch, List.map_map]
  exact List.map_id _

lemma take_drop_shards {k c : ℕ} (h : k + c ≤ f.shards.length) :
    (f.shards.drop k).take c = (List.range' k c).map f.data := by
  induction c generalizing k with
  | zero => simp
  | succ c ih =>
    have hk : k < f.shards.length := by omega
    rw [List.drop_eq_getElem_cons hk, List.take_succ_cons, ih (by omega), List.range'_succ, List.map_cons, data,
      List.getD_eq_getElem _ _ hk]

end ShardBuffers

namespace SendInfo

variable (f : ShardBuffers) {offset count : ℕ}

lemma blockIovs_info {k : ℕ} (hk : k < f.shards.length) : (f.info offset count).blockIovs k = (f.datagram k).2 := by
  show _ ++ (bufferForPayloadOffset f.payloadBuffers (k * f.blocksize)).take f.blocksize = f.header k ++ f.data k
  rw [f.take_bufferForPayloadOffset hk]
  congr 1
  cases h : f.nullHeaders with
  | true =>
    rw [f.header_of_null h]
    simp [ShardBuffers.info, h]
  | false => simp [ShardBuffers.info, h, ShardBuffers.header]

lemma gather_stop (info : SendInfo) {stop room off : ℕ} (h : stop ≤ off) : info.gather stop room off = some [] := by
  cases room with
  | zero => rw [gather, if_neg (by omega)]
  | succ room => rw [gather, if_neg (by omega)]

/-- One round of the loop, within a buffer that holds `m` shards from the offset on. -/
lemma gather_succ (offset count room : ℕ) {k c m : ℕ} {shards : List Str} (hc : 0 < c)
    (hshards : ∀ s ∈ shards, s.length = f.blocksize)
    (hm : m = min shards.length c)
    (hbuffer : bufferForPayloadOffset f.payloadBuffers (k * f.blocksize) = shards.flatten) :
    (f.info offset count).gather ((k + c) * f.blocksize) (room + 1) (k * f.blocksize) =
      ((f.info offset count).gather ((k + c) * f.blocksize) room ((k + m) * f.blocksize)).map
        fun bytes => (shards.take m).flatten ++ bytes := by
  have hlt : k * f.blocksize < (k + c) * f.blocksize := Nat.mul_lt_mul_of_pos_right (by omega) f.blocksize_pos
  have hlen : min shards.flatten.length ((k + c) * f.blocksize - k * f.blocksize) = m * f.blocksize := by
    rw [length_flatten_of_length hshards, ← Nat.sub_mul, Nat.add_sub_cancel_left, hm, Nat.mul_min_mul_right]
  have hdesc : bufferForPayloadOffset (f.info offset count).payloadBuffers (k * f.blocksize) = shards.flatten := hbuffer
  rw [gather, if_pos hlt]
  simp only [hdesc, hlen]
  rw [take_flatten hshards, Nat.add_mul k m]

/-- The loop collects the shards asked for, from one buffer or from both. -/
theorem gather_info {k c : ℕ} (h : k + c ≤ f.shards.length) :
    (f.info offset count).gather ((k + c) * f.blocksize) 2 (k * f.blocksize) =
      some ((f.shards.drop k).take c).flatten := by
  rcases Nat.eq_zero_or_pos c with rfl | hc
  · rw [gather_stop _ (by rw [Nat.add_zero]), List.take_zero, List.flatten_nil]
  have hk : k < f.shards.length := by omega
  rcases Nat.lt_or_ge k f.aligned with hal | hal
  · have hmem : ∀ s ∈ (f.shards.take f.aligned).drop k, s.length = f.blocksize :=
      fun s hs => f.length_of_mem_take s (List.mem_of_mem_drop hs)
    have hround := gather_succ f offset count 1 hc hmem rfl
      (f.bufferForPayloadOffset_lt hal hk)
    rw [List.length_drop, List.length_take] at hround
    rw [hround]
    generalize hm : min (min f.aligned f.shards.length - k) c = m
    have hfirst : ((f.shards.take f.aligned).drop k).take m = (f.shards.drop k).take m := by
      rw [List.drop_take, List.take_take, min_eq_left (by omega)]
    rw [hfirst]
    rcases Nat.lt_or_ge m c with hmc | hmc
    · -- the rest of the shards are in the second buffer
      have hal' : f.aligned ≤ k + m := by omega
      have hk' : k + m < f.shards.length := by omega
      have hstop : k + c = (k + m) + (c - m) := by omega
      have hround' := gather_succ f offset count 0 (c := c - m) (by omega)
        f.length_of_mem_drop rfl (f.bufferForPayloadOffset_ge hal' hk')
      rw [List.length_drop, min_eq_right (by omega)] at hround'
      rw [hstop, hround', gather_stop _ le_rfl, Option.map_some, Option.map_some, List.append_nil,
        ← List.flatten_append, ← List.drop_drop, ← List.take_add, Nat.add_sub_cancel' hmc.le]
    · obtain rfl : m = c := by omega
      rw [gather_stop _ le_rfl, Option.map_some, List.append_nil]
  · have hround := gather_succ f offset count 1 hc f.length_of_mem_drop rfl
      (f.bufferForPayloadOffset_ge hal hk)
    rw [List.length_drop, min_eq_right (by omega)] at hround
    rw [hround, gather_stop _ le_rfl, Option.map_some, List.append_nil]

/-- **A message of several segments is its shards, each after its own header.** -/
theorem gsoBytes_info {seg segs : ℕ} (h : offset + seg + segs ≤ f.shards.length) :
    (f.info offset count).gsoBytes seg segs = some ((f.batch (offset + seg) segs).map Prod.snd).flatten := by
  rw [ShardBuffers.batch, List.map_map]
  cases hnull : f.nullHeaders with
  | true =>
    have hheaders : (f.info offset count).headers = none := by simp [ShardBuffers.info, hnull]
    have hdata : (List.range' (offset + seg) segs).map (Prod.snd ∘ f.datagram) =
        (List.range' (offset + seg) segs).map f.data := by
      apply List.map_congr_left
      intro k _
      show f.header k ++ f.data k = f.data k
      rw [f.header_of_null hnull, List.nil_append]
    rw [hdata, ← f.take_drop_shards h, gsoBytes, hheaders]
    show (f.info offset count).gather ((offset + seg) * f.blocksize + segs * f.blocksize) 2
      ((offset + seg) * f.blocksize) = _
    rw [← Nat.add_mul]
    exact gather_info f h
  | false =>
    have hheaders : (f.info offset count).headers = some f.headers := by simp [ShardBuffers.info, hnull]
    rw [gsoBytes, hheaders]
    show some ((List.range segs).flatMap fun i => (f.info offset count).blockIovs (offset + seg + i)) = _
    rw [List.range'_eq_map_range, List.map_map, ← List.flatMap_def]
    congr 1
    apply List.flatMap_congr
    intro i hi
    rw [List.mem_range] at hi
    exact blockIovs_info f (by omega)

end SendInfo

/-! ### The loops -/

lemma take_batch (f : ShardBuffers) {k m c : ℕ} (h : m ≤ c) : (f.batch k c).take m = f.batch k m := by
  have hadd := f.batch_add k m (c - m)
  rw [Nat.add_sub_cancel' h] at hadd
  rw [hadd, List.take_left' (f.length_batch k m)]

lemma labelled_batch (f : ShardBuffers) {k m c : ℕ} (h : m ≤ c) :
    labelled k (((f.batch k c).map Prod.snd).take m) = f.batch k m := by
  rw [← List.map_take, take_batch f h, labelled, List.length_map, f.length_batch, ← f.map_fst_batch k m, List.zip_map']
  exact List.map_id _

/-- What was handed over before the first hard error, and the results from this one on. -/
def untilHard : List CallResult → ℕ × List CallResult
  | [] => (0, [])
  | .sent n :: results => (n + (untilHard results).1, (untilHard results).2)
  | .again true :: results => untilHard results
  | result :: results => (0, result :: results)

lemma hard_of_untilHard {results rest : List CallResult} {p : ℕ} {result : CallResult}
    (h : untilHard results = (p, result :: rest)) : results.any CallResult.isHard = true := by
  induction results generalizing p with
  | nil => simp [untilHard] at h
  | cons r results ih =>
    rw [List.any_cons, Bool.or_eq_true]
    cases r with
    | sent n =>
      right
      rw [untilHard, Prod.mk.injEq] at h
      exact ih (Prod.ext rfl h.2)
    | again writable =>
      cases writable with
      | true => exact Or.inr (ih h)
      | false => exact Or.inl rfl
    | error => exact Or.inl rfl

namespace SendInfo

variable (f : ShardBuffers) {offset count : ℕ}

lemma msgSize_info : (f.info offset count).msgSize = f.prefixsize + f.blocksize := rfl

/-- A message is cut into its shards. -/
lemma datagramsOf_info (offset count : ℕ) {k segs : ℕ} (h : k + segs ≤ f.shards.length) (hsegs : 0 < segs)
    (hlen : ((f.batch k segs).map Prod.snd).flatten.length < 2 ^ 16) :
    datagramsOf (f.info offset count).msgSize segs ((f.batch k segs).map Prod.snd).flatten =
      (f.batch k segs).map Prod.snd := by
  have hpos : 0 < f.prefixsize + f.blocksize := Nat.add_pos_right _ f.blocksize_pos
  have hall : ∀ b ∈ (f.batch k segs).map Prod.snd, b.length = f.prefixsize + f.blocksize := by
    intro b hb
    rw [ShardBuffers.batch, List.map_map, List.mem_map] at hb
    obtain ⟨el, hel, rfl⟩ := hb
    rw [List.mem_range'_1] at hel
    exact f.length_datagram (by omega)
  rw [length_flatten_of_length hall, List.length_map, f.length_batch] at hlen
  rw [datagramsOf, msgSize_info]
  by_cases h1 : 1 < segs
  · have hle : f.prefixsize + f.blocksize ≤ segs * (f.prefixsize + f.blocksize) := Nat.le_mul_of_pos_left _ hsegs
    rw [if_pos h1, Nat.mod_eq_of_lt (by omega), slices_flatten hpos hall]
  · obtain rfl : segs = 1 := by omega
    rw [if_neg h1, ShardBuffers.batch, List.range'_one, List.map_singleton, List.map_singleton, List.flatten_singleton]

lemma gsoLoop_stop (info : SendInfo) {results : List CallResult} {s : ℕ} (h : ¬s < info.blockCount) :
    info.gsoLoop results s = some (s, [], results) := by
  cases results with
  | nil => rw [gsoLoop, if_neg h]
  | cons r results =>
    rw [gsoLoop.eq_def]
    exact if_neg h

/-- A call that hands over `n` datagrams moves the loop by `n` shards. -/
lemma gsoLoop_sent (hle : offset + count ≤ f.shards.length) {n s fin : ℕ} {results rest : List CallResult}
    {out : List (ℕ × Str)} (hs : s < count)
    (h : (f.info offset count).gsoLoop (.sent n :: results) s = some (fin, out, rest)) :
    s + n ≤ count ∧ ∃ out', (f.info offset count).gsoLoop results (s + n) = some (fin, out', rest) ∧
      out = f.batch (offset + s) n ++ out' := by
  have hcount : (f.info offset count).blockCount = count := rfl
  have hoffset : (f.info offset count).blockOffset = offset := rfl
  obtain ⟨segs, hsegs⟩ : ∃ segs, segs = min (count - s) segMax := ⟨_, rfl⟩
  have hpos : 0 < segs := by
    rw [hsegs, segMax]
    omega
  have hfit : s + segs ≤ count := by omega
  rw [gsoLoop, hcount, hoffset, if_pos hs, ← hsegs] at h
  dsimp only at h
  rw [gsoBytes_info f (by omega), Option.bind_some] at h
  obtain ⟨⟨-, hn, hlen⟩, hloop⟩ := Option.ite_none_right_eq_some.mp h
  have hdatagrams := datagramsOf_info f offset count (k := offset + s) (by omega) hpos hlen
  rw [hdatagrams] at hloop hn
  rw [List.length_map, f.length_batch] at hn
  have hall : ∀ b ∈ ((f.batch (offset + s) segs).map Prod.snd).take n, b.length = f.prefixsize + f.blocksize := by
    intro b hb
    have hb' := List.mem_of_mem_take hb
    rw [ShardBuffers.batch, List.map_map, List.mem_map] at hb'
    obtain ⟨el, hel, rfl⟩ := hb'
    rw [List.mem_range'_1] at hel
    exact f.length_datagram (by omega)
  have hsent :
      (((f.batch (offset + s) segs).map Prod.snd).take n).flatten.length / (f.info offset count).msgSize = n := by
    rw [length_flatten_of_length hall, List.length_take, List.length_map, f.length_batch, min_eq_left hn, msgSize_info]
    exact Nat.mul_div_cancel _ (Nat.add_pos_right _ f.blocksize_pos)
  rw [hsent, labelled_batch f hn, Option.map_eq_some_iff] at hloop
  obtain ⟨⟨fin', out', rest'⟩, hnext, heq⟩ := hloop
  rw [Prod.mk.injEq, Prod.mk.injEq] at heq
  obtain ⟨rfl, rfl, rfl⟩ := heq
  exact ⟨by omega, out', hnext, rfl⟩

/-- The loop hands over the next shards in order, up to the last of the batch or to the first hard error. -/
theorem gsoLoop_spec (hle : offset + count ≤ f.shards.length) {results rest : List CallResult} {s fin : ℕ}
    {out : List (ℕ × Str)} (hs : s ≤ count)
    (h : (f.info offset count).gsoLoop results s = some (fin, out, rest)) :
    ∃ p, fin = s + p ∧ out = f.batch (offset + s) p ∧
      ((fin = count ∧ (rest = [] → untilHard results = (p, []))) ∨
        (fin < count ∧ ∃ result, untilHard results = (p, result :: rest))) := by
  have hcount : (f.info offset count).blockCount = count := rfl
  induction results generalizing s out with
  | nil =>
    rw [gsoLoop, hcount] at h
    split_ifs at h with hlt
    cases h
    exact ⟨0, rfl, rfl, Or.inl ⟨by omega, fun _ => rfl⟩⟩
  | cons r results ih =>
    by_cases hlt : s < count
    · cases r with
      | sent n =>
        obtain ⟨hfit, out', h', rfl⟩ := gsoLoop_sent f hle hlt h
        obtain ⟨p, rfl, rfl, hend⟩ := ih hfit h'
        refine ⟨n + p, by omega, ?_, ?_⟩
        · rw [f.batch_add, Nat.add_assoc offset s n]
        · rw [untilHard]
          rcases hend with ⟨hfin, hrest⟩ | ⟨hfin, result, hrest⟩
          · left
            refine ⟨hfin, fun h0 => ?_⟩
            rw [hrest h0]
          · right
            refine ⟨hfin, result, ?_⟩
            rw [hrest]
      | again writable =>
        cases writable with
        | true =>
          rw [gsoLoop, hcount, if_pos hlt] at h
          exact ih hs h
        | false =>
          rw [gsoLoop, hcount, if_pos hlt] at h
          cases h
          exact ⟨0, rfl, rfl, Or.inr ⟨hlt, _, rfl⟩⟩
      | error =>
        rw [gsoLoop, hcount, if_pos hlt] at h
        cases h
        exact ⟨0, rfl, rfl, Or.inr ⟨hlt, _, rfl⟩⟩
    · rw [gsoLoop_stop _ hlt] at h
      cases h
      refine ⟨0, rfl, rfl, Or.inl ⟨by omega, ?_⟩⟩
      rintro ⟨⟩

lemma mmsgLoop_stop (info : SendInfo) (results : List CallResult) {s : ℕ} (h : ¬s < info.blockCount) :
    info.mmsgLoop results s = some (true, [], results) := by
  cases results with
  | nil => rw [mmsgLoop, if_neg h]
  | cons r results =>
    rw [mmsgLoop.eq_def]
    exact if_neg h

lemma mmsgLoop_sent (hle : offset + count ≤ f.shards.length) {n s : ℕ} {results rest : List CallResult} {ok : Bool}
    {out : List (ℕ × Str)} (hs : s < count)
    (h : (f.info offset count).mmsgLoop (.sent n :: results) s = some (ok, out, rest)) :
    s + n ≤ count ∧ ∃ out', (f.info offset count).mmsgLoop results (s + n) = some (ok, out', rest) ∧
      out = f.batch (offset + s) n ++ out' := by
  have hcount : (f.info offset count).blockCount = count := rfl
  have hoffset : (f.info offset count).blockOffset = offset := rfl
  have hmsgs : (List.range' (offset + s) (count - s)).map (f.info offset count).blockIovs =
      (f.batch (offset + s) (count - s)).map Prod.snd := by
    rw [ShardBuffers.batch, List.map_map]
    apply List.map_congr_left
    intro k hk
    rw [List.mem_range'_1] at hk
    exact blockIovs_info f (by omega)
  rw [mmsgLoop, hcount, hoffset, if_pos hs, hmsgs] at h
  dsimp only at h
  obtain ⟨⟨-, hn, -⟩, hloop⟩ := Option.ite_none_right_eq_some.mp h
  rw [List.length_map, f.length_batch] at hn
  rw [labelled_batch f hn, Option.map_eq_some_iff] at hloop
  obtain ⟨⟨ok', out', rest'⟩, hnext, heq⟩ := hloop
  rw [Prod.mk.injEq, Prod.mk.injEq] at heq
  obtain ⟨rfl, rfl, rfl⟩ := heq
  exact ⟨by omega, out', hnext, rfl⟩

/-- So does the loop with `sendmmsg`, which returns true when `poll` failed. -/
theorem mmsgLoop_spec (hle : offset + count ≤ f.shards.length) {results rest : List CallResult} {s : ℕ} {ok : Bool}
    {out : List (ℕ × Str)} (hs : s ≤ count)
    (h : (f.info offset count).mmsgLoop results s = some (ok, out, rest)) :
    ∃ p, out = f.batch (offset + s) p ∧
      ((s + p = count ∧ ok = true ∧ (rest = [] → untilHard results = (p, []))) ∨
        (s + p < count ∧ ok = true ∧ untilHard results = (p, .again false :: rest)) ∨
        (s + p < count ∧ ok = false ∧ untilHard results = (p, .error :: rest))) := by
  have hcount : (f.info offset count).blockCount = count := rfl
  induction results generalizing s out with
  | nil =>
    rw [mmsgLoop, hcount] at h
    split_ifs at h with hlt
    cases h
    exact ⟨0, rfl, Or.inl ⟨by omega, rfl, fun _ => rfl⟩⟩
  | cons r results ih =>
    by_cases hlt : s < count
    · cases r with
      | sent n =>
        obtain ⟨hfit, out', h', rfl⟩ := mmsgLoop_sent f hle hlt h
        obtain ⟨p, rfl, hend⟩ := ih hfit h'
        refine ⟨n + p, ?_, ?_⟩
        · rw [f.batch_add, Nat.add_assoc offset s n]
        · rw [untilHard, ← Nat.add_assoc]
          rcases hend with ⟨hfin, hok, hrest⟩ | ⟨hfin, hok, hrest⟩ | ⟨hfin, hok, hrest⟩
          · left
            refine ⟨hfin, hok, fun h0 => ?_⟩
            rw [hrest h0]
          · right; left
            refine ⟨hfin, hok, ?_⟩
            rw [hrest]
          · right; right
            refine ⟨hfin, hok, ?_⟩
            rw [hrest]
      | again writable =>
        cases writable with
        | true =>
          rw [mmsgLoop, hcount, if_pos hlt] at h
          exact ih hs h
        | false =>
          rw [mmsgLoop, hcount, if_pos hlt] at h
          cases h
          exact ⟨0, rfl, Or.inr (Or.inl ⟨hlt, rfl, rfl⟩)⟩
      | error =>
        rw [mmsgLoop, hcount, if_pos hlt] at h
        cases h
        exact ⟨0, rfl, Or.inr (Or.inr ⟨hlt, rfl, rfl⟩)⟩
    · rw [mmsgLoop_stop _ _ hlt] at h
      cases h
      refine ⟨0, rfl, Or.inl ⟨by omega, rfl, ?_⟩⟩
      rintro ⟨⟩

end SendInfo

/-! ### The fall-back -/

/-- The first `p` sends of the fall-back fail. -/
def firstFail : ℕ → List CallResult → Bool
  | 0, _ => true
  | _ + 1, [] => false
  | p + 1, .again true :: results => firstFail (p + 1) results
  | _ + 1, .sent _ :: _ => false
  | p + 1, _ :: results => firstFail p results

lemma sendOne_spec {datagram : ℕ × Str} {results rest : List CallResult} {out : List (ℕ × Str)}
    (h : sendOne datagram results = some (out, rest)) (p : ℕ) :
    (out = [] ∧ firstFail (p + 1) results = firstFail p rest) ∨
      (out = [datagram] ∧ firstFail (p + 1) results = false) := by
  induction results with
  | nil => cases h
  | cons r results ih =>
    cases r with
    | sent n =>
      rw [sendOne] at h
      obtain ⟨-, heq⟩ := Option.ite_none_right_eq_some.mp h
      cases heq
      exact Or.inr ⟨rfl, rfl⟩
    | again writable =>
      cases writable with
      | true => exact ih h
      | false =>
        cases h
        exact Or.inl ⟨rfl, rfl⟩
    | error =>
      cases h
      exact Or.inl ⟨rfl, rfl⟩

lemma sendEach_cons {datagram : ℕ × Str} {datagrams : List (ℕ × Str)} {results rest : List CallResult}
    {out : List (ℕ × Str)} (h : sendEach (datagram :: datagrams) results = some (out, rest)) :
    ∃ one mid more, sendOne datagram results = some (one, mid) ∧ sendEach datagrams mid = some (more, rest) ∧
      out = one ++ more := by
  rw [sendEach, Option.bind_eq_some_iff] at h
  obtain ⟨⟨one, mid⟩, hone, h⟩ := h
  rw [Option.map_eq_some_iff] at h
  obtain ⟨⟨more, rest'⟩, hmore, heq⟩ := h
  cases heq
  exact ⟨one, mid, more, hone, hmore, rfl⟩

theorem sublist_of_sendEach {datagrams out : List (ℕ × Str)} {results rest : List CallResult}
    (h : sendEach datagrams results = some (out, rest)) : out.Sublist datagrams := by
  induction datagrams generalizing results out with
  | nil =>
    cases h
    exact List.Sublist.slnil
  | cons datagram datagrams ih =>
    obtain ⟨one, mid, more, hone, hmore, rfl⟩ := sendEach_cons h
    rcases sendOne_spec hone 0 with ⟨rfl, -⟩ | ⟨rfl, -⟩
    · exact (ih hmore).cons datagram
    · exact (ih hmore).cons_cons datagram

lemma sendEach_append {before after out : List (ℕ × Str)} {results rest : List CallResult}
    (h : sendEach (before ++ after) results = some (out, rest)) :
    ∃ first mid more, sendEach before results = some (first, mid) ∧ sendEach after mid = some (more, rest) ∧
      out = first ++ more := by
  induction before generalizing results out with
  | nil => exact ⟨[], results, out, rfl, h, rfl⟩
  | cons datagram before ih =>
    obtain ⟨one, mid, more, hone, hmore, rfl⟩ := sendEach_cons h
    obtain ⟨first, mid', more', hfirst, hmore', rfl⟩ := ih hmore
    refine ⟨one ++ first, mid', more', ?_, hmore', (List.append_assoc _ _ _).symm⟩
    rw [sendEach, hone, Option.bind_some, hfirst, Option.map_some]

lemma sendEach_eq_nil_iff {datagrams out : List (ℕ × Str)} {results rest : List CallResult}
    (h : sendEach datagrams results = some (out, rest)) :
    out = [] ↔ firstFail datagrams.length results = true := by
  induction datagrams generalizing results out with
  | nil =>
    cases h
    simp [firstFail]
  | cons datagram datagrams ih =>
    obtain ⟨one, mid, more, hone, hmore, rfl⟩ := sendEach_cons h
    rw [List.length_cons]
    rcases sendOne_spec hone datagrams.length with ⟨rfl, hfail⟩ | ⟨rfl, hfail⟩
    · rw [hfail, List.nil_append, ih hmore]
    · simp [hfail]

lemma nodup_batch (f : ShardBuffers) (offset count : ℕ) : ((f.batch offset count).map Prod.fst).Nodup := by
  rw [f.map_fst_batch]
  exact List.nodup_range'

/-- After the first `p` shards of the batch the fall-back sends none twice just when its first `p` sends fail. -/
theorem nodup_fallback_iff (f : ShardBuffers) {offset count p : ℕ} (hp : p ≤ count) {results rest : List CallResult}
    {out : List (ℕ × Str)} (h : sendEach (f.batch offset count) results = some (out, rest)) :
    ((f.batch offset p ++ out).map Prod.fst).Nodup ↔ firstFail p results = true := by
  have hsplit := f.batch_add offset p (count - p)
  rw [Nat.add_sub_cancel' hp] at hsplit
  rw [hsplit] at h
  obtain ⟨first, mid, more, hfirst, hmore, rfl⟩ := sendEach_append h
  have hnil := sendEach_eq_nil_iff hfirst
  rw [f.length_batch] at hnil
  rw [← hnil]
  constructor
  · intro hnodup
    rw [List.map_append, List.map_append, List.nodup_append] at hnodup
    rw [List.eq_nil_iff_forall_not_mem]
    intro datagram hmem
    have hbatch : datagram ∈ f.batch offset p := (sublist_of_sendEach hfirst).subset hmem
    exact hnodup.2.2 datagram.1 (List.mem_map_of_mem hbatch) datagram.1
      (List.mem_append_left _ (List.mem_map_of_mem hmem)) rfl
  · rintro rfl
    have hsub : (f.batch offset p ++ ([] ++ more)).Sublist (f.batch offset count) := by
      rw [hsplit, List.nil_append]
      exact (List.Sublist.refl _).append (sublist_of_sendEach hmore)
    exact (nodup_batch f offset count).sublist (hsub.map Prod.fst)

/-! ### Exactly once -/

/-- Each shard of the batch is handed over exactly once and in order, or a call returned a hard error and then no shard
twice, and not as a success. -/
def Delivered (f : ShardBuffers) (offset count : ℕ) (results : List CallResult) (ok : Bool) (sent : List (ℕ × Str)) :
    Prop :=
  sent = f.batch offset count ∨
    (results.any CallResult.isHard = true ∧ (sent.map Prod.fst).Nodup ∧ ok = false)

/-- The calls from the first of the `sendmmsg` loop on have no failed `poll` in this loop, and after an error of
`sendmmsg` the sends of what was handed over before fail. -/
def MmsgHarmless (results : List CallResult) : Prop :=
  match untilHard results with
  | (_, []) => True
  | (p, .error :: rest) => firstFail p rest = true
  | (_, _ :: _) => False

/-- The same for all calls: an error of the first loop matters only after partial progress. -/
def Harmless (udpSegment : Bool) (results : List CallResult) : Prop :=
  if udpSegment then
    match untilHard results with
    | (_, []) => True
    | (0, _ :: rest) => MmsgHarmless rest
    | (p, _ :: rest) => firstFail p rest = true
  else MmsgHarmless results

instance (results : List CallResult) : Decidable (MmsgHarmless results) := by
  unfold MmsgHarmless
  split <;> infer_instance

instance (udpSegment : Bool) (results : List CallResult) : Decidable (Harmless udpSegment results) := by
  unfold Harmless
  split <;> [split; skip] <;> infer_instance

section Transmit

variable {f : ShardBuffers} {offset count : ℕ}

lemma batch_ne_of_lt {p : ℕ} (h : p < count) : f.batch offset p ≠ f.batch offset count := by
  intro heq
  have hlen := congrArg List.length heq
  rw [f.length_batch, f.length_batch] at hlen
  omega

lemma delivered_fallback_iff {p : ℕ} (hp : p ≤ count) {results rest : List CallResult} {out : List (ℕ × Str)}
    (hhard : results.any CallResult.isHard = true)
    (h : sendEach (f.batch offset count) rest = some (out, [])) :
    Delivered f offset count results false (f.batch offset p ++ out) ↔ firstFail p rest = true := by
  rw [← nodup_fallback_iff f hp h]
  constructor
  · rintro (heq | ⟨-, hnodup, -⟩)
    · rw [heq]
      exact nodup_batch f offset count
    · exact hnodup
  · intro hnodup
    exact Or.inr ⟨hhard, hnodup, rfl⟩

lemma afterBatch_false {out sent : List (ℕ × Str)} {rest : List CallResult} {ok : Bool}
    (h : afterBatch f offset count (false, out, rest) = some (ok, sent)) :
    ok = false ∧ ∃ out', sendEach (f.batch offset count) rest = some (out', []) ∧ sent = out ++ out' := by
  rw [afterBatch, if_neg Bool.false_ne_true, Option.bind_eq_some_iff] at h
  obtain ⟨⟨out', rest'⟩, hout, h⟩ := h
  obtain ⟨hrest, heq⟩ := Option.ite_none_right_eq_some.mp h
  obtain rfl : rest' = [] := hrest
  cases heq
  exact ⟨rfl, out', hout, rfl⟩

lemma afterBatch_true {out sent : List (ℕ × Str)} {rest : List CallResult} {ok : Bool}
    (h : afterBatch f offset count (true, out, rest) = some (ok, sent)) : ok = true ∧ rest = [] ∧ sent = out := by
  rw [afterBatch, if_pos rfl] at h
  obtain ⟨hrest, heq⟩ := Option.ite_none_right_eq_some.mp h
  cases heq
  exact ⟨rfl, hrest, rfl⟩

/-- What the loop with `sendmmsg` and the fall-back do with the calls left. -/
theorem delivered_mmsg_iff (hle : offset + count ≤ f.shards.length) {results calls rest : List CallResult}
    (hcalls : calls.any CallResult.isHard = true → results.any CallResult.isHard = true) {ok ok' : Bool}
    {out sent : List (ℕ × Str)} (hloop : (f.info offset count).mmsgLoop calls 0 = some (ok, out, rest))
    (h : afterBatch f offset count (ok, out, rest) = some (ok', sent)) :
    Delivered f offset count results ok' sent ↔ MmsgHarmless calls := by
  obtain ⟨p, rfl, hend⟩ := SendInfo.mmsgLoop_spec f hle (Nat.zero_le _) hloop
  rw [Nat.add_zero, Nat.zero_add] at *
  rcases hend with ⟨rfl, rfl, hrest⟩ | ⟨hp, rfl, huntil⟩ | ⟨hp, rfl, huntil⟩
  · obtain ⟨rfl, hnil, rfl⟩ := afterBatch_true h
    have huntil := hrest hnil
    rw [MmsgHarmless, huntil]
    exact iff_of_true (Or.inl rfl) trivial
  · obtain ⟨rfl, rfl, rfl⟩ := afterBatch_true h
    rw [MmsgHarmless, huntil]
    apply iff_of_false
    · rintro (heq | ⟨-, -, hok⟩)
      · exact batch_ne_of_lt hp heq
      · cases hok
    · exact id
  · obtain ⟨rfl, out', hout, rfl⟩ := afterBatch_false h
    rw [MmsgHarmless, huntil]
    exact delivered_fallback_iff hp.le (hcalls (hard_of_untilHard huntil)) hout

/-- **A batch is delivered exactly when no hard error that follows partial progress makes a shard be sent again.** -/
theorem delivered_iff {udpSegment ok : Bool} {results : List CallResult} {sent : List (ℕ × Str)}
    (hle : offset + count ≤ f.shards.length) (h : transmit udpSegment f offset count results = some (ok, sent)) :
    Delivered f offset count results ok sent ↔ Harmless udpSegment results := by
  rw [transmit, Option.bind_eq_some_iff] at h
  obtain ⟨⟨ok', out, rest⟩, hbatch, hafter⟩ := h
  cases udpSegment with
  | false =>
    rw [SendInfo.sendBatch, if_neg Bool.false_ne_true] at hbatch
    rw [Harmless, if_neg Bool.false_ne_true]
    exact delivered_mmsg_iff hle id hbatch hafter
  | true =>
    rw [SendInfo.sendBatch, if_pos rfl, Option.bind_eq_some_iff] at hbatch
    obtain ⟨⟨fin, out₁, rest₁⟩, hgso, hbatch⟩ := hbatch
    obtain ⟨p, rfl, rfl, hend⟩ := SendInfo.gsoLoop_spec f hle (Nat.zero_le _) hgso
    rw [Nat.add_zero, Nat.zero_add] at *
    rw [Harmless, if_pos rfl]
    rcases Nat.eq_zero_or_pos p with rfl | hp
    · -- nothing was sent: `sendmmsg` takes over with the calls left
      rw [if_neg (not_not.mpr rfl), Option.map_eq_some_iff] at hbatch
      obtain ⟨⟨ok'', out'', rest''⟩, hmmsg, heq⟩ := hbatch
      cases heq
      rw [ShardBuffers.batch, List.range'_zero, List.map_nil, List.nil_append] at hafter
      rcases hend with ⟨hfin, hrest⟩ | ⟨hfin, result, huntil⟩
      · obtain rfl : count = 0 := hfin.symm
        have hstop := SendInfo.mmsgLoop_stop (f.info offset 0) rest₁ (s := 0) (lt_irrefl 0)
        dsimp only at hmmsg
        rw [hstop] at hmmsg
        cases hmmsg
        obtain ⟨rfl, rfl, rfl⟩ := afterBatch_true hafter
        rw [hrest rfl]
        exact iff_of_true (Or.inl rfl) trivial
      · rw [huntil]
        exact delivered_mmsg_iff hle (fun _ => hard_of_untilHard huntil) hmmsg hafter
    · rw [if_pos (show p ≠ 0 by omega)] at hbatch
      cases hbatch
      rcases hend with ⟨hfin, hrest⟩ | ⟨hfin, result, huntil⟩
      · obtain rfl : p = count := hfin
        have hblock : decide ((f.info offset p).blockCount ≤ p) = true := decide_eq_true le_rfl
        dsimp only at hafter
        rw [hblock] at hafter
        obtain ⟨rfl, hnil, rfl⟩ := afterBatch_true hafter
        rw [hrest hnil]
        exact iff_of_true (Or.inl rfl) trivial
      · have hblock : decide ((f.info offset count).blockCount ≤ p) = false := decide_eq_false (not_le.mpr hfin)
        dsimp only at hafter
        rw [hblock] at hafter
        obtain ⟨rfl, out', hout, rfl⟩ := afterBatch_false hafter
        obtain ⟨p, rfl⟩ : ∃ p', p = p' + 1 := ⟨p - 1, by omega⟩
        rw [huntil]
        exact delivered_fallback_iff hfin.le (hard_of_untilHard huntil) hout

end Transmit

instance (f : ShardBuffers) (offset count : ℕ) (results : List CallResult) (ok : Bool) (sent : List (ℕ × Str)) :
    Decidable (Delivered f offset count results ok sent) := by
  unfold Delivered
  infer_instance

/-- Two shards of a byte each, one in the payload, with headers of a byte. -/
def twoShards : ShardBuffers where
  shards := [str "a", str "b"]
  blocksize := 1
  aligned := 1
  prefixsize := 1
  headers := str "12"
  nullHeaders := false
  blocksize_pos := by decide
  length_shard := by decide
  length_headers := by decide
  prefixsize_of_null := by decide

theorem delivered_two :
    Delivered twoShards 0 2 [.error, .sent 1, .sent 1] true [(0, str "1a"), (1, str "2b")] ↔
      Harmless true [.error, .sent 1, .sent 1] :=
  delivered_iff (by decide) (by decide)

/-- Without segmentation offload `sendmmsg` hands over the first of two shards and then fails. -/
def interrupted : List CallResult := [.error, .sent 1, .error, .sent 1, .sent 1]

theorem shard_sent_twice :
    transmit true twoShards 0 2 interrupted = some (false, [(0, str "1a"), (0, str "1a"), (1, str "2b")]) ∧
      ¬Delivered twoShards 0 2 interrupted false [(0, str "1a"), (0, str "1a"), (1, str "2b")] := by
  constructor <;> decide

end MidnightSun.Platf
