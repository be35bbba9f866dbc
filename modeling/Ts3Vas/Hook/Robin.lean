/-
The round robin of ProxyHeapAlloc: which entries of `s_proxyHeaps` a call reads, after any number of
calls of a counter that wraps.
-/
import Ts3Vas.Hook.Tiers

namespace Ts3Vas

open Prog

variable {σ : Type}

/-- The size of `s_proxyHeaps`. -/
def kMaxProxyHeapShards : ℕ := 8

/-! ## The loop -/

/-- `(start + k) % n`, on LONGs. -/
def robinIndex (start : ℤ) (n k : ℕ) : ℤ := (toLong (start + k)).tmod n

/-- The indices that a call reads, the whole loop long. -/
def robinReads (t : Tool) : List ℤ :=
  (List.range t.shards.length).map (robinIndex (toLong (t.proxyHeapRR + 1)) t.shards.length)

section
variable {o : Outcomes} {flags size : ℕ} {w : World σ}

theorem exec_callValue_fixed (c : RealCall) :
    exec (callValue (Env.fixed o : Env σ) c) w = ((o.reply c).value, { w with trace := w.trace ++ [c] }) := rfl

/-- The loop ends with null just if none of the handles that it reads takes the request. -/
theorem exec_proxyHeapTry (start : ℤ) (n : ℕ) : ∀ (ks : List ℕ) (w : World σ),
    ((exec (proxyHeapTry (Env.fixed o : Env σ) flags size start n ks) w).1 = 0 ↔
      ∀ k ∈ ks, o.serves flags size (o.handleAt w.tool (robinIndex start n k)) = false) ∧
    (exec (proxyHeapTry (Env.fixed o : Env σ) flags size start n ks) w).2.tool = w.tool
  | [], w => by simp [proxyHeapTry]
  | k :: ks, w => by
    have hh : proxyHeapAt (Env.fixed o : Env σ) w.tool ((toLong (start + k)).tmod n) =
        o.handleAt w.tool (robinIndex start n k) := rfl
    simp only [proxyHeapTry, exec_bind, exec_get, exec_ite, hh, List.forall_mem_cons]
    generalize he : o.handleAt w.tool (robinIndex start n k) = h
    have hlive : shardHandleLive (Env.fixed o : Env σ) h w = (h ≠ 0 && o.live h) := rfl
    rw [hlive]
    by_cases hl : (h ≠ 0 && o.live h) = true
    · rw [if_pos hl, Outcomes.serves, hl, Bool.true_and, exec_callValue_fixed]
      by_cases hv : (o.reply (.rtlAllocateHeap h (flags &&& HEAP_ZERO_MEMORY) size)).value = 0
      · have ih := exec_proxyHeapTry start n ks
          { w with trace := w.trace ++ [.rtlAllocateHeap h (flags &&& HEAP_ZERO_MEMORY) size] }
        simpa [hv] using ih
      · simp [hv]
    · rw [if_neg hl, Outcomes.serves, Bool.eq_false_iff.2 hl, Bool.false_and]
      simpa using exec_proxyHeapTry start n ks w

theorem exec_setInHook_tool (v : Bool) : (exec (setInHook v : Hook σ Unit) w).2.tool = w.tool := by
  simp only [setInHook, exec_modify]
  split <;> rfl

/-- The scope of a shard operation touches the thread's mark alone. -/
theorem exec_proxyHeapHookScope_fixed {α : Type} (m : Hook σ α) (w : World σ) : ∃ v, v.tool = w.tool ∧
    (exec (proxyHeapHookScope m) w).1 = (exec m v).1 ∧ (exec (proxyHeapHookScope m) w).2.tool = (exec m v).2.tool := by
  rw [proxyHeapHookScope, exec_bind, exec_get]
  by_cases hw : w.isInHook = true
  · rw [if_pos hw]
    exact ⟨w, rfl, rfl, rfl⟩
  · rw [if_neg hw]
    refine ⟨(exec (setInHook true : Hook σ Unit) w).2, exec_setInHook_tool true, rfl, ?_⟩
    simp only [exec_bind, exec_pure]
    rw [exec_setInHook_tool]

/-- A call moves the round robin on, and gives null just if the loop does. -/
theorem exec_proxyHeapAlloc (hn : w.tool.shards ≠ []) :
    ((exec (proxyHeapAlloc (Env.fixed o : Env σ) flags size) w).1 = 0 ↔
      ∀ i ∈ robinReads w.tool, o.serves flags size (o.handleAt w.tool i) = false) ∧
    (exec (proxyHeapAlloc (Env.fixed o : Env σ) flags size) w).2.tool =
      { w.tool with proxyHeapRR := toLong (w.tool.proxyHeapRR + 1) } := by
  have hlen : w.tool.shards.length ≠ 0 := by simpa using hn
  rw [proxyHeapAlloc, exec_bind, exec_get, if_neg hlen]
  obtain ⟨v, hv, hvalue, htool⟩ := exec_proxyHeapHookScope_fixed (do
    onTool fun t => { t with proxyHeapRR := toLong (t.proxyHeapRR + 1) }
    let w ← get
    proxyHeapTry (Env.fixed o : Env σ) flags size w.tool.proxyHeapRR w.tool.shards.length (List.range w.tool.shards.length)) w
  rw [hvalue, htool]
  rw [robinReads, List.forall_mem_map, ← hv]
  exact exec_proxyHeapTry (toLong (v.tool.proxyHeapRR + 1)) v.tool.shards.length (List.range v.tool.shards.length)
    { v with tool := { v.tool with proxyHeapRR := toLong (v.tool.proxyHeapRR + 1) } }

end

/-! ## The indices -/

/-- The values of a LONG. -/
theorem toLong_nat (m : ℕ) : toLong m = if m % 2 ^ 32 < 2 ^ 31 then ((m % 2 ^ 32 : ℕ) : ℤ) else (m % 2 ^ 32 : ℕ) - 2 ^ 32 := by
  rw [toLong, Int.bmod_def]
  split <;> split <;> omega

/-- The counter after `c` calls, and the offset, make one LONG. -/
theorem robinIndex_call (n c k : ℕ) :
    robinIndex (toLong (toLong c + 1)) n k = (toLong ((c + 1 + k : ℕ) : ℤ)).tmod n := by
  have h : toLong (toLong (toLong c + 1) + k) = toLong ((c + 1 + k : ℕ) : ℤ) := by
    simp only [toLong, add_assoc, Int.bmod_add_bmod]
    push_cast
    rfl
  rw [robinIndex, h]

/-- A negative number has no remainder from 0 on, except as a multiple. -/
theorem dvd_of_tmod_nonneg {x : ℤ} {n : ℕ} (hx : x < 0) (h : 0 ≤ x.tmod n) : (n : ℤ) ∣ x := by
  have hneg : 0 ≤ (-x).tmod n := Int.tmod_nonneg _ (by omega)
  rw [Int.neg_tmod] at hneg
  exact Int.dvd_of_tmod_eq_zero (by omega)

/-- No offset reaches the wrap of the counter, but for a last one that reaches a multiple of `n`. -/
def Unwrapped (n c : ℕ) : Prop :=
  n = 1 ∨ (c + 1) % 2 ^ 32 + n ≤ 2 ^ 31 ∨ ((c + 1) % 2 ^ 32 + n = 2 ^ 31 + 1 ∧ n ∣ 2 ^ 31)

instance decidableUnwrapped (n c : ℕ) : Decidable (Unwrapped n c) := inferInstanceAs (Decidable (_ ∨ _ ∨ _))

/-- Then the loop goes round the shards from the counter on. -/
theorem Unwrapped.index {n c : ℕ} (h : Unwrapped n c) {k : ℕ} (hk : k < n) (hn : n ≤ kMaxProxyHeapShards) :
    robinIndex (toLong (toLong c + 1)) n k = (((c + 1) % 2 ^ 32 + k) % n : ℕ) := by
  have h8 : n ≤ 8 := hn
  rw [robinIndex_call, toLong_nat]
  rcases h with rfl | hle | ⟨heq, hdvd⟩
  · simp [Nat.mod_one]
  · have hmod : (c + 1 + k) % 2 ^ 32 = (c + 1) % 2 ^ 32 + k := by omega
    rw [hmod, if_pos (by omega), Int.tmod_eq_emod_of_nonneg (by omega)]
    push_cast
    rfl
  · have hmod : (c + 1 + k) % 2 ^ 32 = (c + 1) % 2 ^ 32 + k := by omega
    rw [hmod]
    split
    · rw [Int.tmod_eq_emod_of_nonneg (by omega)]
      push_cast
      rfl
    · -- the last offset
      have hlast : (c + 1) % 2 ^ 32 + k = 2 ^ 31 := by omega
      rw [hlast, Nat.mod_eq_zero_of_dvd hdvd]
      apply Int.tmod_eq_zero_of_dvd
      have hz : (n : ℤ) ∣ 2 ^ 31 := by exact_mod_cast hdvd
      have : (((2 ^ 31 : ℕ) : ℤ) - 2 ^ 32) = -2 ^ 31 := by norm_num
      rw [this]
      exact (Int.dvd_neg).2 hz

/-- Outside of this, some offset reads before the array. -/
theorem unwrapped_of_nonneg {n c : ℕ} (h1 : 1 ≤ n) (hn : n ≤ kMaxProxyHeapShards)
    (h : ∀ k < n, 0 ≤ robinIndex (toLong (toLong c + 1)) n k) : Unwrapped n c := by
  have h8 : n ≤ 8 := hn
  have hdvd : ∀ k < n, toLong ((c + 1 + k : ℕ) : ℤ) < 0 → (n : ℤ) ∣ toLong ((c + 1 + k : ℕ) : ℤ) := by
    intro k hk hneg
    apply dvd_of_tmod_nonneg hneg
    rw [← robinIndex_call]
    exact h k hk
  by_contra hu
  simp only [Unwrapped, not_or, not_and] at hu
  obtain ⟨hone, hle, hlast⟩ := hu
  have hr : (c + 1) % 2 ^ 32 < 2 ^ 32 := Nat.mod_lt _ (by norm_num)
  -- two neighbours are not both multiples of n
  have htwo : ∀ x : ℤ, (n : ℤ) ∣ x → (n : ℤ) ∣ x - 1 → False := by
    intro x hx hx'
    have := Int.le_of_dvd (by norm_num) ((Int.dvd_sub hx hx').trans (by norm_num : x - (x - 1) ∣ 1))
    omega
  by_cases htop : (c + 1) % 2 ^ 32 + n ≤ 2 ^ 32
  · have hlong : ∀ k < n, 2 ^ 31 ≤ (c + 1) % 2 ^ 32 + k →
        toLong ((c + 1 + k : ℕ) : ℤ) = ((c + 1) % 2 ^ 32 : ℕ) + k - 2 ^ 32 := by
      intro k hk hb
      have hmod : (c + 1 + k) % 2 ^ 32 = (c + 1) % 2 ^ 32 + k := by omega
      rw [toLong_nat, hmod, if_neg (by omega)]
      push_cast
      ring
    have hn1 := hlong (n - 1) (by omega) (by omega)
    have hd1 := hdvd (n - 1) (by omega) (by omega)
    rw [hn1] at hd1
    by_cases hb : (c + 1) % 2 ^ 32 + n = 2 ^ 31 + 1
    · apply hlast hb
      have hx : (((c + 1) % 2 ^ 32 : ℕ) : ℤ) + ((n - 1 : ℕ) : ℤ) - 2 ^ 32 = -((2 ^ 31 : ℕ) : ℤ) := by
        push_cast
        omega
      rw [hx, Int.dvd_neg] at hd1
      exact_mod_cast hd1
    · have hn2 := hlong (n - 2) (by omega) (by omega)
      have hd2 := hdvd (n - 2) (by omega) (by omega)
      rw [hn2] at hd2
      apply htwo _ hd1
      convert hd2 using 1
      omega
  · -- the counter passes -1 on its way to 0
    have hk : 2 ^ 32 - 1 - (c + 1) % 2 ^ 32 < n := by omega
    have hlong : toLong ((c + 1 + (2 ^ 32 - 1 - (c + 1) % 2 ^ 32) : ℕ) : ℤ) = -1 := by
      have hmod : (c + 1 + (2 ^ 32 - 1 - (c + 1) % 2 ^ 32)) % 2 ^ 32 = 2 ^ 32 - 1 := by omega
      rw [toLong_nat, hmod, if_neg (by norm_num)]
      norm_num
    have hd := hdvd _ hk (by rw [hlong]; norm_num)
    rw [hlong, Int.dvd_neg] at hd
    have := Int.le_of_dvd (by norm_num) hd
    omega

/-- From any start, `n` steps round `n` places reach each of them once. -/
theorem range_rotated (r n : ℕ) : ((List.range n).map fun k => (r + k) % n).Perm (List.range n) := by
  apply List.Subperm.perm_of_length_le
  · apply List.Nodup.subperm
    · apply List.Nodup.map_on _ List.nodup_range
      intro i hi j hj hij
      have hi := List.mem_range.1 hi
      have hj := List.mem_range.1 hj
      exact Nat.ModEq.eq_of_lt_of_lt (Nat.ModEq.add_left_cancel' r hij) hi hj
    · intro x hx
      obtain ⟨k, hk, rfl⟩ := List.mem_map.1 hx
      have := List.mem_range.1 hk
      exact List.mem_range.2 (Nat.mod_lt _ (by omega))
  · simp

/-! ## After any number of calls -/

/-- A call of `ProxyHeapAlloc`, with what the shards answer to it. -/
structure ShardRequest where
  outcomes : Outcomes
  flags : ℕ
  size : ℕ

def ShardRequest.serve (w : World σ) (r : ShardRequest) : World σ :=
  (exec (proxyHeapAlloc (Env.fixed r.outcomes : Env σ) r.flags r.size) w).2

/-- The counter counts the calls, as far as a LONG can. -/
theorem tool_after {w : World σ} (hn : w.tool.shards ≠ []) (h0 : w.tool.proxyHeapRR = 0) (rs : List ShardRequest) :
    (Run.after ShardRequest.serve w rs).tool = { w.tool with proxyHeapRR := toLong rs.length } := by
  induction rs using List.reverseRecOn with
  | nil =>
    rw [Run.after_nil, List.length_nil, show toLong ((0 : ℕ) : ℤ) = w.tool.proxyHeapRR from h0.symm]
  | append_singleton rs r ih =>
    have hn' : (Run.after ShardRequest.serve w rs).tool.shards ≠ [] := by
      rw [ih]
      exact hn
    rw [Run.after_append, Run.after_cons, Run.after_nil, ShardRequest.serve, (exec_proxyHeapAlloc hn').2, ih]
    simp only [toLong, Int.bmod_add_bmod, List.length_append, List.length_singleton, Nat.cast_add, Nat.cast_one]

/-- The next call reads inside the published part of the array, each entry once, and gives null only when
every live shard refuses, whatever the shards answer. -/
structure TriesAll (w : World σ) : Prop where
  bounds : ∀ i ∈ robinReads w.tool, 0 ≤ i ∧ i < w.tool.shards.length
  once : (robinReads w.tool).Perm ((List.range w.tool.shards.length).map fun k : ℕ => (k : ℤ))
  refused : ∀ (o : Outcomes) (flags size : ℕ), (exec (proxyHeapAlloc (Env.fixed o : Env σ) flags size) w).1 = 0 →
    ∀ s ∈ w.tool.shards, o.serves flags size s.handle = false

theorem handleAt_shard {o : Outcomes} {t : Tool} {j : ℕ} (hj : j < t.shards.length) :
    o.handleAt t j = (t.shards[j]).handle := by
  simp [Outcomes.handleAt, proxyHeapAt, hj]

/-- Reading every entry once is enough for the rest. -/
theorem triesAll_of_once {w : World σ} (hn : w.tool.shards ≠ [])
    (h : (robinReads w.tool).Perm ((List.range w.tool.shards.length).map fun k : ℕ => (k : ℤ))) : TriesAll w := by
  constructor
  · intro i hi
    obtain ⟨k, hk, rfl⟩ := List.mem_map.1 (h.mem_iff.1 hi)
    have := List.mem_range.1 hk
    omega
  · exact h
  · intro o flags size hnull s hs
    obtain ⟨j, hj, rfl⟩ := List.mem_iff_getElem.1 hs
    rw [← handleAt_shard hj]
    apply ((exec_proxyHeapAlloc hn).1.1 hnull)
    rw [h.mem_iff]
    exact List.mem_map.2 ⟨j, List.mem_range.2 hj, rfl⟩

/-- After any number of calls the next one tries every shard, in bounds, exactly when the counter and its
offsets have not wrapped. -/
theorem triesAll_iff (w : World σ) (h1 : 1 ≤ w.tool.shards.length) (h8 : w.tool.shards.length ≤ kMaxProxyHeapShards)
    (h0 : w.tool.proxyHeapRR = 0) (rs : List ShardRequest) :
    TriesAll (Run.after ShardRequest.serve w rs) ↔ Unwrapped w.tool.shards.length rs.length := by
  have hn : w.tool.shards ≠ [] := List.ne_nil_of_length_pos h1
  have htool := tool_after hn h0 rs
  have hreads : robinReads (Run.after ShardRequest.serve w rs).tool = (List.range w.tool.shards.length).map
      (robinIndex (toLong (toLong rs.length + 1)) w.tool.shards.length) := by simp only [htool, robinReads]
  constructor
  · intro h
    apply unwrapped_of_nonneg h1 h8
    intro k hk
    apply (h.bounds _ _).1
    rw [hreads]
    exact List.mem_map.2 ⟨k, List.mem_range.2 hk, rfl⟩
  · intro h
    apply triesAll_of_once
    · rw [htool]
      exact hn
    · have hmap : (List.range w.tool.shards.length).map (robinIndex (toLong (toLong rs.length + 1)) w.tool.shards.length) =
          ((List.range w.tool.shards.length).map fun k =>
            ((rs.length + 1) % 2 ^ 32 + k) % w.tool.shards.length).map fun k : ℕ => (k : ℤ) := by
        rw [List.map_map]
        exact List.map_congr_left fun k hk => h.index (List.mem_range.1 hk) h8
      rw [hreads, hmap, htool]
      exact (range_rotated _ _).map _

/-- Three shards, as by default. -/
def threeShards : World Unit := ⟨(), { Tool.install Sys.arena1G with
  sys := Sys.after Sys.arena1G (List.replicate 3 (.allocate 0x3600000 false))
  shards := [⟨0x40000000, 0x40000000, 0x43600000⟩, ⟨0x43600000, 0x43600000, 0x46C00000⟩,
    ⟨0x46C00000, 0x46C00000, 0x4A200000⟩] }, ⟨false, false, false⟩, []⟩

theorem triesAll_second : TriesAll (Run.after ShardRequest.serve threeShards [⟨.plenty, 0, 100⟩]) :=
  (triesAll_iff threeShards (by decide) (by decide) rfl [⟨.plenty, 0, 100⟩]).2 (by decide)

/-- The call after the 2^31 - 1 that bring the counter to its top reads two entries before the array. -/
theorem wrapped_reads_before : ¬ TriesAll (Run.after ShardRequest.serve threeShards
      (List.replicate (2 ^ 31 - 1) ⟨.plenty, 0, 100⟩)) ∧
    -2 ∈ robinReads (Run.after ShardRequest.serve threeShards (List.replicate (2 ^ 31 - 1) ⟨.plenty, 0, 100⟩)).tool := by
  have htool := tool_after (w := threeShards) (by decide) rfl (List.replicate (2 ^ 31 - 1) ⟨.plenty, 0, 100⟩)
  rw [List.length_replicate] at htool
  have hmem : -2 ∈ robinReads (Run.after ShardRequest.serve threeShards
      (List.replicate (2 ^ 31 - 1) ⟨.plenty, 0, 100⟩)).tool := by
    rw [htool]
    decide
  refine ⟨fun h => ?_, hmem⟩
  have := (h.bounds _ hmem).1
  omega

end Ts3Vas
