import ChronosX.Types
import Mathlib.Data.List.Induction
import Mathlib.Order.Bounds.Basic
import Mathlib.Algebra.BigOperators.Group.Finset.Basic

/-!
# The latency histogram

`LatencyHistogram` of `tui.hpp` keeps one counter per decade, the number and the sum of the samples,
and the smallest and the largest of them. All of them are 64 bits wide.
-/

namespace ChronosX

def kHistogramBucketCount : ℕ := 16

/-- Of the counters those below `kHistogramBucketCount` exist. -/
structure LatencyHistogram where
  counts : ℕ → UInt64 := fun _ => 0
  totalCount : UInt64 := 0
  totalSumNs : UInt64 := 0
  minNs : UInt64 := 0
  maxNs : UInt64 := 0

namespace LatencyHistogram

def bucketFor (ns : UInt64) : ℕ :=
  if ns < 1000 then 0
  else if ns < 10000 then 1
  else if ns < 100000 then 2
  else if ns < 1000000 then 3
  else if ns < 10000000 then 4
  else if ns < 100000000 then 5
  else if ns < 1000000000 then 6
  else 7

variable (h : LatencyHistogram)

def record (latencyNs : UInt64) : LatencyHistogram :=
  let bucket := bucketFor latencyNs
  let totalCount := h.totalCount + 1
  { counts := Function.update h.counts bucket (h.counts bucket + 1)
    totalCount
    totalSumNs := h.totalSumNs + latencyNs
    minNs := if latencyNs < h.minNs ∨ totalCount = 1 then latencyNs else h.minNs
    maxNs := if latencyNs > h.maxNs then latencyNs else h.maxNs }

def count (bucket : ℕ) : UInt64 := if bucket < kHistogramBucketCount then h.counts bucket else 0

def total : UInt64 := h.totalCount

def averageNs : UInt64 := if h.totalCount > 0 then h.totalSumNs / h.totalCount else 0

/-- The decade that a bucket stands for: below a microsecond, six decades, and a second or more. -/
def InBucket (bucket ns : ℕ) : Prop :=
  bucket < 8 ∧ (0 < bucket → 10 ^ (bucket + 2) ≤ ns) ∧ (bucket < 7 → ns < 10 ^ (bucket + 3))

instance (bucket ns : ℕ) : Decidable (InBucket bucket ns) := inferInstanceAs (Decidable (_ ∧ _ ∧ _))

/-- A number lies in one decade. -/
lemma InBucket.unique {bucket bucket' ns : ℕ} (h : InBucket bucket ns) (h' : InBucket bucket' ns) :
    bucket = bucket' := by
  -- a larger bucket starts where the smaller one has ended
  have hnot : ∀ {b b'}, InBucket b ns → InBucket b' ns → ¬ b < b' := by
    rintro b b' ⟨-, -, hhigh⟩ ⟨hlt, hlow, -⟩ hbb
    have hpow : 10 ^ (b + 3) ≤ 10 ^ (b' + 2) := Nat.pow_le_pow_right (by decide) (by omega)
    exact absurd (hhigh (by omega)) (Nat.not_lt.mpr (hpow.trans (hlow (Nat.zero_lt_of_lt hbb))))
  exact Nat.le_antisymm (Nat.not_lt.mp (hnot h' h)) (Nat.not_lt.mp (hnot h h'))

/-- `bucket_for` finds the decade of a sample. -/
lemma inBucket_bucketFor (ns : UInt64) : InBucket (bucketFor ns) ns.toNat := by
  simp only [bucketFor, UInt64.lt_iff_toNat_lt, UInt64.reduceToNat]
  split_ifs <;> simp [InBucket] <;> omega

lemma inBucket_iff (bucket : ℕ) (ns : UInt64) :
    InBucket bucket ns.toNat ↔ bucketFor ns = bucket :=
  ⟨fun hin => (inBucket_bucketFor ns).unique hin, fun heq => heq ▸ inBucket_bucketFor ns⟩

/-- The samples recorded, one after another, on a fresh histogram. -/
def ofSamples (samples : List UInt64) : LatencyHistogram := samples.foldl record {}

/-- What the histogram says about the samples it has recorded. -/
structure Summarises (h : LatencyHistogram) (samples : List UInt64) : Prop where
  counts_eq : ∀ bucket,
    (h.counts bucket).toNat = samples.countP fun ns => InBucket bucket ns.toNat
  totalCount_eq : h.totalCount.toNat = samples.length
  totalSumNs_eq : h.totalSumNs.toNat = (samples.map UInt64.toNat).sum % 2 ^ 64
  le_maxNs : ∀ ns ∈ samples, ns ≤ h.maxNs
  maxNs_mem : h.maxNs ∈ 0 :: samples
  minNs_le : ∀ ns ∈ samples, h.minNs ≤ ns
  minNs_mem : samples ≠ [] → h.minNs ∈ samples

section

variable {h : LatencyHistogram} {samples : List UInt64}

/-- The counter of the sample's decade goes up by one. -/
lemma counts_record (h : LatencyHistogram) (ns : UInt64) (bucket : ℕ) :
    (h.record ns).counts bucket =
      h.counts bucket + if InBucket bucket ns.toNat then 1 else 0 := by
  simp only [inBucket_iff]
  split_ifs with hbucket
  · simp [record, hbucket]
  · simp [record, Ne.symm hbucket]

lemma summarises_nil : Summarises {} [] where
  counts_eq _ := rfl
  totalCount_eq := rfl
  totalSumNs_eq := rfl
  le_maxNs := by simp
  maxNs_mem := by simp
  minNs_le := by simp
  minNs_mem := by simp

/-- `total_count_ == 1` holds for the first sample only. -/
lemma Summarises.first_iff (hs : h.Summarises samples) (hlength : samples.length + 1 < 2 ^ 64) :
    h.totalCount + 1 = 1 ↔ samples = [] := by
  rw [← UInt64.toNat_inj, UInt64.toNat_add, hs.totalCount_eq, ← List.length_eq_zero_iff]
  change (samples.length + 1) % 2 ^ 64 = 1 ↔ _
  rw [Nat.mod_eq_of_lt hlength, Nat.add_eq_right]

/-- Recording one more sample keeps the summary right, up to the 2⁶⁴-th. -/
lemma Summarises.record (hs : h.Summarises samples) (hlength : samples.length + 1 < 2 ^ 64)
    (ns : UInt64) : (h.record ns).Summarises (samples ++ [ns]) where
  counts_eq bucket := by
    have hle := samples.countP_le_length (p := fun ns => InBucket bucket ns.toNat)
    rw [counts_record, List.countP_append, List.countP_singleton, UInt64.toNat_add, hs.counts_eq]
    simp only [decide_eq_true_eq, apply_ite UInt64.toNat, UInt64.reduceToNat]
    split_ifs
    · exact Nat.mod_eq_of_lt (by omega)
    · exact Nat.mod_eq_of_lt (by omega)
  totalCount_eq := by
    change (h.totalCount + 1).toNat = _
    rw [UInt64.toNat_add, hs.totalCount_eq, List.length_append]
    exact Nat.mod_eq_of_lt hlength
  totalSumNs_eq := by
    change (h.totalSumNs + ns).toNat = _
    rw [UInt64.toNat_add, hs.totalSumNs_eq, List.map_append, List.sum_append]
    simp
  le_maxNs x hx := by
    rw [List.mem_append, List.mem_singleton] at hx
    simp only [LatencyHistogram.record]
    split_ifs with hgt
    · obtain hx | rfl := hx
      · exact UInt64.le_trans (hs.le_maxNs x hx) (UInt64.le_of_lt hgt)
      · exact UInt64.le_refl x
    · obtain hx | rfl := hx
      · exact hs.le_maxNs x hx
      · exact UInt64.not_lt.mp hgt
  maxNs_mem := by
    simp only [LatencyHistogram.record, ← List.cons_append]
    split_ifs with hgt
    · exact List.mem_append_right _ (List.mem_singleton_self ns)
    · exact List.mem_append_left _ hs.maxNs_mem
  minNs_le x hx := by
    rw [List.mem_append, List.mem_singleton] at hx
    simp only [LatencyHistogram.record, hs.first_iff hlength]
    split_ifs with hlt
    · obtain hx | rfl := hx
      · obtain hlt | rfl := hlt
        · exact UInt64.le_trans (UInt64.le_of_lt hlt) (hs.minNs_le x hx)
        · simp at hx
      · exact UInt64.le_refl x
    · obtain hx | rfl := hx
      · exact hs.minNs_le x hx
      · exact UInt64.not_lt.mp fun hless => hlt (Or.inl hless)
  minNs_mem _ := by
    simp only [LatencyHistogram.record, hs.first_iff hlength]
    split_ifs with hlt
    · exact List.mem_append_right _ (List.mem_singleton_self ns)
    · exact List.mem_append_left _ (hs.minNs_mem fun hnil => hlt (Or.inr hnil))

/-- The summary after a whole run. -/
lemma summarises_ofSamples (samples : List UInt64) (hlength : samples.length < 2 ^ 64) :
    (ofSamples samples).Summarises samples := by
  induction samples using List.reverseRecOn with
  | nil => exact summarises_nil
  | append_singleton samples ns ih =>
    rw [List.length_append, List.length_singleton] at hlength
    rw [ofSamples, List.foldl_append]
    exact (ih (Nat.lt_of_succ_lt hlength)).record hlength ns

lemma Summarises.max_eq (hs : h.Summarises samples) (hnil : samples ≠ []) :
    (samples.map UInt64.toNat).max? = some h.maxNs.toNat := by
  rw [List.max?_eq_some_iff]
  simp only [List.forall_mem_map]
  refine ⟨?_, hs.le_maxNs⟩
  obtain hzero | hmem := List.mem_cons.mp hs.maxNs_mem
  · -- no sample is above zero, so all of them are zero
    obtain ⟨ns, hns⟩ := List.exists_mem_of_ne_nil samples hnil
    have hle : ns ≤ 0 := hzero ▸ hs.le_maxNs ns hns
    have hns0 : ns = 0 := UInt64.le_antisymm hle UInt64.zero_le
    exact List.mem_map.mpr ⟨ns, hns, by rw [hns0, hzero]⟩
  · exact List.mem_map_of_mem hmem

lemma Summarises.min_eq (hs : h.Summarises samples) (hnil : samples ≠ []) :
    (samples.map UInt64.toNat).min? = some h.minNs.toNat := by
  rw [List.min?_eq_some_iff]
  simp only [List.forall_mem_map]
  exact ⟨List.mem_map_of_mem (hs.minNs_mem hnil), hs.minNs_le⟩

lemma Summarises.count_eq (hs : h.Summarises samples) (bucket : ℕ) :
    (h.count bucket).toNat = samples.countP fun ns => InBucket bucket ns.toNat := by
  rw [count]
  split_ifs with hbucket
  · exact hs.counts_eq bucket
  · -- there is no such decade
    symm
    rw [UInt64.toNat_zero, List.countP_eq_zero]
    rintro ns -
    have hout : ¬ InBucket bucket ns.toNat :=
      fun hin => hbucket (hin.1.trans (by decide))
    simpa using hout

lemma sum_countP_inBucket (samples : List UInt64) :
    ∑ bucket ∈ Finset.range 8, samples.countP (fun ns => InBucket bucket ns.toNat) =
      samples.length := by
  have hcount : ∀ bucket, samples.countP (fun ns => InBucket bucket ns.toNat) =
      (samples.map bucketFor : Multiset ℕ).count bucket := by
    intro bucket
    rw [Multiset.coe_count, List.count, List.countP_map]
    congr 1
    funext ns
    simp only [inBucket_iff]
    rfl
  have hrange : ∀ bucket ∈ (samples.map bucketFor : Multiset ℕ), bucket ∈ Finset.range 8 := by
    intro bucket hbucket
    obtain ⟨ns, -, rfl⟩ := List.mem_map.mp (Multiset.mem_coe.mp hbucket)
    exact Finset.mem_range.mpr (inBucket_bucketFor ns).1
  simp only [hcount]
  rw [Multiset.sum_count_eq_card hrange, Multiset.coe_card, List.length_map]

lemma Summarises.averageNs_eq (hs : h.Summarises samples)
    (hsum : (samples.map UInt64.toNat).sum < 2 ^ 64) :
    h.averageNs.toNat = (samples.map UInt64.toNat).sum / samples.length := by
  have htotal := hs.totalCount_eq
  rw [averageNs]
  split_ifs with hpos
  · rw [UInt64.toNat_div, hs.totalSumNs_eq, htotal, Nat.mod_eq_of_lt hsum]
  · have hzero : h.totalCount = 0 := UInt64.le_antisymm (UInt64.not_lt.mp hpos) UInt64.zero_le
    rw [← htotal, hzero, UInt64.toNat_zero, Nat.div_zero]

end

/-- Fewer than 2⁶⁴ samples are summarised exactly: every sample is counted in its own decade and in
no other, and the total, the smallest and the largest sample are right. The average is the mean,
rounded down, while the sum fits into 64 bits. -/
theorem histogram_exact (samples : List UInt64) (hlength : samples.length < 2 ^ 64) :
    (ofSamples samples).total.toNat = samples.length ∧
    (∀ bucket, ((ofSamples samples).count bucket).toNat =
      samples.countP fun ns => InBucket bucket ns.toNat) ∧
    ∑ bucket ∈ Finset.range 8, ((ofSamples samples).count bucket).toNat = samples.length ∧
    (samples ≠ [] → (samples.map UInt64.toNat).min? = some (ofSamples samples).minNs.toNat) ∧
    (samples ≠ [] → (samples.map UInt64.toNat).max? = some (ofSamples samples).maxNs.toNat) ∧
    ((samples.map UInt64.toNat).sum < 2 ^ 64 →
      (ofSamples samples).averageNs.toNat =
        (samples.map UInt64.toNat).sum / samples.length) := by
  have hs := summarises_ofSamples samples hlength
  refine ⟨hs.totalCount_eq, hs.count_eq, ?_, hs.min_eq, hs.max_eq, hs.averageNs_eq⟩
  simp only [hs.count_eq]
  exact sum_countP_inBucket samples

/-- Four samples of three decades, not in order. -/
theorem histogram_exact_four :
    (ofSamples [5000, 500, 50000, 700]).minNs = 500 ∧
    ((ofSamples [5000, 500, 50000, 700]).count 0).toNat = 2 ∧
    (ofSamples [5000, 500, 50000, 700]).averageNs.toNat = 14050 := by
  obtain ⟨-, hcount, -, hmin, -, haverage⟩ := histogram_exact [5000, 500, 50000, 700] (by decide)
  refine ⟨?_, hcount 0, haverage (by decide)⟩
  exact UInt64.toNat_inj.mp (Option.some.inj (hmin (by decide))).symm

end LatencyHistogram

end ChronosX
