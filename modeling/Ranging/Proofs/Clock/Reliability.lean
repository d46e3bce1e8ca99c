import Ranging.Proofs.Number.Double
import Ranging.Clock.RateFilter

/-!
# The bucket of a rate filter

Samples that are close to the value fill the bucket, others drain it, one step each. So a filter
that agreed with `b` samples takes `b` outliers without a trace, and only with an empty bucket does
an outlier become the value, if it is plausible. This holds of every filter that any samples made
(`feed_absorbing`), whatever floats they are.
-/
namespace Ranging.Clock.RateFilter

open Ranging.Number

variable {f : RateFilter} {s : Float}

/-! ### Plausible and close samples -/

theorem reads_lowest : Reads lowest 0x1fffd60e94ee39 (-53) :=
  ⟨⟨by decide, by decide, by decide, by decide⟩, rfl⟩

theorem reads_highest : Reads highest 0x100014f8b588e3 (-52) :=
  ⟨⟨by decide, by decide, by decide, by decide⟩, rfl⟩

theorem isPlausible_iff : isPlausible s = true ↔ lowest < s ∧ s < highest := by
  simp [isPlausible]

/-- Plausible samples are normal floats just below one or just above. -/
theorem exists_reads_of_isPlausible (h : isPlausible s = true) : ∃ m e, Reads s m e :=
  reads_lowest.of_between reads_highest (by decide) (isPlausible_iff.mp h).1
    (isPlausible_iff.mp h).2

/-- A plausible value is close to itself. -/
theorem isClose_value (h : isPlausible f.value = true) : f.isClose f.value = true := by
  obtain ⟨m, e, hreads⟩ := exists_reads_of_isPlausible h
  refine decide_eq_true (lt_iff.mpr ?_)
  have habs : (f.value - f.value).abs.toModel.unpack = .zero .positive := by
    show (Float.Model.pack (f.value - f.value).toModel.unpack.abs).unpack = _
    rw [hreads.unpack_sub_self]
    rfl
  rw [habs]
  rfl

theorem isClose_of_isNaN (h : s.isNaN = true) (f : RateFilter) : f.isClose s = false :=
  decide_eq_false (not_lt_of_isNaN (isNaN_abs (isNaN_sub h f.value)) acceptedNoise).1

theorem isPlausible_of_isNaN (h : s.isNaN = true) : isPlausible s = false := by
  rw [← Bool.not_eq_true, isPlausible_iff]
  exact fun hs => (not_lt_of_isNaN h lowest).2 hs.1

/-! ### One sample -/

/-- Exactly the close samples are reliable. -/
theorem update_reliable (f : RateFilter) (s : Float) : (f.update s).2 = f.isClose s := by
  unfold update
  split
  · simp [*]
  · split
    · simp [*]
    · split <;> simp [*]

/-- With something in the bucket, all that an outlier changes is the bucket. -/
theorem update_outlier (h : f.isClose s = false) (hpos : 0 < f.bucket) :
    (f.update s).1 = ⟨f.value, f.bucket - 1⟩ := by
  simp [update, h, hpos]

/-- With an empty bucket a plausible outlier becomes the value. -/
theorem update_empty (h : f.isClose s = false) (hempty : f.bucket = 0) :
    (f.update s).1 = if isPlausible s then ⟨s, 0⟩ else f := by
  obtain ⟨value, bucket⟩ := f
  obtain rfl : bucket = 0 := hempty
  simp only [update, h, Bool.false_eq_true, if_false, Nat.lt_irrefl]
  split <;> rfl

theorem bucket_update_close (h : f.isClose s = true) (hle : f.bucket ≤ bucketSize) :
    (f.update s).1.bucket = min (f.bucket + 1) bucketSize := by
  simp only [update, h, if_true]
  split <;> omega

theorem bucket_update_le (hle : f.bucket ≤ bucketSize) (s : Float) :
    (f.update s).1.bucket ≤ bucketSize := by
  cases hclose : f.isClose s with
  | true =>
    rw [bucket_update_close hclose hle]
    exact Nat.min_le_right _ _
  | false =>
    rcases Nat.eq_zero_or_pos f.bucket with hempty | hpos
    · rw [update_empty hclose hempty]
      split
      · exact Nat.zero_le _
      · exact hle
    · rw [update_outlier hclose hpos]
      exact Nat.le_trans (Nat.sub_le _ _) hle

/-- With an empty bucket exactly the plausible outliers change the value. -/
theorem value_update_ne_iff (h : f.isClose s = false) (hempty : f.bucket = 0) :
    (f.update s).1.value ≠ f.value ↔ isPlausible s = true := by
  rw [update_empty h hempty]
  by_cases hs : isPlausible s = true
  · rw [if_pos hs, iff_true_right hs]
    -- a plausible value would have been close to itself
    rintro rfl
    rw [isClose_value hs] at h
    cases h
  · simp [hs]

theorem value_update_of_isNaN (h : s.isNaN = true) (f : RateFilter) :
    (f.update s).1.value = f.value := by
  have hfar := isClose_of_isNaN h f
  rcases Nat.eq_zero_or_pos f.bucket with hempty | hpos
  · rw [update_empty hfar hempty, isPlausible_of_isNaN h]
    rfl
  · rw [update_outlier hfar hpos]

/-! ### Runs of samples -/

/-- The filter after several samples, one after the other. -/
def feed (f : RateFilter) (samples : List Float) : RateFilter :=
  samples.foldl (fun f s => (f.update s).1) f

@[simp] theorem feed_nil (f : RateFilter) : f.feed [] = f := rfl

@[simp] theorem feed_cons (f : RateFilter) (s : Float) (samples : List Float) :
    f.feed (s :: samples) = (f.update s).1.feed samples := rfl

/-- Every sample of a run is as required of it when its turn comes. -/
def Throughout (P : RateFilter → Float → Prop) : RateFilter → List Float → Prop
  | _, [] => True
  | f, s :: samples => P f s ∧ Throughout P (f.update s).1 samples

instance {P : RateFilter → Float → Prop} [∀ f s, Decidable (P f s)] :
    (f : RateFilter) → (samples : List Float) → Decidable (f.Throughout P samples)
  | _, [] => .isTrue trivial
  | f, s :: samples =>
    have := instDecidableThroughout (P := P) (f.update s).1 samples
    inferInstanceAs (Decidable (P f s ∧ (f.update s).1.Throughout P samples))

/-- A close sample, or an outlier. -/
def Judged (close : Bool) (f : RateFilter) (s : Float) : Prop := f.isClose s = close

theorem bucket_feed_le (hle : f.bucket ≤ bucketSize) (samples : List Float) :
    (f.feed samples).bucket ≤ bucketSize := by
  induction samples generalizing f with
  | nil => exact hle
  | cons s rest ih => exact ih (bucket_update_le hle s)

/-- Close samples fill the bucket. -/
theorem bucket_feed_close {run : List Float} (hle : f.bucket ≤ bucketSize)
    (h : f.Throughout (Judged true) run) :
    (f.feed run).bucket = min (f.bucket + run.length) bucketSize := by
  induction run generalizing f with
  | nil => exact (Nat.min_eq_left hle).symm
  | cons s rest ih =>
    rw [feed_cons, ih (bucket_update_le hle s) h.2, bucket_update_close h.1 hle, List.length_cons]
    omega

/-- Outliers drain the bucket and change nothing else while there is something in it. -/
theorem feed_outliers {run : List Float} (h : f.Throughout (Judged false) run)
    (hle : run.length ≤ f.bucket) : f.feed run = ⟨f.value, f.bucket - run.length⟩ := by
  induction run generalizing f with
  | nil => rfl
  | cons s rest ih =>
    rw [List.length_cons] at hle
    have hstep := update_outlier h.1 (by omega)
    have hrest := ih h.2 (by rw [hstep]; exact Nat.le_sub_one_of_lt hle)
    rw [feed_cons, hrest, hstep, List.length_cons, Nat.sub_sub, Nat.add_comm]

/-! ### What the bucket is for -/

/-- How a filter takes samples, one or many. -/
structure Absorbing (f : RateFilter) : Prop where
  bucket : f.bucket ≤ bucketSize
  reliable : ∀ s, (f.update s).2 = true ↔ (s - f.value).abs < acceptedNoise
  /-- A close sample puts one into the bucket. -/
  raised : ∀ s, f.isClose s = true → (f.update s).1.bucket = min (f.bucket + 1) bucketSize
  filled : f.bucket = 0 → ∀ run, f.Throughout (Judged true) run →
    (f.feed run).bucket = min run.length bucketSize
  /-- As many outliers as there are in the bucket do not touch the value. -/
  drained : ∀ run, f.Throughout (Judged false) run → run.length ≤ f.bucket →
    (f.feed run).value = f.value ∧ (f.feed run).bucket = f.bucket - run.length
  /-- With an empty bucket a plausible outlier becomes the value, any other changes nothing. -/
  replaced : f.bucket = 0 → ∀ s, f.isClose s = false →
    (f.update s).1 = if lowest < s ∧ s < highest then ⟨s, 0⟩ else f
  changed : f.bucket = 0 → ∀ s, f.isClose s = false →
    ((f.update s).1.value ≠ f.value ↔ lowest < s ∧ s < highest)
  notANumber : ∀ s, s.isNaN = true → (f.update s).1.value = f.value

/-- Whatever samples a filter took before, it absorbs outliers. -/
theorem feed_absorbing (samples : List Float) : (fresh.feed samples).Absorbing := by
  have hle : (fresh.feed samples).bucket ≤ bucketSize := bucket_feed_le (Nat.zero_le _) samples
  generalize fresh.feed samples = f at hle
  exact {
    bucket := hle
    reliable := fun s => by rw [update_reliable, isClose, decide_eq_true_iff]
    raised := fun _ hclose => bucket_update_close hclose hle
    filled := fun hempty run hrun => by rw [bucket_feed_close hle hrun, hempty, Nat.zero_add]
    drained := fun run hrun hlength => by rw [feed_outliers hrun hlength]; exact ⟨rfl, rfl⟩
    replaced := fun hempty s hfar => by
      rw [update_empty hfar hempty, if_congr isPlausible_iff rfl rfl]
    changed := fun hempty s hfar => by rw [value_update_ne_iff hfar hempty, isPlausible_iff]
    notANumber := fun _ hs => value_update_of_isNaN hs f }

end Ranging.Clock.RateFilter
