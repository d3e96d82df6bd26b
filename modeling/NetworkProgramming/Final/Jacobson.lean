import NetworkProgramming.Final.Samples
import NetworkProgramming.Lib.Ewma

/-!
# Jacobson's deviation

`EstimatedDEV` is meant to be the moving average, with gain 1/4, of the distances between the
samples and the estimates of the round-trip time before them. `abs` is the function on `int`, so
what is averaged are these distances rounded down to whole seconds. `jacobson_iff` says for which
samples this makes no difference; `sameEstimates_of_run` connects the samples with the runs.
-/

namespace NetworkProgramming

/-- The distances on which `abs` is exact are the whole numbers. -/
lemma cAbs_eq_iff (x : ℚ) : (cAbs x : ℚ) = |x| ↔ ∃ n : ℕ, |x| = n := by
  constructor
  · intro h
    have hnonneg : 0 ≤ cAbs x := Int.floor_nonneg.mpr (abs_nonneg x)
    obtain ⟨n, hn⟩ := Int.eq_ofNat_of_zero_le hnonneg
    exact ⟨n, by rw [← h, hn]; rfl⟩
  · rintro ⟨n, hn⟩
    rw [cAbs, hn, Int.floor_natCast]
    rfl

namespace Estimator

/-- The estimates after the sample `x` is used, which lies in `ElapsedSeconds`. -/
def use (e : Estimator) (x : ℚ) : Estimator := { e with elapsedSeconds := x }.sent e.sendTime

/-- The estimates after the samples `xs`. -/
def after (xs : List ℚ) : Estimator := xs.foldl use {}

/-- The distances between samples and the estimates before them. -/
def deviations (e : Estimator) : List ℚ → List ℚ
  | [] => []
  | x :: xs => |x - e.estimatedRTTprev| :: (e.use x).deviations xs

lemma after_snoc (xs : List ℚ) (x : ℚ) : after (xs ++ [x]) = (after xs).use x := by
  rw [after, List.foldl_append]
  rfl

lemma deviations_append (e : Estimator) (xs ys : List ℚ) :
    e.deviations (xs ++ ys) = e.deviations xs ++ (xs.foldl use e).deviations ys := by
  induction xs generalizing e with
  | nil => rfl
  | cons x xs ih => rw [List.cons_append, deviations, deviations, ih]; rfl

/-! ## Samples along a run -/

/-- The two estimates the next update starts from. -/
def SameEstimates (e e' : Estimator) : Prop :=
  e.estimatedRTTprev = e'.estimatedRTTprev ∧ e.estimatedDEVprev = e'.estimatedDEVprev

/-- The update reads nothing but the sample and the two estimates. -/
lemma SameEstimates.sent {e e' : Estimator} (h : e.SameEstimates e') (now : Timeval) :
    (e.sent now).SameEstimates (e'.use e.sample) := by
  have hpos := e.sample_pos
  have hsample : (if e.sample ≤ 0 then 1 / 100 else e.sample) = e.sample := if_neg (not_le.mpr hpos)
  constructor
  · simp only [use, Estimator.sent, hsample, ← h.1]
    rfl
  · simp only [use, Estimator.sent, hsample, ← h.1, ← h.2]
    rfl

/-- The estimates depend on the notes through the samples. -/
lemma sameEstimates_of_sampled {e e' : Estimator} {notes : List RttNote} (h : e.SameEstimates e')
    (hsampled : e.Sampled notes) :
    (notes.foldl note e).SameEstimates ((samplesOf notes).foldl use e') ∧
      ∀ x ∈ samplesOf notes, 0 < x := by
  induction notes generalizing e e' with
  | nil => exact ⟨h, by simp [samplesOf]⟩
  | cons n notes ih =>
    cases n with
    | sent p time x =>
      obtain ⟨rfl, hrest⟩ := hsampled
      obtain ⟨hsame, hpos⟩ := ih (h.sent time) hrest
      refine ⟨hsame, fun y hy => ?_⟩
      rcases List.mem_cons.mp hy with rfl | hy
      · exact e.sample_pos
      · exact hpos y hy
    | acked p valid time => exact ih (e := e.acked time) h hsampled

/-! ## The average -/

/-- What Jacobson's algorithm promises of the samples `xs`: at every moment the deviation is the
moving average of the distances, and when these are at least `d`, neither it nor the margin of the
timeout falls below the start or `d`. -/
structure Jacobson (xs : List ℚ) : Prop where
  average : ∀ pre, pre <+: xs →
    (after pre).estimatedDEVprev = ewma (1 / 4) (1 / 100) (deviations {} pre)
  deviation : ∀ d > 0, (∀ y ∈ deviations {} xs, d ≤ y) →
    ∀ pre, pre <+: xs → min (1 / 100) d ≤ (after pre).estimatedDEVprev
  margin : ∀ d > 0, (∀ y ∈ deviations {} xs, d ≤ y) → ∀ pre x, pre ++ [x] <+: xs →
    (after pre).estimatedRTTprev + 4 * min (1 / 100) d ≤ (after (pre ++ [x])).estimatedRTO

/-- The deviation after one more sample. -/
lemma after_snoc_dev (xs : List ℚ) {x : ℚ} (hx : 0 < x) :
    (after (xs ++ [x])).estimatedDEVprev = (1 - 1 / 4) * (after xs).estimatedDEVprev
      + 1 / 4 * cAbs (x - (after xs).estimatedRTTprev) := by
  rw [after_snoc]
  simp only [use, sent, if_neg (not_le.mpr hx)]

/-- One more sample keeps the average right exactly when its distance is whole. -/
lemma average_snoc {xs : List ℚ} {x : ℚ} (hx : 0 < x)
    (h : (after xs).estimatedDEVprev = ewma (1 / 4) (1 / 100) (deviations {} xs)) :
    (after (xs ++ [x])).estimatedDEVprev
        = ewma (1 / 4) (1 / 100) (deviations {} (xs ++ [x])) ↔
      ∃ n : ℕ, |x - (after xs).estimatedRTTprev| = n := by
  have hlast : deviations {} (xs ++ [x])
      = deviations {} xs ++ [|x - (after xs).estimatedRTTprev|] := deviations_append _ _ _
  rw [hlast, ewma_snoc, after_snoc_dev xs hx, h, ewma_snoc_inj (by norm_num), cAbs_eq_iff]

/-- The average is right throughout exactly when all distances are whole. -/
lemma average_iff {xs : List ℚ} (hxs : ∀ x ∈ xs, 0 < x) :
    (∀ pre, pre <+: xs →
      (after pre).estimatedDEVprev = ewma (1 / 4) (1 / 100) (deviations {} pre)) ↔
    ∀ y ∈ deviations {} xs, ∃ n : ℕ, y = n := by
  induction xs using List.reverseRecOn with
  | nil =>
    have hstart : ∀ pre, pre <+: ([] : List ℚ) →
        (after pre).estimatedDEVprev = ewma (1 / 4) (1 / 100) (deviations {} pre) := by
      intro pre hpre
      rw [List.prefix_nil.mp hpre]
      rfl
    exact iff_of_true hstart (by simp [deviations])
  | append_singleton xs x ih =>
    have hlast : deviations {} (xs ++ [x])
        = deviations {} xs ++ [|x - (after xs).estimatedRTTprev|] := deviations_append _ _ _
    have hx : 0 < x := hxs x (by simp)
    specialize ih fun y hy => hxs y (List.mem_append_left _ hy)
    constructor
    · intro h y hy
      have hbefore := fun pre hpre => h pre (List.prefix_concat_iff.mpr (Or.inr hpre))
      rw [hlast] at hy
      rcases List.mem_append.mp hy with hy | hy
      · exact ih.mp hbefore y hy
      · rw [List.mem_singleton.mp hy]
        exact (average_snoc hx (hbefore xs List.prefix_rfl)).mp (h _ List.prefix_rfl)
    · intro h pre hpre
      rw [hlast] at h
      have hbefore := ih.mpr fun y hy => h y (List.mem_append_left _ hy)
      rcases List.prefix_concat_iff.mp hpre with rfl | hpre
      · exact (average_snoc hx (hbefore xs List.prefix_rfl)).mpr (h _ (by simp))
      · exact hbefore pre hpre

/-- With a right average the margins follow. -/
lemma jacobson_of_average {xs : List ℚ}
    (h : ∀ pre, pre <+: xs →
      (after pre).estimatedDEVprev = ewma (1 / 4) (1 / 100) (deviations {} pre)) :
    Jacobson xs := by
  have hdeviation : ∀ d > 0, (∀ y ∈ deviations {} xs, d ≤ y) →
      ∀ pre, pre <+: xs → min (1 / 100) d ≤ (after pre).estimatedDEVprev := by
    rintro d - hd pre hpre
    obtain ⟨post, rfl⟩ := hpre
    rw [h pre (List.prefix_append _ _)]
    refine le_ewma (by norm_num) (by norm_num) (min_le_left _ _) fun y hy => ?_
    refine (min_le_right _ _).trans (hd y ?_)
    rw [deviations_append]
    exact List.mem_append_left _ hy
  refine ⟨h, hdeviation, fun d hpos hd pre x hpre => ?_⟩
  have hdev := hdeviation d hpos hd pre ((List.prefix_append _ _).trans hpre)
  -- the timeout is computed from the estimates before the sample
  have hrto : (after (pre ++ [x])).estimatedRTO
      = (after pre).estimatedRTTprev + 4 * (after pre).estimatedDEVprev := by
    rw [after_snoc]
    rfl
  rw [hrto]
  linarith

/-- The samples of every run are positive, and its estimates are those after them. -/
theorem sameEstimates_of_run {es : List Event} {t : Tcpd} {os : List Out}
    (h : Tcpd.Run es t os) :
    t.estimator.SameEstimates (after (samplesOf (notesOf es))) ∧
      ∀ x ∈ samplesOf (notesOf es), 0 < x := by
  obtain ⟨hfold, hsampled⟩ := estimator_of_run h
  rw [hfold]
  exact sameEstimates_of_sampled ⟨rfl, rfl⟩ hsampled

/-- **The deviation is Jacobson's exactly when the distances are whole seconds.** -/
theorem jacobson_iff {xs : List ℚ} (hxs : ∀ x ∈ xs, 0 < x) :
    Jacobson xs ↔ ∀ y ∈ deviations {} xs, ∃ n : ℕ, y = n := by
  rw [← average_iff hxs]
  exact ⟨fun h => h.average, jacobson_of_average⟩

/-- A sample of 101/100 seconds is a whole second away from the first estimate. -/
theorem jacobson_iff_wholeSecond : Jacobson [101 / 100] := by
  refine (jacobson_iff (by norm_num)).mpr fun y hy => ⟨1, ?_⟩
  rw [List.mem_singleton.mp hy]
  norm_num

/-- Half a second away from it the deviation shrinks as if the sample had met the estimate. -/
theorem not_always_jacobson : ¬ ∀ xs : List ℚ, (∀ x ∈ xs, 0 < x) → Jacobson xs := by
  intro h
  have haverage := (h [51 / 100] (by norm_num)).average _ List.prefix_rfl
  have hdev := after_snoc_dev [] (x := 51 / 100) (by norm_num)
  rw [List.nil_append, haverage] at hdev
  norm_num [deviations, ewma, after, cAbs] at hdev

end Estimator
end NetworkProgramming
