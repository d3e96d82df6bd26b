import Mathlib.Tactic

/-!
# Exponentially weighted moving averages

`ewma g init xs` starts at `init` and moves by the fraction `g` of the way towards each sample. It
is a convex combination of what it has seen, so what bounds its start and every sample bounds it
(`le_ewma`), and it tells a run of samples from one whose last sample is another (`ewma_snoc_inj`).
-/

namespace NetworkProgramming

variable {K : Type*} [Field K]

/-- The average of the samples `xs` with gain `g`, started at `init`. -/
def ewma (g init : K) (xs : List K) : K := xs.foldl (fun v x => (1 - g) * v + g * x) init

variable {g init b : K} {xs : List K}

@[simp] lemma ewma_nil (g init : K) : ewma g init [] = init := rfl

lemma ewma_snoc (g init : K) (xs : List K) (x : K) :
    ewma g init (xs ++ [x]) = (1 - g) * ewma g init xs + g * x := by
  rw [ewma, List.foldl_append]
  rfl

/-- The last sample can be read off. -/
lemma ewma_snoc_inj (hg : g ≠ 0) {x y : K} :
    (1 - g) * ewma g init xs + g * x = (1 - g) * ewma g init xs + g * y ↔ x = y := by
  rw [add_right_inj]
  exact mul_right_inj' hg

section Order

variable [LinearOrder K] [IsStrictOrderedRing K]

/-- A lower bound of the start and of the samples is one of the average. -/
theorem le_ewma (hg : 0 ≤ g) (hg' : g ≤ 1) (hinit : b ≤ init) (hxs : ∀ x ∈ xs, b ≤ x) :
    b ≤ ewma g init xs := by
  induction xs using List.reverseRecOn with
  | nil => exact hinit
  | append_singleton xs x ih =>
    have hold : b ≤ ewma g init xs := ih fun y hy => hxs y (List.mem_append_left _ hy)
    have hnew : b ≤ x := hxs x (by simp)
    rw [ewma_snoc]
    calc b = (1 - g) * b + g * b := by ring
      _ ≤ (1 - g) * ewma g init xs + g * x :=
        add_le_add (mul_le_mul_of_nonneg_left hold (sub_nonneg.mpr hg'))
          (mul_le_mul_of_nonneg_left hnew hg)

end Order

end NetworkProgramming
