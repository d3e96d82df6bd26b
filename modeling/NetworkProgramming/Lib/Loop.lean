import Mathlib.Tactic

/-!
# While loops with a measure

A `Loop` is the body of a `while` loop over a state: it leaves the loop, fails, or goes round
once more. The structure carries the measure that makes the loop end, so `run` is total.
`run_induction` is the invariant rule: what holds at the start and survives one round holds at
the end, where the body leaves the loop. `Visits` are the states on the way, for what a loop does
before it fails.
-/

namespace NetworkProgramming

/-- What one round of a loop does. -/
inductive Round (ξ σ : Type*)
  | leave
  | fail (x : ξ)
  | again (s : σ)

/-- A loop body together with a measure that every round lowers. -/
structure Loop (ξ σ : Type*) where
  body : σ → Round ξ σ
  measure : σ → ℕ
  decreases : ∀ s s', body s = .again s' → measure s' < measure s

namespace Loop

variable {ξ σ : Type*} (L : Loop ξ σ)

/-- Go round until the body leaves or fails. -/
def run (s : σ) : Except ξ σ :=
  match _h : L.body s with
  | .leave => .ok s
  | .fail x => .error x
  | .again s' => run s'
termination_by L.measure s
decreasing_by exact L.decreases _ _ _h

lemma run_of_leave {s : σ} (h : L.body s = .leave) : L.run s = .ok s := by
  rw [run]; split <;> simp_all

lemma run_of_fail {s : σ} {x : ξ} (h : L.body s = .fail x) : L.run s = .error x := by
  rw [run]; split <;> simp_all

lemma run_of_again {s s' : σ} (h : L.body s = .again s') : L.run s = L.run s' := by
  rw [run]; split <;> simp_all

/-- The invariant rule. -/
theorem run_induction {I : σ → Prop} (hround : ∀ s s', I s → L.body s = .again s' → I s')
    {s t : σ} (hs : I s) (h : L.run s = .ok t) : I t ∧ L.body t = .leave := by
  induction s using Loop.run.induct L with
  | case1 s hleave =>
    rw [L.run_of_leave hleave] at h
    cases h
    exact ⟨hs, hleave⟩
  | case2 s x hfail => simp [L.run_of_fail hfail] at h
  | case3 s s' hagain ih =>
    rw [L.run_of_again hagain] at h
    exact ih (hround s s' hs hagain) h

/-- The states the loop goes through, the first included. -/
inductive Visits (s : σ) : σ → Prop
  | start : Visits s s
  | round {u v : σ} (h : Visits s u) (hagain : L.body u = .again v) : Visits s v

/-- A run that comes to an end has gone through the state it ends in. -/
theorem visits_of_run {s t : σ} (h : L.run s = .ok t) : L.Visits s t ∧ L.body t = .leave :=
  L.run_induction (fun _ _ => .round) .start h

/-- A run that fails has gone through the state it fails in. -/
theorem visits_of_run_error {s : σ} {x : ξ} (h : L.run s = .error x) :
    ∃ u, L.Visits s u ∧ L.body u = .fail x := by
  have hfrom : ∀ u, L.Visits s u → L.run u = .error x → ∃ v, L.Visits s v ∧ L.body v = .fail x := by
    intro u hu hrun
    induction u using Loop.run.induct L with
    | case1 u hleave => simp [L.run_of_leave hleave] at hrun
    | case2 u y hfail =>
      rw [L.run_of_fail hfail] at hrun
      cases hrun
      exact ⟨u, hu, hfail⟩
    | case3 u v hagain ih =>
      rw [L.run_of_again hagain] at hrun
      exact ih (.round hu hagain) hrun
  exact hfrom s .start h

/-- A state that does not go round is the only one. -/
lemma visits_of_not_again {s u : σ} (h : L.Visits s u) (hlast : ∀ v, L.body s ≠ .again v) :
    u = s := by
  induction h with
  | start => rfl
  | round _ hagain ih =>
    subst ih
    exact absurd hagain (hlast _)

/-- The states are the first and those from the second on. -/
lemma visits_of_again {s v : σ} (hagain : L.body s = .again v) {u : σ} :
    L.Visits s u ↔ u = s ∨ L.Visits v u := by
  constructor
  · intro h
    induction h with
    | start => exact Or.inl rfl
    | @round x y h hxy ih =>
      rcases ih with rfl | ih
      · rw [hagain] at hxy
        cases hxy
        exact Or.inr .start
      · exact Or.inr (.round ih hxy)
  · intro h
    rcases h with rfl | h
    · exact .start
    · induction h with
      | start => exact .round .start hagain
      | round _ hxy ih => exact .round ih hxy

end Loop
end NetworkProgramming
