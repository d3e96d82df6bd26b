import Mathlib.Tactic

/-!
# Reactive machines

A `Machine` reacts to one event at a time: it moves to a new state and emits outputs, or it
stops for a reason of type `ξ`. `exec` runs it over a list of events; a run is a list of
events on which `exec` answers `.ok`.

* `exec_append`, `exec_snoc`: runs compose;
* `exec_induction`: the induction principle over runs, one step added at the end;
* `exec_invariant`: what every step preserves holds at the end of every run;
* `Along`: what holds of every step of a run;
* `Throughout`: what holds of every state of a run; `throughout_iff_along` turns a condition on
  its steps into one on its states;
* `exec_filter`: a run without the events that have no effect;
* `collect`: a history that is written down along a run.
-/

namespace NetworkProgramming

/-- A deterministic machine with states `σ`, events `ε`, outputs `ω` and reasons to stop
`ξ`. -/
structure Machine (σ ε ω ξ : Type*) where
  step : σ → ε → Except ξ (σ × List ω)

namespace Machine

variable {σ ε ω ξ : Type*} (M : Machine σ ε ω ξ)

/-- Run the machine over a list of events, collecting the outputs. -/
def exec : σ → List ε → Except ξ (σ × List ω)
  | s, [] => .ok (s, [])
  | s, e :: es =>
    match M.step s e with
    | .error x => .error x
    | .ok (s', os) =>
      match exec s' es with
      | .error x => .error x
      | .ok (s'', os') => .ok (s'', os ++ os')

@[simp] lemma exec_nil (s : σ) : M.exec s [] = .ok (s, []) := rfl

lemma exec_cons_ok {s t : σ} {e : ε} {es : List ε} {os : List ω} :
    M.exec s (e :: es) = .ok (t, os) ↔
      ∃ u o o', M.step s e = .ok (u, o) ∧ M.exec u es = .ok (t, o') ∧ os = o ++ o' := by
  rw [exec]
  constructor
  · intro h
    split at h
    · cases h
    · rename_i u o hstep
      split at h
      · cases h
      · rename_i t' o' hexec
        cases h
        exact ⟨u, o, o', hstep, hexec, rfl⟩
  · rintro ⟨u, o, o', hstep, hexec, rfl⟩
    simp [hstep, hexec]

/-- A run over `es ++ es'` is a run over `es` followed by one over `es'`. -/
theorem exec_append {s t : σ} {es es' : List ε} {os : List ω} :
    M.exec s (es ++ es') = .ok (t, os) ↔
      ∃ u o o', M.exec s es = .ok (u, o) ∧ M.exec u es' = .ok (t, o') ∧ os = o ++ o' := by
  induction es generalizing s os with
  | nil => simp
  | cons e es ih =>
    simp only [List.cons_append, exec_cons_ok, ih]
    constructor
    · rintro ⟨v, o, _, hstep, ⟨u, o₁, o₂, hes, hes', rfl⟩, rfl⟩
      exact ⟨u, o ++ o₁, o₂, ⟨v, o, o₁, hstep, hes, rfl⟩, hes', by simp⟩
    · rintro ⟨u, _, o₂, ⟨v, o, o₁, hstep, hes, rfl⟩, hes', rfl⟩
      exact ⟨v, o, o₁ ++ o₂, hstep, ⟨u, o₁, o₂, hes, hes', rfl⟩, by simp⟩

/-- A run that ends with the event `e`. -/
theorem exec_snoc {s t : σ} {es : List ε} {e : ε} {os : List ω} :
    M.exec s (es ++ [e]) = .ok (t, os) ↔
      ∃ u o o', M.exec s es = .ok (u, o) ∧ M.step u e = .ok (t, o') ∧ os = o ++ o' := by
  simp [exec_append, exec_cons_ok]

/-- Induction over runs: a property of the events, the state and the outputs so far that
holds of the empty run and survives one more step holds of every run. -/
theorem exec_induction {s : σ} {motive : List ε → σ → List ω → Prop}
    (nil : motive [] s [])
    (snoc : ∀ es u o e t o', M.exec s es = .ok (u, o) → motive es u o →
      M.step u e = .ok (t, o') → motive (es ++ [e]) t (o ++ o'))
    {es : List ε} {t : σ} {os : List ω} (h : M.exec s es = .ok (t, os)) : motive es t os := by
  induction es using List.reverseRecOn generalizing t os with
  | nil => cases h; exact nil
  | append_singleton es e ih =>
    obtain ⟨u, o, o', hes, hstep, rfl⟩ := (M.exec_snoc).mp h
    exact snoc es u o e t o' hes (ih hes) hstep

/-- What every step on an event satisfying `E` preserves holds at the end of every run over
such events. -/
theorem exec_invariant {I : σ → Prop} {E : ε → Prop}
    (hstep : ∀ s e t o, I s → E e → M.step s e = .ok (t, o) → I t)
    {s t : σ} {es : List ε} {os : List ω} (hE : ∀ e ∈ es, E e)
    (h : M.exec s es = .ok (t, os)) (hs : I s) : I t := by
  refine M.exec_induction (motive := fun es t _ => (∀ e ∈ es, E e) → I t)
    (fun _ => hs) ?_ h hE
  intro es u o e t o' _ ih hu hall
  exact hstep u e t o' (ih fun e' he' => hall e' (List.mem_append_left _ he'))
    (hall e (by simp)) hu

/-- Where the events lead, if none of them stops the run. -/
def play (s : σ) (es : List ε) : σ := ((M.exec s es).toOption.map Prod.fst).getD s

lemma play_of_exec {s t : σ} {es : List ε} {os : List ω} (h : M.exec s es = .ok (t, os)) :
    M.play s es = t := by
  rw [play, h]
  rfl

/-- A run that is not stopped leads there. -/
lemma exec_play (s : σ) (es : List ε) (h : (M.exec s es).isOk) :
    ∃ os, M.exec s es = .ok (M.play s es, os) := by
  cases hexec : M.exec s es with
  | error x =>
    rw [hexec] at h
    cases h
  | ok r => exact ⟨r.2, by rw [M.play_of_exec hexec]⟩

/-- A run that goes on, and is not stopped. -/
lemma exec_append_play {s u : σ} {es : List ε} {os : List ω} (h : M.exec s es = .ok (u, os))
    (es' : List ε) (hgo : (M.exec u es').isOk) :
    ∃ os', M.exec s (es ++ es') = .ok (M.play u es', os') := by
  obtain ⟨os', hexec⟩ := M.exec_play _ _ hgo
  exact ⟨os ++ os', M.exec_append.mpr ⟨u, os, os', h, hexec, rfl⟩⟩

/-- Events of one kind, each of which is known to lead to `f`, lead where `f` folds to. `I` is what
they need of the state. -/
lemma exec_foldl {α : Type*} (f : σ → α → σ) (event : α → ε) (I : σ → Prop)
    (hkeep : ∀ s a, I s → I (f s a)) {l : List α}
    (hstep : ∀ s, I s → ∀ a ∈ l, ∃ os, M.step s (event a) = .ok (f s a, os)) {s : σ} (hs : I s) :
    ∃ os, M.exec s (l.map event) = .ok (l.foldl f s, os) := by
  induction l generalizing s with
  | nil => exact ⟨[], rfl⟩
  | cons a l ih =>
    obtain ⟨os, hfirst⟩ := hstep s hs a List.mem_cons_self
    obtain ⟨os', hrest⟩ := ih (fun s hs b hb => hstep s hs b (List.mem_cons_of_mem a hb))
      (hkeep s a hs)
    exact ⟨os ++ os', M.exec_cons_ok.mpr ⟨f s a, os, os', hfirst, hrest, rfl⟩⟩

/-- In the run over `es`, every event meets `Q` in the state it finds. -/
def Along (s : σ) (Q : σ → ε → Prop) (es : List ε) : Prop :=
  ∀ pre e post u o, es = pre ++ e :: post → M.exec s pre = .ok (u, o) → Q u e

lemma along_nil (s : σ) (Q : σ → ε → Prop) : M.Along s Q [] := by
  intro pre e post u o h
  simp at h

/-- Events that meet `Q` in every state meet it along every run. -/
lemma along_of_forall {s : σ} {Q : σ → ε → Prop} {es : List ε} (h : ∀ e ∈ es, ∀ u, Q u e) :
    M.Along s Q es := by
  rintro pre e post u o rfl -
  exact h e (by simp) u

/-- The first event meets `Q`, and so do the others from where it leads. -/
lemma along_cons {s : σ} {Q : σ → ε → Prop} {e : ε} {es : List ε} (h : Q s e)
    (hrest : ∀ u o, M.step s e = .ok (u, o) → M.Along u Q es) : M.Along s Q (e :: es) := by
  intro pre e' post u o heq hpre
  cases pre with
  | nil =>
    cases hpre
    cases heq
    exact h
  | cons x pre =>
    obtain ⟨rfl, rfl⟩ := List.cons.inj heq
    obtain ⟨v, o₁, o₂, hstep, hexec, -⟩ := M.exec_cons_ok.mp hpre
    exact hrest v o₁ hstep pre e' post u o₂ rfl hexec

/-- A test `q` along a run. -/
def checkAlong (q : σ → ε → Bool) : σ → List ε → Bool
  | _, [] => true
  | s, e :: es =>
    q s e && match M.step s e with
      | .error _ => true
      | .ok (u, _) => checkAlong q u es

lemma along_of_check {Q : σ → ε → Prop} {q : σ → ε → Bool} (hq : ∀ s e, q s e = true → Q s e)
    {s : σ} {es : List ε} (h : M.checkAlong q s es = true) : M.Along s Q es := by
  induction es generalizing s with
  | nil => exact M.along_nil s Q
  | cons e es ih =>
    rw [checkAlong, Bool.and_eq_true] at h
    refine M.along_cons (hq s e h.1) fun u o hstep => ih ?_
    rw [hstep] at h
    exact h.2

/-- The last event of a run meets `Q` in the state the others have led to. -/
theorem along_snoc {s u : σ} {Q : σ → ε → Prop} {es : List ε} {e : ε} {o : List ω}
    (h : M.exec s es = .ok (u, o)) : M.Along s Q (es ++ [e]) ↔ M.Along s Q es ∧ Q u e := by
  constructor
  · intro hall
    refine ⟨fun pre e' post u' o' heq hpre => ?_, hall es e [] u o rfl h⟩
    exact hall pre e' (post ++ [e]) u' o' (by simp [heq]) hpre
  · rintro ⟨hall, hlast⟩ pre e' post u' o' heq hpre
    rcases List.eq_nil_or_concat post with rfl | ⟨post', e'', rfl⟩
    · obtain ⟨rfl, he⟩ := List.append_inj' heq rfl
      rw [h] at hpre
      cases hpre
      cases he
      exact hlast
    · rw [List.concat_eq_append, ← List.cons_append, ← List.append_assoc] at heq
      obtain ⟨rfl, -⟩ := List.append_inj' heq rfl
      exact hall pre e' post' u' o' rfl hpre

/-- What holds of a run that goes on holds of both parts. -/
theorem along_append {s u : σ} {Q : σ → ε → Prop} {es es' : List ε} {os : List ω}
    (h : M.exec s es = .ok (u, os)) :
    M.Along s Q (es ++ es') ↔ M.Along s Q es ∧ M.Along u Q es' := by
  induction es generalizing s os with
  | nil =>
    cases h
    exact ⟨fun hall => ⟨M.along_nil _ Q, hall⟩, And.right⟩
  | cons e es ih =>
    obtain ⟨v, o, o', hstep, hes, -⟩ := M.exec_cons_ok.mp h
    constructor
    · intro hall
      refine ⟨fun pre e' post w p heq hpre => ?_, fun pre e' post w p heq hpre => ?_⟩
      · exact hall pre e' (post ++ es') w p (by rw [heq]; simp) hpre
      · obtain rfl := heq
        exact hall (e :: es ++ pre) e' post w _ (by simp)
          (M.exec_append.mpr ⟨u, os, p, h, hpre, rfl⟩)
    · rintro ⟨hfirst, hsecond⟩
      refine M.along_cons (hfirst [] e es _ [] rfl rfl) fun v' o₁ hstep' => ?_
      rw [hstep] at hstep'
      cases hstep'
      refine (ih hes).mpr ⟨fun pre e' post w p heq hpre => ?_, hsecond⟩
      exact hfirst (e :: pre) e' post w _ (by rw [heq]; rfl)
        (M.exec_cons_ok.mpr ⟨v, o, p, hstep, hpre, rfl⟩)

/-- Induction over runs along which every event meets `Q`. -/
theorem exec_along {I : σ → Prop} {Q : σ → ε → Prop}
    (hstep : ∀ s e t o, I s → Q s e → M.step s e = .ok (t, o) → I t)
    {s t : σ} {es : List ε} {os : List ω} (hQ : M.Along s Q es)
    (h : M.exec s es = .ok (t, os)) (hs : I s) : I t := by
  refine M.exec_induction (motive := fun es t _ => M.Along s Q es → I t) (fun _ => hs) ?_ h hQ
  intro es u o e t o' hes ih hu hall
  obtain ⟨hbefore, hlast⟩ := (M.along_snoc hes).mp hall
  exact hstep u e t o' (ih hbefore) hlast hu

/-- Every state of the run over `es`, the first and the last included, satisfies `I`. -/
def Throughout (s : σ) (I : σ → Prop) (es : List ε) : Prop :=
  ∀ pre post u o, es = pre ++ post → M.exec s pre = .ok (u, o) → I u

lemma Throughout.last {s t : σ} {I : σ → Prop} {es : List ε} {os : List ω}
    (h : M.Throughout s I es) (hes : M.exec s es = .ok (t, os)) : I t :=
  h es [] t os (List.append_nil es).symm hes

theorem throughout_snoc {s t : σ} {I : σ → Prop} {es : List ε} {e : ε} {os : List ω}
    (h : M.exec s (es ++ [e]) = .ok (t, os)) :
    M.Throughout s I (es ++ [e]) ↔ M.Throughout s I es ∧ I t := by
  constructor
  · intro hall
    refine ⟨fun pre post u o heq hpre => ?_, hall.last _ h⟩
    exact hall pre (post ++ [e]) u o (by simp [heq]) hpre
  · rintro ⟨hall, hlast⟩ pre post u o heq hpre
    rcases List.eq_nil_or_concat post with rfl | ⟨post', e', rfl⟩
    · rw [List.append_nil] at heq
      rw [heq, hpre] at h
      cases h
      exact hlast
    · rw [List.concat_eq_append, ← List.append_assoc] at heq
      obtain ⟨rfl, -⟩ := List.append_inj' heq rfl
      exact hall pre post' u o rfl hpre

/-- When `Q` is the exact condition for one step to keep `I`, a run keeps `I` throughout if and
only if `Q` holds along it. `J` is what the steps may assume of the states they start in. -/
theorem throughout_iff_along {I J : σ → Prop} {Q : σ → ε → Prop}
    (hJ : ∀ s e t o, J s → M.step s e = .ok (t, o) → J t)
    (hstep : ∀ s e t o, J s → I s → M.step s e = .ok (t, o) → (I t ↔ Q s e))
    {s t : σ} {es : List ε} {os : List ω} (h : M.exec s es = .ok (t, os)) (hsJ : J s)
    (hsI : I s) : M.Throughout s I es ↔ M.Along s Q es := by
  refine M.exec_induction (motive := fun es _ _ => (M.Throughout s I es ↔ M.Along s Q es))
    ?_ ?_ h
  · refine ⟨fun _ => M.along_nil s Q, fun _ pre post u o heq hpre => ?_⟩
    obtain ⟨rfl, -⟩ := List.append_eq_nil_iff.mp heq.symm
    cases hpre
    exact hsI
  · intro es u o e t o' hes ih hu
    have huJ : J u := M.exec_invariant (E := fun _ => True)
      (fun s e t o hs _ hstep => hJ s e t o hs hstep) (fun _ _ => trivial) hes hsJ
    rw [M.throughout_snoc ((M.exec_snoc).mpr ⟨u, o, o', hes, hu, rfl⟩), M.along_snoc hes, ← ih]
    exact and_congr_right fun hall => hstep u e t o' huJ (hall.last M hes) hu

/-! ## Leaving events out -/

/-- What `f` notes down at each step of the run over `es`. -/
def collect {α : Type*} (f : σ → ε → σ → List α) : σ → List ε → List α
  | _, [] => []
  | s, e :: es =>
    match M.step s e with
    | .error _ => []
    | .ok (s', _) => f s e s' ++ collect f s' es

lemma collect_append {α : Type*} (f : σ → ε → σ → List α) {s u : σ} {es es' : List ε}
    {o : List ω} (h : M.exec s es = .ok (u, o)) :
    M.collect f s (es ++ es') = M.collect f s es ++ M.collect f u es' := by
  induction es generalizing s o with
  | nil => cases h; rfl
  | cons e es ih =>
    obtain ⟨v, o₁, o₂, hstep, hes, rfl⟩ := M.exec_cons_ok.mp h
    simp only [List.cons_append, collect, hstep, ih hes, List.append_assoc]

/-- The last step adds its own note. -/
theorem collect_snoc {α : Type*} (f : σ → ε → σ → List α) {s u t : σ} {es : List ε} {e : ε}
    {o o' : List ω} (h : M.exec s es = .ok (u, o)) (hstep : M.step u e = .ok (t, o')) :
    M.collect f s (es ++ [e]) = M.collect f s es ++ f u e t := by
  rw [M.collect_append f h]
  simp [collect, hstep]

end Machine
end NetworkProgramming
