import NetworkProgramming.Lib.Machine

/-!
# Where a machine can get to

`M.CanReach E s t os` says that the machine can go from `s` to `t` on events that satisfy `E`
alone, and emits `os` on the way. A measure that can always be lowered can be brought to zero
(`exists_canReach_zero`). `M.turns` is the machine that handles several events in one go, for what
a program does between two of the states in which it may be left alone.
-/

namespace NetworkProgramming
namespace Machine

variable {σ ε ω ξ : Type*} (M : Machine σ ε ω ξ) {E : ε → Prop} {s t u : σ} {os os' : List ω}

/-- The machine can go from `s` to `t` on events that satisfy `E`. -/
def CanReach (E : ε → Prop) (s t : σ) (os : List ω) : Prop :=
  ∃ es, (∀ e ∈ es, E e) ∧ M.exec s es = .ok (t, os)

lemma CanReach.refl (s : σ) : M.CanReach E s s [] := ⟨[], by simp, rfl⟩

variable {M}

lemma CanReach.single {e : ε} (he : E e) (h : M.step s e = .ok (t, os)) : M.CanReach E s t os := by
  refine ⟨[e], by simpa using he, M.exec_cons_ok.mpr ⟨t, os, [], h, rfl, ?_⟩⟩
  rw [List.append_nil]

lemma CanReach.trans (h : M.CanReach E s t os) (h' : M.CanReach E t u os') :
    M.CanReach E s u (os ++ os') := by
  obtain ⟨es, hes, hexec⟩ := h
  obtain ⟨es', hes', hexec'⟩ := h'
  refine ⟨es ++ es', fun e he => ?_, M.exec_append.mpr ⟨t, os, os', hexec, hexec', rfl⟩⟩
  rcases List.mem_append.mp he with he | he
  · exact hes e he
  · exact hes' e he

lemma CanReach.mono {E' : ε → Prop} (h : M.CanReach E s t os) (hE : ∀ e, E e → E' e) :
    M.CanReach E' s t os := by
  obtain ⟨es, hes, hexec⟩ := h
  exact ⟨es, fun e he => hE e (hes e he), hexec⟩

/-- What every step on an event satisfying `E` preserves holds wherever the machine can get. -/
lemma CanReach.invariant {I : σ → Prop}
    (hstep : ∀ s e t o, I s → E e → M.step s e = .ok (t, o) → I t) (h : M.CanReach E s t os)
    (hs : I s) : I t := by
  obtain ⟨es, hes, hexec⟩ := h
  exact M.exec_invariant hstep hes hexec hs

variable (M) in
/-- A measure that can be lowered from every state of `I` can be brought to zero. `I` may speak of
what has been emitted so far. -/
theorem exists_canReach_zero_emitting (I : σ → List ω → Prop) (measure : σ → ℕ)
    (hlower : ∀ s os, I s os → 0 < measure s →
      ∃ t os', M.CanReach E s t os' ∧ I t (os ++ os') ∧ measure t < measure s)
    (s : σ) (os : List ω) (hs : I s os) :
    ∃ t os', M.CanReach E s t os' ∧ I t (os ++ os') ∧ measure t = 0 := by
  induction hn : measure s using Nat.strong_induction_on generalizing s os with
  | _ n ih =>
    subst hn
    rcases Nat.eq_zero_or_pos (measure s) with hzero | hpos
    · exact ⟨s, [], .refl M s, by rwa [List.append_nil], hzero⟩
    · obtain ⟨t, o, hst, ht, hlt⟩ := hlower s os hs hpos
      obtain ⟨u, o', htu, hu, hzero⟩ := ih (measure t) hlt t (os ++ o) ht rfl
      exact ⟨u, o ++ o', hst.trans htu, by rwa [← List.append_assoc], hzero⟩

theorem exists_canReach_zero {I : σ → Prop} (measure : σ → ℕ)
    (hlower : ∀ s, I s → 0 < measure s →
      ∃ t os, M.CanReach E s t os ∧ I t ∧ measure t < measure s) (hs : I s) :
    ∃ t os, M.CanReach E s t os ∧ I t ∧ measure t = 0 :=
  M.exists_canReach_zero_emitting (fun s _ => I s) measure
    (fun s _ hs hpos => hlower s hs hpos) s [] hs

/-! ## Several events in one go -/

variable (M) in
/-- The machine whose events are lists of events. -/
def turns : Machine σ (List ε) ω ξ := ⟨M.exec⟩

/-- A step that is a turn by itself. -/
lemma turns_step {e : ε} (h : M.step s e = .ok (t, os)) : M.turns.step s [e] = .ok (t, os) := by
  show M.exec s [e] = .ok (t, os)
  exact M.exec_cons_ok.mpr ⟨t, os, [], h, rfl, (List.append_nil os).symm⟩

/-- What can be reached on events that are turns by themselves. -/
lemma CanReach.turns {F : List ε → Prop} (h : M.CanReach E s t os) (hE : ∀ e, E e → F [e]) :
    M.turns.CanReach F s t os := by
  obtain ⟨es, hes, hexec⟩ := h
  refine M.exec_induction (motive := fun es t os => (∀ e ∈ es, E e) → M.turns.CanReach F s t os)
    (fun _ => .refl M.turns s) ?_ hexec hes
  intro es u o e t o' _ ih hstep hes
  exact (ih fun e he => hes e (List.mem_append_left _ he)).trans
    (.single (hE e (hes e (by simp))) (turns_step hstep))

end Machine
end NetworkProgramming
