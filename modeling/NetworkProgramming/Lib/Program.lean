import NetworkProgramming.Lib.Machine

/-!
# Programs made of calls

A `Program` moves a state and emits outputs, or stops for a reason of type `ξ`. Programs are put
one behind the other (`andThen`), repeated over a list (`forEach`), or made to depend on the state
they find (`reading`).

`M.Performs P f p Q E` relates a program to a machine. It is a triple: from every state `s` that
satisfies `P` the program does what the machine does on the events `f s`, in their order; where it
ends, `Q` holds, and where it stops, it stops for a reason that satisfies `E`. There is one rule for
each way to build a program, and `Performs.exec` for a machine whose steps are programs.
-/

namespace NetworkProgramming

/-- What moves a state and emits outputs, or stops. -/
abbrev Program (σ ω ξ : Type*) := σ → Except ξ (σ × List ω)

namespace Program

variable {α σ ω ξ : Type*}

/-- Nothing. -/
def skip : Program σ ω ξ := fun s => .ok (s, [])

/-- First `p`, then `q`. -/
def andThen (p q : Program σ ω ξ) : Program σ ω ξ := fun s =>
  match p s with
  | .error x => .error x
  | .ok (u, os) =>
    match q u with
    | .error x => .error x
    | .ok (t, os') => .ok (t, os ++ os')

/-- The program `p a` for every element `a` of a list. -/
def forEach (p : α → Program σ ω ξ) : List α → Program σ ω ξ
  | [] => skip
  | a :: l => (p a).andThen (forEach p l)

/-- A program that depends on the state it finds. -/
def reading (f : σ → Program σ ω ξ) : Program σ ω ξ := fun s => f s s

variable {p q : Program σ ω ξ} {s t : σ} {os : List ω} {x : ξ}

lemma andThen_of_ok (h : p s = .ok (t, os)) : p.andThen q s =
    match q t with
    | .error x => .error x
    | .ok (u, os') => .ok (u, os ++ os') := by
  rw [andThen, h]

lemma andThen_of_error (h : p s = .error x) : p.andThen q s = .error x := by
  rw [andThen, h]

lemma andThen_ok : p.andThen q s = .ok (t, os) ↔
    ∃ u o o', p s = .ok (u, o) ∧ q u = .ok (t, o') ∧ os = o ++ o' := by
  rw [andThen]
  constructor
  · intro h
    split at h
    · cases h
    · rename_i u o hp
      split at h
      · cases h
      · rename_i t' o' hq
        cases h
        exact ⟨u, o, o', hp, hq, rfl⟩
  · rintro ⟨u, o, o', hp, hq, rfl⟩
    simp only [hp, hq]

lemma andThen_error : p.andThen q s = .error x ↔
    p s = .error x ∨ ∃ u o, p s = .ok (u, o) ∧ q u = .error x := by
  rw [andThen]
  constructor
  · intro h
    split at h
    · rename_i y hp
      cases h
      exact Or.inl hp
    · rename_i u o hp
      split at h
      · rename_i y hq
        cases h
        exact Or.inr ⟨u, o, hp, hq⟩
      · cases h
  · rintro (hp | ⟨u, o, hp, hq⟩)
    · simp only [hp]
    · simp only [hp, hq]

lemma andThen_assoc (p q r : Program σ ω ξ) :
    (p.andThen q).andThen r = p.andThen (q.andThen r) := by
  funext s
  cases hp : p s with
  | error x => rw [andThen_of_error (andThen_of_error hp), andThen_of_error hp]
  | ok a =>
    obtain ⟨u, o⟩ := a
    rw [andThen_of_ok hp]
    cases hq : q u with
    | error x =>
      rw [andThen_of_error hq]
      refine andThen_of_error ?_
      rw [andThen_of_ok hp, hq]
    | ok a =>
      obtain ⟨v, o'⟩ := a
      have hboth : p.andThen q s = .ok (v, o ++ o') := by rw [andThen_of_ok hp, hq]
      rw [andThen_of_ok hq, andThen_of_ok hboth]
      cases r v with
      | error x => rfl
      | ok a => simp only [List.append_assoc]

end Program

namespace Machine

variable {α τ σ ε ω ξ : Type*} (M : Machine σ ε ω ξ)

/-- A run is its first step and what follows, one behind the other. -/
lemma exec_cons_eq (e : ε) (es : List ε) :
    (M.exec · (e :: es)) = Program.andThen (M.step · e) (M.exec · es) := by
  rfl

/-- A run over `es ++ es'` is one program behind the other. -/
lemma exec_append_eq (es es' : List ε) :
    (M.exec · (es ++ es')) = Program.andThen (M.exec · es) (M.exec · es') := by
  induction es with
  | nil =>
    funext s
    rw [Program.andThen_of_ok (M.exec_nil s), List.nil_append]
    cases M.exec s es' <;> rfl
  | cons e es ih =>
    rw [List.cons_append, exec_cons_eq, ih, ← Program.andThen_assoc, ← exec_cons_eq]

/-- From every state `s` that satisfies `P` the program `p` does what the machine does on the events
`f s`, to end where `Q` holds or to stop for a reason that satisfies `E`. -/
structure Performs (P : σ → Prop) (f : σ → List ε) (p : Program σ ω ξ) (Q : σ → Prop)
    (E : ξ → Prop) : Prop where
  same : ∀ s, P s → p s = M.exec s (f s)
  ends : ∀ s t os, P s → p s = .ok (t, os) → Q t
  stops : ∀ s x, P s → p s = .error x → E x

variable {M} {f g : σ → List ε} {P Q R : σ → Prop} {E : ξ → Prop} {p q : Program σ ω ξ}

/-- To do nothing is to perform no event. -/
lemma performs_skip : M.Performs P (fun _ => []) .skip P E where
  same s _ := rfl
  ends s t os hs h := by
    cases h
    exact hs
  stops s x hs h := by cases h

/-- A program that is one event of the machine. -/
lemma performs_step {e : ε} (hcall : ∀ s, P s → p s = M.step s e)
    (hends : ∀ s t os, P s → M.step s e = .ok (t, os) → Q t)
    (hstops : ∀ s x, P s → M.step s e = .error x → E x) : M.Performs P (fun _ => [e]) p Q E where
  same s hs := by
    rw [hcall s hs, exec]
    cases M.step s e with
    | error x => rfl
    | ok a => simp only [exec_nil, List.append_nil]
  ends s t os hs h := hends s t os hs (hcall s hs ▸ h)
  stops s x hs h := hstops s x hs (hcall s hs ▸ h)

lemma Performs.andThen (hp : M.Performs P f p R E) (hq : M.Performs R g q Q E) :
    M.Performs P (fun s => f s ++ g (M.play s (f s))) (p.andThen q) Q E where
  same s hs := by
    have hsame := hp.same s hs
    rw [congrFun (M.exec_append_eq (f s) _) s]
    cases hexec : M.exec s (f s) with
    | error x =>
      rw [Program.andThen_of_error (hsame.trans hexec),
        Program.andThen_of_error (p := (M.exec · (f s))) hexec]
    | ok a =>
      obtain ⟨u, o⟩ := a
      rw [Program.andThen_of_ok (hsame.trans hexec),
        Program.andThen_of_ok (p := (M.exec · (f s))) hexec, M.play_of_exec hexec,
        hq.same u (hp.ends s u o hs (hsame.trans hexec))]
  ends s t os hs h := by
    obtain ⟨u, o, o', hsu, hut, -⟩ := Program.andThen_ok.mp h
    exact hq.ends u t o' (hp.ends s u o hs hsu) hut
  stops s x hs h := by
    rcases Program.andThen_error.mp h with hsx | ⟨u, o, hsu, hux⟩
    · exact hp.stops s x hs hsx
    · exact hq.stops u x (hp.ends s u o hs hsu) hux

/-- The rule for a loop over a list: the program of each element keeps the invariant, and performs
events that do not depend on the state. -/
lemma Performs.forEach {p : α → Program σ ω ξ} {f : α → List ε} {l : List α}
    (h : ∀ a ∈ l, M.Performs P (fun _ => f a) (p a) P E) :
    M.Performs P (fun _ => l.flatMap f) (.forEach p l) P E := by
  induction l with
  | nil => exact performs_skip
  | cons a l ih =>
    have ha := h a List.mem_cons_self
    exact ha.andThen (ih fun b hb => h b (List.mem_cons_of_mem a hb))

/-- A program that depends on the state performs what it performs from each state. -/
lemma Performs.reading {r : σ → Program σ ω ξ} (h : ∀ s, P s → M.Performs (· = s) f (r s) Q E) :
    M.Performs P f (.reading r) Q E where
  same s hs := (h s hs).same s rfl
  ends s t os hs := (h s hs).ends s t os rfl
  stops s x hs := (h s hs).stops s x rfl

lemma Performs.weaken {P' Q' : σ → Prop} (h : M.Performs P f p Q E) (hP : ∀ s, P' s → P s)
    (hQ : ∀ s, Q s → Q' s) : M.Performs P' f p Q' E where
  same s hs := h.same s (hP s hs)
  ends s t os hs hst := hQ t (h.ends s t os (hP s hs) hst)
  stops s x hs := h.stops s x (hP s hs)

lemma Performs.congr (h : M.Performs P f p Q E) (hfg : ∀ s, P s → f s = g s) :
    M.Performs P g p Q E where
  same s hs := hfg s hs ▸ h.same s hs
  ends := h.ends
  stops := h.stops

variable (M) in
/-- The events of a list of steps, when those of step `x` from `s` are `f x s`. -/
def eventsOf (f : τ → σ → List ε) : σ → List τ → List ε
  | _, [] => []
  | s, x :: xs => f x s ++ eventsOf f (M.play s (f x s)) xs

/-- **A machine whose steps are programs.** When each of them performs events of `M` and keeps
`P`, its runs do what `M` does on the events of their steps, one behind the other. -/
theorem Performs.exec {N : Machine σ τ ω ξ} {f : τ → σ → List ε}
    (h : ∀ x, M.Performs P (f x) (fun s => N.step s x) P E) (xs : List τ) :
    M.Performs P (M.eventsOf f · xs) (fun s => N.exec s xs) P E := by
  induction xs with
  | nil => exact performs_skip
  | cons x xs ih =>
    rw [N.exec_cons_eq x xs]
    exact (h x).andThen ih

end Machine
end NetworkProgramming
