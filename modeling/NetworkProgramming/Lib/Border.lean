import Mathlib.Data.List.Infix
import Mathlib.Tactic

/-!
# Occurrences and borders

`occurrences p text` counts the positions of `text` at which `p` stands, overlapping ones
included. A border of a list is a proper prefix that is also a suffix, and `border` is the
length of the longest one. The two meet in a left-to-right search: where a prefix of `p` has been
matched and `p` stands a little further right, the overlap is a border of that prefix
(`take_suffix_of_prefix_drop`), and a border is what stays matched after the shift
(`take_prefix_drop_of_suffix`).
-/

namespace NetworkProgramming

variable {α : Type*} [DecidableEq α]

/-! ## Occurrences -/

/-- At how many positions of `text` the list `p` stands. -/
def occurrences (p text : List α) : ℕ := text.tails.countP fun t => p <+: t

lemma occurrences_cons (p : List α) (a : α) (text : List α) :
    occurrences p (a :: text) = occurrences p text + if p <+: a :: text then 1 else 0 := by
  simp [occurrences, List.countP_cons]

/-- A nonempty list stands at most once at each position. -/
lemma occurrences_le_length {p : List α} (hp : 0 < p.length) (text : List α) :
    occurrences p text ≤ text.length := by
  induction text with
  | nil =>
    have hne := List.ne_nil_of_length_pos hp
    simp [occurrences, hne]
  | cons a text ih =>
    rw [occurrences_cons, List.length_cons]
    split <;> omega

lemma occurrences_eq_zero_of_length {p text : List α} (h : text.length < p.length) :
    occurrences p text = 0 := by
  induction text with
  | nil =>
    have hp : p ≠ [] := List.ne_nil_of_length_pos (by omega)
    simp [occurrences, hp]
  | cons a text ih =>
    rw [List.length_cons] at h
    have hnot : ¬ p <+: a :: text := fun hp => by
      have hle := hp.length_le
      rw [List.length_cons] at hle
      omega
    rw [occurrences_cons, ih (by omega), if_neg hnot]

/-- Where a text is cut with an overlap one short of `p`, every occurrence is in one part. -/
lemma occurrences_glue {p : List α} (x carry rest : List α) (h : carry.length + 1 = p.length) :
    occurrences p (x ++ carry ++ rest)
      = occurrences p (x ++ carry) + occurrences p (carry ++ rest) := by
  induction x with
  | nil =>
    rw [List.nil_append, occurrences_eq_zero_of_length (by omega : carry.length < p.length),
      Nat.zero_add]
  | cons a x ih =>
    have hlong : p.length ≤ (a :: (x ++ carry)).length := by
      rw [List.length_cons, List.length_append]
      omega
    have hsame : p <+: a :: (x ++ carry ++ rest) ↔ p <+: a :: (x ++ carry) := by
      rw [← List.cons_append]
      exact ⟨fun hp => List.prefix_of_prefix_length_le hp (List.prefix_append _ _) hlong,
        fun hp => hp.trans (List.prefix_append _ _)⟩
    rw [List.cons_append, List.cons_append, occurrences_cons, occurrences_cons, ih]
    simp only [hsame]
    omega

/-- Nothing is lost between `c` and `c'` when `p` does not stand there. -/
lemma occurrences_drop_eq {p text : List α} {c c' : ℕ} (hcc : c ≤ c')
    (h : ∀ s, c ≤ s → s < c' → ¬ p <+: text.drop s) :
    occurrences p (text.drop c) = occurrences p (text.drop c') := by
  induction c', hcc using Nat.le_induction with
  | base => rfl
  | succ c' hcc ih =>
    rw [ih fun s hs hlt => h s hs (by omega)]
    by_cases hlen : c' < text.length
    · have hnot := h c' hcc (by omega)
      rw [List.drop_eq_getElem_cons hlen] at hnot ⊢
      rw [occurrences_cons, if_neg hnot, Nat.add_zero]
    · rw [List.drop_eq_nil_of_le (by omega), List.drop_eq_nil_of_le (by omega)]

/-- An occurrence of a nonempty `p` is one more than the text after it has. -/
lemma occurrences_drop_succ {p text : List α} {c : ℕ} (hp : p ≠ []) (h : p <+: text.drop c) :
    occurrences p (text.drop c) = occurrences p (text.drop (c + 1)) + 1 := by
  have hlen : c < text.length := by
    by_contra hge
    rw [List.drop_eq_nil_of_le (by omega)] at h
    exact hp (List.prefix_nil.mp h)
  rw [List.drop_eq_getElem_cons hlen] at h ⊢
  rw [occurrences_cons, if_pos h]

/-! ## Borders -/

/-- The length of the longest proper prefix that is also a suffix. -/
def border (q : List α) : ℕ := Nat.findGreatest (fun k => q.take k <:+ q) (q.length - 1)

lemma take_border_suffix (q : List α) : q.take (border q) <:+ q :=
  Nat.findGreatest_spec (P := fun k => q.take k <:+ q) (Nat.zero_le _) (List.nil_suffix)

lemma border_le (q : List α) : border q ≤ q.length - 1 := Nat.findGreatest_le _

lemma le_border {q : List α} {k : ℕ} (hk : k < q.length) (h : q.take k <:+ q) : k ≤ border q :=
  Nat.le_findGreatest (by omega) h

@[simp] lemma border_nil : border ([] : List α) = 0 := rfl

omit [DecidableEq α] in
/-- A nonempty border of `q ++ [a]` is a border of `q` followed by `a`. -/
lemma take_succ_suffix_concat {q : List α} {a : α} {k : ℕ} (hk : k < q.length) :
    (q ++ [a]).take (k + 1) <:+ q ++ [a] ↔ q.take k <:+ q ∧ q[k]? = some a := by
  have htake : (q ++ [a]).take (k + 1) = q.take k ++ [q[k]] := by
    rw [List.take_append_of_le_length hk, List.take_succ_eq_append_getElem hk]
  rw [htake, List.suffix_concat_iff, List.getElem?_eq_getElem hk, Option.some.injEq]
  constructor
  · intro h
    rcases h with hnil | ⟨t, ht, hsuffix⟩
    · simp only [List.append_eq_nil_iff, List.cons_ne_self, and_false] at hnil
    · obtain ⟨rfl, heq⟩ := List.append_inj' ht rfl
      exact ⟨hsuffix, List.singleton_inj.mp heq⟩
  · rintro ⟨hsuffix, heq⟩
    exact Or.inr ⟨_, by rw [heq], hsuffix⟩

/-- One more element makes the border longer by one at most. -/
lemma border_concat_le (q : List α) (a : α) : border (q ++ [a]) ≤ border q + 1 := by
  have hle := border_le (q ++ [a])
  have hsuffix := take_border_suffix (q ++ [a])
  rw [List.length_append, List.length_singleton] at hle
  match hb : border (q ++ [a]) with
  | 0 => omega
  | k + 1 =>
    rw [hb] at hle hsuffix
    have hk : k < q.length := by omega
    have := le_border hk ((take_succ_suffix_concat hk).mp hsuffix).1
    omega

/-- It does so exactly when it continues the longest border. -/
lemma border_concat {q : List α} (hq : q ≠ []) (a : α) :
    border (q ++ [a]) = border q + 1 ↔ q[border q]? = some a := by
  have hlt : border q < q.length := by
    have := border_le q
    have := List.length_pos_of_ne_nil hq
    omega
  constructor
  · intro h
    have hsuffix := take_border_suffix (q ++ [a])
    rw [h] at hsuffix
    exact ((take_succ_suffix_concat hlt).mp hsuffix).2
  · intro h
    apply Nat.le_antisymm (border_concat_le q a)
    apply le_border
    · rw [List.length_append, List.length_singleton]
      omega
    · exact (take_succ_suffix_concat hlt).mpr ⟨take_border_suffix q, h⟩

/-- From each prefix of `p` to the next the border grows by one or is lost. -/
def BordersGrow (p : List α) : Prop :=
  ∀ i, i < p.length → border (p.take (i + 1)) = border (p.take i) + 1 ∨ border (p.take (i + 1)) = 0

instance (p : List α) : Decidable (BordersGrow p) :=
  inferInstanceAs (Decidable (∀ i, i < p.length → _))

/-! ## Shifts of a search -/

section Shift

variable {p text : List α} {l : ℕ}

omit [DecidableEq α]

/-- What a border keeps matched when the candidate moves to it. -/
lemma take_prefix_drop_of_suffix {v : ℕ} (hmatch : p.take l <+: text) (hl : l ≤ p.length)
    (hv : v ≤ l) (hborder : p.take v <:+ p.take l) : p.take v <+: text.drop (l - v) := by
  obtain ⟨rest, rfl⟩ := hmatch
  obtain ⟨x, hx⟩ := hborder
  have hlen : x.length = l - v := by
    have := congrArg List.length hx
    simp only [List.length_append, List.length_take] at this
    omega
  rw [← hx, List.append_assoc, List.drop_left' hlen]
  exact List.prefix_append _ _

/-- An occurrence inside the matched part overlaps it in a border. -/
lemma take_suffix_of_prefix_drop {d : ℕ} (hmatch : p.take l <+: text) (hl : l ≤ p.length)
    (hd : d ≤ l) (hoccurs : p <+: text.drop d) : p.take (l - d) <:+ p.take l := by
  obtain ⟨rest, rfl⟩ := hmatch
  have hlen : (p.take l).length = l := by rw [List.length_take]; omega
  have hsame : p.take (l - d) = (p.take l).drop d := by
    have hprefix := List.prefix_iff_eq_take.mp ((List.take_prefix (l - d) p).trans hoccurs)
    rw [List.drop_append_of_le_length (by omega), List.length_take_of_le (by omega),
      List.take_left' (by rw [List.length_drop]; omega)] at hprefix
    exact hprefix
  rw [hsame]
  exact List.drop_suffix d _

/-- One more element that agrees is one more matched. -/
lemma take_succ_prefix {a : α} (hmatch : p.take l <+: text) (hl : l ≤ p.length)
    (hp : p[l]? = some a) (htext : text[l]? = some a) : p.take (l + 1) <+: text := by
  obtain ⟨rest, rfl⟩ := hmatch
  have hlen : (p.take l).length = l := by rw [List.length_take]; omega
  rw [List.getElem?_append_right (by omega), hlen, Nat.sub_self] at htext
  rw [List.take_add_one, hp]
  match rest, htext with
  | b :: rest, h =>
    obtain rfl := Option.some.inj h
    exact ⟨rest, by simp⟩

end Shift
end NetworkProgramming
