import Mathlib.Tactic

/-!
# Hash tables seen through their iterator

A hash table is the list of its rows in the order an iterator meets them, with one row per
key. `insert` replaces the value of a key that is present, as GLib's does. The order of
iteration is not specified by the library that is modelled here, so `reorder` may change it
at any time; nothing that is stated through `lookup` depends on it.

`pass` is the loop that visits every row once, threads a state, may rewrite the value of the
row it visits, emits outputs and may stop the program. `pass_trace` is its one rule: a pass
that succeeds is a list of calls, one per row, in order.
-/

namespace NetworkProgramming

/-- A table from keys `κ` to values `ν`, rows in iteration order. -/
structure HashTable (κ ν : Type*) where
  rows : List (κ × ν)
  nodup : (rows.map Prod.fst).Nodup

namespace HashTable

variable {κ ν σ ω ξ : Type*}

/-- The table without rows. -/
def empty : HashTable κ ν := ⟨[], List.nodup_nil⟩

/-- The keys, in iteration order. -/
def keys (t : HashTable κ ν) : List κ := t.rows.map Prod.fst

/-- The values, in iteration order. -/
def values (t : HashTable κ ν) : List ν := t.rows.map Prod.snd

@[simp] lemma rows_empty : (empty : HashTable κ ν).rows = [] := rfl

section Lookup

variable [DecidableEq κ]

/-- The value stored under a key. -/
def lookup (t : HashTable κ ν) (k : κ) : Option ν := t.rows.lookup k

/-- Rows with distinct keys are found by their key. -/
lemma lookup_rows_eq_some {rows : List (κ × ν)} (h : (rows.map Prod.fst).Nodup) {k : κ} {v : ν} :
    rows.lookup k = some v ↔ (k, v) ∈ rows := by
  induction rows with
  | nil => simp
  | cons x rows ih =>
    obtain ⟨k', v'⟩ := x
    obtain ⟨hk', hrows⟩ := List.nodup_cons.mp h
    by_cases hkk : k = k'
    · subst hkk
      have hnot : (k, v) ∉ rows := fun hmem => hk' (List.mem_map.mpr ⟨_, hmem, rfl⟩)
      simp [hnot, eq_comm]
    · have hbeq : (k == k') = false := by simpa using hkk
      simp [List.lookup_cons, hbeq, ih hrows, hkk]

theorem lookup_eq_some {t : HashTable κ ν} {k : κ} {v : ν} :
    t.lookup k = some v ↔ (k, v) ∈ t.rows := lookup_rows_eq_some t.nodup

lemma lookup_eq_none {t : HashTable κ ν} {k : κ} :
    t.lookup k = none ↔ ∀ v, (k, v) ∉ t.rows := by
  simp only [← lookup_eq_some, ← Option.not_isSome_iff_eq_none, Option.isSome_iff_exists,
    not_exists]

@[simp] lemma lookup_empty (k : κ) : (empty : HashTable κ ν).lookup k = none := rfl

/-- Two tables with the same rows up to order answer every lookup alike. -/
lemma lookup_congr {t t' : HashTable κ ν} (h : t'.rows.Perm t.rows) (k : κ) :
    t'.lookup k = t.lookup k := by
  ext v
  rw [lookup_eq_some, lookup_eq_some, h.mem_iff]

/-! ## Insertion -/

/-- Replace the value of `k` in place, or add a row at the end. -/
def insertRows (k : κ) (v : ν) : List (κ × ν) → List (κ × ν)
  | [] => [(k, v)]
  | (k', v') :: rows => if k' = k then (k, v) :: rows else (k', v') :: insertRows k v rows

lemma mem_insertRows {k k' : κ} {v v' : ν} {rows : List (κ × ν)}
    (h : (rows.map Prod.fst).Nodup) :
    (k', v') ∈ insertRows k v rows ↔ (k', v') = (k, v) ∨ (k' ≠ k ∧ (k', v') ∈ rows) := by
  induction rows with
  | nil => simp [insertRows]
  | cons x rows ih =>
    obtain ⟨k₁, v₁⟩ := x
    obtain ⟨hk₁, hrows⟩ := List.nodup_cons.mp h
    by_cases hk : k₁ = k
    · subst hk
      have hne : (k', v') ∈ rows → k' ≠ k₁ := fun hmem heq =>
        hk₁ (List.mem_map.mpr ⟨_, hmem, heq⟩)
      simp only [insertRows, if_pos, List.mem_cons, Prod.mk.injEq]
      refine or_congr_right ⟨fun hmem => ⟨hne hmem, Or.inr hmem⟩, ?_⟩
      rintro ⟨hother, hmem⟩
      exact hmem.resolve_left fun heq => hother heq.1
    · simp only [insertRows, if_neg hk, List.mem_cons, ih hrows, Prod.mk.injEq]
      rw [or_left_comm, and_or_left]
      refine or_congr_right (or_congr_left ⟨fun heq => ⟨?_, heq⟩, And.right⟩)
      rw [heq.1]
      exact hk

lemma map_fst_insertRows (k : κ) (v : ν) (rows : List (κ × ν)) :
    (insertRows k v rows).map Prod.fst
      = if k ∈ rows.map Prod.fst then rows.map Prod.fst else rows.map Prod.fst ++ [k] := by
  induction rows with
  | nil => simp [insertRows]
  | cons x rows ih =>
    obtain ⟨k', v'⟩ := x
    by_cases hk : k' = k
    · simp [insertRows, hk]
    · have hk' : ¬ k = k' := fun h => hk h.symm
      simp only [insertRows, if_neg hk, List.map_cons, ih, List.mem_cons, hk', false_or]
      split <;> rfl

/-- Store `v` under `k`. -/
def insert (t : HashTable κ ν) (k : κ) (v : ν) : HashTable κ ν where
  rows := insertRows k v t.rows
  nodup := by
    rw [map_fst_insertRows]
    split
    · exact t.nodup
    · rename_i hk
      exact List.Nodup.append t.nodup (List.nodup_singleton k) (by simpa using hk)

theorem mem_rows_insert {t : HashTable κ ν} {k k' : κ} {v v' : ν} :
    (k', v') ∈ (t.insert k v).rows ↔ (k', v') = (k, v) ∨ (k' ≠ k ∧ (k', v') ∈ t.rows) :=
  mem_insertRows t.nodup

@[simp] lemma lookup_insert_self (t : HashTable κ ν) (k : κ) (v : ν) :
    (t.insert k v).lookup k = some v := by
  simp [lookup_eq_some, mem_rows_insert]

lemma lookup_insert_ne (t : HashTable κ ν) {k k' : κ} (v : ν) (h : k' ≠ k) :
    (t.insert k v).lookup k' = t.lookup k' := by
  ext v'
  simp [lookup_eq_some, mem_rows_insert, h]

/-- Storing twice under one key keeps the second value. -/
@[simp] lemma insert_insert (t : HashTable κ ν) (k : κ) (v v' : ν) :
    (t.insert k v).insert k v' = t.insert k v' := by
  have hrows : ∀ rows : List (κ × ν),
      insertRows k v' (insertRows k v rows) = insertRows k v' rows := by
    intro rows
    induction rows with
    | nil => simp [insertRows]
    | cons x rows ih =>
      obtain ⟨k₁, v₁⟩ := x
      by_cases hk : k₁ = k
      · simp [insertRows, hk]
      · simp [insertRows, hk, ih]
  show HashTable.mk _ _ = HashTable.mk _ _
  congr 1
  exact hrows t.rows

/-- A new key is added behind the rows that are there. -/
lemma rows_insert_of_lookup_none {t : HashTable κ ν} {k : κ} {v : ν} (h : t.lookup k = none) :
    (t.insert k v).rows = t.rows ++ [(k, v)] := by
  have hk : k ∉ t.rows.map Prod.fst := by
    intro hmem
    obtain ⟨⟨k', v'⟩, hrow, rfl⟩ := List.mem_map.mp hmem
    exact lookup_eq_none.mp h v' hrow
  show insertRows k v t.rows = _
  generalize t.rows = rows at hk
  induction rows with
  | nil => rfl
  | cons x rows ih =>
    obtain ⟨k', v'⟩ := x
    simp only [List.map_cons, List.mem_cons, not_or] at hk
    rw [insertRows, if_neg (Ne.symm hk.1), ih hk.2, List.cons_append]

/-! ## Totals -/

/-- The sum of `f` over the values of the table. -/
def total (f : ν → ℕ) (t : HashTable κ ν) : ℕ := (t.values.map f).sum

omit [DecidableEq κ] in
@[simp] lemma total_empty (f : ν → ℕ) : (empty : HashTable κ ν).total f = 0 := rfl

lemma total_insert_of_none {f : ν → ℕ} {t : HashTable κ ν} {k : κ} {v : ν}
    (h : t.lookup k = none) : (t.insert k v).total f = t.total f + f v := by
  simp [total, values, rows_insert_of_lookup_none h]

/-- Replacing a value changes the total by the difference. -/
lemma total_insert_of_some {f : ν → ℕ} {t : HashTable κ ν} {k : κ} {v v' : ν}
    (h : t.lookup k = some v) : (t.insert k v').total f + f v = t.total f + f v' := by
  have hrows : ∀ rows : List (κ × ν), rows.lookup k = some v →
      (((insertRows k v' rows).map Prod.snd).map f).sum + f v
        = ((rows.map Prod.snd).map f).sum + f v' := by
    intro rows
    induction rows with
    | nil => intro hk; cases hk
    | cons x rows ih =>
      obtain ⟨k₁, v₁⟩ := x
      intro hk
      by_cases hk₁ : k₁ = k
      · subst hk₁
        rw [List.lookup_cons, beq_self_eq_true] at hk
        cases hk
        simp only [insertRows, if_pos, List.map_cons, List.sum_cons]
        omega
      · have hne : (k == k₁) = false := by simpa using Ne.symm hk₁
        rw [List.lookup_cons, hne] at hk
        simp only [insertRows, if_neg hk₁, List.map_cons, List.sum_cons]
        have := ih hk
        omega
  exact hrows t.rows h

/-- One value is part of the total. -/
lemma le_total {f : ν → ℕ} {t : HashTable κ ν} {k : κ} {v : ν} (h : t.lookup k = some v) :
    f v ≤ t.total f := by
  refine List.le_sum_of_mem (List.mem_map_of_mem ?_)
  exact List.mem_map_of_mem (f := Prod.snd) (lookup_eq_some.mp h)

omit [DecidableEq κ] in
lemma total_congr {f : ν → ℕ} {t t' : HashTable κ ν} (h : t'.rows.Perm t.rows) :
    t'.total f = t.total f := by
  simp only [total, values]
  exact ((h.map _).map _).sum_eq

/-! ## Iteration order -/

/-- The table met in the order `ks`, when `ks` lists its keys. -/
def reorder (t : HashTable κ ν) (ks : List κ) : HashTable κ ν :=
  if h : ks.Perm t.keys then
    ⟨ks.filterMap fun k => (t.lookup k).map (k, ·), by
      have hkeys : (ks.filterMap fun k => (t.lookup k).map (k, ·)).map Prod.fst = ks := by
        have hall : ∀ k ∈ ks, ∃ v, t.lookup k = some v := by
          intro k hk
          obtain ⟨⟨k', v⟩, hrow, rfl⟩ := List.mem_map.mp (h.subset hk)
          exact ⟨v, lookup_eq_some.mpr hrow⟩
        clear h
        induction ks with
        | nil => rfl
        | cons k ks ih =>
          obtain ⟨v, hv⟩ := hall k List.mem_cons_self
          simp [hv, ih fun k' hk' => hall k' (List.mem_cons_of_mem _ hk')]
      rw [hkeys]
      exact h.nodup_iff.mpr t.nodup⟩
  else t

lemma mem_rows_reorder {t : HashTable κ ν} {ks : List κ} {x : κ × ν} :
    x ∈ (t.reorder ks).rows ↔ x ∈ t.rows := by
  unfold reorder
  split
  · rename_i h
    obtain ⟨k, v⟩ := x
    have hkey : (k, v) ∈ t.rows → k ∈ ks := fun hmem => h.symm.subset (List.mem_map_of_mem hmem)
    simp only [List.mem_filterMap, Option.map_eq_some_iff, Prod.mk.injEq]
    constructor
    · rintro ⟨k', _, v', hv', rfl, rfl⟩
      exact lookup_eq_some.mp hv'
    · exact fun hmem => ⟨k, hkey hmem, v, lookup_eq_some.mpr hmem, rfl, rfl⟩
  · rfl

lemma reorder_perm (t : HashTable κ ν) (ks : List κ) : (t.reorder ks).rows.Perm t.rows :=
  (List.perm_ext_iff_of_nodup (t.reorder ks).nodup.of_map t.nodup.of_map).mpr
    fun _ => mem_rows_reorder

@[simp] lemma lookup_reorder (t : HashTable κ ν) (ks : List κ) (k : κ) :
    (t.reorder ks).lookup k = t.lookup k := lookup_congr (t.reorder_perm ks) k

end Lookup

/-! ## Passes over the rows -/

/-- The loop of a pass over a list of rows. -/
def passRows (f : σ → κ → ν → Except ξ (σ × ν × List ω)) :
    σ → List (κ × ν) → Except ξ (σ × List (κ × ν) × List ω)
  | s, [] => .ok (s, [], [])
  | s, (k, v) :: rows =>
    match f s k v with
    | .error x => .error x
    | .ok (s₁, v', o) =>
      match passRows f s₁ rows with
      | .error x => .error x
      | .ok (s₂, rows', os) => .ok (s₂, (k, v') :: rows', o ++ os)

/-- One call of a pass: the row it visits, its new value and what it emits. -/
structure Visit (κ ν ω : Type*) where
  key : κ
  old : ν
  new : ν
  outs : List ω

/-- A visit that `f` makes from some state of the pass. -/
def Visit.By (f : σ → κ → ν → Except ξ (σ × ν × List ω)) (x : Visit κ ν ω) : Prop :=
  ∃ s s', f s x.key x.old = .ok (s', x.new, x.outs)

theorem passRows_trace {f : σ → κ → ν → Except ξ (σ × ν × List ω)} {s s' : σ}
    {rows rows' : List (κ × ν)} {os : List ω} (h : passRows f s rows = .ok (s', rows', os)) :
    ∃ xs : List (Visit κ ν ω), (∀ x ∈ xs, x.By f) ∧ rows = xs.map (fun x => (x.key, x.old)) ∧
      rows' = xs.map (fun x => (x.key, x.new)) ∧ os = xs.flatMap Visit.outs := by
  induction rows generalizing s rows' os with
  | nil => cases h; exact ⟨[], by simp⟩
  | cons row rows ih =>
    obtain ⟨k, v⟩ := row
    rw [passRows] at h
    split at h
    · cases h
    · rename_i s₁ v' o hf
      split at h
      · cases h
      · rename_i s₂ rows₂ os₂ hrows
        cases h
        obtain ⟨xs, hxs, rfl, rfl, rfl⟩ := ih hrows
        exact ⟨⟨k, v, v', o⟩ :: xs, by simpa using ⟨⟨s, s₁, hf⟩, hxs⟩, rfl, rfl, rfl⟩

lemma passRows_keys {f : σ → κ → ν → Except ξ (σ × ν × List ω)} {s s' : σ}
    {rows rows' : List (κ × ν)} {os : List ω} (h : passRows f s rows = .ok (s', rows', os)) :
    rows'.map Prod.fst = rows.map Prod.fst := by
  obtain ⟨xs, -, rfl, rfl, -⟩ := passRows_trace h
  simp [Function.comp_def]

/-- Visit every row once, in iteration order. -/
def pass (f : σ → κ → ν → Except ξ (σ × ν × List ω)) (s : σ) (t : HashTable κ ν) :
    Except ξ (σ × HashTable κ ν × List ω) :=
  match h : passRows f s t.rows with
  | .error x => .error x
  | .ok (s', rows', os) => .ok (s', ⟨rows', by rw [passRows_keys h]; exact t.nodup⟩, os)

/-- A pass that succeeds is a list of visits, one per row, in iteration order. -/
theorem pass_trace {f : σ → κ → ν → Except ξ (σ × ν × List ω)} {s s' : σ}
    {t t' : HashTable κ ν} {os : List ω} (h : pass f s t = .ok (s', t', os)) :
    ∃ xs : List (Visit κ ν ω), (∀ x ∈ xs, x.By f) ∧ t.rows = xs.map (fun x => (x.key, x.old)) ∧
      t'.rows = xs.map (fun x => (x.key, x.new)) ∧ os = xs.flatMap Visit.outs := by
  unfold pass at h
  split at h
  · cases h
  · rename_i s₂ rows₂ os₂ hrows
    cases h
    exact passRows_trace hrows

/-- A pass that fails has failed at one of its visits. -/
lemma pass_error {f : σ → κ → ν → Except ξ (σ × ν × List ω)} {s : σ} {t : HashTable κ ν} {x : ξ}
    (h : pass f s t = .error x) : ∃ s' k v, (k, v) ∈ t.rows ∧ f s' k v = .error x := by
  have hrows : ∀ (rows : List (κ × ν)) s, passRows f s rows = .error x →
      ∃ s' k v, (k, v) ∈ rows ∧ f s' k v = .error x := by
    intro rows
    induction rows with
    | nil => intro s hs; cases hs
    | cons row rows ih =>
      obtain ⟨k, v⟩ := row
      intro s hs
      rw [passRows] at hs
      split at hs
      · rename_i y hf
        cases hs
        exact ⟨s, k, v, List.mem_cons_self, hf⟩
      · split at hs
        · rename_i y hrest
          cases hs
          obtain ⟨s', k', v', hmem, hf⟩ := ih _ hrest
          exact ⟨s', k', v', List.mem_cons_of_mem _ hmem, hf⟩
        · cases hs
  unfold pass at h
  split at h
  · rename_i y hpass
    cases h
    exact hrows _ s hpass
  · cases h

/-- When each visit moves the state by what it emits, so does the pass. -/
lemma pass_fold {f : σ → κ → ν → Except ξ (σ × ν × List ω)} {g : σ → List ω → σ}
    (hnil : ∀ s, g s [] = s) (happend : ∀ s o o', g s (o ++ o') = g (g s o) o')
    (hf : ∀ s k v s' v' o, f s k v = .ok (s', v', o) → s' = g s o) {s s' : σ}
    {t t' : HashTable κ ν} {os : List ω} (h : pass f s t = .ok (s', t', os)) : s' = g s os := by
  have hrows : ∀ (rows : List (κ × ν)) s rows' os,
      passRows f s rows = .ok (s', rows', os) → s' = g s os := by
    intro rows
    induction rows with
    | nil =>
      intro s rows' os hs
      cases hs
      exact (hnil s').symm
    | cons row rows ih =>
      obtain ⟨k, v⟩ := row
      intro s rows' os hs
      rw [passRows] at hs
      split at hs
      · cases hs
      · rename_i s₁ v' o hvisit
        split at hs
        · cases hs
        · rename_i s₂ rows₂ os₂ hrest
          cases hs
          rw [happend, ← hf _ _ _ _ _ _ hvisit]
          exact ih _ _ _ hrest
  unfold pass at h
  split at h
  · cases h
  · rename_i s₂ rows₂ os₂ hpass
    cases h
    exact hrows _ _ _ _ hpass

/-- A pass succeeds when every visit does. -/
lemma pass_total {f : σ → κ → ν → Except ξ (σ × ν × List ω)} {t : HashTable κ ν}
    (h : ∀ s k v, (k, v) ∈ t.rows → ∃ r, f s k v = .ok r) (s : σ) :
    ∃ r, pass f s t = .ok r := by
  have hrows : ∀ (rows : List (κ × ν)), (∀ s k v, (k, v) ∈ rows → ∃ r, f s k v = .ok r) →
      ∀ s, ∃ r, passRows f s rows = .ok r := by
    intro rows
    induction rows with
    | nil => exact fun _ s => ⟨_, rfl⟩
    | cons row rows ih =>
      obtain ⟨k, v⟩ := row
      intro hall s
      obtain ⟨r, hr⟩ := hall s k v List.mem_cons_self
      obtain ⟨r', hr'⟩ := ih (fun s k v hm => hall s k v (List.mem_cons_of_mem _ hm)) r.1
      exact ⟨(r'.1, (k, r.2.1) :: r'.2.1, r.2.2 ++ r'.2.2), by simp [passRows, hr, hr']⟩
  obtain ⟨r, hr⟩ := hrows t.rows h s
  unfold pass
  split
  · rename_i x hx
    rw [hr] at hx
    cases hx
  · exact ⟨_, rfl⟩

/-- A pass whose visits change nothing and emit nothing does neither. -/
lemma pass_still {f : σ → κ → ν → Except ξ (σ × ν × List ω)} {s : σ} {t : HashTable κ ν}
    (h : ∀ k v, (k, v) ∈ t.rows → f s k v = .ok (s, v, [])) : pass f s t = .ok (s, t, []) := by
  have hrows : ∀ rows : List (κ × ν), (∀ k v, (k, v) ∈ rows → f s k v = .ok (s, v, [])) →
      passRows f s rows = .ok (s, rows, []) := by
    intro rows hall
    induction rows with
    | nil => rfl
    | cons row rows ih =>
      obtain ⟨k, v⟩ := row
      have hrest := ih fun k' v' hm => hall k' v' (List.mem_cons_of_mem _ hm)
      rw [passRows, hall k v List.mem_cons_self]
      simp only [hrest, List.append_nil]
  unfold pass
  split
  · rename_i x hx
    rw [hrows t.rows h] at hx
    cases hx
  · rename_i s' rows' os hx
    rw [hrows t.rows h] at hx
    cases hx
    rfl

section PassLookup

variable [DecidableEq κ]

/-- What a pass does to one key: its row is visited once, and everything else that is emitted
comes from rows with other keys. -/
theorem pass_lookup {f : σ → κ → ν → Except ξ (σ × ν × List ω)} {s s' : σ}
    {t t' : HashTable κ ν} {os : List ω} (h : pass f s t = .ok (s', t', os)) {k : κ} {v : ν}
    (hk : t.lookup k = some v) :
    ∃ x : Visit κ ν ω, x.By f ∧ x.key = k ∧ x.old = v ∧ t'.lookup k = some x.new ∧
      ∃ os₁ os₂, os = os₁ ++ x.outs ++ os₂ ∧
        ∀ o ∈ os₁ ++ os₂, ∃ y : Visit κ ν ω, y.By f ∧ y.key ≠ k ∧
          t.lookup y.key = some y.old ∧ o ∈ y.outs := by
  obtain ⟨xs, hby, hrows, hrows', rfl⟩ := pass_trace h
  obtain ⟨x, hx, hxe⟩ := List.mem_map.mp (hrows ▸ lookup_eq_some.mp hk)
  obtain ⟨rfl, rfl⟩ := Prod.mk.inj hxe
  obtain ⟨xs₁, xs₂, rfl⟩ := List.append_of_mem hx
  have hnodup : ((xs₁ ++ x :: xs₂).map Visit.key).Nodup := by
    have := t.nodup
    rwa [hrows, List.map_map] at this
  refine ⟨x, hby x hx, rfl, rfl, lookup_eq_some.mpr ?_, xs₁.flatMap Visit.outs,
    xs₂.flatMap Visit.outs, by simp, ?_⟩
  · rw [hrows']
    exact List.mem_map_of_mem (f := fun x : Visit κ ν ω => (x.key, x.new)) hx
  · intro o ho
    rw [← List.flatMap_append] at ho
    obtain ⟨y, hy, hoy⟩ := List.mem_flatMap.mp ho
    have hy' : y ∈ xs₁ ++ x :: xs₂ := by
      rcases List.mem_append.mp hy with hy | hy <;> simp [hy]
    -- the keys of a table are distinct
    have hne : y.key ≠ x.key := by
      rw [List.map_append, List.map_cons, List.nodup_middle, ← List.map_append] at hnodup
      exact fun heq => (List.nodup_cons.mp hnodup).1 (heq ▸ List.mem_map_of_mem hy)
    refine ⟨y, hby y hy', hne, lookup_eq_some.mpr ?_, hoy⟩
    rw [hrows]
    exact List.mem_map_of_mem (f := fun x : Visit κ ν ω => (x.key, x.old)) hy'

omit [DecidableEq κ] in
/-- A pass whose visits keep `g` keeps its total. -/
lemma pass_total_eq {f : σ → κ → ν → Except ξ (σ × ν × List ω)} {g : ν → ℕ}
    (hg : ∀ x : Visit κ ν ω, x.By f → g x.new = g x.old) {s s' : σ} {t t' : HashTable κ ν}
    {os : List ω} (h : pass f s t = .ok (s', t', os)) : t'.total g = t.total g := by
  obtain ⟨xs, hby, hrows, hrows', -⟩ := pass_trace h
  simp only [total, values, hrows, hrows', List.map_map, Function.comp_def]
  exact congrArg List.sum (List.map_congr_left fun x hx => hg x (hby x hx))

/-- Everything a pass emits comes from the visit of some row. -/
lemma pass_outs {f : σ → κ → ν → Except ξ (σ × ν × List ω)} {s s' : σ}
    {t t' : HashTable κ ν} {os : List ω} (h : pass f s t = .ok (s', t', os)) {o : ω}
    (ho : o ∈ os) :
    ∃ x : Visit κ ν ω, x.By f ∧ t.lookup x.key = some x.old ∧ t'.lookup x.key = some x.new ∧
      o ∈ x.outs := by
  obtain ⟨xs, hby, hrows, hrows', rfl⟩ := pass_trace h
  obtain ⟨x, hx, hox⟩ := List.mem_flatMap.mp ho
  refine ⟨x, hby x hx, lookup_eq_some.mpr ?_, lookup_eq_some.mpr ?_, hox⟩
  · rw [hrows]
    exact List.mem_map_of_mem (f := fun x : Visit κ ν ω => (x.key, x.old)) hx
  · rw [hrows']
    exact List.mem_map_of_mem (f := fun x : Visit κ ν ω => (x.key, x.new)) hx

/-- A pass adds no key. -/
lemma pass_lookup_none {f : σ → κ → ν → Except ξ (σ × ν × List ω)} {s s' : σ}
    {t t' : HashTable κ ν} {os : List ω} (h : pass f s t = .ok (s', t', os)) {k : κ}
    (hk : t.lookup k = none) : t'.lookup k = none := by
  obtain ⟨xs, -, hrows, hrows', -⟩ := pass_trace h
  rw [lookup_eq_none] at hk ⊢
  intro v hv
  rw [hrows'] at hv
  obtain ⟨x, hx, hxe⟩ := List.mem_map.mp hv
  obtain ⟨rfl, rfl⟩ := Prod.mk.inj hxe
  apply hk x.old
  rw [hrows]
  exact List.mem_map_of_mem (f := fun x : Visit κ ν ω => (x.key, x.old)) hx

end PassLookup

end HashTable
end NetworkProgramming
