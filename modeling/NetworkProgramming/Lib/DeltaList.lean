import Mathlib.Tactic
import Mathlib.Data.List.Sort

/-!
# Delta lists

A delta list keeps a set of deadlines as a list in which every entry stores only the
distance to its predecessor. `absolute t l` reads it back as absolute times, counted from
the present `t`; the lemmas say what each operation on the distances does to these times:

* `insert` is a stable ordered insertion (`absolute_insert`);
* `erase` removes one entry and moves no other (`absolute_erase`);
* `carry` lets time pass: entries that are overdue are clamped to the present
  (`absolute_carry`);
* the entries with distance `≤ 0` at the front are those that are due
  (`absolute_dropWhile`, `takeWhile_absolute`).
-/

namespace NetworkProgramming
namespace DeltaList

variable {κ α : Type*} [AddCommGroup α] [LinearOrder α] [IsOrderedAddMonoid α]

/-- The absolute times a delta list denotes when the present is `t`. -/
def absolute : α → List (κ × α) → List (κ × α)
  | _, [] => []
  | t, (k, d) :: l => (k, t + d) :: absolute (t + d) l

/-- Insert `k` at distance `d` from the front, after every entry that is not later. -/
def insert (k : κ) : α → List (κ × α) → List (κ × α)
  | d, [] => [(k, d)]
  | d, (k', d') :: l =>
    if d < d' then (k, d) :: (k', d' - d) :: l else (k', d') :: insert k (d - d') l

/-- Add `d` to the first distance. -/
def addHead (d : α) : List (κ × α) → List (κ × α)
  | [] => []
  | (k, d') :: l => (k, d' + d) :: l

/-- Remove the first entry whose key satisfies `p`; its distance goes to its successor. -/
def erase (p : κ → Bool) : List (κ × α) → List (κ × α)
  | [] => []
  | (k, d) :: l => if p k then addHead d l else (k, d) :: erase p l

/-- Add `c` to the first distance and pass a negative remainder down the list, leaving `0`
behind. -/
def carry : α → List (κ × α) → List (κ × α)
  | _, [] => []
  | c, (k, d) :: l => if 0 < d + c then (k, d + c) :: l else (k, 0) :: carry (d + c) l

/-- No entry lies before its predecessor. -/
def Nonneg (l : List (κ × α)) : Prop := ∀ x ∈ l, 0 ≤ x.2

omit [IsOrderedAddMonoid α] in
@[simp] lemma nonneg_nil : Nonneg ([] : List (κ × α)) := by simp [Nonneg]

omit [IsOrderedAddMonoid α] in
@[simp] lemma nonneg_cons {x : κ × α} {l : List (κ × α)} :
    Nonneg (x :: l) ↔ 0 ≤ x.2 ∧ Nonneg l := by simp [Nonneg]

/-! ## Absolute times -/

omit [LinearOrder α] [IsOrderedAddMonoid α] in
@[simp] lemma absolute_map_fst (t : α) (l : List (κ × α)) :
    (absolute t l).map Prod.fst = l.map Prod.fst := by
  induction l generalizing t with
  | nil => rfl
  | cons x l ih => obtain ⟨k, d⟩ := x; simp [absolute, ih]

/-- Every time of a non-negative delta list is at least the present. -/
lemma le_of_mem_absolute {t : α} {l : List (κ × α)} (hl : Nonneg l) :
    ∀ x ∈ absolute t l, t ≤ x.2 := by
  induction l generalizing t with
  | nil => simp [absolute]
  | cons y l ih =>
    obtain ⟨k, d⟩ := y
    obtain ⟨hd, hl⟩ := nonneg_cons.mp hl
    intro x hx
    have htd : t ≤ t + d := le_add_of_nonneg_right hd
    rcases List.mem_cons.mp hx with rfl | hx
    · exact htd
    · exact htd.trans (ih hl x hx)

omit [LinearOrder α] [IsOrderedAddMonoid α] in
lemma absolute_addHead (t d : α) (l : List (κ × α)) :
    absolute t (addHead d l) = absolute (t + d) l := by
  cases l with
  | nil => rfl
  | cons x l =>
    obtain ⟨k, d'⟩ := x
    rw [addHead, absolute, absolute, add_assoc t d d', add_comm d d']

/-! ## Insertion -/

/-- Inserting at distance `d` inserts the time `t + d` behind every time that is not later. -/
theorem absolute_insert (k : κ) (t d : α) (l : List (κ × α)) :
    absolute t (insert k d l)
      = (absolute t l).orderedInsert (fun a b => a.2 < b.2) (k, t + d) := by
  induction l generalizing t d with
  | nil => rfl
  | cons x l ih =>
    obtain ⟨k', d'⟩ := x
    by_cases h : d < d'
    · have hlt : t + d < t + d' := by gcongr
      have hsum : t + d + (d' - d) = t + d' := by abel
      simp [insert, h, absolute, hlt, hsum]
    · have hlt : ¬ t + d < t + d' := by simpa using not_lt.mp h
      have hsum : t + d' + (d - d') = t + d := by abel
      rw [insert, if_neg h, absolute, ih, absolute, hsum]
      simp [hlt]

lemma nonneg_insert {k : κ} {d : α} {l : List (κ × α)} (hd : 0 ≤ d) (hl : Nonneg l) :
    Nonneg (insert k d l) := by
  induction l generalizing d with
  | nil => simp [insert, hd]
  | cons x l ih =>
    obtain ⟨k', d'⟩ := x
    obtain ⟨hd', hl⟩ := nonneg_cons.mp hl
    by_cases h : d < d'
    · simp [insert, h, hd, hl, h.le]
    · have hrest : 0 ≤ d - d' := sub_nonneg.mpr (not_lt.mp h)
      simp [insert, h, hd', ih hrest hl]

/-! ## Removal -/

omit [LinearOrder α] [IsOrderedAddMonoid α] in
/-- Removing an entry moves no other. -/
theorem absolute_erase (p : κ → Bool) (t : α) (l : List (κ × α)) :
    absolute t (erase p l) = (absolute t l).eraseP (fun x => p x.1) := by
  induction l generalizing t with
  | nil => rfl
  | cons x l ih =>
    obtain ⟨k, d⟩ := x
    cases h : p k
    · simp [erase, h, absolute, ih]
    · simp [erase, h, absolute, absolute_addHead]

lemma nonneg_erase {p : κ → Bool} {l : List (κ × α)} (hl : Nonneg l) :
    Nonneg (erase p l) := by
  induction l with
  | nil => simp [erase]
  | cons x l ih =>
    obtain ⟨k, d⟩ := x
    obtain ⟨hd, hl⟩ := nonneg_cons.mp hl
    cases h : p k
    · simp [erase, h, hd, ih hl]
    · cases l with
      | nil => simp [erase, h, addHead]
      | cons y l =>
        obtain ⟨k', d'⟩ := y
        obtain ⟨hd', hl⟩ := nonneg_cons.mp hl
        simp [erase, h, addHead, add_nonneg hd' hd, hl]

/-! ## Time passes -/

/-- Times not before the present are left alone by clamping. -/
lemma map_max_absolute {t u : α} {l : List (κ × α)} (hl : Nonneg l) (htu : t ≤ u) :
    (absolute u l).map (fun x => (x.1, max t x.2)) = absolute u l := by
  have hid : ∀ x ∈ absolute u l, (x.1, max t x.2) = id x := fun x hx => by
    rw [max_eq_right (htu.trans (le_of_mem_absolute hl x hx))]; rfl
  rw [List.map_congr_left hid, List.map_id]

/-- After `carry`, read from the new present `t`, every time is its old value, clamped to
`t` when it lies in the past. -/
theorem absolute_carry (t c : α) {l : List (κ × α)} (hl : Nonneg l) :
    absolute t (carry c l) = (absolute (t + c) l).map (fun x => (x.1, max t x.2)) := by
  induction l generalizing c with
  | nil => rfl
  | cons x l ih =>
    obtain ⟨k, d⟩ := x
    obtain ⟨hd, hl⟩ := nonneg_cons.mp hl
    have hsum : t + c + d = t + (d + c) := by abel
    by_cases h : 0 < d + c
    · have hle : t ≤ t + (d + c) := le_add_of_nonneg_right h.le
      rw [carry, if_pos h, absolute, absolute, hsum, List.map_cons,
        map_max_absolute hl hle, max_eq_right hle]
    · have hle : t + (d + c) ≤ t := add_le_of_nonpos_right (not_lt.mp h)
      rw [carry, if_neg h, absolute, absolute, hsum, List.map_cons, max_eq_left hle,
        add_zero, ih _ hl]

omit [IsOrderedAddMonoid α] in
lemma nonneg_carry (c : α) {l : List (κ × α)} (hl : Nonneg l) : Nonneg (carry c l) := by
  induction l generalizing c with
  | nil => simp [carry]
  | cons x l ih =>
    obtain ⟨k, d⟩ := x
    obtain ⟨hd, hl⟩ := nonneg_cons.mp hl
    by_cases h : 0 < d + c
    · simp [carry, h, h.le, hl]
    · simp [carry, h, ih _ hl]

/-! ## The entries that are due -/

/-- The entries left when the due ones are taken off the front keep their times. -/
theorem absolute_dropWhile (t : α) {l : List (κ × α)} (hl : Nonneg l) :
    absolute t (l.dropWhile (fun x => decide (x.2 ≤ 0)))
      = (absolute t l).dropWhile (fun x => decide (x.2 ≤ t)) := by
  induction l with
  | nil => rfl
  | cons x l ih =>
    obtain ⟨k, d⟩ := x
    obtain ⟨hd, htl⟩ := nonneg_cons.mp hl
    by_cases h : d ≤ 0
    · obtain rfl : d = 0 := le_antisymm h hd
      simp [absolute, ih htl]
    · simp [absolute, h]

/-- The entries taken off the front are those whose time has come. -/
theorem takeWhile_absolute (t : α) {l : List (κ × α)} (hl : Nonneg l) :
    (l.takeWhile (fun x => decide (x.2 ≤ 0))).map Prod.fst
      = ((absolute t l).takeWhile (fun x => decide (x.2 ≤ t))).map Prod.fst := by
  induction l with
  | nil => rfl
  | cons x l ih =>
    obtain ⟨k, d⟩ := x
    obtain ⟨hd, htl⟩ := nonneg_cons.mp hl
    by_cases h : d ≤ 0
    · obtain rfl : d = 0 := le_antisymm h hd
      simpa [absolute] using ih htl
    · simp [absolute, h]

omit [IsOrderedAddMonoid α] in
lemma nonneg_dropWhile {p : κ × α → Bool} {l : List (κ × α)} (hl : Nonneg l) :
    Nonneg (l.dropWhile p) := fun x hx => hl x (List.dropWhile_sublist p |>.subset hx)

end DeltaList
end NetworkProgramming
