import Mathlib.Tactic

/-!
# Rings of slots

`slotAfter i k` is the slot `k` steps after slot `i` of a ring with `n` slots, and `slots f i len`
are the contents of the `len` slots from `i` on. They are a queue: a write behind the last slot
adds an element at the end (`slots_update_end`), and a step of `i` drops the first one
(`slots_succ`).
-/

namespace NetworkProgramming
namespace RingBuffer

variable {α : Type*} {n : ℕ} [NeZero n]

/-- The slot `k` steps after `i`. -/
def slotAfter (i : Fin n) (k : ℕ) : Fin n := Fin.ofNat n (i + k)

@[simp] lemma slotAfter_zero (i : Fin n) : slotAfter i 0 = i :=
  Fin.ext (Nat.mod_eq_of_lt i.isLt)

lemma slotAfter_add (i : Fin n) (j k : ℕ) : slotAfter (slotAfter i j) k = slotAfter i (j + k) :=
  Fin.ext (by
    simp only [slotAfter, Fin.val_ofNat]
    rw [Nat.mod_add_mod, Nat.add_assoc])

lemma slotAfter_one (i : Fin n) : slotAfter i 1 = i + 1 :=
  Fin.ext (by
    simp only [slotAfter, Fin.val_ofNat, Fin.val_add]
    rw [Fin.val_one', Nat.add_mod_mod])

lemma slotAfter_succ (i : Fin n) (k : ℕ) : slotAfter (i + 1) k = slotAfter i (k + 1) := by
  rw [← slotAfter_one, slotAfter_add, Nat.add_comm]

lemma slotAfter_succ' (i : Fin n) (k : ℕ) : slotAfter i k + 1 = slotAfter i (k + 1) := by
  rw [← slotAfter_one, slotAfter_add]

/-- Less than one lap apart, slots are different. -/
lemma slotAfter_inj (i : Fin n) {j k : ℕ} (hj : j < n) (hk : k < n) :
    slotAfter i j = slotAfter i k ↔ j = k := by
  constructor
  · intro h
    have hval := congrArg Fin.val h
    simp only [slotAfter, Fin.val_ofNat] at hval
    exact Nat.ModEq.eq_of_lt_of_lt (Nat.ModEq.add_left_cancel' _ hval) hj hk
  · intro h
    rw [h]

/-- The contents of the `len` slots from `i` on. -/
def slots (f : Fin n → α) (i : Fin n) (len : ℕ) : List α :=
  (List.range len).map fun k => f (slotAfter i k)

@[simp] lemma length_slots (f : Fin n → α) (i : Fin n) (len : ℕ) :
    (slots f i len).length = len := by
  simp [slots]

@[simp] lemma getElem_slots (f : Fin n → α) (i : Fin n) {len k : ℕ}
    (h : k < (slots f i len).length) : (slots f i len)[k] = f (slotAfter i k) := by
  simp [slots]

@[simp] lemma slots_zero (f : Fin n → α) (i : Fin n) : slots f i 0 = [] := rfl

lemma slots_succ (f : Fin n → α) (i : Fin n) (len : ℕ) :
    slots f i (len + 1) = f i :: slots f (i + 1) len := by
  unfold slots
  rw [List.range_succ_eq_map, List.map_cons, slotAfter_zero, List.map_map]
  refine congrArg _ (List.map_congr_left fun k _ => ?_)
  rw [slotAfter_succ]
  rfl

lemma slots_add (f : Fin n → α) (i : Fin n) (j len : ℕ) :
    slots f i (j + len) = slots f i j ++ slots f (slotAfter i j) len := by
  unfold slots
  rw [List.range_add, List.map_append, List.map_map]
  refine congrArg _ (List.map_congr_left fun k _ => ?_)
  rw [slotAfter_add]
  rfl

lemma slots_drop (f : Fin n → α) (i : Fin n) {j len : ℕ} (h : j ≤ len) :
    (slots f i len).drop j = slots f (slotAfter i j) (len - j) := by
  obtain ⟨k, rfl⟩ := Nat.exists_eq_add_of_le h
  rw [slots_add, List.drop_left' (length_slots f i j), Nat.add_sub_cancel_left]

/-- A write to one of the slots. -/
lemma slots_update (f : Fin n → α) (i : Fin n) (x : α) {k len : ℕ} (hlen : len ≤ n)
    (hk : k < len) :
    slots (Function.update f (slotAfter i k) x) i len = (slots f i len).set k x := by
  refine List.ext_getElem (by simp) fun j hj _ => ?_
  rw [length_slots] at hj
  rw [getElem_slots, List.getElem_set, getElem_slots]
  by_cases heq : j = k
  · rw [heq, if_pos rfl, Function.update_self]
  · rw [if_neg (Ne.symm heq), Function.update_of_ne]
    exact fun h => heq ((slotAfter_inj i (by omega) (by omega)).mp h)

/-- A write behind the last slot adds an element. -/
lemma slots_update_end (f : Fin n → α) (i : Fin n) (x : α) {len : ℕ} (hlen : len < n) :
    slots (Function.update f (slotAfter i len) x) i (len + 1) = slots f i len ++ [x] := by
  have hone : ∀ g : Fin n → α, slots g (slotAfter i len) 1 = [g (slotAfter i len)] := by
    intro g
    rw [slots_succ, slots_zero]
  rw [slots_add, hone, Function.update_self]
  refine congrArg (· ++ [x]) (List.map_congr_left fun k hk => ?_)
  rw [List.mem_range] at hk
  rw [Function.update_of_ne]
  exact fun h => absurd ((slotAfter_inj i (by omega) hlen).mp h) (by omega)

/-- In a full ring a write goes over the oldest element. -/
lemma slots_overwrite (f : Fin n → α) (i : Fin n) (x : α) :
    slots (Function.update f i x) (i + 1) n = (slots f i n).tail ++ [x] := by
  obtain ⟨len, hlen⟩ := Nat.exists_eq_succ_of_ne_zero (NeZero.ne n)
  have hlast : slotAfter (i + 1) len = i := by
    rw [slotAfter_succ, ← Nat.succ_eq_add_one, ← hlen]
    apply Fin.ext
    show (i + n) % n = i
    rw [Nat.add_mod_right, Nat.mod_eq_of_lt i.isLt]
  have hend := slots_update_end f (i + 1) x (by omega : len < n)
  rw [hlast, ← Nat.succ_eq_add_one, ← hlen] at hend
  have htail : ∀ m, m = len + 1 → (slots f i m).tail = slots f (i + 1) len := by
    rintro m rfl
    rw [slots_succ, List.tail_cons]
  rw [hend, htail n hlen]

lemma mem_slots_iff (f : Fin n → α) (i : Fin n) {x : α} :
    x ∈ slots f i n ↔ ∃ j, f j = x := by
  constructor
  · intro hx
    obtain ⟨k, -, hk⟩ := List.mem_map.mp hx
    exact ⟨_, hk⟩
  · rintro ⟨j, rfl⟩
    -- from `i` it is `n - i + j` steps to `j`, less a lap
    refine List.mem_map.mpr ⟨(n - i + j) % n, List.mem_range.mpr (Nat.mod_lt _ (NeZero.pos n)), ?_⟩
    refine congrArg f (Fin.ext ?_)
    show (i + (n - i + j) % n) % n = j
    rw [Nat.add_mod_mod, ← Nat.add_assoc, Nat.add_sub_cancel' (Nat.le_of_lt i.isLt),
      Nat.add_mod_left, Nat.mod_eq_of_lt j.isLt]

end RingBuffer
end NetworkProgramming
