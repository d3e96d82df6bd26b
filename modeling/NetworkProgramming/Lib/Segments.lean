import Mathlib.Tactic

/-!
# Reading from a stream that arrives in segments

A `read` of up to `n` bytes from a stream returns what has arrived of them, so a field of `n` bytes
may take several reads. `Source.results` are the numbers of bytes they return. A loop that stores
each of them at the start of its block, and not behind the bytes of the reads before, leaves
`restarted`; in it the bytes of the last read stand first (`restarted_snoc`).
-/

namespace NetworkProgramming

/-- What is not read yet of a stream, and the number of reads so far. -/
structure Source (α : Type*) where
  unread : List α
  reads : ℕ

namespace Source

variable {α : Type*} (ready : ℕ → ℕ) (n : ℕ)

/-- A read of up to `n` bytes, when `ready i` bytes are there for the `i`th read unless the stream
ends before. -/
def read (c : Source α) : List α × Source α :=
  (c.unread.take (min n (ready c.reads)),
    ⟨c.unread.drop (min n (ready c.reads)), c.reads + 1⟩)

/-- After `m` reads. -/
def after (c : Source α) : ℕ → Source α
  | 0 => c
  | m + 1 => (c.read ready n).2.after m

/-- How many bytes each of the next `m` reads returns. -/
def results (c : Source α) : ℕ → List ℕ
  | 0 => []
  | m + 1 => (c.read ready n).1.length :: (c.read ready n).2.results m

/-- How many they return when the stream goes on. -/
def sizes (i m : ℕ) : List ℕ := (List.range' i m).map fun j => min n (ready j)

variable {ready n} {c : Source α}

lemma length_read (c : Source α) :
    (c.read ready n).1.length = min (min n (ready c.reads)) c.unread.length :=
  List.length_take

lemma length_read_le (c : Source α) : (c.read ready n).1.length ≤ n := by
  rw [length_read]
  exact (min_le_left _ _).trans (min_le_left _ _)

lemma unread_read (c : Source α) :
    (c.read ready n).2.unread = c.unread.drop (c.read ready n).1.length := by
  rw [length_read]
  show c.unread.drop _ = _
  rcases Nat.le_total (min n (ready c.reads)) c.unread.length with h | h
  · rw [min_eq_left h]
  · rw [min_eq_right h, List.drop_length, List.drop_eq_nil_of_le h]

lemma read_fst (c : Source α) :
    (c.read ready n).1 = c.unread.take (c.read ready n).1.length := by
  rw [length_read, ← List.take_eq_take_min]
  rfl

/-- No byte is lost. -/
lemma read_append (c : Source α) :
    (c.read ready n).1 ++ (c.read ready n).2.unread = c.unread := List.take_append_drop _ _

/-- Nothing is read behind the end. -/
lemma results_of_nil (hc : c.unread = []) (m : ℕ) : ∀ r ∈ c.results ready n m, r = 0 := by
  induction m generalizing c with
  | zero => exact fun r hr => absurd hr List.not_mem_nil
  | succ m ih =>
    intro r hr
    rcases List.mem_cons.mp hr with rfl | hr
    · rw [length_read, hc, List.length_nil, Nat.min_zero]
    · exact ih (by rw [unread_read, hc, List.drop_nil]) r hr

lemma after_eq (c : Source α) (m : ℕ) :
    c.after ready n m = ⟨c.unread.drop (c.results ready n m).sum, c.reads + m⟩ := by
  induction m generalizing c with
  | zero => rfl
  | succ m ih =>
    rw [after, ih, results, List.sum_cons, unread_read, List.drop_drop]
    show (⟨_, c.reads + 1 + m⟩ : Source α) = _
    rw [Nat.add_right_comm, Nat.add_assoc]

lemma sizes_succ (i m : ℕ) :
    sizes ready n i (m + 1) = min n (ready i) :: sizes ready n (i + 1) m := by
  rw [sizes, List.range'_succ, List.map_cons]
  rfl

/-- Far from the end of the stream a read returns what is there. -/
lemma length_read_of_le (h : n ≤ c.unread.length) :
    (c.read ready n).1.length = min n (ready c.reads) := by
  rw [length_read]
  exact min_eq_left ((min_le_left _ _).trans h)

lemma results_eq_sizes {m : ℕ} (h : (c.results ready n m).sum + n ≤ c.unread.length) :
    c.results ready n m = sizes ready n c.reads m := by
  induction m generalizing c with
  | zero => rfl
  | succ m ih =>
    rw [results, List.sum_cons] at h
    have hrest : ((c.read ready n).2.results ready n m).sum + n
        ≤ (c.read ready n).2.unread.length := by
      rw [unread_read, List.length_drop]
      omega
    rw [results, ih hrest, sizes_succ, length_read_of_le (by omega)]
    rfl

lemma sum_results_le (c : Source α) (m : ℕ) :
    (c.results ready n m).sum ≤ (sizes ready n c.reads m).sum := by
  induction m generalizing c with
  | zero => exact Nat.le_refl _
  | succ m ih =>
    have hread : (c.read ready n).1.length ≤ min n (ready c.reads) := by
      rw [length_read]
      exact min_le_left _ _
    rw [results, sizes_succ, List.sum_cons, List.sum_cons]
    exact Nat.add_le_add hread (ih _)

end Source

/-! ## A block that is filled from its start -/

variable {α : Type*}

/-- The block after the reads of `l` that return `rs` bytes have each been stored at its start. -/
def restarted (l block : List α) : List ℕ → List α
  | [] => block
  | r :: rs => restarted (l.drop r) (l.take r ++ block.drop r) rs

/-- The last read stands first. -/
lemma restarted_snoc (l block : List α) (rs : List ℕ) (r : ℕ) :
    restarted l block (rs ++ [r])
      = (l.drop rs.sum).take r ++ (restarted l block rs).drop r := by
  induction rs generalizing l block with
  | nil => rfl
  | cons s rs ih =>
    rw [List.cons_append, restarted, ih, List.sum_cons, List.drop_drop]
    rfl

end NetworkProgramming
