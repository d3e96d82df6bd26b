import NetworkProgramming.Final.RecvBack

/-!
# The queue of a session

The packages of a session wait sorted by number, without duplicates, none below `Base`
(`QueueOk`). Placing a frame adds its package when the number is new, and a pass takes numbers
`Base`, `Base + 1`, … from the front; both keep the queue in order.
-/

namespace NetworkProgramming

/-- Strictly ordered by sequence number. -/
abbrev SortedBySeq (l : List TrollMessageStruct) : Prop :=
  l.Pairwise fun m m' => m.seqNum < m'.seqNum

/-! ## Insertion -/

lemma mem_insertPackage {now : TrollMessageStruct} {l l' : List TrollMessageStruct}
    (h : insertPackage now l = some l') {x : TrollMessageStruct} :
    x ∈ l' ↔ x = now ∨ x ∈ l := by
  induction l generalizing l' with
  | nil => cases h; simp
  | cons m l ih =>
    rw [insertPackage] at h
    split at h
    · cases h
    · split at h
      · cases h; simp
      · obtain ⟨l₁, hl₁, rfl⟩ := Option.map_eq_some_iff.mp h
        simp only [List.mem_cons, ih hl₁]
        exact or_left_comm

lemma sorted_insertPackage {now : TrollMessageStruct} {l l' : List TrollMessageStruct}
    (hl : SortedBySeq l) (h : insertPackage now l = some l') : SortedBySeq l' := by
  induction l generalizing l' with
  | nil => cases h; exact List.pairwise_singleton _ _
  | cons m l ih =>
    obtain ⟨hm, hl⟩ := List.pairwise_cons.mp hl
    rw [insertPackage] at h
    split at h
    · cases h
    · rename_i hne
      split at h
      · rename_i hlt
        cases h
        refine List.pairwise_cons.mpr ⟨fun x hx => ?_, List.pairwise_cons.mpr ⟨hm, hl⟩⟩
        rcases List.mem_cons.mp hx with rfl | hx
        · exact hlt
        · exact UInt32.lt_trans hlt (hm x hx)
      · rename_i hge
        obtain ⟨l₁, hl₁, rfl⟩ := Option.map_eq_some_iff.mp h
        refine List.pairwise_cons.mpr ⟨fun x hx => ?_, ih hl hl₁⟩
        rcases (mem_insertPackage hl₁).mp hx with rfl | hx
        · exact UInt32.lt_of_le_of_ne (UInt32.not_lt.mp hge) hne
        · exact hm x hx

/-- In an ordered queue a package is refused exactly when its number is there. -/
lemma insertPackage_eq_none {now : TrollMessageStruct} {l : List TrollMessageStruct}
    (hl : SortedBySeq l) :
    insertPackage now l = none ↔ ∃ m ∈ l, m.seqNum = now.seqNum := by
  induction l with
  | nil => simp [insertPackage]
  | cons m l ih =>
    obtain ⟨hm, hl⟩ := List.pairwise_cons.mp hl
    rw [insertPackage]
    split
    · rename_i heq
      simp [heq]
    · rename_i hne
      split
      · rename_i hlt
        have hnot : ∀ x ∈ l, x.seqNum ≠ now.seqNum := fun x hx heq =>
          UInt32.lt_irrefl _ (UInt32.lt_trans hlt (heq ▸ hm x hx))
        simpa [hne] using hnot
      · simp [hne, ih hl]

/-- Placing a package adds nothing else to the queue. -/
lemma AckedSock.mem_packages_place {a : AckedSock} {now m : TrollMessageStruct}
    (h : m ∈ (a.place now).packages) : m = now ∨ m ∈ a.packages := by
  unfold place at h
  split at h
  · exact Or.inr h
  · cases hins : insertPackage now a.packages with
    | none => exact Or.inr (by rwa [hins] at h)
    | some l =>
      rw [hins] at h
      exact (mem_insertPackage hins).mp h

/-! ## Consecutive numbers -/

lemma toNat_add_ofNat {base : UInt32} {k : ℕ} (h : base.toNat + k < 2 ^ 32) :
    (base + UInt32.ofNat k).toNat = base.toNat + k := by
  rw [UInt32.toNat_add, UInt32.toNat_ofNat', Nat.mod_eq_of_lt (show k < 2 ^ 32 by omega),
    Nat.mod_eq_of_lt h]

lemma Consecutive.getElem {base : UInt32} {l : List TrollMessageStruct} (h : Consecutive base l)
    (i : ℕ) (hi : i < l.length) : l[i].seqNum = base + UInt32.ofNat i := by
  induction l generalizing base i with
  | nil => exact absurd hi (Nat.not_lt_zero i)
  | cons m l ih =>
    cases i with
    | zero => simpa using h.1
    | succ i =>
      rw [List.getElem_cons_succ, ih h.2, AckedSock.ofNat_length_cons]

/-- Consecutive numbers that are in order do not wrap around. -/
lemma Consecutive.toNat {base : UInt32} {l : List TrollMessageStruct} (h : Consecutive base l)
    (hl : SortedBySeq l) (i : ℕ) (hi : i < l.length) :
    l[i].seqNum.toNat = base.toNat + i := by
  induction l generalizing base i with
  | nil => exact absurd hi (Nat.not_lt_zero i)
  | cons m l ih =>
    obtain ⟨hm, hl⟩ := List.pairwise_cons.mp hl
    cases i with
    | zero => simp [h.1]
    | succ i =>
      have hi' : i < l.length := Nat.lt_of_succ_lt_succ hi
      have hfirst := hm l[0] (List.getElem_mem _)
      rw [h.2.getElem 0 (by omega), h.1, UInt32.lt_iff_toNat_lt] at hfirst
      simp only [UInt32.reduceOfNat, UInt32.add_zero] at hfirst
      rw [List.getElem_cons_succ, ih h.2 hl i hi']
      rw [UInt32.toNat_add] at hfirst ⊢
      have hbase := base.toNat_lt
      simp only [UInt32.toNat_one] at hfirst ⊢
      omega

lemma Consecutive.map_toNat {base : UInt32} {l : List TrollMessageStruct} (h : Consecutive base l)
    (hl : SortedBySeq l) :
    l.map (·.seqNum.toNat) = List.range' base.toNat l.length := by
  apply List.ext_getElem
  · simp
  · intro i hi _
    rw [List.getElem_map, h.toNat hl i (by simpa using hi), List.getElem_range', Nat.one_mul]

/-- What waits behind consecutive packages has larger numbers. -/
lemma Consecutive.le_rest {base : UInt32} {l rest : List TrollMessageStruct}
    (h : Consecutive base l) (hsorted : SortedBySeq (l ++ rest))
    (hahead : ∀ m ∈ l ++ rest, base ≤ m.seqNum) {m : TrollMessageStruct} (hm : m ∈ rest) :
    base.toNat + l.length ≤ m.seqNum.toNat := by
  have hparts := List.pairwise_append.mp hsorted
  rcases Nat.eq_zero_or_pos l.length with hzero | hpos
  · rw [hzero]
    exact UInt32.le_iff_toNat_le.mp (hahead m (List.mem_append_right _ hm))
  · -- the last of them comes before `m`
    have hbefore := hparts.2.2 _ (List.getElem_mem (show l.length - 1 < l.length by omega)) m hm
    rw [UInt32.lt_iff_toNat_lt, h.toNat hparts.1 _ (by omega)] at hbefore
    omega

namespace AckedSock

/-- The queue of a session is in order, and its packages have the property `P`. -/
structure QueueOk (P : TrollMessageStruct → Prop) (a : AckedSock) : Prop where
  sorted : SortedBySeq a.packages
  ahead : ∀ m ∈ a.packages, a.base ≤ m.seqNum
  all : ∀ m ∈ a.packages, P m

/-- The package `n` has been received: it is taken already or waits in the queue. -/
def Received (a : AckedSock) (n : UInt32) : Prop :=
  n < a.base ∨ ∃ m ∈ a.packages, m.seqNum = n

variable {P : TrollMessageStruct → Prop} {a a' : AckedSock}

lemma queueOk_create (fd : Int32) (s : UInt32) : (create fd s).QueueOk P :=
  ⟨.nil, by simp [create], by simp [create]⟩

lemma place_cases (h : a.QueueOk P) (now : TrollMessageStruct) :
    (a.Received now.seqNum ∧ a.place now = a) ∨
      (¬ a.Received now.seqNum ∧ SortedBySeq (a.place now).packages ∧
        ∀ x, x ∈ (a.place now).packages ↔ x = now ∨ x ∈ a.packages) := by
  unfold place
  split
  · rename_i hlt
    exact Or.inl ⟨Or.inl hlt, rfl⟩
  · rename_i hge
    cases hins : insertPackage now a.packages with
    | none => exact Or.inl ⟨Or.inr ((insertPackage_eq_none h.sorted).mp hins), rfl⟩
    | some l =>
      right
      refine ⟨?_, sorted_insertPackage h.sorted hins, fun x => mem_insertPackage hins⟩
      rintro (hlt | hmem)
      · exact hge hlt
      · rw [← insertPackage_eq_none h.sorted, hins] at hmem
        cases hmem

/-- Placing a package keeps the queue in order. -/
lemma QueueOk.place (h : a.QueueOk P) {now : TrollMessageStruct} (hnow : P now) :
    (a.place now).QueueOk P := by
  rcases place_cases h now with ⟨-, heq⟩ | ⟨hnew, hsorted, hmem⟩
  · rwa [heq]
  · have hbase : (a.place now).base = a.base := by rw [place_eq]
    refine ⟨hsorted, fun m hm => ?_, fun m hm => ?_⟩
    · rw [hbase]
      rcases (hmem m).mp hm with rfl | hm
      · exact UInt32.not_lt.mp fun hlt => hnew (Or.inl hlt)
      · exact h.ahead m hm
    · rcases (hmem m).mp hm with rfl | hm
      · exact hnow
      · exact h.all m hm

/-- A package that is placed is received, and nothing else is. -/
lemma received_place (h : a.QueueOk P) (now : TrollMessageStruct) {n : UInt32} :
    (a.place now).Received n ↔ a.Received n ∨ n = now.seqNum := by
  rcases place_cases h now with ⟨hold, heq⟩ | ⟨-, -, hmem⟩
  · rw [heq]
    refine ⟨Or.inl, ?_⟩
    rintro (hn | rfl)
    · exact hn
    · exact hold
  · have hbase : (a.place now).base = a.base := by rw [place_eq]
    simp only [Received, hbase, hmem]
    constructor
    · rintro (hlt | ⟨m, rfl | hm, rfl⟩)
      · exact Or.inl (Or.inl hlt)
      · exact Or.inr rfl
      · exact Or.inl (Or.inr ⟨m, hm, rfl⟩)
    · rintro ((hlt | ⟨m, hm, rfl⟩) | rfl)
      · exact Or.inl hlt
      · exact Or.inr ⟨m, Or.inr hm, rfl⟩
      · exact Or.inr ⟨now, Or.inl rfl, rfl⟩

/-! ## Passes -/

variable {taken : List TrollMessageStruct} {replies : List (List UInt8)}

/-- The numbers a pass takes, and where it leaves `Base`. -/
lemma Passes.toNat_base (hp : a.Passes taken a' replies) (h : a.QueueOk P)
    (hlast : ∀ m ∈ taken, m.seqNum.toNat + 1 < 2 ^ 32) :
    a'.base.toNat = a.base.toNat + taken.length := by
  have hsorted : SortedBySeq taken := (List.pairwise_append.mp (hp.packages ▸ h.sorted)).1
  have hfits : a.base.toNat + taken.length < 2 ^ 32 := by
    rcases Nat.eq_zero_or_pos taken.length with hzero | hpos
    · rw [hzero]
      exact a.base.toNat_lt
    · have hget := hp.consecutive.toNat hsorted (taken.length - 1) (by omega)
      have hmax := hlast _ (List.getElem_mem (show taken.length - 1 < taken.length by omega))
      omega
  rw [hp.base, toNat_add_ofNat hfits]

/-- A pass keeps the queue in order. -/
lemma QueueOk.passes (h : a.QueueOk P) (hp : a.Passes taken a' replies) : a'.QueueOk P := by
  have hparts := List.pairwise_append.mp (hp.packages ▸ h.sorted)
  have hmem : ∀ m ∈ a'.packages, m ∈ a.packages := fun m hm => by
    rw [hp.packages]
    exact List.mem_append_right _ hm
  refine ⟨hparts.2.1, fun m hm => ?_, fun m hm => h.all m (hmem m hm)⟩
  have hrest := hp.consecutive.le_rest (hp.packages ▸ h.sorted) (hp.packages ▸ h.ahead) hm
  have hm32 := m.seqNum.toNat_lt
  rw [UInt32.le_iff_toNat_le, hp.base, toNat_add_ofNat (by omega)]
  exact hrest

/-- A pass does not run ahead of the packages it takes. -/
lemma Passes.base_le (hp : a.Passes taken a' replies) (h : a.QueueOk P) {n : UInt32}
    (hn : ∀ m ∈ taken, m.seqNum < n) (hbase : a.base ≤ n) : a'.base ≤ n := by
  have hsorted : SortedBySeq taken := (List.pairwise_append.mp (hp.packages ▸ h.sorted)).1
  rw [UInt32.le_iff_toNat_le] at hbase ⊢
  rw [hp.toNat_base h fun m hm => ?_]
  · rcases Nat.eq_zero_or_pos taken.length with hzero | hpos
    · omega
    · have hlast := hn _ (List.getElem_mem (show taken.length - 1 < taken.length by omega))
      rw [UInt32.lt_iff_toNat_lt, hp.consecutive.toNat hsorted _ (by omega)] at hlast
      omega
  · have hlt := UInt32.lt_iff_toNat_lt.mp (hn m hm)
    have hn32 := n.toNat_lt
    omega

/-- A pass neither receives a package nor forgets one. -/
lemma Passes.received_iff (hp : a.Passes taken a' replies) (h : a.QueueOk P)
    (hlast : ∀ m ∈ taken, m.seqNum.toNat + 1 < 2 ^ 32) {n : UInt32} :
    a'.Received n ↔ a.Received n := by
  have hparts := List.pairwise_append.mp (hp.packages ▸ h.sorted)
  have hbase := hp.toNat_base h hlast
  have htaken : (∃ m ∈ taken, m.seqNum = n) ↔
      a.base.toNat ≤ n.toNat ∧ n.toNat < a.base.toNat + taken.length := by
    constructor
    · rintro ⟨m, hm, rfl⟩
      obtain ⟨i, hi, rfl⟩ := List.getElem_of_mem hm
      rw [hp.consecutive.toNat hparts.1 i hi]
      omega
    · rintro ⟨hle, hlt⟩
      refine ⟨taken[n.toNat - a.base.toNat], List.getElem_mem _, UInt32.toNat_inj.mp ?_⟩
      rw [hp.consecutive.toNat hparts.1 _ (by omega)]
      omega
  have hqueue : (∃ m ∈ a.packages, m.seqNum = n) ↔
      (∃ m ∈ taken, m.seqNum = n) ∨ ∃ m ∈ a'.packages, m.seqNum = n := by
    rw [hp.packages]
    simp only [List.mem_append, or_and_right, exists_or]
  rw [Received, Received, hqueue, htaken, UInt32.lt_iff_toNat_lt, UInt32.lt_iff_toNat_lt, hbase,
    ← or_assoc]
  refine or_congr_left ?_
  omega

/-- The data a pass takes are the bodies from `Base` on. -/
lemma Passes.data_eq (hp : a.Passes taken a' replies) {body : UInt32 → List UInt8}
    (h : a.QueueOk fun m => m.data = body m.seqNum) :
    taken.map (·.data)
      = (List.range taken.length).map fun i => body (a.base + UInt32.ofNat i) := by
  apply List.ext_getElem
  · simp
  · intro i hi _
    have hi' : i < taken.length := by simpa using hi
    have hmem : taken[i] ∈ a.packages := by
      rw [hp.packages]
      exact List.mem_append_left _ (List.getElem_mem _)
    simp [h.all _ hmem, hp.consecutive.getElem i hi']

end AckedSock
end NetworkProgramming
