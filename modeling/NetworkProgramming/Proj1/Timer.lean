import NetworkProgramming.Final.Header

/-!
# `timer.c`: the timer list of the simulated TCP

`insert` puts a timer into a list sorted by the moment it expires, `delele` removes one, `update`
drops those whose moment has come. The clock is read in whole seconds, since the call has the time
zone written over the microseconds, and the conversion of a duration takes its fractional part for
thousandths of a second where the field counts millionths. So a timer is dropped at the beginning
of a second (`droppedAt`), and the timers are right exactly when no `update` falls between this
moment and the one that was asked for (`timersRight_iff`).
-/

namespace NetworkProgramming.Proj1

/-! ## The functions of `timer.c` -/

/-- `time_node`; `addr` is the block `malloc` has returned for it, the blocks being numbered. -/
structure TimeNode where
  addr : ℕ
  id : Int32
  expireTime : Timeval

/-- `timercmp` with `>`. -/
def timerGt (a b : Timeval) : Bool :=
  if a.tvSec = b.tvSec then a.tvUsec > b.tvUsec else a.tvSec > b.tvSec

/-- `timeradd`. -/
def timeradd (a b : Timeval) : Timeval :=
  if a.tvUsec + b.tvUsec ≥ 1000000 then
    ⟨a.tvSec + b.tvSec + 1, a.tvUsec + b.tvUsec - 1000000⟩
  else ⟨a.tvSec + b.tvSec, a.tvUsec + b.tvUsec⟩

/-- The conversion of a rational to an integer type. -/
def truncated (x : ℚ) : ℤ := if 0 ≤ x then ⌊x⌋ else ⌈x⌉

/-- `get_current_time` when the clock stands at `now` microseconds. The second argument of
`gettimeofday` is the time zone: it is written to `tv_usec`, over the microseconds, and it is 0. -/
def getCurrentTime (now : ℤ) : Timeval := ⟨now / 1000000, 0⟩

/-- `delta_time` of `insert`. -/
def deltaTime (expireTime : ℚ) : Timeval :=
  ⟨truncated expireTime, truncated ((expireTime - truncated expireTime) * 1000)⟩

/-- The loop of `insert`: the node goes before the first one it does not exceed. -/
def insertNode (node : TimeNode) : List TimeNode → List TimeNode
  | [] => [node]
  | n :: l =>
    if timerGt node.expireTime n.expireTime then n :: insertNode node l else node :: n :: l

/-- `insert`. -/
def insert (head : List TimeNode) (expireTime : ℚ) (id : Int32) (addr : ℕ) (now : ℤ) :
    List TimeNode :=
  insertNode ⟨addr, id, timeradd (deltaTime expireTime) (getCurrentTime now)⟩ head

/-- `delele`. -/
def delele (head : List TimeNode) (id : Int32) : List TimeNode := head.eraseP (·.id = id)

/-- `update`. -/
def update (head : List TimeNode) (now : ℤ) : List TimeNode :=
  head.dropWhile fun n => !timerGt n.expireTime (getCurrentTime now)

/-! ## Runs -/

/-- A call of the timer process, with the clock it reads. -/
inductive TimerCall
  | insert (expireTime : ℚ) (id : Int32) (now : ℤ)
  | delele (id : Int32)
  | update (now : ℤ)

/-- A call of `insert`: the block of its node, the clock and the duration. -/
structure Inserted where
  addr : ℕ
  time : ℤ
  duration : ℚ

/-- The list, with what has been inserted and deleted so far. -/
structure TimerRun where
  head : List TimeNode := []
  inserted : List Inserted := []
  deleted : List ℕ := []

namespace TimerRun

/-- One call. -/
def step (r : TimerRun) : TimerCall → TimerRun
  | .insert expireTime id now =>
    { r with
      head := Proj1.insert r.head expireTime id r.inserted.length now
      inserted := r.inserted ++ [⟨r.inserted.length, now, expireTime⟩] }
  | .delele id =>
    { r with
      head := Proj1.delele r.head id
      deleted := r.deleted ++ ((r.head.find? (·.id = id)).map (·.addr)).toList }
  | .update now => { r with head := Proj1.update r.head now }

/-- The calls `calls`, on an empty list. -/
def after (calls : List TimerCall) : TimerRun := calls.foldl step {}

/-- The timer is in the list. -/
def Holds (r : TimerRun) (addr : ℕ) : Prop := addr ∈ r.head.map (·.addr)

lemma after_snoc (calls : List TimerCall) (c : TimerCall) :
    after (calls ++ [c]) = (after calls).step c := by
  rw [after, List.foldl_append]
  rfl

end TimerRun

/-! ## Times -/

/-- Microseconds. -/
def micros (t : Timeval) : ℤ := t.tvSec * 1000000 + t.tvUsec

/-- The microseconds are less than a second. -/
def Proper (t : Timeval) : Prop := 0 ≤ t.tvUsec ∧ t.tvUsec < 1000000

lemma timerGt_iff {a b : Timeval} (ha : Proper a) (hb : Proper b) :
    timerGt a b = true ↔ micros b < micros a := by
  obtain ⟨ha0, ha1⟩ := ha
  obtain ⟨hb0, hb1⟩ := hb
  unfold timerGt micros
  split <;> simp only [decide_eq_true_eq, gt_iff_lt] <;> omega

lemma micros_timeradd (a b : Timeval) : micros (timeradd a b) = micros a + micros b := by
  unfold timeradd micros
  split <;> dsimp only <;> ring

lemma proper_timeradd {a b : Timeval} (ha : Proper a) (hb : Proper b) :
    Proper (timeradd a b) := by
  obtain ⟨ha0, ha1⟩ := ha
  obtain ⟨hb0, hb1⟩ := hb
  unfold timeradd Proper
  split <;> constructor <;> dsimp only <;> omega

lemma proper_getCurrentTime (now : ℤ) : Proper (getCurrentTime now) := by
  unfold Proper getCurrentTime
  dsimp only
  omega

lemma micros_getCurrentTime (now : ℤ) : micros (getCurrentTime now) = now / 1000000 * 1000000 :=
  add_zero _

/-- How long after the second of its insertion a timer is to stay, in microseconds. -/
def computedDelay (d : ℚ) : ℤ := ⌊d⌋ * 1000000 + ⌊(d - ⌊d⌋) * 1000⌋

/-- How long it is asked to stay, rounded down to a microsecond. -/
def askedDelay (d : ℚ) : ℤ := ⌊d * 1000000⌋

/-- The beginning of the second from which on `update` drops a timer that was inserted at `t`: a
fraction of the duration counts as a second when it is a thousandth or more, and not at all
otherwise. -/
def droppedAt (t : ℤ) (d : ℚ) : ℤ :=
  (t / 1000000 + ⌊d⌋ + if (d - ⌊d⌋) * 1000 < 1 then 0 else 1) * 1000000

lemma deltaTime_eq {d : ℚ} (hd : 0 ≤ d) : deltaTime d = ⟨⌊d⌋, ⌊(d - ⌊d⌋) * 1000⌋⟩ := by
  have hfract : 0 ≤ (d - ⌊d⌋) * 1000 := mul_nonneg (Int.fract_nonneg d) (by norm_num)
  have htrunc : truncated d = ⌊d⌋ := if_pos hd
  rw [deltaTime, htrunc, truncated, if_pos hfract]

lemma micros_deltaTime {d : ℚ} (hd : 0 ≤ d) : micros (deltaTime d) = computedDelay d := by
  rw [deltaTime_eq hd]
  rfl

/-- What the conversion makes of the fraction of a duration is less than a thousandth of a
second. -/
lemma floor_fraction (d : ℚ) : 0 ≤ ⌊(d - ⌊d⌋) * 1000⌋ ∧ ⌊(d - ⌊d⌋) * 1000⌋ < 1000 := by
  have hfract := Int.fract_nonneg d
  have hfract' := Int.fract_lt_one d
  rw [← Int.self_sub_floor] at hfract hfract'
  refine ⟨Int.floor_nonneg.mpr (by linarith), Int.floor_lt.mpr ?_⟩
  push_cast
  linarith

lemma proper_deltaTime {d : ℚ} (hd : 0 ≤ d) : Proper (deltaTime d) := by
  obtain ⟨hnonneg, hsmall⟩ := floor_fraction d
  rw [deltaTime_eq hd]
  exact ⟨hnonneg, by dsimp only; omega⟩

/-- **The clock and the moment of a timer are compared in whole seconds.** -/
lemma getCurrentTime_lt_iff (t now : ℤ) (d : ℚ) :
    micros (getCurrentTime now) < micros (getCurrentTime t) + computedDelay d ↔
      now < droppedAt t d := by
  obtain ⟨hnonneg, hsmall⟩ := floor_fraction d
  rw [micros_getCurrentTime, micros_getCurrentTime, computedDelay, droppedAt]
  split
  · rename_i hless
    have hzero : ⌊(d - ⌊d⌋) * 1000⌋ < 1 := Int.floor_lt.mpr (by push_cast; exact hless)
    omega
  · rename_i hless
    have hone : 1 ≤ ⌊(d - ⌊d⌋) * 1000⌋ := Int.le_floor.mpr (by push_cast; exact not_lt.mp hless)
    omega

/-- The delay that is asked for, with the whole seconds apart. -/
lemma askedDelay_eq (d : ℚ) : askedDelay d = ⌊d⌋ * 1000000 + ⌊(d - ⌊d⌋) * 1000000⌋ := by
  have hsplit : d * 1000000 = (d - ⌊d⌋) * 1000000 + ((⌊d⌋ * 1000000 : ℤ) : ℚ) := by
    push_cast
    ring
  rw [askedDelay, hsplit, Int.floor_add_intCast, add_comm]

/-- A timer is dropped less than a second late, and early by no more than a second and a
thousandth. -/
lemma droppedAt_near (t : ℤ) (d : ℚ) :
    droppedAt t d ≤ t + askedDelay d + 999000 ∧
      t + askedDelay d ≤ droppedAt t d + 1000998 := by
  have hfract := Int.fract_nonneg d
  have hfract' := Int.fract_lt_one d
  rw [← Int.self_sub_floor] at hfract hfract'
  rw [askedDelay_eq, droppedAt]
  split
  · rename_i hless
    have hnonneg : 0 ≤ ⌊(d - ⌊d⌋) * 1000000⌋ := Int.floor_nonneg.mpr (by linarith)
    have hsmall : ⌊(d - ⌊d⌋) * 1000000⌋ < 1000 := Int.floor_lt.mpr (by push_cast; linarith)
    constructor <;> omega
  · rename_i hless
    have hlarge : 1000 ≤ ⌊(d - ⌊d⌋) * 1000000⌋ := Int.le_floor.mpr (by push_cast; linarith)
    have hsmall : ⌊(d - ⌊d⌋) * 1000000⌋ < 1000000 := Int.floor_lt.mpr (by push_cast; linarith)
    constructor <;> omega

/-! ## The list -/

/-- Sorted by the moment of expiry. -/
def SortedByTime (head : List TimeNode) : Prop :=
  head.Pairwise fun n m => timerGt n.expireTime m.expireTime = false

/-- One timer with this id is removed, or there is none and nothing happens. -/
def Removes (id : Int32) (before after : List TimeNode) : Prop :=
  (∀ n ∈ before, n.id ≠ id) ∧ after = before ∨
    ∃ l₁ n l₂, before = l₁ ++ n :: l₂ ∧ n.id = id ∧ after = l₁ ++ l₂

lemma mem_insertNode {node : TimeNode} {head : List TimeNode} {n : TimeNode} :
    n ∈ insertNode node head ↔ n = node ∨ n ∈ head := by
  induction head with
  | nil => simp [insertNode]
  | cons m head ih =>
    rw [insertNode]
    split
    · simp only [List.mem_cons, ih]
      exact or_left_comm
    · simp

lemma sorted_insertNode {node : TimeNode} {head : List TimeNode} (hnode : Proper node.expireTime)
    (hhead : ∀ n ∈ head, Proper n.expireTime) (h : SortedByTime head) :
    SortedByTime (insertNode node head) := by
  induction head with
  | nil => exact List.pairwise_singleton _ _
  | cons m head ih =>
    obtain ⟨hm, hrest⟩ := List.pairwise_cons.mp h
    have hproper := hhead m (by simp)
    have hproper' : ∀ n ∈ head, Proper n.expireTime := fun n hn =>
      hhead n (List.mem_cons_of_mem _ hn)
    rw [insertNode]
    split
    · rename_i hgt
      refine List.pairwise_cons.mpr ⟨fun n hn => ?_, ih hproper' hrest⟩
      rcases mem_insertNode.mp hn with rfl | hn
      · have hlt := (timerGt_iff hnode hproper).mp hgt
        exact Bool.eq_false_iff.mpr (mt (timerGt_iff hproper hnode).mp (by omega))
      · exact hm n hn
    · rename_i hgt
      refine List.pairwise_cons.mpr ⟨fun n hn => ?_, h⟩
      rcases List.mem_cons.mp hn with rfl | hn'
      · exact Bool.eq_false_iff.mpr hgt
      · have hle := mt (timerGt_iff hnode hproper).mpr hgt
        have hle' := mt (timerGt_iff hproper (hproper' n hn')).mpr (by simp [hm n hn'])
        exact Bool.eq_false_iff.mpr (mt (timerGt_iff hnode (hproper' n hn')).mp (by omega))

/-- `delele` removes exactly one timer. -/
lemma removes_delele (head : List TimeNode) (id : Int32) : Removes id head (delele head id) := by
  by_cases h : ∃ n ∈ head, n.id = id
  · obtain ⟨n, hn, hid⟩ := h
    obtain ⟨m, l₁, l₂, -, hm, hl, herase⟩ :=
      List.exists_of_eraseP (p := fun n : TimeNode => n.id = id) hn (by simpa using hid)
    exact Or.inr ⟨l₁, m, l₂, hl, by simpa using hm, herase⟩
  · have hnone : ∀ n ∈ head, n.id ≠ id := fun n hn hid => h ⟨n, hn, hid⟩
    refine Or.inl ⟨hnone, List.eraseP_of_forall_not fun n hn => ?_⟩
    simpa using hnone n hn

/-- `delele` keeps all nodes but the one that is found. -/
lemma mem_delele {head : List TimeNode} {id : Int32} {n : TimeNode} (hn : n ∈ head)
    (hother : ∀ m, head.find? (·.id = id) = some m → m.addr ≠ n.addr) : n ∈ delele head id := by
  induction head with
  | nil => cases hn
  | cons m head ih =>
    unfold delele at ih ⊢
    by_cases hm : m.id = id
    · have hne : n ≠ m := by
        rintro rfl
        exact hother n (by simp [hm]) rfl
      rw [List.eraseP_cons_of_pos (by simpa using hm)]
      exact (List.mem_cons.mp hn).resolve_left hne
    · rw [List.eraseP_cons_of_neg (by simpa using hm)]
      rcases List.mem_cons.mp hn with rfl | hn
      · exact List.mem_cons_self
      · refine List.mem_cons_of_mem _ (ih hn fun k hk => hother k ?_)
        rwa [List.find?_cons_of_neg (by simpa using hm)]

lemma mem_of_mem_delele {head : List TimeNode} {id : Int32} {n : TimeNode}
    (hn : n ∈ delele head id) : n ∈ head := List.mem_of_mem_eraseP hn

/-- `update` keeps exactly the timers whose moment is after the second it reads. -/
lemma mem_update {head : List TimeNode} (hproper : ∀ n ∈ head, Proper n.expireTime)
    (h : SortedByTime head) (now : ℤ) {n : TimeNode} :
    n ∈ update head now ↔ n ∈ head ∧ micros (getCurrentTime now) < micros n.expireTime := by
  induction head with
  | nil => simp [update]
  | cons m head ih =>
    obtain ⟨hm, hrest⟩ := List.pairwise_cons.mp h
    have hproperm := hproper m (by simp)
    have hgt := timerGt_iff hproperm (proper_getCurrentTime now)
    have ih' := ih (fun n hn => hproper n (List.mem_cons_of_mem _ hn)) hrest
    unfold update at ih' ⊢
    by_cases hdue : micros (getCurrentTime now) < micros m.expireTime
    · rw [List.dropWhile_cons_of_neg (by simpa using hgt.mpr hdue)]
      refine ⟨fun hn => ⟨hn, ?_⟩, And.left⟩
      rcases List.mem_cons.mp hn with rfl | hn
      · exact hdue
      · have hle := mt (timerGt_iff hproperm (hproper n (List.mem_cons_of_mem _ hn))).mpr
          (by simp [hm n hn])
        omega
    · rw [List.dropWhile_cons_of_pos (by simpa using mt hgt.mp hdue), ih', List.mem_cons]
      refine ⟨fun hn => ⟨Or.inr hn.1, hn.2⟩, fun hn => ⟨hn.1.resolve_left ?_, hn.2⟩⟩
      rintro rfl
      exact hdue hn.2

/-! ## What holds along a run -/

namespace TimerRun

/-- The list is in order, and its nodes are timers that were inserted, with the moments `insert`
has computed. -/
structure Ok (r : TimerRun) : Prop where
  sorted : SortedByTime r.head
  proper : ∀ n ∈ r.head, Proper n.expireTime
  numbered : ∀ i (hi : i < r.inserted.length), r.inserted[i].addr = i
  node : ∀ n ∈ r.head, ∃ x ∈ r.inserted, x.addr = n.addr ∧
    micros n.expireTime = micros (getCurrentTime x.time) + computedDelay x.duration

/-- Timers are told apart by their blocks. -/
lemma Ok.eq_of_addr {r : TimerRun} (h : r.Ok) {x y : Inserted} (hx : x ∈ r.inserted)
    (hy : y ∈ r.inserted) (heq : x.addr = y.addr) : x = y := by
  obtain ⟨i, hi, rfl⟩ := List.getElem_of_mem hx
  obtain ⟨j, hj, rfl⟩ := List.getElem_of_mem hy
  rw [h.numbered i hi, h.numbered j hj] at heq
  subst heq
  rfl

/-- An `update` keeps a timer exactly when the second at which it drops it is still to come. -/
lemma Ok.holds_update {r : TimerRun} (h : r.Ok) {x : Inserted} (hx : x ∈ r.inserted) (now : ℤ) :
    (r.step (.update now)).Holds x.addr ↔
      r.Holds x.addr ∧ now < droppedAt x.time x.duration := by
  rw [← getCurrentTime_lt_iff]
  have hmoment : ∀ n ∈ r.head, n.addr = x.addr →
      micros n.expireTime = micros (getCurrentTime x.time) + computedDelay x.duration := by
    intro n hn haddr
    obtain ⟨y, hy, hyaddr, hmicros⟩ := h.node n hn
    rwa [h.eq_of_addr hy hx (hyaddr.trans haddr)] at hmicros
  constructor
  · intro hholds
    obtain ⟨n, hn, haddr⟩ := List.mem_map.mp hholds
    obtain ⟨hmem, hlater⟩ := (mem_update h.proper h.sorted now).mp hn
    rw [hmoment n hmem haddr] at hlater
    exact ⟨List.mem_map.mpr ⟨n, hmem, haddr⟩, hlater⟩
  · rintro ⟨hholds, hlater⟩
    obtain ⟨n, hn, haddr⟩ := List.mem_map.mp hholds
    rw [← hmoment n hn haddr] at hlater
    exact List.mem_map.mpr ⟨n, (mem_update h.proper h.sorted now).mpr ⟨hn, hlater⟩, haddr⟩

/-- The durations are not negative. -/
def DurationsOk (calls : List TimerCall) : Prop :=
  ∀ d id now, TimerCall.insert d id now ∈ calls → 0 ≤ d

lemma Ok.step {r : TimerRun} (h : r.Ok) {c : TimerCall}
    (hc : ∀ d id now, c = .insert d id now → 0 ≤ d) : (r.step c).Ok := by
  cases c with
  | insert d id now =>
    have hd := hc d id now rfl
    have hproper : Proper (timeradd (deltaTime d) (getCurrentTime now)) :=
      proper_timeradd (proper_deltaTime hd) (proper_getCurrentTime now)
    refine ⟨sorted_insertNode hproper h.proper h.sorted, fun n hn => ?_, fun i hi => ?_,
      fun n hn => ?_⟩
    · rcases mem_insertNode.mp hn with rfl | hn
      · exact hproper
      · exact h.proper n hn
    · simp only [TimerRun.step, List.length_append, List.length_singleton] at hi ⊢
      by_cases hlast : i < r.inserted.length
      · rw [List.getElem_append_left hlast]
        exact h.numbered i hlast
      · obtain rfl : i = r.inserted.length := by omega
        simp
    · rcases mem_insertNode.mp hn with rfl | hn
      · refine ⟨⟨r.inserted.length, now, d⟩, by simp [TimerRun.step], rfl, ?_⟩
        rw [micros_timeradd, micros_deltaTime hd, add_comm]
      · obtain ⟨x, hx, hnode⟩ := h.node n hn
        exact ⟨x, List.mem_append_left _ hx, hnode⟩
  | delele id =>
    exact ⟨h.sorted.sublist List.eraseP_sublist, fun n hn => h.proper n (mem_of_mem_delele hn),
      h.numbered, fun n hn => h.node n (mem_of_mem_delele hn)⟩
  | update now =>
    have hmem : ∀ n ∈ Proj1.update r.head now, n ∈ r.head := fun n hn =>
      ((mem_update h.proper h.sorted now).mp hn).1
    exact ⟨h.sorted.sublist (List.dropWhile_sublist _), fun n hn => h.proper n (hmem n hn),
      h.numbered, fun n hn => h.node n (hmem n hn)⟩

theorem ok_after {calls : List TimerCall} (h : DurationsOk calls) : (after calls).Ok := by
  induction calls using List.reverseRecOn with
  | nil => exact ⟨.nil, by simp [after], by simp [after], by simp [after]⟩
  | append_singleton calls c ih =>
    rw [after_snoc]
    refine (ih fun d id now hmem => h d id now (List.mem_append_left _ hmem)).step ?_
    rintro d id now rfl
    exact h d id now (by simp)

/-- The clock a call reads. -/
def reading : TimerCall → Option ℤ
  | .insert _ _ now => some now
  | .delele _ => none
  | .update now => some now

/-- The clock does not go back. -/
def ClockOk (calls : List TimerCall) : Prop := (calls.filterMap reading).Pairwise (· ≤ ·)

instance (calls : List TimerCall) : Decidable (ClockOk calls) :=
  inferInstanceAs (Decidable (List.Pairwise _ _))

/-- A timer that is not deleted is in the list until the clock has reached the second at which
`update` drops it. -/
lemma holds_of_reading {calls : List TimerCall} (hdurations : DurationsOk calls) {now : ℤ}
    (hclock : ∀ t ∈ calls.filterMap reading, t ≤ now) {x : Inserted}
    (hx : x ∈ (after calls).inserted) (hnot : x.addr ∉ (after calls).deleted)
    (hlater : now < droppedAt x.time x.duration) : (after calls).Holds x.addr := by
  induction calls using List.reverseRecOn with
  | nil => simp [after] at hx
  | append_singleton calls c ih =>
    have hdurations' : DurationsOk calls := fun d id now hmem =>
      hdurations d id now (List.mem_append_left _ hmem)
    have hok := ok_after hdurations'
    specialize ih hdurations' fun t ht => hclock t (by
      rw [List.filterMap_append]
      exact List.mem_append_left _ ht)
    rw [after_snoc] at hx hnot ⊢
    generalize after calls = r at ih hx hnot hok ⊢
    cases c with
    | insert d id t =>
      simp only [TimerRun.step, List.mem_append, List.mem_singleton] at hx hnot
      rcases hx with hx | rfl
      · obtain ⟨n, hn, haddr⟩ := List.mem_map.mp (ih hx hnot)
        exact List.mem_map.mpr ⟨n, mem_insertNode.mpr (Or.inr hn), haddr⟩
      · exact List.mem_map.mpr ⟨_, mem_insertNode.mpr (Or.inl rfl), rfl⟩
    | delele id =>
      simp only [TimerRun.step, List.mem_append, not_or] at hx hnot
      obtain ⟨n, hn, haddr⟩ := List.mem_map.mp (ih hx hnot.1)
      refine List.mem_map.mpr ⟨n, mem_delele hn fun m hm heq => hnot.2 ?_, haddr⟩
      simp [hm, ← haddr, heq]
    | update t =>
      have ht : t ≤ now := hclock t (by simp [reading])
      exact (hok.holds_update hx t).mpr ⟨ih hx hnot, by omega⟩

/-- After an `update` a timer that is not deleted is in the list exactly when the second at which
it is dropped is still to come. -/
lemma holds_update_iff {calls : List TimerCall} {now : ℤ}
    (hdurations : DurationsOk calls) (hclock : ClockOk (calls ++ [.update now])) {x : Inserted}
    (hx : x ∈ (after calls).inserted) (hnot : x.addr ∉ (after calls).deleted) :
    (after (calls ++ [.update now])).Holds x.addr ↔
      now < droppedAt x.time x.duration := by
  have hok := ok_after hdurations
  have hbefore : ∀ t ∈ calls.filterMap reading, t ≤ now := by
    rw [ClockOk, List.filterMap_append] at hclock
    exact fun t ht => (List.pairwise_append.mp hclock).2.2 t ht now (by simp [reading])
  rw [after_snoc, hok.holds_update hx]
  constructor
  · exact And.right
  · exact fun hlater => ⟨holds_of_reading hdurations hbefore hx hnot hlater, hlater⟩

/-- In every run a timer that is not deleted is still there until a second and a thousandth before
the moment that was asked for, and it is gone a second after it. -/
lemma holds_update_near {calls : List TimerCall} {now : ℤ}
    (hdurations : DurationsOk calls) (hclock : ClockOk (calls ++ [.update now])) {x : Inserted}
    (hx : x ∈ (after calls).inserted) (hnot : x.addr ∉ (after calls).deleted) :
    (now + 1001000 ≤ x.time + askedDelay x.duration →
        (after (calls ++ [.update now])).Holds x.addr) ∧
      (x.time + askedDelay x.duration + 1000000 ≤ now →
        ¬ (after (calls ++ [.update now])).Holds x.addr) := by
  obtain ⟨hlate, hearly⟩ := droppedAt_near x.time x.duration
  rw [holds_update_iff hdurations hclock hx hnot]
  constructor <;> omega

/-! ## When the timers are right -/

/-- The list is in order, `delele` removes one timer, and after every `update` the timers that are
not deleted are in the list until the moment they were asked to expire at. -/
structure TimersRight (calls : List TimerCall) : Prop where
  sorted : ∀ pre, pre <+: calls → SortedByTime (after pre).head
  proper : ∀ pre, pre <+: calls → ∀ n ∈ (after pre).head, Proper n.expireTime
  deletes : ∀ pre id, pre ++ [.delele id] <+: calls →
    Removes id (after pre).head (after (pre ++ [.delele id])).head
  kept : ∀ pre now, pre ++ [.update now] <+: calls →
    ∀ x ∈ (after pre).inserted, x.addr ∉ (after pre).deleted →
      now < x.time + askedDelay x.duration → (after (pre ++ [.update now])).Holds x.addr
  gone : ∀ pre now, pre ++ [.update now] <+: calls →
    ∀ x ∈ (after pre).inserted, x.addr ∉ (after pre).deleted →
      x.time + askedDelay x.duration ≤ now → ¬ (after (pre ++ [.update now])).Holds x.addr

/-- No `update` comes between the second at which a timer that is not deleted is dropped, and the
moment it was asked for. -/
def NoneCaught (calls : List TimerCall) : Prop :=
  ∀ pre now, pre ++ [.update now] <+: calls →
    ∀ x ∈ (after pre).inserted, x.addr ∉ (after pre).deleted →
      (droppedAt x.time x.duration ≤ now ↔ x.time + askedDelay x.duration ≤ now)

/-- What is in the list has been inserted by a call. -/
lemma exists_insert {calls : List TimerCall} {x : Inserted} (hx : x ∈ (after calls).inserted) :
    ∃ id, TimerCall.insert x.duration id x.time ∈ calls := by
  induction calls using List.reverseRecOn with
  | nil => simp [after] at hx
  | append_singleton calls c ih =>
    rw [after_snoc] at hx
    have hold : x ∈ (after calls).inserted →
        ∃ id, TimerCall.insert x.duration id x.time ∈ calls ++ [c] := fun h =>
      (ih h).imp fun id hmem => List.mem_append_left _ hmem
    cases c with
    | insert d id now =>
      simp only [TimerRun.step, List.mem_append, List.mem_singleton] at hx
      rcases hx with hx | rfl
      · exact hold hx
      · exact ⟨id, by simp⟩
    | delele id => exact hold hx
    | update now => exact hold hx

/-- It is enough to look at each insertion with each `update`. -/
lemma noneCaught_of_pairs {calls : List TimerCall}
    (h : ∀ d id t now, TimerCall.insert d id t ∈ calls → TimerCall.update now ∈ calls →
      (droppedAt t d ≤ now ↔ t + askedDelay d ≤ now)) : NoneCaught calls := by
  rintro pre now ⟨post, rfl⟩ x hx -
  obtain ⟨id, hmem⟩ := exists_insert hx
  exact h x.duration id x.time now (by simp [hmem]) (by simp)

/-- A timer of a whole number of seconds that begins with a second is dropped when it is asked
to be. -/
lemma droppedAt_whole (second seconds : ℤ) :
    droppedAt (second * 1000000) seconds = second * 1000000 + askedDelay seconds := by
  have hfraction : ((seconds : ℚ) - ⌊(seconds : ℚ)⌋) = 0 := by
    rw [Int.floor_intCast, sub_self]
  rw [droppedAt, askedDelay_eq, hfraction, Int.floor_intCast]
  norm_num
  ring

/-- Timers of whole seconds that begin with a second are not caught. -/
theorem noneCaught_of_whole {calls : List TimerCall}
    (h : ∀ d id t, TimerCall.insert d id t ∈ calls →
      (∃ seconds : ℤ, d = seconds) ∧ ∃ second : ℤ, t = second * 1000000) :
    NoneCaught calls := by
  refine noneCaught_of_pairs fun d id t now hinsert _ => ?_
  obtain ⟨⟨seconds, rfl⟩, second, rfl⟩ := h d id t hinsert
  rw [droppedAt_whole]

/-- **The timers are right exactly when no `update` catches one between its two moments.** -/
theorem timersRight_iff {calls : List TimerCall} (hdurations : DurationsOk calls)
    (hclock : ClockOk calls) : TimersRight calls ↔ NoneCaught calls := by
  have hdurations' : ∀ pre, pre <+: calls → DurationsOk pre := fun pre hpre d id now hmem =>
    hdurations d id now (hpre.subset hmem)
  have hclock' : ∀ pre, pre <+: calls → ClockOk pre := by
    rintro pre ⟨post, rfl⟩
    rw [ClockOk, List.filterMap_append] at hclock
    exact (List.pairwise_append.mp hclock).1
  have hshorter : ∀ pre (c : TimerCall), pre ++ [c] <+: calls → pre <+: calls := fun pre c h =>
    (List.prefix_append _ _).trans h
  have hiff : ∀ pre now, pre ++ [.update now] <+: calls → ∀ x ∈ (after pre).inserted,
      x.addr ∉ (after pre).deleted →
        ((after (pre ++ [.update now])).Holds x.addr ↔ now < droppedAt x.time x.duration) :=
    fun pre now hpre x hx hnot =>
      holds_update_iff (hdurations' pre (hshorter pre _ hpre)) (hclock' _ hpre) hx hnot
  constructor
  · intro h pre now hpre x hx hnot
    constructor
    · intro hdropped
      by_contra hasked
      have hholds := (hiff pre now hpre x hx hnot).mp (h.kept pre now hpre x hx hnot (by omega))
      omega
    · intro hasked
      by_contra hdropped
      exact h.gone pre now hpre x hx hnot hasked ((hiff pre now hpre x hx hnot).mpr (by omega))
  · intro h
    refine ⟨fun pre hpre => (ok_after (hdurations' pre hpre)).sorted,
      fun pre hpre => (ok_after (hdurations' pre hpre)).proper, fun pre id hpre => ?_,
      fun pre now hpre x hx hnot hearly => ?_, fun pre now hpre x hx hnot hlate hholds => ?_⟩
    · rw [after_snoc]
      exact removes_delele _ id
    · refine (hiff pre now hpre x hx hnot).mpr ?_
      by_contra hdropped
      have hasked := (h pre now hpre x hx hnot).mp (by omega)
      omega
    · have hlater := (hiff pre now hpre x hx hnot).mp hholds
      have hdropped := (h pre now hpre x hx hnot).mpr hlate
      omega

/-- Three timers of the driver, the first of them deleted: the clock is read away from the
seconds at which they are dropped too early or too late. -/
def driverCalls : List TimerCall :=
  [.insert 5 1 100000, .insert (61 / 10) 2 150000, .insert (72 / 10) 3 900000, .update 4500000,
    .delele 1, .update 6050000, .update 7300000, .update 8400000]

lemma insert_mem_driverCalls {d : ℚ} {id : Int32} {t : ℤ} (h : .insert d id t ∈ driverCalls) :
    d = 5 ∧ t = 100000 ∨ d = 61 / 10 ∧ t = 150000 ∨ d = 72 / 10 ∧ t = 900000 := by
  have hcases : d = 5 ∧ id = 1 ∧ t = 100000 ∨ d = 61 / 10 ∧ id = 2 ∧ t = 150000 ∨
      d = 72 / 10 ∧ id = 3 ∧ t = 900000 := by simpa [driverCalls] using h
  exact hcases.imp (And.imp_right And.right)
    (Or.imp (And.imp_right And.right) (And.imp_right And.right))

theorem timersRight_iff_driverCalls : TimersRight driverCalls := by
  refine (timersRight_iff (fun d id t hinsert => ?_) (by decide)).mpr
    (noneCaught_of_pairs fun d id t now hinsert hupdate => ?_)
  · rcases insert_mem_driverCalls hinsert with ⟨rfl, -⟩ | ⟨rfl, -⟩ | ⟨rfl, -⟩ <;> norm_num
  · have hnow : now = 4500000 ∨ now = 6050000 ∨ now = 7300000 ∨ now = 8400000 := by
      simpa [driverCalls] using hupdate
    rcases insert_mem_driverCalls hinsert with ⟨rfl, rfl⟩ | ⟨rfl, rfl⟩ | ⟨rfl, rfl⟩ <;>
      rcases hnow with rfl | rfl | rfl | rfl <;> norm_num [droppedAt, askedDelay]

/-- A timer of 5 seconds that is inserted at 0.9 seconds is gone at 5.2 seconds. -/
theorem not_always_timersRight :
    ¬ ∀ calls, DurationsOk calls → ClockOk calls → TimersRight calls := by
  intro h
  have hdurations : ∀ calls, calls <+: [.insert 5 1 900000, .update 5200000] →
      DurationsOk calls := by
    intro calls hpre d id now hmem
    obtain ⟨rfl, -, -⟩ : d = 5 ∧ id = 1 ∧ now = 900000 := by simpa using hpre.subset hmem
    norm_num
  have hright := h [.insert 5 1 900000, .update 5200000] (hdurations _ List.prefix_rfl)
    (by decide)
  have hholds := hright.kept [.insert 5 1 900000] 5200000 List.prefix_rfl ⟨0, 900000, 5⟩
    (by simp [after, TimerRun.step]) (by simp [after, TimerRun.step])
    (by norm_num [askedDelay])
  rw [holds_update_iff (hdurations _ (List.prefix_append _ [TimerCall.update 5200000])) (by decide)
    (by simp [after, TimerRun.step]) (by simp [after, TimerRun.step])] at hholds
  norm_num [droppedAt] at hholds

end TimerRun
end NetworkProgramming.Proj1
