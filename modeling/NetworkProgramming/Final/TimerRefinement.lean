import NetworkProgramming.Final.Timer
import Mathlib.Data.Prod.Lex

/-!
# The delta list of the timer process refines absolute deadlines

`DeadlineTable` says what the timer process is for: it keeps one absolute deadline per live
`(Session, SeqNum)` and calls back, in each round, every timer whose deadline has come, in the
order of the deadlines and, between equal deadlines, in the order the timers were started.

`Tracks` relates a delta list to such a table at a present `now`: the list, read as absolute
times, is the table sorted by deadline, with overdue deadlines clamped to `now`. Each part of
a round keeps the relation (`Tracks.update`, `Tracks.serve`, `Tracks.fire`), and a whole run of
the process calls back exactly what the table does.
-/

namespace NetworkProgramming

/-! ## The specification -/

/-- A live timer: its key, where its callback goes, its absolute deadline, and the number of
the `Start` that set it. -/
structure LiveTimer where
  session : Int32
  seqNum : Int32
  requestAddr : SockaddrIn
  deadline : ℚ
  stamp : ℕ
deriving DecidableEq

namespace LiveTimer

/-- Deadline first, order of insertion second. -/
def rank (t : LiveTimer) : ℚ ×ₗ ℕ := toLex (t.deadline, t.stamp)

/-- The timer and the request carry the same `(Session, SeqNum)`. -/
def sameKey (t : LiveTimer) (r : TimerRequestStruct) : Bool :=
  t.session = r.session ∧ t.seqNum = r.seqNum

/-- What is sent when the timer fires. -/
def callback (t : LiveTimer) : Callback :=
  { requestAddr := t.requestAddr, expired := { session := t.session, seqNum := t.seqNum } }

end LiveTimer

/-- The live timers in the order they were started, and the number of timers started so
far. -/
structure DeadlineTable where
  live : List LiveTimer
  started : ℕ

namespace DeadlineTable

/-- No timer yet. -/
def start : DeadlineTable := ⟨[], 0⟩

/-- A `Start` on a key that is not live sets its deadline, on a live key it changes nothing;
a `Cancel` removes the key. -/
def serve (s : DeadlineTable) (now : ℚ) : Option (TimerRequestStruct × SockaddrIn) → DeadlineTable
  | none => s
  | some (r, addr) =>
    if r.type = TimerRequestStart then
      if s.live.any (·.sameKey r) then s
      else
        { live := s.live ++ [{ session := r.session, seqNum := r.seqNum, requestAddr := addr,
                               deadline := now + r.seconds, stamp := s.started }],
          started := s.started + 1 }
    else if r.type = TimerRequestCancel then
      { s with live := s.live.filter fun t => !t.sameKey r }
    else s

/-- The timers whose deadline has come, in the order they fire. -/
def due (s : DeadlineTable) (now : ℚ) : List LiveTimer :=
  (s.live.filter fun t => t.deadline ≤ now).insertionSort (fun a b => a.rank ≤ b.rank)

/-- The timers whose deadline has come are gone. -/
def expire (s : DeadlineTable) (now : ℚ) : DeadlineTable :=
  { s with live := s.live.filter fun t => now < t.deadline }

/-- One round: serve the request, then fire what is due. -/
def iterate (s : DeadlineTable) (i : TimerInput) : DeadlineTable × List Callback :=
  let served := s.serve i.nowSystemTime.seconds i.request
  (served.expire i.nowSystemTime.seconds,
    (served.due i.nowSystemTime.seconds).map LiveTimer.callback)

/-- The callbacks of a sequence of rounds, round by round. -/
def run : DeadlineTable → List TimerInput → List (List Callback)
  | _, [] => []
  | s, i :: is => (s.iterate i).2 :: run (s.iterate i).1 is

/-- The table after a sequence of rounds. -/
def after : DeadlineTable → List TimerInput → DeadlineTable
  | s, [] => s
  | s, i :: is => after (s.iterate i).1 is

end DeadlineTable

/-! ## The relation between a delta list and a table -/

/-- A list of timers strictly ordered by rank holds no two timers of one rank. -/
lemma eq_of_rank_eq {es : List LiveTimer} (h : es.Pairwise (fun a b => a.rank < b.rank))
    {a b : LiveTimer} (ha : a ∈ es) (hb : b ∈ es) (hab : a.rank = b.rank) : a = b := by
  by_contra hne
  have : Std.Symm fun x y : LiveTimer => x.rank ≠ y.rank := ⟨fun _ _ hxy => hxy.symm⟩
  exact (h.imp fun hxy => hxy.ne).forall ha hb hne hab

/-- The key of a timer, as the delta list carries it. -/
def LiveTimer.key (t : LiveTimer) : Int32 × Int32 × SockaddrIn :=
  (t.session, t.seqNum, t.requestAddr)

/-- At the present `now`, the nodes `l` are the timers of `s` sorted by rank, and an overdue
deadline counts as `now`. -/
structure Tracks (now : ℚ) (l : List TimerNodeStruct) (s : DeadlineTable)
    (es : List LiveTimer) : Prop where
  perm : es.Perm s.live
  sorted : es.Pairwise (fun a b => a.rank < b.rank)
  times : DeltaList.absolute now (deltas l) = es.map fun t => (t.key, max now t.deadline)
  nonneg : DeltaList.Nonneg (deltas l)
  stamps : ∀ t ∈ es, t.stamp < s.started
  keys : es.Pairwise fun a b => ¬ (a.session = b.session ∧ a.seqNum = b.seqNum)

namespace Tracks

variable {now : ℚ} {l : List TimerNodeStruct} {s : DeadlineTable} {es : List LiveTimer}

/-- The keys of the nodes are the keys of the timers, in order. -/
lemma map_key (h : Tracks now l s es) : l.map TimerNodeStruct.key = es.map LiveTimer.key := by
  have hfst := congrArg (List.map Prod.fst) h.times
  rw [DeltaList.absolute_map_fst, deltas] at hfst
  simpa [Function.comp_def] using hfst

/-- A request finds its key in the list exactly when the key is live. -/
lemma any_sameKey (h : Tracks now l s es) (r : TimerRequestStruct) :
    l.any (·.sameKey r) = s.live.any (·.sameKey r) := by
  have hl : l.any (·.sameKey r)
      = (l.map TimerNodeStruct.key).any (fun k => k.1 = r.session ∧ k.2.1 = r.seqNum) := by
    rw [List.any_map]; rfl
  have hes : es.any (·.sameKey r)
      = (es.map LiveTimer.key).any (fun k => k.1 = r.session ∧ k.2.1 = r.seqNum) := by
    rw [List.any_map]; rfl
  rw [hl, h.map_key, ← hes, h.perm.any_eq]

/-! ## The parts of a round -/

/-- Updating the list with the time that has passed moves the present, and no deadline. -/
lemma update {now' : ℚ} (h : Tracks now l s es) (hlive : ∀ t ∈ es, now < t.deadline) :
    Tracks now' (passOverTime (-(now' - now)) l) s es where
  perm := h.perm
  sorted := h.sorted
  stamps := h.stamps
  keys := h.keys
  nonneg := by rw [deltas_passOverTime]; exact DeltaList.nonneg_carry _ h.nonneg
  times := by
    have hback : now' + -(now' - now) = now := by ring
    rw [deltas_passOverTime, DeltaList.absolute_carry _ _ h.nonneg, hback, h.times, List.map_map]
    refine List.map_congr_left fun t ht => ?_
    simp [max_eq_right (hlive t ht).le]

/-- Ordered insertion into the clamped times is ordered insertion of the timer. -/
lemma orderedInsert_times {t : LiveTimer} (ht : now ≤ t.deadline) (es : List LiveTimer) :
    (es.map fun e => (e.key, max now e.deadline)).orderedInsert (fun a b => a.2 < b.2)
        (t.key, t.deadline)
      = (es.orderedInsert (fun a b => a.deadline < b.deadline) t).map
          fun e => (e.key, max now e.deadline) := by
  induction es with
  | nil => simp [ht]
  | cons e es ih =>
    have hiff : t.deadline < max now e.deadline ↔ t.deadline < e.deadline := by
      simp [not_lt.mpr ht]
    by_cases hlt : t.deadline < e.deadline
    · simp [List.orderedInsert_cons, hiff, hlt, ht]
    · simp [List.orderedInsert_cons, hiff, hlt, ih]

/-- The newest timer goes behind every timer that is not later. -/
lemma sorted_orderedInsert {t : LiveTimer} {es : List LiveTimer}
    (hs : es.Pairwise (fun a b => a.rank < b.rank)) (hnew : ∀ e ∈ es, e.stamp < t.stamp) :
    (es.orderedInsert (fun a b => a.deadline < b.deadline) t).Pairwise
      (fun a b => a.rank < b.rank) := by
  induction es with
  | nil => simp
  | cons e es ih =>
    obtain ⟨he, hes⟩ := List.pairwise_cons.mp hs
    rw [List.orderedInsert_cons]
    split
    · rename_i hlt
      refine List.pairwise_cons.mpr ⟨fun x hx => ?_, hs⟩
      have hte : t.rank < e.rank := Prod.Lex.toLex_lt_toLex.mpr (Or.inl hlt)
      rcases List.mem_cons.mp hx with rfl | hx
      · exact hte
      · exact hte.trans (he x hx)
    · rename_i hlt
      refine List.pairwise_cons.mpr ⟨fun x hx => ?_, ih hes fun x hx => hnew x (by simp [hx])⟩
      have het : e.rank < t.rank := by
        refine Prod.Lex.toLex_lt_toLex.mpr ?_
        rcases (not_lt.mp hlt).lt_or_eq with h | h
        · exact Or.inl h
        · exact Or.inr ⟨h, hnew e (by simp)⟩
      rcases (List.mem_orderedInsert _).mp hx with rfl | hx
      · exact het
      · exact he x hx

/-- An accepted `Start`. -/
lemma insert (h : Tracks now l s es) {r : TimerRequestStruct} (addr : SockaddrIn)
    (hsec : 0 ≤ r.seconds) (hfresh : s.live.any (·.sameKey r) = false) :
    ∃ es', Tracks now
      (insertNode { session := r.session, seqNum := r.seqNum, remainSeconds := r.seconds,
                    requestAddr := addr } l)
      { live := s.live ++ [{ session := r.session, seqNum := r.seqNum, requestAddr := addr,
                             deadline := now + r.seconds, stamp := s.started }],
        started := s.started + 1 } es' := by
  set t : LiveTimer := { session := r.session, seqNum := r.seqNum, requestAddr := addr,
                         deadline := now + r.seconds, stamp := s.started } with htdef
  have hperm : (es.orderedInsert (fun a b => a.deadline < b.deadline) t).Perm (t :: es) :=
    List.perm_orderedInsert _ t es
  have hnot : ∀ e ∈ es, ¬ (t.session = e.session ∧ t.seqNum = e.seqNum) := by
    intro e he hkey
    have hmem : e ∈ s.live := h.perm.subset he
    have : e.sameKey r = true := by simp [LiveTimer.sameKey, ← hkey.1, ← hkey.2, htdef]
    rw [List.any_eq_false] at hfresh
    exact hfresh e hmem this
  refine ⟨es.orderedInsert (fun a b => a.deadline < b.deadline) t, ?_, ?_, ?_, ?_, ?_, ?_⟩
  · exact hperm.trans ((h.perm.cons t).trans (List.perm_append_singleton t s.live).symm)
  · exact sorted_orderedInsert h.sorted h.stamps
  · rw [deltas_insertNode, DeltaList.absolute_insert, h.times]
    exact orderedInsert_times (t := t) (le_add_of_nonneg_right hsec) es
  · rw [deltas_insertNode]
    exact DeltaList.nonneg_insert hsec h.nonneg
  · intro e he
    rcases (List.mem_orderedInsert _).mp he with rfl | he
    · exact Nat.lt_succ_self _
    · exact Nat.lt_succ_of_lt (h.stamps e he)
  · refine (hperm.pairwise_iff fun {x y} hxy hyx => hxy ⟨hyx.1.symm, hyx.2.symm⟩).mpr ?_
    exact List.pairwise_cons.mpr ⟨hnot, h.keys⟩

/-- With distinct keys, removing the first match removes every match. -/
lemma eraseP_eq_filter {r : TimerRequestStruct} {es : List LiveTimer}
    (h : es.Pairwise fun a b => ¬ (a.session = b.session ∧ a.seqNum = b.seqNum)) :
    es.eraseP (·.sameKey r) = es.filter fun t => !t.sameKey r := by
  induction es with
  | nil => rfl
  | cons e es ih =>
    obtain ⟨he, hes⟩ := List.pairwise_cons.mp h
    cases hm : e.sameKey r
    · simp [hm, ih hes]
    · have hrest : ∀ x ∈ es, x.sameKey r = false := by
        intro x hx
        have hne := he x hx
        simp only [LiveTimer.sameKey, decide_eq_true_eq, decide_eq_false_iff_not] at hm ⊢
        exact fun hxr => hne ⟨hm.1.trans hxr.1.symm, hm.2.trans hxr.2.symm⟩
      have hall : es.filter (fun t => !t.sameKey r) = es :=
        List.filter_eq_self.mpr fun x hx => by simp [hrest x hx]
      simp [hm, hall]

/-- A `Cancel`. -/
lemma cancel (h : Tracks now l s es) (r : TimerRequestStruct) :
    Tracks now (cancelRequest r l) { s with live := s.live.filter fun t => !t.sameKey r }
      (es.filter fun t => !t.sameKey r) where
  perm := h.perm.filter _
  sorted := h.sorted.filter _
  stamps := fun t ht => h.stamps t (List.mem_filter.mp ht).1
  keys := h.keys.filter _
  nonneg := by rw [deltas_cancelRequest]; exact DeltaList.nonneg_erase h.nonneg
  times := by
    rw [deltas_cancelRequest, DeltaList.absolute_erase, h.times, List.eraseP_map,
      ← eraseP_eq_filter h.keys]
    rfl

/-- Serving a request keeps the relation. -/
lemma serve {p : TimerProcess} (h : Tracks now p.timerList s es)
    {req : Option (TimerRequestStruct × SockaddrIn)}
    (hsec : ∀ r addr, req = some (r, addr) → r.type = TimerRequestStart → 0 ≤ r.seconds) :
    ∃ es', Tracks now (p.serve req).timerList (s.serve now req) es' := by
  rcases req with _ | ⟨r, addr⟩
  · exact ⟨es, h⟩
  · simp only [TimerProcess.serve, DeadlineTable.serve]
    by_cases hstart : r.type = TimerRequestStart
    · simp only [if_pos hstart, insertRequest, h.any_sameKey]
      cases hany : s.live.any (·.sameKey r)
      · simpa using h.insert addr (hsec r addr rfl hstart) hany
      · exact ⟨es, by simpa using h⟩
    · simp only [if_neg hstart]
      split
      · exact ⟨_, h.cancel r⟩
      · exact ⟨es, h⟩

/-- On a sorted list the timers that are due stand at the front. -/
lemma takeWhile_due {es : List LiveTimer} (h : es.Pairwise (fun a b => a.rank < b.rank)) :
    es.takeWhile (fun t => decide (t.deadline ≤ now)) = es.filter (fun t => t.deadline ≤ now) ∧
      es.dropWhile (fun t => decide (t.deadline ≤ now)) =
        es.filter (fun t => now < t.deadline) := by
  induction es with
  | nil => simp
  | cons e es ih =>
    obtain ⟨he, hes⟩ := List.pairwise_cons.mp h
    by_cases hdue : e.deadline ≤ now
    · simp [hdue, ih hes, not_lt.mpr hdue]
    · have hlate : ∀ x ∈ es, now < x.deadline := by
        intro x hx
        have hle : e.deadline ≤ x.deadline := by
          rcases Prod.Lex.toLex_lt_toLex.mp (he x hx) with hlt | heq
          · exact hlt.le
          · exact heq.1.le
        exact (not_le.mp hdue).trans_le hle
      have hnone : es.filter (fun t => decide (t.deadline ≤ now)) = [] :=
        List.filter_eq_nil_iff.mpr fun x hx => by simpa using hlate x hx
      have hall : es.filter (fun t => decide (now < t.deadline)) = es :=
        List.filter_eq_self.mpr fun x hx => by simpa using hlate x hx
      simp [hdue, not_le.mp hdue, hnone, hall]

/-- The timers of the list that are due are those of the table, in the order they fire. -/
lemma due_eq (h : Tracks now l s es) :
    es.filter (fun t => decide (t.deadline ≤ now)) = s.due now := by
  refine @List.Perm.eq_of_pairwise _ (fun a b : LiveTimer => a.rank ≤ b.rank) _ _ ?_
    ((h.sorted.imp fun {a b} hab => hab.le).filter _) (List.pairwise_insertionSort _ _) ?_
  · intro a b ha hb hab hba
    have hb' : b ∈ es := by
      have := (List.mem_insertionSort _).mp hb
      exact h.perm.symm.subset (List.mem_filter.mp this).1
    exact eq_of_rank_eq h.sorted (List.mem_filter.mp ha).1 hb' (le_antisymm hab hba)
  · exact (h.perm.filter _).trans (List.perm_insertionSort _ _).symm

/-- Clamping to the present does not change which deadlines have come. -/
lemma max_le_now (now : ℚ) :
    (fun t : LiveTimer => decide (max now t.deadline ≤ now))
      = fun t => decide (t.deadline ≤ now) := by
  funext t; simp

/-- The callbacks are those of the timers that are due, in the order they fire. -/
lemma callbacks_eq (h : Tracks now l s es) :
    (sendCallbacks l).2 = (s.due now).map LiveTimer.callback := by
  have hkeys := DeltaList.takeWhile_absolute now h.nonneg
  rw [h.times, List.takeWhile_map, List.map_map] at hkeys
  simp only [Function.comp_def, max_le_now, (takeWhile_due h.sorted).1, h.due_eq] at hkeys
  have hcallback : ∀ xs : List ((Int32 × Int32 × SockaddrIn) × ℚ),
      xs.map (fun x => keyCallback x.1) = (xs.map Prod.fst).map keyCallback := by simp
  rw [callbacks_sendCallbacks, hcallback, hkeys, List.map_map]
  rfl

/-- Sending the callbacks keeps the relation and leaves no timer that is due. -/
lemma fire (h : Tracks now l s es) :
    Tracks now (sendCallbacks l).1 (s.expire now) (es.filter fun t => now < t.deadline) where
  perm := h.perm.filter _
  sorted := h.sorted.filter _
  stamps := fun t ht => h.stamps t (List.mem_filter.mp ht).1
  keys := h.keys.filter _
  nonneg := by rw [deltas_sendCallbacks]; exact DeltaList.nonneg_dropWhile h.nonneg
  times := by
    rw [deltas_sendCallbacks, DeltaList.absolute_dropWhile _ h.nonneg, h.times,
      List.dropWhile_map]
    simp only [Function.comp_def, max_le_now, (takeWhile_due h.sorted).2]

end Tracks

/-! ## Whole runs -/

/-- A timer process whose list is empty, with the clock read at `t`. -/
def TimerProcess.start (t : Timeval) : TimerProcess := ⟨[], t⟩

/-- Every `Start` asks for a non-negative time. -/
def NonnegStarts (is : List TimerInput) : Prop :=
  ∀ i ∈ is, ∀ r addr, i.request = some (r, addr) → r.type = TimerRequestStart → 0 ≤ r.seconds

/-- Between two rounds: the list tracks the table at the last reading of the clock, and no
timer that is left is due. -/
def Refines (p : TimerProcess) (s : DeadlineTable) : Prop :=
  ∃ es, Tracks p.lastSystemTime.seconds p.timerList s es ∧
    ∀ t ∈ es, p.lastSystemTime.seconds < t.deadline

lemma refines_start (t : Timeval) : Refines (TimerProcess.start t) DeadlineTable.start :=
  ⟨[], ⟨.refl _, .nil, rfl, by simp [TimerProcess.start], by simp, .nil⟩, by simp⟩

@[simp] lemma TimerProcess.lastSystemTime_serve (p : TimerProcess)
    (req : Option (TimerRequestStruct × SockaddrIn)) :
    (p.serve req).lastSystemTime = p.lastSystemTime := by
  rcases req with _ | ⟨r, addr⟩
  · rfl
  · simp only [TimerProcess.serve]
    split <;> [rfl; split <;> rfl]

/-- After the update and the request of a round, the list tracks the served table. -/
lemma Refines.served {p : TimerProcess} {s : DeadlineTable} (h : Refines p s) {i : TimerInput}
    (hsec : ∀ r addr, i.request = some (r, addr) → r.type = TimerRequestStart → 0 ≤ r.seconds) :
    ∃ es, Tracks i.nowSystemTime.seconds
      ((p.updateTimerList i.nowSystemTime).serve i.request).timerList
      (s.serve i.nowSystemTime.seconds i.request) es := by
  obtain ⟨es, htracks, hlive⟩ := h
  have hupdate : Tracks i.nowSystemTime.seconds (p.updateTimerList i.nowSystemTime).timerList
      s es := by
    rw [TimerProcess.updateTimerList, TimerProcess.elapsedSeconds_eq]
    exact htracks.update hlive
  exact hupdate.serve hsec

/-- One round of the process calls back what one round of the table does, and the two stay
related. -/
theorem refines_iterate {p : TimerProcess} {s : DeadlineTable} (h : Refines p s)
    {i : TimerInput}
    (hsec : ∀ r addr, i.request = some (r, addr) → r.type = TimerRequestStart → 0 ≤ r.seconds) :
    (p.iterate i).2 = (s.iterate i).2 ∧ Refines (p.iterate i).1 (s.iterate i).1 := by
  obtain ⟨es, hserved⟩ := h.served hsec
  refine ⟨hserved.callbacks_eq, es.filter fun t => i.nowSystemTime.seconds < t.deadline, ?_, ?_⟩
  · simpa [TimerProcess.iterate, DeadlineTable.iterate, TimerProcess.updateTimerList]
      using hserved.fire
  · intro t ht
    simpa [TimerProcess.iterate, TimerProcess.updateTimerList]
      using (List.mem_filter.mp ht).2

lemma run_eq_of_refines {p : TimerProcess} {s : DeadlineTable} (h : Refines p s)
    {is : List TimerInput} (hsec : NonnegStarts is) : p.run is = s.run is := by
  induction is generalizing p s with
  | nil => rfl
  | cons i is ih =>
    obtain ⟨hout, hnext⟩ := refines_iterate h (hsec i (by simp))
    rw [TimerProcess.run, DeadlineTable.run, hout,
      ih hnext fun j hj => hsec j (List.mem_cons_of_mem _ hj)]

/-- What the table does in a round, said without its functions: the timers that fire are
those that are live and whose deadline has come, each once, in order of deadline and then of
insertion, and every timer that is left has its deadline ahead. -/
structure FiresOnTime (s : DeadlineTable) (i : TimerInput) (fired : List LiveTimer) : Prop where
  callbacks : (s.iterate i).2 = fired.map LiveTimer.callback
  due : ∀ t, t ∈ fired ↔
    t ∈ (s.serve i.nowSystemTime.seconds i.request).live ∧ t.deadline ≤ i.nowSystemTime.seconds
  once : fired.Nodup
  ordered : fired.Pairwise fun a b => a.rank < b.rank
  left : ∀ t, t ∈ (s.iterate i).1.live ↔
    t ∈ (s.serve i.nowSystemTime.seconds i.request).live ∧ i.nowSystemTime.seconds < t.deadline

/-- The timers of a table that tracks a list fire on time. -/
lemma firesOnTime_of_refines {p : TimerProcess} {s : DeadlineTable} (h : Refines p s)
    {i : TimerInput}
    (hsec : ∀ r addr, i.request = some (r, addr) → r.type = TimerRequestStart → 0 ≤ r.seconds) :
    ∃ fired, FiresOnTime s i fired := by
  obtain ⟨es, hserved⟩ := h.served hsec
  have hsorted := hserved.sorted.filter fun t => decide (t.deadline ≤ i.nowSystemTime.seconds)
  refine ⟨es.filter fun t => t.deadline ≤ i.nowSystemTime.seconds, ?_, ?_, ?_, hsorted, ?_⟩
  · rw [DeadlineTable.iterate, ← hserved.due_eq]
  · intro t
    simp [hserved.perm.mem_iff]
  · exact hsorted.imp fun hab heq => hab.ne (congrArg LiveTimer.rank heq)
  · intro t
    simp [DeadlineTable.iterate, DeadlineTable.expire]

lemma refines_after {p : TimerProcess} {s : DeadlineTable} (h : Refines p s)
    {is : List TimerInput} (hsec : NonnegStarts is) : ∃ p', Refines p' (s.after is) := by
  induction is generalizing p s with
  | nil => exact ⟨p, h⟩
  | cons i is ih =>
    exact ih (refines_iterate h (hsec i (by simp))).2 fun j hj => hsec j (List.mem_cons_of_mem _ hj)

/-- **The delta list refines absolute deadlines.** Whatever the clock reads and whatever is
requested, as long as no `Start` asks for a negative time, the process calls back round by
round what the table of absolute deadlines does; and the table fires on time: in each round
exactly the live timers whose deadline has come, each once and in order, so that a timer that
is left after a round fires in the first round that reaches its deadline. -/
theorem timer_refines_deadlines (t : Timeval) (is : List TimerInput) (hsec : NonnegStarts is) :
    (TimerProcess.start t).run is = DeadlineTable.start.run is ∧
      ∀ pre i post, is = pre ++ i :: post →
        ∃ fired, FiresOnTime (DeadlineTable.start.after pre) i fired := by
  refine ⟨run_eq_of_refines (refines_start t) hsec, ?_⟩
  rintro pre i post rfl
  have hpre : NonnegStarts pre := fun j hj => hsec j (List.mem_append_left _ hj)
  obtain ⟨p, hp⟩ := refines_after (refines_start t) hpre
  exact firesOnTime_of_refines hp (hsec i (by simp))

/-- Two timers of one session: the one started last has the earlier deadline, and each is
called back in the first round that reaches its own. -/
theorem timer_refines_deadlines_two :
    let ask (n : ℕ) (x : ℚ) : Option (TimerRequestStruct × SockaddrIn) :=
      some (sendTimerRequest 7 (UInt32.ofNat n) x, default)
    let called (n : ℕ) : Callback := ⟨default, ⟨7, (UInt32.ofNat n).toInt32⟩⟩
    (TimerProcess.start ⟨1, 0⟩).run
        [⟨⟨1, 0⟩, ask 1 20⟩, ⟨⟨6, 0⟩, ask 2 10⟩, ⟨⟨16, 0⟩, none⟩, ⟨⟨20, 999999⟩, none⟩,
          ⟨⟨21, 0⟩, none⟩]
      = [[], [], [called 2], [], [called 1]] := by
  intro ask called
  refine (timer_refines_deadlines ⟨1, 0⟩ _ ?_).1.trans (by decide +kernel)
  intro i hi r addr hr _
  fin_cases hi <;> simp_all [ask, sendTimerRequest]
  all_goals rw [← hr.1]; norm_num

end NetworkProgramming
