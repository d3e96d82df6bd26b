import NetworkProgramming.Proj1.Recent

/-!
# The retransmission timeout of the simulated TCP

Each send leaves its number and the clock in a ring of 30 records. An ack looks for its number
there, and what `get_rtt` returns is folded into the estimate, the -1 of an unknown number like any
round trip. So the estimate is right exactly when the number of every ack is among the last 30
records (`rtoRight_iff`).
-/

namespace NetworkProgramming.Proj1

open RingBuffer

/-! ## The functions of `tcpd.c` -/

/-- `time_record`. -/
structure TimeRecord where
  startTime : Timeval
  seq : Int32

/-- A record that has not been written. -/
def TimeRecord.zero : TimeRecord := ⟨⟨0, 0⟩, 0⟩

/-- The number of records in `record_buf`. -/
def RECORDS : ℕ := 30

instance : NeZero RECORDS := ⟨by decide⟩

/-- One round of the loop of `get_rtt`. -/
def rttRound (recordBuf : Fin RECORDS → TimeRecord) (ack : Int32) (endTime : Timeval) (rtt : ℚ)
    (i : Fin RECORDS) : ℚ :=
  if ack = (recordBuf i).seq then
    (endTime.tvSec - (recordBuf i).startTime.tvSec : ℤ) +
      (endTime.tvUsec - (recordBuf i).startTime.tvUsec : ℤ) / 1000000
  else rtt

/-- `get_rtt`, with the clock at `endTime`. -/
def getRtt (recordBuf : Fin RECORDS → TimeRecord) (ack : Int32) (endTime : Timeval) : ℚ :=
  (List.finRange RECORDS).foldl (rttRound recordBuf ack endTime) (-1)

/-- The static variables of `update_RTO`, and `RTO`. -/
structure RtoEstimate where
  srtt : ℚ := 0
  devRtt : ℚ := 0
  rto : ℚ := 100
deriving DecidableEq

/-- `update_RTO`. -/
def updateRTO (e : RtoEstimate) (rtt : ℚ) : RtoEstimate :=
  let srtt := e.srtt + 1 / 8 * (rtt - e.srtt)
  let devRtt := (1 - 1 / 4) * e.devRtt + 1 / 4 * |rtt - srtt|
  ⟨srtt, devRtt, 1 * srtt + 4 * devRtt⟩

/-! ## Runs -/

/-- What the main loop of the client takes from a socket, with the clock it reads. -/
inductive RtoEvent
  /-- a datagram from `ftpc` -/
  | send (buffer : Payload) (now : Timeval)
  /-- an ack with the number `seq` -/
  | ack (seq : UInt32) (now : Timeval)

/-- The reading of the clock. -/
def RtoEvent.now : RtoEvent → Timeval
  | .send _ now => now
  | .ack _ now => now

/-- What the estimate depends on, with what has been recorded so far. -/
structure RtoRun where
  recordBuf : Fin RECORDS → TimeRecord := fun _ => .zero
  recordIndex : Fin RECORDS := 0
  seq : ℕ := randomIniSeq
  estimate : RtoEstimate := {}
  records : List TimeRecord := []

namespace RtoRun

/-- `record`. -/
def record (r : RtoRun) (seq : Int32) (now : Timeval) : RtoRun :=
  { r with
    recordBuf := Function.update r.recordBuf r.recordIndex ⟨now, seq⟩
    recordIndex := r.recordIndex + 1
    records := r.records ++ [⟨now, seq⟩] }

/-- One event. -/
def step (r : RtoRun) : RtoEvent → RtoRun
  | .send buffer now =>
    { r.record (UInt32.ofNat r.seq).toInt32 now with
      seq := (r.seq + buffer.bytes.length) % 65535 }
  | .ack seq now =>
    { r with estimate := updateRTO r.estimate (getRtt r.recordBuf seq.toInt32 now) }

/-- The events `es`, from the start of the program. -/
def after (es : List RtoEvent) : RtoRun := es.foldl step {}

lemma after_snoc (es : List RtoEvent) (e : RtoEvent) : after (es ++ [e]) = (after es).step e := by
  rw [after, List.foldl_append]
  rfl

/-- The last 30 records. -/
def recent (r : RtoRun) : List TimeRecord := r.records.drop (r.records.length - RECORDS)

/-- The most recent of the last 30 records with this number. -/
def lastRecord (r : RtoRun) (seq : UInt32) : Option TimeRecord :=
  r.recent.reverse.find? (·.seq = seq.toInt32)

/-- The number of the ack is among the last 30 records. -/
def Known (r : RtoRun) (seq : UInt32) : Prop := ∃ x ∈ r.recent, x.seq = seq.toInt32

end RtoRun

/-! ## `get_rtt` -/

lemma rttRound_of_ne {recordBuf : Fin RECORDS → TimeRecord} {ack : Int32} {endTime : Timeval}
    {rtt : ℚ} {i : Fin RECORDS} (h : (recordBuf i).seq ≠ ack) :
    rttRound recordBuf ack endTime rtt i = rtt := if_neg (Ne.symm h)

lemma rttRound_of_eq {recordBuf : Fin RECORDS → TimeRecord} {ack : Int32} {endTime : Timeval}
    {rtt : ℚ} {i : Fin RECORDS} (h : (recordBuf i).seq = ack) :
    rttRound recordBuf ack endTime rtt i
      = endTime.seconds - (recordBuf i).startTime.seconds := by
  rw [rttRound, if_pos h.symm, Timeval.seconds, Timeval.seconds]
  push_cast
  ring

/-- The loop ends with a round trip to a record of this number, or with what it began with. -/
lemma foldl_rttRound (recordBuf : Fin RECORDS → TimeRecord) (ack : Int32) (endTime : Timeval)
    (rtt : ℚ) (l : List (Fin RECORDS)) :
    (∃ i ∈ l, (recordBuf i).seq = ack ∧
      l.foldl (rttRound recordBuf ack endTime) rtt
        = endTime.seconds - (recordBuf i).startTime.seconds) ∨
    (∀ i ∈ l, (recordBuf i).seq ≠ ack) ∧ l.foldl (rttRound recordBuf ack endTime) rtt = rtt := by
  induction l using List.reverseRecOn with
  | nil => exact Or.inr ⟨fun i hi => absurd hi List.not_mem_nil, rfl⟩
  | append_singleton l j ih =>
    rw [List.foldl_append, List.foldl_cons, List.foldl_nil]
    by_cases hj : (recordBuf j).seq = ack
    · exact Or.inl ⟨j, by simp, hj, rttRound_of_eq hj⟩
    · rw [rttRound_of_ne hj]
      rcases ih with ⟨i, hi, hseq, heq⟩ | ⟨hnone, heq⟩
      · exact Or.inl ⟨i, List.mem_append_left _ hi, hseq, heq⟩
      · refine Or.inr ⟨fun i hi => ?_, heq⟩
        rcases List.mem_append.mp hi with hi | hi
        · exact hnone i hi
        · rwa [List.mem_singleton.mp hi]

/-- `get_rtt` returns the time since a record of this number, or -1 if there is none. -/
lemma getRtt_cases (recordBuf : Fin RECORDS → TimeRecord) (ack : Int32) (endTime : Timeval) :
    (∃ i, (recordBuf i).seq = ack ∧ getRtt recordBuf ack endTime
      = endTime.seconds - (recordBuf i).startTime.seconds) ∨
    (∀ i, (recordBuf i).seq ≠ ack) ∧ getRtt recordBuf ack endTime = -1 := by
  rcases foldl_rttRound recordBuf ack endTime (-1) (List.finRange RECORDS) with
    ⟨i, -, hseq, heq⟩ | ⟨hnone, heq⟩
  · exact Or.inl ⟨i, hseq, heq⟩
  · exact Or.inr ⟨fun i => hnone i (List.mem_finRange i), heq⟩

/-! ## `update_RTO` -/

/-- What holds of the estimate as long as no sample is negative. -/
structure RtoEstimate.Ok (e : RtoEstimate) : Prop where
  srtt : 0 ≤ e.srtt
  devRtt : 0 ≤ e.devRtt
  rto : 0 ≤ e.rto
  /-- without a deviation there was no sample but zero -/
  still : e.devRtt = 0 → e.srtt = 0

lemma RtoEstimate.ok_start : RtoEstimate.Ok {} := by
  constructor <;> norm_num

lemma RtoEstimate.Ok.update {e : RtoEstimate} (h : e.Ok) {rtt : ℚ} (hrtt : 0 ≤ rtt) :
    (updateRTO e rtt).Ok := by
  have hsrtt := h.srtt
  have hdevRtt := h.devRtt
  have hdiff : rtt - (e.srtt + 1 / 8 * (rtt - e.srtt)) = 7 / 8 * (rtt - e.srtt) := by ring
  have habs : |rtt - (e.srtt + 1 / 8 * (rtt - e.srtt))| = 7 / 8 * |rtt - e.srtt| := by
    rw [hdiff, abs_mul, abs_of_pos (by norm_num)]
  have hnonneg := abs_nonneg (rtt - e.srtt)
  unfold updateRTO
  dsimp only
  rw [habs]
  refine ⟨?_, ?_, ?_, fun hzero => ?_⟩ <;> dsimp only at *
  · linarith
  · linarith
  · linarith
  · have hsame : |rtt - e.srtt| = 0 := by linarith
    have hstill := h.still (by linarith)
    rw [abs_eq_zero] at hsame
    linarith

/-- An estimate that a sample leaves as it is has seen no sample but zero. -/
lemma RtoEstimate.Ok.eq_zero_of_update_eq {e : RtoEstimate} (h : e.Ok) {rtt : ℚ}
    (heq : updateRTO e rtt = e) : rtt = 0 := by
  have hsrtt : e.srtt + 1 / 8 * (rtt - e.srtt) = e.srtt := congrArg RtoEstimate.srtt heq
  have hdevRtt : (1 - 1 / 4) * e.devRtt + 1 / 4 * |rtt - (e.srtt + 1 / 8 * (rtt - e.srtt))|
      = e.devRtt := congrArg RtoEstimate.devRtt heq
  rw [hsrtt] at hdevRtt
  have hsame : rtt = e.srtt := by linarith
  have hzero : e.devRtt = 0 := by
    rw [hsame, sub_self, abs_zero] at hdevRtt
    linarith
  rw [hsame, h.still hzero]

/-! ## What holds along a run -/

namespace RtoRun

/-- The numbers that have been recorded, and the next one. -/
def numbers (r : RtoRun) : List ℕ := r.records.map (·.seq.toNatClampNeg) ++ [r.seq]

/-- The ring holds the last records behind those that have not been written, and the numbers are
those of a sender. -/
structure Ok (r : RtoRun) : Prop where
  ring : slots r.recordBuf r.recordIndex RECORDS
    = (List.replicate RECORDS TimeRecord.zero ++ r.records).drop r.records.length
  follows : r.numbers.IsChain Follows
  small : ∀ x ∈ r.numbers, x < 65535
  first : r.numbers.head? = some randomIniSeq

lemma toNatClampNeg_seq {n : ℕ} (h : n < 65535) :
    (UInt32.ofNat n).toInt32.toNatClampNeg = n :=
  Int32.toNatClampNeg_ofNat_of_lt (by omega)

lemma ok_after (es : List RtoEvent) : (after es).Ok := by
  induction es using List.reverseRecOn with
  | nil =>
    refine ⟨?_, List.isChain_singleton _, fun x hx => ?_, rfl⟩
    · rfl
    · obtain rfl : x = randomIniSeq := by simpa [after, numbers] using hx
      decide
  | append_singleton es e ih =>
    rw [after_snoc]
    generalize after es = r at ih ⊢
    cases e with
    | ack seq now => exact ⟨ih.ring, ih.follows, ih.small, ih.first⟩
    | send buffer now =>
      have hsmall := ih.small r.seq (by simp [numbers])
      have hnumbers : (r.step (.send buffer now)).numbers
          = r.numbers ++ [(r.seq + buffer.bytes.length) % 65535] := by
        simp only [numbers, step, record, List.map_append, List.map_cons, List.map_nil,
          toNatClampNeg_seq hsmall]
      refine ⟨?_, ?_, ?_, ?_⟩
      · -- the oldest record makes room for the new one
        show slots (Function.update r.recordBuf r.recordIndex _) (r.recordIndex + 1) RECORDS
          = (List.replicate RECORDS TimeRecord.zero ++ (r.records ++ [_])).drop
            (r.records ++ [_]).length
        rw [slots_overwrite, ih.ring, List.tail_drop, List.length_append, List.length_singleton,
          ← List.append_assoc]
        refine (List.drop_append_of_le_length ?_).symm
        rw [List.length_append, List.length_replicate]
        unfold RECORDS
        omega
      · rw [hnumbers]
        refine ih.follows.append (List.isChain_singleton _) fun x hx y hy => ?_
        obtain rfl : r.seq = x := by simpa [numbers] using hx
        obtain rfl : (r.seq + buffer.bytes.length) % 65535 = y := by simpa using hy
        exact ⟨_, buffer.nonempty, buffer.fits, rfl⟩
      · rw [hnumbers]
        intro x hx
        rcases List.mem_append.mp hx with hbefore | hnow
        · exact ih.small x hbefore
        · obtain rfl : x = (r.seq + buffer.bytes.length) % 65535 := by simpa using hnow
          exact Nat.mod_lt _ (by decide)
      · rw [hnumbers, List.head?_append, ih.first]
        rfl

/-- A slot of the ring has not been written, or holds one of the last records. -/
lemma Ok.slot {r : RtoRun} (h : r.Ok) (i : Fin RECORDS) :
    (r.recordBuf i = .zero ∧ r.records.length < RECORDS) ∨ r.recordBuf i ∈ r.recent := by
  have hmem : r.recordBuf i ∈ slots r.recordBuf r.recordIndex RECORDS :=
    (mem_slots_iff _ _).mpr ⟨i, rfl⟩
  rw [h.ring, List.drop_append, List.length_replicate, List.drop_replicate] at hmem
  rcases List.mem_append.mp hmem with hzero | hrecent
  · obtain ⟨hne, heq⟩ := List.mem_replicate.mp hzero
    exact Or.inl ⟨heq, by omega⟩
  · exact Or.inr hrecent

/-- The last records are in the ring. -/
lemma Ok.exists_slot {r : RtoRun} (h : r.Ok) {x : TimeRecord} (hx : x ∈ r.recent) :
    ∃ i, r.recordBuf i = x := by
  apply (mem_slots_iff r.recordBuf r.recordIndex).mp
  rw [h.ring, List.drop_append, List.length_replicate]
  exact List.mem_append_right _ hx

lemma getElem_numbers {r : RtoRun} {i : ℕ} (hi : i < r.records.length)
    (hi' : i < r.numbers.length) : r.numbers[i] = r.records[i].seq.toNatClampNeg := by
  simp only [numbers]
  rw [List.getElem_append_left (by rwa [List.length_map]), List.getElem_map]

lemma length_numbers (r : RtoRun) : r.numbers.length = r.records.length + 1 := by
  rw [numbers, List.length_append, List.length_map, List.length_singleton]

/-- The numbers of the last records are different. -/
lemma Ok.nodup {r : RtoRun} (h : r.Ok) : (r.recent.map (·.seq)).Nodup := by
  have hlength := length_numbers r
  rw [recent, List.nodup_iff_pairwise_ne, List.pairwise_iff_getElem]
  intro i j hi hj hij heq
  simp only [List.length_map, List.length_drop] at hi hj
  simp only [List.getElem_map, List.getElem_drop] at heq
  have hne := ne_of_follows h.follows h.small
    (by omega : r.records.length - RECORDS + i < r.records.length - RECORDS + j) (by omega)
    (by unfold BODY_LEN RECORDS at *; omega)
  rw [getElem_numbers (by omega), getElem_numbers (by omega)] at hne
  exact hne (congrArg Int32.toNatClampNeg heq)

/-- The first 29 numbers are not zero. -/
lemma Ok.ne_zero {r : RtoRun} (h : r.Ok) (hlt : r.records.length < RECORDS) {x : TimeRecord}
    (hx : x ∈ r.recent) : x.seq ≠ 0 := by
  intro hzero
  obtain ⟨i, hi, rfl⟩ := List.getElem_of_mem (List.mem_of_mem_drop hx)
  have hlength := length_numbers r
  have hfirst : r.numbers[0] = 1 := by
    have hhead := h.first
    rw [List.head?_eq_getElem?, List.getElem?_eq_getElem (by omega)] at hhead
    exact Option.some.inj hhead
  obtain ⟨s, -, hhigh, heq⟩ := exists_distance h.follows (by omega : 0 + i < r.numbers.length)
    (h.small _ (List.getElem_mem (by omega)))
  simp only [Nat.zero_add, hfirst, getElem_numbers hi, hzero] at heq
  have hnumber : (0 : Int32).toNatClampNeg = 0 := rfl
  unfold BODY_LEN at hhigh
  unfold RECORDS at hlt
  omega

/-- For a number among the last records `get_rtt` returns the time since its record. -/
lemma Ok.getRtt_of_recent {r : RtoRun} (h : r.Ok) {x : TimeRecord} (hx : x ∈ r.recent)
    (now : Timeval) :
    getRtt r.recordBuf x.seq now = now.seconds - x.startTime.seconds := by
  rcases getRtt_cases r.recordBuf x.seq now with ⟨i, hseq, heq⟩ | ⟨hnone, -⟩
  · rw [heq]
    rcases h.slot i with ⟨hzero, hlt⟩ | hrecent
    · rw [hzero] at hseq
      exact absurd hseq.symm (h.ne_zero hlt hx)
    · rw [List.inj_on_of_nodup_map h.nodup hrecent hx hseq]
  · obtain ⟨i, hi⟩ := h.exists_slot hx
    exact absurd (congrArg TimeRecord.seq hi) (hnone i)

/-- For another number it returns -1 or the reading of the clock. -/
lemma Ok.getRtt_of_not_known {r : RtoRun} (h : r.Ok) {seq : UInt32} (hseq : ¬ r.Known seq)
    (now : Timeval) :
    getRtt r.recordBuf seq.toInt32 now = -1 ∨
      getRtt r.recordBuf seq.toInt32 now = now.seconds := by
  rcases getRtt_cases r.recordBuf seq.toInt32 now with ⟨i, hi, heq⟩ | ⟨-, heq⟩
  · rcases h.slot i with ⟨hzero, -⟩ | hrecent
    · refine Or.inr ?_
      rw [heq, hzero]
      norm_num [TimeRecord.zero, Timeval.seconds]
    · exact absurd ⟨_, hrecent, hi⟩ hseq
  · exact Or.inl heq

lemma lastRecord_eq_none_iff {r : RtoRun} {seq : UInt32} :
    r.lastRecord seq = none ↔ ¬ r.Known seq := by
  simp [lastRecord, Known]

lemma mem_of_lastRecord {r : RtoRun} {seq : UInt32} {x : TimeRecord}
    (hx : r.lastRecord seq = some x) : x ∈ r.recent ∧ x.seq = seq.toInt32 :=
  ⟨List.mem_reverse.mp (List.mem_of_find?_eq_some hx), by simpa using List.find?_some hx⟩

/-! ## When the estimate is right -/

/-- The clock does not go back, and the Epoch is over. -/
def ClockOk (es : List RtoEvent) : Prop :=
  (es.map (·.now.seconds)).Pairwise (· ≤ ·) ∧ ∀ e ∈ es, 0 < e.now.seconds

/-- An ack for one of the last 30 records feeds the time since the most recent one, any other
leaves the estimate as it is, and the timeout is not negative. -/
structure RtoRight (es : List RtoEvent) : Prop where
  sample : ∀ pre seq now, pre ++ [.ack seq now] <+: es →
    ∀ x, (after pre).lastRecord seq = some x →
      (after (pre ++ [.ack seq now])).estimate
        = updateRTO (after pre).estimate (now.seconds - x.startTime.seconds)
  unchanged : ∀ pre seq now, pre ++ [.ack seq now] <+: es → (after pre).lastRecord seq = none →
    (after (pre ++ [.ack seq now])).estimate = (after pre).estimate
  nonneg : ∀ pre, pre <+: es → 0 ≤ (after pre).estimate.rto

/-- The number of every ack is among the last 30 records. -/
def AllKnown (es : List RtoEvent) : Prop :=
  ∀ pre seq now, pre ++ [.ack seq now] <+: es → (after pre).Known seq

/-- A record has the reading of a send. -/
lemma exists_send {es : List RtoEvent} {x : TimeRecord} (hx : x ∈ (after es).records) :
    ∃ buffer, RtoEvent.send buffer x.startTime ∈ es := by
  induction es using List.reverseRecOn with
  | nil => simp [after] at hx
  | append_singleton es e ih =>
    rw [after_snoc] at hx
    have hold : x ∈ (after es).records →
        ∃ buffer, RtoEvent.send buffer x.startTime ∈ es ++ [e] := fun h =>
      (ih h).imp fun buffer hmem => List.mem_append_left _ hmem
    cases e with
    | send buffer now =>
      rcases List.mem_append.mp hx with hx | hx
      · exact hold hx
      · rw [List.mem_singleton.mp hx]
        exact ⟨buffer, by simp⟩
    | ack seq now => exact hold hx

/-- No round trip to a record is negative. -/
lemma le_of_mem_records {es : List RtoEvent} {e : RtoEvent} (hclock : ClockOk (es ++ [e]))
    {x : TimeRecord} (hx : x ∈ (after es).records) : x.startTime.seconds ≤ e.now.seconds := by
  obtain ⟨buffer, hmem⟩ := exists_send hx
  obtain ⟨hsorted, -⟩ := hclock
  rw [List.map_append] at hsorted
  exact (List.pairwise_append.mp hsorted).2.2 _ (List.mem_map_of_mem hmem) _ (by simp)

lemma ClockOk.of_prefix {pre es : List RtoEvent} (h : ClockOk es) (hpre : pre <+: es) :
    ClockOk pre :=
  ⟨h.1.sublist (hpre.sublist.map _), fun e he => h.2 e (hpre.subset he)⟩

/-- While all numbers are known, no sample is negative. -/
lemma ok_estimate {es : List RtoEvent} (hclock : ClockOk es) (h : AllKnown es) :
    (after es).estimate.Ok := by
  induction es using List.reverseRecOn with
  | nil => exact RtoEstimate.ok_start
  | append_singleton es e ih =>
    have hpre : es <+: es ++ [e] := List.prefix_append _ _
    have hok := ih (hclock.of_prefix hpre) fun pre seq now hshort =>
      h pre seq now (hshort.trans hpre)
    cases e with
    | send buffer now =>
      rw [after_snoc]
      exact hok
    | ack seq now =>
      obtain ⟨x, hx, hseq⟩ := h es seq now List.prefix_rfl
      have hle := le_of_mem_records hclock (List.mem_of_mem_drop hx)
      rw [after_snoc]
      show (updateRTO (after es).estimate (getRtt (after es).recordBuf seq.toInt32 now)).Ok
      rw [← hseq, (ok_after es).getRtt_of_recent hx]
      exact hok.update (sub_nonneg.mpr hle)

/-- **The estimate is right exactly when the number of every ack is among the last 30 records.** -/
theorem rtoRight_iff {es : List RtoEvent} (hclock : ClockOk es) :
    RtoRight es ↔ AllKnown es := by
  constructor
  · intro h
    -- up to the first unknown number the estimate is right, and that number moves it
    have hprefix : ∀ pre, pre <+: es → AllKnown pre := by
      intro pre
      induction pre using List.reverseRecOn with
      | nil =>
        intro _ pre seq now hnil
        exact absurd (List.prefix_nil.mp hnil) (by simp)
      | append_singleton pre e ih =>
        intro hpre p seq now hp
        have hbefore := ih ((List.prefix_append _ _).trans hpre)
        rcases List.prefix_concat_iff.mp hp with heq | hshort
        · obtain ⟨rfl, hlast⟩ := List.append_inj' heq rfl
          obtain rfl : RtoEvent.ack seq now = e := by simpa using hlast
          by_contra hunknown
          have hok := ok_estimate (hclock.of_prefix ((List.prefix_append _ _).trans hpre)) hbefore
          have hsame := h.unchanged p seq now hpre (lastRecord_eq_none_iff.mpr hunknown)
          rw [after_snoc] at hsame
          have hzero := hok.eq_zero_of_update_eq hsame
          have hpos := hclock.2 (.ack seq now) (hpre.subset (by simp))
          rcases (ok_after p).getRtt_of_not_known hunknown now with hrtt | hrtt
          · rw [hzero] at hrtt
            norm_num at hrtt
          · rw [hzero] at hrtt
            exact absurd hrtt.symm (ne_of_gt hpos)
        · exact hbefore p seq now hshort
    exact hprefix es List.prefix_rfl
  · intro h
    refine ⟨fun pre seq now hpre x hx => ?_, fun pre seq now hpre hnone => ?_,
      fun pre hpre => ?_⟩
    · obtain ⟨hrecent, hseq⟩ := mem_of_lastRecord hx
      rw [after_snoc]
      show updateRTO _ (getRtt (after pre).recordBuf seq.toInt32 now) = _
      rw [← hseq, (ok_after pre).getRtt_of_recent hrecent]
    · exact absurd (h pre seq now hpre) (lastRecord_eq_none_iff.mp hnone)
    · exact (ok_estimate (hclock.of_prefix hpre) fun p seq now hp =>
        h p seq now (hp.trans hpre)).rto

/-- A packet, acknowledged half a second later. -/
theorem rtoRight_iff_oneAck :
    RtoRight [.send oneByte ⟨1, 0⟩, .ack 1 ⟨1, 500000⟩] := by
  refine (rtoRight_iff ⟨?_, ?_⟩).mpr fun pre seq now hpre => ?_
  · norm_num [RtoEvent.now, Timeval.seconds]
  · norm_num [RtoEvent.now, Timeval.seconds]
  · rcases pre with _ | ⟨e, pre⟩
    · simp at hpre
    · obtain ⟨rfl, hpre⟩ := List.cons_prefix_cons.mp hpre
      rcases pre with _ | ⟨e, pre⟩
      · obtain ⟨rfl, rfl⟩ : seq = 1 ∧ now = ⟨1, 500000⟩ := by simpa using hpre
        exact ⟨⟨⟨1, 0⟩, 1⟩, List.mem_cons_self, rfl⟩
      · simp at hpre

/-- An ack that answers nothing takes the timeout from 100 to 0.75 seconds. -/
theorem not_always_rtoRight : ¬ ∀ es, ClockOk es → RtoRight es := by
  intro h
  have hclock : ClockOk [.ack 5 ⟨1, 0⟩] := by
    constructor <;> norm_num [RtoEvent.now, Timeval.seconds]
  have hsame := (h [.ack 5 ⟨1, 0⟩] hclock).unchanged [] 5 ⟨1, 0⟩ List.prefix_rfl rfl
  have hrto := congrArg RtoEstimate.rto hsame
  have hrtt : getRtt (fun _ => .zero) 5 ⟨1, 0⟩ = -1 := by decide +kernel
  have hseq : (5 : UInt32).toInt32 = 5 := rfl
  norm_num [after, step, updateRTO, hseq, hrtt, abs_of_neg] at hrto

end RtoRun
end NetworkProgramming.Proj1
