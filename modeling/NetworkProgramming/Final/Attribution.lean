import NetworkProgramming.Final.Samples
import NetworkProgramming.Final.Window
import Mathlib.Data.Set.Function

/-!
# What the samples measure

A sample is meant to be the time from the latest transmission of a package to the first valid ack
for it, and to be used once (`Attributed`). But `recv_ack` measures from `SendTime`, the last
transmission of any package, at every ack, and each transmission uses whatever was measured last.
`attributed_of_fresh` says when the samples of a run are right nevertheless.
-/

namespace NetworkProgramming

/-- When `p` was transmitted last. -/
def lastSent (p : PackageKey) (notes : List RttNote) : Option Timeval :=
  (notes.filterMap fun n =>
    match n with
    | .sent q time _ => if q = p then some time else none
    | .acked _ _ _ => none).getLast?

/-- The note `j` is the first valid ack for `p`. -/
structure FirstAck (notes : List RttNote) (j : ℕ) (p : PackageKey) (ackTime : Timeval) :
    Prop where
  acked : notes[j]? = some (.acked p true ackTime)
  first : ∀ k < j, ∀ time, notes[k]? ≠ some (.acked p true time)

/-- `x` is the time from the latest transmission of a package to the note `j`, the first valid
ack for that package. -/
def RoundTrip (notes : List RttNote) (j : ℕ) (x : ℚ) : Prop :=
  ∃ p sendTime ackTime, FirstAck notes j p ackTime ∧
    lastSent p (notes.take j) = some sendTime ∧ x = ackTime.seconds - sendTime.seconds

/-- The note `i` folds the round-trip sample `x` in. There is none before the first ack. -/
def IsSample (notes : List RttNote) (i : ℕ) (x : ℚ) : Prop :=
  (∃ p time, notes[i]? = some (.sent p time x)) ∧
    ∃ j < i, ∃ p valid time, notes[j]? = some (.acked p valid time)

/-- Every sample is the round-trip time of a package whose ack came before, and no two samples
belong to the same ack. -/
def Attributed (notes : List RttNote) : Prop :=
  ∃ f : ℕ → ℕ, Set.InjOn f {i | ∃ x, IsSample notes i x} ∧
    ∀ i x, IsSample notes i x → f i < i ∧ RoundTrip notes (f i) x

/-- The estimator when the note `i` is written. -/
def estimatorAt (notes : List RttNote) (i : ℕ) : Estimator :=
  (notes.take i).foldl Estimator.note {}

/-- Directly before the transmission `i`, the first valid ack for a package was read, and
`SendTime` was the time of the latest transmission of that very package. -/
def Fresh (notes : List RttNote) (i : ℕ) : Prop :=
  ∃ j p sendTime ackTime, i = j + 1 ∧ FirstAck notes j p ackTime ∧
    lastSent p (notes.take j) = some sendTime ∧
    (estimatorAt notes j).sendTime.seconds = sendTime.seconds ∧
    sendTime.seconds < ackTime.seconds

/-! ## The sample of a transmission -/

/-- A note takes the estimator one step further. -/
lemma estimatorAt_succ {notes : List RttNote} {i : ℕ} {n : RttNote} (h : notes[i]? = some n) :
    estimatorAt notes (i + 1) = (estimatorAt notes i).note n := by
  rw [estimatorAt, List.take_add_one, h, List.foldl_append]
  rfl

/-- The sample that is noted is the one the estimator holds at that moment. -/
lemma Estimator.Sampled.eq_sample {notes : List RttNote} (h : Estimator.Sampled {} notes) {i : ℕ}
    {p : PackageKey} {time : Timeval} {x : ℚ} (hi : notes[i]? = some (.sent p time x)) :
    x = (estimatorAt notes i).sample := by
  obtain ⟨hlt, hget⟩ := List.getElem?_eq_some_iff.mp hi
  have hsplit : notes = notes.take i ++ .sent p time x :: notes.drop (i + 1) := by
    rw [← hget, ← List.drop_eq_getElem_cons hlt, List.take_append_drop]
  rw [hsplit, Estimator.sampled_append] at h
  exact h.2.1

/-- A transmission leaves the sample as it is. -/
lemma Estimator.sample_sent (e : Estimator) (now : Timeval) : (e.sent now).sample = e.sample :=
  if_neg (not_le.mpr e.sample_pos)

/-- After an ack that is read later than `SendTime` the sample is the difference. -/
lemma Estimator.sample_acked {e : Estimator} {now : Timeval}
    (h : e.sendTime.seconds < now.seconds) :
    (e.acked now).sample = now.seconds - e.sendTime.seconds := by
  have habs : |e.sendTime.seconds - now.seconds| = now.seconds - e.sendTime.seconds := by
    rw [abs_sub_comm, abs_of_pos (sub_pos.mpr h)]
  have hpos : ¬ now.seconds - e.sendTime.seconds ≤ 0 := not_le.mpr (sub_pos.mpr h)
  rw [Estimator.sample, Estimator.acked, habs, if_neg hpos]

/-- A fresh sample is a round-trip time. -/
lemma Fresh.roundTrip {notes : List RttNote} (hsampled : Estimator.Sampled {} notes) {i : ℕ}
    {x : ℚ} (hx : IsSample notes i x) (h : Fresh notes i) : RoundTrip notes (i - 1) x := by
  obtain ⟨⟨q, time, hi⟩, -⟩ := hx
  obtain ⟨j, p, sendTime, ackTime, rfl, hfirst, hlast, hsend, hlt⟩ := h
  refine ⟨p, sendTime, ackTime, hfirst, hlast, ?_⟩
  calc x = (estimatorAt notes (j + 1)).sample := hsampled.eq_sample hi
    _ = ((estimatorAt notes j).acked ackTime).sample := by
        rw [estimatorAt_succ hfirst.acked]
        rfl
    _ = ackTime.seconds - (estimatorAt notes j).sendTime.seconds :=
        Estimator.sample_acked (by rw [hsend]; exact hlt)
    _ = ackTime.seconds - sendTime.seconds := by rw [hsend]

/-- **Samples that are used fresh are round-trip times.** In every run in which each
transmission after the first ack directly follows the first valid ack for the package that was
transmitted last before that ack, every sample is the time from the latest transmission of a
package to the first valid ack for it, and none is used twice. -/
theorem attributed_of_fresh {es : List Event} {t : Tcpd} {os : List Out} (h : Tcpd.Run es t os)
    (hfresh : ∀ i x, IsSample (notesOf es) i x → Fresh (notesOf es) i) :
    Attributed (notesOf es) := by
  have hsampled := (estimator_of_run h).2
  refine ⟨fun i => i - 1, ?_, fun i x hx => ?_⟩
  · rintro i ⟨x, hx⟩ k ⟨y, hy⟩ heq
    obtain ⟨j, -, -, -, rfl, -⟩ := hfresh i x hx
    obtain ⟨l, -, -, -, rfl, -⟩ := hfresh k y hy
    simpa using heq
  · have hi := hfresh i x hx
    refine ⟨?_, hi.roundTrip hsampled hx⟩
    obtain ⟨j, -, -, -, rfl, -⟩ := hi
    exact Nat.lt_succ_self j

/-- Before the first ack nothing has been measured: every transmission uses the start value. -/
theorem startValue_of_run {es : List Event} {t : Tcpd} {os : List Out} (h : Tcpd.Run es t os)
    {i : ℕ} {p : PackageKey} {time : Timeval} {x : ℚ}
    (hi : (notesOf es)[i]? = some (.sent p time x)) (hnot : ¬ IsSample (notesOf es) i x) :
    x = 1 / 100 := by
  rw [(estimator_of_run h).2.eq_sample hi]
  have hunacked : ∀ n ∈ (notesOf es).take i, ∀ q valid time', n ≠ .acked q valid time' := by
    rintro n hn q valid time' rfl
    obtain ⟨j, hj, hget⟩ := List.mem_take_iff_getElem.mp hn
    refine hnot ⟨⟨p, time, hi⟩, j, by omega, q, valid, time', ?_⟩
    rw [List.getElem?_eq_getElem (by omega), hget]
  rw [estimatorAt]
  generalize (notesOf es).take i = l at hunacked
  induction l using List.reverseRecOn with
  | nil => rfl
  | append_singleton l n ih =>
    specialize ih fun n hn => hunacked n (List.mem_append_left _ hn)
    cases n with
    | sent q time' y =>
      rw [List.foldl_append]
      exact (Estimator.sample_sent _ _).trans ih
    | acked q valid time' => exact absurd rfl (hunacked _ (by simp) q valid time')

/-! ## Two runs -/

section TwoRuns

variable {t : Tcpd} {fd : Int32} {s : UInt32} {sent pending : List ℕ} {next : ℕ}

/-- The notes of a pass that transmits the packages `l` of session `s` on socket `fd`. -/
def passNotes (fd : Int32) (s : UInt32) (clock : ℕ → Timeval) :
    Estimator × ℕ → List ℕ → List RttNote
  | _, [] => []
  | e, n :: l =>
    .sent ⟨fd, s, UInt32.ofNat n⟩ (clock e.2) e.1.sample ::
      passNotes fd s clock (e.1.sent (clock e.2), e.2 + 1) l

lemma sendNotes_map (clock : ℕ → Timeval) (e : Estimator × ℕ) {l : List TrollMessageStruct}
    (h : ∀ m ∈ l, m.session = s) :
    sendNotes clock e (l.map fun m => (fd, m))
      = passNotes fd s clock e (l.map (·.seqNum.toNat)) := by
  induction l generalizing e with
  | nil => rfl
  | cons m l ih =>
    obtain ⟨hm, hl⟩ := List.forall_mem_cons.mp h
    simp only [List.map_cons, sendNotes, passNotes, ih _ hl, hm, UInt32.ofNat_toNat]

lemma transmissionsOf_sentOuts (fd : Int32) (sent : List (TrollMessageStruct × ℚ)) :
    transmissionsOf (sentOuts fd sent) = (sent.map Prod.fst).map fun m => (fd, m) := by
  induction sent with
  | nil => rfl
  | cons x sent ih =>
    have hcons : sentOuts fd (x :: sent)
        = [.frame fd x.1, .timer (sendTimerRequest x.1.session x.1.seqNum x.2)]
          ++ sentOuts fd sent := rfl
    rw [hcons, transmissionsOf_append, ih]
    rfl

/-- The frames of a pass over a single connection. -/
lemma transmissionsOf_sendBack (hok : t.ClientOk) (h : t.Shows fd s sent pending next)
    {clock : ℕ → Timeval} {t' : Tcpd} {os : List Out}
    (hpass : handleSendAllBack t clock = .ok (t', os)) :
    ∃ l : List TrollMessageStruct, transmissionsOf os = l.map (fun m => (fd, m)) ∧
      (∀ m ∈ l, m.session = s) ∧ l.map (·.seqNum.toNat) = pending.filter (admitted sent) := by
  obtain ⟨c, hc, hs, -, hsent, hpending⟩ := h.conn
  obtain ⟨e, htable, -⟩ := handleSendAllBack_ok hpass
  obtain ⟨x, hby, -, rfl, -, os₁, os₂, rfl, hothers⟩ := HashTable.pass_lookup htable hc
  have hnone : os₁ ++ os₂ = [] := by
    refine List.eq_nil_iff_forall_not_mem.mpr fun o ho => ?_
    obtain ⟨y, -, hne, hold, -⟩ := hothers o ho
    have hconn := h.only y.key hne
    rw [Tcpd.conn, hold] at hconn
    cases hconn
  obtain ⟨rfl, rfl⟩ := List.append_eq_nil_iff.mp hnone
  obtain ⟨-, out, hfst, houts⟩ := sendBack_visit hby
  have hconn := hok.conns fd x.old hc
  refine ⟨x.old.sendable, ?_, fun m hm => ?_, ?_⟩
  · rw [List.nil_append, List.append_nil, houts, transmissionsOf_sentOuts, hfst, hconn.socketFD]
  · have hheld : m ∈ x.old.held := List.mem_append_right _ (List.mem_of_mem_filter hm)
    rw [hconn.session m hheld, hs]
  · rw [map_seqNum_sendable, hsent, hpending]

/-- The events lead to a state with these numbers on socket 4, and these are their notes. -/
def Writes (es : List Event) (notes : List RttNote) (sent pending : List ℕ) (next : ℕ) : Prop :=
  ∃ t os, Tcpd.Run es t os ∧ t.Shows 4 7 sent pending next ∧ notesOf es = notes

variable {es : List Event} {notes : List RttNote}

lemma writes_connectFour : Writes [connectFour] [] [] [] 0 := by
  obtain ⟨t, os, hrun, hshows⟩ := leadsTo_connectFour
  exact ⟨t, os, hrun, hshows, rfl⟩

lemma Writes.send (h : Writes es notes sent pending next)
    (hroom : sent.length + pending.length < MAX_BUFFER_PACKAGES) (hnext : next + 1 < 2 ^ 32) :
    Writes (es ++ [sendFour]) notes sent (pending ++ [next]) (next + 1) := by
  obtain ⟨t, os, hrun, hshows, hnotes⟩ := h
  obtain ⟨t', os', hstep, hshows'⟩ := exists_shows_send hshows hroom hnext
    (show (0 : UInt64).toNat ≤ BUF_LEN by decide) default (.zero BUF_LEN) calmSys
  refine ⟨t', _, hrun.snoc hstep, hshows', ?_⟩
  rw [notesOf_snoc (e := sendFour) hrun hstep, hnotes]
  exact List.append_nil notes

lemma Writes.pass (h : Writes es notes sent pending next) (clock : ℕ → Timeval) :
    Writes (es ++ [.sendBack clock])
      (notes ++ passNotes 4 7 clock (notes.foldl Estimator.note {}, 0)
        (pending.filter (admitted sent)))
      (sent ++ pending.filter (admitted sent)) (pending.filter fun n => !admitted sent n) next := by
  obtain ⟨t, os, hrun, hshows, hnotes⟩ := h
  obtain ⟨t', os', hstep, hshows'⟩ := exists_shows_sendBack hshows clock
  refine ⟨t', _, hrun.snoc hstep, hshows', ?_⟩
  have hpass : handleSendAllBack t clock = .ok (t', os') := hstep
  obtain ⟨l, htrans, hsession, hnumbers⟩ :=
    transmissionsOf_sendBack (clientOk_of_run hrun) hshows hpass
  have hnew : t.notes (.sendBack clock) t'
      = passNotes 4 7 clock (t.estimator, 0) (pending.filter (admitted sent)) := by
    simp only [Tcpd.notes, hpass]
    rw [htrans, sendNotes_map clock _ hsession, hnumbers]
  rw [notesOf_snoc hrun hstep, hnew, (estimator_of_run hrun).1, hnotes]

/-- The intact ack of package `n` of session 7, read at `now`. -/
def ackSevenAt (n : UInt32) (now : Timeval) : Event :=
  .ack 4 (TrollAckStruct.sealed ⟨default, 0, 7, n⟩) now

lemma Writes.ack (h : Writes es notes sent pending next) {n : UInt32} (hn : n.toNat ∈ sent)
    (now : Timeval) :
    Writes (es ++ [ackSevenAt n now]) (notes ++ [.acked ⟨4, 7, n⟩ true now]) (sent.erase n.toNat)
      pending next := by
  obtain ⟨t, os, hrun, hshows, hnotes⟩ := h
  have hvalid := TrollAckStruct.valid_sealed ⟨default, 0, 7, n⟩
  obtain ⟨t', os', hstep, hshows'⟩ :=
    exists_shows_ack (clientOk_of_run hrun) hshows hvalid rfl hn now
  refine ⟨t', _, hrun.snoc hstep, hshows', ?_⟩
  rw [notesOf_snoc (e := ackSevenAt n now) hrun hstep, hnotes]
  show notes ++ [.acked ⟨4, 7, n⟩ (decide (TrollAckStruct.sealed ⟨default, 0, 7, n⟩).Valid) now] = _
  rw [decide_eq_true hvalid]

/-- The clock shows `n` seconds. -/
def atSecond (n : ℕ) : Timeval := ⟨n, 0⟩

/-- Package 0 is transmitted, acknowledged a second later, and then package 1 is. -/
def oneByOneRun : List Event :=
  [connectFour, sendFour, .sendBack fun _ => atSecond 1, ackSevenAt 0 (atSecond 2), sendFour,
    .sendBack fun _ => atSecond 3]

lemma notesOf_oneByOneRun :
    ∃ t os, Tcpd.Run oneByOneRun t os ∧ notesOf oneByOneRun =
      [.sent ⟨4, 7, 0⟩ (atSecond 1) (1 / 100), .acked ⟨4, 7, 0⟩ true (atSecond 2),
        .sent ⟨4, 7, 1⟩ (atSecond 3) 1] := by
  have hsent : Writes [connectFour, sendFour, .sendBack fun _ => atSecond 1]
      [.sent ⟨4, 7, 0⟩ (atSecond 1) (1 / 100)] [0] [] 1 :=
    (writes_connectFour.send (by decide) (by decide)).pass _
  have hacked := hsent.ack (n := 0) (by decide) (atSecond 2)
  obtain ⟨t, os, hrun, -, hnotes⟩ :=
    (hacked.send (by decide) (by decide)).pass fun _ => atSecond 3
  have hsample : ((Estimator.sent {} (atSecond 1)).acked (atSecond 2)).sample = 1 := by
    rw [Estimator.sample_acked]
    · norm_num [Estimator.sent, atSecond, Timeval.seconds]
    · norm_num [Estimator.sent, atSecond, Timeval.seconds]
  refine ⟨t, os, hrun, hnotes.trans ?_⟩
  show [_, _, RttNote.sent ⟨4, 7, 1⟩ (atSecond 3)
    ((Estimator.sent {} (atSecond 1)).acked (atSecond 2)).sample] = _
  rw [hsample]

/-- The packages 0 and 1 are transmitted a second apart, the ack of package 0 comes, and then
package 2 is transmitted. -/
def inFlightRun : List Event :=
  [connectFour, sendFour, sendFour, .sendBack fun k => atSecond (k + 1),
    ackSevenAt 0 (atSecond 4), sendFour, .sendBack fun _ => atSecond 5]

lemma notesOf_inFlightRun :
    ∃ t os, Tcpd.Run inFlightRun t os ∧ notesOf inFlightRun =
      [.sent ⟨4, 7, 0⟩ (atSecond 1) (1 / 100), .sent ⟨4, 7, 1⟩ (atSecond 2) (1 / 100),
        .acked ⟨4, 7, 0⟩ true (atSecond 4), .sent ⟨4, 7, 2⟩ (atSecond 5) 2] := by
  have hqueued : Writes [connectFour, sendFour, sendFour] [] [] [0, 1] 2 :=
    (writes_connectFour.send (by decide) (by decide)).send (by decide) (by decide)
  have hsent : Writes [connectFour, sendFour, sendFour, .sendBack fun k => atSecond (k + 1)]
      [.sent ⟨4, 7, 0⟩ (atSecond 1) (1 / 100), .sent ⟨4, 7, 1⟩ (atSecond 2)
        (Estimator.sent {} (atSecond 1)).sample] [0, 1] [] 2 :=
    hqueued.pass _
  rw [Estimator.sample_sent] at hsent
  have hacked := hsent.ack (n := 0) (by decide) (atSecond 4)
  obtain ⟨t, os, hrun, -, hnotes⟩ :=
    (hacked.send (by decide) (by decide)).pass fun _ => atSecond 5
  have hsample : (((Estimator.sent {} (atSecond 1)).sent (atSecond 2)).acked
      (atSecond 4)).sample = 2 := by
    rw [Estimator.sample_acked]
    · norm_num [Estimator.sent, atSecond, Timeval.seconds]
    · norm_num [Estimator.sent, atSecond, Timeval.seconds]
  refine ⟨t, os, hrun, hnotes.trans ?_⟩
  show [_, _, _, RttNote.sent ⟨4, 7, 2⟩ (atSecond 5)
    (((Estimator.sent {} (atSecond 1)).sent (atSecond 2)).acked (atSecond 4)).sample] = _
  rw [hsample]
  rfl

/-- In that run the time between the latest transmission of package 0 and its ack is three
seconds; the sample is two. -/
lemma not_attributed_inFlightRun :
    ∃ t os, Tcpd.Run inFlightRun t os ∧ ¬ Attributed (notesOf inFlightRun) := by
  obtain ⟨t, os, hrun, hnotes⟩ := notesOf_inFlightRun
  refine ⟨t, os, hrun, ?_⟩
  rw [hnotes]
  rintro ⟨f, -, hright⟩
  obtain ⟨hlt, p, sendTime, ackTime, hfirst, hlast, hx⟩ :=
    hright 3 2 ⟨⟨⟨4, 7, 2⟩, atSecond 5, rfl⟩, 2, by omega, ⟨4, 7, 0⟩, true, atSecond 4, rfl⟩
  have hacked := hfirst.acked
  generalize f 3 = j at *
  interval_cases j
  · simp at hacked
  · simp at hacked
  · simp only [List.getElem?_cons_succ, List.getElem?_cons_zero, Option.some.injEq,
      RttNote.acked.injEq] at hacked
    obtain ⟨rfl, -, rfl⟩ := hacked
    have hone : some (atSecond 1) = some sendTime := hlast
    rw [← Option.some.inj hone] at hx
    norm_num [atSecond, Timeval.seconds] at hx

theorem not_always_attributed :
    ¬ ∀ (es : List Event) (t : Tcpd) (os : List Out), Tcpd.Run es t os →
      Attributed (notesOf es) := by
  intro hall
  obtain ⟨t, os, hrun, hnot⟩ := not_attributed_inFlightRun
  exact hnot (hall _ t os hrun)

/-- In `oneByOneRun` the only sample is fresh. -/
lemma fresh_oneByOneRun (i : ℕ) (x : ℚ) (hx : IsSample (notesOf oneByOneRun) i x) :
    Fresh (notesOf oneByOneRun) i := by
  obtain ⟨t, os, -, hnotes⟩ := notesOf_oneByOneRun
  rw [hnotes] at hx ⊢
  obtain ⟨⟨p, time, hi⟩, j, hj, q, valid, time', hack⟩ := hx
  obtain ⟨hlen, -⟩ := List.getElem?_eq_some_iff.mp hi
  simp only [List.length_cons, List.length_nil] at hlen
  interval_cases i
  · omega
  · simp at hi
  · refine ⟨1, ⟨4, 7, 0⟩, atSecond 1, atSecond 2, rfl, ⟨rfl, fun k hk time'' => ?_⟩, rfl, rfl, ?_⟩
    · interval_cases k
      simp
    · norm_num [atSecond, Timeval.seconds]

/-- The sample of `oneByOneRun` is a round-trip time. -/
theorem attributed_of_fresh_oneByOne :
    ∃ t os, Tcpd.Run oneByOneRun t os ∧ Attributed (notesOf oneByOneRun) := by
  obtain ⟨t, os, hrun, -⟩ := notesOf_oneByOneRun
  exact ⟨t, os, hrun, attributed_of_fresh hrun fresh_oneByOneRun⟩

end TwoRuns

end NetworkProgramming
