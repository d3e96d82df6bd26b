import NetworkProgramming.Proj1.Recent

/-!
# Acks move the window

An ack for an outstanding packet marks it, and the window moves past the packets marked
without a gap. The loop that looks for the packet goes from `last_ack + 1` to `last_send + 1`,
and in a full window these are the same slot: it finds nothing, so from then on no ack has an
effect and nothing is sent (`stuck_of_full`). `ack_progress_iff` says that this is the only case
in which an ack is not counted.
-/

namespace NetworkProgramming.Proj1

open RingBuffer

namespace MyWindow

variable {w : MyWindow}

/-- What an ack for the outstanding packet `k` is to do: mark this packet, and move past the
packets marked before the first one that is not. -/
def acknowledged (w : MyWindow) (k : ℕ) : MyWindow := (w.markAt (some k)).advanceAcked

lemma ackedPrefix_eq_zero (hwaits : w.marks.head? ≠ some 1) : w.ackedPrefix = 0 := by
  unfold ackedPrefix
  cases hm : w.marks with
  | nil => rfl
  | cons x l =>
    rw [hm] at hwaits
    have hne : ¬ x = 1 := fun h => hwaits (by rw [h]; rfl)
    rw [List.takeWhile_cons, if_neg (by simpa using hne)]
    rfl

/-- Nothing moves while the oldest packet has no mark. -/
lemma advanceAcked_of_waits (hwaits : w.marks.head? ≠ some 1) : w.advanceAcked = w := by
  unfold advanceAcked
  rw [ackedPrefix_eq_zero hwaits, slotAfter_zero, Nat.cast_zero, add_zero]

/-- In a full window an ack changes nothing. -/
theorem receiveAck_of_full (hw : w.Ok) (hwaits : w.marks.head? ≠ some 1) (hfull : w.full = true)
    (head : TrollHeader) : w.receiveAck head = w := by
  rw [receiveAck_eq hw, found, if_pos hfull]
  exact advanceAcked_of_waits hwaits

/-- Where the numbers are different the loop finds the packet with the number of the ack. -/
lemma found_eq_some (hnodup : (w.outstanding.map (·.tcpHeader.seq)).Nodup)
    (hroom : w.full = false) {k : ℕ} {p : TrollHeader} (hp : w.outstanding[k]? = some p) :
    w.found p.tcpHeader.seq = some k := by
  obtain ⟨hk, hpk⟩ := List.getElem?_eq_some_iff.mp hp
  unfold found
  rw [hroom, if_neg (by decide), List.findIdx?_eq_some_iff_getElem]
  refine ⟨hk, decide_eq_true (by rw [hpk]), fun j hj heq => ?_⟩
  have hseq := of_decide_eq_true heq
  rw [List.nodup_iff_pairwise_ne, List.pairwise_iff_getElem] at hnodup
  have hne := hnodup j k (by rw [List.length_map]; omega) (by rwa [List.length_map]) hj
  rw [List.getElem_map, List.getElem_map, hpk] at hne
  exact hne hseq.symm

lemma getElem?_marks {k : ℕ} (hk : k < w.inFlight) :
    w.marks[k]? = some (w.ackBitmap (slotAfter (w.lastAck + 1) k)) := by
  rw [List.getElem?_eq_getElem (by rwa [length_marks])]
  exact congrArg some (getElem_slots _ _ _)

/-- An ack for an outstanding packet is counted when the window is not full, and in a full window
only when the packet has its mark. -/
lemma receiveAck_eq_acknowledged_iff (hw : w.Ok) (hwaits : w.marks.head? ≠ some 1)
    (hnodup : (w.outstanding.map (·.tcpHeader.seq)).Nodup) {head p : TrollHeader} {k : ℕ}
    (hp : w.outstanding[k]? = some p) (hseq : p.tcpHeader.seq = head.tcpHeader.seq) :
    w.receiveAck head = w.acknowledged k ↔ w.numEmpty ≠ 0 ∨ w.marks[k]? = some 1 := by
  have hk : k < w.inFlight := by
    rw [← length_outstanding]
    exact (List.getElem?_eq_some_iff.mp hp).1
  by_cases hfull : w.full = true
  · rw [receiveAck_of_full hw hwaits hfull]
    have hzero : w.numEmpty = 0 := by simpa [full] using hfull
    constructor
    · intro heq
      right
      have hbit := congrArg (fun v : MyWindow => v.ackBitmap (slotAfter (w.lastAck + 1) k)) heq
      simp only [acknowledged, advanceAcked, markAt, Function.update_self] at hbit
      rw [getElem?_marks hk, hbit]
    · intro h
      have hmark := h.resolve_left (fun hne => hne hzero)
      rw [getElem?_marks hk, Option.some.injEq] at hmark
      have hsame : w.markAt (some k) = w := by
        unfold markAt
        dsimp only
        rw [← hmark, Function.update_eq_self]
      rw [acknowledged, hsame, advanceAcked_of_waits hwaits]
  · rw [Bool.not_eq_true] at hfull
    have hne : w.numEmpty ≠ 0 := by simpa [full] using hfull
    rw [receiveAck_eq hw, ← hseq, found_eq_some hnodup hfull hp]
    exact iff_of_true rfl (Or.inl hne)

/-- A mark stays. -/
lemma getElem?_marks_markAt (hw : w.Ok) (o : Option ℕ) (ho : ∀ j ∈ o, j < w.inFlight) {k : ℕ}
    (hk : k < w.inFlight) (h : w.marks[k]? = some 1 ∨ o = some k) :
    (w.markAt o).marks[k]? = some 1 := by
  cases o with
  | none => exact h.resolve_right (by simp)
  | some j =>
    rw [marks_markAt hw (ho j rfl), List.getElem?_set]
    by_cases hjk : j = k
    · rw [if_pos hjk, if_pos (by rw [length_marks]; omega)]
    · rw [if_neg hjk]
      exact h.resolve_right fun heq => hjk (Option.some.inj heq)

lemma lt_of_found {seq : UInt32} : ∀ j ∈ w.found seq, j < w.inFlight := by
  intro j hj
  unfold found at hj
  split at hj
  · cases hj
  · obtain ⟨hlt, -, -⟩ := List.findIdx?_eq_some_iff_getElem.mp hj
    rwa [length_outstanding] at hlt

end MyWindow

/-! ## Runs -/

/-- An ack for an outstanding packet is received while the window is not full, or the packet has
its mark already. -/
def Event.Counts (c : Client) : Event → Prop
  | .send _ _ _ => True
  | .ack head => ∀ (k : ℕ) (p : TrollHeader), c.windowClient.outstanding[k]? = some p →
      p.tcpHeader.seq = head.tcpHeader.seq →
      c.windowClient.numEmpty ≠ 0 ∨ c.windowClient.marks[k]? = some 1

section Run

variable {w : MyWindow} {es : List Event} {c : Client} {sent : List TrollHeader}

/-- An acknowledged packet was sent. -/
lemma AckedWhileOutstanding.lt {i : ℕ} (h : AckedWhileOutstanding w es i)
    (hrun : Client.machine.exec (.start w) es = .ok (c, sent)) : i < sent.length := by
  obtain ⟨pre, head, post, u, sent', k, p, rfl, hpre, hi, hp, -⟩ := h
  obtain ⟨u', o, o', hpre', -, rfl⟩ := Client.machine.exec_append.mp hrun
  rw [hpre] at hpre'
  obtain ⟨rfl, rfl⟩ : u = u' ∧ sent' = o := by simpa using hpre'
  have hk := (List.getElem?_eq_some_iff.mp hp).1
  rw [MyWindow.length_outstanding] at hk
  have := (Client.holds_of_run hpre).inFlight_le
  rw [List.length_append]
  omega

/-- The last event acknowledges a packet, or one before has. -/
lemma AckedWhileOutstanding.of_snoc {e : Event} {i : ℕ}
    (h : AckedWhileOutstanding w (es ++ [e]) i)
    (hrun : Client.machine.exec (.start w) es = .ok (c, sent)) :
    AckedWhileOutstanding w es i ∨ ∃ head k p, e = .ack head ∧
      i + c.windowClient.inFlight = sent.length + k ∧
      c.windowClient.outstanding[k]? = some p ∧ p.tcpHeader.seq = head.tcpHeader.seq := by
  obtain ⟨pre, head, post, u, sent', k, p, heq, hpre, hi, hp, hseq⟩ := h
  rcases List.eq_nil_or_concat post with rfl | ⟨post', e', rfl⟩
  · right
    obtain ⟨rfl, he⟩ := List.append_inj' heq rfl
    rw [hrun] at hpre
    cases hpre
    exact ⟨head, k, p, List.singleton_inj.mp he, hi, hp, hseq⟩
  · left
    rw [List.concat_eq_append, ← List.cons_append, ← List.append_assoc] at heq
    obtain ⟨rfl, -⟩ := List.append_inj' heq rfl
    exact ⟨pre, head, post', u, sent', k, p, rfl, hpre, hi, hp, hseq⟩

/-- While every ack for an outstanding packet counts, the acknowledged packets that are still
in the window have marks. -/
lemma marked_of_acked (hrun : Client.machine.exec (.start w) es = .ok (c, sent))
    (hcounts : Client.machine.Along (.start w) (fun c e => e.Counts c) es) {i k : ℕ}
    (hi : i + c.windowClient.inFlight = sent.length + k)
    (hacked : AckedWhileOutstanding w es i) : c.windowClient.marks[k]? = some 1 := by
  refine Client.machine.exec_induction (motive := fun es c sent =>
    Client.machine.Along (.start w) (fun c e => e.Counts c) es → ∀ i k,
      i + c.windowClient.inFlight = sent.length + k → AckedWhileOutstanding w es i →
      c.windowClient.marks[k]? = some 1) ?_ ?_ hrun hcounts i k hi hacked
  · intro _ i k _ hacked
    have hlt := hacked.lt (Client.machine.exec_nil _)
    simp at hlt
  · intro es u o e t o' hes ih hstep hall i k hi hacked
    obtain ⟨hbefore, hlast⟩ := (Client.machine.along_snoc hes).mp hall
    have hu := Client.holds_of_run hes
    cases e with
    | send head sendTo buffer =>
      simp only [Client.machine, Client.step] at hstep
      split at hstep
      · cases hstep
      · rename_i hroom
        rw [Bool.not_eq_true] at hroom
        cases hstep
        -- the packet just sent is not acknowledged, so `i` is an earlier one
        have hold := (hacked.of_snoc hes).resolve_right (by simp)
        have hin := MyWindow.inFlight_savePacket hu.ok (packet head sendTo u.seq buffer)
        have hlt := hold.lt hes
        dsimp only at hi ⊢
        rw [hin, List.length_append, List.length_singleton] at hi
        have hmark := ih hbefore i k (by omega) hold
        have hk := (List.getElem?_eq_some_iff.mp hmark).1
        rw [(MyWindow.outstanding_savePacket hu.ok hroom _).2, List.getElem?_append_left hk]
        exact hmark
    | ack head =>
      cases hstep
      rw [List.append_nil] at hi
      dsimp only at hi ⊢
      have hstep : Client.machine.step u (.ack head)
          = .ok ({ u with windowClient := u.windowClient.receiveAck head }, []) := rfl
      have hlt := hacked.lt (Client.machine.exec_snoc.mpr ⟨_, _, _, hes, hstep, rfl⟩)
      rw [List.append_nil] at hlt
      have hok := MyWindow.ok_markAt hu.ok (u.windowClient.found head.tcpHeader.seq)
      have hin := MyWindow.inFlight_advanceAcked hok
      have hd := MyWindow.ackedPrefix_le
        (u.windowClient.markAt (u.windowClient.found head.tcpHeader.seq))
      rw [MyWindow.inFlight_markAt] at hin hd
      rw [MyWindow.receiveAck_eq hu.ok] at hi ⊢
      rw [hin] at hi
      -- the window has moved on by the marked packets at its start
      rw [(MyWindow.outstanding_advanceAcked hok).2, List.getElem?_drop]
      refine MyWindow.getElem?_marks_markAt hu.ok _ MyWindow.lt_of_found (by omega) ?_
      rcases hacked.of_snoc hes with hold | ⟨head', k', p, he, hi', hp, hseq⟩
      · exact Or.inl (ih hbefore i _ (by omega) hold)
      · obtain rfl := Event.ack.inj he
        obtain rfl : k' = (u.windowClient.markAt
            (u.windowClient.found head.tcpHeader.seq)).ackedPrefix + k := by omega
        rcases hlast _ p hp hseq with hroom | hmark
        · right
          have hfound :=
            MyWindow.found_eq_some hu.nodup (by simpa [MyWindow.full] using hroom) hp
          rwa [hseq] at hfound
        · exact Or.inl hmark

/-- A full window stays as it is whatever happens: acks have no effect and nothing is sent. -/
theorem stuck_of_full (hrun : Client.machine.exec (.start w) es = .ok (c, sent))
    (hfull : c.windowClient.full = true) {es' : List Event} {c' : Client}
    {sent' : List TrollHeader} (hrun' : Client.machine.exec c es' = .ok (c', sent')) :
    c' = c ∧ sent' = [] := by
  have h := Client.holds_of_run hrun
  refine Client.machine.exec_induction (motive := fun _ c' sent' => c' = c ∧ sent' = [])
    ⟨rfl, rfl⟩ ?_ hrun'
  intro es u o e t o' _ ih hstep
  obtain ⟨rfl, rfl⟩ := ih
  cases e with
  | send head sendTo buffer =>
    simp only [Client.machine, Client.step, hfull, if_true] at hstep
    cases hstep
  | ack head =>
    cases hstep
    rw [MyWindow.receiveAck_of_full h.ok h.waits hfull]
    exact ⟨rfl, rfl⟩

end Run

/-- **When acks move the window.** In every state that is reached, an ack with the number of an
outstanding packet marks this packet and moves the window past the packets marked without a gap if
and only if the window is not full or the packet has its mark already. And in a run in which every
such ack is received so, the window is empty again once the outstanding packets are
acknowledged. -/
theorem ack_progress_iff (w : MyWindow) (es : List Event) (c : Client) (sent : List TrollHeader)
    (hrun : Client.machine.exec (.start w) es = .ok (c, sent)) :
    (∀ (head p : TrollHeader) (k : ℕ), c.windowClient.outstanding[k]? = some p →
      p.tcpHeader.seq = head.tcpHeader.seq →
      (c.windowClient.receiveAck head = c.windowClient.acknowledged k ↔
        c.windowClient.numEmpty ≠ 0 ∨ c.windowClient.marks[k]? = some 1)) ∧
    (Client.machine.Along (.start w) (fun c e => e.Counts c) es →
      (∀ i, i < sent.length → sent.length ≤ i + c.windowClient.outstanding.length →
        AckedWhileOutstanding w es i) →
      c.windowClient.numEmpty = WINDOW_SIZE) := by
  have h := Client.holds_of_run hrun
  constructor
  · intro head p k hp hseq
    exact MyWindow.receiveAck_eq_acknowledged_iff h.ok h.waits h.nodup hp hseq
  · intro hcounts hacked
    have hle := h.inFlight_le
    have hin := h.ok.inFlight_eq
    rw [MyWindow.length_outstanding] at hacked
    by_contra hne
    have hsome : 0 < c.windowClient.inFlight := by
      have := h.ok.le
      omega
    -- the oldest outstanding packet would have a mark
    have hmark := marked_of_acked hrun hcounts (k := 0) (Nat.sub_add_cancel hle)
      (hacked _ (by omega) (by omega))
    apply h.waits
    rw [List.head?_eq_getElem?]
    exact hmark

/-- The packets that are left are acknowledged, the newer one first. -/
def ackAll : List Event := ackTwo ++ [.ack (ackOf 4), .ack (ackOf 3)]

/-- The ack of the newer packet is counted, and in the end the window is empty. -/
theorem ack_progress_iff_ackAll :
    afterAckTwo.windowClient.receiveAck (ackOf 4) = afterAckTwo.windowClient.acknowledged 1 ∧
      ∃ c sent, Client.machine.exec (.start blankWindow) ackAll = .ok (c, sent) ∧
        c.windowClient.numEmpty = WINDOW_SIZE := by
  obtain ⟨sent, hrun⟩ : ∃ sent, Client.machine.exec (.start blankWindow) ackTwo
      = .ok (afterAckTwo, sent) := Client.machine.exec_play _ _ (by decide +kernel)
  obtain ⟨sent', hall⟩ := Client.machine.exec_play (.start blankWindow) ackAll
    (by decide +kernel)
  have hroom : afterAckTwo.windowClient.numEmpty ≠ 0 := by decide +kernel
  have hseq : afterAckTwo.windowClient.outstanding[1]?.map (·.tcpHeader.seq) = some 4 := by
    decide +kernel
  obtain ⟨p, hp, hfour⟩ := Option.map_eq_some_iff.mp hseq
  refine ⟨((ack_progress_iff _ _ _ _ hrun).1 (ackOf 4) p 1 hp hfour).mpr (Or.inl hroom), _, sent',
    hall, (ack_progress_iff _ _ _ _ hall).2 ?_ fun i hi hout => ?_⟩
  · refine Client.machine.along_of_check (q := fun c _ => decide (c.windowClient.numEmpty ≠ 0))
      (fun c e hroom => ?_) (by decide +kernel)
    cases e with
    | send _ _ _ => trivial
    | ack head => exact fun _ _ _ _ => Or.inl (of_decide_eq_true hroom)
  · have hnone : (Client.machine.play (.start blankWindow) ackAll).windowClient.outstanding.length
        = 0 := by decide +kernel
    omega

/-- Up to `WINDOW_SIZE` packets fill the window. -/
lemma exists_filled {n : ℕ} (hn : n ≤ WINDOW_SIZE) :
    ∃ c sent, Client.machine.exec (.start blankWindow)
        (List.replicate n (.send blankHead default oneByte)) = .ok (c, sent) ∧
      c.windowClient.inFlight = n ∧ c.windowClient.marks = List.replicate n 0 := by
  induction n with
  | zero => exact ⟨_, _, rfl, rfl, rfl⟩
  | succ n ih =>
    obtain ⟨c, sent, hrun, hin, hmarks⟩ := ih (by omega)
    have hok := (Client.holds_of_run hrun).ok
    have hroom : c.windowClient.full = false := by
      rw [Bool.eq_false_iff, Ne, hok.full_iff]
      omega
    refine ⟨⟨c.windowClient.savePacket (packet blankHead default c.seq oneByte),
      (c.seq + oneByte.bytes.length) % 65535⟩,
      sent ++ [packet blankHead default c.seq oneByte], ?_,
      (MyWindow.inFlight_savePacket hok _).trans (congrArg (· + 1) hin), ?_⟩
    · rw [List.replicate_succ', Client.machine.exec_snoc]
      refine ⟨c, sent, [packet blankHead default c.seq oneByte], hrun, ?_, rfl⟩
      simp only [Client.machine, Client.step, hroom]
      rfl
    · rw [(MyWindow.outstanding_savePacket hok hroom _).2, hmarks, List.replicate_succ']

/-- When ten packets are outstanding the ack of the first one is not counted. -/
theorem not_always_progress :
    ¬ ∀ (w : MyWindow) (es : List Event) (c : Client) (sent : List TrollHeader),
      Client.machine.exec (.start w) es = .ok (c, sent) →
      ∀ (head p : TrollHeader) (k : ℕ), c.windowClient.outstanding[k]? = some p →
        p.tcpHeader.seq = head.tcpHeader.seq →
        c.windowClient.receiveAck head = c.windowClient.acknowledged k := by
  intro hall
  obtain ⟨c, sent, hrun, hin, hmarks⟩ := exists_filled (Nat.le_refl WINDOW_SIZE)
  have h := Client.holds_of_run hrun
  have hlen : 0 < c.windowClient.outstanding.length := by
    rw [MyWindow.length_outstanding, hin]
    decide
  have hp := List.getElem?_eq_getElem hlen
  have hcounted := (MyWindow.receiveAck_eq_acknowledged_iff h.ok h.waits h.nodup hp rfl).mp
    (hall _ _ _ _ hrun _ _ 0 hp rfl)
  rcases hcounted with hroom | hmark
  · have := h.ok.inFlight_eq
    rw [hin] at this
    omega
  · rw [hmarks] at hmark
    exact absurd hmark (by decide)

end NetworkProgramming.Proj1
