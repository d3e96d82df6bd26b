import NetworkProgramming.Final.ByteStream

/-!
# The copies of `handle_recv_back`

`len` is whatever the frame carries. `CopiesInside` is what the copies of one round of the
reassembly loop need to stay inside the body and the buffer, and `PassInside` says it of every
round of a pass. A pass is inside if and only if it takes up no package whose `len` is more than
`BUF_LEN` (`passInside_iff`), which no check of the daemon rules out.
-/

namespace NetworkProgramming
namespace AckedSock

/-- The round that takes up the head package `now` reads and writes inside the body of `now` and
inside `RecvBuffer`, and none of its sums and differences wraps. -/
structure CopiesInside (a : AckedSock) (now : TrollMessageStruct) : Prop where
  sum : a.recvBufferSize.toNat + now.len.toNat < 2 ^ 64
  whole : a.recvBufferSize + now.len ≤ a.receivingLength →
    now.len.toNat ≤ BUF_LEN ∧ a.recvBufferSize.toNat + now.len.toNat ≤ BUF_LEN
  piece : ¬ a.recvBufferSize + now.len ≤ a.receivingLength →
    -- `RemainSize` bytes from the front of the body to the end of what is buffered, and the rest
    -- of the body to its front
    ∃ remainSize, a.receivingLength.toNat = a.recvBufferSize.toNat + remainSize ∧
      a.recvBufferSize.toNat + remainSize ≤ BUF_LEN ∧ remainSize ≤ now.len.toNat ∧
        now.len.toNat ≤ BUF_LEN

/-- The loop takes up the package `now` in the state `a`. -/
def TakesUp (a : AckedSock) (now : TrollMessageStruct) : Prop :=
  a.recvBufferSize < a.receivingLength ∧ a.packages.head? = some now ∧ now.seqNum = a.base

/-- Every copy of a pass over the session is inside its blocks. A request of more than `BUF_LEN`
bytes ends the daemon before the first copy. -/
def PassInside (a : AckedSock) : Prop :=
  a.receivingLength.toNat ≤ BUF_LEN →
    ∀ b, fillLoop.Visits a b → ∀ now, b.TakesUp now → b.CopiesInside now

/-- The length of the last piece of a package of `len` bytes that is cut to `room` bytes. -/
def lastLen (room len : ℕ) : ℕ :=
  if _h : 0 < room ∧ room < len then lastLen room (len - room) else len
termination_by len

/-- Among the packages that a request with `room` bytes left takes up, there is one with a `len`
of more than `BUF_LEN`. -/
def oversizedFrom (base : UInt32) (room : ℕ) : List TrollMessageStruct → Bool
  | [] => false
  | m :: l =>
    if room = 0 ∨ m.seqNum ≠ base then false
    else decide (BUF_LEN < m.len.toNat)
      || oversizedFrom (base + 1) (room - lastLen room m.len.toNat) l

/-- The next pass over the session takes up a package with a `len` of more than `BUF_LEN`. -/
def Oversized (a : AckedSock) : Prop :=
  a.receivingLength.toNat ≤ BUF_LEN ∧
    oversizedFrom a.base (a.receivingLength.toNat - a.recvBufferSize.toNat) a.packages

instance (a : AckedSock) : Decidable a.Oversized := inferInstanceAs (Decidable (_ ∧ _ = true))

lemma lastLen_of_le {room len : ℕ} (h : len ≤ room) : lastLen room len = len := by
  rw [lastLen, dif_neg]
  omega

lemma lastLen_of_lt {room len : ℕ} (hroom : 0 < room) (h : room < len) :
    lastLen room len = lastLen room (len - room) := by
  rw [lastLen, dif_pos ⟨hroom, h⟩]

/-! ## One round -/

/-- A round stays inside its blocks if and only if its package is not oversized. -/
lemma copiesInside_iff_len {a : AckedSock} {now : TrollMessageStruct}
    (hrequest : a.receivingLength.toNat ≤ BUF_LEN)
    (hroom : a.recvBufferSize < a.receivingLength) :
    a.CopiesInside now ↔ now.len.toNat ≤ BUF_LEN := by
  have hroom' := UInt64.lt_iff_toNat_lt.mp hroom
  constructor
  · intro h
    by_cases hfit : a.recvBufferSize + now.len ≤ a.receivingLength
    · exact (h.whole hfit).1
    · obtain ⟨_, -, -, -, hlen⟩ := h.piece hfit
      exact hlen
  · intro hlen
    have hsum : a.recvBufferSize.toNat + now.len.toNat < 2 ^ 64 := by
      unfold BUF_LEN at hlen hrequest
      omega
    refine ⟨hsum, fun hfit => ?_, fun hfit => ?_⟩
    · have hle := UInt64.le_iff_toNat_le.mp hfit
      rw [UInt64.toNat_add, Nat.mod_eq_of_lt hsum] at hle
      exact ⟨hlen, hle.trans hrequest⟩
    · obtain ⟨-, hlt, -⟩ := remainSize_lt hroom hfit
      rw [UInt64.toNat_sub_of_le _ _ (UInt64.le_iff_toNat_le.mpr hroom'.le)] at hlt
      exact ⟨a.receivingLength.toNat - a.recvBufferSize.toNat, by omega, by omega, hlt.le, hlen⟩

/-- Where the loop leaves, it takes nothing up. -/
lemma not_takesUp_of_leave {a : AckedSock} (h : a.fillBody = .leave)
    (now : TrollMessageStruct) : ¬ a.TakesUp now := by
  rintro ⟨hroom, hhead, hbase⟩
  rcases fillBody_leave h with hfull | hstop
  · exact absurd hroom (UInt64.not_lt.mpr hfull)
  · exact hstop now hhead hbase

/-- Where the loop fails, it has taken up a package that is oversized. -/
lemma takesUp_of_fail {a : AckedSock} {x : Halt} (hrequest : a.receivingLength.toNat ≤ BUF_LEN)
    (h : a.fillBody = .fail x) :
    ∃ now l, a.packages = now :: l ∧ a.TakesUp now ∧ BUF_LEN < now.len.toNat := by
  have hround := h
  unfold fillBody at hround
  split at hround
  · rename_i hroom
    split at hround
    · cases hround
    · rename_i now l hl
      split at hround
      · cases hround
      · rename_i hbase
        refine ⟨now, l, hl, ⟨hroom, by rw [hl]; rfl, not_not.mp hbase⟩, ?_⟩
        by_contra hlen
        refine fillBody_ne_fail hrequest (fun m hm => ?_) h
        rw [hl] at hm
        obtain rfl := Option.some.inj hm
        exact not_lt.mp hlen
  · cases hround

/-! ## One pass -/

lemma oversizedFrom_of_takesUp {a : AckedSock} {now : TrollMessageStruct}
    {l : List TrollMessageStruct} (hl : a.packages = now :: l) (h : a.TakesUp now) :
    oversizedFrom a.base (a.receivingLength.toNat - a.recvBufferSize.toNat) a.packages
      = (decide (BUF_LEN < now.len.toNat) || oversizedFrom (a.base + 1)
          (a.receivingLength.toNat - a.recvBufferSize.toNat
            - lastLen (a.receivingLength.toNat - a.recvBufferSize.toNat) now.len.toNat) l) := by
  have hroom := UInt64.lt_iff_toNat_lt.mp h.1
  rw [hl, oversizedFrom, if_neg]
  rintro (hzero | hbase)
  · omega
  · exact hbase h.2.2

/-- A round leaves the packages that are still to be taken up. -/
lemma oversizedFrom_again {a a' : AckedSock} (h : a.fillBody = .again a') :
    a'.receivingLength = a.receivingLength ∧
      oversizedFrom a'.base (a'.receivingLength.toNat - a'.recvBufferSize.toNat) a'.packages
        = oversizedFrom a.base (a.receivingLength.toNat - a.recvBufferSize.toNat) a.packages := by
  obtain ⟨hroom, now, l, hl, hbase, hround⟩ := fillBody_again h
  have hroom' := UInt64.lt_iff_toNat_lt.mp hroom
  have htakes : a.TakesUp now := ⟨hroom, by rw [hl]; rfl, hbase⟩
  rw [oversizedFrom_of_takesUp hl htakes]
  rcases hround with ⟨hfit, hround⟩ | ⟨hfit, hround⟩
  · obtain ⟨hlen, hsum, -, ha'⟩ := consume_eq hround
    have hsize : (a.recvBufferSize + now.len).toNat
        = a.recvBufferSize.toNat + now.len.toNat := by
      rw [UInt64.toNat_add, Nat.mod_eq_of_lt]
      unfold BUF_LEN at hsum
      omega
    have hle := UInt64.le_iff_toNat_le.mp hfit
    rw [hsize] at hle
    rw [ha', lastLen_of_le (by omega)]
    dsimp only
    rw [hsize, decide_eq_false (not_lt.mpr hlen), Bool.false_or, Nat.sub_add_eq]
    exact ⟨rfl, rfl⟩
  · obtain ⟨hlen, -, now', hseq, hlen', hdata, ha'⟩ := split_eq hroom hfit hround
    obtain ⟨hremain, hlt, -⟩ := remainSize_lt hroom hfit
    -- the rest of the package stands where the package stood, shorter by what was taken
    have hnow' : now'.len.toNat
        = now.len.toNat - (a.receivingLength.toNat - a.recvBufferSize.toNat) := by
      have hlength := congrArg List.length hdata
      rwa [List.length_drop, TrollMessageStruct.length_data hlen,
        TrollMessageStruct.length_data hlen'] at hlength
    have htakes' : a'.TakesUp now' := by
      rw [ha']
      exact ⟨hroom, rfl, hseq.trans hbase⟩
    have hl' : a'.packages = now' :: l := by rw [ha']
    rw [oversizedFrom_of_takesUp hl' htakes', ha']
    dsimp only
    rw [decide_eq_false (not_lt.mpr hlen), decide_eq_false (not_lt.mpr hlen'), hnow',
      ← lastLen_of_lt (by omega) (by omega)]
    exact ⟨rfl, rfl⟩

/-- **When a pass stays inside its blocks.** -/
theorem passInside_iff (a : AckedSock) : a.PassInside ↔ ¬ a.Oversized := by
  unfold PassInside Oversized
  rw [not_and]
  refine imp_congr_right fun hrequest => ?_
  -- by the rounds of the fill loop: it leaves, fails, or goes on with a shorter queue
  induction a using Loop.run.induct fillLoop with
  | case1 a hleave =>
    have hnone : ¬ oversizedFrom a.base
        (a.receivingLength.toNat - a.recvBufferSize.toNat) a.packages := by
      cases hl : a.packages with
      | nil => simp [oversizedFrom]
      | cons now l =>
        rw [oversizedFrom, if_pos]
        · simp
        · rcases fillBody_leave hleave with hfull | hstop
          · left
            have hfull' := UInt64.le_iff_toNat_le.mp hfull
            omega
          · right
            exact hstop now (by rw [hl]; rfl)
    refine ⟨fun _ => hnone, fun _ b hb now htakes => ?_⟩
    have hlast : ∀ v, fillLoop.body a ≠ .again v := by
      intro v hv
      rw [show fillLoop.body a = .leave from hleave] at hv
      cases hv
    rw [fillLoop.visits_of_not_again hb hlast] at htakes
    exact absurd htakes (not_takesUp_of_leave hleave now)
  | case2 a x hfail =>
    obtain ⟨now, l, hl, htakes, hlen⟩ := takesUp_of_fail hrequest hfail
    rw [oversizedFrom_of_takesUp hl htakes, decide_eq_true hlen]
    refine ⟨fun hall => ?_, fun hnot => absurd rfl hnot⟩
    have hinside := hall a .start now htakes
    exact absurd ((copiesInside_iff_len hrequest htakes.1).mp hinside) (not_le.mpr hlen)
  | case3 a a' hagain ih =>
    obtain ⟨hlength, hrest⟩ := oversizedFrom_again hagain
    rw [← hrest, ← ih (hlength ▸ hrequest)]
    constructor
    · intro hall b hb
      exact hall b ((fillLoop.visits_of_again hagain).mpr (Or.inr hb))
    · intro hall b hb now htakes
      rcases (fillLoop.visits_of_again hagain).mp hb with rfl | hb
      · obtain ⟨hroom, now', l, hl, -, hround⟩ := fillBody_again hagain
        have hsame : now = now' := by
          have hhead := htakes.2.1
          rw [hl] at hhead
          exact (Option.some.inj hhead).symm
        rw [copiesInside_iff_len hrequest hroom, hsame]
        rcases hround with ⟨-, hround⟩ | ⟨hfit, hround⟩
        · exact (consume_eq hround).1
        · exact (split_eq hroom hfit hround).1
      · exact hall b hb now htakes

/-- What the pass reports as leaving a block is a package that is oversized. -/
lemma recvBack_outOfBounds {a : AckedSock} (h : a.recvBack = .error .outOfBounds) :
    a.Oversized := by
  by_contra hnot
  unfold recvBack at h
  split at h
  · cases h
  rename_i hsome
  split at h
  · cases h
  rename_i hsmall
  have hrequest : a.receivingLength.toNat ≤ BUF_LEN := not_lt.mp hsmall
  have hnone : ¬ oversizedFrom a.base
      (a.receivingLength.toNat - a.recvBufferSize.toNat) a.packages := fun hbig =>
    hnot ⟨hrequest, hbig⟩
  split at h
  · rename_i x hrun
    clear h hnot hsmall hsome
    induction a using Loop.run.induct fillLoop with
    | case1 a hleave => simp [fillLoop.run_of_leave hleave] at hrun
    | case2 a x hfail =>
      obtain ⟨now, l, hl, htakes, hlen⟩ := takesUp_of_fail hrequest hfail
      rw [oversizedFrom_of_takesUp hl htakes, decide_eq_true hlen] at hnone
      exact hnone rfl
    | case3 a a' hagain ih =>
      obtain ⟨hlength, hrest⟩ := oversizedFrom_again hagain
      rw [fillLoop.run_of_again hagain] at hrun
      exact ih (hlength ▸ hrequest) (hrest ▸ hnone) hrun
  · split at h <;> cases h

/-- A queue without oversized packages has none to take up. -/
lemma not_oversized {a : AckedSock} (h : ∀ m ∈ a.packages, m.len.toNat ≤ BUF_LEN) :
    ¬ a.Oversized := by
  rintro ⟨_, hbig⟩
  have hnone : ∀ (l : List TrollMessageStruct) base room, (∀ m ∈ l, m.len.toNat ≤ BUF_LEN) →
      oversizedFrom base room l = false := by
    intro l
    induction l with
    | nil => exact fun _ _ _ => rfl
    | cons m l ih =>
      intro base room hall
      rw [oversizedFrom, decide_eq_false (not_lt.mpr (hall m List.mem_cons_self)),
        ih _ _ fun x hx => hall x (List.mem_cons_of_mem _ hx)]
      simp
  rw [hnone _ _ _ h] at hbig
  cases hbig

end AckedSock

/-- Every copy of the next `handle_recv_back` stays inside its blocks. -/
def Tcpd.CopiesInside (t : Tcpd) : Prop :=
  ∀ s a, t.ackedSockets.lookup s = some a → a.PassInside

/-- **When the copies of `handle_recv_back` stay inside their blocks.** In every state of every
run, whatever the frames carry, they do if and only if no accepted session has a package with a
`len` of more than `BUF_LEN` among those the next pass takes up; then the pass does not stop for
a copy that leaves its block. So it is in every run whose intact frames carry no such `len`. -/
theorem copiesInside_iff (es : List Event) (t : Tcpd) (os : List Out) (h : Tcpd.Run es t os) :
    (t.CopiesInside ↔ ∀ s a, t.ackedSockets.lookup s = some a → ¬ a.Oversized) ∧
      (t.CopiesInside → t.step .recvBack ≠ .error .outOfBounds) ∧
      ((∀ fd m remote, .data fd m remote ∈ es → m.Valid → m.len.toNat ≤ BUF_LEN) →
        t.CopiesInside) := by
  refine ⟨⟨fun hall s a ha => ?_, fun hall s a ha => ?_⟩, fun hall hstop => ?_, ?_⟩
  · exact a.passInside_iff.mp (hall s a ha)
  · exact a.passInside_iff.mpr (hall s a ha)
  · simp only [Tcpd.step, handleRecvBack] at hstop
    split at hstop
    · rename_i x hpass
      cases hstop
      obtain ⟨u, s, a, hrow, hvisit⟩ := HashTable.pass_error hpass
      have hback : a.recvBack = .error .outOfBounds := by
        unfold AckedSock.recvVisit at hvisit
        cases hb : a.recvBack with
        | error x => rw [hb] at hvisit; cases hvisit; rfl
        | ok r => rw [hb] at hvisit; cases hvisit
      exact a.passInside_iff.mp (hall s a (HashTable.lookup_eq_some.mpr hrow))
        (AckedSock.recvBack_outOfBounds hback)
    · cases hstop
  · intro hframes s a ha
    have hqueue := queueOk_of_run (s := s) (P := fun m => m.len.toNat ≤ BUF_LEN) h
      (fun fd m remote hm hvalid _ => hframes fd m remote hm hvalid) a (sess_of_lookup ha)
    exact a.passInside_iff.mpr (AckedSock.not_oversized hqueue.all)

/-! ## A frame with a `len` of 2000 -/

/-- Package 0 of session 7, with a `len` that its body does not have. -/
def frame2000 : TrollMessageStruct := TrollMessageStruct.sealed { frame123 with len := 2000 }

lemma run_frame2000 : Tcpd.Run (acceptOne frame2000 ++ [askFor 3]) (oneState frame2000 3)
    ([.code default 0, .ack 3 (makeAck frame2000 default), .accepted default 3 7] ++ []) :=
  Tcpd.machine.exec_snoc.mpr ⟨_, _, _, run_acceptOne (TrollMessageStruct.valid_sealed _) rfl,
    step_askFor (by decide), rfl⟩

lemma oversized_frame2000 : (oneSock frame2000 3).Oversized := by
  decide

/-- A copy does not always stay inside its block. -/
theorem not_always_copiesInside :
    ¬ ∀ (es : List Event) (t : Tcpd) (os : List Out), Tcpd.Run es t os → t.CopiesInside := by
  intro hall
  have hlook := lookup_oneState frame2000 3 7
  rw [if_pos rfl] at hlook
  have hinside := hall _ _ _ run_frame2000 7 _ hlook
  exact (oneSock frame2000 3).passInside_iff.mp hinside oversized_frame2000

/-- The copies for the frame with the bytes 1, 2, 3 stay inside. -/
theorem copiesInside_iff_frame123 : (oneState frame123 3).CopiesInside := by
  refine (copiesInside_iff _ _ _ (run_askOne (by decide : (3 : UInt64) ≠ 0))).2.2 ?_
  intro fd m remote hm _
  obtain ⟨-, rfl, -⟩ : fd = 3 ∧ m = frame123 ∧ remote = default := by
    simpa [askOne, acceptOne, askFor] using hm
  rw [frame123, TrollMessageStruct.toNat_len_ofBytes]
  decide

end NetworkProgramming
