import NetworkProgramming.Final.FtpcSide

/-!
# `RECV` and its answer

The daemon answers a `RECV` that it rejects with a code of four bytes, through the socket that
the data of the others come through, and `RECV` copies whatever it is answered into the buffer of
its caller. So a call is right exactly when it is not rejected (`recvRight_iff`).
-/

namespace NetworkProgramming

/-! ## What a call gets -/

/-- No accepted session has this number, or a request waits on it already. -/
def Tcpd.Rejects (t : Tcpd) (fd : Int32) : Prop :=
  ∀ a, t.ackedSockets.lookup fd.toUInt32 = some a → a.receivingLength ≠ 0

/-- The process at `addr` waits for no answer of the daemon. -/
structure Tcpd.OwesNone (t : Tcpd) (addr : SockaddrIn) : Prop where
  accepting : ∀ b ∈ t.bindedSockets, b.accepting → b.acceptingAddr ≠ addr
  receiving : ∀ s a, t.sess s = some a → a.receivingLength ≠ 0 → a.receivingAddr ≠ addr

/-- The event is no call of the process at `addr`. -/
def Event.NotFrom (addr : SockaddrIn) (e : Event) : Prop := ∀ r sys, e ≠ .front addr r sys

/-- During the events `es`, from state `t` on, `handle_recv_back` sends `bytes` of session `s` to
the process at `addr`. -/
def Delivered (t : Tcpd) (es : List Event) (addr : SockaddrIn) (s : UInt32)
    (bytes : List UInt8) : Prop :=
  ∃ pre u os v os', pre ++ [.recvBack] <+: es ∧ Tcpd.machine.exec t pre = .ok (u, os) ∧
    u.step .recvBack = .ok (v, os') ∧ .data addr s bytes ∈ os'

/-- A `RECV` that is read in state `t` gets `answer` first; during the events `es` after it the
process waits. -/
structure FirstAnswer (t : Tcpd) (call : Event) (addr : SockaddrIn) (es : List Event)
    (answer : List UInt8) : Prop where
  waits : ∀ e ∈ es, e.NotFrom addr
  first : ∃ u os rest, Tcpd.machine.exec t (call :: es) = .ok (u, os) ∧
    answersTo addr os = answer :: rest

/-- The result of `RECV` is negative when the request is rejected, and what is not negative counts
bytes that `handle_recv_back` has delivered for the session. -/
structure RecvRight (t : Tcpd) (addr : SockaddrIn) (fd : Int32) (len : UInt64)
    (hlen : len.toNat ≤ BUF_LEN) (sys : Sys) : Prop where
  rejected : t.Rejects fd → ∀ es answer bufIn,
    FirstAnswer t (.front addr (.RECV fd len) sys) addr es answer →
      ((recvInto bufIn len.toNat hlen answer).2 : ℤ) < 0
  delivered : ∀ es answer bufIn,
    FirstAnswer t (.front addr (.RECV fd len) sys) addr es answer →
      0 ≤ ((recvInto bufIn len.toNat hlen answer).2 : ℤ) →
        ∃ bytes, Delivered t (.front addr (.RECV fd len) sys :: es) addr fd.toUInt32 bytes ∧
          (recvInto bufIn len.toNat hlen answer).1.toList.take
            (recvInto bufIn len.toNat hlen answer).2 <+: bytes

/-! ## Who answers -/

/-- A process is answered when it calls, when a session is handed over to it, or by
`handle_recv_back`. -/
lemma source_of_answer {t t' : Tcpd} {e : Event} {os : List Out} (hok : t.SessionsOk)
    (h : t.step e = .ok (t', os)) {o : Out} (ho : o ∈ os) {addr : SockaddrIn} {x : List UInt8}
    (hx : o.answer = some (addr, x)) :
    (∃ r sys, e = .front addr r sys) ∨ (∃ fd s, o = .accepted addr fd s) ∨
      e = .recvBack ∧ ∃ s, o = .data addr s x := by
  by_cases hfront : e.isFront
  · left
    cases tcpd_step h with
    | socket | bind | recvRefused | connect | send =>
      rw [List.mem_singleton.mp ho] at hx
      cases hx
      exact ⟨_, _, rfl⟩
    | accept =>
      rw [tcpdAccept] at ho
      split at ho
      · rw [List.mem_singleton.mp ho] at hx
        cases hx
        exact ⟨_, _, rfl⟩
      · cases ho
    | recv => cases ho
    | _ => cases hfront
  · right
    by_cases hackBack : e = .ackBack
    · subst hackBack
      have hos : (handleAckBack t).2 = os := congrArg Prod.snd (Except.ok.inj h)
      rw [← hos, handleAckBack_eq] at ho
      obtain ⟨b, -, s, -, rfl⟩ :=
        (mem_handOver t.ackedSockets t.waitingAckSockets t.bindedSockets).2 o ho
      cases hx
      exact Or.inl ⟨_, _, rfl⟩
    · by_cases hrecvBack : e = .recvBack
      · subst hrecvBack
        obtain ⟨a, bytes, -, -, rfl⟩ := out_of_recvPass hok h ho
        cases hx
        exact Or.inr ⟨rfl, _, rfl⟩
      · rw [answer_of_step h hfront hackBack hrecvBack o ho] at hx
        cases hx

/-! ## While a process waits -/

/-- Of the process at `addr` there are only `RECV`s on this session among the requests. -/
def OnlyRecv (addr : SockaddrIn) (fd : Int32) (requests : List (SockaddrIn × Request)) : Prop :=
  ∀ r, (addr, r) ∈ requests → ∃ len, r = .RECV fd len

section Waiting

variable {addr : SockaddrIn} {fd : Int32} {requests : List (SockaddrIn × Request)}

lemma OnlyRecv.snoc (h : OnlyRecv addr fd requests) {e : Event} (he : e.NotFrom addr) :
    OnlyRecv addr fd (requests ++ frontRequests [e]) := by
  intro r hr
  rcases List.mem_append.mp hr with hr | hr
  · exact h r hr
  · cases e with
    | front addr' r' sys =>
      have heq : (addr, r) = (addr', r') := List.mem_singleton.mp hr
      cases heq
      exact absurd rfl (he r sys)
    | _ => cases hr

/-- What it is answered in one step is delivered by `handle_recv_back`. -/
lemma OnlyRecv.answer (h : OnlyRecv addr fd requests) {t t' : Tcpd} {e : Event} {os : List Out}
    (hok : t.SessionsOk) (haddressed : t.Addressed requests) (hstep : t.step e = .ok (t', os))
    (he : e.NotFrom addr) {x : List UInt8} (hx : x ∈ answersTo addr os) :
    e = .recvBack ∧ .data addr fd.toUInt32 x ∈ os := by
  obtain ⟨o, ho, hanswer⟩ := List.mem_filterMap.mp hx
  obtain ⟨⟨addr', y⟩, hy, haddr⟩ := Option.bind_eq_some_iff.mp hanswer
  obtain ⟨rfl, rfl⟩ : addr' = addr ∧ y = x := by simpa using haddr
  have hone := (answers_step hok hstep haddressed).1 o ho
  have honly := h.snoc he
  rcases source_of_answer hok hstep ho hy with ⟨r, sys, heq⟩ | ⟨fd', s, rfl⟩ | ⟨hevent, s, rfl⟩
  · exact absurd heq (he r sys)
  · obtain ⟨len, hr⟩ := honly _ hone
    cases hr
  · obtain ⟨fd', len, hmem, rfl⟩ := hone
    obtain ⟨len', hr⟩ := honly _ hmem
    cases hr
    exact ⟨hevent, ho⟩

/-- All it is answered until its next call is delivered by `handle_recv_back`. -/
lemma OnlyRecv.delivered (h : OnlyRecv addr fd requests) {t u : Tcpd} {es : List Event}
    {os : List Out} (hok : t.SessionsOk) (haddressed : t.Addressed requests)
    (hrun : Tcpd.machine.exec t es = .ok (u, os)) (hes : ∀ e ∈ es, e.NotFrom addr)
    {x : List UInt8} (hx : x ∈ answersTo addr os) : Delivered t es addr fd.toUInt32 x := by
  induction es generalizing t requests os with
  | nil =>
    cases hrun
    cases hx
  | cons e es ih =>
    obtain ⟨v, o, o', hstep, hrest, rfl⟩ := Tcpd.machine.exec_cons_ok.mp hrun
    have he : e.NotFrom addr := hes e (by simp)
    rw [answersTo, List.filterMap_append] at hx
    rcases List.mem_append.mp hx with hx | hx
    · obtain ⟨rfl, hdata⟩ := h.answer hok haddressed hstep he hx
      exact ⟨[], t, [], v, o, by simp, rfl, hstep, hdata⟩
    · obtain ⟨pre, w, os₁, w', os₂, hpre, hexec, hpass, hdata⟩ :=
        ih (h.snoc he) (sessionsOk_step hok hstep) (addressed_step hok hstep haddressed) hrest
          (fun e' he' => hes e' (List.mem_cons_of_mem _ he')) hx
      exact ⟨e :: pre, w, o ++ os₁, w', os₂, List.cons_prefix_cons.mpr ⟨rfl, hpre⟩,
        Tcpd.machine.exec_cons_ok.mpr ⟨v, o, os₁, hstep, hexec, rfl⟩, hpass, hdata⟩

end Waiting

/-! ## When a call is right -/

/-- A rejected request is answered with a code at once. -/
lemma step_of_rejects {t : Tcpd} {addr : SockaddrIn} {fd : Int32} {len : UInt64} {sys : Sys}
    (hread : t.inBufferPackages < MAX_BUFFER_PACKAGES) (hlen : len ≠ 0) (h : t.Rejects fd) :
    ∃ ret, t.step (.front addr (.RECV fd len) sys) = .ok (t, [.code addr ret]) := by
  simp only [Tcpd.step, if_pos hread, Tcpd.serve, tcpdRecv, if_neg hlen]
  cases ha : t.ackedSockets.lookup fd.toUInt32 with
  | none => exact ⟨_, rfl⟩
  | some a => exact ⟨-3, by simp only [if_pos (h a ha)]⟩

/-- Any other is not answered until there are data. -/
lemma step_of_not_rejects {t : Tcpd} {addr : SockaddrIn} {fd : Int32} {len : UInt64} {sys : Sys}
    (hread : t.inBufferPackages < MAX_BUFFER_PACKAGES) (hlen : len ≠ 0) (h : ¬ t.Rejects fd) :
    ∃ t', t.step (.front addr (.RECV fd len) sys) = .ok (t', []) := by
  obtain ⟨a, ha, hidle⟩ : ∃ a, t.ackedSockets.lookup fd.toUInt32 = some a ∧
      a.receivingLength = 0 := by simpa [Tcpd.Rejects] using h
  simp only [Tcpd.step, if_pos hread, Tcpd.serve, tcpdRecv, if_neg hlen, ha, hidle]
  exact ⟨_, rfl⟩

/-- What `RECV` returns counts the bytes of the answer it has put into the buffer. -/
lemma take_recvInto_prefix {bufIn : Buffer BUF_LEN} {len : ℕ} (h : len ≤ BUF_LEN)
    (answer : List UInt8) :
    (recvInto bufIn len h answer).1.toList.take (recvInto bufIn len h answer).2 <+: answer := by
  unfold recvInto
  rw [Buffer.take_write _ (by rw [Nat.zero_add]), List.take_zero, List.nil_append]
  exact List.take_prefix _ _

/-- The code of a rejected request counts as data. -/
lemma not_recvRight_of_rejects {t : Tcpd} {addr : SockaddrIn} {fd : Int32} {len : UInt64}
    {sys : Sys} (hread : t.inBufferPackages < MAX_BUFFER_PACKAGES) (hpos : len ≠ 0)
    (hlen : len.toNat ≤ BUF_LEN) (hrejects : t.Rejects fd) :
    ¬ RecvRight t addr fd len hlen sys := by
  intro h
  obtain ⟨ret, hstep⟩ := step_of_rejects hread hpos hrejects
  have hanswer : FirstAnswer t (.front addr (.RECV fd len) sys) addr [] (intBytes ret) := by
    refine ⟨by simp, t, [.code addr ret], [], ?_, ?_⟩
    · exact Tcpd.machine.exec_cons_ok.mpr ⟨t, _, [], hstep, rfl, rfl⟩
    · simp [answersTo, Out.answer]
  have hnegative := h.rejected hrejects [] _ (.zero BUF_LEN) hanswer
  exact absurd hnegative (not_lt.mpr (Int.natCast_nonneg _))

/-- **`RECV` is right exactly when the request is not rejected.** -/
theorem recvRight_iff {es : List Event} {t : Tcpd} {os : List Out} (hrun : Tcpd.Run es t os)
    {addr : SockaddrIn} (hfree : t.OwesNone addr)
    (hread : t.inBufferPackages < MAX_BUFFER_PACKAGES) {fd : Int32} {len : UInt64} {sys : Sys}
    (hpos : len ≠ 0) (hlen : len.toNat ≤ BUF_LEN) :
    RecvRight t addr fd len hlen sys ↔ ¬ t.Rejects fd := by
  constructor
  · exact fun h hrejects => not_recvRight_of_rejects hread hpos hlen hrejects h
  · intro h
    refine ⟨fun hrejects => absurd hrejects h, fun later answer bufIn hanswer _ => ?_⟩
    obtain ⟨u, os', rest, hexec, hfirst⟩ := hanswer.first
    obtain ⟨t', hstep⟩ := step_of_not_rejects hread hpos h
    obtain ⟨v, o, o', hstep', hlater, rfl⟩ := Tcpd.machine.exec_cons_ok.mp hexec
    obtain ⟨rfl, rfl⟩ : t' = v ∧ [] = o := by
      have heq := hstep.symm.trans hstep'
      cases heq
      exact ⟨rfl, rfl⟩
    -- of all that has been asked for, only this request is not answered yet
    have hok := sessionsOk_of_run hrun
    have hold := addressed_of_run hrun
    have haddressed : t.Addressed ((frontRequests es).filter (·.1 ≠ addr)) := by
      refine ⟨fun b hb hacc => ?_, fun s a ha hbusy => ?_⟩
      · exact List.mem_filter.mpr ⟨hold.accepting b hb hacc,
          by simpa using hfree.accepting b hb hacc⟩
      · obtain ⟨fd', len', hmem, hs⟩ := hold.receiving s a ha hbusy
        exact ⟨fd', len', List.mem_filter.mpr ⟨hmem, by simpa using hfree.receiving s a ha hbusy⟩,
          hs⟩
    have honly : OnlyRecv addr fd ((frontRequests es).filter (·.1 ≠ addr)
        ++ frontRequests [.front addr (.RECV fd len) sys]) := by
      intro r hr
      rcases List.mem_append.mp hr with hr | hr
      · exact absurd (List.mem_filter.mp hr).2 (by simp)
      · have heq : (addr, r) = (addr, .RECV fd len) := List.mem_singleton.mp hr
        cases heq
        exact ⟨len, rfl⟩
    have hx : answer ∈ answersTo addr o' := by
      rw [List.nil_append] at hfirst
      rw [hfirst]
      exact List.mem_cons_self
    obtain ⟨pre, w, os₁, w', os₂, hpre, hrun', hpass, hdata⟩ :=
      honly.delivered (sessionsOk_step hok hstep) (addressed_step hok hstep haddressed) hlater
        hanswer.waits hx
    refine ⟨answer, ⟨_ :: pre, w, [] ++ os₁, w', os₂, List.cons_prefix_cons.mpr ⟨rfl, hpre⟩,
      Tcpd.machine.exec_cons_ok.mpr ⟨_, _, _, hstep, hrun', rfl⟩, hpass, hdata⟩, ?_⟩
    exact take_recvInto_prefix hlen answer

/-- The session of `acceptOne` is accepted, and nothing waits on it. -/
theorem recvRight_iff_acceptOne :
    RecvRight (oneState frame123 0) default 7 3 (by decide) calmSys := by
  have hfree : (oneState frame123 0).OwesNone default := by
    refine ⟨by simp [oneState], fun s a ha hbusy => absurd ?_ hbusy⟩
    rw [Tcpd.sess, entry, lookup_oneState] at ha
    split at ha
    · cases ha
      rfl
    · cases ha
  have hrun : Tcpd.Run (acceptOne frame123) (oneState frame123 0) _ :=
    run_acceptOne (TrollMessageStruct.valid_sealed _) rfl
  refine (recvRight_iff hrun hfree (by decide) (by decide) (by decide)).mpr fun hrejects => ?_
  have hfd : Int32.toUInt32 7 = 7 := rfl
  refine hrejects (oneSock frame123 0) ?_ rfl
  rw [hfd, lookup_oneState, if_pos rfl]

/-- Without a session, `RECV` copies the code -2 into the buffer and returns 4. -/
theorem not_always_recvRight :
    ¬ ∀ es t os, Tcpd.Run es t os → ∀ addr, t.OwesNone addr →
      t.inBufferPackages < MAX_BUFFER_PACKAGES → ∀ fd len sys (hlen : len.toNat ≤ BUF_LEN),
        len ≠ 0 → RecvRight t addr fd len hlen sys := by
  intro h
  have hfree : Tcpd.globalInit.OwesNone default :=
    ⟨by simp [Tcpd.globalInit], by simp [Tcpd.globalInit, Tcpd.sess, entry]⟩
  have hright := h [] Tcpd.globalInit [] rfl default hfree (by decide) 7 4 calmSys (by decide)
    (by decide)
  refine not_recvRight_of_rejects (by decide) (by decide) (by decide) ?_ hright
  intro a ha
  simp [Tcpd.globalInit] at ha

end NetworkProgramming
