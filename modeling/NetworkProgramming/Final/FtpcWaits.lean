import NetworkProgramming.Final.FtpsSide

/-!
# What `ftpc` waits for comes

Every call of `ftpc` that its daemon has served is answered, and never with an error, so that
`ftpc` does not stop before the end of its file. While no socket is connected twice, the file of
every session either has been handed over to its connection or is the one `ftpc` is busy with, and
the daemon counts no package that it does not hold (`FtpcSide.Live`).
-/

namespace NetworkProgramming

/-! ## Answers without an error -/

/-- The answer of a `SEND` is read back. -/
lemma sentOf_intBytes (ret : Int32) : sentOf (intBytes ret) = ret := by
  have hpad : Reads.padTo 8 (intBytes ret) = intBytes ret ++ List.replicate 4 0 := by
    simp [Reads.padTo, intBytes, List.take_of_length_le]
  have hback := Reads.intOf_intBytes ret
  rw [Reads.intOf] at hback
  rw [sentOf, hpad, Reads.intOf, ofLeBytes_append_replicate, hback]

/-- The length of a buffer is no negative `int`. -/
lemma toInt32_nonneg {len : UInt64} (h : ¬ BUF_LEN < len.toNat) : 0 ≤ len.toUInt32.toInt32 := by
  unfold BUF_LEN at h
  have hsmall : len.toUInt32.toNat = len.toNat := by
    rw [UInt64.toNat_toUInt32]
    omega
  rw [Int32.le_iff_toInt_le]
  show (0 : ℤ) ≤ len.toUInt32.toBitVec.toInt
  rw [BitVec.toInt_eq_toNat_of_lt]
  · exact Int.natCast_nonneg _
  · show 2 * len.toUInt32.toNat < 2 ^ 32
    omega

/-- The daemon answers the call at once. -/
def Call.AtOnce : Call → Prop
  | ACCEPT _ => False
  | RECV _ _ => False
  | _ => True

/-- Such an answer is no error: when `socket` or `bind` fails the daemon exits, and a `SEND` that
goes through returns its length. -/
lemma code_of_call {t t' : Tcpd} {addr : SockaddrIn} {c : Call} {sys : Sys} {os : List Out}
    (hc : c.AtOnce) (h : t.step (.front addr c.request sys) = .ok (t', os)) :
    ∃ ret, 0 ≤ ret ∧ os = [.code addr ret] := by
  simp only [Tcpd.step] at h
  split at h
  · cases c with
    | SOCKET =>
      simp only [Call.request, Tcpd.serve, tcpdSocket] at h
      split at h <;> cases h
      exact ⟨_, Int32.not_lt.mp ‹_›, rfl⟩
    | BIND sock a =>
      simp only [Call.request, Tcpd.serve, tcpdBind] at h
      split at h <;> cases h
      exact ⟨_, Int32.not_lt.mp ‹_›, rfl⟩
    | CONNECT sock a =>
      simp only [Call.request, Tcpd.serve, tcpdConnect] at h
      cases h
      exact ⟨0, by decide, rfl⟩
    | SEND sock b =>
      simp only [Call.request, Tcpd.serve, tcpdSend] at h
      split at h
      · cases h
      · rename_i hlen
        split at h <;> cases h
        exact ⟨_, toInt32_nonneg hlen, rfl⟩
    | ACCEPT sock => exact hc.elim
    | RECV sock len => exact hc.elim
  · cases h

namespace Ftpc

variable {st : Ftpc} {job job' : FtpJob} {sock sock' : Int32} {k k' : ℕ}

/-- `ftpc` sends one file, through one socket. -/
lemma At.unique (h : st.At job sock k) (h' : st.At job' sock' k') : job' = job ∧ sock' = sock := by
  cases st with
  | size _ _ => exact ⟨h'.1.symm.trans h.1, h'.2.1.symm.trans h.2.1⟩
  | name _ _ => exact ⟨h'.1.symm.trans h.1, h'.2.1.symm.trans h.2.1⟩
  | chunk _ _ _ _ _ => exact ⟨h'.1.symm.trans h.1, h'.2.1.symm.trans h.2.1⟩
  | _ => exact h.elim

/-- The loop over the file ends after the last piece, or waits for the next one. -/
lemma sendLoop_at {unread : List UInt8} (h : job.pieces.drop k = chunks unread) :
    (sendLoop job sock unread.length unread = (idle, []) ∧ job.pieces.length ≤ k) ∨
      (sendLoop job sock unread.length unread).1.At job sock k := by
  by_cases hnil : unread = []
  · subst hnil
    rw [chunks_nil] at h
    exact Or.inl ⟨rfl, List.drop_eq_nil_iff.mp h⟩
  · right
    rcases @sendLoop_eq job sock k unread h with hidle | ⟨st, b, hnext, hat, -⟩
    · have hne : unread.length ≠ 0 := fun hlen => hnil (List.length_eq_zero_iff.mp hlen)
      rw [sendLoop, if_neg hne] at hidle
      cases hidle
    · rw [hnext]
      exact hat

/-- Without an error `ftpc` stops only after the last piece. -/
lemma At.resume_answered (h : st.At job sock k) {ret : Int32} (hret : 0 ≤ ret) :
    (st.resume (intBytes ret) = (idle, []) ∧ job.pieces.length ≤ k + 1) ∨
      (st.resume (intBytes ret)).1.At job sock (k + 1) := by
  have hgood : ¬ sentOf (intBytes ret) < 0 := by
    rw [sentOf_intBytes]
    exact Int32.not_lt.mpr hret
  cases st with
  | size job₀ sock₀ =>
    obtain ⟨rfl, rfl, rfl⟩ := h
    right
    rw [Ftpc.resume, if_neg hgood]
    exact ⟨rfl, rfl, rfl⟩
  | name job₀ sock₀ =>
    obtain ⟨rfl, rfl, rfl⟩ := h
    rw [Ftpc.resume, if_neg hgood]
    exact sendLoop_at rfl
  | chunk job₀ sock₀ fileLeft rVal unread =>
    obtain ⟨rfl, rfl, hleft, hpieces⟩ := h
    rw [Ftpc.resume, if_neg hgood, hleft]
    exact sendLoop_at hpieces
  | _ => exact h.elim

end Ftpc

/-! ## What is left to be done -/

namespace FtpcSide

/-- `ftpc` is connected through `sock`, and has not sent the whole file of `job` yet. -/
def Busy (x : FtpcSide) (job : FtpJob) (sock : Int32) : Prop :=
  (x.ftpc = .connect job sock ∧ x.calls = []) ∨ ∃ k, x.ftpc.At job sock k

/-- A `CONNECT` comes on a socket that has no connection yet. -/
def FreshSocket (x : FtpcSide) (e : FtpcEvent) : Prop :=
  ∀ sys addr sock a calls, e = .serve sys → x.calls = (addr, .CONNECT sock a) :: calls →
    x.tcpd.conn sock = none

/-- What `ftpc` waits for comes, and nothing it has handed over is lost from the books. -/
structure Live (x : FtpcSide) : Prop where
  /-- a call that is served is answered, and without an error -/
  answered : x.calls = [] → x.ftpc.frontAddr.isSome → ∃ ret, 0 ≤ ret ∧ x.answers = [intBytes ret]
  /-- the file of a session is handed over, or `ftpc` is busy with it -/
  begun : ∀ s job, (s, job) ∈ x.transfers → ∃ sock c, x.tcpd.conn sock = some c ∧ c.session = s ∧
    (c.base.toNat = job.pieces.length ∨ x.Busy job sock)
  /-- every package that is counted is held -/
  count : x.tcpd.inBufferPackages = x.tcpd.heldTotal

variable {x x' : FtpcSide} {os : List Out}

/-- `ftpc` reads an answer. -/
lemma Live.resume (h : x.Live) (hok : x.Ok) {addr : SockaddrIn} {answer : List UInt8}
    {answers : List (List UInt8)} (haddr : x.ftpc.frontAddr = some addr)
    (hanswers : x.answers = answer :: answers) (hnodup : (x.transfers.map Prod.fst).Nodup) :
    Live { x with ftpc := (x.ftpc.resume answer).1,
                  calls := x.calls ++ (x.ftpc.resume answer).2.map (addr, ·), answers } := by
  -- the answer is the only one, and no error
  have hgood : x.calls = [] → ∃ ret, 0 ≤ ret ∧ answer = intBytes ret := by
    intro hcalls
    obtain ⟨ret, hret, hone⟩ := h.answered hcalls (by rw [haddr]; rfl)
    exact ⟨ret, hret, (List.cons.inj (hanswers.symm.trans hone)).1⟩
  cases hok.stage with
  | idle _ _ hnone => simp [hnone] at hanswers
  | socketCalled _ _ _ hnone => simp [hnone] at hanswers
  | connectCalled _ _ _ _ hnone => simp [hnone] at hanswers
  | sendCalled _ _ _ _ _ _ _ hnone _ => simp [hnone] at hanswers
  | socketServed job hftpc hcalls _ =>
    obtain ⟨ret, hret, rfl⟩ := hgood hcalls
    have hsock : ¬ codeOf (intBytes ret) < 0 := by
      rw [codeOf_intBytes]
      exact Int32.not_lt.mpr hret
    refine ⟨fun hnone => ?_, fun s job' hjob' => ?_, h.count⟩
    · simp [hftpc, Ftpc.resume, hsock] at hnone
    · obtain ⟨sock, c, hc, hs, hdone | hbusy⟩ := h.begun s job' hjob'
      · exact ⟨sock, c, hc, hs, Or.inl hdone⟩
      · simp [Busy, hftpc, Ftpc.At] at hbusy
  | connectServed job sock hftpc hcalls _ _ =>
    obtain ⟨ret, hret, rfl⟩ := hgood hcalls
    have hcode : ¬ codeOf (intBytes ret) < 0 := by
      rw [codeOf_intBytes]
      exact Int32.not_lt.mpr hret
    refine ⟨fun hnone => ?_, fun s job' hjob' => ?_, h.count⟩
    · simp [hftpc, Ftpc.resume, hcode] at hnone
    · obtain ⟨sock', c, hc, hs, hdone | hbusy⟩ := h.begun s job' hjob'
      · exact ⟨sock', c, hc, hs, Or.inl hdone⟩
      · obtain ⟨rfl, rfl⟩ : job = job' ∧ sock = sock' := by
          simpa [Busy, hftpc, Ftpc.At, hcalls] using hbusy
        refine ⟨sock, c, hc, hs, Or.inr (Or.inr ⟨0, ?_⟩)⟩
        simp [hftpc, Ftpc.resume, hcode, Ftpc.At]
  | sendServed job sock k hat hcalls _ hconn =>
    obtain ⟨ret, hret, rfl⟩ := hgood hcalls
    obtain ⟨c₀, hc₀, hjob, hbase⟩ := hconn
    have hbusy : ∀ job' sock', x.Busy job' sock' → job' = job ∧ sock' = sock := by
      rintro job' sock' (⟨hconnect, -⟩ | ⟨k', hat'⟩)
      · rw [hconnect] at hat
        exact hat.elim
      · exact hat.unique hat'
    rcases hat.resume_answered hret with ⟨hidle, hlast⟩ | hnext
    · -- the last piece is handed over
      rw [hidle]
      refine ⟨fun _ hsome => by simp [Ftpc.frontAddr] at hsome,
        fun s job' hjob' => ?_, h.count⟩
      obtain ⟨sock', c, hc, hs, hdone | hold⟩ := h.begun s job' hjob'
      · exact ⟨sock', c, hc, hs, Or.inl hdone⟩
      · obtain ⟨rfl, rfl⟩ := hbusy job' sock' hold
        obtain rfl : c₀ = c := Option.some.inj (hc₀.symm.trans hc)
        obtain ⟨job₁, hjob₁, hle, -⟩ := hok.conns _ _ hc
        obtain rfl := job_unique hnodup hjob hjob₁
        exact ⟨sock', c₀, hc, hs, Or.inl (by omega)⟩
    · -- there is a next piece, and a call for it
      rcases hat.resume (intBytes ret) with hidle | ⟨st, b, hst, -⟩
      · rw [hidle] at hnext
        exact hnext.elim
      · refine ⟨fun hnone => by simp [hst] at hnone, fun s job' hjob' => ?_, h.count⟩
        obtain ⟨sock', c, hc, hs, hdone | hold⟩ := h.begun s job' hjob'
        · exact ⟨sock', c, hc, hs, Or.inl hdone⟩
        · obtain ⟨rfl, rfl⟩ := hbusy job' sock' hold
          exact ⟨sock', c, hc, hs, Or.inr (Or.inr ⟨_, hnext⟩)⟩

/-- The daemon makes a step of its own. -/
lemma Live.daemon (h : x.Live) {e : Event} (hfront : ¬ e.isFront) {t : Tcpd}
    (hstep : x.tcpd.step e = .ok (t, os)) (hsilent : ∀ o ∈ os, o.answer = none) :
    (x.after t os).Live := by
  have hanswers : (x.after t os).answers = x.answers := by
    show x.answers ++ x.ftpc.frontAddr.elim [] (answersTo · os) = x.answers
    cases x.ftpc.frontAddr with
    | none => exact List.append_nil _
    | some addr =>
      rw [Option.elim_some, answersTo_of_none hsilent, List.append_nil]
  refine ⟨fun hcalls hsome => ?_, fun s job hjob => ?_, ?_⟩
  · rw [hanswers]
    exact h.answered hcalls hsome
  · obtain ⟨sock, c, hc, hs, hrest⟩ := h.begun s job hjob
    rcases (conn_step hstep sock).of_not_front hfront with ⟨hnone, -⟩ | ⟨d, c', hd, hc', hs', hb, -⟩
    · rw [hc] at hnone
      cases hnone
    · rw [hc] at hd
      cases hd
      exact ⟨sock, c', hc', hs'.trans hs, by rw [hb]; exact hrest⟩
  · have hdrift := (heldTotal_step hstep).2 fun addr fd a sys he => by
      subst he
      exact absurd rfl hfront
    have hcount := h.count
    show t.inBufferPackages = (t.heldTotal : ℤ)
    omega

/-- The daemon serves a call and answers it at once. -/
lemma Live.call (h : x.Live) {addr : SockaddrIn} {c : Call} {sys : Sys} {t : Tcpd}
    (hcalls : x.calls = [(addr, c)]) (honce : c.AtOnce) (hanswers : x.answers = [])
    (haddr : x.ftpc.frontAddr = some addr) (hfresh : x.FreshSocket (.serve sys))
    (hstep : x.tcpd.step (.front addr c.request sys) = .ok (t, os))
    (hbegun : ∀ s job, (s, job) ∈ x.transfers ++ x.begins c sys → ∃ sock d, t.conn sock = some d ∧
      d.session = s ∧ (d.base.toNat = job.pieces.length ∨ Busy { x with calls := [] } job sock)) :
    Live ({ x with calls := [], transfers := x.transfers ++ x.begins c sys,
                   sends := x.sends ++ x.handsOver c }.after t os) := by
  obtain ⟨ret, hret, rfl⟩ := code_of_call honce hstep
  refine ⟨fun _ _ => ⟨ret, hret, ?_⟩, hbegun, ?_⟩
  · show x.answers ++ x.ftpc.frontAddr.elim [] (answersTo · [.code addr ret]) = [intBytes ret]
    simp [hanswers, haddr, answersTo, Out.answer]
  · have hdrift := (heldTotal_step hstep).2 fun addr' sock a sys' he d hd => by
      cases c with
      | CONNECT _ _ =>
        cases he
        rw [hfresh sys addr sock a [] rfl hcalls] at hd
        cases hd
      | _ => cases he
    have hcount := h.count
    show t.inBufferPackages = (t.heldTotal : ℤ)
    omega

/-- The daemon serves the call `ftpc` has made. -/
lemma Live.serve (h : x.Live) (hok : x.Ok) {addr : SockaddrIn} {c : Call}
    {calls : List (SockaddrIn × Call)} {sys : Sys} {t : Tcpd}
    (hcalls : x.calls = (addr, c) :: calls)
    (hnodup : (x.transfers.map Prod.fst).Nodup) (hfresh : x.FreshSocket (.serve sys))
    (hstep : x.tcpd.step (.front addr c.request sys) = .ok (t, os)) :
    Live ({ x with calls, transfers := x.transfers ++ x.begins c sys,
                   sends := x.sends ++ x.handsOver c }.after t os) := by
  cases hok.stage with
  | idle _ hnone _ => simp [hnone] at hcalls
  | socketServed _ _ hnone _ => simp [hnone] at hcalls
  | connectServed _ _ _ hnone _ _ => simp [hnone] at hcalls
  | sendServed _ _ _ _ hnone _ _ => simp [hnone] at hcalls
  | socketCalled job hftpc hcall hanswers =>
    obtain ⟨hfirst, rfl⟩ := List.cons.inj (hcalls.symm.trans hcall)
    cases hfirst
    refine h.call hcall trivial hanswers (by rw [hftpc]; rfl) hfresh hstep fun s job' hjob' => ?_
    obtain ⟨rfl, -⟩ := step_socketCall hstep
    rw [show x.begins .SOCKET sys = [] from rfl, List.append_nil] at hjob'
    obtain ⟨sock, d, hd, hs, hdone | hbusy⟩ := h.begun s job' hjob'
    · exact ⟨sock, d, hd, hs, Or.inl hdone⟩
    · simp [Busy, hftpc, Ftpc.At] at hbusy
  | connectCalled job sock hftpc hcall hanswers =>
    obtain ⟨hfirst, rfl⟩ := List.cons.inj (hcalls.symm.trans hcall)
    cases hfirst
    refine h.call hcall trivial hanswers (by rw [hftpc]; rfl) hfresh hstep fun s job' hjob' => ?_
    obtain ⟨hsock, hothers, -⟩ := step_connectCall hstep
    have hbegins : x.begins (.CONNECT sock job.serverAddr) sys = [(sys.rand, job)] := by
      simp [begins, hftpc, Ftpc.job]
    rw [hbegins] at hjob'
    rcases List.mem_append.mp hjob' with hold | hnew
    · -- a transfer that has begun before has its connection on another socket
      obtain ⟨sock', d, hd, hs, hdone | hbusy⟩ := h.begun s job' hold
      · refine ⟨sock', d, ?_, hs, Or.inl hdone⟩
        rw [hothers sock' fun heq => ?_]
        · exact hd
        · rw [heq, hfresh sys _ sock _ [] rfl hcall] at hd
          cases hd
      · simp [Busy, hftpc, Ftpc.At, hcall] at hbusy
    · cases List.mem_singleton.mp hnew
      exact ⟨sock, _, hsock, rfl, Or.inr (Or.inl ⟨hftpc, rfl⟩)⟩
  | sendCalled job sock k b hat hpiece hcall hanswers hconn =>
    obtain ⟨hfirst, rfl⟩ := List.cons.inj (hcalls.symm.trans hcall)
    cases hfirst
    refine h.call hcall trivial hanswers hat.frontAddr_eq.1 hfresh hstep fun s job' hjob' => ?_
    rw [show x.begins (.SEND sock b) sys = [] from rfl, List.append_nil] at hjob'
    have hb : b.val.length ≤ BUF_LEN := (FtpJob.mem_pieces (List.mem_of_getElem? hpiece)).2
    obtain ⟨d₀, m, hd₀, hsock, hothers, -⟩ := step_sendCall hb hstep
    obtain ⟨sock', d, hd, hs, hrest⟩ := h.begun s job' hjob'
    by_cases hsame : sock' = sock
    · subst hsame
      obtain rfl : d₀ = d := Option.some.inj (hd₀.symm.trans hd)
      obtain ⟨d₁, hd₁, hjob, -⟩ := hconn
      obtain rfl : d₀ = d₁ := Option.some.inj (hd₀.symm.trans hd₁)
      rw [hs] at hjob
      obtain rfl := job_unique hnodup hjob hjob'
      exact ⟨sock', _, hsock, hs, Or.inr (Or.inr ⟨k, hat⟩)⟩
    · refine ⟨sock', d, by rw [hothers sock' hsame]; exact hd, hs, hrest.imp_right ?_⟩
      rintro (⟨-, hnone⟩ | hat')
      · simp [hnone] at hcall
      · exact Or.inr hat'

/-- **One event on the side of `ftpc`.** -/
theorem Live.step (h : x.Live) (hok : x.Ok) {e : FtpcEvent} (hstep : x.step e = .ok (x', os))
    (hnodup : (x'.transfers.map Prod.fst).Nodup) (hfresh : x.FreshSocket e) : x'.Live := by
  have hnodup₀ : (x.transfers.map Prod.fst).Nodup :=
    hnodup.sublist ((step_grows hstep).1.sublist.map _)
  cases e with
  | run job =>
    simp only [FtpcSide.step] at hstep
    split at hstep
    · rename_i hftpc
      cases hstep
      refine ⟨fun hnone => by simp at hnone, fun s job' hjob' => ?_, h.count⟩
      obtain ⟨sock, c, hc, hs, hdone | hbusy⟩ := h.begun s job' hjob'
      · exact ⟨sock, c, hc, hs, Or.inl hdone⟩
      · simp [Busy, hftpc, Ftpc.At] at hbusy
    · cases hstep
  | resume =>
    simp only [FtpcSide.step] at hstep
    split at hstep <;> cases hstep
    exact h.resume hok ‹_› ‹_› hnodup₀
  | serve sys =>
    simp only [FtpcSide.step] at hstep
    split at hstep
    · cases hstep
    · rename_i hcalls
      split at hstep
      · cases hstep
      · rename_i htcpd
        cases hstep
        exact h.serve hok hcalls hnodup₀ hfresh htcpd
  | daemon e =>
    simp only [FtpcSide.step] at hstep
    split at hstep
    · cases hstep
    · rename_i hfront
      split at hstep
      · cases hstep
      · rename_i htcpd
        cases hstep
        have hbind : boundFds [e] = [] := by
          cases e with
          | front addr r sys => exact absurd rfl hfront
          | _ => rfl
        exact h.daemon hfront htcpd ((hok.bare.step hok.sessions htcpd hbind).2 hfront)

lemma live_start : start.Live where
  answered := by simp [start, Ftpc.frontAddr]
  begun := by simp [start]
  count := rfl

end FtpcSide

end NetworkProgramming
