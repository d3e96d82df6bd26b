import NetworkProgramming.Final.FtpcSide

/-!
# Sessions that are read piece by piece

When every intact frame carries a piece of the file of its session, and every `RECV` asks for
just the next piece, an answer is always a whole piece: no package is split and none shares an
answer with another (`AckedSock.Passes.aligned`). `Tcpd.Reads` says this of all sessions of a
daemon, together with what is known of those nobody has accepted.
-/

namespace NetworkProgramming

/-! ## One session -/

namespace AckedSock

variable {bodies : List (List UInt8)} {a a' : AckedSock}

/-- Nothing is buffered, and the request, if there is one, is for the whole body `Base`. -/
structure Aligned (bodies : List (List UInt8)) (a : AckedSock) : Prop where
  buffered : a.buffered = []
  request : a.receivingLength = 0 ∨
    ∃ body, bodies[a.base.toNat]? = some body ∧ a.request = body.length

/-- The session has no request, or not the one it had: it has answered with the body `Base`. -/
def Answers (bodies : List (List UInt8)) (a a' : AckedSock) (replies : List (List UInt8)) : Prop :=
  a.receivingLength ≠ 0 ∧ a'.receivingLength = 0 ∧ a'.base.toNat = a.base.toNat + 1 ∧
    ∃ body, bodies[a.base.toNat]? = some body ∧ replies = [body]

/-- A pass over an aligned session answers with a whole body, or does nothing. -/
lemma Passes.aligned {taken : List TrollMessageStruct} {replies : List (List UInt8)}
    (hp : a.Passes taken a' replies) (hq : a.QueueOk (CarriesBody bodies)) (h : a.Aligned bodies)
    (hfew : bodies.length < 2 ^ 32) :
    a'.Aligned bodies ∧
      ((a'.receivingLength = a.receivingLength ∧ a'.base = a.base ∧ replies = []) ∨
        Answers bodies a a' replies) := by
  have hbusy : a.receivingLength ≠ 0 := by
    intro hzero
    have hpending := hp.pending
    rw [AckedSock.request, hzero] at hpending
    exact absurd hpending (by decide)
  obtain ⟨body, hbody, hlen⟩ := h.request.resolve_left hbusy
  -- the first package that is taken answers the request, so there are two cases only
  cases taken with
  | nil =>
    have hpoured : a.poured [] = [] := h.buffered
    have hbase : a'.base = a.base := by simp [hp.base]
    rcases hp.outcome with ⟨-, hnone, hbuf, hreq, -⟩ | ⟨hfull, -⟩
    · refine ⟨⟨hbuf.trans hpoured, Or.inr ⟨body, by rw [hbase]; exact hbody, ?_⟩⟩,
        Or.inl ⟨hreq, hbase, hnone⟩⟩
      rw [AckedSock.request, hreq]
      exact hlen
    · rw [hpoured] at hfull
      exact absurd hp.pending (by rw [← hfull]; simp)
  | cons m rest =>
    have hmem : m ∈ a.packages := by
      rw [hp.packages]
      simp
    have hcarries := (hq.all m hmem).2
    rw [hp.consecutive.1, hbody] at hcarries
    have hdata : m.data = body := (Option.some.inj hcarries).symm
    have hpour : pour a.request a.buffered m.data = body := by
      rw [h.buffered, hdata, pour, lastPiece_of_le (by simp [hlen])]
      rfl
    -- the body fills the request, so the pass takes no other package
    have hrest : rest = [] := by
      cases rest with
      | nil => rfl
      | cons m' rest =>
        have hroom : (pour a.request a.buffered m.data).length < a.request := hp.roomy.2.1
        rw [hpour, hlen] at hroom
        exact absurd hroom (lt_irrefl _)
    subst hrest
    have hpoured : a.poured [m] = body := hpour
    have hlt : a.base.toNat < bodies.length := (List.getElem?_eq_some_iff.mp hbody).1
    have hbase : a'.base.toNat = a.base.toNat + 1 := by
      rw [hp.base]
      show (a.base + 1).toNat = _
      rw [UInt32.toNat_add, UInt32.toNat_one, Nat.mod_eq_of_lt (by omega)]
    rcases hp.outcome with ⟨hless, -⟩ | ⟨-, hreplies, hbuf, hdone⟩
    · rw [hpoured, hlen] at hless
      exact absurd hless (lt_irrefl _)
    · refine ⟨⟨hbuf, Or.inl hdone⟩, Or.inr ⟨hbusy, hdone, hbase, body, hbody, ?_⟩⟩
      rw [hreplies, hpoured]

end AckedSock

/-- What a step that is not a call does to an aligned session. -/
lemma SessStep.aligned {s : UInt32} {accepted : Prop} {e : Event} {replies : List (List UInt8)}
    {bodies : List (List UInt8)} {a : AckedSock} {x' : Option AckedSock}
    (h : SessStep s accepted (some a) e x' replies) (hfront : ¬ e.isFront)
    (hframe : ∀ fd m remote, e = .data fd m remote → m.Valid → m.session = s →
      CarriesBody bodies m)
    (hq : a.QueueOk (CarriesBody bodies)) (ha : a.Aligned bodies) (hfew : bodies.length < 2 ^ 32) :
    ∃ a', x' = some a' ∧ a'.QueueOk (CarriesBody bodies) ∧ a'.Aligned bodies ∧
      ((a'.receivingLength = a.receivingLength ∧ a'.base = a.base ∧ replies = []) ∨
        AckedSock.Answers bodies a a' replies) := by
  have hqueue := h.queueOk hframe (by rintro _ ⟨⟩; exact hq)
  cases h with
  | arrive hvalid hs =>
    refine ⟨_, rfl, hqueue _ rfl, ?_, Or.inl ⟨?_, ?_, rfl⟩⟩
    · rw [Option.getD_some, AckedSock.place_eq]
      exact ⟨ha.buffered, ha.request⟩
    · rw [Option.getD_some, AckedSock.place_eq]
    · rw [Option.getD_some, AckedSock.place_eq]
  | request => exact absurd rfl hfront
  | pass hacc hp =>
    obtain ⟨haligned, hcases⟩ := hp.aligned hq ha hfew
    exact ⟨_, rfl, hqueue _ rfl, haligned, hcases⟩
  | other => exact ⟨a, rfl, hq, ha, Or.inl ⟨rfl, rfl, rfl⟩⟩

/-- What a step that is not a call does to a session that has no entry. -/
lemma SessStep.absent {s : UInt32} {accepted : Prop} {e : Event} {replies : List (List UInt8)}
    {x' : Option AckedSock} (h : SessStep s accepted none e x' replies) :
    replies = [] ∧ (x' = none ∨ ∃ a' fd m remote, x' = some a' ∧ e = .data fd m remote ∧ m.Valid ∧
      m.session = s ∧ a'.receivingLength = 0 ∧ a'.buffered = [] ∧ a'.base = 0) := by
  cases h with
  | arrive hvalid hs =>
    refine ⟨rfl, Or.inr ⟨_, _, _, _, rfl, rfl, hvalid, hs, ?_, ?_, ?_⟩⟩
    · rw [Option.getD_none, AckedSock.place_eq]
      rfl
    · rw [Option.getD_none, AckedSock.place_eq]
      rfl
    · rw [Option.getD_none, AckedSock.place_eq]
      rfl
  | other => exact ⟨rfl, Or.inl rfl⟩

/-! ## All sessions -/

/-- The frame that arrives, if it is intact, carries a piece of the file of its session. -/
def Framed (transfers : List (UInt32 × FtpJob)) (e : Event) : Prop :=
  ∀ fd m remote, e = .data fd m remote → m.Valid →
    ∃ job, (m.session, job) ∈ transfers ∧ CarriesBody job.pieces m

/-- The entry of a session is read piece by piece, and has answered with the pieces before
`Base`. -/
def AckedSock.ReadOf (transfers : List (UInt32 × FtpJob)) (s : UInt32) (outs : List Out)
    (a : AckedSock) : Prop :=
  ∃ job, (s, job) ∈ transfers ∧ a.QueueOk (CarriesBody job.pieces) ∧ a.Aligned job.pieces ∧
    repliesTo s outs = job.pieces.take a.base.toNat

/-- What holds of the sessions: they belong to transfers, and nothing is read of one before it
is accepted. -/
structure Tcpd.Reads (transfers : List (UInt32 × FtpJob)) (outs : List Out) (t : Tcpd) : Prop where
  ok : t.SessionsOk
  present : ∀ s a, t.sess s = some a → a.ReadOf transfers s outs
  absent : ∀ s, t.sess s = none → repliesTo s outs = []
  waiting : ∀ s a, t.sess s = some a → ¬ t.Accepted s → a.base = 0 ∧ a.receivingLength = 0

section Sessions

variable {transfers : List (UInt32 × FtpJob)} {outs os : List Out} {t t' : Tcpd} {e : Event}

/-- The entry of a session after a step that is not a call. -/
lemma Tcpd.Reads.sess_daemon (h : t.Reads transfers outs) (hstep : t.step e = .ok (t', os))
    (hfront : ¬ e.isFront) (hframed : Framed transfers e)
    (hnodup : (transfers.map Prod.fst).Nodup) {s : UInt32} {a : AckedSock}
    (ha : t.sess s = some a) :
    ∃ a', t'.sess s = some a' ∧ a'.ReadOf transfers s (outs ++ os) ∧
      ((a'.receivingLength = a.receivingLength ∧ a'.base = a.base ∧ repliesTo s os = []) ∨
        ∃ job, (s, job) ∈ transfers ∧ AckedSock.Answers job.pieces a a' (repliesTo s os)) := by
  obtain ⟨job, hjob, hq, haligned, hreplies⟩ := h.present s a ha
  have hsess := sess_step h.ok hstep s
  rw [ha] at hsess
  have hframe : ∀ fd m remote, e = .data fd m remote → m.Valid → m.session = s →
      CarriesBody job.pieces m := by
    intro fd m remote he hvalid hs
    obtain ⟨job', hjob', hcarries⟩ := hframed fd m remote he hvalid
    rw [hs] at hjob'
    rw [FtpcSide.job_unique hnodup hjob hjob']
    exact hcarries
  have hfew := job.length_pieces_lt
  -- the frame of this session, if one arrives, carries a piece of the same file
  obtain ⟨a', ha', hq', haligned', hcases⟩ :=
    hsess.aligned hfront hframe hq haligned (by omega)
  refine ⟨a', ha', ⟨job, hjob, hq', haligned', ?_⟩, hcases.imp_right fun hans => ⟨job, hjob, hans⟩⟩
  rw [repliesTo_append, hreplies]
  rcases hcases with ⟨-, hbase, hnone⟩ | ⟨-, -, hbase, body, hbody, hone⟩
  · rw [hbase, hnone, List.append_nil]
  · rw [hbase, hone, List.take_add_one, hbody]
    rfl

/-- A session that has had no entry before a step that is not a call. -/
lemma Tcpd.Reads.absent_daemon (h : t.Reads transfers outs) (hstep : t.step e = .ok (t', os))
    (hframed : Framed transfers e) {s : UInt32} (hs : t.sess s = none) :
    repliesTo s os = [] ∧ ∀ a', t'.sess s = some a' → a'.ReadOf transfers s (outs ++ os) ∧
      a'.base = 0 ∧ a'.receivingLength = 0 := by
  have hsess := sess_step h.ok hstep s
  have hqueue : ∀ job : FtpJob, (∀ fd m remote, e = .data fd m remote → m.Valid → m.session = s →
      CarriesBody job.pieces m) → ∀ a', t'.sess s = some a' →
        a'.QueueOk (CarriesBody job.pieces) := by
    intro job hcarry
    exact hsess.queueOk hcarry (by rw [hs]; rintro _ ⟨⟩)
  rw [hs] at hsess
  obtain ⟨hnone, hcases⟩ := hsess.absent
  refine ⟨hnone, fun a' ha' => ?_⟩
  rcases hcases with hx' | ⟨a'', fd, m, remote, ha'', rfl, hvalid, hms, hidle, hbuf, hbase⟩
  · rw [ha'] at hx'
    cases hx'
  · rw [ha'] at ha''
    cases ha''
    obtain ⟨job, hjob, hcarries⟩ := hframed fd m remote rfl hvalid
    rw [hms] at hjob
    refine ⟨⟨job, hjob, hqueue job ?_ a' ha', ⟨hbuf, Or.inl hidle⟩, ?_⟩, hbase, hidle⟩
    · rintro fd' m' remote' ⟨⟩ - -
      exact hcarries
    · rw [repliesTo_append, h.absent s hs, hnone, hbase]
      rfl

/-- A step that is not a call keeps the sessions. -/
lemma Tcpd.Reads.daemon (h : t.Reads transfers outs) (hstep : t.step e = .ok (t', os))
    (hfront : ¬ e.isFront) (hframed : Framed transfers e)
    (hnodup : (transfers.map Prod.fst).Nodup) : t'.Reads transfers (outs ++ os) := by
  refine ⟨sessionsOk_step h.ok hstep, fun s a' ha' => ?_, fun s hs' => ?_, fun s a' ha' hacc => ?_⟩
  · cases hs : t.sess s with
    | none => exact ((h.absent_daemon hstep hframed hs).2 a' ha').1
    | some a =>
      obtain ⟨a'', ha'', hread, -⟩ := h.sess_daemon hstep hfront hframed hnodup hs
      rw [ha'] at ha''
      cases ha''
      exact hread
  · cases hs : t.sess s with
    | none =>
      rw [repliesTo_append, h.absent s hs, (h.absent_daemon hstep hframed hs).1]
      rfl
    | some a =>
      obtain ⟨a', ha', -⟩ := h.sess_daemon hstep hfront hframed hnodup hs
      rw [hs'] at ha'
      cases ha'
  · cases hs : t.sess s with
    | none => exact ((h.absent_daemon hstep hframed hs).2 a' ha').2
    | some a =>
      obtain ⟨hbase, hidle⟩ := h.waiting s a hs fun hold => hacc (accepted_step h.ok hstep hold)
      obtain ⟨a'', ha'', -, ⟨hreq, hb, -⟩ | ⟨job, -, hbusy, -⟩⟩ :=
        h.sess_daemon hstep hfront hframed hnodup hs
      · rw [ha'] at ha''
        cases ha''
        exact ⟨hb.trans hbase, hreq.trans hidle⟩
      · exact absurd hidle hbusy

/-- A step that is not a call changes the bound sockets and the accepted sessions only in
`handle_ack_back`. -/
lemma lobby_daemon (hok : t.SessionsOk) (hstep : t.step e = .ok (t', os)) (hfront : ¬ e.isFront)
    (hackBack : e ≠ .ackBack) :
    t'.bindedSockets = t.bindedSockets ∧ ∀ s, t'.Accepted s ↔ t.Accepted s := by
  cases lobby_step hok hstep with
  | frame _ hbound _ hacc _ => exact ⟨hbound, hacc⟩
  | bind _ _ => exact absurd rfl hfront
  | accept _ => exact absurd rfl hfront
  | handOver => exact absurd rfl hackBack
  | other _ _ _ hbound hcalm => exact ⟨hbound, hcalm.accepted⟩

/-- Nobody waits for a session. -/
def Tcpd.NobodyAccepts (t : Tcpd) : Prop := ∀ b ∈ t.bindedSockets, ¬ b.accepting

/-- Then `handle_ack_back` does nothing. -/
lemma handleAckBack_of_nobodyAccepts (h : t.NobodyAccepts) : handleAckBack t = (t, []) := by
  have hnone : ∀ (acked : HashTable UInt32 AckedSock) (waiting : List AckedSock)
      (bs : List BindedSock), (∀ b ∈ bs, ¬ b.accepting) →
        handOver acked waiting bs = (bs, acked, waiting, []) := by
    intro acked waiting bs hbs
    induction bs with
    | nil => rfl
    | cons b bs ih =>
      rw [handOver, if_neg (hbs b List.mem_cons_self),
        ih fun b' hb' => hbs b' (List.mem_cons_of_mem _ hb')]
  rw [handleAckBack_eq, hnone _ _ _ h]

/-- The answers of a step that is not a call and hands over no session are those to `RECV`. -/
lemma answersTo_sublist (hstep : t.step e = .ok (t', os)) (hok : t.SessionsOk)
    (hfront : ¬ e.isFront) (hackBack : e ≠ .ackBack) {s : UInt32}
    (hothers : ∀ s', s' ≠ s → repliesTo s' os = []) (addr : SockaddrIn) :
    (answersTo addr os).Sublist (repliesTo s os) := by
  by_cases hrecvBack : e = .recvBack
  · subst hrecvBack
    -- only session `s` is answered, so all that is sent are its answers
    have hdata : ∀ o ∈ os, ∃ addr bytes, o = .data addr s bytes := by
      intro o ho
      obtain ⟨a, bytes, -, -, rfl⟩ := out_of_recvPass hok hstep ho
      by_cases hs : a.session = s
      · exact ⟨_, bytes, by rw [hs]⟩
      · have hin : bytes ∈ repliesTo a.session os := List.mem_filterMap.mpr ⟨_, ho, by simp⟩
        rw [hothers _ hs] at hin
        cases hin
    clear hstep hothers
    induction os with
    | nil => exact List.Sublist.refl _
    | cons o os ih =>
      obtain ⟨addr', bytes, rfl⟩ := hdata o List.mem_cons_self
      have hrest := ih fun o' ho' => hdata o' (List.mem_cons_of_mem _ ho')
      by_cases haddr : addr' = addr
      · simpa [answersTo, repliesTo, Out.answer, haddr] using hrest
      · have hskip : answersTo addr (.data addr' s bytes :: os) = answersTo addr os := by
          simp [answersTo, Out.answer, haddr]
        have htake : repliesTo s (.data addr' s bytes :: os) = bytes :: repliesTo s os := by
          simp [repliesTo]
        rw [hskip, htake]
        exact hrest.cons _
  · rw [answersTo_of_none (answer_of_step hstep hfront hackBack hrecvBack)]
    exact List.nil_sublist _

/-- Session `s` has no request. -/
def Tcpd.IdleAt (t : Tcpd) (s : UInt32) : Prop := ∀ a, t.sess s = some a → a.receivingLength = 0

/-- No session has a request and nobody waits for a session. -/
structure Tcpd.Rests (t : Tcpd) : Prop where
  few : t.bindedSockets.length ≤ 1
  nobody : t.NobodyAccepts
  idle : ∀ s, t.IdleAt s

/-- A session without a request stays so in a step that is not a call. -/
lemma Tcpd.Reads.idleAt_daemon (h : t.Reads transfers outs) (hstep : t.step e = .ok (t', os))
    (hfront : ¬ e.isFront) (hframed : Framed transfers e)
    (hnodup : (transfers.map Prod.fst).Nodup) {s : UInt32} (hidle : t.IdleAt s) :
    t'.IdleAt s ∧ repliesTo s os = [] ∧
      ∀ a, t.sess s = some a → ∃ a', t'.sess s = some a' ∧ a'.base = a.base := by
  cases hs : t.sess s with
  | none =>
    obtain ⟨hnone, hnew⟩ := h.absent_daemon hstep hframed hs
    exact ⟨fun a' ha' => (hnew a' ha').2.2, hnone, by rintro _ ⟨⟩⟩
  | some a =>
    obtain ⟨a', ha', -, ⟨hreq, hbase, hnone⟩ | ⟨job, -, hbusy, -⟩⟩ :=
      h.sess_daemon hstep hfront hframed hnodup hs
    · refine ⟨fun a'' ha'' => ?_, hnone, ?_⟩
      · rw [ha'] at ha''
        cases ha''
        exact hreq.trans (hidle a hs)
      · rintro _ ⟨⟩
        exact ⟨a', ha', hbase⟩
    · exact absurd (hidle a hs) hbusy

/-- While nobody waits for a session, a step that is not a call accepts none, and the answers are
those to `RECV`. -/
lemma Tcpd.Reads.nobody_daemon (h : t.Reads transfers outs) (hstep : t.step e = .ok (t', os))
    (hfront : ¬ e.isFront) (hnobody : t.NobodyAccepts) :
    t'.bindedSockets = t.bindedSockets ∧ (∀ s, t'.Accepted s ↔ t.Accepted s) ∧
      ∀ s, (∀ s', s' ≠ s → repliesTo s' os = []) →
        ∀ addr, (answersTo addr os).Sublist (repliesTo s os) := by
  by_cases hackBack : e = .ackBack
  · subst hackBack
    have hsame : handleAckBack t = (t', os) := Except.ok.inj hstep
    rw [handleAckBack_of_nobodyAccepts hnobody] at hsame
    cases hsame
    exact ⟨rfl, fun _ => Iff.rfl, fun _ _ _ => List.nil_sublist _⟩
  · obtain ⟨hbound, hacc⟩ := lobby_daemon h.ok hstep hfront hackBack
    exact ⟨hbound, hacc, fun s hothers =>
      answersTo_sublist hstep h.ok hfront hackBack hothers⟩

/-- A daemon that rests goes on resting, and answers nobody. -/
lemma Tcpd.Reads.rests_daemon (h : t.Reads transfers outs) (hstep : t.step e = .ok (t', os))
    (hfront : ¬ e.isFront) (hframed : Framed transfers e)
    (hnodup : (transfers.map Prod.fst).Nodup) (hrest : t.Rests) :
    t'.Rests ∧ t'.bindedSockets = t.bindedSockets ∧ ∀ addr, answersTo addr os = [] := by
  have hidle : ∀ s, t'.IdleAt s ∧ repliesTo s os = [] := fun s =>
    have hs := h.idleAt_daemon hstep hfront hframed hnodup (hrest.idle s)
    ⟨hs.1, hs.2.1⟩
  obtain ⟨hbound, -, hanswers⟩ := h.nobody_daemon hstep hfront hrest.nobody
  refine ⟨⟨by rw [hbound]; exact hrest.few, ?_, fun s => (hidle s).1⟩, hbound, fun addr => ?_⟩
  · rw [Tcpd.NobodyAccepts, hbound]
    exact hrest.nobody
  · have hsub := hanswers 0 (fun s _ => (hidle s).2) addr
    rw [(hidle 0).2] at hsub
    exact List.sublist_nil.mp hsub

/-- A call other than `RECV` keeps the sessions. -/
lemma Tcpd.Reads.call (h : t.Reads transfers outs) {addr : SockaddrIn} {r : Request} {sys : Sys}
    (hr : ∀ fd len, r ≠ .RECV fd len) (hstep : t.step (.front addr r sys) = .ok (t', os)) :
    t'.Reads transfers (outs ++ os) ∧ SameSessions t t' := by
  have hrecv : ∀ addr' fd len sys', Event.front addr r sys ≠ .front addr' (.RECV fd len) sys' := by
    intro addr' fd len sys' he
    cases he
    exact hr fd len rfl
  obtain ⟨hsame, hquiet⟩ :=
    sameSessions_of_step hstep (by simp) hrecv (by simp) (by simp) (by simp)
  have houts : ∀ s, repliesTo s (outs ++ os) = repliesTo s outs := fun s => by
    rw [repliesTo_append, repliesTo_of_noReply (hquiet s), List.append_nil]
  refine ⟨⟨sessionsOk_step h.ok hstep, fun s a ha => ?_, fun s hs => ?_, fun s a ha hacc => ?_⟩,
    hsame⟩
  · rw [hsame.sess_eq] at ha
    obtain ⟨job, hjob, hq, haligned, hreplies⟩ := h.present s a ha
    exact ⟨job, hjob, hq, haligned, (houts s).trans hreplies⟩
  · rw [hsame.sess_eq] at hs
    exact (houts s).trans (h.absent s hs)
  · rw [hsame.sess_eq] at ha
    rw [Tcpd.Accepted, hsame.1] at hacc
    exact h.waiting s a ha hacc

/-- `RECV` on an accepted session without a request is recorded there. -/
lemma step_recvCall {a : AckedSock} {addr : SockaddrIn} {fd : Int32} {len : UInt64} {sys : Sys}
    (ha : t.ackedSockets.lookup fd.toUInt32 = some a) (hidle : a.receivingLength = 0)
    (hlen : len ≠ 0) (h : t.step (.front addr (Call.RECV fd len).request sys) = .ok (t', os)) :
    os = [] ∧ t' = { t with
      ackedSockets := t.ackedSockets.insert fd.toUInt32
        { a with receivingLength := len, receivingAddr := addr } } := by
  rw [Call.request] at h
  cases tcpd_step h with
  | recvRefused hrefused =>
    rcases hrefused with hnone | hzero | ⟨a', ha', hbusy⟩
    · rw [ha] at hnone
      cases hnone
    · exact absurd hzero hlen
    · rw [ha] at ha'
      cases ha'
      exact absurd hidle hbusy
  | recv _ ha' _ =>
    rw [ha] at ha'
    cases ha'
    exact ⟨rfl, rfl⟩

/-- `RECV` for the next piece. -/
lemma Tcpd.Reads.recv (h : t.Reads transfers outs) {job : FtpJob} {fd : Int32} {len : UInt64}
    {addr : SockaddrIn} {sys : Sys} {a : AckedSock} {piece : List UInt8}
    (hnodup : (transfers.map Prod.fst).Nodup) (hjob : (fd.toUInt32, job) ∈ transfers)
    (hacc : t.Accepted fd.toUInt32) (ha : t.sess fd.toUInt32 = some a)
    (hidle : a.receivingLength = 0) (hpiece : job.pieces[a.base.toNat]? = some piece)
    (hlen : len.toNat = piece.length)
    (hstep : t.step (.front addr (Call.RECV fd len).request sys) = .ok (t', os)) :
    t'.Reads transfers (outs ++ os) ∧ os = [] ∧ t'.bindedSockets = t.bindedSockets ∧
      (∀ s, t'.Accepted s ↔ t.Accepted s) ∧ (∀ s, s ≠ fd.toUInt32 → t'.sess s = t.sess s) ∧
      ∃ a', t'.sess fd.toUInt32 = some a' ∧ a'.base = a.base ∧ a'.receivingLength ≠ 0 := by
  have hne : len ≠ 0 := by
    rintro rfl
    have hpos := (FtpJob.mem_pieces (List.mem_of_getElem? hpiece)).1
    rw [← hlen] at hpos
    exact absurd hpos (by decide)
  obtain ⟨rfl, ht'⟩ := step_recvCall (lookup_of_accepted hacc ha) hidle hne hstep
  have hself : t'.sess fd.toUInt32
      = some { a with receivingLength := len, receivingAddr := addr } :=
    sess_insert_self (t := t) (by rw [ht'])
  have hothers : ∀ s, s ≠ fd.toUInt32 → t'.sess s = t.sess s := fun s hs =>
    sess_insert_ne (t := t) (by rw [ht']) (by rw [ht']) hs
  have haccepted : ∀ s, t'.Accepted s ↔ t.Accepted s :=
    accepted_insert (lookup_of_accepted hacc ha) (by rw [ht'])
  rw [List.append_nil]
  refine ⟨⟨sessionsOk_step h.ok hstep, fun s b hb => ?_, fun s hs => ?_, fun s b hb hnot => ?_⟩,
    rfl, by rw [ht'], haccepted, hothers, _, hself, rfl, hne⟩
  · by_cases hs : s = fd.toUInt32
    · subst hs
      rw [hself] at hb
      cases hb
      obtain ⟨job', hjob', hq, haligned, hreplies⟩ := h.present _ a ha
      obtain rfl := FtpcSide.job_unique hnodup hjob hjob'
      exact ⟨job, hjob, ⟨hq.sorted, hq.ahead, hq.all⟩,
        ⟨haligned.buffered, Or.inr ⟨piece, hpiece, hlen⟩⟩, hreplies⟩
    · rw [hothers s hs] at hb
      exact h.present s b hb
  · by_cases hfd : s = fd.toUInt32
    · rw [hfd, hself] at hs
      cases hs
    · rw [hothers s hfd] at hs
      exact h.absent s hs
  · have hs : s ≠ fd.toUInt32 := by
      rintro rfl
      exact hnot ((haccepted _).mpr hacc)
    rw [hothers s hs] at hb
    exact h.waiting s b hb fun hold => hnot ((haccepted s).mpr hold)

/-- With one bound socket at most, `handle_ack_back` does nothing or hands one session over, and
nobody waits for a session afterwards. -/
lemma handleAckBack_cases (hok : t.SessionsOk) (hfew : t.bindedSockets.length ≤ 1) :
    handleAckBack t = (t, []) ∨ ∃ addr fd a, t.sess a.session = some a ∧ ¬ t.Accepted a.session ∧
      (handleAckBack t).2 = [.accepted addr fd a.session] ∧
      (handleAckBack t).1.Accepted a.session ∧ (handleAckBack t).1.NobodyAccepts ∧
      (handleAckBack t).1.bindedSockets.length ≤ 1 := by
  rw [handleAckBack_eq]
  -- the loop runs over at most one socket
  match hbound : t.bindedSockets with
  | [] =>
    left
    cases t
    cases hbound
    rfl
  | [b] =>
    by_cases hfound : ∃ a, (if b.accepting then
        t.waitingAckSockets.find? (·.socketFD = b.socketFD) else none) = some a
    · obtain ⟨a, ha⟩ := hfound
      right
      have hmem : a ∈ t.waitingAckSockets :=
        List.mem_of_find?_eq_some (Option.ite_none_right_eq_some.mp ha).2
      have hfresh := hok.one.fresh a hmem
      refine ⟨b.acceptingAddr, b.socketFD, a, ?_, ?_, ?_, ?_, ?_, ?_⟩
      · rw [sess_of_lookup_none hfresh]
        exact find?_session hok.one.nodup hmem
      · rw [Tcpd.Accepted, hfresh]
        simp
      · simp [handOver, ha]
      · simp [handOver, ha, Tcpd.Accepted]
      · simp [handOver, ha, Tcpd.NobodyAccepts]
      · simp [handOver, ha]
    · left
      have hnone := Option.eq_none_iff_forall_ne_some.mpr (not_exists.mp hfound)
      cases t
      cases hbound
      simp only [handOver, hnone]
  | b :: b' :: bs =>
    rw [hbound, List.length_cons, List.length_cons] at hfew
    omega

end Sessions

end NetworkProgramming
