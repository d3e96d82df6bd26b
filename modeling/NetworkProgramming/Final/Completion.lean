import NetworkProgramming.Final.MainLoop
import NetworkProgramming.Final.TimedWorld

/-!
# Every transfer can be completed

Whatever has been lost, a transfer that has begun is never beyond help. The timers of the sending
daemon run out, all packages are sent once more (`Timed.exists_resent`), and one after the other
gets through (`exists_drained`). When the daemon of `ftpc` holds nothing it listens again, and
`ftpc` goes on to the end of its file (`exists_said`). When all pieces have arrived, `ftps` reads
one file after the other (`exists_read`). All of it happens in whole turns of the loops.
-/

namespace NetworkProgramming

open Machine

/-! ## Losing what is in flight -/

/-- The datagram goes from one daemon to the other. -/
def Out.inFlight : Out → Bool
  | .frame _ _ => true
  | .ack _ _ => true
  | _ => false

/-- What is left when the network loses all that is in flight but what `keep` picks. -/
def leftOf (keep : Out → Bool) (os : List Out) : List Out :=
  os.filter fun o => !o.inFlight || keep o

/-- No answer is lost. -/
lemma repliesTo_leftOf (keep : Out → Bool) (s : UInt32) (os : List Out) :
    repliesTo s (leftOf keep os) = repliesTo s os := by
  rw [repliesTo, leftOf, List.filterMap_filter, repliesTo]
  refine List.filterMap_congr fun o _ => ?_
  cases o with
  | frame _ _ => simp
  | ack _ _ => simp
  | _ => rfl

namespace World

variable {w : World}

/-- The network has lost all that is in flight but what `keep` picks. -/
def lose (keep : Out → Bool) (w : World) : World where
  client := { w.client with outs := leftOf keep w.client.outs }
  server := { w.server with outs := leftOf keep w.server.outs }

lemma Live.lose (h : w.Live) (keep : Out → Bool) : (w.lose keep).Live where
  nodup := h.nodup
  rand := h.rand
  clientOk :=
    have hok := h.clientOk
    { hok with
      conns := fun fd c hc => (hok.conns fd c hc).mono (fun _ hy => hy) rfl
      frames := fun m hm => by
        obtain ⟨fd, hframe⟩ := mem_framesOf.mp hm
        exact hok.frames m (mem_framesOf.mpr ⟨fd, List.mem_of_mem_filter hframe⟩)
      stage := hok.stage.congr rfl rfl rfl fun _ _ _ hconn => hconn }
  serverOk := by
    obtain ⟨⟨hreads, hunasked, hasked, hclosed, honce⟩, hstage⟩ := h.serverOk
    refine ⟨⟨⟨hreads.ok, fun s a ha => ?_, fun s hs => ?_, hreads.waiting⟩, hunasked, hasked,
      hclosed, honce⟩, ?_⟩
    · obtain ⟨job, hjob, hq, haligned, hreplies⟩ := hreads.present s a ha
      exact ⟨job, hjob, hq, haligned, (repliesTo_leftOf keep s _).trans hreplies⟩
    · exact (repliesTo_leftOf keep s _).trans (hreads.absent s hs)
    · have hreading : ∀ s job k j, w.server.Reading w.client.transfers s job k j →
          (w.lose keep).server.Reading w.client.transfers s job k j :=
        fun s job k j hr => hr.congr (fun _ hy => hy) rfl rfl id fun a ha => ⟨a, ha, rfl⟩
      cases hstage with
      | rests hrest hplace => exact .rests hrest (hplace.congr rfl rfl rfl rfl rfl hreading)
      | acceptPending sock h₁ h₂ h₃ h₄ h₅ => exact .acceptPending sock h₁ h₂ h₃ h₄ h₅
      | recvPending s job j piece h₁ h₂ h₃ h₄ h₅ h₆ h₇ h₈ =>
        exact .recvPending s job j piece h₁ h₂ h₃ h₄ (hreading _ _ _ _ h₅) h₆ h₇ h₈
      | exited h₁ h₂ => exact .exited h₁ h₂
  client := ⟨h.client.answered, h.client.begun, h.client.count⟩
  server :=
    have hserver := h.server
    { hserver with
      owed := fun hcalls => by
        cases hserver.owed hcalls with
        | answer hne => exact .answer hne
        | session b hb hacc haddr => exact .session b hb hacc haddr
        | piece s a ha hbusy haddr => exact .piece s a ha hbusy haddr }
  acks := fun a ha => by
    obtain ⟨fd, hack⟩ := mem_acksOf.mp ha
    exact h.acks a (mem_acksOf.mpr ⟨fd, List.mem_of_mem_filter hack⟩)
  kept := h.kept

end World

namespace TimedWorld

variable {w w' : TimedWorld} {os : List Out}

/-- The network has lost all that is in flight but what `keep` picks. The timers are as before. -/
def lose (keep : Out → Bool) (w : TimedWorld) : TimedWorld :=
  { w with toWorld := w.toWorld.lose keep }

lemma Live.lose (h : w.Live) (keep : Out → Bool) : (w.lose keep).Live :=
  ⟨h.world.lose keep, h.sound, h.fits⟩

/-! ## Going on -/

/-- A step on the side of `ftpc` that begins no transfer. -/
lemma Live.client_step (h : w.Live) {e : FtpcEvent} {x : FtpcSide}
    (hne : ∀ y, e ≠ .daemon (.timer y)) (hmay : w.clientMay e = true)
    (hstep : w.client.step e = .ok (x, os)) (hsame : x.transfers = w.client.transfers)
    (hfresh : w.Fresh (.side (.client e))) :
    w.step (.side (.client e))
        = .ok ({ w with client := x, requests := w.requests ++ timersOf os }, os) ∧
      Live { w with client := x, requests := w.requests ++ timersOf os } := by
  have hkind := WorldEvent.isExpiry_client hne
  have hworld : w.step (.side (.client e))
      = .ok ({ w with client := x, requests := w.requests ++ timersOf os }, os) := by
    simp only [TimedWorld.step, hkind, Bool.false_eq_true, if_false, World.step_client hmay hstep]
    rfl
  refine ⟨hworld, h.step hworld ?_ ?_ hfresh⟩
  · show (x.transfers.map Prod.fst).Nodup
    rw [hsame]
    exact h.world.nodup
  · show ∀ s ∈ x.transfers.map Prod.fst, _
    rw [hsame]
    exact h.world.rand

/-- A step on the side of `ftps`. -/
lemma Live.server_step (h : w.Live) {e : FtpsEvent} {x : FtpsSide}
    (hne : ∀ y, e ≠ .daemon (.timer y)) (hmay : w.serverMay e = true)
    (hstep : w.server.step e = .ok (x, os)) :
    w.step (.side (.server e)) = .ok ({ w with server := x }, os) ∧
      Live { w with server := x } := by
  have hkind := WorldEvent.isExpiry_server hne
  have hworld : w.step (.side (.server e)) = .ok ({ w with server := x }, os) := by
    simp only [TimedWorld.step, hkind, Bool.false_eq_true, if_false, World.step_server hmay hstep,
      WorldEvent.requests, List.append_nil]
  exact ⟨hworld, h.step hworld h.world.nodup h.world.rand (fresh_of_ne (by simp) (by simp) w)⟩

/-- The passes of the daemon of `ftpc`. -/
lemma Live.exists_clientBack (h : w.Live) (clock : ℕ → Timeval) :
    ∃ t os, machine.exec w (clientBack clock) = .ok (w.withTimed t os, os) ∧
      (w.withTimed t os).Live ∧ BackPass w.client.tcpd t.tcpd os := by
  have hmay : w.client.tcpd.MayPass true := fun _ => ⟨h.world.clientOk.sessions, h.fits⟩
  obtain ⟨t, os, hexec, -, hpass⟩ := exists_backPass hmay clock
  have htimed := Timed.exec_tcpd (s := w.timed) hexec fun y hy => by
    rcases mem_backEvents.mp hy with hy | ⟨-, hy⟩ | hy <;> cases hy
  have hworld := exec_timed htimed fun e he e' he' => by
    obtain ⟨e₀, he₀, rfl⟩ := List.mem_map.mp he
    cases he'
    rcases mem_backEvents.mp he₀ with rfl | ⟨-, rfl⟩ | rfl <;> exact ⟨rfl, rfl⟩
  rw [List.map_map] at hworld
  refine ⟨_, os, hworld, h.exec hworld (machine.along_of_forall fun e he v => ?_) h.world.nodup
    h.world.rand, hpass⟩
  obtain ⟨e₀, he₀, rfl⟩ := List.mem_map.mp he
  exact fresh_back he₀ v

end TimedWorld

/-! ## The daemon of `ftps` answers -/

/-- The daemon of `ftps` serves whatever `ftps` calls. -/
lemma Tcpd.NeverSends.exists_serve {t : Tcpd} (h : t.NeverSends) (addr : SockaddrIn) {c : Call}
    (hc : ∀ sock b, c ≠ .SEND sock b) :
    ∃ t' os, t.step (.front addr c.request calmSys) = .ok (t', os) := by
  have hroom : t.inBufferPackages < MAX_BUFFER_PACKAGES := by
    rw [h.count]
    decide
  rw [Tcpd.step, if_pos hroom]
  cases c with
  | SEND sock b => exact absurd rfl (hc sock b)
  | _ => exact ⟨_, _, rfl⟩

namespace FtpsSide

variable {transfers : List (UInt32 × FtpJob)} {x x' x'' : FtpsSide} {os : List Out}

/-- A call on its way is the only one, and no `SEND`. -/
lemma Ok.call (h : x.Ok transfers) (hcalls : x.calls ≠ []) :
    ∃ c, x.calls = [(x.frontAddr, c)] ∧ ∀ sock b, c ≠ .SEND sock b := by
  cases h.stage with
  | acceptPending _ _ hnone _ _ _ => exact absurd hnone hcalls
  | recvPending _ _ _ _ _ _ hnone _ _ _ _ _ => exact absurd hnone hcalls
  | exited _ hnone => exact absurd hnone hcalls
  | rests _ hplace =>
    cases hplace with
    | socketServed _ _ hnone _ _ => exact absurd hnone hcalls
    | bindServed _ _ hnone _ => exact absurd hnone hcalls
    | acceptServed _ _ hnone _ _ => exact absurd hnone hcalls
    | recvServed _ _ _ _ _ _ hnone _ _ => exact absurd hnone hcalls
    | socketCalled _ _ hcall _ _ => exact ⟨_, hcall, by simp⟩
    | bindCalled _ _ _ hcall _ _ => exact ⟨_, hcall, by simp⟩
    | acceptCalled _ _ hcall _ => exact ⟨_, hcall, by simp⟩
    | recvCalled _ _ _ _ _ _ _ _ _ _ hcall _ _ => exact ⟨_, hcall, by simp⟩

/-- Where somebody waits for a session, it is `ftps`. -/
lemma Ok.accept_of_accepting (h : x.Ok transfers) (halive : x.ftps ≠ .exited) {b : BindedSock}
    (hb : b ∈ x.tcpd.bindedSockets) (hacc : b.accepting) : ∃ sock, x.ftps = .accept sock := by
  cases h.stage with
  | rests hrest _ => exact absurd hacc (hrest.nobody b hb)
  | acceptPending sock hftps _ _ _ _ => exact ⟨sock, hftps⟩
  | recvPending _ _ _ _ _ _ _ _ _ _ hnobody _ => exact absurd hacc (hnobody b hb)
  | exited hftps _ => exact absurd hftps halive

/-- Where a request waits for its piece, it is the one of `ftps`. -/
lemma Ok.recv_of_busy (h : x.Ok transfers) (halive : x.ftps ≠ .exited) {s : UInt32} {a : AckedSock}
    (ha : x.tcpd.sess s = some a) (hbusy : a.receivingLength ≠ 0) :
    ∃ job, (s, job) ∈ transfers ∧ x.tcpd.Accepted s ∧ a.base.toNat < job.pieces.length ∧
      x.ftps.serves.isSome := by
  cases h.stage with
  | rests hrest _ => exact absurd (hrest.idle s a ha) hbusy
  | acceptPending _ _ _ _ _ hidle => exact absurd (hidle s a ha) hbusy
  | exited hftps _ => exact absurd hftps halive
  | recvPending s' job j piece hat hpiece _ _ hreading _ _ hothers =>
    by_cases hs : s = s'
    · subst hs
      refine ⟨job, hreading.transfer, hreading.accepted, ?_, ?_⟩
      · rw [hreading.base a ha]
        exact (List.getElem?_eq_some_iff.mp hpiece).1
      · generalize x.ftps = st at hat
        cases st with
        | size _ _ _ => rfl
        | name _ _ _ _ => rfl
        | body _ _ _ _ => rfl
        | _ => exact hat.elim
    · exact absurd (hothers s hs a ha) hbusy

/-- While `ftps` waits for a session, one that has come and whose file is not closed waits too. -/
lemma Live.exists_waiting (h : x.Live) (hok : x.Ok transfers) {b : BindedSock}
    (hb : x.tcpd.bindedSockets = [b]) (hacc : b.accepting) (hanswers : x.answers = [])
    {s : UInt32} {a : AckedSock} (ha : x.tcpd.sess s = some a)
    (hopen : s ∉ x.files.map ReceivedFile.session) :
    ∃ a ∈ x.tcpd.waitingAckSockets, a.socketFD = b.socketFD := by
  have hnot : ¬ x.tcpd.Accepted s := by
    intro hold
    rcases h.taken s hold with hclosed | hreads | ⟨-, hin⟩
    · exact hopen hclosed
    · obtain ⟨sock, hftps⟩ := hok.accept_of_accepting h.alive (by simp [hb]) hacc
      simp [hftps, Ftps.reads] at hreads
    · simp [hanswers] at hin
  have hlook : x.tcpd.ackedSockets.lookup s = none := by simpa [Tcpd.Accepted] using hnot
  rw [sess_of_lookup_none hlook] at ha
  have hmem := List.mem_of_find?_eq_some ha
  have hbound := h.queued (a.socketFD, a.session) (List.mem_map.mpr ⟨a, hmem, rfl⟩)
  rw [hb] at hbound
  exact ⟨a, hmem, by simpa using hbound⟩

/-- The pass over the sessions does not stop the daemon. -/
lemma Ok.exists_recvBack (h : x.Ok transfers) :
    ∃ t os, x.tcpd.step .recvBack = .ok (t, os) := by
  have htotal : ∃ r, handleRecvBack x.tcpd = .ok r := by
    refine handleRecvBack_total fun s a hrow => ?_
    have ha := sess_of_lookup (HashTable.lookup_eq_some.mpr hrow)
    obtain ⟨job, -, hq, haligned, -⟩ := h.kept.reads.present s a ha
    refine ⟨?_, fun m hm => (hq.all m hm).1⟩
    rcases haligned.request with hzero | ⟨body, hbody, hlen⟩
    · rw [AckedSock.request, hzero]
      exact Nat.zero_le _
    · rw [hlen]
      exact (FtpJob.mem_pieces (List.mem_of_getElem? hbody)).2
  obtain ⟨⟨t, os⟩, hstep⟩ := htotal
  exact ⟨t, os, hstep⟩

/-- `ftps` has not gone on, whatever its daemon has done. -/
structure Stays (x x' : FtpsSide) : Prop where
  ftps : x'.ftps = x.ftps
  files : x'.files = x.files
  asks : x'.asks = x.asks
  answers : x.answers <+: x'.answers

lemma Stays.trans (h : x.Stays x') (h' : x'.Stays x'') : x.Stays x'' :=
  ⟨h'.ftps.trans h.ftps, h'.files.trans h.files, h'.asks.trans h.asks,
    h.answers.trans h'.answers⟩

lemma stays_after (x : FtpsSide) (t : Tcpd) (os : List Out) : x.Stays (x.after t os) :=
  ⟨rfl, rfl, rfl, List.prefix_append _ _⟩

/-- An answer that is there stays there. -/
lemma Stays.answered (h : x.Stays x') (hne : x.answers ≠ []) : x'.answers ≠ [] := by
  intro hnil
  have hprefix := h.answers
  rw [hnil, List.prefix_nil] at hprefix
  exact hne hprefix

/-- A session that waits is handed over to the `ACCEPT` that is noted. -/
lemma answered_of_ackBack {b : BindedSock} (hb : x.tcpd.bindedSockets = [b]) (hacc : b.accepting)
    (haddr : b.acceptingAddr = x.frontAddr)
    (hwaits : ∃ a ∈ x.tcpd.waitingAckSockets, a.socketFD = b.socketFD) :
    (x.after (handleAckBack x.tcpd).1 (handleAckBack x.tcpd).2).answers ≠ [] := by
  obtain ⟨a, hfind⟩ : ∃ a, x.tcpd.waitingAckSockets.find? (·.socketFD = b.socketFD) = some a := by
    refine Option.isSome_iff_exists.mp (List.find?_isSome.mpr ?_)
    simpa using hwaits
  have hout : .accepted x.frontAddr b.socketFD a.session ∈ (handleAckBack x.tcpd).2 := by
    rw [handleAckBack_eq, hb]
    simp [handOver, hacc, hfind, haddr]
  intro hnil
  exact List.ne_nil_of_mem (mem_answersTo hout rfl) (List.append_eq_nil_iff.mp hnil).2

/-- A request is answered, or still waits. -/
lemma answered_or_waits (hok : x.tcpd.SessionsOk) {e : Event} {t : Tcpd} (hfront : ¬ e.isFront)
    (hstep : x.tcpd.step e = .ok (t, os)) {s : UInt32} {a : AckedSock}
    (ha : x.tcpd.sess s = some a) (hbusy : a.receivingLength ≠ 0)
    (haddr : a.receivingAddr = x.frontAddr) :
    (x.after t os).answers ≠ [] ∨ ∃ a', t.sess s = some a' ∧ a'.receivingLength ≠ 0 ∧
      a'.receivingAddr = x.frontAddr := by
  rcases request_step hok hstep hfront ha hbusy with ⟨a', ha', hbusy', haddr'⟩ | ⟨bytes, hdata⟩
  · exact Or.inr ⟨a', ha', hbusy', haddr'.trans haddr⟩
  · rw [haddr] at hdata
    left
    intro hnil
    exact List.ne_nil_of_mem (mem_answersTo hdata rfl) (List.append_eq_nil_iff.mp hnil).2

end FtpsSide

namespace World

variable {w : World} {os : List Out}

/-- All pieces of all files have arrived. -/
def AllArrived (w : World) : Prop :=
  ∀ s job, (s, job) ∈ w.client.transfers → ∀ k : UInt32, k.toNat < job.pieces.length →
    w.Arrived s k

lemma AllArrived.server_step (h : w.AllArrived) (hlive : w.Live) {e : FtpsEvent} {x : FtpsSide}
    (hstep : w.server.step e = .ok (x, os)) : AllArrived { w with server := x } :=
  fun s job hjob k hk => hlive.arrived_step hstep (h s job hjob k hk)

/-- There is a file that is not closed, and all its pieces are there. -/
def Readable (w : World) : Prop :=
  w.AllArrived ∧ ∃ s job, (s, job) ∈ w.client.transfers ∧
    s ∉ w.server.files.map ReceivedFile.session

/-- A session that has come is handed over to the `ACCEPT` that is noted. -/
lemma Live.answered_of_ackBack (h : w.Live) (hread : w.Readable) (hnone : w.server.answers = [])
    {b : BindedSock} (hb : w.server.tcpd.bindedSockets = [b]) (hacc : b.accepting)
    (haddr : b.acceptingAddr = w.server.frontAddr) :
    (w.server.after (handleAckBack w.server.tcpd).1
      (handleAckBack w.server.tcpd).2).answers ≠ [] := by
  obtain ⟨hall, s, job, hjob, hopen⟩ := hread
  obtain ⟨a, ha, -⟩ := hall s job hjob 0 (by simp [FtpJob.pieces])
  exact FtpsSide.answered_of_ackBack hb hacc haddr
    (h.server.exists_waiting h.serverOk hb hacc hnone ha hopen)

/-- A piece that has arrived is handed over to the `RECV` that is noted. -/
lemma Live.answered_of_recvBack (h : w.Live) (hall : w.AllArrived) {s : UInt32} {a : AckedSock}
    (ha : w.server.tcpd.sess s = some a) (hbusy : a.receivingLength ≠ 0)
    (haddr : a.receivingAddr = w.server.frontAddr) {t : Tcpd}
    (hstep : w.server.tcpd.step .recvBack = .ok (t, os)) : (w.server.after t os).answers ≠ [] := by
  refine (FtpsSide.answered_or_waits h.serverOk.kept.reads.ok (by simp [Event.isFront]) hstep ha
    hbusy haddr).resolve_right ?_
  -- a request that is still pending waits for a piece that has not come
  rintro ⟨a', ha', hbusy', -⟩
  have hside := FtpsSide.step_daemon (x := w.server) rfl hstep
  have hlive : Live { w with server := w.server.after t os } :=
    h.step (step_server rfl hside) h.nodup h.rand fun _ he => by cases he
  obtain ⟨job, hjob, hacc, hbase, -⟩ := hlive.serverOk.recv_of_busy hlive.server.alive ha' hbusy'
  obtain ⟨a'', ha'', hreceived⟩ := hall.server_step h hside s job hjob a'.base hbase
  obtain rfl : a'' = a' := Option.some.inj (ha''.symm.trans ha')
  refine AckedSock.not_received_of_leave (hlive.queueOk ha')
    (hlive.serverOk.kept.reads.ok.isOpen s _ ha') hbusy' ?_ hreceived
  exact (Tcpd.recvBack_of_pass hstep (lookup_of_accepted hacc ha')).2.resolve_left hbusy'

end World

namespace TimedWorld

variable {w w' : TimedWorld} {os : List Out}

/-- The passes of the daemon of `ftps`. A call that is served is answered with them, when there is
something to answer. -/
lemma Live.exists_serverBack (h : w.Live) (clock : ℕ → Timeval) :
    ∃ x os, machine.exec w (serverBack clock) = .ok ({ w with server := x }, os) ∧
      Live { w with server := x } ∧ w.server.Stays x ∧
      acksOf w.server.outs <+: acksOf x.outs ∧
      (w.AllArrived → World.AllArrived { w.toWorld with server := x }) ∧
      (w.server.calls = [] → (w.server.ftps.serves.isSome → w.Readable) → x.answers ≠ []) := by
  obtain ⟨t₁, o₁, hack, hboth⟩ : ∃ t os, w.server.tcpd.step .ackBack = .ok (t, os) ∧
      handleAckBack w.server.tcpd = (t, os) := ⟨_, _, rfl, rfl⟩
  have hside₁ := FtpsSide.step_daemon (x := w.server) rfl hack
  obtain ⟨hstep₁, hlive₁⟩ := h.server_step (by simp) rfl hside₁
  obtain ⟨t₂, o₂, hrecv⟩ := hlive₁.world.serverOk.exists_recvBack
  have hside₂ := FtpsSide.step_daemon (x := w.server.after t₁ o₁) rfl hrecv
  obtain ⟨hstep₂, hlive₂⟩ := hlive₁.server_step (by simp) rfl hside₂
  obtain ⟨t₃, o₃, hsend, -⟩ := exists_step_sendBack t₂ clock
  have hside₃ := FtpsSide.step_daemon (x := (w.server.after t₁ o₁).after t₂ o₂) rfl hsend
  obtain ⟨hstep₃, hlive₃⟩ := hlive₂.server_step (by simp) rfl hside₃
  have hstays₁ := w.server.stays_after t₁ o₁
  have hstays₂ := (w.server.after t₁ o₁).stays_after t₂ o₂
  have hstays₃ := ((w.server.after t₁ o₁).after t₂ o₂).stays_after t₃ o₃
  have hall₁ : w.AllArrived → _ := fun hall => hall.server_step h.world hside₁
  refine ⟨_, _, machine.exec_cons_ok.mpr ⟨_, o₁, _, hstep₁, machine.exec_cons_ok.mpr ⟨_, o₂, _,
    hstep₂, machine.exec_cons_ok.mpr ⟨_, o₃, [], hstep₃, rfl, rfl⟩, rfl⟩, rfl⟩, hlive₃,
    (hstays₁.trans hstays₂).trans hstays₃, ?_,
    fun hall => ((hall₁ hall).server_step hlive₁.world hside₂).server_step hlive₂.world hside₃,
    fun hcalls hread => ?_⟩
  · simp only [FtpsSide.after, acksOf_append, List.append_assoc]
    exact List.prefix_append _ _
  · by_cases hanswers : w.server.answers = []
    · cases h.world.server.owed hcalls with
      | answer hne => exact absurd hanswers hne
      | session b hb hacc haddr =>
        have hmem : b ∈ w.server.tcpd.bindedSockets := hb.symm ▸ List.mem_singleton_self b
        obtain ⟨sock, hftps⟩ :=
          h.world.serverOk.accept_of_accepting h.world.server.alive hmem hacc
        have hanswered := h.world.answered_of_ackBack (hread (by rw [hftps]; rfl)) hanswers hb hacc
          haddr
        rw [hboth] at hanswered
        exact (hstays₂.trans hstays₃).answered hanswered
      | piece s a ha hbusy haddr =>
        obtain ⟨-, -, -, -, hserves⟩ :=
          h.world.serverOk.recv_of_busy h.world.server.alive ha hbusy
        obtain ⟨hall, -⟩ := hread hserves
        rcases FtpsSide.answered_or_waits h.world.serverOk.kept.reads.ok (by simp [Event.isFront])
          hack ha hbusy haddr with hanswered | ⟨a', ha', hbusy', haddr'⟩
        · exact (hstays₂.trans hstays₃).answered hanswered
        · exact hstays₃.answered
            (hlive₁.world.answered_of_recvBack (hall₁ hall) ha' hbusy' haddr' hrecv)
    · exact ((hstays₁.trans hstays₂).trans hstays₃).answered hanswers

/-- `ftps` gets the answer it waits for, in a turn of its daemon. -/
lemma Live.exists_answered (h : w.Live) (hread : w.server.ftps.serves.isSome → w.Readable) :
    ∃ x os, machine.turns.CanReach WorldTurn w { w with server := x } os ∧
      Live { w with server := x } ∧
      (w.AllArrived → World.AllArrived { w.toWorld with server := x }) ∧
      w.server.Stays x ∧ x.answers ≠ [] := by
  by_cases hcalls : w.server.calls = []
  · obtain ⟨x, os, hexec, hlive, hstays, -, hall, hanswered⟩ :=
      h.exists_serverBack fun _ => default
    exact ⟨x, os, .single (.passes _) hexec, hlive, hall, hstays, hanswered hcalls hread⟩
  · -- the daemon serves the call first
    obtain ⟨c, hcall, hc⟩ := h.world.serverOk.call hcalls
    obtain ⟨t, o, htcpd⟩ := h.world.server.quiet.exists_serve w.server.frontAddr hc
    have hside : w.server.step (.serve calmSys)
        = .ok ({ w.server with calls := [] }.after t o, o) := by
      simp only [FtpsSide.step, hcall, htcpd]
    obtain ⟨hstep, hlive⟩ := h.server_step (by simp) rfl hside
    have hserved : w.server.Stays ({ w.server with calls := [] }.after t o) :=
      ⟨rfl, rfl, rfl, List.prefix_append _ _⟩
    have hkeep : w.AllArrived → _ := fun hall => hall.server_step h.world hside
    obtain ⟨x, os, hexec, hlive', hstays, -, hall, hanswered⟩ :=
      hlive.exists_serverBack fun _ => default
    refine ⟨x, o ++ os, .single (.ftpsCall calmSys _)
      (machine.exec_cons_ok.mpr ⟨_, o, os, hstep, hexec, rfl⟩), hlive',
      fun h => hall (hkeep h), hserved.trans hstays, hanswered rfl fun hserves => ?_⟩
    obtain ⟨harrived, hopen⟩ := hread hserves
    exact ⟨hkeep harrived, hopen⟩

/-- `ftps` reads an answer that makes it go on. -/
lemma Live.exists_resumed (h : w.Live) (hanswers : w.server.answers ≠ []) :
    ∃ answer os, w.server.answers = [answer] ∧ w.server.ftps.GoesOn answer ∧
      machine.turns.CanReach WorldTurn w
        { w with server := w.server.goesOn [] (w.server.ftps.resume answer) } os ∧
      Live { w with server := w.server.goesOn [] (w.server.ftps.resume answer) } ∧
      (w.AllArrived → World.AllArrived
        { w.toWorld with server := w.server.goesOn [] (w.server.ftps.resume answer) }) := by
  obtain ⟨answer, answers, hone⟩ := List.exists_cons_of_ne_nil hanswers
  obtain ⟨rfl, -⟩ := h.world.serverOk.read h.world.server.alive hone
  have hside : w.server.step .resume
      = .ok (w.server.goesOn [] (w.server.ftps.resume answer), []) := by
    simp only [FtpsSide.step, hone]
  obtain ⟨hstep, hlive⟩ := h.server_step (by simp) rfl hside
  exact ⟨answer, [], hone, h.world.server.sound answer (by simp [hone]),
    .single .ftps (turns_step hstep), hlive, fun hall => hall.server_step h.world hside⟩

/-! ## `ftps` comes to its first `ACCEPT` -/

/-- The calls `ftps` makes before. -/
def toServe (w : TimedWorld) : ℕ :=
  match w.server.ftps with
  | .socket _ => 2
  | .bind _ => 1
  | _ => 0

lemma Live.exists_serving (h : w.Live) :
    ∃ w' os sock, machine.turns.CanReach WorldTurn w w' os ∧ w'.Live ∧ w'.client = w.client ∧
      w'.server.ftps.serves = some sock := by
  have hlower : ∀ u : TimedWorld, (u.Live ∧ u.client = w.client) → 0 < u.toServe →
      ∃ u' os, machine.turns.CanReach WorldTurn u u' os ∧ (u'.Live ∧ u'.client = w.client) ∧
        u'.toServe < u.toServe := by
    rintro u ⟨hu, hclient⟩ hpos
    have hnot : ¬ u.server.ftps.serves.isSome := by
      intro hserves
      unfold toServe at hpos
      generalize u.server.ftps = st at hserves hpos
      cases st with
      | socket _ => cases hserves
      | bind _ => cases hserves
      | _ => exact absurd hpos (lt_irrefl 0)
    obtain ⟨x, os, hreach, hlive, -, hstays, hanswers⟩ :=
      hu.exists_answered fun hserves => absurd hserves hnot
    obtain ⟨answer, os', -, hgo, hreach', hlive', -⟩ := hlive.exists_resumed hanswers
    refine ⟨_, _, hreach.trans hreach', ⟨hlive', hclient⟩, ?_⟩
    have hgo : x.ftps.GoesOn answer := hgo
    rw [hstays.ftps] at hgo
    simp only [toServe, FtpsSide.goesOn, hstays.ftps] at hpos ⊢
    generalize u.server.ftps = st at hgo hpos
    cases st with
    | socket addr =>
      rw [Ftps.resume, if_neg (Int32.not_lt.mpr hgo)]
      exact Nat.lt_succ_self 1
    | bind sock =>
      rw [Ftps.resume, if_neg (Int32.not_lt.mpr hgo)]
      exact Nat.lt_succ_self 0
    | _ => exact absurd hpos (lt_irrefl 0)
  obtain ⟨u, os, hreach, ⟨hlive, hclient⟩, hzero⟩ := exists_canReach_zero toServe hlower ⟨h, rfl⟩
  have hserves : ∃ sock, u.server.ftps.serves = some sock := by
    have halive := hlive.world.server.alive
    unfold toServe at hzero
    generalize u.server.ftps = st at halive hzero
    cases st with
    | socket _ => cases hzero
    | bind _ => cases hzero
    | exited => exact absurd rfl halive
    | _ => exact ⟨_, rfl⟩
  obtain ⟨sock, hsock⟩ := hserves
  exact ⟨u, os, sock, hreach, hlive, hclient, hsock⟩

end TimedWorld

/-! ## Every package gets through -/

/-- The numbers of the pieces of a file are far from the last one that is let into a window. -/
lemma FtpJob.length_pieces_le (job : FtpJob) : job.pieces.length ≤ seqLimit := by
  have hchunks := length_chunks_le job.content
  have hsmall := job.small
  rw [pieces, List.length_cons, List.length_cons]
  unfold seqLimit MAX_BUFFER_PACKAGES
  omega

namespace FtpcSide

variable {x x' x'' : FtpcSide}

/-- `ftpc` has not gone on, whatever its daemon has done. -/
structure Stays (x x' : FtpcSide) : Prop where
  ftpc : x'.ftpc = x.ftpc
  calls : x'.calls = x.calls
  transfers : x'.transfers = x.transfers

lemma Stays.trans (h : x.Stays x') (h' : x'.Stays x'') : x.Stays x'' :=
  ⟨h'.ftpc.trans h.ftpc, h'.calls.trans h.calls, h'.transfers.trans h.transfers⟩

/-- While packages are held and no window admits another one, some window has a package. -/
lemma Ok.exists_flying (h : x.Ok) (hsated : Timed.Sated x.tcpd) (hpos : 0 < x.tcpd.heldTotal) :
    ∃ fd c m, x.tcpd.conn fd = some c ∧ m ∈ c.packages := by
  obtain ⟨n, hn, hsome⟩ := List.sum_pos_iff_exists_pos_nat.mp hpos
  obtain ⟨c, hc, rfl⟩ := List.mem_map.mp hn
  obtain ⟨⟨fd, c⟩, hrow, rfl⟩ := List.mem_map.mp hc
  have hconn : x.tcpd.conn fd = some c := HashTable.lookup_eq_some.mpr hrow
  obtain ⟨m, hm⟩ : ∃ m, m ∈ c.packages := by
    refine List.exists_mem_of_ne_nil _ fun hnil => ?_
    have hsome : 0 < c.held.length := hsome
    rw [ConnectedSock.held, hnil, List.nil_append] at hsome
    obtain ⟨p, hp⟩ := List.exists_mem_of_length_pos hsome
    -- its number is that of a piece, so that an empty window would admit it
    obtain ⟨job, -, hle, -⟩ := h.conns fd c hconn
    have hbelow := UInt32.lt_iff_toNat_lt.mp
      ((h.client.conns fd c hconn).below p (List.mem_append_right _ hp))
    have hfew := job.length_pieces_le
    have hlets := admits_of_le (l := c.packages) (m := p) (by omega) (by simp [hnil])
    have hmem : p ∈ c.sendable := List.mem_filter.mpr ⟨hp, hlets⟩
    rw [hsated fd c hconn] at hmem
    cases hmem
  exact ⟨fd, c, m, hconn, hm⟩

end FtpcSide

namespace TimedWorld

variable {w w' : TimedWorld} {os : List Out}

/-- No window admits another package, and the frames of those in the windows are in flight. -/
structure Sending (w : TimedWorld) : Prop where
  live : w.Live
  sated : Timed.Sated w.client.tcpd
  frames : ∀ fd c, w.client.tcpd.conn fd = some c → ∀ m ∈ c.packages, m ∈ framesOf w.client.outs

/-- The timers run out, and everything is sent once more. -/
lemma Live.exists_sending (h : w.Live) :
    ∃ w' os, machine.turns.CanReach WorldTurn w w' os ∧ w'.Sending ∧
      w.client.Stays w'.client ∧ w'.server = w.server := by
  have hmay : w.timed.tcpd.MayPass true := fun _ => ⟨h.world.clientOk.sessions, h.fits⟩
  obtain ⟨t, os, hreach, -, -, hsated, hsent⟩ := Timed.exists_resent h.sound hmay
  obtain ⟨hcan, hlive⟩ := h.turns hreach
  refine ⟨_, os, hcan, ⟨hlive, hsated, fun fd c hc m hm => ?_⟩, ⟨rfl, rfl, rfl⟩, rfl⟩
  show m ∈ framesOf (w.client.outs ++ os)
  rw [framesOf_append]
  exact List.mem_append_right _ (mem_framesOf.mpr ⟨fd, hsent fd c hc m hm⟩)

/-- A frame in flight gets through, in a turn of the daemon of `ftps`, which acknowledges it. -/
lemma Live.exists_frame (h : w.Live) {sock : Int32} (hserves : w.server.ftps.serves = some sock)
    {m : TrollMessageStruct} (hframe : m ∈ framesOf w.client.outs) :
    ∃ x os, machine.turns.CanReach WorldTurn w { w with server := x } os ∧
      Live { w with server := x } ∧ w.server.Stays x ∧ makeAck m default ∈ acksOf x.outs := by
  obtain ⟨hvalid, -⟩ := h.world.clientOk.frames m hframe
  have hbound : w.server.tcpd.bindedSockets.any (·.socketFD = sock) := by
    have hone := h.world.server.bound sock (Or.inr hserves)
    obtain ⟨b, hb, rfl⟩ := List.map_eq_singleton_iff.mp hone
    simp [hb]
  have hmay : w.serverMay (.daemon (.data sock m default)) = true :=
    decide_eq_true (show w.FrameMayArrive m from fun _ => ⟨m, hframe, rfl⟩)
  obtain ⟨hstep, hlive⟩ := h.server_step (by simp) hmay
    (FtpsSide.step_daemon rfl (step_data hbound hvalid default))
  obtain ⟨x, os, hexec, hlive', hstays, hacks, -⟩ := hlive.exists_serverBack fun _ => default
  refine ⟨x, _ ++ os, .single (.frame sock m default _)
    (machine.exec_cons_ok.mpr ⟨_, _, os, hstep, hexec, rfl⟩), hlive',
    (w.server.stays_after _ _).trans hstays, hacks.subset ?_⟩
  exact mem_acksOf.mpr ⟨sock, List.mem_append_right _ (List.mem_singleton_self _)⟩

/-- The ack of a package in a window gets through, in a turn of the daemon of `ftpc`. -/
lemma Sending.exists_ack (h : w.Sending) {fd : Int32} {c : ConnectedSock} {m : TrollMessageStruct}
    (hc : w.client.tcpd.conn fd = some c) (hm : m ∈ c.packages)
    (hack : makeAck m default ∈ acksOf w.server.outs) :
    ∃ w' os, machine.turns.CanReach WorldTurn w w' os ∧ w'.Sending ∧ w.client.Stays w'.client ∧
      w'.server = w.server ∧ w'.client.tcpd.heldTotal < w.client.tcpd.heldTotal := by
  have hok := h.live.world.clientOk
  have hfound : c.packages.any
      (·.hasKey (makeAck m default).session (makeAck m default).seqNum) :=
    List.any_eq_true.mpr ⟨m, hm, by simp [TrollMessageStruct.hasKey, makeAck]⟩
  obtain ⟨u, o, htcpd, htable, hcount⟩ :=
    exists_step_ack (a := makeAck m default) rfl hc hfound default
  have hmay : w.clientMay (.daemon (.ack fd (makeAck m default) default)) = true :=
    decide_eq_true (show w.AckMayArrive _ from fun _ => ⟨makeAck m default, hack, rfl⟩)
  have hsession : c.session = m.session :=
    ((hok.client.conns fd c hc).session m (List.mem_append_left _ hm)).symm
  have hfresh : w.Fresh (.side (.client (.daemon (.ack fd (makeAck m default) default)))) := by
    refine ⟨fun e' he' e'' he'' => ?_, fun fd' a now he _ fd'' d hd hs => ?_⟩
    · cases he'
      cases he''
      exact fun _ _ _ _ _ hserve => by cases hserve
    · cases he
      exact hok.apart fd'' fd d c hd hc (hs.trans hsession.symm)
  obtain ⟨hstep, hlive⟩ := h.live.client_step (by simp) hmay (FtpcSide.step_daemon rfl htcpd) rfl
    hfresh
  obtain ⟨t, os, hexec, hlive', hpass⟩ := hlive.exists_clientBack fun _ => default
  have hpass : BackPass u t.tcpd os := hpass
  refine ⟨_, o ++ os, .single (.ack fd (makeAck m default) default _)
    (machine.exec_cons_ok.mpr ⟨_, o, os, hstep, hexec, rfl⟩), ⟨hlive',
    Timed.sated_of_backPass hpass, fun fd' c' hc' p hp => ?_⟩, ⟨rfl, rfl, rfl⟩, rfl, ?_⟩
  · obtain ⟨d, hd, rfl⟩ := Option.map_eq_some_iff.mp ((hpass.conn fd').symm.trans hc')
    show p ∈ framesOf ((w.client.outs ++ o) ++ os)
    rw [framesOf_append, framesOf_append]
    rcases List.mem_append.mp hp with hp | hp
    · -- it was in the window before
      refine List.mem_append_left _ (List.mem_append_left _ ?_)
      by_cases hfd : fd' = fd
      · subst hfd
        rw [Tcpd.conn, htable, HashTable.lookup_insert_self] at hd
        cases hd
        exact h.frames fd' c hc p (List.mem_of_mem_eraseP hp)
      · rw [Tcpd.conn, htable, HashTable.lookup_insert_ne _ _ hfd] at hd
        exact h.frames fd' d hd p hp
    · exact List.mem_append_right _ (mem_framesOf.mpr ⟨_, hpass.sent fd' d hd p hp⟩)
  · have hbefore := h.live.world.client.count
    have hafter := hlive'.world.client.count
    have hpassed : t.tcpd.inBufferPackages = u.inBufferPackages := hpass.count
    have hafter : t.tcpd.inBufferPackages = t.tcpd.heldTotal := hafter
    show t.tcpd.heldTotal < w.client.tcpd.heldTotal
    omega

/-- One package after the other gets through, until none is held. -/
lemma Live.exists_drained (h : w.Live) {sock : Int32} (hserves : w.server.ftps.serves = some sock) :
    ∃ w' os, machine.turns.CanReach WorldTurn w w' os ∧ w'.Live ∧ w.client.Stays w'.client ∧
      w'.server.ftps.serves = some sock ∧ w'.client.tcpd.heldTotal = 0 := by
  obtain ⟨v, os, hreach, hv, hstays, hserver⟩ := h.exists_sending
  have hlower : ∀ u : TimedWorld, (u.Sending ∧ w.client.Stays u.client ∧
      u.server.ftps.serves = some sock) → 0 < u.client.tcpd.heldTotal →
        ∃ u' os, machine.turns.CanReach WorldTurn u u' os ∧ (u'.Sending ∧
          w.client.Stays u'.client ∧ u'.server.ftps.serves = some sock) ∧
          u'.client.tcpd.heldTotal < u.client.tcpd.heldTotal := by
    rintro u ⟨hu, hstays, hserves⟩ hpos
    obtain ⟨fd, c, m, hc, hm⟩ := hu.live.world.clientOk.exists_flying hu.sated hpos
    obtain ⟨x, os, hreach, hlive, hserver, hack⟩ :=
      hu.live.exists_frame hserves (hu.frames fd c hc m hm)
    have hx : Sending { u with server := x } := ⟨hlive, hu.sated, hu.frames⟩
    obtain ⟨u', os', hreach', hu', hstays', hserver', hlt⟩ := hx.exists_ack hc hm hack
    refine ⟨u', _, hreach.trans hreach', ⟨hu', hstays.trans hstays', ?_⟩, hlt⟩
    rw [hserver', hserver.ftps]
    exact hserves
  obtain ⟨u, os', hreach', ⟨hu, hstays', hserves'⟩, hzero⟩ := exists_canReach_zero
    (fun u : TimedWorld => u.client.tcpd.heldTotal) hlower ⟨hv, hstays, hserver ▸ hserves⟩
  exact ⟨u, _, hreach.trans hreach', hu.live, hstays', hserves', hzero⟩

end TimedWorld

/-! ## `ftpc` goes on to the end of its file -/

/-- The calls that `ftpc` has still to be answered, for its `CONNECT` and for the pieces. -/
def Ftpc.left : Ftpc → ℕ
  | connect job _ => job.pieces.length + 1
  | size job _ => job.pieces.length
  | name job _ => job.pieces.length - 1
  | chunk _ _ _ _ unread => (chunks unread).length + 1
  | _ => 0

namespace FtpcSide

variable {x x' : FtpcSide} {os : List Out}

/-- What is left to be done of the transfer that `ftpc` has begun: an answer to read for each
call, and the call to serve if it is on its way. -/
def toSay (x : FtpcSide) : ℕ :=
  match x.ftpc, x.calls with
  | .idle, _ => 0
  | .socket _, _ => 0
  | .connect _ _, _ :: _ => 0
  | st, calls => 2 * st.left + calls.length

lemma toSay_of_at {job : FtpJob} {sock : Int32} {k : ℕ} (h : x.ftpc.At job sock k)
    (hk : k < job.pieces.length) :
    x.toSay = 2 * (job.pieces.length - k) + x.calls.length := by
  unfold toSay
  generalize x.ftpc = st at h
  cases st with
  | size job' sock' =>
    obtain ⟨rfl, -, rfl⟩ := h
    rfl
  | name job' sock' =>
    obtain ⟨rfl, -, rfl⟩ := h
    rfl
  | chunk job' sock' fileLeft rVal unread =>
    obtain ⟨-, -, -, hpieces⟩ := h
    have hlength := congrArg List.length hpieces
    rw [List.length_drop] at hlength
    simp only [Ftpc.left]
    omega
  | _ => exact h.elim

/-- Then `ftpc` is not busy with any file. -/
lemma not_busy_of_toSay (h : x.toSay = 0) (job : FtpJob) (sock : Int32) : ¬ x.Busy job sock := by
  rintro (⟨hftpc, hcalls⟩ | ⟨k, hat⟩)
  · simp [toSay, hftpc, hcalls, Ftpc.left] at h
  · unfold toSay at h
    generalize x.ftpc = st at hat h
    cases st with
    | size job' _ => simp [Ftpc.left, FtpJob.pieces] at h
    | name job' _ => simp [Ftpc.left, FtpJob.pieces] at h
    | chunk _ _ _ _ _ => simp [Ftpc.left] at h
    | _ => exact hat.elim

lemma step_resume {addr : SockaddrIn} (haddr : x.ftpc.frontAddr = some addr) {answer : List UInt8}
    (hanswers : x.answers = [answer]) :
    x.step .resume = .ok ({ x with
      ftpc := (x.ftpc.resume answer).1,
      calls := x.calls ++ (x.ftpc.resume answer).2.map (addr, ·), answers := [] }, []) := by
  simp only [step, haddr, hanswers]

end FtpcSide

namespace TimedWorld

variable {w w' : TimedWorld} {os : List Out}

/-- `ftpc` reads the answer that is there. -/
lemma Live.client_resumed (h : w.Live) (hcalls : w.client.calls = []) {addr : SockaddrIn}
    (haddr : w.client.ftpc.frontAddr = some addr) :
    ∃ ret w' os, 0 ≤ ret ∧ machine.turns.CanReach WorldTurn w w' os ∧ w'.Live ∧
      w'.server = w.server ∧ w'.client.transfers = w.client.transfers ∧
      w'.client.ftpc = (w.client.ftpc.resume (intBytes ret)).1 ∧
      w'.client.calls = (w.client.ftpc.resume (intBytes ret)).2.map (addr, ·) := by
  obtain ⟨ret, hret, hanswers⟩ := h.world.client.answered hcalls (by rw [haddr]; rfl)
  obtain ⟨hstep, hlive⟩ := h.client_step (e := .resume) (by simp) rfl
    (FtpcSide.step_resume haddr hanswers) rfl (fresh_of_ne (by simp) (by simp) w)
  refine ⟨ret, _, [], hret, .single .ftpc (turns_step hstep), hlive, rfl, rfl, rfl, ?_⟩
  rw [hcalls, List.nil_append]

/-- While no package is held, the daemon of `ftpc` serves a `SEND`. -/
lemma Live.exists_sent (h : w.Live) (hnone : w.client.tcpd.heldTotal = 0) {addr : SockaddrIn}
    {sock : Int32} {b : { l : List UInt8 // l.length < 2 ^ 64 }}
    (hcalls : w.client.calls = [(addr, .SEND sock b)]) (hb : b.val.length ≤ BUF_LEN)
    {c : ConnectedSock} (hc : w.client.tcpd.conn sock = some c) :
    ∃ w' os, machine.turns.CanReach WorldTurn w w' os ∧ w'.Live ∧ w'.server = w.server ∧
      w'.client.transfers = w.client.transfers ∧ w'.client.ftpc = w.client.ftpc ∧
      w'.client.calls = [] := by
  have hroom : w.client.tcpd.inBufferPackages < MAX_BUFFER_PACKAGES := by
    rw [h.world.client.count, hnone]
    decide
  have hlen : (UInt64.ofNat b.val.length).toNat ≤ BUF_LEN := by
    rw [UInt64.toNat_ofNat', Nat.mod_eq_of_lt b.2]
    exact hb
  obtain ⟨t, o, htcpd, -⟩ := exists_step_send hroom hc hlen addr
    ((Buffer.zero BUF_LEN).write 0 (b.val.take BUF_LEN) (by simp)) calmSys
  have hserve : w.client.tcpd.step (.front addr (Call.SEND sock b).request calmSys)
      = .ok (t, o) := htcpd
  have hside : w.client.step (.serve calmSys)
      = .ok ({ w.client with calls := [], transfers := w.client.transfers ++ [],
                             sends := w.client.sends ++ w.client.handsOver (.SEND sock b) }.after
          t o, o) := by
    simp only [FtpcSide.step, hcalls, hserve]
    rfl
  have hfresh : w.Fresh (.side (.client (.serve calmSys))) := by
    refine ⟨fun e' he' e'' he'' sys addr' sock' a calls _ hconnect => ?_, fun _ _ _ he => ?_⟩
    · simp [hcalls] at hconnect
    · cases he
  obtain ⟨hstep, hlive⟩ := h.client_step (by simp) rfl hside (List.append_nil _) hfresh
  obtain ⟨u, os, hexec, hlive', -⟩ := hlive.exists_clientBack fun _ => default
  exact ⟨_, o ++ os, .single (.ftpcCall calmSys _)
    (machine.exec_cons_ok.mpr ⟨_, o, os, hstep, hexec, rfl⟩), hlive', rfl, List.append_nil _, rfl,
    rfl⟩

/-- `ftpc` hands over the whole file it is busy with. -/
lemma Live.exists_said (h : w.Live) {sock : Int32} (hserves : w.server.ftps.serves = some sock) :
    ∃ w' os, machine.turns.CanReach WorldTurn w w' os ∧ w'.Live ∧
      w'.client.transfers = w.client.transfers ∧ w'.server.ftps.serves = some sock ∧
      w'.client.toSay = 0 := by
  have hlower : ∀ u : TimedWorld, (u.Live ∧ u.client.transfers = w.client.transfers ∧
      u.server.ftps.serves = some sock) → 0 < u.client.toSay →
        ∃ u' os, machine.turns.CanReach WorldTurn u u' os ∧ (u'.Live ∧
          u'.client.transfers = w.client.transfers ∧ u'.server.ftps.serves = some sock) ∧
          u'.client.toSay < u.client.toSay := by
    rintro u ⟨hu, hsame, hserves⟩ hpos
    -- before it goes on, all packages get through, so that the daemon listens
    obtain ⟨v, os, hreach, hv, hstays, hserves', hnone⟩ := hu.exists_drained hserves
    have htoSay : v.client.toSay = u.client.toSay := by
      simp only [FtpcSide.toSay, hstays.ftpc, hstays.calls]
    have hsame' : v.client.transfers = w.client.transfers := hstays.transfers.trans hsame
    rw [← htoSay] at hpos ⊢
    have hnext : ∃ v' os, machine.turns.CanReach WorldTurn v v' os ∧ v'.Live ∧
        v'.server = v.server ∧ v'.client.transfers = v.client.transfers ∧
        v'.client.toSay < v.client.toSay := by
      cases hv.world.clientOk.stage with
      | idle hftpc _ _ => simp [FtpcSide.toSay, hftpc] at hpos
      | socketCalled _ hftpc _ _ => simp [FtpcSide.toSay, hftpc] at hpos
      | socketServed _ hftpc _ _ => simp [FtpcSide.toSay, hftpc] at hpos
      | connectCalled _ _ hftpc hcalls _ => simp [FtpcSide.toSay, hftpc, hcalls] at hpos
      | connectServed job sock hftpc hcalls _ _ =>
        obtain ⟨ret, v', os, hret, hreach, hlive, hserver, htransfers, hx, hxcalls⟩ :=
          hv.client_resumed hcalls (by rw [hftpc]; rfl)
        refine ⟨v', os, hreach, hlive, hserver, htransfers, ?_⟩
        have hgood : ¬ codeOf (intBytes ret) < 0 := by
          rw [codeOf_intBytes]
          exact Int32.not_lt.mpr hret
        simp only [hftpc, Ftpc.resume, if_neg hgood, List.map_cons, List.map_nil] at hx hxcalls
        simp only [FtpcSide.toSay, hx, hxcalls, hftpc, hcalls, Ftpc.left, List.length_cons,
          List.length_nil]
        omega
      | sendCalled job sock k b hat hpiece hcalls _ hconn =>
        obtain ⟨c, hc, -⟩ := hconn
        have hk : k < job.pieces.length := (List.getElem?_eq_some_iff.mp hpiece).1
        obtain ⟨v', os, hreach, hlive, hserver, htransfers, hx, hxcalls⟩ := hv.exists_sent hnone
          hcalls (FtpJob.mem_pieces (List.mem_of_getElem? hpiece)).2 hc
        refine ⟨v', os, hreach, hlive, hserver, htransfers, ?_⟩
        rw [FtpcSide.toSay_of_at hat hk, FtpcSide.toSay_of_at (x := v'.client) (hx ▸ hat) hk,
          hcalls, hxcalls]
        simp
      | sendServed job sock k hat hcalls _ _ =>
        obtain ⟨ret, v', os, -, hreach, hlive, hserver, htransfers, hx, hxcalls⟩ :=
          hv.client_resumed hcalls hat.frontAddr_eq.1
        refine ⟨v', os, hreach, hlive, hserver, htransfers, ?_⟩
        rcases hat.resume (intBytes ret) with hidle | ⟨st, b, hst, hat', hpiece, -⟩
        · rw [hidle] at hx
          simpa [FtpcSide.toSay, hx] using hpos
        · rw [hst] at hx hxcalls
          have hk := (List.getElem?_eq_some_iff.mp hpiece).1
          have hat' : v'.client.ftpc.At job sock (k + 1) := by
            rw [hx]
            exact hat'
          rw [FtpcSide.toSay_of_at hat (by omega), FtpcSide.toSay_of_at hat' hk, hcalls, hxcalls,
            List.length_map, List.length_singleton, List.length_nil]
          omega
    obtain ⟨v', os', hreach', hlive, hserver, htransfers, hlt⟩ := hnext
    exact ⟨v', _, hreach.trans hreach',
      ⟨hlive, htransfers.trans hsame', hserver ▸ hserves'⟩, hlt⟩
  obtain ⟨u, os, hreach, ⟨hlive, hsame, hserves⟩, hzero⟩ := exists_canReach_zero
    (fun u : TimedWorld => u.client.toSay) hlower ⟨h, rfl, hserves⟩
  exact ⟨u, os, hreach, hlive, hsame, hserves, hzero⟩

/-- Nothing is in flight or waits to be sent. -/
def Drained (w : TimedWorld) : Prop := ∀ fd c, w.client.tcpd.conn fd = some c → c.held = []

/-- All pieces of all files arrive. -/
lemma Live.exists_allArrived (h : w.Live) :
    ∃ w' os sock, machine.turns.CanReach WorldTurn w w' os ∧ w'.Live ∧
      w'.client.transfers = w.client.transfers ∧ w'.server.ftps.serves = some sock ∧
      w'.Drained ∧ w'.AllArrived := by
  obtain ⟨u, os, sock, hreach, hu, hclient, hserves⟩ := h.exists_serving
  obtain ⟨v, os', hreach', hv, htransfers, hserves', hsaid⟩ := hu.exists_said hserves
  obtain ⟨w', os'', hreach'', hw', hstays, hserves'', hnone⟩ := hv.exists_drained hserves'
  have hdrained : w'.Drained := by
    intro fd c hc
    have hle : c.held.length ≤ w'.client.tcpd.heldTotal :=
      HashTable.le_total (f := fun c => c.held.length) hc
    exact List.length_eq_zero_iff.mp (by omega)
  refine ⟨w', _, sock, hreach.trans (hreach'.trans hreach''), hw',
    hstays.transfers.trans (htransfers.trans (congrArg FtpcSide.transfers hclient)), hserves'',
    hdrained, fun s job hjob k hk => ?_⟩
  have hquiet : w'.client.toSay = 0 := by
    simpa only [FtpcSide.toSay, hstays.ftpc, hstays.calls] using hsaid
  obtain ⟨fd, c, hc, rfl, hdone | hbusy⟩ := hw'.world.client.begun s job hjob
  · have hbefore : k < c.base := UInt32.lt_iff_toNat_lt.mpr (by omega)
    rcases hw'.world.kept fd c hc k hbefore with ⟨m, hm, -⟩ | harrived
    · rw [hdrained fd c hc] at hm
      cases hm
    · exact harrived
  · exact absurd hbusy (FtpcSide.not_busy_of_toSay hquiet job fd)

end TimedWorld

/-! ## `ftps` reads one file after the other -/

namespace FtpsSide

variable {transfers : List (UInt32 × FtpJob)} {x x' : FtpsSide} {os : List Out}

/-- What `ftps` has still to read for a transfer: the session, and the pieces it has not asked
for. -/
def toReadOf (x : FtpsSide) (y : UInt32 × FtpJob) : ℕ :=
  if y.1 ∈ x.files.map ReceivedFile.session then 0
  else y.2.pieces.length + 1 - (x.askedOn y.1).length

/-- What `ftps` has still to read for all transfers. -/
def toRead (transfers : List (UInt32 × FtpJob)) (x : FtpsSide) : ℕ :=
  (transfers.map x.toReadOf).sum

/-- There is less to read when there is less for one transfer. -/
lemma toRead_lt {y : UInt32 × FtpJob} (hy : y ∈ transfers)
    (hfiles : ∀ s ∈ x.files.map ReceivedFile.session, s ∈ x'.files.map ReceivedFile.session)
    (hasks : x.asks <+: x'.asks) (hlt : x'.toReadOf y < x.toReadOf y) :
    x'.toRead transfers < x.toRead transfers := by
  refine List.sum_lt_sum _ _ (fun z _ => ?_) ⟨y, hy, hlt⟩
  have hasked : (x.askedOn z.1).length ≤ (x'.askedOn z.1).length := by
    rw [askedOn, askedOn, List.length_map, List.length_map]
    exact (hasks.sublist.filter _).length_le
  by_cases hclosed : z.1 ∈ x'.files.map ReceivedFile.session
  · rw [toReadOf, if_pos hclosed]
    exact Nat.zero_le _
  · rw [toReadOf, toReadOf, if_neg hclosed, if_neg fun hold => hclosed (hfiles _ hold)]
    omega

/-- What is left to read of a file that is being read. -/
lemma Reading.toReadOf_eq {s : UInt32} {job : FtpJob} {k j : ℕ} (h : x.Reading transfers s job k j)
    (hk : k ≤ job.pieces.length) : x.toReadOf (s, job) = job.pieces.length + 1 - k := by
  rw [toReadOf, if_neg h.unclosed, h.asked, List.length_map, List.length_take, Nat.min_eq_left hk]

/-- Asking for one more piece, or closing the file, leaves less to read. -/
lemma Reading.goesOn_lt {s : UInt32} {job : FtpJob} {k j : ℕ} (h : x.Reading transfers s job k j)
    (hk : k ≤ job.pieces.length) {r : Ftps × List Call × List ReceivedFile}
    (hr : (∃ fd len, r.2 = ([.RECV fd len], []) ∧ fd.toUInt32 = s) ∨
      ∃ file ∈ r.2.2, file.session = s) :
    (x.goesOn [] r).toRead transfers < x.toRead transfers := by
  refine toRead_lt h.transfer (fun s' hs' => ?_) (List.prefix_append _ _) ?_
  · show s' ∈ (x.files ++ r.2.2).map ReceivedFile.session
    rw [List.map_append]
    exact List.mem_append_left _ hs'
  · rw [h.toReadOf_eq hk]
    rcases hr with ⟨fd, len, hr, rfl⟩ | ⟨file, hfile, rfl⟩
    · have hasked : ((x.goesOn [] r).askedOn fd.toUInt32).length = k + 1 := by
        have hone : (x.goesOn [] r).asks = x.asks ++ [(fd.toUInt32, len.toNat)] := by
          simp [goesOn, hr, Call.asks]
        rw [askedOn, hone, List.filter_append, List.map_append, ← askedOn, h.asked]
        simp [hk]
      unfold toReadOf
      split
      · omega
      · show job.pieces.length + 1 - ((x.goesOn [] r).askedOn fd.toUInt32).length < _
        rw [hasked]
        omega
    · have hclosed : file.session ∈ (x.goesOn [] r).files.map ReceivedFile.session :=
        List.mem_map.mpr ⟨file, List.mem_append_right _ hfile, rfl⟩
      rw [toReadOf, if_pos hclosed]
      omega

/-- With every answer `ftps` has less to read. -/
lemma Ok.resume_lt (h : x.Ok transfers) {sock : Int32} (hserves : x.ftps.serves = some sock)
    {answer : List UInt8} (hanswers : x.answers = [answer]) (hgo : x.ftps.GoesOn answer) :
    (x.goesOn [] (x.ftps.resume answer)).toRead transfers < x.toRead transfers := by
  cases h.stage with
  | acceptPending _ _ _ hnone _ _ => simp [hnone] at hanswers
  | recvPending _ _ _ _ _ _ _ hnone _ _ _ _ => simp [hnone] at hanswers
  | exited hftps _ => simp [hftps, Ftps.serves] at hserves
  | rests _ hplace =>
    cases hplace with
    | socketCalled _ _ _ hnone _ => simp [hnone] at hanswers
    | bindCalled _ _ _ _ hnone _ => simp [hnone] at hanswers
    | acceptCalled _ _ _ hnone => simp [hnone] at hanswers
    | recvCalled _ _ _ _ _ _ _ _ _ _ _ hnone _ => simp [hnone] at hanswers
    | socketServed _ hftps _ _ _ => simp [hftps, Ftps.serves] at hserves
    | bindServed _ hftps _ _ => simp [hftps, Ftps.serves] at hserves
    | acceptServed sock hftps _ _ hnew =>
      rw [hftps] at hgo ⊢
      rcases hnew answer (by simp [hanswers]) with hfail | ⟨s, job, hcode, hreading⟩
      · exact absurd hfail hgo
      · rw [Ftps.resume, if_neg hgo]
        refine hreading.goesOn_lt (Nat.zero_le _) (Or.inl ⟨_, _, rfl, ?_⟩)
        rw [hcode, UInt32.toUInt32_toInt32]
    | recvServed s job j piece hat hpiece _ hsub hreading =>
      rw [hanswers, List.singleton_sublist, List.mem_singleton] at hsub
      subst hsub
      have hj : j < job.pieces.length := (List.getElem?_eq_some_iff.mp hpiece).1
      refine hreading.goesOn_lt hj ?_
      rcases hat.resume hpiece with ⟨fd, len, -, hr, -, hfd, -⟩ | ⟨sock', file, hr, hs, -⟩
      · exact Or.inl ⟨fd, len, hr, hfd⟩
      · exact Or.inr ⟨file, by simp [hr], hs⟩

/-- When nothing is left to read, all files are closed. -/
lemma Ok.closed_of_toRead (h : x.Ok transfers) (hnodup : (transfers.map Prod.fst).Nodup)
    (hzero : x.toRead transfers = 0) {s : UInt32} {job : FtpJob} (hjob : (s, job) ∈ transfers) :
    ∃ file ∈ x.files, file.session = s ∧ file.fileName = job.fileName ∧
      file.written = job.content := by
  have hnone : x.toReadOf (s, job) = 0 :=
    List.sum_eq_zero_iff_forall_eq_nat.mp hzero _ (List.mem_map.mpr ⟨_, hjob, rfl⟩)
  have hclosed : s ∈ x.files.map ReceivedFile.session := by
    by_contra hopen
    rw [toReadOf, if_neg hopen] at hnone
    have hnone : job.pieces.length + 1 - (x.askedOn s).length = 0 := hnone
    -- no more pieces are asked for than there are
    have hfew : (x.askedOn s).length ≤ job.pieces.length := by
      by_cases hacc : x.tcpd.Accepted s
      · obtain ⟨job', hjob', hasked⟩ := h.kept.asked s hacc
        obtain rfl := FtpcSide.job_unique hnodup hjob hjob'
        simpa using hasked.length_le
      · rw [h.kept.unasked s hacc]
        exact Nat.zero_le _
    omega
  obtain ⟨file, hfile, rfl⟩ := List.mem_map.mp hclosed
  obtain ⟨-, job', hjob', hname, hwritten⟩ := h.kept.closed file hfile
  obtain rfl := FtpcSide.job_unique hnodup hjob hjob'
  exact ⟨file, hfile, rfl, hname, hwritten⟩

end FtpsSide

namespace TimedWorld

variable {w w' : TimedWorld} {os : List Out}

/-- `ftps` reads all files. -/
lemma Live.exists_read (h : w.Live) (hall : w.AllArrived) {sock : Int32}
    (hserves : w.server.ftps.serves = some sock) :
    ∃ w' os, machine.turns.CanReach WorldTurn w w' os ∧ w'.Live ∧ w'.client = w.client ∧
      w'.server.toRead w.client.transfers = 0 := by
  have hlower : ∀ u : TimedWorld, (u.Live ∧ u.AllArrived ∧ u.client = w.client ∧
      u.server.ftps.serves = some sock) → 0 < u.server.toRead w.client.transfers →
        ∃ u' os, machine.turns.CanReach WorldTurn u u' os ∧ (u'.Live ∧ u'.AllArrived ∧
          u'.client = w.client ∧ u'.server.ftps.serves = some sock) ∧
          u'.server.toRead w.client.transfers < u.server.toRead w.client.transfers := by
    rintro u ⟨hu, hall, hclient, hserves⟩ hpos
    -- there is something to read, so a file is not closed
    obtain ⟨n, hn, hsome⟩ := List.sum_pos_iff_exists_pos_nat.mp hpos
    obtain ⟨⟨s, job⟩, hjob, rfl⟩ := List.mem_map.mp hn
    have hopen : s ∉ u.server.files.map ReceivedFile.session := by
      intro hclosed
      rw [FtpsSide.toReadOf, if_pos hclosed] at hsome
      exact absurd hsome (lt_irrefl 0)
    obtain ⟨x, os, hreach, hlive, hkeep, hstays, hanswers⟩ :=
      hu.exists_answered fun _ => ⟨hall, s, job, hclient ▸ hjob, hopen⟩
    have hx : x.ftps.serves = some sock := by rw [hstays.ftps, hserves]
    obtain ⟨answer, os', hone, hgo, hreach', hlive', hkeep'⟩ := hlive.exists_resumed hanswers
    refine ⟨_, _, hreach.trans hreach',
      ⟨hlive', hkeep' (hkeep hall), hclient, Ftps.serves_resume hx hgo⟩, ?_⟩
    have hsame : x.toRead w.client.transfers = u.server.toRead w.client.transfers := by
      have hof : x.toReadOf = u.server.toReadOf := by
        funext y
        simp only [FtpsSide.toReadOf, FtpsSide.askedOn, hstays.files, hstays.asks]
      rw [FtpsSide.toRead, hof]
      rfl
    rw [← hsame, ← hclient]
    exact hlive.world.serverOk.resume_lt hx hone hgo
  obtain ⟨u, os, hreach, ⟨hlive, -, hclient, -⟩, hzero⟩ := exists_canReach_zero
    (fun u : TimedWorld => u.server.toRead w.client.transfers) hlower ⟨h, hall, rfl, hserves⟩
  exact ⟨u, os, hreach, hlive, hclient, hzero⟩

/-- **Every transfer can be completed.** After every run of `ftpc`, one after the other, of `ftps`,
of their daemons and of the timer process of the one that sends, in which no socket is connected
twice, the sessions that have been drawn are distinct, none is `-1` and an intact ack comes on the
socket of its session, and whatever part of the frames and acks in flight the network then loses
for good: in whole turns of their loops, without another `ftpc` and with no expiry but of timers
that have run out, the processes can go on so that nothing is held any more, and `ftps` has closed
the file of every transfer that has begun, byte for byte the file that has been sent. -/
theorem completes_of_run (frontAddr bindAddr : SockaddrIn) (now : Timeval)
    (es : List TimedWorldEvent) (w : TimedWorld) (os : List Out)
    (h : Run frontAddr bindAddr now es w os)
    (hfresh : machine.Along (start frontAddr bindAddr now) Fresh es)
    (hnodup : (w.client.transfers.map Prod.fst).Nodup)
    (hrand : ∀ s ∈ w.client.transfers.map Prod.fst, s.toInt32 ≠ -1) (keep : Out → Bool) :
    ∃ w' os', machine.turns.CanReach WorldTurn (w.lose keep) w' os' ∧
      w'.client.transfers = w.client.transfers ∧ w'.Drained ∧
      ∀ s job, (s, job) ∈ w.client.transfers → ∃ file ∈ w'.server.files,
        file.session = s ∧ file.fileName = job.fileName ∧ file.written = job.content := by
  have hlive : (w.lose keep).Live := (live_of_run h hfresh hnodup hrand).lose keep
  obtain ⟨u, os', sock, hreach, hu, hsame, hserves, hdrained, hall⟩ := hlive.exists_allArrived
  have hsame : u.client.transfers = w.client.transfers := hsame
  obtain ⟨w', os'', hreach', hw', hclient, hzero⟩ := hu.exists_read hall hserves
  refine ⟨w', _, hreach.trans hreach', by rw [hclient, hsame], fun fd c hc => ?_,
    fun s job hjob => ?_⟩
  · rw [hclient] at hc
    exact hdrained fd c hc
  · rw [← hclient] at hzero
    exact hw'.world.serverOk.closed_of_toRead hw'.world.nodup hzero (by rwa [hclient, hsame])

/-- A test for `Fresh`. -/
def isFresh (w : TimedWorld) : TimedWorldEvent → Bool
  | .side (.client (.serve _)) =>
    match w.client.calls with
    | (_, .CONNECT sock _) :: _ => (w.client.tcpd.conn sock).isNone
    | _ => true
  | .side (.client (.daemon (.ack fd a _))) =>
    w.client.tcpd.connectedSockets.rows.all fun row => row.2.session ≠ a.session || row.1 = fd
  | _ => true

lemma fresh_of_isFresh {e : TimedWorldEvent} (h : w.isFresh e = true) : w.Fresh e := by
  refine ⟨fun e' he e'' he' sys addr sock a calls heq hcalls => ?_,
    fun fd a now he _ fd' c hc hs => ?_⟩
  · subst he
    subst he'
    subst heq
    simpa [isFresh, hcalls] using h
  · subst he
    have hrow := List.all_eq_true.mp h (fd', c) (HashTable.lookup_eq_some.mp hc)
    simpa [hs] using hrow

/-- `shortFile` is sent, its timers run out, and the first expiry is received. -/
def sendShortTimed : List TimedWorldEvent :=
  sendShort.map .side ++ List.replicate 3 (.round default true)
    ++ [.round ⟨1000, 0⟩ false, .expiry]

/-- Where that leads. -/
def shortTimed : TimedWorld := machine.play (start default default default) sendShortTimed

/-- All frames of the three pieces are lost, and the file is received in the end. -/
theorem completes_of_run_sendShort : ∃ os,
    Run default default default sendShortTimed shortTimed os ∧
    shortTimed.client.transfers.map Prod.fst = [7] ∧ shortTimed.server.files = [] ∧
    shortTimed.expiries.map (·.seqNum) = [1, 0] ∧
    (shortTimed.lose fun _ => false).client.outs.length < shortTimed.client.outs.length ∧
    ∃ w' os', machine.turns.CanReach WorldTurn (shortTimed.lose fun _ => false) w' os' ∧
      w'.client.transfers = shortTimed.client.transfers ∧ w'.Drained ∧
      ∀ s job, (s, job) ∈ shortTimed.client.transfers → ∃ file ∈ w'.server.files,
        file.session = s ∧ file.fileName = job.fileName ∧ file.written = job.content := by
  obtain ⟨os, hrun⟩ : ∃ os, Run default default default sendShortTimed shortTimed os :=
    machine.exec_play _ _ (by decide +kernel)
  have hsessions : shortTimed.client.transfers.map Prod.fst = [7] := by decide +kernel
  have hfiles : shortTimed.server.files = [] := by decide +kernel
  have hexpiries : shortTimed.expiries.map (·.seqNum) = [1, 0] := by decide +kernel
  have hlost : (shortTimed.lose fun _ => false).client.outs.length
      < shortTimed.client.outs.length := by decide +kernel
  have hfresh : machine.Along (start default default default) Fresh sendShortTimed :=
    machine.along_of_check (q := isFresh) (fun _ _ => fresh_of_isFresh) (by decide +kernel)
  refine ⟨os, hrun, hsessions, hfiles, hexpiries, hlost,
    completes_of_run default default default sendShortTimed shortTimed os hrun hfresh ?_ ?_ _⟩
  · rw [hsessions]
    exact List.nodup_singleton _
  · intro s hs
    rw [hsessions, List.mem_singleton] at hs
    subst hs
    exact of_decide_eq_true rfl

end TimedWorld

end NetworkProgramming
