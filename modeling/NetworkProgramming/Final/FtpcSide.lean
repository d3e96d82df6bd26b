import NetworkProgramming.Final.Ftp
import NetworkProgramming.Final.HandOver
import NetworkProgramming.Final.Sender

/-!
# `ftpc` and its daemon

`ftpc` runs next to the daemon that sends for it; the calls and the answers between the two are
neither lost nor reordered. One `ftpc` runs after the other, and every `CONNECT` begins a
transfer: the session it draws, with the file of the `ftpc` that has called. Along every run in
which the sessions are distinct, whatever else the daemon does, each frame carries the piece of
its number of the file of its session (`FtpcSide.Ok`).
-/

namespace NetworkProgramming

/-! ## The answers of a daemon -/

/-- The datagram that answers a call, with the address it goes to. -/
def Out.answer : Out → Option (SockaddrIn × List UInt8)
  | .code addr ret => some (addr, intBytes ret)
  | .accepted addr _ s => some (addr, intBytes s.toInt32)
  | .data addr _ bytes => some (addr, bytes)
  | _ => none

/-- The answers to the process at an address. -/
def answersTo (addr : SockaddrIn) (os : List Out) : List (List UInt8) :=
  os.filterMap fun o => o.answer.bind fun x => if x.1 = addr then some x.2 else none

@[simp] lemma answersTo_nil (addr : SockaddrIn) : answersTo addr [] = [] := rfl

lemma answersTo_of_none {os : List Out} (h : ∀ o ∈ os, o.answer = none) (addr : SockaddrIn) :
    answersTo addr os = [] := by
  refine List.filterMap_eq_nil_iff.mpr fun o ho => ?_
  rw [h o ho]
  rfl

/-- One datagram is at most one answer. -/
lemma answersTo_singleton (addr : SockaddrIn) (o : Out) :
    answersTo addr [o] = [] ∨ ∃ x, o.answer = some x ∧ answersTo addr [o] = [x.2] := by
  unfold answersTo
  cases h : o.answer with
  | none => simp [h]
  | some x =>
    by_cases haddr : x.1 = addr
    · simp [h, haddr]
    · simp [h, haddr]

lemma length_answersTo_singleton (addr : SockaddrIn) (o : Out) :
    (answersTo addr [o]).length ≤ 1 := by
  rcases answersTo_singleton addr o with h | ⟨x, -, h⟩ <;> simp [h]

/-- Only a call, `handle_ack_back` and `handle_recv_back` are answered. -/
lemma answer_of_step {t t' : Tcpd} {e : Event} {os : List Out} (h : t.step e = .ok (t', os))
    (hfront : ¬ e.isFront) (hackBack : e ≠ .ackBack) (hrecvBack : e ≠ .recvBack) :
    ∀ o ∈ os, o.answer = none := by
  cases tcpd_step h with
  | socket | bind | accept | recvRefused | recv | connect | send => exact absurd rfl hfront
  | frameGarbled | ackGarbled | timer | rehash => simp
  | frameAccepted | frameWaiting | ack | ackOther => simp [Out.answer]
  | ackBack => exact absurd rfl hackBack
  | recvBack => exact absurd rfl hrecvBack
  | sendBack hpass =>
    intro o ho
    obtain ⟨_, _, _, -, -, rfl | ⟨_, rfl⟩⟩ := out_of_sendPass hpass ho <;> rfl

/-! ## The side of `ftpc` -/

/-- The run of `ftpc` that waits. -/
def Ftpc.job : Ftpc → Option FtpJob
  | idle => none
  | socket job => some job
  | connect job _ => some job
  | size job _ => some job
  | name job _ => some job
  | chunk job _ _ _ _ => some job

/-- `ftpc` and its daemon. -/
structure FtpcSide where
  ftpc : Ftpc
  /-- the calls the daemon has not read yet, with the addresses they come from -/
  calls : List (SockaddrIn × Call)
  tcpd : Tcpd
  /-- the answers `ftpc` has not read yet -/
  answers : List (List UInt8)
  /-- all the daemon has sent -/
  outs : List Out
  /-- the sessions that have been drawn, with the runs of `ftpc` that have called `CONNECT` -/
  transfers : List (UInt32 × FtpJob)
  /-- what `SEND` has been given, with the session it goes to -/
  sends : List (UInt32 × List UInt8)

/-- An event on the side of `ftpc`. -/
inductive FtpcEvent
  /-- `ftpc` is started, when no other runs -/
  | run (job : FtpJob)
  /-- `ftpc` reads the next answer -/
  | resume
  /-- the daemon reads and serves the next call -/
  | serve (sys : Sys)
  /-- any other event of the daemon -/
  | daemon (e : Event)

namespace FtpcSide

/-- Nothing has happened yet. -/
def start : FtpcSide := ⟨.idle, [], Tcpd.globalInit, [], [], [], []⟩

/-- The transfer a call begins. -/
def begins (x : FtpcSide) (c : Call) (sys : Sys) : List (UInt32 × FtpJob) :=
  match c, x.ftpc.job with
  | .CONNECT _ _, some job => [(sys.rand, job)]
  | _, _ => []

/-- What a call hands over to be sent. -/
def handsOver (x : FtpcSide) (c : Call) : List (UInt32 × List UInt8) :=
  match c with
  | .SEND fd buffer => (x.tcpd.conn fd).toList.map fun conn => (conn.session, buffer.val)
  | _ => []

/-- The daemon has gone on to `tcpd` and sent `os`; `ftpc` gets the answers for its address. -/
def after (x : FtpcSide) (tcpd : Tcpd) (os : List Out) : FtpcSide :=
  { x with tcpd, outs := x.outs ++ os,
           answers := x.answers ++ x.ftpc.frontAddr.elim [] (answersTo · os) }

/-- One event. -/
def step (x : FtpcSide) : FtpcEvent → Except Halt (FtpcSide × List Out)
  | .run job =>
    match x.ftpc with
    | .idle =>
      .ok ({ x with ftpc := .socket job, calls := x.calls ++ [(job.frontAddr, .SOCKET)] }, [])
    | _ => .error .notReady
  | .resume =>
    match x.ftpc.frontAddr, x.answers with
    | some addr, answer :: answers =>
      let r := x.ftpc.resume answer
      .ok ({ x with ftpc := r.1, calls := x.calls ++ r.2.map (addr, ·), answers }, [])
    | _, _ => .error .notReady
  | .serve sys =>
    match x.calls with
    | [] => .error .notReady
    | (addr, c) :: calls =>
      match x.tcpd.step (.front addr c.request sys) with
      | .error halt => .error halt
      | .ok (tcpd, os) =>
        .ok ({ x with calls, transfers := x.transfers ++ x.begins c sys,
                      sends := x.sends ++ x.handsOver c }.after tcpd os, os)
  | .daemon e =>
    if e.isFront then .error .notReady
    else
      match x.tcpd.step e with
      | .error halt => .error halt
      | .ok (tcpd, os) => .ok (x.after tcpd os, os)

/-- What `SEND` has been given for session `s`. -/
def sentOn (s : UInt32) (x : FtpcSide) : List (List UInt8) :=
  (x.sends.filter (·.1 = s)).map Prod.snd

end FtpcSide

/-! ## `ftpc` goes through the pieces -/

/-- `ftpc` waits for the answer to the `SEND` of piece `k` on `sock`. -/
def Ftpc.At (job : FtpJob) (sock : Int32) (k : ℕ) : Ftpc → Prop
  | size job' sock' => job' = job ∧ sock' = sock ∧ k = 0
  | name job' sock' => job' = job ∧ sock' = sock ∧ k = 1
  | chunk job' sock' fileLeft rVal unread => job' = job ∧ sock' = sock ∧
      fileLeft - rVal = unread.length ∧ job.pieces.drop (k + 1) = chunks unread
  | _ => False

/-- The next piece of a file of which `unread` is left. -/
lemma FtpJob.getElem?_pieces (job : FtpJob) {k : ℕ} {unread : List UInt8}
    (h : job.pieces.drop k = chunks unread) (hne : unread ≠ []) :
    job.pieces[k]? = some (unread.take BUF_LEN) := by
  have hget : job.pieces[k]? = (job.pieces.drop k)[0]? := by
    rw [List.getElem?_drop, Nat.add_zero]
  rw [hget, h, chunks_of_ne hne]
  rfl

/-- The loop over the file makes a `SEND` of the next piece, or it ends. -/
lemma Ftpc.sendLoop_eq {job : FtpJob} {sock : Int32} {k : ℕ} {unread : List UInt8}
    (h : job.pieces.drop k = chunks unread) :
    sendLoop job sock unread.length unread = (idle, []) ∨
      ∃ st b, sendLoop job sock unread.length unread = (st, [.SEND sock b]) ∧
        st.At job sock k ∧ job.pieces[k]? = some b.val ∧ st.frontAddr = some job.frontAddr := by
  by_cases hnil : unread = []
  · left
    rw [hnil]
    rfl
  · right
    have hne : unread.length ≠ 0 := fun hlen => hnil (List.length_eq_zero_iff.mp hlen)
    -- `fread` never returns more than is left, so the last turn does not cut anything off
    have hmin : min (unread.take BUF_LEN).length unread.length = (unread.take BUF_LEN).length := by
      rw [List.length_take]
      omega
    have hwhole : (unread.take BUF_LEN).take (min (unread.take BUF_LEN).length unread.length)
        = unread.take BUF_LEN := by
      rw [hmin, List.take_length]
    have hsmall : ((unread.take BUF_LEN).take
        (min (unread.take BUF_LEN).length unread.length)).length < 2 ^ 64 := by
      rw [hwhole, List.length_take]
      unfold BUF_LEN
      omega
    refine ⟨.chunk job sock unread.length (min (unread.take BUF_LEN).length unread.length)
      (unread.drop BUF_LEN), ⟨_, hsmall⟩, ?_, ⟨rfl, rfl, ?_, ?_⟩, ?_, rfl⟩
    · rw [sendLoop, if_neg hne]
      rfl
    · rw [hmin, List.length_take, List.length_drop]
      omega
    · rw [← List.drop_drop, h, chunks_of_ne hnil]
      rfl
    · rw [job.getElem?_pieces h hnil]
      exact congrArg some hwhole.symm

/-- With an answer `ftpc` exits, or goes on to the next piece. -/
lemma Ftpc.At.resume {st : Ftpc} {job : FtpJob} {sock : Int32} {k : ℕ} (h : st.At job sock k)
    (answer : List UInt8) :
    st.resume answer = (idle, []) ∨
      ∃ st' b, st.resume answer = (st', [.SEND sock b]) ∧ st'.At job sock (k + 1) ∧
        job.pieces[k + 1]? = some b.val ∧ st'.frontAddr = some job.frontAddr := by
  cases st with
  | size job' sock' =>
    obtain ⟨rfl, rfl, rfl⟩ := h
    rw [Ftpc.resume]
    split
    · exact Or.inl rfl
    · exact Or.inr ⟨_, _, rfl, ⟨rfl, rfl, rfl⟩, rfl, rfl⟩
  | name job' sock' =>
    obtain ⟨rfl, rfl, rfl⟩ := h
    rw [Ftpc.resume]
    split
    · exact Or.inl rfl
    · exact sendLoop_eq rfl
  | chunk job' sock' fileLeft rVal unread =>
    obtain ⟨rfl, rfl, hleft, hpieces⟩ := h
    rw [Ftpc.resume]
    split
    · exact Or.inl rfl
    · rw [hleft]
      exact sendLoop_eq hpieces
  | _ => exact h.elim

lemma Ftpc.At.frontAddr_eq {st : Ftpc} {job : FtpJob} {sock : Int32} {k : ℕ}
    (h : st.At job sock k) :
    st.frontAddr = some job.frontAddr ∧ st.job = some job := by
  cases st with
  | size job' sock' =>
    obtain ⟨rfl, -⟩ := h
    exact ⟨rfl, rfl⟩
  | name job' sock' =>
    obtain ⟨rfl, -⟩ := h
    exact ⟨rfl, rfl⟩
  | chunk job' sock' fileLeft rVal unread =>
    obtain ⟨rfl, -⟩ := h
    exact ⟨rfl, rfl⟩
  | _ => exact h.elim

/-! ## The daemon of `ftpc` -/

/-- Nothing is bound and no session is accepted. -/
structure Tcpd.Bare (t : Tcpd) : Prop where
  bound : t.bindedSockets = []
  acked : ∀ s, t.ackedSockets.lookup s = none

lemma Tcpd.Bare.of_accepted {t t' : Tcpd} (h : t.Bare) (hbound : t'.bindedSockets = [])
    (hacc : ∀ s, t'.Accepted s ↔ t.Accepted s) : t'.Bare where
  bound := hbound
  acked s := by
    have hnot : ¬ t'.Accepted s := by
      rw [hacc, Tcpd.Accepted, h.acked s]
      simp
    simpa [Tcpd.Accepted] using hnot

/-- It stays so until a `BIND`, and no answer is sent but to a call. -/
lemma Tcpd.Bare.step {t t' : Tcpd} {e : Event} {os : List Out} (hbare : t.Bare)
    (hok : t.SessionsOk) (h : t.step e = .ok (t', os)) (hbind : boundFds [e] = []) :
    t'.Bare ∧ (¬ e.isFront → ∀ o ∈ os, o.answer = none) := by
  have hstep := lobby_step hok h
  constructor
  · cases hstep with
    | frame _ hbound _ hacc _ => exact hbare.of_accepted (hbound.trans hbare.bound) hacc
    | bind _ _ => simp [boundFds] at hbind
    | accept hcalm =>
      refine hbare.of_accepted ?_ hcalm.accepted
      simp [tcpdAccept, hbare.bound, acceptLoop]
    | handOver =>
      -- no socket is bound, so nobody waits for a session
      have hnone : handleAckBack t = (t, []) := by
        rw [handleAckBack_eq, hbare.bound]
        cases t
        cases hbare.bound
        rfl
      rw [hnone]
      exact hbare
    | other _ _ _ hbound hcalm => exact hbare.of_accepted (hbound.trans hbare.bound) hcalm.accepted
  · intro hfront
    -- the two passes that answer have nobody to answer
    by_cases hack : e = .ackBack
    · subst hack
      have hos : (handleAckBack t).2 = os := congrArg Prod.snd (Except.ok.inj h)
      rw [← hos, handleAckBack_eq, hbare.bound]
      simp [handOver]
    · by_cases hrecv : e = .recvBack
      · subst hrecv
        obtain ⟨hpass, -⟩ := handleRecvBack_ok h
        intro o ho
        obtain ⟨x, -, hold, -⟩ := HashTable.pass_outs hpass ho
        rw [hbare.acked] at hold
        cases hold
      · exact answer_of_step h hfront hack hrecv

/-- What is not a call leaves a connection its session and its number, and adds no package. -/
lemma ConnStep.of_not_front {fd : Int32} {x x' : Option ConnectedSock} {e : Event}
    (h : ConnStep fd x e x') (hfront : ¬ e.isFront) :
    (x = none ∧ x' = none) ∨ ∃ c c', x = some c ∧ x' = some c' ∧ c'.session = c.session ∧
      c'.base = c.base ∧ ∀ m ∈ c'.held, m ∈ c.held := by
  cases h with
  | connect => exact absurd rfl hfront
  | send _ => exact absurd rfl hfront
  | ack _ =>
    right
    exact ⟨_, _, rfl, rfl, rfl, rfl, fun m hm => (ConnectedSock.held_drop_sublist _ _).subset hm⟩
  | @timer c _ _ =>
    right
    refine ⟨_, _, rfl, rfl, ?_, ?_, fun m hm => (c.held_expire_perm _ _).mem_iff.mp hm⟩
    · unfold ConnectedSock.expire
      split <;> rfl
    · unfold ConnectedSock.expire
      split <;> rfl
  | @pass c _ =>
    right
    exact ⟨_, _, rfl, rfl, rfl, rfl, fun m hm => c.held_afterPass_perm.mem_iff.mp hm⟩
  | other _ _ _ _ =>
    cases x with
    | none => exact Or.inl ⟨rfl, rfl⟩
    | some c => exact Or.inr ⟨c, c, rfl, rfl, rfl, rfl, fun _ hm => hm⟩

/-- A package carries what `tcpd_SEND` has copied into it. -/
lemma data_makePackage (c : ConnectedSock) (buf : Buffer BUF_LEN) {len : UInt64}
    (hlen : len.toNat ≤ BUF_LEN) (fresh : TrollMessageStruct) :
    (c.makePackage buf len fresh).data = buf.toList.take len.toNat := by
  have hfits : len.toNat = 0 + (buf.toList.take len.toNat).length := by simp [hlen]
  exact Buffer.take_write (by rw [← hfits]; exact hlen) hfits

/-- `SOCKET` changes nothing. -/
lemma step_socketCall {t t' : Tcpd} {addr : SockaddrIn} {sys : Sys} {os : List Out}
    (h : t.step (.front addr Call.SOCKET.request sys) = .ok (t', os)) :
    t' = t ∧ ∃ o, os = [o] ∧ framesOf os = [] := by
  rw [Call.request] at h
  cases tcpd_step h
  exact ⟨rfl, _, rfl, rfl⟩

/-- `CONNECT` makes the entry of its socket anew. -/
lemma step_connectCall {t t' : Tcpd} {addr a : SockaddrIn} {sock : Int32} {sys : Sys}
    {os : List Out} (h : t.step (.front addr (Call.CONNECT sock a).request sys) = .ok (t', os)) :
    t'.conn sock = some (.create sock sys.rand a) ∧ (∀ fd, fd ≠ sock → t'.conn fd = t.conn fd) ∧
      ∃ o, os = [o] ∧ framesOf os = [] := by
  rw [Call.request] at h
  cases tcpd_step h
  refine ⟨HashTable.lookup_insert_self _ _ _, fun fd hfd => ?_, _, rfl, rfl⟩
  exact HashTable.lookup_insert_ne _ _ hfd

/-- `SEND` of no more than a buffer queues a package with these bytes. -/
lemma step_sendCall {t t' : Tcpd} {addr : SockaddrIn} {sock : Int32}
    {b : { l : List UInt8 // l.length < 2 ^ 64 }} {sys : Sys} {os : List Out}
    (hb : b.val.length ≤ BUF_LEN)
    (h : t.step (.front addr (Call.SEND sock b).request sys) = .ok (t', os)) :
    ∃ c m, t.conn sock = some c ∧ t'.conn sock = some (c.enqueue m) ∧
      (∀ fd, fd ≠ sock → t'.conn fd = t.conn fd) ∧ m.seqNum = c.base ∧ m.len.toNat ≤ BUF_LEN ∧
      m.data = b.val ∧ ∃ o, os = [o] ∧ framesOf os = [] := by
  have hlen : (UInt64.ofNat b.val.length).toNat = b.val.length := by
    rw [UInt64.toNat_ofNat', Nat.mod_eq_of_lt b.2]
  have hsmall : (UInt64.ofNat b.val.length).toNat ≤ BUF_LEN := hlen.trans_le hb
  rw [Call.request] at h
  cases tcpd_step h with
  | send hroom _ hc =>
    refine ⟨_, _, hc, HashTable.lookup_insert_self _ _ _, fun fd hfd => ?_, rfl, hsmall, ?_, _,
      rfl, rfl⟩
    · exact HashTable.lookup_insert_ne _ _ hfd
    · have hwhole : b.val.take BUF_LEN = b.val := List.take_of_length_le hb
      rw [data_makePackage _ _ hsmall, hlen,
        Buffer.take_write (by simp) (by rw [hwhole, Nat.zero_add]), hwhole]
      rfl

/-! ## The pieces of a file are few -/

lemma length_chunks_le (unread : List UInt8) :
    (chunks unread).length ≤ (unread.length + 999) / 1000 := by
  induction unread using chunks.induct with
  | case1 => simp
  | case2 unread hne ih =>
    have hpos := List.length_pos_iff.mpr hne
    rw [chunks_of_ne hne, List.length_cons]
    rw [List.length_drop] at ih
    unfold BUF_LEN at ih ⊢
    omega

lemma FtpJob.length_pieces_lt (job : FtpJob) : job.pieces.length + 1 < 2 ^ 32 := by
  have hchunks := length_chunks_le job.content
  have hsmall := job.small
  rw [pieces, List.length_cons, List.length_cons]
  omega

/-! ## Where `ftpc` is -/

namespace FtpcSide

/-- The connection on `sock` carries the file of `job` and has been given its first `k` pieces. -/
def Connected (x : FtpcSide) (job : FtpJob) (sock : Int32) (k : ℕ) : Prop :=
  ∃ c, x.tcpd.conn sock = some c ∧ (c.session, job) ∈ x.transfers ∧ c.base.toNat = k

/-- Where `ftpc` is: every call it waits for is on its way, or served and answered. -/
inductive Stage (x : FtpcSide) : Prop
  | idle (hftpc : x.ftpc = .idle) (hcalls : x.calls = []) (hanswers : x.answers = [])
  | socketCalled (job : FtpJob) (hftpc : x.ftpc = .socket job)
      (hcalls : x.calls = [(job.frontAddr, .SOCKET)]) (hanswers : x.answers = [])
  | socketServed (job : FtpJob) (hftpc : x.ftpc = .socket job) (hcalls : x.calls = [])
      (hanswers : x.answers.length ≤ 1)
  | connectCalled (job : FtpJob) (sock : Int32) (hftpc : x.ftpc = .connect job sock)
      (hcalls : x.calls = [(job.frontAddr, .CONNECT sock job.serverAddr)])
      (hanswers : x.answers = [])
  | connectServed (job : FtpJob) (sock : Int32) (hftpc : x.ftpc = .connect job sock)
      (hcalls : x.calls = []) (hanswers : x.answers.length ≤ 1) (hconn : x.Connected job sock 0)
  | sendCalled (job : FtpJob) (sock : Int32) (k : ℕ) (b : { l : List UInt8 // l.length < 2 ^ 64 })
      (hftpc : x.ftpc.At job sock k) (hpiece : job.pieces[k]? = some b.val)
      (hcalls : x.calls = [(job.frontAddr, .SEND sock b)]) (hanswers : x.answers = [])
      (hconn : x.Connected job sock k)
  | sendServed (job : FtpJob) (sock : Int32) (k : ℕ) (hftpc : x.ftpc.At job sock k)
      (hcalls : x.calls = []) (hanswers : x.answers.length ≤ 1)
      (hconn : x.Connected job sock (k + 1))

/-- The connection carries a file, and has been given the pieces before `Base`. -/
def Carries (x : FtpcSide) (c : ConnectedSock) : Prop :=
  ∃ job, (c.session, job) ∈ x.transfers ∧ c.base.toNat ≤ job.pieces.length ∧
    x.sentOn c.session = job.pieces.take c.base.toNat ∧ ∀ m ∈ c.held, CarriesBody job.pieces m

/-- What holds on the side of `ftpc`. -/
structure Ok (x : FtpcSide) : Prop where
  sessions : x.tcpd.SessionsOk
  client : x.tcpd.ClientOk
  bare : x.tcpd.Bare
  conns : ∀ fd c, x.tcpd.conn fd = some c → x.Carries c
  apart : ∀ fd fd' c c', x.tcpd.conn fd = some c → x.tcpd.conn fd' = some c' →
    c.session = c'.session → fd = fd'
  sent : ∀ s job, (s, job) ∈ x.transfers → x.sentOn s <+: job.pieces
  unsent : ∀ s, s ∉ x.transfers.map Prod.fst → x.sentOn s = []
  frames : ∀ m ∈ framesOf x.outs,
    m.Valid ∧ ∃ job, (m.session, job) ∈ x.transfers ∧ CarriesBody job.pieces m
  stage : x.Stage

variable {x x' : FtpcSide} {os : List Out}

/-- A new `ftpc` makes its first call. -/
lemma Stage.run (h : x.Stage) {job : FtpJob} (hftpc : x.ftpc = .idle) :
    Stage { x with ftpc := .socket job, calls := x.calls ++ [(job.frontAddr, .SOCKET)] } := by
  cases h with
  | idle _ hcalls hanswers => exact .socketCalled job rfl (by rw [hcalls]; rfl) hanswers
  | socketCalled job' hftpc' _ _ => simp [hftpc] at hftpc'
  | socketServed job' hftpc' _ _ => simp [hftpc] at hftpc'
  | connectCalled job' sock hftpc' _ _ => simp [hftpc] at hftpc'
  | connectServed job' sock hftpc' _ _ _ => simp [hftpc] at hftpc'
  | sendCalled job' sock k b hftpc' _ _ _ _ => exact (hftpc ▸ hftpc' : Ftpc.At _ _ _ .idle).elim
  | sendServed job' sock k hftpc' _ _ _ => exact (hftpc ▸ hftpc' : Ftpc.At _ _ _ .idle).elim

/-- `ftpc` goes on with an answer. -/
lemma Stage.resume (h : x.Stage) {addr : SockaddrIn} {answer : List UInt8}
    {answers : List (List UInt8)} (haddr : x.ftpc.frontAddr = some addr)
    (hanswers : x.answers = answer :: answers) :
    Stage { x with ftpc := (x.ftpc.resume answer).1,
                   calls := x.calls ++ (x.ftpc.resume answer).2.map (addr, ·), answers } := by
  have hlast : x.answers.length ≤ 1 → answers = [] := by
    intro hle
    rw [hanswers, List.length_cons] at hle
    exact List.length_eq_zero_iff.mp (by omega)
  -- an answer is there only after a call has been served
  cases h with
  | idle _ _ hnone => simp [hnone] at hanswers
  | socketCalled _ _ _ hnone => simp [hnone] at hanswers
  | connectCalled _ _ _ _ hnone => simp [hnone] at hanswers
  | sendCalled _ _ _ _ _ _ _ hnone _ => simp [hnone] at hanswers
  | socketServed job hftpc hcalls hle =>
    rw [hftpc] at haddr ⊢
    obtain rfl := Option.some.inj haddr
    rw [hcalls, hlast hle, Ftpc.resume]
    split
    · exact .idle rfl rfl rfl
    · exact .connectCalled job _ rfl rfl rfl
  | connectServed job sock hftpc hcalls hle hconn =>
    rw [hftpc] at haddr ⊢
    obtain rfl := Option.some.inj haddr
    rw [hcalls, hlast hle, Ftpc.resume]
    split
    · exact .idle rfl rfl rfl
    · exact .sendCalled job sock 0 _ ⟨rfl, rfl, rfl⟩ rfl rfl rfl hconn
  | sendServed job sock k hftpc hcalls hle hconn =>
    rw [hftpc.frontAddr_eq.1] at haddr
    obtain rfl := Option.some.inj haddr
    rw [hcalls, hlast hle]
    rcases hftpc.resume answer with hdone | ⟨st, b, hnext, hat, hpiece, -⟩
    · rw [hdone]
      exact .idle rfl rfl rfl
    · rw [hnext]
      exact .sendCalled job sock (k + 1) b hat hpiece rfl rfl hconn

lemma Stage.congr (h : x.Stage) (hftpc : x'.ftpc = x.ftpc) (hcalls : x'.calls = x.calls)
    (hanswers : x'.answers = x.answers)
    (hconn : ∀ job sock k, x.Connected job sock k → x'.Connected job sock k) : x'.Stage := by
  cases h with
  | idle h₁ h₂ h₃ => exact .idle (hftpc.trans h₁) (hcalls.trans h₂) (hanswers.trans h₃)
  | socketCalled job h₁ h₂ h₃ =>
    exact .socketCalled job (hftpc.trans h₁) (hcalls.trans h₂) (hanswers.trans h₃)
  | socketServed job h₁ h₂ h₃ =>
    exact .socketServed job (hftpc.trans h₁) (hcalls.trans h₂) (by rw [hanswers]; exact h₃)
  | connectCalled job sock h₁ h₂ h₃ =>
    exact .connectCalled job sock (hftpc.trans h₁) (hcalls.trans h₂) (hanswers.trans h₃)
  | connectServed job sock h₁ h₂ h₃ h₄ =>
    exact .connectServed job sock (hftpc.trans h₁) (hcalls.trans h₂) (by rw [hanswers]; exact h₃)
      (hconn _ _ _ h₄)
  | sendCalled job sock k b h₁ h₂ h₃ h₄ h₅ =>
    exact .sendCalled job sock k b (by rw [hftpc]; exact h₁) h₂ (hcalls.trans h₃)
      (hanswers.trans h₄) (hconn _ _ _ h₅)
  | sendServed job sock k h₁ h₂ h₃ h₄ =>
    exact .sendServed job sock k (by rw [hftpc]; exact h₁) (hcalls.trans h₂)
      (by rw [hanswers]; exact h₃) (hconn _ _ _ h₄)

/-- Connections that had their sessions before are as far apart as they were. -/
lemma Ok.apart_of_sessions (h : x.Ok) {t : Tcpd}
    (hback : ∀ fd c, t.conn fd = some c →
      ∃ d, x.tcpd.conn fd = some d ∧ c.session = d.session) {fd fd' : Int32}
    {c c' : ConnectedSock} (hc : t.conn fd = some c) (hc' : t.conn fd' = some c')
    (hs : c.session = c'.session) : fd = fd' := by
  obtain ⟨d, hd, hds⟩ := hback fd c hc
  obtain ⟨d', hd', hds'⟩ := hback fd' c' hc'
  exact h.apart fd fd' d d' hd hd' (by rw [← hds, ← hds', hs])

/-- The daemon makes a step of its own. -/
lemma Ok.daemon (h : x.Ok) {e : Event} (hfront : ¬ e.isFront) {t : Tcpd}
    (hstep : x.tcpd.step e = .ok (t, os)) : (x.after t os).Ok := by
  have hbind : boundFds [e] = [] := by
    cases e with
    | front addr r sys => exact absurd rfl hfront
    | _ => rfl
  obtain ⟨hbare, hsilent⟩ := h.bare.step h.sessions hstep hbind
  -- every connection was there before, with its session, its number and all that it holds
  have hback : ∀ fd c', t.conn fd = some c' → ∃ c, x.tcpd.conn fd = some c ∧
      c'.session = c.session ∧ c'.base = c.base ∧ ∀ m ∈ c'.held, m ∈ c.held := by
    intro fd c' hc'
    rcases (conn_step hstep fd).of_not_front hfront with ⟨-, hnone⟩ | ⟨c, c'', hc, hc'', hsame⟩
    · rw [hc'] at hnone
      cases hnone
    · rw [hc'] at hc''
      cases hc''
      exact ⟨c, hc, hsame⟩
  refine ⟨sessionsOk_step h.sessions hstep, clientOk_step h.client hstep, hbare,
    fun fd c' hc' => ?_, fun fd fd' c c' hc hc' hs => ?_, h.sent, h.unsent, fun m hm => ?_, ?_⟩
  · obtain ⟨c, hc, hs, hb, hheld⟩ := hback fd c' hc'
    obtain ⟨job, hjob, hle, hsent, hall⟩ := h.conns fd c hc
    refine ⟨job, ?_, ?_, ?_, fun m hm => hall m (hheld m hm)⟩
    · rw [hs]
      exact hjob
    · rw [hb]
      exact hle
    · rw [hs, hb]
      exact hsent
  · refine h.apart_of_sessions (fun fd c hc => ?_) hc hc' hs
    obtain ⟨d, hd, hds, -⟩ := hback fd c hc
    exact ⟨d, hd, hds⟩
  · have hm' : m ∈ framesOf (x.outs ++ os) := hm
    rw [framesOf_append] at hm'
    rcases List.mem_append.mp hm' with hold | hnew
    · exact h.frames m hold
    · obtain ⟨fd, hframe⟩ := mem_framesOf.mp hnew
      obtain ⟨fd', c, hc, -, hsend⟩ := frame_of_step hstep hframe
      have hheld : m ∈ c.held := List.mem_append_right _ (List.mem_of_mem_filter hsend)
      obtain ⟨job, hjob, -, -, hall⟩ := h.conns fd' c hc
      refine ⟨(h.client.conns fd' c hc).valid m hheld, job, ?_, hall m hheld⟩
      rw [(h.client.conns fd' c hc).session m hheld]
      exact hjob
  · refine h.stage.congr rfl rfl ?_ fun job sock k ⟨c, hc, hjob, hk⟩ => ?_
    · show x.answers ++ x.ftpc.frontAddr.elim [] (answersTo · os) = x.answers
      have hnone : x.ftpc.frontAddr.elim [] (answersTo · os) = [] := by
        cases x.ftpc.frontAddr with
        | none => rfl
        | some addr => exact answersTo_of_none (hsilent hfront) addr
      rw [hnone, List.append_nil]
    · rcases (conn_step hstep sock).of_not_front hfront with
        ⟨hnone, -⟩ | ⟨d, c', hd, hc', hs, hb, -⟩
      · rw [hc] at hnone
        cases hnone
      · rw [hc] at hd
        cases hd
        refine ⟨c', hc', ?_, by rw [hb]; exact hk⟩
        rw [hs]
        exact hjob

lemma length_answersTo_le (addr : Option SockaddrIn) (o : Out) :
    (addr.elim [] (answersTo · [o])).length ≤ 1 := by
  cases addr with
  | none => exact Nat.zero_le _
  | some addr => exact length_answersTo_singleton addr o

/-- A served call is answered once. -/
lemma length_answers_after (hanswers : x.answers = []) (t : Tcpd) (o : Out) :
    (x.after t [o]).answers.length ≤ 1 := by
  show (x.answers ++ _).length ≤ 1
  rw [hanswers]
  exact length_answersTo_le _ o

/-- Such an answer is no frame. -/
lemma framesOf_snoc {o : Out} (ho : framesOf [o] = []) :
    framesOf (os ++ [o]) = framesOf os := by
  rw [framesOf_append, ho, List.append_nil]

/-- Sessions that are distinct belong to one run of `ftpc` each. -/
lemma job_unique {transfers : List (UInt32 × FtpJob)} (h : (transfers.map Prod.fst).Nodup)
    {s : UInt32} {job job' : FtpJob} (hjob : (s, job) ∈ transfers) (hjob' : (s, job') ∈ transfers) :
    job = job' :=
  congrArg Prod.snd (List.inj_on_of_nodup_map h hjob hjob' rfl)

lemma Carries.mono {c : ConnectedSock} (h : x.Carries c)
    (htransfers : ∀ y ∈ x.transfers, y ∈ x'.transfers)
    (hsends : x'.sentOn c.session = x.sentOn c.session) : x'.Carries c := by
  obtain ⟨job, hjob, hle, hsent, hall⟩ := h
  exact ⟨job, htransfers _ hjob, hle, hsends.trans hsent, hall⟩

/-- A `SOCKET` is served. -/
lemma Ok.serveSocket (h : x.Ok) {job : FtpJob} (hftpc : x.ftpc = .socket job)
    (hanswers : x.answers = []) {o : Out} (ho : framesOf [o] = []) :
    Ok ({ x with calls := [] }.after x.tcpd [o]) := by
  refine ⟨h.sessions, h.client, h.bare, h.conns, h.apart, h.sent, h.unsent, fun m hm => ?_,
    .socketServed job hftpc rfl (length_answers_after hanswers x.tcpd o)⟩
  have hm' : m ∈ framesOf (x.outs ++ [o]) := hm
  rw [framesOf_snoc ho] at hm'
  exact h.frames m hm'

/-- A `CONNECT` is served: a transfer begins. -/
lemma Ok.serveConnect (h : x.Ok) {job : FtpJob} {sock : Int32} (hftpc : x.ftpc = .connect job sock)
    (hanswers : x.answers = []) {addr : SockaddrIn} {sys : Sys} {t : Tcpd}
    (hnodup : ((x.transfers ++ [(sys.rand, job)]).map Prod.fst).Nodup)
    (hstep : x.tcpd.step (.front addr (Call.CONNECT sock job.serverAddr).request sys)
      = .ok (t, os)) :
    Ok ({ x with calls := [], transfers := x.transfers ++ [(sys.rand, job)] }.after t os) := by
  obtain ⟨hsock, hothers, o, rfl, ho⟩ := step_connectCall hstep
  have hnew : sys.rand ∉ x.transfers.map Prod.fst := by
    rw [List.map_append] at hnodup
    intro hmem
    exact List.disjoint_of_nodup_append hnodup hmem (by simp)
  have hold : ∀ y ∈ x.transfers, y ∈ x.transfers ++ [(sys.rand, job)] :=
    fun y hy => List.mem_append_left _ hy
  have hfirst : (sys.rand, job) ∈ x.transfers ++ [(sys.rand, job)] := by simp
  -- the sessions of the other connections are not the new one
  have hne : ∀ fd c, x.tcpd.conn fd = some c → c.session ≠ sys.rand := by
    intro fd c hc heq
    obtain ⟨job', hjob', -⟩ := h.conns fd c hc
    exact hnew (List.mem_map.mpr ⟨_, hjob', heq⟩)
  refine ⟨sessionsOk_step h.sessions hstep, clientOk_step h.client hstep,
    (h.bare.step h.sessions hstep rfl).1, fun fd c hc => ?_, fun fd fd' c c' hc hc' hs => ?_,
    fun s job' hjob' => ?_, fun s hs => ?_, fun m hm => ?_, .connectServed job sock hftpc rfl ?_ ?_⟩
  · have hc₁ : t.conn fd = some c := hc
    by_cases hfd : fd = sock
    · rw [hfd, hsock] at hc₁
      cases hc₁
      exact ⟨job, hfirst, Nat.zero_le _, h.unsent _ hnew, by simp⟩
    · rw [hothers fd hfd] at hc₁
      exact (h.conns fd c hc₁).mono hold rfl
  · have hc₁ : t.conn fd = some c := hc
    have hc₁' : t.conn fd' = some c' := hc'
    by_cases hfd : fd = sock
    · by_cases hfd' : fd' = sock
      · rw [hfd, hfd']
      · rw [hfd, hsock] at hc₁
        rw [hothers fd' hfd'] at hc₁'
        cases hc₁
        exact absurd hs.symm (hne fd' c' hc₁')
    · rw [hothers fd hfd] at hc₁
      by_cases hfd' : fd' = sock
      · rw [hfd', hsock] at hc₁'
        cases hc₁'
        exact absurd hs (hne fd c hc₁)
      · rw [hothers fd' hfd'] at hc₁'
        exact h.apart fd fd' c c' hc₁ hc₁' hs
  · rcases List.mem_append.mp hjob' with hjob' | hjob'
    · exact h.sent s job' hjob'
    · cases List.mem_singleton.mp hjob'
      show x.sentOn sys.rand <+: _
      rw [h.unsent _ hnew]
      exact List.nil_prefix
  · refine h.unsent s fun hmem => hs ?_
    show s ∈ (x.transfers ++ [(sys.rand, job)]).map Prod.fst
    rw [List.map_append]
    exact List.mem_append_left _ hmem
  · have hm' : m ∈ framesOf (x.outs ++ [o]) := hm
    rw [framesOf_snoc ho] at hm'
    obtain ⟨hvalid, job', hjob', hcarries⟩ := h.frames m hm'
    exact ⟨hvalid, job', hold _ hjob', hcarries⟩
  · exact length_answers_after hanswers t o
  · exact ⟨_, hsock, hfirst, rfl⟩

/-- A `SEND` is served: the connection has one more piece. -/
lemma Ok.serveSend (h : x.Ok) {job : FtpJob} {sock : Int32} {k : ℕ}
    {b : { l : List UInt8 // l.length < 2 ^ 64 }} (hftpc : x.ftpc.At job sock k)
    (hpiece : job.pieces[k]? = some b.val) (hanswers : x.answers = [])
    (hconn : x.Connected job sock k) (hnodup : (x.transfers.map Prod.fst).Nodup)
    {addr : SockaddrIn} {sys : Sys} {t : Tcpd}
    (hstep : x.tcpd.step (.front addr (Call.SEND sock b).request sys) = .ok (t, os)) :
    Ok ({ x with calls := [], sends := x.sends ++ x.handsOver (.SEND sock b) }.after t os) := by
  have hb : b.val.length ≤ BUF_LEN := (FtpJob.mem_pieces (List.mem_of_getElem? hpiece)).2
  obtain ⟨c, m, hc, hsock, hothers, hseq, hlen, hdata, o, rfl, ho⟩ := step_sendCall hb hstep
  obtain ⟨c₀, hc₀, hjob, hbase⟩ := hconn
  rw [hc] at hc₀
  cases hc₀
  obtain ⟨job', hjob', -, hsent, hall⟩ := h.conns sock c hc
  obtain rfl := job_unique hnodup hjob hjob'
  have hk : k < job.pieces.length := (List.getElem?_eq_some_iff.mp hpiece).1
  have hnext : (c.base + 1).toNat = k + 1 := by
    have hsmall := job.length_pieces_lt
    rw [UInt32.toNat_add, UInt32.toNat_one, hbase, Nat.mod_eq_of_lt (by omega)]
  have hhands : x.handsOver (.SEND sock b) = [(c.session, b.val)] := by
    simp [handsOver, hc]
  generalize hx' : ({ x with calls := [], sends := x.sends ++ x.handsOver (.SEND sock b) }.after t
    [o] : FtpcSide) = x'
  have hsends : x'.sends = x.sends ++ [(c.session, b.val)] := by
    rw [← hx', ← hhands]
    rfl
  -- the session of the connection has one more piece, the others have what they had
  have hself : x'.sentOn c.session = job.pieces.take (k + 1) := by
    rw [sentOn, hsends, List.filter_append, List.map_append, ← sentOn, hsent, hbase,
      List.take_add_one, hpiece]
    simp
  have hne : ∀ s, s ≠ c.session → x'.sentOn s = x.sentOn s := by
    intro s hs
    rw [sentOn, hsends, List.filter_append, List.map_append, ← sentOn]
    simp [Ne.symm hs]
  have htransfers : x'.transfers = x.transfers := by rw [← hx']; rfl
  have htcpd : x'.tcpd = t := by rw [← hx']; rfl
  refine ⟨?_, ?_, ?_, fun fd d hd => ?_, fun fd fd' d d' hd hd' hs => ?_, fun s job' hjob' => ?_,
    fun s hs => ?_, fun m' hm' => ?_, .sendServed job sock k ?_ ?_ ?_ ?_⟩
  · rw [htcpd]
    exact sessionsOk_step h.sessions hstep
  · rw [htcpd]
    exact clientOk_step h.client hstep
  · rw [htcpd]
    exact (h.bare.step h.sessions hstep rfl).1
  · rw [htcpd] at hd
    by_cases hfd : fd = sock
    · rw [hfd, hsock] at hd
      cases hd
      refine ⟨job, by rw [htransfers]; exact hjob, ?_, ?_, fun m' hm' => ?_⟩
      · show (c.base + 1).toNat ≤ _
        rw [hnext]
        exact hk
      · show x'.sentOn c.session = job.pieces.take (c.base + 1).toNat
        rw [hself, hnext]
      · rw [ConnectedSock.held_enqueue] at hm'
        rcases List.mem_append.mp hm' with hm' | hm'
        · exact hall m' hm'
        · rw [List.mem_singleton.mp hm']
          exact ⟨hlen, by rw [hseq, hbase, hpiece, hdata]⟩
    · rw [hothers fd hfd] at hd
      refine (h.conns fd d hd).mono (by rw [htransfers]; exact fun _ hy => hy) (hne _ ?_)
      exact fun hs => hfd (h.apart fd sock d c hd hc hs)
  · have hback : ∀ fd d, t.conn fd = some d → ∃ d₀, x.tcpd.conn fd = some d₀ ∧
        d.session = d₀.session := by
      intro fd d hd
      by_cases hfd : fd = sock
      · rw [hfd, hsock] at hd
        cases hd
        exact ⟨c, by rw [hfd]; exact hc, rfl⟩
      · rw [hothers fd hfd] at hd
        exact ⟨d, hd, rfl⟩
    rw [htcpd] at hd hd'
    exact h.apart_of_sessions hback hd hd' hs
  · rw [htransfers] at hjob'
    by_cases hs : s = c.session
    · subst hs
      rw [hself, job_unique hnodup hjob' hjob]
      exact List.take_prefix _ _
    · rw [hne s hs]
      exact h.sent s job' hjob'
  · rw [htransfers] at hs
    rw [hne s fun heq => hs (List.mem_map.mpr ⟨_, hjob, heq.symm⟩)]
    exact h.unsent s hs
  · have houts : x'.outs = x.outs ++ [o] := by rw [← hx']; rfl
    rw [houts, framesOf_snoc ho] at hm'
    rw [htransfers]
    exact h.frames m' hm'
  · rw [← hx']
    exact hftpc
  · rw [← hx']
    rfl
  · rw [← hx']
    exact length_answers_after hanswers t o
  · refine ⟨_, by rw [htcpd]; exact hsock, by rw [htransfers]; exact hjob, hnext⟩

/-- **One event on the side of `ftpc`.** -/
theorem Ok.step (h : x.Ok) {e : FtpcEvent} (hstep : x.step e = .ok (x', os))
    (hnodup : (x'.transfers.map Prod.fst).Nodup) : x'.Ok := by
  cases e with
  | run job =>
    simp only [FtpcSide.step] at hstep
    split at hstep
    · rename_i hftpc
      cases hstep
      exact ⟨h.sessions, h.client, h.bare, h.conns, h.apart, h.sent, h.unsent, h.frames,
        h.stage.run hftpc⟩
    · cases hstep
  | resume =>
    simp only [FtpcSide.step] at hstep
    split at hstep
    · rename_i addr answer answers haddr hanswers
      cases hstep
      exact ⟨h.sessions, h.client, h.bare, h.conns, h.apart, h.sent, h.unsent, h.frames,
        h.stage.resume haddr hanswers⟩
    · cases hstep
  | serve sys =>
    simp only [FtpcSide.step] at hstep
    split at hstep
    · cases hstep
    · rename_i addr c calls hcalls
      split at hstep
      · cases hstep
      · rename_i t os' htcpd
        cases hstep
        -- a call is in flight in three stages only, and each says which call it is
        cases h.stage with
        | idle _ hnone _ => simp [hnone] at hcalls
        | socketServed _ _ hnone _ => simp [hnone] at hcalls
        | connectServed _ _ _ hnone _ _ => simp [hnone] at hcalls
        | sendServed _ _ _ _ hnone _ _ => simp [hnone] at hcalls
        | socketCalled job hftpc hcall hanswers =>
          obtain ⟨hfirst, rfl⟩ := List.cons.inj (hcalls.symm.trans hcall)
          cases hfirst
          obtain ⟨rfl, o, rfl, ho⟩ := step_socketCall htcpd
          have hok := h.serveSocket hftpc hanswers ho
          simpa only [begins, handsOver, List.append_nil] using hok
        | connectCalled job sock hftpc hcall hanswers =>
          obtain ⟨hfirst, rfl⟩ := List.cons.inj (hcalls.symm.trans hcall)
          cases hfirst
          have hbegins : x.begins (.CONNECT sock job.serverAddr) sys = [(sys.rand, job)] := by
            simp [begins, hftpc, Ftpc.job]
          rw [hbegins] at hnodup ⊢
          have hok := h.serveConnect hftpc hanswers hnodup htcpd
          simpa only [handsOver, List.append_nil] using hok
        | sendCalled job sock k b hftpc hpiece hcall hanswers hconn =>
          obtain ⟨hfirst, rfl⟩ := List.cons.inj (hcalls.symm.trans hcall)
          cases hfirst
          have hbegins : x.begins (.SEND sock b) sys = [] := rfl
          rw [hbegins, List.append_nil] at hnodup ⊢
          exact h.serveSend hftpc hpiece hanswers hconn hnodup htcpd
  | daemon e =>
    simp only [FtpcSide.step] at hstep
    split at hstep
    · cases hstep
    · rename_i hfront
      split at hstep
      · cases hstep
      · rename_i t os' htcpd
        cases hstep
        exact h.daemon hfront htcpd

lemma ok_start : start.Ok where
  sessions := sessionsOk_globalInit
  client := clientOk_globalInit
  bare := ⟨rfl, fun _ => rfl⟩
  conns := by simp [start, Tcpd.conn, Tcpd.globalInit]
  apart := by simp [start, Tcpd.conn, Tcpd.globalInit]
  sent := by simp [start]
  unsent := by simp [start, sentOn]
  frames := by simp [start, framesOf]
  stage := .idle rfl rfl rfl

/-- The transfers and the frames only grow. -/
lemma step_grows {e : FtpcEvent} (h : x.step e = .ok (x', os)) :
    x.transfers <+: x'.transfers ∧ x.outs <+: x'.outs := by
  cases e with
  | run job =>
    simp only [FtpcSide.step] at h
    split at h <;> cases h
    exact ⟨List.prefix_rfl, List.prefix_rfl⟩
  | resume =>
    simp only [FtpcSide.step] at h
    split at h <;> cases h
    exact ⟨List.prefix_rfl, List.prefix_rfl⟩
  | serve sys =>
    simp only [FtpcSide.step] at h
    split at h
    · cases h
    · split at h <;> cases h
      exact ⟨List.prefix_append _ _, List.prefix_append _ _⟩
  | daemon e =>
    simp only [FtpcSide.step] at h
    split at h
    · cases h
    · split at h <;> cases h
      exact ⟨List.prefix_rfl, List.prefix_append _ _⟩

end FtpcSide

end NetworkProgramming
