import NetworkProgramming.Final.FtpcWaits

/-!
# What `ftps` waits for comes

The daemon of `ftps` never sends, so that it always listens to its front; it has one bound socket,
on which every session waits that waits at all; and a call of `ftps` that has been served is
answered or noted with the address of `ftps`. When no session has the number `-1`, `ftps` never
exits (`FtpsSide.Live`).
-/

namespace NetworkProgramming

/-! ## The daemon of `ftps` -/

section Daemon

variable {t t' : Tcpd} {e : Event} {os : List Out}

/-- No socket is connected and no package is counted. -/
structure Tcpd.NeverSends (t : Tcpd) : Prop where
  count : t.inBufferPackages = 0
  conns : ∀ fd, t.conn fd = none

/-- It stays so until a `CONNECT`. -/
lemma Tcpd.NeverSends.step (h : t.NeverSends) (hstep : t.step e = .ok (t', os))
    (hconnect : ∀ addr fd a sys, e ≠ .front addr (.CONNECT fd a) sys) : t'.NeverSends := by
  have hnone : ∀ {fd c}, t.conn fd ≠ some c := by
    intro fd c hc
    rw [h.conns fd] at hc
    cases hc
  refine ⟨?_, fun fd => ?_⟩
  · cases client_step hstep with
    | connect _ _ _ => exact absurd rfl (hconnect _ _ _ _)
    | send _ _ hc _ _ _ => exact absurd hc hnone
    | ack _ hc _ _ _ => exact absurd hc hnone
    | timer hc _ _ _ => exact absurd hc hnone
    | ackOther _ hc _ _ _ => exact absurd hc hnone
    | pass _ hcount => exact hcount.trans h.count
    | rehash _ hcount => exact hcount.trans h.count
    | other _ _ _ _ _ _ hcount _ => exact hcount.trans h.count
  · have hconn := conn_step hstep fd
    rw [h.conns fd] at hconn
    generalize t'.conn fd = x' at hconn
    cases hconn with
    | connect => exact absurd rfl (hconnect _ _ _ _)
    | other _ _ _ _ => rfl

/-- Every session that waits waits on a bound socket. -/
def Tcpd.Queued (t : Tcpd) : Prop := ∀ x ∈ t.waits, x.1 ∈ t.bindedSockets.map (·.socketFD)

/-- A frame is read from a bound socket only. -/
lemma mem_bound_of_data {fd : Int32} {m : TrollMessageStruct} {remote : SockaddrIn}
    (h : t.step (.data fd m remote) = .ok (t', os)) : fd ∈ t.bindedSockets.map (·.socketFD) := by
  simp only [Tcpd.step] at h
  split at h
  · rename_i hbound
    obtain ⟨b, hb, hfd⟩ := List.any_eq_true.mp hbound
    exact List.mem_map.mpr ⟨b, hb, of_decide_eq_true hfd⟩
  · cases h

lemma Tcpd.Queued.step (h : t.Queued) (hok : t.SessionsOk) (hstep : t.step e = .ok (t', os)) :
    t'.Queued := by
  cases lobby_step hok hstep with
  | @frame fd m remote _ _ hvalid hbound hwaits _ _ =>
    intro x hx
    rw [hwaits] at hx
    rw [hbound]
    split at hx
    · exact h x hx
    · rcases List.mem_append.mp hx with hx | hx
      · exact h x hx
      · rw [List.mem_singleton.mp hx]
        exact mem_bound_of_data hstep
  | bind hbound hcalm =>
    intro x hx
    rw [hcalm.waits] at hx
    rw [hbound, List.map_append]
    exact List.mem_append_left _ (h x hx)
  | accept hcalm =>
    intro x hx
    rw [hcalm.waits] at hx
    show x.1 ∈ (acceptLoop _ _ _ t.bindedSockets).1.map (·.socketFD)
    rw [map_socketFD_acceptLoop]
    exact h x hx
  | handOver =>
    rw [handleAckBack_eq]
    intro x hx
    show x.1 ∈ (handOver t.ackedSockets t.waitingAckSockets t.bindedSockets).1.map (·.socketFD)
    rw [map_socketFD_handOver]
    -- what still waits on a socket has waited there before
    obtain ⟨a, ha, rfl⟩ := List.mem_map.mp hx
    have hwaits := waitingOn_handOver t.ackedSockets t.waitingAckSockets t.bindedSockets a.socketFD
    have hmem : a.session ∈ waitingOn a.socketFD t.waitingAckSockets := by
      rw [hwaits]
      exact List.mem_append_right _ (List.mem_map.mpr ⟨a, by simpa using ha, rfl⟩)
    obtain ⟨b, hb, -⟩ := List.mem_map.mp hmem
    obtain ⟨hb, hfd⟩ := List.mem_filter.mp hb
    rw [← of_decide_eq_true hfd]
    exact h (b.socketFD, b.session) (List.mem_map.mpr ⟨b, hb, rfl⟩)
  | other _ _ _ hbound hcalm =>
    intro x hx
    rw [hcalm.waits] at hx
    rw [hbound]
    exact h x hx

/-- A request is kept, with the address it comes from, until it is answered there. -/
lemma request_step {s : UInt32} {a : AckedSock} (hok : t.SessionsOk)
    (hstep : t.step e = .ok (t', os)) (hfront : ¬ e.isFront) (ha : t.sess s = some a)
    (hbusy : a.receivingLength ≠ 0) :
    (∃ a', t'.sess s = some a' ∧ a'.receivingLength ≠ 0 ∧ a'.receivingAddr = a.receivingAddr) ∨
      ∃ bytes, .data a.receivingAddr a.session bytes ∈ os := by
  have hsess := sess_step hok hstep s
  rw [ha] at hsess
  generalize hx' : t'.sess s = x' at hsess
  generalize repliesTo s os = replies at hsess
  cases hsess with
  | arrive _ _ =>
    left
    rw [Option.getD_some, AckedSock.place_eq]
    exact ⟨_, rfl, hbusy, rfl⟩
  | request => exact absurd rfl hfront
  | pass hacc _ =>
    -- the pass over the table comes to the entry of the session
    obtain ⟨hpass, -⟩ := handleRecvBack_ok hstep
    have hlook := lookup_of_accepted hacc ha
    obtain ⟨x, hby, -, rfl, hnew, os₁, os₂, rfl, -⟩ := HashTable.pass_lookup hpass hlook
    rcases AckedSock.recvBack_ok (hok.isOpen _ _ ha) (recvVisit_ok hby) with ⟨hzero, -⟩ |
      ⟨taken, replies, hp, houts⟩
    · exact absurd hzero hbusy
    · rcases hp.outcome with ⟨-, -, -, hlen, haddr, -⟩ | ⟨-, hone, -⟩
      · refine Or.inl ⟨x.new, ?_, by rw [hlen]; exact hbusy, haddr⟩
        rw [← hx']
        exact sess_of_lookup hnew
      · right
        refine ⟨x.old.poured taken, List.mem_append_left _ (List.mem_append_right _ ?_)⟩
        rw [houts, hone]
        exact List.mem_singleton_self _
  | other => exact Or.inl ⟨a, rfl, hbusy, rfl⟩

/-- A call accepts no session. -/
lemma accepted_call {addr : SockaddrIn} {r : Request} {sys : Sys} (hok : t.SessionsOk)
    (hstep : t.step (.front addr r sys) = .ok (t', os)) (s : UInt32) :
    t'.Accepted s ↔ t.Accepted s := by
  cases lobby_step hok hstep with
  | bind _ hcalm => exact hcalm.accepted s
  | accept hcalm => exact hcalm.accepted s
  | other _ _ _ _ hcalm => exact hcalm.accepted s

/-- A session that `handle_ack_back` accepts is told to a caller that waits. -/
lemma accepted_ackBack {s : UInt32} (h : (handleAckBack t).1.Accepted s) :
    t.Accepted s ∨ ∃ b ∈ t.bindedSockets, b.accepting ∧
      .accepted b.acceptingAddr b.socketFD s ∈ (handleAckBack t).2 := by
  rw [handleAckBack_eq] at h ⊢
  refine ((isSome_lookup_handOver _ _ _ s).mp h).imp_right fun hout => ?_
  obtain ⟨⟨addr, fd, s'⟩, hx, rfl⟩ := List.mem_map.mp hout
  obtain ⟨o, ho, hsome⟩ := List.mem_filterMap.mp hx
  obtain ⟨b, hb, s', hacc, rfl⟩ := (mem_handOver _ _ _).2 o ho
  cases hsome
  exact ⟨b, hb, hacc, ho⟩

end Daemon

/-! ## Where `ftps` is -/

/-- The socket of `ftps`, once it has called `ACCEPT` there. -/
def Ftps.serves : Ftps → Option Int32
  | accept sock => some sock
  | size sock _ _ => some sock
  | name sock _ _ _ => some sock
  | body sock _ _ _ => some sock
  | _ => none

/-- The session of the file `ftps` reads. -/
def Ftps.reads : Ftps → Option UInt32
  | size _ sockClient _ => some sockClient.toUInt32
  | name _ sockClient _ _ => some sockClient.toUInt32
  | body _ file _ _ => some file.session
  | _ => none

/-- The answer does not make `ftps` exit. -/
def Ftps.GoesOn : Ftps → List UInt8 → Prop
  | socket _, answer => 0 ≤ codeOf answer
  | bind _, answer => 0 ≤ codeOf answer
  | accept _, answer => codeOf answer ≠ -1
  | exited, _ => False
  | _, _ => True

namespace Ftps

variable {st : Ftps} {answer : List UInt8}

/-- `ftps` makes the next call. -/
lemma GoesOn.resume (h : st.GoesOn answer) :
    (st.resume answer).1 ≠ .exited ∧ (st.resume answer).2.1 ≠ [] := by
  have hloop : ∀ sock file fileLeft bufIn, (recvLoop sock file fileLeft bufIn).1 ≠ .exited ∧
      (recvLoop sock file fileLeft bufIn).2.1 ≠ [] := by
    intro sock file fileLeft bufIn
    rw [recvLoop]
    split <;> simp
  cases st with
  | socket addr =>
    rw [Ftps.resume, if_neg (Int32.not_lt.mpr h)]
    simp
  | bind sock =>
    rw [Ftps.resume, if_neg (Int32.not_lt.mpr h)]
    simp
  | accept sock =>
    rw [Ftps.resume, if_neg h]
    simp
  | size sock sockClient bufIn => simp [Ftps.resume]
  | name sock sockClient fileSize bufIn => exact hloop _ _ _ _
  | body sock file fileLeft bufIn => exact hloop _ _ _ _
  | exited => exact h.elim

/-- `ftps` stays at its socket. -/
lemma serves_resume {sock : Int32} (h : st.serves = some sock) (hgo : st.GoesOn answer) :
    (st.resume answer).1.serves = some sock := by
  have hloop : ∀ sock file fileLeft bufIn,
      (recvLoop sock file fileLeft bufIn).1.serves = some sock := by
    intro sock file fileLeft bufIn
    rw [recvLoop]
    split <;> rfl
  cases st with
  | accept sock =>
    rw [Ftps.resume, if_neg hgo]
    exact h
  | size sock sockClient bufIn => exact h
  | name sock sockClient fileSize bufIn => exact (hloop _ _ _ _).trans h
  | body sock file fileLeft bufIn => exact (hloop _ _ _ _).trans h
  | _ => cases h

/-- `ftps` goes on to read the file, or closes it. -/
lemma reads_resume {s : UInt32} (h : st.reads = some s) (answer : List UInt8) :
    (st.resume answer).1.reads = some s ∨ ∃ file ∈ (st.resume answer).2.2, file.session = s := by
  have hloop : ∀ sock file fileLeft bufIn, (recvLoop sock file fileLeft bufIn).1.reads
      = some file.session ∨
        ∃ file' ∈ (recvLoop sock file fileLeft bufIn).2.2, file'.session = file.session := by
    intro sock file fileLeft bufIn
    rw [recvLoop]
    split
    · exact Or.inr ⟨file, List.mem_singleton_self _, rfl⟩
    · exact Or.inl rfl
  cases st with
  | size sock sockClient bufIn => exact Or.inl h
  | name sock sockClient fileSize bufIn =>
    cases h
    exact hloop _ _ _ _
  | body sock file fileLeft bufIn =>
    cases h
    exact hloop _ _ _ _
  | _ => cases h

end Ftps

namespace FtpsSide

/-- What the daemon owes `ftps` for a call it has served. -/
inductive Owed (x : FtpsSide) : Prop
  /-- nothing any more: the answer is there -/
  | answer (h : x.answers ≠ [])
  /-- a session, for the `ACCEPT` that is noted -/
  | session (b : BindedSock) (hb : x.tcpd.bindedSockets = [b]) (hacc : b.accepting)
      (haddr : b.acceptingAddr = x.frontAddr)
  /-- a piece, for the `RECV` that is noted -/
  | piece (s : UInt32) (a : AckedSock) (ha : x.tcpd.sess s = some a) (hbusy : a.receivingLength ≠ 0)
      (haddr : a.receivingAddr = x.frontAddr)

/-- `ftps` reads the file of the session, or is going to. -/
def Has (x : FtpsSide) (s : UInt32) : Prop :=
  x.ftps.reads = some s ∨ (∃ sock, x.ftps = .accept sock) ∧ intBytes s.toInt32 ∈ x.answers

/-- What `ftps` waits for comes. -/
structure Live (x : FtpsSide) : Prop where
  quiet : x.tcpd.NeverSends
  queued : x.tcpd.Queued
  /-- the daemon has one socket, the one of `ftps` -/
  bound : ∀ sock, (x.ftps = .bind sock ∧ x.calls = [] ∨ x.ftps.serves = some sock) →
    x.tcpd.bindedSockets.map (·.socketFD) = [sock]
  alive : x.ftps ≠ .exited
  /-- no answer makes `ftps` exit -/
  sound : ∀ answer ∈ x.answers, x.ftps.GoesOn answer
  /-- a call that is served is answered or noted -/
  owed : x.calls = [] → x.Owed
  /-- no session that is accepted is forgotten -/
  taken : ∀ s, x.tcpd.Accepted s → s ∈ x.files.map ReceivedFile.session ∨ x.Has s

variable {transfers : List (UInt32 × FtpJob)} {x x' : FtpsSide} {os : List Out}

/-- An answer to an address reaches it. -/
lemma mem_answersTo {addr : SockaddrIn} {o : Out} {bytes : List UInt8} (ho : o ∈ os)
    (hanswer : o.answer = some (addr, bytes)) : bytes ∈ answersTo addr os := by
  refine List.mem_filterMap.mpr ⟨o, ho, ?_⟩
  rw [hanswer, Option.bind_some, if_pos rfl]

/-- What is owed stays owed until it is answered. -/
lemma Owed.daemon (h : x.Owed) (hok : x.tcpd.SessionsOk) {e : Event} (hfront : ¬ e.isFront)
    {t : Tcpd} (hstep : x.tcpd.step e = .ok (t, os)) : (x.after t os).Owed := by
  have hanswer : answersTo x.frontAddr os ≠ [] → (x.after t os).Owed := fun hne =>
    .answer fun hnil => hne (List.append_eq_nil_iff.mp hnil).2
  cases h with
  | answer h => exact .answer fun hnil => h (List.append_eq_nil_iff.mp hnil).1
  | session b hb hacc haddr =>
    by_cases hackBack : e = .ackBack
    · subst hackBack
      have hsame : handleAckBack x.tcpd = (t, os) := Except.ok.inj hstep
      rw [handleAckBack_eq, hb] at hsame
      have hbound := congrArg (fun r : Tcpd × List Out => r.1.bindedSockets) hsame
      have houts := congrArg Prod.snd hsame
      cases hfind : x.tcpd.waitingAckSockets.find? (·.socketFD = b.socketFD) with
      | none =>
        refine .session b ?_ hacc haddr
        show t.bindedSockets = [b]
        simpa [handOver, hacc, hfind] using hbound.symm
      | some a =>
        have hout : .accepted x.frontAddr b.socketFD a.session ∈ os := by
          rw [show os = _ from houts.symm]
          simp [handOver, hacc, hfind, haddr]
        exact hanswer (List.ne_nil_of_mem (mem_answersTo hout rfl))
    · obtain ⟨hbound, -⟩ := lobby_daemon hok hstep hfront hackBack
      exact .session b (hbound.trans hb) hacc haddr
  | piece s a ha hbusy haddr =>
    rcases request_step hok hstep hfront ha hbusy with ⟨a', ha', hbusy', haddr'⟩ | ⟨bytes, hdata⟩
    · exact .piece s a' ha' hbusy' (haddr'.trans haddr)
    · rw [haddr] at hdata
      exact hanswer (List.ne_nil_of_mem (mem_answersTo hdata rfl))

/-- An answer is the only one, and there is one only when no call is on its way. -/
lemma Ok.read (h : x.Ok transfers) (halive : x.ftps ≠ .exited) {answer : List UInt8}
    {answers : List (List UInt8)} (hanswers : x.answers = answer :: answers) :
    answers = [] ∧ x.calls = [] := by
  have hlast : x.answers.length ≤ 1 → answers = [] := by
    intro hle
    rw [hanswers, List.length_cons] at hle
    exact List.length_eq_zero_iff.mp (by omega)
  cases h.stage with
  | acceptPending _ _ _ hnone _ _ => simp [hnone] at hanswers
  | recvPending _ _ _ _ _ _ _ hnone _ _ _ _ => simp [hnone] at hanswers
  | exited hftps _ => exact absurd hftps halive
  | rests _ hplace =>
    cases hplace with
    | socketCalled _ _ _ hnone _ => simp [hnone] at hanswers
    | bindCalled _ _ _ _ hnone _ => simp [hnone] at hanswers
    | acceptCalled _ _ _ hnone => simp [hnone] at hanswers
    | recvCalled _ _ _ _ _ _ _ _ _ _ _ hnone _ => simp [hnone] at hanswers
    | socketServed _ _ hcalls hle _ => exact ⟨hlast hle, hcalls⟩
    | bindServed _ _ hcalls hle => exact ⟨hlast hle, hcalls⟩
    | acceptServed _ _ hcalls hle _ => exact ⟨hlast hle, hcalls⟩
    | recvServed _ _ _ _ _ _ hcalls hsub _ => exact ⟨hlast hsub.length_le, hcalls⟩

/-- `ftps` reads an answer. -/
lemma Live.resume (h : x.Live) (hok : x.Ok transfers) {answer : List UInt8}
    {answers : List (List UInt8)} (hanswers : x.answers = answer :: answers) :
    Live (x.goesOn answers (x.ftps.resume answer)) := by
  obtain ⟨rfl, hcalls⟩ := hok.read h.alive hanswers
  have hgo : x.ftps.GoesOn answer := h.sound answer (by simp [hanswers])
  obtain ⟨halive, hcall⟩ := hgo.resume
  have hcalls' : (x.goesOn [] (x.ftps.resume answer)).calls ≠ [] := by
    simpa [goesOn, hcalls] using hcall
  refine ⟨h.quiet, h.queued, fun sock hsock => ?_, halive, fun _ hin => ?_,
    fun hnone => absurd hnone hcalls', fun s hs => ?_⟩
  · rcases hsock with ⟨-, hnone⟩ | hserves
    · exact absurd hnone hcalls'
    · have hserves : (x.ftps.resume answer).1.serves = some sock := hserves
      refine h.bound sock ?_
      -- before it was at the same socket, or has just bound it
      cases hold : x.ftps with
      | socket addr =>
        rw [hold] at hserves hgo
        rw [Ftps.resume, if_neg (Int32.not_lt.mpr hgo)] at hserves
        cases hserves
      | bind sock₀ =>
        rw [hold] at hserves hgo
        rw [Ftps.resume, if_neg (Int32.not_lt.mpr hgo)] at hserves
        cases hserves
        exact Or.inl ⟨rfl, hcalls⟩
      | exited => exact absurd hold h.alive
      | _ =>
        right
        rw [hold] at hserves hgo
        rw [Ftps.serves_resume rfl hgo] at hserves
        exact hserves
  · cases hin
  · show s ∈ (x.files ++ (x.ftps.resume answer).2.2).map ReceivedFile.session ∨ _
    rw [List.map_append, List.mem_append]
    rcases h.taken s hs with hclosed | hreads | ⟨⟨sock, hsock⟩, hin⟩
    · exact Or.inl (Or.inl hclosed)
    · rcases Ftps.reads_resume hreads answer with hreads' | ⟨file, hfile, hsession⟩
      · exact Or.inr (Or.inl hreads')
      · exact Or.inl (Or.inr (List.mem_map.mpr ⟨file, hfile, hsession⟩))
    · rw [hanswers, List.mem_singleton] at hin
      rw [hsock] at hgo
      refine Or.inr (Or.inl ?_)
      show (x.ftps.resume answer).1.reads = some s
      rw [hsock, Ftps.resume, if_neg hgo, ← hin, codeOf_intBytes]
      simp [Ftps.reads]

section Daemon

variable {e : Event} {t : Tcpd}

/-- What the daemon answers by itself does not make `ftps` exit. -/
lemma Live.sound_daemon (h : x.Live) (hok : x.Ok transfers)
    (hstep : x.tcpd.step e = .ok (t, os)) (hfront : ¬ e.isFront) (hframed : Framed transfers e)
    (hnodup : (transfers.map Prod.fst).Nodup)
    (hrand : ∀ s ∈ transfers.map Prod.fst, s.toInt32 ≠ -1) {answer : List UInt8}
    (hin : answer ∈ answersTo x.frontAddr os) : x.ftps.GoesOn answer := by
  have hreads := hok.kept.reads
  cases hok.stage with
  | rests hrest _ =>
    rw [(hreads.rests_daemon hstep hfront hframed hnodup hrest).2.2 x.frontAddr] at hin
    cases hin
  | recvPending s job j piece hat _ _ _ _ _ _ _ =>
    generalize x.ftps = st at hat
    cases st with
    | size _ _ _ => trivial
    | name _ _ _ _ => trivial
    | body _ _ _ _ => trivial
    | _ => exact hat.elim
  | exited hftps _ => exact absurd hftps h.alive
  | acceptPending sock hftps _ _ hfew hidle =>
    have hnone : ∀ s, repliesTo s os = [] := fun s =>
      (hreads.idleAt_daemon hstep hfront hframed hnodup (hidle s)).2.1
    rw [hftps]
    by_cases hackBack : e = .ackBack
    · subst hackBack
      have hsame : handleAckBack x.tcpd = (t, os) := Except.ok.inj hstep
      rcases handleAckBack_cases hreads.ok hfew with hnothing | ⟨addr, fd, a, ha, -, hone, -⟩
      · rw [hnothing] at hsame
        cases hsame
        cases hin
      · -- a session belongs to a transfer, so it does not have the number `-1`
        obtain ⟨job, hjob, -⟩ := hreads.present _ a ha
        rw [hsame] at hone
        have hos : os = [.accepted addr fd a.session] := hone
        subst hos
        rcases answersTo_singleton x.frontAddr (.accepted addr fd a.session) with
          hnil | ⟨y, hy, hy'⟩
        · rw [hnil] at hin
          cases hin
        · cases hy
          rw [hy', List.mem_singleton] at hin
          rw [hin]
          show codeOf (intBytes a.session.toInt32) ≠ -1
          rw [codeOf_intBytes]
          exact hrand _ (List.mem_map.mpr ⟨_, hjob, rfl⟩)
    · have hsub := answersTo_sublist hstep hreads.ok hfront hackBack (s := 0)
        (fun s _ => hnone s) x.frontAddr
      rw [hnone, List.sublist_nil] at hsub
      rw [hsub] at hin
      cases hin

/-- A session the daemon accepts is told to `ftps`. -/
lemma Live.taken_daemon (h : x.Live) (hok : x.Ok transfers)
    (hstep : x.tcpd.step e = .ok (t, os)) (hfront : ¬ e.isFront) {s : UInt32}
    (hs : t.Accepted s) : s ∈ x.files.map ReceivedFile.session ∨ (x.after t os).Has s := by
  have hreads := hok.kept.reads
  have hkeep : x.tcpd.Accepted s → s ∈ x.files.map ReceivedFile.session ∨ (x.after t os).Has s :=
    fun hold => (h.taken s hold).imp_right fun hhas => hhas.imp_right fun hin =>
      ⟨hin.1, List.mem_append_left _ hin.2⟩
  by_cases hackBack : e = .ackBack
  · subst hackBack
    have hsame : handleAckBack x.tcpd = (t, os) := Except.ok.inj hstep
    have hs : (handleAckBack x.tcpd).1.Accepted s := by rwa [hsame]
    rcases accepted_ackBack hs with hold | ⟨b, hb, hacc, hout⟩
    · exact hkeep hold
    · rw [hsame] at hout
      -- somebody waits for a session, so it is `ftps`
      cases hok.stage with
      | rests hrest _ => exact absurd hacc (hrest.nobody b hb)
      | recvPending _ _ _ _ _ _ _ _ _ _ hnobody _ => exact absurd hacc (hnobody b hb)
      | exited hftps _ => exact absurd hftps h.alive
      | acceptPending sock hftps hcalls hanswers _ hidle =>
        have haddr : b.acceptingAddr = x.frontAddr := by
          cases h.owed hcalls with
          | answer hne => exact absurd hanswers hne
          | piece s a ha hbusy _ => exact absurd (hidle s a ha) hbusy
          | session b' hb' _ haddr =>
            rw [hb', List.mem_singleton] at hb
            rw [hb, haddr]
        rw [haddr] at hout
        refine Or.inr (Or.inr ⟨⟨sock, hftps⟩, ?_⟩)
        exact List.mem_append_right _ (mem_answersTo hout rfl)
  · exact hkeep (((lobby_daemon hreads.ok hstep hfront hackBack).2 s).mp hs)

/-- The daemon makes a step of its own. -/
lemma Live.daemon (h : x.Live) (hok : x.Ok transfers)
    (hstep : x.tcpd.step e = .ok (t, os)) (hfront : ¬ e.isFront) (hframed : Framed transfers e)
    (hnodup : (transfers.map Prod.fst).Nodup)
    (hrand : ∀ s ∈ transfers.map Prod.fst, s.toInt32 ≠ -1) : (x.after t os).Live := by
  have hreads := hok.kept.reads
  have hsockets : t.bindedSockets.map (·.socketFD) = x.tcpd.bindedSockets.map (·.socketFD) := by
    by_cases hackBack : e = .ackBack
    · subst hackBack
      have hsame : handleAckBack x.tcpd = (t, os) := Except.ok.inj hstep
      rw [handleAckBack_eq] at hsame
      rw [← congrArg (fun r : Tcpd × List Out => r.1.bindedSockets) hsame]
      exact map_socketFD_handOver _ _ _
    · rw [(lobby_daemon hreads.ok hstep hfront hackBack).1]
  refine ⟨h.quiet.step hstep fun addr fd a sys he => ?_, h.queued.step hreads.ok hstep,
    fun sock hsock => hsockets.trans (h.bound sock hsock), h.alive, fun answer hin => ?_,
    fun hcalls => (h.owed hcalls).daemon hreads.ok hfront hstep,
    fun s hs => h.taken_daemon hok hstep hfront hs⟩
  · subst he
    exact hfront rfl
  · rcases List.mem_append.mp (show answer ∈ x.answers ++ answersTo x.frontAddr os from hin) with
      hold | hnew
    · exact h.sound answer hold
    · exact h.sound_daemon hok hstep hfront hframed hnodup hrand hnew

end Daemon

/-- `ACCEPT` on the one bound socket, where nobody waits, is noted. -/
lemma tcpdAccept_one {t : Tcpd} {b : BindedSock} (hb : t.bindedSockets = [b])
    (hidle : ¬ b.accepting) (addr : SockaddrIn) :
    tcpdAccept t addr b.socketFD
      = ({ t with bindedSockets := [{ b with accepting := true, acceptingAddr := addr }] },
        []) := by
  simp [tcpdAccept, hb, acceptLoop, hidle]

/-- The answer to a call that is answered at once. -/
lemma answers_of_call {c : Call} {sys : Sys} {t : Tcpd} (honce : c.AtOnce)
    (hanswers : x.answers = [])
    (hstep : x.tcpd.step (.front x.frontAddr c.request sys) = .ok (t, os)) :
    ∃ ret, 0 ≤ codeOf (intBytes ret) ∧ x.answers ++ answersTo x.frontAddr os = [intBytes ret] := by
  obtain ⟨ret, hret, rfl⟩ := code_of_call honce hstep
  refine ⟨ret, by rwa [codeOf_intBytes], ?_⟩
  simp [hanswers, answersTo, Out.answer]

/-- The daemon serves a call of `ftps`. -/
lemma Live.serve (h : x.Live) (hok : x.Ok transfers) {addr : SockaddrIn} {c : Call}
    {calls : List (SockaddrIn × Call)} {sys : Sys} {t : Tcpd}
    (hcalls : x.calls = (addr, c) :: calls)
    (hstep : x.tcpd.step (.front addr c.request sys) = .ok (t, os)) :
    Live ({ x with calls }.after t os) := by
  have hreads := hok.kept.reads
  have hqueued : t.Queued := h.queued.step hreads.ok hstep
  have htaken : ∀ s, t.Accepted s → s ∈ x.files.map ReceivedFile.session ∨
      Has ({ x with calls }.after t os) s := fun s hs =>
    (h.taken s ((accepted_call hreads.ok hstep s).mp hs)).imp_right fun hhas =>
      hhas.imp_right fun hin => ⟨hin.1, List.mem_append_left _ hin.2⟩
  have hquiet : (∀ sock a, c ≠ .CONNECT sock a) → t.NeverSends := by
    intro hconnect
    refine h.quiet.step hstep fun addr' fd a sys' he => ?_
    cases c <;> cases he
    exact hconnect _ _ rfl
  cases hok.stage with
  | acceptPending _ _ hnone _ _ _ => simp [hnone] at hcalls
  | recvPending _ _ _ _ _ _ hnone _ _ _ _ _ => simp [hnone] at hcalls
  | exited _ hnone => simp [hnone] at hcalls
  | rests hrest hplace =>
    cases hplace with
    | socketServed _ _ hnone _ _ => simp [hnone] at hcalls
    | bindServed _ _ hnone _ => simp [hnone] at hcalls
    | acceptServed _ _ hnone _ _ => simp [hnone] at hcalls
    | recvServed _ _ _ _ _ _ hnone _ _ => simp [hnone] at hcalls
    | socketCalled a hftps hcall hanswers hbound =>
      obtain ⟨hfirst, rfl⟩ := List.cons.inj (hcalls.symm.trans hcall)
      cases hfirst
      obtain ⟨ret, hret, hone⟩ := answers_of_call (c := .SOCKET) trivial hanswers hstep
      refine ⟨hquiet (by simp), hqueued, fun sock hsock => ?_, h.alive, fun answer hin => ?_,
        fun _ => .answer ?_, htaken⟩
      · simp [after, hftps, Ftps.serves] at hsock
      · have hin : answer ∈ x.answers ++ answersTo x.frontAddr os := hin
        rw [hone, List.mem_singleton] at hin
        show x.ftps.GoesOn answer
        rw [hftps, hin]
        exact hret
      · show x.answers ++ answersTo x.frontAddr os ≠ []
        simp [hone]
    | bindCalled sock a hftps hcall hanswers hbound =>
      obtain ⟨hfirst, rfl⟩ := List.cons.inj (hcalls.symm.trans hcall)
      cases hfirst
      obtain ⟨ret, hret, hone⟩ := answers_of_call (c := .BIND sock a) trivial hanswers hstep
      obtain ⟨hbound', -⟩ := step_bindCall hstep
      refine ⟨hquiet (by simp), hqueued, fun sock' hsock => ?_, h.alive, fun answer hin => ?_,
        fun _ => .answer ?_, htaken⟩
      · obtain rfl : sock = sock' := by simpa [after, hftps, Ftps.serves] using hsock
        show t.bindedSockets.map (·.socketFD) = [sock]
        rw [hbound', hbound]
        rfl
      · have hin : answer ∈ x.answers ++ answersTo x.frontAddr os := hin
        rw [hone, List.mem_singleton] at hin
        show x.ftps.GoesOn answer
        rw [hftps, hin]
        exact hret
      · show x.answers ++ answersTo x.frontAddr os ≠ []
        simp [hone]
    | acceptCalled sock hftps hcall hanswers =>
      obtain ⟨hfirst, rfl⟩ := List.cons.inj (hcalls.symm.trans hcall)
      cases hfirst
      -- the socket is bound, and nobody waits there
      have hlistens := h.bound sock (Or.inr (by rw [hftps]; rfl))
      obtain ⟨b, hb, rfl⟩ := List.map_eq_singleton_iff.mp hlistens
      have haccept := tcpdAccept_one hb (hrest.nobody b (by simp [hb])) x.frontAddr
      have hquiet' := hquiet (by simp)
      rw [Call.request] at hstep
      cases tcpd_step hstep
      rw [haccept] at hquiet' hqueued htaken ⊢
      refine ⟨hquiet', hqueued, fun sock hsock => ?_, h.alive, fun answer hin => ?_,
        fun _ => .session _ rfl rfl rfl, htaken⟩
      · obtain rfl : b.socketFD = sock := by simpa [after, hftps, Ftps.serves] using hsock
        rfl
      · have hin : answer ∈ x.answers ++ answersTo x.frontAddr [] := hin
        simp [hanswers] at hin
    | recvCalled s job j fd len piece hftps hfd hpiece hlen hcall hanswers hreading =>
      obtain ⟨hfirst, rfl⟩ := List.cons.inj (hcalls.symm.trans hcall)
      cases hfirst
      subst hfd
      obtain ⟨a, ha⟩ := Option.isSome_iff_exists.mp hreading.accepted
      have hsess := sess_of_lookup ha
      have hidle := hrest.idle _ a hsess
      have hne : len ≠ 0 := by
        rintro rfl
        have hpos := (FtpJob.mem_pieces (List.mem_of_getElem? hpiece)).1
        rw [← hlen] at hpos
        exact absurd hpos (by decide)
      obtain ⟨rfl, ht⟩ := step_recvCall ha hidle hne hstep
      refine ⟨hquiet (by simp), hqueued, fun sock hsock => ?_, h.alive, fun answer hin => ?_,
        fun _ => .piece fd.toUInt32 { a with receivingLength := len, receivingAddr := x.frontAddr }
          (sess_insert_self (t := x.tcpd) (by rw [ht]; rfl)) hne rfl, htaken⟩
      · show t.bindedSockets.map (·.socketFD) = [sock]
        rw [ht]
        refine h.bound sock (hsock.imp_left ?_)
        rintro ⟨hbind, -⟩
        have hbind : x.ftps = .bind sock := hbind
        rw [hbind] at hftps
        exact hftps.elim
      · have hin : answer ∈ x.answers ++ answersTo x.frontAddr [] := hin
        simp [hanswers] at hin

/-- **One event on the side of `ftps`.** -/
theorem Live.step (h : x.Live) (hok : x.Ok transfers) {e : FtpsEvent}
    (hstep : x.step e = .ok (x', os)) (hnodup : (transfers.map Prod.fst).Nodup)
    (hframed : ∀ e', e = .daemon e' → Framed transfers e')
    (hrand : ∀ s ∈ transfers.map Prod.fst, s.toInt32 ≠ -1) : x'.Live := by
  cases e with
  | resume =>
    simp only [FtpsSide.step] at hstep
    split at hstep <;> cases hstep
    exact h.resume hok ‹_›
  | serve sys =>
    simp only [FtpsSide.step] at hstep
    split at hstep
    · cases hstep
    · rename_i hcalls
      split at hstep
      · cases hstep
      · rename_i htcpd
        cases hstep
        exact h.serve hok hcalls htcpd
  | daemon e =>
    simp only [FtpsSide.step] at hstep
    split at hstep
    · cases hstep
    · rename_i hfront
      split at hstep
      · cases hstep
      · rename_i htcpd
        cases hstep
        exact h.daemon hok htcpd hfront (hframed e rfl) hnodup hrand

lemma live_start (frontAddr bindAddr : SockaddrIn) : (start frontAddr bindAddr).Live where
  quiet := ⟨rfl, fun _ => rfl⟩
  queued := by simp [start, Tcpd.Queued, Tcpd.waits, Tcpd.globalInit]
  bound := by simp [start, Ftps.serves]
  alive := by simp [start]
  sound := by simp [start]
  owed := by simp [start]
  taken := by simp [start, Tcpd.Accepted, Tcpd.globalInit]

end FtpsSide

end NetworkProgramming
