import NetworkProgramming.Final.Session

/-!
# Who is answered

An `ACCEPT` and a `RECV` are answered later than they are served: the address waits in the bound
socket or in the session meanwhile. Along every run each answer goes to a process that has made
the call it answers (`answered_of_run`).
-/

namespace NetworkProgramming

/-- The requests of the front processes, with their addresses. -/
def frontRequests (es : List Event) : List (SockaddrIn × Request) :=
  es.filterMap fun e =>
    match e with
    | .front addr r _ => some (addr, r)
    | _ => none

lemma frontRequests_append (es es' : List Event) :
    frontRequests (es ++ es') = frontRequests es ++ frontRequests es' := List.filterMap_append

/-- The datagram is no answer, or answers one of these requests. -/
def Out.AnswersOne (requests : List (SockaddrIn × Request)) : Out → Prop
  | .code addr _ => ∃ r, (addr, r) ∈ requests
  | .accepted addr socketFD _ => (addr, .ACCEPT socketFD) ∈ requests
  | .data addr session _ => ∃ sockfd len, (addr, .RECV sockfd len) ∈ requests ∧
      sockfd.toUInt32 = session
  | _ => True

/-- The addresses that wait in the state are those of the requests they wait for. -/
structure Tcpd.Addressed (requests : List (SockaddrIn × Request)) (t : Tcpd) : Prop where
  accepting : ∀ b ∈ t.bindedSockets, b.accepting →
    (b.acceptingAddr, .ACCEPT b.socketFD) ∈ requests
  receiving : ∀ s a, t.sess s = some a → a.receivingLength ≠ 0 →
    ∃ sockfd len, (a.receivingAddr, .RECV sockfd len) ∈ requests ∧ sockfd.toUInt32 = s

section Step

variable {requests : List (SockaddrIn × Request)}

lemma Out.AnswersOne.mono {requests' : List (SockaddrIn × Request)} {o : Out}
    (h : o.AnswersOne requests) (hsub : requests ⊆ requests') : o.AnswersOne requests' := by
  cases o with
  | code addr ret =>
    obtain ⟨r, hr⟩ := h
    exact ⟨r, hsub hr⟩
  | accepted addr fd s => exact hsub h
  | data addr s bytes =>
    obtain ⟨fd, len, hr, hs⟩ := h
    exact ⟨fd, len, hsub hr, hs⟩
  | _ => exact trivial

/-- The loop of `tcpd_ACCEPT` stores the address of the request in the socket it is for. -/
lemma mem_acceptLoop {fd : Int32} {addr : SockaddrIn} {result : Int32} {bs : List BindedSock}
    {b : BindedSock} (h : b ∈ (acceptLoop fd addr result bs).1) :
    b ∈ bs ∨ b.acceptingAddr = addr ∧ b.socketFD = fd := by
  induction bs generalizing result with
  | nil => cases h
  | cons c bs ih =>
    rw [acceptLoop] at h
    split at h
    · rcases List.mem_cons.mp h with rfl | h
      · exact Or.inl List.mem_cons_self
      · exact (ih h).imp_left (List.mem_cons_of_mem _)
    · rename_i hfd
      split at h
      · exact Or.inl h
      · rcases List.mem_cons.mp h with rfl | h
        · exact Or.inr ⟨rfl, not_not.mp hfd⟩
        · exact (ih h).imp_left (List.mem_cons_of_mem _)

/-- `handle_ack_back` answers the sockets that accept, and leaves the others. -/
lemma mem_handOver (acked : HashTable UInt32 AckedSock) (waiting : List AckedSock)
    (bs : List BindedSock) :
    (∀ b ∈ (handOver acked waiting bs).1, b.accepting → b ∈ bs) ∧
      ∀ o ∈ (handOver acked waiting bs).2.2.2, ∃ b ∈ bs, ∃ s, b.accepting ∧
        o = .accepted b.acceptingAddr b.socketFD s := by
  induction bs generalizing acked waiting with
  | nil => simp [handOver]
  | cons c bs ih =>
    rw [handOver]
    split
    · obtain ⟨hsocks, houts⟩ := ih acked waiting
      refine ⟨fun b hb hacc => ?_, fun o ho => ?_⟩
      · rcases List.mem_cons.mp hb with rfl | hb
        · exact List.mem_cons_self
        · exact List.mem_cons_of_mem _ (hsocks b hb hacc)
      · obtain ⟨b, hb, hrest⟩ := houts o ho
        exact ⟨b, List.mem_cons_of_mem _ hb, hrest⟩
    · rename_i a hfind
      obtain ⟨hsocks, houts⟩ := ih (acked.insert a.session a)
        (waiting.eraseP (·.socketFD = c.socketFD))
      refine ⟨fun b hb hacc => ?_, fun o ho => ?_⟩
      · rcases List.mem_cons.mp hb with rfl | hb
        · cases hacc
        · exact List.mem_cons_of_mem _ (hsocks b hb hacc)
      · rcases List.mem_cons.mp ho with rfl | ho
        · obtain ⟨hacc, -⟩ := Option.ite_none_right_eq_some.mp hfind
          exact ⟨c, List.mem_cons_self, a.session, hacc, rfl⟩
        · obtain ⟨b, hb, hrest⟩ := houts o ho
          exact ⟨b, List.mem_cons_of_mem _ hb, hrest⟩

/-- A session remembers the address of the request it works on. -/
lemma SessStep.receiving {s : UInt32} {accepted : Prop} {x x' : Option AckedSock} {e : Event}
    {replies : List (List UInt8)} (h : SessStep s accepted x e x' replies) {a' : AckedSock}
    (ha' : x' = some a') (hbusy : a'.receivingLength ≠ 0) :
    (∃ a, x = some a ∧ a.receivingLength ≠ 0 ∧ a.receivingAddr = a'.receivingAddr) ∨
      ∃ addr fd len sys, e = .front addr (.RECV fd len) sys ∧ fd.toUInt32 = s ∧
        addr = a'.receivingAddr := by
  cases h with
  | arrive hvalid hs =>
    cases ha'
    rw [AckedSock.place_eq] at hbusy ⊢
    cases x with
    | none => exact absurd rfl hbusy
    | some a => exact Or.inl ⟨a, rfl, hbusy, rfl⟩
  | request hacc hs hlen hidle =>
    cases ha'
    exact Or.inr ⟨_, _, _, _, rfl, hs, rfl⟩
  | @pass a _ taken _ hacc hp =>
    cases ha'
    left
    rcases hp.outcome with ⟨-, -, -, hlen, haddr, -⟩ | ⟨-, -, -, hdone⟩
    · exact ⟨a, rfl, hlen ▸ hbusy, haddr.symm⟩
    · exact absurd hdone hbusy
  | other hdata hrecv hpass => exact Or.inl ⟨a', ha', hbusy, rfl⟩

/-- What a step answers, and what it leaves of the bound sockets. -/
lemma answers_step {t t' : Tcpd} {e : Event} {os : List Out} (hok : t.SessionsOk)
    (h : t.step e = .ok (t', os)) (haddressed : t.Addressed requests) :
    (∀ o ∈ os, o.AnswersOne (requests ++ frontRequests [e])) ∧
      ∀ b ∈ t'.bindedSockets, b.accepting →
        (b.acceptingAddr, .ACCEPT b.socketFD) ∈ requests ++ frontRequests [e] := by
  have hold : ∀ b ∈ t.bindedSockets, b.accepting →
      (b.acceptingAddr, .ACCEPT b.socketFD) ∈ requests ++ frontRequests [e] :=
    fun b hb hacc => List.mem_append_left _ (haddressed.accepting b hb hacc)
  have hnew : ∀ addr r sys, e = .front addr r sys →
      (addr, r) ∈ requests ++ frontRequests [e] := by
    rintro addr r sys rfl
    exact List.mem_append_right _ (by simp [frontRequests])
  have hcode : ∀ addr r sys ret, e = .front addr r sys →
      ∀ o ∈ [Out.code addr ret], o.AnswersOne (requests ++ frontRequests [e]) := by
    intro addr r sys ret he o ho
    rw [List.mem_singleton.mp ho]
    exact ⟨r, hnew addr r sys he⟩
  cases tcpd_step h with
  | socket | recvRefused | connect | send => exact ⟨hcode _ _ _ _ rfl, hold⟩
  | bind =>
    refine ⟨hcode _ _ _ _ rfl, fun b hb hacc => ?_⟩
    rcases List.mem_append.mp hb with hb | hb
    · exact hold b hb hacc
    · rw [List.mem_singleton.mp hb] at hacc
      cases hacc
  | accept =>
    refine ⟨fun o ho => ?_, fun b hb hacc => ?_⟩
    · rw [tcpdAccept] at ho
      split at ho
      · exact hcode _ _ _ _ rfl o ho
      · cases ho
    · rcases mem_acceptLoop hb with hb | ⟨haddr, hfd⟩
      · exact hold b hb hacc
      · rw [haddr, hfd]
        exact hnew _ _ _ rfl
  | recv | frameGarbled | ackGarbled | timer | rehash => exact ⟨by simp, hold⟩
  | frameAccepted | frameWaiting | ack | ackOther => exact ⟨by simp [Out.AnswersOne], hold⟩
  | ackBack =>
    rw [handleAckBack]
    split
    · exact ⟨by simp, hold⟩
    · obtain ⟨hsocks, houts⟩ := mem_handOver t.ackedSockets t.waitingAckSockets t.bindedSockets
      refine ⟨fun o ho => ?_, fun b hb hacc => hold b (hsocks b hb hacc) hacc⟩
      obtain ⟨b, hb, s, hacc, rfl⟩ := houts o ho
      exact hold b hb hacc
  | recvBack =>
    refine ⟨fun o ho => ?_, hold⟩
    obtain ⟨a, bytes, hsess, hbusy, rfl⟩ := out_of_recvPass hok h ho
    obtain ⟨fd, len, hmem, hs⟩ := haddressed.receiving _ _ hsess hbusy
    exact ⟨fd, len, List.mem_append_left _ hmem, hs⟩
  | sendBack hpass =>
    refine ⟨fun o ho => ?_, hold⟩
    obtain ⟨_, _, _, -, -, rfl | ⟨_, rfl⟩⟩ := out_of_sendPass hpass ho <;> exact trivial

/-- One step keeps the addresses. -/
lemma addressed_step {t t' : Tcpd} {e : Event} {os : List Out} (hok : t.SessionsOk)
    (h : t.step e = .ok (t', os)) (haddressed : t.Addressed requests) :
    t'.Addressed (requests ++ frontRequests [e]) := by
  refine ⟨(answers_step hok h haddressed).2, fun s a' ha' hbusy => ?_⟩
  rcases (sess_step hok h s).receiving ha' hbusy with
    ⟨a, ha, hbusy', haddr⟩ | ⟨addr, fd, len, sys, rfl, hs, rfl⟩
  · obtain ⟨fd, len, hmem, hs⟩ := haddressed.receiving s a ha hbusy'
    exact ⟨fd, len, List.mem_append_left _ (haddr ▸ hmem), hs⟩
  · exact ⟨fd, len, List.mem_append_right _ (by simp [frontRequests]), hs⟩

end Step

/-- Along every run the addresses in the state are those of the requests made. -/
lemma addressed_of_run {es : List Event} {t : Tcpd} {os : List Out} (h : Tcpd.Run es t os) :
    t.Addressed (frontRequests es) := by
  refine Tcpd.machine.exec_induction (motive := fun es t _ => t.Addressed (frontRequests es))
    ⟨by simp [Tcpd.globalInit], by simp [Tcpd.globalInit, Tcpd.sess, entry]⟩ ?_ h
  intro es u o e t o' hrun haddressed hstep
  rw [frontRequests_append]
  exact addressed_step (sessionsOk_of_run hrun) hstep haddressed

/-- **Every answer goes to a process that has made the call.** -/
theorem answered_of_run {es : List Event} {t : Tcpd} {os : List Out} (h : Tcpd.Run es t os) :
    ∀ o ∈ os, o.AnswersOne (frontRequests es) := by
  refine Tcpd.machine.exec_induction (motive := fun es _ os =>
    ∀ o ∈ os, o.AnswersOne (frontRequests es)) (by simp) ?_ h
  intro es u o e t o' hrun hanswers hstep x hx
  rw [frontRequests_append]
  rcases List.mem_append.mp hx with hx | hx
  · exact (hanswers x hx).mono (List.subset_append_left _ _)
  · exact (answers_step (sessionsOk_of_run hrun) hstep (addressed_of_run hrun)).1 x hx

end NetworkProgramming
