import NetworkProgramming.Final.TcpdClient

/-!
# What a send pass does

A pass over a connection splits its pending packages in two: those the window admits are sent
in order, each followed by the request for its timer, and go behind the packages of the
window; the others stay. The round-trip estimator decides nothing but the time that is
requested.
-/

namespace NetworkProgramming

/-- The datagrams of packages that are sent, with the times that are requested for them. -/
def sentOuts (socketFD : Int32) (sent : List (TrollMessageStruct × ℚ)) : List Out :=
  sent.flatMap fun x =>
    [.frame socketFD x.1, .timer (sendTimerRequest x.1.session x.1.seqNum x.2)]

lemma mem_sentOuts {fd : Int32} {sent : List (TrollMessageStruct × ℚ)} {o : Out} :
    o ∈ sentOuts fd sent ↔ ∃ x ∈ sent, o = .frame fd x.1 ∨
      o = .timer (sendTimerRequest x.1.session x.1.seqNum x.2) := by
  simp [sentOuts]

namespace ConnectedSock

/-- The pending packages the next pass sends. -/
def sendable (c : ConnectedSock) : List TrollMessageStruct :=
  c.pendingPackages.filter (admits (minSeqOf c.packages))

/-- The pending packages the next pass skips. -/
def skipped (c : ConnectedSock) : List TrollMessageStruct :=
  c.pendingPackages.filter fun m => !admits (minSeqOf c.packages) m

lemma sendPending_spec (clock : ℕ → Timeval) (fd : Int32) (minSeq : UInt32) (s : Estimator × ℕ)
    (l : List TrollMessageStruct) :
    (sendPending clock fd minSeq s l).2.1 = l.filter (fun m => !admits minSeq m) ∧
      (sendPending clock fd minSeq s l).2.2.1 = l.filter (admits minSeq) ∧
      ∃ sent : List (TrollMessageStruct × ℚ), sent.map Prod.fst = l.filter (admits minSeq) ∧
        (sendPending clock fd minSeq s l).2.2.2 = sentOuts fd sent := by
  induction l generalizing s with
  | nil => exact ⟨rfl, rfl, [], rfl, rfl⟩
  | cons m l ih =>
    rw [sendPending]
    by_cases hm : admits minSeq m
    · obtain ⟨hskip, hsent, sent, hfst, hout⟩ :=
        ih (s.1.sent (clock s.2), s.2 + 1)
      rw [if_pos hm]
      refine ⟨by simpa [hm] using hskip, by simpa [hm] using hsent,
        (m, (s.1.sent (clock s.2)).estimatedRTO) :: sent, by simpa [hm] using hfst, ?_⟩
      simp only [hout, sentOuts, List.flatMap_cons, List.cons_append, List.nil_append]
    · obtain ⟨hskip, hsent, sent, hfst, hout⟩ := ih s
      rw [if_neg hm]
      exact ⟨by simpa [hm] using hskip, by simpa [hm] using hsent, sent,
        by simpa [hm] using hfst, hout⟩

/-- What one iteration of `handle_send_all_back` does to a connection. -/
theorem sendAll_spec (clock : ℕ → Timeval) (s : Estimator × ℕ) (c : ConnectedSock) :
    (c.sendAll clock s).2.1
        = { c with minSeq := minSeqOf c.packages, packages := c.packages ++ c.sendable,
                   pendingPackages := c.skipped } ∧
      ∃ sent : List (TrollMessageStruct × ℚ), sent.map Prod.fst = c.sendable ∧
        (c.sendAll clock s).2.2 = sentOuts c.socketFD sent := by
  obtain ⟨hskip, hsent, hout⟩ :=
    sendPending_spec clock c.socketFD (minSeqOf c.packages) s c.pendingPackages
  exact ⟨by rw [sendAll, hskip, hsent]; rfl, hout⟩

/-- `MinSeq` is a lower bound for the window, and never above its start value. -/
lemma le_minSeqOf (packages : List TrollMessageStruct) :
    minSeqOf packages ≤ 100000000 ∧ (∀ m ∈ packages, minSeqOf packages ≤ m.seqNum) ∧
      (minSeqOf packages = 100000000 ∨ ∃ m ∈ packages, m.seqNum = minSeqOf packages) := by
  induction packages using List.reverseRecOn with
  | nil => exact ⟨UInt32.le_refl _, by simp, Or.inl rfl⟩
  | append_singleton l m ih =>
    obtain ⟨htop, hle, hmem⟩ := ih
    have hstep : minSeqOf (l ++ [m]) = if m.seqNum < minSeqOf l then m.seqNum else minSeqOf l := by
      rw [minSeqOf, List.foldl_append]
      rfl
    rw [hstep]
    split
    · rename_i hlt
      refine ⟨UInt32.le_of_lt (UInt32.lt_of_lt_of_le hlt htop), fun x hx => ?_,
        Or.inr ⟨m, by simp, rfl⟩⟩
      rcases List.mem_append.mp hx with hx | hx
      · exact UInt32.le_of_lt (UInt32.lt_of_lt_of_le hlt (hle x hx))
      · rw [List.mem_singleton.mp hx]
        exact UInt32.le_refl _
    · rename_i hge
      refine ⟨htop, fun x hx => ?_, ?_⟩
      · rcases List.mem_append.mp hx with hx | hx
        · exact hle x hx
        · rw [List.mem_singleton.mp hx]
          exact UInt32.not_lt.mp hge
      · rcases hmem with hmem | ⟨x, hx, heq⟩
        · exact Or.inl hmem
        · exact Or.inr ⟨x, List.mem_append_left _ hx, heq⟩

end ConnectedSock

/-! ## The pass over all connections -/

/-- One visit of a send pass. -/
lemma sendBack_visit {clock : ℕ → Timeval} {x : HashTable.Visit Int32 ConnectedSock Out}
    (h : x.By (ConnectedSock.sendVisit clock)) :
    x.new = { x.old with minSeq := ConnectedSock.minSeqOf x.old.packages
                         packages := x.old.packages ++ x.old.sendable
                         pendingPackages := x.old.skipped } ∧
      ∃ sent : List (TrollMessageStruct × ℚ), sent.map Prod.fst = x.old.sendable ∧
        x.outs = sentOuts x.old.socketFD sent := by
  obtain ⟨s, s', h⟩ := h
  obtain ⟨hnew, hout⟩ := x.old.sendAll_spec clock s
  have heq := Except.ok.inj h
  have hnew' : (x.old.sendAll clock s).2.1 = x.new := by rw [heq]
  have hout' : (x.old.sendAll clock s).2.2 = x.outs := by rw [heq]
  rw [← hnew', ← hout']
  exact ⟨hnew, hout⟩

/-- A send pass is a pass over the table of connected sockets. -/
lemma handleSendAllBack_ok {t t' : Tcpd} {clock : ℕ → Timeval} {os : List Out}
    (h : handleSendAllBack t clock = .ok (t', os)) :
    ∃ s, t.connectedSockets.pass (ConnectedSock.sendVisit clock) (t.estimator, 0)
        = .ok (s, t'.connectedSockets, os) ∧
      t' = { t with connectedSockets := t'.connectedSockets, estimator := s.1 } := by
  unfold handleSendAllBack at h
  split at h
  · cases h
  · rename_i s table os' hpass
    cases h
    exact ⟨s, hpass, rfl⟩

/-- A send pass sends packages that windows admit, and the requests of their timers. -/
lemma out_of_sendPass {clock : ℕ → Timeval} {table table' : HashTable Int32 ConnectedSock}
    {s s' : Estimator × ℕ} {os : List Out}
    (h : table.pass (ConnectedSock.sendVisit clock) s = .ok (s', table', os)) {o : Out}
    (ho : o ∈ os) :
    ∃ fd c m, table.lookup fd = some c ∧ m ∈ c.sendable ∧ (o = .frame c.socketFD m ∨
      ∃ seconds, o = .timer (sendTimerRequest m.session m.seqNum seconds)) := by
  obtain ⟨x, hby, hold, -, hmem⟩ := HashTable.pass_outs h ho
  obtain ⟨-, sent, hfst, houts⟩ := sendBack_visit hby
  rw [houts] at hmem
  obtain ⟨y, hy, hout⟩ := mem_sentOuts.mp hmem
  have hsendable : y.1 ∈ x.old.sendable := by
    rw [← hfst]
    exact List.mem_map_of_mem hy
  exact ⟨x.key, x.old, y.1, hold, hsendable, hout.imp_right fun htimer => ⟨y.2, htimer⟩⟩

end NetworkProgramming
