import NetworkProgramming.Final.FtpsWaits
import NetworkProgramming.Final.Transfer

/-!
# What is owed on both sides

`World.Live` puts together what is known of the two sides at any time of a run: what either process
waits for is on its way or owed to it, and each package of a connection is still held by the
sending daemon unless it has arrived. It holds along every run in which the sessions are distinct,
no session has the number `-1`, and no socket is connected twice (`live_of_run`).
-/

namespace NetworkProgramming

/-! ## The steps of the daemons inside those of the sides -/

lemma FtpcSide.step_tcpd {x x' : FtpcSide} {e : FtpcEvent} {os : List Out}
    (h : x.step e = .ok (x', os)) :
    (x'.tcpd = x.tcpd ∧ x'.outs = x.outs) ∨ ∃ e', x.tcpd.step e' = .ok (x'.tcpd, os) ∧
      x'.outs = x.outs ++ os ∧ (¬ e'.isFront → e = .daemon e') := by
  cases e with
  | run job =>
    simp only [FtpcSide.step] at h
    split at h <;> cases h
    exact Or.inl ⟨rfl, rfl⟩
  | resume =>
    simp only [FtpcSide.step] at h
    split at h <;> cases h
    exact Or.inl ⟨rfl, rfl⟩
  | serve sys =>
    simp only [FtpcSide.step] at h
    split at h
    · cases h
    · split at h
      · cases h
      · rename_i htcpd
        cases h
        exact Or.inr ⟨_, htcpd, rfl, fun hfront => absurd rfl hfront⟩
  | daemon e =>
    simp only [FtpcSide.step] at h
    split at h
    · cases h
    · split at h
      · cases h
      · rename_i htcpd
        cases h
        exact Or.inr ⟨e, htcpd, rfl, fun _ => rfl⟩

lemma FtpsSide.step_tcpd {x x' : FtpsSide} {e : FtpsEvent} {os : List Out}
    (h : x.step e = .ok (x', os)) :
    (x'.tcpd = x.tcpd ∧ x'.outs = x.outs) ∨ ∃ e', x.tcpd.step e' = .ok (x'.tcpd, os) ∧
      x'.outs = x.outs ++ os ∧ (¬ e'.isFront → e = .daemon e') := by
  cases e with
  | resume =>
    simp only [FtpsSide.step] at h
    split at h <;> cases h
    exact Or.inl ⟨rfl, rfl⟩
  | serve sys =>
    simp only [FtpsSide.step] at h
    split at h
    · cases h
    · split at h
      · cases h
      · rename_i htcpd
        cases h
        exact Or.inr ⟨_, htcpd, rfl, fun hfront => absurd rfl hfront⟩
  | daemon e =>
    simp only [FtpsSide.step] at h
    split at h
    · cases h
    · split at h
      · cases h
      · rename_i htcpd
        cases h
        exact Or.inr ⟨e, htcpd, rfl, fun _ => rfl⟩

namespace World

/-! ## What has arrived -/

/-- Package `k` of the session has arrived. -/
def Arrived (w : World) (s k : UInt32) : Prop :=
  ∃ a, w.server.tcpd.sess s = some a ∧ a.Received k

/-- A `CONNECT` comes on a socket that has no connection yet. -/
def FreshSocket (w : World) (e : WorldEvent) : Prop :=
  ∀ e', e = .client e' → w.client.FreshSocket e'

/-- Both sides are as they should be, and what the sender has forgotten has arrived. -/
structure Live (w : World) : Prop where
  nodup : (w.client.transfers.map Prod.fst).Nodup
  /-- no session has the number by which `ACCEPT` reports an error -/
  rand : ∀ s ∈ w.client.transfers.map Prod.fst, s.toInt32 ≠ -1
  clientOk : w.client.Ok
  serverOk : w.server.Ok w.client.transfers
  client : w.client.Live
  server : w.server.Live
  acks : ∀ a ∈ acksOf w.server.outs, w.Arrived a.session a.seqNum
  kept : ∀ fd c, w.client.tcpd.conn fd = some c → ∀ k < c.base,
    (∃ m ∈ c.held, m.seqNum = k) ∨ w.Arrived c.session k

variable {w w' : World} {e : WorldEvent} {os : List Out}

/-- The queue of a session. -/
lemma Live.queueOk (h : w.Live) {s : UInt32} {a : AckedSock} (ha : w.server.tcpd.sess s = some a) :
    a.QueueOk (fun m => m.seqNum.toNat + 1 < 2 ^ 32) := by
  obtain ⟨job, -, hq, -⟩ := h.serverOk.kept.reads.present s a ha
  refine ⟨hq.sorted, hq.ahead, fun m hm => ?_⟩
  have hlt := (List.getElem?_eq_some_iff.mp (hq.all m hm).2).1
  have hfew := job.length_pieces_lt
  omega

/-- What has arrived stays arrived. -/
lemma Live.arrived_step (h : w.Live) {e : FtpsEvent} {x : FtpsSide} {os : List Out}
    (hstep : w.server.step e = .ok (x, os)) {s k : UInt32} (hk : w.Arrived s k) :
    ∃ a, x.tcpd.sess s = some a ∧ a.Received k := by
  obtain ⟨a, ha, hreceived⟩ := hk
  rcases FtpsSide.step_tcpd hstep with ⟨hsame, -⟩ | ⟨e', htcpd, -⟩
  · rw [hsame]
    exact ⟨a, ha, hreceived⟩
  · exact (sess_step h.serverOk.kept.reads.ok htcpd s).received (fun _ hm => hm) ha (h.queueOk ha)
      hreceived

/-- A package the sender forgets has arrived. -/
lemma Live.kept_step (h : w.Live) {e : FtpcEvent} (hmay : w.clientMay e = true) {x : FtpcSide}
    (hstep : w.client.step e = .ok (x, os)) {fd : Int32} {c' : ConnectedSock}
    (hc' : x.tcpd.conn fd = some c') {k : UInt32} (hk : k < c'.base) :
    (∃ m ∈ c'.held, m.seqNum = k) ∨ w.Arrived c'.session k := by
  rcases FtpcSide.step_tcpd hstep with ⟨hsame, -⟩ | ⟨e', htcpd, -, hdaemon⟩
  · rw [hsame] at hc'
    exact h.kept fd c' hc' k hk
  · have hconn := conn_step htcpd fd
    have hok := h.clientOk.client.conns fd
    have hkept := h.kept fd
    rw [hc'] at hconn
    generalize w.client.tcpd.conn fd = y at hconn hok hkept
    cases hconn with
    | connect => exact absurd hk (by simp [ConnectedSock.create])
    | @send c addr len buf sys hlen =>
      rw [ConnectedSock.held_enqueue]
      by_cases hlast : k < c.base
      · refine (hkept c rfl k hlast).imp_left ?_
        rintro ⟨m, hm, hseq⟩
        exact ⟨m, List.mem_append_left _ hm, hseq⟩
      · -- the package that is made now has the last number
        refine Or.inl ⟨_, List.mem_append_right _ (List.mem_singleton_self _), ?_⟩
        show c.base = k
        have hk' : k < c.base + 1 := hk
        have hbound := (hok c rfl).bound
        simp only [seqLimit, MAX_BUFFER_PACKAGES] at hbound
        rw [UInt32.lt_iff_toNat_lt] at hlast hk'
        rw [UInt32.toNat_add, UInt32.toNat_one, Nat.mod_eq_of_lt (by omega)] at hk'
        exact UInt32.toNat_inj.mp (by omega)
    | @ack c a now hvalid =>
      rcases hkept c rfl k hk with ⟨m, hm, hseq⟩ | harrived
      · by_cases hkey : m.hasKey a.session a.seqNum
        · -- the network has not made up the ack
          have hmay : w.AckMayArrive a := by
            rw [hdaemon (by simp [Event.isFront])] at hmay
            exact of_decide_eq_true hmay
          obtain ⟨a₀, ha₀, heq⟩ := hmay hvalid
          obtain ⟨hs, hn⟩ : m.session = a.session ∧ m.seqNum = a.seqNum := by
            simpa [TrollMessageStruct.hasKey] using hkey
          have harrived := h.acks a₀ ha₀
          right
          show w.Arrived c.session k
          rw [← hseq, hn, ← (hok c rfl).session m hm, hs, heq]
          exact harrived
        · refine Or.inl ⟨m, ?_, hseq⟩
          rcases List.mem_append.mp hm with hm | hm
          · exact List.mem_append_left _ ((List.mem_eraseP_of_neg (by simpa using hkey)).mpr hm)
          · exact List.mem_append_right _ hm
      · exact Or.inr harrived
    | @timer c e hs =>
      have hexpire : (c.expire e.session.toUInt32 e.seqNum.toUInt32).base = c.base ∧
          (c.expire e.session.toUInt32 e.seqNum.toUInt32).session = c.session := by
        unfold ConnectedSock.expire
        split <;> exact ⟨rfl, rfl⟩
      rw [hexpire.1] at hk
      rw [hexpire.2]
      refine (hkept c rfl k hk).imp_left ?_
      rintro ⟨m, hm, hseq⟩
      exact ⟨m, (c.held_expire_perm _ _).mem_iff.mpr hm, hseq⟩
    | @pass c clock =>
      refine (hkept c rfl k hk).imp_left ?_
      rintro ⟨m, hm, hseq⟩
      exact ⟨m, c.held_afterPass_perm.mem_iff.mpr hm, hseq⟩
    | other _ _ _ _ => exact hkept c' rfl k hk

/-- The receiver acknowledges what has arrived. -/
lemma Live.acks_step (h : w.Live) {e : FtpsEvent} {x : FtpsSide}
    (hstep : w.server.step e = .ok (x, os)) {a : TrollAckStruct} (ha : a ∈ acksOf x.outs) :
    ∃ b, x.tcpd.sess a.session = some b ∧ b.Received a.seqNum := by
  have hold : a ∈ acksOf w.server.outs → ∃ b, x.tcpd.sess a.session = some b ∧
      b.Received a.seqNum := fun hin => h.arrived_step hstep (h.acks a hin)
  rcases FtpsSide.step_tcpd hstep with ⟨-, houts⟩ | ⟨e', htcpd, houts, -⟩
  · rw [houts] at ha
    exact hold ha
  · rw [houts, acksOf_append] at ha
    rcases List.mem_append.mp ha with hin | hnew
    · exact hold hin
    · obtain ⟨fd, hout⟩ := mem_acksOf.mp hnew
      have hok := h.serverOk.kept.reads.ok
      obtain ⟨m, remote, rfl, hvalid, rfl⟩ := ack_of_step hok htcpd hout
      exact received_of_arrive hok htcpd hvalid fun a ha => h.queueOk ha

/-- **One event.** -/
theorem Live.step (h : w.Live) (hstep : w.step e = .ok (w', os))
    (hnodup : (w'.client.transfers.map Prod.fst).Nodup)
    (hrand : ∀ s ∈ w'.client.transfers.map Prod.fst, s.toInt32 ≠ -1) (hfresh : w.FreshSocket e) :
    w'.Live := by
  obtain ⟨hclient', hserver'⟩ := ok_step (fun _ => ⟨h.clientOk, h.serverOk⟩) hstep hnodup
  cases e with
  | client e =>
    simp only [World.step] at hstep
    split at hstep
    · rename_i hmay
      split at hstep
      · cases hstep
      · rename_i hside
        cases hstep
        exact ⟨hnodup, hrand, hclient', hserver', h.client.step h.clientOk hside hnodup
          (hfresh e rfl), h.server, h.acks, fun fd c hc k hk => h.kept_step hmay hside hc hk⟩
    · cases hstep
  | server e =>
    simp only [World.step] at hstep
    split at hstep
    · rename_i hmay
      split at hstep
      · cases hstep
      · rename_i hside
        cases hstep
        refine ⟨hnodup, hrand, hclient', hserver', h.client, ?_, fun a ha => h.acks_step hside ha,
          fun fd c hc k hk => (h.kept fd c hc k hk).imp_right (h.arrived_step hside)⟩
        exact h.server.step h.serverOk hside hnodup
          (fun e' he' => framed h.clientOk (he' ▸ hmay)) hrand
    · cases hstep

lemma live_start (frontAddr bindAddr : SockaddrIn) : (start frontAddr bindAddr).Live where
  nodup := List.nodup_nil
  rand := by simp [start, FtpcSide.start]
  clientOk := FtpcSide.ok_start
  serverOk := FtpsSide.ok_start frontAddr bindAddr
  client := FtpcSide.live_start
  server := FtpsSide.live_start frontAddr bindAddr
  acks := by simp [start, FtpsSide.start, acksOf]
  kept := by simp [start, FtpcSide.start, Tcpd.conn, Tcpd.globalInit]

/-! ## Along a run -/

/-- The transfers only grow. -/
lemma transfers_step (hstep : w.step e = .ok (w', os)) :
    w.client.transfers <+: w'.client.transfers := by
  cases e with
  | client e =>
    simp only [World.step] at hstep
    split at hstep
    · split at hstep
      · cases hstep
      · rename_i hside
        cases hstep
        exact (FtpcSide.step_grows hside).1
    · cases hstep
  | server e =>
    simp only [World.step] at hstep
    split at hstep
    · split at hstep <;> cases hstep
      exact List.prefix_rfl
    · cases hstep

theorem live_of_run {frontAddr bindAddr : SockaddrIn} {es : List WorldEvent}
    (h : Run frontAddr bindAddr es w os)
    (hfresh : machine.Along (start frontAddr bindAddr) FreshSocket es)
    (hnodup : (w.client.transfers.map Prod.fst).Nodup)
    (hrand : ∀ s ∈ w.client.transfers.map Prod.fst, s.toInt32 ≠ -1) : w.Live := by
  refine machine.exec_along (I := fun u => (u.client.transfers.map Prod.fst).Nodup →
    (∀ s ∈ u.client.transfers.map Prod.fst, s.toInt32 ≠ -1) → u.Live)
    (fun u e t o hu hfresh hstep hnodup hrand => ?_) hfresh h
    (fun _ _ => live_start frontAddr bindAddr) hnodup hrand
  -- the sessions there were before are distinct too
  have hsub := (transfers_step hstep).sublist.map Prod.fst
  exact (hu (hnodup.sublist hsub) fun s hs => hrand s (hsub.subset hs)).step hstep hnodup hrand
    hfresh

end World

end NetworkProgramming
