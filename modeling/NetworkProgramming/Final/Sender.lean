import NetworkProgramming.Final.Connection

/-!
# One connection over a run of its daemon

`createdOn fd es` are the packages `tcpd_SEND` has made on socket `fd` along a run. When the
socket is connected once, in a session of its own, these carry the numbers `0`, `1`, … ; the
daemon sends no other frame of that session, and a package it no longer holds has been
acknowledged (`sender_of_run`).
-/

namespace NetworkProgramming

/-- The packages `tcpd_SEND` makes on `fd` in one step. -/
def Tcpd.creates (fd : Int32) (t : Tcpd) (e : Event) (_ : Tcpd) : List TrollMessageStruct :=
  (t.accepts e).filterMap fun x => if x.1 = fd then some x.2 else none

/-- The packages `tcpd_SEND` makes on `fd` along a run. -/
def createdOn (fd : Int32) (es : List Event) : List TrollMessageStruct :=
  Tcpd.machine.collect (Tcpd.creates fd) Tcpd.globalInit es

/-- The frames among the datagrams. -/
def framesOf (os : List Out) : List TrollMessageStruct :=
  os.filterMap fun o =>
    match o with
    | .frame _ m => some m
    | _ => none

@[simp] lemma framesOf_nil : framesOf [] = [] := rfl

@[simp] lemma framesOf_append (os os' : List Out) :
    framesOf (os ++ os') = framesOf os ++ framesOf os' := List.filterMap_append

lemma mem_framesOf {os : List Out} {m : TrollMessageStruct} :
    m ∈ framesOf os ↔ ∃ fd, .frame fd m ∈ os := by
  simp only [framesOf, List.mem_filterMap]
  constructor
  · rintro ⟨o, ho, hm⟩
    cases o with
    | frame fd m' => cases hm; exact ⟨fd, ho⟩
    | _ => cases hm
  · exact fun ⟨fd, h⟩ => ⟨_, h, rfl⟩

/-- Every frame is a pending package that the window admits. -/
lemma frame_of_step {t t' : Tcpd} {e : Event} {os : List Out} (h : t.step e = .ok (t', os))
    {fd : Int32} {m : TrollMessageStruct} (hm : .frame fd m ∈ os) :
    ∃ fd' c, t.conn fd' = some c ∧ c.socketFD = fd ∧ m ∈ c.sendable := by
  have hquiet : (∀ o ∈ os, o.Quiet) → False := fun hq => hq _ hm
  cases client_step h with
  | connect _ _ hq => exact (hquiet hq).elim
  | send _ _ _ _ _ hq => exact (hquiet hq).elim
  | ack _ _ _ _ _ => simp at hm
  | ackOther _ _ _ _ _ => simp at hm
  | timer _ _ _ _ => cases hm
  | pass hpass _ =>
    obtain ⟨fd', c, m', hc, hsendable, hframe | ⟨_, htimer⟩⟩ := out_of_sendPass hpass hm
    · cases hframe
      exact ⟨fd', c, hc, rfl, hsendable⟩
    · cases htimer
  | rehash _ _ => cases hm
  | other _ _ _ _ _ _ _ hq => exact (hquiet hq).elim

/-- A send pass sends the pending packages the window admits, and requests their timers. -/
lemma sent_of_pass {t t' : Tcpd} {clock : ℕ → Timeval} {s : Estimator × ℕ} {os : List Out}
    (h : t.connectedSockets.pass (ConnectedSock.sendVisit clock) (t.estimator, 0)
      = .ok (s, t'.connectedSockets, os)) {fd : Int32} {c : ConnectedSock}
    (hc : t.conn fd = some c) {m : TrollMessageStruct} (hm : m ∈ c.sendable) :
    .frame c.socketFD m ∈ os ∧
      ∃ rto, .timer (sendTimerRequest m.session m.seqNum rto) ∈ os := by
  obtain ⟨x, hby, -, rfl, -, os₁, os₂, rfl, -⟩ := HashTable.pass_lookup h hc
  obtain ⟨-, sent, hfst, houts⟩ := sendBack_visit hby
  rw [← hfst] at hm
  obtain ⟨y, hy, rfl⟩ := List.mem_map.mp hm
  have hvisit : ∀ o ∈ x.outs, o ∈ os₁ ++ x.outs ++ os₂ := by
    intro o ho
    apply List.mem_append_left
    apply List.mem_append_right
    exact ho
  rw [houts] at hvisit ⊢
  exact ⟨hvisit _ (mem_sentOuts.mpr ⟨y, hy, Or.inl rfl⟩),
    y.2, hvisit _ (mem_sentOuts.mpr ⟨y, hy, Or.inr rfl⟩)⟩

/-- Only a `SEND` on the socket makes a package there. -/
lemma creates_eq (fd : Int32) {t t' : Tcpd} {e : Event} {os : List Out}
    (h : t.step e = .ok (t', os)) :
    Tcpd.creates fd t e t' = [] ∨ ∃ addr len buf sys c, e = .front addr (.SEND fd len buf) sys ∧
      t.conn fd = some c ∧ len.toNat ≤ BUF_LEN ∧ t.inBufferPackages < 64 ∧
      Tcpd.creates fd t e t' = [c.makePackage buf len sys.malloc] ∧
      t'.conn fd = some (c.enqueue (c.makePackage buf len sys.malloc)) := by
  cases e with
  | front addr r sys =>
    cases r with
    | SEND fd' len buf =>
      cases client_step h with
      | send hroom hlen hc htable _ _ =>
        by_cases hfd : fd' = fd
        · subst hfd
          refine Or.inr ⟨_, _, _, _, _, rfl, hc, hlen, hroom, ?_, ?_⟩
          · simp [Tcpd.creates, Tcpd.accepts, hc]
          · rw [Tcpd.conn, htable, HashTable.lookup_insert_self]
        · left
          simp [Tcpd.creates, Tcpd.accepts, hc, hfd]
      | other _ hsend _ _ _ _ _ _ => exact absurd rfl (hsend _ _ _ _ _)
    | _ => exact Or.inl rfl
  | _ => exact Or.inl rfl

/-- The event keeps session `s` to the one connection on `fd`. -/
def OwnSession (fd : Int32) (s : UInt32) (t : Tcpd) (e : Event) : Prop :=
  ∀ addr fd' a sys, e = .front addr (.CONNECT fd' a) sys →
    (fd' = fd → t.conn fd = none ∧ sys.rand = s) ∧ (fd' ≠ fd → sys.rand ≠ s)

/-- An intact ack of package `n` of the connection has arrived. -/
def AckArrived (fd : Int32) (s n : UInt32) (es : List Event) : Prop :=
  ∃ a now, .ack fd a now ∈ es ∧ a.Valid ∧ a.session = s ∧ a.seqNum = n

/-- What a run has done with the connection on `fd`: `created` are the packages made on it. -/
structure SenderOk (fd : Int32) (s : UInt32) (created : List TrollMessageStruct)
    (es : List Event) (t : Tcpd) (os : List Out) : Prop where
  absent : t.conn fd = none → created = []
  present : ∀ c, t.conn fd = some c → c.session = s ∧ c.base.toNat = created.length ∧
    ∀ m ∈ c.held, m ∈ created
  numbers : ∀ i (hi : i < created.length), created[i].seqNum.toNat = i
  packages : ∀ m ∈ created, m.Valid ∧ m.session = s ∧ m.len.toNat ≤ BUF_LEN
  others : ∀ fd' c, fd' ≠ fd → t.conn fd' = some c → c.session ≠ s
  frames : ∀ m ∈ framesOf os, m.session = s → m ∈ created
  kept : ∀ m ∈ created, (∃ c, t.conn fd = some c ∧ m ∈ c.held) ∨ AckArrived fd s m.seqNum es

section Run

variable {fd : Int32} {s : UInt32} {es : List Event} {t t' : Tcpd} {os os' : List Out}
  {created : List TrollMessageStruct} {e : Event}

lemma creates_eq_nil (h : ∀ addr len buf sys, e ≠ .front addr (.SEND fd len buf) sys) :
    Tcpd.creates fd t e t' = [] := by
  cases e with
  | front addr r sys =>
    cases r with
    | SEND fd' len buf =>
      have hfd : fd' ≠ fd := fun heq => h addr len buf sys (by rw [heq])
      cases t.conn fd' <;> simp [Tcpd.creates, Tcpd.accepts, *]
    | _ => rfl
  | _ => rfl

/-- The entry of the connection after one more step. -/
lemma SenderOk.present_step (h : SenderOk fd s created es t os) (hok : t.ClientOk)
    (hown : OwnSession fd s t e) (hstep : t.step e = .ok (t', os')) {c' : ConnectedSock}
    (hc' : t'.conn fd = some c') :
    c'.session = s ∧ c'.base.toNat = (created ++ Tcpd.creates fd t e t').length ∧
      ∀ m ∈ c'.held, m ∈ created ++ Tcpd.creates fd t e t' := by
  have hconn := conn_step hstep fd
  have hclient := client_step hstep
  rw [hc'] at hconn
  generalize hx : t.conn fd = x at hconn
  -- a step that makes no package on the socket
  have hkeep : ∀ c, x = some c → Tcpd.creates fd t e t' = [] → c'.session = c.session →
      c'.base = c.base → (∀ m ∈ c'.held, m ∈ c.held) →
      c'.session = s ∧ c'.base.toNat = (created ++ Tcpd.creates fd t e t').length ∧
        ∀ m ∈ c'.held, m ∈ created ++ Tcpd.creates fd t e t' := by
    intro c hc hnil hsession hbase hheld
    obtain ⟨hs, hb, hm⟩ := h.present c (hx.trans hc)
    rw [hnil, List.append_nil, hsession, hbase]
    exact ⟨hs, hb, fun m hmem => hm m (hheld m hmem)⟩
  cases hconn with
  | connect =>
    obtain ⟨hnone, hrand⟩ := (hown _ _ _ _ rfl).1 rfl
    rw [h.absent hnone, creates_eq_nil (by simp)]
    exact ⟨hrand, rfl, by simp⟩
  | @send c addr len buf sys hlen =>
    obtain ⟨hs, hb, hm⟩ := h.present c hx
    have hcreates : Tcpd.creates fd t (.front addr (.SEND fd len buf) sys) t'
        = [c.makePackage buf len sys.malloc] := by
      simp [Tcpd.creates, Tcpd.accepts, hx]
    have hroom : t.inBufferPackages < 64 := by
      cases hclient with
      | send hroom _ _ _ _ _ => exact hroom
      | other _ hsend _ _ _ _ _ _ => exact absurd rfl (hsend _ _ _ _ _)
    have hlt := (hok.conns fd c hx).base_lt (hok.room hx hroom)
    rw [hcreates, List.length_append, List.length_singleton]
    refine ⟨hs, ?_, fun m hmem => ?_⟩
    · show (c.base + 1).toNat = _
      rw [UInt32.toNat_add, UInt32.toNat_one, hb, Nat.mod_eq_of_lt]
      simp only [seqLimit, MAX_BUFFER_PACKAGES] at hlt
      omega
    · rw [ConnectedSock.held_enqueue] at hmem
      rcases List.mem_append.mp hmem with hmem | hmem
      · exact List.mem_append_left _ (hm m hmem)
      · exact List.mem_append_right _ hmem
  | ack _ =>
    exact hkeep _ rfl (creates_eq_nil (by simp)) rfl rfl
      fun m hm => (ConnectedSock.held_drop_sublist _ _).subset hm
  | @timer c x _ =>
    refine hkeep c rfl (creates_eq_nil (by simp)) ?_ ?_
      fun m hm => (c.held_expire_perm _ _).mem_iff.mp hm
    · unfold ConnectedSock.expire
      split <;> rfl
    · unfold ConnectedSock.expire
      split <;> rfl
  | @pass c _ =>
    exact hkeep c rfl (creates_eq_nil (by simp)) rfl rfl
      fun m hm => c.held_afterPass_perm.mem_iff.mp hm
  | other _ hsend _ _ => exact hkeep c' rfl (creates_eq_nil hsend) rfl rfl fun _ hm => hm

/-- **One more step of the connection.** -/
theorem SenderOk.step (h : SenderOk fd s created es t os) (hok : t.ClientOk)
    (hown : OwnSession fd s t e) (hstep : t.step e = .ok (t', os')) :
    SenderOk fd s (created ++ Tcpd.creates fd t e t') (es ++ [e]) t' (os ++ os') := by
  -- the package a `SEND` on `fd` makes, if the step is one
  have hmade : ∀ m ∈ Tcpd.creates fd t e t', ∃ addr len buf sys c,
      e = .front addr (.SEND fd len buf) sys ∧ t.conn fd = some c ∧ len.toNat ≤ BUF_LEN ∧
      t'.conn fd = some (c.enqueue m) ∧ m = c.makePackage buf len sys.malloc := by
    intro m hm
    rcases creates_eq fd hstep with hnil | ⟨addr, len, buf, sys, c, he, hc, hlen, -, hnew, hc'⟩
    · rw [hnil] at hm
      cases hm
    · rw [hnew] at hm
      obtain rfl := List.mem_singleton.mp hm
      exact ⟨addr, len, buf, sys, c, he, hc, hlen, hc', rfl⟩
  refine ⟨fun hnone => ?_, fun c' hc' => h.present_step hok hown hstep hc', ?_, ?_, ?_, ?_, ?_⟩
  · have hcreates : Tcpd.creates fd t e t' = [] := by
      rcases creates_eq fd hstep with hnil | ⟨_, _, _, _, _, _, _, _, _, _, hc'⟩
      · exact hnil
      · rw [hnone] at hc'
        cases hc'
    have hconn := conn_step hstep fd
    rw [hnone] at hconn
    generalize hx : t.conn fd = x at hconn
    cases hconn with
    | other _ _ _ _ => rw [h.absent hx, hcreates, List.append_nil]
  · intro i hi
    rcases creates_eq fd hstep with hnil | ⟨addr, len, buf, sys, c, -, hc, -, -, hnew, -⟩
    · simp only [hnil, List.append_nil] at hi ⊢
      exact h.numbers i hi
    · obtain ⟨-, hb, -⟩ := h.present c hc
      simp only [hnew] at hi ⊢
      rcases Nat.lt_or_ge i created.length with hlt | hge
      · rw [List.getElem_append_left hlt]
        exact h.numbers i hlt
      · rw [List.length_append, List.length_singleton] at hi
        obtain rfl : i = created.length := by omega
        simpa [ConnectedSock.makePackage, TrollMessageStruct.sealed] using hb
  · intro m hm
    rcases List.mem_append.mp hm with hm | hm
    · exact h.packages m hm
    · obtain ⟨_, _, _, _, c, -, hc, hlen, -, rfl⟩ := hmade m hm
      exact ⟨TrollMessageStruct.valid_sealed _, (h.present c hc).1, hlen⟩
  · intro fd' c' hne hc'
    rcases (conn_step hstep fd').session hc' with ⟨c, hc, hs⟩ | ⟨addr, a, sys, he, hs⟩
    · exact hs ▸ h.others fd' c hne hc
    · exact hs ▸ (hown addr fd' a sys he).2 hne
  · intro m hm hs
    rw [framesOf_append] at hm
    rcases List.mem_append.mp hm with hm | hm
    · exact List.mem_append_left _ (h.frames m hm hs)
    · -- what is sent is held; another connection has another session
      obtain ⟨fd₁, hframe⟩ := mem_framesOf.mp hm
      obtain ⟨fd₂, c, hc, -, hsend⟩ := frame_of_step hstep hframe
      have hheld : m ∈ c.held := List.mem_append_right _ (List.mem_filter.mp hsend).1
      by_cases hfd : fd₂ = fd
      · subst hfd
        exact List.mem_append_left _ ((h.present c hc).2.2 m hheld)
      · exact absurd (((hok.conns fd₂ c hc).session m hheld).symm.trans hs) (h.others fd₂ c hfd hc)
  · intro m hm
    rcases List.mem_append.mp hm with hm | hm
    · rcases h.kept m hm with ⟨c, hc, hheld⟩ | ⟨a, now, hmem, hack⟩
      -- a package held so far stays unless this step is the ack for it
      · by_cases hack : AckArrived fd s m.seqNum [e]
        · obtain ⟨a, now, hmem, hack⟩ := hack
          exact Or.inr ⟨a, now, List.mem_append_right _ hmem, hack⟩
        · left
          have hconn := conn_step hstep fd
          rw [hc] at hconn
          refine hconn.mem_held hheld (fun addr a sys he => ?_) fun a now he hvalid hkey => hack ?_
          · rw [((hown addr fd a sys he).1 rfl).1] at hc
            cases hc
          · simp only [TrollMessageStruct.hasKey, decide_eq_true_eq] at hkey
            exact ⟨a, now, by rw [he]; simp, hvalid,
              hkey.1.symm.trans (h.packages m hm).2.1, hkey.2.symm⟩
      · exact Or.inr ⟨a, now, List.mem_append_left _ hmem, hack⟩
    · obtain ⟨_, _, _, _, c, -, -, -, hc', -⟩ := hmade m hm
      refine Or.inl ⟨_, hc', ?_⟩
      rw [ConnectedSock.held_enqueue]
      exact List.mem_append_right _ (List.mem_singleton_self m)

/-- A run whose events keep session `s` to the connection on `fd`. -/
theorem sender_of_run (h : Tcpd.Run es t os)
    (hown : Tcpd.machine.Along Tcpd.globalInit (OwnSession fd s) es) :
    SenderOk fd s (createdOn fd es) es t os := by
  refine Tcpd.machine.exec_induction (motive := fun es t os =>
    Tcpd.machine.Along Tcpd.globalInit (OwnSession fd s) es →
      SenderOk fd s (createdOn fd es) es t os) (fun _ => ?_) ?_ h hown
  · constructor <;> simp [createdOn, Machine.collect, framesOf, Tcpd.conn, Tcpd.globalInit]
  · intro es u o e t o' hrun ih hstep hown
    obtain ⟨hbefore, hlast⟩ := (Tcpd.machine.along_snoc hrun).mp hown
    rw [createdOn, Tcpd.machine.collect_snoc _ hrun hstep]
    exact (ih hbefore).step (clientOk_of_run hrun) hlast hstep

end Run

end NetworkProgramming
