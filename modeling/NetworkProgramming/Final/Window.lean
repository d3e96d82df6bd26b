import NetworkProgramming.Final.Connection

/-!
# The send window

The receiver is promised that what is in flight spans less than `MAX_BUFFER_PACKAGES`
sequence numbers. `handle_send_all_back` computes `MinSeq` from the packages of the window
alone, so a package that has timed out no longer holds the window back: when a pass starts with
such a package and a pending one too far above it (`Overtakes`), the bound breaks.
`inWindow_iff_neverOvertakes` says that it breaks in no other way.
-/

namespace NetworkProgramming

namespace ConnectedSock

/-- The packages of the window lie within `MAX_BUFFER_PACKAGES` of the smallest number the
connection holds. -/
def InWindow (c : ConnectedSock) : Prop :=
  ∀ p ∈ c.packages, ∀ least ∈ (c.held.map (·.seqNum.toNat)).min?,
    p.seqNum.toNat < least + MAX_BUFFER_PACKAGES

lemma inWindow_iff {c : ConnectedSock} :
    c.InWindow ↔ ∀ p ∈ c.packages, ∀ m ∈ c.held,
      p.seqNum.toNat < m.seqNum.toNat + MAX_BUFFER_PACKAGES := by
  constructor
  · intro h p hp m hm
    have hmem : m.seqNum.toNat ∈ c.held.map (·.seqNum.toNat) := List.mem_map_of_mem hm
    cases hmin : (c.held.map (·.seqNum.toNat)).min? with
    | none => simp [List.min?_eq_none_iff.mp hmin] at hmem
    | some least =>
      have hle := (List.min?_eq_some_iff.mp hmin).2 _ hmem
      have hlt := h p hp least hmin
      omega
  · intro h p hp least hmin
    obtain ⟨m, hm, rfl⟩ := List.mem_map.mp (List.min?_eq_some_iff.mp hmin).1
    exact h p hp m hm

/-- A pending package goes past another one: it is `MAX_BUFFER_PACKAGES` or more above it, but
not above any package of the window. -/
def Overtakes (c : ConnectedSock) : Prop :=
  ∃ m ∈ c.pendingPackages, ∃ q ∈ c.pendingPackages,
    m.seqNum.toNat + MAX_BUFFER_PACKAGES ≤ q.seqNum.toNat ∧ q.seqNum.toNat < seqLimit ∧
      ∀ p ∈ c.packages, q.seqNum.toNat < p.seqNum.toNat + MAX_BUFFER_PACKAGES

/-- What the window admits. -/
lemma admits_iff {l : List TrollMessageStruct} {m : TrollMessageStruct} :
    admits (minSeqOf l) m ↔ m.seqNum.toNat < seqLimit ∧
      ∀ p ∈ l, m.seqNum.toNat < p.seqNum.toNat + MAX_BUFFER_PACKAGES := by
  obtain ⟨htop, hle, hmem⟩ := le_minSeqOf l
  have htop' := UInt32.le_iff_toNat_le.mp htop
  have hsum : (minSeqOf l + UInt32.ofNat MAX_BUFFER_PACKAGES).toNat
      = (minSeqOf l).toNat + MAX_BUFFER_PACKAGES := by
    rw [UInt32.toNat_add, UInt32.toNat_ofNat']
    simp only [MAX_BUFFER_PACKAGES, UInt32.reduceToNat] at *
    omega
  have hwithin : admits (minSeqOf l) m ↔
      m.seqNum.toNat < (minSeqOf l).toNat + MAX_BUFFER_PACKAGES := by
    rw [admits, decide_eq_true_iff, UInt32.le_iff_toNat_le, hsum, not_le]
  rw [hwithin, seqLimit]
  constructor
  · intro hlt
    refine ⟨lt_of_lt_of_le hlt (Nat.add_le_add_right htop' _), fun p hp => ?_⟩
    exact lt_of_lt_of_le hlt (Nat.add_le_add_right (UInt32.le_iff_toNat_le.mp (hle p hp)) _)
  · rintro ⟨hlimit, hall⟩
    rcases hmem with heq | ⟨p, hp, heq⟩
    · rw [heq]
      exact hlimit
    · rw [← heq]
      exact hall p hp

/-- A pass leaves no package behind that the window admits after it. -/
lemma sendable_afterPass (c : ConnectedSock) : c.afterPass.sendable = [] := by
  refine List.filter_eq_nil_iff.mpr fun m hm hlets => ?_
  obtain ⟨-, hskipped⟩ := List.mem_filter.mp hm
  obtain ⟨hlimit, hall⟩ := admits_iff.mp hlets
  have hbefore : admits (minSeqOf c.packages) m = true :=
    admits_iff.mpr ⟨hlimit, fun p hp => hall p (List.mem_append_left _ hp)⟩
  rw [hbefore] at hskipped
  cases hskipped

/-- The pass keeps the packages within the window unless one overtakes another. -/
lemma inWindow_afterPass {c : ConnectedSock} (h : c.InWindow) :
    c.afterPass.InWindow ↔ ¬ c.Overtakes := by
  rw [inWindow_iff] at h ⊢
  have hheld : ∀ m, m ∈ c.afterPass.held ↔ m ∈ c.held := fun m => c.held_afterPass_perm.mem_iff
  constructor
  · rintro hwindow ⟨m, hm, q, hq, hfar, hlimit, hall⟩
    have hsent : q ∈ c.afterPass.packages :=
      List.mem_append_right _ (List.mem_filter.mpr ⟨hq, admits_iff.mpr ⟨hlimit, hall⟩⟩)
    have hlt := hwindow q hsent m ((hheld m).mpr (List.mem_append_right _ hm))
    omega
  · intro hnot p hp m hm
    rw [hheld] at hm
    rcases List.mem_append.mp hp with hp | hp
    · exact h p hp m hm
    · obtain ⟨hpending, hwithin⟩ := List.mem_filter.mp hp
      obtain ⟨hlimit, hall⟩ := admits_iff.mp hwithin
      rcases List.mem_append.mp hm with hm | hm
      · exact hall m hm
      · by_contra hfar
        exact hnot ⟨m, hm, p, hpending, not_lt.mp hfar, hlimit, hall⟩

/-- Dropping packages keeps the others within the window. -/
lemma InWindow.anti {c c' : ConnectedSock} (h : c.InWindow)
    (hpackages : ∀ m ∈ c'.packages, m ∈ c.packages) (hheld : ∀ m ∈ c'.held, m ∈ c.held) :
    c'.InWindow := by
  rw [inWindow_iff] at h ⊢
  exact fun p hp m hm => h p (hpackages p hp) m (hheld m hm)

lemma InWindow.expire {c : ConnectedSock} (h : c.InWindow) (s n : UInt32) :
    (c.expire s n).InWindow := by
  refine h.anti (fun m hm => ?_) (fun m hm => (c.held_expire_perm s n).subset hm)
  unfold ConnectedSock.expire at hm
  split at hm
  · exact hm
  · exact List.mem_of_mem_eraseP hm

/-- A new package has the largest number so far. -/
lemma InWindow.enqueue {fd : Int32} {c : ConnectedSock} (h : c.InWindow) (hok : ConnOk fd c)
    {m : TrollMessageStruct} (hm : m.seqNum = c.base) : (c.enqueue m).InWindow := by
  rw [inWindow_iff] at h ⊢
  intro p hp m' hm'
  rw [held_enqueue] at hm'
  rcases List.mem_append.mp hm' with hm' | hm'
  · exact h p hp m' hm'
  · have hlt := UInt32.lt_iff_toNat_lt.mp (hok.below p (List.mem_append_left _ hp))
    rw [List.mem_singleton.mp hm', hm]
    omega

end ConnectedSock

/-- Every connection keeps its packages within the window. -/
def Tcpd.InWindow (t : Tcpd) : Prop := ∀ fd c, t.conn fd = some c → c.InWindow

/-- No send pass starts on a connection where a package overtakes another. -/
def NeverOvertakes : List Event → Prop :=
  Tcpd.machine.Along Tcpd.globalInit fun t e =>
    ∀ clock, e = .sendBack clock → ∀ fd c, t.conn fd = some c → ¬ c.Overtakes

/-- One step keeps the packages within the window exactly when it is not a pass in which one
overtakes another. -/
lemma inWindow_step {t t' : Tcpd} {e : Event} {os : List Out} (hok : t.ClientOk)
    (hwindow : t.InWindow) (h : t.step e = .ok (t', os)) :
    t'.InWindow ↔ ∀ clock, e = .sendBack clock → ∀ fd c, t.conn fd = some c → ¬ c.Overtakes := by
  constructor
  · rintro hwindow' clock rfl fd c hc
    have hstep := conn_step h fd
    rw [hc] at hstep
    generalize hx : t'.conn fd = x at hstep
    cases hstep with
    | pass => exact (ConnectedSock.inWindow_afterPass (hwindow fd c hc)).mp (hwindow' fd _ hx)
    | other _ _ _ hpass => exact absurd (hpass clock rfl) (by simp)
  · intro hnever fd c hc
    have hstep := conn_step h fd
    have hold := hwindow fd
    have hconn := hok.conns fd
    have hpass := fun clock he => hnever clock he fd
    rw [hc] at hstep
    generalize t.conn fd = x at *
    cases hstep with
    | connect => exact ConnectedSock.inWindow_iff.mpr (by simp [ConnectedSock.create])
    | send _ => exact (hold _ rfl).enqueue (hconn _ rfl) rfl
    | ack _ =>
      exact (hold _ rfl).anti (fun m hm => List.mem_of_mem_eraseP hm)
        (fun m hm => (ConnectedSock.held_drop_sublist _ _).subset hm)
    | timer _ => exact (hold _ rfl).expire _ _
    | pass => exact (ConnectedSock.inWindow_afterPass (hold _ rfl)).mpr (hpass _ rfl _ rfl)
    | other _ _ _ _ => exact hold _ rfl

/-- **The send window holds exactly while no package overtakes another.** Along a run every
state keeps every connection's packages within `MAX_BUFFER_PACKAGES` of the smallest number
that connection holds if and only if no send pass of the run starts on a connection where a
pending package overtakes one that has timed out. -/
theorem inWindow_iff_neverOvertakes (es : List Event) (t : Tcpd) (os : List Out)
    (h : Tcpd.Run es t os) :
    Tcpd.machine.Throughout Tcpd.globalInit Tcpd.InWindow es ↔ NeverOvertakes es :=
  Tcpd.machine.throughout_iff_along (J := Tcpd.ClientOk)
    (fun _ _ _ _ hok hstep => clientOk_step hok hstep)
    (fun _ _ _ _ hok hwindow hstep => inWindow_step hok hwindow hstep) h clientOk_globalInit
    (by simp [Tcpd.InWindow, Tcpd.conn, Tcpd.globalInit])

/-! ## A run that leaves the window -/

section Overtaking

/-- The test of the window on plain numbers. -/
def admitted (sent : List ℕ) (n : ℕ) : Bool :=
  n < seqLimit ∧ ∀ p ∈ sent, n < p + MAX_BUFFER_PACKAGES

/-- The connection on `fd` is the only one; `sent` are the numbers in its window, `pending`
those behind it, `next` is `Base`, and every package is counted. -/
structure Tcpd.Shows (t : Tcpd) (fd : Int32) (s : UInt32) (sent pending : List ℕ) (next : ℕ) :
    Prop where
  conn : ∃ c, t.conn fd = some c ∧ c.session = s ∧ c.base.toNat = next ∧
    c.packages.map (·.seqNum.toNat) = sent ∧ c.pendingPackages.map (·.seqNum.toNat) = pending
  only : ∀ fd', fd' ≠ fd → t.conn fd' = none
  count : t.inBufferPackages = sent.length + pending.length

variable {t : Tcpd} {fd : Int32} {s : UInt32} {sent pending : List ℕ} {next : ℕ}

/-- Only the entry of `fd` changes. -/
lemma Tcpd.Shows.insert (h : t.Shows fd s sent pending next) {t' : Tcpd} {c' : ConnectedSock}
    (htable : t'.connectedSockets = t.connectedSockets.insert fd c') :
    t'.conn fd = some c' ∧ ∀ fd', fd' ≠ fd → t'.conn fd' = none := by
  refine ⟨by rw [Tcpd.conn, htable, HashTable.lookup_insert_self], fun fd' hne => ?_⟩
  rw [Tcpd.conn, htable, HashTable.lookup_insert_ne _ _ hne]
  exact h.only fd' hne

lemma exists_shows_send (h : t.Shows fd s sent pending next)
    (hroom : sent.length + pending.length < MAX_BUFFER_PACKAGES) (hnext : next + 1 < 2 ^ 32)
    {len : UInt64} (hlen : len.toNat ≤ BUF_LEN) (addr : SockaddrIn) (buf : Buffer BUF_LEN)
    (sys : Sys) :
    ∃ t' os, t.step (.front addr (.SEND fd len buf) sys) = .ok (t', os) ∧
      t'.Shows fd s sent (pending ++ [next]) (next + 1) := by
  obtain ⟨c, hc, hs, hbase, hsent, hpending⟩ := h.conn
  have hcount := h.count
  obtain ⟨t', os, hstep, htable, hin⟩ :=
    exists_step_send (by omega) hc hlen addr buf sys
  obtain ⟨hconn, honly⟩ := h.insert htable
  refine ⟨t', os, hstep, ⟨_, hconn, hs, ?_, hsent, ?_⟩, honly, ?_⟩
  · rw [ConnectedSock.enqueue, UInt32.toNat_add, hbase, UInt32.toNat_one, Nat.mod_eq_of_lt hnext]
  · rw [ConnectedSock.enqueue, List.map_append, hpending]
    simp [ConnectedSock.makePackage, TrollMessageStruct.sealed, hbase]
  · rw [hin, hcount, List.length_append, List.length_singleton]
    push_cast
    ring

/-- On the numbers of the packages the window's test is the plain one. -/
lemma admits_eq_admitted (l : List TrollMessageStruct) (m : TrollMessageStruct) :
    ConnectedSock.admits (ConnectedSock.minSeqOf l) m
      = admitted (l.map (·.seqNum.toNat)) m.seqNum.toNat := by
  rw [Bool.eq_iff_iff, ConnectedSock.admits_iff, admitted, decide_eq_true_iff]
  simp

lemma map_seqNum_sendable (c : ConnectedSock) :
    c.sendable.map (·.seqNum.toNat) = (c.pendingPackages.map (·.seqNum.toNat)).filter
      (admitted (c.packages.map (·.seqNum.toNat))) := by
  rw [List.filter_map, ConnectedSock.sendable]
  exact congrArg _ (List.filter_congr fun m _ => admits_eq_admitted c.packages m)

lemma map_seqNum_skipped (c : ConnectedSock) :
    c.skipped.map (·.seqNum.toNat) = (c.pendingPackages.map (·.seqNum.toNat)).filter
      fun n => !admitted (c.packages.map (·.seqNum.toNat)) n := by
  simp only [ConnectedSock.skipped, List.filter_map, Function.comp_def, admits_eq_admitted]

lemma exists_shows_sendBack (h : t.Shows fd s sent pending next) (clock : ℕ → Timeval) :
    ∃ t' os, t.step (.sendBack clock) = .ok (t', os) ∧
      t'.Shows fd s (sent ++ pending.filter (admitted sent))
        (pending.filter fun n => !admitted sent n) next := by
  obtain ⟨c, hc, hs, hbase, hsent, hpending⟩ := h.conn
  obtain ⟨t', os, hstep, hconn, hin⟩ := exists_step_sendBack t clock
  refine ⟨t', os, hstep, ⟨c.afterPass, by rw [hconn, hc]; rfl, hs, hbase, ?_, ?_⟩, ?_, ?_⟩
  · rw [ConnectedSock.afterPass, List.map_append, map_seqNum_sendable, hsent, hpending]
  · rw [ConnectedSock.afterPass, map_seqNum_skipped, hsent, hpending]
  · intro fd' hne
    rw [hconn, h.only fd' hne]
    rfl
  · have hparts := List.length_eq_length_filter_add (l := pending) (admitted sent)
    rw [hin, h.count, List.length_append]
    push_cast
    omega

/-- Removing the package of a key removes its number. -/
lemma map_seqNum_eraseP {l : List TrollMessageStruct} (h : ∀ m ∈ l, m.session = s) (n : UInt32) :
    (l.eraseP (·.hasKey s n)).map (·.seqNum.toNat) = (l.map (·.seqNum.toNat)).erase n.toNat := by
  induction l with
  | nil => rfl
  | cons m l ih =>
    obtain ⟨hm, hl⟩ := List.forall_mem_cons.mp h
    by_cases hn : m.seqNum = n
    · have hkey : m.hasKey s n := by simp [TrollMessageStruct.hasKey, hm, hn]
      rw [List.eraseP_cons_of_pos (p := fun x : TrollMessageStruct => x.hasKey s n) hkey,
        List.map_cons, hn, List.erase_cons_head]
    · have hn' : ¬ m.seqNum.toNat = n.toNat := fun heq => hn (UInt32.toNat_inj.mp heq)
      have hkey : ¬ m.hasKey s n := by simp [TrollMessageStruct.hasKey, hn]
      rw [List.eraseP_cons_of_neg (p := fun x : TrollMessageStruct => x.hasKey s n) hkey,
        List.map_cons, ih hl, List.map_cons, List.erase_cons_tail (by simpa using hn')]

lemma exists_shows_ack (hok : t.ClientOk) (h : t.Shows fd s sent pending next)
    {a : TrollAckStruct} (hvalid : a.Valid) (hsession : a.session = s)
    (hmem : a.seqNum.toNat ∈ sent) (now : Timeval) :
    ∃ t' os, t.step (.ack fd a now) = .ok (t', os) ∧
      t'.Shows fd s (sent.erase a.seqNum.toNat) pending next := by
  obtain ⟨c, hc, hs, hbase, hsent, hpending⟩ := h.conn
  have hall : ∀ m ∈ c.packages, m.session = s := fun m hm =>
    ((hok.conns fd c hc).session m (List.mem_append_left _ hm)).trans hs
  have hfound : c.packages.any (·.hasKey a.session a.seqNum) := by
    obtain ⟨m, hm, heq⟩ := List.mem_map.mp (hsent ▸ hmem)
    refine List.any_eq_true.mpr ⟨m, hm, ?_⟩
    simp [TrollMessageStruct.hasKey, hsession, hall m hm, UInt32.toNat_inj.mp heq]
  obtain ⟨t', os, hstep, htable, hin⟩ := exists_step_ack hvalid hc hfound now
  obtain ⟨hconn, honly⟩ := h.insert htable
  refine ⟨t', os, hstep, ⟨_, hconn, hs, hbase, ?_, hpending⟩, honly, ?_⟩
  · rw [ConnectedSock.drop, hsession, map_seqNum_eraseP hall, hsent]
  · rw [hin, h.count, List.length_erase_of_mem hmem]
    have hpos := List.length_pos_of_mem hmem
    omega

lemma exists_shows_timer (hok : t.ClientOk) (h : t.Shows fd s sent pending next)
    {e : TimerExpiredStruct} (hsession : e.session.toUInt32 = s)
    (hmem : e.seqNum.toUInt32.toNat ∈ sent) :
    ∃ t' os, t.step (.timer e) = .ok (t', os) ∧
      t'.Shows fd s (sent.erase e.seqNum.toUInt32.toNat) (pending ++ [e.seqNum.toUInt32.toNat])
        next := by
  obtain ⟨c, hc, hs, hbase, hsent, hpending⟩ := h.conn
  have hall : ∀ m ∈ c.packages, m.session = s := fun m hm =>
    ((hok.conns fd c hc).session m (List.mem_append_left _ hm)).trans hs
  obtain ⟨t', os, hstep, htable, hin⟩ := exists_step_timer hc (hs.trans hsession.symm)
    fun fd' c' hc' _ => by
      by_contra hne
      rw [h.only fd' hne] at hc'
      cases hc'
  obtain ⟨hconn, honly⟩ := h.insert htable
  obtain ⟨m, hm, heq⟩ := List.mem_map.mp (hsent ▸ hmem)
  -- the expired package is in the window; it moves to the end of the pending ones
  cases hfind : c.packages.find? (·.hasKey s e.seqNum.toUInt32) with
  | none =>
    have hnot := List.find?_eq_none.mp hfind m hm
    simp [TrollMessageStruct.hasKey, hall m hm, UInt32.toNat_inj.mp heq] at hnot
  | some m' =>
    have hkey : m'.seqNum = e.seqNum.toUInt32 := by
      have := List.find?_some hfind
      simp only [TrollMessageStruct.hasKey, decide_eq_true_eq] at this
      exact this.2
    have hexpire : c.expire e.session.toUInt32 e.seqNum.toUInt32
        = { c with packages := c.packages.eraseP (·.hasKey s e.seqNum.toUInt32),
                   pendingPackages := c.pendingPackages ++ [m'] } := by
      rw [hsession, ConnectedSock.expire, hfind]
    rw [hexpire] at hconn
    refine ⟨t', os, hstep, ⟨_, hconn, hs, hbase, ?_, ?_⟩, honly, ?_⟩
    · rw [map_seqNum_eraseP hall, hsent]
    · rw [List.map_append, hpending, List.map_singleton, hkey]
    · rw [hin, h.count, List.length_erase_of_mem hmem, List.length_append, List.length_singleton]
      have hpos := List.length_pos_of_mem hmem
      omega

/-- `CONNECT` on socket 4, in session 7. -/
def connectFour : Event := .front default (.CONNECT 4 default) calmSys

/-- `SEND` of no bytes on socket 4. -/
def sendFour : Event := .front default (.SEND 4 0 (.zero BUF_LEN)) calmSys

/-- The package of the `n`-th such `SEND` after `connectFour`. -/
def packageFour (n : UInt32) : TrollMessageStruct :=
  { ConnectedSock.create 4 7 default with base := n }.makePackage (.zero BUF_LEN) 0 calmSys.malloc

lemma valid_packageFour (n : UInt32) : (packageFour n).Valid := TrollMessageStruct.valid_sealed _

/-- `handle_send_all_back`, at a clock that stands still. -/
def passNow : Event := .sendBack fun _ => default

/-- The events lead to a state with these numbers on socket 4. -/
def LeadsTo (es : List Event) (sent pending : List ℕ) (next : ℕ) : Prop :=
  ∃ t os, Tcpd.Run es t os ∧ t.Shows 4 7 sent pending next

variable {es : List Event}

lemma leadsTo_connectFour : LeadsTo [connectFour] [] [] 0 :=
  ⟨(tcpdConnect Tcpd.globalInit default 4 default 7).1, [.code default 0], rfl,
    ⟨_, HashTable.lookup_insert_self _ _ _, rfl, rfl, rfl, rfl⟩,
    fun _ hne => HashTable.lookup_insert_ne _ _ hne, rfl⟩

lemma LeadsTo.send (h : LeadsTo es sent pending next)
    (hroom : sent.length + pending.length < MAX_BUFFER_PACKAGES) (hnext : next + 1 < 2 ^ 32) :
    LeadsTo (es ++ [sendFour]) sent (pending ++ [next]) (next + 1) := by
  obtain ⟨t, os, hrun, hshows⟩ := h
  obtain ⟨t', os', hstep, hshows'⟩ := exists_shows_send hshows hroom hnext
    (show (0 : UInt64).toNat ≤ BUF_LEN by decide) default (.zero BUF_LEN) calmSys
  exact ⟨t', _, hrun.snoc hstep, hshows'⟩

lemma LeadsTo.pass (h : LeadsTo es sent pending next) :
    LeadsTo (es ++ [passNow]) (sent ++ pending.filter (admitted sent))
      (pending.filter fun n => !admitted sent n) next := by
  obtain ⟨t, os, hrun, hshows⟩ := h
  obtain ⟨t', os', hstep, hshows'⟩ := exists_shows_sendBack hshows fun _ => default
  exact ⟨t', _, hrun.snoc hstep, hshows'⟩

/-- The intact ack of package `n` of session 7. -/
def ackSeven (n : UInt32) : Event := .ack 4 (TrollAckStruct.sealed ⟨default, 0, 7, n⟩) default

lemma LeadsTo.ack (h : LeadsTo es sent pending next) {n : UInt32} (hn : n.toNat ∈ sent) :
    LeadsTo (es ++ [ackSeven n]) (sent.erase n.toNat) pending next := by
  obtain ⟨t, os, hrun, hshows⟩ := h
  obtain ⟨t', os', hstep, hshows'⟩ := exists_shows_ack (clientOk_of_run hrun) hshows
    (TrollAckStruct.valid_sealed ⟨default, 0, 7, n⟩) rfl hn default
  exact ⟨t', _, hrun.snoc hstep, hshows'⟩

/-- The timer of package `n` of session 7 has expired. -/
def expirySeven (n : Int32) : Event := .timer ⟨7, n⟩

lemma LeadsTo.expiry (h : LeadsTo es sent pending next) {n : Int32}
    (hn : n.toUInt32.toNat ∈ sent) :
    LeadsTo (es ++ [expirySeven n]) (sent.erase n.toUInt32.toNat) (pending ++ [n.toUInt32.toNat])
      next := by
  obtain ⟨t, os, hrun, hshows⟩ := h
  obtain ⟨t', os', hstep, hshows'⟩ := exists_shows_timer (e := ⟨7, n⟩) (clientOk_of_run hrun)
    hshows rfl hn
  exact ⟨t', _, hrun.snoc hstep, hshows'⟩

/-- `n` packages, each sent as soon as it is there. -/
def sendEach (n : ℕ) : List Event :=
  [connectFour, passNow] ++ (List.replicate n [sendFour, passNow]).flatten

lemma leadsTo_sendEach {n : ℕ} (hn : n ≤ MAX_BUFFER_PACKAGES) :
    LeadsTo (sendEach n) (List.range n) [] n := by
  induction n with
  | zero => exact leadsTo_connectFour.pass
  | succ n ih =>
    simp only [MAX_BUFFER_PACKAGES] at ih hn
    have hevents : sendEach (n + 1) = sendEach n ++ [sendFour] ++ [passNow] := by
      simp [sendEach, List.replicate_succ']
    have hlet : admitted (List.range n) n := by
      simp only [admitted, decide_eq_true_eq, List.mem_range, seqLimit, MAX_BUFFER_PACKAGES]
      exact ⟨by omega, fun p hp => by omega⟩
    have hround := ((ih (by omega)).send (by simpa [MAX_BUFFER_PACKAGES] using hn) (by omega)).pass
    rw [hevents]
    simpa [hlet, List.range_succ] using hround

/-- Package 1 of a full window is acknowledged, package 64 takes its place in the buffer,
package 0 times out, and a pass follows. -/
def overtakingRun : List Event :=
  sendEach 64 ++ [ackSeven 1] ++ [passNow] ++ [sendFour] ++ [passNow] ++ [expirySeven 0]
    ++ [passNow]

/-- At the end of the run the packages 0 and 64 are in flight. -/
lemma leadsTo_overtakingRun :
    ∃ sent, 0 ∈ sent ∧ 64 ∈ sent ∧ LeadsTo overtakingRun sent [] 65 := by
  have hacked := ((leadsTo_sendEach (n := 64) le_rfl).ack (n := 1) (by decide)).pass
  have hfull := (hacked.send (by decide) (by decide)).pass
  have hlate := (hfull.expiry (n := 0) (by decide)).pass
  refine ⟨_, ?_, ?_, hlate⟩
  · decide
  · decide

lemma not_inWindow_overtakingRun :
    ∃ t os, Tcpd.Run overtakingRun t os ∧
      (∀ fd c, t.conn fd = some c → c.base.toNat < 2 ^ 31) ∧ ¬ t.InWindow := by
  obtain ⟨sent, hzero, hlast, t, os, hrun, hshows⟩ := leadsTo_overtakingRun
  obtain ⟨c, hc, -, hbase, rfl, -⟩ := hshows.conn
  refine ⟨t, os, hrun, fun fd c' hc' => ?_, fun hwindow => ?_⟩
  · by_cases hfd : fd = 4
    · subst hfd
      rw [hc] at hc'
      cases hc'
      rw [hbase]
      decide
    · rw [hshows.only fd hfd] at hc'
      cases hc'
  · obtain ⟨m, hm, hm0⟩ := List.mem_map.mp hzero
    obtain ⟨p, hp, hp64⟩ := List.mem_map.mp hlast
    have hlt := ConnectedSock.inWindow_iff.mp (hwindow 4 c hc) p hp m (List.mem_append_left _ hm)
    rw [hm0, hp64, MAX_BUFFER_PACKAGES] at hlt
    exact absurd hlt (by decide)

/-- The window does not hold in every state the daemon reaches, even when all numbers are
small. -/
theorem not_always_inWindow :
    ¬ ∀ (es : List Event) (t : Tcpd) (os : List Out), Tcpd.Run es t os →
      (∀ fd c, t.conn fd = some c → c.base.toNat < 2 ^ 31) → t.InWindow := by
  intro hall
  obtain ⟨t, os, hrun, hsmall, hnot⟩ := not_inWindow_overtakingRun
  exact hnot (hall _ t os hrun hsmall)

/-- The one package of the run overtakes none. -/
lemma neverOvertakes_sendOne : NeverOvertakes [connectFour, sendFour, passNow] := by
  obtain ⟨t, os, hrun, hshows⟩ : LeadsTo [connectFour, sendFour] [] [0] 1 :=
    leadsTo_connectFour.send (by decide) (by decide)
  refine (Tcpd.machine.along_snoc hrun).mpr ⟨?_, ?_⟩
  · rintro pre e post u o heq - clock rfl
    have hmem : Event.sendBack clock ∈ [connectFour, sendFour] := by simp [heq]
    simp [connectFour, sendFour] at hmem
  · rintro clock - fd c hc ⟨m, hm, q, hq, hfar, -⟩
    obtain ⟨c', hc', -, -, -, hpending⟩ := hshows.conn
    by_cases hfd : fd = 4
    · subst hfd
      obtain rfl : c' = c := Option.some.inj (hc'.symm.trans hc)
      have hq0 : q.seqNum.toNat ∈ [0] := hpending ▸ List.mem_map_of_mem hq
      rw [List.mem_singleton.mp hq0, MAX_BUFFER_PACKAGES] at hfar
      omega
    · rw [hshows.only fd hfd] at hc
      cases hc

/-- Two runs of the theorem: one package that is sent stays within the window, and in
`overtakingRun` a package overtakes another. -/
theorem inWindow_iff_neverOvertakes_runs :
    (∃ t os, Tcpd.Run [connectFour, sendFour, passNow] t os ∧ t.InWindow) ∧
      ¬ NeverOvertakes overtakingRun := by
  constructor
  · obtain ⟨t, os, hrun, -⟩ : LeadsTo [connectFour, sendFour, passNow] [0] [] 1 :=
      (leadsTo_connectFour.send (by decide) (by decide)).pass
    exact ⟨t, os, hrun,
      ((inWindow_iff_neverOvertakes _ t os hrun).mpr neverOvertakes_sendOne).last _ hrun⟩
  · obtain ⟨t, os, hrun, -, hnot⟩ := not_inWindow_overtakingRun
    intro hnever
    exact hnot (((inWindow_iff_neverOvertakes _ t os hrun).mpr hnever).last _ hrun)

end Overtaking

end NetworkProgramming
