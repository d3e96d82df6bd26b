import NetworkProgramming.Final.Session

/-!
# One session over a run of its daemon

`consumedOn s es` are the packages `handle_recv_back` takes from the queue of session `s` along
a run: they carry the numbers `0`, `1`, … up to `Base` (`consumed_of_run`). The daemon
acknowledges nothing but frames that have arrived intact (`acks_of_run`).
-/

namespace NetworkProgramming

/-- The packages one step of `handle_recv_back` takes from the front of a session's queue. -/
def Tcpd.takes (s : UInt32) (t : Tcpd) (e : Event) (t' : Tcpd) : List TrollMessageStruct :=
  match e, t.sess s, t'.sess s with
  | .recvBack, some a, some a' => a.packages.take (a.packages.length - a'.packages.length)
  | _, _, _ => []

/-- The packages `handle_recv_back` takes from session `s` along a run. -/
def consumedOn (s : UInt32) (es : List Event) : List TrollMessageStruct :=
  Tcpd.machine.collect (Tcpd.takes s) Tcpd.globalInit es

lemma takes_of_ne {s : UInt32} {t t' : Tcpd} {e : Event} (h : e ≠ .recvBack) :
    Tcpd.takes s t e t' = [] := by
  unfold Tcpd.takes
  split
  · exact absurd rfl h
  · rfl

lemma takes_of_passes {s : UInt32} {t t' : Tcpd} {a a' : AckedSock}
    {taken : List TrollMessageStruct} {replies : List (List UInt8)} (ha : t.sess s = some a)
    (ha' : t'.sess s = some a') (h : a.Passes taken a' replies) :
    Tcpd.takes s t .recvBack t' = taken := by
  simp only [Tcpd.takes, ha, ha', h.packages, List.length_append, Nat.add_sub_cancel,
    List.take_left']

lemma takes_of_eq {s : UInt32} {t t' : Tcpd} {e : Event} (h : t'.sess s = t.sess s) :
    Tcpd.takes s t e t' = [] := by
  unfold Tcpd.takes
  rw [h]
  split
  · rename_i a a' ha ha'
    rw [ha] at ha'
    cases ha'
    simp
  · rfl

/-- What has been consumed of a session: the packages before `Base`, in order. -/
structure ConsumedOk (s : UInt32) (P : TrollMessageStruct → Prop)
    (consumed : List TrollMessageStruct) (t : Tcpd) : Prop where
  absent : t.sess s = none → consumed = []
  present : ∀ a, t.sess s = some a → a.base.toNat = consumed.length
  numbers : ∀ i (hi : i < consumed.length), consumed[i].seqNum.toNat = i
  all : ∀ m ∈ consumed, P m

/-- One more step consumes the packages that follow. -/
theorem ConsumedOk.step {s : UInt32} {P : TrollMessageStruct → Prop}
    {consumed : List TrollMessageStruct} {u t : Tcpd} {e : Event} {os : List Out}
    (h : ConsumedOk s P consumed u) (hsmall : ∀ m, P m → m.seqNum.toNat + 1 < 2 ^ 32)
    (hok : u.SessionsOk) (hqueue : ∀ a, u.sess s = some a → a.QueueOk P)
    (hstep : u.step e = .ok (t, os)) : ConsumedOk s P (consumed ++ Tcpd.takes s u e t) t := by
  -- a step that takes nothing and leaves `Base` where it is
  have hkeep : Tcpd.takes s u e t = [] → (t.sess s = none → u.sess s = none) →
      (∀ a', t.sess s = some a' → a'.base = 0 ∧ u.sess s = none ∨
        ∃ a, u.sess s = some a ∧ a'.base = a.base) →
      ConsumedOk s P (consumed ++ Tcpd.takes s u e t) t := by
    intro hnil hnone hbase
    rw [hnil, List.append_nil]
    refine ⟨fun hx => h.absent (hnone hx), fun a' ha' => ?_, h.numbers, h.all⟩
    rcases hbase a' ha' with ⟨hzero, hx⟩ | ⟨a, ha, heq⟩
    · rw [h.absent hx, hzero]
      rfl
    · rw [heq, h.present a ha]
  have hsess := sess_step hok hstep s
  generalize hx : u.sess s = x at hsess
  generalize hx' : t.sess s = x' at hsess
  generalize repliesTo s os = r at hsess
  cases hsess with
  | arrive hvalid hs =>
    refine hkeep (takes_of_ne (by simp)) (by simp [hx']) fun a' ha' => ?_
    rw [hx'] at ha'
    cases ha'
    rw [AckedSock.place_eq]
    cases x with
    | none => exact Or.inl ⟨rfl, hx⟩
    | some a => exact Or.inr ⟨a, hx, rfl⟩
  | request hacc hs hlen hidle =>
    refine hkeep (takes_of_ne (by simp)) (by simp [hx']) fun a' ha' => ?_
    rw [hx'] at ha'
    cases ha'
    exact Or.inr ⟨_, hx, rfl⟩
  | @pass a a' taken _ hacc hp =>
    have hq := hqueue a hx
    have hmem : ∀ m ∈ taken, P m := fun m hm => hq.all m (by
      rw [hp.packages]
      exact List.mem_append_left _ hm)
    have hsorted : SortedBySeq taken := (List.pairwise_append.mp (hp.packages ▸ hq.sorted)).1
    have hbase := h.present a hx
    rw [takes_of_passes hx hx' hp]
    refine ⟨by simp [hx'], fun b hb => ?_, fun i hi => ?_, fun m hm => ?_⟩
    · rw [hx'] at hb
      cases hb
      rw [hp.toNat_base hq fun m hm => hsmall m (hmem m hm), hbase, List.length_append]
    · rcases Nat.lt_or_ge i consumed.length with hlt | hge
      · rw [List.getElem_append_left hlt]
        exact h.numbers i hlt
      · rw [List.length_append] at hi
        rw [List.getElem_append_right hge, hp.consecutive.toNat hsorted _ (by omega), hbase]
        omega
    · rcases List.mem_append.mp hm with hm | hm
      · exact h.all m hm
      · exact hmem m hm
  | other hdata hrecv hpass =>
    refine hkeep (takes_of_eq (by rw [hx, hx'])) (fun h => by rw [hx, ← hx', h])
      fun a' ha' => Or.inr ⟨a', by rw [hx, ← hx', ha'], rfl⟩

/-- Along a run whose frames of session `s` satisfy `P`, its packages are consumed in the order
of their numbers. -/
theorem consumed_of_run {s : UInt32} {P : TrollMessageStruct → Prop}
    (hsmall : ∀ m, P m → m.seqNum.toNat + 1 < 2 ^ 32) {es : List Event} {t : Tcpd}
    {os : List Out} (h : Tcpd.Run es t os) (hframes : FramesCarry s P es) :
    ConsumedOk s P (consumedOn s es) t := by
  refine Tcpd.machine.exec_induction (motive := fun es t _ => FramesCarry s P es →
    ConsumedOk s P (consumedOn s es) t) (fun _ => ?_) ?_ h hframes
  · constructor <;> simp [consumedOn, Machine.collect, Tcpd.globalInit, Tcpd.sess, entry]
  · intro es u o e t o' hrun ih hstep hall
    rw [consumedOn, Tcpd.machine.collect_snoc _ hrun hstep, ← consumedOn]
    exact (ih hall.left).step hsmall (sessionsOk_of_run hrun) (queueOk_of_run hrun hall.left) hstep

/-! ## Acknowledgements -/

/-- The acks among the datagrams. -/
def acksOf (os : List Out) : List TrollAckStruct :=
  os.filterMap fun o =>
    match o with
    | .ack _ a => some a
    | _ => none

@[simp] lemma acksOf_nil : acksOf [] = [] := rfl

@[simp] lemma acksOf_append (os os' : List Out) : acksOf (os ++ os') = acksOf os ++ acksOf os' :=
  List.filterMap_append

lemma mem_acksOf {os : List Out} {a : TrollAckStruct} :
    a ∈ acksOf os ↔ ∃ fd, .ack fd a ∈ os := by
  simp only [acksOf, List.mem_filterMap]
  constructor
  · rintro ⟨o, ho, ha⟩
    cases o with
    | ack fd a' => cases ha; exact ⟨fd, ho⟩
    | _ => cases ha
  · exact fun ⟨fd, h⟩ => ⟨_, h, rfl⟩

lemma not_mem_handOver (acked : HashTable UInt32 AckedSock) (waiting : List AckedSock)
    (bs : List BindedSock) {fd : Int32} {a : TrollAckStruct} :
    .ack fd a ∉ (handOver acked waiting bs).2.2.2 := by
  induction bs generalizing acked waiting with
  | nil => simp [handOver]
  | cons b bs ih =>
    rw [handOver]
    split
    · exact ih _ _
    · simpa using ih _ _

/-- A step acknowledges nothing but the frame that arrives in it. -/
lemma ack_of_step {t t' : Tcpd} {e : Event} {os : List Out} (hok : t.SessionsOk)
    (h : t.step e = .ok (t', os)) {fd : Int32} {a : TrollAckStruct} (ha : .ack fd a ∈ os) :
    ∃ m remote, e = .data fd m remote ∧ m.Valid ∧ a = makeAck m remote := by
  cases tcpd_step h with
  | frameAccepted _ hvalid _ =>
    obtain ⟨rfl, rfl⟩ := Out.ack.inj (List.mem_singleton.mp ha)
    exact ⟨_, _, rfl, hvalid, rfl⟩
  | frameWaiting _ hvalid _ =>
    obtain ⟨rfl, rfl⟩ := Out.ack.inj (List.mem_singleton.mp ha)
    exact ⟨_, _, rfl, hvalid, rfl⟩
  | socket | bind | recvRefused | connect | send | ack | ackOther => simp at ha
  | recv | frameGarbled | ackGarbled | timer | rehash => cases ha
  | accept =>
    rw [tcpdAccept] at ha
    split at ha <;> simp at ha
  | ackBack =>
    rw [handleAckBack] at ha
    split at ha
    · cases ha
    · exact absurd ha (not_mem_handOver _ _ _)
  | recvBack =>
    obtain ⟨_, _, -, -, hdata⟩ := out_of_recvPass hok h ha
    cases hdata
  | sendBack hpass =>
    obtain ⟨_, _, _, -, -, hout | ⟨_, hout⟩⟩ := out_of_sendPass hpass ha <;> cases hout

/-- Where an intact frame on `fd` leads. -/
def Tcpd.arrived (t : Tcpd) (fd : Int32) (m : TrollMessageStruct) : Tcpd :=
  match t.ackedSockets.lookup m.session with
  | some a => { t with ackedSockets := t.ackedSockets.insert m.session (a.place m) }
  | none => { t with waitingAckSockets := placeWaiting fd m t.waitingAckSockets }

@[simp] lemma bindedSockets_arrived (t : Tcpd) (fd : Int32) (m : TrollMessageStruct) :
    (t.arrived fd m).bindedSockets = t.bindedSockets := by
  unfold Tcpd.arrived
  split <;> rfl

/-- An intact frame on a bound socket is taken and acknowledged. -/
lemma step_data {t : Tcpd} {fd : Int32} {m : TrollMessageStruct}
    (hbound : t.bindedSockets.any (·.socketFD = fd)) (hvalid : m.Valid) (remote : SockaddrIn) :
    t.step (.data fd m remote) = .ok (t.arrived fd m, [.ack fd (makeAck m remote)]) := by
  rw [Tcpd.step, if_pos hbound, recvData_of_valid hvalid]
  rfl

/-- A run goes on with an intact frame. -/
lemma exec_data {s t : Tcpd} {es : List Event} {os : List Out} {fd : Int32} {m : TrollMessageStruct}
    (h : Tcpd.machine.exec s es = .ok (t, os)) (hbound : t.bindedSockets.any (·.socketFD = fd))
    (hvalid : m.Valid) (remote : SockaddrIn) :
    Tcpd.machine.exec s (es ++ [.data fd m remote])
      = .ok (t.arrived fd m, os ++ [.ack fd (makeAck m remote)]) :=
  Tcpd.machine.exec_snoc.mpr ⟨t, os, _, h, step_data hbound hvalid remote, rfl⟩

/-- And with any intact frames. -/
lemma exec_frames (t : Tcpd) (fd : Int32) (ms : List TrollMessageStruct)
    (hbound : t.bindedSockets.any (·.socketFD = fd)) (hvalid : ∀ m ∈ ms, m.Valid) :
    ∃ os, Tcpd.machine.exec t (ms.map fun m => .data fd m default)
      = .ok (ms.foldl (·.arrived fd) t, os) := by
  refine Tcpd.machine.exec_foldl (·.arrived fd) (fun m => .data fd m default)
    (fun t => t.bindedSockets.any (·.socketFD = fd)) (fun t m ht => ?_) (fun t ht m hm => ?_) hbound
  · rwa [bindedSockets_arrived]
  · exact ⟨_, step_data ht (hvalid m hm) default⟩

/-- Whatever a run has acknowledged has arrived. -/
theorem acks_of_run {es : List Event} {t : Tcpd} {os : List Out} (h : Tcpd.Run es t os) :
    ∀ a ∈ acksOf os, ∃ fd m remote, .data fd m remote ∈ es ∧ m.Valid ∧ a = makeAck m remote := by
  refine Tcpd.machine.exec_induction (motive := fun es _ os => ∀ a ∈ acksOf os,
    ∃ fd m remote, .data fd m remote ∈ es ∧ m.Valid ∧ a = makeAck m remote) (by simp [acksOf]) ?_ h
  intro es u o e t o' hrun ih hstep a ha
  rw [acksOf_append] at ha
  rcases List.mem_append.mp ha with ha | ha
  · obtain ⟨fd, m, remote, hmem, hrest⟩ := ih a ha
    exact ⟨fd, m, remote, List.mem_append_left _ hmem, hrest⟩
  · obtain ⟨fd, hout⟩ := mem_acksOf.mp ha
    obtain ⟨m, remote, rfl, hrest⟩ := ack_of_step (sessionsOk_of_run hrun) hstep hout
    exact ⟨fd, m, remote, by simp, hrest⟩

end NetworkProgramming
