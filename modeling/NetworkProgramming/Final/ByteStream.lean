import NetworkProgramming.Final.Session

/-!
# The byte stream of a session

What `RECV` answers should be the bodies of the packages, one after the other. The bytes of a
session are always in one of three places: answered, in `RecvBuffer`, or still in a package
from `Base` on. A pass moves them from right to left, and drops some exactly when it has to
split a package (`Splits`): the pieces it cuts off are overwritten by the ones that follow.
What is dropped is never made up for, so a run delivers the stream intact if and only if none
of its passes splits a package.
-/

namespace NetworkProgramming

/-! ## Pouring without a split -/

/-- Each of `ds` fits into what those before it leave of `room`. -/
def Fits (room : ℕ) : List (List UInt8) → Prop
  | [] => True
  | d :: ds => d.length ≤ room ∧ Fits (room - d.length) ds

lemma length_lastPiece_le_self {room : ℕ} (hroom : 0 < room) (d : List UInt8) :
    (lastPiece room d).length ≤ d.length := by
  rcases le_or_gt d.length room with h | h
  · rw [lastPiece_of_le h]
  · exact (length_lastPiece_lt hroom h).le

lemma length_pour (request : ℕ) (p d : List UInt8) :
    (pour request p d).length = p.length + (lastPiece (request - p.length) d).length :=
  List.length_append

/-- When everything fits, the buffer receives all of it. -/
lemma foldl_pour_of_fits {request : ℕ} {p : List UInt8} {ds : List (List UInt8)}
    (h : Fits (request - p.length) ds) : ds.foldl (pour request) p = p ++ ds.flatten := by
  induction ds generalizing p with
  | nil => simp
  | cons d ds ih =>
    have hpour : pour request p d = p ++ d := by rw [pour, lastPiece_of_le h.1]
    have hrest : Fits (request - (p ++ d).length) ds := by
      rw [List.length_append, ← Nat.sub_sub]
      exact h.2
    rw [List.foldl_cons, hpour, ih hrest, List.flatten_cons, List.append_assoc]

/-- The buffer never receives more than there is. -/
lemma length_foldl_pour_le_add {request : ℕ} {p : List UInt8} {ds : List (List UInt8)}
    (h : Roomy request p ds) :
    (ds.foldl (pour request) p).length ≤ p.length + ds.flatten.length := by
  induction ds generalizing p with
  | nil => simp
  | cons d ds ih =>
    have hpiece := length_lastPiece_le_self (Nat.sub_pos_of_lt h.1) d
    have hrest := ih h.2
    rw [List.foldl_cons, List.flatten_cons, List.length_append]
    rw [length_pour] at hrest
    omega

/-- When something does not fit, the buffer receives less. -/
lemma length_foldl_pour_lt {request : ℕ} {p : List UInt8} {ds : List (List UInt8)}
    (h : Roomy request p ds) (hfits : ¬ Fits (request - p.length) ds) :
    (ds.foldl (pour request) p).length < p.length + ds.flatten.length := by
  induction ds generalizing p with
  | nil => exact absurd trivial hfits
  | cons d ds ih =>
    have hroom := Nat.sub_pos_of_lt h.1
    rw [List.foldl_cons, List.flatten_cons, List.length_append]
    rcases le_or_gt d.length (request - p.length) with hd | hd
    · have hpour : pour request p d = p ++ d := by rw [pour, lastPiece_of_le hd]
      have hrest : ¬ Fits (request - (p ++ d).length) ds := by
        rw [List.length_append, ← Nat.sub_sub]
        exact fun hr => hfits ⟨hd, hr⟩
      rw [hpour]
      have hlt := ih (hpour ▸ h.2) hrest
      rw [List.length_append] at hlt
      omega
    · have hpiece := length_lastPiece_lt hroom hd
      have hrest := length_foldl_pour_le_add h.2
      rw [length_pour] at hrest
      omega

/-! ## Passes that split -/

/-- Among the packages `base`, `base + 1`, … at the front of the queue there is one that is
larger than what those before it leave of `room`, while `room` is not used up. -/
def splitsFrom (base : UInt32) (room : ℕ) : List TrollMessageStruct → Bool
  | [] => false
  | m :: l =>
    0 < room && m.seqNum = base &&
      (room < m.len.toNat || splitsFrom (base + 1) (room - m.len.toNat) l)

namespace AckedSock

/-- The next pass over the session splits a package: one of the packages `Base`, `Base + 1`, …
in the queue is larger than what is left of the request when its turn comes. -/
def Splits (a : AckedSock) : Prop :=
  splitsFrom a.base (a.request - a.recvBufferSize.toNat) a.packages

instance (a : AckedSock) : Decidable a.Splits := inferInstanceAs (Decidable (_ = true))

end AckedSock

/-- The packages the loop takes all fit, unless one of them is split. -/
lemma splitsFrom_iff {request : ℕ} {base : UInt32} {p : List UInt8}
    {taken rest : List TrollMessageStruct} (hbase : Consecutive base taken)
    (hsmall : ∀ m ∈ taken, m.len.toNat ≤ BUF_LEN)
    (hroomy : Roomy request p (taken.map (·.data)))
    (hstop : ((taken.map (·.data)).foldl (pour request) p).length = request ∨
      ∀ m ∈ rest.head?, m.seqNum ≠ base + UInt32.ofNat taken.length) :
    splitsFrom base (request - p.length) (taken ++ rest)
      ↔ ¬ Fits (request - p.length) (taken.map (·.data)) := by
  -- along the packages taken, with the room each leaves to the next
  induction taken generalizing base p with
  | nil =>
    have hnone : splitsFrom base (request - p.length) rest = false := by
      cases rest with
      | nil => rfl
      | cons m l =>
        rcases hstop with hfull | hhead
        · have hroom : request - p.length = 0 := by
            rw [← hfull]
            simp
          simp [splitsFrom, hroom]
        · have hne : m.seqNum ≠ base := by simpa using hhead m rfl
          simp [splitsFrom, hne]
    simp [hnone, Fits]
  | cons m taken ih =>
    have hroom := Nat.sub_pos_of_lt hroomy.1
    have hdata := TrollMessageStruct.length_data (hsmall m (by simp))
    rw [List.cons_append, splitsFrom, List.map_cons, Fits, hdata]
    rcases lt_or_ge (request - p.length) m.len.toNat with hlt | hge
    · simp [hroom, hbase.1, hlt]
    · have hpour : pour request p m.data = p ++ m.data := by
        rw [pour, lastPiece_of_le (hdata.trans_le hge)]
      have hleft : request - (p ++ m.data).length = request - p.length - m.len.toNat := by
        rw [List.length_append, hdata, Nat.sub_sub]
      have hrest := @ih (base + 1) (p ++ m.data) hbase.2
        (fun x hx => hsmall x (List.mem_cons_of_mem _ hx)) (hpour ▸ hroomy.2) (by
          rw [AckedSock.ofNat_length_cons, ← hpour]
          exact hstop)
      rw [hleft] at hrest
      simp [hroom, hbase.1, not_lt.mpr hge, hge, hrest]

/-! ## Where the bytes are -/

/-- An intact package of the stream: it carries the body of its number. -/
def CarriesBody (bodies : List (List UInt8)) (m : TrollMessageStruct) : Prop :=
  m.len.toNat ≤ BUF_LEN ∧ bodies[m.seqNum.toNat]? = some m.data

namespace AckedSock

/-- The remaining bodies: what is left of the package `Base`, if it is in the queue, and the
packages after it. -/
def remaining (bodies : List (List UInt8)) (a : AckedSock) : List UInt8 :=
  match a.packages.head? with
  | some m =>
    if m.seqNum = a.base then m.data ++ (bodies.drop (a.base.toNat + 1)).flatten
    else (bodies.drop a.base.toNat).flatten
  | none => (bodies.drop a.base.toNat).flatten

variable {bodies : List (List UInt8)} {a a' : AckedSock} {taken : List TrollMessageStruct}
  {replies : List (List UInt8)}

/-- Between passes no package in the queue has lost anything. -/
lemma remaining_eq (h : a.QueueOk (CarriesBody bodies)) :
    a.remaining bodies = (bodies.drop a.base.toNat).flatten := by
  unfold remaining
  split
  · rename_i m hm
    split
    · rename_i hbase
      have hcarries := (h.all m (List.mem_of_mem_head? hm)).2
      rw [hbase] at hcarries
      obtain ⟨hlt, hget⟩ := List.getElem?_eq_some_iff.mp hcarries
      rw [List.drop_eq_getElem_cons hlt, List.flatten_cons, hget]
    · rfl
  · rfl

/-- The data a pass takes are the bodies from `Base` on. -/
lemma Passes.bodies_eq (hp : a.Passes taken a' replies) (h : a.QueueOk (CarriesBody bodies))
    (hbodies : bodies.length < 2 ^ 32) :
    (bodies.drop a.base.toNat).flatten
      = (taken.map (·.data)).flatten ++ (bodies.drop a'.base.toNat).flatten := by
  have hmem : ∀ m ∈ taken, CarriesBody bodies m := fun m hm => h.all m (by
    rw [hp.packages]
    exact List.mem_append_left _ hm)
  have hsorted : SortedBySeq taken := (List.pairwise_append.mp (hp.packages ▸ h.sorted)).1
  have hbase : a'.base.toNat = a.base.toNat + taken.length := hp.toNat_base h fun m hm => by
    obtain ⟨hlt, -⟩ := List.getElem?_eq_some_iff.mp (hmem m hm).2
    omega
  have htake : taken.map (·.data) = (bodies.drop a.base.toNat).take taken.length := by
    apply List.ext_getElem?
    intro i
    rcases lt_or_ge i taken.length with hi | hi
    · have hget := (hmem _ (List.getElem_mem hi)).2
      rw [hp.consecutive.toNat hsorted i hi] at hget
      rw [List.getElem?_take_of_lt hi, List.getElem?_drop, hget, List.getElem?_map,
        List.getElem?_eq_getElem hi]
      rfl
    · rw [List.getElem?_eq_none (by simpa using hi),
        List.getElem?_eq_none (by rw [List.length_take]; omega)]
  rw [hbase, htake, ← List.flatten_append, ← List.drop_drop, List.take_append_drop]

/-- What a pass answers, and what it leaves in the buffer, is what it has poured. -/
lemma Passes.poured_eq (hp : a.Passes taken a' replies) :
    replies.flatten ++ a'.buffered = a.poured taken := by
  rcases hp.outcome with ⟨-, rfl, hbuf, -⟩ | ⟨-, rfl, hbuf, -⟩ <;> simp [hbuf]

end AckedSock

/-- The bytes of a session that are accounted for: those answered, those in `RecvBuffer`, and
the bodies from `Base` on. -/
def accounted (bodies : List (List UInt8)) (replied : List UInt8) : Option AckedSock → List UInt8
  | none => replied ++ bodies.flatten
  | some a => replied ++ a.buffered ++ (bodies.drop a.base.toNat).flatten

/-- A pass keeps every byte, unless it splits a package. -/
lemma accounted_passes {bodies : List (List UInt8)} {a a' : AckedSock} (replied : List UInt8)
    {taken : List TrollMessageStruct} {replies : List (List UInt8)}
    (hp : a.Passes taken a' replies) (h : a.QueueOk (CarriesBody bodies))
    (hbodies : bodies.length < 2 ^ 32) (hsize : a.buffered.length = a.recvBufferSize.toNat) :
    (¬ a.Splits → accounted bodies (replied ++ replies.flatten) (some a')
        = accounted bodies replied (some a)) ∧
      (a.Splits → (accounted bodies (replied ++ replies.flatten) (some a')).length
        < (accounted bodies replied (some a)).length) := by
  have hmem : ∀ m ∈ taken, m ∈ a.packages := fun m hm => by
    rw [hp.packages]
    exact List.mem_append_left _ hm
  have hsplits : a.Splits ↔ ¬ Fits (a.request - a.buffered.length) (taken.map (·.data)) := by
    rw [AckedSock.Splits, ← hsize, hp.packages]
    refine splitsFrom_iff hp.consecutive (fun m hm => (h.all m (hmem m hm)).1) hp.roomy ?_
    rcases hp.outcome with ⟨-, -, -, -, -, hhead⟩ | ⟨hfull, -⟩
    · exact Or.inr (hp.base ▸ hhead)
    · exact Or.inl hfull
  have hnew : accounted bodies (replied ++ replies.flatten) (some a')
      = replied ++ a.poured taken ++ (bodies.drop a'.base.toNat).flatten := by
    rw [accounted, ← hp.poured_eq, List.append_assoc replied]
  -- before the pass the packages taken are counted whole, after it as far as they were poured
  have hold : accounted bodies replied (some a)
      = replied ++ (a.buffered ++ (taken.map (·.data)).flatten)
          ++ (bodies.drop a'.base.toNat).flatten := by
    rw [accounted, hp.bodies_eq h hbodies]
    simp only [List.append_assoc]
  rw [hnew, hold, hsplits, not_not]
  constructor
  · intro hfits
    rw [AckedSock.poured, foldl_pour_of_fits hfits]
  · intro hfits
    have hlt := length_foldl_pour_lt hp.roomy hfits
    rw [← AckedSock.poured] at hlt
    simp only [List.length_append] at hlt ⊢
    omega

/-! ## Whole runs -/

/-- No receive pass of the run starts in a state where it splits a package of session `s`. -/
def NeverSplits (s : UInt32) (es : List Event) : Prop :=
  Tcpd.machine.Along Tcpd.globalInit
    (fun t e => e = .recvBack → ∀ a, t.ackedSockets.lookup s = some a → ¬ a.Splits) es

/-- One more step keeps all bytes, unless it is a pass that splits a package. -/
lemma accounted_step {s : UInt32} {bodies : List (List UInt8)} (hbodies : bodies.length < 2 ^ 32)
    {u t : Tcpd} {e : Event} {os : List Out} (hok : u.SessionsOk)
    (hqueue : ∀ a, u.sess s = some a → a.QueueOk (CarriesBody bodies))
    (hstep : u.step e = .ok (t, os)) (replied : List UInt8) :
    ((e = .recvBack → ∀ a, u.ackedSockets.lookup s = some a → ¬ a.Splits) →
      accounted bodies (replied ++ (repliesTo s os).flatten) (t.sess s)
        = accounted bodies replied (u.sess s)) ∧
    (¬ (e = .recvBack → ∀ a, u.ackedSockets.lookup s = some a → ¬ a.Splits) →
      (accounted bodies (replied ++ (repliesTo s os).flatten) (t.sess s)).length
        < (accounted bodies replied (u.sess s)).length) := by
  have hsess := sess_step hok hstep s
  generalize hx : u.sess s = x at *
  generalize t.sess s = x' at *
  generalize repliesTo s os = r at *
  cases hsess with
  | arrive hvalid hs =>
    rename_i fd m remote
    refine ⟨fun _ => ?_, fun hsplit => absurd (by simp) hsplit⟩
    rw [List.flatten_nil, List.append_nil]
    cases x with
    | none =>
      rw [Option.getD_none, AckedSock.place_eq]
      simp [accounted, AckedSock.create, AckedSock.buffered]
    | some a =>
      rw [Option.getD_some, AckedSock.place_eq]
      rfl
  | request hacc hs hlen hidle =>
    refine ⟨fun _ => ?_, fun hsplit => absurd (by simp) hsplit⟩
    rw [List.flatten_nil, List.append_nil]
    rfl
  | pass hacc hp =>
    rename_i a a' taken
    have hlook := lookup_of_accepted hacc hx
    have hsize := (hp.length_buffered (hok.isOpen s a hx)).1
    obtain ⟨hgood, hbad⟩ := accounted_passes replied hp (hqueue a rfl) hbodies hsize
    refine ⟨fun hno => hgood (hno rfl a hlook), fun hsplit => hbad ?_⟩
    by_contra hwhole
    refine hsplit fun _ b hb => ?_
    rw [hlook] at hb
    cases hb
    exact hwhole
  | other hdata hrecv hpass =>
    refine ⟨fun _ => by rw [List.flatten_nil, List.append_nil], fun hsplit => ?_⟩
    refine absurd (fun he a ha => ?_) hsplit
    have hacc : u.Accepted s := by rw [Tcpd.Accepted, ha]; rfl
    obtain ⟨b, hb, hzero⟩ := hpass he hacc
    rw [sess_of_lookup ha] at hx
    rw [← hx] at hb
    cases hb
    have hroom : a.request - a.recvBufferSize.toNat = 0 := by simp [AckedSock.request, hzero]
    rw [AckedSock.Splits, hroom]
    cases a.packages <;> simp [splitsFrom]

/-- Along a run all bytes are accounted for as long as no pass splits a package, and from the
first split on some are missing. -/
theorem accounted_of_run {s : UInt32} {bodies : List (List UInt8)}
    (hbodies : bodies.length < 2 ^ 32) {es : List Event} {t : Tcpd} {os : List Out}
    (h : Tcpd.Run es t os) (hframes : FramesCarry s (CarriesBody bodies) es) :
    (NeverSplits s es → accounted bodies (repliesTo s os).flatten (t.sess s) = bodies.flatten) ∧
      (¬ NeverSplits s es →
        (accounted bodies (repliesTo s os).flatten (t.sess s)).length
          < bodies.flatten.length) := by
  refine Tcpd.machine.exec_induction (motive := fun es t os =>
    FramesCarry s (CarriesBody bodies) es →
    (NeverSplits s es → accounted bodies (repliesTo s os).flatten (t.sess s) = bodies.flatten) ∧
      (¬ NeverSplits s es →
        (accounted bodies (repliesTo s os).flatten (t.sess s)).length
          < bodies.flatten.length)) ?_ ?_ h hframes
  · intro _
    refine ⟨fun _ => rfl, fun hsplit => absurd (Tcpd.machine.along_nil _ _) hsplit⟩
  · intro es u o e t o' hrun ih hstep hall
    obtain ⟨hall₁, hless₁⟩ := ih hall.left
    obtain ⟨hsame, hless⟩ := accounted_step hbodies (sessionsOk_of_run hrun)
      (queueOk_of_run hrun hall.left) hstep (repliesTo s o).flatten
    have hnever : NeverSplits s (es ++ [e]) ↔ NeverSplits s es ∧
        (e = .recvBack → ∀ a, u.ackedSockets.lookup s = some a → ¬ a.Splits) :=
      Tcpd.machine.along_snoc hrun
    rw [repliesTo_append, List.flatten_append, hnever]
    constructor
    · rintro ⟨hes, hno⟩
      rw [hsame hno, hall₁ hes]
    · intro hn
      by_cases hno : e = .recvBack → ∀ a, u.ackedSockets.lookup s = some a → ¬ a.Splits
      · rw [hsame hno]
        exact hless₁ fun hes => hn ⟨hes, hno⟩
      · refine (hless hno).trans_le ?_
        by_cases hes : NeverSplits s es
        · rw [hall₁ hes]
        · exact (hless₁ hes).le

/-- The stream of session `s` is intact: the answers are a prefix of the bodies, and with what
is buffered and what remains they are exactly the bodies. -/
def Intact (s : UInt32) (bodies : List (List UInt8)) (t : Tcpd) (os : List Out) : Prop :=
  (repliesTo s os).flatten <+: bodies.flatten ∧
    ∀ a, t.sess s = some a →
      (repliesTo s os).flatten ++ a.buffered ++ a.remaining bodies = bodies.flatten

/-- A run without splits keeps the stream intact, and only such a run does, once the session
has an entry. -/
lemma intact_of_accounted {s : UInt32} {bodies : List (List UInt8)}
    (hbodies : bodies.length < 2 ^ 32) {es : List Event} {t : Tcpd} {os : List Out}
    (h : Tcpd.Run es t os) (hframes : FramesCarry s (CarriesBody bodies) es) :
    Intact s bodies t os ↔ NeverSplits s es := by
  obtain ⟨hgood, hbad⟩ := accounted_of_run hbodies h hframes
  have hqueue := queueOk_of_run h hframes
  constructor
  · intro hintact
    by_contra hsplit
    have hlt := hbad hsplit
    cases hx : t.sess s with
    | none =>
      rw [hx, accounted, List.length_append] at hlt
      omega
    | some a =>
      have hall := hintact.2 a hx
      rw [AckedSock.remaining_eq (hqueue a hx)] at hall
      rw [hx, accounted, hall] at hlt
      exact lt_irrefl _ hlt
  · intro hnever
    have hall := hgood hnever
    constructor
    · rw [← hall]
      cases t.sess s with
      | none => exact List.prefix_append _ _
      | some a =>
        rw [accounted, List.append_assoc]
        exact List.prefix_append _ _
    · intro a hx
      rw [AckedSock.remaining_eq (hqueue a hx)]
      rwa [hx, accounted] at hall

/-- **Byte-stream integrity.** Let the frames of session `s` carry `bodies`. After any run of
the daemon, whatever its other events are, the answers to `RECV`, the buffer and the remaining
packages make up exactly the stream if and only if no receive pass of the run has started in
a state where the packages `Base`, `Base + 1`, … of the queue overshoot the pending request. -/
theorem intact_iff_neverSplits (s : UInt32) (bodies : List (List UInt8))
    (hbodies : bodies.length < 2 ^ 32) (es : List Event) (t : Tcpd) (os : List Out)
    (h : Tcpd.Run es t os) (hframes : FramesCarry s (CarriesBody bodies) es) :
    Intact s bodies t os ↔ NeverSplits s es :=
  intact_of_accounted hbodies h hframes

/-- A bound socket, one package `m` on it, and an `ACCEPT` for its session. -/
def acceptOne (m : TrollMessageStruct) : List Event :=
  [.front default (.BIND 3 default) calmSys, .data 3 m default,
    .front default (.ACCEPT 3) calmSys, .ackBack]

/-- A `RECV` of `len` bytes on session 7. -/
def askFor (len : UInt64) : Event := .front default (.RECV 7 len) calmSys

/-- The one session of the daemon: the package `m`, and a request for `len` bytes. -/
def oneSock (m : TrollMessageStruct) (len : UInt64) : AckedSock :=
  { AckedSock.create 3 7 with receivingLength := len, packages := [m] }

/-- A daemon with this session. -/
def oneState (m : TrollMessageStruct) (len : UInt64) : Tcpd :=
  { bindedSockets := [⟨3, false, default⟩],
    ackedSockets := HashTable.empty.insert 7 (oneSock m len),
    waitingAckSockets := [], connectedSockets := .empty, inBufferPackages := 0, estimator := {} }

lemma run_acceptOne {m : TrollMessageStruct} (hvalid : m.Valid) (hsession : m.session = 7) :
    Tcpd.Run (acceptOne m) (oneState m 0)
      [.code default 0, .ack 3 (makeAck m default), .accepted default 3 7] := by
  simp [Tcpd.Run, Tcpd.machine, Machine.exec, acceptOne, calmSys, Tcpd.step, Tcpd.globalInit,
    Tcpd.serve, tcpdBind, recvData_of_valid hvalid, hsession, MAX_BUFFER_PACKAGES, placeWaiting,
    AckedSock.place, insertPackage, AckedSock.create, tcpdAccept, acceptLoop, handleAckBack,
    handOver, oneState, oneSock]

lemma step_askFor {m : TrollMessageStruct} {len : UInt64} (hlen : len ≠ 0) :
    (oneState m 0).step (askFor len) = .ok (oneState m len, []) := by
  have hfd : Int32.toUInt32 7 = 7 := rfl
  simp [Tcpd.step, askFor, oneState, oneSock, Tcpd.serve, tcpdRecv, hfd, hlen,
    MAX_BUFFER_PACKAGES, AckedSock.create]

lemma lookup_oneState (m : TrollMessageStruct) (len : UInt64) (s : UInt32) :
    (oneState m len).ackedSockets.lookup s = if s = 7 then some (oneSock m len) else none := by
  split
  · rename_i hs
    rw [hs, oneState, HashTable.lookup_insert_self]
  · rename_i hs
    rw [oneState, HashTable.lookup_insert_ne _ _ hs, HashTable.lookup_empty]

/-- The frame that carries the bytes 1, 2, 3 as package 0 of session 7. -/
def frame123 : TrollMessageStruct := .ofBytes 7 0 [1, 2, 3]

/-- One package, and a request for `len` bytes. -/
def askOne (len : UInt64) : List Event := acceptOne frame123 ++ [askFor len]

lemma run_askOne {len : UInt64} (hlen : len ≠ 0) :
    Tcpd.Run (askOne len) (oneState frame123 len)
      ([.code default 0, .ack 3 (makeAck frame123 default), .accepted default 3 7] ++ []) :=
  Tcpd.machine.exec_snoc.mpr ⟨_, _, _, run_acceptOne (TrollMessageStruct.valid_sealed _) rfl,
    step_askFor hlen, rfl⟩

lemma framesCarry_askOne (len : UInt64) :
    FramesCarry 7 (CarriesBody [[1, 2, 3]]) (askOne len ++ [.recvBack]) := by
  intro fd m remote hm _ _
  obtain ⟨-, rfl, -⟩ : fd = 3 ∧ m = frame123 ∧ remote = default := by
    simpa [askOne, acceptOne, askFor] using hm
  exact ⟨by rw [frame123, TrollMessageStruct.toNat_len_ofBytes]; decide,
    by rw [frame123, TrollMessageStruct.data_ofBytes]; rfl⟩

/-- A pass over the session comes to an end. -/
lemma recvBack_frame123 {len : UInt64} (hsmall : len.toNat ≤ BUF_LEN) :
    ∃ r, (oneState frame123 len).step .recvBack = .ok r := by
  refine handleRecvBack_total fun s a hrow => ?_
  have hsock : a = oneSock frame123 len := by
    have hmem := HashTable.lookup_eq_some.mpr hrow
    rw [lookup_oneState] at hmem
    split at hmem <;> cases hmem
    rfl
  subst hsock
  refine ⟨hsmall, fun m hm => ?_⟩
  rw [List.mem_singleton.mp hm, frame123, TrollMessageStruct.toNat_len_ofBytes]
  decide

lemma exists_run_askOne {len : UInt64} (hlen : len ≠ 0) (hsmall : len.toNat ≤ BUF_LEN) :
    ∃ t os, Tcpd.Run (askOne len ++ [.recvBack]) t os := by
  obtain ⟨r, hr⟩ := recvBack_frame123 hsmall
  exact ⟨r.1, _, Tcpd.machine.exec_snoc.mpr ⟨_, _, r.2, run_askOne hlen, hr, rfl⟩⟩

/-- A request for two of the three bytes splits the package, a request for all of them does
not. -/
lemma splits_frame123 : (oneSock frame123 2).Splits ∧ ¬ (oneSock frame123 3).Splits := by decide

lemma neverSplits_askOne {len : UInt64} (hlen : len ≠ 0) :
    NeverSplits 7 (askOne len ++ [.recvBack]) ↔ ¬ (oneSock frame123 len).Splits := by
  have hearly : NeverSplits 7 (askOne len) := by
    intro pre e post u o heq _ he
    subst he
    have hmem : Event.recvBack ∈ askOne len := by rw [heq]; simp
    simp [askOne, acceptOne, askFor] at hmem
  have hlook := lookup_oneState frame123 len 7
  rw [if_pos rfl] at hlook
  rw [NeverSplits, Tcpd.machine.along_snoc (run_askOne hlen)]
  constructor
  · exact fun h => h.2 rfl _ hlook
  · intro h
    refine ⟨hearly, fun _ a ha => ?_⟩
    rw [hlook] at ha
    cases ha
    exact h

/-- The stream is not intact after every run: two bytes are lost when `RECV` asks for two. -/
theorem not_always_intact :
    ¬ ∀ (s : UInt32) (bodies : List (List UInt8)) (es : List Event) (t : Tcpd) (os : List Out),
      bodies.length < 2 ^ 32 → Tcpd.Run es t os → FramesCarry s (CarriesBody bodies) es →
        Intact s bodies t os := by
  intro hall
  obtain ⟨t, os, hrun⟩ := exists_run_askOne (show (2 : UInt64) ≠ 0 by decide) (by decide)
  have hintact := hall 7 [[1, 2, 3]] _ t os (by decide) hrun (framesCarry_askOne 2)
  rw [intact_of_accounted (by decide) hrun (framesCarry_askOne 2),
    neverSplits_askOne (by decide)] at hintact
  exact hintact splits_frame123.1

/-- Two runs of the theorem: a request for all three bytes of a package keeps the stream
intact, a request for two of them does not. -/
theorem intact_iff_neverSplits_frame123 :
    (∃ t os, Tcpd.Run (askOne 3 ++ [.recvBack]) t os ∧ Intact 7 [[1, 2, 3]] t os) ∧
      ∃ t os, Tcpd.Run (askOne 2 ++ [.recvBack]) t os ∧ ¬ Intact 7 [[1, 2, 3]] t os := by
  constructor
  · obtain ⟨t, os, hrun⟩ := exists_run_askOne (show (3 : UInt64) ≠ 0 by decide) (by decide)
    refine ⟨t, os, hrun, ?_⟩
    rw [intact_iff_neverSplits 7 [[1, 2, 3]] (by decide) _ t os hrun (framesCarry_askOne 3),
      neverSplits_askOne (by decide)]
    exact splits_frame123.2
  · obtain ⟨t, os, hrun⟩ := exists_run_askOne (show (2 : UInt64) ≠ 0 by decide) (by decide)
    refine ⟨t, os, hrun, ?_⟩
    rw [intact_iff_neverSplits 7 [[1, 2, 3]] (by decide) _ t os hrun (framesCarry_askOne 2),
      neverSplits_askOne (by decide), not_not]
    exact splits_frame123.1

end NetworkProgramming
