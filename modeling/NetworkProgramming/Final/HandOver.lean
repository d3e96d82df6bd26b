import NetworkProgramming.Final.ByteStream

/-!
# Handing sessions over to `ACCEPT`

A session waits from its first frame until an `ACCEPT` on the socket of this frame takes it
over. Along every run a session has one entry, it is handed out once, and the sessions of a
socket are handed out in the order of their first frames to the callers of `ACCEPT` in the
order of their calls (`handsOver_of_run`).
-/

namespace NetworkProgramming

/-! ## The histories of a run -/

/-- An intact frame of session `s` is among the events. -/
def HasFrame (es : List Event) (s : UInt32) : Prop :=
  ∃ fd m remote, .data fd m remote ∈ es ∧ m.Valid ∧ m.session = s

/-- Note the session of an intact frame, with the socket, unless it is noted already. -/
def noteFrame (seen : List (Int32 × UInt32)) : Event → List (Int32 × UInt32)
  | .data fd m _ =>
    if m.Valid ∧ m.session ∉ seen.map Prod.snd then seen ++ [(fd, m.session)] else seen
  | _ => seen

/-- The sessions in the order of their first frames, with the sockets of these frames. -/
def firstFrames (es : List Event) : List (Int32 × UInt32) := es.foldl noteFrame []

/-- The sessions whose first frame has come on a socket, in the order of these frames. -/
def firstOn (fd : Int32) (es : List Event) : List UInt32 :=
  ((firstFrames es).filter (·.1 = fd)).map Prod.snd

/-- The sessions that have been handed out, with the caller and the socket of the `ACCEPT`. -/
def handedOut (os : List Out) : List (SockaddrIn × Int32 × UInt32) :=
  os.filterMap fun o =>
    match o with
    | .accepted addr fd s => some (addr, fd, s)
    | _ => none

/-- The sessions that have been handed out on a socket. -/
def sessionsOn (fd : Int32) (os : List Out) : List UInt32 :=
  ((handedOut os).filter (·.2.1 = fd)).map (·.2.2)

/-- The callers of `ACCEPT` on a socket that have got a session. -/
def callersOn (fd : Int32) (os : List Out) : List SockaddrIn :=
  ((handedOut os).filter (·.2.1 = fd)).map (·.1)

/-- The sockets that have been bound. -/
def boundFds (es : List Event) : List Int32 :=
  es.filterMap fun e =>
    match e with
    | .front _ (.BIND fd _) _ => some fd
    | _ => none

/-- The caller of an `ACCEPT` on the socket, unless the call is refused at once. -/
def Tcpd.registers (fd : Int32) (t : Tcpd) (e : Event) (_ : Tcpd) : List SockaddrIn :=
  match e with
  | .front addr (.ACCEPT fd') _ => if fd' = fd ∧ (tcpdAccept t addr fd').2 = [] then [addr] else []
  | _ => []

/-- The callers of `ACCEPT` on a socket that have not been refused, in the order of the calls. -/
def callsOn (fd : Int32) (es : List Event) : List SockaddrIn :=
  Tcpd.machine.collect (Tcpd.registers fd) Tcpd.globalInit es

/-- The sessions that wait on a socket. -/
def waitingOn (fd : Int32) (waiting : List AckedSock) : List UInt32 :=
  (waiting.filter (·.socketFD = fd)).map (·.session)

/-- The callers that wait at a socket. -/
def pendingOn (fd : Int32) (bs : List BindedSock) : List SockaddrIn :=
  (bs.filter fun b => b.socketFD = fd ∧ b.accepting).map (·.acceptingAddr)

@[simp] lemma handedOut_nil : handedOut [] = [] := rfl

@[simp] lemma handedOut_append (os os' : List Out) :
    handedOut (os ++ os') = handedOut os ++ handedOut os' := List.filterMap_append

@[simp] lemma handedOut_cons_accepted (addr : SockaddrIn) (fd : Int32) (s : UInt32)
    (os : List Out) :
    handedOut (.accepted addr fd s :: os) = (addr, fd, s) :: handedOut os := rfl

@[simp] lemma sessionsOn_append (fd : Int32) (os os' : List Out) :
    sessionsOn fd (os ++ os') = sessionsOn fd os ++ sessionsOn fd os' := by simp [sessionsOn]

@[simp] lemma callersOn_append (fd : Int32) (os os' : List Out) :
    callersOn fd (os ++ os') = callersOn fd os ++ callersOn fd os' := by simp [callersOn]

lemma firstFrames_snoc (es : List Event) (e : Event) :
    firstFrames (es ++ [e]) = noteFrame (firstFrames es) e := by
  simp [firstFrames, List.foldl_append]

/-- No session is noted twice. -/
lemma firstFrames_nodup (es : List Event) : ((firstFrames es).map Prod.snd).Nodup := by
  induction es using List.reverseRecOn with
  | nil => exact List.nodup_nil
  | append_singleton es e ih =>
    rw [firstFrames_snoc]
    unfold noteFrame
    split
    · split
      · rename_i hnew
        rw [List.map_append]
        exact ih.append (List.nodup_singleton _) (by simpa using hnew.2)
      · exact ih
    · exact ih

/-- The sessions that are noted are those with a frame. -/
lemma mem_firstFrames (es : List Event) (s : UInt32) :
    s ∈ (firstFrames es).map Prod.snd ↔ HasFrame es s := by
  induction es using List.reverseRecOn with
  | nil => simp [firstFrames, HasFrame]
  | append_singleton es e ih =>
    have hsplit : HasFrame (es ++ [e]) s ↔ HasFrame es s ∨ HasFrame [e] s := by
      simp only [HasFrame, List.mem_append, or_and_right, exists_or]
    rw [firstFrames_snoc, hsplit, ← ih]
    cases e with
    | data fd m remote =>
      have hlast : HasFrame [.data fd m remote] s ↔ m.Valid ∧ m.session = s := by
        simp [HasFrame]
      rw [hlast, noteFrame]
      split
      · rename_i hnew
        rw [List.map_append, List.mem_append, List.map_singleton, List.mem_singleton]
        exact or_congr_right ⟨fun h => ⟨hnew.1, h.symm⟩, fun h => h.2.symm⟩
      · rename_i hold
        refine ⟨Or.inl, fun h => h.elim id fun ⟨hvalid, hs⟩ => ?_⟩
        by_contra hnot
        exact hold ⟨hvalid, hs ▸ hnot⟩
    | _ => simp [HasFrame, noteFrame]

/-! ## One pass of `handle_ack_back` -/

/-- The element a search finds splits the list. -/
lemma exists_append_of_find? {α : Type*} {p : α → Bool} {l : List α} {a : α}
    (h : l.find? p = some a) :
    ∃ l₁ l₂, p a ∧ (∀ b ∈ l₁, ¬ p b) ∧ l = l₁ ++ a :: l₂ ∧ l.eraseP p = l₁ ++ l₂ := by
  obtain ⟨hp, l₁, l₂, hl, hbefore⟩ := List.find?_eq_some_iff_append.mp h
  have hbefore' : ∀ b ∈ l₁, ¬ p b := fun b hb => by simpa using hbefore b hb
  refine ⟨l₁, l₂, hp, hbefore', hl, ?_⟩
  rw [hl, List.eraseP_append_right _ hbefore', List.eraseP_cons_of_pos hp]

/-- The first session that waits on a socket leaves the others of the socket in order. -/
lemma waitingOn_eraseP {fd fd' : Int32} {waiting : List AckedSock} {a : AckedSock}
    (h : waiting.find? (·.socketFD = fd) = some a) :
    waitingOn fd' waiting
      = (if fd = fd' then [a.session] else [])
        ++ waitingOn fd' (waiting.eraseP (·.socketFD = fd)) := by
  obtain ⟨l₁, l₂, ha, hbefore, hl, herase⟩ := exists_append_of_find? h
  have hfd : a.socketFD = fd := by simpa using ha
  rw [herase, hl, waitingOn, waitingOn]
  split
  · rename_i heq
    have hnone : l₁.filter (·.socketFD = fd') = [] := by
      rw [List.filter_eq_nil_iff]
      exact fun b hb => heq ▸ hbefore b hb
    simp [List.filter_append, hnone, hfd, heq]
  · rename_i hne
    simp [List.filter_append, hfd, hne]

/-- A pass hands the sessions of a socket out from the front. -/
lemma waitingOn_handOver (acked : HashTable UInt32 AckedSock) (waiting : List AckedSock)
    (bs : List BindedSock) (fd : Int32) :
    waitingOn fd waiting
      = sessionsOn fd (handOver acked waiting bs).2.2.2
        ++ waitingOn fd (handOver acked waiting bs).2.2.1 := by
  induction bs generalizing acked waiting with
  | nil => simp [handOver, sessionsOn]
  | cons b bs ih =>
    rw [handOver]
    split
    · exact ih acked waiting
    · rename_i a hsearch
      obtain ⟨-, hfind⟩ := Option.ite_none_right_eq_some.mp hsearch
      rw [waitingOn_eraseP hfind, ih (acked.insert a.session a)]
      by_cases hfd : b.socketFD = fd <;> simp [sessionsOn, hfd]

/-- A pass hands out sessions that have waited. -/
lemma perm_handOver (acked : HashTable UInt32 AckedSock) (waiting : List AckedSock)
    (bs : List BindedSock) :
    (waiting.map (·.session)).Perm
      ((handedOut (handOver acked waiting bs).2.2.2).map (·.2.2)
        ++ (handOver acked waiting bs).2.2.1.map (·.session)) := by
  induction bs generalizing acked waiting with
  | nil => simp [handOver]
  | cons b bs ih =>
    rw [handOver]
    split
    · exact ih acked waiting
    · rename_i a hsearch
      obtain ⟨-, hfind⟩ := Option.ite_none_right_eq_some.mp hsearch
      obtain ⟨l₁, l₂, -, -, hl, herase⟩ := exists_append_of_find? hfind
      have hmiddle : (waiting.map (·.session)).Perm
          (a.session :: (waiting.eraseP (·.socketFD = b.socketFD)).map (·.session)) := by
        rw [herase, hl, List.map_append, List.map_append, List.map_cons]
        exact List.perm_middle
      exact hmiddle.trans ((ih (acked.insert a.session a) _).cons a.session)

/-- A pass stores the sessions it hands out, and no others. -/
lemma isSome_lookup_handOver (acked : HashTable UInt32 AckedSock) (waiting : List AckedSock)
    (bs : List BindedSock) (s : UInt32) :
    ((handOver acked waiting bs).2.1.lookup s).isSome ↔
      (acked.lookup s).isSome ∨ s ∈ (handedOut (handOver acked waiting bs).2.2.2).map (·.2.2) := by
  induction bs generalizing acked waiting with
  | nil => simp [handOver]
  | cons b bs ih =>
    rw [handOver]
    split
    · exact ih acked waiting
    · rename_i a _
      rw [ih (acked.insert a.session a), handedOut_cons_accepted, List.map_cons, List.mem_cons]
      by_cases hs : s = a.session
      · simp [hs]
      · rw [HashTable.lookup_insert_ne _ _ hs]
        simp [hs]

lemma handOver_nil_waiting (acked : HashTable UInt32 AckedSock) (bs : List BindedSock) :
    handOver acked [] bs = (bs, acked, [], []) := by
  induction bs with
  | nil => rfl
  | cons b bs ih => simp [handOver, ih]

/-- The test for an empty waiting list saves a pass, and nothing else. -/
lemma handleAckBack_eq (t : Tcpd) :
    handleAckBack t
      = ({ t with bindedSockets := (handOver t.ackedSockets t.waitingAckSockets t.bindedSockets).1,
                  ackedSockets := (handOver t.ackedSockets t.waitingAckSockets t.bindedSockets).2.1,
                  waitingAckSockets :=
                    (handOver t.ackedSockets t.waitingAckSockets t.bindedSockets).2.2.1 },
        (handOver t.ackedSockets t.waitingAckSockets t.bindedSockets).2.2.2) := by
  unfold handleAckBack
  split
  · rename_i hempty
    obtain hnil := List.isEmpty_iff.mp hempty
    rw [hnil, handOver_nil_waiting]
    cases t
    cases hnil
    rfl
  · rfl

@[simp] lemma map_socketFD_handOver (acked : HashTable UInt32 AckedSock)
    (waiting : List AckedSock) (bs : List BindedSock) :
    (handOver acked waiting bs).1.map (·.socketFD) = bs.map (·.socketFD) := by
  induction bs generalizing acked waiting with
  | nil => rfl
  | cons b bs ih =>
    rw [handOver]
    split <;> simp [ih]

/-- Nobody waits at a socket that is not bound. -/
lemma pendingOn_of_not_mem {fd : Int32} {bs : List BindedSock}
    (h : fd ∉ bs.map (·.socketFD)) : pendingOn fd bs = [] := by
  have hnone : bs.filter (fun b => b.socketFD = fd ∧ b.accepting) = [] := by
    rw [List.filter_eq_nil_iff]
    intro b hb hfd
    exact h (List.mem_map.mpr ⟨b, hb, (of_decide_eq_true hfd).1⟩)
  rw [pendingOn, hnone, List.map_nil]

lemma pendingOn_cons (fd : Int32) (b : BindedSock) (bs : List BindedSock) :
    pendingOn fd (b :: bs)
      = (if b.socketFD = fd ∧ b.accepting then [b.acceptingAddr] else []) ++ pendingOn fd bs := by
  by_cases hb : b.socketFD = fd ∧ b.accepting
  · simp [pendingOn, hb]
  · simp [pendingOn, hb]

/-- A pass answers the callers that wait, when no socket is bound twice. -/
lemma pendingOn_handOver (acked : HashTable UInt32 AckedSock) (waiting : List AckedSock)
    {bs : List BindedSock} (hbs : (bs.map (·.socketFD)).Nodup) (fd : Int32) :
    pendingOn fd bs
      = callersOn fd (handOver acked waiting bs).2.2.2
        ++ pendingOn fd (handOver acked waiting bs).1 := by
  induction bs generalizing acked waiting with
  | nil => simp [handOver, callersOn]
  | cons b bs ih =>
    obtain ⟨hb, hbs⟩ := List.nodup_cons.mp hbs
    rw [handOver]
    split
    · have hrest := ih acked waiting hbs
      show pendingOn fd (b :: bs) = _ ++ pendingOn fd (b :: _)
      rw [pendingOn_cons, pendingOn_cons]
      split
      · -- the other sockets are not the one the caller waits at
        rename_i hfd
        rw [pendingOn_of_not_mem (hfd.1 ▸ hb)] at hrest ⊢
        obtain ⟨hcallers, hpending⟩ := List.append_eq_nil_iff.mp hrest.symm
        rw [hcallers, hpending]
        rfl
      · exact hrest
    · rename_i a hsearch
      obtain ⟨hacc, -⟩ := Option.ite_none_right_eq_some.mp hsearch
      have hrest := ih (acked.insert a.session a) (waiting.eraseP (·.socketFD = b.socketFD)) hbs
      show pendingOn fd (b :: bs) = _ ++ pendingOn fd (_ :: _)
      rw [pendingOn_cons, pendingOn_cons, hrest]
      by_cases hfd : b.socketFD = fd <;> simp [callersOn, hfd, hacc]

/-! ## One `ACCEPT` -/

lemma acceptLoop_of_not_mem {fd : Int32} {bs : List BindedSock} (addr : SockaddrIn)
    (result : Int32) (h : fd ∉ bs.map (·.socketFD)) :
    acceptLoop fd addr result bs = (bs, result) := by
  induction bs with
  | nil => rfl
  | cons b bs ih =>
    rw [List.map_cons, List.mem_cons, not_or] at h
    rw [acceptLoop, if_pos (Ne.symm h.1), ih h.2]

/-- With distinct sockets, `tcpd_ACCEPT` is refused, or its caller waits at the one socket it
is for. -/
lemma acceptLoop_cases (fd : Int32) (addr : SockaddrIn) {bs : List BindedSock}
    (hbs : (bs.map (·.socketFD)).Nodup) :
    ((acceptLoop fd addr (-1) bs).2 ≠ 0 ∧ (acceptLoop fd addr (-1) bs).1 = bs) ∨
      (acceptLoop fd addr (-1) bs).2 = 0 ∧ pendingOn fd bs = [] ∧
        pendingOn fd (acceptLoop fd addr (-1) bs).1 = [addr] ∧
        (∀ fd', fd' ≠ fd → pendingOn fd' (acceptLoop fd addr (-1) bs).1 = pendingOn fd' bs) ∧
        (acceptLoop fd addr (-1) bs).1.map (·.socketFD) = bs.map (·.socketFD) := by
  induction bs with
  | nil =>
    left
    simp [acceptLoop]
  | cons b bs ih =>
    obtain ⟨hb, hbs⟩ := List.nodup_cons.mp hbs
    rw [acceptLoop]
    split
    · rename_i hfd
      dsimp only
      rcases ih hbs with ⟨hne, hsame⟩ | ⟨hzero, hnone, hpending, hothers, hfds⟩
      · exact Or.inl ⟨hne, by rw [hsame]⟩
      · refine Or.inr ⟨hzero, ?_, ?_, fun fd' hfd' => ?_, ?_⟩
        · simpa [pendingOn_cons, hfd] using hnone
        · simpa [pendingOn_cons, hfd] using hpending
        · rw [pendingOn_cons, pendingOn_cons, hothers fd' hfd']
        · rw [List.map_cons, List.map_cons, hfds]
    · rename_i hfd
      have hfd' : b.socketFD = fd := not_not.mp hfd
      -- the loop goes on behind the socket, where there is no other of this number
      split
      · left
        simp
      · rename_i hidle
        have hnone : pendingOn fd bs = [] := pendingOn_of_not_mem (hfd' ▸ hb)
        rw [acceptLoop_of_not_mem addr 0 (hfd' ▸ hb)]
        refine Or.inr ⟨rfl, ?_, ?_, fun fd'' hne => ?_, rfl⟩
        · simp [pendingOn_cons, hidle, hnone]
        · simp [pendingOn_cons, hfd', hnone]
        · have hne' : ¬ b.socketFD = fd'' := fun heq => hne (heq.symm.trans hfd')
          simp [pendingOn_cons, hne']

/-- A refused `ACCEPT` gets an error and leaves the daemon alone; any other gets nothing yet. -/
lemma tcpdAccept_cases {t : Tcpd} (addr : SockaddrIn) (fd : Int32)
    (hbound : (t.bindedSockets.map (·.socketFD)).Nodup) :
    tcpdAccept t addr fd = (t, [.code addr (-1)]) ∨
      (tcpdAccept t addr fd).2 = [] ∧ pendingOn fd t.bindedSockets = [] ∧
        pendingOn fd (tcpdAccept t addr fd).1.bindedSockets = [addr] ∧
        (∀ fd', fd' ≠ fd → pendingOn fd' (tcpdAccept t addr fd).1.bindedSockets
          = pendingOn fd' t.bindedSockets) := by
  rcases acceptLoop_cases fd addr hbound with
    ⟨hne, hsame⟩ | ⟨hzero, hnone, hpending, hothers, -⟩
  · left
    rw [tcpdAccept, if_pos hne, hsame]
  · right
    rw [tcpdAccept, if_neg (not_not.mpr hzero)]
    exact ⟨rfl, hnone, hpending, hothers⟩

lemma map_socketFD_acceptLoop (fd : Int32) (addr : SockaddrIn) (result : Int32)
    (bs : List BindedSock) :
    (acceptLoop fd addr result bs).1.map (·.socketFD) = bs.map (·.socketFD) := by
  induction bs generalizing result with
  | nil => rfl
  | cons b bs ih =>
    rw [acceptLoop]
    split
    · rw [List.map_cons, List.map_cons, ih]
    · split
      · rfl
      · rw [List.map_cons, List.map_cons, ih]

/-! ## What a step does -/

/-- The sessions that wait, with the sockets they wait on. -/
def Tcpd.waits (t : Tcpd) : List (Int32 × UInt32) :=
  t.waitingAckSockets.map fun a => (a.socketFD, a.session)

/-- No session is handed out, accepted, or starts to wait. -/
structure Calm (t t' : Tcpd) (os : List Out) : Prop where
  waits : t'.waits = t.waits
  accepted : ∀ s, t'.Accepted s ↔ t.Accepted s
  silent : handedOut os = []

/-- What one step does to the sessions and sockets that wait. -/
inductive LobbyStep (t : Tcpd) : Event → Tcpd → List Out → Prop
  /-- an intact frame arrives, perhaps of a session that has no entry yet -/
  | frame {fd : Int32} {m : TrollMessageStruct} {remote : SockaddrIn} {t' : Tcpd} {os : List Out}
      (hvalid : m.Valid) (hbound : t'.bindedSockets = t.bindedSockets)
      (hwaits : t'.waits = if t.Accepted m.session ∨ m.session ∈ t.waits.map Prod.snd then t.waits
        else t.waits ++ [(fd, m.session)])
      (hacc : ∀ s, t'.Accepted s ↔ t.Accepted s) (hsilent : handedOut os = []) :
      LobbyStep t (.data fd m remote) t' os
  /-- a socket is bound -/
  | bind {addr a : SockaddrIn} {fd : Int32} {sys : Sys} {t' : Tcpd} {os : List Out}
      (hbound : t'.bindedSockets = t.bindedSockets ++ [⟨fd, false, default⟩])
      (hcalm : Calm t t' os) : LobbyStep t (.front addr (.BIND fd a) sys) t' os
  /-- an `ACCEPT` is registered or refused -/
  | accept {addr : SockaddrIn} {fd : Int32} {sys : Sys} (hcalm : Calm t (tcpdAccept t addr fd).1
      (tcpdAccept t addr fd).2) :
      LobbyStep t (.front addr (.ACCEPT fd) sys) (tcpdAccept t addr fd).1 (tcpdAccept t addr fd).2
  /-- waiting sessions are handed out -/
  | handOver : LobbyStep t .ackBack (handleAckBack t).1 (handleAckBack t).2
  /-- nothing of the above -/
  | other {e : Event} {t' : Tcpd} {os : List Out}
      (hframe : ∀ seen, noteFrame seen e = seen) (hbinds : boundFds [e] = [])
      (hcalls : ∀ fd, t.registers fd e t' = []) (hbound : t'.bindedSockets = t.bindedSockets)
      (hcalm : Calm t t' os) : LobbyStep t e t' os

/-- A step that leaves the receiving side alone and hands nothing out. -/
lemma SameSessions.calm {t t' : Tcpd} {os : List Out} (h : SameSessions t t')
    (hsilent : handedOut os = []) : Calm t t' os where
  waits := by rw [Tcpd.waits, Tcpd.waits, h.2]
  accepted s := by rw [Tcpd.Accepted, Tcpd.Accepted, h.1]
  silent := hsilent

lemma handedOut_eq_nil {os : List Out} (h : ∀ o ∈ os, ∀ addr fd s, o ≠ .accepted addr fd s) :
    handedOut os = [] := by
  refine List.filterMap_eq_nil_iff.mpr fun o ho => ?_
  cases o with
  | accepted addr fd s => exact absurd rfl (h _ ho addr fd s)
  | _ => rfl

@[simp] lemma AckedSock.socketFD_place (a : AckedSock) (now : TrollMessageStruct) :
    (a.place now).socketFD = a.socketFD := by
  unfold place; split <;> rfl

/-- A session with an entry keeps its place; another one starts to wait at the end. -/
lemma waits_placeWaiting (fd : Int32) (m : TrollMessageStruct) (l : List AckedSock) :
    (placeWaiting fd m l).map (fun a => (a.socketFD, a.session))
      = if m.session ∈ l.map (·.session) then l.map (fun a => (a.socketFD, a.session))
        else l.map (fun a => (a.socketFD, a.session)) ++ [(fd, m.session)] := by
  induction l with
  | nil => simp [placeWaiting, AckedSock.create]
  | cons a l ih =>
    by_cases h : a.session = m.session
    · simp [placeWaiting, h]
    · have h' : ¬ m.session = a.session := fun he => h he.symm
      simp only [placeWaiting, if_neg h, List.map_cons, ih, List.mem_cons, h', false_or]
      split <;> rfl

/-- Storing the entry of an accepted session anew accepts no other. -/
lemma accepted_insert {t t' : Tcpd} {s : UInt32} {a a' : AckedSock}
    (ha : t.ackedSockets.lookup s = some a)
    (h : t'.ackedSockets = t.ackedSockets.insert s a') (s' : UInt32) :
    t'.Accepted s' ↔ t.Accepted s' := by
  by_cases hs : s' = s
  · simp [Tcpd.Accepted, h, hs, ha]
  · simp [Tcpd.Accepted, h, HashTable.lookup_insert_ne _ _ hs]

/-- **One step, and the sessions that wait.** -/
theorem lobby_step {t t' : Tcpd} {e : Event} {os : List Out} (hok : t.SessionsOk)
    (h : t.step e = .ok (t', os)) : LobbyStep t e t' os := by
  cases tcpd_step h with
  | socket | connect | send =>
    exact .other (fun _ => rfl) rfl (fun _ => rfl) rfl (SameSessions.calm ⟨rfl, rfl⟩ rfl)
  | bind => exact .bind rfl (SameSessions.calm ⟨rfl, rfl⟩ rfl)
  | accept =>
    refine .accept (SameSessions.calm ⟨rfl, rfl⟩ ?_)
    rw [tcpdAccept]
    split <;> rfl
  | recvRefused =>
    exact .other (fun _ => rfl) rfl (fun _ => rfl) rfl (SameSessions.calm ⟨rfl, rfl⟩ rfl)
  | recv hlen ha hidle =>
    exact .other (fun _ => rfl) rfl (fun _ => rfl) rfl
      ⟨rfl, accepted_insert ha rfl, rfl⟩
  | frameGarbled _ hbad =>
    exact .other (fun seen => if_neg fun hv => hbad hv.1) rfl (fun _ => rfl) rfl
      (SameSessions.calm ⟨rfl, rfl⟩ rfl)
  | @frameAccepted _ m _ a _ hvalid ha =>
    have hacc : t.Accepted m.session := by
      rw [Tcpd.Accepted, ha]
      rfl
    refine .frame hvalid rfl ?_ (accepted_insert ha rfl) rfl
    rw [if_pos (Or.inl hacc)]
    rfl
  | @frameWaiting fd m _ _ hvalid hnone =>
    have hacc : ¬ t.Accepted m.session := by
      rw [Tcpd.Accepted, hnone]
      simp
    refine .frame hvalid rfl ?_ (fun s => Iff.rfl) rfl
    show (placeWaiting fd m t.waitingAckSockets).map _ = _
    rw [waits_placeWaiting]
    simp [hacc, Tcpd.waits]
  | ackGarbled | ack | ackOther | timer =>
    exact .other (fun _ => rfl) rfl (fun _ => rfl) rfl (SameSessions.calm ⟨rfl, rfl⟩ rfl)
  | ackBack => exact .handOver
  | recvBack hpass =>
    have hspec := handleRecvBack_spec hok h
    refine .other (fun _ => rfl) rfl (fun _ => rfl) rfl ⟨rfl, fun s => ?_, ?_⟩
    · rcases hspec s with ⟨hn, hn', -⟩ | ⟨a, a', o, ha, ha', -⟩
      · simp [Tcpd.Accepted, hn, hn']
      · simp [Tcpd.Accepted, ha, ha']
    · refine handedOut_eq_nil fun o ho addr fd s heq => ?_
      obtain ⟨a, bytes, -, -, hdata⟩ := out_of_recvPass hok h ho
      rw [heq] at hdata
      cases hdata
  | sendBack hpass =>
    refine .other (fun _ => rfl) rfl (fun _ => rfl) rfl (SameSessions.calm ⟨rfl, rfl⟩ ?_)
    refine handedOut_eq_nil fun o ho addr fd s heq => ?_
    obtain ⟨fd', c, m, -, -, hout | ⟨_, hout⟩⟩ := out_of_sendPass hpass ho <;>
      rw [heq] at hout <;> cases hout
  | rehash =>
    refine .other (fun _ => rfl) rfl (fun _ => rfl) rfl ⟨rfl, fun s => ?_, rfl⟩
    rw [Tcpd.Accepted, Tcpd.Accepted, HashTable.lookup_reorder]

/-! ## Along a run -/

lemma waitingOn_eq (fd : Int32) (t : Tcpd) :
    waitingOn fd t.waitingAckSockets = (t.waits.filter (·.1 = fd)).map Prod.snd := by
  simp [waitingOn, Tcpd.waits, List.filter_map, Function.comp_def]

lemma Tcpd.map_snd_waits (t : Tcpd) :
    t.waits.map Prod.snd = t.waitingAckSockets.map (·.session) := by
  simp [Tcpd.waits, Function.comp_def]

/-- Where the sessions with a frame are: handed out, or waiting, in the order of their first
frames. -/
structure Lobby (es : List Event) (t : Tcpd) (os : List Out) : Prop where
  order : ∀ fd, firstOn fd es = sessionsOn fd os ++ waitingOn fd t.waitingAckSockets
  perm : ((firstFrames es).map Prod.snd).Perm
    ((handedOut os).map (·.2.2) ++ t.waits.map Prod.snd)
  accepted : ∀ s, t.Accepted s ↔ s ∈ (handedOut os).map (·.2.2)

/-- A session is noted when it is accepted or waits. -/
lemma Lobby.mem_iff {es : List Event} {t : Tcpd} {os : List Out} (h : Lobby es t os)
    (s : UInt32) :
    s ∈ (firstFrames es).map Prod.snd ↔ t.Accepted s ∨ s ∈ t.waits.map Prod.snd := by
  rw [h.perm.mem_iff, List.mem_append, h.accepted]

/-- A step that changes nothing for the sessions that wait. -/
lemma Lobby.calm {es : List Event} {e : Event} {t t' : Tcpd} {os o : List Out}
    (h : Lobby es t os) (hframe : noteFrame (firstFrames es) e = firstFrames es)
    (hcalm : Calm t t' o) : Lobby (es ++ [e]) t' (os ++ o) := by
  have hfirst : firstFrames (es ++ [e]) = firstFrames es := by rw [firstFrames_snoc, hframe]
  refine ⟨fun fd => ?_, ?_, fun s => ?_⟩
  · have hnone : sessionsOn fd o = [] := by rw [sessionsOn, hcalm.silent]; rfl
    rw [firstOn, hfirst, ← firstOn, h.order fd, sessionsOn_append, hnone, List.append_nil,
      waitingOn_eq, waitingOn_eq, hcalm.waits]
  · rw [hfirst, handedOut_append, hcalm.silent, List.append_nil, hcalm.waits]
    exact h.perm
  · rw [hcalm.accepted, h.accepted, handedOut_append, hcalm.silent, List.append_nil]

/-- One step keeps the lobby in order. -/
lemma Lobby.step {es : List Event} {e : Event} {t t' : Tcpd} {os o : List Out}
    (h : Lobby es t os) (hstep : LobbyStep t e t' o) : Lobby (es ++ [e]) t' (os ++ o) := by
  cases hstep with
  | @frame fd m remote _ _ hvalid hbound hwaits hacc hsilent =>
    by_cases hold : t.Accepted m.session ∨ m.session ∈ t.waits.map Prod.snd
    · -- the session has an entry, which keeps its place
      rw [if_pos hold] at hwaits
      refine h.calm (if_neg fun hnew => hnew.2 ?_) ⟨hwaits, hacc, hsilent⟩
      exact (h.mem_iff _).mpr hold
    · rw [if_neg hold] at hwaits
      have hfirst : firstFrames (es ++ [.data fd m remote])
          = firstFrames es ++ [(fd, m.session)] := by
        rw [firstFrames_snoc]
        exact if_pos ⟨hvalid, fun hmem => hold ((h.mem_iff _).mp hmem)⟩
      refine ⟨fun fd' => ?_, ?_, fun s => ?_⟩
      · have hnone : sessionsOn fd' o = [] := by rw [sessionsOn, hsilent]; rfl
        rw [firstOn, hfirst, sessionsOn_append, hnone, List.append_nil, waitingOn_eq, hwaits,
          List.filter_append, List.map_append, List.filter_append, List.map_append,
          ← waitingOn_eq, ← List.append_assoc, ← h.order fd', firstOn]
      · rw [hfirst, handedOut_append, hsilent, List.append_nil, hwaits, List.map_append,
          List.map_append, ← List.append_assoc]
        exact h.perm.append_right _
      · rw [hacc, h.accepted, handedOut_append, hsilent, List.append_nil]
  | bind hbound hcalm => exact h.calm rfl hcalm
  | accept hcalm => exact h.calm rfl hcalm
  | handOver =>
    have hfirst : firstFrames (es ++ [.ackBack]) = firstFrames es := by
      rw [firstFrames_snoc]
      rfl
    rw [handleAckBack_eq]
    refine ⟨fun fd => ?_, ?_, fun s => ?_⟩
    · rw [firstOn, hfirst, ← firstOn, h.order fd, sessionsOn_append, List.append_assoc,
        ← waitingOn_handOver]
    · have hperm := perm_handOver t.ackedSockets t.waitingAckSockets t.bindedSockets
      rw [hfirst, handedOut_append, List.map_append, List.append_assoc]
      refine h.perm.trans (List.Perm.append_left _ ?_)
      rw [Tcpd.map_snd_waits, Tcpd.map_snd_waits]
      exact hperm
    · rw [handedOut_append, List.map_append, List.mem_append, ← h.accepted]
      exact isSome_lookup_handOver t.ackedSockets t.waitingAckSockets t.bindedSockets s
  | other hframe hbinds hcalls hbound hcalm => exact h.calm (hframe _) hcalm

theorem lobby_of_run {es : List Event} {t : Tcpd} {os : List Out} (h : Tcpd.Run es t os) :
    Lobby es t os := by
  refine Tcpd.machine.exec_induction (motive := Lobby) ⟨fun fd => ?_, ?_, fun s => ?_⟩ ?_ h
  · simp [firstOn, firstFrames, sessionsOn, waitingOn, Tcpd.globalInit]
  · simp [firstFrames, Tcpd.waits, Tcpd.globalInit]
  · simp [Tcpd.Accepted, Tcpd.globalInit]
  · intro es u o e t o' hrun ih hstep
    exact ih.step (lobby_step (sessionsOk_of_run hrun) hstep)

/-- The bound sockets of a run. -/
theorem bindedSockets_of_run {es : List Event} {t : Tcpd} {os : List Out}
    (h : Tcpd.Run es t os) : t.bindedSockets.map (·.socketFD) = boundFds es := by
  refine Tcpd.machine.exec_induction
    (motive := fun es t _ => t.bindedSockets.map (·.socketFD) = boundFds es) rfl ?_ h
  intro es u o e t o' hrun ih hstep
  rw [boundFds, List.filterMap_append, ← boundFds, ← ih]
  cases lobby_step (sessionsOk_of_run hrun) hstep with
  | frame hvalid hbound => rw [hbound]; simp
  | bind hbound => rw [hbound]; simp
  | accept hcalm =>
    simp only [tcpdAccept, map_socketFD_acceptLoop]
    simp
  | handOver =>
    rw [handleAckBack_eq]
    simp
  | other hframe hbinds hcalls hbound =>
    rw [hbound, ← boundFds, hbinds, List.append_nil]

/-- The callers that are not refused are answered in the order of their calls. -/
theorem callsOn_of_run {es : List Event} {t : Tcpd} {os : List Out} (h : Tcpd.Run es t os)
    (hbound : (boundFds es).Nodup) (fd : Int32) :
    callsOn fd es = callersOn fd os ++ pendingOn fd t.bindedSockets := by
  refine Tcpd.machine.exec_induction (motive := fun es t os => (boundFds es).Nodup →
    callsOn fd es = callersOn fd os ++ pendingOn fd t.bindedSockets) (fun _ => rfl) ?_ h hbound
  intro es u o e t o' hrun ih hstep hbound
  have hbound' : (boundFds es).Nodup := by
    rw [boundFds, List.filterMap_append] at hbound
    exact hbound.of_append_left
  have hnodup : (u.bindedSockets.map (·.socketFD)).Nodup := by
    rw [bindedSockets_of_run hrun]
    exact hbound'
  rw [callsOn, Tcpd.machine.collect_snoc _ hrun hstep, ← callsOn, ih hbound', callersOn_append,
    List.append_assoc, List.append_assoc]
  congr 1
  -- what waits and what is called now is what is answered now and what waits after the step
  have hquiet : ∀ {o : List Out}, handedOut o = [] → callersOn fd o = [] := by
    intro o ho
    rw [callersOn, ho]
    rfl
  cases lobby_step (sessionsOk_of_run hrun) hstep with
  | frame hvalid hsame hwaits hacc hsilent =>
    rw [hquiet hsilent, hsame]
    simp [Tcpd.registers]
  | bind hnew hcalm =>
    rw [hquiet hcalm.silent, hnew]
    simp [Tcpd.registers, pendingOn]
  | @accept addr fd' sys hcalm =>
    rw [hquiet hcalm.silent, List.nil_append]
    rcases tcpdAccept_cases addr fd' hnodup with hrefused | ⟨hsilent, hnone, hpending, hothers⟩
    · simp [Tcpd.registers, hrefused]
    · by_cases hfd : fd' = fd
      · subst hfd
        simp [Tcpd.registers, hsilent, hnone, hpending]
      · simp [Tcpd.registers, hfd, hothers fd (Ne.symm hfd)]
  | handOver =>
    rw [handleAckBack_eq]
    simp [Tcpd.registers, pendingOn_handOver u.ackedSockets u.waitingAckSockets hnodup fd]
  | other hframe hbinds hcalls hsame hcalm =>
    rw [hquiet hcalm.silent, hsame, hcalls]
    simp

/-- In a daemon with one entry per session, no two entries have the same session. -/
lemma OneEntry.nodup_sessions {acked : HashTable UInt32 AckedSock} {waiting : List AckedSock}
    (h : OneEntry acked waiting) : ((waiting ++ acked.values).map (·.session)).Nodup := by
  have hkeys : acked.values.map (·.session) = acked.keys := by
    rw [HashTable.values, HashTable.keys, List.map_map]
    refine List.map_congr_left fun x hx => ?_
    exact h.keys x.1 x.2 (HashTable.lookup_eq_some.mpr hx)
  rw [List.map_append, hkeys]
  refine h.nodup.append acked.nodup fun s hs hkey => ?_
  obtain ⟨a, ha, rfl⟩ := List.mem_map.mp hs
  obtain ⟨x, hx, heq⟩ := List.mem_map.mp hkey
  refine HashTable.lookup_eq_none.mp (h.fresh a ha) x.2 ?_
  rw [← heq]
  exact hx

/-- What the hand-over keeps: after the events `es` the daemon is in the state `t` and has sent
`os`. -/
structure HandsOver (es : List Event) (t : Tcpd) (os : List Out) : Prop where
  /-- a session with an intact frame has one entry, in the list or in the table -/
  once : ∀ s, HasFrame es s →
    ((t.waitingAckSockets ++ t.ackedSockets.values).map (·.session)).count s = 1
  /-- an entry is stored under its own session number -/
  own : ∀ s a, t.ackedSockets.lookup s = some a → a.session = s
  /-- `handle_ack_back` moves entries as they are -/
  moved : ∀ s, (handleAckBack t).1.sess s = t.sess s
  /-- no session is handed out twice -/
  nodup : ((handedOut os).map (·.2.2)).Nodup
  /-- the accepted sessions are those that have been handed out -/
  accepted : ∀ s, t.Accepted s ↔ s ∈ (handedOut os).map (·.2.2)
  /-- an `ACCEPT` is refused with an error and has no effect, or has no answer yet -/
  refused : ∀ addr fd,
    tcpdAccept t addr fd = (t, [.code addr (-1)]) ∨ (tcpdAccept t addr fd).2 = []
  /-- the other calls of `ACCEPT` get one session each, in their order, or still wait -/
  answered : ∀ fd, callsOn fd es = callersOn fd os ++ pendingOn fd t.bindedSockets
  /-- sessions are handed out in the order of their first frames -/
  order : ∀ fd, firstOn fd es = sessionsOn fd os ++ waitingOn fd t.waitingAckSockets

/-- **Hand-over.** After every run of the daemon in which no socket is bound twice, whatever
frames, calls and passes it consists of: a session with an intact frame has one entry, it is
handed out at most once, the calls of `ACCEPT` get at most one session each, and the sessions of
a socket are handed out in the order of their first frames. -/
theorem handsOver_of_run (es : List Event) (t : Tcpd) (os : List Out) (h : Tcpd.Run es t os)
    (hbound : (boundFds es).Nodup) : HandsOver es t os := by
  have hone : OneEntry t.ackedSockets t.waitingAckSockets := (sessionsOk_of_run h).one
  have hlobby := lobby_of_run h
  have hfds : (t.bindedSockets.map (·.socketFD)).Nodup := by
    rw [bindedSockets_of_run h]
    exact hbound
  refine ⟨fun s hs => ?_, hone.keys, fun s => ?_, ?_, hlobby.accepted, fun addr fd => ?_,
    callsOn_of_run h hbound, hlobby.order⟩
  · refine List.count_eq_one_of_mem hone.nodup_sessions ?_
    rw [List.map_append, List.mem_append]
    rcases (hlobby.mem_iff s).mp ((mem_firstFrames es s).mpr hs) with hacc | hwaits
    · right
      obtain ⟨a, ha⟩ := Option.isSome_iff_exists.mp hacc
      refine List.mem_map.mpr ⟨a, ?_, hone.keys s a ha⟩
      exact List.mem_map.mpr ⟨(s, a), HashTable.lookup_eq_some.mp ha, rfl⟩
    · left
      rwa [Tcpd.map_snd_waits] at hwaits
  · rw [handleAckBack_eq]
    exact (handOver_spec hone t.bindedSockets).2.1 s
  · exact (hlobby.perm.nodup_iff.mp (firstFrames_nodup es)).of_append_left
  · exact (tcpdAccept_cases addr fd hfds).imp_right And.left

/-- One frame and one `ACCEPT`: the session is handed out to the caller. -/
theorem handsOver_of_run_acceptOne : HandsOver (acceptOne frame123) (oneState frame123 0)
    [.code default 0, .ack 3 (makeAck frame123 default), .accepted default 3 7] :=
  handsOver_of_run _ _ _ (run_acceptOne (TrollMessageStruct.valid_sealed _) rfl) (by decide)

end NetworkProgramming
