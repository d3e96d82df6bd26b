import NetworkProgramming.Final.Queue
import NetworkProgramming.Final.SendBack
import NetworkProgramming.Final.Tcpd

/-!
# One session of the receiving daemon

`Tcpd.sess t s` is the entry of session `s`, wherever the daemon keeps it: it waits in
`waiting_ack_sockets` until an `ACCEPT` takes it over into `acked_sockets`. `OneEntry` says
that a session has at most one entry, and `sess_step` what a step of the daemon does to it:
a frame is placed, a `RECV` is recorded, a pass answers, or nothing happens.
-/

namespace NetworkProgramming

/-- The entry of a session in the two tables, accepted or waiting. -/
def entry (acked : HashTable UInt32 AckedSock) (waiting : List AckedSock) (s : UInt32) :
    Option AckedSock :=
  acked.lookup s <|> waiting.find? (·.session = s)

/-- Every session has one entry, found under its own number. -/
structure OneEntry (acked : HashTable UInt32 AckedSock) (waiting : List AckedSock) : Prop where
  keys : ∀ s a, acked.lookup s = some a → a.session = s
  nodup : (waiting.map (·.session)).Nodup
  fresh : ∀ a ∈ waiting, acked.lookup a.session = none

namespace Tcpd

/-- The entry of a session, accepted or waiting. -/
def sess (t : Tcpd) (s : UInt32) : Option AckedSock :=
  entry t.ackedSockets t.waitingAckSockets s

/-- An `ACCEPT` has taken the session over. -/
def Accepted (t : Tcpd) (s : UInt32) : Prop := (t.ackedSockets.lookup s).isSome

instance (t : Tcpd) (s : UInt32) : Decidable (t.Accepted s) :=
  inferInstanceAs (Decidable (_ = true))

/-- Every session has one entry, and the buffer of an entry holds less than its request. -/
structure SessionsOk (t : Tcpd) : Prop where
  one : OneEntry t.ackedSockets t.waitingAckSockets
  isOpen : ∀ s a, t.sess s = some a → a.Open

end Tcpd

/-- The answers to `RECV` on session `s`. -/
def repliesTo (s : UInt32) (os : List Out) : List (List UInt8) :=
  os.filterMap fun o =>
    match o with
    | .data _ s' bytes => if s' = s then some bytes else none
    | _ => none

@[simp] lemma repliesTo_nil (s : UInt32) : repliesTo s [] = [] := rfl

@[simp] lemma repliesTo_append (s : UInt32) (os os' : List Out) :
    repliesTo s (os ++ os') = repliesTo s os ++ repliesTo s os' := List.filterMap_append

/-- The datagram does not answer a `RECV` on session `s`. -/
def Out.NoReply (s : UInt32) (o : Out) : Prop := ∀ addr bytes, o ≠ .data addr s bytes

lemma repliesTo_of_noReply {s : UInt32} {os : List Out} (h : ∀ o ∈ os, o.NoReply s) :
    repliesTo s os = [] := by
  refine List.filterMap_eq_nil_iff.mpr fun o ho => ?_
  cases o with
  | data addr s' bytes =>
    have hne : s' ≠ s := fun heq => h _ ho addr bytes (heq ▸ rfl)
    simp [hne]
  | _ => rfl

/-! ## Placing a package -/

lemma find?_placeWaiting_self (fd : Int32) (m : TrollMessageStruct) (l : List AckedSock) :
    (placeWaiting fd m l).find? (·.session = m.session)
      = some (((l.find? (·.session = m.session)).getD (.create fd m.session)).place m) := by
  induction l with
  | nil => simp [placeWaiting, AckedSock.create]
  | cons a l ih =>
    by_cases h : a.session = m.session
    · simp [placeWaiting, h]
    · simp [placeWaiting, h, ih]

lemma find?_placeWaiting_ne {s : UInt32} {fd : Int32} {m : TrollMessageStruct}
    (h : m.session ≠ s) (l : List AckedSock) :
    (placeWaiting fd m l).find? (·.session = s) = l.find? (·.session = s) := by
  induction l with
  | nil => simp [placeWaiting, AckedSock.create, h]
  | cons a l ih =>
    by_cases ha : a.session = m.session
    · simp [placeWaiting, ha, h]
    · simp only [placeWaiting, if_neg ha, List.find?_cons, ih]

lemma map_session_placeWaiting (fd : Int32) (m : TrollMessageStruct) (l : List AckedSock) :
    (placeWaiting fd m l).map (·.session)
      = if m.session ∈ l.map (·.session) then l.map (·.session)
        else l.map (·.session) ++ [m.session] := by
  induction l with
  | nil => simp [placeWaiting, AckedSock.create]
  | cons a l ih =>
    by_cases h : a.session = m.session
    · simp [placeWaiting, h]
    · have h' : ¬ m.session = a.session := fun he => h he.symm
      simp only [placeWaiting, if_neg h, List.map_cons, ih, List.mem_cons, h', false_or]
      split <;> rfl

/-- A frame of a session that is not accepted keeps one entry per session. -/
lemma OneEntry.placeWaiting {acked : HashTable UInt32 AckedSock} {waiting : List AckedSock}
    (h : OneEntry acked waiting) {fd : Int32} {m : TrollMessageStruct}
    (hnone : acked.lookup m.session = none) :
    OneEntry acked (placeWaiting fd m waiting) := by
  refine ⟨h.keys, ?_, ?_⟩
  · rw [map_session_placeWaiting]
    split
    · exact h.nodup
    · rename_i hnew
      exact h.nodup.append (List.nodup_singleton _) (by simpa using hnew)
  · intro a ha
    have hmem : a.session ∈ (NetworkProgramming.placeWaiting fd m waiting).map (·.session) :=
      List.mem_map_of_mem ha
    rw [map_session_placeWaiting] at hmem
    split at hmem
    · obtain ⟨b, hb, heq⟩ := List.mem_map.mp hmem
      exact heq ▸ h.fresh b hb
    · rcases List.mem_append.mp hmem with hmem | hmem
      · obtain ⟨b, hb, heq⟩ := List.mem_map.mp hmem
        exact heq ▸ h.fresh b hb
      · rw [List.mem_singleton.mp hmem, hnone]

/-- Storing an entry of an accepted session anew keeps one entry per session. -/
lemma OneEntry.insert {acked : HashTable UInt32 AckedSock} {waiting : List AckedSock}
    (h : OneEntry acked waiting) {s : UInt32} {a a' : AckedSock}
    (ha : acked.lookup s = some a) (hs : a'.session = s) :
    OneEntry (acked.insert s a') waiting := by
  refine ⟨fun s' b hb => ?_, h.nodup, fun b hb => ?_⟩
  · by_cases hss : s' = s
    · subst hss
      rw [HashTable.lookup_insert_self] at hb
      cases hb
      exact hs
    · rw [HashTable.lookup_insert_ne _ _ hss] at hb
      exact h.keys s' b hb
  · have hne : b.session ≠ s := by
      intro heq
      have hnone := h.fresh b hb
      rw [heq, ha] at hnone
      cases hnone
    rw [HashTable.lookup_insert_ne _ _ hne]
    exact h.fresh b hb

/-! ## Handing a session over -/

/-- In a list with distinct sessions an entry is found by its session. -/
lemma find?_session {l : List AckedSock} (h : (l.map (·.session)).Nodup) {a : AckedSock}
    (ha : a ∈ l) : l.find? (·.session = a.session) = some a := by
  induction l with
  | nil => cases ha
  | cons b l ih =>
    obtain ⟨hb, hl⟩ := List.nodup_cons.mp h
    rcases List.mem_cons.mp ha with rfl | ha
    · simp
    · have hne : ¬ b.session = a.session := fun heq =>
        hb (List.mem_map.mpr ⟨a, ha, heq.symm⟩)
      simp [hne, ih hl ha]

/-- Removing an entry does not disturb the search for another session. -/
lemma find?_eraseP_ne {s : UInt32} {p : AckedSock → Bool} {l : List AckedSock} {a : AckedSock}
    (hfind : l.find? p = some a) (h : a.session ≠ s) :
    (l.eraseP p).find? (·.session = s) = l.find? (·.session = s) := by
  induction l with
  | nil => rfl
  | cons b l ih =>
    by_cases hb : p b
    · rw [List.find?_cons_of_pos hb] at hfind
      cases hfind
      simp [hb, h]
    · rw [List.find?_cons_of_neg hb] at hfind
      rw [List.eraseP_cons_of_neg hb, List.find?_cons, List.find?_cons, ih hfind]

/-- With distinct sessions, the entry that is removed is gone. -/
lemma session_ne_of_mem_eraseP {p : AckedSock → Bool} {l : List AckedSock} {a b : AckedSock}
    (hnodup : (l.map (·.session)).Nodup) (hfind : l.find? p = some a) (hb : b ∈ l.eraseP p) :
    b.session ≠ a.session := by
  induction l with
  | nil => cases hb
  | cons c l ih =>
    obtain ⟨hc, hl⟩ := List.nodup_cons.mp hnodup
    by_cases hpc : p c
    · rw [List.find?_cons_of_pos hpc] at hfind
      cases hfind
      rw [List.eraseP_cons_of_pos hpc] at hb
      exact fun heq => hc (List.mem_map.mpr ⟨b, hb, heq⟩)
    · rw [List.find?_cons_of_neg hpc] at hfind
      rw [List.eraseP_cons_of_neg hpc] at hb
      rcases List.mem_cons.mp hb with rfl | hb
      · exact fun heq => hc (List.mem_map.mpr ⟨a, List.mem_of_find?_eq_some hfind, heq.symm⟩)
      · exact ih hl hfind hb

/-- One session moves from the waiting list into the table. -/
lemma OneEntry.accept {acked : HashTable UInt32 AckedSock} {waiting : List AckedSock}
    (h : OneEntry acked waiting) {p : AckedSock → Bool} {a : AckedSock}
    (hfind : waiting.find? p = some a) :
    OneEntry (acked.insert a.session a) (waiting.eraseP p) ∧
      ∀ s, entry (acked.insert a.session a) (waiting.eraseP p) s = entry acked waiting s := by
  have hmem : a ∈ waiting := List.mem_of_find?_eq_some hfind
  refine ⟨⟨fun s b hb => ?_, h.nodup.sublist ((List.eraseP_sublist).map _), fun b hb => ?_⟩,
    fun s => ?_⟩
  · by_cases hs : s = a.session
    · subst hs
      rw [HashTable.lookup_insert_self] at hb
      cases hb
      rfl
    · rw [HashTable.lookup_insert_ne _ _ hs] at hb
      exact h.keys s b hb
  · rw [HashTable.lookup_insert_ne _ _ (session_ne_of_mem_eraseP h.nodup hfind hb)]
    exact h.fresh b (List.mem_of_mem_eraseP hb)
  · by_cases hs : s = a.session
    · subst hs
      rw [entry, entry, HashTable.lookup_insert_self, h.fresh a hmem, find?_session h.nodup hmem]
      rfl
    · rw [entry, entry, HashTable.lookup_insert_ne _ _ hs, find?_eraseP_ne hfind (Ne.symm hs)]

/-- Handing sessions over changes no entry, and answers no `RECV`. -/
lemma handOver_spec {acked : HashTable UInt32 AckedSock} {waiting : List AckedSock}
    (h : OneEntry acked waiting) (bs : List BindedSock) :
    OneEntry (handOver acked waiting bs).2.1 (handOver acked waiting bs).2.2.1 ∧
      (∀ s, entry (handOver acked waiting bs).2.1 (handOver acked waiting bs).2.2.1 s
        = entry acked waiting s) ∧
      (∀ s, (acked.lookup s).isSome → ((handOver acked waiting bs).2.1.lookup s).isSome) ∧
      ∀ s, ∀ o ∈ (handOver acked waiting bs).2.2.2, o.NoReply s := by
  induction bs generalizing acked waiting with
  | nil => exact ⟨h, fun _ => rfl, fun _ hs => hs, by simp [handOver]⟩
  | cons b bs ih =>
    rw [handOver]
    split
    · exact ih h
    · rename_i a hsearch
      obtain ⟨-, hfind⟩ := Option.ite_none_right_eq_some.mp hsearch
      obtain ⟨hok, hsame⟩ := h.accept hfind
      obtain ⟨hok', hsame', hkept, hquiet⟩ := ih hok
      refine ⟨hok', fun s => (hsame' s).trans (hsame s), fun s hs => hkept s ?_, ?_⟩
      · by_cases hsa : s = a.session
        · rw [hsa, HashTable.lookup_insert_self]
          rfl
        · rwa [HashTable.lookup_insert_ne _ _ hsa]
      · intro s o ho
        rcases List.mem_cons.mp ho with rfl | ho
        · exact fun _ _ heq => by cases heq
        · exact hquiet s o ho

/-! ## What a step does to a session -/

/-- What one step does to the entry of session `s`, and what it answers to its `RECV`. -/
inductive SessStep (s : UInt32) (accepted : Prop) :
    Option AckedSock → Event → Option AckedSock → List (List UInt8) → Prop
  /-- a frame of the session arrives intact -/
  | arrive {x : Option AckedSock} {fd : Int32} {m : TrollMessageStruct} {remote : SockaddrIn}
      (hvalid : m.Valid) (hs : m.session = s) :
      SessStep s accepted x (.data fd m remote) (some ((x.getD (.create fd s)).place m)) []
  /-- a `RECV` is recorded -/
  | request {a : AckedSock} {addr : SockaddrIn} {fd : Int32} {len : UInt64} {sys : Sys}
      (hacc : accepted) (hs : fd.toUInt32 = s) (hlen : len ≠ 0) (hidle : a.receivingLength = 0) :
      SessStep s accepted (some a) (.front addr (.RECV fd len) sys)
        (some { a with receivingLength := len, receivingAddr := addr }) []
  /-- a pass works on the pending request -/
  | pass {a a' : AckedSock} {taken : List TrollMessageStruct} {replies : List (List UInt8)}
      (hacc : accepted) (h : a.Passes taken a' replies) :
      SessStep s accepted (some a) .recvBack (some a') replies
  /-- nothing of the above -/
  | other {x : Option AckedSock} {e : Event}
      (hdata : ∀ fd m remote, e = .data fd m remote → m.Valid → m.session ≠ s)
      (hrecv : ∀ addr fd len sys, e = .front addr (.RECV fd len) sys → fd.toUInt32 = s →
        accepted → len = 0 ∨ ∃ a, x = some a ∧ a.receivingLength ≠ 0)
      (hpass : e = .recvBack → accepted → ∃ a, x = some a ∧ a.receivingLength = 0) :
      SessStep s accepted x e x []

/-- A step that leaves both tables of the receiving side alone. -/
def SameSessions (t t' : Tcpd) : Prop :=
  t'.ackedSockets = t.ackedSockets ∧ t'.waitingAckSockets = t.waitingAckSockets

lemma SameSessions.sess_eq {t t' : Tcpd} (h : SameSessions t t') (s : UInt32) :
    t'.sess s = t.sess s := by
  rw [Tcpd.sess, Tcpd.sess, h.1, h.2]

/-- The entry of an accepted session. -/
lemma sess_of_lookup {t : Tcpd} {s : UInt32} {a : AckedSock}
    (h : t.ackedSockets.lookup s = some a) : t.sess s = some a := by
  rw [Tcpd.sess, entry, h]
  rfl

/-- The entry of a session that is not accepted. -/
lemma sess_of_lookup_none {t : Tcpd} {s : UInt32} (h : t.ackedSockets.lookup s = none) :
    t.sess s = t.waitingAckSockets.find? (·.session = s) := by
  rw [Tcpd.sess, entry, h]
  rfl

/-- The entry that is stored for an accepted session. -/
lemma sess_insert_self {t t' : Tcpd} {s : UInt32} {a : AckedSock}
    (h : t'.ackedSockets = t.ackedSockets.insert s a) : t'.sess s = some a :=
  sess_of_lookup (by rw [h, HashTable.lookup_insert_self])

/-- Storing an entry leaves the other sessions alone. -/
lemma sess_insert_ne {t t' : Tcpd} {s s' : UInt32} {a : AckedSock}
    (h : t'.ackedSockets = t.ackedSockets.insert s a)
    (hwaiting : t'.waitingAckSockets = t.waitingAckSockets) (hne : s' ≠ s) :
    t'.sess s' = t.sess s' := by
  simp only [Tcpd.sess, entry, h, hwaiting, HashTable.lookup_insert_ne _ _ hne]

/-- A frame. -/
lemma data_spec {t t' : Tcpd} {fd : Int32} {m : TrollMessageStruct} {remote : SockaddrIn}
    {os : List Out} (hok : OneEntry t.ackedSockets t.waitingAckSockets)
    (h : t.step (.data fd m remote) = .ok (t', os)) :
    OneEntry t'.ackedSockets t'.waitingAckSockets ∧ (∀ s, t.Accepted s → t'.Accepted s) ∧
      (∀ s, ∀ o ∈ os, o.NoReply s) ∧
      ∀ s, t'.sess s = if m.Valid ∧ m.session = s
        then some (((t.sess s).getD (.create fd s)).place m) else t.sess s := by
  have hquiet : ∀ s, ∀ o ∈ [Out.ack fd (makeAck m remote)], o.NoReply s := by
    intro s o ho
    rw [List.mem_singleton.mp ho]
    exact fun _ _ heq => by cases heq
  cases tcpd_step h with
  | frameGarbled _ hbad =>
    exact ⟨hok, fun _ hs => hs, by simp, fun s => by rw [if_neg fun hv => hbad hv.1]⟩
  | frameAccepted _ hvalid hlook =>
    have hsess := hok.keys _ _ hlook
    refine ⟨hok.insert hlook (by rw [AckedSock.session_place, hsess]), fun s hs => ?_, hquiet,
      fun s => ?_⟩
    · by_cases hms : s = m.session
      · simp [Tcpd.Accepted, hms]
      · simpa [Tcpd.Accepted, HashTable.lookup_insert_ne _ _ hms] using hs
    · by_cases hms : m.session = s
      · subst hms
        rw [if_pos ⟨hvalid, rfl⟩, sess_of_lookup hlook]
        exact sess_insert_self rfl
      · rw [if_neg fun hv => hms hv.2]
        exact sess_insert_ne rfl rfl (Ne.symm hms)
  | frameWaiting _ hvalid hlook =>
    refine ⟨hok.placeWaiting hlook, fun _ hs => hs, hquiet, fun s => ?_⟩
    by_cases hms : m.session = s
    · subst hms
      rw [if_pos ⟨hvalid, rfl⟩, sess_of_lookup_none hlook,
        ← find?_placeWaiting_self fd m t.waitingAckSockets]
      exact sess_of_lookup_none hlook
    · rw [if_neg fun hv => hms hv.2]
      simp only [Tcpd.sess, entry, find?_placeWaiting_ne hms]

/-- A visit of `handle_recv_back`. -/
lemma recvVisit_ok {x : HashTable.Visit UInt32 AckedSock Out} (h : x.By AckedSock.recvVisit) :
    x.old.recvBack = .ok (x.new, x.outs) := by
  obtain ⟨s, s', h⟩ := h
  unfold AckedSock.recvVisit at h
  cases hr : x.old.recvBack with
  | error e => simp [hr, Except.map] at h
  | ok r =>
    rw [hr] at h
    have heq := Except.ok.inj h
    rw [← (Prod.mk.inj heq).2]

/-- A session answers under its own number. -/
lemma noReply_of_recvBack {a a' : AckedSock} {os : List Out} {s : UInt32} (hopen : a.Open)
    (h : a.recvBack = .ok (a', os)) (hs : a.session ≠ s) : ∀ o ∈ os, o.NoReply s := by
  intro o ho addr bytes heq
  rcases AckedSock.recvBack_ok hopen h with ⟨-, -, rfl⟩ | ⟨taken, replies, -, rfl⟩
  · cases ho
  · obtain ⟨b, -, rfl⟩ := List.mem_map.mp ho
    cases heq
    exact hs rfl

lemma handleRecvBack_ok {t t' : Tcpd} {os : List Out} (h : handleRecvBack t = .ok (t', os)) :
    t.ackedSockets.pass AckedSock.recvVisit () = .ok ((), t'.ackedSockets, os) ∧
      t' = { t with ackedSockets := t'.ackedSockets } := by
  unfold handleRecvBack at h
  split at h
  · cases h
  · rename_i table os' hpass
    cases h
    exact ⟨hpass, rfl⟩

/-- A receive pass answers the requests of its sessions. -/
lemma out_of_recvPass {t t' : Tcpd} {os : List Out} (hok : t.SessionsOk)
    (h : handleRecvBack t = .ok (t', os)) {o : Out} (ho : o ∈ os) :
    ∃ a bytes, t.sess a.session = some a ∧ a.receivingLength ≠ 0 ∧
      o = .data a.receivingAddr a.session bytes := by
  obtain ⟨x, hby, hold, -, hmem⟩ := HashTable.pass_outs (handleRecvBack_ok h).1 ho
  have hsess := sess_of_lookup hold
  rcases AckedSock.recvBack_ok (hok.isOpen _ _ hsess) (recvVisit_ok hby) with
    ⟨-, -, hnil⟩ | ⟨_, replies, hpass, houts⟩
  · rw [hnil] at hmem
    cases hmem
  · rw [houts] at hmem
    obtain ⟨bytes, -, rfl⟩ := List.mem_map.mp hmem
    refine ⟨x.old, bytes, ?_, fun hzero => ?_, rfl⟩
    · rwa [hok.one.keys _ _ hold]
    · have hpending := hpass.pending
      rw [AckedSock.request, hzero] at hpending
      exact absurd hpending (by decide)

lemma handleRecvBack_spec {t t' : Tcpd} {os : List Out} (hok : t.SessionsOk)
    (h : handleRecvBack t = .ok (t', os)) (s : UInt32) :
    (t.ackedSockets.lookup s = none ∧ t'.ackedSockets.lookup s = none ∧ repliesTo s os = []) ∨
      ∃ a a' o, t.ackedSockets.lookup s = some a ∧ t'.ackedSockets.lookup s = some a' ∧
        a.recvBack = .ok (a', o) ∧ repliesTo s os = repliesTo s o := by
  obtain ⟨hpass, -⟩ := handleRecvBack_ok h
  have hquiet : ∀ (x : HashTable.Visit UInt32 AckedSock Out) (o : Out),
      x.By AckedSock.recvVisit → x.key ≠ s → t.ackedSockets.lookup x.key = some x.old →
        o ∈ x.outs → o.NoReply s := by
    intro x o hby hne hlook ho
    have hsession := hok.one.keys _ _ hlook
    exact noReply_of_recvBack (hok.isOpen _ _ (sess_of_lookup hlook)) (recvVisit_ok hby)
      (hsession ▸ hne) o ho
  cases hlook : t.ackedSockets.lookup s with
  | none =>
    refine Or.inl ⟨rfl, HashTable.pass_lookup_none hpass hlook, repliesTo_of_noReply ?_⟩
    intro o ho
    obtain ⟨x, hby, hold, -, hox⟩ := HashTable.pass_outs hpass ho
    have hne : x.key ≠ s := fun heq => by
      rw [heq, hlook] at hold
      cases hold
    exact hquiet x o hby hne hold hox
  | some a =>
    obtain ⟨x, hby, hkey, rfl, hnew, os₁, os₂, rfl, hothers⟩ :=
      HashTable.pass_lookup hpass hlook
    refine Or.inr ⟨x.old, x.new, x.outs, rfl, hnew, recvVisit_ok hby, ?_⟩
    have hrest : ∀ l, (∀ o ∈ l, o ∈ os₁ ++ os₂) → repliesTo s l = [] := by
      intro l hl
      refine repliesTo_of_noReply fun o ho => ?_
      obtain ⟨y, hy, hne, hold, hoy⟩ := hothers o (hl o ho)
      exact hquiet y o hy hne hold hoy
    rw [repliesTo_append, repliesTo_append, hrest os₁ (fun o ho => List.mem_append_left _ ho),
      hrest os₂ (fun o ho => List.mem_append_right _ ho)]
    simp

/-! ## Steps that do not concern the receiving side -/

lemma noReply_code (s : UInt32) (addr : SockaddrIn) (ret : Int32) :
    ∀ o ∈ [Out.code addr ret], o.NoReply s := by
  intro o ho
  rw [List.mem_singleton.mp ho]
  exact fun _ _ heq => by cases heq

/-- An event that is neither a frame, a `RECV`, a hand-over nor a receive pass keeps every session
as it is. -/
lemma sameSessions_of_step {t t' : Tcpd} {e : Event} {os : List Out} (h : t.step e = .ok (t', os))
    (hdata : ∀ fd m remote, e ≠ .data fd m remote)
    (hrecv : ∀ addr fd len sys, e ≠ .front addr (.RECV fd len) sys) (hackBack : e ≠ .ackBack)
    (hrecvBack : e ≠ .recvBack) (hrehash : ∀ acked connected, e ≠ .rehash acked connected) :
    SameSessions t t' ∧ ∀ s, ∀ o ∈ os, o.NoReply s := by
  cases tcpd_step h with
  | socket | bind | connect | send => exact ⟨⟨rfl, rfl⟩, fun s => noReply_code s _ _⟩
  | accept =>
    refine ⟨⟨rfl, rfl⟩, fun s => ?_⟩
    rw [tcpdAccept]
    split
    · exact noReply_code s _ _
    · simp
  | recvRefused | recv => exact absurd rfl (hrecv _ _ _ _)
  | frameGarbled | frameAccepted | frameWaiting => exact absurd rfl (hdata _ _ _)
  | ackGarbled | timer => exact ⟨⟨rfl, rfl⟩, by simp⟩
  | ack | ackOther =>
    refine ⟨⟨rfl, rfl⟩, fun s o ho => ?_⟩
    rw [List.mem_singleton.mp ho]
    exact fun _ _ heq => by cases heq
  | ackBack => exact absurd rfl hackBack
  | recvBack => exact absurd rfl hrecvBack
  | sendBack hpass =>
    refine ⟨⟨rfl, rfl⟩, fun s o ho addr bytes heq => ?_⟩
    obtain ⟨fd, c, m, -, -, hout | ⟨_, hout⟩⟩ := out_of_sendPass hpass ho <;>
      rw [heq] at hout <;> cases hout
  | rehash => exact absurd rfl (hrehash _ _)

/-- A `RECV`. -/
lemma recv_spec {t t' : Tcpd} {addr : SockaddrIn} {fd : Int32} {len : UInt64} {sys : Sys}
    {os : List Out} (hok : OneEntry t.ackedSockets t.waitingAckSockets)
    (h : t.step (.front addr (.RECV fd len) sys) = .ok (t', os)) :
    OneEntry t'.ackedSockets t'.waitingAckSockets ∧ (∀ s, t.Accepted s → t'.Accepted s) ∧
      (∀ s, ∀ o ∈ os, o.NoReply s) ∧
      ∀ s, SessStep s (t.Accepted s) (t.sess s) (.front addr (.RECV fd len) sys)
        (t'.sess s) [] := by
  -- the request is recorded in one case only; in the others no entry changes
  have hskip : ∀ s, (fd.toUInt32 = s → t.Accepted s →
      len = 0 ∨ ∃ a, t.sess s = some a ∧ a.receivingLength ≠ 0) →
      SessStep s (t.Accepted s) (t.sess s) (.front addr (.RECV fd len) sys) (t.sess s) [] := by
    intro s hs
    refine .other (fun _ _ _ heq => by cases heq) (fun _ _ _ _ heq => ?_) (fun heq => by cases heq)
    cases heq
    exact hs
  cases tcpd_step h with
  | recvRefused hrefused =>
    refine ⟨hok, fun _ hs => hs, fun s => noReply_code s _ _, fun s => hskip s fun hs hacc => ?_⟩
    rcases hrefused with hnone | hlen | ⟨a, ha, hbusy⟩
    · rw [Tcpd.Accepted, ← hs, hnone] at hacc
      cases hacc
    · exact Or.inl hlen
    · exact Or.inr ⟨a, hs ▸ sess_of_lookup ha, hbusy⟩
  | @recv _ _ _ _ a hlen ha hidle =>
    have hsession := hok.keys _ _ ha
    refine ⟨hok.insert ha hsession, fun s hs => ?_, by simp, fun s => ?_⟩
    · by_cases hfd : s = fd.toUInt32
      · simp [Tcpd.Accepted, hfd]
      · simpa [Tcpd.Accepted, HashTable.lookup_insert_ne _ _ hfd] using hs
    · by_cases hfd : fd.toUInt32 = s
      · subst hfd
        rw [sess_of_lookup ha, sess_insert_self rfl]
        exact .request (by rw [Tcpd.Accepted, ha]; rfl) rfl hlen hidle
      · convert hskip s fun hs => absurd hs hfd using 1
        exact sess_insert_ne rfl rfl (Ne.symm hfd)

/-! ## The step lemma -/

lemma AckedSock.open_place {a : AckedSock} (h : a.Open) (m : TrollMessageStruct) :
    (a.place m).Open := by
  rw [AckedSock.place_eq]
  exact h

/-- What a step leaves of a session is open again. -/
lemma SessStep.isOpen {s : UInt32} {accepted : Prop} {x x' : Option AckedSock} {e : Event}
    {replies : List (List UInt8)} (h : SessStep s accepted x e x' replies)
    (hx : ∀ a, x = some a → a.Open) : ∀ a, x' = some a → a.Open := by
  cases h with
  | arrive hvalid hs =>
    rintro a ⟨⟩
    refine AckedSock.open_place ?_ _
    cases x with
    | none => exact Or.inr ⟨rfl, rfl⟩
    | some a => exact hx a rfl
  | request hacc hs hlen hidle =>
    rename_i a _ _ len _
    rintro a' ⟨⟩
    have hempty : a.recvBufferSize = 0 := by
      rcases hx a rfl with hlt | hnone
      · rw [hidle] at hlt
        exact absurd hlt (UInt64.not_lt.mpr (UInt64.zero_le))
      · exact hnone.2
    left
    show a.recvBufferSize < len
    rw [hempty]
    exact UInt64.pos_iff_ne_zero.mpr hlen
  | pass hacc h =>
    rintro a ⟨⟩
    exact h.isOpen
  | other => exact hx

/-- A receive pass keeps the sessions where they are. -/
lemma oneEntry_recvBack {t t' : Tcpd} {os : List Out} (hok : t.SessionsOk)
    (h : handleRecvBack t = .ok (t', os)) :
    OneEntry t'.ackedSockets t'.waitingAckSockets ∧ ∀ s, t.Accepted s → t'.Accepted s := by
  have hspec := handleRecvBack_spec hok h
  obtain ⟨-, ht'⟩ := handleRecvBack_ok h
  have hwaiting : t'.waitingAckSockets = t.waitingAckSockets := by rw [ht']
  refine ⟨⟨fun s b hb => ?_, hwaiting ▸ hok.one.nodup, fun a ha => ?_⟩, fun s hs => ?_⟩
  · rcases hspec s with ⟨-, hn', -⟩ | ⟨a, a', o, ha, ha', hback, -⟩
    · rw [hn'] at hb
      cases hb
    · rw [ha'] at hb
      cases hb
      rcases AckedSock.recvBack_ok (hok.isOpen _ _ (sess_of_lookup ha)) hback with
        ⟨-, rfl, -⟩ | ⟨taken, replies, hpass, -⟩
      · exact hok.one.keys _ _ ha
      · rw [hpass.session]
        exact hok.one.keys _ _ ha
  · have hfresh := hok.one.fresh a (hwaiting ▸ ha)
    rcases hspec a.session with ⟨-, hn', -⟩ | ⟨b, b', o, hb, -⟩
    · exact hn'
    · rw [hfresh] at hb
      cases hb
  · rcases hspec s with ⟨hn, -, -⟩ | ⟨a, a', o, -, ha', -⟩
    · rw [Tcpd.Accepted, hn] at hs
      cases hs
    · rw [Tcpd.Accepted, ha']
      rfl

/-- What a receive pass does to a session. -/
lemma recvBack_spec {t t' : Tcpd} {os : List Out} (hok : t.SessionsOk)
    (h : handleRecvBack t = .ok (t', os)) (s : UInt32) :
    SessStep s (t.Accepted s) (t.sess s) .recvBack (t'.sess s) (repliesTo s os) := by
  obtain ⟨-, ht'⟩ := handleRecvBack_ok h
  have hwaiting : t'.waitingAckSockets = t.waitingAckSockets := by rw [ht']
  rcases handleRecvBack_spec hok h s with
    ⟨hn, hn', hquiet⟩ | ⟨a, a', o, ha, ha', hback, hreplies⟩
  · rw [hquiet, sess_of_lookup_none hn, sess_of_lookup_none hn', hwaiting]
    refine .other (by simp) (by simp) fun _ hacc => ?_
    rw [Tcpd.Accepted, hn] at hacc
    cases hacc
  · have hacc : t.Accepted s := by rw [Tcpd.Accepted, ha]; rfl
    have hsession := hok.one.keys _ _ ha
    rw [sess_of_lookup ha, sess_of_lookup ha', hreplies]
    rcases AckedSock.recvBack_ok (hok.isOpen _ _ (sess_of_lookup ha)) hback with
      ⟨hzero, rfl, rfl⟩ | ⟨taken, replies, hpass, rfl⟩
    · exact .other (by simp) (by simp) fun _ _ => ⟨_, rfl, hzero⟩
    · have hown : repliesTo s (replies.map (Out.data a.receivingAddr a.session)) = replies := by
        rw [hsession, repliesTo, List.filterMap_map]
        simp
      rw [hown]
      exact .pass hacc hpass

/-- The order of the entries does not matter. -/
lemma OneEntry.reorder {acked : HashTable UInt32 AckedSock} {waiting : List AckedSock}
    (h : OneEntry acked waiting) (order : List UInt32) :
    OneEntry (acked.reorder order) waiting := by
  refine ⟨fun s a ha => h.keys s a ?_, h.nodup, fun a ha => ?_⟩
  · rwa [HashTable.lookup_reorder] at ha
  · rw [HashTable.lookup_reorder]
    exact h.fresh a ha

/-- What a step does to the tables of the receiving side and to each session in them. -/
lemma step_spec {t t' : Tcpd} {e : Event} {os : List Out} (hok : t.SessionsOk)
    (h : t.step e = .ok (t', os)) :
    OneEntry t'.ackedSockets t'.waitingAckSockets ∧ (∀ s, t.Accepted s → t'.Accepted s) ∧
      ∀ s, SessStep s (t.Accepted s) (t.sess s) e (t'.sess s) (repliesTo s os) := by
  -- an event that is neither a frame, a `RECV` nor a receive pass, and changes no session
  have hidle : ∀ {e : Event}, (∀ fd m remote, e ≠ .data fd m remote) →
      (∀ addr fd len sys, e ≠ .front addr (.RECV fd len) sys) → e ≠ .recvBack →
      (SameSessions t t' ∧ ∀ s, ∀ o ∈ os, o.NoReply s) →
      OneEntry t'.ackedSockets t'.waitingAckSockets ∧ (∀ s, t.Accepted s → t'.Accepted s) ∧
        ∀ s, SessStep s (t.Accepted s) (t.sess s) e (t'.sess s) (repliesTo s os) := by
    rintro e hdata hrecv hpass ⟨hsame, hquiet⟩
    refine ⟨by rw [hsame.1, hsame.2]; exact hok.one, fun s hs => ?_, fun s => ?_⟩
    · rwa [Tcpd.Accepted, hsame.1]
    · rw [hsame.sess_eq, repliesTo_of_noReply (hquiet s)]
      exact .other (fun fd m remote he => absurd he (hdata fd m remote))
        (fun addr fd len sys he => absurd he (hrecv addr fd len sys))
        (fun he => absurd he hpass)
  cases e with
  | front addr r sys =>
    by_cases hr : ∃ fd len, r = .RECV fd len
    · obtain ⟨fd, len, rfl⟩ := hr
      obtain ⟨hone, hacc, hquiet, hsess⟩ := recv_spec hok.one h
      refine ⟨hone, hacc, fun s => ?_⟩
      rw [repliesTo_of_noReply (hquiet s)]
      exact hsess s
    · have hrecv : ∀ addr' fd len sys',
          Event.front addr r sys ≠ .front addr' (.RECV fd len) sys' := by
        intro addr' fd len sys' he
        cases he
        exact hr ⟨fd, len, rfl⟩
      exact hidle (by simp) hrecv (by simp)
        (sameSessions_of_step h (by simp) hrecv (by simp) (by simp) (by simp))
  | data fd m remote =>
    obtain ⟨hone, hacc, hquiet, hsess⟩ := data_spec hok.one h
    refine ⟨hone, hacc, fun s => ?_⟩
    rw [repliesTo_of_noReply (hquiet s), hsess s]
    split
    · rename_i hms
      exact .arrive hms.1 hms.2
    · rename_i hms
      refine .other (fun fd' m' remote' he hvalid hs => ?_) (by simp) (by simp)
      cases he
      exact hms ⟨hvalid, hs⟩
  | ack | timer | sendBack =>
    exact hidle (by simp) (by simp) (by simp)
      (sameSessions_of_step h (by simp) (by simp) (by simp) (by simp) (by simp))
  | ackBack =>
    simp only [Tcpd.step, handleAckBack] at h
    split at h
    · cases h
      exact hidle (by simp) (by simp) (by simp) ⟨⟨rfl, rfl⟩, by simp⟩
    · obtain ⟨hone, hsame, hkept, hquiet⟩ := handOver_spec hok.one t.bindedSockets
      have hs : ∀ s, t'.sess s = t.sess s := by
        cases h
        exact hsame
      cases h
      refine ⟨hone, hkept, fun s => ?_⟩
      rw [repliesTo_of_noReply (hquiet s), hs]
      exact .other (by simp) (by simp) (by simp)
  | recvBack =>
    obtain ⟨hone, hacc⟩ := oneEntry_recvBack hok h
    exact ⟨hone, hacc, recvBack_spec hok h⟩
  | rehash acked connected =>
    cases h
    refine ⟨hok.one.reorder acked, fun s hs => ?_, fun s => ?_⟩
    · rwa [Tcpd.Accepted, HashTable.lookup_reorder]
    · have hs : Tcpd.sess { t with ackedSockets := t.ackedSockets.reorder acked,
                                   connectedSockets := t.connectedSockets.reorder connected } s
          = t.sess s := by
        rw [Tcpd.sess, entry, HashTable.lookup_reorder]
        rfl
      rw [hs]
      exact .other (by simp) (by simp) (by simp)

/-- **One step, one session.** -/
theorem sess_step {t t' : Tcpd} {e : Event} {os : List Out} (hok : t.SessionsOk)
    (h : t.step e = .ok (t', os)) (s : UInt32) :
    SessStep s (t.Accepted s) (t.sess s) e (t'.sess s) (repliesTo s os) :=
  (step_spec hok h).2.2 s

/-- A session stays accepted. -/
lemma accepted_step {t t' : Tcpd} {e : Event} {os : List Out} (hok : t.SessionsOk)
    (h : t.step e = .ok (t', os)) {s : UInt32} (hs : t.Accepted s) : t'.Accepted s :=
  (step_spec hok h).2.1 s hs

theorem sessionsOk_step {t t' : Tcpd} {e : Event} {os : List Out} (hok : t.SessionsOk)
    (h : t.step e = .ok (t', os)) : t'.SessionsOk :=
  ⟨(step_spec hok h).1, fun s => (sess_step hok h s).isOpen (hok.isOpen s)⟩

lemma sessionsOk_globalInit : Tcpd.globalInit.SessionsOk where
  one := ⟨by simp [Tcpd.globalInit], List.nodup_nil, by simp [Tcpd.globalInit]⟩
  isOpen := by simp [Tcpd.globalInit, Tcpd.sess, entry]

theorem sessionsOk_of_run {es : List Event} {t : Tcpd} {os : List Out} (h : Tcpd.Run es t os) :
    t.SessionsOk :=
  Tcpd.machine.exec_invariant (E := fun _ => True)
    (fun _ _ _ _ hok _ hstep => sessionsOk_step hok hstep) (fun _ _ => trivial) h
    sessionsOk_globalInit

/-- An entry in the table of accepted sessions is the entry of its session. -/
lemma lookup_of_accepted {t : Tcpd} {s : UInt32} {a : AckedSock} (hacc : t.Accepted s)
    (h : t.sess s = some a) : t.ackedSockets.lookup s = some a := by
  obtain ⟨b, hb⟩ := Option.isSome_iff_exists.mp hacc
  rw [sess_of_lookup hb] at h
  cases h
  exact hb

/-! ## The queue along a run -/

/-- Every intact frame of session `s` among the events has the property `P`. -/
def FramesCarry (s : UInt32) (P : TrollMessageStruct → Prop) (es : List Event) : Prop :=
  ∀ fd m remote, Event.data fd m remote ∈ es → m.Valid → m.session = s → P m

lemma FramesCarry.left {s : UInt32} {P : TrollMessageStruct → Prop} {es es' : List Event}
    (h : FramesCarry s P (es ++ es')) : FramesCarry s P es :=
  fun fd m remote hm => h fd m remote (List.mem_append_left _ hm)

/-- A step on an event that carries what it should keeps the queue of a session in order. -/
lemma SessStep.queueOk {s : UInt32} {accepted : Prop} {x x' : Option AckedSock} {e : Event}
    {replies : List (List UInt8)} {P : TrollMessageStruct → Prop}
    (h : SessStep s accepted x e x' replies)
    (he : ∀ fd m remote, e = .data fd m remote → m.Valid → m.session = s → P m)
    (hx : ∀ a, x = some a → a.QueueOk P) : ∀ a, x' = some a → a.QueueOk P := by
  cases h with
  | arrive hvalid hs =>
    rintro a ⟨⟩
    refine AckedSock.QueueOk.place ?_ (he _ _ _ rfl hvalid hs)
    cases x with
    | none => exact AckedSock.queueOk_create _ _
    | some a => exact hx a rfl
  | request hacc hs hlen hidle =>
    rintro a' ⟨⟩
    have hq := hx _ rfl
    exact ⟨hq.sorted, hq.ahead, hq.all⟩
  | pass hacc h =>
    rintro a ⟨⟩
    exact (hx _ rfl).passes h
  | other => exact hx

theorem queueOk_of_run {s : UInt32} {P : TrollMessageStruct → Prop} {es : List Event} {t : Tcpd}
    {os : List Out} (h : Tcpd.Run es t os) (hframes : FramesCarry s P es) :
    ∀ a, t.sess s = some a → a.QueueOk P := by
  refine Tcpd.machine.exec_induction
    (motive := fun es t _ => FramesCarry s P es → ∀ a, t.sess s = some a → a.QueueOk P)
    (fun _ a ha => ?_) ?_ h hframes
  · simp [Tcpd.globalInit, Tcpd.sess, entry] at ha
  · intro es u o e t o' hrun ih hstep hall
    refine (sess_step (sessionsOk_of_run hrun) hstep s).queueOk ?_ (ih hall.left)
    rintro fd m remote rfl
    exact hall fd m remote (by simp)

/-- What a session has received stays received. -/
lemma SessStep.received {s : UInt32} {accepted : Prop} {x x' : Option AckedSock} {e : Event}
    {replies : List (List UInt8)} {P : TrollMessageStruct → Prop}
    (h : SessStep s accepted x e x' replies)
    (hsmall : ∀ m, P m → m.seqNum.toNat + 1 < 2 ^ 32)
    {a : AckedSock} (hx : x = some a) (hq : a.QueueOk P) {n : UInt32} (hn : a.Received n) :
    ∃ a', x' = some a' ∧ a'.Received n := by
  cases h with
  | arrive hvalid hs =>
    subst hx
    exact ⟨_, rfl, (AckedSock.received_place hq _).mpr (Or.inl hn)⟩
  | request hacc hs hlen hidle =>
    cases hx
    exact ⟨_, rfl, hn⟩
  | pass hacc h =>
    cases hx
    refine ⟨_, rfl, (h.received_iff hq fun m hm => hsmall m (hq.all m ?_)).mpr hn⟩
    rw [h.packages]
    exact List.mem_append_left _ hm
  | other => exact ⟨a, hx, hn⟩

/-- A frame that arrives intact is received. -/
lemma received_of_arrive {t t' : Tcpd} {fd : Int32} {m : TrollMessageStruct}
    {remote : SockaddrIn} {os : List Out} {P : TrollMessageStruct → Prop} (hok : t.SessionsOk)
    (h : t.step (.data fd m remote) = .ok (t', os)) (hvalid : m.Valid)
    (hq : ∀ a, t.sess m.session = some a → a.QueueOk P) :
    ∃ a, t'.sess m.session = some a ∧ a.Received m.seqNum := by
  have hsess := sess_step hok h m.session
  generalize hx : t.sess m.session = x at *
  generalize t'.sess m.session = x' at *
  generalize repliesTo m.session os = r at *
  cases hsess with
  | arrive _ _ =>
    refine ⟨_, rfl, ?_⟩
    have hplace : ((x.getD (.create fd m.session))).QueueOk P := by
      cases x with
      | none => exact AckedSock.queueOk_create _ _
      | some a => exact hq a rfl
    exact (AckedSock.received_place hplace m).mpr (Or.inr rfl)
  | other hdata => exact absurd rfl (hdata fd m remote rfl hvalid)

/-- Along a run every intact frame of a session ends up received. -/
theorem received_of_run {s : UInt32} {P : TrollMessageStruct → Prop}
    (hsmall : ∀ m, P m → m.seqNum.toNat + 1 < 2 ^ 32) {es : List Event} {t : Tcpd}
    {os : List Out} (h : Tcpd.Run es t os) (hframes : FramesCarry s P es) {fd : Int32}
    {m : TrollMessageStruct} {remote : SockaddrIn} (hm : .data fd m remote ∈ es)
    (hvalid : m.Valid) (hs : m.session = s) : ∃ a, t.sess s = some a ∧ a.Received m.seqNum := by
  refine Tcpd.machine.exec_induction (motive := fun es t _ => FramesCarry s P es →
    .data fd m remote ∈ es → ∃ a, t.sess s = some a ∧ a.Received m.seqNum) ?_ ?_ h hframes hm
  · intro _ hmem
    cases hmem
  · intro es u o e t o' hrun ih hstep hall hmem
    have hok := sessionsOk_of_run hrun
    have hqueue := queueOk_of_run hrun hall.left
    rcases List.mem_append.mp hmem with hmem | hmem
    · obtain ⟨a, ha, hreceived⟩ := ih hall.left hmem
      exact (sess_step hok hstep s).received hsmall ha (hqueue a ha) hreceived
    · obtain rfl := List.mem_singleton.mp hmem
      subst hs
      exact received_of_arrive hok hstep hvalid hqueue

end NetworkProgramming
