import NetworkProgramming.Final.ByteStream

/-!
# Delivery does not depend on the network schedule

What a session has answered and buffered is a function of the number of packages it has taken
(`progress`): packages are taken one by one in the order of their numbers, and only while a
request is pending, so it makes no difference when frames, requests and passes come. `Follows`
is that statement about one run. Two runs that agree on the number of requests and on the
packages that have arrived have taken the same number of packages once a pass has ended.
-/

namespace NetworkProgramming

/-! ## Progress -/

/-- The answers so far and the buffer, after one more package with data `d` is taken for a
request of `request` bytes. -/
def advance (request : ℕ) (x : List (List UInt8) × List UInt8) (d : List UInt8) :
    List (List UInt8) × List UInt8 :=
  if (pour request x.2 d).length = request then (x.1 ++ [pour request x.2 d], [])
  else (x.1, pour request x.2 d)

/-- The answers and the buffer after the packages `0`, …, `n - 1` are taken. -/
def progress (lens : List UInt64) (body : UInt32 → List UInt8) :
    ℕ → List (List UInt8) × List UInt8
  | 0 => ([], [])
  | n + 1 =>
    advance (lens.getD (progress lens body n).1.length 0).toNat (progress lens body n)
      (body (UInt32.ofNat n))

section Progress

variable (lens : List UInt64) (body : UInt32 → List UInt8)

/-- The number of answers after `n` packages. -/
def answered (n : ℕ) : ℕ := (progress lens body n).1.length

/-- The request that the package `n` is taken for. -/
def requestAt (n : ℕ) : ℕ := (lens.getD (answered lens body n) 0).toNat

variable {lens body}

lemma progress_succ (n : ℕ) :
    progress lens body (n + 1)
      = advance (requestAt lens body n) (progress lens body n) (body (UInt32.ofNat n)) := rfl

/-- More packages never mean fewer answers. -/
lemma progress_prefix {m n : ℕ} (h : m ≤ n) :
    (progress lens body m).1 <+: (progress lens body n).1 := by
  induction n, h using Nat.le_induction with
  | base => exact List.prefix_rfl
  | succ n _ ih =>
    refine ih.trans ?_
    rw [progress_succ, advance]
    split
    · exact List.prefix_append _ _
    · exact List.prefix_rfl

/-- The packages a pass takes for one request: before the last of them the request is not
full, and the answer, if there is one, comes with the last. -/
lemma progress_pour {n k : ℕ} {ds : List (List UInt8)}
    (hds : ds = (List.range k).map fun i => body (UInt32.ofNat (n + i))) (hk : 0 < k)
    (hroomy : Roomy (requestAt lens body n) (progress lens body n).2 ds) :
    (∀ i < k, (progress lens body (n + i)).1 = (progress lens body n).1) ∧
      progress lens body (n + k)
        = if (ds.foldl (pour (requestAt lens body n)) (progress lens body n).2).length
              = requestAt lens body n
          then ((progress lens body n).1
            ++ [ds.foldl (pour (requestAt lens body n)) (progress lens body n).2], [])
          else ((progress lens body n).1,
            ds.foldl (pour (requestAt lens body n)) (progress lens body n).2) := by
  induction k generalizing n ds with
  | zero => exact absurd hk (Nat.lt_irrefl 0)
  | succ k ih =>
    have hcons : ds = body (UInt32.ofNat n)
        :: (List.range k).map fun i => body (UInt32.ofNat (n + 1 + i)) := by
      rw [hds, List.range_succ_eq_map, List.map_cons, List.map_map]
      simp [Function.comp_def, Nat.add_assoc, Nat.add_comm 1]
    subst hcons
    rcases Nat.eq_zero_or_pos k with rfl | hk'
    · refine ⟨fun i hi => ?_, rfl⟩
      rw [Nat.lt_one_iff.mp hi, Nat.add_zero]
    · -- the request still has room after the first package, so nothing is answered yet
      obtain ⟨d, ds', hds'⟩ : ∃ d ds', ((List.range k).map fun i =>
          body (UInt32.ofNat (n + 1 + i))) = d :: ds' := by
        cases hmap : (List.range k).map fun i => body (UInt32.ofNat (n + 1 + i)) with
        | nil => simp [List.map_eq_nil_iff] at hmap; omega
        | cons d ds' => exact ⟨d, ds', rfl⟩
      have hopen := hroomy.2
      rw [hds'] at hopen
      have hnext : progress lens body (n + 1) = ((progress lens body n).1,
          pour (requestAt lens body n) (progress lens body n).2 (body (UInt32.ofNat n))) := by
        rw [progress_succ, advance, if_neg hopen.1.ne]
      have hrequest : requestAt lens body (n + 1) = requestAt lens body n := by
        rw [requestAt, answered, hnext]
        rfl
      obtain ⟨hsame, hlast⟩ := @ih (n + 1) _ rfl hk' (by
        rw [hrequest, hnext]
        exact hroomy.2)
      constructor
      · intro i hi
        cases i with
        | zero => rfl
        | succ i =>
          rw [Nat.add_comm i 1, ← Nat.add_assoc, hsame i (by omega), hnext]
      · rw [Nat.add_comm k 1, ← Nat.add_assoc, hlast, hrequest, hnext]
        rfl

end Progress

/-! ## One run -/

/-- The lengths of the `RECV` requests on session `s`, in order. -/
def requestsOn (s : UInt32) (es : List Event) : List UInt64 :=
  es.filterMap fun e =>
    match e with
    | .front _ (.RECV fd len) _ => if fd.toUInt32 = s then some len else none
    | _ => none

@[simp] lemma requestsOn_append (s : UInt32) (es es' : List Event) :
    requestsOn s (es ++ es') = requestsOn s es ++ requestsOn s es' := List.filterMap_append

/-- Every `RECV` on session `s` is issued once the session is accepted and the `RECV` before
it is answered. -/
def OneAtATime (s : UInt32) (es : List Event) : Prop :=
  Tcpd.machine.Along Tcpd.globalInit (fun t e => ∀ addr fd len sys,
    e = .front addr (.RECV fd len) sys → fd.toUInt32 = s →
      t.Accepted s ∧ ∀ a, t.sess s = some a → a.receivingLength = 0) es

/-- The session has taken `n` packages, and `requests` requests have been issued on it. -/
structure Follows (lens : List UInt64) (body : UInt32 → List UInt8) (requests : ℕ)
    (a : AckedSock) (replies : List (List UInt8)) (n : ℕ) : Prop where
  base : a.base = UInt32.ofNat n
  replied : replies = (progress lens body n).1
  buffered : a.buffered = (progress lens body n).2
  request :
    (a.receivingLength = 0 ∧ requests = answered lens body n) ∨
      (a.receivingLength ≠ 0 ∧ a.receivingLength = lens.getD (answered lens body n) 0 ∧
        requests = answered lens body n + 1)
  earlier : ∀ m < n, answered lens body m < requests

section Run

variable {lens : List UInt64} {body : UInt32 → List UInt8} {requests n : ℕ} {a a' : AckedSock}
  {replied : List (List UInt8)}

lemma follows_create (fd : Int32) (s : UInt32) :
    Follows lens body 0 (.create fd s) [] 0 where
  base := rfl
  replied := rfl
  buffered := by simp [AckedSock.create, AckedSock.buffered, progress]
  request := Or.inl ⟨rfl, rfl⟩
  earlier := by simp

/-- A frame does not change what is taken. -/
lemma Follows.place (h : Follows lens body requests a replied n) (m : TrollMessageStruct) :
    Follows lens body requests (a.place m) replied n := by
  rw [AckedSock.place_eq]
  exact ⟨h.base, h.replied, h.buffered, h.request, h.earlier⟩

/-- A pass takes packages for the pending request. -/
lemma Follows.passes (h : Follows lens body requests a replied n)
    {taken : List TrollMessageStruct} {replies : List (List UInt8)}
    (hp : a.Passes taken a' replies) (hopen : a.Open)
    (hq : a.QueueOk fun m => m.data = body m.seqNum) :
    Follows lens body requests a' (replied ++ replies) (n + taken.length) := by
  obtain ⟨hpending, hlen, hrequests⟩ := h.request.resolve_left fun hnone => by
    have hpos := hp.pending
    rw [AckedSock.request, hnone.1] at hpos
    exact absurd hpos (lt_irrefl 0)
  have hrequest : a.request = requestAt lens body n := by rw [AckedSock.request, hlen, requestAt]
  have hbase : a'.base = UInt32.ofNat (n + taken.length) := by
    rw [hp.base, h.base, UInt32.ofNat_add]
  rcases Nat.eq_zero_or_pos taken.length with hzero | hpos
  · -- nothing is taken, so nothing is answered: the request is not full
    have hnil := List.length_eq_zero_iff.mp hzero
    subst hnil
    rcases hp.outcome with ⟨-, rfl, hbuf, hrl, -⟩ | ⟨hfull, -⟩
    · exact ⟨hbase, by simpa using h.replied, hbuf.trans h.buffered, by simpa [hrl] using h.request,
        h.earlier⟩
    · exact absurd hfull (hp.length_buffered hopen).2.ne
  · have hds : taken.map (·.data)
        = (List.range taken.length).map fun i => body (UInt32.ofNat (n + i)) := by
      rw [hp.data_eq hq, h.base]
      simp [UInt32.ofNat_add]
    obtain ⟨hsame, hlast⟩ := progress_pour hds hpos (by
      rw [← hrequest, ← h.buffered]
      exact hp.roomy)
    rw [← hrequest, ← h.buffered] at hlast
    change progress lens body (n + taken.length)
      = if (a.poured taken).length = a.request then (_ ++ [a.poured taken], [])
        else (_, a.poured taken) at hlast
    have hearlier : ∀ m < n + taken.length, answered lens body m < requests := by
      intro m hm
      rcases lt_or_ge m n with hmn | hmn
      · exact h.earlier m hmn
      · have hm' := hsame (m - n) (by omega)
        rw [Nat.add_sub_cancel' hmn] at hm'
        rw [answered, hm', hrequests]
        exact Nat.lt_succ_self _
    rcases hp.outcome with ⟨hlt, rfl, hbuf, hrl, -⟩ | ⟨hfull, rfl, hbuf, hrl⟩
    · rw [if_neg hlt.ne] at hlast
      refine ⟨hbase, by rw [List.append_nil, hlast]; exact h.replied, by rw [hbuf, hlast], ?_,
        hearlier⟩
      have hans : answered lens body (n + taken.length) = answered lens body n := by
        rw [answered, hlast]
        rfl
      rw [hans, hrl]
      exact h.request
    · rw [if_pos hfull] at hlast
      refine ⟨hbase, by rw [hlast, h.replied], by rw [hbuf, hlast], Or.inl ⟨hrl, ?_⟩, hearlier⟩
      rw [hrequests, answered, answered, hlast, List.length_append, List.length_singleton]

/-- A recorded `RECV` becomes the pending request. -/
lemma Follows.request_next (h : Follows lens body requests a replied n)
    (hidle : a.receivingLength = 0) {len : UInt64} (hlen : lens[requests]? = some len)
    (hpos : len ≠ 0) (addr : SockaddrIn) :
    Follows lens body (requests + 1) { a with receivingLength := len, receivingAddr := addr }
      replied n := by
  have hrequests : requests = answered lens body n := by
    rcases h.request with ⟨-, hr⟩ | ⟨hne, -⟩
    · exact hr
    · exact absurd hidle hne
  refine ⟨h.base, h.replied, h.buffered, Or.inr ⟨hpos, ?_, by rw [hrequests]⟩, fun m hm =>
    Nat.lt_succ_of_lt (h.earlier m hm)⟩
  rw [← hrequests, List.getD_eq_getElem?_getD, hlen]
  rfl

end Run

/-- An event issues at most one request. -/
lemma requestsOn_singleton (s : UInt32) (e : Event) :
    requestsOn s [e] = [] ∨ ∃ addr fd len sys, e = .front addr (.RECV fd len) sys ∧
      fd.toUInt32 = s ∧ requestsOn s [e] = [len] := by
  cases e with
  | front addr r sys =>
    cases r with
    | RECV fd len =>
      by_cases hfd : fd.toUInt32 = s
      · exact Or.inr ⟨addr, fd, len, sys, rfl, hfd, by simp [requestsOn, hfd]⟩
      · exact Or.inl (by simp [requestsOn, hfd])
    | _ => exact Or.inl rfl
  | _ => exact Or.inl rfl

/-- What a run has done with session `s`. -/
structure Followed (s : UInt32) (P : TrollMessageStruct → Prop) (lens : List UInt64)
    (body : UInt32 → List UInt8) (es : List Event) (t : Tcpd) (os : List Out) : Prop where
  unaccepted : ¬ t.Accepted s → requestsOn s es = []
  absent : t.sess s = none → repliesTo s os = [] ∧ requestsOn s es = []
  present : ∀ a, t.sess s = some a → (∃ m, P m) ∧
    ∃ n, Follows lens body (requestsOn s es).length a (repliesTo s os) n ∧
      ((∀ m, P m → m.seqNum.toNat + 1 < 2 ^ 32) → n = a.base.toNat)

section Step

variable {s : UInt32} {P : TrollMessageStruct → Prop} {lens : List UInt64}
  {body : UInt32 → List UInt8} {es : List Event} {e : Event} {u t : Tcpd} {o o' : List Out}

/-- A request is only issued on an accepted session that is idle, and is not empty. -/
lemma requestsOn_of_idle (hlens : ∀ len ∈ lens, 0 < len)
    (hmem : ∀ len ∈ requestsOn s [e], len ∈ lens)
    (hidle : ∀ addr fd len sys, e = .front addr (.RECV fd len) sys → fd.toUInt32 = s →
      u.Accepted s ∧ ∀ a, u.sess s = some a → a.receivingLength = 0) :
    requestsOn s [e] = [] ∨ ∃ addr fd len sys, e = .front addr (.RECV fd len) sys ∧
      fd.toUInt32 = s ∧ requestsOn s [e] = [len] ∧ u.Accepted s ∧
        (∀ a, u.sess s = some a → a.receivingLength = 0) ∧ len ≠ 0 := by
  rcases requestsOn_singleton s e with hnil | ⟨addr, fd, len, sys, he, hfd, hreq⟩
  · exact Or.inl hnil
  · obtain ⟨haccepted, hfree⟩ := hidle addr fd len sys he hfd
    have hlen : len ∈ lens := hmem len (by rw [hreq]; simp)
    exact Or.inr ⟨addr, fd, len, sys, he, hfd, hreq, haccepted, hfree,
      UInt64.pos_iff_ne_zero.mp (hlens len hlen)⟩

/-- One more step makes the progress that `lens` and `body` determine. -/
theorem Followed.step (ih : Followed s P lens body es u o)
    (hP : ∀ m, P m → m.data = body m.seqNum) (hlens : ∀ len ∈ lens, 0 < len)
    (hrun : Tcpd.Run es u o) (hstep : u.step e = .ok (t, o'))
    (hall : FramesCarry s P (es ++ [e])) (hpre : requestsOn s es ++ requestsOn s [e] <+: lens)
    (hlast : ∀ addr fd len sys, e = .front addr (.RECV fd len) sys → fd.toUInt32 = s →
      u.Accepted s ∧ ∀ a, u.sess s = some a → a.receivingLength = 0) :
    Followed s P lens body (es ++ [e]) t (o ++ o') := by
  have hok := sessionsOk_of_run hrun
  have hqueue := queueOk_of_run hrun hall.left
  have hacc : ¬ t.Accepted s → ¬ u.Accepted s := mt (accepted_step hok hstep)
  have hsingle := requestsOn_of_idle hlens
    (fun len hlen => hpre.subset (List.mem_append_right _ hlen)) hlast
  have hunaccepted : ¬ t.Accepted s → requestsOn s (es ++ [e]) = [] := by
    intro hn
    rw [requestsOn_append, ih.unaccepted (hacc hn)]
    rcases hsingle with hnil | ⟨_, _, _, _, _, _, _, haccepted, _⟩
    · exact hnil
    · exact absurd haccepted (hacc hn)
  have hsess := sess_step hok hstep s
  refine ⟨hunaccepted, ?_, ?_⟩
  all_goals
    generalize hx : u.sess s = x at *
    generalize hx' : t.sess s = x' at *
    rw [repliesTo_append]
    generalize repliesTo s o' = r at *
  · rintro rfl
    cases hsess with
    | other hdata hrecv hpass =>
      obtain ⟨hreplies, hreq⟩ := ih.absent hx
      have hna : ¬ t.Accepted s := by
        intro hta
        obtain ⟨a, ha⟩ := Option.isSome_iff_exists.mp hta
        rw [sess_of_lookup ha] at hx'
        cases hx'
      exact ⟨by rw [hreplies]; rfl, hunaccepted hna⟩
  · rintro a rfl
    cases hsess with
    | arrive hvalid hs =>
      rename_i fd m remote
      have hm : P m := hall fd m remote (by simp) hvalid hs
      have hreq : requestsOn s (es ++ [.data fd m remote]) = requestsOn s es := by
        simp [requestsOn]
      rw [hreq, List.append_nil]
      refine ⟨⟨m, hm⟩, ?_⟩
      cases x with
      | none =>
        obtain ⟨hreplies, hnone⟩ := ih.absent hx
        rw [hreplies, hnone]
        refine ⟨0, (follows_create fd s).place m, fun _ => ?_⟩
        rw [Option.getD_none, AckedSock.place_eq]
        rfl
      | some a =>
        obtain ⟨-, n, hn, hexact⟩ := ih.present a hx
        refine ⟨n, hn.place m, fun hsmall => ?_⟩
        rw [Option.getD_some, AckedSock.place_eq]
        exact hexact hsmall
    | request hacc hs hlen hidle =>
      rename_i a addr fd len sys
      obtain ⟨hex, n, hn, hexact⟩ := ih.present a hx
      have hreq : requestsOn s [.front addr (.RECV fd len) sys] = [len] := by
        simp [requestsOn, hs]
      rw [requestsOn_append, hreq, List.append_nil, List.length_append, List.length_singleton]
      rw [hreq] at hpre
      have hget : lens[(requestsOn s es).length]? = some len := by
        obtain ⟨rest, rfl⟩ := hpre
        simp
      exact ⟨hex, n, hn.request_next hidle hget hlen addr, hexact⟩
    | pass hacc hp =>
      rename_i b taken
      obtain ⟨hex, n, hn, hexact⟩ := ih.present b hx
      have hreq : requestsOn s (es ++ [.recvBack]) = requestsOn s es := by simp [requestsOn]
      have hq := hqueue b rfl
      rw [hreq]
      refine ⟨hex, _, hn.passes hp (hok.isOpen s b hx)
        ⟨hq.sorted, hq.ahead, fun m hm => hP m (hq.all m hm)⟩, fun hsmall => ?_⟩
      rw [hp.toNat_base hq fun m hm => hsmall m (hq.all m ?_), hexact hsmall]
      rw [hp.packages]
      exact List.mem_append_left _ hm
    | other hdata hrecv hpass =>
      obtain ⟨hex, n, hn, hexact⟩ := ih.present a hx
      have hreq : requestsOn s [e] = [] := by
        rcases hsingle with hnil | ⟨addr, fd, len, sys, he, hfd, -, haccepted, hfree, hpos⟩
        · exact hnil
        · exfalso
          rcases hrecv addr fd len sys he hfd haccepted with hzero | ⟨b, hb, hbusy⟩
          · exact hpos hzero
          · exact hbusy (hfree b hb)
      rw [requestsOn_append, hreq, List.append_nil, List.append_nil]
      exact ⟨hex, n, hn, hexact⟩

/-- A run whose frames carry `body` and whose requests are those of `lens`, one at a time,
makes the progress that `lens` and `body` determine. -/
theorem followed_of_run (hP : ∀ m, P m → m.data = body m.seqNum)
    (hlens : ∀ len ∈ lens, 0 < len) {os : List Out} (h : Tcpd.Run es t os)
    (hframes : FramesCarry s P es) (hrequests : requestsOn s es <+: lens)
    (hone : OneAtATime s es) : Followed s P lens body es t os := by
  refine Tcpd.machine.exec_induction (motive := fun es t os =>
    FramesCarry s P es → requestsOn s es <+: lens → OneAtATime s es →
      Followed s P lens body es t os) ?_ ?_ h hframes hrequests hone
  · intro _ _ _
    refine ⟨fun _ => rfl, fun _ => ⟨rfl, rfl⟩, fun a ha => ?_⟩
    simp [Tcpd.globalInit, Tcpd.sess, entry] at ha
  · intro es u o e t o' hrun ih hstep hall hpre hones
    obtain ⟨hones, hlast⟩ := (Tcpd.machine.along_snoc hrun).mp hones
    rw [requestsOn_append] at hpre
    exact (ih hall.left ((List.prefix_append _ _).trans hpre) hones).step hP hlens hrun hstep hall
      hpre hlast

end Step

/-! ## Two runs -/

/-- What the receiver shows of a session: `Base`, what is left of the head package, the
pending request and the bytes that are buffered. -/
structure SessionView where
  base : UInt32
  head : Option (List UInt8)
  receivingLength : UInt64
  recvBufferSize : UInt64
  buffered : List UInt8
deriving DecidableEq

/-- The view of a session. -/
def AckedSock.view (a : AckedSock) : SessionView :=
  { base := a.base, head := a.packages.head?.map (·.data), receivingLength := a.receivingLength,
    recvBufferSize := a.recvBufferSize, buffered := a.buffered }

/-- A run on session `s` whose packages carry `body` and whose `RECV` lengths follow `lens`. -/
structure Scheduled (s : UInt32) (body : UInt32 → List UInt8) (lens : List UInt64)
    (es : List Event) (t : Tcpd) (os : List Out) : Prop where
  run : Tcpd.Run es t os
  frames : FramesCarry s (fun m => m.len.toNat ≤ BUF_LEN ∧ m.data = body m.seqNum) es
  requests : requestsOn s es <+: lens
  oneAtATime : OneAtATime s es

/-- The packages `0`, …, `n - 1` of session `s` have arrived and no later one has. -/
def Arrived (s n : UInt32) (es : List Event) : Prop :=
  FramesCarry s (fun m => m.seqNum < n) es ∧
    ∀ k < n, ∃ fd m remote, Event.data fd m remote ∈ es ∧ m.Valid ∧ m.session = s ∧ m.seqNum = k

/-- A receive pass has just ended. -/
def PassEnded (es : List Event) : Prop := ∃ pre, es = pre ++ [.recvBack]

section TwoRuns

variable {s : UInt32} {body : UInt32 → List UInt8} {lens : List UInt64}

/-- After a pass the request is answered, or the next package is not there. -/
lemma stop_of_recvBack {u t : Tcpd} {os : List Out} (hok : u.SessionsOk)
    (h : u.step .recvBack = .ok (t, os)) (hacc : u.Accepted s) {a : AckedSock}
    (ha : t.sess s = some a) :
    a.receivingLength = 0 ∨ ∀ m ∈ a.packages.head?, m.seqNum ≠ a.base := by
  have hsess := sess_step hok h s
  rw [ha] at hsess
  generalize hx : u.sess s = x at *
  generalize repliesTo s os = r at *
  cases hsess with
  | pass _ hp =>
    rcases hp.outcome with ⟨-, -, -, -, -, hhead⟩ | ⟨-, -, -, hzero⟩
    · exact Or.inr hhead
    · exact Or.inl hzero
  | other _ _ hpass =>
    obtain ⟨b, hb, hzero⟩ := hpass rfl hacc
    cases hb
    exact Or.inl hzero

/-- The answers of a run are those of some number of packages. -/
lemma Scheduled.replies {es : List Event} {t : Tcpd} {os : List Out}
    (h : Scheduled s body lens es t os) (hlens : ∀ len ∈ lens, 0 < len) :
    ∃ n, repliesTo s os = (progress lens body n).1 := by
  have hf := followed_of_run (fun _ hm => hm.2) hlens h.run h.frames h.requests h.oneAtATime
  cases hx : t.sess s with
  | none => exact ⟨0, (hf.absent hx).1⟩
  | some a =>
    obtain ⟨-, n, hn, -⟩ := hf.present a hx
    exact ⟨n, hn.replied⟩

/-- A session has not taken more packages than have arrived. -/
lemma base_le_of_run {n : UInt32} {es : List Event} {t : Tcpd} {os : List Out}
    (h : Tcpd.Run es t os) (hframes : FramesCarry s (fun m => m.seqNum < n) es) {a : AckedSock}
    (ha : t.sess s = some a) : a.base ≤ n := by
  refine Tcpd.machine.exec_induction
    (motive := fun es t _ => FramesCarry s (fun m => m.seqNum < n) es →
      ∀ a, t.sess s = some a → a.base ≤ n) ?_ ?_ h hframes a ha
  · intro _ a ha
    simp [Tcpd.globalInit, Tcpd.sess, entry] at ha
  · intro es u o e t o' hrun ih hstep hall a ha
    have hqueue := queueOk_of_run hrun hall.left
    specialize ih hall.left
    have hsess := sess_step (sessionsOk_of_run hrun) hstep s
    rw [ha] at hsess
    generalize hx : u.sess s = x at *
    generalize repliesTo s o' = r at *
    cases hsess with
    | arrive _ _ =>
      rw [AckedSock.place_eq]
      cases x with
      | none => exact UInt32.zero_le
      | some a => exact ih a rfl
    | @request b => exact ih b rfl
    | pass _ hp =>
      have hq := hqueue _ rfl
      refine hp.base_le hq (fun m hm => hq.all m ?_) (ih _ rfl)
      rw [hp.packages]
      exact List.mem_append_left _ hm
    | other _ _ _ => exact ih _ rfl

/-- Where a run stands after a pass, once the packages below `n` have arrived: it has taken as
many of them as its requests allow. -/
lemma Scheduled.settled {es : List Event} {t : Tcpd} {os : List Out}
    (h : Scheduled s body lens es t os) (hlens : ∀ len ∈ lens, 0 < len) {n : UInt32}
    (harrived : Arrived s n es) (hpass : PassEnded es) {a : AckedSock} (ha : t.sess s = some a) :
    0 < n ∧ Follows lens body (requestsOn s es).length a (repliesTo s os) a.base.toNat ∧
      a.base ≤ n ∧ a.Open ∧
      a.packages.head?.map (·.data) = (if a.base < n then some (body a.base) else none) ∧
      (a.base < n → a.receivingLength = 0) := by
  have hsmall : ∀ m : TrollMessageStruct,
      m.data = body m.seqNum ∧ m.seqNum < n → m.seqNum.toNat + 1 < 2 ^ 32 := by
    intro m hm
    have hlt := UInt32.lt_iff_toNat_lt.mp hm.2
    have hn := n.toNat_lt
    omega
  have hframes : FramesCarry s (fun m => m.data = body m.seqNum ∧ m.seqNum < n) es :=
    fun fd m remote hm hv hs => ⟨(h.frames fd m remote hm hv hs).2, harrived.1 fd m remote hm hv hs⟩
  have hf := followed_of_run (fun _ hm => hm.1) hlens h.run hframes h.requests h.oneAtATime
  obtain ⟨⟨m₀, -, hm₀⟩, taken, hfollows, hexact⟩ := hf.present a ha
  rw [hexact hsmall] at hfollows
  have hq := queueOk_of_run h.run hframes a ha
  have hpos : 0 < n := UInt32.lt_of_le_of_lt UInt32.zero_le hm₀
  -- the next package, when it has arrived, is at the head of the queue
  have hhead : a.base < n → ∃ m l, a.packages = m :: l ∧ m.seqNum = a.base := by
    intro hlt
    obtain ⟨fd, m, remote, hm, hv, hs, hseq⟩ := harrived.2 a.base hlt
    obtain ⟨b, hb, hrec⟩ := received_of_run hsmall h.run hframes hm hv hs
    rw [ha] at hb
    cases hb
    rw [hseq] at hrec
    obtain ⟨x, hx, hxseq⟩ := hrec.resolve_left (UInt32.lt_irrefl _)
    cases hl : a.packages with
    | nil => rw [hl] at hx; cases hx
    | cons y l =>
      refine ⟨y, l, rfl, ?_⟩
      rw [hl] at hx
      rcases List.mem_cons.mp hx with rfl | hx
      · exact hxseq
      · have hxy := List.rel_of_pairwise_cons (hl ▸ hq.sorted) hx
        have hay := hq.ahead y (by simp [hl])
        rw [hxseq] at hxy
        exact absurd hay (UInt32.not_le.mpr hxy)
  refine ⟨hpos, hfollows, base_le_of_run h.run harrived.1 ha,
    (sessionsOk_of_run h.run).isOpen s a ha, ?_, fun hlt => ?_⟩
  · split
    · rename_i hlt
      obtain ⟨m, l, hl, hseq⟩ := hhead hlt
      rw [hl, List.head?_cons, Option.map_some, (hq.all m (by simp [hl])).1, hseq]
    · rename_i hge
      cases hl : a.packages with
      | nil => rfl
      | cons m l =>
        have hmem : m ∈ a.packages := by simp [hl]
        exact absurd (UInt32.lt_of_le_of_lt (hq.ahead m hmem) (hq.all m hmem).2) hge
  · obtain ⟨pre, rfl⟩ := hpass
    obtain ⟨u, o, o', hrun, hstep, rfl⟩ := Tcpd.machine.exec_snoc.mp h.run
    have hpre : requestsOn s (pre ++ [.recvBack]) = requestsOn s pre := by simp [requestsOn]
    by_cases hacc : u.Accepted s
    · refine (stop_of_recvBack (sessionsOk_of_run hrun) hstep hacc ha).resolve_right fun hstop => ?_
      obtain ⟨m, l, hl, hseq⟩ := hhead hlt
      exact hstop m (by simp [hl]) hseq
    · have hnone := (followed_of_run (fun _ hm => hm.1) hlens hrun hframes.left
        ((List.prefix_append _ _).trans (requestsOn_append s pre _ ▸ h.requests))
        ((Tcpd.machine.along_snoc hrun).mp h.oneAtATime).1).unaccepted hacc
      rw [hpre, hnone] at hfollows
      rcases hfollows.request with ⟨hzero, -⟩ | ⟨-, -, hcount⟩
      · exact hzero
      · exact absurd hcount (by simp)

/-- The requests of a settled run tell how many packages it has taken. -/
lemma base_le_of_settled {requests : ℕ} {a₁ a₂ : AckedSock} {r₁ r₂ : List (List UInt8)}
    {n : UInt32} (h₁ : Follows lens body requests a₁ r₁ a₁.base.toNat)
    (h₂ : Follows lens body requests a₂ r₂ a₂.base.toNat) (hle : a₂.base ≤ n)
    (hidle : a₁.base < n → a₁.receivingLength = 0) : a₂.base ≤ a₁.base := by
  by_contra hlt
  have hlt' := UInt32.not_le.mp hlt
  have hearlier := h₂.earlier a₁.base.toNat (UInt32.lt_iff_toNat_lt.mp hlt')
  have hzero := hidle (UInt32.lt_of_lt_of_le hlt' hle)
  rcases h₁.request with ⟨-, hcount⟩ | ⟨hbusy, -⟩
  · exact absurd hcount hearlier.ne'
  · exact hbusy hzero

/-- A run in which no package below `0` has arrived has no entry for the session. -/
lemma Scheduled.sess_none {es : List Event} {t : Tcpd} {os : List Out}
    (h : Scheduled s body lens es t os) (hlens : ∀ len ∈ lens, 0 < len)
    (harrived : Arrived s 0 es) (hpass : PassEnded es) : t.sess s = none := by
  cases hx : t.sess s with
  | none => rfl
  | some a => exact absurd (h.settled hlens harrived hpass hx).1 (UInt32.lt_irrefl 0)

/-- A run in which package 0 has arrived has an entry for the session. -/
lemma Arrived.sess_some {n : UInt32} {es : List Event} {t : Tcpd} {os : List Out}
    (harrived : Arrived s n es) (h : Tcpd.Run es t os) (hpos : 0 < n) :
    ∃ a, t.sess s = some a := by
  obtain ⟨fd, m, remote, hm, hv, hs, -⟩ := harrived.2 0 hpos
  have hsmall : ∀ m : TrollMessageStruct, m.seqNum < n → m.seqNum.toNat + 1 < 2 ^ 32 := by
    intro m hm
    have hlt := UInt32.lt_iff_toNat_lt.mp hm
    have hn := n.toNat_lt
    omega
  obtain ⟨a, ha, -⟩ := received_of_run hsmall h harrived.1 hm hv hs
  exact ⟨a, ha⟩

/-- Two settled entries look the same. -/
lemma view_eq {requests : ℕ} {a₁ a₂ : AckedSock} {r₁ r₂ : List (List UInt8)} {n : UInt32}
    (hlens : ∀ len ∈ lens, 0 < len ∧ len.toNat ≤ BUF_LEN)
    (h₁ : Follows lens body requests a₁ r₁ a₁.base.toNat)
    (h₂ : Follows lens body requests a₂ r₂ a₂.base.toNat) (hbase : a₁.base = a₂.base)
    (hopen₁ : a₁.Open) (hopen₂ : a₂.Open)
    (hhead₁ : a₁.packages.head?.map (·.data) = if a₁.base < n then some (body a₁.base) else none)
    (hhead₂ : a₂.packages.head?.map (·.data) = if a₂.base < n then some (body a₂.base) else none) :
    a₁.view = a₂.view := by
  have hbuffered : a₁.buffered = a₂.buffered := by rw [h₁.buffered, h₂.buffered, hbase]
  have hrequest : a₁.receivingLength = a₂.receivingLength := by
    have hr₁ := h₁.request
    have hr₂ := h₂.request
    rw [hbase] at hr₁
    rcases hr₁ with ⟨hz₁, hc₁⟩ | ⟨-, hl₁, hc₁⟩ <;> rcases hr₂ with ⟨hz₂, hc₂⟩ | ⟨-, hl₂, hc₂⟩
    · rw [hz₁, hz₂]
    · omega
    · omega
    · rw [hl₁, hl₂]
  -- a request is never longer than the buffer, so the bytes in it are as many as its counter says
  have hsize : ∀ {a : AckedSock} {r : List (List UInt8)}, a.Open →
      Follows lens body requests a r a.base.toNat →
        a.buffered.length = a.recvBufferSize.toNat := by
    intro a r hopen hf
    refine AckedSock.length_buffered ?_
    rcases hopen with hlt | ⟨-, hzero⟩
    · have hlt' := UInt64.lt_iff_toNat_lt.mp hlt
      rcases hf.request with ⟨hz, -⟩ | ⟨hne, hlen, -⟩
      · rw [hz] at hlt'
        exact absurd hlt' (Nat.not_lt_zero _)
      · have hmem : a.receivingLength ∈ lens := by
          rw [hlen] at hne ⊢
          rw [List.getD_eq_getElem?_getD] at hne ⊢
          cases hget : lens[answered lens body a.base.toNat]? with
          | none => rw [hget] at hne; exact absurd rfl hne
          | some len => exact List.mem_of_getElem? hget
        have hle := (hlens _ hmem).2
        omega
    · simp [hzero]
  have hcount : a₁.recvBufferSize = a₂.recvBufferSize := by
    rw [← UInt64.toNat_inj, ← hsize hopen₁ h₁, ← hsize hopen₂ h₂, hbuffered]
  rw [AckedSock.view, AckedSock.view, hhead₁, hhead₂, hbase, hrequest, hcount, hbuffered]

/-- **Delivery does not depend on the network schedule.** Two runs of the daemon whose
packages of session `s` carry the same bodies and whose `RECV` lengths follow the same list
give the same answers, request by request. And when both have issued the same number of
requests, the same packages `0`, …, `n - 1` have arrived and a pass has just ended, the two
entries of the session look the same. -/
theorem delivery_schedule_independent (s : UInt32) (body : UInt32 → List UInt8)
    (lens : List UInt64) (hlens : ∀ len ∈ lens, 0 < len ∧ len.toNat ≤ BUF_LEN)
    (es₁ es₂ : List Event) (t₁ t₂ : Tcpd) (os₁ os₂ : List Out)
    (h₁ : Scheduled s body lens es₁ t₁ os₁) (h₂ : Scheduled s body lens es₂ t₂ os₂) :
    (∀ (k : ℕ) r₁ r₂, (repliesTo s os₁)[k]? = some r₁ → (repliesTo s os₂)[k]? = some r₂ →
      r₁ = r₂) ∧
    ((requestsOn s es₁).length = (requestsOn s es₂).length →
      ∀ n, Arrived s n es₁ → Arrived s n es₂ → PassEnded es₁ → PassEnded es₂ →
        (t₁.sess s).map AckedSock.view = (t₂.sess s).map AckedSock.view) := by
  have hpos : ∀ len ∈ lens, 0 < len := fun len hlen => (hlens len hlen).1
  constructor
  · intro k r₁ r₂ hr₁ hr₂
    obtain ⟨n₁, hn₁⟩ := h₁.replies hpos
    obtain ⟨n₂, hn₂⟩ := h₂.replies hpos
    rw [hn₁] at hr₁
    rw [hn₂] at hr₂
    -- both runs are at some point of one and the same progress, the shorter a prefix of the longer
    have hagree : ∀ {m n : ℕ} {r r' : List UInt8}, m ≤ n →
        (progress lens body m).1[k]? = some r → (progress lens body n).1[k]? = some r' →
          r = r' := by
      intro m n r r' hle hr hr'
      have hprefix : (progress lens body m).1 <+: (progress lens body n).1 := progress_prefix hle
      obtain ⟨rest, hrest⟩ := hprefix
      rw [← hrest, List.getElem?_append_left (List.getElem?_eq_some_iff.mp hr).1, hr] at hr'
      exact Option.some.inj hr'
    rcases le_total n₁ n₂ with hle | hle
    · exact hagree hle hr₁ hr₂
    · exact (hagree hle hr₂ hr₁).symm
  · intro hcount n ha₁ ha₂ hp₁ hp₂
    by_cases hn : n = 0
    · subst hn
      rw [h₁.sess_none hpos ha₁ hp₁, h₂.sess_none hpos ha₂ hp₂]
    · have hn' : 0 < n := UInt32.pos_iff_ne_zero.mpr hn
      obtain ⟨a₁, hx₁⟩ := ha₁.sess_some h₁.run hn'
      obtain ⟨a₂, hx₂⟩ := ha₂.sess_some h₂.run hn'
      obtain ⟨-, hf₁, hle₁, hopen₁, hhead₁, hidle₁⟩ := h₁.settled hpos ha₁ hp₁ hx₁
      obtain ⟨-, hf₂, hle₂, hopen₂, hhead₂, hidle₂⟩ := h₂.settled hpos ha₂ hp₂ hx₂
      rw [← hcount] at hf₂
      -- neither entry can be behind the other: it would have a package to take up
      have hbase : a₁.base = a₂.base := UInt32.le_antisymm
        (base_le_of_settled hf₂ hf₁ hle₁ hidle₂) (base_le_of_settled hf₁ hf₂ hle₂ hidle₁)
      rw [hx₁, hx₂, Option.map_some, Option.map_some,
        view_eq hlens hf₁ hf₂ hbase hopen₁ hopen₂ hhead₁ hhead₂]

end TwoRuns

/-! ## Two schedules of one package -/

/-- The package of `askOne` arrives after the `ACCEPT` and once more later. -/
def askTwice (len : UInt64) : List Event :=
  [.front default (.BIND 3 default) calmSys, .front default (.ACCEPT 3) calmSys,
    .data 3 frame123 default, .ackBack, .data 3 frame123 default] ++ [askFor len]

/-- Events without a `RECV` on `s` issue no request too early. -/
lemma oneAtATime_of_requestsOn_nil {s : UInt32} {es : List Event} (h : requestsOn s es = []) :
    OneAtATime s es := by
  rintro pre e post u o rfl - addr fd len sys rfl hfd
  simp [requestsOn, hfd] at h

/-- No other frame is among the events. -/
def OnlyFrame123 (es : List Event) : Prop :=
  ∀ fd m remote, Event.data fd m remote ∈ es → m = frame123

/-- A request on the one session of `oneState`, and a pass, after a run without requests. -/
lemma scheduled_frame123 {es : List Event} {os : List Out} (body : UInt32 → List UInt8)
    (hbody : body 0 = [1, 2, 3]) (h : Tcpd.Run es (oneState frame123 0) os)
    (hnone : requestsOn 7 es = []) (hdata : OnlyFrame123 es) :
    ∃ t os, Scheduled 7 body [3] (es ++ [askFor 3] ++ [.recvBack]) t os := by
  have hask : Tcpd.Run (es ++ [askFor 3]) (oneState frame123 3) (os ++ []) :=
    Tcpd.machine.exec_snoc.mpr ⟨_, _, _, h, step_askFor (by decide), rfl⟩
  obtain ⟨r, hr⟩ := recvBack_frame123 (show (3 : UInt64).toNat ≤ BUF_LEN by decide)
  have hlook := lookup_oneState frame123 0 7
  rw [if_pos rfl] at hlook
  have hfd : Int32.toUInt32 7 = 7 := rfl
  refine ⟨r.1, _, Tcpd.machine.exec_snoc.mpr ⟨_, _, r.2, hask, hr, rfl⟩, ?_, ?_, ?_⟩
  · intro fd m remote hm _ _
    obtain rfl : m = frame123 := hdata fd m remote (by simpa [askFor] using hm)
    refine ⟨?_, ?_⟩
    · rw [frame123, TrollMessageStruct.toNat_len_ofBytes]
      decide
    · rw [show frame123.seqNum = 0 from rfl, hbody, frame123, TrollMessageStruct.data_ofBytes]
      rfl
  · rw [requestsOn_append, requestsOn_append, hnone]
    simp [requestsOn, askFor, hfd]
  · refine (Tcpd.machine.along_snoc hask).mpr ⟨(Tcpd.machine.along_snoc h).mpr
      ⟨oneAtATime_of_requestsOn_nil hnone, ?_⟩, by simp⟩
    intro addr fd len sys _ _
    refine ⟨by rw [Tcpd.Accepted, hlook]; rfl, fun a ha => ?_⟩
    rw [sess_of_lookup hlook] at ha
    cases ha
    rfl

/-- The package arrives once before the `ACCEPT`, or twice after it: the session looks the same
after the pass. -/
theorem delivery_schedule_independent_frame123 :
    ∃ t₁ os₁ t₂ os₂, Tcpd.Run (askOne 3 ++ [.recvBack]) t₁ os₁ ∧
      Tcpd.Run (askTwice 3 ++ [.recvBack]) t₂ os₂ ∧
        (t₁.sess 7).map AckedSock.view = (t₂.sess 7).map AckedSock.view := by
  have hvalid : frame123.Valid := TrollMessageStruct.valid_sealed _
  have htwice : ∀ {m : TrollMessageStruct}, m.Valid → m.session = 7 → Tcpd.Run
      [.front default (.BIND 3 default) calmSys, .front default (.ACCEPT 3) calmSys,
        .data 3 m default, .ackBack, .data 3 m default] (oneState m 0)
      [.code default 0, .ack 3 (makeAck m default), .accepted default 3 7,
        .ack 3 (makeAck m default)] := by
    intro m hvalid hsession
    simp [Tcpd.Run, Tcpd.machine, Machine.exec, calmSys, Tcpd.step, Tcpd.globalInit, Tcpd.serve,
      tcpdBind, recvData_of_valid hvalid, hsession, MAX_BUFFER_PACKAGES, placeWaiting,
      AckedSock.place, insertPackage, AckedSock.create, tcpdAccept, acceptLoop, handleAckBack,
      handOver, oneState, oneSock]
  have honly₁ : OnlyFrame123 (acceptOne frame123 ++ [askFor 3] ++ [.recvBack]) := by
    intro fd m remote hm
    simp [acceptOne, askFor] at hm
    exact hm.2.1
  have honly₂ : OnlyFrame123 (askTwice 3 ++ [.recvBack]) := by
    intro fd m remote hm
    simp [askTwice, askFor] at hm
    exact hm.2.1
  have hleft : ∀ {es es' : List Event}, OnlyFrame123 (es ++ es') → OnlyFrame123 es :=
    fun h fd m remote hm => h fd m remote (List.mem_append_left _ hm)
  obtain ⟨t₁, os₁, h₁⟩ := scheduled_frame123 (fun _ => [1, 2, 3]) rfl
    (run_acceptOne hvalid rfl) rfl (hleft (hleft honly₁))
  obtain ⟨t₂, os₂, h₂⟩ := scheduled_frame123 (fun _ => [1, 2, 3]) rfl
    (htwice hvalid rfl) rfl (hleft (hleft honly₂))
  refine ⟨t₁, os₁, t₂, os₂, h₁.run, h₂.run, ?_⟩
  have harrived : ∀ {es : List Event}, .data 3 frame123 default ∈ es → OnlyFrame123 es →
      Arrived 7 1 es := by
    intro es hmem hall
    refine ⟨fun fd m remote hm _ _ => ?_, fun k hk => ⟨3, frame123, default, hmem, hvalid, rfl, ?_⟩⟩
    · rw [hall fd m remote hm]
      decide
    · have hk' := UInt32.lt_iff_toNat_lt.mp hk
      exact UInt32.toNat_inj.mp (show 0 = k.toNat by simp at hk'; omega)
  have hmem₁ : .data 3 frame123 default ∈ acceptOne frame123 ++ [askFor 3] ++ [.recvBack] := by
    simp [acceptOne]
  have hmem₂ : .data 3 frame123 default ∈ askTwice 3 ++ [.recvBack] := by
    apply List.mem_append_left
    apply List.mem_append_left
    exact List.mem_cons_of_mem _ (List.mem_cons_of_mem _ List.mem_cons_self)
  have hlens : ∀ len ∈ [(3 : UInt64)], 0 < len ∧ len.toNat ≤ BUF_LEN := by
    intro len hlen
    rw [List.mem_singleton.mp hlen]
    exact ⟨by decide, by decide⟩
  exact (delivery_schedule_independent 7 (fun _ => [1, 2, 3]) [3] hlens _ _ t₁ t₂ os₁ os₂
    h₁ h₂).2 rfl 1 (harrived hmem₁ honly₁) (harrived hmem₂ honly₂)
    ⟨askOne 3, rfl⟩ ⟨askTwice 3, rfl⟩

end NetworkProgramming
