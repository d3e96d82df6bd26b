import NetworkProgramming.Final.TcpdServer

/-!
# What the reassembly loop does

The loop of `handle_recv_back` takes packages from the head of the queue as long as the next
number is there and the request has room. A package that fits is taken whole. One that does
not fit loses `room` bytes at a time until the rest fits, and only that last piece reaches the
answer: the bytes copied before are overwritten, since `RecvBufferSize` stays where it is.

`Fills a taken b` says this about a whole run of the loop, and `recvBack_ok` about one
iteration of `handle_recv_back`.
-/

namespace NetworkProgramming

/-! ## Pieces -/

/-- What is left of `d` when `room` bytes are cut off its front until the rest fits. -/
def lastPiece (room : ℕ) (d : List UInt8) : List UInt8 :=
  if _h : 0 < room ∧ room < d.length then lastPiece room (d.drop room) else d
termination_by d.length
decreasing_by simp; omega

lemma lastPiece_of_le {room : ℕ} {d : List UInt8} (h : d.length ≤ room) :
    lastPiece room d = d := by
  rw [lastPiece, dif_neg]
  omega

lemma lastPiece_of_lt {room : ℕ} {d : List UInt8} (hroom : 0 < room) (h : room < d.length) :
    lastPiece room d = lastPiece room (d.drop room) := by
  rw [lastPiece, dif_pos ⟨hroom, h⟩]

lemma length_lastPiece_le {room : ℕ} (hroom : 0 < room) (d : List UInt8) :
    (lastPiece room d).length ≤ room := by
  induction d using lastPiece.induct room with
  | case1 d h ih => rwa [lastPiece_of_lt h.1 h.2]
  | case2 d h =>
    have hle : d.length ≤ room := by omega
    rwa [lastPiece_of_le hle]

lemma length_lastPiece_lt {room : ℕ} {d : List UInt8} (hroom : 0 < room) (h : room < d.length) :
    (lastPiece room d).length < d.length :=
  (length_lastPiece_le hroom d).trans_lt h

/-- The bytes in the buffer after one more package with data `d`. -/
def pour (request : ℕ) (p d : List UInt8) : List UInt8 :=
  p ++ lastPiece (request - p.length) d

/-- The request is not full when the loop takes the first of `ds`, nor the next, and so on. -/
def Roomy (request : ℕ) (p : List UInt8) : List (List UInt8) → Prop
  | [] => True
  | d :: ds => p.length < request ∧ Roomy request (pour request p d) ds

lemma length_pour_le {request : ℕ} {p : List UInt8} (h : p.length < request) (d : List UInt8) :
    (pour request p d).length ≤ request := by
  have hpiece := length_lastPiece_le (Nat.sub_pos_of_lt h) d
  rw [pour, List.length_append]
  omega

/-- `l` carries the numbers `base`, `base + 1`, … -/
def Consecutive (base : UInt32) : List TrollMessageStruct → Prop
  | [] => True
  | m :: l => m.seqNum = base ∧ Consecutive (base + 1) l

lemma TrollMessageStruct.length_data {m : TrollMessageStruct} (h : m.len.toNat ≤ BUF_LEN) :
    m.data.length = m.len.toNat := by
  simpa [TrollMessageStruct.data] using h

namespace AckedSock

/-- The first `RecvBufferSize` bytes of `RecvBuffer`. -/
def buffered (a : AckedSock) : List UInt8 := a.recvBuffer.toList.take a.recvBufferSize.toNat

/-- The length of the pending request, or `0`. -/
def request (a : AckedSock) : ℕ := a.receivingLength.toNat

/-- The loop has taken `taken` from the queue of `a` and stopped in `b`. -/
structure Fills (a : AckedSock) (taken : List TrollMessageStruct) (b : AckedSock) : Prop where
  packages : a.packages = taken ++ b.packages
  consecutive : Consecutive a.base taken
  base : b.base = a.base + UInt32.ofNat taken.length
  session : b.session = a.session
  length : b.receivingLength = a.receivingLength
  addr : b.receivingAddr = a.receivingAddr
  socketFD : b.socketFD = a.socketFD
  buffered : b.buffered = (taken.map (·.data)).foldl (pour a.request) a.buffered
  size : b.buffered.length = b.recvBufferSize.toNat
  roomy : Roomy a.request a.buffered (taken.map (·.data))
  stop : b.receivingLength ≤ b.recvBufferSize ∨ ∀ m ∈ b.packages.head?, m.seqNum ≠ b.base

/-! ## One round -/

lemma fillBody_leave {a : AckedSock} (h : a.fillBody = .leave) :
    a.receivingLength ≤ a.recvBufferSize ∨ ∀ m ∈ a.packages.head?, m.seqNum ≠ a.base := by
  unfold fillBody at h
  split at h
  · split at h
    · rename_i hl
      simp [hl]
    · rename_i now l hl
      split at h
      · rename_i hne
        right
        simpa [hl] using hne
      · split at h <;> cases h
  · rename_i hroom
    exact Or.inl (UInt64.not_lt.mp hroom)

lemma fillBody_again {a a' : AckedSock} (h : a.fillBody = .again a') :
    a.recvBufferSize < a.receivingLength ∧ ∃ now l, a.packages = now :: l ∧
      now.seqNum = a.base ∧
      ((a.recvBufferSize + now.len ≤ a.receivingLength ∧ a.consume now l = some a') ∨
        (¬ a.recvBufferSize + now.len ≤ a.receivingLength ∧ a.split now l = some a')) := by
  unfold fillBody at h
  split at h
  · rename_i hroom
    split at h
    · cases h
    · rename_i now l hl
      split at h
      · cases h
      · rename_i heq
        split at h
        · cases h
        · rename_i a'' hround
          cases h
          refine ⟨hroom, now, l, hl, not_not.mp heq, ?_⟩
          split at hround
          · rename_i hfit
            exact Or.inl ⟨hfit, hround⟩
          · rename_i hfit
            exact Or.inr ⟨hfit, hround⟩
  · cases h

/-- A package that fits adds its data to the buffer. -/
lemma consume_eq {a a' : AckedSock} {now : TrollMessageStruct} {l : List TrollMessageStruct}
    (h : a.consume now l = some a') :
    now.len.toNat ≤ BUF_LEN ∧ a.recvBufferSize.toNat + now.len.toNat ≤ BUF_LEN ∧
      a'.buffered = a.buffered ++ now.data ∧
      a' = { a with recvBuffer := a'.recvBuffer, recvBufferSize := a.recvBufferSize + now.len,
                    packages := l, base := a.base + 1 } := by
  simp only [consume, bind, Option.bind_eq_some_iff, pure, Option.some.injEq] at h
  obtain ⟨bytes, hread, recvBuffer, hwrite, rfl⟩ := h
  obtain ⟨hlen, rfl⟩ := Buffer.read?_eq_some.mp hread
  obtain ⟨hfit, rfl⟩ := Buffer.write?_eq_some.mp hwrite
  have hdata : ((now.body.toList.drop 0).take now.len.toNat).length = now.len.toNat := by
    simp at hlen ⊢; omega
  have hlen' : now.len.toNat ≤ BUF_LEN := by omega
  have hsum : a.recvBufferSize.toNat + now.len.toNat ≤ BUF_LEN := by omega
  have hsize : (a.recvBufferSize + now.len).toNat = a.recvBufferSize.toNat + now.len.toNat := by
    rw [UInt64.toNat_add, Nat.mod_eq_of_lt]
    simp only [BUF_LEN] at hsum
    omega
  refine ⟨hlen', hsum, ?_, rfl⟩
  rw [buffered, hsize, Buffer.take_write hfit (by rw [hdata])]
  rfl

/-- A package that does not fit loses as many bytes as the request has room for. -/
lemma split_eq {a a' : AckedSock} {now : TrollMessageStruct} {l : List TrollMessageStruct}
    (hroom : a.recvBufferSize < a.receivingLength)
    (hfit : ¬ a.recvBufferSize + now.len ≤ a.receivingLength) (h : a.split now l = some a') :
    now.len.toNat ≤ BUF_LEN ∧ a'.buffered = a.buffered ∧ ∃ now',
      now'.seqNum = now.seqNum ∧ now'.len.toNat ≤ BUF_LEN ∧
      now'.data = now.data.drop (a.request - a.recvBufferSize.toNat) ∧
      a' = { a with recvBuffer := a'.recvBuffer, packages := now' :: l } := by
  obtain ⟨hremain, hlt, hrest⟩ := remainSize_lt hroom hfit
  simp only [split, bind, Option.bind_eq_some_iff, pure, Option.some.injEq] at h
  obtain ⟨bytes, -, recvBuffer, hwrite, rest, hread, body, hmove, rfl⟩ := h
  obtain ⟨hinside, rfl⟩ := Buffer.write?_eq_some.mp hwrite
  obtain ⟨hlen, rfl⟩ := Buffer.read?_eq_some.mp hread
  obtain ⟨hfront, rfl⟩ := Buffer.write?_eq_some.mp hmove
  rw [hrest, hremain] at hlen
  have hroom' := UInt64.lt_iff_toNat_lt.mp hroom
  have hlen' : now.len.toNat ≤ BUF_LEN := by omega
  refine ⟨hlen', Buffer.take_write_of_le hinside le_rfl,
    { now with body := now.body.write 0 _ hfront,
               len := now.len - (a.receivingLength - a.recvBufferSize) }, rfl, ?_, ?_, rfl⟩
  · show (now.len - (a.receivingLength - a.recvBufferSize)).toNat ≤ BUF_LEN
    omega
  · have hkeep : ((now.body.toList.drop (a.receivingLength - a.recvBufferSize).toNat).take
        (now.len - (a.receivingLength - a.recvBufferSize)).toNat).length
        = (now.len - (a.receivingLength - a.recvBufferSize)).toNat := by
      simp only [List.length_take, List.length_drop, List.Vector.toList_length]
      omega
    show (now.body.write 0 _ hfront).toList.take _ = _
    rw [Buffer.take_write hfront (by rw [hkeep, Nat.zero_add])]
    simp only [List.take_zero, List.nil_append, TrollMessageStruct.data, hrest, hremain, request,
      List.drop_take]

/-! ## The whole loop -/

lemma ofNat_length_cons (n : ℕ) (base : UInt32) :
    base + 1 + UInt32.ofNat n = base + UInt32.ofNat (n + 1) := by
  rw [UInt32.ofNat_add, UInt32.add_assoc, UInt32.add_comm 1]
  rfl

lemma fills_leave {a : AckedSock} (hsize : a.recvBufferSize.toNat ≤ BUF_LEN)
    (h : a.fillBody = .leave) : Fills a [] a where
  packages := rfl
  consecutive := trivial
  base := by simp
  session := rfl
  length := rfl
  addr := rfl
  socketFD := rfl
  buffered := rfl
  size := by simpa [AckedSock.buffered] using hsize
  roomy := trivial
  stop := fillBody_leave h

lemma length_buffered {a : AckedSock} (hsize : a.recvBufferSize.toNat ≤ BUF_LEN) :
    a.buffered.length = a.recvBufferSize.toNat := by
  simpa [AckedSock.buffered] using hsize

/-- A round that takes the head package, before a run of the loop. -/
lemma Fills.consume {a a' b : AckedSock} {now : TrollMessageStruct}
    {l taken : List TrollMessageStruct} (hsize : a.recvBufferSize.toNat ≤ BUF_LEN)
    (hroom : a.recvBufferSize < a.receivingLength) (hl : a.packages = now :: l)
    (hbase : now.seqNum = a.base) (hfit : a.recvBufferSize + now.len ≤ a.receivingLength)
    (h : a.consume now l = some a') (hb : Fills a' taken b) : Fills a (now :: taken) b := by
  obtain ⟨hlen, hsum, hbuf, ha'⟩ := consume_eq h
  have hroom' := UInt64.lt_iff_toNat_lt.mp hroom
  have hfit' : a.recvBufferSize.toNat + now.len.toNat ≤ a.request := by
    have hle := UInt64.le_iff_toNat_le.mp hfit
    rwa [UInt64.toNat_add, Nat.mod_eq_of_lt] at hle
    simp only [BUF_LEN] at hsum
    omega
  have hpour : pour a.request a.buffered now.data = a'.buffered := by
    rw [pour, hbuf, lastPiece_of_le]
    rw [length_buffered hsize, TrollMessageStruct.length_data hlen]
    omega
  have hreq : a'.request = a.request := by rw [ha']; rfl
  have hbase' : a'.base = a.base + 1 := by rw [ha']
  refine ⟨?_, ⟨hbase, ?_⟩, ?_, ?_, ?_, ?_, ?_, ?_, hb.size, ⟨?_, ?_⟩, hb.stop⟩
  · rw [hl, List.cons_append, ← hb.packages, ha']
  · rw [← hbase']
    exact hb.consecutive
  · rw [hb.base, hbase', List.length_cons]
    exact ofNat_length_cons _ _
  · rw [hb.session, ha']
  · rw [hb.length, ha']
  · rw [hb.addr, ha']
  · rw [hb.socketFD, ha']
  · rw [hb.buffered, hreq, List.map_cons, List.foldl_cons, hpour]
  · rw [length_buffered hsize]
    exact hroom'
  · rw [hpour, ← hreq]
    exact hb.roomy

/-- A round that splits the head package, before a run of the loop. -/
lemma Fills.split {a a' b : AckedSock} {now : TrollMessageStruct}
    {l taken : List TrollMessageStruct} (hsize : a.recvBufferSize.toNat ≤ BUF_LEN)
    (hroom : a.recvBufferSize < a.receivingLength) (hl : a.packages = now :: l)
    (hbase : now.seqNum = a.base) (hfit : ¬ a.recvBufferSize + now.len ≤ a.receivingLength)
    (h : a.split now l = some a') (hb : Fills a' taken b) : ∃ taken, Fills a taken b := by
  obtain ⟨hlen, hbuf, now', hseq, hlen', hdata, ha'⟩ := split_eq hroom hfit h
  have hroom' := UInt64.lt_iff_toNat_lt.mp hroom
  obtain ⟨hremain, hlt, -⟩ := remainSize_lt hroom hfit
  have hreq : a'.request = a.request := by rw [ha']; rfl
  have hbase' : a'.base = a.base := by rw [ha']
  cases taken with
  | nil =>
    -- the loop cannot stop here: the request has room and the head has the next number
    exfalso
    rcases hb.stop with hfull | hhead
    · have hbsize := hb.size
      rw [hb.buffered, List.map_nil, List.foldl_nil, hbuf, length_buffered hsize] at hbsize
      rw [hb.length, UInt64.le_iff_toNat_le, ← hbsize, ha'] at hfull
      exact absurd hfull (not_le.mpr hroom')
    · have hpk : b.packages = now' :: l := by
        rw [← List.nil_append b.packages, ← hb.packages, ha']
      apply hhead now' (by simp [hpk])
      rw [hseq, hbase, hb.base, hbase']
      simp
  | cons m taken =>
    have hpk : now' :: l = m :: (taken ++ b.packages) := by
      rw [← List.cons_append, ← hb.packages, ha']
    obtain ⟨rfl, hl'⟩ := List.cons.inj hpk
    have hpour : pour a.request a.buffered now'.data = pour a.request a.buffered now.data := by
      rw [pour, pour, hdata, length_buffered hsize, ← lastPiece_of_lt]
      · exact Nat.sub_pos_of_lt hroom'
      · rw [TrollMessageStruct.length_data hlen, request]
        omega
    refine ⟨now :: taken, ?_, ⟨hbase, ?_⟩, ?_, ?_, ?_, ?_, ?_, ?_, hb.size, ⟨?_, ?_⟩, hb.stop⟩
    · rw [hl, hl', List.cons_append]
    · rw [← hbase']
      exact hb.consecutive.2
    · rw [hb.base, hbase', List.length_cons, List.length_cons]
    · rw [hb.session, ha']
    · rw [hb.length, ha']
    · rw [hb.addr, ha']
    · rw [hb.socketFD, ha']
    · rw [hb.buffered, hreq, hbuf, List.map_cons, List.foldl_cons, hpour, List.map_cons,
        List.foldl_cons]
    · rw [length_buffered hsize]
      exact hroom'
    · have hroomy := hb.roomy.2
      rwa [hreq, hbuf, hpour] at hroomy

/-- Whatever the loop does, it takes packages with consecutive numbers from the head of the
queue and pours their data into the buffer. -/
theorem fills_of_run {a b : AckedSock} (hsize : a.recvBufferSize.toNat ≤ BUF_LEN)
    (h : fillLoop.run a = .ok b) : ∃ taken, Fills a taken b := by
  induction a using Loop.run.induct fillLoop with
  | case1 a hleave =>
    rw [fillLoop.run_of_leave hleave] at h
    cases h
    exact ⟨[], fills_leave hsize hleave⟩
  | case2 a x hfail => simp [fillLoop.run_of_fail hfail] at h
  | case3 a a' hagain ih =>
    rw [fillLoop.run_of_again hagain] at h
    obtain ⟨hroom, now, l, hl, hbase, hround⟩ := fillBody_again hagain
    rcases hround with ⟨hfit, hround⟩ | ⟨hfit, hround⟩
    · obtain ⟨-, hsum, -, ha'⟩ := consume_eq hround
      have hsize' : a'.recvBufferSize.toNat ≤ BUF_LEN := by
        rw [ha']
        show (a.recvBufferSize + now.len).toNat ≤ BUF_LEN
        rw [UInt64.toNat_add]
        exact (Nat.mod_le _ _).trans hsum
      obtain ⟨taken, hb⟩ := ih hsize' h
      exact ⟨_, hb.consume hsize hroom hl hbase hfit hround⟩
    · obtain ⟨-, -, now', -, -, -, ha'⟩ := split_eq hroom hfit hround
      have hsize' : a'.recvBufferSize.toNat ≤ BUF_LEN := by rw [ha']; exact hsize
      obtain ⟨taken, hb⟩ := ih hsize' h
      exact hb.split hsize hroom hl hbase hfit hround

/-! ## One iteration of `handle_recv_back` -/

/-- A pending request is not full yet, and without a request the buffer is empty. -/
def Open (a : AckedSock) : Prop :=
  a.recvBufferSize < a.receivingLength ∨ (a.receivingLength = 0 ∧ a.recvBufferSize = 0)

/-- The bytes in the buffer once the packages `taken` are poured in. -/
def poured (a : AckedSock) (taken : List TrollMessageStruct) : List UInt8 :=
  (taken.map (·.data)).foldl (pour a.request) a.buffered

/-- A pass over a pending request has taken `taken`, left `a'` and sent `replies`. -/
structure Passes (a : AckedSock) (taken : List TrollMessageStruct) (a' : AckedSock)
    (replies : List (List UInt8)) : Prop where
  pending : 0 < a.request
  small : a.request ≤ BUF_LEN
  packages : a.packages = taken ++ a'.packages
  consecutive : Consecutive a.base taken
  base : a'.base = a.base + UInt32.ofNat taken.length
  session : a'.session = a.session
  socketFD : a'.socketFD = a.socketFD
  roomy : Roomy a.request a.buffered (taken.map (·.data))
  isOpen : a'.Open
  outcome :
    ((a.poured taken).length < a.request ∧ replies = [] ∧ a'.buffered = a.poured taken ∧
      a'.receivingLength = a.receivingLength ∧ a'.receivingAddr = a.receivingAddr ∧
      ∀ m ∈ a'.packages.head?, m.seqNum ≠ a'.base) ∨
    ((a.poured taken).length = a.request ∧ replies = [a.poured taken] ∧ a'.buffered = [] ∧
      a'.receivingLength = 0)

lemma Passes.length_buffered {a a' : AckedSock} {taken : List TrollMessageStruct}
    {replies : List (List UInt8)} (hp : a.Passes taken a' replies) (hopen : a.Open) :
    a.buffered.length = a.recvBufferSize.toNat ∧ a.buffered.length < a.request := by
  have hsmall := hp.small
  have hpending := hp.pending
  rcases hopen with hlt | ⟨hzero, -⟩
  · have hlt' := UInt64.lt_iff_toNat_lt.mp hlt
    rw [request] at hsmall ⊢
    rw [AckedSock.length_buffered (by omega)]
    exact ⟨rfl, hlt'⟩
  · rw [request, hzero] at hpending
    exact absurd hpending (lt_irrefl 0)

lemma length_foldl_pour_le {request : ℕ} {p : List UInt8} {ds : List (List UInt8)}
    (hp : p.length ≤ request) (h : Roomy request p ds) :
    (ds.foldl (pour request) p).length ≤ request := by
  induction ds generalizing p with
  | nil => exact hp
  | cons d ds ih => exact ih (length_pour_le h.1 d) h.2

/-- What one iteration of `handle_recv_back` does to a session. -/
theorem recvBack_ok {a a' : AckedSock} {os : List Out} (hopen : a.Open)
    (h : a.recvBack = .ok (a', os)) :
    (a.receivingLength = 0 ∧ a' = a ∧ os = []) ∨
      ∃ taken replies, Passes a taken a' replies ∧
        os = replies.map (Out.data a.receivingAddr a.session) := by
  unfold recvBack at h
  split at h
  · rename_i hnone
    cases h
    exact Or.inl ⟨hnone, rfl, rfl⟩
  rename_i hsome
  have hroom : a.recvBufferSize < a.receivingLength := hopen.resolve_right fun h' => hsome h'.1
  have hroom' := UInt64.lt_iff_toNat_lt.mp hroom
  split at h
  · cases h
  rename_i hsmall
  have hsmall' : a.request ≤ BUF_LEN := not_lt.mp hsmall
  have hsize : a.recvBufferSize.toNat ≤ BUF_LEN := hroom'.le.trans hsmall'
  split at h
  · cases h
  rename_i b hrun
  obtain ⟨taken, hb⟩ := fills_of_run hsize hrun
  have hpoured : b.buffered = a.poured taken := hb.buffered
  -- the loop never takes more than is asked for, so the answer is full or still wanting
  have hle : b.recvBufferSize.toNat ≤ a.request := by
    rw [← hb.size, hb.buffered]
    exact length_foldl_pour_le ((length_buffered hsize).trans_le hroom'.le) hb.roomy
  right
  split at h
  · rename_i hfull
    cases h
    have hlen : (a.poured taken).length = a.request := by
      rw [← hpoured, hb.size, hfull, hb.length, request]
    refine ⟨taken, [a.poured taken], ⟨Nat.zero_lt_of_lt hroom', hsmall', hb.packages,
      hb.consecutive, hb.base, hb.session, hb.socketFD, hb.roomy, Or.inr ⟨rfl, rfl⟩,
      Or.inr ⟨hlen, rfl, by simp [AckedSock.buffered], rfl⟩⟩, ?_⟩
    rw [List.map_singleton, ← hpoured, hb.addr, hb.session]
    rfl
  · rename_i hfull
    cases h
    have hne : a'.recvBufferSize.toNat ≠ a'.receivingLength.toNat := fun heq =>
      hfull (UInt64.toNat_inj.mp heq)
    have hlt : a'.recvBufferSize.toNat < a'.receivingLength.toNat := by
      rw [hb.length] at hne ⊢
      exact lt_of_le_of_ne hle hne
    refine ⟨taken, [], ⟨Nat.zero_lt_of_lt hroom', hsmall', hb.packages, hb.consecutive, hb.base,
      hb.session, hb.socketFD, hb.roomy, Or.inl (UInt64.lt_iff_toNat_lt.mpr hlt),
      Or.inl ⟨?_, rfl, hpoured, hb.length, hb.addr, ?_⟩⟩, rfl⟩
    · rw [← hpoured, hb.size, request, ← hb.length]
      exact hlt
    · refine hb.stop.resolve_left fun hstop => ?_
      exact absurd (UInt64.le_iff_toNat_le.mp hstop) (not_le.mpr hlt)

/-! ## No pass fails -/

/-- A round stays inside its buffers when the head package is not longer than `BUF_LEN`. -/
lemma fillBody_ne_fail {a : AckedSock} {x : Halt} (hrequest : a.request ≤ BUF_LEN)
    (hlen : ∀ m ∈ a.packages.head?, m.len.toNat ≤ BUF_LEN) : a.fillBody ≠ .fail x := by
  intro h
  unfold fillBody at h
  split at h
  · rename_i hroom
    have hroom' := UInt64.lt_iff_toNat_lt.mp hroom
    rw [request] at hrequest
    split at h
    · cases h
    · rename_i now l hl
      have hnow := hlen now (by simp [hl])
      split at h
      · cases h
      · split at h
        · rename_i hround
          split at hround
          · rename_i hfit
            -- both copies of a whole package are in bounds
            have hle := UInt64.le_iff_toNat_le.mp hfit
            simp only [BUF_LEN] at hnow hrequest
            rw [UInt64.toNat_add, Nat.mod_eq_of_lt (by omega)] at hle
            simp only [consume, Buffer.read?, Buffer.write?, bind, Option.bind] at hround
            rw [if_pos (by simp only [BUF_LEN]; omega)] at hround
            simp only at hround
            rw [dif_pos (by
              simp only [List.length_take, List.length_drop, BUF_LEN]
              omega)] at hround
            cases hround
          · rename_i hfit
            -- a split copies twice: into the answer, and the rest to the front of the package
            obtain ⟨hremain, hlt, hrest⟩ := remainSize_lt hroom hfit
            simp only [split, Buffer.read?, Buffer.write?, bind, Option.bind] at hround
            rw [if_pos (by omega)] at hround
            simp only at hround
            rw [dif_pos (by
              simp only [List.length_take, List.length_drop, List.Vector.toList_length]
              omega)] at hround
            simp only at hround
            rw [if_pos (by omega)] at hround
            simp only at hround
            rw [dif_pos (by
              simp only [List.length_take, List.length_drop, List.Vector.toList_length]
              omega)] at hround
            cases hround
        · cases h
  · cases h

/-- The loop comes to an end. -/
lemma fillLoop_total {a : AckedSock} (hrequest : a.request ≤ BUF_LEN)
    (hlen : ∀ m ∈ a.packages, m.len.toNat ≤ BUF_LEN) : ∃ b, fillLoop.run a = .ok b := by
  induction a using Loop.run.induct fillLoop with
  | case1 a hleave => exact ⟨a, fillLoop.run_of_leave hleave⟩
  | case2 a x hfail =>
    exact absurd hfail (fillBody_ne_fail hrequest fun m hm => hlen m (List.mem_of_mem_head? hm))
  | case3 a a' hagain ih =>
    rw [fillLoop.run_of_again hagain]
    obtain ⟨hroom, now, l, hl, -, hround⟩ := fillBody_again hagain
    rcases hround with ⟨-, hround⟩ | ⟨hfit, hround⟩
    · obtain ⟨-, -, -, ha'⟩ := consume_eq hround
      rw [ha'] at ih ⊢
      exact ih hrequest fun m hm => hlen m (by simp [hl, show m ∈ l from hm])
    · obtain ⟨-, -, now', -, hlen', -, ha'⟩ := split_eq hroom hfit hround
      rw [ha'] at ih ⊢
      refine ih hrequest fun m hm => ?_
      rcases List.mem_cons.mp hm with rfl | hm
      · exact hlen'
      · exact hlen m (by simp [hl, hm])

/-- A pass over a session whose packages and request are not longer than `BUF_LEN` succeeds. -/
theorem recvBack_total {a : AckedSock} (hrequest : a.request ≤ BUF_LEN)
    (hlen : ∀ m ∈ a.packages, m.len.toNat ≤ BUF_LEN) : ∃ r, a.recvBack = .ok r := by
  obtain ⟨b, hb⟩ := fillLoop_total hrequest hlen
  unfold recvBack
  split
  · exact ⟨_, rfl⟩
  · rw [if_neg (show ¬ BUF_LEN < a.receivingLength.toNat from not_lt.mpr hrequest), hb]
    dsimp only
    split <;> exact ⟨_, rfl⟩

end AckedSock

/-- `handle_recv_back` succeeds when no package and no request is longer than `BUF_LEN`. -/
theorem handleRecvBack_total {t : Tcpd}
    (h : ∀ s a, (s, a) ∈ t.ackedSockets.rows →
      a.request ≤ BUF_LEN ∧ ∀ m ∈ a.packages, m.len.toNat ≤ BUF_LEN) :
    ∃ r, handleRecvBack t = .ok r := by
  have hvisit : ∀ (u : Unit) s a, (s, a) ∈ t.ackedSockets.rows →
      ∃ r, AckedSock.recvVisit u s a = .ok r := by
    intro u s a hrow
    obtain ⟨r, hr⟩ := AckedSock.recvBack_total (h s a hrow).1 (h s a hrow).2
    exact ⟨((), r), by rw [AckedSock.recvVisit, hr]; rfl⟩
  obtain ⟨r, hr⟩ := HashTable.pass_total hvisit ()
  exact ⟨_, by rw [handleRecvBack, hr]⟩

end NetworkProgramming
