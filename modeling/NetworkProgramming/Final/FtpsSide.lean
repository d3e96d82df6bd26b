import NetworkProgramming.Final.Pieces

/-!
# `ftps` and its daemon

`ftps` runs next to the daemon that receives for it. When every intact frame that arrives
carries the piece of its number of the file of its session, then along every run, whatever else
the daemon does, each `RECV` of `ftps` asks for just the next piece and gets it, and the files
it writes are those of the sessions it has accepted, each once (`FtpsSide.Ok`).
-/

namespace NetworkProgramming

/-! ## The side of `ftps` -/

/-- `ftps` and its daemon. -/
structure FtpsSide where
  /-- the address of `ftps` -/
  frontAddr : SockaddrIn
  ftps : Ftps
  /-- the calls the daemon has not read yet -/
  calls : List (SockaddrIn × Call)
  tcpd : Tcpd
  /-- the answers `ftps` has not read yet -/
  answers : List (List UInt8)
  /-- all the daemon has sent -/
  outs : List Out
  /-- the files that are closed -/
  files : List ReceivedFile
  /-- the lengths `RECV` has been asked for, with the sessions -/
  asks : List (UInt32 × ℕ)

/-- An event on the side of `ftps`. -/
inductive FtpsEvent
  /-- `ftps` reads the next answer -/
  | resume
  /-- the daemon reads and serves the next call -/
  | serve (sys : Sys)
  /-- any other event of the daemon -/
  | daemon (e : Event)

/-- The session of the descriptor `ACCEPT` has returned. -/
def ReceivedFile.session (file : ReceivedFile) : UInt32 := file.sockClient.toUInt32

/-- What a call asks for. -/
def Call.asks : Call → List (UInt32 × ℕ)
  | .RECV sockfd len => [(sockfd.toUInt32, len.toNat)]
  | _ => []

namespace FtpsSide

/-- `ftps` has made its first call; `bindAddr` is the address it is going to bind. -/
def start (frontAddr bindAddr : SockaddrIn) : FtpsSide :=
  ⟨frontAddr, .socket bindAddr, [(frontAddr, .SOCKET)], Tcpd.globalInit, [], [], [], []⟩

/-- The daemon has gone on to `tcpd` and sent `os`; `ftps` gets the answers for its address. -/
def after (x : FtpsSide) (tcpd : Tcpd) (os : List Out) : FtpsSide :=
  { x with tcpd, outs := x.outs ++ os, answers := x.answers ++ answersTo x.frontAddr os }

/-- `ftps` has gone on with an answer; `answers` is what it has not read yet. -/
def goesOn (x : FtpsSide) (answers : List (List UInt8)) (r : Ftps × List Call × List ReceivedFile) :
    FtpsSide :=
  { x with ftps := r.1, calls := x.calls ++ r.2.1.map (x.frontAddr, ·), answers,
           files := x.files ++ r.2.2, asks := x.asks ++ r.2.1.flatMap Call.asks }

/-- One event. -/
def step (x : FtpsSide) : FtpsEvent → Except Halt (FtpsSide × List Out)
  | .resume =>
    match x.answers with
    | [] => .error .notReady
    | answer :: answers =>
      .ok (x.goesOn answers (x.ftps.resume answer), [])
  | .serve sys =>
    match x.calls with
    | [] => .error .notReady
    | (addr, c) :: calls =>
      match x.tcpd.step (.front addr c.request sys) with
      | .error halt => .error halt
      | .ok (tcpd, os) => .ok ({ x with calls }.after tcpd os, os)
  | .daemon e =>
    if e.isFront then .error .notReady
    else
      match x.tcpd.step e with
      | .error halt => .error halt
      | .ok (tcpd, os) => .ok (x.after tcpd os, os)

/-- The lengths `RECV` has been asked for on session `s`. -/
def askedOn (s : UInt32) (x : FtpsSide) : List ℕ := (x.asks.filter (·.1 = s)).map Prod.snd

end FtpsSide

/-- The answer of an `ACCEPT` is read back. -/
lemma codeOf_intBytes (ret : Int32) : codeOf (intBytes ret) = ret := by
  rw [codeOf, Reads.padTo_of_length (by simp [intBytes]), Reads.intOf_intBytes]

/-! ## `ftps` goes through the pieces -/

/-- `ftps` waits for piece `j` of the file of `job` on session `s`. -/
def Ftps.At (s : UInt32) (job : FtpJob) (j : ℕ) : Ftps → Prop
  | size _ sockClient _ => sockClient.toUInt32 = s ∧ j = 0
  | name _ sockClient fileSize _ =>
    sockClient.toUInt32 = s ∧ j = 1 ∧ fileSize = job.content.length
  | body _ file fileLeft _ => file.session = s ∧ file.fileName = job.fileName ∧
      ∃ unread, job.content = file.written ++ unread ∧ fileLeft = unread.length ∧
        job.pieces.drop j = chunks unread
  | _ => False

/-- After an answer `ftps` asks for piece `j` of the file, or it has read it all and closes it. -/
def Ftps.Goes (s : UInt32) (job : FtpJob) (j : ℕ) (r : Ftps × List Call × List ReceivedFile) :
    Prop :=
  (∃ fd len piece, r.2 = ([.RECV fd len], []) ∧ r.1.At s job j ∧ fd.toUInt32 = s ∧
      job.pieces[j]? = some piece ∧ len.toNat = piece.length) ∨
    ∃ sock file, r = (.accept sock, [.ACCEPT sock], [file]) ∧ file.session = s ∧
      file.fileName = job.fileName ∧ file.written = job.content

/-- The head of the loop over the file. -/
lemma Ftps.goes_recvLoop {s : UInt32} {job : FtpJob} {j : ℕ} (sock : Int32) {file : ReceivedFile}
    {unread : List UInt8} (bufIn : Buffer BUF_LEN) (hsession : file.session = s)
    (hname : file.fileName = job.fileName) (hcontent : job.content = file.written ++ unread)
    (hpieces : job.pieces.drop j = chunks unread) :
    Goes s job j (recvLoop sock file unread.length bufIn) := by
  rw [recvLoop]
  split
  · rename_i hzero
    rw [List.length_eq_zero_iff.mp hzero, List.append_nil] at hcontent
    exact Or.inr ⟨sock, file, rfl, hsession, hname, hcontent.symm⟩
  · rename_i hleft
    have hne : unread ≠ [] := fun hnil => hleft (by rw [hnil]; rfl)
    have hlen : (UInt64.ofNat (recvLen unread.length)).toNat = (unread.take BUF_LEN).length := by
      have hle := recvLen_le unread.length
      rw [UInt64.toNat_ofNat', length_take_eq_recvLen, Nat.mod_eq_of_lt]
      unfold BUF_LEN at hle
      omega
    exact Or.inl ⟨_, _, _, rfl, ⟨hsession, hname, unread, hcontent, rfl, hpieces⟩, hsession,
      job.getElem?_pieces hpieces hne, hlen⟩

/-- With a piece `ftps` goes on to the next one. -/
lemma Ftps.At.resume {st : Ftps} {s : UInt32} {job : FtpJob} {j : ℕ} (h : st.At s job j)
    {answer : List UInt8} (hpiece : job.pieces[j]? = some answer) :
    Ftps.Goes s job (j + 1) (st.resume answer) := by
  cases st with
  | size sock sockClient bufIn =>
    -- the four bytes of the size come back as the size
    obtain ⟨hs, rfl⟩ := h
    obtain rfl : sizeHeader job.content.length = answer := Option.some.inj hpiece
    obtain ⟨htake, -⟩ := @take_recvInto bufIn 4 sizeLen_le (sizeHeader job.content.length) le_rfl
    exact Or.inl ⟨sockClient, 20, nameField job.fileName, rfl,
      ⟨hs, rfl, sizeOf_sizeHeader job.small htake⟩, hs, rfl, (length_nameField _).symm⟩
  | name sock sockClient fileSize bufIn =>
    obtain ⟨hs, rfl, rfl⟩ := h
    obtain rfl : nameField job.fileName = answer := Option.some.inj hpiece
    have hfield := length_nameField job.fileName
    obtain ⟨htake, hlen⟩ := @take_recvInto bufIn 20 nameLen_le (nameField job.fileName) hfield.le
    rw [hfield] at htake hlen
    -- the byte behind the field is set to zero, which ends a name of 20 bytes
    generalize hr : recvInto bufIn 20 nameLen_le (nameField job.fileName) = r at htake hlen
    have hfits : r.2 + [(0 : UInt8)].length ≤ BUF_LEN := by
      rw [hlen]
      decide
    have hterminated :
        (r.1.write r.2 [0] hfits).toList.take 21 = nameField job.fileName ++ [0] := by
      rw [Buffer.take_write hfits (by rw [hlen]; rfl), hlen, htake]
    subst hr
    exact Ftps.goes_recvLoop sock _ hs (nameOf_nameField job.nulFree job.short hterminated) rfl rfl
  | body sock file fileLeft bufIn =>
    obtain ⟨hs, hname, unread, hcontent, rfl, hpieces⟩ := h
    have hne : unread ≠ [] := by
      intro hnil
      rw [hnil, chunks_nil, List.drop_eq_nil_iff] at hpieces
      rw [List.getElem?_eq_none hpieces] at hpiece
      cases hpiece
    have hanswer : unread.take BUF_LEN = answer := by
      rw [job.getElem?_pieces hpieces hne] at hpiece
      exact Option.some.inj hpiece
    subst hanswer
    -- what is asked for is what the chunk has, so all of it is written
    have hrecv := length_take_eq_recvLen unread
    obtain ⟨htake, hlen⟩ := @take_recvInto bufIn _ (recvLen_le unread.length) _ hrecv.le
    have hmin : min (recvInto bufIn (recvLen unread.length) (recvLen_le unread.length)
        (unread.take BUF_LEN)).2 unread.length = (unread.take BUF_LEN).length := by
      rw [hlen, List.length_take]
      omega
    have hleft : unread.length - (unread.take BUF_LEN).length = (unread.drop BUF_LEN).length := by
      rw [List.length_take, List.length_drop]
      omega
    rw [Ftps.resume]
    simp only [hmin, htake, hleft]
    refine Ftps.goes_recvLoop sock _ hs hname ?_ ?_
    · rw [List.append_assoc, List.take_append_drop]
      exact hcontent
    · rw [← List.drop_drop, hpieces, chunks_of_ne hne]
      rfl
  | _ => exact h.elim

/-! ## Where `ftps` is -/

namespace FtpsSide

/-- `ftps` has asked for the first `k` pieces of the file of session `s` and has got the first
`j`; the file is not closed. -/
structure Reading (transfers : List (UInt32 × FtpJob)) (x : FtpsSide) (s : UInt32) (job : FtpJob)
    (k j : ℕ) : Prop where
  transfer : (s, job) ∈ transfers
  accepted : x.tcpd.Accepted s
  asked : x.askedOn s = (job.pieces.take k).map List.length
  base : ∀ a, x.tcpd.sess s = some a → a.base.toNat = j
  unclosed : s ∉ x.files.map ReceivedFile.session

/-- Where `ftps` is while its daemon rests: its call is on its way, or served and answered. -/
inductive Place (transfers : List (UInt32 × FtpJob)) (x : FtpsSide) : Prop
  | socketCalled (addr : SockaddrIn) (hftps : x.ftps = .socket addr)
      (hcalls : x.calls = [(x.frontAddr, .SOCKET)]) (hanswers : x.answers = [])
      (hbound : x.tcpd.bindedSockets = [])
  | socketServed (addr : SockaddrIn) (hftps : x.ftps = .socket addr) (hcalls : x.calls = [])
      (hanswers : x.answers.length ≤ 1) (hbound : x.tcpd.bindedSockets = [])
  | bindCalled (sock : Int32) (addr : SockaddrIn) (hftps : x.ftps = .bind sock)
      (hcalls : x.calls = [(x.frontAddr, .BIND sock addr)]) (hanswers : x.answers = [])
      (hbound : x.tcpd.bindedSockets = [])
  | bindServed (sock : Int32) (hftps : x.ftps = .bind sock) (hcalls : x.calls = [])
      (hanswers : x.answers.length ≤ 1)
  | acceptCalled (sock : Int32) (hftps : x.ftps = .accept sock)
      (hcalls : x.calls = [(x.frontAddr, .ACCEPT sock)]) (hanswers : x.answers = [])
  | acceptServed (sock : Int32) (hftps : x.ftps = .accept sock) (hcalls : x.calls = [])
      (hanswers : x.answers.length ≤ 1)
      (hnew : ∀ answer ∈ x.answers, codeOf answer = -1 ∨
        ∃ s job, codeOf answer = s.toInt32 ∧ x.Reading transfers s job 0 0)
  | recvCalled (s : UInt32) (job : FtpJob) (j : ℕ) (fd : Int32) (len : UInt64) (piece : List UInt8)
      (hftps : x.ftps.At s job j) (hfd : fd.toUInt32 = s) (hpiece : job.pieces[j]? = some piece)
      (hlen : len.toNat = piece.length) (hcalls : x.calls = [(x.frontAddr, .RECV fd len)])
      (hanswers : x.answers = []) (hreading : x.Reading transfers s job (j + 1) j)
  | recvServed (s : UInt32) (job : FtpJob) (j : ℕ) (piece : List UInt8) (hftps : x.ftps.At s job j)
      (hpiece : job.pieces[j]? = some piece) (hcalls : x.calls = [])
      (hanswers : x.answers.Sublist [piece])
      (hreading : x.Reading transfers s job (j + 1) (j + 1))

/-- Where `ftps` is. -/
inductive Stage (transfers : List (UInt32 × FtpJob)) (x : FtpsSide) : Prop
  | rests (hrest : x.tcpd.Rests) (hplace : x.Place transfers)
  /-- the `ACCEPT` waits for a session -/
  | acceptPending (sock : Int32) (hftps : x.ftps = .accept sock) (hcalls : x.calls = [])
      (hanswers : x.answers = []) (hfew : x.tcpd.bindedSockets.length ≤ 1)
      (hidle : ∀ s, x.tcpd.IdleAt s)
  /-- the `RECV` waits for its piece -/
  | recvPending (s : UInt32) (job : FtpJob) (j : ℕ) (piece : List UInt8)
      (hftps : x.ftps.At s job j) (hpiece : job.pieces[j]? = some piece) (hcalls : x.calls = [])
      (hanswers : x.answers = []) (hreading : x.Reading transfers s job (j + 1) j)
      (hfew : x.tcpd.bindedSockets.length ≤ 1) (hnobody : x.tcpd.NobodyAccepts)
      (hothers : ∀ s', s' ≠ s → x.tcpd.IdleAt s')
  | exited (hftps : x.ftps = .exited) (hcalls : x.calls = [])

/-- What holds of the sessions, and of what `ftps` has asked for and written. -/
structure Kept (transfers : List (UInt32 × FtpJob)) (x : FtpsSide) : Prop where
  reads : x.tcpd.Reads transfers x.outs
  unasked : ∀ s, ¬ x.tcpd.Accepted s → x.askedOn s = []
  asked : ∀ s, x.tcpd.Accepted s →
    ∃ job, (s, job) ∈ transfers ∧ x.askedOn s <+: job.pieces.map List.length
  closed : ∀ file ∈ x.files, x.tcpd.Accepted file.session ∧ ∃ job,
    (file.session, job) ∈ transfers ∧ file.fileName = job.fileName ∧ file.written = job.content
  once : (x.files.map ReceivedFile.session).Nodup

/-- What holds on the side of `ftps`. -/
structure Ok (transfers : List (UInt32 × FtpJob)) (x : FtpsSide) : Prop where
  kept : x.Kept transfers
  stage : x.Stage transfers

variable {transfers transfers' : List (UInt32 × FtpJob)} {x x' : FtpsSide} {os : List Out}

lemma Reading.congr {s : UInt32} {job : FtpJob} {k j : ℕ} (h : x.Reading transfers s job k j)
    (htransfers : ∀ y ∈ transfers, y ∈ transfers') (hasks : x'.asks = x.asks)
    (hfiles : x'.files = x.files) (hacc : x.tcpd.Accepted s → x'.tcpd.Accepted s)
    (hsess : ∀ a', x'.tcpd.sess s = some a' → ∃ a, x.tcpd.sess s = some a ∧ a'.base = a.base) :
    x'.Reading transfers' s job k j where
  transfer := htransfers _ h.transfer
  accepted := hacc h.accepted
  asked := by
    rw [askedOn, hasks]
    exact h.asked
  base a' ha' := by
    obtain ⟨a, ha, hbase⟩ := hsess a' ha'
    rw [hbase]
    exact h.base a ha
  unclosed := by
    rw [hfiles]
    exact h.unclosed

/-- `ftps` does not see what its daemon does by itself. -/
lemma Place.congr (h : x.Place transfers) (hftps : x'.ftps = x.ftps)
    (hfront : x'.frontAddr = x.frontAddr) (hcalls : x'.calls = x.calls)
    (hanswers : x'.answers = x.answers) (hbound : x'.tcpd.bindedSockets = x.tcpd.bindedSockets)
    (hreading : ∀ s job k j, x.Reading transfers s job k j → x'.Reading transfers' s job k j) :
    x'.Place transfers' := by
  cases h with
  | socketCalled addr h₁ h₂ h₃ h₄ =>
    exact .socketCalled addr (hftps.trans h₁) (by rw [hcalls, hfront, h₂]) (hanswers.trans h₃)
      (hbound.trans h₄)
  | socketServed addr h₁ h₂ h₃ h₄ =>
    exact .socketServed addr (hftps.trans h₁) (hcalls.trans h₂) (by rw [hanswers]; exact h₃)
      (hbound.trans h₄)
  | bindCalled sock addr h₁ h₂ h₃ h₄ =>
    exact .bindCalled sock addr (hftps.trans h₁) (by rw [hcalls, hfront, h₂]) (hanswers.trans h₃)
      (hbound.trans h₄)
  | bindServed sock h₁ h₂ h₃ =>
    exact .bindServed sock (hftps.trans h₁) (hcalls.trans h₂) (by rw [hanswers]; exact h₃)
  | acceptCalled sock h₁ h₂ h₃ =>
    exact .acceptCalled sock (hftps.trans h₁) (by rw [hcalls, hfront, h₂]) (hanswers.trans h₃)
  | acceptServed sock h₁ h₂ h₃ h₄ =>
    refine .acceptServed sock (hftps.trans h₁) (hcalls.trans h₂) (by rw [hanswers]; exact h₃) ?_
    rw [hanswers]
    intro answer hanswer
    refine (h₄ answer hanswer).imp_right ?_
    rintro ⟨s, job, hs, hr⟩
    exact ⟨s, job, hs, hreading s job 0 0 hr⟩
  | recvCalled s job j fd len piece h₁ h₂ h₃ h₄ h₅ h₆ h₇ =>
    exact .recvCalled s job j fd len piece (by rw [hftps]; exact h₁) h₂ h₃ h₄
      (by rw [hcalls, hfront, h₅]) (hanswers.trans h₆) (hreading _ _ _ _ h₇)
  | recvServed s job j piece h₁ h₂ h₃ h₄ h₅ =>
    exact .recvServed s job j piece (by rw [hftps]; exact h₁) h₂ (hcalls.trans h₃)
      (by rw [hanswers]; exact h₄) (hreading _ _ _ _ h₅)

/-- More transfers do no harm. -/
lemma Ok.mono (h : x.Ok transfers) (htransfers : ∀ y ∈ transfers, y ∈ transfers') :
    x.Ok transfers' := by
  have hreading : ∀ s job k j, x.Reading transfers s job k j → x.Reading transfers' s job k j :=
    fun s job k j hr => hr.congr htransfers rfl rfl id fun a ha => ⟨a, ha, rfl⟩
  refine ⟨⟨⟨h.kept.reads.ok, fun s a ha => ?_, h.kept.reads.absent, h.kept.reads.waiting⟩,
    h.kept.unasked, fun s hs => ?_, fun file hfile => ?_, h.kept.once⟩, ?_⟩
  · obtain ⟨job, hjob, hrest⟩ := h.kept.reads.present s a ha
    exact ⟨job, htransfers _ hjob, hrest⟩
  · obtain ⟨job, hjob, hasked⟩ := h.kept.asked s hs
    exact ⟨job, htransfers _ hjob, hasked⟩
  · obtain ⟨hacc, job, hjob, hrest⟩ := h.kept.closed file hfile
    exact ⟨hacc, job, htransfers _ hjob, hrest⟩
  · cases h.stage with
    | rests hrest hplace => exact .rests hrest (hplace.congr rfl rfl rfl rfl rfl hreading)
    | acceptPending sock h₁ h₂ h₃ h₄ h₅ => exact .acceptPending sock h₁ h₂ h₃ h₄ h₅
    | recvPending s job j piece h₁ h₂ h₃ h₄ h₅ h₆ h₇ h₈ =>
      exact .recvPending s job j piece h₁ h₂ h₃ h₄ (hreading _ _ _ _ h₅) h₆ h₇ h₈
    | exited h₁ h₂ => exact .exited h₁ h₂

/-- The daemon makes a step that keeps its sessions. -/
lemma Kept.after (h : x.Kept transfers) {t : Tcpd} (hreads : t.Reads transfers (x.outs ++ os))
    (hacc : ∀ s, x.tcpd.Accepted s → t.Accepted s) : (x.after t os).Kept transfers := by
  refine ⟨hreads, fun s hs => h.unasked s fun hold => hs (hacc s hold), fun s hs => ?_,
    fun file hfile => ?_, h.once⟩
  · by_cases hold : x.tcpd.Accepted s
    · exact h.asked s hold
    · have hs' : t.Accepted s := hs
      obtain ⟨a, ha⟩ := Option.isSome_iff_exists.mp hs'
      obtain ⟨job, hjob, -⟩ := hreads.present s a (sess_of_lookup ha)
      have hnone : (x.after t os).askedOn s = [] := h.unasked s hold
      rw [hnone]
      exact ⟨job, hjob, List.nil_prefix⟩
  · obtain ⟨hold, hrest⟩ := h.closed file hfile
    exact ⟨hacc _ hold, hrest⟩

section Daemon

variable {e : Event} {t : Tcpd}

/-- A session without a request is where it was after a step of the daemon. -/
lemma Reading.daemon {s : UInt32} {job : FtpJob} {k j : ℕ} (hr : x.Reading transfers s job k j)
    (h : x.Kept transfers) (hstep : x.tcpd.step e = .ok (t, os)) (hfront : ¬ e.isFront)
    (hframed : Framed transfers e) (hnodup : (transfers.map Prod.fst).Nodup)
    (hidle : x.tcpd.IdleAt s) : (x.after t os).Reading transfers s job k j := by
  refine hr.congr (fun _ hy => hy) rfl rfl (accepted_step h.reads.ok hstep) fun a' ha' => ?_
  obtain ⟨a, ha⟩ := Option.isSome_iff_exists.mp hr.accepted
  obtain ⟨-, -, hbase⟩ := h.reads.idleAt_daemon hstep hfront hframed hnodup hidle
  obtain ⟨a'', ha'', heq⟩ := hbase a (sess_of_lookup ha)
  have hsame : t.sess s = some a' := ha'
  rw [hsame] at ha''
  cases ha''
  exact ⟨a, sess_of_lookup ha, heq⟩

/-- While the `ACCEPT` waits, the daemon goes on waiting or hands over one session. -/
lemma Stage.acceptPending_daemon (h : x.Kept transfers)
    (hstep : x.tcpd.step e = .ok (t, os)) (hfront : ¬ e.isFront) (hframed : Framed transfers e)
    (hnodup : (transfers.map Prod.fst).Nodup) {sock : Int32} (hftps : x.ftps = .accept sock)
    (hcalls : x.calls = []) (hanswers : x.answers = [])
    (hfew : x.tcpd.bindedSockets.length ≤ 1) (hidle : ∀ s, x.tcpd.IdleAt s) :
    (x.after t os).Stage transfers := by
  have hidle' : ∀ s, t.IdleAt s ∧ repliesTo s os = [] := fun s =>
    have hs := h.reads.idleAt_daemon hstep hfront hframed hnodup (hidle s)
    ⟨hs.1, hs.2.1⟩
  have hwait : answersTo x.frontAddr os = [] → t.bindedSockets.length ≤ 1 →
      (x.after t os).Stage transfers := by
    intro hnone hfew'
    refine .acceptPending sock hftps hcalls ?_ hfew' fun s => (hidle' s).1
    show x.answers ++ answersTo x.frontAddr os = []
    rw [hanswers, hnone]
    rfl
  -- only `handle_ack_back` can end the wait
  by_cases hackBack : e = .ackBack
  · subst hackBack
    have hsame : handleAckBack x.tcpd = (t, os) := Except.ok.inj hstep
    rcases handleAckBack_cases h.reads.ok hfew with hnothing | ⟨addr, fd, a, ha, hfresh, hone⟩
    · rw [hnothing] at hsame
      cases hsame
      exact hwait rfl hfew
    · -- the session `a.session` is new, so nothing of it has been asked for or closed
      rw [hsame] at hone
      obtain ⟨rfl, hacc, hnobody, hfew'⟩ := hone
      obtain ⟨job, hjob, -⟩ := h.reads.present _ a ha
      have hbase : ∀ a', t.sess a.session = some a' → a'.base.toNat = 0 := by
        intro a' ha'
        obtain ⟨-, -, hkept⟩ := h.reads.idleAt_daemon hstep hfront hframed hnodup (hidle a.session)
        obtain ⟨a'', ha'', heq⟩ := hkept a ha
        rw [ha'] at ha''
        cases ha''
        rw [heq, (h.reads.waiting _ a ha hfresh).1]
        rfl
      refine .rests ⟨hfew', hnobody, fun s => (hidle' s).1⟩
        (.acceptServed sock hftps hcalls ?_ fun answer hanswer => Or.inr ⟨a.session, job, ?_, ?_⟩)
      · show (x.answers ++ answersTo x.frontAddr _).length ≤ 1
        rw [hanswers]
        exact length_answersTo_singleton x.frontAddr _
      · have hin : answer ∈ x.answers ++ answersTo x.frontAddr _ := hanswer
        rw [hanswers, List.nil_append] at hin
        rcases answersTo_singleton x.frontAddr (.accepted addr fd a.session) with
          hnil | ⟨y, hy, hy'⟩
        · rw [hnil] at hin
          cases hin
        · cases hy
          rw [hy', List.mem_singleton] at hin
          rw [hin]
          exact codeOf_intBytes _
      · refine ⟨hjob, hacc, h.unasked _ hfresh, hbase, fun hmem => ?_⟩
        obtain ⟨file, hfile, heq⟩ := List.mem_map.mp hmem
        exact hfresh (heq ▸ (h.closed file hfile).1)
  · obtain ⟨hbound, -⟩ := lobby_daemon h.reads.ok hstep hfront hackBack
    have hsub := answersTo_sublist hstep h.reads.ok hfront hackBack (s := 0)
      (fun s _ => (hidle' s).2) x.frontAddr
    rw [(hidle' 0).2] at hsub
    exact hwait (List.sublist_nil.mp hsub) (by rw [hbound]; exact hfew)

/-- While the `RECV` waits, the daemon goes on waiting or answers with the piece. -/
lemma Stage.recvPending_daemon (h : x.Kept transfers)
    (hstep : x.tcpd.step e = .ok (t, os)) (hfront : ¬ e.isFront) (hframed : Framed transfers e)
    (hnodup : (transfers.map Prod.fst).Nodup) {s : UInt32} {job : FtpJob} {j : ℕ}
    {piece : List UInt8} (hftps : x.ftps.At s job j) (hpiece : job.pieces[j]? = some piece)
    (hcalls : x.calls = []) (hanswers : x.answers = [])
    (hreading : x.Reading transfers s job (j + 1) j) (hfew : x.tcpd.bindedSockets.length ≤ 1)
    (hnobody : x.tcpd.NobodyAccepts) (hothers : ∀ s', s' ≠ s → x.tcpd.IdleAt s') :
    (x.after t os).Stage transfers := by
  have hothers' : ∀ s', s' ≠ s → t.IdleAt s' ∧ repliesTo s' os = [] := fun s' hs' =>
    have hidle := h.reads.idleAt_daemon hstep hfront hframed hnodup (hothers s' hs')
    ⟨hidle.1, hidle.2.1⟩
  obtain ⟨hbound, hacc, hanswersTo⟩ := h.reads.nobody_daemon hstep hfront hnobody
  have hsub := hanswersTo s (fun s' hs' => (hothers' s' hs').2) x.frontAddr
  have hfew' : t.bindedSockets.length ≤ 1 := by rw [hbound]; exact hfew
  have hnobody' : t.NobodyAccepts := by
    rw [Tcpd.NobodyAccepts, hbound]
    exact hnobody
  obtain ⟨a, ha⟩ := Option.isSome_iff_exists.mp hreading.accepted
  have hbase := hreading.base a (sess_of_lookup ha)
  obtain ⟨a', ha', -, ⟨-, hsame, hnone⟩ | ⟨job', hjob', -, hdone, hnext, body, hbody, hone⟩⟩ :=
    h.reads.sess_daemon hstep hfront hframed hnodup (sess_of_lookup ha)
  · -- the pass has found no piece yet
    rw [hnone] at hsub
    refine .recvPending s job j piece hftps hpiece hcalls ?_ ?_ hfew' hnobody'
      fun s' hs' => (hothers' s' hs').1
    · show x.answers ++ answersTo x.frontAddr os = []
      rw [hanswers, List.sublist_nil.mp hsub]
      rfl
    · refine hreading.congr (fun _ hy => hy) rfl rfl (hacc s).mpr fun b hb => ?_
      have hb' : t.sess s = some b := hb
      rw [ha'] at hb'
      cases hb'
      exact ⟨a, sess_of_lookup ha, hsame⟩
  · -- the pass has answered with piece `j`
    obtain rfl := FtpcSide.job_unique hnodup hreading.transfer hjob'
    rw [hbase, hpiece] at hbody
    cases hbody
    refine .rests ⟨hfew', hnobody', fun s' => ?_⟩
      (.recvServed s job j piece hftps hpiece hcalls ?_
        ⟨hreading.transfer, (hacc s).mpr hreading.accepted, hreading.asked, fun b hb => ?_,
          hreading.unclosed⟩)
    · by_cases hs' : s' = s
      · subst hs'
        intro b hb
        have hb' : t.sess s' = some b := hb
        rw [ha'] at hb'
        cases hb'
        exact hdone
      · exact (hothers' s' hs').1
    · show (x.answers ++ answersTo x.frontAddr os).Sublist [piece]
      rw [hanswers, List.nil_append, ← hone]
      exact hsub
    · have hb' : t.sess s = some b := hb
      rw [ha'] at hb'
      cases hb'
      rw [hnext, hbase]

/-- The daemon makes a step of its own. -/
lemma Ok.daemon (h : x.Ok transfers) (hstep : x.tcpd.step e = .ok (t, os)) (hfront : ¬ e.isFront)
    (hframed : Framed transfers e) (hnodup : (transfers.map Prod.fst).Nodup) :
    (x.after t os).Ok transfers := by
  refine ⟨h.kept.after (h.kept.reads.daemon hstep hfront hframed hnodup)
    fun s hs => accepted_step h.kept.reads.ok hstep hs, ?_⟩
  cases h.stage with
  | rests hrest hplace =>
    -- `ftps` waits for nothing the daemon could do by itself
    obtain ⟨hrest', hbound, hsilent⟩ :=
      h.kept.reads.rests_daemon hstep hfront hframed hnodup hrest
    refine .rests hrest' (hplace.congr rfl rfl rfl ?_ hbound fun s job k j hr => ?_)
    · show x.answers ++ answersTo x.frontAddr os = x.answers
      rw [hsilent, List.append_nil]
    · exact hr.daemon h.kept hstep hfront hframed hnodup (hrest.idle s)
  | acceptPending sock h₁ h₂ h₃ h₄ h₅ =>
    exact .acceptPending_daemon h.kept hstep hfront hframed hnodup h₁ h₂ h₃ h₄ h₅
  | recvPending s job j piece h₁ h₂ h₃ h₄ h₅ h₆ h₇ h₈ =>
    exact .recvPending_daemon h.kept hstep hfront hframed hnodup h₁ h₂ h₃ h₄ h₅ h₆ h₇ h₈
  | exited h₁ h₂ => exact .exited h₁ h₂

end Daemon

section Serve

variable {addr : SockaddrIn} {sys : Sys} {t : Tcpd}

/-- `BIND` adds a socket at which nobody waits. -/
lemma step_bindCall {t t' : Tcpd} {sock : Int32} {a : SockaddrIn}
    (h : t.step (.front addr (Call.BIND sock a).request sys) = .ok (t', os)) :
    t'.bindedSockets = t.bindedSockets ++ [⟨sock, false, default⟩] ∧ ∃ o, os = [o] := by
  rw [Call.request] at h
  cases tcpd_step h
  exact ⟨rfl, _, rfl⟩

/-- `ACCEPT` is refused or registered. -/
lemma step_acceptCall {t t' : Tcpd} {sock : Int32} (hfew : t.bindedSockets.length ≤ 1)
    (h : t.step (.front addr (Call.ACCEPT sock).request sys) = .ok (t', os)) :
    (t' = t ∧ os = [.code addr (-1)]) ∨ (os = [] ∧ t'.bindedSockets.length ≤ 1) := by
  have hbound : (t.bindedSockets.map (·.socketFD)).Nodup := by
    match hb : t.bindedSockets with
    | [] => exact List.nodup_nil
    | [b] => exact List.nodup_singleton _
    | b :: b' :: bs =>
      rw [hb, List.length_cons, List.length_cons] at hfew
      omega
  have haccept : tcpdAccept t addr sock = (t', os) := by
    simp only [Tcpd.step] at h
    split at h
    · exact Except.ok.inj h
    · cases h
  rcases tcpdAccept_cases addr sock hbound with hrefused | ⟨hsilent, -⟩
  · rw [haccept] at hrefused
    cases hrefused
    exact Or.inl ⟨rfl, rfl⟩
  · refine Or.inr ⟨by rw [← hsilent, haccept], ?_⟩
    have hfds := map_socketFD_acceptLoop sock addr (-1) t.bindedSockets
    have hsame : (acceptLoop sock addr (-1) t.bindedSockets).1 = t'.bindedSockets :=
      congrArg (fun r : Tcpd × List Out => r.1.bindedSockets) haccept
    rw [hsame] at hfds
    have hlen := congrArg List.length hfds
    rw [List.length_map, List.length_map] at hlen
    rw [hlen]
    exact hfew

/-- The daemon serves a call of `ftps`. -/
lemma Ok.serve (h : x.Ok transfers) {c : Call} {calls : List (SockaddrIn × Call)}
    (hcalls : x.calls = (addr, c) :: calls) (hnodup : (transfers.map Prod.fst).Nodup)
    (hstep : x.tcpd.step (.front addr c.request sys) = .ok (t, os)) :
    Ok transfers ({ x with calls }.after t os) := by
  have hreads := h.kept.reads
  have hkept : Kept transfers { x with calls } :=
    ⟨h.kept.reads, h.kept.unasked, h.kept.asked, h.kept.closed, h.kept.once⟩
  have hacc : ∀ s, x.tcpd.Accepted s → t.Accepted s := fun s hs =>
    accepted_step hreads.ok hstep hs
  have hidle : SameSessions x.tcpd t → x.tcpd.Rests → ∀ s, t.IdleAt s := by
    intro hsame hrest s a ha
    rw [hsame.sess_eq] at ha
    exact hrest.idle s a ha
  have hanswer : ∀ o, x.answers = [] → (x.answers ++ answersTo x.frontAddr [o]).length ≤ 1 := by
    intro o hnone
    rw [hnone]
    exact length_answersTo_singleton x.frontAddr o
  cases h.stage with
  | acceptPending _ _ hnone _ _ _ => simp [hnone] at hcalls
  | recvPending _ _ _ _ _ _ hnone _ _ _ _ _ => simp [hnone] at hcalls
  | exited _ hnone => simp [hnone] at hcalls
  | rests hrest hplace =>
    cases hplace with
    | socketServed _ _ hnone _ _ => simp [hnone] at hcalls
    | bindServed _ _ hnone _ => simp [hnone] at hcalls
    | acceptServed _ _ hnone _ _ => simp [hnone] at hcalls
    | recvServed _ _ _ _ _ _ hnone _ _ => simp [hnone] at hcalls
    | socketCalled a hftps hcall hanswers hbound =>
      obtain ⟨hfirst, rfl⟩ := List.cons.inj (hcalls.symm.trans hcall)
      cases hfirst
      obtain ⟨hreads', -⟩ := hreads.call (fun _ _ => by rintro ⟨⟩) hstep
      obtain ⟨rfl, o, rfl, -⟩ := step_socketCall hstep
      exact ⟨hkept.after hreads' hacc,
        .rests hrest (.socketServed a hftps rfl (hanswer o hanswers) hbound)⟩
    | bindCalled sock a hftps hcall hanswers hbound =>
      obtain ⟨hfirst, rfl⟩ := List.cons.inj (hcalls.symm.trans hcall)
      cases hfirst
      obtain ⟨hreads', hsame⟩ := hreads.call (fun _ _ => by rintro ⟨⟩) hstep
      obtain ⟨hbound', o, rfl⟩ := step_bindCall hstep
      rw [hbound, List.nil_append] at hbound'
      refine ⟨hkept.after hreads' hacc, .rests ⟨?_, ?_, hidle hsame hrest⟩
        (.bindServed sock hftps rfl (hanswer o hanswers))⟩
      · show t.bindedSockets.length ≤ 1
        rw [hbound']
        rfl
      · show t.NobodyAccepts
        simp [Tcpd.NobodyAccepts, hbound']
    | acceptCalled sock hftps hcall hanswers =>
      obtain ⟨hfirst, rfl⟩ := List.cons.inj (hcalls.symm.trans hcall)
      cases hfirst
      obtain ⟨hreads', hsame⟩ := hreads.call (fun _ _ => by rintro ⟨⟩) hstep
      refine ⟨hkept.after hreads' hacc, ?_⟩
      rcases step_acceptCall hrest.few hstep with ⟨rfl, rfl⟩ | ⟨rfl, hfew⟩
      · -- the socket is not bound, or somebody waits there
        refine .rests hrest (.acceptServed sock hftps rfl (hanswer _ hanswers) ?_)
        intro answer hin
        have hin' : answer ∈ x.answers ++ answersTo x.frontAddr [.code x.frontAddr (-1)] := hin
        rw [hanswers] at hin'
        simp only [answersTo, Out.answer, List.filterMap_cons, Option.bind_some, if_true,
          List.filterMap_nil, List.nil_append, List.mem_singleton] at hin'
        rw [hin']
        exact Or.inl (codeOf_intBytes _)
      · refine .acceptPending sock hftps rfl ?_ hfew (hidle hsame hrest)
        show x.answers ++ answersTo x.frontAddr [] = []
        rw [hanswers]
        rfl
    | recvCalled s job j fd len piece hftps hfd hpiece hlen hcall hanswers hreading =>
      obtain ⟨hfirst, rfl⟩ := List.cons.inj (hcalls.symm.trans hcall)
      cases hfirst
      subst hfd
      obtain ⟨a, ha⟩ := Option.isSome_iff_exists.mp hreading.accepted
      have hsess := sess_of_lookup ha
      have hbase := hreading.base a hsess
      obtain ⟨hreads', rfl, hbound, -, hothers, a', ha', hbase', -⟩ :=
        hreads.recv hnodup hreading.transfer hreading.accepted hsess (hrest.idle _ a hsess)
          (by rw [hbase]; exact hpiece) hlen hstep
      refine ⟨hkept.after hreads' hacc, .recvPending fd.toUInt32 job j piece hftps hpiece rfl ?_
        ?_ ?_ ?_ fun s hs a ha => ?_⟩
      · show x.answers ++ answersTo x.frontAddr [] = []
        rw [hanswers]
        rfl
      · refine hreading.congr (fun _ hy => hy) rfl rfl (hacc _) fun b hb => ?_
        have hb' : t.sess fd.toUInt32 = some b := hb
        rw [ha'] at hb'
        cases hb'
        exact ⟨a, hsess, hbase'⟩
      · show t.bindedSockets.length ≤ 1
        rw [hbound]
        exact hrest.few
      · show t.NobodyAccepts
        rw [Tcpd.NobodyAccepts, hbound]
        exact hrest.nobody
      · have ha₁ : t.sess s = some a := ha
        rw [hothers s hs] at ha₁
        exact hrest.idle s a ha₁

end Serve

section Resume

variable {s : UInt32} {job : FtpJob} {k j : ℕ} {answers : List (List UInt8)}

/-- `ftps` writes down what it asks for and the files it closes. -/
lemma Kept.update (h : x.Kept transfers) (htcpd : x'.tcpd = x.tcpd) (houts : x'.outs = x.outs)
    (hasked : ∀ s, x'.askedOn s = x.askedOn s ∨ x.tcpd.Accepted s ∧ ∃ job, (s, job) ∈ transfers ∧
      x'.askedOn s <+: job.pieces.map List.length)
    (hclosed : ∀ file ∈ x'.files, file ∈ x.files ∨ x.tcpd.Accepted file.session ∧ ∃ job,
      (file.session, job) ∈ transfers ∧ file.fileName = job.fileName ∧ file.written = job.content)
    (honce : (x'.files.map ReceivedFile.session).Nodup) : x'.Kept transfers := by
  refine ⟨?_, fun s hs => ?_, fun s hs => ?_, fun file hfile => ?_, honce⟩
  · rw [htcpd, houts]
    exact h.reads
  · rw [htcpd] at hs
    rcases hasked s with hsame | ⟨hacc, -⟩
    · exact hsame.trans (h.unasked s hs)
    · exact absurd hacc hs
  · rw [htcpd] at hs
    rcases hasked s with hsame | ⟨-, hasked⟩
    · rw [hsame]
      exact h.asked s hs
    · exact hasked
  · rw [htcpd]
    exact (hclosed file hfile).elim (h.closed file) id

lemma askedOn_congr (hasks : x'.asks = x.asks) (s : UInt32) : x'.askedOn s = x.askedOn s := by
  rw [askedOn, askedOn, hasks]

/-- `ftps` asks for the next piece. -/
lemma Kept.ask (h : x.Kept transfers) (hreading : x.Reading transfers s job j j)
    {piece : List UInt8} (hpiece : job.pieces[j]? = some piece) (htcpd : x'.tcpd = x.tcpd)
    (houts : x'.outs = x.outs) (hfiles : x'.files = x.files)
    (hasks : x'.asks = x.asks ++ [(s, piece.length)]) :
    x'.Kept transfers ∧ x'.Reading transfers s job (j + 1) j := by
  have hself : x'.askedOn s = (job.pieces.take (j + 1)).map List.length := by
    rw [askedOn, hasks, List.filter_append, List.map_append, ← askedOn, hreading.asked,
      List.take_add_one, hpiece]
    simp
  have hothers : ∀ s', s' ≠ s → x'.askedOn s' = x.askedOn s' := by
    intro s' hs'
    rw [askedOn, hasks, List.filter_append, List.map_append, ← askedOn]
    simp [Ne.symm hs']
  constructor
  · refine h.update htcpd houts (fun s' => ?_) (fun file hfile => ?_) ?_
    · by_cases heq : s' = s
      · subst heq
        rw [hself]
        exact Or.inr ⟨hreading.accepted, job, hreading.transfer, (List.take_prefix _ _).map _⟩
      · exact Or.inl (hothers s' heq)
    · rw [hfiles] at hfile
      exact Or.inl hfile
    · rw [hfiles]
      exact h.once
  · refine ⟨hreading.transfer, ?_, hself, fun a ha => ?_, ?_⟩
    · rw [htcpd]
      exact hreading.accepted
    · rw [htcpd] at ha
      exact hreading.base a ha
    · rw [hfiles]
      exact hreading.unclosed

/-- `ftps` has got the whole file. -/
lemma Kept.close (h : x.Kept transfers) (hreading : x.Reading transfers s job k j)
    {file : ReceivedFile} (hs : file.session = s) (hname : file.fileName = job.fileName)
    (hwritten : file.written = job.content) (htcpd : x'.tcpd = x.tcpd) (houts : x'.outs = x.outs)
    (hfiles : x'.files = x.files ++ [file]) (hasks : x'.asks = x.asks) : x'.Kept transfers := by
  refine h.update htcpd houts (fun s' => Or.inl (askedOn_congr hasks s')) (fun f hf => ?_) ?_
  · rw [hfiles] at hf
    refine (List.mem_append.mp hf).imp_right fun hlast => ?_
    obtain rfl := List.mem_singleton.mp hlast
    rw [hs]
    exact ⟨hreading.accepted, job, hreading.transfer, hname, hwritten⟩
  · rw [hfiles, List.map_append]
    refine h.once.append (List.nodup_singleton _) ?_
    rw [List.map_singleton, List.disjoint_singleton, hs]
    exact hreading.unclosed

/-- `ftps` exits, or makes a call that is no `RECV`. -/
lemma Kept.calls (h : x.Kept transfers) {st : Ftps} {cs : List Call}
    (hcs : cs.flatMap Call.asks = []) : (x.goesOn answers (st, cs, [])).Kept transfers := by
  have hfiles : (x.goesOn answers (st, cs, [])).files = x.files := List.append_nil _
  have hasks : (x.goesOn answers (st, cs, [])).asks = x.asks := by simp [goesOn, hcs]
  refine h.update rfl rfl (fun s => Or.inl (askedOn_congr hasks s)) (fun file hfile => ?_) ?_
  · rw [hfiles] at hfile
    exact Or.inl hfile
  · rw [hfiles]
    exact h.once

/-- `ftps` goes on with a piece. -/
lemma Ok.goes (h : x.Ok transfers) (hrest : x.tcpd.Rests) (hcalls : x.calls = [])
    (hreading : x.Reading transfers s job j j)
    {r : Ftps × List Call × List ReceivedFile} (hgoes : Ftps.Goes s job j r) :
    Ok transfers (x.goesOn [] r) := by
  rcases hgoes with ⟨fd, len, piece, hr, hat, hfd, hpiece, hlen⟩ |
    ⟨sock, file, rfl, hs, hname, hwritten⟩
  · obtain ⟨st, cs, files⟩ := r
    cases hr
    have hasks : (x.goesOn [] (st, [Call.RECV fd len], [])).asks
        = x.asks ++ [(s, piece.length)] := by
      simp [goesOn, Call.asks, hfd, hlen]
    obtain ⟨hkept, hreading'⟩ : (x.goesOn [] (st, [Call.RECV fd len], [])).Kept transfers ∧
        (x.goesOn [] (st, [Call.RECV fd len], [])).Reading transfers s job (j + 1) j :=
      h.kept.ask hreading hpiece rfl rfl (List.append_nil _) hasks
    refine ⟨hkept, .rests hrest (.recvCalled s job j fd len piece hat hfd hpiece hlen ?_ rfl
      hreading')⟩
    simp [goesOn, hcalls]
  · refine ⟨h.kept.close hreading hs hname hwritten rfl rfl rfl (List.append_nil _),
      .rests hrest (.acceptCalled sock rfl ?_ rfl)⟩
    simp [goesOn, hcalls]

/-- `ftps` reads an answer. -/
lemma Ok.resume (h : x.Ok transfers) {answer : List UInt8}
    (hanswers : x.answers = answer :: answers) :
    Ok transfers (x.goesOn answers (x.ftps.resume answer)) := by
  have hlast : x.answers.length ≤ 1 → answers = [] := by
    intro hle
    rw [hanswers, List.length_cons] at hle
    exact List.length_eq_zero_iff.mp (by omega)
  have hexit : x.calls = [] → Ok transfers (x.goesOn answers (.exited, [], [])) := by
    intro hnone
    refine ⟨h.kept.calls rfl, .exited rfl ?_⟩
    simp [goesOn, hnone]
  cases h.stage with
  | acceptPending _ _ _ hnone _ _ => simp [hnone] at hanswers
  | recvPending _ _ _ _ _ _ _ hnone _ _ _ _ => simp [hnone] at hanswers
  | exited hftps hcalls =>
    rw [hftps]
    exact hexit hcalls
  | rests hrest hplace =>
    cases hplace with
    | socketCalled _ _ _ hnone _ => simp [hnone] at hanswers
    | bindCalled _ _ _ _ hnone _ => simp [hnone] at hanswers
    | acceptCalled _ _ _ hnone => simp [hnone] at hanswers
    | recvCalled _ _ _ _ _ _ _ _ _ _ _ hnone _ => simp [hnone] at hanswers
    | socketServed addr hftps hcalls hle hbound =>
      rw [hftps, Ftps.resume]
      split
      · exact hexit hcalls
      · refine ⟨h.kept.calls rfl, .rests hrest (.bindCalled _ addr rfl ?_ (hlast hle) hbound)⟩
        simp [goesOn, hcalls]
    | bindServed sock hftps hcalls hle =>
      rw [hftps, Ftps.resume]
      split
      · exact hexit hcalls
      · refine ⟨h.kept.calls rfl, .rests hrest (.acceptCalled sock rfl ?_ (hlast hle))⟩
        simp [goesOn, hcalls]
    | acceptServed sock hftps hcalls hle hnew =>
      rw [hftps, Ftps.resume]
      split
      · exact hexit hcalls
      · rename_i hcode
        rcases hnew answer (by rw [hanswers]; exact List.mem_cons_self) with hrefused | hsession
        · -- `ftps` has exited above
          exact absurd hrefused hcode
        · obtain ⟨s, job, hs, hreading⟩ := hsession
          have hfd : (codeOf answer).toUInt32 = s := by rw [hs, UInt32.toUInt32_toInt32]
          rw [hlast hle]
          refine h.goes hrest hcalls hreading (Or.inl ⟨codeOf answer, 4,
            sizeHeader job.content.length, rfl, ⟨hfd, rfl⟩, hfd, rfl, rfl⟩)
    | recvServed s job j piece hftps hpiece hcalls hsub hreading =>
      -- an answer there is, so it is the piece
      rw [hanswers] at hsub
      obtain ⟨rfl, rfl⟩ : answer = piece ∧ answers = [] := by
        simpa using hsub.eq_of_length_le (by simp)
      exact h.goes hrest hcalls hreading (hftps.resume hpiece)

end Resume

/-- **One event on the side of `ftps`.** -/
theorem Ok.step (h : x.Ok transfers) {e : FtpsEvent} (hstep : x.step e = .ok (x', os))
    (hnodup : (transfers.map Prod.fst).Nodup)
    (hframed : ∀ e', e = .daemon e' → Framed transfers e') : x'.Ok transfers := by
  cases e with
  | resume =>
    simp only [FtpsSide.step] at hstep
    split at hstep <;> cases hstep
    exact h.resume ‹_›
  | serve sys =>
    simp only [FtpsSide.step] at hstep
    split at hstep
    · cases hstep
    · rename_i hcalls
      split at hstep
      · cases hstep
      · rename_i htcpd
        cases hstep
        exact h.serve hcalls hnodup htcpd
  | daemon e =>
    simp only [FtpsSide.step] at hstep
    split at hstep
    · cases hstep
    · rename_i hfront
      split at hstep
      · cases hstep
      · rename_i htcpd
        cases hstep
        exact h.daemon htcpd hfront (hframed e rfl) hnodup

/-- The file `ftps` has open is the part read so far of a file that is not closed. -/
lemma Ok.opened (h : x.Ok transfers) : x.ftps.opened = [] ∨ ∃ file s job k j,
    x.ftps.opened = [file] ∧ x.Reading transfers s job k j ∧ file.session = s ∧
      file.fileName = job.fileName ∧ file.written <+: job.content := by
  -- every place that is not one of a file is listed, so that `opened` computes
  have hat : ∀ {s job j' k j}, x.ftps.At s job j' → x.Reading transfers s job k j →
      x.ftps.opened = [] ∨ ∃ file s job k j,
        x.ftps.opened = [file] ∧ x.Reading transfers s job k j ∧ file.session = s ∧
          file.fileName = job.fileName ∧ file.written <+: job.content := by
    intro s job j' k j hat hreading
    generalize x.ftps = st at hat ⊢
    cases st with
    | body sock file fileLeft bufIn =>
      obtain ⟨hs, hname, unread, hcontent, -, -⟩ := hat
      exact Or.inr ⟨file, s, job, k, j, rfl, hreading, hs, hname, ⟨unread, hcontent.symm⟩⟩
    | _ => exact Or.inl rfl
  cases h.stage with
  | rests hrest hplace =>
    cases hplace with
    | recvCalled s job j _ _ _ hftps _ _ _ _ _ hreading => exact hat hftps hreading
    | recvServed s job j _ hftps _ _ _ hreading => exact hat hftps hreading
    | socketCalled _ hftps => exact Or.inl (by rw [hftps]; rfl)
    | socketServed _ hftps => exact Or.inl (by rw [hftps]; rfl)
    | bindCalled _ _ hftps => exact Or.inl (by rw [hftps]; rfl)
    | bindServed _ hftps => exact Or.inl (by rw [hftps]; rfl)
    | acceptCalled _ hftps => exact Or.inl (by rw [hftps]; rfl)
    | acceptServed _ hftps => exact Or.inl (by rw [hftps]; rfl)
  | acceptPending _ hftps => exact Or.inl (by rw [hftps]; rfl)
  | recvPending s job j _ hftps _ _ _ hreading => exact hat hftps hreading
  | exited hftps => exact Or.inl (by rw [hftps]; rfl)

/-- The answers to `RECV` are the first pieces of the file. -/
lemma Ok.received (h : x.Ok transfers) (hnodup : (transfers.map Prod.fst).Nodup) {s : UInt32}
    {job : FtpJob} (hjob : (s, job) ∈ transfers) : repliesTo s x.outs <+: job.pieces := by
  cases hs : x.tcpd.sess s with
  | none =>
    rw [h.kept.reads.absent s hs]
    exact List.nil_prefix
  | some a =>
    obtain ⟨job', hjob', -, -, hreplies⟩ := h.kept.reads.present s a hs
    rw [hreplies, FtpcSide.job_unique hnodup hjob hjob']
    exact List.take_prefix _ _

lemma ok_start (frontAddr bindAddr : SockaddrIn) : (start frontAddr bindAddr).Ok [] := by
  have hnone : ∀ s, Tcpd.globalInit.sess s = none := fun _ => rfl
  have hidle : ∀ s, Tcpd.globalInit.IdleAt s := by
    intro s a ha
    rw [hnone] at ha
    cases ha
  refine ⟨⟨⟨sessionsOk_globalInit, fun s a ha => ?_, fun _ _ => rfl, fun s a ha => ?_⟩,
    fun _ _ => rfl, fun s hs => ?_, ?_, List.nodup_nil⟩,
    .rests ⟨Nat.zero_le _, ?_, hidle⟩ (.socketCalled bindAddr rfl rfl rfl rfl)⟩
  · cases (hnone s).symm.trans ha
  · cases (hnone s).symm.trans ha
  · simp [start, Tcpd.Accepted, Tcpd.globalInit] at hs
  · simp [start]
  · simp [start, Tcpd.NobodyAccepts, Tcpd.globalInit]

end FtpsSide

end NetworkProgramming
