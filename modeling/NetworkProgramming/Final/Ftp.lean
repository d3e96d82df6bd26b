import NetworkProgramming.Final.TcpUdp

/-!
# `ftpc.c` and `ftps.c`

Both programs make one call after the other and wait for the answer of their daemon each time,
so each of them is given by the places it waits at and by how it goes on from there
(`Ftpc.resume`, `Ftps.resume`). Nothing in the stream says where the size, the name and the
chunks of a file end: `FtpJob.pieces` lists what a run of `ftpc` sends, and the lengths `ftps`
asks for have to be those of this list.
-/

namespace NetworkProgramming

/-! ## What goes through the stream -/

/-- One run of `ftpc`: the address of its socket, the server it connects to, and the name and
the bytes of the file. -/
structure FtpJob where
  frontAddr : SockaddrIn
  serverAddr : SockaddrIn
  fileName : List UInt8
  content : List UInt8
  nulFree : 0 ∉ fileName
  short : fileName.length ≤ 20
  small : content.length < 2 ^ 32

/-- `buf[0]`, …, `buf[3]`: the size of the file, its highest byte first. -/
def sizeHeader (fileSize : ℕ) : List UInt8 :=
  [UInt8.ofNat (fileSize >>> 24), UInt8.ofNat (fileSize >>> 16), UInt8.ofNat (fileSize >>> 8),
    UInt8.ofNat fileSize]

/-- `file_size` as `ftps` reads it from `buf_in[0]`, …, `buf_in[3]`. -/
def sizeOf (bufIn : Buffer BUF_LEN) : ℕ :=
  (bufIn.toList.getD 0 0).toNat <<< 24 ||| (bufIn.toList.getD 1 0).toNat <<< 16
    ||| (bufIn.toList.getD 2 0).toNat <<< 8 ||| (bufIn.toList.getD 3 0).toNat

/-- The first 20 bytes of `buf` once it is cleared and the name is copied into it. -/
def nameField (fileName : List UInt8) : List UInt8 :=
  (fileName ++ List.replicate (BUF_LEN - fileName.length) 0).take 20

/-- `strcpy(file_name, buf_in)`: the bytes before the first zero. -/
def nameOf (bufIn : Buffer BUF_LEN) : List UInt8 := bufIn.toList.takeWhile (· ≠ 0)

/-- The chunks `fread` returns until the end of the file. -/
def chunks (unread : List UInt8) : List (List UInt8) :=
  if _h : unread = [] then [] else unread.take BUF_LEN :: chunks (unread.drop BUF_LEN)
termination_by unread.length
decreasing_by
  have hpos := List.length_pos_iff.mpr _h
  rw [List.length_drop]
  unfold BUF_LEN
  omega

/-- The buffers one run of `ftpc` sends. -/
def FtpJob.pieces (job : FtpJob) : List (List UInt8) :=
  sizeHeader job.content.length :: nameField job.fileName :: chunks job.content

/-! ## `ftpc` -/

/-- What a call with an `int` result returns. -/
def codeOf (answer : List UInt8) : Int32 := Reads.intOf (Reads.padTo 4 answer)

/-- What `SEND` returns, as an `int`. -/
def sentOf (answer : List UInt8) : Int32 := Reads.intOf (Reads.padTo 8 answer)

/-- `SEND` of no more than a buffer. -/
def Call.sendBytes (sock : Int32) (buf : List UInt8) (h : buf.length ≤ BUF_LEN) : Call :=
  .SEND sock ⟨buf, by unfold BUF_LEN at h; omega⟩

/-- Where `ftpc` waits for an answer. -/
inductive Ftpc
  /-- no `ftpc` runs -/
  | idle
  /-- for the answer to `SOCKET` -/
  | socket (job : FtpJob)
  /-- for the answer to `CONNECT` -/
  | connect (job : FtpJob) (sock : Int32)
  /-- for the answer to the `SEND` of the size -/
  | size (job : FtpJob) (sock : Int32)
  /-- for the answer to the `SEND` of the name -/
  | name (job : FtpJob) (sock : Int32)
  /-- for the answer to the `SEND` of a chunk of `rVal` bytes; `unread` is what `fread` has not
  returned yet -/
  | chunk (job : FtpJob) (sock : Int32) (fileLeft rVal : ℕ) (unread : List UInt8)

namespace Ftpc

/-- The address of the socket of the running `ftpc`. -/
def frontAddr : Ftpc → Option SockaddrIn
  | idle => none
  | socket job => some job.frontAddr
  | connect job _ => some job.frontAddr
  | size job _ => some job.frontAddr
  | name job _ => some job.frontAddr
  | chunk job _ _ _ _ => some job.frontAddr

/-- The head of the loop over the file. -/
def sendLoop (job : FtpJob) (sock : Int32) (fileLeft : ℕ) (unread : List UInt8) :
    Ftpc × List Call :=
  if fileLeft = 0 then (idle, [])
  else
    let buf := unread.take BUF_LEN
    let rVal := min buf.length fileLeft
    (chunk job sock fileLeft rVal (unread.drop BUF_LEN),
      [.sendBytes sock (buf.take rVal) (by simp [buf])])

/-- What `ftpc` does with an answer: where it waits next, and the call it makes. -/
def resume : Ftpc → List UInt8 → Ftpc × List Call
  | idle, _ => (idle, [])
  | socket job, answer =>
    let sock := codeOf answer
    if sock < 0 then (idle, []) else (connect job sock, [.CONNECT sock job.serverAddr])
  | connect job sock, answer =>
    if codeOf answer < 0 then (idle, [])
    else
      (size job sock,
        [.sendBytes sock (sizeHeader job.content.length) (by simp [sizeHeader, BUF_LEN])])
  | size job sock, answer =>
    if sentOf answer < 0 then (idle, [])
    else (name job sock, [.sendBytes sock (nameField job.fileName) (by simp [nameField, BUF_LEN])])
  | name job sock, answer =>
    if sentOf answer < 0 then (idle, []) else sendLoop job sock job.content.length job.content
  | chunk job sock fileLeft rVal unread, answer =>
    if sentOf answer < 0 then (idle, []) else sendLoop job sock (fileLeft - rVal) unread

end Ftpc

/-! ## `ftps` -/

/-- A file `ftps` has opened: the descriptor `ACCEPT` has returned, the name it was opened under
and what is written to it. -/
structure ReceivedFile where
  sockClient : Int32
  fileName : List UInt8
  written : List UInt8
deriving DecidableEq

/-- `RECV` into `buf_in`: what is there afterwards, and the result. -/
def recvInto (bufIn : Buffer BUF_LEN) (len : ℕ) (h : len ≤ BUF_LEN) (answer : List UInt8) :
    Buffer BUF_LEN × ℕ :=
  (bufIn.write 0 (answer.take len) (by simp; omega), (answer.take len).length)

lemma sizeLen_le : 4 ≤ BUF_LEN := by decide

lemma nameLen_le : 20 ≤ BUF_LEN := by decide

/-- The length `ftps` asks for when `fileLeft` bytes are left. -/
def recvLen (fileLeft : ℕ) : ℕ := if fileLeft < BUF_LEN then fileLeft else BUF_LEN

lemma recvLen_le (fileLeft : ℕ) : recvLen fileLeft ≤ BUF_LEN := by
  unfold recvLen
  split <;> omega

/-- Where `ftps` waits for an answer. -/
inductive Ftps
  /-- for the answer to `SOCKET`; `addr` is the address it binds -/
  | socket (addr : SockaddrIn)
  /-- for the answer to `BIND` -/
  | bind (sock : Int32)
  /-- for the answer to `ACCEPT` -/
  | accept (sock : Int32)
  /-- for the size -/
  | size (sock sockClient : Int32) (bufIn : Buffer BUF_LEN)
  /-- for the name -/
  | name (sock sockClient : Int32) (fileSize : ℕ) (bufIn : Buffer BUF_LEN)
  /-- for a chunk -/
  | body (sock : Int32) (file : ReceivedFile) (fileLeft : ℕ) (bufIn : Buffer BUF_LEN)
  /-- it has exited -/
  | exited

namespace Ftps

/-- The file that is open. -/
def opened : Ftps → List ReceivedFile
  | body _ file _ _ => [file]
  | _ => []

/-- The head of the loop over the file: the next `RECV`, or the file is closed and the next
`ACCEPT` made. -/
def recvLoop (sock : Int32) (file : ReceivedFile) (fileLeft : ℕ) (bufIn : Buffer BUF_LEN) :
    Ftps × List Call × List ReceivedFile :=
  if fileLeft = 0 then (accept sock, [.ACCEPT sock], [file])
  else
    (body sock file fileLeft bufIn, [.RECV file.sockClient (UInt64.ofNat (recvLen fileLeft))], [])

/-- What `ftps` does with an answer: where it waits next, the call it makes and the file it
closes. -/
def resume : Ftps → List UInt8 → Ftps × List Call × List ReceivedFile
  | socket addr, answer =>
    let sock := codeOf answer
    if sock < 0 then (exited, [], []) else (bind sock, [.BIND sock addr], [])
  | bind sock, answer =>
    if codeOf answer < 0 then (exited, [], []) else (accept sock, [.ACCEPT sock], [])
  | accept sock, answer =>
    let sockClient := codeOf answer
    if sockClient = -1 then (exited, [], [])
    else (size sock sockClient (.zero BUF_LEN), [.RECV sockClient 4], [])
  | size sock sockClient bufIn, answer =>
    let bufIn := (recvInto bufIn 4 sizeLen_le answer).1
    (name sock sockClient (sizeOf bufIn) bufIn, [.RECV sockClient 20], [])
  | name sock sockClient fileSize bufIn, answer =>
    let r := recvInto bufIn 20 nameLen_le answer
    -- `buf_in[r_val] = 0`
    let bufIn := r.1.write r.2 [0] (by simp [r, recvInto, BUF_LEN])
    recvLoop sock ⟨sockClient, nameOf bufIn, []⟩ fileSize bufIn
  | body sock file fileLeft bufIn, answer =>
    let r := recvInto bufIn (recvLen fileLeft) (recvLen_le fileLeft) answer
    let rVal := min r.2 fileLeft
    recvLoop sock { file with written := file.written ++ r.1.toList.take rVal }
      (fileLeft - rVal) r.1
  | exited, _ => (exited, [], [])

end Ftps

/-! ## The pieces line up -/

@[simp] lemma chunks_nil : chunks [] = [] := by
  rw [chunks]
  exact dif_pos rfl

lemma chunks_of_ne {unread : List UInt8} (h : unread ≠ []) :
    chunks unread = unread.take BUF_LEN :: chunks (unread.drop BUF_LEN) := by
  rw [chunks]
  exact dif_neg h

/-- A chunk is as long as `ftps` expects. -/
lemma length_take_eq_recvLen (unread : List UInt8) :
    (unread.take BUF_LEN).length = recvLen unread.length := by
  rw [List.length_take, recvLen]
  split <;> omega

/-- No chunk is empty or longer than a buffer. -/
lemma mem_chunks {unread b : List UInt8} (h : b ∈ chunks unread) :
    0 < b.length ∧ b.length ≤ BUF_LEN := by
  induction unread using chunks.induct with
  | case1 => simp at h
  | case2 unread hne ih =>
    rw [chunks_of_ne hne] at h
    rcases List.mem_cons.mp h with rfl | h
    · have hpos := List.length_pos_iff.mpr hne
      rw [List.length_take]
      unfold BUF_LEN
      omega
    · exact ih h

lemma length_nameField (fileName : List UInt8) : (nameField fileName).length = 20 := by
  simp only [nameField, List.length_take, List.length_append, List.length_replicate, BUF_LEN]
  omega

/-- No piece is empty or longer than a buffer. -/
lemma FtpJob.mem_pieces {job : FtpJob} {b : List UInt8} (h : b ∈ job.pieces) :
    0 < b.length ∧ b.length ≤ BUF_LEN := by
  rcases List.mem_cons.mp h with rfl | h
  · simp [sizeHeader, BUF_LEN]
  rcases List.mem_cons.mp h with rfl | h
  · rw [length_nameField]
    simp [BUF_LEN]
  · exact mem_chunks h

/-- What a `RECV` leaves in `buf_in`. -/
lemma take_recvInto {bufIn : Buffer BUF_LEN} {len : ℕ} (h : len ≤ BUF_LEN) {answer : List UInt8}
    (hlen : answer.length ≤ len) :
    (recvInto bufIn len h answer).1.toList.take answer.length = answer ∧
      (recvInto bufIn len h answer).2 = answer.length := by
  have htake : answer.take len = answer := List.take_of_length_le hlen
  refine ⟨?_, congrArg List.length htake⟩
  unfold recvInto
  rw [Buffer.take_write _ (by rw [htake, Nat.zero_add]), htake, List.take_zero, List.nil_append]

/-- The bytes of a number add up to it. -/
lemma lor_bytes {n : ℕ} (h : n < 2 ^ 32) :
    ((n >>> 24) % 256) <<< 24 ||| ((n >>> 16) % 256) <<< 16 ||| ((n >>> 8) % 256) <<< 8 ||| n % 256
      = n := by
  simp only [Nat.shiftRight_eq_div_pow]
  have h₁ : (n / 2 ^ 24 % 256) <<< 24 ||| (n / 2 ^ 16 % 256) <<< 16 = (n / 2 ^ 16) <<< 16 := by
    rw [← Nat.shiftLeft_add_eq_or_of_lt (by rw [Nat.shiftLeft_eq]; omega)]
    simp only [Nat.shiftLeft_eq]
    omega
  have h₂ : (n / 2 ^ 16) <<< 16 ||| (n / 2 ^ 8 % 256) <<< 8 = (n / 2 ^ 8) <<< 8 := by
    rw [← Nat.shiftLeft_add_eq_or_of_lt (by rw [Nat.shiftLeft_eq]; omega)]
    simp only [Nat.shiftLeft_eq]
    omega
  rw [h₁, h₂, ← Nat.shiftLeft_add_eq_or_of_lt (by omega), Nat.shiftLeft_eq]
  omega

/-- The size survives the four bytes. -/
lemma sizeOf_sizeHeader {fileSize : ℕ} (h : fileSize < 2 ^ 32) {bufIn : Buffer BUF_LEN}
    (hbuf : bufIn.toList.take 4 = sizeHeader fileSize) : sizeOf bufIn = fileSize := by
  have hbyte : ∀ i < 4, bufIn.toList.getD i 0 = (sizeHeader fileSize).getD i 0 := by
    intro i hi
    rw [← hbuf, List.getD_eq_getElem?_getD, List.getD_eq_getElem?_getD,
      List.getElem?_take_of_lt hi]
  unfold sizeOf
  rw [hbyte 0 (by omega), hbyte 1 (by omega), hbyte 2 (by omega), hbyte 3 (by omega)]
  simpa [sizeHeader] using lor_bytes h

/-- The name survives its field. -/
lemma nameOf_nameField {fileName : List UInt8} (hnul : 0 ∉ fileName)
    (hshort : fileName.length ≤ 20) {bufIn : Buffer BUF_LEN}
    (hbuf : bufIn.toList.take 21 = nameField fileName ++ [0]) : nameOf bufIn = fileName := by
  have hfield : nameField fileName
      = fileName ++ List.replicate (20 - fileName.length) 0 := by
    have hmin : min (20 - fileName.length) (BUF_LEN - fileName.length) = 20 - fileName.length := by
      unfold BUF_LEN
      omega
    rw [nameField, List.take_append, List.take_of_length_le hshort, List.take_replicate, hmin]
  obtain ⟨rest, hrest⟩ : ∃ rest, bufIn.toList = fileName ++ 0 :: rest := by
    rw [← List.take_append_drop 21 bufIn.toList, hbuf, hfield]
    cases 20 - fileName.length with
    | zero => exact ⟨bufIn.toList.drop 21, by simp⟩
    | succ k =>
      exact ⟨List.replicate k 0 ++ [0] ++ bufIn.toList.drop 21, by simp [List.replicate_succ]⟩
  have hkeep : ∀ b ∈ fileName, decide (b ≠ 0) = true := by
    intro b hb
    simp only [ne_eq, decide_eq_true_eq]
    intro hzero
    exact hnul (hzero ▸ hb)
  rw [nameOf, hrest, List.takeWhile_append_of_pos hkeep, List.takeWhile_cons_of_neg (by simp),
    List.append_nil]

end NetworkProgramming
