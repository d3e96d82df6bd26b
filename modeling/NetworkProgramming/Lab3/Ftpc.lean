import NetworkProgramming.Lab2.Ftps

/-!
# `ftpc.c` over datagrams, in `lab3` and in `proj1`

The client sends the length of the file, its name and every 800 bytes of the file as a datagram
each. The two directories have the same programs, but for the bytes of the length, the test of the
loops over the file and the `fclose` of the server.
-/

namespace NetworkProgramming.Lab3

open Lab2 (iniFileInfo htonl ntohl fileNameField Received)

/-! ## Where the programs differ -/

/-- The directory of the programs. -/
inductive Version
  | lab3
  | proj1
deriving DecidableEq

namespace Version

/-- The first datagram: `net_order_len`, or the memory of `finfo.len`. -/
def lenField (v : Version) (len : Int32) : List UInt8 :=
  match v with
  | lab3 => htonl len
  | proj1 => leBytes 4 len.toUInt32.toNat

/-- `file_len`, out of the first four bytes of `buf`. -/
def fileLen (v : Version) (buf : Buffer 4) : Int32 :=
  match v with
  | lab3 => ntohl buf
  | proj1 => (UInt32.ofNat (ofLeBytes buf.toList)).toInt32

/-- The test of the loops over the file, `left_len != 0` or `left_len > 0`. -/
def more (v : Version) (leftLen : Int32) : Bool :=
  match v with
  | lab3 => leftLen ≠ 0
  | proj1 => 0 < leftLen

end Version

/-! ## The client -/

/-- The loop over the file; when `fread` returns 0 before the test fails, it does not end. -/
def sendData (v : Version) (leftLen : Int32) (unread : List UInt8) : Option (List (List UInt8)) :=
  if v.more leftLen = false then some []
  else if _h : unread = [] then none
  else
    (sendData v (leftLen - Int32.ofNat (unread.take 800).length) (unread.drop 800)).map
      (unread.take 800 :: ·)
termination_by unread.length
decreasing_by
  have := List.length_pos_iff.mpr _h
  rw [List.length_drop]
  omega

/-- What `main` sends, one datagram for each `SEND`. -/
def ftpc (v : Version) (fopen : List UInt8 → Option (List UInt8)) (fileName : List UInt8) :
    Option (List (List UInt8)) := do
  let len ← iniFileInfo fopen fileName
  let content ← fopen fileName
  let data ← sendData v len content
  return v.lenField len :: fileNameField fileName :: data

/-! ## What the client sends -/

namespace Version

/-- The server decodes the length that the client has sent. -/
lemma fileLen_eq (v : Version) {buf : Buffer 4} {len : Int32} (h : buf.toList = v.lenField len) :
    v.fileLen buf = len := by
  cases v with
  | lab3 => exact Lab2.ntohl_eq_iff.mpr h
  | proj1 =>
    have hsmall := len.toUInt32.toNat_lt
    show (UInt32.ofNat (ofLeBytes buf.toList)).toInt32 = len
    rw [h, lenField, ofLeBytes_leBytes, Nat.mod_eq_of_lt (by omega), UInt32.ofNat_toNat,
      Int32.toInt32_toUInt32]

lemma length_lenField (v : Version) (len : Int32) : (v.lenField len).length = 4 := by
  cases v with
  | lab3 => exact Lab2.length_htonl len
  | proj1 => exact length_leBytes 4 _

/-- As long as the length is counted right, the test asks whether anything is left. -/
lemma more_ofNat (v : Version) {n : ℕ} (hn : n < 2 ^ 31) :
    v.more (Int32.ofNat n) = true ↔ n ≠ 0 := by
  have hlt : (0 : Int32) < Int32.ofNat n ↔ 0 < n := by
    rw [Int32.lt_iff_toInt_lt, Int32.toInt_ofNat_of_lt hn]
    exact Int.natCast_pos
  cases v with
  | lab3 =>
    rcases Nat.eq_zero_or_pos n with rfl | hpos
    · simp [more]
    · simp [more, Lab2.ofNat_ne_zero hpos hn, hpos.ne']
  | proj1 => simp [more, hlt, Nat.pos_iff_ne_zero]

end Version

/-- The loop over the file sends the file in pieces that are full but for the last. -/
structure Pieces (content : List UInt8) (data : List (List UInt8)) : Prop where
  flatten : data.flatten = content
  nonempty : ∀ d ∈ data, d ≠ []
  short : ∀ d ∈ data, d.length ≤ 800
  count : data.length = (content.length + 799) / 800

lemma pieces_of_sendData {v : Version} {content : List UInt8} (hsize : content.length < 2 ^ 31) :
    ∃ data, sendData v (Int32.ofNat content.length) content = some data ∧ Pieces content data := by
  induction hn : content.length using Nat.strong_induction_on generalizing content with
  | h n ih =>
    subst hn
    by_cases hnil : content = []
    · subst hnil
      refine ⟨[], ?_, rfl, by simp, by simp, rfl⟩
      unfold sendData
      exact if_pos (by simpa using v.more_ofNat (n := 0) (by norm_num))
    · have hpos := List.length_pos_iff.mpr hnil
      obtain ⟨data, hdata, hpieces⟩ := ih (content.drop 800).length
        (by rw [List.length_drop]; omega) (by rw [List.length_drop]; omega) rfl
      have hmore : ¬ v.more (Int32.ofNat content.length) = false := by
        simp [v.more_ofNat hsize, hpos.ne']
      have hdrop : content.drop (content.take 800).length = content.drop 800 := by
        rw [List.length_take]
        rcases Nat.le_total 800 content.length with h | h
        · rw [min_eq_left h]
        · rw [min_eq_right h, List.drop_length, List.drop_eq_nil_of_le h]
      refine ⟨content.take 800 :: data, ?_, ?_, ?_, ?_, ?_⟩
      · rw [sendData, if_neg hmore, dif_neg hnil,
          Lab2.ofNat_sub_length (by rw [List.length_take]; exact min_le_right _ _), hdrop, hdata]
        rfl
      · rw [List.flatten_cons, hpieces.flatten, List.take_append_drop]
      · intro d hd
        rcases List.mem_cons.mp hd with rfl | hd
        · simpa using hnil
        · exact hpieces.nonempty d hd
      · intro d hd
        rcases List.mem_cons.mp hd with rfl | hd
        · exact List.length_take_le 800 content
        · exact hpieces.short d hd
      · rw [List.length_cons, hpieces.count, List.length_drop]
        omega

/-- How many datagrams it takes to send a file, when none is longer than 800 bytes. -/
def datagramCount (content : List UInt8) : ℕ := 2 + (content.length + 799) / 800

/-- A file for `ftpc`, with a name that is a string and a length that `ftell` can return. -/
structure Job where
  fileName : List UInt8
  content : List UInt8
  nul : 0 ∉ fileName
  size : content.length < 2 ^ 31

namespace Job

variable (v : Version)

/-- What `ftpc` sends for the file. -/
def send (job : Job) : Option (List (List UInt8)) :=
  ftpc v (fun _ => some job.content) job.fileName

/-- What the client runs send, one behind the other. -/
def sendAll : List Job → Option (List (List UInt8))
  | [] => some []
  | job :: jobs => do
    let datagrams ← job.send v
    let rest ← sendAll jobs
    return datagrams ++ rest

/-- The file as the server should save it. -/
def saved (job : Job) : Received := ⟨Int32.ofNat job.content.length, job.fileName, some job.content⟩

variable {v}

/-- An accepted file is sent as its length, its name and its pieces. -/
lemma send_eq {job : Job} {datagrams : List (List UInt8)} (h : job.send v = some datagrams) :
    job.fileName.length ≤ 25 ∧ ∃ data, Pieces job.content data ∧ datagrams
      = v.lenField (Int32.ofNat job.content.length) :: fileNameField job.fileName :: data := by
  obtain ⟨data, hdata, hpieces⟩ := pieces_of_sendData (v := v) job.size
  unfold send ftpc iniFileInfo at h
  dsimp only at h
  split at h
  · cases h
  · rename_i hlong
    split at h
    · cases h
    · simp only [Option.bind_eq_bind, Option.bind_some, hdata] at h
      cases h
      exact ⟨not_lt.mp hlong, data, hpieces, rfl⟩

lemma sendAll_cons {job : Job} {jobs : List Job} {datagrams : List (List UInt8)} :
    sendAll v (job :: jobs) = some datagrams ↔
      ∃ ds rest, job.send v = some ds ∧ sendAll v jobs = some rest ∧ datagrams = ds ++ rest := by
  simp only [sendAll, Option.bind_eq_bind, Option.bind_eq_some_iff]
  constructor
  · rintro ⟨ds, hds, rest, hrest, heq⟩
    cases heq
    exact ⟨ds, rest, hds, hrest, rfl⟩
  · rintro ⟨ds, rest, hds, hrest, rfl⟩
    exact ⟨ds, hds, rest, hrest, rfl⟩

lemma length_sendAll {jobs : List Job} {sent : List (List UInt8)}
    (h : sendAll v jobs = some sent) :
    sent.length = (jobs.map fun job => datagramCount job.content).sum ∧
      ∀ d ∈ sent, d.length ≤ 800 := by
  induction jobs generalizing sent with
  | nil =>
    cases h
    exact ⟨rfl, by simp⟩
  | cons job jobs ih =>
    obtain ⟨ds, rest, hds, hrest, rfl⟩ := sendAll_cons.mp h
    obtain ⟨hname, data, hpieces, rfl⟩ := send_eq hds
    obtain ⟨hlength, hshort⟩ := ih hrest
    constructor
    · rw [List.map_cons, List.sum_cons, ← hlength, datagramCount, ← hpieces.count]
      simp only [List.length_append, List.length_cons]
      omega
    · intro d hd
      simp only [List.cons_append, List.mem_cons, List.mem_append] at hd
      rcases hd with rfl | rfl | hd | hd
      · rw [v.length_lenField]
        norm_num
      · rw [Lab2.length_fileNameField hname]
        norm_num
      · exact hpieces.short d hd
      · exact hshort d hd

end Job

end NetworkProgramming.Lab3
