import NetworkProgramming.Lib.Bytes
import NetworkProgramming.Lib.Loop
import Mathlib.Data.List.GetD
import Mathlib.Data.List.TakeWhile

/-!
# The word counter

`count <input-filename> <search-string> <output-filename>` reads a file through a buffer of 100
bytes and counts, with `kmp_match`, how often the search string stands in it. `matched_times` and
`cnt` are `int`s. The pointers of `kmp_match` are offsets into the text and the pattern, and
`matched_len` is a number: the table `next` of one `int` a byte stands on the stack, so a pattern
is far from `INT_MAX` bytes.
-/

namespace NetworkProgramming

/-- A C string: the bytes before the terminating NUL. -/
structure CString where
  bytes : List UInt8
  nulFree : 0 ∉ bytes
deriving DecidableEq

namespace CString

/-- `strlen`. -/
def length (s : CString) : ℕ := s.bytes.length

/-- The byte at an offset, the terminating NUL included. -/
def byte (s : CString) (i : ℕ) : UInt8 := s.bytes.getD i 0

/-- The C string that starts at the front of a block. -/
def ofBlock (block : List UInt8) : CString where
  bytes := block.takeWhile (· ≠ 0)
  nulFree h := by simpa using List.mem_takeWhile_imp h

lemma byte_eq_zero {s : CString} {i : ℕ} : s.byte i = 0 ↔ s.length ≤ i := by
  rw [byte, length]
  by_cases hi : i < s.bytes.length
  · rw [List.getD_eq_getElem _ _ hi]
    refine iff_of_false (fun h => s.nulFree ?_) (by omega)
    rw [← h]
    exact List.getElem_mem hi
  · rw [List.getD_eq_getElem?_getD, List.getElem?_eq_none (by omega)]
    exact iff_of_true rfl (by omega)

lemma getElem?_of_byte {s : CString} {i : ℕ} (h : s.byte i ≠ 0) :
    s.bytes[i]? = some (s.byte i) := by
  rw [Ne, byte_eq_zero, not_le] at h
  rw [byte, List.getD_eq_getElem _ _ h]
  exact List.getElem?_eq_getElem h

end CString

/-! ## `gen_next` -/

/-- One round of the loop over `val` and `next`. -/
def genNextRound (p : CString) (s : ℕ × List ℕ) (i : ℕ) : ℕ × List ℕ :=
  if p.byte i = p.byte s.1 then (s.1 + 1, s.2.set i (s.1 + 1)) else (0, s.2)

/-- Generate the table `next`. -/
def genNext (p : CString) (len : ℕ) : List ℕ :=
  if len ≤ 1 then List.replicate len 0
  else ((List.range' 1 (len - 1)).foldl (genNextRound p) (0, List.replicate len 0)).2

/-- The value of `val` when index `i` is done. -/
def valAt (p : CString) : ℕ → ℕ
  | 0 => 0
  | i + 1 => if p.byte (i + 1) = p.byte (valAt p i) then valAt p i + 1 else 0

lemma valAt_succ (p : CString) (i : ℕ) :
    valAt p (i + 1) = if p.byte (i + 1) = p.byte (valAt p i) then valAt p i + 1 else 0 := rfl

lemma valAt_le (p : CString) (i : ℕ) : valAt p i ≤ i := by
  induction i with
  | zero => exact Nat.le_refl 0
  | succ i ih =>
    rw [valAt_succ]
    split <;> omega

/-- After `k` rounds the table holds the values of `val` so far. -/
lemma foldl_genNextRound (p : CString) {len k : ℕ} (hk : k < len) :
    (List.range' 1 k).foldl (genNextRound p) (0, List.replicate len 0)
      = (valAt p k, (List.range len).map fun i => if i ≤ k then valAt p i else 0) := by
  induction k with
  | zero =>
    refine Prod.ext rfl (List.ext_getElem (by simp) fun i _ _ => ?_)
    match i with
    | 0 => simp [valAt]
    | i + 1 => simp
  | succ k ih =>
    rw [List.range'_1_concat, List.foldl_append, ih (by omega), List.foldl_cons, List.foldl_nil,
      genNextRound, Nat.add_comm 1 k]
    simp only [valAt]
    split
    · refine Prod.ext rfl (List.ext_getElem (by simp) fun i _ _ => ?_)
      rw [List.getElem_set]
      split
      · subst_vars
        simp [valAt, *]
      · have hne : ¬ i = k + 1 := fun h => by omega
        simp only [List.getElem_map, List.getElem_range]
        congr 1
        exact propext ⟨fun h => by omega, fun h => by omega⟩
    · refine Prod.ext rfl (List.ext_getElem (by simp) fun i _ _ => ?_)
      simp only [List.getElem_map, List.getElem_range]
      by_cases hi : i = k + 1
      · subst hi
        rw [if_neg (by omega), if_pos (Nat.le_refl _)]
        simp [valAt, *]
      · congr 1
        exact propext ⟨fun h => by omega, fun h => by omega⟩

/-- Entry `i` of the table is the value of `val` when index `i` is done. -/
lemma getD_genNext (p : CString) {len i : ℕ} (hi : i < len) :
    (genNext p len).getD i 0 = valAt p i := by
  unfold genNext
  split
  · obtain rfl : i = 0 := by omega
    simp [valAt, hi]
  · rw [foldl_genNextRound p (by omega), List.getD_eq_getElem _ _ (by simpa using hi)]
    simp only [List.getElem_map, List.getElem_range]
    exact if_pos (by omega)

lemma getD_genNext_le (p : CString) (len i : ℕ) : (genNext p len).getD i 0 ≤ i := by
  by_cases hi : i < len
  · rw [getD_genNext p hi]
    exact valAt_le p i
  · have hlen : (genNext p len).length = len := by
      unfold genNext
      split
      · exact List.length_replicate
      · rw [foldl_genNextRound p (by omega)]
        simp
    rw [List.getD_eq_getElem?_getD, List.getElem?_eq_none (by omega)]
    exact Nat.zero_le i
/-! ## `kmp_match` -/

/-- The variables of the search loop. `t` and `p` stand `matchedLen` bytes after the candidate
`curHead` and the start of the pattern, inside the text and the pattern. -/
structure KmpState (text pattern : CString) where
  curHead : ℕ
  t : ℕ
  p : ℕ
  matchedLen : ℕ
  matchedTimes : Int32
  t_eq : t = curHead + matchedLen
  p_eq : p = matchedLen
  t_le : t ≤ text.length
  lt : matchedLen ≤ pattern.length - 1

namespace KmpState

variable {text pattern : CString}

/-- The variables before the loop. -/
def start (text pattern : CString) : KmpState text pattern :=
  ⟨0, 0, 0, 0, 0, rfl, rfl, Nat.zero_le _, Nat.zero_le _⟩

/-- Move the candidate after `matchedLen` bytes have matched. -/
def shift (s : KmpState text pattern) (matchedLen : ℕ) (matchedTimes : Int32)
    (hle : s.curHead + matchedLen ≤ text.length) (hlt : matchedLen ≤ pattern.length)
    (hpos : 0 < matchedLen) : KmpState text pattern :=
  let next := (genNext pattern pattern.length).getD (matchedLen - 1) 0
  { curHead := s.curHead + (matchedLen - next)
    t := s.curHead + (matchedLen - next) + next
    p := next
    matchedLen := next
    matchedTimes := matchedTimes
    t_eq := rfl
    p_eq := rfl
    t_le := by
      have := getD_genNext_le pattern pattern.length (matchedLen - 1)
      omega
    lt := by
      have := getD_genNext_le pattern pattern.length (matchedLen - 1)
      omega }

/-- One round of the search loop. -/
def round (s : KmpState text pattern) : Round Empty (KmpState text pattern) :=
  if hend : text.byte s.t = 0 then .leave
  else
    have ht : s.t < text.length := by simpa [CString.byte_eq_zero] using hend
    if hne : text.byte s.t ≠ pattern.byte s.p then
      if hpos : 0 < s.matchedLen then
        .again (s.shift s.matchedLen s.matchedTimes (by have := s.t_eq; omega)
          (by have := s.lt; omega) hpos)
      else
        .again { s with
          curHead := s.curHead + 1
          t := s.curHead + 1
          p := 0
          matchedLen := 0
          t_eq := rfl
          p_eq := rfl
          t_le := by have := s.t_eq; omega
          lt := Nat.zero_le _ }
    else if hfull : s.matchedLen + 1 = pattern.length then
      .again (s.shift (s.matchedLen + 1) (s.matchedTimes + 1) (by have := s.t_eq; omega)
        (by omega) (Nat.succ_pos _))
    else
      .again { s with
        t := s.t + 1
        p := s.p + 1
        matchedLen := s.matchedLen + 1
        t_eq := by have := s.t_eq; omega
        p_eq := by have := s.p_eq; omega
        t_le := ht
        lt := by
          have hp : s.p < pattern.length := by
            rw [not_not] at hne
            rw [hne, CString.byte_eq_zero] at hend
            omega
          have := s.p_eq
          omega }

/-- What is left of the text counts twice, once for `t` and once for the candidate. -/
def measure (s : KmpState text pattern) : ℕ := 2 * text.length - (s.curHead + s.t)

lemma measure_round {s s' : KmpState text pattern} (h : s.round = .again s') :
    s'.measure < s.measure := by
  have ht := s.t_eq
  have hle := s.t_le
  unfold round at h
  split at h
  · cases h
  · rename_i hend
    rw [CString.byte_eq_zero] at hend
    split at h
    · split at h
      · rename_i hpos
        obtain rfl := Round.again.inj h
        have := getD_genNext_le pattern pattern.length (s.matchedLen - 1)
        simp only [measure, shift]
        omega
      · obtain rfl := Round.again.inj h
        simp only [measure]
        omega
    · split at h
      · obtain rfl := Round.again.inj h
        have := getD_genNext_le pattern pattern.length s.matchedLen
        simp only [measure, shift, Nat.add_sub_cancel]
        omega
      · obtain rfl := Round.again.inj h
        simp only [measure]
        omega

/-- The search loop. -/
def loop (text pattern : CString) : Loop Empty (KmpState text pattern) where
  body := round
  measure := measure
  decreases _ _ := measure_round

end KmpState

/-- To search how many words in the text can match the pattern. Without a text the answer is -1;
a null pattern is read by `strlen` before it is checked. -/
def kmpMatch (text : Option CString) (pattern : CString) : Int32 :=
  match text with
  | none => -1
  | some text =>
    match (KmpState.loop text pattern).run (.start text pattern) with
    | .ok s => s.matchedTimes
    | .error x => x.elim

/-! ## `main` -/

/-- The file is read in pieces that fit behind the bytes kept in the buffer. -/
def bufferSize : ℕ := 100

/-- `strncpy` inside one block, byte by byte from the front: `len` bytes from `src` on go to
`dst`, and after a NUL only NULs. -/
def strncpy (block : List UInt8) (dst src : ℕ) : ℕ → List UInt8
  | 0 => block
  | len + 1 =>
    if block.getD src 0 = 0 then strncpy (block.set dst 0) (dst + 1) src len
    else strncpy (block.set dst (block.getD src 0)) (dst + 1) (src + 1) len

@[simp] lemma length_strncpy (block : List UInt8) (dst src len : ℕ) :
    (strncpy block dst src len).length = block.length := by
  induction len generalizing block dst src with
  | zero => rfl
  | succ len ih =>
    unfold strncpy
    split <;> rw [ih, List.length_set]

/-- The variables of the read loop, and what of the file is not read yet. -/
structure CountState where
  text : Buffer bufferSize
  leftWord : ℕ
  cnt : Int32
  matchedTimes : Int32
  unread : List UInt8
  room : leftWord < bufferSize

namespace CountState

/-- The variables before the loop; `text` is not initialised. -/
def start (text : Buffer bufferSize) (file : List UInt8) : CountState :=
  ⟨text, 0, 0, 0, file, by decide⟩

/-- What `fread` returns: a read of a file gives what fits as long as the file has it. -/
def chunk (s : CountState) : List UInt8 := s.unread.take (bufferSize - s.leftWord - 1)

lemma length_chunk (s : CountState) :
    s.chunk.length = min (bufferSize - s.leftWord - 1) s.unread.length := List.length_take

/-- The buffer with NULs from `read_begin` on. -/
def cleared (s : CountState) : Buffer bufferSize :=
  s.text.write s.leftWord (List.replicate (bufferSize - s.leftWord) 0) (by
    rw [List.length_replicate]
    exact Nat.le_of_eq (Nat.add_sub_cancel' (Nat.le_of_lt s.room)))

/-- The buffer after `fread`. -/
def filled (s : CountState) : Buffer bufferSize :=
  s.cleared.write s.leftWord s.chunk (by
    have := s.room
    rw [length_chunk]
    omega)

/-- The read loop, for a search function `kmp`. -/
def loop (kmp : Option CString → CString → Int32) (pattern : CString) (s : CountState) :
    CountState :=
  let readNum := s.chunk.length
  if hread : readNum = 0 then { s with text := s.cleared }
  else
    let cnt := s.cnt + Int32.ofNat readNum
    let matchedTimes := s.matchedTimes + kmp (some (.ofBlock s.filled.toList)) pattern
    let unread := s.unread.drop (bufferSize - s.leftWord - 1)
    -- `strlen(pattern) - 1` is a `size_t`: for an empty pattern it is above everything
    if hlast : pattern.length = 0 ∨ s.leftWord + readNum < pattern.length - 1 then
      { s with text := s.filled, cnt := cnt, matchedTimes := matchedTimes, unread := unread }
    else
      let left := pattern.length - 1
      loop kmp pattern
        { text := ⟨strncpy s.filled.toList 0 (readNum + s.leftWord - left) left, by simp⟩
          leftWord := left
          cnt := cnt
          matchedTimes := matchedTimes
          unread := unread
          room := by
            have := s.room
            have := s.length_chunk
            omega }
termination_by s.unread.length
decreasing_by
  have := s.length_chunk
  rw [List.length_drop]
  omega

end CountState

/-- What `main` ends with: a message and the exit code -1, or the text in the output file. -/
inductive CountResult
  | refused (message : String)
  | written (pathOut : CString) (result : String)

/-- `main`, for the files that can be opened and the bytes that lie in `text` at the start. -/
def countMain (argv : List CString) (fopen : CString → Option (List UInt8))
    (text : Buffer bufferSize) : CountResult :=
  match argv with
  | [_, pathIn, pattern, pathOut] =>
    match fopen pathIn with
    | none =>
      .refused ("No <input-filename> called \"" ++
        String.ofList (pathIn.bytes.map fun c => Char.ofNat c.toNat) ++
        "\" be found. Please check the name.\n")
    | some file =>
      let s := CountState.loop kmpMatch pattern (.start text file)
      .written pathOut ("file size: " ++ toString s.cnt ++ ",\tmatched times: " ++
        toString s.matchedTimes ++ ".\n")
  | _ =>
    .refused ("The argument number should be four, like " ++
      "\"count <input-filename> <search-string> <output-filename>\"\n")

end NetworkProgramming
