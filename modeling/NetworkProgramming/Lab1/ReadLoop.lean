import NetworkProgramming.Lab1.KmpMatch

/-!
# The read loop of the counter

`main` searches the file piece by piece. It keeps the last `strlen(pattern) - 1` bytes of a piece
in front of the next one, so an occurrence across the boundary stands in the next piece and
nothing else of the last piece does. `CountState.Read` says which part of the file is done, and
`loop_read` carries it to the end of the file. `cnt` is an `int`, so the result is right for
the files that have fewer than `2 ^ 31` bytes (`readLoop_exact_iff`).
-/

namespace NetworkProgramming

/-! ## `strncpy` -/

/-- Copied towards the front and without a NUL, the bytes arrive as they were. -/
lemma strncpy_eq {block : List UInt8} {dst src len : ℕ} (hle : dst ≤ src)
    (hlen : src + len ≤ block.length) (hnul : 0 ∉ (block.drop src).take len) :
    strncpy block dst src len
      = block.take dst ++ (block.drop src).take len ++ block.drop (dst + len) := by
  induction len generalizing block dst src with
  | zero => simp [strncpy]
  | succ len ih =>
    have hsrc : src < block.length := by omega
    have hsplit : (block.drop src).take (len + 1)
        = block[src] :: (block.drop (src + 1)).take len := by
      rw [List.drop_eq_getElem_cons hsrc, List.take_succ_cons]
    rw [hsplit, List.mem_cons, not_or] at hnul
    -- the byte that is overwritten has been read before
    have hlater : (block.set dst block[src]).drop (src + 1) = block.drop (src + 1) :=
      List.drop_set_of_lt (by omega)
    have hrest : (block.set dst block[src]).drop (dst + 1 + len) = block.drop (dst + 1 + len) :=
      List.drop_set_of_lt (by omega)
    have hfront : (block.set dst block[src]).take (dst + 1) = block.take dst ++ [block[src]] := by
      rw [List.take_succ_eq_append_getElem (by rw [List.length_set]; omega),
        List.take_set_of_le (Nat.le_refl dst), List.getElem_set_self]
    unfold strncpy
    rw [List.getD_eq_getElem _ _ hsrc, if_neg (Ne.symm hnul.1),
      ih (by omega) (by rw [List.length_set]; omega) (by rw [hlater]; exact hnul.2), hlater,
      hrest, hfront, hsplit, List.append_assoc, List.append_assoc, List.append_assoc,
      Nat.add_right_comm dst 1 len]
    rfl

/-! ## The buffer -/

namespace CString

/-- The string at the front of a block ends where the block has its first NUL. -/
lemma bytes_ofBlock {bs rest : List UInt8} (h : 0 ∉ bs) :
    (ofBlock (bs ++ 0 :: rest)).bytes = bs := by
  have hall : ∀ b ∈ bs, decide (b ≠ 0) = true := by
    intro b hb
    exact decide_eq_true fun hzero => h (hzero ▸ hb)
  change (bs ++ 0 :: rest).takeWhile (fun b => decide (b ≠ 0)) = bs
  rw [List.takeWhile_append_of_pos hall, List.takeWhile_cons_of_neg (by decide), List.append_nil]

end CString

namespace CountState

variable {s : CountState}

/-- The bytes kept from the last piece. -/
def carry (s : CountState) : List UInt8 := s.text.toList.take s.leftWord

lemma length_carry (s : CountState) : s.carry.length = s.leftWord := by
  have := s.room
  rw [carry, List.length_take, List.Vector.toList_length]
  omega

/-- After `fread` the buffer holds the kept bytes, the new ones and NULs. -/
lemma toList_filled (s : CountState) :
    s.filled.toList = s.carry ++ s.chunk ++
      List.replicate (bufferSize - s.leftWord - s.chunk.length) 0 := by
  have hroom := s.room
  have hfront : s.cleared.toList.take s.leftWord = s.carry := by
    exact Buffer.take_write_of_le _ (Nat.le_refl _)
  have hback : s.cleared.toList = s.carry ++ List.replicate (bufferSize - s.leftWord) 0 := by
    unfold cleared Buffer.write carry
    rw [List.Vector.toList_mk, List.length_replicate,
      List.drop_eq_nil_of_le (by rw [List.Vector.toList_length]; omega), List.append_nil]
  unfold filled Buffer.write
  rw [List.Vector.toList_mk, hfront]
  congr 1
  rw [hback, ← s.length_carry, List.drop_append, List.drop_eq_nil_of_le (by omega),
    List.nil_append, Nat.add_sub_cancel_left, List.drop_replicate]

/-- The string that is searched. -/
lemma bytes_filled (hnul : 0 ∉ s.carry ++ s.chunk) :
    (CString.ofBlock s.filled.toList).bytes = s.carry ++ s.chunk := by
  have hroom := s.room
  have hchunk := s.length_chunk
  have hspace : bufferSize - s.leftWord - s.chunk.length
      = bufferSize - s.leftWord - s.chunk.length - 1 + 1 := by omega
  rw [toList_filled, hspace, List.replicate_succ, CString.bytes_ofBlock hnul]

/-! ## The file -/

/-- The part `done` of the file is searched and its end is kept, one byte short of the pattern. -/
structure Read (pattern : CString) (done : List UInt8) (s : CountState) : Prop where
  cnt : s.cnt = Int32.ofNat done.length
  times : s.matchedTimes = Int32.ofNat (occurrences pattern.bytes done)
  kept : ∃ x, done = x ++ s.carry
  overlap : (done = [] ∧ s.leftWord = 0) ∨ s.leftWord + 1 = pattern.length

variable {pattern : CString} {done : List UInt8}

lemma read_start (text : Buffer bufferSize) (file : List UInt8) (hpos : 0 < pattern.length) :
    (start text file).Read pattern [] where
  cnt := rfl
  times := by
    rw [occurrences_eq_zero_of_length (by exact hpos)]
    rfl
  kept := ⟨[], rfl⟩
  overlap := Or.inl ⟨rfl, rfl⟩

/-- Where nothing is read or the piece is too short for the pattern, the file has ended. -/
lemma chunk_eq_unread (h : s.chunk.length < bufferSize - s.leftWord - 1) :
    s.chunk = s.unread := by
  have hlen := s.length_chunk
  exact List.take_of_length_le (by omega)

/-- The occurrences up to the end of the piece are those before and those in the buffer. -/
lemma occurrences_chunk (hs : s.Read pattern done) (hpos : 0 < pattern.length) :
    occurrences pattern.bytes (done ++ s.chunk)
      = occurrences pattern.bytes done + occurrences pattern.bytes (s.carry ++ s.chunk) := by
  obtain ⟨x, hx⟩ := hs.kept
  rcases hs.overlap with ⟨hnil, -⟩ | hoverlap
  · rw [hnil] at hx ⊢
    have hcarry : s.carry = [] := (List.append_eq_nil_iff.mp hx.symm).2
    have hnone : occurrences pattern.bytes ([] : List UInt8) = 0 :=
      occurrences_eq_zero_of_length hpos
    rw [hcarry, List.nil_append, hnone, Nat.zero_add]
  · rw [hx]
    exact occurrences_glue x s.carry s.chunk (by rw [length_carry]; exact hoverlap)

/-- The state in which the next piece is read. -/
lemma read_next {t : CountState} (hs : s.Read pattern done)
    (hnul : 0 ∉ s.carry ++ s.chunk) (hpos : 0 < pattern.length)
    (hlong : pattern.length - 1 ≤ s.leftWord + s.chunk.length)
    (hcnt : t.cnt = Int32.ofNat (done ++ s.chunk).length)
    (htimes : t.matchedTimes = Int32.ofNat (occurrences pattern.bytes (done ++ s.chunk)))
    (hleft : t.leftWord = pattern.length - 1)
    (htext : t.text.toList = strncpy s.filled.toList 0
      (s.chunk.length + s.leftWord - (pattern.length - 1)) (pattern.length - 1)) :
    t.Read pattern (done ++ s.chunk) := by
  refine ⟨hcnt, htimes, ?_, Or.inr (by omega)⟩
  obtain ⟨x, hx⟩ := hs.kept
  have hlen : (s.carry ++ s.chunk).length = s.leftWord + s.chunk.length := by
    rw [List.length_append, length_carry]
  -- the bytes kept are the last ones of those in the buffer
  have htail : (s.filled.toList.drop (s.chunk.length + s.leftWord - (pattern.length - 1))).take
      (pattern.length - 1) =
      (s.carry ++ s.chunk).drop (s.chunk.length + s.leftWord - (pattern.length - 1)) := by
    rw [toList_filled, List.drop_append_of_le_length (by omega),
      List.take_left' (by rw [List.length_drop]; omega)]
  have hcarry : t.carry =
      (s.carry ++ s.chunk).drop (s.chunk.length + s.leftWord - (pattern.length - 1)) := by
    rw [carry, hleft, htext, strncpy_eq (Nat.zero_le _) (by
        rw [List.Vector.toList_length]
        have := s.room
        have := s.length_chunk
        omega) (by
        rw [htail]
        exact fun h => hnul (List.mem_of_mem_drop h)), htail, List.take_zero, List.nil_append,
      List.take_left' (by rw [List.length_drop]; omega)]
  refine ⟨x ++ (s.carry ++ s.chunk).take (s.chunk.length + s.leftWord - (pattern.length - 1)), ?_⟩
  rw [hcarry, List.append_assoc, List.take_append_drop, hx, List.append_assoc]

/-- The read loop ends with the whole file searched. -/
theorem loop_read {kmp : Option CString → CString → Int32} (hpos : 0 < pattern.length)
    (hshort : pattern.length < bufferSize)
    (hkmp : ∀ text : CString, text.length < bufferSize →
      kmp (some text) pattern = Int32.ofNat (occurrences pattern.bytes text.bytes))
    (s : CountState) (done : List UInt8) (hs : s.Read pattern done)
    (hnul : 0 ∉ done ++ s.unread) :
    (loop kmp pattern s).cnt = Int32.ofNat (done ++ s.unread).length ∧
      (loop kmp pattern s).matchedTimes
        = Int32.ofNat (occurrences pattern.bytes (done ++ s.unread)) := by
  -- on what is left of the file: every round that does not end the loop reads some of it
  induction hn : s.unread.length using Nat.strong_induction_on generalizing s done with
  | h n ih =>
    have hroom := s.room
    have hchunk := s.length_chunk
    have hsplit : s.unread = s.chunk ++ s.unread.drop (bufferSize - s.leftWord - 1) :=
      (List.take_append_drop _ _).symm
    have hwhole : s.leftWord + 1 < bufferSize := by
      rcases hs.overlap with ⟨-, hzero⟩ | hoverlap
      · rw [hzero]
        decide
      · omega
    obtain ⟨x, hx⟩ := hs.kept
    have hnul' : 0 ∉ s.carry ++ s.chunk := by
      rw [hx, hsplit] at hnul
      simp only [List.mem_append, not_or] at hnul ⊢
      exact ⟨hnul.1.2, hnul.2.1⟩
    have hcnt : s.cnt + Int32.ofNat s.chunk.length = Int32.ofNat (done ++ s.chunk).length := by
      rw [hs.cnt, List.length_append, Int32.ofNat_add]
    have htimes : s.matchedTimes + kmp (some (.ofBlock s.filled.toList)) pattern
        = Int32.ofNat (occurrences pattern.bytes (done ++ s.chunk)) := by
      have hfits : (CString.ofBlock s.filled.toList).length < bufferSize := by
        rw [CString.length, bytes_filled hnul', List.length_append, length_carry]
        omega
      rw [hkmp _ hfits, bytes_filled hnul', hs.times, occurrences_chunk hs hpos, Int32.ofNat_add]
    rw [loop]
    dsimp only
    split
    · rename_i hread
      have hend : s.unread = [] := by
        rw [← chunk_eq_unread (by omega)]
        exact List.length_eq_zero_iff.mp hread
      rw [hend, List.append_nil]
      exact ⟨hs.cnt, hs.times⟩
    · rename_i hread
      split
      · rename_i hlast
        rw [← chunk_eq_unread (by omega)]
        exact ⟨hcnt, htimes⟩
      · rename_i hlast
        rw [not_or] at hlast
        have hfile : done ++ s.unread
            = done ++ s.chunk ++ s.unread.drop (bufferSize - s.leftWord - 1) := by
          rw [List.append_assoc, ← hsplit]
        rw [hfile] at hnul ⊢
        refine ih _ ?_ _ _ ?_ ?_ rfl
        · rw [List.length_drop]
          omega
        · exact read_next hs hnul' hpos (by omega) hcnt htimes rfl rfl
        · exact hnul

end CountState

/-- **When the counter is right.** The read loop ends for every file. With a search function that
counts the occurrences in the buffer, it counts the occurrences in the whole file and its length
if and only if the file has fewer than `2 ^ 31` bytes. -/
theorem readLoop_exact_iff (kmp : Option CString → CString → Int32) (pattern : CString)
    (text : Buffer bufferSize) (file : List UInt8) (hnul : 0 ∉ file)
    (hpos : 0 < pattern.length) (hshort : pattern.length < 100)
    (hkmp : ∀ text : CString, text.length < 100 →
      (kmp (some text) pattern).toInt = occurrences pattern.bytes text.bytes) :
    (((CountState.start text file).loop kmp pattern).matchedTimes.toInt
        = occurrences pattern.bytes file ∧
      ((CountState.start text file).loop kmp pattern).cnt.toInt = file.length) ↔
    file.length < 2 ^ 31 := by
  have hcounts : ∀ text : CString, text.length < bufferSize →
      kmp (some text) pattern = Int32.ofNat (occurrences pattern.bytes text.bytes) := by
    intro text htext
    have hle := occurrences_le_length hpos text.bytes
    apply Int32.toInt_inj.mp
    rw [hkmp text htext, Int32.toInt_ofNat_of_lt]
    change text.bytes.length < 100 at htext
    omega
  obtain ⟨hcnt, htimes⟩ := CountState.loop_read hpos hshort hcounts (.start text file) []
    (CountState.read_start text file hpos) hnul
  rw [hcnt, htimes, List.nil_append]
  change (_ ∧ (Int32.ofNat file.length).toInt = _) ↔ _
  constructor
  · rintro ⟨_, hlen⟩
    have hlt := Int32.toInt_lt (Int32.ofNat file.length)
    omega
  · intro hlen
    have hle := occurrences_le_length hpos file
    exact ⟨Int32.toInt_ofNat_of_lt (Nat.lt_of_le_of_lt hle hlen), Int32.toInt_ofNat_of_lt hlen⟩

/-- `kmp_match` counts "aba" right. -/
lemma toInt_kmpMatch_aba (text : CString) (htext : text.length < 100) :
    (kmpMatch (some text) aba).toInt = occurrences aba.bytes text.bytes := by
  have hle := occurrences_le_length (by decide : 0 < aba.bytes.length) text.bytes
  change text.bytes.length < 100 at htext
  rw [kmpMatch_eq (by decide) (by decide), Int32.toInt_ofNat_of_lt (by omega)]

/-- In "ababa" the counter finds the two occurrences of "aba" and the 5 bytes. -/
theorem readLoop_exact_iff_ababa :
    ((CountState.start (.zero 100) [97, 98, 97, 98, 97]).loop kmpMatch aba).matchedTimes.toInt = 2 ∧
      ((CountState.start (.zero 100) [97, 98, 97, 98, 97]).loop kmpMatch aba).cnt.toInt = 5 := by
  exact (readLoop_exact_iff kmpMatch aba (.zero 100) [97, 98, 97, 98, 97] (by decide) (by decide)
    (by decide) toInt_kmpMatch_aba).mpr (by decide)

/-- The length of a file of `2 ^ 31` bytes is not what `cnt` holds. -/
theorem not_always_cnt :
    ¬ ∀ (kmp : Option CString → CString → Int32) (pattern : CString) (text : Buffer bufferSize)
      (file : List UInt8), 0 ∉ file → 0 < pattern.length → pattern.length < 100 →
      (∀ text : CString, text.length < 100 →
        (kmp (some text) pattern).toInt = occurrences pattern.bytes text.bytes) →
      ((CountState.start text file).loop kmp pattern).cnt.toInt = file.length := by
  intro hall
  have hcnt := hall kmpMatch aba (.zero 100) (List.replicate (2 ^ 31) 97)
    (fun h => absurd (List.eq_of_mem_replicate h) (by decide)) (by decide) (by decide)
    toInt_kmpMatch_aba
  rw [List.length_replicate] at hcnt
  have hlt := Int32.toInt_lt
    ((CountState.start (.zero 100) (List.replicate (2 ^ 31) 97)).loop kmpMatch aba).cnt
  omega

/-- With the program's own search function, what is written for a pattern whose borders grow. -/
theorem countMain_written {program pathIn pattern pathOut : CString}
    {fopen : CString → Option (List UInt8)} (text : Buffer bufferSize) {file : List UInt8}
    (hopen : fopen pathIn = some file) (hnul : 0 ∉ file) (hpos : 0 < pattern.length)
    (hshort : pattern.length < bufferSize) (hgrow : BordersGrow pattern.bytes) :
    countMain [program, pathIn, pattern, pathOut] fopen text =
      .written pathOut ("file size: " ++ toString (Int32.ofNat file.length) ++
        ",\tmatched times: " ++ toString (Int32.ofNat (occurrences pattern.bytes file)) ++
        ".\n") := by
  obtain ⟨hcnt, htimes⟩ := CountState.loop_read hpos hshort (fun _ _ => kmpMatch_eq hpos hgrow)
    (.start text file) [] (CountState.read_start text file hpos) hnul
  simp only [countMain, hopen, hcnt, htimes]
  rfl

end NetworkProgramming
