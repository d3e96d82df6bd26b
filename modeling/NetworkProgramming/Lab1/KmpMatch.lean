import NetworkProgramming.Lab1.Count
import NetworkProgramming.Lib.Border

/-!
# When `kmp_match` counts right

Every entry of `next` is the length of a border, so what the search holds matched is matched and
no candidate is counted twice. `gen_next` starts again from 0 after a mismatch, without trying the
shorter borders. So `next` holds the longest borders exactly when from each prefix of the pattern
to the next the border grows by one or is lost (`valAt_eq_border_iff`). With a shorter border
in the table a shift jumps over an occurrence of some text (`kmpMatch_jumps`).
-/

namespace NetworkProgramming

variable {text pattern : CString}

/-! ## The table holds borders -/

/-- Index `i` of the pattern, in the table and in the prefixes. -/
lemma take_bytes_succ (p : CString) {i : ℕ} (hi : i < p.length) :
    p.bytes.take (i + 1) = p.bytes.take i ++ [p.byte i] := by
  rw [List.take_add_one, CString.getElem?_of_byte (by rw [Ne, CString.byte_eq_zero]; omega)]
  rfl

lemma getElem?_take_bytes (p : CString) {i k : ℕ} (hk : k < i) (hi : i ≤ p.length) :
    (p.bytes.take i)[k]? = some (p.byte k) := by
  rw [List.getElem?_take_of_lt hk]
  exact CString.getElem?_of_byte (by rw [Ne, CString.byte_eq_zero]; omega)

/-- `val` is the length of a border. -/
lemma take_valAt_suffix (p : CString) {i : ℕ} (hi : i < p.length) :
    p.bytes.take (valAt p i) <:+ p.bytes.take (i + 1) := by
  induction i with
  | zero => exact List.nil_suffix
  | succ i ih =>
    rw [valAt_succ]
    split
    · rename_i heq
      have hle := valAt_le p i
      rw [take_bytes_succ p hi, take_bytes_succ p (by omega : valAt p i < p.length), heq]
      obtain ⟨x, hx⟩ := ih (by omega)
      exact ⟨x, by rw [← hx, List.append_assoc]⟩
    · exact List.nil_suffix

lemma valAt_le_border (p : CString) {i : ℕ} (hi : i < p.length) :
    valAt p i ≤ border (p.bytes.take (i + 1)) := by
  have hle := valAt_le p i
  have hlen : (p.bytes.take (i + 1)).length = i + 1 := by
    rw [List.length_take]
    exact Nat.min_eq_left hi
  apply le_border
  · omega
  · rw [List.take_take, Nat.min_eq_left (by omega)]
    exact take_valAt_suffix p hi

/-- The table holds the longest borders exactly when they grow by one or are lost. -/
lemma valAt_eq_border_iff (p : CString) :
    (∀ i, i < p.length → valAt p i = border (p.bytes.take (i + 1))) ↔ BordersGrow p.bytes := by
  constructor
  · intro h i hi
    match i with
    | 0 =>
      right
      rw [← h 0 hi]
      rfl
    | i + 1 =>
      rw [← h (i + 1) hi, ← h i (Nat.lt_of_succ_lt hi), valAt_succ]
      split
      · exact Or.inl rfl
      · exact Or.inr rfl
  · intro h i hi
    induction i with
    | zero =>
      have hle := border_le (p.bytes.take (0 + 1))
      have hlen := List.length_take_le (0 + 1) p.bytes
      simp only [valAt]
      omega
    | succ i ih =>
      have hgrow := h (i + 1) hi
      have hval := ih (by omega)
      have hlen : (p.bytes.take (i + 1)).length = i + 1 := by
        rw [List.length_take]
        exact Nat.min_eq_left (Nat.le_of_lt hi)
      have hne : p.bytes.take (i + 1) ≠ [] := List.ne_nil_of_length_pos (by omega)
      have hlt := valAt_le p i
      -- the longest border is continued exactly when the bytes compared by `gen_next` agree
      have hnext : border (p.bytes.take (i + 1 + 1)) = valAt p i + 1 ↔
          p.byte (i + 1) = p.byte (valAt p i) := by
        rw [take_bytes_succ p hi, hval, border_concat hne, ← hval,
          getElem?_take_bytes p (by omega) (by omega), Option.some.injEq, eq_comm]
      rw [valAt_succ]
      split
      · rename_i heq
        exact (hnext.mpr heq).symm
      · rename_i hne
        rw [← hval] at hgrow
        exact (hgrow.resolve_left fun heq => hne (hnext.mp heq)).symm

/-! ## One round -/

/-- How far the candidate moves when `l` bytes have matched. -/
def shiftOf (pattern : CString) (l : ℕ) : ℕ := if l = 0 then 1 else l - valAt pattern (l - 1)

lemma shiftOf_pos (pattern : CString) (l : ℕ) : 0 < shiftOf pattern l := by
  unfold shiftOf
  split
  · exact Nat.one_pos
  · have := valAt_le pattern (l - 1)
    omega

namespace KmpState

/-- The bytes before `p` stand at the candidate. -/
def Matched (s : KmpState text pattern) : Prop :=
  pattern.bytes.take s.matchedLen <+: text.bytes.drop s.curHead

lemma matched_start : (start text pattern).Matched := by
  change pattern.bytes.take 0 <+: _
  exact List.nil_prefix

/-- What one round does: a byte more matches, an occurrence is counted, or the candidate is
given up. -/
inductive Rounds (s s' : KmpState text pattern) : Prop
  | matched (hhead : s'.curHead = s.curHead) (htimes : s'.matchedTimes = s.matchedTimes)
  | found (hfound : pattern.bytes <+: text.bytes.drop s.curHead)
      (hhead : s'.curHead = s.curHead + shiftOf pattern pattern.length)
      (htimes : s'.matchedTimes = s.matchedTimes + 1)
  | given (hlt : s.matchedLen < pattern.length)
      (hne : text.byte (s.curHead + s.matchedLen) ≠ pattern.byte s.matchedLen)
      (hhead : s'.curHead = s.curHead + shiftOf pattern s.matchedLen)
      (htimes : s'.matchedTimes = s.matchedTimes)

/-- After a shift the bytes before `p` are those of the border in the table. -/
lemma matched_shift (s : KmpState text pattern) {l : ℕ} (times : Int32)
    (hle : s.curHead + l ≤ text.length) (hlt : l ≤ pattern.length) (hpos : 0 < l)
    (hmatch : pattern.bytes.take l <+: text.bytes.drop s.curHead) :
    (s.shift l times hle hlt hpos).Matched ∧
      (s.shift l times hle hlt hpos).curHead = s.curHead + shiftOf pattern l := by
  have htable := getD_genNext pattern (by omega : l - 1 < pattern.length)
  have hborder := take_valAt_suffix pattern (by omega : l - 1 < pattern.length)
  have hval := valAt_le pattern (l - 1)
  rw [Nat.sub_add_cancel hpos] at hborder
  constructor
  · have hkept := take_prefix_drop_of_suffix hmatch hlt (by omega) hborder
    rw [List.drop_drop] at hkept
    simpa only [Matched, shift, htable] using hkept
  · simp only [shift, htable, shiftOf, if_neg (Nat.pos_iff_ne_zero.mp hpos)]

lemma rounds_of_again {s s' : KmpState text pattern} (hpos : 0 < pattern.length)
    (hs : s.Matched) (h : s.round = .again s') : s'.Matched ∧ s.Rounds s' := by
  have hteq := s.t_eq
  have hpeq := s.p_eq
  have hlt : s.matchedLen < pattern.length := by
    have := s.lt
    omega
  unfold round at h
  split at h
  · cases h
  · rename_i hend
    split at h
    · rename_i hne
      rw [hteq, hpeq] at hne
      split at h
      · rename_i hsome
        obtain rfl := Round.again.inj h
        obtain ⟨hmatched, hhead⟩ := matched_shift s s.matchedTimes
          (by have := s.t_le; omega) (Nat.le_of_lt hlt) hsome hs
        exact ⟨hmatched, .given hlt hne hhead rfl⟩
      · rename_i hnone
        obtain rfl := Round.again.inj h
        refine ⟨List.nil_prefix, .given hlt hne ?_ rfl⟩
        simp only [shiftOf, if_pos (Nat.eq_zero_of_not_pos hnone)]
    · rename_i heq
      rw [not_not] at heq
      -- one byte more stands at the candidate
      have hmore : pattern.bytes.take (s.matchedLen + 1) <+: text.bytes.drop s.curHead := by
        apply take_succ_prefix hs (Nat.le_of_lt hlt) (a := text.byte s.t)
        · rw [← hpeq, heq]
          exact CString.getElem?_of_byte (heq ▸ hend)
        · rw [List.getElem?_drop, ← hteq]
          exact CString.getElem?_of_byte hend
      split at h
      · rename_i hfull
        obtain rfl := Round.again.inj h
        have ht : s.t < text.length := by
          rw [CString.byte_eq_zero] at hend
          omega
        obtain ⟨hmatched, hhead⟩ := matched_shift s (s.matchedTimes + 1)
          (by omega : s.curHead + (s.matchedLen + 1) ≤ text.length) (Nat.le_of_eq hfull)
          (Nat.succ_pos _) hmore
        rw [List.take_of_length_le (Nat.le_of_eq hfull.symm)] at hmore
        exact ⟨hmatched, .found hmore (by rw [hhead, hfull]) rfl⟩
      · obtain rfl := Round.again.inj h
        exact ⟨hmore, .matched rfl rfl⟩

end KmpState

/-- The invariant rule of the search: it ends, at the end of the text. -/
lemma kmpMatch_induction {I : KmpState text pattern → Prop} (hpos : 0 < pattern.length)
    (hstart : I (.start text pattern))
    (hround : ∀ s s', s.Matched → I s → s.Rounds s' → I s') :
    ∃ s : KmpState text pattern, kmpMatch (some text) pattern = s.matchedTimes ∧ I s ∧
      text.length = s.curHead + s.matchedLen ∧ s.matchedLen < pattern.length := by
  match hrun : (KmpState.loop text pattern).run (.start text pattern) with
  | .error x => exact x.elim
  | .ok s =>
    obtain ⟨⟨hmatched, hI⟩, hleave⟩ := (KmpState.loop text pattern).run_induction
      (I := fun s => s.Matched ∧ I s)
      (fun s s' hs hagain => by
        obtain ⟨hmatched, hrounds⟩ := KmpState.rounds_of_again hpos hs.1 hagain
        exact ⟨hmatched, hround s s' hs.1 hs.2 hrounds⟩)
      ⟨KmpState.matched_start, hstart⟩ hrun
    refine ⟨s, ?_, hI, ?_, ?_⟩
    · simp only [kmpMatch, hrun]
    · have hend : text.byte s.t = 0 := by
        by_contra hne
        change s.round = .leave at hleave
        unfold KmpState.round at hleave
        rw [dif_neg hne] at hleave
        simp only at hleave
        split at hleave
        · split at hleave <;> cases hleave
        · split at hleave <;> cases hleave
      rw [CString.byte_eq_zero] at hend
      have := s.t_eq
      have := s.t_le
      omega
    · have := s.lt
      omega

/-! ## The count -/

/-- Where the pattern stands its bytes are those of the text. -/
lemma byte_of_prefix_drop {c l : ℕ} (h : pattern.bytes <+: text.bytes.drop c)
    (hl : l < pattern.length) : text.byte (c + l) = pattern.byte l := by
  obtain ⟨rest, hrest⟩ := h
  have hget := congrArg (fun bs : List UInt8 => bs[l]?) hrest
  simp only [List.getElem?_drop] at hget
  rw [List.getElem?_append_left hl] at hget
  rw [CString.byte, CString.byte, List.getD_eq_getElem?_getD, List.getD_eq_getElem?_getD, hget]

/-- With the longest borders in the table no candidate that is passed over is an occurrence. -/
lemma not_prefix_of_shift {c l : ℕ}
    (htable : ∀ i, i < pattern.length → valAt pattern i = border (pattern.bytes.take (i + 1)))
    (hl : l ≤ pattern.length) (hmatch : pattern.bytes.take l <+: text.bytes.drop c) {d : ℕ}
    (hd : 0 < d) (hlt : d < shiftOf pattern l) : ¬ pattern.bytes <+: text.bytes.drop (c + d) := by
  intro hoccurs
  unfold shiftOf at hlt
  split at hlt
  · omega
  · rename_i hne
    rw [← List.drop_drop] at hoccurs
    have hsuffix := take_suffix_of_prefix_drop hmatch hl (by omega) hoccurs
    have hlen : (pattern.bytes.take l).length = l := by
      rw [List.length_take]
      exact Nat.min_eq_left hl
    have hle : l - d ≤ border (pattern.bytes.take l) := by
      apply le_border
      · omega
      · rw [List.take_take, Nat.min_eq_left (by omega)]
        exact hsuffix
    have hval := htable (l - 1) (by omega)
    rw [Nat.sub_add_cancel (by omega)] at hval
    omega

/-- What is counted, and what stands from the candidate on, is all. -/
def KmpState.Counted (s : KmpState text pattern) : Prop :=
  ∃ n, s.matchedTimes = Int32.ofNat n ∧
    n + occurrences pattern.bytes (text.bytes.drop s.curHead)
      = occurrences pattern.bytes text.bytes

lemma KmpState.counted_round {s s' : KmpState text pattern} (hpos : 0 < pattern.length)
    (htable : ∀ i, i < pattern.length → valAt pattern i = border (pattern.bytes.take (i + 1)))
    (hmatched : s.Matched) (hs : s.Counted) (h : s.Rounds s') : s'.Counted := by
  have hne : pattern.bytes ≠ [] := List.ne_nil_of_length_pos hpos
  obtain ⟨n, htimes, hcount⟩ := hs
  cases h with
  | matched hhead htimes' => exact ⟨n, by rw [htimes', htimes], by rw [hhead, hcount]⟩
  | found hfound hhead htimes' =>
    refine ⟨n + 1, by rw [htimes', htimes, Int32.ofNat_add]; rfl, ?_⟩
    have hshift := shiftOf_pos pattern pattern.length
    -- no occurrence begins among the positions the shift skips
    have hskip : occurrences pattern.bytes (text.bytes.drop (s.curHead + 1)) =
        occurrences pattern.bytes (text.bytes.drop s'.curHead) := by
      apply occurrences_drop_eq (by omega)
      intro d hd hlt hoccurs
      rw [← Nat.add_sub_cancel' (by omega : s.curHead ≤ d)] at hoccurs
      refine not_prefix_of_shift htable (Nat.le_refl _) ?_ (by omega) (by omega) hoccurs
      exact (List.take_prefix _ _).trans hfound
    rw [← hskip, ← hcount, occurrences_drop_succ hne hfound]
    omega
  | given hlt hne' hhead htimes' =>
    refine ⟨n, by rw [htimes', htimes], ?_⟩
    have hshift := shiftOf_pos pattern s.matchedLen
    have hskip : occurrences pattern.bytes (text.bytes.drop s.curHead) =
        occurrences pattern.bytes (text.bytes.drop s'.curHead) := by
      apply occurrences_drop_eq (by omega)
      intro d hd hlt' hoccurs
      rcases Nat.eq_or_lt_of_le hd with rfl | hd
      · exact hne' (byte_of_prefix_drop hoccurs hlt)
      · rw [← Nat.add_sub_cancel' (by omega : s.curHead ≤ d)] at hoccurs
        exact not_prefix_of_shift htable (Nat.le_of_lt hlt) hmatched (by omega) (by omega)
          hoccurs
    rw [← hskip, hcount]

/-- With the longest borders in the table `kmp_match` counts every occurrence. -/
theorem kmpMatch_eq (hpos : 0 < pattern.length) (hgrow : BordersGrow pattern.bytes) :
    kmpMatch (some text) pattern = Int32.ofNat (occurrences pattern.bytes text.bytes) := by
  have htable := (valAt_eq_border_iff pattern).mpr hgrow
  obtain ⟨s, hresult, ⟨n, htimes, hcount⟩, hend, hlt⟩ :=
    kmpMatch_induction (I := fun s : KmpState text pattern => s.Counted) hpos
      ⟨0, rfl, Nat.zero_add _⟩
      fun _ _ hmatched hs h => KmpState.counted_round hpos htable hmatched hs h
  have hnone : occurrences pattern.bytes (text.bytes.drop s.curHead) = 0 := by
    apply occurrences_eq_zero_of_length
    rw [List.length_drop]
    change text.length - s.curHead < pattern.length
    omega
  rw [hresult, htimes, ← hcount, hnone, Nat.add_zero]

/-! ## A jump over an occurrence -/

/-- The first `l` bytes of the pattern, continued so that the pattern stands where they end in
a border of `b` bytes. -/
def jumpText (p : CString) (l b : ℕ) : CString where
  bytes := p.bytes.take l ++ p.bytes.drop b
  nulFree h := by
    rcases List.mem_append.mp h with h | h
    · exact p.nulFree (List.mem_of_mem_take h)
    · exact p.nulFree (List.mem_of_mem_drop h)

section Jump

variable {l b : ℕ}

lemma length_jumpText (hl : l ≤ pattern.length) :
    (jumpText pattern l b).length = l + (pattern.length - b) := by
  change (pattern.bytes.take l ++ pattern.bytes.drop b).length = _
  rw [List.length_append, List.length_take_of_le hl, List.length_drop]
  rfl

/-- In place of byte `l` the text has byte `b`. -/
lemma byte_jumpText (hl : l ≤ pattern.length) :
    (jumpText pattern l b).byte l = pattern.byte b := by
  rw [CString.byte, CString.byte, List.getD_eq_getElem?_getD, List.getD_eq_getElem?_getD]
  unfold jumpText
  rw [List.getElem?_append_right (List.length_take_le _ _), List.length_take_of_le hl,
    Nat.sub_self, List.getElem?_drop, Nat.add_zero]

/-- The pattern stands at the front only when all of it was taken. -/
lemma prefix_jumpText_iff (hl : l ≤ pattern.length)
    (hlast : l < pattern.length → pattern.byte b ≠ pattern.byte l) :
    pattern.bytes <+: (jumpText pattern l b).bytes ↔ l = pattern.length := by
  constructor
  · intro h
    by_contra hne
    have hlt : l < pattern.length := Nat.lt_of_le_of_ne hl hne
    apply hlast hlt
    rw [← byte_of_prefix_drop (c := 0) h hlt, Nat.zero_add, byte_jumpText hl]
  · intro h
    have hall : pattern.bytes <+: pattern.bytes.take l := by
      rw [List.take_of_length_le (Nat.le_of_eq h.symm)]
    exact hall.trans (List.prefix_append _ _)

lemma occurrences_jumpText (hl : l ≤ pattern.length)
    (hborder : border (pattern.bytes.take l) = b) (hpos : 0 < b)
    (hlast : l < pattern.length → pattern.byte b ≠ pattern.byte l) :
    occurrences pattern.bytes (jumpText pattern l b).bytes
      = (if l = pattern.length then 1 else 0) + 1 := by
  have hlen : (pattern.bytes.take l).length = l := List.length_take_of_le hl
  have hb := border_le (pattern.bytes.take l)
  have hfront := prefix_jumpText_iff hl hlast
  have hne : pattern.bytes ≠ [] := List.ne_nil_of_length_pos (by
    change 0 < pattern.length
    omega)
  -- behind the border the text is the pattern
  have htail : (jumpText pattern l b).bytes.drop (l - b) = pattern.bytes := by
    have hsuffix := take_border_suffix (pattern.bytes.take l)
    rw [hborder, List.take_take, Nat.min_eq_left (by omega)] at hsuffix
    have hdrop := List.suffix_iff_eq_drop.mp hsuffix
    rw [hlen, List.length_take_of_le (by change b ≤ pattern.length; omega)] at hdrop
    change (pattern.bytes.take l ++ pattern.bytes.drop b).drop (l - b) = _
    rw [List.drop_append_of_le_length (by omega), ← hdrop, List.take_append_drop]
  have hone : occurrences pattern.bytes ((jumpText pattern l b).bytes.drop (l - b)) = 1 := by
    rw [htail]
    have hzero := occurrences_drop_succ (c := 0) hne (List.prefix_refl pattern.bytes)
    rw [List.drop_zero] at hzero
    rw [hzero, occurrences_eq_zero_of_length]
    rw [List.length_drop]
    have := List.length_pos_of_ne_nil hne
    omega
  -- between the front and there it would overlap in a longer border
  have hnone : ∀ s, 1 ≤ s → s < l - b →
      ¬ pattern.bytes <+: (jumpText pattern l b).bytes.drop s := by
    intro s hs hlt hoccurs
    have hsuffix := take_suffix_of_prefix_drop (List.prefix_append _ _) hl (by omega) hoccurs
    have hle : l - s ≤ border (pattern.bytes.take l) := by
      apply le_border
      · omega
      · rw [List.take_take, Nat.min_eq_left (by omega)]
        exact hsuffix
    omega
  have hskip := occurrences_drop_eq (by omega : 1 ≤ l - b) hnone
  rw [hone] at hskip
  split
  · rename_i hfull
    have hzero := occurrences_drop_succ (c := 0) hne (hfront.mpr hfull)
    rwa [hskip, List.drop_zero] at hzero
  · rename_i hshort
    have hzero : ∀ s, 0 ≤ s → s < 1 →
        ¬ pattern.bytes <+: (jumpText pattern l b).bytes.drop s := by
      intro s _ hs hoccurs
      obtain rfl : s = 0 := by omega
      exact hshort (hfront.mp hoccurs)
    have hsame := occurrences_drop_eq (Nat.zero_le 1) hzero
    rwa [hskip, List.drop_zero] at hsame

/-- Before the jump the candidate is the front; after it the candidate is past the border. -/
def KmpState.Jumped (l b : ℕ) (s : KmpState text pattern) : Prop :=
  (s.curHead = 0 ∧ s.matchedTimes = 0) ∨
    (l - b < s.curHead ∧ s.matchedTimes = Int32.ofNat (if l = pattern.length then 1 else 0))

/-- At the front the bytes agree up to `l` and not there. -/
lemma eq_of_mismatch (hl : l ≤ pattern.length)
    (hlast : l < pattern.length → pattern.byte b ≠ pattern.byte l) {k : ℕ}
    (hk : k < pattern.length) (hmatch : pattern.bytes.take k <+: (jumpText pattern l b).bytes)
    (hne : (jumpText pattern l b).byte k ≠ pattern.byte k) : k = l := by
  rcases Nat.lt_trichotomy k l with hlt | heq | hgt
  · refine absurd ?_ hne
    rw [CString.byte, CString.byte, List.getD_eq_getElem?_getD, List.getD_eq_getElem?_getD]
    unfold jumpText
    rw [List.getElem?_append_left (by rw [List.length_take_of_le hl]; exact hlt),
      List.getElem?_take_of_lt hlt]
  · exact heq
  · refine absurd ?_ (hlast (by omega))
    have hget := getElem?_take_bytes pattern hgt (Nat.le_of_lt hk)
    obtain ⟨rest, hrest⟩ := hmatch
    have hsame := congrArg (fun bs : List UInt8 => bs[l]?) hrest
    beta_reduce at hsame
    rw [List.getElem?_append_left (by rw [List.length_take_of_le (Nat.le_of_lt hk)]; exact hgt),
      hget] at hsame
    rw [← byte_jumpText (b := b) hl, CString.byte, List.getD_eq_getElem?_getD, ← hsame]
    rfl

lemma jumped_round (hl : l ≤ pattern.length) (hle : b ≤ l) (hpos : 0 < l)
    (htable : valAt pattern (l - 1) < b)
    (hlast : l < pattern.length → pattern.byte b ≠ pattern.byte l)
    {s s' : KmpState (jumpText pattern l b) pattern} (hmatched : s.Matched)
    (hs : s.Jumped l b) (h : s.Rounds s') : s'.Jumped l b := by
  have hfront := prefix_jumpText_iff hl hlast
  have hlentext := length_jumpText (b := b) hl
  have hshift : l - b < shiftOf pattern l := by
    rw [shiftOf, if_neg (by omega)]
    omega
  rcases hs with ⟨hzero, hnone⟩ | ⟨hpast, hcounted⟩
  · cases h with
    | matched hhead htimes => exact Or.inl ⟨by rw [hhead, hzero], by rw [htimes, hnone]⟩
    | found hfound hhead htimes =>
      right
      rw [hzero] at hfound
      have hfull := hfront.mp hfound
      rw [if_pos hfull, htimes, hnone]
      exact ⟨by rwa [hhead, hzero, Nat.zero_add, ← hfull], rfl⟩
    | given hlt hne hhead htimes =>
      right
      rw [KmpState.Matched, hzero] at hmatched
      rw [hzero, Nat.zero_add] at hne
      have heq := eq_of_mismatch hl hlast hlt hmatched hne
      rw [if_neg (by omega), htimes, hnone]
      exact ⟨by rwa [hhead, hzero, Nat.zero_add, heq], rfl⟩
  · cases h with
    | matched hhead htimes => exact Or.inr ⟨by rwa [hhead], by rw [htimes, hcounted]⟩
    | found hfound hhead htimes =>
      -- too little of the text is left
      have hshort := hfound.length_le
      rw [List.length_drop] at hshort
      change pattern.length ≤ (jumpText pattern l b).length - s.curHead at hshort
      omega
    | given hlt hne hhead htimes => exact Or.inr ⟨by omega, by rw [htimes, hcounted]⟩

/-- A table with a shorter border makes the search jump over an occurrence. -/
theorem kmpMatch_jumps (hl : l ≤ pattern.length) (hle : b ≤ l) (hpos : 0 < l)
    (htable : valAt pattern (l - 1) < b)
    (hlast : l < pattern.length → pattern.byte b ≠ pattern.byte l) :
    kmpMatch (some (jumpText pattern l b)) pattern
      = Int32.ofNat (if l = pattern.length then 1 else 0) := by
  have hlentext := length_jumpText (b := b) hl
  obtain ⟨s, hresult, hjumped, hend, hlt⟩ := kmpMatch_induction
    (I := fun s : KmpState (jumpText pattern l b) pattern => s.Jumped l b) (by omega)
    (Or.inl ⟨rfl, rfl⟩)
    fun _ _ hmatched hs h => jumped_round hl hle hpos htable hlast hmatched hs h
  rcases hjumped with ⟨hhead, -⟩ | ⟨-, htimes⟩
  · omega
  · rw [hresult, htimes]

end Jump

/-- A wrong entry of the table is used for a jump, there or further on. -/
lemma exists_jump {i : ℕ} (hi : i < pattern.length)
    (hwrong : valAt pattern i < border (pattern.bytes.take (i + 1))) :
    ∃ l, 0 < l ∧ l ≤ pattern.length ∧
      valAt pattern (l - 1) < border (pattern.bytes.take l) ∧
      (l < pattern.length →
        pattern.byte (border (pattern.bytes.take l)) ≠ pattern.byte l) := by
  induction hk : pattern.length - i generalizing i with
  | zero => omega
  | succ k ih =>
    have hnext : i + 1 = pattern.length ∨ i + 1 < pattern.length := by omega
    rcases hnext with hend | hnext
    · exact ⟨i + 1, Nat.succ_pos i, hi, hwrong, fun hlt => absurd hend (Nat.ne_of_lt hlt)⟩
    · by_cases heq : pattern.byte (border (pattern.bytes.take (i + 1))) = pattern.byte (i + 1)
      · -- the border that the table misses goes on, so the next entry is wrong too
        have hlen : (pattern.bytes.take (i + 1)).length = i + 1 := List.length_take_of_le hi
        have hb := border_le (pattern.bytes.take (i + 1))
        have hgrow : border (pattern.bytes.take (i + 1 + 1))
            = border (pattern.bytes.take (i + 1)) + 1 := by
          rw [take_bytes_succ pattern hnext,
            border_concat (List.ne_nil_of_length_pos (by omega)),
            getElem?_take_bytes pattern (by omega : border (pattern.bytes.take (i + 1)) < i + 1) hi,
            heq]
        have hval : valAt pattern (i + 1) ≤ valAt pattern i + 1 := by
          rw [valAt_succ]
          split <;> omega
        exact ih hnext (by omega) (by omega)
      · exact ⟨i + 1, Nat.succ_pos i, hi, hwrong, fun _ => heq⟩

/-- **When `kmp_match` counts right.** `kmp_match` ends for every text. It returns the number of
occurrences of a nonempty pattern, for every text in which that number is an `int`, if and only
if from each prefix of the pattern to the next the border grows by one or is lost. -/
theorem kmpMatch_exact_iff (pattern : CString) (hne : pattern.bytes ≠ []) :
    (∀ text : CString,
      (kmpMatch (some text) pattern).toInt = occurrences pattern.bytes text.bytes ↔
        occurrences pattern.bytes text.bytes < 2 ^ 31) ↔
    BordersGrow pattern.bytes := by
  have hpos : 0 < pattern.length := List.length_pos_of_ne_nil hne
  constructor
  · intro hexact
    by_contra hgrow
    rw [← valAt_eq_border_iff] at hgrow
    push Not at hgrow
    obtain ⟨i, hi, hwrong⟩ := hgrow
    -- some wrong entry is used for a jump, and there is a text where the jump skips an occurrence
    obtain ⟨l, hl, hle, htable, hlast⟩ :=
      exists_jump hi (Nat.lt_of_le_of_ne (valAt_le_border pattern hi) hwrong)
    have hlen : (pattern.bytes.take l).length = l := List.length_take_of_le hle
    have hb := border_le (pattern.bytes.take l)
    have hjump := hexact (jumpText pattern l (border (pattern.bytes.take l)))
    rw [kmpMatch_jumps hle (by omega) hl htable hlast,
      occurrences_jumpText hle rfl (by omega) hlast] at hjump
    have hcounted := hjump.mpr (by split <;> omega)
    rw [Int32.toInt_ofNat_of_lt (by split <;> omega)] at hcounted
    omega
  · intro hgrow text
    rw [kmpMatch_eq hpos hgrow]
    constructor
    · intro heq
      have hlt := Int32.toInt_lt (Int32.ofNat (occurrences pattern.bytes text.bytes))
      omega
    · exact Int32.toInt_ofNat_of_lt

/-- The pattern "aba", whose borders are 0, 0 and 1. -/
def aba : CString := ⟨[97, 98, 97], by decide⟩

/-- "aba" is found in itself. -/
theorem kmpMatch_exact_iff_aba : (kmpMatch (some aba) aba).toInt = 1 :=
  ((kmpMatch_exact_iff aba (by decide)).mpr (by decide) aba).mpr (by decide)

/-- The pattern "abaa", whose last border is 1 although the one before was not continued. -/
def abaa : CString := ⟨[97, 98, 97, 97], by decide⟩

/-- In "abaabaa" one of the two occurrences of "abaa" is missed. -/
theorem not_always_exact :
    ¬ ∀ text pattern : CString, pattern.bytes ≠ [] →
      (kmpMatch (some text) pattern).toInt = occurrences pattern.bytes text.bytes := by
  intro hall
  have hborder : border (abaa.bytes.take 4) = 1 := by decide
  have hlast : 4 < abaa.length → abaa.byte 1 ≠ abaa.byte 4 := by decide
  have htable : valAt abaa (4 - 1) < 1 := by decide
  have hexact := hall (jumpText abaa 4 1) abaa (by decide)
  rw [kmpMatch_jumps (by decide) (by decide) (by decide) htable hlast,
    occurrences_jumpText (by decide) hborder (by decide) hlast] at hexact
  exact absurd hexact (by decide)

end NetworkProgramming
