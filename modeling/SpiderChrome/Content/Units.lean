import SpiderChrome.Library.Swar
import SpiderChrome.Library.Unicode

/-!
# The length of a slice

How `content_stream.rs` finds out, from the bytes that it was sent, how many UTF-16 units the page gave up: it counts the bytes that continue a character and those that begin a character of four bytes, eight at a time. That is the same as counting them one by one, whatever the byte order of the machine, and for the bytes of a text it gives the number of its units.
-/

namespace SpiderChrome

namespace ContentStream

/-- The byte order of the machine. -/
inductive Endian where
  | little
  | big

/-- `u64::from_ne_bytes`. -/
def fromNeBytes (endian : Endian) (b0 b1 b2 b3 b4 b5 b6 b7 : UInt8) : UInt64 :=
  match endian with
  | .little => ⟨b7.toBitVec ++ b6.toBitVec ++ b5.toBitVec ++ b4.toBitVec ++ b3.toBitVec ++ b2.toBitVec ++
      b1.toBitVec ++ b0.toBitVec⟩
  | .big => ⟨b0.toBitVec ++ b1.toBitVec ++ b2.toBitVec ++ b3.toBitVec ++ b4.toBitVec ++ b5.toBitVec ++
      b6.toBitVec ++ b7.toBitVec⟩

/-- `u64::count_ones`. -/
def countOnes (v : UInt64) : UInt32 := UInt32.ofNat v.toBitVec.cpop.toNat

def countZeroBytesU64 (v : UInt64) : UInt32 :=
  let mask := (v - 0x0101010101010101) &&& ~~~v &&& 0x8080808080808080
  countOnes mask

/-- The bytes that are fewer than a word, one by one. -/
def countTail (counts : UInt64 × UInt64) (b : UInt8) : UInt64 × UInt64 :=
  (if b &&& 0xC0 == 0x80 then counts.1 + 1 else counts.1, if b ≥ 0xF0 then counts.2 + 1 else counts.2)

/-- The two counts of `utf16_len_of_utf8`: a word at a time while there are eight bytes. -/
def countBytes (endian : Endian) (counts : UInt64 × UInt64) : List UInt8 → UInt64 × UInt64
  | b0 :: b1 :: b2 :: b3 :: b4 :: b5 :: b6 :: b7 :: rest =>
    let w := fromNeBytes endian b0 b1 b2 b3 b4 b5 b6 b7
    let contMask := (w &&& 0xC0C0C0C0C0C0C0C0) ^^^ 0x8080808080808080
    let fourMask := (w &&& 0xF0F0F0F0F0F0F0F0) ^^^ 0xF0F0F0F0F0F0F0F0
    countBytes endian
      (counts.1 + (countZeroBytesU64 contMask).toUInt64, counts.2 + (countZeroBytesU64 fourMask).toUInt64) rest
  | tail => tail.foldl countTail counts

/-- `u64::saturating_sub`. -/
def saturatingSub (a b : UInt64) : UInt64 := if b ≤ a then a - b else 0

/-- `u64::saturating_add`. -/
def saturatingAdd64 (a b : UInt64) : UInt64 := UInt64.ofNat (min (a.toNat + b.toNat) (2 ^ 64 - 1))

def utf16LenOfUtf8 (endian : Endian) (bytes : List UInt8) : UInt32 :=
  let total := UInt64.ofNat bytes.length
  let counts := countBytes endian (0, 0) bytes
  let units := saturatingAdd64 (saturatingSub total counts.1) counts.2
  UInt32.ofNat (min units.toNat (2 ^ 32 - 1))

/-! ### Words -/

/-- The bytes of the word, the lowest first. -/
def laneOrder (endian : Endian) (bytes : List UInt8) : List UInt8 :=
  match endian with
  | .little => bytes
  | .big => bytes.reverse

theorem countP_laneOrder (endian : Endian) (p : UInt8 → Bool) (bytes : List UInt8) :
    (laneOrder endian bytes).countP p = bytes.countP p := by
  cases endian with
  | little => rfl
  | big => exact List.countP_reverse

theorem toBitVec_fromNeBytes (endian : Endian) (b0 b1 b2 b3 b4 b5 b6 b7 : UInt8) :
    ∃ l0 l1 l2 l3 l4 l5 l6 l7, laneOrder endian [b0, b1, b2, b3, b4, b5, b6, b7] = [l0, l1, l2, l3, l4, l5, l6, l7] ∧
      (fromNeBytes endian b0 b1 b2 b3 b4 b5 b6 b7).toBitVec = Swar.word [l0.toBitVec, l1.toBitVec, l2.toBitVec,
        l3.toBitVec, l4.toBitVec, l5.toBitVec, l6.toBitVec, l7.toBitVec] := by
  have hword : ∀ l0 l1 l2 l3 l4 l5 l6 l7 : BitVec 8,
      l7 ++ l6 ++ l5 ++ l4 ++ l3 ++ l2 ++ l1 ++ l0 = Swar.word [l0, l1, l2, l3, l4, l5, l6, l7] := by
    intro l0 l1 l2 l3 l4 l5 l6 l7
    apply BitVec.eq_of_toNat_eq
    simp only [Swar.word, Swar.toNat_append_lane]
    simp
  cases endian with
  | little => exact ⟨b0, b1, b2, b3, b4, b5, b6, b7, rfl, hword _ _ _ _ _ _ _ _⟩
  | big => exact ⟨b7, b6, b5, b4, b3, b2, b1, b0, rfl, hword _ _ _ _ _ _ _ _⟩

theorem toBitVec_mask (v : UInt64) :
    ((v - 0x0101010101010101) &&& ~~~v &&& 0x8080808080808080).toBitVec = Swar.zeroMarks false 8 v.toBitVec := by
  have hones : (0x0101010101010101 : UInt64).toBitVec = Swar.fill 1 8 := by decide
  have hhighs : (0x8080808080808080 : UInt64).toBitVec = Swar.fill 0x80 8 := by decide
  have hborrow : Swar.borrow false (8 * 8) = 0#64 := by decide
  rw [Swar.zeroMarks, hborrow, BitVec.sub_zero, UInt64.toBitVec_and, UInt64.toBitVec_and, UInt64.toBitVec_sub,
    UInt64.toBitVec_not, hones, hhighs]

/-- The lanes that a mask makes zero are the bytes of a class, if it makes no lane 1. -/
theorem count_masked (endian : Endian) (b0 b1 b2 b3 b4 b5 b6 b7 : UInt8) {kept flipped : UInt64} {k f : BitVec 8}
    (hkept : kept.toBitVec = Swar.fill k 8) (hflipped : flipped.toBitVec = Swar.fill f 8)
    (hone : ∀ lane : BitVec 8, (lane &&& k) ^^^ f ≠ 1) {p : UInt8 → Bool}
    (hclass : ∀ b : UInt8, decide ((b.toBitVec &&& k) ^^^ f = 0) = p b) :
    (countZeroBytesU64 ((fromNeBytes endian b0 b1 b2 b3 b4 b5 b6 b7 &&& kept) ^^^ flipped)).toNat =
      [b0, b1, b2, b3, b4, b5, b6, b7].countP p := by
  obtain ⟨l0, l1, l2, l3, l4, l5, l6, l7, horder, hword⟩ := toBitVec_fromNeBytes endian b0 b1 b2 b3 b4 b5 b6 b7
  have hmasked : ((fromNeBytes endian b0 b1 b2 b3 b4 b5 b6 b7 &&& kept) ^^^ flipped).toBitVec =
      Swar.masked k f ([l0, l1, l2, l3, l4, l5, l6, l7].map UInt8.toBitVec) := by
    rw [UInt64.toBitVec_xor, UInt64.toBitVec_and, hword, hkept, hflipped]
    rfl
  have hcount := Swar.cpop_zeroMarks false k f fun lane
    (_ : lane ∈ [l0, l1, l2, l3, l4, l5, l6, l7].map UInt8.toBitVec) => hone lane
  have hp : [l0, l1, l2, l3, l4, l5, l6, l7].countP p ≤ 8 := List.countP_le_length
  rw [List.countP_map] at hcount
  have hsame : [l0, l1, l2, l3, l4, l5, l6, l7].countP ((fun lane => decide ((lane &&& k) ^^^ f = 0)) ∘ UInt8.toBitVec)
      = [l0, l1, l2, l3, l4, l5, l6, l7].countP p := congrArg (List.countP · _) (funext hclass)
  rw [hsame] at hcount
  rw [countZeroBytesU64, countOnes, toBitVec_mask, hmasked, ← countP_laneOrder endian p, horder]
  refine Eq.trans (UInt32.toNat_ofNat_of_lt' ?_) hcount
  exact Nat.lt_of_le_of_lt (Nat.le_trans (Nat.le_of_eq hcount) hp) (by decide)

/-! ### Counts -/

theorem isContinuation_mask (b : UInt8) :
    decide ((b.toBitVec &&& 0xC0#8) ^^^ 0x80#8 = 0) = Unicode.isContinuation b := by
  obtain ⟨v⟩ := b
  revert v
  decide +kernel

theorem isFourByteLead_mask (b : UInt8) :
    decide ((b.toBitVec &&& 0xF0#8) ^^^ 0xF0#8 = 0) = Unicode.isFourByteLead b := by
  obtain ⟨v⟩ := b
  revert v
  decide +kernel

theorem countTail_spec (counts : UInt64 × UInt64) (b : UInt8) (hcont : counts.1.toNat + 1 < 2 ^ 64)
    (hfour : counts.2.toNat + 1 < 2 ^ 64) :
    (countTail counts b).1.toNat = counts.1.toNat + [b].countP Unicode.isContinuation ∧
      (countTail counts b).2.toNat = counts.2.toNat + [b].countP Unicode.isFourByteLead := by
  have hlead : Unicode.isFourByteLead b = true ↔ b ≥ 0xF0 := by simp [Unicode.isFourByteLead]
  simp only [countTail, List.countP_singleton, hlead]
  constructor
  · show (if Unicode.isContinuation b = true then counts.1 + 1 else counts.1).toNat = _
    split
    · rw [UInt64.toNat_add, UInt64.toNat_one]
      omega
    · rfl
  · split
    · rw [UInt64.toNat_add, UInt64.toNat_one]
      omega
    · rfl

theorem countTail_foldl (counts : UInt64 × UInt64) (tail : List UInt8)
    (hcont : counts.1.toNat + tail.length < 2 ^ 64) (hfour : counts.2.toNat + tail.length < 2 ^ 64) :
    (tail.foldl countTail counts).1.toNat = counts.1.toNat + tail.countP Unicode.isContinuation ∧
      (tail.foldl countTail counts).2.toNat = counts.2.toNat + tail.countP Unicode.isFourByteLead := by
  induction tail generalizing counts with
  | nil => exact ⟨rfl, rfl⟩
  | cons b tail ih =>
    rw [List.length_cons] at hcont hfour
    obtain ⟨hb, hb'⟩ := countTail_spec counts b (by omega) (by omega)
    have hone : [b].countP Unicode.isContinuation ≤ 1 := List.countP_le_length
    have hone' : [b].countP Unicode.isFourByteLead ≤ 1 := List.countP_le_length
    obtain ⟨htail, htail'⟩ := ih (countTail counts b) (by omega) (by omega)
    have happ : ∀ p : UInt8 → Bool, (b :: tail).countP p = [b].countP p + tail.countP p :=
      fun p => @List.countP_append _ p [b] tail
    rw [List.foldl_cons, happ, happ]
    omega

/-- Both counts are what counting byte by byte gives. -/
theorem countBytes_spec (endian : Endian) (counts : UInt64 × UInt64) (bytes : List UInt8)
    (hcont : counts.1.toNat + bytes.length < 2 ^ 64) (hfour : counts.2.toNat + bytes.length < 2 ^ 64) :
    (countBytes endian counts bytes).1.toNat = counts.1.toNat + bytes.countP Unicode.isContinuation ∧
      (countBytes endian counts bytes).2.toNat = counts.2.toNat + bytes.countP Unicode.isFourByteLead := by
  induction counts, bytes using countBytes.induct endian with
  | case1 counts b0 b1 b2 b3 b4 b5 b6 b7 rest w contMask fourMask ih =>
    have hwordCont : (countZeroBytesU64 contMask).toNat = [b0, b1, b2, b3, b4, b5, b6, b7].countP _ :=
      count_masked endian b0 b1 b2 b3 b4 b5 b6 b7 (by decide) (by decide) (by decide +kernel) isContinuation_mask
    have hwordFour : (countZeroBytesU64 fourMask).toNat = [b0, b1, b2, b3, b4, b5, b6, b7].countP _ :=
      count_masked endian b0 b1 b2 b3 b4 b5 b6 b7 (by decide) (by decide) (by decide +kernel) isFourByteLead_mask
    have hle : [b0, b1, b2, b3, b4, b5, b6, b7].countP Unicode.isContinuation ≤ 8 := List.countP_le_length
    have hle' : [b0, b1, b2, b3, b4, b5, b6, b7].countP Unicode.isFourByteLead ≤ 8 := List.countP_le_length
    have happ : ∀ p : UInt8 → Bool, (b0 :: b1 :: b2 :: b3 :: b4 :: b5 :: b6 :: b7 :: rest).countP p =
        [b0, b1, b2, b3, b4, b5, b6, b7].countP p + rest.countP p :=
      fun p => @List.countP_append _ p [b0, b1, b2, b3, b4, b5, b6, b7] rest
    simp only [List.length_cons] at hcont hfour
    have hsum : (counts.1 + (countZeroBytesU64 contMask).toUInt64).toNat =
        counts.1.toNat + [b0, b1, b2, b3, b4, b5, b6, b7].countP Unicode.isContinuation := by
      rw [UInt64.toNat_add, UInt32.toNat_toUInt64, hwordCont]
      omega
    have hsum' : (counts.2 + (countZeroBytesU64 fourMask).toUInt64).toNat =
        counts.2.toNat + [b0, b1, b2, b3, b4, b5, b6, b7].countP Unicode.isFourByteLead := by
      rw [UInt64.toNat_add, UInt32.toNat_toUInt64, hwordFour]
      omega
    have hih := ih (by simp only [hsum]; omega) (by simp only [hsum']; omega)
    simp only [hsum, hsum', Nat.add_assoc] at hih
    rw [countBytes, happ, happ]
    exact hih
  | case2 counts tail h =>
    rw [countBytes]
    · exact countTail_foldl counts tail hcont hfour
    · exact h

/-- What a slice in memory can hold, `isize::MAX` bytes. -/
def maxSlice : Nat := 2 ^ 63 - 1

/-- The length of a slice is the one counted byte by byte, clamped to thirty-two bits, in either byte order. -/
theorem utf16LenOfUtf8_eq_count (endian : Endian) (bytes : List UInt8) (h : bytes.length ≤ maxSlice) :
    (utf16LenOfUtf8 endian bytes).toNat = min (2 ^ 32 - 1)
      (bytes.length - bytes.countP Unicode.isContinuation + bytes.countP Unicode.isFourByteLead) := by
  rw [maxSlice] at h
  obtain ⟨hcont, hfour⟩ := countBytes_spec endian (0, 0) bytes (by simp; omega) (by simp; omega)
  rw [UInt64.toNat_zero, Nat.zero_add] at hcont hfour
  have hle : bytes.countP Unicode.isContinuation ≤ bytes.length := List.countP_le_length
  have hle' : bytes.countP Unicode.isFourByteLead ≤ bytes.length := List.countP_le_length
  have htotal : (UInt64.ofNat bytes.length).toNat = bytes.length := UInt64.toNat_ofNat_of_lt' (by
    show _ < 2 ^ 64
    omega)
  have hsub : (saturatingSub (UInt64.ofNat bytes.length) (countBytes endian (0, 0) bytes).1).toNat =
      bytes.length - bytes.countP Unicode.isContinuation := by
    have hcmp : (countBytes endian (0, 0) bytes).1 ≤ UInt64.ofNat bytes.length := by
      rw [UInt64.le_iff_toNat_le, hcont, htotal]
      exact hle
    rw [saturatingSub, if_pos hcmp, UInt64.toNat_sub_of_le _ _ hcmp, hcont, htotal]
  have hadd : (saturatingAdd64 (saturatingSub (UInt64.ofNat bytes.length) (countBytes endian (0, 0) bytes).1)
      (countBytes endian (0, 0) bytes).2).toNat =
      bytes.length - bytes.countP Unicode.isContinuation + bytes.countP Unicode.isFourByteLead := by
    rw [saturatingAdd64, hsub, hfour, Nat.min_eq_left (by omega)]
    exact UInt64.toNat_ofNat_of_lt' (by
      show _ < 2 ^ 64
      omega)
  rw [utf16LenOfUtf8]
  simp only [hadd]
  rw [UInt32.toNat_ofNat_of_lt' (by
    show _ < 2 ^ 32
    omega), Nat.min_comm]

/-- The length of a slice that holds a text is the number of the text's units. -/
theorem utf16LenOfUtf8_utf8 (endian : Endian) (s : List Char) (h : (Unicode.utf16 s).length < 2 ^ 32) :
    (utf16LenOfUtf8 endian (Unicode.utf8 s)).toNat = (Unicode.utf16 s).length := by
  have hbytes := Unicode.length_utf8_le s
  have hunits := Unicode.length_utf16_of_bytes s
  have hle : (Unicode.utf8 s).countP Unicode.isContinuation ≤ (Unicode.utf8 s).length := List.countP_le_length
  rw [utf16LenOfUtf8_eq_count endian (Unicode.utf8 s) (by rw [maxSlice]; omega)]
  omega

/-- The count by words is the plain count, in either byte order, and for a text it is the number of UTF-16 units. -/
theorem utf16LenOfUtf8_exact (endian : Endian) :
    (∀ bytes : List UInt8, bytes.length ≤ maxSlice → (utf16LenOfUtf8 endian bytes).toNat = min (2 ^ 32 - 1)
      (bytes.length - bytes.countP (fun b => b &&& 0xC0 == 0x80) + bytes.countP (fun b => b ≥ 0xF0))) ∧
    ∀ s : List Char, (Unicode.utf16 s).length < 2 ^ 32 →
      (utf16LenOfUtf8 endian (Unicode.utf8 s)).toNat = (Unicode.utf16 s).length :=
  ⟨fun bytes h => utf16LenOfUtf8_eq_count endian bytes h, fun s h => utf16LenOfUtf8_utf8 endian s h⟩

theorem utf16LenOfUtf8_exact_emoji :
    (utf16LenOfUtf8 .big (Unicode.utf8 ['h', 'é', '世', '🌍', '<', '/', 'p', '>'])).toNat = 9 ∧
      (utf16LenOfUtf8 .little [0xF0, 0xF0, 0x80, 0x01, 0x40, 0xC0, 0xFF, 0x00, 0xF4]).toNat = 12 :=
  ⟨(utf16LenOfUtf8_exact .big).2 ['h', 'é', '世', '🌍', '<', '/', 'p', '>'] (by decide),
    (utf16LenOfUtf8_exact .little).1 [0xF0, 0xF0, 0x80, 0x01, 0x40, 0xC0, 0xFF, 0x00, 0xF4] (by decide)⟩

end ContentStream

end SpiderChrome
