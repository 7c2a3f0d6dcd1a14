import SpiderChrome.Library.Pieces

/-!
# Texts in UTF-8 and in UTF-16

A text is a list of scalar values. In UTF-8 a character takes one to four bytes, of which all but the first have `10` as their highest bits. In UTF-16 it takes one unit, or a high and a low surrogate where it has more than sixteen bits, which are the characters of four bytes. So the number of units can be read off the bytes, and a cut through the units is between two characters unless the unit before it is a high surrogate.
-/

namespace Unicode

def utf16EncodeChar (c : Char) : List UInt16 :=
  let v := c.toNat
  if v ≤ 0xffff then [UInt16.ofNat v]
  else [UInt16.ofNat (0xd800 + (v - 0x10000) / 0x400), UInt16.ofNat (0xdc00 + (v - 0x10000) % 0x400)]

def utf16 (s : List Char) : List UInt16 := s.flatMap utf16EncodeChar

def utf8 (s : List Char) : List UInt8 := s.flatMap String.utf8EncodeChar

/-- The number of units of a character. -/
def units (c : Char) : Nat := if c.toNat ≤ 0xffff then 1 else 2

def isHighSurrogate (unit : UInt16) : Bool := 0xd800 ≤ unit && unit ≤ 0xdbff

def isContinuation (b : UInt8) : Bool := b &&& 0xc0 == 0x80

def isFourByteLead (b : UInt8) : Bool := 0xf0 ≤ b

@[simp] theorem utf16_nil : utf16 [] = [] := rfl

@[simp] theorem utf16_cons (c : Char) (s : List Char) : utf16 (c :: s) = utf16EncodeChar c ++ utf16 s := by
  simp [utf16]

@[simp] theorem utf16_append (s t : List Char) : utf16 (s ++ t) = utf16 s ++ utf16 t := by
  simp [utf16]

@[simp] theorem utf8_nil : utf8 [] = [] := rfl

@[simp] theorem utf8_cons (c : Char) (s : List Char) : utf8 (c :: s) = String.utf8EncodeChar c ++ utf8 s := by
  simp [utf8]

@[simp] theorem utf8_append (s t : List Char) : utf8 (s ++ t) = utf8 s ++ utf8 t := by
  simp [utf8]

theorem utf8_inj {s t : List Char} : utf8 s = utf8 t ↔ s = t := by
  constructor
  · intro h
    have hencode : s.utf8Encode = t.utf8Encode := congrArg List.toByteArray h
    have hdecode := congrArg ByteArray.utf8Decode? hencode
    rw [List.utf8Decode?_utf8Encode, List.utf8Decode?_utf8Encode] at hdecode
    exact List.toArray_inj (Option.some.inj hdecode)
  · intro h
    rw [h]

theorem utf8_flatten (pieces : List (List Char)) : (pieces.map utf8).flatten = utf8 pieces.flatten := by
  induction pieces with
  | nil => rfl
  | cons piece rest ih => simp [ih]

theorem utf16_flatten (pieces : List (List Char)) : (pieces.map utf16).flatten = utf16 pieces.flatten := by
  induction pieces with
  | nil => rfl
  | cons piece rest ih => simp [ih]

/-! ### Units -/

@[simp] theorem length_utf16EncodeChar (c : Char) : (utf16EncodeChar c).length = units c := by
  simp only [utf16EncodeChar, units]
  split <;> rfl

theorem length_utf16 (s : List Char) : (utf16 s).length = Pieces.total units s := by
  induction s with
  | nil => rfl
  | cons c s ih => simp [ih]

theorem units_pos (c : Char) : 1 ≤ units c := by
  unfold units
  split <;> omega

theorem units_le_two (c : Char) : units c ≤ 2 := by
  unfold units
  split <;> omega

theorem toNat_valid (c : Char) : c.toNat < 0xd800 ∨ (0xdfff < c.toNat ∧ c.toNat < 0x110000) := c.valid

theorem isHighSurrogate_ofNat {v : Nat} (h : v < 0x10000) :
    isHighSurrogate (UInt16.ofNat v) = (decide (0xd800 ≤ v) && decide (v ≤ 0xdbff)) := by
  have htoNat : (UInt16.ofNat v).toNat = v := UInt16.toNat_ofNat_of_lt' h
  simp only [isHighSurrogate, UInt16.le_iff_toNat_le, htoNat]
  rfl

/-- A character of one unit is no surrogate. -/
theorem encode_of_one {c : Char} (h : c.toNat ≤ 0xffff) :
    ∃ unit, utf16EncodeChar c = [unit] ∧ isHighSurrogate unit = false := by
  refine ⟨UInt16.ofNat c.toNat, by simp [utf16EncodeChar, h], ?_⟩
  have hvalid := toNat_valid c
  rw [isHighSurrogate_ofNat (by omega)]
  simp only [Bool.and_eq_false_iff, decide_eq_false_iff_not]
  omega

/-- A character of two units has a high surrogate and a low one. -/
theorem encode_of_two {c : Char} (h : ¬c.toNat ≤ 0xffff) :
    ∃ high low, utf16EncodeChar c = [high, low] ∧ isHighSurrogate high = true ∧ isHighSurrogate low = false := by
  have hvalid := toNat_valid c
  refine ⟨UInt16.ofNat (0xd800 + (c.toNat - 0x10000) / 0x400),
    UInt16.ofNat (0xdc00 + (c.toNat - 0x10000) % 0x400), if_neg h, ?_, ?_⟩
  · rw [isHighSurrogate_ofNat (by omega)]
    simp only [Bool.and_eq_true, decide_eq_true_eq]
    omega
  · rw [isHighSurrogate_ofNat (by omega)]
    simp only [Bool.and_eq_false_iff, decide_eq_false_iff_not]
    omega

/-! ### Decoding -/

/-- The character of a unit that stands alone: a surrogate is replaced. -/
def decodeUnit (unit : UInt16) : Char :=
  if 0xd800 ≤ unit && unit ≤ 0xdfff then '\uFFFD' else Char.ofNat unit.toNat

def decodePair (high low : UInt16) : Char :=
  Char.ofNat (0x10000 + (high.toNat - 0xd800) * 0x400 + (low.toNat - 0xdc00))

/-- The text of some units. -/
def decodeUtf16 : List UInt16 → List Char
  | [] => []
  | [unit] => [decodeUnit unit]
  | high :: low :: rest =>
    if isHighSurrogate high && (0xdc00 ≤ low && low ≤ 0xdfff) then decodePair high low :: decodeUtf16 rest
    else decodeUnit high :: decodeUtf16 (low :: rest)

theorem decodeUtf16_of_one {unit : UInt16} (h : isHighSurrogate unit = false) (rest : List UInt16) :
    decodeUtf16 (unit :: rest) = decodeUnit unit :: decodeUtf16 rest := by
  cases rest with
  | nil => rfl
  | cons next rest => simp [decodeUtf16, h]

theorem toNat_unit {v : Nat} (h : v < 0x10000) : (UInt16.ofNat v).toNat = v := UInt16.toNat_ofNat_of_lt' h

theorem decodeUnit_encode {c : Char} (h : c.toNat ≤ 0xffff) : decodeUnit (UInt16.ofNat c.toNat) = c := by
  have hvalid := toNat_valid c
  have hunit : (UInt16.ofNat c.toNat).toNat = c.toNat := toNat_unit (by omega)
  have hno : ¬((decide (0xd800 ≤ UInt16.ofNat c.toNat) && decide (UInt16.ofNat c.toNat ≤ 0xdfff)) = true) := by
    simp only [UInt16.le_iff_toNat_le, hunit, Bool.and_eq_true, decide_eq_true_eq]
    show ¬(0xd800 ≤ c.toNat ∧ c.toNat ≤ 0xdfff)
    omega
  rw [decodeUnit, if_neg hno, hunit, Char.ofNat_toNat]

theorem decodePair_encode {c : Char} (h : ¬c.toNat ≤ 0xffff) :
    decodePair (UInt16.ofNat (0xd800 + (c.toNat - 0x10000) / 0x400))
      (UInt16.ofNat (0xdc00 + (c.toNat - 0x10000) % 0x400)) = c := by
  have hvalid := toNat_valid c
  rw [decodePair, toNat_unit (by omega), toNat_unit (by omega),
    show 0x10000 + (0xd800 + (c.toNat - 0x10000) / 0x400 - 0xd800) * 0x400 +
      (0xdc00 + (c.toNat - 0x10000) % 0x400 - 0xdc00) = c.toNat by omega, Char.ofNat_toNat]

/-- A text is found again in its units. -/
theorem decodeUtf16_utf16 (s : List Char) : decodeUtf16 (utf16 s) = s := by
  induction s with
  | nil => rfl
  | cons c s ih =>
    have hvalid := toNat_valid c
    by_cases hc : c.toNat ≤ 0xffff
    · have hencode : utf16EncodeChar c = [UInt16.ofNat c.toNat] := if_pos hc
      have hlow : isHighSurrogate (UInt16.ofNat c.toNat) = false := by
        rw [isHighSurrogate_ofNat (by omega)]
        simp only [Bool.and_eq_false_iff, decide_eq_false_iff_not]
        omega
      rw [utf16_cons, hencode, List.singleton_append, decodeUtf16_of_one hlow, decodeUnit_encode hc, ih]
    · have hencode : utf16EncodeChar c = [UInt16.ofNat (0xd800 + (c.toNat - 0x10000) / 0x400),
          UInt16.ofNat (0xdc00 + (c.toNat - 0x10000) % 0x400)] := if_neg hc
      have hlow : (UInt16.ofNat (0xdc00 + (c.toNat - 0x10000) % 0x400)).toNat =
          0xdc00 + (c.toNat - 0x10000) % 0x400 := toNat_unit (by omega)
      have hpair : (isHighSurrogate (UInt16.ofNat (0xd800 + (c.toNat - 0x10000) / 0x400)) &&
          (decide (0xdc00 ≤ UInt16.ofNat (0xdc00 + (c.toNat - 0x10000) % 0x400)) &&
            decide (UInt16.ofNat (0xdc00 + (c.toNat - 0x10000) % 0x400) ≤ 0xdfff))) = true := by
        rw [isHighSurrogate_ofNat (by omega)]
        simp only [UInt16.le_iff_toNat_le, hlow, Bool.and_eq_true, decide_eq_true_eq]
        show (0xd800 ≤ _ ∧ _ ≤ 0xdbff) ∧ 0xdc00 ≤ 0xdc00 + (c.toNat - 0x10000) % 0x400 ∧
          0xdc00 + (c.toNat - 0x10000) % 0x400 ≤ 0xdfff
        omega
      rw [utf16_cons, hencode, List.cons_append, List.singleton_append, decodeUtf16, if_pos hpair,
        decodePair_encode hc, ih]

/-! ### Cuts -/

/-- Where a cut is made that does not part the units of a character: one unit earlier, if the unit before it is a high surrogate and there are more to come. -/
def cut (text : List UInt16) (bound : Nat) : Nat :=
  if bound < text.length then
    match text[bound - 1]? with
    | some unit => if isHighSurrogate unit then bound - 1 else bound
    | none => bound
  else text.length

theorem cut_cons (unit : UInt16) (text : List UInt16) {bound : Nat} (h : 1 ≤ bound) :
    cut (unit :: text) (bound + 1) = cut text bound + 1 := by
  have hget : (unit :: text)[bound + 1 - 1]? = text[bound - 1]? := by
    rw [show bound + 1 - 1 = bound - 1 + 1 by omega, List.getElem?_cons_succ]
  by_cases hlength : bound < text.length
  · have hlength' : bound + 1 < (unit :: text).length := by
      rw [List.length_cons]
      omega
    rw [cut, cut, if_pos hlength, if_pos hlength', hget]
    cases text[bound - 1]? with
    | none => rfl
    | some last =>
      simp only
      split <;> omega
  · have hlength' : ¬bound + 1 < (unit :: text).length := by
      rw [List.length_cons]
      omega
    rw [cut, cut, if_neg hlength, if_neg hlength', List.length_cons]

/-- After one unit that is no high surrogate. -/
theorem cut_one {unit : UInt16} (text : List UInt16) (h : isHighSurrogate unit = false) :
    cut (unit :: text) 1 = 1 := by
  unfold cut
  cases text with
  | nil => rfl
  | cons next text => simp [h]

@[simp] theorem takeWithin_zero (s : List Char) : Pieces.takeWithin units 0 s = [] := by
  cases s with
  | nil => rfl
  | cons c s =>
    have hc := units_pos c
    exact if_neg (by omega)

/-- A cut leaves whole characters on both sides: the first side is the longest piece within the bound. -/
theorem take_cut (s : List Char) {bound : Nat} (hbound : 1 ≤ bound) :
    (utf16 s).take (cut (utf16 s) bound) = utf16 (Pieces.takeWithin units bound s) := by
  induction s generalizing bound with
  | nil => simp [Pieces.takeWithin]
  | cons c s ih =>
    by_cases hc : c.toNat ≤ 0xffff
    · obtain ⟨unit, hencode, hlow⟩ := encode_of_one hc
      have hunits : units c = 1 := if_pos hc
      simp only [Pieces.takeWithin, hunits, if_pos hbound, utf16_cons, hencode, List.singleton_append]
      obtain ⟨n, rfl⟩ : ∃ n, bound = n + 1 := ⟨bound - 1, by omega⟩
      cases n with
      | zero => simp [cut_one _ hlow]
      | succ n =>
        rw [cut_cons _ _ (by omega), List.take_succ_cons, ih (by omega)]
        rfl
    · obtain ⟨high, low, hencode, hhigh, hlow⟩ := encode_of_two hc
      have hunits : units c = 2 := if_neg hc
      simp only [utf16_cons, hencode, List.cons_append, List.nil_append]
      obtain ⟨n, rfl⟩ : ∃ n, bound = n + 1 := ⟨bound - 1, by omega⟩
      cases n with
      | zero => simp [cut, hhigh, Pieces.takeWithin, hunits]
      | succ n =>
        rw [cut_cons _ _ (by omega), List.take_succ_cons]
        simp only [Pieces.takeWithin, hunits, if_pos (show 2 ≤ n + 1 + 1 by omega), utf16_cons, hencode,
          List.cons_append, List.nil_append]
        cases n with
        | zero => simp [cut_one _ hlow]
        | succ n =>
          rw [cut_cons _ _ (by omega), List.take_succ_cons, ih (by omega)]
          rfl

/-! ### Bytes -/

theorem isContinuation_ofNat : ∀ v < 256, isContinuation (UInt8.ofNat v) = (decide (0x80 ≤ v) && decide (v < 0xc0)) := by
  decide +kernel

theorem isFourByteLead_ofNat : ∀ v < 256, isFourByteLead (UInt8.ofNat v) = decide (0xf0 ≤ v) := by
  decide +kernel

/-- The number of units of a character, from its bytes. -/
theorem units_of_bytes (c : Char) :
    (String.utf8EncodeChar c).length + (String.utf8EncodeChar c).countP isFourByteLead =
      units c + (String.utf8EncodeChar c).countP isContinuation := by
  have hvalid := toNat_valid c
  have hval : c.val.toNat = c.toNat := rfl
  simp only [String.utf8EncodeChar, hval, units]
  repeat' split
  all_goals
    simp (disch := omega) only [List.countP_cons, List.countP_nil, List.length_cons, List.length_nil,
      isContinuation_ofNat, isFourByteLead_ofNat, Bool.and_eq_true, decide_eq_true_eq, if_pos, if_neg]
  omega

/-- The number of units of a text, from its bytes. -/
theorem length_utf16_of_bytes (s : List Char) :
    (utf8 s).length + (utf8 s).countP isFourByteLead = (utf16 s).length + (utf8 s).countP isContinuation := by
  induction s with
  | nil => rfl
  | cons c s ih =>
    have hc := units_of_bytes c
    simp only [utf8_cons, utf16_cons, List.length_append, List.countP_append, length_utf16EncodeChar]
    omega

/-- A character takes one to three bytes for each of its units. -/
theorem length_utf8_le (s : List Char) : (utf8 s).length ≤ 3 * (utf16 s).length := by
  induction s with
  | nil => simp
  | cons c s ih =>
    have hc : (String.utf8EncodeChar c).length ≤ 3 * units c := by
      have hval : c.val.toNat = c.toNat := rfl
      simp only [String.utf8EncodeChar, hval, units]
      repeat' split
      all_goals
        simp only [List.length_cons, List.length_nil]
        omega
    simp only [utf8_cons, utf16_cons, List.length_append, length_utf16EncodeChar]
    omega

end Unicode
