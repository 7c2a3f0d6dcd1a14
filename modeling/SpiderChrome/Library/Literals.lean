import SpiderChrome.Library.Unicode

/-!
# String literals

The string literals of JavaScript between double quotes, as a script that is not strict reads them. The source is a text of characters, the value of a literal one of UTF-16 code units. A text reads back as itself just when it has no quote, backslash or line break.
-/

namespace Literals

open Unicode

/-! ### Escapes -/

def isLineTerminator (c : Char) : Bool := c = '\n' || c = '\r' || c = '\u2028' || c = '\u2029'

def hexDigit? (c : Char) : Option Nat :=
  if c.isDigit then some (c.toNat - '0'.toNat)
  else if 'a' ≤ c && c ≤ 'f' then some (c.toNat - 'a'.toNat + 10)
  else if 'A' ≤ c && c ≤ 'F' then some (c.toNat - 'A'.toNat + 10)
  else none

/-- So many hexadecimal digits. -/
def readHex : Nat → Nat → List Char → Option (Nat × List Char)
  | 0, value, text => some (value, text)
  | _ + 1, _, [] => none
  | n + 1, value, c :: text =>
    match hexDigit? c with
    | some digit => readHex n (value * 16 + digit) text
    | none => none

/-- Hexadecimal digits up to a closing brace. -/
def readBraced (value : Nat) : List Char → Option (Nat × List Char)
  | [] => none
  | c :: text =>
    if c = '}' then some (value, text)
    else
      match hexDigit? c with
      | some digit => if value * 16 + digit ≤ 0x10ffff then readBraced (value * 16 + digit) text else none
      | none => none

def octalDigit? (c : Char) : Option Nat := if '0' ≤ c && c ≤ '7' then some (c.toNat - '0'.toNat) else none

/-- At most so many more octal digits. -/
def readOctal : Nat → Nat → List Char → Nat × List Char
  | 0, value, text => (value, text)
  | _ + 1, value, [] => (value, [])
  | n + 1, value, c :: text =>
    match octalDigit? c with
    | some digit => readOctal n (value * 8 + digit) text
    | none => (value, c :: text)

/-- A code point by four digits, or by any number of them between braces. -/
def readUnicode (text : List Char) : Option (Nat × List Char) :=
  match text with
  | '{' :: d :: text =>
    match hexDigit? d with
    | some digit => readBraced digit text
    | none => none
  | text => readHex 4 0 text

/-- The code units of a code point, which may be a surrogate. -/
def codePointUnits (v : Nat) : List UInt16 :=
  if v ≤ 0xffff then [UInt16.ofNat v]
  else [UInt16.ofNat (0xd800 + (v - 0x10000) / 0x400), UInt16.ofNat (0xdc00 + (v - 0x10000) % 0x400)]

/-- The character that stands for one behind a backslash, or for itself. -/
def singleEscape (c : Char) : List UInt16 :=
  if c = 'b' then [8] else if c = 't' then [9] else if c = 'n' then [10] else if c = 'v' then [11]
  else if c = 'f' then [12] else if c = 'r' then [13] else utf16EncodeChar c

/-- What stands behind a backslash: its value, and the text after it. A line break has no value. -/
def readEscape : List Char → Option (List UInt16 × List Char)
  | [] => none
  | c :: text =>
    if c = 'x' then (readHex 2 0 text).map fun read => ([UInt16.ofNat read.1], read.2)
    else if c = 'u' then (readUnicode text).map fun read => (codePointUnits read.1, read.2)
    else
      match octalDigit? c with
      | some digit =>
        let read := readOctal (if digit ≤ 3 then 2 else 1) digit text
        some ([UInt16.ofNat read.1], read.2)
      | none =>
        if c = '\r' then some ([], if text.head? = some '\n' then text.tail else text)
        else if isLineTerminator c then some ([], text)
        else some (singleEscape c, text)

/-! ### What an escape takes -/

/-- An escape takes the characters up to the rest. These are no fewer units than its value, and a quote is among them only as the first one. -/
def Takes (text rest : List Char) (value : List UInt16) : Prop :=
  ∃ c more, text = c :: (more ++ rest) ∧ '"' ∉ more ∧ value.length ≤ (utf16 (c :: more)).length ∧
    (c = '"' → more = [] ∧ value = utf16 ['"'])

variable {text rest : List Char} {value : List UInt16} {n v w : Nat}

theorem length_le_utf16 (s : List Char) : s.length ≤ (utf16 s).length := by
  induction s with
  | nil => exact Nat.le_refl 0
  | cons c s ih =>
    have hpos := units_pos c
    rw [utf16_cons, List.length_append, length_utf16EncodeChar, List.length_cons]
    omega

theorem notMem_cons_of_ne {c : Char} {s : List Char} (hc : c ≠ '"') (hs : '"' ∉ s) : '"' ∉ c :: s := by
  rw [List.mem_cons, not_or]
  exact ⟨Ne.symm hc, hs⟩

theorem ne_of_hexDigit {c : Char} {digit : Nat} (h : hexDigit? c = some digit) : c ≠ '"' := by
  rintro rfl
  cases h

theorem ne_of_octalDigit {c : Char} {digit : Nat} (h : octalDigit? c = some digit) : c ≠ '"' := by
  rintro rfl
  cases h

theorem readHex_takes (h : readHex n v text = some (w, rest)) :
    ∃ digits, text = digits ++ rest ∧ '"' ∉ digits ∧ digits.length = n := by
  induction n generalizing v text with
  | zero =>
    cases h
    exact ⟨[], rfl, List.not_mem_nil, rfl⟩
  | succ n ih =>
    cases text with
    | nil => cases h
    | cons c text =>
      rw [readHex] at h
      split at h
      · rename_i digit hdigit
        obtain ⟨digits, rfl, hquote, hlength⟩ := ih h
        exact ⟨c :: digits, rfl, notMem_cons_of_ne (ne_of_hexDigit hdigit) hquote, congrArg (· + 1) hlength⟩
      · cases h

theorem readBraced_takes (h : readBraced v text = some (w, rest)) :
    ∃ digits, text = digits ++ rest ∧ '"' ∉ digits ∧ 1 ≤ digits.length := by
  induction text generalizing v with
  | nil => cases h
  | cons c text ih =>
    rw [readBraced] at h
    split at h
    · rename_i hbrace
      cases h
      refine ⟨[c], rfl, notMem_cons_of_ne ?_ List.not_mem_nil, Nat.le_refl 1⟩
      rw [hbrace]
      decide
    · split at h
      · rename_i digit hdigit
        split at h
        · obtain ⟨digits, rfl, hquote, -⟩ := ih h
          refine ⟨c :: digits, rfl, notMem_cons_of_ne (ne_of_hexDigit hdigit) hquote, ?_⟩
          rw [List.length_cons]
          omega
        · cases h
      · cases h

theorem readUnicode_takes (h : readUnicode text = some (w, rest)) :
    ∃ digits, text = digits ++ rest ∧ '"' ∉ digits ∧ 2 ≤ digits.length := by
  rw [readUnicode.eq_def] at h
  split at h
  · rename_i d text
    split at h
    · rename_i digit hdigit
      obtain ⟨digits, rfl, hquote, hlength⟩ := readBraced_takes h
      refine ⟨'\x7b' :: d :: digits, rfl,
        notMem_cons_of_ne (by decide) (notMem_cons_of_ne (ne_of_hexDigit hdigit) hquote), ?_⟩
      rw [List.length_cons, List.length_cons]
      omega
    · cases h
  · obtain ⟨digits, rfl, hquote, hlength⟩ := readHex_takes h
    exact ⟨digits, rfl, hquote, by omega⟩

theorem readOctal_takes (n v : Nat) (text : List Char) :
    ∃ digits, text = digits ++ (readOctal n v text).2 ∧ '"' ∉ digits := by
  induction n generalizing v text with
  | zero => exact ⟨[], rfl, List.not_mem_nil⟩
  | succ n ih =>
    cases text with
    | nil => exact ⟨[], rfl, List.not_mem_nil⟩
    | cons c text =>
      rw [readOctal]
      cases hdigit : octalDigit? c with
      | none => exact ⟨[], rfl, List.not_mem_nil⟩
      | some digit =>
        obtain ⟨digits, htext, hquote⟩ := ih (v * 8 + digit) text
        exact ⟨c :: digits, congrArg (c :: ·) htext, notMem_cons_of_ne (ne_of_octalDigit hdigit) hquote⟩

/-- An escape of some characters that are no quotes. -/
theorem takes_of_notMem {c : Char} {more : List Char} (htext : text = c :: (more ++ rest)) (hc : c ≠ '"')
    (hmore : '"' ∉ more) (hlength : value.length ≤ 1 + more.length) : Takes text rest value := by
  refine ⟨c, more, htext, hmore, ?_, fun hquote => absurd hquote hc⟩
  have hle := length_le_utf16 (c :: more)
  rw [List.length_cons] at hle
  omega

theorem length_codePointUnits_le (v : Nat) : (codePointUnits v).length ≤ 2 := by
  rw [codePointUnits]
  split
  · exact Nat.le_succ 1
  · exact Nat.le_refl 2

theorem length_singleEscape_le (c : Char) : (singleEscape c).length ≤ (utf16EncodeChar c).length := by
  have hpos := units_pos c
  rw [← length_utf16EncodeChar] at hpos
  rw [singleEscape]
  split_ifs
  all_goals first | exact hpos | exact Nat.le_refl _

theorem takes_of_readEscape (h : readEscape text = some (value, rest)) : Takes text rest value := by
  cases text with
  | nil => cases h
  | cons c text =>
    rw [readEscape] at h
    split at h
    · rename_i hx
      obtain ⟨⟨w, rest'⟩, hread, heq⟩ := Option.map_eq_some_iff.1 h
      cases heq
      obtain ⟨digits, rfl, hquote, -⟩ := readHex_takes hread
      refine takes_of_notMem rfl ?_ hquote ?_
      · rw [hx]
        decide
      · rw [List.length_singleton]
        omega
    split at h
    · rename_i hu
      obtain ⟨⟨w, rest'⟩, hread, heq⟩ := Option.map_eq_some_iff.1 h
      cases heq
      obtain ⟨digits, rfl, hquote, hlength⟩ := readUnicode_takes hread
      refine takes_of_notMem rfl ?_ hquote ?_
      · rw [hu]
        decide
      · have htwo := length_codePointUnits_le w
        dsimp only
        omega
    split at h
    · rename_i digit hdigit
      cases h
      obtain ⟨digits, htext, hquote⟩ := readOctal_takes (if digit ≤ 3 then 2 else 1) digit text
      refine takes_of_notMem (congrArg (c :: ·) htext) (ne_of_octalDigit hdigit) hquote ?_
      rw [List.length_singleton]
      omega
    split at h
    · rename_i hbreak
      have hc : c ≠ '"' := by
        rw [hbreak]
        decide
      cases h
      split
      · rename_i hhead
        obtain ⟨rest, rfl⟩ := List.head?_eq_some_iff.1 hhead
        exact takes_of_notMem rfl hc (by decide : '"' ∉ ['\n']) (Nat.zero_le _)
      · exact takes_of_notMem rfl hc List.not_mem_nil (Nat.zero_le _)
    split at h
    · rename_i hbreak
      cases h
      refine takes_of_notMem rfl ?_ List.not_mem_nil (Nat.zero_le _)
      rintro rfl
      cases hbreak
    · cases h
      refine ⟨c, [], rfl, List.not_mem_nil, ?_, ?_⟩
      · rw [utf16_cons, utf16_nil, List.append_nil]
        exact length_singleEscape_le c
      · rintro rfl
        exact ⟨rfl, rfl⟩

theorem length_lt_of_readEscape (h : readEscape text = some (value, rest)) : rest.length < text.length := by
  obtain ⟨c, more, rfl, -⟩ := takes_of_readEscape h
  rw [List.length_cons, List.length_append]
  omega

/-! ### Literals -/

/-- The value of a literal from behind its first quote, and the text after it. -/
def readLiteral (text : List Char) : Option (List UInt16 × List Char) :=
  match text with
  | [] => none
  | c :: text =>
    if c = '"' then some ([], text)
    else if c = '\n' ∨ c = '\r' then none
    else if c = '\\' then
      match _h : readEscape text with
      | some (value, rest) => (readLiteral rest).map fun read => (value ++ read.1, read.2)
      | none => none
    else (readLiteral text).map fun read => (utf16EncodeChar c ++ read.1, read.2)
termination_by text.length
decreasing_by
  · exact Nat.lt_succ_of_lt (length_lt_of_readEscape ‹_›)
  · exact Nat.lt_succ_self _

/-- A character that stands for itself in a literal. -/
def Plain (c : Char) : Prop := c ≠ '"' ∧ c ≠ '\\' ∧ c ≠ '\n' ∧ c ≠ '\r'

instance : DecidablePred Plain := fun _ => inferInstanceAs (Decidable (_ ∧ _))

theorem readLiteral_quote (text : List Char) : readLiteral ('"' :: text) = some ([], text) := by
  rw [readLiteral, if_pos rfl]

theorem readLiteral_plain {c : Char} (h : Plain c) (text : List Char) :
    readLiteral (c :: text) = (readLiteral text).map fun read => (utf16EncodeChar c ++ read.1, read.2) := by
  rw [readLiteral, if_neg h.1, if_neg (not_or.2 ⟨h.2.2.1, h.2.2.2⟩), if_neg h.2.1]

theorem readLiteral_break {c : Char} (h : c = '\n' ∨ c = '\r') (text : List Char) : readLiteral (c :: text) = none := by
  have hquote : c ≠ '"' := by
    rintro rfl
    exact absurd h (by decide)
  rw [readLiteral, if_neg hquote, if_pos h]

theorem readLiteral_escape (text : List Char) :
    readLiteral ('\\' :: text) =
      (readEscape text).bind fun escape => (readLiteral escape.2).map fun read => (escape.1 ++ read.1, read.2) := by
  rw [readLiteral, if_neg (by decide), if_neg (by decide), if_pos rfl]
  split
  · rename_i hescape
    rw [hescape]
    rfl
  · rename_i hescape
    rw [hescape]
    rfl

/-- A character ends a literal, breaks it, begins an escape or stands for itself. -/
theorem char_cases (c : Char) : c = '"' ∨ (c = '\n' ∨ c = '\r') ∨ c = '\\' ∨ Plain c := by
  by_cases hquote : c = '"'
  · exact .inl hquote
  by_cases hbreak : c = '\n' ∨ c = '\r'
  · exact .inr (.inl hbreak)
  by_cases hslash : c = '\\'
  · exact .inr (.inr (.inl hslash))
  · exact .inr (.inr (.inr ⟨hquote, hslash, (not_or.1 hbreak).1, (not_or.1 hbreak).2⟩))

theorem length_lt_of_readLiteral (h : readLiteral text = some (value, rest)) : rest.length < text.length := by
  induction hlength : text.length using Nat.strongRecOn generalizing text value with
  | _ length ih =>
    cases text with
    | nil =>
      rw [readLiteral] at h
      cases h
    | cons c text =>
      rw [List.length_cons] at hlength
      obtain rfl | hbreak | rfl | hplain := char_cases c
      · rw [readLiteral_quote] at h
        cases h
        omega
      · rw [readLiteral_break hbreak] at h
        cases h
      · rw [readLiteral_escape] at h
        obtain ⟨⟨e, text'⟩, hescape, hread⟩ := Option.bind_eq_some_iff.1 h
        obtain ⟨⟨v, rest'⟩, hliteral, heq⟩ := Option.map_eq_some_iff.1 hread
        cases heq
        have hlt := length_lt_of_readEscape hescape
        have hrest := ih text'.length (by omega) hliteral rfl
        omega
      · rw [readLiteral_plain hplain] at h
        obtain ⟨⟨v, rest'⟩, hliteral, heq⟩ := Option.map_eq_some_iff.1 h
        cases heq
        have hrest := ih text.length (by omega) hliteral rfl
        omega

/-! ### What reads back -/

theorem readLiteral_of_plain {s : List Char} (h : ∀ c ∈ s, Plain c) (rest : List Char) :
    readLiteral (s ++ '"' :: rest) = some (utf16 s, rest) := by
  induction s with
  | nil => exact readLiteral_quote rest
  | cons c s ih =>
    rw [List.forall_mem_cons] at h
    rw [List.cons_append, readLiteral_plain h.1, ih h.2, utf16_cons]
    rfl

/-- An escape takes some of a text, or the quote behind its last character. -/
theorem takes_cases {s tail : List Char} (h : Takes (s ++ '"' :: tail) rest value) :
    (∃ front back, s = front ++ back ∧ rest = back ++ '"' :: tail ∧ value.length ≤ (utf16 front).length ∧
        back.length < s.length) ∨
      (s = [] ∧ rest = tail ∧ value = utf16 ['"']) := by
  obtain ⟨c, more, htext, hmore, hlength, hquote⟩ := h
  cases s with
  | nil =>
    obtain ⟨rfl, htail⟩ := List.cons.inj htext
    obtain ⟨rfl, rfl⟩ := hquote rfl
    exact .inr ⟨rfl, htail.symm, rfl⟩
  | cons d s =>
    obtain ⟨rfl, happend⟩ := List.cons.inj htext
    obtain ⟨back, rfl, hback⟩ | ⟨back, rfl, hback⟩ := List.append_eq_append_iff.1 happend
    · cases back with
      | nil =>
        rw [List.append_nil] at *
        refine .inl ⟨d :: s, [], (List.append_nil _).symm, hback.symm, hlength, ?_⟩
        rw [List.length_cons, List.length_nil]
        omega
      | cons b back =>
        obtain ⟨rfl, -⟩ := List.cons.inj hback
        exact absurd (List.mem_append_right s List.mem_cons_self) hmore
    · refine .inl ⟨d :: more, back, rfl, hback, hlength, ?_⟩
      rw [List.length_cons, List.length_append]
      omega

theorem eq_append_of_le {α : Type} {a b c d : List α} (h : a ++ b = c ++ d) (hle : a.length ≤ c.length) :
    ∃ more, c = a ++ more ∧ b = more ++ d := by
  obtain hmore | ⟨less, rfl, rfl⟩ := List.append_eq_append_iff.1 h
  · exact hmore
  · rw [List.length_append] at hle
    obtain rfl : less = [] := List.eq_nil_of_length_eq_zero (by omega)
    exact ⟨[], by rw [List.append_nil, List.append_nil], rfl⟩

/-- Where more is to be read than the text has, nothing makes up for it: an escape takes more than its value has, and the quote of the text may be escaped only by its last character. -/
theorem plain_of_readLiteral {s tail : List Char} {ahead : List UInt16}
    (htail : ∀ value rest, readLiteral tail = some (value, rest) → value.getLast? ≠ some 0x5c)
    (h : readLiteral (s ++ '"' :: tail) = some (ahead ++ utf16 s, rest)) : ahead = [] ∧ ∀ c ∈ s, Plain c := by
  induction hlength : s.length using Nat.strongRecOn generalizing s ahead with
  | _ length ih =>
    cases s with
    | nil =>
      rw [List.nil_append, readLiteral_quote, utf16_nil, List.append_nil] at h
      cases h
      exact ⟨rfl, fun c hc => absurd hc List.not_mem_nil⟩
    | cons c s =>
      rw [List.length_cons] at hlength
      rw [List.cons_append] at h
      obtain rfl | hbreak | rfl | hplain := char_cases c
      · rw [readLiteral_quote] at h
        have hnil := congrArg List.length (Prod.mk.inj (Option.some.inj h)).1
        rw [utf16_cons, List.length_append, List.length_append, length_utf16EncodeChar, List.length_nil] at hnil
        have hpos := units_pos '"'
        omega
      · rw [readLiteral_break hbreak] at h
        cases h
      · rw [readLiteral_escape] at h
        obtain ⟨⟨e, text⟩, hescape, hread⟩ := Option.bind_eq_some_iff.1 h
        obtain ⟨⟨v, rest'⟩, hliteral, heq⟩ := Option.map_eq_some_iff.1 hread
        obtain ⟨hvalue, rfl⟩ := Prod.mk.inj heq
        dsimp only at hvalue hliteral
        obtain ⟨front, back, rfl, rfl, hle, hback⟩ | ⟨rfl, rfl, rfl⟩ := takes_cases (takes_of_readEscape hescape)
        · rw [utf16_cons, utf16_append, ← List.append_assoc, ← List.append_assoc] at hvalue
          have hpos := units_pos '\\'
          obtain ⟨more, hmore, hv⟩ := eq_append_of_le hvalue (by
            rw [List.length_append]
            omega)
          rw [hv] at hliteral
          obtain ⟨rfl, -⟩ := ih back.length (by omega) hliteral rfl
          have hsame := congrArg List.length hmore
          simp only [List.length_append, length_utf16EncodeChar, List.length_nil] at hsame
          omega
        · have hlast := congrArg List.getLast? hvalue
          have hback := htail v rest' hliteral
          have hslash : (ahead ++ utf16 ['\\']).getLast? = some 0x5c := List.getLast?_concat
          rw [hslash, List.getLast?_append] at hlast
          cases hv : v.getLast? with
          | none =>
            rw [hv] at hlast
            exact absurd hlast (by decide)
          | some unit =>
            rw [hv, Option.some_or] at hlast
            rw [hv, hlast] at hback
            exact absurd rfl hback
      · rw [readLiteral_plain hplain] at h
        obtain ⟨⟨v, rest'⟩, hliteral, heq⟩ := Option.map_eq_some_iff.1 h
        obtain ⟨hvalue, rfl⟩ := Prod.mk.inj heq
        dsimp only at hvalue hliteral
        rw [utf16_cons, ← List.append_assoc] at hvalue
        obtain ⟨more, hmore, hv⟩ := eq_append_of_le hvalue (by
          rw [List.length_append]
          omega)
        rw [hv] at hliteral
        obtain ⟨rfl, hs⟩ := ih s.length (by omega) hliteral rfl
        have hsame := congrArg List.length hmore
        rw [List.append_nil, List.length_append] at hsame
        exact ⟨List.eq_nil_of_length_eq_zero (by omega), List.forall_mem_cons.2 ⟨hplain, hs⟩⟩

/-! ### Arguments -/

/-- White space and line ends. -/
def isBlank (c : Char) : Bool :=
  isLineTerminator c || c = '\t' || c = '\u000b' || c = '\u000c' || c = ' ' || c = '\u00a0' || c = '\u1680' ||
    '\u2000' ≤ c && c ≤ '\u200a' || c = '\u202f' || c = '\u205f' || c = '\u3000' || c = '\ufeff'

def skipBlanks (text : List Char) : List Char := text.dropWhile isBlank

theorem length_skipBlanks_le (text : List Char) : (skipBlanks text).length ≤ text.length :=
  (List.dropWhile_suffix isBlank).length_le

theorem length_lt_of_skipBlanks {c : Char} (h : skipBlanks text = c :: rest) : rest.length < text.length := by
  have hle := length_skipBlanks_le text
  rw [h, List.length_cons] at hle
  omega

theorem skipBlanks_cons {c : Char} (h : isBlank c = false) (text : List Char) : skipBlanks (c :: text) = c :: text := by
  rw [skipBlanks, List.dropWhile_cons_of_neg]
  rw [h]
  exact Bool.false_ne_true

/-- The values of literals with commas between them, up to the parenthesis behind them, and the text after it. A last comma may stand alone. -/
def readList (text : List Char) : Option (List (List UInt16) × List Char) :=
  match _h : skipBlanks text with
  | [] => none
  | c :: rest =>
    if c = ')' then some ([], rest)
    else if c = '"' then
      match _h : readLiteral rest with
      | none => none
      | some (value, rest) =>
        match _h : skipBlanks rest with
        | [] => none
        | d :: rest =>
          if d = ')' then some ([value], rest)
          else if d = ',' then (readList rest).map fun read => (value :: read.1, read.2)
          else none
    else none
termination_by text.length
decreasing_by
  have hfirst := length_lt_of_skipBlanks ‹skipBlanks text = _›
  have hliteral := length_lt_of_readLiteral ‹readLiteral _ = _›
  have hsecond := length_lt_of_skipBlanks ‹skipBlanks _ = d :: _›
  omega

/-- The string arguments of a call, and the text after them. -/
def readArguments (text : List Char) : Option (List (List UInt16) × List Char) :=
  match text with
  | '(' :: text => readList text
  | _ => none

theorem readList_close (text : List Char) : readList (')' :: text) = some ([], text) := by
  rw [readList, skipBlanks_cons (by decide)]
  exact if_pos rfl

/-- What is done with the value of a first literal. -/
def continueList (value : List UInt16) (rest : List Char) : Option (List (List UInt16) × List Char) :=
  match skipBlanks rest with
  | [] => none
  | d :: rest =>
    if d = ')' then some ([value], rest)
    else if d = ',' then (readList rest).map fun read => (value :: read.1, read.2)
    else none

theorem readList_quote (text : List Char) :
    readList ('"' :: text) = (readLiteral text).bind fun read => continueList read.1 read.2 := by
  rw [readList]
  split
  · rename_i hnil
    rw [skipBlanks_cons (by decide)] at hnil
    cases hnil
  · rename_i c rest hcons
    rw [skipBlanks_cons (by decide)] at hcons
    cases hcons
    rw [if_neg (by decide), if_pos rfl]
    split
    · rename_i hliteral
      rw [hliteral]
      rfl
    · rename_i value rest hliteral
      rw [hliteral, Option.bind_some, continueList]
      split
      · rename_i hblanks
        rw [hblanks]
      · rename_i hblanks
        rw [hblanks]

theorem continueList_close (value : List UInt16) (rest : List Char) :
    continueList value (')' :: rest) = some ([value], rest) := by
  rw [continueList, skipBlanks_cons (by decide)]
  exact if_pos rfl

theorem continueList_comma (value : List UInt16) (rest : List Char) :
    continueList value (',' :: rest) = (readList rest).map fun read => (value :: read.1, read.2) := by
  rw [continueList, skipBlanks_cons (by decide)]
  rfl

/-- The first value of a list is that of its first literal. -/
theorem readLiteral_of_readList {values : List (List UInt16)} (h : readList ('"' :: text) = some (value :: values, rest)) :
    ∃ rest', readLiteral text = some (value, rest') := by
  rw [readList_quote] at h
  obtain ⟨⟨first, rest'⟩, hliteral, hcontinue⟩ := Option.bind_eq_some_iff.1 h
  rw [continueList] at hcontinue
  split at hcontinue
  · cases hcontinue
  · split_ifs at hcontinue
    · cases hcontinue
      exact ⟨rest', hliteral⟩
    · obtain ⟨read, -, heq⟩ := Option.map_eq_some_iff.1 hcontinue
      cases heq
      exact ⟨rest', hliteral⟩

end Literals
