import SpiderChrome.Library.Unicode

/-!
# Slices of texts

A text is cut at positions in its bytes, and there is no cut within a character. Searches go through the bytes. As an ASCII character is one byte, which is in no other character, a search for it finds the position of a character, and the text can be cut before and after it.
-/

namespace Slice

open Unicode

/-- Why a program stops: at a position that is no cut of a text, beyond the end of some bytes, or at a negative difference. -/
inductive Panic where
  | boundary
  | range
  | underflow
deriving DecidableEq

/-- The program goes on. -/
def Returns {α : Type} (result : Except Panic α) : Prop := ∃ a, result = .ok a

/-- What comes before and after a position in the bytes of a text. -/
def splitAt? : List Char → Nat → Option (List Char × List Char)
  | s, 0 => some ([], s)
  | [], _ + 1 => none
  | c :: s, n + 1 =>
    if c.utf8Size ≤ n + 1 then (splitAt? s (n + 1 - c.utf8Size)).map fun parts => (c :: parts.1, parts.2) else none

def sliceFrom (s : List Char) (i : Nat) : Except Panic (List Char) :=
  match splitAt? s i with
  | some (_, back) => .ok back
  | none => .error .boundary

def sliceTo (s : List Char) (j : Nat) : Except Panic (List Char) :=
  match splitAt? s j with
  | some (front, _) => .ok front
  | none => .error .boundary

def slice (s : List Char) (i j : Nat) : Except Panic (List Char) := do
  let front ← sliceTo s j
  sliceFrom front i

def bytesFrom (bytes : List UInt8) (i : Nat) : Except Panic (List UInt8) :=
  if i ≤ bytes.length then .ok (bytes.drop i) else .error .range

def bytesTo (bytes : List UInt8) (j : Nat) : Except Panic (List UInt8) :=
  if j ≤ bytes.length then .ok (bytes.take j) else .error .range

def bytesBetween (bytes : List UInt8) (i j : Nat) : Except Panic (List UInt8) :=
  if i ≤ j ∧ j ≤ bytes.length then .ok ((bytes.take j).drop i) else .error .range

def sub (a b : Nat) : Except Panic Nat := if b ≤ a then .ok (a - b) else .error .underflow

/-- The byte of an ASCII character. -/
def byte (c : Char) : UInt8 := UInt8.ofNat c.toNat

def memchr (b : UInt8) (bytes : List UInt8) : Option Nat := bytes.findIdx? (· == b)

def memrchr (b : UInt8) (bytes : List UInt8) : Option Nat :=
  (bytes.reverse.findIdx? (· == b)).map fun i => bytes.length - 1 - i

def memchr3 (a b c : UInt8) (bytes : List UInt8) : Option Nat := bytes.findIdx? fun x => x == a || x == b || x == c

/-- `str::find`: the position of the first character that is looked for. -/
def find (p : Char → Bool) : List Char → Option Nat
  | [] => none
  | c :: s => if p c then some 0 else (find p s).map fun i => i + c.utf8Size

/-! ### Cuts -/

theorem length_utf8_cons (c : Char) (s : List Char) : (utf8 (c :: s)).length = c.utf8Size + (utf8 s).length := by
  rw [utf8_cons, List.length_append, String.length_utf8EncodeChar]

theorem splitAt?_append (front back : List Char) :
    splitAt? (front ++ back) (utf8 front).length = some (front, back) := by
  induction front with
  | nil => rw [List.nil_append, utf8_nil, List.length_nil, splitAt?]
  | cons c front ih =>
    have hpos := c.utf8Size_pos
    obtain ⟨n, hn⟩ : ∃ n, (utf8 (c :: front)).length = n + 1 := ⟨(utf8 (c :: front)).length - 1, by
      rw [length_utf8_cons]
      omega⟩
    have hrest : n + 1 - c.utf8Size = (utf8 front).length := by
      rw [← hn, length_utf8_cons]
      omega
    have hle : c.utf8Size ≤ n + 1 := by
      rw [← hn, length_utf8_cons]
      omega
    rw [hn, List.cons_append, splitAt?, if_pos hle, hrest, ih, Option.map_some]

theorem eq_append_of_splitAt? {s front back : List Char} {n : Nat} (h : splitAt? s n = some (front, back)) :
    s = front ++ back ∧ (utf8 front).length = n := by
  induction s generalizing n front with
  | nil =>
    cases n with
    | zero =>
      obtain ⟨rfl, rfl⟩ := Prod.mk.inj (Option.some.inj h)
      exact ⟨rfl, rfl⟩
    | succ n => cases h
  | cons c s ih =>
    cases n with
    | zero =>
      obtain ⟨rfl, rfl⟩ := Prod.mk.inj (Option.some.inj h)
      exact ⟨rfl, rfl⟩
    | succ n =>
      rw [splitAt?] at h
      split at h
      · rename_i hle
        obtain ⟨parts, hparts, heq⟩ := Option.map_eq_some_iff.1 h
        obtain ⟨rfl, rfl⟩ := Prod.mk.inj heq
        obtain ⟨rfl, hlength⟩ := ih hparts
        refine ⟨rfl, ?_⟩
        rw [length_utf8_cons, hlength]
        omega
      · cases h

theorem sliceFrom_append (front back : List Char) : sliceFrom (front ++ back) (utf8 front).length = .ok back := by
  rw [sliceFrom, splitAt?_append]

theorem sliceTo_append (front back : List Char) : sliceTo (front ++ back) (utf8 front).length = .ok front := by
  rw [sliceTo, splitAt?_append]

theorem slice_append (front mid back : List Char) :
    slice (front ++ mid ++ back) (utf8 front).length (utf8 (front ++ mid)).length = .ok mid := by
  rw [slice, sliceTo_append]
  exact sliceFrom_append front mid

/-- A text can be cut where some of its characters end. -/
theorem sliceFrom_returns_iff (s : List Char) (i : Nat) :
    Returns (sliceFrom s i) ↔ ∃ front back, s = front ++ back ∧ (utf8 front).length = i := by
  constructor
  · rintro ⟨back, hback⟩
    rw [sliceFrom] at hback
    split at hback
    · rename_i front back' hsplit
      exact ⟨front, back', eq_append_of_splitAt? hsplit⟩
    · cases hback
  · rintro ⟨front, back, rfl, rfl⟩
    exact ⟨back, sliceFrom_append front back⟩

/-! ### Searches -/

theorem find_eq_none {p : Char → Bool} {s : List Char} (h : ∀ c ∈ s, p c = false) : find p s = none := by
  induction s with
  | nil => rfl
  | cons c s ih =>
    obtain ⟨hc, hs⟩ := List.forall_mem_cons.1 h
    rw [find, hc, if_neg Bool.false_ne_true, ih hs, Option.map_none]

theorem find_append_cons {p : Char → Bool} {front : List Char} (hfront : ∀ c ∈ front, p c = false) {c : Char}
    (hc : p c = true) (back : List Char) : find p (front ++ c :: back) = some (utf8 front).length := by
  induction front with
  | nil =>
    rw [List.nil_append, find, if_pos hc]
    rfl
  | cons d front ih =>
    obtain ⟨hd, hrest⟩ := List.forall_mem_cons.1 hfront
    rw [List.cons_append, find, hd, if_neg Bool.false_ne_true, ih hrest, Option.map_some, length_utf8_cons,
      Nat.add_comm]

/-! ### Bytes -/

theorem bytesFrom_of_le {bytes : List UInt8} {i : Nat} (h : i ≤ bytes.length) : bytesFrom bytes i = .ok (bytes.drop i) :=
  if_pos h

theorem bytesTo_of_le {bytes : List UInt8} {j : Nat} (h : j ≤ bytes.length) : bytesTo bytes j = .ok (bytes.take j) :=
  if_pos h

/-! ### ASCII characters -/

theorem utf8EncodeChar_ascii {c : Char} (h : c.toNat < 128) : String.utf8EncodeChar c = [byte c] := by
  have hval : c.val.toNat = c.toNat := rfl
  simp only [String.utf8EncodeChar, hval]
  rw [if_pos (by omega), byte]

theorem le_toNat_ofNat {v : Nat} (h : 128 ≤ v) (hv : v < 256) : 128 ≤ (UInt8.ofNat v).toNat := by
  rw [UInt8.toNat_ofNat_of_lt' hv]
  exact h

theorem le_of_mem_utf8EncodeChar {c : Char} (h : ¬ c.toNat < 128) {b : UInt8} (hb : b ∈ String.utf8EncodeChar c) :
    128 ≤ b.toNat := by
  have hvalid := toNat_valid c
  have hval : c.val.toNat = c.toNat := rfl
  simp only [String.utf8EncodeChar, hval] at hb
  rw [if_neg (by omega)] at hb
  split at hb
  · obtain rfl | rfl : _ ∨ _ := by simpa only [List.mem_cons, List.not_mem_nil, or_false] using hb
    · exact le_toNat_ofNat (by omega) (by omega)
    · exact le_toNat_ofNat (by omega) (by omega)
  · split at hb
    · obtain rfl | rfl | rfl : _ ∨ _ ∨ _ := by simpa only [List.mem_cons, List.not_mem_nil, or_false] using hb
      · exact le_toNat_ofNat (by omega) (by omega)
      · exact le_toNat_ofNat (by omega) (by omega)
      · exact le_toNat_ofNat (by omega) (by omega)
    · obtain rfl | rfl | rfl | rfl : _ ∨ _ ∨ _ ∨ _ := by
        simpa only [List.mem_cons, List.not_mem_nil, or_false] using hb
      · exact le_toNat_ofNat (by omega) (by omega)
      · exact le_toNat_ofNat (by omega) (by omega)
      · exact le_toNat_ofNat (by omega) (by omega)
      · exact le_toNat_ofNat (by omega) (by omega)

section Ascii

variable {c : Char} {s front back : List Char}

theorem toNat_byte (hc : c.toNat < 128) : (byte c).toNat = c.toNat :=
  UInt8.toNat_ofNat_of_lt' (show c.toNat < 256 by omega)

theorem utf8_ascii_cons (hc : c.toNat < 128) (s : List Char) : utf8 (c :: s) = byte c :: utf8 s := by
  rw [utf8_cons, utf8EncodeChar_ascii hc, List.singleton_append]

theorem length_utf8_ascii_cons (hc : c.toNat < 128) (s : List Char) : (utf8 (c :: s)).length = (utf8 s).length + 1 := by
  rw [utf8_ascii_cons hc, List.length_cons]

/-- A text can be cut after an ASCII character. -/
theorem sliceFrom_after (hc : c.toNat < 128) (front back : List Char) :
    sliceFrom (front ++ c :: back) ((utf8 front).length + 1) = .ok back := by
  have hslice := sliceFrom_append (front ++ [c]) back
  rw [List.append_assoc, List.singleton_append, utf8_append, List.length_append, length_utf8_ascii_cons hc] at hslice
  exact hslice

theorem slice_after (hc : c.toNat < 128) (front mid back : List Char) :
    slice (front ++ c :: (mid ++ back)) ((utf8 front).length + 1) (utf8 (front ++ c :: mid)).length = .ok mid := by
  have hto := sliceTo_append (front ++ c :: mid) back
  rw [List.append_assoc, List.cons_append] at hto
  rw [slice, hto]
  exact sliceFrom_after hc front mid

/-- The byte of an ASCII character is in no other character. -/
theorem mem_utf8_iff (hc : c.toNat < 128) : byte c ∈ utf8 s ↔ c ∈ s := by
  rw [utf8, List.mem_flatMap]
  constructor
  · rintro ⟨d, hd, hmem⟩
    by_cases hascii : d.toNat < 128
    · rw [utf8EncodeChar_ascii hascii, List.mem_singleton] at hmem
      have hnat := congrArg UInt8.toNat hmem
      rw [toNat_byte hc, toNat_byte hascii] at hnat
      rwa [Char.toNat_inj.1 hnat]
    · have hle := le_of_mem_utf8EncodeChar hascii hmem
      rw [toNat_byte hc] at hle
      omega
  · intro hmem
    refine ⟨c, hmem, ?_⟩
    rw [utf8EncodeChar_ascii hc]
    exact List.mem_singleton_self _

/-- Where the byte of an ASCII character stands, the character does. -/
theorem cut_at_byte (hc : c.toNat < 128) {i : Nat} (h : (utf8 s)[i]? = some (byte c)) :
    ∃ front back, s = front ++ c :: back ∧ (utf8 front).length = i := by
  induction s generalizing i with
  | nil => cases h
  | cons d s ih =>
    by_cases hlt : i < d.utf8Size
    · have hlength : (String.utf8EncodeChar d).length = d.utf8Size := String.length_utf8EncodeChar d
      rw [utf8_cons, List.getElem?_append_left (by omega)] at h
      have hmem : byte c ∈ utf8 [d] := by
        rw [utf8_cons, utf8_nil, List.append_nil]
        exact List.mem_of_getElem? h
      obtain rfl := List.mem_singleton.1 ((mem_utf8_iff hc).1 hmem)
      refine ⟨[], s, rfl, ?_⟩
      rw [utf8EncodeChar_ascii hc, List.length_singleton] at hlength
      rw [utf8_nil, List.length_nil]
      omega
    · have hlength : (String.utf8EncodeChar d).length = d.utf8Size := String.length_utf8EncodeChar d
      rw [utf8_cons, List.getElem?_append_right (by omega)] at h
      obtain ⟨front, back, rfl, hfront⟩ := ih h
      refine ⟨d :: front, back, rfl, ?_⟩
      rw [length_utf8_cons, hfront]
      omega

/-- A text that begins with the byte of an ASCII character begins with the character. -/
theorem head?_utf8_eq_iff (hc : c.toNat < 128) : (utf8 s).head? = some (byte c) ↔ s.head? = some c := by
  cases s with
  | nil => exact iff_of_false nofun nofun
  | cons d s =>
    have hhead : (utf8 (d :: s)).head? = (utf8 [d]).head? := by
      rw [utf8_cons, utf8_cons, utf8_nil, List.append_nil]
      obtain ⟨b, rest, hchar⟩ : ∃ b rest, String.utf8EncodeChar d = b :: rest := by
        apply List.exists_cons_of_length_pos
        rw [String.length_utf8EncodeChar]
        exact d.utf8Size_pos
      rw [hchar]
      rfl
    rw [hhead, List.head?_cons, Option.some.injEq]
    constructor
    · intro hbyte
      have hmem := (mem_utf8_iff hc).1 (List.mem_of_mem_head? hbyte)
      exact (List.mem_singleton.1 hmem).symm
    · rintro rfl
      rw [utf8_ascii_cons hc]
      rfl

/-- Bytes of ASCII characters at the beginning are these characters at the beginning. -/
theorem utf8_prefix_iff {pat : List Char} (hpat : ∀ c ∈ pat, c.toNat < 128) : utf8 pat <+: utf8 s ↔ pat <+: s := by
  induction pat generalizing s with
  | nil => exact iff_of_true (List.nil_prefix) (List.nil_prefix)
  | cons c pat ih =>
    have hc := hpat c List.mem_cons_self
    have hrest : ∀ d ∈ pat, d.toNat < 128 := fun d hd => hpat d (List.mem_cons_of_mem c hd)
    constructor
    · intro hprefix
      rw [utf8_ascii_cons hc] at hprefix
      have hhead : (utf8 s).head? = some (byte c) := by
        obtain ⟨t, ht⟩ := hprefix
        rw [← ht]
        rfl
      obtain ⟨s', rfl⟩ := List.head?_eq_some_iff.1 ((head?_utf8_eq_iff hc).1 hhead)
      rw [utf8_ascii_cons hc, List.cons_prefix_cons] at hprefix
      exact List.cons_prefix_cons.2 ⟨rfl, (ih hrest).1 hprefix.2⟩
    · rintro ⟨t, rfl⟩
      rw [utf8_append]
      exact List.prefix_append _ _

/-! ### Searches -/

theorem findIdx?_append_cons {p : UInt8 → Bool} {x : List UInt8} (hx : ∀ b ∈ x, p b = false) {b : UInt8}
    (hb : p b = true) (y : List UInt8) : (x ++ b :: y).findIdx? p = some x.length := by
  induction x with
  | nil => rw [List.nil_append, List.findIdx?_cons, hb, if_pos rfl, List.length_nil]
  | cons a x ih =>
    have ha : p a = false := hx a List.mem_cons_self
    rw [List.cons_append, List.findIdx?_cons, ha, if_neg Bool.false_ne_true,
      ih fun b hb => hx b (List.mem_cons_of_mem a hb)]
    rfl

theorem beq_byte_eq_false (hc : c.toNat < 128) (h : c ∉ s) : ∀ b ∈ utf8 s, (b == byte c) = false := by
  intro b hb
  apply beq_eq_false_iff_ne.2
  rintro rfl
  exact h ((mem_utf8_iff hc).1 hb)

theorem memchr_eq_none (hc : c.toNat < 128) (h : c ∉ s) : memchr (byte c) (utf8 s) = none :=
  List.findIdx?_eq_none_iff.2 (beq_byte_eq_false hc h)

theorem memchr_append_cons (hc : c.toNat < 128) (h : c ∉ front) (back : List Char) :
    memchr (byte c) (utf8 (front ++ c :: back)) = some (utf8 front).length := by
  rw [utf8_append, utf8_ascii_cons hc]
  exact findIdx?_append_cons (beq_byte_eq_false hc h) (beq_self_eq_true _) _

theorem memrchr_eq_none (hc : c.toNat < 128) (h : c ∉ s) : memrchr (byte c) (utf8 s) = none := by
  apply Option.map_eq_none_iff.2
  apply List.findIdx?_eq_none_iff.2
  intro b hb
  exact beq_byte_eq_false hc h b (List.mem_reverse.1 hb)

theorem memrchr_append_cons (hc : c.toNat < 128) (front : List Char) (h : c ∉ back) :
    memrchr (byte c) (utf8 (front ++ c :: back)) = some (utf8 front).length := by
  have hfind : (utf8 (front ++ c :: back)).reverse.findIdx? (· == byte c) = some (utf8 back).length := by
    rw [utf8_append, utf8_ascii_cons hc, List.reverse_append, List.reverse_cons, List.append_assoc,
      List.singleton_append, ← List.length_reverse]
    apply findIdx?_append_cons
    · intro b hb
      exact beq_byte_eq_false hc h b (List.mem_reverse.1 hb)
    · exact beq_self_eq_true _
  rw [memrchr, hfind, Option.map_some, utf8_append, List.length_append, length_utf8_ascii_cons hc]
  congr 1
  omega

/-- A position that is found, or the end, in a longer text. -/
theorem getD_map_add (found : Option Nat) (m n : Nat) : (found.map fun i => i + m).getD (m + n) = m + found.getD n := by
  cases found with
  | none => rfl
  | some i => exact Nat.add_comm i m

/-- The search for three characters finds where the text without them ends. -/
theorem memchr3_getD {a b : Char} (ha : a.toNat < 128) (hb : b.toNat < 128) (hc : c.toNat < 128) (s : List Char) :
    (memchr3 (byte a) (byte b) (byte c) (utf8 s)).getD (utf8 s).length =
      (utf8 (s.takeWhile fun d => !decide (d = a ∨ d = b ∨ d = c))).length := by
  induction s with
  | nil => rfl
  | cons d s ih =>
    by_cases hstop : d = a ∨ d = b ∨ d = c
    · have hascii : d.toNat < 128 := by
        obtain rfl | rfl | rfl := hstop
        · exact ha
        · exact hb
        · exact hc
      have hfound : (byte d == byte a || byte d == byte b || byte d == byte c) = true := by
        obtain rfl | rfl | rfl := hstop
        · rw [beq_self_eq_true, Bool.true_or, Bool.true_or]
        · rw [beq_self_eq_true, Bool.or_true, Bool.true_or]
        · rw [beq_self_eq_true, Bool.or_true]
      rw [List.takeWhile_cons, decide_eq_true hstop, Bool.not_true, if_neg Bool.false_ne_true, utf8_ascii_cons hascii,
        memchr3, List.findIdx?_cons, hfound, if_pos rfl]
      rfl
    · have hnone : (utf8 [d]).findIdx? (fun x => x == byte a || x == byte b || x == byte c) = none := by
        apply List.findIdx?_eq_none_iff.2
        intro x hx
        have hother : ∀ e : Char, e.toNat < 128 → d ≠ e → (x == byte e) = false := by
          intro e he hne
          exact beq_byte_eq_false he (fun hmem => hne (List.mem_singleton.1 hmem).symm) x hx
        rw [hother a ha fun heq => hstop (.inl heq), hother b hb fun heq => hstop (.inr (.inl heq)),
          hother c hc fun heq => hstop (.inr (.inr heq))]
        rfl
      have hcons : ∀ t : List Char, utf8 (d :: t) = utf8 [d] ++ utf8 t := fun t => utf8_append [d] t
      rw [List.takeWhile_cons, decide_eq_false hstop, Bool.not_false, if_pos rfl, hcons s, hcons (s.takeWhile _),
        List.length_append, List.length_append, ← ih, memchr3, memchr3, List.findIdx?_append, hnone, Option.none_or,
        getD_map_add]

end Ascii

end Slice
