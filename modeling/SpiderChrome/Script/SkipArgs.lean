import SpiderChrome.Library.Slice
import SpiderChrome.Script.Detection
import Mathlib.Data.List.TakeWhile

/-!
# Skipping arguments

`skip_args` as it runs: it cuts the text behind each parenthesis that it finds, and counts them in two integers of 32 bits. It strips the shortest prefix with as many parentheses closed as opened, as long as the counts stay apart: `skipArgs_strips_iff` says for which texts they do.
-/

namespace SpiderChrome

namespace Script

namespace Scan

open Slice Unicode

/-! ### The source -/

/-- Why the scan stops: at a cut within a character, or at a count that overflows. -/
inductive Failure where
  | slice (panic : Panic)
  | overflow
deriving DecidableEq

/-- `+= 1` of an `i32`, which wraps where overflow is not checked. -/
def increment (checks : Bool) (n : Int32) : Except Failure Int32 :=
  if checks = true ∧ n = Int32.maxValue then .error .overflow else .ok (n + 1)

/-- The parentheses are counted with one more. -/
def count (checks : Bool) (opened closed : Int32) (paren : List Char) : Except Failure (Int32 × Int32) :=
  if paren = [')'] then do
    let closed ← increment checks closed
    .ok (opened, closed)
  else do
    let opened ← increment checks opened
    .ok (opened, closed)

theorem length_lt_of_sliceFrom {input rest : List Char} {idx : Nat} (h : sliceFrom input (idx + 1) = .ok rest) :
    rest.length < input.length := by
  rw [sliceFrom] at h
  split at h
  · rename_i front back hsplit
    obtain ⟨rfl, hfront⟩ := eq_append_of_splitAt? hsplit
    cases h
    have hne : front ≠ [] := by
      rintro rfl
      cases hfront
    have hpos := List.length_pos_iff.2 hne
    rw [List.length_append]
    omega
  · cases h

def skipLoop (checks : Bool) (opened closed : Int32) (input : List Char) :
    Except Failure (Int32 × Int32 × List Char) :=
  if input.isEmpty = false ∧ opened ≠ closed then
    match find isParenthesis input with
    | some idx =>
      match slice input idx (idx + 1) with
      | .error panic => .error (.slice panic)
      | .ok paren =>
        match count checks opened closed paren with
        | .error failure => .error failure
        | .ok (opened, closed) =>
          match _ : sliceFrom input (idx + 1) with
          | .error panic => .error (.slice panic)
          | .ok rest => skipLoop checks opened closed rest
    | none => .ok (opened, closed, input)
  else .ok (opened, closed, input)
termination_by input.length
decreasing_by exact length_lt_of_sliceFrom ‹_›

/-- The answer, and what is left of the input. -/
def skipArgs (checks : Bool) (input : List Char) : Except Failure (Bool × List Char) :=
  if input.head? = some '(' then
    match sliceFrom input 1 with
    | .error panic => .error (.slice panic)
    | .ok input => do
      let (opened, closed, input) ← skipLoop checks 1 0 input
      .ok (opened == closed, input)
  else .ok (false, input)

/-! ### The counts -/

theorem increment_wrapping (n : Nat) : increment false (Int32.ofNat n) = .ok (Int32.ofNat (n + 1)) := by
  rw [increment, if_neg (fun h => Bool.false_ne_true h.1), Int32.ofNat_add]
  rfl

theorem ofNat_eq_iff (m n : Nat) : Int32.ofNat m = Int32.ofNat n ↔ m % 2 ^ 32 = n % 2 ^ 32 := by
  rw [← Int32.toBitVec_inj, Int32.toBitVec_ofNat', Int32.toBitVec_ofNat', ← BitVec.toNat_inj, BitVec.toNat_ofNat,
    BitVec.toNat_ofNat]

theorem increment_checked {n : Nat} (h : n < 2 ^ 31) :
    increment true (Int32.ofNat n) =
      if n + 1 = 2 ^ 31 then .error .overflow else .ok (Int32.ofNat (n + 1)) := by
  have hmax : Int32.ofNat n = Int32.maxValue ↔ n + 1 = 2 ^ 31 := by
    rw [show Int32.maxValue = Int32.ofNat (2 ^ 31 - 1) from rfl, ofNat_eq_iff]
    omega
  rw [increment]
  by_cases hlast : n + 1 = 2 ^ 31
  · rw [if_pos ⟨rfl, hmax.2 hlast⟩, if_pos hlast]
  · rw [if_neg (fun h => hlast (hmax.1 h.2)), if_neg hlast, Int32.ofNat_add]
    rfl

theorem increment_fits {checks : Bool} {n : Nat} (h : checks = true → n + 1 < 2 ^ 31) :
    increment checks (Int32.ofNat n) = .ok (Int32.ofNat (n + 1)) := by
  cases checks with
  | true =>
    have hfew := h rfl
    rw [increment_checked (by omega), if_neg (by omega)]
  | false => exact increment_wrapping n

/-! ### Prefixes -/

/-- A prefix that is not empty and has as many parentheses closed as opened. -/
structure EvenPrefix (s p : List Char) : Prop where
  isPrefix : p <+: s
  ne_nil : p ≠ []
  even : p.count '(' = p.count ')'

structure Shortest (s p : List Char) : Prop where
  evenPrefix : EvenPrefix s p
  minimal : ∀ q, EvenPrefix s q → p.length ≤ q.length

/-- The first parenthesis has not been closed. -/
structure Pending (p : List Char) : Prop where
  opens : p.head? = some '('
  uneven : ∀ q, ¬ EvenPrefix p q

/-- The counts of the parentheses do not overflow, or are not taken for equal. -/
def Fits (checks : Bool) (p : List Char) : Prop :=
  match checks with
  | true => p.count '(' < 2 ^ 31
  | false => p.count '(' < p.count ')' + 2 ^ 32

/-- The counts are right as long as the first parenthesis is not closed. -/
def Countable (checks : Bool) (s : List Char) : Prop := ∀ p, p <+: s → Pending p → Fits checks p

variable {checks : Bool} {s p q front back rest : List Char} {c : Char}

theorem Pending.ne_nil (h : Pending p) : p ≠ [] := by
  rintro rfl
  cases h.opens

theorem Pending.of_prefix (h : Pending p) (hq : q <+: p) (hne : q ≠ []) : Pending q := by
  constructor
  · obtain ⟨tail, rfl⟩ := hq
    have hopens := h.opens
    rw [List.head?_append_of_ne_nil q hne] at hopens
    exact hopens
  · intro r hr
    exact h.uneven r ⟨hr.isPrefix.trans hq, hr.ne_nil, hr.even⟩

theorem Pending.concat (h : Pending p) (huneven : (p ++ [c]).count '(' ≠ (p ++ [c]).count ')') :
    Pending (p ++ [c]) := by
  constructor
  · rw [List.head?_append_of_ne_nil p h.ne_nil]
    exact h.opens
  · intro q hq
    obtain rfl | hshorter := List.prefix_concat_iff.1 hq.isPrefix
    · exact huneven hq.even
    · exact h.uneven q ⟨hshorter, hq.ne_nil, hq.even⟩

theorem pending_open : Pending ['('] := by
  constructor
  · rfl
  · intro q hq
    obtain rfl | hshorter := List.prefix_concat_iff.1 (show q <+: [] ++ ['('] from hq.isPrefix)
    · cases hq.even
    · exact hq.ne_nil (List.prefix_nil.1 hshorter)

theorem count_concat (p : List Char) (c d : Char) : (p ++ [c]).count d = p.count d + if c = d then 1 else 0 := by
  rw [List.count_append, List.count_singleton]
  simp only [beq_iff_eq]

theorem counts_concat_open (p : List Char) :
    (p ++ ['(']).count '(' = p.count '(' + 1 ∧ (p ++ ['(']).count ')' = p.count ')' := by
  rw [count_concat, count_concat, if_pos rfl, if_neg (by decide)]
  exact ⟨rfl, rfl⟩

theorem counts_concat_close (p : List Char) :
    (p ++ [')']).count '(' = p.count '(' ∧ (p ++ [')']).count ')' = p.count ')' + 1 := by
  rw [count_concat, count_concat, if_neg (by decide), if_pos rfl]
  exact ⟨rfl, rfl⟩

/-- More parentheses are opened than closed. -/
theorem Pending.lt (h : Pending p) : p.count ')' < p.count '(' := by
  induction p using List.reverseRecOn with
  | nil => exact absurd rfl h.ne_nil
  | append_singleton p c ih =>
    have hne : (p ++ [c]).count '(' ≠ (p ++ [c]).count ')' := fun heven =>
      h.uneven (p ++ [c]) ⟨List.prefix_rfl, h.ne_nil, heven⟩
    by_cases hnil : p = []
    · subst hnil
      cases h.opens
      decide
    · have hlt := ih (h.of_prefix (List.prefix_append p [c]) hnil)
      rw [count_concat, count_concat] at hne ⊢
      by_cases hclose : c = ')'
      · subst hclose
        rw [if_pos rfl, if_neg (by decide)] at hne ⊢
        omega
      · rw [if_neg hclose] at hne ⊢
        omega

theorem count_front (hfront : ∀ d ∈ front, isParenthesis d = false) (hc : isParenthesis c = true) (p : List Char) :
    (p ++ front).count c = p.count c := by
  rw [List.count_append, count_of_not_parenthesis hc hfront, Nat.add_zero]

/-- What comes before the next parenthesis does not close the first one. -/
theorem Pending.append (h : Pending p) (hfront : ∀ d ∈ front, isParenthesis d = false) : Pending (p ++ front) := by
  constructor
  · rw [List.head?_append_of_ne_nil p h.ne_nil]
    exact h.opens
  · intro q hq
    obtain hshorter | ⟨more, rfl⟩ := List.prefix_or_prefix_of_prefix hq.isPrefix (List.prefix_append p front)
    · exact h.uneven q ⟨hshorter, hq.ne_nil, hq.even⟩
    · have hsubset := ((List.prefix_append_right_inj p).1 hq.isPrefix).subset
      have hmore : ∀ d ∈ more, isParenthesis d = false := fun d hd => hfront d (hsubset hd)
      have heven := hq.even
      rw [count_front hmore rfl, count_front hmore rfl] at heven
      exact h.uneven p ⟨List.prefix_rfl, h.ne_nil, heven⟩

theorem Countable.concat (h : Countable checks p) (hfits : Pending (p ++ [c]) → Fits checks (p ++ [c])) :
    Countable checks (p ++ [c]) := by
  intro q hq hpending
  obtain rfl | hshorter := List.prefix_concat_iff.1 hq
  · exact hfits hpending
  · exact h q hshorter hpending

theorem Fits.append (h : Fits checks p) (hfront : ∀ d ∈ front, isParenthesis d = false) : Fits checks (p ++ front) := by
  have hopened := count_front hfront (show isParenthesis '(' = true from rfl) p
  have hclosed := count_front hfront (show isParenthesis ')' = true from rfl) p
  cases checks with
  | true =>
    show (p ++ front).count '(' < 2 ^ 31
    rw [hopened]
    exact h
  | false =>
    show (p ++ front).count '(' < (p ++ front).count ')' + 2 ^ 32
    rw [hopened, hclosed]
    exact h

theorem Countable.append (h : Countable checks p) (hpending : Pending p) (hfront : ∀ d ∈ front, isParenthesis d = false) :
    Countable checks (p ++ front) := by
  intro q hq hopen
  obtain hshorter | ⟨more, rfl⟩ := List.prefix_or_prefix_of_prefix hq (List.prefix_append p front)
  · exact h q hshorter hopen
  · have hsubset := ((List.prefix_append_right_inj p).1 hq).subset
    have hmore : ∀ d ∈ more, isParenthesis d = false := fun d hd => hfront d (hsubset hd)
    exact (h p List.prefix_rfl hpending).append hmore

theorem evenPrefix_concat (heven : (p ++ [c]).count '(' = (p ++ [c]).count ')') (back : List Char) :
    EvenPrefix (p ++ [c] ++ back) (p ++ [c]) :=
  ⟨List.prefix_append _ back, List.concat_ne_nil c p, heven⟩

/-- The parenthesis that closes the first one ends the shortest prefix. -/
theorem Pending.shortest (h : Pending p) (heven : (p ++ [c]).count '(' = (p ++ [c]).count ')') (back : List Char) :
    Shortest (p ++ [c] ++ back) (p ++ [c]) := by
  refine ⟨evenPrefix_concat heven back, fun q hq => Nat.le_of_not_lt fun hlt => ?_⟩
  have hq' := List.prefix_of_prefix_length_le hq.isPrefix (List.prefix_append (p ++ [c]) back) (Nat.le_of_lt hlt)
  obtain rfl | hshorter := List.prefix_concat_iff.1 hq'
  · exact Nat.lt_irrefl _ hlt
  · exact h.uneven q ⟨hshorter, hq.ne_nil, hq.even⟩

/-- Once the first parenthesis is closed, nothing more has to be counted. -/
theorem Countable.close (h : Countable checks p) (heven : (p ++ [c]).count '(' = (p ++ [c]).count ')')
    (back : List Char) : Countable checks (p ++ [c] ++ back) := by
  intro q hq hpending
  obtain hlonger | hshorter := List.prefix_or_prefix_of_prefix (List.prefix_append (p ++ [c]) back) hq
  · exact absurd ⟨hlonger, List.concat_ne_nil c p, heven⟩ (hpending.uneven (p ++ [c]))
  · obtain rfl | hshorter := List.prefix_concat_iff.1 hshorter
    · exact absurd ⟨List.prefix_rfl, hpending.ne_nil, heven⟩ (hpending.uneven (p ++ [c]))
    · exact h q hshorter hpending

/-! ### The loop -/

theorem skipLoop_even (checks : Bool) (n : Int32) (input : List Char) :
    skipLoop checks n n input = .ok (n, n, input) := by
  rw [skipLoop, if_neg (fun h => h.2 rfl)]

theorem skipLoop_none (opened closed : Int32) (hnone : ∀ d ∈ rest, isParenthesis d = false) :
    skipLoop checks opened closed rest = .ok (opened, closed, rest) := by
  rw [skipLoop, find_eq_none hnone]
  exact ite_self _

/-- The loop counts the next parenthesis, and goes on behind it. -/
theorem skipLoop_next {opened closed : Int32} (hne : opened ≠ closed)
    (hfront : ∀ d ∈ front, isParenthesis d = false) (hc : isParenthesis c = true) (back : List Char) :
    skipLoop checks opened closed (front ++ c :: back) =
      count checks opened closed [c] >>= fun counts => skipLoop checks counts.1 counts.2 back := by
  have hascii : c.toNat < 128 := by
    rw [isParenthesis, Bool.or_eq_true, decide_eq_true_iff, decide_eq_true_iff] at hc
    obtain rfl | rfl := hc
    · decide
    · decide
  have hempty : (front ++ c :: back).isEmpty = false := by
    rw [List.isEmpty_eq_false_iff]
    exact List.append_ne_nil_of_right_ne_nil front (List.cons_ne_nil c back)
  have hparen : slice (front ++ c :: back) (utf8 front).length ((utf8 front).length + 1) = .ok [c] := by
    have hslice := slice_append front [c] back
    rw [List.append_assoc, List.singleton_append, utf8_append, List.length_append, length_utf8_ascii_cons hascii]
      at hslice
    exact hslice
  rw [skipLoop, if_pos ⟨hempty, hne⟩, find_append_cons hfront hc]
  dsimp only
  rw [hparen]
  dsimp only
  cases count checks opened closed [c] with
  | error failure => rfl
  | ok counts =>
    have hrest := sliceFrom_after hascii front back
    dsimp only
    split
    · rename_i panic hpanic
      rw [hrest] at hpanic
      cases hpanic
    · rename_i input hinput
      rw [hrest] at hinput
      cases hinput
      rfl

/-- What the scan of a text comes to. -/
inductive Outcome (checks : Bool) (s : List Char) : Except Failure (Bool × List Char) → Prop where
  | other (h : s.head? ≠ some '(') : Outcome checks s (.ok (false, s))
  | even (p rest : List Char) (hopens : s.head? = some '(') (hs : s = p ++ rest) (hp : Shortest s p)
      (hcountable : Countable checks s) : Outcome checks s (.ok (true, rest))
  | uneven (rest : List Char) (h : Pending s) (hcountable : Countable checks s) : Outcome checks s (.ok (false, rest))
  | overflow (p : List Char) (hchecks : checks = true) (hp : p <+: s) (h : Pending p) (hmany : ¬ Fits checks p) :
      Outcome checks s (.error .overflow)
  | wraps (p rest : List Char) (hchecks : checks = false) (hs : s = p ++ rest) (h : Pending p)
      (hmany : ¬ Fits checks p) : Outcome checks s (.ok (true, rest))

/-- The end of the scan. -/
def answer (found : Int32 × Int32 × List Char) : Except Failure (Bool × List Char) :=
  .ok (found.1 == found.2.1, found.2.2)

/-- From a place behind a parenthesis on, with the counts of the text before it. -/
def scanFrom (checks : Bool) (p input : List Char) : Except Failure (Bool × List Char) :=
  skipLoop checks (Int32.ofNat (p.count '(')) (Int32.ofNat (p.count ')')) input >>= answer

/-- Counts that fit are not taken for equal. -/
theorem Fits.counts_ne (h : Fits checks p) (hpending : Pending p) :
    Int32.ofNat (p.count '(') ≠ Int32.ofNat (p.count ')') := by
  have hlt := hpending.lt
  rw [Ne, ofNat_eq_iff]
  cases checks with
  | true =>
    have hfew : p.count '(' < 2 ^ 31 := h
    omega
  | false =>
    have hfew : p.count '(' < p.count ')' + 2 ^ 32 := h
    omega

/-- The two counts of a prefix. -/
def counts (p : List Char) : Int32 × Int32 := (Int32.ofNat (p.count '('), Int32.ofNat (p.count ')'))

theorem count_close (h : Fits checks p) (hpending : Pending p) :
    count checks (Int32.ofNat (p.count '(')) (Int32.ofNat (p.count ')')) [')'] = .ok (counts (p ++ [')'])) := by
  have hlt := hpending.lt
  have hincrement : increment checks (Int32.ofNat (p.count ')')) = .ok (Int32.ofNat (p.count ')' + 1)) := by
    apply increment_fits
    rintro rfl
    have hfew : p.count '(' < 2 ^ 31 := h
    omega
  obtain ⟨hopened, hclosed⟩ := counts_concat_close p
  rw [counts, hopened, hclosed, count, if_pos rfl, hincrement]
  rfl

theorem count_open_eq (checks : Bool) (p : List Char) :
    count checks (Int32.ofNat (p.count '(')) (Int32.ofNat (p.count ')')) ['('] =
      increment checks (Int32.ofNat (p.count '(')) >>= fun opened => .ok (opened, Int32.ofNat (p.count ')')) := by
  rw [count, if_neg (by decide)]

theorem counts_open (p : List Char) :
    counts (p ++ ['(']) = (Int32.ofNat (p.count '(' + 1), Int32.ofNat (p.count ')')) := by
  obtain ⟨hopened, hclosed⟩ := counts_concat_open p
  rw [counts, hopened, hclosed]

theorem count_open (h : Fits checks (p ++ ['('])) :
    count checks (Int32.ofNat (p.count '(')) (Int32.ofNat (p.count ')')) ['('] = .ok (counts (p ++ ['('])) := by
  have hincrement : increment checks (Int32.ofNat (p.count '(')) = .ok (Int32.ofNat (p.count '(' + 1)) := by
    apply increment_fits
    rintro rfl
    have hfew : (p ++ ['(']).count '(' < 2 ^ 31 := h
    rwa [(counts_concat_open p).1] at hfew
  rw [counts_open, count_open_eq, hincrement]
  rfl

theorem scanFrom_even (h : Int32.ofNat (p.count '(') = Int32.ofNat (p.count ')')) (input : List Char) :
    scanFrom checks p input = .ok (true, input) := by
  rw [scanFrom, h, skipLoop_even]
  exact congrArg (fun even => Except.ok (even, input)) (beq_self_eq_true _)

theorem Fits.close (h : Fits checks p) : Fits checks (p ++ [')']) := by
  obtain ⟨hopened, hclosed⟩ := counts_concat_close p
  cases checks with
  | true =>
    have hfew : p.count '(' < 2 ^ 31 := h
    show (p ++ [')']).count '(' < 2 ^ 31
    omega
  | false =>
    have hfew : p.count '(' < p.count ')' + 2 ^ 32 := h
    show (p ++ [')']).count '(' < (p ++ [')']).count ')' + 2 ^ 32
    omega

/-- The count of one more parenthesis that is opened overflows, or is taken for the other one. -/
theorem scan_overflows (hfits : Fits checks p) (hpending : Pending p) (hmany : ¬ Fits checks (p ++ ['(']))
    (back : List Char) :
    Outcome checks (p ++ ['('] ++ back)
      ((count checks (Int32.ofNat (p.count '(')) (Int32.ofNat (p.count ')')) ['('] >>= fun counts =>
        skipLoop checks counts.1 counts.2 back) >>= answer) := by
  obtain ⟨hopened, hclosed⟩ := counts_concat_open p
  have hlt := hpending.lt
  have hmore : Pending (p ++ ['(']) := hpending.concat (by omega)
  rw [count_open_eq]
  cases checks with
  | true =>
    have hfew : p.count '(' < 2 ^ 31 := hfits
    have hlast : ¬ (p ++ ['(']).count '(' < 2 ^ 31 := hmany
    rw [increment_checked hfew, if_pos (by omega)]
    exact .overflow (p ++ ['(']) rfl (List.prefix_append _ back) hmore hmany
  | false =>
    have hfew : p.count '(' < p.count ')' + 2 ^ 32 := hfits
    have hlast : ¬ (p ++ ['(']).count '(' < (p ++ ['(']).count ')' + 2 ^ 32 := hmany
    have hsame : Int32.ofNat ((p ++ ['(']).count '(') = Int32.ofNat ((p ++ ['(']).count ')') := by
      rw [ofNat_eq_iff]
      omega
    have hscan := @scanFrom_even false (p ++ ['(']) hsame back
    rw [increment_wrapping, ← hopened, ← hclosed]
    change Outcome false _ (scanFrom false (p ++ ['(']) back)
    rw [hscan]
    exact .wraps (p ++ ['(']) back rfl rfl hmore hmany

theorem scanFrom_outcome (hpending : Pending p) (hcountable : Countable checks p) (input : List Char) :
    Outcome checks (p ++ input) (scanFrom checks p input) := by
  induction hlength : input.length using Nat.strongRecOn generalizing p input with
  | ind length ih =>
    have hne := (hcountable p List.prefix_rfl hpending).counts_ne hpending
    obtain hnone | ⟨front, c, back, rfl, hfront, hc⟩ := parenthesis_cases input
    · have hscan : scanFrom checks p input = .ok (false, input) := by
        rw [scanFrom, skipLoop_none _ _ hnone]
        exact congrArg (fun even => Except.ok (even, input)) (beq_false_of_ne hne)
      rw [hscan]
      exact .uneven input (hpending.append hnone) (hcountable.append hpending hnone)
    have hopen := hpending.append hfront
    have hcounts := hcountable.append hpending hfront
    have hopened := count_front hfront (show isParenthesis '(' = true from rfl) p
    have hclosed := count_front hfront (show isParenthesis ')' = true from rfl) p
    have hshorter : back.length < length := by
      rw [← hlength, List.length_append, List.length_cons]
      omega
    have htext : p ++ (front ++ c :: back) = p ++ front ++ [c] ++ back := by
      simp only [List.append_assoc, List.singleton_append]
    rw [scanFrom, skipLoop_next hne hfront hc, ← hopened, ← hclosed, htext]
    generalize p ++ front = p at hopen hcounts
    have hfits := hcounts p List.prefix_rfl hopen
    have hlt := hopen.lt
    have hhead : (p ++ [c] ++ back).head? = some '(' := by
      rw [List.append_assoc, List.head?_append_of_ne_nil p hopen.ne_nil]
      exact hopen.opens
    by_cases hparen : c = ')'
    · subst hparen
      rw [count_close hfits hopen]
      change Outcome checks _ (scanFrom checks (p ++ [')']) back)
      by_cases heven : (p ++ [')']).count '(' = (p ++ [')']).count ')'
      · rw [scanFrom_even (congrArg Int32.ofNat heven)]
        exact .even _ back hhead rfl (hopen.shortest heven back) (hcounts.close heven back)
      · exact ih back.length hshorter (hopen.concat heven) (hcounts.concat fun _ => hfits.close) back rfl
    · have hparen : c = '(' := by
        rw [isParenthesis, Bool.or_eq_true, decide_eq_true_iff, decide_eq_true_iff] at hc
        exact hc.resolve_right hparen
      subst hparen
      by_cases hmore : Fits checks (p ++ ['('])
      · have huneven : (p ++ ['(']).count '(' ≠ (p ++ ['(']).count ')' := by
          rw [(counts_concat_open p).1, (counts_concat_open p).2]
          omega
        rw [count_open hmore]
        exact ih back.length hshorter (hopen.concat huneven) (hcounts.concat fun _ => hmore) back rfl
      · exact scan_overflows hfits hopen hmore back

theorem countable_open (checks : Bool) : Countable checks ['('] := by
  have hnil : Countable checks [] := fun p hp hpending => absurd (List.prefix_nil.1 hp) hpending.ne_nil
  refine hnil.concat fun _ => ?_
  cases checks with
  | true =>
    show 1 < 2 ^ 31
    decide
  | false =>
    show 1 < 0 + 2 ^ 32
    decide

theorem skipArgs_outcome (checks : Bool) (s : List Char) : Outcome checks s (skipArgs checks s) := by
  rw [skipArgs]
  by_cases hopens : s.head? = some '('
  · obtain ⟨input, rfl⟩ := List.head?_eq_some_iff.1 hopens
    have hcut : sliceFrom ('(' :: input) 1 = .ok input := sliceFrom_after (by decide) [] input
    rw [if_pos hopens, hcut]
    exact scanFrom_outcome pending_open (countable_open checks) input
  · rw [if_neg hopens]
    exact .other hopens

/-- The scan comes to an end, and strips the shortest prefix that closes the first parenthesis, if there is one. -/
def Strips (s : List Char) (scan : Except Failure (Bool × List Char)) : Prop :=
  ∃ answer rest, scan = .ok (answer, rest) ∧ (answer = true ↔ s.head? = some '(' ∧ ∃ p, EvenPrefix s p) ∧
    (answer = true → ∃ p, Shortest s p ∧ s = p ++ rest)

/-- What the scan says of a prefix that closes nothing is wrong. -/
theorem not_strips_wraps (hpending : Pending p) (rest : List Char) : ¬ Strips (p ++ rest) (.ok (true, rest)) := by
  rintro ⟨answer, rest', heq, -, hshortest⟩
  cases heq
  obtain ⟨q, hq, hsame⟩ := hshortest rfl
  rw [List.append_cancel_right hsame] at hpending
  exact hpending.uneven q ⟨List.prefix_rfl, hq.evenPrefix.ne_nil, hq.evenPrefix.even⟩

theorem strips_iff {scan : Except Failure (Bool × List Char)} (h : Outcome checks s scan) :
    Strips s scan ↔ Countable checks s := by
  cases h with
  | other hother =>
    refine iff_of_true ⟨false, s, rfl, iff_of_false Bool.false_ne_true fun h => hother h.1, nofun⟩ ?_
    rintro p ⟨rest, rfl⟩ hpending
    rw [List.head?_append_of_ne_nil p hpending.ne_nil] at hother
    exact absurd hpending.opens hother
  | even p rest hopens hs hp hcountable =>
    exact iff_of_true ⟨true, rest, rfl, iff_of_true rfl ⟨hopens, p, hp.evenPrefix⟩, fun _ => ⟨p, hp, hs⟩⟩ hcountable
  | uneven rest hpending hcountable =>
    refine iff_of_true ⟨false, rest, rfl, iff_of_false Bool.false_ne_true ?_, nofun⟩ hcountable
    rintro ⟨-, p, hp⟩
    exact hpending.uneven p hp
  | overflow p hchecks hp hpending hmany =>
    refine iff_of_false ?_ fun hcountable => hmany (hcountable p hp hpending)
    rintro ⟨answer, rest, heq, -⟩
    cases heq
  | wraps p rest hchecks hs hpending hmany =>
    subst hs
    exact iff_of_false (not_strips_wraps hpending rest)
      fun hcountable => hmany (hcountable p (List.prefix_append p rest) hpending)

theorem skipArgs_strips_iff (checks : Bool) (s : List Char) : Strips s (skipArgs checks s) ↔ Countable checks s :=
  strips_iff (skipArgs_outcome checks s)

/-- Parentheses that are only opened. -/
theorem pending_replicate (n : Nat) : Pending (List.replicate (n + 1) '(') := by
  constructor
  · rfl
  · intro q hq
    obtain ⟨m, hm⟩ : ∃ m, q = List.replicate m '(' :=
      ⟨q.length, List.eq_replicate_of_mem fun c hc => List.eq_of_mem_replicate (hq.isPrefix.subset hc)⟩
    have heven := hq.even
    rw [hm, List.count_replicate_self, List.count_replicate, if_neg (by decide)] at heven
    rw [heven] at hm
    exact hq.ne_nil hm

/-- A text that closes nothing and has too many parentheses for the counts. -/
theorem skipArgs_of_many (h : Pending s) (hmany : ¬ Fits checks s) :
    ¬ Strips s (skipArgs checks s) ∧
      match checks with
      | true => skipArgs true s = .error .overflow
      | false => ∃ rest, skipArgs false s = .ok (true, rest) := by
  have houtcome := skipArgs_outcome checks s
  have hnot : ¬ Countable checks s := fun hcountable => hmany (hcountable s List.prefix_rfl h)
  refine ⟨mt (strips_iff houtcome).1 hnot, ?_⟩
  generalize hscan : skipArgs checks s = scan at houtcome
  cases houtcome with
  | other hother => exact absurd h.opens hother
  | even p rest hopens hs hp hcountable => exact absurd hcountable hnot
  | uneven rest hpending hcountable => exact absurd hcountable hnot
  | overflow p hchecks hp hpending hmany =>
    subst hchecks
    exact hscan
  | wraps p rest hchecks hs hpending hmany =>
    subst hchecks
    exact ⟨rest, hscan⟩

/-- In four gibibytes of parentheses that are only opened, one is found to be closed, and two gibibytes of them stop a program that checks for overflow. -/
theorem parentheses_miscounted :
    (∃ rest, skipArgs false (List.replicate (2 ^ 32) '(') = .ok (true, rest)) ∧
      ¬ Strips (List.replicate (2 ^ 32) '(') (skipArgs false (List.replicate (2 ^ 32) '(')) ∧
      skipArgs true (List.replicate (2 ^ 31) '(') = .error .overflow ∧
      ¬ Strips (List.replicate (2 ^ 31) '(') (skipArgs true (List.replicate (2 ^ 31) '(')) := by
  have hwraps : ¬ Fits false (List.replicate (2 ^ 32) '(') := by
    show ¬ (List.replicate (2 ^ 32) '(').count '(' < (List.replicate (2 ^ 32) '(').count ')' + 2 ^ 32
    rw [List.count_replicate_self, List.count_replicate, if_neg (by decide)]
    omega
  have hoverflows : ¬ Fits true (List.replicate (2 ^ 31) '(') := by
    show ¬ (List.replicate (2 ^ 31) '(').count '(' < 2 ^ 31
    rw [List.count_replicate_self]
    exact Nat.lt_irrefl _
  obtain ⟨hfalse, hanswer⟩ := skipArgs_of_many (pending_replicate (2 ^ 32 - 1)) hwraps
  obtain ⟨htrue, hstops⟩ := skipArgs_of_many (pending_replicate (2 ^ 31 - 1)) hoverflows
  exact ⟨hanswer, hfalse, hstops, htrue⟩

/-! ### Short texts -/

theorem skipParens_none (opened closed : Nat) (hnone : ∀ d ∈ rest, isParenthesis d = false) :
    skipParens opened closed rest = (opened, closed, rest) := by
  have hall : rest.dropWhile (!isParenthesis ·) = [] := by
    apply List.dropWhile_eq_nil_iff.2
    intro d hd
    rw [hnone d hd]
    rfl
  rw [skipParens]
  split
  · rfl
  · split
    · rfl
    · rename_i c tail htail
      rw [hall] at htail
      cases htail

theorem skipLoop_eq (checks : Bool) (opened closed : Nat) (input : List Char) (hopened : opened + input.length < 2 ^ 31)
    (hclosed : closed + input.length < 2 ^ 31) :
    ∃ opened' closed' rest, skipParens opened closed input = (opened', closed', rest) ∧
      skipLoop checks (Int32.ofNat opened) (Int32.ofNat closed) input =
        .ok (Int32.ofNat opened', Int32.ofNat closed', rest) ∧ opened' < 2 ^ 31 ∧ closed' < 2 ^ 31 := by
  induction hlength : input.length using Nat.strongRecOn generalizing opened closed input with
  | ind length ih =>
    by_cases heven : opened = closed
    · subst heven
      refine ⟨opened, opened, input, ?_, skipLoop_even checks _ input, by omega, by omega⟩
      rw [skipParens, if_pos (.inr rfl)]
    obtain hnone | ⟨front, c, back, rfl, hfront, hc⟩ := parenthesis_cases input
    · exact ⟨opened, closed, input, skipParens_none opened closed hnone, skipLoop_none _ _ hnone, by omega, by omega⟩
    have hne : Int32.ofNat opened ≠ Int32.ofNat closed := by
      rw [Ne, ofNat_eq_iff]
      omega
    rw [List.length_append, List.length_cons] at hopened hclosed hlength
    rw [skipParens_front heven hfront hc, skipLoop_next hne hfront hc]
    by_cases hparen : c = ')'
    · rw [if_pos hparen, count, if_pos (congrArg (fun d => [d]) hparen), increment_fits fun _ => by omega]
      exact ih back.length (by omega) opened (closed + 1) back (by omega) (by omega) rfl
    · have hother : [c] ≠ [')'] := fun h => hparen (List.cons.inj h).1
      rw [if_neg hparen, count, if_neg hother, increment_fits fun _ => by omega]
      exact ih back.length (by omega) (opened + 1) closed back (by omega) (by omega) rfl

/-- A text of less than two gibibytes is stripped as the functions are detected by. -/
theorem skipArgs_eq_iff (checks : Bool) (h : s.length < 2 ^ 31) (rest : List Char) :
    skipArgs checks s = .ok (true, rest) ↔ Script.skipArgs s = some rest := by
  rw [skipArgs]
  by_cases hopens : s.head? = some '('
  · obtain ⟨input, rfl⟩ := List.head?_eq_some_iff.1 hopens
    have hcut : sliceFrom ('(' :: input) 1 = .ok input := sliceFrom_after (by decide) [] input
    rw [List.length_cons] at h
    obtain ⟨opened, closed, left, hparens, hloop, hopened, hclosed⟩ :=
      skipLoop_eq checks 1 0 input (by omega) (by omega)
    have hloop' : skipLoop checks 1 0 input = .ok (Int32.ofNat opened, Int32.ofNat closed, left) := hloop
    have hsame : (Int32.ofNat opened == Int32.ofNat closed) = decide (opened = closed) := by
      rw [Bool.eq_iff_iff, beq_iff_eq, decide_eq_true_iff, ofNat_eq_iff]
      omega
    rw [if_pos hopens, hcut, Script.skipArgs, hparens]
    dsimp only
    rw [hloop']
    change (Except.ok (Int32.ofNat opened == Int32.ofNat closed, left) : Except Failure (Bool × List Char)) = _ ↔ _
    rw [hsame]
    by_cases heven : opened = closed
    · rw [decide_eq_true heven, if_pos heven]
      simp
    · rw [decide_eq_false heven, if_neg heven]
      simp
  · rw [if_neg hopens, Script.skipArgs]
    · simp
    · rintro input rfl
      exact hopens rfl

end Scan

end Script

end SpiderChrome
