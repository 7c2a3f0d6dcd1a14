import Mathlib.Data.List.Basic
import Mathlib.Algebra.GroupWithZero.Nat

/-!
# Counting zero bytes in a word

The bytes of a word are its lanes, the lowest first. A subtraction that runs through all lanes at once borrows from the next lane where one is too small, so what it leaves in a lane depends on the lanes below. The test for a zero lane, `(w - 0x01…01) & !w & 0x80…80`, is misled by this in one case only: a lane that is 1 and has to lend. Where no lane is 1, it marks the zero lanes and no other.
-/

namespace Swar

/-- A word of as many lanes as there are bytes. -/
def word : (lanes : List (BitVec 8)) → BitVec (8 * lanes.length)
  | [] => 0#0
  | lane :: rest => word rest ++ lane

/-- A word with the same byte in every lane. -/
def fill (lane : BitVec 8) : (n : Nat) → BitVec (8 * n)
  | 0 => 0#0
  | n + 1 => fill lane n ++ lane

/-- What a lane owes to the lane below, as a word. -/
def borrow (owes : Bool) (n : Nat) : BitVec n := (BitVec.ofBool owes).setWidth n

/-- The marks of the zero lanes of a word, where the lowest lane has lent before. -/
def zeroMarks (owes : Bool) (n : Nat) (v : BitVec (8 * n)) : BitVec (8 * n) :=
  (v - fill 1 n - borrow owes _) &&& ~~~v &&& fill 0x80 n

/-- A word of which some bits of every lane are kept and some are flipped. -/
def masked (kept flipped : BitVec 8) (lanes : List (BitVec 8)) : BitVec (8 * lanes.length) :=
  (word lanes &&& fill kept _) ^^^ fill flipped _

theorem toNat_append_lane {n : Nat} (x : BitVec n) (lane : BitVec 8) :
    (x ++ lane).toNat = 256 * x.toNat + lane.toNat := by
  rw [BitVec.toNat_append, Nat.shiftLeft_eq, Nat.mul_comm, ← Nat.two_pow_add_eq_or_of_lt lane.isLt]

theorem toNat_borrow (owes : Bool) (n : Nat) : (borrow owes n).toNat = owes.toNat % 2 ^ n := by
  simp only [borrow, BitVec.toNat_setWidth, BitVec.toNat_ofBool]

/-- A subtraction goes lane by lane, but for what the lowest lane borrows. -/
theorem sub_append {n : Nat} (x y : BitVec n) (lane lane' : BitVec 8) :
    (x ++ lane) - (y ++ lane') = (x - y - borrow (lane.ult lane') n) ++ (lane - lane') := by
  apply BitVec.eq_of_toNat_eq
  have hx := x.isLt
  have hy := y.isLt
  have hlane := lane.isLt
  have hlane' := lane'.isLt
  have hpow : 2 ^ (n + 8) = 256 * 2 ^ n := by
    rw [Nat.pow_add]
    omega
  have howes : (lane.ult lane').toNat = if lane.toNat < lane'.toNat then 1 else 0 := by
    by_cases hlt : lane.toNat < lane'.toNat
    · rw [BitVec.ult, decide_eq_true hlt, if_pos hlt]
      rfl
    · rw [BitVec.ult, decide_eq_false hlt, if_neg hlt]
      rfl
  simp only [toNat_append_lane, BitVec.toNat_sub, toNat_borrow, hpow, Nat.mod_mul]
  rw [howes]
  generalize 2 ^ n = m at hx hy ⊢
  have hlow : (256 * m - (256 * y.toNat + lane'.toNat) + (256 * x.toNat + lane.toNat)) % 256
      = (2 ^ 8 - lane'.toNat + lane.toNat) % 2 ^ 8 := by omega
  have hhigh : (256 * m - (256 * y.toNat + lane'.toNat) + (256 * x.toNat + lane.toNat)) / 256
      = m - y.toNat + x.toNat - if lane.toNat < lane'.toNat then 1 else 0 := by
    split <;> omega
  rw [hlow, hhigh, Nat.add_comm]
  congr 2
  by_cases hone : m = 1
  · subst hone
    simp only [Nat.mod_one]
  · have hless : (if lane.toNat < lane'.toNat then 1 else 0) < m := by
      split <;> omega
    have hle : (if lane.toNat < lane'.toNat then 1 else 0) ≤ m - y.toNat + x.toNat := by
      split <;> omega
    generalize (if lane.toNat < lane'.toNat then 1 else 0) = b at hless hle ⊢
    rw [Nat.mod_eq_of_lt hless, Nat.add_mod_mod,
      show m - b + (m - y.toNat + x.toNat) = m - y.toNat + x.toNat - b + m by omega, Nat.add_mod_right]

/-- What one lane is marked with, and what it owes. -/
theorem lane_marks (lane : BitVec 8) (owes : Bool) (h : lane ≠ 1) :
    ((lane - 1 - borrow owes 8) &&& ~~~lane &&& 0x80).cpop.toNat = if lane = 0 then 1 else 0 := by
  revert lane owes
  decide +kernel

/-- A lane lends to at most one of the two subtractions. -/
theorem borrow_twice {n : Nat} (x : BitVec n) (lane : BitVec 8) (owes : Bool) :
    x - borrow (lane.ult 1) n - borrow ((lane - 1).ult (borrow owes 8)) n
      = x - borrow (lane.ult 1 || (lane - 1).ult (borrow owes 8)) n := by
  have hnot : ∀ lane : BitVec 8, ∀ owes : Bool, lane.ult 1 = true → (lane - 1).ult (borrow owes 8) = false := by
    decide +kernel
  cases hlane : lane.ult 1 with
  | true =>
    rw [hnot lane owes hlane]
    simp [borrow]
  | false => simp [borrow]

theorem borrow_append (owes : Bool) (n : Nat) : borrow owes (n + 8) = 0#n ++ borrow owes 8 := by
  apply BitVec.eq_of_toNat_eq
  rw [toNat_append_lane, toNat_borrow, toNat_borrow]
  have hpow : 2 ≤ 2 ^ (n + 8) := by
    rw [Nat.pow_succ]
    exact Nat.le_mul_of_pos_left 2 (Nat.two_pow_pos _)
  have howes : owes.toNat ≤ 1 := Bool.toNat_le owes
  simp only [BitVec.toNat_ofNat, Nat.zero_mod]
  rw [Nat.mod_eq_of_lt (by omega), Nat.mod_eq_of_lt (by omega)]
  omega

theorem zeroMarks_append (owes : Bool) {n : Nat} (v : BitVec (8 * n)) (lane : BitVec 8) :
    zeroMarks owes (n + 1) (v ++ lane) = zeroMarks (lane.ult 1 || (lane - 1).ult (borrow owes 8)) n v ++
      ((lane - 1 - borrow owes 8) &&& ~~~lane &&& 0x80) := by
  have hsub : (v ++ lane) - fill 1 (n + 1) - borrow owes (8 * n + 8)
      = (v - fill 1 n - borrow (lane.ult 1 || (lane - 1).ult (borrow owes 8)) _) ++ (lane - 1 - borrow owes 8) := by
    rw [fill, sub_append, borrow_append, sub_append, BitVec.sub_zero, borrow_twice]
  calc zeroMarks owes (n + 1) (v ++ lane)
      = ((v ++ lane) - fill 1 (n + 1) - borrow owes (8 * n + 8)) &&& ~~~(v ++ lane) &&&
          (fill 0x80 n ++ 0x80#8) := rfl
    _ = _ := by
      rw [hsub, BitVec.not_append, BitVec.and_append, BitVec.and_append]
      rfl

theorem masked_cons (kept flipped lane : BitVec 8) (rest : List (BitVec 8)) :
    masked kept flipped (lane :: rest) = masked kept flipped rest ++ ((lane &&& kept) ^^^ flipped) := by
  calc masked kept flipped (lane :: rest)
      = ((word rest ++ lane) &&& (fill kept rest.length ++ kept)) ^^^ (fill flipped rest.length ++ flipped) := rfl
    _ = _ := by
      rw [BitVec.and_append, BitVec.xor_append]
      rfl

/-- The marks are as many as there are lanes that the masks make zero. -/
theorem cpop_zeroMarks (owes : Bool) (kept flipped : BitVec 8) {lanes : List (BitVec 8)}
    (h : ∀ lane ∈ lanes, (lane &&& kept) ^^^ flipped ≠ 1) :
    (zeroMarks owes lanes.length (masked kept flipped lanes)).cpop.toNat =
      lanes.countP fun lane => (lane &&& kept) ^^^ flipped = 0 := by
  induction lanes generalizing owes with
  | nil => rfl
  | cons lane rest ih =>
    have hmarks := zeroMarks_append owes (masked kept flipped rest) ((lane &&& kept) ^^^ flipped)
    rw [← masked_cons] at hmarks
    show (zeroMarks owes (rest.length + 1) (masked kept flipped (lane :: rest))).cpop.toNat = _
    rw [hmarks, BitVec.toNat_cpop_append, ih _ fun l hl => h l (List.mem_cons_of_mem _ hl),
      lane_marks _ owes (h lane List.mem_cons_self), List.countP_cons]
    simp only [decide_eq_true_eq]

end Swar
