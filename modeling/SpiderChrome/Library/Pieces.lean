import Mathlib.Data.List.Basic
import Mathlib.Algebra.GroupWithZero.Nat

/-!
# Cutting a list into pieces

A list whose elements have weights is cut into pieces of a bounded weight each, from the front, every piece as long as the bound lets it be. No other way to cut the list gets further with the same number of pieces: what this one leaves is left by every other one as well. So a list can be cut into that many pieces exactly when cutting so uses it up.
-/

namespace Pieces

variable {α : Type} (weight : α → Nat)

def total (s : List α) : Nat := (s.map weight).sum

/-- The longest piece from the front that weighs no more than the bound. -/
def takeWithin : Nat → List α → List α
  | _, [] => []
  | bound, a :: s => if weight a ≤ bound then a :: takeWithin (bound - weight a) s else []

/-- What is left of the list without this piece. -/
def dropWithin : Nat → List α → List α
  | _, [] => []
  | bound, a :: s => if weight a ≤ bound then dropWithin (bound - weight a) s else a :: s

/-- What is left after some pieces. -/
def leftAfter (bound : Nat) : Nat → List α → List α
  | 0, s => s
  | count + 1, s => leftAfter bound count (dropWithin weight bound s)

/-- The pieces themselves, as many as there are up to a count. -/
def cutInto (bound : Nat) : Nat → List α → List (List α)
  | 0, _ => []
  | _ + 1, [] => []
  | count + 1, a :: s => takeWithin weight bound (a :: s) :: cutInto bound count (dropWithin weight bound (a :: s))

/-- Whether the list can be cut into so many pieces within the bound. -/
def Fits (bound count : Nat) (s : List α) : Prop :=
  ∃ pieces : List (List α), pieces.flatten = s ∧ pieces.length ≤ count ∧ ∀ piece ∈ pieces, total weight piece ≤ bound

variable {weight}

@[simp] theorem total_nil : total weight [] = 0 := rfl

@[simp] theorem total_cons (a : α) (s : List α) : total weight (a :: s) = weight a + total weight s := by
  simp [total]

@[simp] theorem total_append (s t : List α) : total weight (s ++ t) = total weight s + total weight t := by
  simp [total]

theorem length_le_total {s : List α} (h : ∀ a ∈ s, 1 ≤ weight a) : s.length ≤ total weight s := by
  induction s with
  | nil => exact Nat.zero_le _
  | cons a s ih =>
    have ha := h a List.mem_cons_self
    have hs := ih fun b hb => h b (List.mem_cons_of_mem _ hb)
    rw [List.length_cons, total_cons]
    omega

theorem total_flatten_le {bound : Nat} {pieces : List (List α)} (h : ∀ piece ∈ pieces, total weight piece ≤ bound) :
    total weight pieces.flatten ≤ pieces.length * bound := by
  induction pieces with
  | nil => simp
  | cons piece rest ih =>
    have hpiece := h piece List.mem_cons_self
    have hrest := ih fun p hp => h p (List.mem_cons_of_mem _ hp)
    simp only [List.flatten_cons, total_append, List.length_cons, Nat.add_mul]
    omega

@[simp] theorem takeWithin_append_dropWithin (bound : Nat) (s : List α) :
    takeWithin weight bound s ++ dropWithin weight bound s = s := by
  induction s generalizing bound with
  | nil => rfl
  | cons a s ih =>
    by_cases ha : weight a ≤ bound
    · simp [takeWithin, dropWithin, ha, ih]
    · simp [takeWithin, dropWithin, ha]

theorem total_takeWithin_le (bound : Nat) (s : List α) : total weight (takeWithin weight bound s) ≤ bound := by
  induction s generalizing bound with
  | nil => simp [takeWithin]
  | cons a s ih =>
    by_cases ha : weight a ≤ bound
    · have hrest := ih (bound - weight a)
      simp only [takeWithin, if_pos ha, total_cons]
      omega
    · simp [takeWithin, ha]

theorem dropWithin_suffix (bound : Nat) (s : List α) : dropWithin weight bound s <:+ s :=
  ⟨takeWithin weight bound s, takeWithin_append_dropWithin bound s⟩

/-- A larger bound leaves less. -/
theorem dropWithin_anti {bound bound' : Nat} (h : bound ≤ bound') (s : List α) :
    dropWithin weight bound' s <:+ dropWithin weight bound s := by
  induction s generalizing bound bound' with
  | nil => exact List.suffix_refl _
  | cons a s ih =>
    by_cases ha : weight a ≤ bound
    · have ha' : weight a ≤ bound' := by omega
      simp only [dropWithin, if_pos ha, if_pos ha']
      exact ih (by omega)
    · have heq : dropWithin weight bound (a :: s) = a :: s := by simp [dropWithin, ha]
      rw [heq]
      exact dropWithin_suffix bound' (a :: s)

/-- A cut that starts further back does not get further. -/
theorem dropWithin_append (bound : Nat) (t s : List α) :
    dropWithin weight bound s <:+ dropWithin weight bound (t ++ s) := by
  induction t generalizing bound with
  | nil => exact List.suffix_refl _
  | cons a t ih =>
    by_cases ha : weight a ≤ bound
    · simp only [List.cons_append, dropWithin, if_pos ha]
      exact (dropWithin_anti (by omega) s).trans (ih (bound - weight a))
    · have heq : dropWithin weight bound (a :: t ++ s) = a :: t ++ s := by simp [dropWithin, ha]
      rw [heq]
      exact (dropWithin_suffix bound s).trans (List.suffix_append _ s)

theorem leftAfter_mono {bound : Nat} (count : Nat) {s t : List α} (h : s <:+ t) :
    leftAfter weight bound count s <:+ leftAfter weight bound count t := by
  induction count generalizing s t with
  | zero => exact h
  | succ count ih =>
    obtain ⟨front, rfl⟩ := h
    exact ih (dropWithin_append bound front s)

/-- A piece within the bound is cut off. -/
theorem dropWithin_piece {bound : Nat} {piece : List α} (h : total weight piece ≤ bound) (s : List α) :
    dropWithin weight bound (piece ++ s) <:+ s := by
  induction piece generalizing bound with
  | nil => exact dropWithin_suffix bound s
  | cons a piece ih =>
    rw [total_cons] at h
    have ha : weight a ≤ bound := by omega
    simp only [List.cons_append, dropWithin, if_pos ha]
    exact ih (by omega)

@[simp] theorem leftAfter_nil (bound count : Nat) : leftAfter weight bound count [] = [] := by
  induction count with
  | zero => rfl
  | succ count ih => exact ih

theorem flatten_cutInto (bound count : Nat) (s : List α) :
    (cutInto weight bound count s).flatten ++ leftAfter weight bound count s = s := by
  induction count generalizing s with
  | zero => rfl
  | succ count ih =>
    cases s with
    | nil => simp [cutInto]
    | cons a s =>
      rw [cutInto, leftAfter, List.flatten_cons, List.append_assoc, ih, takeWithin_append_dropWithin]

theorem leftAfter_of_pieces {bound : Nat} {pieces : List (List α)} {count : Nat} (hcount : pieces.length ≤ count)
    (h : ∀ piece ∈ pieces, total weight piece ≤ bound) : leftAfter weight bound count pieces.flatten = [] := by
  induction pieces generalizing count with
  | nil => exact leftAfter_nil bound count
  | cons piece rest ih =>
    cases count with
    | zero => simp at hcount
    | succ count =>
      rw [List.length_cons] at hcount
      have hrest := @ih count (by omega) fun p hp => h p (List.mem_cons_of_mem _ hp)
      have hsuffix := @leftAfter_mono _ weight bound count _ _
        (dropWithin_piece (h piece List.mem_cons_self) rest.flatten)
      rw [hrest] at hsuffix
      exact List.suffix_nil.mp hsuffix

theorem fits_cons {bound count : Nat} {piece s : List α} (hpiece : total weight piece ≤ bound)
    (h : Fits weight bound count s) : Fits weight bound (count + 1) (piece ++ s) := by
  obtain ⟨pieces, rfl, hcount, hbound⟩ := h
  refine ⟨piece :: pieces, rfl, by simpa using hcount, ?_⟩
  intro p hp
  obtain rfl | hp := List.mem_cons.mp hp
  · exact hpiece
  · exact hbound p hp

/-- The list can be cut into so many pieces exactly when so many of the longest pieces use it up. -/
theorem fits_iff_leftAfter {bound count : Nat} {s : List α} :
    Fits weight bound count s ↔ leftAfter weight bound count s = [] := by
  constructor
  · intro h
    obtain ⟨pieces, rfl, hcount, hbound⟩ := h
    exact leftAfter_of_pieces hcount hbound
  · intro h
    induction count generalizing s with
    | zero =>
      obtain rfl : s = [] := h
      exact ⟨[], rfl, by simp, by simp⟩
    | succ count ih =>
      have hfits := fits_cons (total_takeWithin_le bound s) (ih h)
      rwa [takeWithin_append_dropWithin] at hfits

/-- Where no element is heavy, a piece stops short of the bound by little. -/
theorem total_dropWithin_le {bound most : Nat} {s : List α} (h : ∀ a ∈ s, weight a ≤ most) :
    total weight (dropWithin weight bound s) + (bound + 1) ≤ max (total weight s + most) (bound + 1) := by
  induction s generalizing bound with
  | nil =>
    simp only [dropWithin, total_nil]
    omega
  | cons a s ih =>
    have ha := h a List.mem_cons_self
    by_cases hfits : weight a ≤ bound
    · have hrest := @ih (bound - weight a) fun b hb => h b (List.mem_cons_of_mem _ hb)
      simp only [dropWithin, if_pos hfits, total_cons]
      omega
    · simp only [dropWithin, if_neg hfits]
      omega

/-- A list fits if it would with pieces that stop short of the bound by as much as the heaviest element, less one. -/
theorem fits_of_total_le {bound most count : Nat} {s : List α} (h : ∀ a ∈ s, weight a ≤ most) (hmost : most ≤ bound)
    (hpos : ∀ a ∈ s, 1 ≤ weight a) (htotal : total weight s ≤ count * (bound + 1 - most)) :
    Fits weight bound count s := by
  induction count generalizing s with
  | zero =>
    cases s with
    | nil => exact ⟨[], rfl, by simp, by simp⟩
    | cons a s =>
      have ha := hpos a List.mem_cons_self
      simp only [total_cons, Nat.zero_mul] at htotal
      omega
  | succ count ih =>
    have hdrop := @total_dropWithin_le _ weight bound most s h
    have hmem : ∀ a ∈ dropWithin weight bound s, a ∈ s := fun a ha => (dropWithin_suffix bound s).subset ha
    have hfits := fits_cons (total_takeWithin_le bound s) (ih (fun a ha => h a (hmem a ha))
      (fun a ha => hpos a (hmem a ha)) (by
        rw [Nat.add_mul] at htotal
        omega))
    rwa [takeWithin_append_dropWithin] at hfits

end Pieces
