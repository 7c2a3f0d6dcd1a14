import SpiderChrome.Library.Retry
import SpiderChrome.Library.Table
import Mathlib.Algebra.GroupWithZero.Nat

/-!
# Sizes of referenced types

The generator adds up the sizes of the types. What a type adds for a type that it refers to is put off until all types are read, and then the pairs of a name and a reference are gone through again and again. `resolveSizes_panics_iff` says when this panics.
-/

namespace SpiderChrome.Pdl

/-- The sizes that are known so far, and the names whose size a reference adds to. A `usize` has `w` bits. -/
structure Generator (w : Nat) where
  typeSize : Table String (BitVec w)
  refSizes : List (String × String)

namespace Generator

/-- `attempt to add with overflow`, or `No type found for ref {reff}`. -/
inductive Panic where
  | overflow
  | noType (reff : String)
deriving DecidableEq

variable {w : Nat}

/-- `*s += size`, which wraps where overflow is not checked. -/
def addAssign (checks : Bool) (s size : BitVec w) : Except Panic (BitVec w) :=
  if checks = true ∧ 2 ^ w ≤ s.toNat + size.toNat then .error .overflow else .ok (s + size)

def storeSize (checks : Bool) (g : Generator w) (ty : String) : BitVec w ⊕ String → Except Panic (Generator w)
  | .inl size => do
    let s ← addAssign checks ((g.typeSize.get ty).getD 0) size
    .ok { g with typeSize := g.typeSize.set ty s }
  | .inr name => .ok { g with refSizes := g.refSizes ++ [(ty, name)] }

/-- One turn of the loop: the size of the reference is stored once it is known. -/
def resolveSize (checks : Bool) (g : Generator w) (pair : String × String) : Option (Except Panic (Generator w)) :=
  (g.typeSize.get pair.2).map fun refSize => g.storeSize checks pair.1 (.inl refSize)

def outcome (ending : Retry.Ending (Generator w) (String × String) Panic) : Except Panic (Generator w) :=
  match ending.stop with
  | .finished => .ok ending.state
  | .failed panic => .error panic
  | .gaveUp pair => .error (.noType pair.2)

/-- The retry loop over the references that were put off. -/
def resolveSizes (checks : Bool) (fuel : Nat) (g : Generator w) : Option (Except Panic (Generator w)) :=
  (Retry.run (resolveSize checks) fuel { g with refSizes := [] } g.refSizes 0).map outcome

/-! ### What can be reached -/

def Known (g : Generator w) (name : String) : Prop := (g.typeSize.get name).isSome = true

/-- In the table, or the name of a pair whose own reference can be reached. -/
def Reachable (g : Generator w) : String → Prop := Retry.Reached Prod.snd Prod.fst g.Known g.refSizes

def Unreachable (g : Generator w) : Prop := ∃ pair ∈ g.refSizes, ¬ g.Reachable pair.2

/-- The same turn on sizes without a limit. -/
def addSize (sizes : String → Option Nat) (pair : String × String) :
    Option (Except Panic (String → Option Nat)) :=
  (sizes pair.2).map fun refSize =>
    .ok (Function.update sizes pair.1 (some ((sizes pair.1).getD 0 + refSize)))

def sizes (g : Generator w) (name : String) : Option Nat := (g.typeSize.get name).map BitVec.toNat

/-- A size that does not fit in a `usize`. -/
def TooLarge (w : Nat) (sizes : String → Option Nat) : Prop := ∃ name size, sizes name = some size ∧ 2 ^ w ≤ size

/-- The loop adds a size up that does not fit in a `usize`. -/
def Overflows (g : Generator w) : Prop :=
  ∃ fuel ending, Retry.run addSize fuel g.sizes g.refSizes 0 = some ending ∧ TooLarge w ending.state

/-! ### One turn -/

variable {checks : Bool} {g g' : Generator w} {pair : String × String} {size : BitVec w}

theorem addAssign_overflow {s size : BitVec w} (h : 2 ^ w ≤ s.toNat + size.toNat) :
    addAssign true s size = .error .overflow := if_pos ⟨rfl, h⟩

theorem addAssign_fits {s size : BitVec w} (h : s.toNat + size.toNat < 2 ^ w) :
    addAssign checks s size = .ok (s + size) := if_neg fun hover => absurd hover.2 (Nat.not_le.2 h)

theorem storeSize_ok {ty : String} {s : BitVec w}
    (h : addAssign checks ((g.typeSize.get ty).getD 0) size = .ok s) :
    g.storeSize checks ty (.inl size) = .ok { g with typeSize := g.typeSize.set ty s } := by
  rw [storeSize, h]
  rfl

theorem storeSize_error {ty : String} {panic : Panic}
    (h : addAssign checks ((g.typeSize.get ty).getD 0) size = .error panic) :
    g.storeSize checks ty (.inl size) = .error panic := by
  rw [storeSize, h]
  rfl

theorem known_of_storeSize {ty : String} (h : g.storeSize checks ty (.inl size) = .ok g') (name : String) :
    g'.Known name ↔ g.Known name ∨ name = ty := by
  cases hadd : addAssign checks ((g.typeSize.get ty).getD 0) size with
  | error panic =>
    rw [storeSize_error hadd] at h
    cases h
  | ok s =>
    rw [storeSize_ok hadd] at h
    cases h
    simp only [Known, Table.get_set]
    split
    · rename_i hname
      exact ⟨fun _ => .inr hname, fun _ => rfl⟩
    · rename_i hname
      exact (or_iff_left hname).symm

/-- A pair waits for the size of its reference, and gives a size to its name. -/
theorem keyed_resolveSize (checks : Bool) :
    Retry.Keyed (resolveSize checks) Prod.snd Prod.fst (Known (w := w)) where
  waits g pair := by
    rw [resolveSize, Option.map_eq_none_iff, Known, Bool.not_eq_true, Option.isSome_eq_false_iff,
      Option.isNone_iff_eq_none]
  learns g pair g' h name := by
    obtain ⟨refSize, -, hstore⟩ := Option.map_eq_some_iff.1 h
    exact known_of_storeSize hstore name

theorem resolveSize_error {panic : Panic} (h : resolveSize checks g pair = some (.error panic)) :
    checks = true ∧ panic = .overflow := by
  obtain ⟨refSize, -, hstore⟩ := Option.map_eq_some_iff.1 h
  cases hadd : addAssign checks ((g.typeSize.get pair.1).getD 0) refSize with
  | ok s =>
    rw [storeSize_ok hadd] at hstore
    cases hstore
  | error failure =>
    rw [storeSize_error hadd] at hstore
    cases hstore
    rw [addAssign] at hadd
    split at hadd
    · rename_i hover
      cases hadd
      exact ⟨hover.1, rfl⟩
    · cases hadd

/-! ### Sizes without a limit -/

theorem addSize_ne_error (t : String → Option Nat) (pair : String × String) (panic : Panic) :
    addSize t pair ≠ some (.error panic) := by
  intro h
  obtain ⟨_, -, heq⟩ := Option.map_eq_some_iff.1 h
  cases heq

theorem not_tooLarge_sizes (g : Generator w) : ¬ TooLarge w g.sizes := by
  rintro ⟨name, size, hsize, hle⟩
  obtain ⟨bits, -, rfl⟩ := Option.map_eq_some_iff.1 hsize
  exact Nat.not_lt.2 hle bits.isLt

/-- No size gets smaller. -/
theorem TooLarge.addSize {t t' : String → Option Nat} (h : TooLarge w t) (hadd : addSize t pair = some (.ok t')) :
    TooLarge w t' := by
  obtain ⟨name, size, hsize, hle⟩ := h
  obtain ⟨refSize, -, heq⟩ := Option.map_eq_some_iff.1 hadd
  cases heq
  by_cases hname : name = pair.1
  · subst hname
    refine ⟨pair.1, size + refSize, ?_, Nat.le_add_right_of_le hle⟩
    rw [Function.update_self, hsize]
    rfl
  · exact ⟨name, size, (Function.update_of_ne hname _ _).trans hsize, hle⟩

theorem sizes_set (g : Generator w) (ty : String) (s : BitVec w) :
    { g with typeSize := g.typeSize.set ty s }.sizes = Function.update g.sizes ty (some s.toNat) := by
  funext name
  by_cases hname : name = ty
  · subst hname
    rw [sizes, Table.get_set_self, Function.update_self, Option.map_some]
  · rw [sizes, Table.get_set_of_ne _ _ hname, Function.update_of_ne hname, sizes]

theorem sizes_getD (g : Generator w) (name : String) :
    (g.sizes name).getD 0 = ((g.typeSize.get name).getD 0).toNat := by
  rw [sizes]
  cases g.typeSize.get name with
  | none => exact BitVec.toNat_zero.symm
  | some size => rfl

/-- Where overflow is checked, the loop adds up the sizes without a limit until one is too large. -/
theorem follows_addSize : Retry.Follows (resolveSize true) addSize (fun (g : Generator w) t => g.sizes = t)
    (TooLarge w) where
  waits := by
    rintro g _ pair rfl h
    rw [addSize, Option.map_eq_none_iff, sizes, Option.map_eq_none_iff] at h
    rw [resolveSize, h]
    rfl
  fails _ t pair panic _ h := absurd h (addSize_ne_error t pair panic)
  does := by
    rintro g _ pair t' rfl h
    obtain ⟨_, hsize, heq⟩ := Option.map_eq_some_iff.1 h
    obtain ⟨refSize, hget, rfl⟩ := Option.map_eq_some_iff.1 hsize
    cases heq
    have hresolve : resolveSize true g pair = some (g.storeSize true pair.1 (.inl refSize)) := by
      rw [resolveSize, hget]
      rfl
    rw [sizes_getD]
    by_cases hover : 2 ^ w ≤ ((g.typeSize.get pair.1).getD 0).toNat + refSize.toNat
    · refine .inr ⟨⟨.overflow, ?_⟩, pair.1, _, Function.update_self .., hover⟩
      rw [hresolve, storeSize_error (addAssign_overflow hover)]
    · have hfits := Nat.not_le.1 hover
      refine .inl ⟨_, hresolve.trans (congrArg some (storeSize_ok (addAssign_fits hfits))), ?_⟩
      rw [sizes_set, BitVec.toNat_add_of_lt hfits]
  stays _ _ _ h hadd := h.addSize hadd

/-! ### The loop -/

variable {ending : Retry.Ending (Generator w) (String × String) Panic} {fuel : Nat}

/-- The loop panics at a reference that cannot be reached, or at a size that overflows. -/
theorem outcome_spec (h : Retry.run (resolveSize checks) fuel { g with refSizes := [] } g.refSizes 0 = some ending) :
    match ending.stop with
    | .finished => ¬ g.Unreachable
    | .failed panic => checks = true ∧ panic = .overflow
    | .gaveUp pair => pair ∈ g.refSizes ∧ ¬ g.Reachable pair.2 := by
  have hreaches := Retry.run_reaches (keyed_resolveSize checks) h
  obtain ⟨g', stop⟩ := ending
  cases stop with
  | finished =>
    rintro ⟨pair, hpair, hnot⟩
    exact hnot (hreaches pair hpair)
  | failed panic =>
    obtain ⟨pair, hattempt⟩ := Retry.attempt_of_failed h
    exact resolveSize_error hattempt
  | gaveUp pair => exact hreaches

/-- Where overflow is checked, the loop fails exactly if a size does not fit. -/
theorem overflows_iff (h : Retry.run (resolveSize true) fuel { g with refSizes := [] } g.refSizes 0 = some ending) :
    g.Overflows ↔ ∃ panic, ending.stop = .failed panic := by
  have hstart : { g with refSizes := [] }.sizes = g.sizes := rfl
  constructor
  · rintro ⟨fuel', sum, hsum, hlarge⟩
    rcases Retry.run_follows follows_addSize hstart hsum with ⟨g', hsizes, _⟩ | ⟨⟨g', panic, hrun⟩, _⟩
    · exact absurd (hsizes ▸ hlarge) (not_tooLarge_sizes g')
    · exact ⟨panic, congrArg Retry.Ending.stop (Retry.run_unique h hrun)⟩
  · rintro ⟨panic, hstop⟩
    obtain ⟨sum, hsum⟩ := Retry.run_returns addSize g.sizes g.refSizes 0
    rcases Retry.run_follows follows_addSize hstart hsum with ⟨g', _, hrun⟩ | ⟨_, hlarge⟩
    · obtain ⟨t, stop⟩ := sum
      have hfailed : stop = .failed panic := (congrArg Retry.Ending.stop (Retry.run_unique hrun h)).trans hstop
      subst hfailed
      obtain ⟨pair, hattempt⟩ := Retry.attempt_of_failed hsum
      exact absurd hattempt (addSize_ne_error t pair panic)
    · exact ⟨_, sum, hsum, hlarge⟩

/-- The loop ends for every table and every queue. It panics exactly if some reference cannot be reached or, where overflow is checked, a size does not fit; a missing type is reported only for a reference that cannot be reached. -/
theorem resolveSizes_panics_iff (checks : Bool) (g : Generator w) : ∃ result,
    (∀ fuel, Retry.turns g.refSizes 0 < fuel → g.resolveSizes checks fuel = some result) ∧
    ((∃ panic, result = .error panic) ↔ g.Unreachable ∨ checks = true ∧ g.Overflows) ∧
    ∀ reff, result = .error (.noType reff) → (∃ name, (name, reff) ∈ g.refSizes) ∧ ¬ g.Reachable reff := by
  obtain ⟨ending, hrun⟩ := Retry.run_returns (resolveSize checks) { g with refSizes := [] } g.refSizes 0
  refine ⟨outcome ending, fun fuel hfuel => ?_, ?_⟩
  · rw [resolveSizes, Retry.run_of_le hfuel hrun]
    rfl
  have hspec := outcome_spec hrun
  have hoverflows : checks = true → (g.Overflows ↔ ∃ panic, ending.stop = .failed panic) := by
    rintro rfl
    exact overflows_iff hrun
  obtain ⟨g', stop⟩ := ending
  cases stop with
  | finished =>
    refine ⟨⟨?_, ?_⟩, ?_⟩
    · rintro ⟨_, hpanic⟩
      cases hpanic
    · rintro (hunreachable | ⟨hchecks, hover⟩)
      · exact absurd hunreachable hspec
      · obtain ⟨_, hstop⟩ := (hoverflows hchecks).1 hover
        cases hstop
    · intro _ hpanic
      cases hpanic
  | failed panic =>
    obtain ⟨hchecks, rfl⟩ := hspec
    have hover : g.Overflows := (hoverflows hchecks).2 ⟨_, rfl⟩
    refine ⟨⟨fun _ => .inr ⟨hchecks, hover⟩, fun _ => ⟨_, rfl⟩⟩, ?_⟩
    intro _ hpanic
    cases hpanic
  | gaveUp pair =>
    obtain ⟨hmem, hnot⟩ := hspec
    refine ⟨⟨fun _ => .inl ⟨pair, hmem, hnot⟩, fun _ => ⟨_, rfl⟩⟩, ?_⟩
    intro reff hpanic
    cases hpanic
    exact ⟨⟨pair.1, hmem⟩, hnot⟩

/-- Both types are in the table, and the size of one of them cannot be added to that of the other. -/
def wide : Generator 64 := ⟨(Table.empty.set "B" 1).set "A" (-1), [("B", "A")]⟩

theorem wide_overflows :
    ¬ wide.Unreachable ∧ ∀ fuel, 2 ≤ fuel → wide.resolveSizes true fuel = some (.error .overflow) := by
  constructor
  · rintro ⟨pair, hpair, hnot⟩
    rw [List.mem_singleton.1 hpair] at hnot
    exact hnot (.initial rfl)
  · intro fuel hfuel
    have hrun : Retry.run (resolveSize true) 2 { wide with refSizes := [] } wide.refSizes 0
        = some ⟨{ wide with refSizes := [] }, .failed .overflow⟩ := rfl
    rw [resolveSizes, Retry.run_of_le hfuel hrun]
    rfl

end Generator

end SpiderChrome.Pdl
