import Mathlib.Algebra.GroupWithZero.Nat
import Mathlib.Data.Nat.Find

/-!
# Connecting with retries

`connect_with_retries` tries again after a failure, with longer and longer pauses, unless the failure is one for good. `connectWithRetries_spec` says which attempt decides, how long it pauses, and that with overflow checks it panics after the 38th attempt.
-/

namespace SpiderChrome.Launch

inductive IoErrorKind where
  | connectionRefused
  | other (kind : String)
deriving DecidableEq

inductive TungsteniteError where
  | http
  | httpFormat
  | other (detail : String)
deriving DecidableEq

inductive ConnectError where
  | io (kind : IoErrorKind)
  | ws (err : TungsteniteError)
  | other (detail : String)
deriving DecidableEq

/-- Nothing is tried again where nobody listens, or where the answer was no websocket. -/
def ConnectError.shouldRetry : ConnectError → Bool
  | io .connectionRefused => false
  | ws .http => false
  | ws .httpFormat => false
  | _ => true

def initialBackoffMs : Nat := 50

def maxBackoffMs : Nat := 2000

/-- The pause after an attempt. The power saturates and the product does not: it wraps, or panics where overflows are checked. -/
def backoffMs (checks : Bool) (attempt : Nat) : Option Nat :=
  let product := initialBackoffMs * min (3 ^ attempt) (2 ^ 64 - 1)
  if product < 2 ^ 64 then some (min product maxBackoffMs)
  else if checks then none
  else some (min (product % 2 ^ 64) maxBackoffMs)

/-- How connecting went. There is no result where it panicked. -/
structure Connecting (Ws : Type) where
  result : Option (Except ConnectError Ws)
  attempts : Nat
  pauses : List Nat

section Retries

variable {Ws : Type} (checks : Bool) (connect : Nat → Except ConnectError Ws)

/-- The loop from an attempt on, with so many retries left. The error of the last attempt is that of the loop. -/
def connectFrom (attempt : Nat) (pauses : List Nat) : Nat → Connecting Ws
  | 0 => ⟨some (connect attempt), attempt + 1, pauses⟩
  | left + 1 =>
    match connect attempt with
    | .ok ws => ⟨some (.ok ws), attempt + 1, pauses⟩
    | .error e =>
      if e.shouldRetry then
        match backoffMs checks attempt with
        | some ms => connectFrom (attempt + 1) (pauses ++ [ms]) left
        | none => ⟨none, attempt + 1, pauses⟩
      else ⟨some (.error e), attempt + 1, pauses⟩

def connectWithRetries (retries : Nat) : Connecting Ws := connectFrom checks connect 0 [] retries

/-- The attempt fails, but not for good. -/
def Retriable (result : Except ConnectError Ws) : Prop := ∃ e, result = .error e ∧ e.shouldRetry = true

/-- The pause that is meant. -/
def pause (attempt : Nat) : Nat := min (50 * 3 ^ attempt) 2000

theorem backoffMs_of_lt {attempt : Nat} (h : attempt < 37) : backoffMs checks attempt = some (pause attempt) := by
  have hpow : 3 ^ attempt ≤ 3 ^ 36 := Nat.pow_le_pow_right (by decide) (Nat.le_of_lt_succ h)
  have hmin : min (3 ^ attempt) (2 ^ 64 - 1) = 3 ^ attempt := Nat.min_eq_left (Nat.le_trans hpow (by decide))
  have hlt : 50 * 3 ^ attempt < 2 ^ 64 := Nat.lt_of_le_of_lt (Nat.mul_le_mul_left 50 hpow) (by decide)
  rw [backoffMs, hmin, initialBackoffMs, if_pos hlt]
  rfl

theorem overflows {attempt : Nat} (h : 37 ≤ attempt) : ¬50 * min (3 ^ attempt) (2 ^ 64 - 1) < 2 ^ 64 := by
  have hpow : 3 ^ 37 ≤ 3 ^ attempt := Nat.pow_le_pow_right (by decide) h
  have hmin : 3 ^ 37 ≤ min (3 ^ attempt) (2 ^ 64 - 1) := Nat.le_min.2 ⟨hpow, by decide⟩
  exact Nat.not_lt.2 (Nat.le_trans (by decide : 2 ^ 64 ≤ 50 * 3 ^ 37) (Nat.mul_le_mul_left 50 hmin))

theorem backoffMs_checked {attempt : Nat} (h : 37 ≤ attempt) : backoffMs true attempt = none := by
  rw [backoffMs, initialBackoffMs, if_neg (overflows h)]
  rfl

/-- A product that wraps is above the longest pause all the same. -/
theorem le_wrapped {attempt : Nat} (h : 37 ≤ attempt) : 2000 ≤ 50 * min (3 ^ attempt) (2 ^ 64 - 1) % 2 ^ 64 := by
  by_cases hsmall : attempt ≤ 40
  · obtain rfl | rfl | rfl | rfl : attempt = 37 ∨ attempt = 38 ∨ attempt = 39 ∨ attempt = 40 := by omega
    all_goals decide
  · have hpow : 3 ^ 41 ≤ 3 ^ attempt := Nat.pow_le_pow_right (by decide) (Nat.lt_of_not_le hsmall)
    have hmin : min (3 ^ attempt) (2 ^ 64 - 1) = 2 ^ 64 - 1 :=
      Nat.min_eq_right (Nat.le_trans (by decide : 2 ^ 64 - 1 ≤ 3 ^ 41) hpow)
    rw [hmin]
    decide

theorem backoffMs_unchecked (attempt : Nat) : backoffMs false attempt = some (pause attempt) := by
  by_cases h : attempt < 37
  · exact backoffMs_of_lt false h
  · have hle := Nat.le_of_not_lt h
    have hpow : 3 ^ 37 ≤ 3 ^ attempt := Nat.pow_le_pow_right (by decide) hle
    have hpause : pause attempt = 2000 :=
      Nat.min_eq_right (Nat.le_trans (by decide : 2000 ≤ 50 * 3 ^ 37) (Nat.mul_le_mul_left 50 hpow))
    rw [backoffMs, initialBackoffMs, if_neg (overflows hle), hpause]
    exact congrArg some (Nat.min_eq_right (le_wrapped hle))

/-- The attempt that decides: the first one that does not fail in a way that is tried again, or the last one allowed. -/
structure Decides (retries last : Nat) : Prop where
  le : last ≤ retries
  before : ∀ i < last, Retriable (connect i)
  ends : last = retries ∨ ¬Retriable (connect last)

theorem exists_decides (retries : Nat) : ∃ last, Decides connect retries last := by
  classical
  have hexists : ∃ k, k = retries ∨ ¬Retriable (connect k) := ⟨retries, .inl rfl⟩
  refine ⟨Nat.find hexists, Nat.find_min' hexists (.inl rfl), fun i hi => ?_, Nat.find_spec hexists⟩
  exact Classical.byContradiction fun hnot => Nat.find_min hexists hi (.inr hnot)

variable {checks connect}

/-- An attempt that is tried again pauses and goes on, where the pause can be worked out. -/
theorem connectFrom_retriable {attempt : Nat} (pauses : List Nat) (left : Nat) (h : Retriable (connect attempt)) :
    connectFrom checks connect attempt pauses (left + 1) =
      match backoffMs checks attempt with
      | some ms => connectFrom checks connect (attempt + 1) (pauses ++ [ms]) left
      | none => ⟨none, attempt + 1, pauses⟩ := by
  obtain ⟨e, he, hretry⟩ := h
  rw [connectFrom, he]
  exact if_pos hretry

theorem connectFrom_final {attempt : Nat} (pauses : List Nat) (left : Nat) (h : ¬Retriable (connect attempt)) :
    connectFrom checks connect attempt pauses (left + 1) = ⟨some (connect attempt), attempt + 1, pauses⟩ := by
  rw [connectFrom]
  cases hresult : connect attempt with
  | ok ws => rfl
  | error e => exact if_neg fun hretry => h ⟨e, hresult, hretry⟩

theorem connectFrom_eq {last : Nat} (hpauses : checks = false ∨ last ≤ 37) {attempt left : Nat} (pauses : List Nat)
    (hle : attempt ≤ last) (hlast : last ≤ attempt + left) (hbefore : ∀ i < last, Retriable (connect i))
    (hends : last = attempt + left ∨ ¬Retriable (connect last)) :
    connectFrom checks connect attempt pauses left =
      ⟨some (connect last), last + 1, pauses ++ (List.range' attempt (last - attempt)).map pause⟩ := by
  induction left generalizing attempt pauses with
  | zero =>
    obtain rfl : attempt = last := Nat.le_antisymm hle hlast
    rw [Nat.sub_self, List.range'_zero, List.map_nil, List.append_nil]
    rfl
  | succ left ih =>
    by_cases heq : attempt = last
    · subst heq
      have hnot : ¬Retriable (connect attempt) := hends.resolve_left (by omega)
      rw [connectFrom_final pauses left hnot, Nat.sub_self, List.range'_zero, List.map_nil, List.append_nil]
    · have hlt : attempt < last := by omega
      have hpause : backoffMs checks attempt = some (pause attempt) := by
        rcases hpauses with rfl | hfew
        · exact backoffMs_unchecked attempt
        · exact backoffMs_of_lt checks (by omega)
      have hsub : last - attempt = last - (attempt + 1) + 1 := by omega
      rw [connectFrom_retriable pauses left (hbefore attempt hlt), hpause, hsub, List.range'_succ, List.map_cons]
      refine (ih (pauses ++ [pause attempt]) hlt (by omega) (hends.imp_left fun hall => by omega)).trans ?_
      rw [List.append_assoc]
      rfl

theorem connectFrom_panics {last : Nat} (hmany : 37 < last) {attempt left : Nat} (pauses : List Nat) (hle : attempt ≤ 37)
    (hlast : last ≤ attempt + left) (hbefore : ∀ i < last, Retriable (connect i)) :
    connectFrom true connect attempt pauses left =
      ⟨none, 38, pauses ++ (List.range' attempt (37 - attempt)).map pause⟩ := by
  induction left generalizing attempt pauses with
  | zero => omega
  | succ left ih =>
    rw [connectFrom_retriable pauses left (hbefore attempt (by omega))]
    by_cases heq : attempt = 37
    · subst heq
      rw [backoffMs_checked (Nat.le_refl 37), Nat.sub_self, List.range'_zero, List.map_nil, List.append_nil]
    · have hlt : attempt < 37 := by omega
      have hsub : 37 - attempt = 37 - (attempt + 1) + 1 := by omega
      rw [backoffMs_of_lt true hlt, hsub, List.range'_succ, List.map_cons]
      refine (ih (pauses ++ [pause attempt]) hlt (by omega)).trans ?_
      rw [List.append_assoc]
      rfl

variable (checks connect)

/-- The result is that of the attempt that decides, after the pauses that are meant; but with overflow checks it is a panic in the pause after the 38th attempt, if there is one. -/
theorem connectWithRetries_spec (retries : Nat) :
    ∃ last, Decides connect retries last ∧
      connectWithRetries checks connect retries =
        if checks = true ∧ 37 < last then ⟨none, 38, (List.range 37).map pause⟩
        else ⟨some (connect last), last + 1, (List.range last).map pause⟩ := by
  obtain ⟨last, hdecides⟩ := exists_decides connect retries
  have hlast : last ≤ 0 + retries := by
    rw [Nat.zero_add]
    exact hdecides.le
  refine ⟨last, hdecides, ?_⟩
  rw [connectWithRetries, List.range_eq_range', List.range_eq_range']
  split
  · rename_i hpanics
    rw [hpanics.1]
    exact connectFrom_panics hpanics.2 [] (Nat.zero_le 37) hlast hdecides.before
  · rename_i hreturns
    have hpauses : checks = false ∨ last ≤ 37 := by
      cases checks with
      | false => exact .inl rfl
      | true => exact .inr (Nat.le_of_not_lt fun hmany => hreturns ⟨rfl, hmany⟩)
    have hends : last = 0 + retries ∨ ¬Retriable (connect last) := by
      rw [Nat.zero_add]
      exact hdecides.ends
    exact connectFrom_eq hpauses [] (Nat.zero_le last) hlast hdecides.before hends

end Retries

end SpiderChrome.Launch
