import Mathlib.Data.List.Basic

/-!
# Scanners

A scanner goes through a list with a step that may fail, and that is given the place of what it reads. `Leads` says what the reading of a piece of the list does, wherever the piece stands, and `Fails` that it is not read at all. Both are put together from the pieces of the piece.
-/

namespace Scanner

variable {S A B E : Type}

/-- The list is read from a state, its first entry at the place. -/
def readFrom (step : Nat → S → A → Except E S) : Nat → S → List A → Except E S
  | _, s, [] => pure s
  | place, s, a :: rest => do
    let s ← step place s a
    readFrom step (place + 1) s rest

/-- From a state before, the piece is read to a state after, the same at every place. -/
def Leads (step : Nat → S → A → Except E S) (before : S → Prop) (piece : List A) (after : S → Prop) : Prop :=
  ∀ s, before s → ∃ s', after s' ∧ ∀ place, readFrom step place s piece = .ok s'

/-- From a state before, the piece is not read. -/
def Fails (step : Nat → S → A → Except E S) (before : S → Prop) (piece : List A) : Prop :=
  ∀ s, before s → ∀ place, ∃ error, readFrom step place s piece = .error error

variable {step : Nat → S → A → Except E S} {before between after before' after' : S → Prop}
  {piece first second : List A} {a : A}

theorem readFrom_append (place : Nat) (s : S) (first second : List A) :
    readFrom step place s (first ++ second) =
      (readFrom step place s first >>= fun s => readFrom step (place + first.length) s second) := by
  induction first generalizing place s with
  | nil => rfl
  | cons a first ih =>
    rw [List.cons_append, readFrom, readFrom, bind_assoc]
    congr 1
    funext s'
    rw [ih, List.length_cons, Nat.add_assoc, Nat.add_comm 1]

theorem readFrom_singleton (place : Nat) (s : S) (a : A) : readFrom step place s [a] = step place s a := bind_pure _

theorem readFrom_cons (place : Nat) (s : S) (a : A) (rest : List A) :
    readFrom step place s (a :: rest) = (step place s a >>= fun s => readFrom step (place + 1) s rest) := rfl

/-- What a step preserves holds after a reading, of the state and of what is gathered from the entries. -/
theorem readFrom_invariant {G : Type} {gather : G → A → G} {P : G → S → Prop}
    (hstep : ∀ place g s a s', P g s → step place s a = .ok s' → P (gather g a) s') {items : List A} {place : Nat}
    {g : G} {s s' : S} (h : P g s) (hread : readFrom step place s items = .ok s') : P (items.foldl gather g) s' := by
  induction items generalizing place g s with
  | nil =>
    cases hread
    exact h
  | cons a items ih =>
    rw [readFrom_cons] at hread
    cases hs : step place s a with
    | error error =>
      rw [hs] at hread
      cases hread
    | ok next =>
      rw [hs] at hread
      exact ih (hstep place g s a next h hs) hread

/-- A reading fails at one of the entries. -/
theorem readFrom_error_iff {items : List A} {place : Nat} {s : S} {error : E} :
    readFrom step place s items = .error error ↔
      ∃ done a rest s', items = done ++ a :: rest ∧ readFrom step place s done = .ok s' ∧
        step (place + done.length) s' a = .error error := by
  induction items generalizing place s with
  | nil =>
    refine iff_of_false nofun ?_
    rintro ⟨done, a, rest, s', hitems, -⟩
    exact List.append_ne_nil_of_right_ne_nil done (List.cons_ne_nil a rest) hitems.symm
  | cons first items ih =>
    rw [readFrom_cons]
    constructor
    · intro h
      cases hstep : step place s first with
      | error e =>
        rw [hstep] at h
        cases h
        exact ⟨[], first, items, s, rfl, rfl, hstep⟩
      | ok next =>
        rw [hstep] at h
        obtain ⟨done, a, rest, s', rfl, hdone, hfail⟩ := ih.1 h
        refine ⟨first :: done, a, rest, s', rfl, ?_, ?_⟩
        · rw [readFrom_cons, hstep]
          exact hdone
        · rw [List.length_cons, Nat.add_comm done.length, ← Nat.add_assoc]
          exact hfail
    · rintro ⟨done, a, rest, s', hitems, hdone, hfail⟩
      cases done with
      | nil =>
        cases hitems
        cases hdone
        rw [List.length_nil, Nat.add_zero] at hfail
        rw [hfail]
        rfl
      | cons d done =>
        cases hitems
        rw [readFrom_cons] at hdone
        cases hstep : step place s first with
        | error e =>
          rw [hstep] at hdone
          cases hdone
        | ok next =>
          rw [hstep] at hdone
          rw [List.length_cons, Nat.add_comm done.length, ← Nat.add_assoc] at hfail
          exact ih.2 ⟨done, a, rest, s', rfl, hdone, hfail⟩

/-! ### What is read -/

theorem Leads.nil (h : ∀ s, before s → after s) : Leads step before [] after := by
  intro s hs
  exact ⟨s, h s hs, fun _ => rfl⟩

theorem Leads.single (h : ∀ s, before s → ∃ s', after s' ∧ ∀ place, step place s a = .ok s') :
    Leads step before [a] after := by
  intro s hs
  obtain ⟨s', hafter, hstep⟩ := h s hs
  refine ⟨s', hafter, ?_⟩
  intro place
  rw [readFrom_singleton, hstep]

theorem Leads.append (hfirst : Leads step before first between) (hsecond : Leads step between second after) :
    Leads step before (first ++ second) after := by
  intro s hs
  obtain ⟨s', hbetween, hread⟩ := hfirst s hs
  obtain ⟨s'', hafter, hrest⟩ := hsecond s' hbetween
  refine ⟨s'', hafter, ?_⟩
  intro place
  rw [readFrom_append, hread]
  exact hrest _

theorem Leads.cons (hfirst : Leads step before [a] between) (hsecond : Leads step between second after) :
    Leads step before (a :: second) after :=
  hfirst.append hsecond

theorem Leads.mono (h : Leads step before piece after) (hbefore : ∀ s, before' s → before s)
    (hafter : ∀ s, after s → after' s) : Leads step before' piece after' := by
  intro s hs
  obtain ⟨s', hs', hread⟩ := h s (hbefore s hs)
  exact ⟨s', hafter s' hs', hread⟩

/-- A list of pieces is read one after the other, if the reading of each adds it to what is done. -/
theorem Leads.flatMap {stage : List B → S → Prop} {pieces : B → List A} {xs : List B}
    (h : ∀ done, ∀ x ∈ xs, Leads step (stage done) (pieces x) (stage (done ++ [x]))) (done : List B) :
    Leads step (stage done) (xs.flatMap pieces) (stage (done ++ xs)) := by
  induction xs generalizing done with
  | nil => exact Leads.nil fun s hs => by rw [List.append_nil]; exact hs
  | cons x xs ih =>
    have hrest := ih (fun done y hy => h done y (List.mem_cons_of_mem _ hy)) (done ++ [x])
    rw [List.append_assoc, List.singleton_append] at hrest
    exact (h done x List.mem_cons_self).append hrest

/-! ### What is not read -/

theorem Fails.append (h : Fails step before first) (second : List A) : Fails step before (first ++ second) := by
  intro s hs place
  obtain ⟨error, hread⟩ := h s hs place
  refine ⟨error, ?_⟩
  rw [readFrom_append, hread]
  rfl

/-- What is not read from any state is not read after anything else. -/
theorem Fails.after_any (h : Fails step (fun _ => True) second) (first : List A) :
    Fails step (fun _ => True) (first ++ second) := by
  intro s _ place
  rw [readFrom_append]
  cases hread : readFrom step place s first with
  | error error => exact ⟨error, rfl⟩
  | ok s' => exact h s' trivial _

theorem Fails.cons_any (h : Fails step (fun _ => True) second) (a : A) : Fails step (fun _ => True) (a :: second) :=
  h.after_any [a]

theorem Fails.flatMap {pieces : B → List A} {xs : List B} {x : B} (hx : x ∈ xs)
    (h : Fails step (fun _ => True) (pieces x)) : Fails step (fun _ => True) (xs.flatMap pieces) := by
  obtain ⟨first, last, rfl⟩ := List.append_of_mem hx
  rw [List.flatMap_append, List.flatMap_cons]
  exact (h.append _).after_any _

end Scanner
