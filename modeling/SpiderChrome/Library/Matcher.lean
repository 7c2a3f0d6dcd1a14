import Mathlib.Data.List.Basic

/-!
# Backtracking matchers

The pieces of a regular expression, as functions of what is left of the text. Each is given what to do with the rest, and tries its own alternatives in the order of a leftmost-first matcher: an optional piece is taken first, and a repetition is first as long as it can be. The rules say when a piece takes just what it is meant to take.
-/

namespace Matcher

variable {A B : Type}

section Literals

variable [DecidableEq A]

/-- A literal text. -/
def lit : List A → (List A → Option B) → List A → Option B
  | [], k, text => k text
  | a :: s, k, b :: text => if a = b then lit s k text else none
  | _ :: _, _, [] => none

/-- An optional literal text, and whether it is taken. -/
def opt (s : List A) (k : Bool → List A → Option B) (text : List A) : Option B :=
  (lit s (k true) text).orElse fun _ => k false text

/-- One of several literal texts. -/
def oneOf (words : List (List A)) (k : List A → List A → Option B) (text : List A) : Option B :=
  words.findSome? fun word => lit word (k word) text

/-! ### Literal texts -/

@[simp] theorem lit_append (s : List A) (k : List A → Option B) (text : List A) : lit s k (s ++ text) = k text := by
  induction s with
  | nil => rfl
  | cons a s ih =>
    rw [List.cons_append, lit, if_pos rfl]
    exact ih

/-- A literal text that does not lead on, or is not there, does not match. -/
theorem lit_eq_none {s text : List A} {k : List A → Option B} (h : ∀ rest, text = s ++ rest → k rest = none) :
    lit s k text = none := by
  induction s generalizing text with
  | nil => exact h text rfl
  | cons a s ih =>
    cases text with
    | nil => rfl
    | cons b text =>
      rw [lit]
      split
      · rename_i heq
        apply ih
        intro rest hrest
        exact h rest (by rw [heq, hrest, List.cons_append])
      · rfl

theorem eq_append_of_lit {s text : List A} {k : List A → Option B} {result : B} (h : lit s k text = some result) :
    ∃ rest, text = s ++ rest ∧ k rest = some result := by
  induction s generalizing text with
  | nil => exact ⟨text, rfl, h⟩
  | cons a s ih =>
    cases text with
    | nil => cases h
    | cons b text =>
      rw [lit] at h
      split at h
      · rename_i heq
        obtain ⟨rest, rfl, hk⟩ := ih h
        exact ⟨rest, by rw [heq, List.cons_append], hk⟩
      · cases h

/-- A text that does not have all the letters does not match. -/
theorem lit_of_notMem {s text : List A} {a : A} (hs : a ∈ s) (htext : a ∉ text) (k : List A → Option B) :
    lit s k text = none := by
  apply lit_eq_none
  intro rest hrest
  exact absurd (by rw [hrest]; exact List.mem_append_left _ hs) htext

/-! ### Optional texts -/

theorem opt_taken {s text : List A} {k : Bool → List A → Option B} {result : B} (h : k true text = some result) :
    opt s k (s ++ text) = some result := by
  rw [opt, lit_append, h]
  rfl

theorem opt_skipped {s text : List A} {k : Bool → List A → Option B}
    (h : ∀ rest, text = s ++ rest → k true rest = none) : opt s k text = k false text := by
  rw [opt, lit_eq_none h]
  rfl

/-! ### Alternatives -/

theorem oneOf_first {word : List A} {words : List (List A)} {k : List A → List A → Option B} {text : List A}
    {result : B} (h : lit word (k word) text = some result) : oneOf (word :: words) k text = some result := by
  rw [oneOf, List.findSome?_cons, h]

theorem oneOf_later {word : List A} {words : List (List A)} {k : List A → List A → Option B} {text : List A}
    (h : lit word (k word) text = none) : oneOf (word :: words) k text = oneOf words k text := by
  rw [oneOf, List.findSome?_cons, h]
  rfl

end Literals

/-! ### Repetitions -/

/-- Any number of letters of a class. -/
def star (p : A → Bool) (k : List A → List A → Option B) : List A → Option B
  | [] => k [] []
  | a :: text =>
    if p a then (star p (fun word => k (a :: word)) text).orElse fun _ => k [] (a :: text) else k [] (a :: text)

/-- One or more letters of a class. -/
def plus (p : A → Bool) (k : List A → List A → Option B) : List A → Option B
  | [] => none
  | a :: text => if p a then star p (fun word => k (a :: word)) text else none

/-- A repetition that never leads on does not match. -/
theorem star_eq_none {p : A → Bool} {k : List A → List A → Option B} {text : List A}
    (h : ∀ word rest, (∀ a ∈ word, p a = true) → text = word ++ rest → k word rest = none) :
    star p k text = none := by
  induction text generalizing k with
  | nil => exact h [] [] nofun rfl
  | cons a text ih =>
    have hempty := h [] (a :: text) nofun rfl
    rw [star]
    split
    · rename_i ha
      have hrest : star p (fun word => k (a :: word)) text = none := by
        apply ih
        intro word rest hword heq
        exact h (a :: word) rest (List.forall_mem_cons.2 ⟨ha, hword⟩) (by rw [heq, List.cons_append])
      rw [hrest, hempty]
      rfl
    · exact hempty

/-- A repetition takes a word of its class. -/
theorem eq_append_of_star {p : A → Bool} {k : List A → List A → Option B} {text : List A} {result : B}
    (h : star p k text = some result) :
    ∃ word rest, (∀ a ∈ word, p a = true) ∧ text = word ++ rest ∧ k word rest = some result := by
  induction text generalizing k result with
  | nil => exact ⟨[], [], nofun, rfl, h⟩
  | cons a text ih =>
    rw [star] at h
    split at h
    · rename_i ha
      cases hlonger : star p (fun word => k (a :: word)) text with
      | none =>
        rw [hlonger] at h
        exact ⟨[], a :: text, nofun, rfl, h⟩
      | some longer =>
        rw [hlonger] at h
        obtain ⟨word, rest, hword, rfl, hk⟩ := ih hlonger
        rw [Option.orElse_some] at h
        exact ⟨a :: word, rest, List.forall_mem_cons.2 ⟨ha, hword⟩, rfl, hk.trans h⟩
    · exact ⟨[], a :: text, nofun, rfl, h⟩

theorem eq_append_of_plus {p : A → Bool} {k : List A → List A → Option B} {text : List A} {result : B}
    (h : plus p k text = some result) :
    ∃ word rest, word ≠ [] ∧ (∀ a ∈ word, p a = true) ∧ text = word ++ rest ∧ k word rest = some result := by
  cases text with
  | nil => cases h
  | cons a text =>
    rw [plus] at h
    split at h
    · rename_i ha
      obtain ⟨word, rest, hword, rfl, hk⟩ := eq_append_of_star h
      exact ⟨a :: word, rest, List.cons_ne_nil a word, List.forall_mem_cons.2 ⟨ha, hword⟩, rfl, hk⟩
    · cases h

/-- A repetition takes a word where that leads on and nothing longer does. -/
theorem star_eq_some {p : A → Bool} {k : List A → List A → Option B} {word text : List A} {result : B}
    (hword : ∀ a ∈ word, p a = true)
    (hlonger : ∀ more rest, more ≠ [] → (∀ a ∈ more, p a = true) → text = more ++ rest →
      k (word ++ more) rest = none)
    (hk : k word text = some result) : star p k (word ++ text) = some result := by
  induction word generalizing k with
  | nil =>
    cases text with
    | nil => exact hk
    | cons a text =>
      rw [List.nil_append, star]
      split
      · rename_i ha
        have hmore : star p (fun more => k (a :: more)) text = none := by
          apply star_eq_none
          intro more rest hall heq
          exact hlonger (a :: more) rest (List.cons_ne_nil _ _) (List.forall_mem_cons.2 ⟨ha, hall⟩)
            (by rw [heq, List.cons_append])
        rw [hmore]
        exact hk
      · exact hk
  | cons a word ih =>
    obtain ⟨ha, hrest⟩ := List.forall_mem_cons.1 hword
    rw [List.cons_append, star, if_pos ha, ih hrest hlonger hk]
    rfl

/-- A repetition takes a word that is followed by a letter of another class, or by nothing. -/
theorem star_append {p : A → Bool} {k : List A → List A → Option B} {word text : List A} {result : B}
    (hword : ∀ a ∈ word, p a = true) (hstop : ∀ a ∈ text.head?, p a = false) (hk : k word text = some result) :
    star p k (word ++ text) = some result := by
  refine star_eq_some hword ?_ hk
  intro more rest hne hall heq
  cases more with
  | nil => exact absurd rfl hne
  | cons a more =>
    have hhead : p a = false := hstop a (by rw [heq]; rfl)
    rw [hall a List.mem_cons_self] at hhead
    cases hhead

theorem plus_append {p : A → Bool} {k : List A → List A → Option B} {word text : List A} {result : B}
    (hne : word ≠ []) (hword : ∀ a ∈ word, p a = true) (hstop : ∀ a ∈ text.head?, p a = false)
    (hk : k word text = some result) : plus p k (word ++ text) = some result := by
  cases word with
  | nil => exact absurd rfl hne
  | cons a word =>
    obtain ⟨ha, hrest⟩ := List.forall_mem_cons.1 hword
    rw [List.cons_append, plus, if_pos ha]
    exact star_append hrest hstop hk

theorem plus_eq_none {p : A → Bool} {k : List A → List A → Option B} {text : List A}
    (h : ∀ word rest, text = word ++ rest → k word rest = none) : plus p k text = none := by
  cases text with
  | nil => rfl
  | cons a text =>
    rw [plus]
    split
    · apply star_eq_none
      intro word rest _ heq
      exact h (a :: word) rest (by rw [heq, List.cons_append])
    · rfl

end Matcher
