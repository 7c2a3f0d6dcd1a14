import SpiderChrome.Library.Literals

/-!
# Generated calls

`evaluation_string` writes its parameters between quotes as they are. The script that it gives calls the function with these parameters just when none of them has a character that means something else in a literal: `evaluationString_carries_iff`.
-/

namespace SpiderChrome

namespace Script

open Literals Unicode

/-! ### The source -/

def quoted (param : List Char) : List Char := '"' :: (param ++ ['"'])

def evaluationString (function : List Char) (params : List (List Char)) : List Char :=
  let params := [','].intercalate (params.map quoted)
  '(' :: (function ++ ")(".toList ++ params ++ [')'])

/-- The script that `Page::expose_function` installs in every document. -/
def exposedScript (name function : List Char) : List Char := evaluationString function ["exposedFun".toList, name]

/-! ### Parameters as data -/

/-- The text is the function in parentheses, with a call of it behind them that has the parameters for its arguments and leaves nothing over. -/
def CarriesParams (text function : List Char) (params : List (List Char)) : Prop :=
  ∃ call, text = '(' :: (function ++ ')' :: call) ∧ readArguments call = some (params.map utf16, [])

/-- The arguments of a generated call, from behind its parenthesis. -/
def arguments (params : List (List Char)) : List Char := [','].intercalate (params.map quoted) ++ [')']

theorem evaluationString_eq (function : List Char) (params : List (List Char)) :
    evaluationString function params = '(' :: (function ++ ')' :: '(' :: arguments params) := by
  simp only [evaluationString, arguments, List.append_assoc]
  rfl

theorem arguments_singleton (param : List Char) : arguments [param] = '"' :: (param ++ '"' :: [')']) := by
  simp only [arguments, quoted, List.map_cons, List.map_nil, List.intercalate_singleton, List.cons_append,
    List.append_assoc, List.nil_append]

theorem arguments_cons (param next : List Char) (params : List (List Char)) :
    arguments (param :: next :: params) = '"' :: (param ++ '"' :: ',' :: arguments (next :: params)) := by
  simp only [arguments, List.map_cons]
  rw [List.intercalate_cons_cons]
  simp only [quoted, List.cons_append, List.append_assoc, List.nil_append]

/-- Arguments begin with the quote of the first literal. -/
theorem arguments_head (param : List Char) (params : List (List Char)) :
    ∃ text, arguments (param :: params) = '"' :: text := by
  cases params with
  | nil => exact ⟨_, arguments_singleton param⟩
  | cons next params => exact ⟨_, arguments_cons param next params⟩

/-- Behind the last literal no other one can end. -/
theorem close_not_slash (value : List UInt16) (rest : List Char) (h : readLiteral [')'] = some (value, rest)) :
    value.getLast? ≠ some 0x5c := by
  rw [readLiteral_plain (by decide), readLiteral] at h
  cases h

/-- Between two literals stands a comma. -/
theorem comma_not_slash (text : List Char) (value : List UInt16) (rest : List Char)
    (h : readLiteral (',' :: '"' :: text) = some (value, rest)) : value.getLast? ≠ some 0x5c := by
  rw [readLiteral_plain (by decide), readLiteral_quote] at h
  cases h
  exact nofun

theorem readList_arguments_iff (params : List (List Char)) :
    readList (arguments params) = some (params.map utf16, []) ↔ ∀ param ∈ params, ∀ c ∈ param, Plain c := by
  induction params with
  | nil => exact iff_of_true (readList_close []) fun param hparam => absurd hparam List.not_mem_nil
  | cons param params ih =>
    rw [List.forall_mem_cons, ← ih]
    cases params with
    | nil =>
      rw [arguments_singleton]
      constructor
      · intro h
        obtain ⟨rest, hliteral⟩ := readLiteral_of_readList h
        exact ⟨(@plain_of_readLiteral rest param _ [] close_not_slash hliteral).2, readList_close []⟩
      · rintro ⟨hplain, -⟩
        rw [readList_quote, readLiteral_of_plain hplain]
        exact continueList_close _ _
    | cons next params =>
      rw [arguments_cons]
      obtain ⟨text, htext⟩ := arguments_head next params
      constructor
      · intro h
        obtain ⟨rest, hliteral⟩ := readLiteral_of_readList h
        have hplain : ∀ c ∈ param, Plain c := by
          rw [htext] at hliteral
          exact (@plain_of_readLiteral rest param _ [] (comma_not_slash text) hliteral).2
        refine ⟨hplain, ?_⟩
        rw [readList_quote, readLiteral_of_plain hplain, Option.bind_some, continueList_comma] at h
        obtain ⟨⟨values, rest'⟩, hlist, heq⟩ := Option.map_eq_some_iff.1 h
        cases heq
        exact hlist
      · rintro ⟨hplain, hlist⟩
        rw [readList_quote, readLiteral_of_plain hplain, Option.bind_some, continueList_comma, hlist]
        rfl

theorem carriesParams_iff (function : List Char) (params : List (List Char)) :
    CarriesParams (evaluationString function params) function params ↔
      readList (arguments params) = some (params.map utf16, []) := by
  rw [evaluationString_eq]
  constructor
  · rintro ⟨call, htext, hcall⟩
    have happend := List.append_cancel_left (List.cons.inj htext).2
    obtain rfl := (List.cons.inj happend).2
    exact hcall
  · intro hcall
    exact ⟨'(' :: arguments params, rfl, hcall⟩

theorem evaluationString_carries_iff (function : List Char) (params : List (List Char)) :
    CarriesParams (evaluationString function params) function params ↔
      ∀ param ∈ params, ∀ c ∈ param, c ≠ '"' ∧ c ≠ '\\' ∧ c ≠ '\n' ∧ c ≠ '\r' := by
  rw [carriesParams_iff, readList_arguments_iff]
  rfl

/-- A name with a quote in it adds an argument to the call. -/
theorem quote_adds_argument :
    exposedScript "a\",\"b".toList "f".toList = "(f)(\"exposedFun\",\"a\",\"b\")".toList ∧
      readArguments "(\"exposedFun\",\"a\",\"b\")".toList =
        some (["exposedFun".toList, ['a'], ['b']].map utf16, []) ∧
      ¬ CarriesParams (exposedScript "a\",\"b".toList "f".toList) "f".toList ["exposedFun".toList, "a\",\"b".toList] := by
  have hplain : ["exposedFun".toList, ['a'], ['b']].all (fun param => param.all fun c => decide (Plain c)) = true := by
    decide
  have hthree : readArguments "(\"exposedFun\",\"a\",\"b\")".toList =
      some (["exposedFun".toList, ['a'], ['b']].map utf16, []) := by
    refine (readList_arguments_iff ["exposedFun".toList, ['a'], ['b']]).2 ?_
    intro param hparam c hc
    exact of_decide_eq_true (List.all_eq_true.1 (List.all_eq_true.1 hplain param hparam) c hc)
  refine ⟨by decide, hthree, ?_⟩
  rw [exposedScript, carriesParams_iff]
  intro htwo
  have hlength := congrArg (Option.map fun read => read.1.length) (htwo.symm.trans hthree)
  cases hlength

end Script

end SpiderChrome
