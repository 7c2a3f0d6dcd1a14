import Mathlib.Data.List.Basic

/-!
# The strings of generated enums

The generator gives every variant of an enum its literal, and accepts the literal in upper camel case and in lower case besides. The patterns of all variants stand in one `match`, so a variant takes every literal that one of its patterns is equal to from the variants after it: `parses_printed_iff`.
-/

namespace SpiderChrome.Pdl

namespace EnumStrings

/-! ### The generated code -/

section Generator

variable (toUpperCamelCase toLowercase : String → String)

/-- The name of the variant of a literal. -/
def generateEnumFieldName (name : String) : String :=
  match name with
  | "Self" => "KSelf"
  | _ => toUpperCamelCase name

/-- The patterns of a literal. -/
def strValues (name : String) : List String :=
  let vars := [name]
  let lc := toLowercase name
  let cc := generateEnumFieldName toUpperCamelCase name
  let vars := if cc ≠ lc ∧ name ≠ cc then vars ++ [cc] else vars
  if name ≠ lc then vars ++ [lc] else vars

/-- The arms of the enum's `from_str`, each a variant with its patterns. -/
def generateEnumStrFns (vars : List String) (strVals : List (List String)) : List (String × List String) :=
  vars.zip strVals

def generateEnum (literals : List String) : List (String × List String) :=
  generateEnumStrFns (literals.map (generateEnumFieldName toUpperCamelCase))
    (literals.map (strValues toUpperCamelCase toLowercase))

end Generator

/-- `AsRef<str>`: the first string of the variant. -/
def asRef (arms : List (String × List String)) (var : String) : Option String :=
  (arms.find? fun arm => arm.1 = var).bind fun arm => arm.2.head?

/-- `FromStr`: the first arm with a pattern for the string. -/
def fromStr (arms : List (String × List String)) (s : String) : Except String String :=
  match arms.find? fun arm => s ∈ arm.2 with
  | some arm => .ok arm.1
  | none => .error s

/-- Every variant is parsed from the string that it prints as. -/
def ParsesPrinted (arms : List (String × List String)) : Prop :=
  ∀ var ∈ arms.map Prod.fst, ∃ s, asRef arms var = some s ∧ fromStr arms s = .ok var

/-! ### The patterns -/

variable {toUpperCamelCase toLowercase : String → String} {literals : List String}

theorem mem_strValues_iff (name s : String) :
    s ∈ strValues toUpperCamelCase toLowercase name ↔
      s = name ∨ s = generateEnumFieldName toUpperCamelCase name ∨ s = toLowercase name := by
  rw [strValues]
  generalize generateEnumFieldName toUpperCamelCase name = cc
  generalize toLowercase name = lc
  -- A form that is left out is another one of the three.
  split_ifs with hlc hcc hcc
  · grind
  · grind
  · grind
  · grind

theorem head?_strValues (name : String) : (strValues toUpperCamelCase toLowercase name).head? = some name := by
  rw [strValues]
  split_ifs
  all_goals rfl

/-- The arm of a literal. -/
def arm (toUpperCamelCase toLowercase : String → String) (name : String) : String × List String :=
  (generateEnumFieldName toUpperCamelCase name, strValues toUpperCamelCase toLowercase name)

theorem generateEnum_eq (literals : List String) :
    generateEnum toUpperCamelCase toLowercase literals = literals.map (arm toUpperCamelCase toLowercase) :=
  List.zip_map'

/-! ### The first arm -/

variable {arms : List (String × List String)} {a : String × List String}

/-- Where the variants differ, a variant finds its own arm. -/
theorem find?_variant (hnodup : (arms.map Prod.fst).Nodup) (ha : a ∈ arms) :
    arms.find? (fun arm => arm.1 = a.1) = some a := by
  induction arms with
  | nil => exact absurd ha List.not_mem_nil
  | cons first arms ih =>
    rw [List.map_cons, List.nodup_cons] at hnodup
    rw [List.find?_cons]
    by_cases hsame : first.1 = a.1
    · obtain rfl | hrest := List.mem_cons.1 ha
      · rw [decide_eq_true rfl]
      · refine absurd ?_ hnodup.1
        rw [hsame]
        exact List.mem_map_of_mem hrest
    · rw [decide_eq_false hsame]
      obtain rfl | hrest := List.mem_cons.1 ha
      · exact absurd rfl hsame
      · exact ih hnodup.2 hrest

theorem fromStr_cons (first : String × List String) (arms : List (String × List String)) (s : String) :
    fromStr (first :: arms) s = if s ∈ first.2 then .ok first.1 else fromStr arms s := by
  rw [fromStr, fromStr, List.find?_cons]
  by_cases h : s ∈ first.2
  · rw [if_pos h, decide_eq_true h]
  · rw [if_neg h, decide_eq_false h]

/-- Each arm is the first one with its own string just when none before it has the string too. -/
theorem fromStr_own_iff {own : String × List String → String} (hown : ∀ arm ∈ arms, own arm ∈ arm.2)
    (hnodup : (arms.map Prod.fst).Nodup) :
    (∀ arm ∈ arms, fromStr arms (own arm) = .ok arm.1) ↔ arms.Pairwise fun earlier later => own later ∉ earlier.2 := by
  induction arms with
  | nil => exact iff_of_true (fun arm harm => absurd harm List.not_mem_nil) List.Pairwise.nil
  | cons first arms ih =>
    rw [List.map_cons, List.nodup_cons] at hnodup
    rw [List.forall_mem_cons] at hown
    rw [List.pairwise_cons, ← ih hown.2 hnodup.2, List.forall_mem_cons]
    have hfirst : fromStr (first :: arms) (own first) = .ok first.1 := by
      rw [fromStr_cons, if_pos hown.1]
    have hlater : ∀ arm ∈ arms, fromStr (first :: arms) (own arm) = .ok arm.1 ↔
        own arm ∉ first.2 ∧ fromStr arms (own arm) = .ok arm.1 := by
      intro arm harm
      rw [fromStr_cons]
      by_cases htaken : own arm ∈ first.2
      · rw [if_pos htaken]
        refine iff_of_false ?_ fun h => h.1 htaken
        intro hsame
        apply hnodup.1
        rw [Except.ok.inj hsame]
        exact List.mem_map_of_mem harm
      · rw [if_neg htaken]
        exact (and_iff_right htaken).symm
    constructor
    · rintro ⟨-, h⟩
      exact ⟨fun arm harm => ((hlater arm harm).1 (h arm harm)).1, fun arm harm => ((hlater arm harm).1 (h arm harm)).2⟩
    · rintro ⟨htaken, h⟩
      exact ⟨hfirst, fun arm harm => (hlater arm harm).2 ⟨htaken arm harm, h arm harm⟩⟩

/-! ### Parsing what is printed -/

/-- The string that a variant prints as. -/
def printed (arm : String × List String) : String := arm.2.headD ""

theorem printed_arm (name : String) : printed (arm toUpperCamelCase toLowercase name) = name := by
  have hhead := @head?_strValues toUpperCamelCase toLowercase name
  rw [printed, List.headD_eq_head?_getD, arm, hhead]
  rfl

theorem parsesPrinted_iff (hnodup : (arms.map Prod.fst).Nodup) (hne : ∀ arm ∈ arms, arm.2 ≠ []) :
    ParsesPrinted arms ↔ ∀ arm ∈ arms, fromStr arms (printed arm) = .ok arm.1 := by
  rw [ParsesPrinted, List.forall_mem_map]
  refine forall₂_congr ?_
  intro arm harm
  obtain ⟨s, strs, hstrs⟩ := List.exists_cons_of_ne_nil (hne arm harm)
  have hasRef : asRef arms arm.1 = some (printed arm) := by
    rw [asRef, find?_variant hnodup harm, Option.bind_some, printed, hstrs]
    rfl
  rw [hasRef]
  constructor
  · rintro ⟨_, hs, hparse⟩
    cases hs
    exact hparse
  · intro hparse
    exact ⟨_, rfl, hparse⟩

/-- Enums parse what they print just when no literal is another form of one before it. -/
theorem parses_printed_iff (toUpperCamelCase toLowercase : String → String) {literals : List String}
    (hnodup : (literals.map (generateEnumFieldName toUpperCamelCase)).Nodup) :
    ParsesPrinted (generateEnum toUpperCamelCase toLowercase literals) ↔
      literals.Pairwise fun earlier later =>
        later ≠ generateEnumFieldName toUpperCamelCase earlier ∧ later ≠ toLowercase earlier := by
  have hvariants : ((literals.map (arm toUpperCamelCase toLowercase)).map Prod.fst).Nodup := by
    rw [List.map_map]
    exact hnodup
  have hown : ∀ a ∈ literals.map (arm toUpperCamelCase toLowercase), printed a ∈ a.2 := by
    rw [List.forall_mem_map]
    intro name _
    rw [printed_arm, arm, mem_strValues_iff]
    exact .inl rfl
  have hne : ∀ a ∈ literals.map (arm toUpperCamelCase toLowercase), a.2 ≠ [] := fun a ha =>
    List.ne_nil_of_mem (hown a ha)
  have hdistinct := List.pairwise_map.1 hnodup
  rw [generateEnum_eq, parsesPrinted_iff hvariants hne, fromStr_own_iff hown hvariants, List.pairwise_map]
  simp only [printed_arm]
  simp only [arm, mem_strValues_iff, not_or]
  constructor
  · intro h
    exact h.imp And.right
  · intro h
    refine hdistinct.imp₂ ?_ h
    rintro earlier later hne hforms
    refine ⟨?_, hforms⟩
    rintro rfl
    exact hne rfl

/-! ### ASCII literals -/

/-- `to_upper_camel_case` for ASCII letters and digits: a word begins behind a separator, at a capital behind a small letter, and at the last capital of several if a small letter follows. -/
def upperCamel : Option Char → List Char → List Char
  | _, [] => []
  | prev, c :: rest =>
    if !c.isAlphanum then upperCamel none rest
    else
      let begins := match prev with
        | none => true
        | some p => c.isUpper && (!p.isUpper || rest.head?.any Char.isLower)
      (if begins then c.toUpper else c.toLower) :: upperCamel (some c) rest

def asciiUpperCamelCase (name : String) : String := String.ofList (upperCamel none name.toList)

def asciiLowercase (name : String) : String := String.ofList (name.toList.map Char.toLower)

/-- Literals that differ in more than their case. -/
theorem distinct_parsed :
    ParsesPrinted (generateEnum asciiUpperCamelCase asciiLowercase ["sameOrigin", "cross-origin"]) :=
  (parses_printed_iff asciiUpperCamelCase asciiLowercase (by decide)).2 (by decide)

/-- A literal in small letters behind one with a capital. -/
theorem shadowed_literal :
    (["fooBar", "foobar"].map (generateEnumFieldName asciiUpperCamelCase)) = ["FooBar", "Foobar"] ∧
      asRef (generateEnum asciiUpperCamelCase asciiLowercase ["fooBar", "foobar"]) "Foobar" = some "foobar" ∧
      fromStr (generateEnum asciiUpperCamelCase asciiLowercase ["fooBar", "foobar"]) "foobar" = .ok "FooBar" ∧
      ¬ ParsesPrinted (generateEnum asciiUpperCamelCase asciiLowercase ["fooBar", "foobar"]) := by
  have hparsed : fromStr (generateEnum asciiUpperCamelCase asciiLowercase ["fooBar", "foobar"]) "foobar" =
      .ok "FooBar" := by
    decide
  have hprinted : asRef (generateEnum asciiUpperCamelCase asciiLowercase ["fooBar", "foobar"]) "Foobar" =
      some "foobar" := by
    decide
  refine ⟨by decide, hprinted, hparsed, ?_⟩
  intro h
  obtain ⟨s, hs, hparse⟩ := h "Foobar" (by decide)
  rw [hprinted] at hs
  cases hs
  rw [hparsed] at hparse
  revert hparse
  decide

end EnumStrings

end SpiderChrome.Pdl
