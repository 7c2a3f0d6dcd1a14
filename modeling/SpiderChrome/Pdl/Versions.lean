import SpiderChrome.Pdl.Parser

/-!
# Versions

The parser panics at the lines of a version only, since their pattern accepts more digits than a number has: those of any script, and any number of them. `parsePdl_total_iff` says for which texts it returns.
-/

namespace SpiderChrome.Pdl

open Matcher
open NetworkManager (parseU64)

/-! ### Digits -/

/-- The number that decimal digits stand for. -/
def decimalValue (digits : List Char) : Nat := digits.foldl (fun n c => 10 * n + (c.toNat - 48)) 0

/-- ASCII digits of a number that a `usize` holds. -/
def Fits (digits : List Char) : Prop := (∀ c ∈ digits, c.isDigit = true) ∧ decimalValue digits < UInt64.size

theorem digits_of_versionRegex {part : String} {line digits : List Char} (h : versionRegex part line = some digits) :
    digits ≠ [] ∧ ∀ c ∈ digits, isDecimal c = true := by
  obtain ⟨rest, rfl, hrest⟩ := eq_append_of_lit h
  obtain ⟨word, rest', hne, hword, -, hk⟩ := eq_append_of_plus hrest
  cases hk
  exact ⟨hne, hword⟩

theorem parseUsize_of_digits {digits : List Char} (hne : digits ≠ []) (hdigits : ∀ c ∈ digits, isDecimal c = true) :
    (Fits digits ∧ ParseState.parseUsize digits = .ok (decimalValue digits)) ∨
      (¬ Fits digits ∧ ParseState.parseUsize digits = .error .panic) := by
  have hsign : (NetworkUtils.stripPrefix? digits ['+']).getD digits = digits := by
    rw [NetworkUtils.stripPrefix?, if_neg]
    · rfl
    · intro hprefix
      obtain ⟨rest, rfl⟩ := List.isPrefixOf_iff_prefix.1 hprefix
      exact absurd (hdigits '+' List.mem_cons_self) (by decide)
  have hempty : ¬ digits.isEmpty = true := fun h => hne (List.isEmpty_iff.1 h)
  have hall : digits.all Char.isDigit = true ↔ ∀ c ∈ digits, c.isDigit = true := List.all_eq_true
  rw [ParseState.parseUsize, parseU64, hsign]
  dsimp only
  rw [if_neg hempty]
  by_cases hascii : digits.all Char.isDigit = true
  · rw [if_pos hascii]
    by_cases hsize : decimalValue digits < UInt64.size
    · refine .inl ⟨⟨hall.1 hascii, hsize⟩, ?_⟩
      rw [decimalValue] at hsize
      rw [if_pos hsize]
      exact congrArg Except.ok (UInt64.toNat_ofNat_of_lt' hsize)
    · refine .inr ⟨fun h => hsize h.2, ?_⟩
      rw [decimalValue] at hsize
      rw [if_neg hsize]
  · rw [if_neg hascii]
    exact .inr ⟨fun h => hascii (hall.2 h.1), rfl⟩

theorem classify_of_declaration {line : List Char} {kind : Line} (h : classify line = kind)
    (hcomment : ∀ text, kind ≠ .comment text) (hblank : kind ≠ .blank) : classifyDeclaration line = kind := by
  rw [classify] at h
  split at h
  · exact absurd h.symm (hcomment _)
  split at h
  · exact absurd h.symm hblank
  · exact h

theorem versionRegex_of_major {line digits : List Char} (h : classify line = .major digits) :
    versionRegex "major" line = some digits := by
  have hdeclaration := classify_of_declaration h nofun nofun
  rw [classifyDeclaration] at hdeclaration
  repeat' split at hdeclaration
  all_goals first | (cases hdeclaration; done) | (cases hdeclaration; assumption)

theorem versionRegex_of_minor {line digits : List Char} (h : classify line = .minor digits) :
    versionRegex "minor" line = some digits := by
  have hdeclaration := classify_of_declaration h nofun nofun
  rw [classifyDeclaration] at hdeclaration
  repeat' split at hdeclaration
  all_goals first | (cases hdeclaration; done) | (cases hdeclaration; assumption)

/-- The digits of a version line are one or more. -/
theorem digits_of_classify {line digits : List Char} (h : classify line = .major digits ∨ classify line = .minor digits) :
    digits ≠ [] ∧ ∀ c ∈ digits, isDecimal c = true := by
  obtain h | h := h
  · exact digits_of_versionRegex (versionRegex_of_major h)
  · exact digits_of_versionRegex (versionRegex_of_minor h)

/-! ### Steps without a panic -/

variable {A B : Type}

/-- A panic is not among the results. -/
def NoPanic (x : Except Failure A) : Prop := x ≠ .error .panic

theorem NoPanic.ok (a : A) : NoPanic (.ok a) := nofun

theorem NoPanic.pure (a : A) : NoPanic (pure a) := nofun

theorem NoPanic.error (message : String) : NoPanic (.error (.error message) : Except Failure A) := nofun

theorem NoPanic.bind {x : Except Failure A} {f : A → Except Failure B} (hx : NoPanic x) (hf : ∀ a, NoPanic (f a)) :
    NoPanic (x >>= f) := by
  cases x with
  | error failure =>
    cases failure with
    | error message => exact NoPanic.error message
    | panic => exact absurd rfl hx
  | ok a => exact hf a

namespace ParseState

theorem noPanic_bail (lineNum : Nat) (message : String) : NoPanic (bail lineNum message : Except Failure A) := nofun

theorem noPanic_getOrBail (lineNum : Nat) (message : String) (found : Option A) :
    NoPanic (getOrBail lineNum message found) := by
  cases found with
  | none => exact noPanic_bail lineNum message
  | some a => exact NoPanic.ok a

theorem noPanic_addMember (element : Element) (member : Member) : NoPanic (element.addMember member) := by
  rw [Element.addMember.eq_def]
  split
  · exact NoPanic.ok _
  · exact NoPanic.ok _
  · exact NoPanic.ok _
  · split
    · exact NoPanic.error _
    · exact NoPanic.ok _
  · exact NoPanic.error _

theorem noPanic_flush (s : ParseState) : NoPanic s.flush := by
  rw [flush]
  split
  · dsimp only
    split
    · apply NoPanic.bind (noPanic_addMember _ _)
      intro element
      exact NoPanic.pure _
    · exact NoPanic.pure _
  · exact NoPanic.pure s

theorem noPanic_pushMemberVariant (lineNum : Nat) (variant : Variant) (member : Member) :
    NoPanic (pushMemberVariant lineNum variant member) := by
  rw [pushMemberVariant]
  apply NoPanic.bind (noPanic_getOrBail _ _ _)
  intro param
  apply NoPanic.bind
  · rw [pushVariant]
    split
    · exact NoPanic.ok _
    · exact noPanic_bail _ _
  · intro param
    exact NoPanic.pure _

theorem noPanic_pushItemVariant (lineNum : Nat) (variant : Variant) (element : Element) :
    NoPanic (pushItemVariant lineNum variant element) := by
  rw [pushItemVariant.eq_def]
  split
  · split
    · exact NoPanic.ok _
    · exact noPanic_bail _ _
  · exact noPanic_bail _ _

/-- A step panics at the digits of a version only. -/
theorem noPanic_step (lineNum : Nat) (s : ParseState) (line : Line) (hmajor : ∀ digits, line ≠ .major digits)
    (hminor : ∀ digits, line ≠ .minor digits) : NoPanic (s.step lineNum line) := by
  cases line with
  | comment text => exact NoPanic.pure _
  | blank => exact NoPanic.pure _
  | domain header =>
    apply NoPanic.bind (noPanic_flush s)
    intro s
    exact NoPanic.pure _
  | dependsOn name =>
    apply NoPanic.bind (noPanic_getOrBail _ _ _)
    intro d
    exact NoPanic.pure _
  | type header isArray ty =>
    apply NoPanic.bind (noPanic_getOrBail _ _ _)
    intro d
    apply NoPanic.bind (noPanic_flush s)
    intro s
    exact NoPanic.pure _
  | call header isCommand =>
    apply NoPanic.bind (noPanic_getOrBail _ _ _)
    intro d
    apply NoPanic.bind (noPanic_flush s)
    intro s
    exact NoPanic.pure _
  | member line =>
    apply NoPanic.bind (noPanic_getOrBail _ _ _)
    intro d
    apply NoPanic.bind (noPanic_getOrBail _ _ _)
    intro member
    exact NoPanic.pure _
  | declares kind =>
    rw [step]
    split
    · apply NoPanic.bind (noPanic_getOrBail _ _ _)
      intro element
      rw [map_eq_pure_bind, bind_assoc]
      apply NoPanic.bind (noPanic_addMember _ _)
      intro element
      exact NoPanic.pure _
    · exact NoPanic.pure _
  | enum =>
    rw [step]
    split
    · split
      · exact NoPanic.pure _
      · exact noPanic_bail _ _
    · exact noPanic_bail _ _
  | version => exact NoPanic.pure _
  | major digits => exact absurd rfl (hmajor digits)
  | minor digits => exact absurd rfl (hminor digits)
  | redirect domain =>
    rw [step]
    dsimp only
    split
    · exact NoPanic.pure _
    · exact noPanic_bail _ _
    · exact noPanic_bail _ _
  | literal name =>
    rw [step]
    split
    · apply NoPanic.bind (noPanic_getOrBail _ _ _)
      intro member
      apply NoPanic.bind (noPanic_pushMemberVariant _ _ _)
      intro member
      exact NoPanic.pure _
    · apply NoPanic.bind (noPanic_getOrBail _ _ _)
      intro element
      apply NoPanic.bind (noPanic_pushItemVariant _ _ _)
      intro element
      exact NoPanic.pure _
  | unknown line => exact noPanic_bail _ _

/-! ### Version lines -/

/-- A version line is rejected where no version is declared. -/
theorem step_undeclared (lineNum : Nat) {s : ParseState} (h : s.version = none) (digits : List Char) :
    (∃ message, s.step lineNum (.major digits) = .error (.error message)) ∧
      ∃ message, s.step lineNum (.minor digits) = .error (.error message) := by
  rw [step, step, h]
  exact ⟨⟨_, rfl⟩, ⟨_, rfl⟩⟩

theorem step_declared (lineNum : Nat) {s : ParseState} {version : Version} (h : s.version = some version)
    {digits : List Char} {n : Nat} (hdigits : parseUsize digits = .ok n) :
    s.step lineNum (.major digits) = .ok { s with version := some { version with major := n } } ∧
      s.step lineNum (.minor digits) = .ok { s with version := some { version with minor := n } } := by
  rw [step, step, h, hdigits]
  exact ⟨rfl, rfl⟩

theorem step_panics (lineNum : Nat) {s : ParseState} {version : Version} (h : s.version = some version)
    {digits : List Char} (hdigits : parseUsize digits = .error .panic) :
    s.step lineNum (.major digits) = .error .panic ∧ s.step lineNum (.minor digits) = .error .panic := by
  rw [step, step, h, hdigits]
  exact ⟨rfl, rfl⟩

/-- A line panics just when it has digits that do not fit for a version that is declared. -/
theorem stepLine_panic_iff (lineNum : Nat) (s : ParseState) (line : List Char) :
    stepLine lineNum s line = .error .panic ↔
      s.version.isSome = true ∧
        ∃ digits, (classify line = .major digits ∨ classify line = .minor digits) ∧ ¬ Fits digits := by
  rw [stepLine]
  by_cases hversion : ∃ digits, classify line = .major digits ∨ classify line = .minor digits
  · obtain ⟨digits, hline⟩ := hversion
    obtain ⟨hne, hdecimal⟩ := digits_of_classify hline
    have honly : ∀ digits', classify line = .major digits' ∨ classify line = .minor digits' → digits' = digits := by
      intro digits' hline'
      obtain h | h := hline
      · rw [h] at hline'
        obtain h' | h' := hline'
        · cases h'
          rfl
        · cases h'
      · rw [h] at hline'
        obtain h' | h' := hline'
        · cases h'
        · cases h'
          rfl
    have hright : (∃ digits, (classify line = .major digits ∨ classify line = .minor digits) ∧ ¬ Fits digits) ↔
        ¬ Fits digits := by
      constructor
      · rintro ⟨digits', hline', hfits⟩
        rwa [honly digits' hline'] at hfits
      · intro hfits
        exact ⟨digits, hline, hfits⟩
    rw [hright]
    cases hdeclared : s.version with
    | none =>
      obtain ⟨⟨_, hmajor⟩, ⟨_, hminor⟩⟩ := step_undeclared lineNum hdeclared digits
      refine iff_of_false ?_ nofun
      obtain h | h := hline
      · rw [h, hmajor]
        nofun
      · rw [h, hminor]
        nofun
    | some version =>
      obtain ⟨hfits, hparse⟩ | ⟨hfits, hparse⟩ := parseUsize_of_digits hne hdecimal
      · obtain ⟨hmajor, hminor⟩ := step_declared lineNum hdeclared hparse
        refine iff_of_false ?_ fun hnot => hnot.2 hfits
        obtain h | h := hline
        · rw [h, hmajor]
          nofun
        · rw [h, hminor]
          nofun
      · obtain ⟨hmajor, hminor⟩ := step_panics lineNum hdeclared hparse
        refine iff_of_true ?_ ⟨rfl, hfits⟩
        obtain h | h := hline
        · rw [h, hmajor]
        · rw [h, hminor]
  · have hmajor : ∀ digits, classify line ≠ .major digits := fun digits h => hversion ⟨digits, .inl h⟩
    have hminor : ∀ digits, classify line ≠ .minor digits := fun digits h => hversion ⟨digits, .inr h⟩
    refine iff_of_false (noPanic_step lineNum s (classify line) hmajor hminor) ?_
    rintro ⟨-, digits, hline, -⟩
    exact hversion ⟨digits, hline⟩

end ParseState

open ParseState

/-! ### The parser -/

/-- The digits of the version lines that the parser comes to, with a version declared, fit. -/
def VersionsFit (input : String) : Prop :=
  ∀ done line rest s digits, lines input.toList = done ++ line :: rest → run 1 ParseState.new done = .ok s →
    s.version.isSome = true → classify line = .major digits ∨ classify line = .minor digits → Fits digits

/-- The parser returns, and each version line that it comes to is stored or rejected. -/
structure Total (input : String) : Prop where
  returns : parsePdl input ≠ .error .panic
  versions : ∀ done line rest s digits, lines input.toList = done ++ line :: rest →
    run 1 ParseState.new done = .ok s → classify line = .major digits ∨ classify line = .minor digits →
      (∃ message, stepLine (1 + done.length) s line = .error (.error message)) ∨
        ∃ version, s.version = some version ∧
          ((classify line = .major digits ∧ stepLine (1 + done.length) s line =
              .ok { s with version := some { version with major := decimalValue digits } }) ∨
            (classify line = .minor digits ∧ stepLine (1 + done.length) s line =
              .ok { s with version := some { version with minor := decimalValue digits } }))

/-- Only a line makes the parser panic. -/
theorem parsePdl_panic_iff (input : String) :
    parsePdl input = .error .panic ↔ run 1 ParseState.new (lines input.toList) = .error .panic := by
  rw [parsePdl]
  cases run 1 ParseState.new (lines input.toList) with
  | error failure =>
    constructor
    · intro h
      cases h
      rfl
    · intro h
      cases h
      rfl
  | ok s =>
    refine iff_of_false ?_ nofun
    apply NoPanic.bind (noPanic_flush s)
    intro s
    split
    · exact NoPanic.pure _
    · exact NoPanic.error _

theorem returns_iff (input : String) : parsePdl input ≠ .error .panic ↔ VersionsFit input := by
  rw [Ne, parsePdl_panic_iff, run, Scanner.readFrom_error_iff]
  constructor
  · intro h done line rest s digits hlines hrun hdeclared hline
    by_contra hfits
    exact h ⟨done, line, rest, s, hlines, hrun, (stepLine_panic_iff _ s line).2 ⟨hdeclared, digits, hline, hfits⟩⟩
  · rintro h ⟨done, line, rest, s, hlines, hrun, hpanic⟩
    obtain ⟨hdeclared, digits, hline, hfits⟩ := (stepLine_panic_iff _ s line).1 hpanic
    exact hfits (h done line rest s digits hlines hrun hdeclared hline)

theorem parsePdl_total_iff (input : String) : Total input ↔ VersionsFit input := by
  constructor
  · intro h
    exact (returns_iff input).1 h.returns
  · intro h
    refine ⟨(returns_iff input).2 h, ?_⟩
    intro done line rest s digits hlines hrun hline
    cases hdeclared : s.version with
    | none =>
      obtain ⟨hmajor, hminor⟩ := step_undeclared (1 + done.length) hdeclared digits
      rw [stepLine]
      obtain h | h := hline
      · rw [h]
        exact .inl hmajor
      · rw [h]
        exact .inl hminor
    | some version =>
      have hsome : s.version.isSome = true := by
        rw [hdeclared]
        rfl
      have hfits := h done line rest s digits hlines hrun hsome hline
      obtain ⟨hne, hdecimal⟩ := digits_of_classify hline
      obtain ⟨-, hparse⟩ | ⟨hnot, -⟩ := parseUsize_of_digits hne hdecimal
      · obtain ⟨hmajor, hminor⟩ := step_declared (1 + done.length) hdeclared hparse
        refine .inr ⟨version, rfl, ?_⟩
        rw [stepLine]
        obtain h | h := hline
        · rw [h]
          exact .inl ⟨rfl, hmajor⟩
        · rw [h]
          exact .inr ⟨rfl, hminor⟩
      · exact absurd hfits hnot

/-- A number that is too large, and a digit of another script. -/
theorem version_panics :
    parsePdl "version\n  major 18446744073709551616\n" = .error .panic ∧
      parsePdl "version\n  major \u0663\n" = .error .panic ∧ ¬ Total "version\n  major \u0663\n" := by
  have hlarge : parsePdl "version\n  major 18446744073709551616\n" = .error .panic := by
    exact (parsePdl_panic_iff _).2 rfl
  have hscript : parsePdl "version\n  major \u0663\n" = .error .panic := by
    exact (parsePdl_panic_iff _).2 rfl
  exact ⟨hlarge, hscript, fun h => h.returns hscript⟩

end SpiderChrome.Pdl
