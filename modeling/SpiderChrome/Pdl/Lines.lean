import SpiderChrome.Pdl.Printer

/-!
# What the printed lines are taken for

Every line of the layout is of the kind that it is printed as, whatever the names in it are: a name has no white space, so that a flag can be mistaken for a type, or a type for a flag, only where nothing is left for the name.
-/

namespace SpiderChrome.Pdl

open Matcher
open NetworkManager (isWhitespace trim parseU64)

variable {w : List Char}

/-- The letters of a name. -/
structure Solid (w : List Char) : Prop where
  ne_nil : w ≠ []
  noSpace : ∀ c ∈ w, isWhitespace c = false

theorem Word.solid {s : String} (h : Word s) : Solid s.toList := ⟨h.ne_nil, h.noSpace⟩

theorem Solid.notSpace (h : Solid w) : ∀ c ∈ w, notSpace c = true := by
  intro c hc
  rw [Pdl.notSpace, h.noSpace c hc]
  rfl

theorem Solid.space_notMem (h : Solid w) : ' ' ∉ w := by
  intro hmem
  exact absurd (h.noSpace ' ' hmem) (by decide)

theorem Solid.newline_notMem (h : Solid w) : '\n' ∉ w := by
  intro hmem
  exact absurd (h.noSpace '\n' hmem) (by decide)

theorem Solid.notNewline (h : Solid w) : ∀ c ∈ w, notNewline c = true := by
  intro c hc
  apply decide_eq_true
  rintro rfl
  exact h.newline_notMem hc

/-- What stands before the first space, and after it, is known where there is only one. -/
theorem split_space {a b c d : List Char} (ha : ' ' ∉ a) (hb : ' ' ∉ b) (h : a ++ ' ' :: b = c ++ ' ' :: d) :
    a = c ∧ b = d := by
  obtain ⟨hac, -, hbd⟩ := (List.append_cons_inj_of_notMem ha hb).1 h
  exact ⟨hac, hbd⟩

/-! ### The pieces of a line -/

section Pieces

variable {B : Type} {result : B}

theorem star_name {k : List Char → List Char → Option B} (h : Solid w) (hk : k w [] = some result) :
    star notNewline k w = some result := by
  have hstar := @star_append _ _ notNewline k w [] result h.notNewline nofun hk
  rw [List.append_nil] at hstar
  exact hstar

theorem plus_name {k : List Char → List Char → Option B} (h : Solid w) (hk : k w [] = some result) :
    plus notSpace k w = some result := by
  have hplus := @plus_append _ _ notSpace k w [] result h.ne_nil h.notSpace nofun hk
  rw [List.append_nil] at hplus
  exact hplus

theorem opt_flagText {k : Bool → List Char → Option B} {word : String} {text : List Char} (flag : Bool)
    (hskip : ∀ rest, text = word.toList ++ rest → k true rest = none) (hk : k flag text = some result) :
    opt word.toList k (flagText flag word ++ text) = some result := by
  cases flag with
  | true => exact opt_taken hk
  | false => exact (opt_skipped hskip).trans hk

/-- The flags are those that were printed if what follows is not taken for a flag that leads on. -/
theorem flags_text {k : Bool → Bool → List Char → Option B} {text : List Char} (experimental deprecated : Bool)
    (hexperimental : ∀ rest, text = "experimental ".toList ++ rest →
      opt "deprecated ".toList (k true) rest = none)
    (hdeprecated : ∀ rest, text = "deprecated ".toList ++ rest → k experimental true rest = none)
    (hk : k experimental deprecated text = some result) :
    flags k (flagsText experimental deprecated ++ text) = some result := by
  have hinner : opt "deprecated ".toList (k experimental) (flagText deprecated "deprecated " ++ text) = some result :=
    opt_flagText deprecated hdeprecated hk
  rw [flagsText, List.append_assoc, flags]
  refine opt_flagText experimental ?_ hinner
  intro rest heq
  cases deprecated with
  | true => exact absurd (congrArg List.head? heq) (show some 'd' ≠ some 'e' by decide)
  | false => exact hexperimental rest heq

/-- A text without spaces does not lead through two words. -/
theorem plus_space_eq_none {text : List Char} (h : ' ' ∉ text) (k : List Char → List Char → Option B) :
    plus notSpace (fun word => lit " ".toList (k word)) text = none := by
  apply plus_eq_none
  intro word rest heq
  have hrest : ' ' ∉ rest := fun hmem => h (by rw [heq]; exact List.mem_append_right _ hmem)
  exact lit_of_notMem (List.mem_singleton_self ' ') hrest _

theorem opt_of_notMem {s text : List Char} {a : Char} (hs : a ∈ s) (htext : a ∉ text)
    (k : Bool → List Char → Option B) : opt s k text = k false text := by
  rw [opt, lit_of_notMem hs htext]
  rfl

end Pieces

/-! ### The regular expressions -/

theorem domainRegex_text (experimental deprecated : Bool) (h : Solid w) :
    domainRegex (flagsText experimental deprecated ++ ("domain ".toList ++ w)) =
      some ⟨experimental, deprecated, String.ofList w⟩ := by
  apply flags_text
  · intro rest heq
    exact absurd (congrArg List.head? heq) (show some 'd' ≠ some 'e' by decide)
  · intro rest heq
    exact absurd (congrArg (fun text => text[1]?) heq) (show some 'o' ≠ some 'e' by decide)
  · exact star_name h rfl

theorem lit_two {B : Type} (k : List Char → Option B) (text : List Char) :
    lit "  ".toList k (indented 2 text) = k text := rfl

theorem lit_six {B : Type} (k : List Char → Option B) (text : List Char) :
    lit "      ".toList k (indented 6 text) = k text := rfl

theorem dependsRegex_text (h : Solid w) :
    dependsRegex (indented 2 ("depends on ".toList ++ w)) = some (String.ofList w) := by
  have hlit : dependsRegex (indented 2 ("depends on ".toList ++ w)) =
    plus notSpace (fun name _ => some (String.ofList name)) w := rfl
  rw [hlit]
  exact plus_name h rfl

theorem callRegex_command (experimental deprecated : Bool) (h : Solid w) :
    callRegex (indented 2 (flagsText experimental deprecated ++ ("command ".toList ++ w))) =
      some (⟨experimental, deprecated, String.ofList w⟩, true) := by
  rw [callRegex, lit_two]
  apply flags_text
  · intro rest heq
    exact absurd (congrArg List.head? heq) (show some 'c' ≠ some 'e' by decide)
  · intro rest heq
    exact absurd (congrArg List.head? heq) (show some 'c' ≠ some 'd' by decide)
  · apply oneOf_first
    exact star_name h rfl

theorem callRegex_event (experimental deprecated : Bool) (h : Solid w) :
    callRegex (indented 2 (flagsText experimental deprecated ++ ("event ".toList ++ w))) =
      some (⟨experimental, deprecated, String.ofList w⟩, false) := by
  rw [callRegex, lit_two]
  apply flags_text
  · intro rest heq
    exact absurd (congrArg (fun text => text[1]?) heq) (show some 'v' ≠ some 'x' by decide)
  · intro rest heq
    exact absurd (congrArg List.head? heq) (show some 'e' ≠ some 'd' by decide)
  · refine (oneOf_later rfl).trans (oneOf_first ?_)
    exact star_name h rfl

/-- No ` extends ` begins anywhere in the text. -/
def NoExtends (B : Type) (text : List Char) : Prop :=
  ∀ rest, rest <:+ text → ∀ k : List Char → Option B, lit " extends ".toList k rest = none

section NoExtends

variable {B : Type} {text : List Char}

theorem noExtends_of_notMem (h : ' ' ∉ text) : NoExtends B text := by
  intro rest hsuffix k
  exact lit_of_notMem (by decide) (fun hmem => h (hsuffix.subset hmem)) k

/-- A word and a space in front, unless ` extends ` begins with that space. -/
theorem noExtends_word (v : List Char) (hv : ' ' ∉ v)
    (hspace : ∀ k : List Char → Option B, lit "extends ".toList k text = none) (h : NoExtends B text) :
    NoExtends B (v ++ ' ' :: text) := by
  induction v with
  | nil =>
    intro rest hsuffix k
    obtain rfl | hrest := List.suffix_cons_iff.1 hsuffix
    · exact hspace k
    · exact h rest hrest k
  | cons c v ih =>
    have hc : ' ' ≠ c := fun heq => hv (heq ▸ List.mem_cons_self)
    have hrest : ' ' ∉ v := fun hmem => hv (List.mem_cons_of_mem _ hmem)
    intro rest hsuffix k
    obtain rfl | hlater := List.suffix_cons_iff.1 hsuffix
    · exact if_neg hc
    · exact ih hrest rest hlater k

/-- After the name of a type there is one ` extends ` only. -/
theorem noExtends_type (isArray : Bool) {ty : List Char} (hty : ' ' ∉ ty) :
    NoExtends B ("extends ".toList ++ (flagText isArray "array of " ++ ty)) := by
  have hword := @noExtends_of_notMem B _ hty
  have hlast : ∀ k : List Char → Option B, lit "extends ".toList k ty = none := fun k => lit_of_notMem (by decide) hty k
  cases isArray with
  | false => exact noExtends_word "extends".toList (by decide) hlast hword
  | true =>
    have hof : NoExtends B ("of".toList ++ ' ' :: ty) := noExtends_word _ (by decide) hlast hword
    have harray : NoExtends B ("array".toList ++ ' ' :: ("of".toList ++ ' ' :: ty)) :=
      noExtends_word _ (by decide) (fun _ => rfl) hof
    exact noExtends_word "extends".toList (by decide) (fun _ => rfl) harray

end NoExtends

/-- The type of a declaration, after its name. -/
theorem typeRegex_text (experimental deprecated isArray : Bool) {ty : List Char} (h : Solid w) (hty : Solid ty) :
    typeRegex (indented 2 (flagsText experimental deprecated ++ ("type ".toList ++ (w ++ (" extends ".toList ++
      (flagText isArray "array of " ++ ty)))))) =
      some (⟨experimental, deprecated, String.ofList w⟩, isArray, String.ofList ty) := by
  rw [typeRegex, lit_two]
  apply flags_text
  · intro rest heq
    exact absurd (congrArg List.head? heq) (show some 't' ≠ some 'e' by decide)
  · intro rest heq
    exact absurd (congrArg List.head? heq) (show some 't' ≠ some 'd' by decide)
  · rw [lit_append]
    apply star_eq_some h.notNewline
    · intro more rest hne _ heq
      cases more with
      | nil => exact absurd rfl hne
      | cons c more =>
        have hsuffix : rest <:+ "extends ".toList ++ (flagText isArray "array of " ++ ty) :=
          ⟨more, (List.cons.inj heq).2.symm⟩
        exact noExtends_type isArray hty.space_notMem rest hsuffix _
    · rw [lit_append]
      apply opt_flagText
      · intro rest heq
        exact absurd (by rw [heq]; exact List.mem_append_left _ (by decide)) hty.space_notMem
      · exact plus_name hty rfl

/-- What follows the flags of a parameter begins with another flag of one word only if nothing but the name follows that. -/
theorem rest_of_flag (flag word : List Char) {ty rest : List Char} {isArray : Bool} (hty : ' ' ∉ ty) (hw : ' ' ∉ w)
    (hflag : flag = word ++ [' ']) (hfirst : flag.head? ≠ some 'a')
    (h : flagText isArray "array of " ++ (ty ++ ' ' :: w) = flag ++ rest) : rest = w := by
  cases isArray with
  | false =>
    rw [hflag, List.append_assoc] at h
    exact (split_space hty hw h).2.symm
  | true =>
    have hhead := congrArg List.head? h
    rw [hflag] at hfirst hhead
    cases word with
    | nil => exact absurd hhead (show some 'a' ≠ some ' ' by decide)
    | cons c word => exact absurd hhead.symm hfirst

theorem memberRegex_text (experimental deprecated optional isArray : Bool) {ty : List Char} (h : Solid w)
    (hty : Solid ty) :
    memberRegex (indented 6 (flagsText experimental deprecated ++ (flagText optional "optional " ++
      (flagText isArray "array of " ++ (ty ++ ' ' :: w))))) =
      some ⟨experimental, deprecated, optional, isArray, String.ofList ty, String.ofList w⟩ := by
  have hname : ' ' ∉ w := h.space_notMem
  have hword : ' ' ∉ ty := hty.space_notMem
  rw [memberRegex, lit_six]
  -- with a flag that is not there, only the name would be left for the type and the name
  apply flags_text
  · intro rest heq
    cases optional with
    | true => exact absurd (congrArg List.head? heq) (show some 'o' ≠ some 'e' by decide)
    | false =>
      have habsent : flagText isArray "array of " ++ (ty ++ ' ' :: w) = "experimental ".toList ++ rest := heq
      have hrest : rest = w := rest_of_flag _ "experimental".toList hword hname (by decide) (by decide) habsent
      rw [hrest, opt_of_notMem (by decide) hname, opt_of_notMem (by decide) hname, opt_of_notMem (by decide) hname]
      exact plus_space_eq_none hname _
  · intro rest heq
    cases optional with
    | true => exact absurd (congrArg List.head? heq) (show some 'o' ≠ some 'd' by decide)
    | false =>
      have habsent : flagText isArray "array of " ++ (ty ++ ' ' :: w) = "deprecated ".toList ++ rest := heq
      have hrest : rest = w := rest_of_flag _ "deprecated".toList hword hname (by decide) (by decide) habsent
      rw [hrest, opt_of_notMem (by decide) hname, opt_of_notMem (by decide) hname]
      exact plus_space_eq_none hname _
  · apply opt_flagText
    · intro rest heq
      have hrest : rest = w := rest_of_flag "optional ".toList "optional".toList hword hname (by decide) (by decide) heq
      rw [hrest, opt_of_notMem (by decide) hname]
      exact plus_space_eq_none hname _
    · apply opt_flagText
      · intro rest heq
        have hof : "of ".toList ++ rest = w := by
          rw [show "array of ".toList = "array".toList ++ ' ' :: "of ".toList from rfl, List.append_assoc] at heq
          exact (split_space hword hname heq).2.symm
        exact absurd (by rw [← hof]; exact List.mem_append_left _ (by decide)) hname
      · apply plus_append hty.ne_nil hty.notSpace
        · intro c hc
          obtain rfl : ' ' = c := Option.some.inj hc
          decide
        · exact (lit_append " ".toList _ w).trans (plus_name h rfl)

/-! ### Numbers -/

theorem isDecimal_of_isDigit {c : Char} (h : c.isDigit = true) : isDecimal c = true := by
  obtain ⟨hlow, hhigh⟩ := Char.isDigit_iff_toNat.1 h
  apply List.any_eq_true.2
  refine ⟨48, List.mem_cons_self, ?_⟩
  rw [Bool.and_eq_true, decide_eq_true_eq, decide_eq_true_eq]
  exact ⟨hlow, Nat.lt_succ_of_le hhigh⟩

theorem isDigit_toDigits (n : Nat) : ∀ c ∈ Nat.toDigits 10 n, c.isDigit = true := fun _ hc =>
  Nat.isDigit_of_mem_toDigits (by decide) (by decide) hc

theorem versionRegex_text {part word : String} (hword : ("  " ++ part ++ " ").toList = indented 2 word.toList)
    (n : Nat) : versionRegex part (indented 2 (word.toList ++ Nat.toDigits 10 n)) = some (Nat.toDigits 10 n) := by
  have hdigits : ∀ c ∈ Nat.toDigits 10 n, isDecimal c = true := fun c hc =>
    isDecimal_of_isDigit (isDigit_toDigits n c hc)
  have hplus := @plus_append _ _ isDecimal (fun digits _ => some digits) (Nat.toDigits 10 n) [] _ Nat.toDigits_ne_nil
    hdigits nofun rfl
  rw [versionRegex, hword, indented, indented, ← List.append_assoc, lit_append]
  rw [List.append_nil] at hplus
  exact hplus

theorem parseUsize_toDigits {n : Nat} (h : n < 2 ^ 64) : ParseState.parseUsize (Nat.toDigits 10 n) = .ok n := by
  have hsign : NetworkUtils.stripPrefix? (Nat.toDigits 10 n) ['+'] = none := by
    cases hdigits : Nat.toDigits 10 n with
    | nil => exact absurd hdigits Nat.toDigits_ne_nil
    | cons c rest =>
      have hc : c.isDigit = true := isDigit_toDigits n c (by rw [hdigits]; exact List.mem_cons_self)
      apply if_neg
      intro hprefix
      rw [List.isPrefixOf_cons_cons, Bool.and_eq_true, beq_iff_eq] at hprefix
      rw [← hprefix.1] at hc
      exact absurd hc (by decide)
  have hempty : (Nat.toDigits 10 n).isEmpty = false := List.isEmpty_eq_false_iff.2 Nat.toDigits_ne_nil
  have hall : (Nat.toDigits 10 n).all Char.isDigit = true := List.all_eq_true.2 (isDigit_toDigits n)
  have hvalue : (Nat.toDigits 10 n).foldl (fun n c => 10 * n + (c.toNat - 48)) 0 = n := Nat.ofDigitChars_ten_toDigits
  have hparse : parseU64 (Nat.toDigits 10 n) = some (UInt64.ofNat n) := by
    rw [parseU64, hsign, Option.getD_none]
    dsimp only
    rw [hempty, if_neg Bool.false_ne_true, if_pos hall, hvalue]
    exact if_pos h
  rw [ParseState.parseUsize, hparse]
  dsimp only
  rw [UInt64.toNat_ofNat', Nat.mod_eq_of_lt h]

/-! ### The ends of a line -/

/-- A text that begins a declaration. -/
structure Begins (text : List Char) : Prop where
  first : ∃ c, text.head? = some c ∧ isWhitespace c = false ∧ c ≠ '#'
  noNewline : '\n' ∉ text

/-- A text that ends a line. -/
structure Ends (text : List Char) : Prop where
  last : ∃ c, text.getLast? = some c ∧ isWhitespace c = false
  noNewline : '\n' ∉ text

theorem newline_append {a b : List Char} (ha : '\n' ∉ a) (hb : '\n' ∉ b) : '\n' ∉ a ++ b := fun hmem =>
  (List.mem_append.1 hmem).elim ha hb

theorem Begins.append {a b : List Char} (ha : Begins a) (hb : '\n' ∉ b) : Begins (a ++ b) := by
  obtain ⟨c, hhead, hc⟩ := ha.first
  refine ⟨⟨c, ?_, hc⟩, newline_append ha.noNewline hb⟩
  rw [List.head?_append, hhead]
  rfl

theorem Ends.append {a b : List Char} (ha : '\n' ∉ a) (hb : Ends b) : Ends (a ++ b) := by
  obtain ⟨c, hlast, hc⟩ := hb.last
  refine ⟨⟨c, ?_, hc⟩, newline_append ha hb.noNewline⟩
  rw [List.getLast?_append, hlast]
  rfl

theorem Solid.ends (h : Solid w) : Ends w := by
  refine ⟨⟨w.getLast h.ne_nil, List.getLast?_eq_some_getLast h.ne_nil, ?_⟩, h.newline_notMem⟩
  exact h.noSpace _ (List.getLast_mem h.ne_nil)

theorem Word.begins {s : String} (h : Word s) : Begins s.toList := by
  refine ⟨?_, h.solid.newline_notMem⟩
  cases hs : s.toList with
  | nil => exact absurd hs h.ne_nil
  | cons c rest =>
    refine ⟨c, rfl, h.noSpace c (by rw [hs]; exact List.mem_cons_self), ?_⟩
    rintro rfl
    exact h.noComment (by rw [hs]; rfl)

theorem newline_flagText (flag : Bool) {word : String} (h : '\n' ∉ word.toList) : '\n' ∉ flagText flag word := by
  cases flag with
  | true => exact h
  | false => exact List.not_mem_nil

theorem Begins.flagText {text : List Char} (h : Begins text) (flag : Bool) {word : String} (hword : Begins word.toList) :
    Begins (Pdl.flagText flag word ++ text) := by
  cases flag with
  | true => exact hword.append h.noNewline
  | false => exact h

theorem newline_flagsText (experimental deprecated : Bool) : '\n' ∉ flagsText experimental deprecated :=
  newline_append (newline_flagText _ (by decide)) (newline_flagText _ (by decide))

theorem Begins.flagsText {text : List Char} (h : Begins text) (experimental deprecated : Bool) :
    Begins (Pdl.flagsText experimental deprecated ++ text) := by
  rw [Pdl.flagsText, List.append_assoc]
  have hword : Begins "deprecated ".toList := ⟨⟨'d', rfl, by decide⟩, by decide⟩
  exact (h.flagText deprecated hword).flagText experimental ⟨⟨'e', rfl, by decide⟩, by decide⟩

theorem dropWhile_replicate (indent : Nat) (text : List Char) :
    (indented indent text).dropWhile isWhitespace = text.dropWhile isWhitespace := by
  induction indent with
  | zero => rfl
  | succ indent ih =>
    have hspace : isWhitespace ' ' = true := by decide
    rw [indented, List.replicate_succ, List.cons_append, List.dropWhile_cons_of_pos hspace]
    exact ih

theorem dropWhile_of_head {text : List Char} (h : ∀ c ∈ text.head?, isWhitespace c = false) :
    text.dropWhile isWhitespace = text := by
  cases text with
  | nil => rfl
  | cons c rest => exact List.dropWhile_cons_of_neg (by rw [h c rfl]; exact Bool.false_ne_true)

theorem trim_indented (indent : Nat) {text : List Char} (h : Trimmed text) : trim (indented indent text) = text := by
  have hlast : text.reverse.dropWhile isWhitespace = text.reverse := by
    apply dropWhile_of_head
    rw [List.head?_reverse]
    exact h.last
  rw [trim, dropWhile_replicate, dropWhile_of_head h.first, hlast, List.reverse_reverse]

theorem trimmed {text : List Char} (hfirst : Begins text) (hlast : Ends text) : Trimmed text := by
  obtain ⟨c, hhead, hc, -⟩ := hfirst.first
  obtain ⟨d, hend, hd⟩ := hlast.last
  refine ⟨?_, ?_⟩
  · intro a ha
    rw [hhead] at ha
    rw [← Option.some.inj ha]
    exact hc
  · intro a ha
    rw [hend] at ha
    rw [← Option.some.inj ha]
    exact hd

/-! ### The kinds of line -/

theorem classify_declaration (indent : Nat) {text : List Char} (hfirst : Begins text) (hlast : Ends text) :
    classify (indented indent text) = classifyDeclaration (indented indent text) := by
  obtain ⟨c, hhead, -, hcomment⟩ := hfirst.first
  have hne : some c ≠ some '#' := fun heq => hcomment (Option.some.inj heq)
  have hempty : text.isEmpty = false := by
    apply List.isEmpty_eq_false_iff.2
    intro hnil
    rw [hnil] at hhead
    cases hhead
  rw [classify, trim_indented indent (trimmed hfirst hlast), hhead, if_neg hne, hempty, if_neg Bool.false_ne_true]

theorem classify_comment (indent : Nat) {piece : List Char} (h : Trimmed piece) :
    classify (indented indent (commentText piece)) = .comment piece := by
  have htrimmed : Trimmed (commentText piece) := by
    refine ⟨?_, ?_⟩
    · intro c hc
      rw [← Option.some.inj hc]
      decide
    · rw [commentText]
      split
      · intro c hc
        rw [← Option.some.inj hc]
        decide
      · rename_i hne
        rw [List.getLast?_cons_cons, List.getLast?_cons_of_ne_nil hne]
        exact h.last
  rw [classify, trim_indented indent htrimmed]
  have hhead : (commentText piece).head? = some '#' := rfl
  rw [hhead, if_pos rfl]
  congr 1
  rw [commentText, List.tail_cons]
  split
  · rename_i hnil
    rw [hnil]
    rfl
  · rw [List.dropWhile_cons_of_pos (by decide)]
    exact dropWhile_of_head h.first

theorem begins_header {word : String} {name : List Char} (hword : Begins word.toList) (hname : '\n' ∉ name)
    (experimental deprecated : Bool) : Begins (flagsText experimental deprecated ++ (word.toList ++ name)) :=
  (hword.append hname).flagsText experimental deprecated

theorem ends_header {word : String} {name : List Char} (hword : '\n' ∉ word.toList) (hname : Ends name)
    (experimental deprecated : Bool) : Ends (flagsText experimental deprecated ++ (word.toList ++ name)) :=
  (hname.append hword).append (newline_flagsText experimental deprecated)

theorem classify_domain {name : String} (experimental deprecated : Bool) (h : Word name) :
    classify (headerText experimental deprecated "domain " name) = .domain ⟨experimental, deprecated, name⟩ := by
  have hword : Begins "domain ".toList := ⟨⟨'d', rfl, by decide⟩, by decide⟩
  have hdeclaration := classify_declaration 0 (begins_header hword h.solid.newline_notMem experimental deprecated)
    (ends_header hword.noNewline h.solid.ends experimental deprecated)
  refine hdeclaration.trans ?_
  rw [indented, List.replicate_zero, List.nil_append, classifyDeclaration, domainRegex_text _ _ h.solid,
    String.ofList_toList]

theorem classify_dependsOn {name : String} (h : Word name) :
    classify (indented 2 ("depends on ".toList ++ name.toList)) = .dependsOn name := by
  have hword : Begins "depends on ".toList := ⟨⟨'d', rfl, by decide⟩, by decide⟩
  rw [classify_declaration 2 (hword.append h.solid.newline_notMem) (h.solid.ends.append hword.noNewline),
    classifyDeclaration, dependsRegex_text h.solid, String.ofList_toList]
  rfl

/-- A closed name is a word if all its letters are. -/
theorem word_of_all {s : String} (hne : s.toList ≠ []) (hall : s.toList.all Pdl.notSpace = true)
    (hcomment : s.toList.head? ≠ some '#') : Word s := by
  refine ⟨hne, ?_, hcomment⟩
  intro c hc
  have hspace := List.all_eq_true.1 hall c hc
  rw [Pdl.notSpace, Bool.not_eq_true'] at hspace
  exact hspace

theorem word_enum : Word "enum" := word_of_all (by decide) (by decide) (by decide)

namespace PdlType

variable {ty : PdlType}

theorem Plain.word (h : ty.Plain) : Word ty.word := by
  cases ty with
  | enum variants => exact word_enum
  | arrayOf ty => exact h.elim
  | ref name => exact h.1
  | _ => exact word_of_all (by decide) (by decide) (by decide)

theorem Extended.word (h : ty.Extended) : Word ty.word := by
  cases ty with
  | arrayOf ty => exact @Plain.word ty h
  | enum variants => exact word_enum
  | _ => exact Plain.word h

theorem WellFormed.word (h : ty.WellFormed) : Word ty.word := by
  cases ty with
  | enum variants => exact word_enum
  | arrayOf ty =>
    cases ty with
    | enum variants => exact word_enum
    | arrayOf ty => exact h.elim
    | ref name => exact h.1
    | _ => exact word_of_all (by decide) (by decide) (by decide)
  | _ => exact Plain.word h

end PdlType

/-- A declaration that begins with another word, with any flags, names no dependency. -/
theorem dependsRegex_flags (experimental deprecated : Bool) {text : List Char}
    (h : dependsRegex (indented 2 text) = none) :
    dependsRegex (indented 2 (flagsText experimental deprecated ++ text)) = none := by
  cases experimental with
  | true => rfl
  | false =>
    cases deprecated with
    | true => rfl
    | false => exact h

theorem typeHeader_eq (ty : TypeDef) :
    typeHeader ty = flagsText ty.experimental ty.deprecated ++ ("type ".toList ++
      (ty.name.toList ++ (" extends ".toList ++ typeText ty.extendsType))) := by
  rw [typeHeader, headerText, List.append_assoc, List.append_assoc]

theorem ends_typeName {ty : TypeDef} (hname : Word ty.name) (htype : Word ty.extendsType.word) :
    Ends (ty.name.toList ++ (" extends ".toList ++ typeText ty.extendsType)) := by
  have harray : '\n' ∉ flagText ty.extendsType.isArray "array of " := newline_flagText _ (by decide)
  have hends : Ends (" extends ".toList ++ typeText ty.extendsType) :=
    (htype.solid.ends.append harray).append (by decide)
  exact hends.append hname.solid.newline_notMem

theorem ends_typeHeader {ty : TypeDef} (hname : Word ty.name) (htype : Word ty.extendsType.word) :
    Ends (typeHeader ty) := by
  rw [typeHeader_eq]
  exact ends_header (by decide) (ends_typeName hname htype) _ _

theorem begins_typeHeader {ty : TypeDef} (hname : Word ty.name) (htype : Word ty.extendsType.word) :
    Begins (typeHeader ty) := by
  rw [typeHeader_eq]
  exact begins_header ⟨⟨'t', rfl, by decide⟩, by decide⟩ (ends_typeName hname htype).noNewline _ _

theorem classify_type {ty : TypeDef} (hname : Word ty.name) (htype : Word ty.extendsType.word) :
    classify (indented 2 (typeHeader ty)) =
      .type ⟨ty.experimental, ty.deprecated, ty.name⟩ ty.extendsType.isArray ty.extendsType.word := by
  have hregex := typeRegex_text ty.experimental ty.deprecated ty.extendsType.isArray hname.solid htype.solid
  have hdomain : domainRegex (indented 2 (typeHeader ty)) = none := rfl
  have hdepends : dependsRegex (indented 2 (typeHeader ty)) = none := by
    rw [typeHeader_eq]
    exact dependsRegex_flags _ _ rfl
  rw [String.ofList_toList, String.ofList_toList, ← typeText, ← typeHeader_eq] at hregex
  rw [classify_declaration 2 (begins_typeHeader hname htype) (ends_typeHeader hname htype), classifyDeclaration, hdomain,
    hdepends, hregex]

/-- The word of a command or an event. -/
def callWord (isCommand : Bool) : String := if isCommand then "command " else "event "

theorem begins_callWord (isCommand : Bool) : Begins (callWord isCommand).toList := by
  cases isCommand with
  | true => exact ⟨⟨'c', rfl, by decide⟩, by decide⟩
  | false => exact ⟨⟨'e', rfl, by decide⟩, by decide⟩

theorem callRegex_text {name : String} (experimental deprecated isCommand : Bool) (h : Word name) :
    callRegex (indented 2 (headerText experimental deprecated (callWord isCommand) name)) =
      some (⟨experimental, deprecated, name⟩, isCommand) := by
  rw [headerText]
  cases isCommand with
  | true =>
    have hregex := callRegex_command experimental deprecated h.solid
    rw [String.ofList_toList] at hregex
    exact hregex
  | false =>
    have hregex := callRegex_event experimental deprecated h.solid
    rw [String.ofList_toList] at hregex
    exact hregex

/-- A command or an event names no dependency, and is no type. -/
theorem classify_call {name : String} (experimental deprecated isCommand : Bool) (h : Word name) :
    classify (indented 2 (headerText experimental deprecated (callWord isCommand) name)) =
      .call ⟨experimental, deprecated, name⟩ isCommand := by
  have hword := begins_callWord isCommand
  have hdepends : dependsRegex (indented 2 (headerText experimental deprecated (callWord isCommand) name)) = none := by
    apply dependsRegex_flags
    cases isCommand with
    | true => rfl
    | false => rfl
  have htype : typeRegex (indented 2 (headerText experimental deprecated (callWord isCommand) name)) = none := by
    cases isCommand with
    | true =>
      cases experimental with
      | true =>
        cases deprecated with
        | true => rfl
        | false => rfl
      | false =>
        cases deprecated with
        | true => rfl
        | false => rfl
    | false =>
      cases experimental with
      | true =>
        cases deprecated with
        | true => rfl
        | false => rfl
      | false =>
        cases deprecated with
        | true => rfl
        | false => rfl
  have hdomain : domainRegex (indented 2 (headerText experimental deprecated (callWord isCommand) name)) = none := rfl
  have hbegins : Begins (headerText experimental deprecated (callWord isCommand) name) :=
    begins_header hword h.solid.newline_notMem _ _
  have hends : Ends (headerText experimental deprecated (callWord isCommand) name) :=
    ends_header hword.noNewline h.solid.ends _ _
  rw [classify_declaration 2 hbegins hends, classifyDeclaration, hdomain, hdepends, htype, callRegex_text _ _ _ h]

/-- The line of a parameter. -/
theorem begins_memberText {param : Param} (hname : Word param.name) (htype : Word param.ty.word) :
    Begins (memberText param) := by
  have hrest : '\n' ∉ ' ' :: param.name.toList := by
    intro hmem
    exact (List.mem_cons.1 hmem).elim (by decide) hname.solid.newline_notMem
  have htext : Begins (typeText param.ty ++ ' ' :: param.name.toList) := by
    rw [typeText, List.append_assoc]
    exact (htype.begins.append hrest).flagText _ ⟨⟨'a', rfl, by decide⟩, by decide⟩
  have hoptional : Begins "optional ".toList := ⟨⟨'o', rfl, by decide⟩, by decide⟩
  exact (htext.flagText _ hoptional).flagsText _ _

theorem ends_memberText {param : Param} (hname : Word param.name) (htype : Word param.ty.word) :
    Ends (memberText param) := by
  have harray : '\n' ∉ flagText param.ty.isArray "array of " := newline_flagText _ (by decide)
  have htext : '\n' ∉ typeText param.ty ++ [' '] :=
    newline_append (newline_append harray htype.solid.newline_notMem) (by decide)
  have hoptional : '\n' ∉ flagText param.optional "optional " := newline_flagText _ (by decide)
  rw [memberText, List.append_cons]
  exact ((hname.solid.ends.append htext).append hoptional).append (newline_flagsText _ _)

theorem classify_member {param : Param} (hname : Word param.name) (htype : Word param.ty.word) :
    classify (indented 6 (memberText param)) =
      .member ⟨param.experimental, param.deprecated, param.optional, param.ty.isArray, param.ty.word, param.name⟩ := by
  have hregex := memberRegex_text param.experimental param.deprecated param.optional param.ty.isArray hname.solid
    htype.solid
  rw [String.ofList_toList, String.ofList_toList, ← List.append_assoc (flagText param.ty.isArray "array of "),
    ← typeText, ← memberText] at hregex
  have hdomain : domainRegex (indented 6 (memberText param)) = none := rfl
  have hdepends : dependsRegex (indented 6 (memberText param)) = none := rfl
  have htypeline : typeRegex (indented 6 (memberText param)) = none := rfl
  have hcall : callRegex (indented 6 (memberText param)) = none := rfl
  rw [classify_declaration 6 (begins_memberText hname htype) (ends_memberText hname htype), classifyDeclaration, hdomain,
    hdepends, htypeline, hcall, hregex]

theorem classify_parameters : classify (indented 4 "parameters".toList) = .declares .parameters := rfl

theorem classify_returns : classify (indented 4 "returns".toList) = .declares .returns := rfl

theorem classify_properties : classify (indented 4 "properties".toList) = .declares .properties := rfl

theorem classify_enum : classify (indented 4 "enum".toList) = .enum := rfl

theorem classify_version : classify "version".toList = .version := rfl

theorem toDigits_ends (n : Nat) : Ends (Nat.toDigits 10 n) := by
  have hsolid : Solid (Nat.toDigits 10 n) := by
    refine ⟨Nat.toDigits_ne_nil, ?_⟩
    intro c hc
    obtain ⟨hlow, hhigh⟩ := Char.isDigit_iff_toNat.1 (isDigit_toDigits n c hc)
    have hrange : 48 ≤ c.toNat ∧ c.toNat ≤ 57 := ⟨hlow, hhigh⟩
    simp [isWhitespace]
    omega
  exact hsolid.ends

/-- A line that none of the tests before those of a version is for. -/
structure Late (line : List Char) : Prop where
  domain : domainRegex line = none
  dependsOn : dependsRegex line = none
  type : typeRegex line = none
  call : callRegex line = none
  member : memberRegex line = none
  declares : sectionRegex line = none
  enum : "    enum".toList.isPrefixOf line = false
  version : "version".toList.isPrefixOf line = false

theorem Late.classifyDeclaration {line : List Char} (h : Late line) :
    classifyDeclaration line =
      if let some digits := versionRegex "major" line then .major digits
      else if let some digits := versionRegex "minor" line then .minor digits
      else if let some domain := redirectRegex line then .redirect domain
      else if (literalRegex line).isSome then .literal (String.ofList (trim line))
      else .unknown line := by
  rw [Pdl.classifyDeclaration, h.domain, h.dependsOn, h.type, h.call, h.member, h.declares, h.enum, h.version]
  rfl

theorem classify_major (n : Nat) :
    classify (indented 2 ("major ".toList ++ Nat.toDigits 10 n)) = .major (Nat.toDigits 10 n) := by
  have hword : Begins "major ".toList := ⟨⟨'m', rfl, by decide⟩, by decide⟩
  have hends := toDigits_ends n
  have hlate : Late (indented 2 ("major ".toList ++ Nat.toDigits 10 n)) := ⟨rfl, rfl, rfl, rfl, rfl, rfl, rfl, rfl⟩
  rw [classify_declaration 2 (hword.append hends.noNewline) (hends.append hword.noNewline), hlate.classifyDeclaration,
    versionRegex_text rfl n]

theorem classify_minor (n : Nat) :
    classify (indented 2 ("minor ".toList ++ Nat.toDigits 10 n)) = .minor (Nat.toDigits 10 n) := by
  have hword : Begins "minor ".toList := ⟨⟨'m', rfl, by decide⟩, by decide⟩
  have hends := toDigits_ends n
  have hlate : Late (indented 2 ("minor ".toList ++ Nat.toDigits 10 n)) := ⟨rfl, rfl, rfl, rfl, rfl, rfl, rfl, rfl⟩
  have hmajor : versionRegex "major" (indented 2 ("minor ".toList ++ Nat.toDigits 10 n)) = none := rfl
  rw [classify_declaration 2 (hword.append hends.noNewline) (hends.append hword.noNewline), hlate.classifyDeclaration,
    hmajor, versionRegex_text rfl n]

theorem classify_redirect {domain : String} (h : Word domain) :
    classify (indented 4 ("redirect ".toList ++ domain.toList)) = .redirect domain := by
  have hword : Begins "redirect ".toList := ⟨⟨'r', rfl, by decide⟩, by decide⟩
  have hlate : Late (indented 4 ("redirect ".toList ++ domain.toList)) := ⟨rfl, rfl, rfl, rfl, rfl, rfl, rfl, rfl⟩
  have hmajor : versionRegex "major" (indented 4 ("redirect ".toList ++ domain.toList)) = none := rfl
  have hminor : versionRegex "minor" (indented 4 ("redirect ".toList ++ domain.toList)) = none := rfl
  have hregex : redirectRegex (indented 4 ("redirect ".toList ++ domain.toList)) = some domain := by
    have hplus := @plus_name _ _ _ (fun name _ => some (String.ofList name)) h.solid rfl
    rw [String.ofList_toList] at hplus
    exact hplus
  rw [classify_declaration 4 (hword.append h.solid.newline_notMem) (h.solid.ends.append hword.noNewline),
    hlate.classifyDeclaration, hmajor, hminor, hregex]

theorem Solid.literal (h : Solid w) : ∀ c ∈ w, decide (c ≠ '\n' ∧ c ≠ '\t') = true := by
  intro c hc
  apply decide_eq_true
  refine ⟨?_, ?_⟩
  · rintro rfl
    exact h.newline_notMem hc
  · rintro rfl
    exact absurd (h.noSpace '\t' hc) (by decide)

/-- A literal has no space, so that it is not a parameter. -/
theorem late_literal_six (h : Solid w) : Late (indented 6 w) := by
  have hmember : memberRegex (indented 6 w) = none := by
    have hspace := h.space_notMem
    rw [memberRegex, lit_six, flags, opt_of_notMem (by decide) hspace, opt_of_notMem (by decide) hspace,
      opt_of_notMem (by decide) hspace, opt_of_notMem (by decide) hspace]
    exact plus_space_eq_none hspace _
  exact ⟨rfl, rfl, rfl, rfl, hmember, rfl, rfl, rfl⟩

theorem late_literal_eight (w : List Char) : Late (indented 8 w) := ⟨rfl, rfl, rfl, rfl, rfl, rfl, rfl, rfl⟩

theorem literalRegex_six (h : Solid w) : (literalRegex (indented 6 w)).isSome = true := by
  have hplus := @plus_append _ _ (fun c => c ≠ '\n' ∧ c ≠ '\t') (fun _ => atEnd ()) w [] _ h.ne_nil h.literal nofun rfl
  rw [List.append_nil] at hplus
  have hskip := @opt_of_notMem _ "  ".toList w ' ' (by decide) h.space_notMem
    (fun _ => plus (fun c => c ≠ '\n' ∧ c ≠ '\t') fun _ => atEnd ())
  rw [literalRegex, lit_six, hskip, hplus]
  rfl

theorem literalRegex_eight (h : Solid w) : (literalRegex (indented 8 w)).isSome = true := by
  have hplus := @plus_append _ _ (fun c => c ≠ '\n' ∧ c ≠ '\t') (fun _ => atEnd ()) w [] _ h.ne_nil h.literal nofun rfl
  rw [List.append_nil] at hplus
  have hindent : literalRegex (indented 8 w) = opt "  ".toList
    (fun _ => plus (fun c => c ≠ '\n' ∧ c ≠ '\t') fun _ => atEnd ()) ("  ".toList ++ w) := rfl
  rw [hindent, opt_taken hplus]
  rfl

theorem classify_literal (indent : Nat) (hindent : indent = 6 ∨ indent = 8) {name : String} (h : Word name) :
    classify (indented indent name.toList) = .literal name := by
  rw [classify_declaration indent h.begins h.solid.ends]
  have htrim : trim (indented indent name.toList) = name.toList := trim_indented indent (trimmed h.begins h.solid.ends)
  obtain rfl | rfl := hindent
  · have hmajor : versionRegex "major" (indented 6 name.toList) = none := rfl
    have hminor : versionRegex "minor" (indented 6 name.toList) = none := rfl
    have hredirect : redirectRegex (indented 6 name.toList) = none := rfl
    rw [(late_literal_six h.solid).classifyDeclaration, hmajor, hminor, hredirect]
    dsimp only
    rw [if_pos (literalRegex_six h.solid), htrim, String.ofList_toList]
  · have hmajor : versionRegex "major" (indented 8 name.toList) = none := rfl
    have hminor : versionRegex "minor" (indented 8 name.toList) = none := rfl
    have hredirect : redirectRegex (indented 8 name.toList) = none := rfl
    rw [(late_literal_eight name.toList).classifyDeclaration, hmajor, hminor, hredirect]
    dsimp only
    rw [if_pos (literalRegex_eight h.solid), htrim, String.ofList_toList]

end SpiderChrome.Pdl
