import Mathlib.Data.List.ModifyLast
import SpiderChrome.Pdl.Lines

/-!
# What the parser makes of the printed lines

Each printed piece is read to what it was printed from: a description by the line below it, a literal by its parameter or type, a parameter by its section, a section by its element, and an element by its domain. What is under way is added to the domain only when the next element begins, so that a state stands for the domains that it has when that is done.
-/

namespace SpiderChrome.Pdl

open Scanner
open ParseState (stepLine)

/-! ### Descriptions -/

theorem foldl_appendComment (text : List Char) (pieces : List (List Char)) :
    pieces.foldl (fun description piece => some (ParseState.appendComment description piece))
      (some (String.ofList text)) = some (String.ofList (['\n'].intercalate (text :: pieces))) := by
  induction pieces generalizing text with
  | nil => rw [List.foldl_nil, List.intercalate_singleton]
  | cons piece pieces ih =>
    have happend : ParseState.appendComment (some (String.ofList text)) piece =
        String.ofList (text ++ '\n' :: piece) := by
      apply String.toList_inj.1
      simp [ParseState.appendComment]
    have hjoin : ['\n'].intercalate ((text ++ '\n' :: piece) :: pieces) =
        ['\n'].intercalate (text :: piece :: pieces) := by
      cases pieces with
      | nil => simp
      | cons next pieces => simp
    rw [List.foldl_cons, happend, ih, hjoin]

/-- The pieces of a description are put together again. -/
theorem foldl_pieces (text : String) :
    (text.toList.splitOn '\n').foldl (fun description piece => some (ParseState.appendComment description piece)) none =
      some text := by
  have hjoin : ['\n'].intercalate (text.toList.splitOn '\n') = text.toList := List.intercalate_splitOn '\n'
  cases hpieces : text.toList.splitOn '\n' with
  | nil => exact absurd hpieces (List.splitOn_ne_nil _ _)
  | cons piece pieces =>
    rw [hpieces] at hjoin
    have hfold := foldl_appendComment piece pieces
    rw [hjoin, String.ofList_toList] at hfold
    exact hfold

theorem read_comments (indent : Nat) {pieces : List (List Char)} (h : ∀ piece ∈ pieces, Trimmed piece) (place : Nat)
    (s : ParseState) :
    readFrom stepLine place s (pieces.map fun piece => indented indent (commentText piece)) =
      .ok { s with
        description := pieces.foldl (fun description piece => some (ParseState.appendComment description piece))
          s.description } := by
  induction pieces generalizing place s with
  | nil => rfl
  | cons piece pieces ih =>
    obtain ⟨hpiece, hpieces⟩ := List.forall_mem_cons.1 h
    have hstep : stepLine place s (indented indent (commentText piece)) =
        .ok { s with description := some (ParseState.appendComment s.description piece) } := by
      rw [stepLine, classify_comment indent hpiece]
      rfl
    rw [List.map_cons, readFrom, hstep]
    exact ih hpieces _ _

section Described

variable {before after : ParseState → Prop} {description : Option String}

theorem read_description (indent : Nat) (h : Description description) {s : ParseState} (hs : s.description = none)
    (place : Nat) :
    readFrom stepLine place s (commentLines indent description) = .ok { s with description := description } := by
  cases description with
  | none =>
    obtain ⟨protocolDescription, domains, description, version, element, member, memberEnum⟩ := s
    cases hs
    rfl
  | some text =>
    have hread := read_comments indent (h text rfl) place s
    rw [hs, foldl_pieces] at hread
    exact hread

/-- A description is read together with the line below it. -/
theorem leads_described (indent : Nat) {line : List Char} (h : Description description)
    (hquiet : ∀ s, before s → s.description = none)
    (hline : ∀ s, before s → ∃ s', after s' ∧
      ∀ place, stepLine place { s with description := description } line = .ok s') :
    Leads stepLine before (commentLines indent description ++ [line]) after := by
  intro s hs
  obtain ⟨s', hafter, hstep⟩ := hline s hs
  refine ⟨s', hafter, ?_⟩
  intro place
  rw [readFrom_append, read_description indent h (hquiet s hs)]
  exact (readFrom_singleton _ _ _).trans (hstep _)

end Described

theorem leads_blank (before : ParseState → Prop) : Leads stepLine before [[]] before :=
  Leads.single fun s hs => ⟨s, hs, fun _ => rfl⟩

/-! ### Parameters -/

/-- What is read before the domains. -/
structure Front where
  protocolDescription : Option String
  version : Option Version

/-- What is under way, with no description that waits for an element. -/
def Within (front : Front) (domains : List Domain) (element : Option Element) (member : Option Member)
    (s : ParseState) : Prop :=
  ∃ memberEnum, s = ⟨front.protocolDescription, domains, none, front.version, element, member, memberEnum⟩

/-- Behind a parameter that is an enumeration with these literals so far. -/
def AtLiterals (front : Front) (domains : List Domain) (element : Option Element) (kind : Section) (params : List Param)
    (param : Param) (variants : List Variant) (s : ParseState) : Prop :=
  s = ⟨front.protocolDescription, domains, none, front.version, element,
    some ⟨kind, params ++ [{ param with ty := .enum variants }]⟩, true⟩

section Params

variable {front : Front} {domains : List Domain} {element : Option Element} {kind : Section}

theorem Within.quiet {member : Option Member} :
    ∀ s, Within front domains element member s → s.description = none := by
  rintro s ⟨memberEnum, rfl⟩
  rfl

theorem pushMemberVariant_concat (lineNum : Nat) (variant : Variant) (kind : Section) (params : List Param)
    (param : Param) (variants : List Variant) :
    ParseState.pushMemberVariant lineNum variant ⟨kind, params ++ [{ param with ty := .enum variants }]⟩ =
      .ok ⟨kind, params ++ [{ param with ty := .enum (variants ++ [variant]) }]⟩ := by
  have hlast : (params ++ [{ param with ty := PdlType.enum variants }]).getLast? =
    some { param with ty := .enum variants } := List.getLast?_concat
  have hmodify : (params ++ [{ param with ty := PdlType.enum variants }]).modifyLast
      (fun _ => { param with ty := PdlType.enum (variants ++ [variant]) }) =
    params ++ [{ param with ty := .enum (variants ++ [variant]) }] := List.modifyLast_concat _ _ _
  rw [← hmodify, ParseState.pushMemberVariant]
  dsimp only
  rw [hlast]
  rfl

theorem leads_memberVariant {params : List Param} {param : Param} (variants : List Variant) {variant : Variant}
    (h : variant.WellFormed) :
    Leads stepLine (AtLiterals front domains element kind params param variants) (variantLines 8 variant)
      (AtLiterals front domains element kind params param (variants ++ [variant])) := by
  apply leads_described 8 h.description
  · rintro s rfl
    rfl
  · rintro s rfl
    refine ⟨_, rfl, ?_⟩
    intro place
    rw [stepLine, classify_literal 8 (.inr rfl) h.name]
    have hpush := pushMemberVariant_concat place ⟨variant.description, variant.name⟩ kind params param variants
    rw [ParseState.step]
    dsimp only
    rw [if_pos rfl, ParseState.getOrBail]
    dsimp only [bind, Except.bind]
    rw [hpush]
    rfl

/-- A parameter as its line alone says. -/
def Param.bare (param : Param) : Param := { param with ty := .new param.ty.word param.ty.isArray }

theorem stepLine_member {d : Domain} {params : List Param} {param : Param} (hdomain : domains.getLast? = some d)
    (h : param.WellFormed d.name) (memberEnum : Bool) (place : Nat) :
    stepLine place ⟨front.protocolDescription, domains, param.description, front.version, element,
        some ⟨kind, params⟩, memberEnum⟩ (indented 6 (memberText param)) =
      .ok ⟨front.protocolDescription, domains, none, front.version, element, some ⟨kind, params ++ [param.bare]⟩,
        if param.ty.word = "enum" then true else memberEnum⟩ := by
  obtain ⟨hraw, hcircular⟩ := h.derived
  rw [stepLine, classify_member h.name h.ty.word, ParseState.step]
  dsimp only
  rw [hdomain, Param.bare, hraw, hcircular]
  rfl

theorem leads_member {d : Domain} {param : Param} (hdomain : domains.getLast? = some d) (h : param.WellFormed d.name)
    (params : List Param) :
    Leads stepLine (Within front domains element (some ⟨kind, params⟩))
      (commentLines 6 param.description ++ [indented 6 (memberText param)])
      (fun s => Within front domains element (some ⟨kind, params ++ [param.bare]⟩) s ∧
        (param.ty.word = "enum" → s.memberEnum = true)) := by
  apply leads_described 6 h.description Within.quiet
  rintro s ⟨memberEnum, rfl⟩
  refine ⟨_, ?_, stepLine_member hdomain h memberEnum⟩
  exact ⟨⟨_, rfl⟩, fun henum => if_pos henum⟩

/-- A name that is no keyword is a reference. -/
theorem PdlType.named_ref {name : String} (h : name ∉ keywords) : named name = ref name := by
  have hne : ∀ word ∈ keywords, ¬ name = word := by
    rintro word hword rfl
    exact h hword
  rw [named, if_neg (hne _ (by decide)), if_neg (hne _ (by decide)), if_neg (hne _ (by decide)),
    if_neg (hne _ (by decide)), if_neg (hne _ (by decide)), if_neg (hne _ (by decide)), if_neg (hne _ (by decide)),
    if_neg (hne _ (by decide))]

theorem PdlType.Plain.named_word {ty : PdlType} (h : ty.Plain) : named ty.word = ty := by
  cases ty with
  | enum variants =>
    rw [show variants = [] from h]
    rfl
  | arrayOf ty => exact h.elim
  | ref name => exact named_ref h.2
  | _ => rfl

theorem PdlType.Extended.new_word {ty : PdlType} (h : ty.Extended) : new ty.word ty.isArray = ty := by
  cases ty with
  | enum variants => exact @Plain.named_word (enum variants) h
  | arrayOf ty => exact congrArg arrayOf (@Plain.named_word ty h)
  | ref name => exact @Plain.named_word (ref name) h
  | _ => rfl

/-- A parameter without literals has a type that may be extended. -/
theorem PdlType.WellFormed.extended {ty : PdlType} (h : ty.WellFormed) (hliterals : ty.literals = []) :
    ty.Extended := by
  cases ty with
  | enum variants => exact hliterals
  | arrayOf ty =>
    cases ty with
    | enum variants => exact hliterals
    | _ => exact h
  | _ => exact h

theorem PdlType.WellFormed.eq_enum {ty : PdlType} (h : ty.WellFormed) (hliterals : ty.literals ≠ []) :
    ty = enum ty.literals ∨ ty = arrayOf (enum ty.literals) := by
  cases ty with
  | enum variants => exact .inl rfl
  | arrayOf ty =>
    cases ty with
    | enum variants => exact .inr rfl
    | arrayOf ty => exact h.elim
    | _ => exact absurd rfl hliterals
  | _ => exact absurd rfl hliterals

theorem leads_param {d : Domain} {param : Param} (hdomain : domains.getLast? = some d) (h : param.WellFormed d.name)
    (harray : ¬ param.isEnumArray) (params : List Param) :
    Leads stepLine (Within front domains element (some ⟨kind, params⟩)) (paramLines param)
      (Within front domains element (some ⟨kind, params ++ [param]⟩)) := by
  have hline := @leads_member front domains element kind d param hdomain h params
  rw [paramLines, List.append_cons]
  by_cases hliterals : param.ty.literals = []
  · have hbare : param.bare = param := by rw [Param.bare, (h.ty.extended hliterals).new_word]
    rw [hliterals, List.flatMap_nil, List.append_nil]
    rw [hbare] at hline
    exact hline.mono (fun _ hs => hs) fun _ hs => hs.1
  · have henum : param.ty = .enum param.ty.literals := by
      obtain henum | henum := h.ty.eq_enum hliterals
      · exact henum
      · exact absurd ⟨_, hliterals, henum⟩ harray
    have hbare : param.bare = { param with ty := .enum [] } := by
      rw [Param.bare, henum]
      rfl
    have hvariants : ∀ variant ∈ param.ty.literals, variant.WellFormed := by
      have hty := h.ty
      rw [henum] at hty
      exact hty
    have hstage := Leads.flatMap (fun done variant hvariant =>
      @leads_memberVariant front domains element kind params param done variant (hvariants variant hvariant)) []
    rw [hbare] at hline
    refine (hline.mono (fun _ hs => hs) ?_).append (hstage.mono (fun _ hs => hs) ?_)
    · rintro s ⟨⟨memberEnum, rfl⟩, hmemberEnum⟩
      obtain rfl : memberEnum = true := hmemberEnum (by rw [henum]; rfl)
      rfl
    · rintro s rfl
      refine ⟨true, ?_⟩
      rw [List.nil_append, ← henum]

end Params

/-! ### Sections -/

/-- The element with the section that is under way. -/
def Element.finish (element : Element) : Option Member → Except Failure Element
  | some member => element.addMember member
  | none => .ok element

/-- What is under way makes up the element. -/
def Building (front : Front) (domains : List Domain) (target : Element) (s : ParseState) : Prop :=
  ∃ element member, element.finish member = .ok target ∧ Within front domains (some element) member s

/-- The parameters that are read back, in a domain of the name. -/
def Readable (domain : String) (params : List Param) : Prop :=
  ∀ param ∈ params, param.WellFormed domain ∧ ¬ param.isEnumArray

section Sections

variable {front : Front} {domains : List Domain} {d : Domain} {target target' : Element}

theorem leads_declares {word : String} {kind : Section} (hword : classify (indented 4 word.toList) = .declares kind) :
    Leads stepLine (Building front domains target) [indented 4 word.toList]
      (Within front domains (some target) (some ⟨kind, []⟩)) := by
  apply Leads.single
  rintro s ⟨element, member, hfinish, memberEnum, rfl⟩
  refine ⟨_, ⟨memberEnum, rfl⟩, ?_⟩
  intro place
  rw [stepLine, hword, ParseState.step]
  cases member with
  | none =>
    rw [← Except.ok.inj hfinish]
    rfl
  | some member =>
    have hadd : element.addMember member = .ok target := hfinish
    dsimp only [ParseState.getOrBail, bind, Except.bind]
    rw [hadd]
    rfl

theorem leads_params (hdomain : domains.getLast? = some d) {element : Option Element} {kind : Section}
    {params : List Param} (h : Readable d.name params) :
    Leads stepLine (Within front domains element (some ⟨kind, []⟩)) (params.flatMap paramLines)
      (Within front domains element (some ⟨kind, params⟩)) := by
  have hstage := Leads.flatMap (fun done param hparam =>
    @leads_param front domains element kind d param hdomain (h param hparam).1 (h param hparam).2 done) []
  exact hstage

theorem leads_section {word : String} {kind : Section} {params : List Param}
    (hword : classify (indented 4 word.toList) = .declares kind) (hdomain : domains.getLast? = some d)
    (h : Readable d.name params) (hadd : target.addMember ⟨kind, params⟩ = .ok target') :
    Leads stepLine (Building front domains target) (indented 4 word.toList :: params.flatMap paramLines)
      (Building front domains target') := by
  apply (leads_declares hword).cons
  apply (leads_params hdomain h).mono (fun _ hs => hs)
  intro s hs
  exact ⟨target, some ⟨kind, params⟩, hadd, hs⟩

/-- A section that is left out changes nothing. -/
theorem leads_sectionLines {word : String} {kind : Section} {params : List Param}
    (hword : classify (indented 4 word.toList) = .declares kind) (hdomain : domains.getLast? = some d)
    (h : Readable d.name params) (hadd : target.addMember ⟨kind, params⟩ = .ok target')
    (hempty : params = [] → target' = target) :
    Leads stepLine (Building front domains target) (sectionLines word params) (Building front domains target') := by
  rw [sectionLines]
  split
  · rename_i hnil
    rw [hempty hnil]
    exact Leads.nil fun _ hs => hs
  · exact leads_section hword hdomain h hadd

end Sections

/-! ### Types -/

section Types

variable {front : Front} {domains : List Domain} {d : Domain}

/-- A type with literals as its item. -/
def TypeDef.withEnum (ty : TypeDef) (variants : List Variant) : Element :=
  .type { ty with item := some (.enum variants) }

theorem leads_enum {ty : TypeDef} (hitem : ty.item = none) :
    Leads stepLine (Within front domains (some (.type ty)) none) [indented 4 "enum".toList]
      (fun s => Within front domains (some (ty.withEnum [])) none s ∧ s.memberEnum = false) := by
  apply Leads.single
  rintro s ⟨memberEnum, rfl⟩
  refine ⟨_, ⟨⟨false, rfl⟩, rfl⟩, ?_⟩
  intro place
  rw [stepLine, classify_enum, ParseState.step]
  dsimp only
  rw [hitem]
  rfl

theorem leads_itemVariant {ty : TypeDef} (variants : List Variant) {variant : Variant} (h : variant.WellFormed) :
    Leads stepLine
      (fun s => Within front domains (some (ty.withEnum variants)) none s ∧ s.memberEnum = false)
      (variantLines 6 variant)
      (fun s => Within front domains (some (ty.withEnum (variants ++ [variant]))) none s ∧ s.memberEnum = false) := by
  apply leads_described 6 h.description
  · rintro s ⟨hs, -⟩
    exact Within.quiet s hs
  · rintro s ⟨⟨memberEnum, rfl⟩, rfl⟩
    refine ⟨_, ⟨⟨false, rfl⟩, rfl⟩, ?_⟩
    intro place
    rw [stepLine, classify_literal 6 (.inl rfl) h.name]
    rfl

theorem leads_itemLines {ty : TypeDef} (hdomain : domains.getLast? = some d) (h : ty.WellFormed d.name)
    (hparams : Readable d.name (Element.type ty).params) :
    Leads stepLine (Within front domains (some (.type { ty with item := none })) none) (itemLines ty.item)
      (Building front domains (.type ty)) := by
  have hsame : ∀ item, ty.item = item → { ty with item := item } = ty := by
    rintro item rfl
    rfl
  cases hitem : ty.item with
  | none =>
    apply Leads.nil
    intro s hs
    rw [hsame none hitem] at hs
    exact ⟨.type ty, none, rfl, hs⟩
  | some item =>
    have heta := hsame (some item) hitem
    cases item with
    | enum variants =>
      have hstage := Leads.flatMap (fun done variant hvariant =>
        @leads_itemVariant front domains { ty with item := none } done variant (h.enum variants hitem variant hvariant))
        []
      refine (leads_enum rfl).cons (hstage.mono (fun _ hs => hs) ?_)
      rintro s ⟨hs, -⟩
      refine ⟨.type ty, none, rfl, ?_⟩
      rw [← heta]
      exact hs
    | properties params =>
      have hreadable : Readable d.name params := by
        rw [Element.params, hitem] at hparams
        exact hparams
      have hadd : (Element.type { ty with item := none }).addMember ⟨.properties, params⟩ = .ok (.type ty) := by
        rw [← heta]
        rfl
      apply (leads_section classify_properties hdomain hreadable hadd).mono _ (fun _ hs => hs)
      intro s hs
      exact ⟨_, none, rfl, hs⟩

end Types

/-! ### Commands -/

/-- What is left of a redirect. -/
def Redirect.readBack (redirect : Redirect) : Redirect := { redirect with name := none }

def Command.readBack (cmd : Command) : Command := { cmd with redirect := cmd.redirect.map Redirect.readBack }

section Commands

variable {front : Front} {domains : List Domain} {d : Domain}

/-- The description is taken for the redirect, so that no name is found in it. -/
theorem leads_redirectLines {cmd : Command} (hnone : cmd.redirect = none) {redirect : Option Redirect}
    (h : ∀ r ∈ redirect, r.WellFormed) :
    Leads stepLine (Within front domains (some (.command cmd)) none) (redirectLines redirect)
      (Building front domains (.command { cmd with redirect := redirect.map Redirect.readBack })) := by
  cases redirect with
  | none =>
    apply Leads.nil
    intro s hs
    refine ⟨.command cmd, none, ?_, hs⟩
    rw [Option.map_none, ← hnone]
    rfl
  | some redirect =>
    obtain ⟨hdescription, hword, -⟩ := h redirect rfl
    apply leads_described 4 hdescription Within.quiet
    rintro s ⟨memberEnum, rfl⟩
    refine ⟨_, ⟨_, none, rfl, memberEnum, rfl⟩, ?_⟩
    intro place
    rw [stepLine, classify_redirect hword]
    rfl

theorem leads_commandBody {cmd : Command} (hdomain : domains.getLast? = some d) (h : cmd.WellFormed d.name)
    (hparams : Readable d.name (Element.command cmd).params) :
    Leads stepLine
      (Within front domains (some (.command { cmd with redirect := none, parameters := [], returns := [] })) none)
      (redirectLines cmd.redirect ++ (sectionLines "parameters" cmd.parameters ++ sectionLines "returns" cmd.returns))
      (Building front domains (.command cmd.readBack)) := by
  have hparameters : Readable d.name cmd.parameters := fun param hparam => hparams param (List.mem_append_left _ hparam)
  have hreturns : Readable d.name cmd.returns := fun param hparam => hparams param (List.mem_append_right _ hparam)
  apply (leads_redirectLines rfl h.redirect).append
  apply (leads_sectionLines classify_parameters hdomain hparameters rfl ?_).append
  · apply leads_sectionLines classify_returns hdomain hreturns rfl
    intro hnil
    rw [Command.readBack, hnil]
  · intro hnil
    rw [hnil]

end Commands

end SpiderChrome.Pdl
