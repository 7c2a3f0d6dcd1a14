import Mathlib.Data.List.Forall2
import Mathlib.Data.List.ModifyLast
import SpiderChrome.Pdl.Parser

/-!
# Members and their elements

A member section belongs to the element whose header stands before it in its domain. The parser keeps the element and the section in two slots of their own, and takes a section with no element before it, which it then gives to a later element, even to one of another domain. Where there is no such section, all members are where they belong: `members_belong_iff`.
-/

namespace SpiderChrome.Pdl

open List (Forall₂)

/-! ### The lines in blocks -/

/-- The header of a type, a command or an event. -/
def Line.isElement : Line → Bool
  | .type .. => true
  | .call .. => true
  | _ => false

/-- The header of an element, with the lines behind it up to the next header. -/
structure Block where
  header : Line
  body : List Line

/-- The header of a domain, with the lines before its first element and the blocks of its elements. -/
structure DomainBlock where
  header : Header
  head : List Line
  elements : List Block

/-- The lines of a text: those before the first domain, and the blocks of the domains. -/
structure Blocks where
  preamble : List Line
  domains : List DomainBlock

def Block.add (line : Line) (block : Block) : Block := { block with body := block.body ++ [line] }

def DomainBlock.add (line : Line) (block : DomainBlock) : DomainBlock :=
  if line.isElement then { block with elements := block.elements ++ [⟨line, []⟩] }
  else if block.elements.isEmpty then { block with head := block.head ++ [line] }
  else { block with elements := block.elements.modifyLast (Block.add line) }

/-- A line begins a block, or is added to the last one. -/
def Blocks.add (blocks : Blocks) (line : Line) : Blocks :=
  match line with
  | .domain header => { blocks with domains := blocks.domains ++ [⟨header, [], []⟩] }
  | line =>
    if blocks.domains.isEmpty then { blocks with preamble := blocks.preamble ++ [line] }
    else { blocks with domains := blocks.domains.modifyLast (DomainBlock.add line) }

/-- The blocks of a text. -/
def blocksOf (input : String) : Blocks := ((lines input.toList).map classify).foldl Blocks.add ⟨[], []⟩

def Line.isSection : Line → Bool
  | .declares _ => true
  | _ => false

/-- Every section stands behind the header of an element of its domain. -/
structure Blocks.NoOrphan (blocks : Blocks) : Prop where
  preamble : ∀ line ∈ blocks.preamble, line.isSection = false
  head : ∀ block ∈ blocks.domains, ∀ line ∈ block.head, line.isSection = false

instance (blocks : Blocks) : Decidable blocks.NoOrphan :=
  decidable_of_iff ((∀ line ∈ blocks.preamble, line.isSection = false) ∧
    ∀ block ∈ blocks.domains, ∀ line ∈ block.head, line.isSection = false)
    ⟨fun h => ⟨h.1, h.2⟩, fun h => ⟨h.preamble, h.head⟩⟩

def Line.isDomain : Line → Bool
  | .domain _ => true
  | _ => false

/-! ### What comes from a block -/

/-- The parameters of an element in one of the sections. -/
def Element.members (kind : Section) (element : Element) : List Param :=
  match kind, element with
  | .parameters, .command cmd => cmd.parameters
  | .parameters, .event ev => ev.parameters
  | .returns, .command cmd => cmd.returns
  | .properties, .type ty =>
    match ty.item with
    | some (.properties params) => params
    | _ => []
  | _, _ => []

/-- A parameter with the flags and the name of a line. -/
structure Param.MadeFrom (param : Param) (line : MemberLine) : Prop where
  experimental : param.experimental = line.experimental
  deprecated : param.deprecated = line.deprecated
  optional : param.optional = line.optional
  name : param.name = line.name

/-- A line of the parameter stands in a section of the kind. -/
def ComesFrom (kind : Section) (body : List Line) (param : Param) : Prop :=
  ∃ before inner line after, body = before ++ .declares kind :: (inner ++ .member line :: after) ∧
    (∀ l ∈ inner, l.isSection = false) ∧ param.MadeFrom line

/-- The kind of an element, which is a type, a command or else an event, and its name. -/
def Element.heading : Element → Option Bool × String
  | .type ty => (none, ty.name)
  | .command cmd => (some true, cmd.name)
  | .event ev => (some false, ev.name)

def Line.heading : Line → Option (Option Bool × String)
  | .type header _ _ => some (none, header.name)
  | .call header isCommand => some (some isCommand, header.name)
  | _ => none

/-- The block has the header of the element, and its members stand in sections of the block. -/
structure Element.From (element : Element) (block : Block) : Prop where
  header : block.header.heading = some element.heading
  members : ∀ kind, ∀ param ∈ element.members kind, ComesFrom kind block.body param

def Line.isType : Line → Bool
  | .type .. => true
  | _ => false

def Line.isCall (isCommand : Bool) : Line → Bool
  | .call _ command => command == isCommand
  | _ => false

/-- The elements of a domain are those of the blocks, in their order. -/
structure Domain.Holds (domain : Domain) (elements : List Block) : Prop where
  types : Forall₂ (fun ty block => Element.From (.type ty) block) domain.types (elements.filter (·.header.isType))
  commands : Forall₂ (fun cmd block => Element.From (.command cmd) block) domain.commands
    (elements.filter (·.header.isCall true))
  events : Forall₂ (fun ev block => Element.From (.event ev) block) domain.events
    (elements.filter (·.header.isCall false))

structure Domain.From (domain : Domain) (block : DomainBlock) : Prop where
  name : domain.name = block.header.name
  holds : domain.Holds block.elements

/-- The section is the last one of a block so far, and its parameters stand behind it. -/
def Member.From (member : Member) (body : List Line) : Prop :=
  ∃ before inner, body = before ++ .declares member.kind :: inner ∧ (∀ l ∈ inner, l.isSection = false) ∧
    ∀ param ∈ member.params, ∃ line, .member line ∈ inner ∧ param.MadeFrom line

/-! ### Elements and their sections -/

variable {blocks : Blocks} {block : Block} {element element' : Element} {member member' : Member} {line : Line}
  {body : List Line} {domains : List Domain}

theorem ComesFrom.append {kind : Section} {param : Param} (h : ComesFrom kind body param) (more : List Line) :
    ComesFrom kind (body ++ more) param := by
  obtain ⟨before, inner, line, after, rfl, hinner, hmade⟩ := h
  refine ⟨before, inner, line, after ++ more, ?_, hinner, hmade⟩
  simp only [List.append_assoc, List.cons_append]

theorem Element.From.add (h : element.From block) (line : Line) : element.From (block.add line) :=
  ⟨h.header, fun kind param hparam => (h.members kind param hparam).append [line]⟩

theorem Member.From.add (h : member.From body) (hline : line.isSection = false) : member.From (body ++ [line]) := by
  obtain ⟨before, inner, rfl, hinner, hparams⟩ := h
  refine ⟨before, inner ++ [line], ?_, ?_, ?_⟩
  · simp only [List.append_assoc, List.cons_append]
  · intro l hl
    obtain hl | hl := List.mem_append.1 hl
    · exact hinner l hl
    · rw [List.mem_singleton.1 hl]
      exact hline
  · intro param hparam
    obtain ⟨made, hmade, hfrom⟩ := hparams param hparam
    exact ⟨made, List.mem_append_left _ hmade, hfrom⟩

/-- A parameter whose line is the last one belongs to the open section. -/
theorem Member.From.param {param : Param} {made : MemberLine} (h : member.From body) (hmade : param.MadeFrom made) :
    Member.From { member with params := member.params ++ [param] } (body ++ [.member made]) := by
  obtain ⟨before, inner, rfl, hinner, hparams⟩ := h
  refine ⟨before, inner ++ [.member made], ?_, ?_, ?_⟩
  · simp only [List.append_assoc, List.cons_append]
  · intro l hl
    obtain hl | hl := List.mem_append.1 hl
    · exact hinner l hl
    · rw [List.mem_singleton.1 hl]
      rfl
  · intro other hother
    obtain hother | hother := List.mem_append.1 hother
    · obtain ⟨line, hline, hfrom⟩ := hparams other hother
      exact ⟨line, List.mem_append_left _ hline, hfrom⟩
    · rw [List.mem_singleton.1 hother]
      exact ⟨made, List.mem_append_right _ List.mem_cons_self, hmade⟩

theorem Member.From.comesFrom (h : member.From body) : ∀ param ∈ member.params, ComesFrom member.kind body param := by
  intro param hparam
  obtain ⟨before, inner, rfl, hinner, hparams⟩ := h
  obtain ⟨made, hmem, hmade⟩ := hparams param hparam
  obtain ⟨front, back, rfl⟩ := List.append_of_mem hmem
  exact ⟨before, front, made, back, rfl, fun l hl => hinner l (List.mem_append_left _ hl), hmade⟩

/-- A section that begins has no parameters yet. -/
theorem Member.From.new (kind : Section) (body : List Line) : Member.From ⟨kind, []⟩ (body ++ [.declares kind]) :=
  ⟨body, [], rfl, fun _ hl => absurd hl List.not_mem_nil, fun _ hparam => absurd hparam List.not_mem_nil⟩

/-- A section that is added replaces the parameters of its kind, and nothing else. -/
theorem Element.members_addMember (h : element.addMember member = .ok element') :
    element'.heading = element.heading ∧
      ∀ kind, element'.members kind = if kind = member.kind then member.params else element.members kind := by
  obtain ⟨added, params⟩ := member
  cases element with
  | type ty =>
    cases added with
    | parameters => cases h
    | returns => cases h
    | properties =>
      rw [addMember.eq_def] at h
      dsimp only at h
      split at h
      · cases h
      · cases h
        refine ⟨rfl, ?_⟩
        intro kind
        cases kind <;> rfl
  | command cmd =>
    cases added with
    | parameters =>
      cases h
      refine ⟨rfl, ?_⟩
      intro kind
      cases kind <;> rfl
    | returns =>
      cases h
      refine ⟨rfl, ?_⟩
      intro kind
      cases kind <;> rfl
    | properties => cases h
  | event ev =>
    cases added with
    | parameters =>
      cases h
      refine ⟨rfl, ?_⟩
      intro kind
      cases kind <;> rfl
    | returns => cases h
    | properties => cases h

/-- A type whose item is no section has no members. -/
theorem Element.members_type {ty : TypeDef} (h : ∀ params, ty.item ≠ some (.properties params)) (kind : Section) :
    (Element.type ty).members kind = [] := by
  cases kind with
  | properties =>
    rw [members.eq_def]
    dsimp only
    split
    · rename_i hitem
      exact absurd hitem (h _)
    · rfl
  | _ => rfl

theorem Element.From.addMember (h : element.From block) (hmember : member.From block.body)
    (hadd : element.addMember member = .ok element') : element'.From block := by
  obtain ⟨hheading, hmembers⟩ := Element.members_addMember hadd
  refine ⟨hheading ▸ h.header, ?_⟩
  intro kind param hparam
  rw [hmembers kind] at hparam
  split at hparam
  · rename_i hkind
    rw [hkind]
    exact hmember.comesFrom param hparam
  · exact h.members kind param hparam

/-! ### Domains and their elements -/

theorem forall₂_concat {A B : Type} {R : A → B → Prop} {as : List A} {bs : List B} {a : A} {b : B}
    (h : Forall₂ R as bs) (hab : R a b) : Forall₂ R (as ++ [a]) (bs ++ [b]) :=
  List.rel_append h (.cons hab .nil)

theorem forall₂_concat_right {A B : Type} {R : A → B → Prop} {as : List A} {bs : List B} {b : B}
    (h : Forall₂ R as (bs ++ [b])) : ∃ front a, as = front ++ [a] ∧ Forall₂ R front bs ∧ R a b := by
  have hreverse := List.rel_reverse h
  rw [List.reverse_append, List.reverse_singleton, List.singleton_append] at hreverse
  obtain ⟨a, front, hab, hfront, has⟩ := List.forall₂_cons_right_iff.1 hreverse
  refine ⟨front.reverse, a, ?_, ?_, hab⟩
  · rw [← List.reverse_reverse as, has, List.reverse_cons]
  · have hback := List.rel_reverse hfront
    rwa [List.reverse_reverse] at hback

/-- An element with its block is the last one of the domain. -/
theorem Domain.Holds.consume {domain : Domain} {elements : List Block} (h : domain.Holds elements)
    (hfrom : element.From block) : (element.consume domain).Holds (elements ++ [block]) := by
  obtain ⟨header, body⟩ := block
  have hheader := hfrom.header
  cases element with
  | type ty =>
    cases header with
    | type header isArray name =>
      refine ⟨?_, ?_, ?_⟩
      · rw [List.filter_append]
        exact forall₂_concat h.types hfrom
      · rw [List.filter_append]
        exact (List.append_nil _).symm ▸ h.commands
      · rw [List.filter_append]
        exact (List.append_nil _).symm ▸ h.events
    | _ => cases hheader
  | command cmd =>
    cases header with
    | call header isCommand =>
      cases isCommand with
      | true =>
        refine ⟨?_, ?_, ?_⟩
        · rw [List.filter_append]
          exact (List.append_nil _).symm ▸ h.types
        · rw [List.filter_append]
          exact forall₂_concat h.commands hfrom
        · rw [List.filter_append]
          exact (List.append_nil _).symm ▸ h.events
      | false => cases hheader
    | _ => cases hheader
  | event ev =>
    cases header with
    | call header isCommand =>
      cases isCommand with
      | true => cases hheader
      | false =>
        refine ⟨?_, ?_, ?_⟩
        · rw [List.filter_append]
          exact (List.append_nil _).symm ▸ h.types
        · rw [List.filter_append]
          exact (List.append_nil _).symm ▸ h.commands
        · rw [List.filter_append]
          exact forall₂_concat h.events hfrom
    | _ => cases hheader

theorem Domain.From.consume {domain : Domain} {header : Header} {head : List Line} {elements : List Block}
    (h : domain.From ⟨header, head, elements⟩) (hfrom : element.From block) :
    (element.consume domain).From ⟨header, head, elements ++ [block]⟩ := by
  refine ⟨?_, h.holds.consume hfrom⟩
  rw [Element.name_consume]
  exact h.name

/-! ### A line more -/

variable {front : List DomainBlock} {last : DomainBlock} {header : Header} {head : List Line} {elements : List Block}

theorem Blocks.add_of_not_domain (blocks : Blocks) (h : line.isDomain = false) :
    blocks.add line =
      if blocks.domains.isEmpty then { blocks with preamble := blocks.preamble ++ [line] }
      else { blocks with domains := blocks.domains.modifyLast (DomainBlock.add line) } := by
  cases line with
  | domain header => cases h
  | _ => rfl

theorem Blocks.add_last (h : line.isDomain = false) (hblocks : blocks.domains = front ++ [last]) :
    blocks.add line = ⟨blocks.preamble, front ++ [last.add line]⟩ := by
  have hempty : ¬ (front ++ [last]).isEmpty = true := by
    rw [List.isEmpty_iff]
    exact List.append_ne_nil_of_right_ne_nil front (List.cons_ne_nil last [])
  rw [Blocks.add_of_not_domain blocks h, hblocks, if_neg hempty, List.modifyLast_concat]

theorem Blocks.add_preamble (h : line.isDomain = false) (hblocks : blocks.domains = []) :
    blocks.add line = ⟨blocks.preamble ++ [line], []⟩ := by
  rw [Blocks.add_of_not_domain blocks h, hblocks]
  rfl

theorem DomainBlock.add_element (h : line.isElement = true) (block : DomainBlock) :
    block.add line = { block with elements := block.elements ++ [⟨line, []⟩] } := by
  rw [DomainBlock.add, if_pos h]

theorem DomainBlock.add_head (h : line.isElement = false) (hnone : last.elements = []) :
    last.add line = { last with head := last.head ++ [line] } := by
  rw [DomainBlock.add, if_neg (Bool.eq_false_iff.1 h), hnone]
  rfl

theorem DomainBlock.add_body (h : line.isElement = false) :
    (⟨header, head, elements ++ [block]⟩ : DomainBlock).add line = ⟨header, head, elements ++ [block.add line]⟩ := by
  have hempty : ¬ (elements ++ [block]).isEmpty = true := by
    rw [List.isEmpty_iff]
    exact List.append_ne_nil_of_right_ne_nil elements (List.cons_ne_nil block [])
  rw [DomainBlock.add, if_neg (Bool.eq_false_iff.1 h)]
  dsimp only
  rw [if_neg hempty, List.modifyLast_concat]

/-- What has no orphan with a line more has none without it. -/
theorem Blocks.NoOrphan.of_add (h : (blocks.add line).NoOrphan) : blocks.NoOrphan := by
  cases hdomain : line.isDomain with
  | true =>
    cases line with
    | domain header => exact ⟨h.preamble, fun block hblock => h.head block (List.mem_append_left _ hblock)⟩
    | _ => cases hdomain
  | false =>
    obtain hnone | ⟨front, last, hblocks⟩ := List.eq_nil_or_concat blocks.domains
    · rw [Blocks.add_preamble hdomain hnone] at h
      refine ⟨fun l hl => h.preamble l (List.mem_append_left _ hl), ?_⟩
      rw [hnone]
      exact fun block hblock => absurd hblock List.not_mem_nil
    · rw [List.concat_eq_append] at hblocks
      rw [Blocks.add_last hdomain hblocks] at h
      refine ⟨h.preamble, ?_⟩
      rw [hblocks]
      intro block hblock
      obtain hblock | hblock := List.mem_append.1 hblock
      · exact h.head block (List.mem_append_left _ hblock)
      · have hlast := h.head (last.add line) (List.mem_append_right _ List.mem_cons_self)
        rw [List.mem_singleton.1 hblock]
        intro l hl
        apply hlast
        rw [DomainBlock.add]
        split
        · exact hl
        split
        · exact List.mem_append_left _ hl
        · exact hl

/-! ### Where the parser is -/

/-- The parser is before the first element of a domain, or before the first domain, and no section is open; or it is in the last block, whose element is not in its domain yet. -/
inductive Stage (blocks : Blocks) : List Domain → Option Element → Option Member → Prop
  | between {domains : List Domain} (hdomains : Forall₂ Domain.From domains blocks.domains)
      (hnone : ∀ block ∈ blocks.domains.getLast?, block.elements = []) : Stage blocks domains none none
  | within {before : List Domain} {domain : Domain} {front : List DomainBlock} {header : Header} {head : List Line}
      {elements : List Block} {block : Block} {element : Element} {member : Option Member}
      (hblocks : blocks.domains = front ++ [⟨header, head, elements ++ [block]⟩])
      (hfront : Forall₂ Domain.From before front) (hdomain : domain.From ⟨header, head, elements⟩)
      (helement : element.From block) (hmember : ∀ m ∈ member, m.From block.body) :
      Stage blocks (before ++ [domain]) (some element) member

namespace Stage

variable {held held' : Option Element} {opened : Option Member}

/-- A line that is no header and no section leaves the parser where it is. -/
theorem other (h : Stage blocks domains held opened) (hline : line.isDomain = false)
    (hheader : line.isElement = false) (hsection : line.isSection = false) :
    Stage (blocks.add line) domains held opened := by
  cases h with
  | between hdomains hnone =>
    obtain hempty | ⟨front, last, hblocks⟩ := List.eq_nil_or_concat blocks.domains
    · rw [Blocks.add_preamble hline hempty]
      rw [hempty] at hdomains
      exact .between hdomains nofun
    · rw [List.concat_eq_append] at hblocks
      rw [hblocks] at hdomains hnone
      have hlast : last.elements = [] := hnone last List.getLast?_concat
      rw [Blocks.add_last hline hblocks, DomainBlock.add_head hheader hlast]
      obtain ⟨before, domain, rfl, hbefore, hdomain⟩ := forall₂_concat_right hdomains
      refine .between (forall₂_concat hbefore ⟨hdomain.name, hdomain.holds⟩) ?_
      intro block hblock
      rw [List.getLast?_concat] at hblock
      cases hblock
      exact hlast
  | within hblocks hfront hdomain helement hmember =>
    rw [Blocks.add_last hline hblocks, DomainBlock.add_body hheader]
    exact .within rfl hfront hdomain (helement.add line) fun member hm => (hmember member hm).add hsection

/-- The last domain may be changed in what has nothing to do with its elements. -/
theorem mapDomain {f : Domain → Domain} (h : Stage blocks domains held opened)
    (hf : ∀ domain block, Domain.From domain block → (f domain).From block) :
    Stage blocks (domains.modifyLast f) held opened := by
  cases h with
  | between hdomains hnone =>
    refine .between ?_ hnone
    obtain hempty | ⟨front, last, hblocks⟩ := List.eq_nil_or_concat blocks.domains
    · rw [hempty] at hdomains ⊢
      rw [List.forall₂_nil_right_iff.1 hdomains]
      exact .nil
    · rw [List.concat_eq_append] at hblocks
      rw [hblocks] at hdomains ⊢
      obtain ⟨before, domain, rfl, hbefore, hdomain⟩ := forall₂_concat_right hdomains
      rw [List.modifyLast_concat]
      exact forall₂_concat hbefore (hf domain last hdomain)
  | within hblocks hfront hdomain helement hmember =>
    rw [List.modifyLast_concat]
    exact .within hblocks hfront (hf _ _ hdomain) helement hmember

/-- The element may be changed in what is neither its name nor its members. -/
theorem mapElement (h : Stage blocks domains (some element) opened) (hheading : element'.heading = element.heading)
    (hmembers : ∀ kind, element'.members kind = element.members kind) :
    Stage blocks domains (some element') opened := by
  cases h with
  | within hblocks hfront hdomain helement hmember =>
    refine .within hblocks hfront hdomain ⟨?_, ?_⟩ hmember
    · rw [hheading]
      exact helement.header
    · intro kind param hparam
      rw [hmembers kind] at hparam
      exact helement.members kind param hparam

/-- The open section may be changed in the types of its parameters. -/
theorem mapMember (h : Stage blocks domains held (some member))
    (hfrom : ∀ body, member.From body → member'.From body) : Stage blocks domains held (some member') := by
  cases h with
  | within hblocks hfront hdomain helement hmember =>
    refine .within hblocks hfront hdomain helement ?_
    rintro m ⟨⟩
    exact hfrom _ (hmember member rfl)

/-- A parameter is the last one of the open section. -/
theorem param {param : Param} {made : MemberLine} (h : Stage blocks domains held (some member))
    (hmade : param.MadeFrom made) :
    Stage (blocks.add (.member made)) domains held (some { member with params := member.params ++ [param] }) := by
  cases h with
  | within hblocks hfront hdomain helement hmember =>
    rw [Blocks.add_last rfl hblocks, DomainBlock.add_body rfl]
    refine .within rfl hfront hdomain (helement.add _) ?_
    rintro m ⟨⟩
    exact (hmember member rfl).param hmade

/-- A section that begins closes the one that is open. -/
theorem declares {kind : Section} (h : Stage blocks domains held opened)
    (hno : (blocks.add (.declares kind)).NoOrphan)
    (hclose : match opened with
      | some member => ∃ element element', held = some element ∧ element.addMember member = .ok element' ∧
          held' = some element'
      | none => held' = held) :
    Stage (blocks.add (.declares kind)) domains held' (some ⟨kind, []⟩) := by
  cases h with
  | between hdomains hnone =>
    -- there is no element, so that the section would be an orphan
    obtain hempty | ⟨front, last, hblocks⟩ := List.eq_nil_or_concat blocks.domains
    · rw [Blocks.add_preamble rfl hempty] at hno
      cases hno.preamble _ (List.mem_append_right _ List.mem_cons_self)
    · rw [List.concat_eq_append] at hblocks
      rw [hblocks] at hnone
      rw [Blocks.add_last rfl hblocks, DomainBlock.add_head rfl (hnone last List.getLast?_concat)] at hno
      cases hno.head _ (List.mem_append_right _ List.mem_cons_self) _ (List.mem_append_right _ List.mem_cons_self)
  | @within before domain front header head elements block element opened hblocks hfront hdomain helement hmember =>
    rw [Blocks.add_last rfl hblocks, DomainBlock.add_body rfl]
    have hnew : ∀ m ∈ some (⟨kind, []⟩ : Member), m.From (block.add (.declares kind)).body := by
      rintro m ⟨⟩
      exact Member.From.new kind block.body
    cases opened with
    | none =>
      rw [hclose]
      exact .within rfl hfront hdomain (helement.add _) hnew
    | some member =>
      obtain ⟨_, element', ⟨⟩, hadd, rfl⟩ := hclose
      have helement' := helement.addMember (hmember member rfl) hadd
      exact .within rfl hfront hdomain (helement'.add _) hnew

/-- What is under way is finished. -/
theorem flush {s s' : ParseState} (h : Stage blocks s.domains s.element s.member) (hflush : s.flush = .ok s') :
    Forall₂ Domain.From s'.domains blocks.domains ∧ s'.element = none ∧ s'.member = none := by
  obtain ⟨description, domains, text, version, held, opened, memberEnum⟩ := s
  dsimp only at h
  rw [ParseState.flush.eq_def] at hflush
  dsimp only at hflush
  cases h with
  | between hdomains hnone =>
    have hsame : s' = ⟨description, domains, text, version, none, none, memberEnum⟩ := by
      split at hflush
      · rename_i hnone
        cases hnone
      · cases hflush
        rfl
    rw [hsame]
    exact ⟨hdomains, rfl, rfl⟩
  | @within before domain front header head elements block element opened hblocks hfront hdomain helement hmember =>
    rw [List.getLast?_concat] at hflush
    dsimp only at hflush
    have hclosed : ∃ element' : Element, element'.From block ∧
        s' = ⟨description, before ++ [element'.consume domain], text, version, none, none, memberEnum⟩ := by
      cases opened with
      | none =>
        cases hflush
        refine ⟨element, helement, ?_⟩
        rw [List.modifyLast_concat]
      | some member =>
        dsimp only at hflush
        cases hadd : element.addMember member with
        | error failure =>
          rw [hadd] at hflush
          cases hflush
        | ok element' =>
          rw [hadd] at hflush
          cases hflush
          refine ⟨element', helement.addMember (hmember member rfl) hadd, ?_⟩
          rw [List.modifyLast_concat]
    obtain ⟨element', helement', rfl⟩ := hclosed
    rw [hblocks]
    exact ⟨forall₂_concat hfront (hdomain.consume helement'), rfl, rfl⟩

/-- A domain begins, with what was under way finished. -/
theorem beginDomain {domain : Domain} {header : Header} (h : Forall₂ Domain.From domains blocks.domains)
    (hname : domain.name = header.name) (hempty : domain.Holds []) :
    Stage (blocks.add (.domain header)) (domains ++ [domain]) none none := by
  refine .between (forall₂_concat h ⟨hname, hempty⟩) ?_
  intro block hblock
  rw [Blocks.add] at hblock
  dsimp only at hblock
  rw [List.getLast?_concat] at hblock
  cases hblock
  rfl

theorem domains_ne_nil {domain : Domain} (h : Stage blocks domains held opened) (hlast : domains.getLast? = some domain) :
    blocks.domains ≠ [] := by
  intro hnone
  cases h with
  | between hdomains _ =>
    rw [hnone] at hdomains
    rw [List.forall₂_nil_right_iff.1 hdomains] at hlast
    cases hlast
  | within hblocks =>
    rw [hnone] at hblocks
    exact List.append_ne_nil_of_right_ne_nil _ (List.cons_ne_nil _ _) hblocks.symm

/-- An element without members begins, with what was under way finished. -/
theorem beginElement {element : Element} (h : Forall₂ Domain.From domains blocks.domains) (hsome : blocks.domains ≠ [])
    (hline : line.isElement = true) (hheading : line.heading = some element.heading)
    (hempty : ∀ kind, element.members kind = []) : Stage (blocks.add line) domains (some element) none := by
  have hdomain : line.isDomain = false := by
    cases line with
    | domain header => cases hline
    | _ => rfl
  obtain hnone | ⟨front, last, hblocks⟩ := List.eq_nil_or_concat blocks.domains
  · exact absurd hnone hsome
  · rw [List.concat_eq_append] at hblocks
    rw [hblocks] at h
    obtain ⟨before, domain, rfl, hbefore, hlast⟩ := forall₂_concat_right h
    rw [Blocks.add_last hdomain hblocks, DomainBlock.add_element hline]
    refine .within rfl hbefore ⟨hlast.name, hlast.holds⟩ ⟨hheading, ?_⟩ nofun
    intro kind param hparam
    rw [hempty kind] at hparam
    cases hparam

/-- The header of an element finishes what is under way and begins the element. -/
theorem elementHeader {s flushed : ParseState} {last : Domain} {element : Element}
    (h : Stage blocks s.domains s.element s.member) (hlast : s.domains.getLast? = some last)
    (hflush : s.flush = .ok flushed) (hline : line.isElement = true) (hheading : line.heading = some element.heading)
    (hempty : ∀ kind, element.members kind = []) :
    Stage (blocks.add line) flushed.domains (some element) flushed.member := by
  obtain ⟨hdomains, -, hmember⟩ := h.flush hflush
  rw [hmember]
  exact beginElement hdomains (h.domains_ne_nil hlast) hline hheading hempty

end Stage

/-! ### The steps of the parser -/

namespace ParseState

variable {s s' : ParseState} {lineNum : Nat}

theorem ok_of_bind {A B : Type} {x : Except Failure A} {f : A → Except Failure B} {b : B} (h : x >>= f = .ok b) :
    ∃ a, x = .ok a ∧ f a = .ok b := by
  cases x with
  | error failure => cases h
  | ok a => exact ⟨a, rfl, h⟩

theorem some_of_getOrBail {A : Type} {message : String} {found : Option A} {a : A}
    (h : getOrBail lineNum message found = .ok a) : found = some a := by
  cases found with
  | none => cases h
  | some b =>
    cases h
    rfl

/-- A literal that is pushed to a parameter leaves it the one of its line. -/
theorem pushMemberVariant_from {variant : Variant} {member member' : Member} {body : List Line}
    (h : pushMemberVariant lineNum variant member = .ok member') (hfrom : member.From body) : member'.From body := by
  obtain ⟨param, hparam, h⟩ := ok_of_bind h
  obtain ⟨param', hpush, h⟩ := ok_of_bind h
  obtain ⟨front, hparams⟩ := List.getLast?_eq_some_iff.1 (some_of_getOrBail hparam)
  have hsame : ∀ made, param.MadeFrom made → param'.MadeFrom made := by
    intro made hmade
    rw [pushVariant.eq_def] at hpush
    split at hpush
    · cases hpush
      exact ⟨hmade.experimental, hmade.deprecated, hmade.optional, hmade.name⟩
    · cases hpush
  cases h
  obtain ⟨before, inner, hbody, hinner, hfrom⟩ := hfrom
  rw [hparams] at hfrom
  refine ⟨before, inner, hbody, hinner, ?_⟩
  intro other hother
  dsimp only at hother
  rw [hparams, List.modifyLast_concat] at hother
  obtain hother | hother := List.mem_append.1 hother
  · exact hfrom other (List.mem_append_left _ hother)
  · obtain ⟨made, hmem, hmade⟩ := hfrom param (List.mem_append_right _ List.mem_cons_self)
    rw [List.mem_singleton.1 hother]
    exact ⟨made, hmem, hsame made hmade⟩

/-- A literal that is pushed to a type leaves its name and its members. -/
theorem pushItemVariant_same {variant : Variant} {element element' : Element}
    (h : pushItemVariant lineNum variant element = .ok element') :
    element'.heading = element.heading ∧ ∀ kind, element'.members kind = element.members kind := by
  cases element with
  | command cmd => cases h
  | event ev => cases h
  | type ty =>
    rw [pushItemVariant.eq_def] at h
    dsimp only at h
    split at h
    · rename_i hitem
      cases h
      refine ⟨rfl, ?_⟩
      intro kind
      have hnone : ∀ params, ty.item ≠ some (.properties params) := by
        rw [hitem]
        nofun
      rw [Element.members_type hnone]
      exact Element.members_type (by nofun) kind
    · cases h

theorem stage_step {blocks : Blocks} {line : Line} (h : Stage blocks s.domains s.element s.member)
    (hno : (blocks.add line).NoOrphan) (hstep : s.step lineNum line = .ok s') :
    Stage (blocks.add line) s'.domains s'.element s'.member := by
  cases line with
  | comment text =>
    cases hstep
    exact h.other rfl rfl rfl
  | blank =>
    cases hstep
    exact h.other rfl rfl rfl
  | domain header =>
    obtain ⟨flushed, hflush, hstep⟩ := ok_of_bind hstep
    obtain ⟨hdomains, helement, hmember⟩ := h.flush hflush
    cases hstep
    dsimp only
    rw [helement, hmember]
    exact Stage.beginDomain hdomains rfl ⟨.nil, .nil, .nil⟩
  | dependsOn name =>
    obtain ⟨last, hlast, hstep⟩ := ok_of_bind hstep
    cases hstep
    apply Stage.mapDomain (h.other rfl rfl rfl)
    intro domain block hfrom
    exact ⟨hfrom.name, hfrom.holds.types, hfrom.holds.commands, hfrom.holds.events⟩
  | type header isArray ty =>
    obtain ⟨last, hlast, hstep⟩ := ok_of_bind hstep
    obtain ⟨flushed, hflush, hstep⟩ := ok_of_bind hstep
    cases hstep
    apply h.elementHeader (some_of_getOrBail hlast) hflush rfl rfl
    intro kind
    cases kind <;> rfl
  | call header isCommand =>
    obtain ⟨last, hlast, hstep⟩ := ok_of_bind hstep
    obtain ⟨flushed, hflush, hstep⟩ := ok_of_bind hstep
    cases hstep
    apply h.elementHeader (some_of_getOrBail hlast) hflush rfl
    · cases isCommand <;> rfl
    · intro kind
      cases isCommand <;> cases kind <;> rfl
  | member line =>
    obtain ⟨last, hlast, hstep⟩ := ok_of_bind hstep
    obtain ⟨member, hmember, hstep⟩ := ok_of_bind hstep
    rw [some_of_getOrBail hmember] at h
    cases hstep
    exact h.param ⟨rfl, rfl, rfl, rfl⟩
  | declares kind =>
    rw [step.eq_def] at hstep
    dsimp only at hstep
    split at hstep
    · rename_i member hmember
      obtain ⟨element, helement, hstep⟩ := ok_of_bind hstep
      obtain ⟨closed, hclosed, hstep⟩ := ok_of_bind hstep
      rw [hmember] at h
      cases hstep
      cases hadd : element.addMember member with
      | error failure =>
        rw [hadd] at hclosed
        cases hclosed
      | ok element' =>
        rw [hadd] at hclosed
        cases hclosed
        exact h.declares hno ⟨element, element', some_of_getOrBail helement, hadd, rfl⟩
    · rename_i hmember
      cases hstep
      rw [hmember] at h
      exact h.declares hno rfl
  | enum =>
    rw [step.eq_def] at hstep
    dsimp only at hstep
    split at hstep
    · rename_i ty helement
      split at hstep
      · rename_i hitem
        cases hstep
        have hsame : Stage (blocks.add .enum) s.domains s.element s.member := h.other rfl rfl rfl
        rw [helement] at hsame
        refine hsame.mapElement rfl ?_
        intro kind
        have hnone : ∀ params, ty.item ≠ some (.properties params) := by
          rw [Option.isNone_iff_eq_none.1 hitem]
          nofun
        rw [Element.members_type hnone]
        exact Element.members_type (by nofun) kind
      · cases hstep
    · cases hstep
  | version =>
    cases hstep
    exact h.other rfl rfl rfl
  | major digits =>
    obtain ⟨version, hversion, hstep⟩ := ok_of_bind hstep
    obtain ⟨major, hmajor, hstep⟩ := ok_of_bind hstep
    cases hstep
    exact h.other rfl rfl rfl
  | minor digits =>
    obtain ⟨version, hversion, hstep⟩ := ok_of_bind hstep
    obtain ⟨minor, hminor, hstep⟩ := ok_of_bind hstep
    cases hstep
    exact h.other rfl rfl rfl
  | redirect domain =>
    rw [step.eq_def] at hstep
    dsimp only at hstep
    have hsame : Stage (blocks.add (.redirect domain)) s.domains s.element s.member := h.other rfl rfl rfl
    split at hstep
    · rename_i cmd helement
      cases hstep
      rw [helement] at hsame
      refine hsame.mapElement rfl ?_
      intro kind
      cases kind <;> rfl
    · cases hstep
    · cases hstep
  | literal name =>
    have hsame : Stage (blocks.add (.literal name)) s.domains s.element s.member := h.other rfl rfl rfl
    rw [step.eq_def] at hstep
    dsimp only at hstep
    split at hstep
    · obtain ⟨member, hmember, hstep⟩ := ok_of_bind hstep
      obtain ⟨member', hpush, hstep⟩ := ok_of_bind hstep
      cases hstep
      rw [some_of_getOrBail hmember] at hsame
      exact hsame.mapMember fun body => pushMemberVariant_from hpush
    · obtain ⟨element, helement, hstep⟩ := ok_of_bind hstep
      obtain ⟨element', hpush, hstep⟩ := ok_of_bind hstep
      cases hstep
      rw [some_of_getOrBail helement] at hsame
      obtain ⟨hheading, hmembers⟩ := pushItemVariant_same hpush
      exact hsame.mapElement hheading hmembers
  | unknown line => cases hstep

end ParseState

open ParseState

/-- The members of a protocol stand behind the headers of their elements, and no section of the text is an orphan. -/
structure MembersBelong (input : String) (protocol : Protocol) : Prop where
  belong : Forall₂ Domain.From protocol.domains (blocksOf input).domains
  rejected : (blocksOf input).NoOrphan

/-- After the lines of a text without orphans the parser is at a stage of their blocks. -/
theorem stage_run {input : String} {s : ParseState} (hno : (blocksOf input).NoOrphan)
    (hrun : run 1 ParseState.new (lines input.toList) = .ok s) :
    Stage (blocksOf input) s.domains s.element s.member := by
  rw [blocksOf, List.foldl_map] at hno ⊢
  refine @Scanner.readFrom_invariant _ _ _ _ _ (fun blocks line => blocks.add (classify line))
    (fun blocks s => blocks.NoOrphan → Stage blocks s.domains s.element s.member) ?_ _ _ _ _ _ ?_ hrun hno
  · intro place blocks s line s' h hstep hno
    exact stage_step (h hno.of_add) hno hstep
  · intro _
    exact .between .nil nofun

theorem members_belong_iff {input : String} {protocol : Protocol} (h : parsePdl input = .ok protocol) :
    MembersBelong input protocol ↔ (blocksOf input).NoOrphan := by
  constructor
  · intro hbelong
    exact hbelong.rejected
  · intro hno
    obtain ⟨s, hrun, h⟩ := ok_of_bind h
    obtain ⟨flushed, hflush, h⟩ := ok_of_bind h
    obtain ⟨hdomains, -, -⟩ := (stage_run hno hrun).flush hflush
    split at h
    · cases h
      exact ⟨hdomains, hno⟩
    · cases h

theorem command_members :
    ∃ protocol, parsePdl "version\ndomain A\n  command c\n    parameters\n      string x\n" = .ok protocol ∧
      MembersBelong "version\ndomain A\n  command c\n    parameters\n      string x\n" protocol := by
  refine ⟨_, rfl, (members_belong_iff rfl).2 ?_⟩
  decide +kernel

/-- The commands of the domains, each with the names of its parameters. -/
def Protocol.commandNames (protocol : Protocol) : List (List (String × List String)) :=
  protocol.domains.map fun domain => domain.commands.map fun cmd => (cmd.name, cmd.parameters.map Param.name)

theorem ok_of_map {A B : Type} {x : Except Failure A} {f : A → B} {b : B} (h : x.toOption.map f = some b) :
    ∃ a, x = .ok a ∧ f a = b := by
  cases x with
  | error failure => cases h
  | ok a => exact ⟨a, rfl, Option.some.inj h⟩

/-- A parameter before the first element of its domain is given to that element, and a parameter of a domain without elements to an element of the next one. -/
theorem orphans_attached :
    (∃ protocol, parsePdl "version\ndomain A\n    parameters\n      string x\n  command c\n" = .ok protocol ∧
        protocol.commandNames = [[("c", ["x"])]] ∧
        ¬ MembersBelong "version\ndomain A\n    parameters\n      string x\n  command c\n" protocol) ∧
      ∃ protocol,
        parsePdl "version\ndomain A\n    parameters\n      string x\ndomain B\n  command c\n" = .ok protocol ∧
        protocol.commandNames = [[], [("c", ["x"])]] ∧
        ¬ MembersBelong "version\ndomain A\n    parameters\n      string x\ndomain B\n  command c\n" protocol := by
  constructor
  · have hnames : (parsePdl "version\ndomain A\n    parameters\n      string x\n  command c\n").toOption.map
        Protocol.commandNames = some [[("c", ["x"])]] := by decide +kernel
    obtain ⟨protocol, hprotocol, hcommands⟩ := ok_of_map hnames
    refine ⟨protocol, hprotocol, hcommands, ?_⟩
    intro h
    exact absurd h.rejected (by decide +kernel)
  · have hnames : (parsePdl "version\ndomain A\n    parameters\n      string x\ndomain B\n  command c\n").toOption.map
        Protocol.commandNames = some [[], [("c", ["x"])]] := by decide +kernel
    obtain ⟨protocol, hprotocol, hcommands⟩ := ok_of_map hnames
    refine ⟨protocol, hprotocol, hcommands, ?_⟩
    intro h
    exact absurd h.rejected (by decide +kernel)

end SpiderChrome.Pdl
