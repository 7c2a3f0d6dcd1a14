import Mathlib.Data.List.Induction
import SpiderChrome.Pdl.References

/-!
# Builders

With a struct the generator makes a builder, which has a place for each field and methods that fill the places: one that sets the field, or two that add to it where it is a vector. `build_run` says what is built after any calls of the methods, and `new_eq_build` that the constructor of a struct with few mandatory fields is a short form of the builder.
-/

namespace SpiderChrome.Pdl

/-- What a field is set to, or what a method is given: one value, or several. -/
inductive Content (V : Type) where
  | one (v : V)
  | many (vs : List V)
deriving DecidableEq

namespace Content

variable {V : Type}

def values : Content V → List V
  | one v => [v]
  | many vs => vs

/-- A vector takes several values, and any other field one. -/
def fits (isVec : Bool) : Content V → Bool
  | one _ => !isVec
  | many _ => isVec

end Content

/-- What a method does to its field. -/
inductive Setter where
  | set
  | push
  | extend
deriving DecidableEq

/-- The new content of a field's place. An argument of the wrong kind is none that Rust lets pass. -/
def Setter.apply {V : Type} : Setter → Content V → Option (Content V) → Option (Content V)
  | set, .one v, _ => some (.one v)
  | push, .one v, place => some (.many ((place.map Content.values).getD [] ++ [v]))
  | extend, .many vs, place => some (.many ((place.map Content.values).getD [] ++ vs))
  | _, _, _ => none

namespace Builder

variable {w : Nat} {V : Type} (g : Options w)

/-! ### The generated code -/

/-- The names of the methods that add one value and several values to a vector: a name that is a plural already is that of the latter. -/
def vecSetterNames (nameIdent : String) : String × String :=
  let s := g.toSnakeCase nameIdent
  if s.toList.getLast? = some 's' then (g.generateFieldName (String.ofList s.toList.dropLast), nameIdent)
  else (nameIdent, s ++ "s")

def setters (field : FieldDefinition) : List (String × Setter) :=
  if field.ty.isVec then
    [((vecSetterNames g field.nameIdent).1, .push), ((vecSetterNames g field.nameIdent).2, .extend)]
  else [(field.nameIdent, .set)]

/-- All methods that fill the places of the fields. -/
def methods (fields : List FieldDefinition) : List (String × FieldDefinition × Setter) :=
  fields.flatMap fun field => (setters g field).map fun method => (method.1, field, method.2)

/-- The contents of the places that are filled. -/
abbrev Places (V : Type) := Table String (Content V)

/-- A call of a method, which Rust finds by its name. -/
def call (fields : List FieldDefinition) (places : Places V) (method : String × Content V) : Option (Places V) := do
  let found ← (methods g fields).find? fun m => m.1 = method.1
  let content ← found.2.2.apply method.2 (places.get found.2.1.nameIdent)
  some (places.set found.2.1.nameIdent content)

def run (fields : List FieldDefinition) (calls : List (String × Content V)) : Option (Places V) :=
  calls.foldlM (call g fields) ∅

/-- What `build` does with the place of a field. -/
def assign (field : FieldDefinition) : Option (Content V) → Except String (String × Option (Content V))
  | some content => .ok (field.nameIdent, some content)
  | none =>
    if field.optional then .ok (field.nameIdent, none)
    else .error ("Field `" ++ field.nameIdent ++ "` is mandatory.")

/-- `build`. The first field that has to be there and is not is the one that is reported. A boxed field that is not optional is left out: its code does not compile. -/
def build (fields : List FieldDefinition) (places : Places V) : Except String (List (String × Option (Content V))) :=
  fields.mapM fun field => assign field (places.get field.nameIdent)

def mandatory (fields : List FieldDefinition) : List FieldDefinition := fields.filter fun field => !field.optional

/-- `new`, which takes the mandatory fields in their order and is there for one to four of them. -/
def new (fields : List FieldDefinition) (args : List (Content V)) : Option (List (String × Option (Content V))) :=
  let mandatory := mandatory fields
  if mandatory.length ≠ 0 ∧ mandatory.length ≤ 4 ∧ args.length = mandatory.length ∧
      ∀ arg ∈ mandatory.zip args, arg.2.fits arg.1.ty.isVec = true then
    let given := (mandatory.map FieldDefinition.nameIdent).zip args
    some (fields.map fun field => (field.nameIdent, ModuleTree.lookup field.nameIdent given))
  else none

/-! ### What a builder has been given -/

/-- The arguments of the calls to the methods of a field. -/
def given (field : FieldDefinition) (calls : List (String × Content V)) : List (Content V) :=
  (calls.filter fun c => (setters g field).any fun method => method.1 = c.1).map Prod.snd

/-- A vector has all values that it was given, in order; any other field has the last one. -/
def gathered (field : FieldDefinition) (args : List (Content V)) : Option (Content V) :=
  if args = [] then none
  else if field.ty.isVec then some (.many (args.flatMap Content.values)) else args.getLast?

/-- A field that has to be there and has not been given. -/
def lacking (calls : List (String × Content V)) (field : FieldDefinition) : Bool :=
  !field.optional && (given g field calls).isEmpty

/-- What is built from some calls. -/
def built (fields : List FieldDefinition) (calls : List (String × Content V)) :
    Except String (List (String × Option (Content V))) :=
  match fields.find? (lacking g calls) with
  | some field => .error ("Field `" ++ field.nameIdent ++ "` is mandatory.")
  | none => .ok (fields.map fun field => (field.nameIdent, gathered field (given g field calls)))

variable {g} {fields : List FieldDefinition} {field other : FieldDefinition} {places places' : Places V}
  {calls : List (String × Content V)}

/-! ### Names of methods -/

/-- One of the methods of a field has its name. -/
theorem nameIdent_mem_setters (field : FieldDefinition) : field.nameIdent ∈ (setters g field).map Prod.fst := by
  rw [setters]
  split
  · rw [vecSetterNames]
    split
    · exact List.mem_cons_of_mem _ (List.mem_singleton_self _)
    · exact List.mem_cons_self
  · exact List.mem_singleton_self _

theorem map_fst_methods (fields : List FieldDefinition) :
    (methods g fields).map Prod.fst = fields.flatMap fun field => (setters g field).map Prod.fst := by
  rw [methods, List.map_flatMap]
  refine List.flatMap_congr fun field _ => ?_
  rw [List.map_map]
  rfl

/-- Where no two methods have one name, a name tells the field. -/
theorem field_unique (hdistinct : ((methods g fields).map Prod.fst).Nodup) (hfield : field ∈ fields) (hother : other ∈ fields)
    {name : String} (hname : name ∈ (setters g field).map Prod.fst) (hname' : name ∈ (setters g other).map Prod.fst) :
    field = other := by
  rw [map_fst_methods, List.nodup_flatMap, List.pairwise_iff_getElem] at hdistinct
  obtain ⟨i, hi, rfl⟩ := List.getElem_of_mem hfield
  obtain ⟨j, hj, rfl⟩ := List.getElem_of_mem hother
  rcases Nat.lt_trichotomy i j with hlt | rfl | hlt
  · exact absurd hname' (hdistinct.2 i j hi hj hlt hname)
  · rfl
  · exact absurd hname (hdistinct.2 j i hj hi hlt hname')

theorem find?_methods {name : String} {found : String × FieldDefinition × Setter}
    (h : (methods g fields).find? (fun m => m.1 = name) = some found) :
    found.1 = name ∧ found.2.1 ∈ fields ∧ (name, found.2.2) ∈ setters g found.2.1 := by
  have hname : found.1 = name := by
    have htest := List.find?_some h
    exact of_decide_eq_true htest
  obtain ⟨field, hfield, hmem⟩ := List.mem_flatMap.1 (List.mem_of_find?_eq_some h)
  obtain ⟨method, hmethod, rfl⟩ := List.mem_map.1 hmem
  exact ⟨hname, hfield, hname ▸ hmethod⟩

/-! ### Calls -/

/-- What a call does: it fills the place of the one field that has a method of its name. -/
theorem call_cases {c : String × Content V} (h : call g fields places c = some places') :
    ∃ field ∈ fields, ∃ setter content, (c.1, setter) ∈ setters g field ∧
      setter.apply c.2 (places.get field.nameIdent) = some content ∧ places' = places.set field.nameIdent content := by
  obtain ⟨found, hfound, hrest⟩ := Option.bind_eq_some_iff.1 h
  obtain ⟨content, hcontent, hset⟩ := Option.bind_eq_some_iff.1 hrest
  have hmember : found.2.1 ∈ fields ∧ (c.1, found.2.2) ∈ setters g found.2.1 := by
    obtain ⟨hname, hfield, hsetter⟩ := find?_methods hfound
    exact ⟨hfield, hsetter⟩
  exact ⟨found.2.1, hmember.1, found.2.2, content, hmember.2, hcontent, (Option.some.inj hset).symm⟩

theorem given_append (field : FieldDefinition) (calls : List (String × Content V)) (c : String × Content V) :
    given g field (calls ++ [c]) =
      given g field calls ++ if c.1 ∈ (setters g field).map Prod.fst then [c.2] else [] := by
  have hany : ((setters g field).any fun method => method.1 = c.1) = true ↔ c.1 ∈ (setters g field).map Prod.fst := by
    simp [List.any_eq_true]
  rw [given, given, List.filter_append, List.map_append, List.filter_singleton]
  by_cases hmem : c.1 ∈ (setters g field).map Prod.fst
  · rw [if_pos hmem, hany.2 hmem]
    rfl
  · rw [if_neg hmem, Bool.eq_false_iff.2 fun htrue => hmem (hany.1 htrue)]
    rfl

theorem gathered_eq_none_iff (field : FieldDefinition) (args : List (Content V)) : gathered field args = none ↔ args = [] := by
  rw [gathered]
  split
  · rename_i hnil
    exact iff_of_true rfl hnil
  · rename_i hne
    refine iff_of_false ?_ hne
    split
    · exact Option.some_ne_none _
    · exact fun hlast => hne (List.getLast?_eq_none_iff.1 hlast)

/-- What a vector holds so far. -/
theorem values_gathered {field : FieldDefinition} (hvec : field.ty.isVec = true) (args : List (Content V)) :
    ((gathered field args).map Content.values).getD [] = args.flatMap Content.values := by
  rw [gathered, if_pos hvec]
  split
  · rename_i hnil
    rw [hnil]
    rfl
  · rfl

/-- A method brings its field to what is gathered with the new argument. -/
theorem apply_gathered {name : String} {setter : Setter} (hsetter : (name, setter) ∈ setters g field)
    {args : List (Content V)} {arg content : Content V} (h : setter.apply arg (gathered field args) = some content) :
    gathered field (args ++ [arg]) = some content := by
  have hne : args ++ [arg] ≠ [] := List.append_ne_nil_of_right_ne_nil _ (List.cons_ne_nil _ _)
  rw [setters] at hsetter
  by_cases hvec : field.ty.isVec = true
  · rw [gathered, if_neg hne, if_pos hvec, List.flatMap_append]
    rw [if_pos hvec] at hsetter
    have hkind : setter = .push ∨ setter = .extend := by
      rcases List.mem_cons.1 hsetter with heq | hmem
      · exact .inl (Prod.mk.inj heq).2
      · exact .inr (Prod.mk.inj (List.mem_singleton.1 hmem)).2
    rcases hkind with rfl | rfl <;> cases arg
    · rw [Setter.apply, values_gathered hvec] at h
      rw [← h]
      rfl
    · cases h
    · cases h
    · rw [Setter.apply, values_gathered hvec] at h
      rw [← h]
      simp [Content.values]
  · rw [gathered, if_neg hne, if_neg hvec, List.getLast?_concat]
    rw [if_neg hvec] at hsetter
    obtain rfl := (Prod.mk.inj (List.mem_singleton.1 hsetter)).2
    cases arg
    · rw [Setter.apply] at h
      exact h
    · cases h

/-- The places hold what the fields have been given. -/
def Holds (g : Options w) (fields : List FieldDefinition) (calls : List (String × Content V)) (places : Places V) : Prop :=
  ∀ field ∈ fields, places.get field.nameIdent = gathered field (given g field calls)

/-- One call keeps this: it adds its argument to one field, and the others have no method of its name. -/
theorem Holds.call (hdistinct : ((methods g fields).map Prod.fst).Nodup) (hholds : Holds g fields calls places)
    {c : String × Content V} (h : Builder.call g fields places c = some places') : Holds g fields (calls ++ [c]) places' := by
  obtain ⟨field, hfield, setter, content, hsetter, hcontent, rfl⟩ := call_cases h
  have hname : c.1 ∈ (setters g field).map Prod.fst := List.mem_map.2 ⟨_, hsetter, rfl⟩
  intro other hother
  rw [given_append]
  by_cases heq : other = field
  · subst heq
    rw [if_pos hname, Table.get_set_self]
    rw [hholds other hother] at hcontent
    exact (apply_gathered hsetter hcontent).symm
  · have hident : other.nameIdent ≠ field.nameIdent := by
      intro hident
      refine heq (field_unique hdistinct hother hfield (nameIdent_mem_setters other) ?_)
      exact hident ▸ nameIdent_mem_setters field
    have hforeign : c.1 ∉ (setters g other).map Prod.fst := by
      exact fun hmem => heq (field_unique hdistinct hother hfield hmem hname)
    rw [if_neg hforeign, List.append_nil, Table.get_set_of_ne places content hident]
    exact hholds other hother

theorem holds_run (hdistinct : ((methods g fields).map Prod.fst).Nodup) (h : run g fields calls = some places) :
    Holds g fields calls places := by
  induction calls using List.reverseRecOn generalizing places with
  | nil =>
    obtain rfl := Option.some.inj h
    intro field _
    rfl
  | append_singleton calls c ih =>
    rw [run, List.foldlM_append] at h
    obtain ⟨before, hbefore, hlast⟩ := Option.bind_eq_some_iff.1 h
    have hcall : call g fields before c = some places := by
      simpa using hlast
    exact (ih hbefore).call hdistinct hcall

/-! ### Building -/

/-- What happens to each member where an error is the first one that a test finds. -/
theorem mapM_eq_find? {α β ε : Type} {f : α → Except ε β} {test : α → Bool} {error : α → ε} {value : α → β} {members : List α}
    (h : ∀ x ∈ members, f x = if test x then .error (error x) else .ok (value x)) :
    members.mapM f = (members.find? test).elim (.ok (members.map value)) fun x => .error (error x) := by
  induction members with
  | nil => rfl
  | cons x members ih =>
    have hrest := ih fun y hy => h y (List.mem_cons_of_mem _ hy)
    rw [List.mapM_cons, h x List.mem_cons_self, List.find?_cons]
    cases htest : test x with
    | true => rfl
    | false =>
      rw [hrest]
      cases members.find? test <;> rfl

/-- A field is reported where it is lacking, and has what it was given otherwise. -/
theorem assign_gathered (field : FieldDefinition) (args : List (Content V)) :
    assign field (gathered field args) =
      if !field.optional && args.isEmpty then .error ("Field `" ++ field.nameIdent ++ "` is mandatory.")
      else .ok (field.nameIdent, gathered field args) := by
  cases hgathered : gathered field args with
  | none =>
    obtain rfl := (gathered_eq_none_iff field args).1 hgathered
    cases hoptional : field.optional <;> simp [assign, hoptional]
  | some content =>
    have hne : args ≠ [] := by
      intro hnil
      rw [(gathered_eq_none_iff field args).2 hnil] at hgathered
      cases hgathered
    have hempty : args.isEmpty = false := by
      cases args with
      | nil => exact absurd rfl hne
      | cons arg args => rfl
    rw [hempty, Bool.and_false]
    rfl

theorem build_of_holds (hholds : Holds g fields calls places) : build fields places = built g fields calls := by
  have hfirst : build fields places = (fields.find? (lacking g calls)).elim
      (.ok (fields.map fun field => (field.nameIdent, gathered field (given g field calls))))
      fun field => .error ("Field `" ++ field.nameIdent ++ "` is mandatory.") := by
    refine mapM_eq_find? fun field hfield => ?_
    rw [lacking, hholds field hfield]
    exact assign_gathered field _
  rw [hfirst, built]
  cases fields.find? (lacking g calls) <;> rfl

/-- After any calls of its methods a builder builds the struct in which each vector holds everything that was added to it, in order, and any other field what it was set to last; a field that nothing was given to is left out, or reported if it is mandatory. -/
theorem build_run (hdistinct : ((methods g fields).map Prod.fst).Nodup) (h : run g fields calls = some places) :
    build fields places = built g fields calls := build_of_holds (holds_run hdistinct h)

/-- A mandatory vector, a mandatory field and an optional one. -/
def queryFields : List FieldDefinition :=
  [⟨"urls", "urls", .newVec .string, false, false, false⟩, ⟨"depth", "depth", .new .i64, false, false, false⟩,
    ⟨"limit", "limit", .new .i64, true, false, false⟩]

def queryCalls : List (String × Content Nat) :=
  [("url", .one 1), ("depth", .one 2), ("urls", .many [3, 4]), ("depth", .one 5)]

theorem build_run_queryCalls : ∃ places, run asciiOptions queryFields queryCalls = some places ∧
    build queryFields places = .ok [("urls", some (.many [1, 3, 4])), ("depth", some (.one 5)), ("limit", none)] := by
  refine ⟨_, rfl, ?_⟩
  exact (build_run (by decide) rfl : _ = built asciiOptions queryFields queryCalls).trans (by decide)

/-! ### The constructor -/

/-- The method that takes a whole content. -/
def whole (g : Options w) (field : FieldDefinition) : String × Setter :=
  if field.ty.isVec then ((vecSetterNames g field.nameIdent).2, .extend) else (field.nameIdent, .set)

/-- The calls that give their contents to some fields. -/
def giving (g : Options w) (pairs : List (FieldDefinition × Content V)) : List (String × Content V) :=
  pairs.map fun pair => ((whole g pair.1).1, pair.2)

theorem whole_mem_setters (field : FieldDefinition) : whole g field ∈ setters g field := by
  rw [whole, setters]
  split
  · exact List.mem_cons_of_mem _ (List.mem_singleton_self _)
  · exact List.mem_singleton_self _

theorem whole_apply {field : FieldDefinition} {arg : Content V} (hfits : arg.fits field.ty.isVec = true)
    (place : Option (Content V)) : ∃ content, (whole g field).2.apply arg place = some content := by
  rw [whole]
  cases hvec : field.ty.isVec <;> rw [hvec] at hfits <;> cases arg
  · exact ⟨_, rfl⟩
  · cases hfits
  · cases hfits
  · exact ⟨_, rfl⟩

/-- The two methods of one field have different names where all have. -/
theorem setter_unique (hdistinct : ((methods g fields).map Prod.fst).Nodup) (hfield : field ∈ fields) {name : String}
    {setter setter' : Setter} (h : (name, setter) ∈ setters g field) (h' : (name, setter') ∈ setters g field) :
    setter = setter' := by
  rw [map_fst_methods, List.nodup_flatMap] at hdistinct
  exact (Prod.mk.inj (List.inj_on_of_nodup_map (hdistinct.1 field hfield) h h' rfl)).2

/-- The method that takes a whole content can be called in any state of the builder. -/
theorem call_whole (hdistinct : ((methods g fields).map Prod.fst).Nodup) (hfield : field ∈ fields) {arg : Content V}
    (hfits : arg.fits field.ty.isVec = true) (places : Places V) :
    ∃ places', call g fields places ((whole g field).1, arg) = some places' := by
  have hmethod : ((whole g field).1, field, (whole g field).2) ∈ methods g fields := by
    exact List.mem_flatMap.2 ⟨field, hfield, List.mem_map.2 ⟨_, whole_mem_setters field, rfl⟩⟩
  obtain ⟨found, hfound⟩ : ∃ found, (methods g fields).find? (fun m => m.1 = (whole g field).1) = some found := by
    rw [← Option.isSome_iff_exists, List.find?_isSome]
    exact ⟨_, hmethod, decide_eq_true rfl⟩
  obtain ⟨hname, hmember, hsetter⟩ := find?_methods hfound
  have hsame : found.2.1 = field := by
    refine field_unique hdistinct hmember hfield (List.mem_map.2 ⟨_, hsetter, rfl⟩) ?_
    exact List.mem_map.2 ⟨_, whole_mem_setters field, rfl⟩
  rw [hsame] at hsetter
  have hkind : found.2.2 = (whole g field).2 := setter_unique hdistinct hfield hsetter (whole_mem_setters field)
  obtain ⟨content, hcontent⟩ := whole_apply (g := g) hfits (places.get field.nameIdent)
  refine ⟨places.set field.nameIdent content, ?_⟩
  rw [call, hfound, Option.bind_eq_bind, Option.bind_some, hsame, hkind, hcontent]
  rfl

section Giving

variable {pairs : List (FieldDefinition × Content V)} (hdistinct : ((methods g fields).map Prod.fst).Nodup)
  (hpairs : ∀ pair ∈ pairs, pair.1 ∈ fields ∧ pair.2.fits pair.1.ty.isVec = true)
include hdistinct hpairs

theorem run_giving : ∃ places, run g fields (giving g pairs) = some places := by
  rw [run]
  generalize (∅ : Places V) = start
  induction pairs generalizing start with
  | nil => exact ⟨start, rfl⟩
  | cons pair pairs ih =>
    obtain ⟨hfield, hfits⟩ := hpairs pair List.mem_cons_self
    obtain ⟨next, hnext⟩ := call_whole hdistinct hfield hfits start
    obtain ⟨places, hplaces⟩ := ih (fun other hother => hpairs other (List.mem_cons_of_mem _ hother)) next
    refine ⟨places, ?_⟩
    rw [giving, List.map_cons, List.foldlM_cons, hnext]
    exact hplaces

/-- Only the call for a field has given anything to it. -/
theorem given_giving (hfield : field ∈ fields) :
    given g field (giving g pairs) = (pairs.filter fun pair => pair.1 = field).map Prod.snd := by
  rw [given, giving, List.filter_map, List.map_map]
  refine congrArg₂ _ rfl (List.filter_congr fun pair hpair => ?_)
  have hiff : (∃ method ∈ setters g field, method.1 = (whole g pair.1).1) ↔ pair.1 = field := by
    constructor
    · rintro ⟨method, hmethod, hname⟩
      refine field_unique hdistinct (hpairs pair hpair).1 hfield (List.mem_map.2 ⟨_, whole_mem_setters pair.1, rfl⟩) ?_
      exact List.mem_map.2 ⟨method, hmethod, hname⟩
    · rintro rfl
      exact ⟨_, whole_mem_setters pair.1, rfl⟩
  rw [Bool.eq_iff_iff, decide_eq_true_iff, ← hiff]
  simp [List.any_eq_true]

theorem lookup_giving (hfield : field ∈ fields) :
    ModuleTree.lookup field.nameIdent (pairs.map fun pair => (pair.1.nameIdent, pair.2)) =
      (pairs.find? fun pair => pair.1 = field).map Prod.snd := by
  rw [ModuleTree.lookup, List.find?_map, Option.map_map, ← List.head?_filter, ← List.head?_filter]
  refine congrArg (fun found : List _ => found.head?.map Prod.snd) (List.filter_congr fun pair hpair => ?_)
  rw [Function.comp_apply, Bool.eq_iff_iff, decide_eq_true_iff, decide_eq_true_iff]
  constructor
  · intro hident
    refine field_unique hdistinct (hpairs pair hpair).1 hfield (nameIdent_mem_setters pair.1) ?_
    rw [show pair.1.nameIdent = field.nameIdent from hident]
    exact nameIdent_mem_setters field
  · rintro rfl
    rfl

end Giving

/-- A field to which one content at most was given has that. -/
theorem gathered_filter {pairs : List (FieldDefinition × Content V)} (hnodup : (pairs.map Prod.fst).Nodup)
    (hfits : ∀ pair ∈ pairs, pair.2.fits pair.1.ty.isVec = true) (field : FieldDefinition) :
    gathered field ((pairs.filter fun pair => pair.1 = field).map Prod.snd) =
      (pairs.find? fun pair => pair.1 = field).map Prod.snd := by
  rw [← List.head?_filter]
  have hfiltered : ((pairs.filter fun pair => pair.1 = field).map Prod.fst).Nodup := hnodup.sublist (List.filter_sublist.map _)
  have hmem : ∀ pair ∈ pairs.filter fun pair => pair.1 = field, pair ∈ pairs ∧ pair.1 = field := by
    intro pair hpair
    have htest := List.mem_filter.1 hpair
    exact ⟨htest.1, of_decide_eq_true htest.2⟩
  cases hlist : pairs.filter fun pair => pair.1 = field with
  | nil => rfl
  | cons pair rest =>
    rw [hlist] at hfiltered hmem
    have hpair := hmem pair List.mem_cons_self
    cases rest with
    | nil =>
      have hone := hfits pair hpair.1
      rw [hpair.2] at hone
      rw [List.map_cons, List.map_nil, gathered, if_neg (List.cons_ne_nil _ _)]
      cases hvec : field.ty.isVec with
      | false => rfl
      | true =>
        rw [hvec] at hone
        rcases pair with ⟨field', v | vs⟩
        · cases hone
        · simp [Content.values]
    | cons other rest =>
      have hother := hmem other (List.mem_cons_of_mem _ List.mem_cons_self)
      have hne := (List.nodup_cons.1 hfiltered).1
      rw [List.map_cons, hother.2, hpair.2] at hne
      exact absurd List.mem_cons_self hne

theorem nodup_fields (hdistinct : ((methods g fields).map Prod.fst).Nodup) : fields.Nodup := by
  rw [map_fst_methods, List.nodup_flatMap] at hdistinct
  refine hdistinct.2.imp ?_
  rintro field other hdisjoint rfl
  exact hdisjoint (nameIdent_mem_setters field) (nameIdent_mem_setters field)

/-- What the constructor takes is what the methods for whole contents of the mandatory fields take: the builder that these are called on builds what it makes. -/
theorem new_eq_build (hdistinct : ((methods g fields).map Prod.fst).Nodup) {args : List (Content V)}
    {made : List (String × Option (Content V))} (h : new fields args = some made) :
    ∃ places, run g fields (giving g ((mandatory fields).zip args)) = some places ∧ build fields places = .ok made := by
  rw [new] at h
  split at h
  · rename_i hargs
    obtain ⟨-, -, hlength, hfits⟩ := hargs
    have hpairs : ∀ pair ∈ (mandatory fields).zip args, pair.1 ∈ fields ∧ pair.2.fits pair.1.ty.isVec = true := by
      intro pair hpair
      exact ⟨List.mem_of_mem_filter (List.of_mem_zip hpair).1, hfits pair hpair⟩
    have hfirst : ((mandatory fields).zip args).map Prod.fst = mandatory fields := List.map_fst_zip (Nat.le_of_eq hlength.symm)
    have hnodup : (((mandatory fields).zip args).map Prod.fst).Nodup := by
      rw [hfirst]
      exact (nodup_fields hdistinct).filter _
    have hgiven : ((mandatory fields).map FieldDefinition.nameIdent).zip args =
        ((mandatory fields).zip args).map fun pair => (pair.1.nameIdent, pair.2) := by
      exact List.zip_map_left
    obtain ⟨places, hplaces⟩ := run_giving hdistinct hpairs
    refine ⟨places, hplaces, ?_⟩
    have hnone : fields.find? (lacking g (giving g ((mandatory fields).zip args))) = none := by
      rw [List.find?_eq_none]
      intro field hfield hlacking
      obtain ⟨hoptional, hempty⟩ := Bool.and_eq_true_iff.1 hlacking
      have hmandatory : field ∈ ((mandatory fields).zip args).map Prod.fst := by
        rw [hfirst]
        exact List.mem_filter.2 ⟨hfield, hoptional⟩
      obtain ⟨pair, hpair, rfl⟩ := List.mem_map.1 hmandatory
      rw [given_giving hdistinct hpairs hfield, List.isEmpty_iff, List.map_eq_nil_iff, List.filter_eq_nil_iff] at hempty
      exact hempty pair hpair (decide_eq_true rfl)
    rw [build_of_holds (holds_run hdistinct hplaces), built, hnone, ← Option.some.inj h]
    refine congrArg Except.ok (List.map_congr_left fun field hfield => congrArg (Prod.mk _) ?_)
    rw [given_giving hdistinct hpairs hfield, gathered_filter hnodup (fun pair hpair => (hpairs pair hpair).2), hgiven]
    exact (lookup_giving hdistinct hpairs hfield).symm
  · cases h

theorem new_eq_build_queryFields : ∃ places,
    run asciiOptions queryFields [("urls", .many [1, 2]), ("depth", .one 3)] = some places ∧
      build queryFields places = .ok [("urls", some (.many [1, 2])), ("depth", some (.one 3)), ("limit", none)] :=
  new_eq_build (by decide) (rfl : new queryFields [.many [1, 2], .one 3] = some _)

end Builder

end SpiderChrome.Pdl
