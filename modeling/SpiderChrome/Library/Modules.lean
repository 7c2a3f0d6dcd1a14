import Mathlib.Data.List.Nodup

/-!
# Trees of modules

A module has items and further modules in it, and both of them have names. A path goes some modules up from the module it stands in, then down by the names, and ends with the name of an item; an item is found by the first entry of its name. Where no module has two entries of one name every entry is found: `Distinct.descend_child` and `Distinct.item`.
-/

/-- A module with its items and the modules in it. -/
inductive ModuleTree (Item : Type) where
  | mk (items : List (String × Item)) (modules : List (String × ModuleTree Item))

namespace ModuleTree

variable {Item : Type}

/-- A path from a module to an item: `ups` times up, down by the names, and there to the item. -/
structure Path where
  ups : Nat
  down : List String
  name : String
deriving DecidableEq

def items : ModuleTree Item → List (String × Item)
  | mk items _ => items

def modules : ModuleTree Item → List (String × ModuleTree Item)
  | mk _ modules => modules

/-- The first entry of a name. -/
def lookup {α : Type} (name : String) (entries : List (String × α)) : Option α :=
  (entries.find? fun entry => entry.1 = name).map Prod.snd

def item (m : ModuleTree Item) (name : String) : Option Item := lookup name m.items

def child (m : ModuleTree Item) (name : String) : Option (ModuleTree Item) := lookup name m.modules

/-- The module that the names lead down to. -/
def descend (m : ModuleTree Item) : List String → Option (ModuleTree Item)
  | [] => some m
  | name :: names => (m.child name).bind fun c => c.descend names

/-- What a path means in the module that the names lead down to. -/
def resolve (root : ModuleTree Item) (here : List String) (path : Path) : Option Item :=
  if path.ups ≤ here.length then
    (root.descend (here.take (here.length - path.ups) ++ path.down)).bind fun m => m.item path.name
  else none

/-- No module has two entries of one name. -/
def Distinct (root : ModuleTree Item) : Prop :=
  ∀ here m, root.descend here = some m → (m.items.map Prod.fst ++ m.modules.map Prod.fst).Nodup

/-! ### Entries -/

section Entries

variable {α : Type} {entries : List (String × α)} {name : String} {entry : α}

theorem lookup_cons (first : String × α) (entries : List (String × α)) (name : String) :
    lookup name (first :: entries) = if first.1 = name then some first.2 else lookup name entries := by
  rw [lookup, lookup, List.find?_cons]
  by_cases h : first.1 = name
  · rw [if_pos h, decide_eq_true h]
    rfl
  · rw [if_neg h, decide_eq_false h]

theorem mem_of_lookup (h : lookup name entries = some entry) : (name, entry) ∈ entries := by
  obtain ⟨⟨name', _⟩, hfind, rfl⟩ := Option.map_eq_some_iff.1 h
  have hname : name' = name := by
    have htest := List.find?_some hfind
    exact of_decide_eq_true htest
  subst hname
  exact List.mem_of_find?_eq_some hfind

/-- Where the names differ, an entry is the first of its name. -/
theorem lookup_iff_mem (hnodup : (entries.map Prod.fst).Nodup) : lookup name entries = some entry ↔ (name, entry) ∈ entries := by
  refine ⟨mem_of_lookup, fun hmem => ?_⟩
  induction entries with
  | nil => cases hmem
  | cons first entries ih =>
    rw [List.map_cons, List.nodup_cons] at hnodup
    rw [lookup_cons]
    obtain rfl | hrest := List.mem_cons.1 hmem
    · exact if_pos rfl
    · rw [if_neg, ih hnodup.2 hrest]
      intro hsame
      exact hnodup.1 (hsame ▸ List.mem_map_of_mem hrest)

end Entries

/-! ### Going down -/

@[simp] theorem descend_nil (m : ModuleTree Item) : m.descend [] = some m := by
  rw [descend]

theorem descend_cons (m : ModuleTree Item) (name : String) (names : List String) :
    m.descend (name :: names) = (m.child name).bind fun c => c.descend names := by
  rw [descend]

theorem descend_singleton (m : ModuleTree Item) (name : String) : m.descend [name] = m.child name := by
  rw [descend_cons]
  exact (congrArg _ (funext descend_nil)).trans (Option.bind_fun_some _)

/-- There is nothing below a module without modules. -/
theorem descend_leaf {items : List (String × Item)} {here : List String} {m : ModuleTree Item}
    (h : (mk items []).descend here = some m) : here = [] ∧ m = mk items [] := by
  cases here with
  | nil =>
    rw [descend_nil] at h
    exact ⟨rfl, (Option.some.inj h).symm⟩
  | cons name here =>
    rw [descend_cons] at h
    cases h

theorem descend_append (m : ModuleTree Item) (first second : List String) :
    m.descend (first ++ second) = (m.descend first).bind fun c => c.descend second := by
  induction first generalizing m with
  | nil => rw [List.nil_append, descend_nil, Option.bind_some]
  | cons name first ih =>
    rw [List.cons_append, descend_cons, descend_cons, Option.bind_assoc]
    exact congrArg _ (funext fun c => ih c)

/-- A path that goes up from where it stands as far as the end of `above`. -/
theorem resolve_append (root : ModuleTree Item) (above below : List String) (down : List String) (name : String) :
    root.resolve (above ++ below) ⟨below.length, down, name⟩ =
      (root.descend (above ++ down)).bind fun m => m.item name := by
  have hle : below.length ≤ (above ++ below).length := by
    rw [List.length_append]
    exact Nat.le_add_left _ _
  have htake : (above ++ below).take ((above ++ below).length - below.length) = above := by
    rw [List.length_append, Nat.add_sub_cancel, List.take_left]
  rw [resolve, if_pos hle, htake]

/-! ### Trees without two entries of one name -/

namespace Distinct

variable {root m c : ModuleTree Item} {here : List String} {name : String}

theorem items (h : root.Distinct) (hm : root.descend here = some m) : (m.items.map Prod.fst).Nodup :=
  (List.nodup_append.1 (h here m hm)).1

theorem modules (h : root.Distinct) (hm : root.descend here = some m) : (m.modules.map Prod.fst).Nodup :=
  (List.nodup_append.1 (h here m hm)).2.1

/-- Every module is found under its name. -/
theorem child_iff (h : root.Distinct) (hm : root.descend here = some m) :
    m.child name = some c ↔ (name, c) ∈ m.modules := lookup_iff_mem (h.modules hm)

theorem item_iff (h : root.Distinct) (hm : root.descend here = some m) {item : Item} :
    m.item name = some item ↔ (name, item) ∈ m.items := lookup_iff_mem (h.items hm)

end Distinct

/-! ### Checking the names -/

mutual

/-- Whether the names differ in a module and in all modules below it. -/
def checkNames : ModuleTree Item → Bool
  | mk items modules => decide (items.map Prod.fst ++ modules.map Prod.fst).Nodup && checkModules modules
termination_by structural m => m

def checkModules : List (String × ModuleTree Item) → Bool
  | [] => true
  | entry :: entries => checkEntry entry && checkModules entries
termination_by structural entries => entries

def checkEntry : String × ModuleTree Item → Bool
  | (_, m) => checkNames m
termination_by structural entry => entry

end

theorem checkNames_of_checkModules {entries : List (String × ModuleTree Item)} (h : checkModules entries = true) :
    ∀ entry ∈ entries, entry.2.checkNames = true := by
  induction entries with
  | nil => exact fun _ hentry => absurd hentry List.not_mem_nil
  | cons entry entries ih =>
    rw [checkModules, Bool.and_eq_true, checkEntry] at h
    exact List.forall_mem_cons.2 ⟨h.1, ih h.2⟩

theorem distinct_of_checkNames {root : ModuleTree Item} (h : root.checkNames = true) : root.Distinct := by
  intro here m hm
  induction here generalizing root with
  | nil =>
    rw [descend_nil] at hm
    obtain rfl := Option.some.inj hm
    cases root with
    | mk items modules =>
      rw [checkNames, Bool.and_eq_true, decide_eq_true_eq] at h
      exact h.1
  | cons name here ih =>
    rw [descend_cons] at hm
    obtain ⟨c, hchild, hc⟩ := Option.bind_eq_some_iff.1 hm
    cases root with
    | mk items modules =>
      rw [checkNames, Bool.and_eq_true] at h
      exact ih (checkNames_of_checkModules h.2 _ (mem_of_lookup hchild)) hc

end ModuleTree
