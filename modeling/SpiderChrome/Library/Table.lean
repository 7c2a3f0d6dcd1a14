import Mathlib.Data.List.AList
import Mathlib.Data.List.Perm.Subperm
import Mathlib.Logic.Function.Basic

/-!
# Finite tables

A table maps finitely many keys to values. It is an association list whose keys are distinct, and it is read only through `get`: two tables that answer every `get` alike are alike for every lemma below. The order of the entries is the order in which an iteration visits them, so a result about an iteration holds for any order the entries could be in.
-/

/-- A finite map from `K` to `V`. -/
structure Table (K V : Type) where
  entries : AList (fun _ : K => V)

namespace Table

variable {K V : Type} [DecidableEq K]

def empty : Table K V := ⟨∅⟩

instance : EmptyCollection (Table K V) := ⟨empty⟩

instance : Inhabited (Table K V) := ⟨empty⟩

/-- The value stored under a key. -/
def get (t : Table K V) (k : K) : Option V := t.entries.lookup k

/-- Store a value under a key, replacing the one that is there. -/
def set (t : Table K V) (k : K) (v : V) : Table K V := ⟨t.entries.insert k v⟩

def remove (t : Table K V) (k : K) : Table K V := ⟨t.entries.erase k⟩

/-- Change the value stored under a key; nothing happens when there is none. -/
def update (t : Table K V) (k : K) (f : V → V) : Table K V :=
  match t.get k with
  | some v => t.set k (f v)
  | none => t

/-- Keep the entries that pass a test. -/
def retain (t : Table K V) (keep : K → V → Bool) : Table K V :=
  ⟨⟨t.entries.entries.filter fun entry => keep entry.1 entry.2,
    List.NodupKeys.sublist List.filter_sublist t.entries.nodupKeys⟩⟩

/-- Change every value. -/
def mapValues (t : Table K V) (f : V → V) : Table K V :=
  ⟨⟨t.entries.entries.map fun entry => ⟨entry.1, f entry.2⟩, by
    rw [List.NodupKeys, List.keys, List.map_map]
    exact t.entries.nodupKeys⟩⟩

def keys (t : Table K V) : List K := t.entries.keys

/-- The entries, in the order in which an iteration visits them. -/
def toList (t : Table K V) : List (K × V) := t.entries.entries.map fun entry => (entry.1, entry.2)

def values (t : Table K V) : List V := t.toList.map Prod.snd

def size (t : Table K V) : Nat := t.entries.keys.length

def isEmpty (t : Table K V) : Bool := t.size == 0

/-! ### Reading -/

@[simp] theorem get_empty (k : K) : (∅ : Table K V).get k = none := rfl

theorem get_set (t : Table K V) (k x : K) (v : V) :
    (t.set k v).get x = if x = k then some v else t.get x := by
  by_cases h : x = k
  · subst h
    simp only [get, set, AList.lookup_insert, if_true]
  · simp only [get, set, AList.lookup_insert_ne h, if_neg h]

@[simp] theorem get_set_self (t : Table K V) (k : K) (v : V) : (t.set k v).get k = some v := by
  rw [get_set, if_pos rfl]

theorem get_set_of_ne (t : Table K V) {k x : K} (v : V) (h : x ≠ k) :
    (t.set k v).get x = t.get x := by
  rw [get_set, if_neg h]

theorem get_remove (t : Table K V) (k x : K) :
    (t.remove k).get x = if x = k then none else t.get x := by
  by_cases h : x = k
  · subst h
    simp only [get, remove, AList.lookup_erase, if_true]
  · simp only [get, remove, AList.lookup_erase_ne h, if_neg h]

@[simp] theorem get_remove_self (t : Table K V) (k : K) : (t.remove k).get k = none := by
  rw [get_remove, if_pos rfl]

theorem get_remove_of_ne (t : Table K V) {k x : K} (h : x ≠ k) :
    (t.remove k).get x = t.get x := by
  rw [get_remove, if_neg h]

theorem set_set (t : Table K V) (k : K) (v w : V) : (t.set k v).set k w = t.set k w :=
  congrArg Table.mk (AList.insert_insert t.entries)

theorem set_remove (t : Table K V) (k : K) (v : V) : (t.remove k).set k v = t.set k v := by
  have hgone : k ∉ (t.entries.entries.kerase k).keys := List.notMem_keys_kerase k t.entries.nodupKeys
  apply congrArg Table.mk
  apply AList.ext
  rw [AList.entries_insert, AList.entries_insert]
  exact congrArg (List.cons _) (List.kerase_of_notMem_keys hgone)

theorem remove_of_get_eq_none {t : Table K V} {k : K} (h : t.get k = none) : t.remove k = t := by
  have hmem : k ∉ t.entries.entries.keys := AList.lookup_eq_none.1 h
  exact congrArg Table.mk (AList.ext (List.kerase_of_notMem_keys hmem))

theorem update_of_get {t : Table K V} {k : K} {v : V} (h : t.get k = some v) (f : V → V) :
    t.update k f = t.set k (f v) := by
  rw [update, h]

theorem update_of_get_eq_none {t : Table K V} {k : K} (h : t.get k = none) (f : V → V) :
    t.update k f = t := by
  rw [update, h]

theorem get_update (t : Table K V) (k x : K) (f : V → V) :
    (t.update k f).get x = if x = k then (t.get x).map f else t.get x := by
  cases hv : t.get k with
  | some v =>
    rw [update_of_get hv, get_set]
    split
    · rename_i hx
      rw [hx, hv, Option.map_some]
    · rfl
  | none =>
    rw [update_of_get_eq_none hv]
    split
    · rename_i hx
      rw [hx, hv, Option.map_none]
    · rfl

@[simp] theorem get_update_self (t : Table K V) (k : K) (f : V → V) :
    (t.update k f).get k = (t.get k).map f := by
  rw [get_update, if_pos rfl]

theorem get_eq_some_iff (t : Table K V) (k : K) (v : V) :
    t.get k = some v ↔ (⟨k, v⟩ : Σ _ : K, V) ∈ t.entries.entries := by
  rw [get, ← AList.mem_lookup_iff, Option.mem_def]

theorem get_retain (t : Table K V) (keep : K → V → Bool) (x : K) :
    (t.retain keep).get x = (t.get x).filter (keep x) := by
  ext v
  rw [get_eq_some_iff, Option.filter_eq_some_iff, get_eq_some_iff]
  simp only [retain, List.mem_filter]

theorem get_mapValues (t : Table K V) (f : V → V) (x : K) :
    (t.mapValues f).get x = (t.get x).map f := by
  ext v
  rw [get_eq_some_iff, Option.map_eq_some_iff]
  simp only [get_eq_some_iff, mapValues, List.mem_map]
  constructor
  · rintro ⟨⟨k, w⟩, hmem, heq⟩
    cases heq
    exact ⟨w, hmem, rfl⟩
  · rintro ⟨w, hmem, rfl⟩
    exact ⟨⟨x, w⟩, hmem, rfl⟩

/-- The key has a value. -/
def contains (t : Table K V) (k : K) : Bool := (t.get k).isSome

theorem get_set_eq_update (t : Table K V) (k : K) (v : V) :
    (t.set k v).get = Function.update t.get k (some v) := by
  funext x
  rw [get_set, Function.update_apply]

theorem get_remove_eq_update (t : Table K V) (k : K) :
    (t.remove k).get = Function.update t.get k none := by
  funext x
  rw [get_remove, Function.update_apply]

theorem contains_set (t : Table K V) (k : K) (v : V) :
    (t.set k v).contains = Function.update t.contains k true := by
  funext x
  rw [contains, get_set_eq_update, Function.apply_update (fun _ => Option.isSome)]
  rfl

theorem contains_remove (t : Table K V) (k : K) :
    (t.remove k).contains = Function.update t.contains k false := by
  funext x
  rw [contains, get_remove_eq_update, Function.apply_update (fun _ => Option.isSome)]
  rfl

/-! ### Iterating -/

theorem mem_toList (t : Table K V) (k : K) (v : V) : (k, v) ∈ t.toList ↔ t.get k = some v := by
  rw [get_eq_some_iff, toList, List.mem_map]
  constructor
  · rintro ⟨⟨k', v'⟩, hmem, heq⟩
    obtain ⟨rfl, rfl⟩ := Prod.mk.inj heq
    exact hmem
  · exact fun hmem => ⟨⟨k, v⟩, hmem, rfl⟩

theorem mem_values (t : Table K V) (v : V) : v ∈ t.values ↔ ∃ k, t.get k = some v := by
  simp only [values, List.mem_map, Prod.exists, exists_eq_right, mem_toList]

theorem mem_keys (t : Table K V) (k : K) : k ∈ t.keys ↔ ∃ v, t.get k = some v := by
  rw [keys, ← AList.mem_keys, ← AList.lookup_isSome, Option.isSome_iff_exists]
  rfl

theorem forall_toList (t : Table K V) (p : K → V → Prop) :
    (∀ entry ∈ t.toList, p entry.1 entry.2) ↔ ∀ k v, t.get k = some v → p k v := by
  simp only [Prod.forall, mem_toList]

theorem toList_set (t : Table K V) (k : K) (v : V) :
    (t.set k v).toList = (k, v) :: (t.remove k).toList := rfl

omit [DecidableEq K] in
theorem nodup_toList_keys (t : Table K V) : (t.toList.map Prod.fst).Nodup := by
  have hkeys : t.toList.map Prod.fst = t.entries.entries.keys := by
    rw [toList, List.map_map]
    rfl
  rw [hkeys]
  exact t.entries.nodupKeys

/-- Entries under different keys that are not there are added. -/
theorem toList_foldl_set_perm {l : List (K × V)} {t : Table K V} (hnodup : (l.map Prod.fst).Nodup)
    (hnew : ∀ entry ∈ l, t.get entry.1 = none) :
    (l.foldl (fun t entry => Table.set t entry.1 entry.2) t).toList.Perm (l ++ t.toList) := by
  induction l generalizing t with
  | nil => exact List.Perm.refl _
  | cons entry l ih =>
    obtain ⟨hentry, hrest⟩ := List.nodup_cons.1 hnodup
    have hleft : ∀ other ∈ l, (t.set entry.1 entry.2).get other.1 = none := by
      intro other hother
      have hne : other.1 ≠ entry.1 := fun heq => hentry (heq ▸ List.mem_map_of_mem hother)
      rw [get_set_of_ne t entry.2 hne]
      exact hnew other (List.mem_cons_of_mem entry hother)
    have hperm := ih hrest hleft
    rw [toList_set, remove_of_get_eq_none (hnew entry List.mem_cons_self)] at hperm
    exact hperm.trans List.perm_middle

/-- A list of entries is what the table made of it has, just when no two have one key. -/
theorem toList_foldl_set_perm_iff (l : List (K × V)) :
    (l.foldl (fun t entry => Table.set t entry.1 entry.2) ∅).toList.Perm l ↔ (l.map Prod.fst).Nodup := by
  constructor
  · intro hperm
    exact (hperm.map Prod.fst).nodup_iff.1 (nodup_toList_keys _)
  · intro hnodup
    have hperm := toList_foldl_set_perm hnodup fun entry _ => get_empty entry.1
    rwa [show (∅ : Table K V).toList = [] from rfl, List.append_nil] at hperm

/-- The keys of the entries that a pass over the table picks. -/
theorem mem_keys_filter (t : Table K V) (picks : K × V → Bool) (k : K) :
    k ∈ (t.toList.filter picks).map Prod.fst ↔ ∃ v, t.get k = some v ∧ picks (k, v) = true := by
  simp only [List.mem_map, List.mem_filter, Prod.exists, exists_and_right, exists_eq_right, mem_toList]

theorem get_foldl_remove (t : Table K V) (keys : List K) (x : K) :
    (keys.foldl remove t).get x = if x ∈ keys then none else t.get x := by
  induction keys generalizing t with
  | nil => simp
  | cons k rest ih =>
    rw [List.foldl_cons, ih, get_remove]
    by_cases hrest : x ∈ rest
    · simp [hrest]
    · by_cases hk : x = k
      · simp [hk]
      · simp [hrest, hk]

/-- Two tables that answer alike have the same entries. -/
theorem toList_perm {t t' : Table K V} (h : ∀ k, t.get k = t'.get k) : t.toList.Perm t'.toList := by
  refine List.Perm.map _ (List.lookup_ext t.entries.nodupKeys t'.entries.nodupKeys fun k v => ?_)
  exact Iff.of_eq (congrArg (v ∈ ·) (h k))

theorem toList_perm_of_get {t : Table K V} {k : K} {v : V} (h : t.get k = some v) :
    t.toList.Perm ((k, v) :: (t.remove k).toList) := by
  rw [← toList_set]
  refine toList_perm fun x => ?_
  rw [get_set]
  split
  · rename_i hx
    rw [hx, h]
  · rfl

omit [DecidableEq K] in
theorem toList_retain (t : Table K V) (keep : K → V → Bool) :
    (t.retain keep).toList = t.toList.filter fun entry => keep entry.1 entry.2 := by
  simp only [toList, retain, List.filter_map]
  rfl

omit [DecidableEq K] in
theorem toList_retain_perm (t : Table K V) (keep : K → V → Bool) :
    t.toList.Perm ((t.retain keep).toList ++ (t.retain fun k v => !keep k v).toList) := by
  rw [toList_retain, toList_retain]
  exact (List.filter_append_perm _ _).symm

/-! ### Gathering -/

section Gathering

variable {A : Type} {t t' : Table K V} {f f' : K → V → List A} {k : K}

/-- What the entries come to, one after the other. -/
def gather (t : Table K V) (f : K → V → List A) : List A := t.toList.flatMap fun entry => f entry.1 entry.2

/-- What the entry under a key comes to. -/
def part (t : Table K V) (f : K → V → List A) (k : K) : List A :=
  match t.get k with
  | some v => f k v
  | none => []

theorem part_of_get {v : V} (h : t.get k = some v) : t.part f k = f k v := by
  rw [part, h]

theorem part_of_get_eq_none (h : t.get k = none) : t.part f k = [] := by
  rw [part, h]

/-- The entry under a key comes first, and then the others. -/
theorem gather_perm_part (t : Table K V) (f : K → V → List A) (k : K) :
    (t.gather f).Perm (t.part f k ++ (t.remove k).gather f) := by
  cases hget : t.get k with
  | some v =>
    rw [part_of_get hget]
    exact (toList_perm_of_get hget).flatMap_right _
  | none => rw [part_of_get_eq_none hget, remove_of_get_eq_none hget, List.nil_append]

theorem gather_perm_of_get (h : ∀ x, t'.get x = t.get x) (hf : ∀ x v, t.get x = some v → (f' x v).Perm (f x v)) :
    (t'.gather f').Perm (t.gather f) := by
  refine ((toList_perm h).flatMap_right _).trans (List.Perm.flatMap_left _ fun entry hentry => ?_)
  exact hf _ _ ((t.mem_toList _ _).1 hentry)

/-- Where all other entries come to the same, the whole changes as the entry under the key does. -/
theorem gather_perm_of_others (h : ∀ x, x ≠ k → t'.get x = t.get x)
    (hf : ∀ x v, x ≠ k → t.get x = some v → (f' x v).Perm (f x v)) :
    (t'.gather f' ++ t.part f k).Perm (t.gather f ++ t'.part f' k) := by
  have hrest : ((t'.remove k).gather f').Perm ((t.remove k).gather f) := by
    refine gather_perm_of_get (fun x => ?_) fun x v hx => ?_
    · rw [get_remove, get_remove]
      split
      · rfl
      · rename_i hne
        exact h x hne
    · rw [get_remove] at hx
      split at hx
      · cases hx
      · rename_i hne
        exact hf x v hne hx
  have hmine := t'.gather_perm_part f' k
  have hold := t.gather_perm_part f k
  calc t'.gather f' ++ t.part f k
      _ |>.Perm ((t'.part f' k ++ (t'.remove k).gather f') ++ t.part f k) := hmine.append_right _
      _ |>.Perm (t'.part f' k ++ ((t.remove k).gather f ++ t.part f k)) := by
        rw [List.append_assoc]
        exact (hrest.append_right _).append_left _
      _ |>.Perm (t'.part f' k ++ t.gather f) := (List.perm_append_comm.trans hold.symm).append_left _
      _ |>.Perm (t.gather f ++ t'.part f' k) := List.perm_append_comm

omit [DecidableEq K] in
theorem gather_append_perm (t : Table K V) (f f' : K → V → List A) :
    (t.gather fun k v => f k v ++ f' k v).Perm (t.gather f ++ t.gather f') :=
  (List.flatMap_append_perm _ _ _).symm

end Gathering

/-! ### Numbering -/

/-- The entries numbered in the order of an iteration. -/
def numbered (t : Table K V) : Table K (Nat × V) :=
  ⟨⟨t.entries.entries.zipIdx.map fun entry => ⟨entry.1.1, (entry.2, entry.1.2)⟩, by
    rw [List.NodupKeys, List.keys, List.map_map]
    have hkeys := congrArg (List.map Sigma.fst) (List.zipIdx_map_fst 0 t.entries.entries)
    rw [List.map_map] at hkeys
    exact hkeys ▸ t.entries.nodupKeys⟩⟩

theorem map_get_numbered (t : Table K V) (k : K) : (t.numbered.get k).map Prod.snd = t.get k := by
  ext v
  rw [Option.map_eq_some_iff, get_eq_some_iff]
  constructor
  · rintro ⟨⟨n, w⟩, hget, rfl⟩
    rw [get_eq_some_iff] at hget
    obtain ⟨⟨⟨k', w'⟩, n'⟩, hmem, heq⟩ := List.mem_map.1 hget
    cases heq
    exact List.fst_mem_of_mem_zipIdx hmem
  · intro hmem
    obtain ⟨n, hn⟩ := List.mem_iff_getElem?.1 hmem
    refine ⟨(n, v), ?_, rfl⟩
    rw [get_eq_some_iff]
    exact List.mem_map.2 ⟨(⟨k, v⟩, n), List.mk_mem_zipIdx_iff_getElem?.2 hn, rfl⟩

omit [DecidableEq K] in
theorem numbers_numbered (t : Table K V) :
    t.numbered.values.map Prod.fst = List.range t.size := by
  have hnumbers : t.numbered.values.map Prod.fst = t.entries.entries.zipIdx.map Prod.snd := by
    simp only [values, toList, numbered, List.map_map]
    rfl
  rw [hnumbers, List.zipIdx_map_snd, size, AList.keys, List.keys, List.length_map,
    ← List.range_eq_range']

/-! ### Comparing -/

/-- Every entry of the first table is an entry of the second. -/
def Sub (t t' : Table K V) : Prop := ∀ k v, t.get k = some v → t'.get k = some v

theorem Sub.refl (t : Table K V) : t.Sub t := fun _ _ h => h

theorem Sub.trans {t t' t'' : Table K V} (h : t.Sub t') (h' : t'.Sub t'') : t.Sub t'' :=
  fun k v hk => h' k v (h k v hk)

theorem Sub.get_eq_none {t t' : Table K V} (h : t.Sub t') {k : K} (hk : t'.get k = none) :
    t.get k = none := by
  cases hget : t.get k with
  | none => rfl
  | some v => rw [h k v hget] at hk; cases hk

theorem remove_sub (t : Table K V) (k : K) : (t.remove k).Sub t := by
  intro x v hx
  rw [get_remove] at hx
  split at hx
  · cases hx
  · exact hx

/-! ### Counting -/

theorem get_eq_none_of_size_eq_zero {t : Table K V} (h : t.size = 0) (k : K) : t.get k = none := by
  rw [size, List.length_eq_zero_iff] at h
  rw [get, AList.lookup_eq_none, AList.mem_keys, h]
  exact List.not_mem_nil

theorem size_eq_zero_of_get {t : Table K V} (h : ∀ k, t.get k = none) : t.size = 0 := by
  rw [size, List.length_eq_zero_iff, List.eq_nil_iff_forall_not_mem]
  intro k hk
  exact AList.lookup_eq_none.1 (h k) (AList.mem_keys.2 hk)

@[simp] theorem isEmpty_iff (t : Table K V) : t.isEmpty = true ↔ ∀ k, t.get k = none := by
  rw [isEmpty, beq_iff_eq]
  exact ⟨get_eq_none_of_size_eq_zero, size_eq_zero_of_get⟩

theorem Sub.size_le {t t' : Table K V} (h : t.Sub t') : t.size ≤ t'.size := by
  refine (List.Nodup.subperm (AList.keys_nodup t.entries) (fun k hk => ?_)).length_le
  obtain ⟨v, hv⟩ := (mem_keys t k).1 hk
  exact (mem_keys t' k).2 ⟨v, h k v hv⟩

/-- A table with one key at most. -/
theorem size_le_one_of_get {t : Table K V} {k : K} (h : ∀ x, x ≠ k → t.get x = none) : t.size ≤ 1 := by
  have honly : ∀ x ∈ t.keys, x ∈ [k] := by
    intro x hx
    obtain ⟨v, hv⟩ := (mem_keys t x).1 hx
    by_contra hne
    rw [h x (fun heq => hne (List.mem_singleton.2 heq))] at hv
    cases hv
  exact (List.Nodup.subperm (AList.keys_nodup t.entries) honly).length_le

theorem size_remove_lt {t : Table K V} {k : K} {v : V} (h : t.get k = some v) :
    (t.remove k).size < t.size := by
  have hmem : k ∈ t.entries.keys := (mem_keys t k).2 ⟨v, h⟩
  simp only [size, remove, AList.keys_erase, List.length_erase_of_mem hmem]
  have := List.length_pos_of_mem hmem
  omega

theorem size_set_of_get {t : Table K V} {k : K} {v : V} (h : t.get k = some v) (w : V) :
    (t.set k w).size = t.size := by
  have hmem : k ∈ t.entries.keys := (mem_keys t k).2 ⟨v, h⟩
  simp only [size, set, AList.keys_insert, List.length_cons, List.length_erase_of_mem hmem]
  have := List.length_pos_of_mem hmem
  omega

theorem keys_set (t : Table K V) (k : K) (v : V) : (t.set k v).keys = k :: t.keys.erase k :=
  AList.keys_insert t.entries

theorem size_set_of_get_eq_none {t : Table K V} {k : K} (h : t.get k = none) (v : V) :
    (t.set k v).size = t.size + 1 := by
  have hmem : k ∉ t.entries.keys := by
    intro hkey
    obtain ⟨w, hw⟩ := (mem_keys t k).1 hkey
    rw [h] at hw
    cases hw
  simp only [size, set, AList.keys_insert, List.length_cons, List.erase_of_not_mem hmem]

theorem size_set_le (t : Table K V) (k : K) (v : V) : (t.set k v).size ≤ t.size + 1 := by
  cases hget : t.get k with
  | some w =>
    rw [size_set_of_get hget]
    omega
  | none => rw [size_set_of_get_eq_none hget]

/-- When the first keys of the table, in some order, are removed, no more are left than come after them. -/
theorem size_removed_le {t t' : Table K V} {order : List K} {n : Nat} (horder : order.Perm t.keys)
    (hremoved : ∀ k, t'.get k = if k ∈ order.take n then none else t.get k) : t'.size ≤ t.size - n := by
  have hrest : ∀ k ∈ t'.keys, k ∈ order.drop n := by
    intro k hk
    obtain ⟨v, hv⟩ := (mem_keys t' k).1 hk
    rw [hremoved] at hv
    split at hv
    · cases hv
    · rename_i hkept
      have horder' : k ∈ order.take n ++ order.drop n := by
        rw [List.take_append_drop]
        exact horder.mem_iff.2 ((mem_keys t k).2 ⟨v, hv⟩)
      exact (List.mem_append.1 horder').resolve_left hkept
  have hle := (List.Nodup.subperm (AList.keys_nodup t'.entries) hrest).length_le
  rw [List.length_drop, horder.length_eq] at hle
  exact hle

@[simp] theorem size_update (t : Table K V) (k : K) (f : V → V) :
    (t.update k f).size = t.size := by
  cases hv : t.get k with
  | some v => rw [update_of_get hv, size_set_of_get hv]
  | none => rw [update_of_get_eq_none hv]

end Table
