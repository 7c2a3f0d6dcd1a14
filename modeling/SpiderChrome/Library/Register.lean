import SpiderChrome.Library.Table

/-!
# Registers

What is put under a key gets a number, and stays live until it is closed with a fate: taken, replaced by what is put under the same key, or swept away with others. `Accounted` says that every number that was ever given out is in exactly one place, and every operation keeps it, because none but a new item changes what the register holds altogether.
-/

structure Register (Key Item Fate : Type) where
  /-- So many numbers were given out. -/
  opened : Nat
  live : Table Key (Nat × Item)
  closed : List (Nat × Item × Fate)

namespace Register

variable {Key Item Fate : Type} [DecidableEq Key]

/-- A register in which the entries of a table are live. -/
def ofTable (t : Table Key Item) : Register Key Item Fate := ⟨t.size, t.numbered, []⟩

def take (r : Register Key Item Fate) (k : Key) (fate : Fate) : Register Key Item Fate :=
  match r.live.get k with
  | some (n, item) =>
    { r with live := r.live.remove k, closed := r.closed ++ [(n, item, fate)] }
  | none => r

/-- A new item. What is live under its key is replaced. -/
def put (r : Register Key Item Fate) (k : Key) (item : Item) (replaced : Fate) :
    Register Key Item Fate :=
  let r := r.take k replaced
  { r with opened := r.opened + 1, live := r.live.set k (r.opened, item) }

/-- A new item that is closed at once. -/
def pass (r : Register Key Item Fate) (item : Item) (fate : Fate) : Register Key Item Fate :=
  { r with opened := r.opened + 1, closed := r.closed ++ [(r.opened, item, fate)] }

def sweep (r : Register Key Item Fate) (keep : Item → Bool) (fate : Fate) : Register Key Item Fate :=
  { r with
    live := r.live.retain fun _ entry => keep entry.2
    closed := r.closed ++ (r.live.retain fun _ entry => !keep entry.2).values.map fun entry =>
      (entry.1, entry.2, fate) }

/-- All that the register holds, with its numbers. -/
def items (r : Register Key Item Fate) : List (Nat × Item) :=
  r.live.values ++ r.closed.map fun entry => (entry.1, entry.2.1)

/-- Every number that was given out is in the register once. -/
def Accounted (r : Register Key Item Fate) : Prop :=
  (r.items.map Prod.fst).Perm (List.range r.opened)

/-! ### Live items -/

/-- The item under a key. -/
def item (r : Register Key Item Fate) (k : Key) : Option Item := (r.live.get k).map Prod.snd

theorem item_ofTable (t : Table Key Item) (k : Key) :
    (ofTable t : Register Key Item Fate).item k = t.get k :=
  t.map_get_numbered k

theorem live_take (r : Register Key Item Fate) (k : Key) (fate : Fate) :
    (r.take k fate).live = r.live.remove k := by
  unfold take
  split
  · rfl
  · rename_i hnone
    exact (Table.remove_of_get_eq_none hnone).symm

theorem closed_take (r : Register Key Item Fate) (k : Key) (fate : Fate) :
    (r.take k fate).closed =
      r.closed ++ ((r.live.get k).map fun entry => (entry.1, entry.2, fate)).toList := by
  unfold take
  split
  · rename_i hget
    rw [hget]
    rfl
  · rename_i hnone
    rw [hnone]
    exact (List.append_nil _).symm

theorem item_take (r : Register Key Item Fate) (k x : Key) (fate : Fate) :
    (r.take k fate).item x = if x = k then none else r.item x := by
  rw [item, live_take, Table.get_remove]
  split
  · rfl
  · rfl

theorem item_put (r : Register Key Item Fate) (k x : Key) (item : Item) (replaced : Fate) :
    (r.put k item replaced).item x = if x = k then some item else r.item x := by
  simp only [Register.item, put, Table.get_set, live_take, Table.get_remove]
  split
  · rfl
  · rfl

theorem closed_put (r : Register Key Item Fate) (k : Key) (item : Item) (replaced : Fate) :
    (r.put k item replaced).closed = (r.take k replaced).closed := rfl

theorem item_sweep (r : Register Key Item Fate) (keep : Item → Bool) (fate : Fate) (k : Key) :
    (r.sweep keep fate).item k = (r.item k).filter keep := by
  simp only [item, sweep, Table.get_retain]
  cases r.live.get k with
  | none => rfl
  | some entry =>
    simp only [Option.filter_some, Option.map_some]
    split
    · rfl
    · rfl

/-! ### Nothing is lost -/

theorem opened_take (r : Register Key Item Fate) (k : Key) (fate : Fate) :
    (r.take k fate).opened = r.opened := by
  unfold take
  split
  · rfl
  · rfl

theorem items_take (r : Register Key Item Fate) (k : Key) (fate : Fate) :
    (r.take k fate).items.Perm r.items := by
  unfold take
  split
  · rename_i n item hget
    have hlive : r.live.values.Perm ((n, item) :: (r.live.remove k).values) :=
      (Table.toList_perm_of_get hget).map Prod.snd
    simp only [items, List.map_append, List.map_cons, List.map_nil]
    rw [← List.append_assoc]
    exact (List.perm_append_singleton _ _).trans (hlive.append_right _).symm
  · exact .refl _

theorem items_put (r : Register Key Item Fate) (k : Key) (item : Item) (replaced : Fate) :
    (r.put k item replaced).items.Perm ((r.opened, item) :: r.items) := by
  have htaken : (r.put k item replaced).items =
      ((r.take k replaced).opened, item) :: (((r.take k replaced).live.remove k).values ++
        (r.take k replaced).closed.map fun entry => (entry.1, entry.2.1)) := rfl
  have hremoved : ((r.take k replaced).live.remove k) = (r.take k replaced).live := by
    refine Table.remove_of_get_eq_none ?_
    rw [live_take, Table.get_remove_self]
  rw [htaken, hremoved, opened_take]
  exact (r.items_take k replaced).cons _

omit [DecidableEq Key] in
theorem items_pass (r : Register Key Item Fate) (item : Item) (fate : Fate) :
    (r.pass item fate).items.Perm ((r.opened, item) :: r.items) := by
  simp only [items, pass, List.map_append, List.map_cons, List.map_nil]
  rw [← List.append_assoc]
  exact List.perm_append_singleton _ _

omit [DecidableEq Key] in
theorem items_sweep (r : Register Key Item Fate) (keep : Item → Bool) (fate : Fate) :
    (r.sweep keep fate).items.Perm r.items := by
  have hlive := (r.live.toList_retain_perm fun _ entry => keep entry.2).map Prod.snd
  rw [List.map_append] at hlive
  have hswept : ((r.live.retain fun _ entry => !keep entry.2).values.map fun entry =>
      (entry.1, entry.2, fate)).map (fun entry => (entry.1, entry.2.1)) =
        (r.live.retain fun _ entry => !keep entry.2).values := by
    rw [List.map_map]
    exact List.map_id _
  simp only [items, sweep, List.map_append, hswept]
  refine List.Perm.trans ?_ (hlive.append_right _).symm
  rw [List.append_assoc]
  exact List.Perm.append_left _ List.perm_append_comm

theorem mem_items_take {r : Register Key Item Fate} {entry : Nat × Item} (h : entry ∈ r.items)
    (k : Key) (fate : Fate) : entry ∈ (r.take k fate).items :=
  (r.items_take k fate).mem_iff.2 h

theorem mem_items_put {r : Register Key Item Fate} {entry : Nat × Item} (h : entry ∈ r.items)
    (k : Key) (item : Item) (replaced : Fate) : entry ∈ (r.put k item replaced).items :=
  (r.items_put k item replaced).mem_iff.2 (List.mem_cons_of_mem _ h)

omit [DecidableEq Key] in
theorem mem_items_pass {r : Register Key Item Fate} {entry : Nat × Item} (h : entry ∈ r.items)
    (item : Item) (fate : Fate) : entry ∈ (r.pass item fate).items :=
  (r.items_pass item fate).mem_iff.2 (List.mem_cons_of_mem _ h)

omit [DecidableEq Key] in
theorem mem_items_sweep {r : Register Key Item Fate} {entry : Nat × Item} (h : entry ∈ r.items)
    (keep : Item → Bool) (fate : Fate) : entry ∈ (r.sweep keep fate).items :=
  (r.items_sweep keep fate).mem_iff.2 h

/-! ### Accounts stay in order -/

omit [DecidableEq Key] in
theorem accounted_ofTable (t : Table Key Item) : (ofTable t : Register Key Item Fate).Accounted := by
  simp only [Accounted, items, ofTable, List.map_nil, List.append_nil, Table.numbers_numbered]
  exact .refl _

omit [DecidableEq Key] in
theorem accounted_of_items {r r' : Register Key Item Fate} (h : r.Accounted)
    (hopened : r'.opened = r.opened) (hitems : r'.items.Perm r.items) : r'.Accounted := by
  rw [Accounted, hopened]
  exact (hitems.map _).trans h

omit [DecidableEq Key] in
theorem accounted_of_new {r r' : Register Key Item Fate} (h : r.Accounted) {item : Item}
    (hopened : r'.opened = r.opened + 1) (hitems : r'.items.Perm ((r.opened, item) :: r.items)) :
    r'.Accounted := by
  rw [Accounted, hopened, List.range_succ]
  refine (hitems.map _).trans ?_
  exact (h.cons _).trans (List.perm_append_singleton _ _).symm

theorem Accounted.take {r : Register Key Item Fate} (h : r.Accounted) (k : Key) (fate : Fate) :
    (r.take k fate).Accounted :=
  accounted_of_items h (r.opened_take k fate) (r.items_take k fate)

theorem Accounted.put {r : Register Key Item Fate} (h : r.Accounted) (k : Key) (item : Item)
    (replaced : Fate) : (r.put k item replaced).Accounted :=
  accounted_of_new h (congrArg (· + 1) (r.opened_take k replaced)) (r.items_put k item replaced)

omit [DecidableEq Key] in
theorem Accounted.pass {r : Register Key Item Fate} (h : r.Accounted) (item : Item) (fate : Fate) :
    (r.pass item fate).Accounted :=
  accounted_of_new h rfl (r.items_pass item fate)

omit [DecidableEq Key] in
theorem Accounted.sweep {r : Register Key Item Fate} (h : r.Accounted) (keep : Item → Bool)
    (fate : Fate) : (r.sweep keep fate).Accounted :=
  accounted_of_items h rfl (r.items_sweep keep fate)

end Register
