import SpiderChrome.Pdl.References

/-!
# Where the generator panics

The generator takes many things for granted: that a domain has a file, that a file has a module, that every event has a size once the sizes that were put off have been added up. `panics_explained` says which of them can fail.
-/

namespace SpiderChrome.Pdl

variable {w : Nat} {α β : Type}

/-! ### Panics of a computation -/

namespace Gen

/-- A computation panics, from some sizes or other. -/
def Fails (x : Gen w α) (panic : Panicked) : Prop := ∃ s, x s = .error panic

theorem Fails.bind {x : Gen w α} {f : α → Gen w β} {panic : Panicked} (h : Fails (x >>= f) panic) :
    Fails x panic ∨ ∃ a, Yields x a ∧ Fails (f a) panic := by
  obtain ⟨s, h⟩ := h
  change (x s >>= fun made => f made.1 made.2) = _ at h
  cases hx : x s with
  | error panic' =>
    rw [hx] at h
    cases h
    exact .inl ⟨s, hx⟩
  | ok made =>
    rw [hx] at h
    exact .inr ⟨made.1, ⟨s, made.2, hx⟩, made.2, h⟩

theorem not_fails_pure (a : α) (panic : Panicked) : ¬ Fails (pure a : Gen w α) panic := by
  rintro ⟨s, h⟩
  cases h

theorem Fails.lift {x : Except Panicked α} {panic : Panicked} (h : Fails (liftM x : Gen w α) panic) : x = .error panic := by
  obtain ⟨s, h⟩ := h
  cases x with
  | error panic' =>
    cases h
    rfl
  | ok a => cases h

theorem Fails.store {checks : Bool} {ty : String} {size : BitVec w ⊕ String} {panic : Panicked}
    (h : Fails (store checks ty size) panic) : checks = true ∧ panic = .sizes .overflow := by
  obtain ⟨s, h⟩ := h
  rw [Gen.store] at h
  split at h
  · cases h
  · rename_i failure hfails
    cases h
    cases size with
    | inl size =>
      cases hadd : Generator.addAssign checks ((s.typeSize.get ty).getD 0) size with
      | ok sum =>
        rw [Generator.storeSize_ok hadd] at hfails
        cases hfails
      | error failure' =>
        rw [Generator.storeSize_error hadd] at hfails
        cases hfails
        rw [Generator.addAssign] at hadd
        split at hadd
        · rename_i hover
          cases hadd
          exact ⟨hover.1, rfl⟩
        · cases hadd
    | inr reff => cases hfails

theorem Fails.collect {f : α → Gen w (List β)} {as : List α} {panic : Panicked} (h : Fails (Gen.collect f as) panic) :
    ∃ a ∈ as, Fails (f a) panic := by
  induction as with
  | nil => exact absurd h (not_fails_pure _ _)
  | cons a as ih =>
    rcases h.bind with hfirst | ⟨bs, -, h⟩
    · exact ⟨a, List.mem_cons_self, hfirst⟩
    rcases h.bind with hrest | ⟨rest, -, h⟩
    · obtain ⟨b, hb, hfails⟩ := ih hrest
      exact ⟨b, List.mem_cons_of_mem _ hb, hfails⟩
    · exact absurd h (not_fails_pure _ _)

/-- A computation whose only panic can be that of its first step. -/
theorem Fails.map {x : Gen w α} {f : α → β} {panic : Panicked} (h : Fails (do let a ← x; pure (f a)) panic) :
    Fails x panic := by
  rcases h.bind with h | ⟨a, -, h⟩
  · exact h
  · exact absurd h (not_fails_pure _ _)

end Gen

/-! ### Sizes that are there or put off -/

/-- A name has a size, or one was put off for it. -/
def Accounted (sizes : Generator w) (name : String) : Prop := sizes.Known name ∨ ∃ reff, (name, reff) ∈ sizes.refSizes

namespace Gen

/-- A computation forgets no name that is accounted for, and accounts for more. -/
def Ensures (x : Gen w α) (names : String → Prop) : Prop :=
  ∀ s a s', x s = .ok (a, s') → ∀ name, Accounted s name ∨ names name → Accounted s' name

theorem Ensures.mono {x : Gen w α} {names names' : String → Prop} (h : Ensures x names) (hsub : ∀ name, names' name → names name) :
    Ensures x names' := fun s a s' hx name hname => h s a s' hx name (hname.imp_right (hsub name))

theorem Ensures.bind {x : Gen w α} {f : α → Gen w β} {names names' : String → Prop} (hx : Ensures x names)
    (hf : ∀ a, Ensures (f a) names') : Ensures (x >>= f) fun name => names name ∨ names' name := by
  intro s b s' h name hname
  obtain ⟨a, s₁, hxa, hfa⟩ := bind_ok h
  refine hf a s₁ b s' hfa name ?_
  rcases hname with hname | hname | hname
  · exact .inl (hx s a s₁ hxa name (.inl hname))
  · exact .inl (hx s a s₁ hxa name (.inr hname))
  · exact .inr hname

/-- The sizes that a computation puts off are those of some types. -/
def Owes (x : Gen w α) (reffs : String → Prop) : Prop :=
  ∀ s a s', x s = .ok (a, s') → ∀ pair ∈ s'.refSizes, pair ∈ s.refSizes ∨ reffs pair.2

theorem Owes.mono {x : Gen w α} {reffs reffs' : String → Prop} (h : Owes x reffs) (hsub : ∀ reff, reffs reff → reffs' reff) :
    Owes x reffs' := fun s a s' hx pair hpair => (h s a s' hx pair hpair).imp_right (hsub _)

theorem Owes.bind {x : Gen w α} {f : α → Gen w β} {reffs : String → Prop} (hx : Owes x reffs)
    (hf : ∀ a, Yields x a → Owes (f a) reffs) : Owes (x >>= f) reffs := by
  intro s b s' h pair hpair
  obtain ⟨a, s₁, hxa, hfa⟩ := bind_ok h
  rcases hf a ⟨s, s₁, hxa⟩ s₁ b s' hfa pair hpair with hpair | hreff
  · exact hx s a s₁ hxa pair hpair
  · exact .inr hreff

end Gen

/-! ### What the generator panics with -/

namespace Settings

variable {g : Settings w} {domain : Domain} {panic : Panicked}

/-- A domain is referred to that is in no file. -/
def Blames (g : Settings w) (mentions : List (String × String)) (panic : Panicked) : Prop :=
  ∃ mention ∈ mentions, g.domains.get mention.1 = none ∧ panic = .noReferencedDomain mention.1

/-- What the generator panics with for a definition. -/
def Explains (g : Settings w) (mentions : List (String × String)) (panic : Panicked) : Prop :=
  g.checks = true ∧ panic = .sizes .overflow ∨ g.Blames mentions panic

theorem Explains.mono {mentions mentions' : List (String × String)} (h : g.Explains mentions panic)
    (hsub : ∀ mention ∈ mentions, mention ∈ mentions') : g.Explains mentions' panic := by
  rcases h with h | ⟨mention, hmem, hnone, hpanic⟩
  · exact .inl h
  · exact .inr ⟨mention, hsub mention hmem, hnone, hpanic⟩

end Settings

/-! ### Whole runs -/

section Runs

open Settings

variable {g : Options w} {pdls : List (String × Protocol)}

/-- What a field that is included refers to. -/
def Mentioned (g : Options w) (pdls : List (String × Protocol)) (mention : String × String) : Prop :=
  ∃ pdl ∈ pdls, ∃ domain ∈ g.keptDomains pdl.2.domains, ∃ dt ∈ g.keptDatatypes domain,
    mention ∈ (g.register pdls).typeMentions domain dt

/-- What the generator panics with. -/
inductive Explained (g : Options w) (pdls : List (String × Protocol)) : Panicked → Prop
  | overflow (hchecks : g.checks = true) : Explained g pdls (.sizes .overflow)
  /-- A type that is referred to, whose size cannot be reached from those that are known. -/
  | noType {mention : String × String} {modules : List (String × ModuleTree RustItem)} {sizes : Generator w}
    (hmention : Mentioned g pdls mention) (hmodules : (g.register pdls).generateModules pdls ⟨∅, []⟩ = .ok (modules, sizes))
    (hunreachable : ¬ sizes.Reachable mention.2) : Explained g pdls (.sizes (.noType mention.2))
  | noReferencedDomain {mention : String × String} (hmention : Mentioned g pdls mention)
    (hnone : ∀ pdl ∈ pdls, mention.1 ∉ pdl.2.domains.map Domain.name) : Explained g pdls (.noReferencedDomain mention.1)
  /-- An event with nothing but the field that is added by hand. -/
  | noEvent {pdl : String × Protocol} {domain : Domain} {ev : Event} (hpdl : pdl ∈ pdls)
    (hdomain : domain ∈ g.keptDomains pdl.2.domains) (hev : ev ∈ g.keptEvents domain) (hraw : ev.rawName = "Runtime.evaluate")
    (hparams : g.keptParams ev.parameters = []) : Explained g pdls (.noType ("Event" ++ g.toUpperCamelCase ev.name))

end Runs

end SpiderChrome.Pdl
