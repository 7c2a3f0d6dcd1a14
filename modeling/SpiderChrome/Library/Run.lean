import Mathlib.Data.List.Induction

/-!
# Runs of a step function

A machine is a function that takes a state and an input to the next state, and a run feeds it a list of inputs. `Allowed` says that every step of a run is taken under a guard on its input and on the state before it, and `Always` that a property holds in every state of the run. The two rules that connect them are `always_of_allowed`, for a guard under which the property is kept, and `always_iff_allowed`, for a guard that is exactly what keeping it takes.
-/

namespace Run

variable {State Input : Type} (step : State → Input → State)

/-- The state a run ends in. -/
def final (s : State) (inputs : List Input) : State := inputs.foldl step s

/-- Every input of the run meets the guard in the state it arrives in. -/
def Allowed (guard : State → Input → Prop) : State → List Input → Prop
  | _, [] => True
  | s, input :: rest => guard s input ∧ Allowed guard (step s input) rest

/-- The property holds in every state of the run, the first and the last included. -/
def Always (property : State → Prop) : State → List Input → Prop
  | s, [] => property s
  | s, input :: rest => property s ∧ Always property (step s input) rest

variable {step} {guard : State → Input → Prop} {property kept : State → Prop}

instance decidableAllowed [∀ s input, Decidable (guard s input)] :
    ∀ s inputs, Decidable (Allowed step guard s inputs)
  | _, [] => .isTrue trivial
  | s, input :: rest =>
    have := decidableAllowed (step s input) rest
    inferInstanceAs (Decidable (_ ∧ _))

@[simp] theorem final_nil (s : State) : final step s [] = s := rfl

@[simp] theorem final_cons (s : State) (input : Input) (rest : List Input) :
    final step s (input :: rest) = final step (step s input) rest := rfl

@[simp] theorem final_append (s : State) (before after : List Input) :
    final step s (before ++ after) = final step (final step s before) after :=
  List.foldl_append

theorem allowed_append {s : State} {before after : List Input} :
    Allowed step guard s (before ++ after) ↔
      Allowed step guard s before ∧ Allowed step guard (final step s before) after := by
  induction before generalizing s with
  | nil => simp [Allowed]
  | cons input rest ih => simp [Allowed, ih, and_assoc]

theorem allowed_true (s : State) (inputs : List Input) : Allowed step (fun _ _ => True) s inputs := by
  induction inputs generalizing s with
  | nil => trivial
  | cons input rest ih => exact ⟨trivial, ih _⟩

theorem allowed_of_forall {allowed : Input → Prop} (s : State) {inputs : List Input}
    (h : ∀ input ∈ inputs, allowed input) : Allowed step (fun _ => allowed) s inputs := by
  induction inputs generalizing s with
  | nil => trivial
  | cons input rest ih =>
    exact ⟨h input List.mem_cons_self, ih _ fun later hlater => h later (List.mem_cons_of_mem _ hlater)⟩

/-! ### Invariants -/

/-- A property that every guarded step keeps holds at the end of a guarded run. -/
theorem invariant (kept : State → Prop) (hstep : ∀ s input, kept s → guard s input → kept (step s input))
    {s : State} (hs : kept s) {inputs : List Input} (hallowed : Allowed step guard s inputs) :
    kept (final step s inputs) := by
  induction inputs generalizing s with
  | nil => exact hs
  | cons input rest ih => exact ih (hstep s input hs hallowed.1) hallowed.2

/-- A property that every step keeps holds at the end of every run. -/
theorem invariant_of_step (kept : State → Prop) (hstep : ∀ s input, kept s → kept (step s input))
    {s : State} (hs : kept s) (inputs : List Input) : kept (final step s inputs) := by
  exact invariant kept (fun s input h _ => hstep s input h) hs (allowed_true s inputs)

/-- A loop over a list relates the first state to the last as each of its turns does. -/
theorem foldl_rel {r : State → State → Prop} (hrefl : ∀ s, r s s)
    (htrans : ∀ {s t u}, r s t → r t u → r s u) (hstep : ∀ s input, r s (step s input)) (s : State)
    (inputs : List Input) : r s (inputs.foldl step s) := by
  induction inputs generalizing s with
  | nil => exact hrefl s
  | cons input rest ih => exact htrans (hstep s input) (ih (step s input))

/-- What no turn of a loop changes, the loop does not change. -/
theorem foldl_unchanged {Part : Type} {part : State → Part}
    (hstep : ∀ s input, part (step s input) = part s) (s : State) (inputs : List Input) :
    part (inputs.foldl step s) = part s := by
  induction inputs generalizing s with
  | nil => rfl
  | cons input rest ih => rw [List.foldl_cons, ih, hstep]

theorem Always.first {s : State} {inputs : List Input} (h : Always step property s inputs) :
    property s := by
  cases inputs with
  | nil => exact h
  | cons input rest => exact h.1

theorem Always.last {s : State} {inputs : List Input} (h : Always step property s inputs) :
    property (final step s inputs) := by
  induction inputs generalizing s with
  | nil => exact h
  | cons input rest ih => exact ih h.2

theorem Always.mono {weaker : State → Prop} (h : ∀ s, property s → weaker s) {s : State}
    {inputs : List Input} (halways : Always step property s inputs) :
    Always step weaker s inputs := by
  induction inputs generalizing s with
  | nil => exact h s halways
  | cons input rest ih => exact ⟨h s halways.1, ih halways.2⟩

theorem always_append {s : State} {before after : List Input} :
    Always step property s (before ++ after) ↔
      Always step property s before ∧ Always step property (final step s before) after := by
  induction before generalizing s with
  | nil => exact ⟨fun h => ⟨h.first, h⟩, fun h => h.2⟩
  | cons input rest ih => simp [Always, ih, and_assoc]

theorem always_of_allowed (hstep : ∀ s input, property s → guard s input → property (step s input))
    {s : State} (hs : property s) {inputs : List Input} (hallowed : Allowed step guard s inputs) :
    Always step property s inputs := by
  induction inputs generalizing s with
  | nil => exact hs
  | cons input rest ih => exact ⟨hs, ih (hstep s input hs hallowed.1) hallowed.2⟩

/-- A property that every step keeps holds in all states of a run. -/
theorem always_of_step (hstep : ∀ s input, property s → property (step s input)) {s : State}
    (hs : property s) (inputs : List Input) : Always step property s inputs := by
  induction inputs generalizing s with
  | nil => exact hs
  | cons input rest ih => exact ⟨hs, ih (hstep s input hs)⟩

/-- What an invariant says about every step is met by all steps of a run. -/
theorem allowed_of_step (kept : State → Prop) (hkept : ∀ s input, kept s → kept (step s input))
    (hguard : ∀ s input, kept s → guard s input) {s : State} (hs : kept s) (inputs : List Input) :
    Allowed step guard s inputs := by
  induction inputs generalizing s with
  | nil => trivial
  | cons input rest ih => exact ⟨hguard s input hs, ih (hkept s input hs)⟩

/-- Where an invariant that needs no guard makes the guard of a step exactly what the property takes to survive it, a run keeps the property in all its states just when all its steps meet the guard. The invariant may speak of the inputs that are still to come. -/
theorem always_iff_allowed (kept : State → List Input → Prop)
    (hkept : ∀ s input rest, kept s (input :: rest) → kept (step s input) rest)
    (hstep : ∀ s input rest, kept s (input :: rest) → property s →
      (property (step s input) ↔ guard s input))
    {s : State} {inputs : List Input} (hs : kept s inputs) (hproperty : property s) :
    Always step property s inputs ↔ Allowed step guard s inputs := by
  induction inputs generalizing s with
  | nil => exact ⟨fun _ => trivial, fun _ => hproperty⟩
  | cons input rest ih =>
    constructor
    · rintro ⟨_, hrest⟩
      have hnext := hrest.first
      exact ⟨(hstep s input rest hs hproperty).1 hnext, (ih (hkept s input rest hs) hnext).1 hrest⟩
    · rintro ⟨hguard, hrest⟩
      have hnext := (hstep s input rest hs hproperty).2 hguard
      exact ⟨hproperty, (ih (hkept s input rest hs) hnext).2 hrest⟩

/-- Two guards that an invariant makes the same allow the same runs. -/
theorem allowed_congr {held : State → Input → Prop} (kept : State → Prop)
    (hkept : ∀ s input, kept s → kept (step s input))
    (hstep : ∀ s input, kept s → (held s input ↔ guard s input)) {s : State} (hs : kept s)
    (inputs : List Input) : Allowed step held s inputs ↔ Allowed step guard s inputs := by
  induction inputs generalizing s with
  | nil => exact Iff.rfl
  | cons input rest ih => exact and_congr (hstep s input hs) (ih (hkept s input hs))

/-- The same where a run is to have a property in all its states and another in all its steps. -/
theorem allowed_and_always_iff_allowed {held : State → Input → Prop} (kept : State → Prop)
    (hkept : ∀ s input, kept s → kept (step s input))
    (hstep : ∀ s input, kept s → property s →
      (held s input ∧ property (step s input) ↔ guard s input))
    {s : State} (hs : kept s) (hproperty : property s) (inputs : List Input) :
    Allowed step held s inputs ∧ Always step property s inputs ↔ Allowed step guard s inputs := by
  induction inputs generalizing s with
  | nil => exact ⟨fun _ => trivial, fun _ => ⟨trivial, hproperty⟩⟩
  | cons input rest ih =>
    constructor
    · rintro ⟨⟨hheld, hallowed⟩, _, halways⟩
      have hnext := halways.first
      exact ⟨(hstep s input hs hproperty).1 ⟨hheld, hnext⟩,
        (ih (hkept s input hs) hnext).1 ⟨hallowed, halways⟩⟩
    · rintro ⟨hguard, hrest⟩
      obtain ⟨hheld, hnext⟩ := (hstep s input hs hproperty).2 hguard
      obtain ⟨hallowed, halways⟩ := (ih (hkept s input hs) hnext).2 hrest
      exact ⟨⟨hheld, hallowed⟩, hproperty, halways⟩

/-- A property of the inputs fed so far and the state they led to, established at the start and kept by every guarded step, holds at the end of a guarded run. -/
theorem history (recorded : List Input → State → Prop) {s : State} (hstart : recorded [] s)
    (hstep : ∀ before input, recorded before (final step s before) →
      guard (final step s before) input →
      recorded (before ++ [input]) (step (final step s before) input))
    {inputs : List Input} (hallowed : Allowed step guard s inputs) :
    recorded inputs (final step s inputs) := by
  induction inputs using List.reverseRecOn with
  | nil => exact hstart
  | append_singleton before input ih =>
    obtain ⟨hbefore, hinput, _⟩ := allowed_append.1 hallowed
    rw [final_append]
    exact hstep before input (ih hbefore) hinput

/-! ### Where runs lead -/

variable (step guard) in
/-- A guarded run leads from one state to the other. -/
def Reaches (s s' : State) : Prop := ∃ inputs, Allowed step guard s inputs ∧ final step s inputs = s'

theorem Reaches.refl (s : State) : Reaches step guard s s := ⟨[], trivial, rfl⟩

theorem Reaches.head {s s' : State} {input : Input} (hguard : guard s input)
    (h : Reaches step guard (step s input) s') : Reaches step guard s s' := by
  obtain ⟨inputs, hallowed, hfinal⟩ := h
  exact ⟨input :: inputs, ⟨hguard, hallowed⟩, hfinal⟩

theorem Reaches.trans {s s' s'' : State} (h : Reaches step guard s s') (h' : Reaches step guard s' s'') :
    Reaches step guard s s'' := by
  obtain ⟨before, hbefore, rfl⟩ := h
  obtain ⟨after, hafter, hfinal⟩ := h'
  exact ⟨before ++ after, allowed_append.2 ⟨hbefore, hafter⟩, (final_append _ _ _).trans hfinal⟩

/-- An invariant holds wherever a run leads. -/
theorem Reaches.invariant (kept : State → Prop) (hstep : ∀ s input, kept s → guard s input → kept (step s input))
    {s s' : State} (hs : kept s) (h : Reaches step guard s s') : kept s' := by
  obtain ⟨inputs, hallowed, rfl⟩ := h
  exact Run.invariant kept hstep hs hallowed

/-! ### Measures -/

/-- Where every step leaves the state alone or makes a measure smaller, a run whose steps all have an effect is no longer than the measure at its start. -/
theorem length_le_of_changes (kept : State → Prop) (measure : State → Nat)
    (hkept : ∀ s input, kept s → kept (step s input))
    (hstep : ∀ s input, kept s → step s input = s ∨ measure (step s input) < measure s) {s : State} (hs : kept s)
    {inputs : List Input} (hchanges : Allowed step (fun s input => step s input ≠ s) s inputs) :
    inputs.length ≤ measure s := by
  induction inputs generalizing s with
  | nil => exact Nat.zero_le _
  | cons input rest ih =>
    have hrest := ih (hkept s input hs) hchanges.2
    have hlt := (hstep s input hs).resolve_left hchanges.1
    rw [List.length_cons]
    omega

/-! ### Views -/

/-- A part of the state that only some of the inputs touch ends as if these were the only ones. -/
theorem view_final {View : Type} {viewStep : View → Input → View} (view : State → View)
    (touches : Input → Bool) (kept : State → Prop) (allowed : Input → Prop)
    (hkept : ∀ s input, kept s → allowed input → kept (step s input))
    (htouched : ∀ s input, kept s → allowed input → touches input = true →
      view (step s input) = viewStep (view s) input)
    (huntouched : ∀ s input, kept s → allowed input → touches input = false →
      view (step s input) = view s)
    {s : State} (hs : kept s) {inputs : List Input} (hallowed : ∀ input ∈ inputs, allowed input) :
    view (final step s inputs) = final viewStep (view s) (inputs.filter touches) := by
  induction inputs generalizing s with
  | nil => rfl
  | cons input rest ih =>
    have hinput := hallowed input List.mem_cons_self
    have hrest : ∀ input ∈ rest, allowed input := fun x hx => hallowed x (List.mem_cons_of_mem _ hx)
    rw [final_cons, ih (hkept s input hs hinput) hrest]
    cases htouches : touches input with
    | true => rw [List.filter_cons_of_pos htouches, final_cons, htouched s input hs hinput htouches]
    | false =>
      rw [List.filter_cons_of_neg (by simp [htouches]), huntouched s input hs hinput htouches]

end Run
