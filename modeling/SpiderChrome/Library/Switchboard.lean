import Mathlib.Data.List.Nodup
import Mathlib.Logic.Function.Basic
import Mathlib.Logic.Relation

/-!
# Calls and their answers

Several parties make calls over one line. A call takes four steps: its party takes a number, records the route that the answer has to go, writes the call, and enters it among the calls that wait. One of the parties is at the line: it reads the answers, carries each to the box of the party that its route names, and keeps those without a route, which are its own. Calls may expire and parties may retire at any time. `Law` says where the answers end up and `Step` what can happen. `Sound` is the invariant from which the law follows, and `Sound.steps` that any number of steps in any order keep it.
-/

/-- How far a call has come. -/
inductive Switchboard.Stage where
  | fetched | routed | written
deriving DecidableEq

/-- The state of the line: the numbers that were taken, the calls that were written, entered, and had an answer read, handed over or not waited for any longer, what each party submits, is about to give up and gives up, what waits, the routes, the answer in the hand of the party at the line, the boxes, and who has not retired. -/
@[ext] structure Switchboard (Party Id : Type) where
  taken : List (Id × Party)
  written : List Id
  entered : List (Id × Party)
  read : List Id
  handed : List (Id × Party)
  expired : List (Id × Party)
  submits : Party → Option (Switchboard.Stage × Id)
  stale : Party → List Id
  givesUp : Party → Option Id
  waits : Party → Id → Bool
  route : Id → Option Party
  hand : Option (Id × Option Party)
  box : Party → List Id
  alive : Party → Bool

namespace Switchboard

variable {Party Id : Type}

/-- An answer is on its way to a party. -/
def Carried (b : Switchboard Party Id) (root : Party) (id : Id) (p : Party) : Prop :=
  b.hand = some (id, some p) ∨ (p = root ∧ b.hand = some (id, none)) ∨ id ∈ b.box p

/-- What becomes of numbers and answers. No number is taken or entered twice, and no call is answered twice. An answer is handed to the party that entered its call and is put into no other party's box. Once it has been read, it is on its way or was handed over, or its call has expired or the party has retired. -/
structure Law (b : Switchboard Party Id) (root : Party) : Prop where
  takenOnce : (b.taken.map Prod.fst).Nodup
  enteredOnce : (b.entered.map Prod.fst).Nodup
  handedOnce : (b.handed.map Prod.fst).Nodup
  handed : ∀ entry ∈ b.handed, entry ∈ b.entered
  boxed : ∀ id p, id ∈ b.box p → (id, p) ∈ b.taken
  answered : ∀ id ∈ b.read, ∃ p, (id, p) ∈ b.taken ∧
    (b.Carried root id p ∨ (id, p) ∈ b.handed ∨ (id, p) ∈ b.expired ∨ b.alive p = false)

/-- A party is given an answer: it has it if its call waits, and the call waits no more. -/
def answer [DecidableEq Party] [DecidableEq Id] (b : Switchboard Party Id) (p : Party) (id : Id) :
    Switchboard Party Id :=
  { b with
    handed := if b.waits p id then b.handed ++ [(id, p)] else b.handed
    waits := Function.update b.waits p (Function.update (b.waits p) id false) }

/-- What can happen. -/
inductive Step [DecidableEq Party] [DecidableEq Id] (root : Party) (b : Switchboard Party Id) :
    Switchboard Party Id → Prop where
  | fetch {p : Party} {id : Id} (hsubmits : b.submits p = none) (halive : b.alive p = true)
      (hhand : p = root → b.hand = none) (hfresh : id ∉ b.taken.map Prod.fst) :
      Step root b { b with
        taken := b.taken ++ [(id, p)]
        submits := Function.update b.submits p (some (.fetched, id)) }
  | record {p : Party} {id : Id} (hsubmits : b.submits p = some (.fetched, id)) :
      Step root b { b with
        route := if p = root then b.route else Function.update b.route id (some p)
        submits := Function.update b.submits p (some (.routed, id)) }
  | write {p : Party} {id : Id} (hsubmits : b.submits p = some (.routed, id)) :
      Step root b { b with
        written := b.written ++ [id]
        submits := Function.update b.submits p (some (.written, id)) }
  | refuse {p : Party} {id : Id} (hsubmits : b.submits p = some (.routed, id)) :
      Step root b { b with submits := Function.update b.submits p none }
  | enter {p : Party} {id : Id} (hsubmits : b.submits p = some (.written, id)) :
      Step root b { b with
        entered := b.entered ++ [(id, p)]
        submits := Function.update b.submits p none
        waits := Function.update b.waits p (Function.update (b.waits p) id true) }
  | read {id : Id} (hhand : b.hand = none) (hsubmits : b.submits root = none) (hwritten : id ∈ b.written) :
      Step root b { b with
        read := b.read ++ [id]
        hand := some (id, b.route id)
        route := Function.update b.route id none }
  | carry {id : Id} {p : Party} (hhand : b.hand = some (id, some p)) :
      Step root b { b with
        hand := none
        box := Function.update b.box p (if b.alive p then b.box p ++ [id] else b.box p) }
  | keep {id : Id} (hhand : b.hand = some (id, none)) :
      Step root b { b.answer root id with hand := none }
  | opens {p : Party} {id : Id} {rest : List Id} (hbox : b.box p = id :: rest) (hsubmits : b.submits p = none) :
      Step root b { b.answer p id with box := Function.update b.box p rest }
  | retire {p : Party} (hroot : p ≠ root) (hsubmits : b.submits p = none) :
      Step root b { b with
        box := Function.update b.box p []
        waits := Function.update b.waits p fun _ => false
        alive := Function.update b.alive p false }
  | choose {p : Party} {stale : List Id} (hstale : ∀ id ∈ stale, b.waits p id = true) :
      Step root b { b with stale := Function.update b.stale p stale }
  | expire {p : Party} {id : Id} {rest : List Id} (hstale : b.stale p = id :: rest) :
      Step root b { b with
        expired := b.expired ++ [(id, p)]
        route := Function.update b.route id none
        stale := Function.update b.stale p rest
        givesUp := Function.update b.givesUp p (some id) }
  | giveUp {p : Party} {id : Id} (hgivesUp : b.givesUp p = some id) :
      Step root b { b with
        givesUp := Function.update b.givesUp p none
        waits := Function.update b.waits p (Function.update (b.waits p) id false) }
  | evict {waits : Id → Bool} {lost : List Id} (hwaits : ∀ id, waits id = true → b.waits root id = true)
      (hlost : ∀ id, b.waits root id = true → waits id = false → id ∈ lost) :
      Step root b { b with
        expired := b.expired ++ lost.map fun id => (id, root)
        waits := Function.update b.waits root waits }
  | drop {p : Party} (halive : b.alive p = false) :
      Step root b { b with route := fun id => if b.route id = some p then none else b.route id }
  | join {p : Party} (hfresh : ∀ id, (id, p) ∉ b.taken) :
      Step root b { b with alive := Function.update b.alive p true }

/-! ### What holds at any time -/

/-- The party of a number is the one that took it. A call is on its route, or its answer on its way, from the time that the route is recorded until it is answered or given up. -/
structure Sound (b : Switchboard Party Id) (root : Party) : Prop where
  takenOnce : (b.taken.map Prod.fst).Nodup
  enteredOnce : (b.entered.map Prod.fst).Nodup
  handedOnce : (b.handed.map Prod.fst).Nodup
  entered : ∀ entry ∈ b.entered, entry ∈ b.taken
  handed : ∀ entry ∈ b.handed, entry ∈ b.entered
  submits : ∀ p stage id, b.submits p = some (stage, id) →
    (id, p) ∈ b.taken ∧ id ∉ b.entered.map Prod.fst ∧ b.alive p = true ∧ (stage ≠ .written → id ∉ b.written)
  written : ∀ id ∈ b.written, id ∈ b.entered.map Prod.fst ∨ ∃ p, b.submits p = some (.written, id)
  read : ∀ id ∈ b.read, id ∈ b.written
  route : ∀ id p, b.route id = some p → (id, p) ∈ b.taken ∧ p ≠ root
  hand : ∀ id route, b.hand = some (id, route) → id ∈ b.read ∧ b.submits root = none ∧
    ∀ p, route = some p → (id, p) ∈ b.taken ∧ p ≠ root
  boxed : ∀ id p, id ∈ b.box p → (id, p) ∈ b.taken ∧ id ∈ b.read ∧ p ≠ root
  waits : ∀ p id, b.waits p id = true → (id, p) ∈ b.entered ∧ (id, p) ∉ b.handed
  kept : ∀ id p, (id, p) ∈ b.entered → b.alive p = true → (id, p) ∉ b.expired → (id, p) ∉ b.handed →
    b.waits p id = true
  routed : ∀ id p, p ≠ root → b.alive p = true →
    ((id, p) ∈ b.entered ∨ ∃ stage, stage ≠ .fetched ∧ b.submits p = some (stage, id)) →
    (id, p) ∉ b.expired → (id, p) ∉ b.handed → b.route id = some p ∨ b.Carried root id p
  stale : ∀ p, ∀ id ∈ b.stale p, (id, p) ∈ b.entered
  givesUp : ∀ p id, b.givesUp p = some id → (id, p) ∈ b.expired
  answered : ∀ id ∈ b.read, ∃ p, (id, p) ∈ b.taken ∧
    (b.Carried root id p ∨ (id, p) ∈ b.handed ∨ (id, p) ∈ b.expired ∨ b.alive p = false)
  root : b.alive root = true

variable {root : Party} {b b' : Switchboard Party Id}

theorem Sound.law (h : Sound b root) : Law b root where
  takenOnce := h.takenOnce
  enteredOnce := h.enteredOnce
  handedOnce := h.handedOnce
  handed := h.handed
  boxed := fun id p hbox => (h.boxed id p hbox).1
  answered := h.answered

/-- In a list without repetitions a key has one value. -/
theorem unique_of_nodup {entries : List (Id × Party)} (h : (entries.map Prod.fst).Nodup) {id : Id}
    {p q : Party} (hp : (id, p) ∈ entries) (hq : (id, q) ∈ entries) : p = q :=
  (Prod.mk.inj (List.inj_on_of_nodup_map h hp hq rfl)).2

theorem nodup_append_singleton {entries : List (Id × Party)} (h : (entries.map Prod.fst).Nodup) {id : Id}
    (hfresh : id ∉ entries.map Prod.fst) (p : Party) : ((entries ++ [(id, p)]).map Prod.fst).Nodup := by
  rw [List.map_append]
  refine List.nodup_append.2 ⟨h, List.nodup_singleton _, fun a ha c hc heq => ?_⟩
  rw [List.map_singleton, List.mem_singleton] at hc
  rw [heq, hc] at ha
  exact hfresh ha

theorem Sound.party_unique (h : Sound b root) {id : Id} {p q : Party} (hp : (id, p) ∈ b.taken)
    (hq : (id, q) ∈ b.taken) : p = q :=
  unique_of_nodup h.takenOnce hp hq

/-- A call that was entered has an entry under the party that took its number. -/
theorem Sound.entered_of_mem (h : Sound b root) {id : Id} {p : Party} (hp : (id, p) ∈ b.taken)
    (hentered : id ∈ b.entered.map Prod.fst) : (id, p) ∈ b.entered := by
  obtain ⟨⟨other, q⟩, hmem, rfl⟩ := List.mem_map.1 hentered
  rw [h.party_unique hp (h.entered _ hmem)]
  exact hmem

theorem Sound.not_handed (h : Sound b root) {id : Id} (hentered : id ∉ b.entered.map Prod.fst) (p : Party) :
    (id, p) ∉ b.handed :=
  fun hmem => hentered (List.mem_map_of_mem (h.handed _ hmem))

/-- Two parties do not submit calls under one number. -/
theorem Sound.submits_unique (h : Sound b root) {id : Id} {p q : Party} {stage stage' : Stage}
    (hp : b.submits p = some (stage, id)) (hq : b.submits q = some (stage', id)) : p = q :=
  h.party_unique (h.submits p stage id hp).1 (h.submits q stage' id hq).1

/-- A call that has been written has an entry, or is about to have one. -/
theorem Sound.entered_of_read (h : Sound b root) {id : Id} {p : Party} (hp : (id, p) ∈ b.taken)
    (hread : id ∈ b.read) (hsubmits : b.submits p = none) : (id, p) ∈ b.entered := by
  rcases h.written id (h.read id hread) with hentered | ⟨q, hq⟩
  · exact h.entered_of_mem hp hentered
  · rw [h.party_unique (h.submits q _ id hq).1 hp, hsubmits] at hq
    cases hq

/-- An answer is in the hand of the party at the line only while that party submits nothing. -/
theorem Sound.ne_root (h : Sound b root) {p : Party} {stage : Stage} {id : Id}
    (hsubmits : b.submits p = some (stage, id)) {held : Id × Option Party} (hhand : b.hand = some held) :
    p ≠ root := by
  rintro rfl
  rw [(h.hand held.1 held.2 hhand).2.1] at hsubmits
  cases hsubmits

/-- No answer to a call that waits was handed to anybody. -/
theorem Sound.fresh_of_waits (h : Sound b root) {p : Party} {id : Id} (hwaits : b.waits p id = true) :
    id ∉ b.handed.map Prod.fst := by
  intro hmem
  obtain ⟨hentered, hhanded⟩ := h.waits p id hwaits
  obtain ⟨⟨other, q⟩, hentry, rfl⟩ := List.mem_map.1 hmem
  rw [h.party_unique (h.entered _ hentered) (h.entered _ (h.handed _ hentry))] at hhanded
  exact hhanded hentry

theorem update_eq_iff {α β : Type} [DecidableEq α] {f : α → β} {a x : α} {v w : β} :
    Function.update f a v x = w ↔ (x = a ∧ v = w) ∨ (x ≠ a ∧ f x = w) := by
  by_cases hsame : x = a
  · subst hsame
    simp
  · simp [hsame]

/-- What waits after one entry has changed. -/
theorem update_waits_iff [DecidableEq Party] [DecidableEq Id] {waits : Party → Id → Bool} {p q : Party}
    {id other : Id} {v w : Bool} :
    Function.update waits p (Function.update (waits p) id v) q other = w ↔
      ((q = p ∧ other = id) ∧ v = w) ∨ (¬ (q = p ∧ other = id) ∧ waits q other = w) := by
  by_cases hparty : q = p
  · subst hparty
    by_cases hsame : other = id
    · simp [hsame]
    · simp [hsame]
  · simp [hparty]

variable [DecidableEq Party]

/-! ### Calls that are made -/

theorem Sound.written_of_update (h : Sound b root) {p : Party}
    (hp : ∀ id, b.submits p ≠ some (.written, id)) (submitted : Option (Stage × Id)) :
    ∀ id ∈ b.written, id ∈ b.entered.map Prod.fst ∨
      ∃ q, Function.update b.submits p submitted q = some (.written, id) := by
  intro id hid
  rcases h.written id hid with hentered | ⟨q, hq⟩
  · exact .inl hentered
  · refine .inr ⟨q, update_eq_iff.2 (.inr ⟨?_, hq⟩)⟩
    rintro rfl
    exact hp id hq

/-- The party that submits a call is not the root, so what the root hands over stays as it is. -/
theorem Sound.hand_of_update (h : Sound b root) {p : Party} {stage : Stage} {id : Id}
    (hsubmits : b.submits p = some (stage, id)) (submitted : Option (Stage × Id)) :
    ∀ other route, b.hand = some (other, route) →
      other ∈ b.read ∧ Function.update b.submits p submitted root = none ∧
        ∀ q, route = some q → (other, q) ∈ b.taken ∧ q ≠ root := by
  intro other route hother
  obtain ⟨hread, hroot, hrest⟩ := h.hand other route hother
  exact ⟨hread, update_eq_iff.2 (.inr ⟨(h.ne_root hsubmits hother).symm, hroot⟩), hrest⟩

/-- A call that a party submits past its first stage has its route if the party submitted it so before. -/
theorem Sound.routed_of_update (h : Sound b root) {p : Party} {submitted : Option (Stage × Id)}
    (hbefore : ∀ stage id, stage ≠ .fetched → submitted = some (stage, id) →
      ∃ stage, stage ≠ .fetched ∧ b.submits p = some (stage, id)) :
    ∀ id q, q ≠ root → b.alive q = true →
      ((id, q) ∈ b.entered ∨
        ∃ stage, stage ≠ .fetched ∧ Function.update b.submits p submitted q = some (stage, id)) →
      (id, q) ∉ b.expired → (id, q) ∉ b.handed → b.route id = some q ∨ b.Carried root id q := by
  intro id q hq hlive hcall hexpired hhanded
  refine h.routed id q hq hlive (hcall.imp_right ?_) hexpired hhanded
  rintro ⟨stage, hstage, hsubmitted⟩
  rcases update_eq_iff.1 hsubmitted with ⟨rfl, heq⟩ | ⟨_, hsubmitted⟩
  · exact hbefore stage id hstage heq
  · exact ⟨stage, hstage, hsubmitted⟩

theorem Sound.fetch (h : Sound b root) {p : Party} {id : Id} (hsubmits : b.submits p = none)
    (halive : b.alive p = true) (hhand : p = root → b.hand = none) (hfresh : id ∉ b.taken.map Prod.fst) :
    Sound { b with
      taken := b.taken ++ [(id, p)]
      submits := Function.update b.submits p (some (.fetched, id)) } root := by
  have hmore : ∀ {entry}, entry ∈ b.taken → entry ∈ b.taken ++ [(id, p)] :=
    fun hmem => List.mem_append_left _ hmem
  have hnew : id ∉ b.entered.map Prod.fst := fun hmem => by
    obtain ⟨entry, hentry, rfl⟩ := List.mem_map.1 hmem
    exact hfresh (List.mem_map_of_mem (h.entered entry hentry))
  have hunwritten : id ∉ b.written := fun hmem => by
    rcases h.written id hmem with hentered | ⟨q, hq⟩
    · exact hnew hentered
    · exact hfresh (List.mem_map_of_mem (h.submits q _ id hq).1)
  exact { h with
    takenOnce := nodup_append_singleton h.takenOnce hfresh p
    entered := fun entry hentry => hmore (h.entered entry hentry)
    submits := by
      intro q stage other hq
      rcases update_eq_iff.1 hq with ⟨rfl, heq⟩ | ⟨_, hq⟩
      · cases heq
        exact ⟨List.mem_append_right _ (List.mem_singleton_self _), hnew, halive, fun _ => hunwritten⟩
      · obtain ⟨htaken, hrest⟩ := h.submits q stage other hq
        exact ⟨hmore htaken, hrest⟩
    written := h.written_of_update (fun other hother => by rw [hsubmits] at hother; cases hother) _
    route := fun other q hroute => ⟨hmore (h.route other q hroute).1, (h.route other q hroute).2⟩
    hand := by
      intro other route hother
      obtain ⟨hread, hroot, hroute⟩ := h.hand other route hother
      refine ⟨hread, update_eq_iff.2 (.inr ⟨?_, hroot⟩), fun q hq => ⟨hmore (hroute q hq).1, (hroute q hq).2⟩⟩
      rintro rfl
      rw [hhand rfl] at hother
      cases hother
    boxed := fun other q hbox => ⟨hmore (h.boxed other q hbox).1, (h.boxed other q hbox).2⟩
    routed := by
      apply h.routed_of_update
      rintro stage other hstage ⟨⟩
      exact absurd rfl hstage
    answered := by
      intro other hother
      obtain ⟨q, htaken, hfate⟩ := h.answered other hother
      exact ⟨q, hmore htaken, hfate⟩ }

theorem Sound.record [DecidableEq Id] (h : Sound b root) {p : Party} {id : Id}
    (hsubmits : b.submits p = some (.fetched, id)) :
    Sound { b with
      route := if p = root then b.route else Function.update b.route id (some p)
      submits := Function.update b.submits p (some (.routed, id)) } root := by
  obtain ⟨htaken, hnew, halive, hunwritten⟩ := h.submits p _ id hsubmits
  have hroute : ∀ other, other ≠ id →
      (if p = root then b.route else Function.update b.route id (some p)) other = b.route other := by
    intro other hother
    split
    · rfl
    · rw [Function.update_of_ne hother]
  exact { h with
    submits := by
      intro q stage other hq
      rcases update_eq_iff.1 hq with ⟨rfl, heq⟩ | ⟨_, hq⟩
      · cases heq
        exact ⟨htaken, hnew, halive, fun _ => hunwritten nofun⟩
      · exact h.submits q stage other hq
    written := h.written_of_update (fun other hother => by rw [hsubmits] at hother; cases hother) _
    route := by
      intro other q hq
      by_cases hsame : other = id
      · by_cases hp : p = root
        · simp only [hp, if_true] at hq
          exact h.route other q hq
        · simp only [hp, if_false, hsame, Function.update_self] at hq
          cases hq
          exact ⟨hsame ▸ htaken, hp⟩
      · exact h.route other q ((hroute other hsame).symm.trans hq)
    hand := h.hand_of_update hsubmits _
    routed := by
      intro other q hq hlive hcall hexpired hhanded
      by_cases hsame : other = id
      · -- The call whose route is being recorded is the party's own.
        have hparty : q = p := by
          rcases hcall with hentered | ⟨stage, _, hsubmitted⟩
          · exact absurd (List.mem_map_of_mem (hsame ▸ hentered)) hnew
          · rcases update_eq_iff.1 hsubmitted with ⟨hparty, _⟩ | ⟨_, hsubmitted⟩
            · exact hparty
            · exact h.submits_unique (hsame ▸ hsubmitted) hsubmits
        refine .inl ?_
        simp only [← hparty, hq, hsame, if_false, Function.update_self]
      · have hcall' : (other, q) ∈ b.entered ∨
            ∃ stage, stage ≠ .fetched ∧ b.submits q = some (stage, other) := by
          rcases hcall with hentered | ⟨stage, hstage, hsubmitted⟩
          · exact .inl hentered
          · rcases update_eq_iff.1 hsubmitted with ⟨_, heq⟩ | ⟨_, hsubmitted⟩
            · cases heq
              exact absurd rfl hsame
            · exact .inr ⟨stage, hstage, hsubmitted⟩
        rcases h.routed other q hq hlive hcall' hexpired hhanded with hroute' | hcarried
        · exact .inl ((hroute other hsame).trans hroute')
        · exact .inr hcarried }

theorem Sound.write (h : Sound b root) {p : Party} {id : Id} (hsubmits : b.submits p = some (.routed, id)) :
    Sound { b with
      written := b.written ++ [id]
      submits := Function.update b.submits p (some (.written, id)) } root := by
  obtain ⟨htaken, hnew, halive, _⟩ := h.submits p _ id hsubmits
  exact { h with
    submits := by
      intro q stage other hq
      rcases update_eq_iff.1 hq with ⟨rfl, heq⟩ | ⟨hsame, hq⟩
      · cases heq
        exact ⟨htaken, hnew, halive, fun hstage => absurd rfl hstage⟩
      · obtain ⟨hother, hentered, hlive, hnot⟩ := h.submits q stage other hq
        refine ⟨hother, hentered, hlive, fun hstage hmem => ?_⟩
        rcases List.mem_append.1 hmem with hmem | hmem
        · exact hnot hstage hmem
        · rw [List.mem_singleton.1 hmem] at hq
          exact hsame (h.submits_unique hq hsubmits)
    written := by
      intro other hother
      rcases List.mem_append.1 hother with hother | hother
      · exact h.written_of_update (fun other hother => by rw [hsubmits] at hother; cases hother) _ other hother
      · rw [List.mem_singleton.1 hother]
        exact .inr ⟨p, Function.update_self _ _ _⟩
    read := fun other hother => List.mem_append_left _ (h.read other hother)
    hand := h.hand_of_update hsubmits _
    routed := by
      apply h.routed_of_update
      rintro stage other hstage ⟨⟩
      exact ⟨.routed, nofun, hsubmits⟩ }

theorem Sound.refuse (h : Sound b root) {p : Party} {id : Id} (hsubmits : b.submits p = some (.routed, id)) :
    Sound { b with submits := Function.update b.submits p none } root := by
  exact { h with
    submits := by
      intro q stage other hq
      rcases update_eq_iff.1 hq with ⟨_, heq⟩ | ⟨_, hq⟩
      · cases heq
      · exact h.submits q stage other hq
    written := h.written_of_update (fun other hother => by rw [hsubmits] at hother; cases hother) _
    hand := h.hand_of_update hsubmits _
    routed := h.routed_of_update nofun }

theorem Sound.enter [DecidableEq Id] (h : Sound b root) {p : Party} {id : Id} (hsubmits : b.submits p = some (.written, id)) :
    Sound { b with
      entered := b.entered ++ [(id, p)]
      submits := Function.update b.submits p none
      waits := Function.update b.waits p (Function.update (b.waits p) id true) } root := by
  obtain ⟨htaken, hnew, halive, _⟩ := h.submits p _ id hsubmits
  have hmem : ∀ {entry}, entry ∈ b.entered ++ [(id, p)] → entry ∈ b.entered ∨ entry = (id, p) :=
    fun hentry => (List.mem_append.1 hentry).imp_right List.mem_singleton.1
  exact { h with
    enteredOnce := nodup_append_singleton h.enteredOnce hnew p
    entered := by
      intro entry hentry
      rcases hmem hentry with hentry | rfl
      · exact h.entered entry hentry
      · exact htaken
    handed := fun entry hentry => List.mem_append_left _ (h.handed entry hentry)
    submits := by
      intro q stage other hq
      rcases update_eq_iff.1 hq with ⟨_, heq⟩ | ⟨hsame, hq⟩
      · cases heq
      · obtain ⟨hother, hentered, hrest⟩ := h.submits q stage other hq
        refine ⟨hother, fun hin => ?_, hrest⟩
        rw [List.map_append, List.mem_append] at hin
        rcases hin with hin | hin
        · exact hentered hin
        · rw [List.mem_singleton.1 hin] at hq
          exact hsame (h.submits_unique hq hsubmits)
    written := by
      intro other hother
      rcases h.written other hother with hentered | ⟨q, hq⟩
      · exact .inl (by rw [List.map_append]; exact List.mem_append_left _ hentered)
      · by_cases hsame : q = p
        · rw [hsame, hsubmits] at hq
          cases hq
          exact .inl (by simp)
        · exact .inr ⟨q, update_eq_iff.2 (.inr ⟨hsame, hq⟩)⟩
    hand := h.hand_of_update hsubmits _
    waits := by
      intro q other hq
      rcases update_waits_iff.1 hq with ⟨⟨rfl, rfl⟩, _⟩ | ⟨_, hq⟩
      · exact ⟨List.mem_append_right _ (List.mem_singleton_self _), h.not_handed hnew q⟩
      · exact ⟨List.mem_append_left _ (h.waits q other hq).1, (h.waits q other hq).2⟩
    kept := by
      intro other q hentry hlive hexpired hhanded
      refine update_waits_iff.2 ?_
      by_cases hsame : q = p ∧ other = id
      · exact .inl ⟨hsame, rfl⟩
      · refine .inr ⟨hsame, ?_⟩
        rcases hmem hentry with hentry | heq
        · exact h.kept other q hentry hlive hexpired hhanded
        · cases heq
          exact absurd ⟨rfl, rfl⟩ hsame
    routed := by
      intro other q hq hlive hcall hexpired hhanded
      refine h.routed other q hq hlive ?_ hexpired hhanded
      rcases hcall with hentry | ⟨stage, hstage, hsubmitted⟩
      · rcases hmem hentry with hentry | heq
        · exact .inl hentry
        · cases heq
          exact .inr ⟨.written, nofun, hsubmits⟩
      · rcases update_eq_iff.1 hsubmitted with ⟨_, heq⟩ | ⟨_, hsubmitted⟩
        · cases heq
        · exact .inr ⟨stage, hstage, hsubmitted⟩
    stale := fun q other hother => List.mem_append_left _ (h.stale q other hother) }

/-! ### Answers that are read -/

theorem Sound.reads [DecidableEq Id] (h : Sound b root) {id : Id} (hhand : b.hand = none) (hsubmits : b.submits root = none)
    (hwritten : id ∈ b.written) :
    Sound { b with
      read := b.read ++ [id]
      hand := some (id, b.route id)
      route := Function.update b.route id none } root := by
  have hbox : ∀ {other q}, b.Carried root other q → other ∈ b.box q := by
    rintro other q (hcarried | ⟨_, hcarried⟩ | hcarried)
    · rw [hhand] at hcarried
      cases hcarried
    · rw [hhand] at hcarried
      cases hcarried
    · exact hcarried
  exact { h with
    read := by
      intro other hother
      rcases List.mem_append.1 hother with hother | hother
      · exact h.read other hother
      · rw [List.mem_singleton.1 hother]
        exact hwritten
    route := by
      intro other q hq
      rcases update_eq_iff.1 hq with ⟨_, heq⟩ | ⟨_, hq⟩
      · cases heq
      · exact h.route other q hq
    hand := by
      intro other route heq
      cases heq
      exact ⟨List.mem_append_right _ (List.mem_singleton_self _), hsubmits, fun q hq => h.route id q hq⟩
    boxed := fun other q hother =>
      ⟨(h.boxed other q hother).1, List.mem_append_left _ (h.boxed other q hother).2.1,
        (h.boxed other q hother).2.2⟩
    routed := by
      intro other q hq hlive hcall hexpired hhanded
      rcases h.routed other q hq hlive hcall hexpired hhanded with hroute | hcarried
      · by_cases hsame : other = id
        · refine .inr (.inl ?_)
          rw [hsame] at hroute ⊢
          simp only [hroute]
        · exact .inl (update_eq_iff.2 (.inr ⟨hsame, hroute⟩))
      · exact .inr (.inr (.inr (hbox hcarried)))
    answered := by
      intro other hother
      rcases List.mem_append.1 hother with hother | hother
      · obtain ⟨q, htaken, hfate⟩ := h.answered other hother
        exact ⟨q, htaken, hfate.imp_left fun hcarried => .inr (.inr (hbox hcarried))⟩
      · obtain rfl := List.mem_singleton.1 hother
        -- The call has been written: it has an entry or is about to have one.
        have hcall : ∃ p, (other, p) ∈ b.taken ∧ ((other, p) ∈ b.entered ∨
            ∃ stage : Stage, stage ≠ .fetched ∧ b.submits p = some (stage, other)) := by
          rcases h.written other hwritten with hentered | ⟨p, hp⟩
          · obtain ⟨⟨_, p⟩, hentry, rfl⟩ := List.mem_map.1 hentered
            exact ⟨p, h.entered _ hentry, .inl hentry⟩
          · exact ⟨p, (h.submits p _ other hp).1, .inr ⟨.written, nofun, hp⟩⟩
        obtain ⟨p, htaken, hcall⟩ := hcall
        refine ⟨p, htaken, ?_⟩
        by_cases hparty : p = root
        · have hroute : b.route other = none := by
            refine Option.eq_none_iff_forall_ne_some.2 fun q hq => ?_
            obtain ⟨htaken', hne⟩ := h.route other q hq
            exact hne ((h.party_unique htaken' htaken).trans hparty)
          exact .inl (.inr (.inl ⟨hparty, by simp only [hroute]⟩))
        · cases hlive : b.alive p with
          | false => exact .inr (.inr (.inr rfl))
          | true =>
            by_cases hexpired : (other, p) ∈ b.expired
            · exact .inr (.inr (.inl hexpired))
            by_cases hhanded : (other, p) ∈ b.handed
            · exact .inr (.inl hhanded)
            rcases h.routed other p hparty hlive hcall hexpired hhanded with hroute | hcarried
            · exact .inl (.inl (by simp only [hroute]))
            · exact .inl (.inr (.inr (hbox hcarried))) }

theorem Sound.carry (h : Sound b root) {id : Id} {p : Party} (hhand : b.hand = some (id, some p)) :
    Sound { b with
      hand := none
      box := Function.update b.box p (if b.alive p then b.box p ++ [id] else b.box p) } root := by
  obtain ⟨hread, _, hroute⟩ := h.hand id (some p) hhand
  obtain ⟨htaken, hp⟩ := hroute p rfl
  have hbox : ∀ {other q}, other ∈ b.box q →
      other ∈ Function.update b.box p (if b.alive p then b.box p ++ [id] else b.box p) q := by
    intro other q hother
    by_cases hsame : q = p
    · subst hsame
      rw [Function.update_self]
      split
      · exact List.mem_append_left _ hother
      · exact hother
    · rwa [Function.update_of_ne hsame]
  have hcarried : ∀ {other q}, b.Carried root other q → b.alive q = true →
      other ∈ Function.update b.box p (if b.alive p then b.box p ++ [id] else b.box p) q := by
    rintro other q (heq | ⟨_, heq⟩ | hother) hlive
    · rw [hhand] at heq
      cases heq
      rw [Function.update_self, if_pos hlive]
      exact List.mem_append_right _ (List.mem_singleton_self _)
    · rw [hhand] at heq
      cases heq
    · exact hbox hother
  exact { h with
    hand := nofun
    boxed := by
      intro other q hother
      by_cases hsame : q = p
      · subst hsame
        simp only [Function.update_self] at hother
        split at hother
        · rcases List.mem_append.1 hother with hother | hother
          · exact h.boxed other q hother
          · rw [List.mem_singleton.1 hother]
            exact ⟨htaken, hread, hp⟩
        · exact h.boxed other q hother
      · simp only [Function.update_of_ne hsame] at hother
        exact h.boxed other q hother
    routed := by
      intro other q hq hlive hcall hexpired hhanded
      exact (h.routed other q hq hlive hcall hexpired hhanded).imp_right fun hother =>
        .inr (.inr (hcarried hother hlive))
    answered := by
      intro other hother
      obtain ⟨q, htaken', hfate⟩ := h.answered other hother
      refine ⟨q, htaken', ?_⟩
      cases hlive : b.alive q with
      | false => exact .inr (.inr (.inr rfl))
      | true =>
        rw [hlive] at hfate
        exact hfate.imp_left fun hother => .inr (.inr (hcarried hother hlive)) }

/-! ### Answers that arrive -/

theorem mem_answer [DecidableEq Id] {p : Party} {id : Id} {entry : Id × Party} :
    entry ∈ (b.answer p id).handed ↔ entry ∈ b.handed ∨ (entry = (id, p) ∧ b.waits p id = true) := by
  unfold answer
  dsimp only
  split
  · rename_i hwaits
    rw [List.mem_append, List.mem_singleton]
    exact or_congr_right (and_iff_left hwaits).symm
  · rename_i hwaits
    exact (or_iff_left fun h => hwaits h.2).symm

theorem Sound.answer [DecidableEq Id] (h : Sound b root) (p : Party) (id : Id) : Sound (b.answer p id) root := by
  exact { h with
    handedOnce := by
      unfold Switchboard.answer
      dsimp only
      split
      · rename_i hwaits
        exact nodup_append_singleton h.handedOnce (h.fresh_of_waits hwaits) p
      · exact h.handedOnce
    handed := by
      intro entry hentry
      rcases mem_answer.1 hentry with hentry | ⟨rfl, hwaits⟩
      · exact h.handed entry hentry
      · exact (h.waits p id hwaits).1
    waits := by
      intro q other hq
      rcases update_waits_iff.1 hq with ⟨_, heq⟩ | ⟨hother, hq⟩
      · cases heq
      · refine ⟨(h.waits q other hq).1, fun hhanded => ?_⟩
        rcases mem_answer.1 hhanded with hhanded | ⟨heq, _⟩
        · exact (h.waits q other hq).2 hhanded
        · cases heq
          exact hother ⟨rfl, rfl⟩
    kept := by
      intro other q hentry hlive hexpired hhanded
      have hold : b.waits q other = true :=
        h.kept other q hentry hlive hexpired fun hmem => hhanded (mem_answer.2 (.inl hmem))
      refine update_waits_iff.2 (.inr ⟨?_, hold⟩)
      rintro ⟨rfl, rfl⟩
      exact hhanded (mem_answer.2 (.inr ⟨rfl, hold⟩))
    routed := fun other q hq hlive hcall hexpired hhanded =>
      h.routed other q hq hlive hcall hexpired fun hmem => hhanded (mem_answer.2 (.inl hmem))
    answered := by
      intro other hother
      obtain ⟨q, htaken, hfate⟩ := h.answered other hother
      exact ⟨q, htaken, hfate.imp_right fun hfate => hfate.imp_left fun hmem => mem_answer.2 (.inl hmem)⟩ }

/-- A party that has been given an answer has it, unless it had given the call up. -/
theorem Sound.answer_fate [DecidableEq Id] (h : Sound b root) {p : Party} {id : Id} (htaken : (id, p) ∈ b.taken)
    (hread : id ∈ b.read) (hsubmits : b.submits p = none) :
    (id, p) ∈ (b.answer p id).handed ∨ (id, p) ∈ b.expired ∨ b.alive p = false := by
  by_cases hhanded : (id, p) ∈ b.handed
  · exact .inl (mem_answer.2 (.inl hhanded))
  by_cases hexpired : (id, p) ∈ b.expired
  · exact .inr (.inl hexpired)
  cases hlive : b.alive p with
  | false => exact .inr (.inr rfl)
  | true =>
    have hentered := h.entered_of_read htaken hread hsubmits
    exact .inl (mem_answer.2 (.inr ⟨rfl, h.kept id p hentered hlive hexpired hhanded⟩))

theorem Sound.keep [DecidableEq Id] (h : Sound b root) {id : Id} (hhand : b.hand = some (id, none)) :
    Sound { b.answer root id with hand := none } root := by
  obtain ⟨hread, hsubmits, _⟩ := h.hand id none hhand
  have hgiven := h.answer root id
  have hcarried : ∀ {other q}, b.Carried root other q → other ∈ b.box q ∨ (other = id ∧ q = root) := by
    rintro other q (heq | ⟨hq, heq⟩ | hother)
    · rw [hhand] at heq
      cases heq
    · rw [hhand] at heq
      cases heq
      exact .inr ⟨rfl, hq⟩
    · exact .inl hother
  exact { hgiven with
    hand := nofun
    routed := by
      intro other q hq hlive hcall hexpired hhanded
      refine (hgiven.routed other q hq hlive hcall hexpired hhanded).imp_right fun hother => ?_
      rcases hcarried hother with hother | ⟨_, hroot⟩
      · exact .inr (.inr hother)
      · exact absurd hroot hq
    answered := by
      intro other hother
      obtain ⟨q, htaken, hfate⟩ := hgiven.answered other hother
      refine ⟨q, htaken, ?_⟩
      rcases hfate with hother' | hfate
      · rcases hcarried hother' with hother' | ⟨rfl, rfl⟩
        · exact .inl (.inr (.inr hother'))
        · exact .inr (h.answer_fate htaken hread hsubmits)
      · exact .inr hfate }

theorem Sound.opens [DecidableEq Id] (h : Sound b root) {p : Party} {id : Id} {rest : List Id} (hbox : b.box p = id :: rest)
    (hsubmits : b.submits p = none) :
    Sound { b.answer p id with box := Function.update b.box p rest } root := by
  have hgiven := h.answer p id
  obtain ⟨htaken, hread, hp⟩ := h.boxed id p (hbox ▸ List.mem_cons_self)
  have hless : ∀ {other q}, other ∈ Function.update b.box p rest q → other ∈ b.box q := by
    intro other q hother
    by_cases hsame : q = p
    · subst hsame
      rw [Function.update_self] at hother
      exact hbox ▸ List.mem_cons_of_mem _ hother
    · rwa [Function.update_of_ne hsame] at hother
  have hmore : ∀ {other q}, other ∈ b.box q →
      other ∈ Function.update b.box p rest q ∨ (other = id ∧ q = p) := by
    intro other q hother
    by_cases hsame : q = p
    · subst hsame
      rw [hbox] at hother
      rcases List.mem_cons.1 hother with rfl | hother
      · exact .inr ⟨rfl, rfl⟩
      · exact .inl (by rwa [Function.update_self])
    · exact .inl (by rwa [Function.update_of_ne hsame])
  exact { hgiven with
    boxed := fun other q hother => h.boxed other q (hless hother)
    routed := by
      intro other q hq hlive hcall hexpired hhanded
      refine (hgiven.routed other q hq hlive hcall hexpired hhanded).imp_right ?_
      rintro (heq | heq | hother)
      · exact .inl heq
      · exact .inr (.inl heq)
      · rcases hmore hother with hother | ⟨rfl, rfl⟩
        · exact .inr (.inr hother)
        · -- It has just been given the answer.
          rcases h.answer_fate htaken hread hsubmits with hmem | hmem | hdead
          · exact absurd hmem hhanded
          · exact absurd hmem hexpired
          · rw [show b.alive q = true from hlive] at hdead
            cases hdead
    answered := by
      intro other hother
      obtain ⟨q, htaken', hfate⟩ := hgiven.answered other hother
      refine ⟨q, htaken', ?_⟩
      rcases hfate with (heq | heq | hother') | hfate
      · exact .inl (.inl heq)
      · exact .inl (.inr (.inl heq))
      · rcases hmore hother' with hother' | ⟨rfl, rfl⟩
        · exact .inl (.inr (.inr hother'))
        · exact .inr (h.answer_fate htaken hread hsubmits)
      · exact .inr hfate }

/-! ### Calls that are given up -/

theorem Sound.retire (h : Sound b root) {p : Party} (hroot : p ≠ root) (hsubmits : b.submits p = none) :
    Sound { b with
      box := Function.update b.box p []
      waits := Function.update b.waits p fun _ => false
      alive := Function.update b.alive p false } root := by
  have hother : ∀ {q}, Function.update b.alive p false q = true → q ≠ p ∧ b.alive q = true := by
    intro q hlive
    rcases update_eq_iff.1 hlive with ⟨_, heq⟩ | ⟨hsame, hlive⟩
    · cases heq
    · exact ⟨hsame, hlive⟩
  have hcarried : ∀ {id q}, q ≠ p → b.Carried root id q →
      Carried { b with
        box := Function.update b.box p []
        waits := Function.update b.waits p fun _ => false
        alive := Function.update b.alive p false } root id q := by
    rintro id q hsame (heq | heq | hmem)
    · exact .inl heq
    · exact .inr (.inl heq)
    · exact .inr (.inr (by simpa only [Function.update_of_ne hsame] using hmem))
  exact { h with
    submits := by
      intro q stage id hq
      obtain ⟨htaken, hentered, hlive, hwritten⟩ := h.submits q stage id hq
      refine ⟨htaken, hentered, update_eq_iff.2 (.inr ⟨?_, hlive⟩), hwritten⟩
      rintro rfl
      have hq : b.submits q = some (stage, id) := hq
      rw [hsubmits] at hq
      cases hq
    boxed := by
      intro id q hmem
      by_cases hsame : q = p
      · simp only [hsame, Function.update_self] at hmem
        exact absurd hmem List.not_mem_nil
      · simp only [Function.update_of_ne hsame] at hmem
        exact h.boxed id q hmem
    waits := by
      intro q id hq
      by_cases hsame : q = p
      · simp only [hsame, Function.update_self] at hq
        cases hq
      · simp only [Function.update_of_ne hsame] at hq
        exact h.waits q id hq
    kept := by
      intro id q hentry hlive hexpired hhanded
      obtain ⟨hsame, hlive⟩ := hother hlive
      simp only [Function.update_of_ne hsame]
      exact h.kept id q hentry hlive hexpired hhanded
    routed := by
      intro id q hq hlive hcall hexpired hhanded
      obtain ⟨hsame, hlive⟩ := hother hlive
      exact (h.routed id q hq hlive hcall hexpired hhanded).imp_right (hcarried hsame)
    answered := by
      intro id hid
      obtain ⟨q, htaken, hfate⟩ := h.answered id hid
      refine ⟨q, htaken, ?_⟩
      by_cases hsame : q = p
      · exact .inr (.inr (.inr (update_eq_iff.2 (.inl ⟨hsame, rfl⟩))))
      · rcases hfate with hmem | hmem | hmem | hdead
        · exact .inl (hcarried hsame hmem)
        · exact .inr (.inl hmem)
        · exact .inr (.inr (.inl hmem))
        · exact .inr (.inr (.inr (update_eq_iff.2 (.inr ⟨hsame, hdead⟩))))
    root := update_eq_iff.2 (.inr ⟨hroot.symm, h.root⟩) }

omit [DecidableEq Party] in
/-- Calls may expire at any time: what has expired is only said to have. -/
theorem Sound.expires (h : Sound b root) (lost : List (Id × Party)) :
    Sound { b with expired := b.expired ++ lost } root := by
  have hless : ∀ {entry}, entry ∉ b.expired ++ lost → entry ∉ b.expired :=
    fun hentry hmem => hentry (List.mem_append_left _ hmem)
  exact { h with
    kept := fun id q hentry hlive hexpired hhanded => h.kept id q hentry hlive (hless hexpired) hhanded
    routed := fun id q hq hlive hcall hexpired hhanded =>
      h.routed id q hq hlive hcall (hless hexpired) hhanded
    givesUp := fun q id hq => List.mem_append_left _ (h.givesUp q id hq)
    answered := by
      intro id hid
      obtain ⟨q, htaken, hfate⟩ := h.answered id hid
      refine ⟨q, htaken, ?_⟩
      rcases hfate with hmem | hmem | hmem | hdead
      · exact .inl hmem
      · exact .inr (.inl hmem)
      · exact .inr (.inr (.inl (List.mem_append_left _ hmem)))
      · exact .inr (.inr (.inr hdead)) }

theorem Sound.choose (h : Sound b root) {p : Party} {stale : List Id}
    (hstale : ∀ id ∈ stale, b.waits p id = true) :
    Sound { b with stale := Function.update b.stale p stale } root := by
  exact { h with
    stale := by
      intro q id hid
      by_cases hsame : q = p
      · simp only [hsame, Function.update_self] at hid
        exact hsame ▸ (h.waits p id (hstale id hid)).1
      · simp only [Function.update_of_ne hsame] at hid
        exact h.stale q id hid }

theorem Sound.expire [DecidableEq Id] (h : Sound b root) {p : Party} {id : Id} {rest : List Id}
    (hstale : b.stale p = id :: rest) :
    Sound { b with
      expired := b.expired ++ [(id, p)]
      route := Function.update b.route id none
      stale := Function.update b.stale p rest
      givesUp := Function.update b.givesUp p (some id) } root := by
  have hexpires := h.expires [(id, p)]
  have hmem : (id, p) ∈ b.expired ++ [(id, p)] := List.mem_append_right _ (List.mem_singleton_self _)
  have htaken : (id, p) ∈ b.taken := h.entered _ (h.stale p id (hstale ▸ List.mem_cons_self))
  exact { hexpires with
    route := by
      intro other q hq
      rcases update_eq_iff.1 hq with ⟨_, heq⟩ | ⟨_, hq⟩
      · cases heq
      · exact h.route other q hq
    routed := by
      intro other q hq hlive hcall hexpired hhanded
      refine (hexpires.routed other q hq hlive hcall hexpired hhanded).imp_left fun hroute => ?_
      refine update_eq_iff.2 (.inr ⟨?_, hroute⟩)
      rintro rfl
      rw [h.party_unique (h.route other q hroute).1 htaken] at hexpired
      exact hexpired hmem
    stale := by
      intro q other hother
      by_cases hsame : q = p
      · simp only [hsame, Function.update_self] at hother
        exact hsame ▸ h.stale p other (hstale ▸ List.mem_cons_of_mem _ hother)
      · simp only [Function.update_of_ne hsame] at hother
        exact h.stale q other hother
    givesUp := by
      intro q other hq
      rcases update_eq_iff.1 hq with ⟨rfl, heq⟩ | ⟨_, hq⟩
      · cases heq
        exact hmem
      · exact hexpires.givesUp q other hq }

theorem Sound.giveUp [DecidableEq Id] (h : Sound b root) {p : Party} {id : Id} (hgivesUp : b.givesUp p = some id) :
    Sound { b with
      givesUp := Function.update b.givesUp p none
      waits := Function.update b.waits p (Function.update (b.waits p) id false) } root := by
  exact { h with
    waits := by
      intro q other hq
      rcases update_waits_iff.1 hq with ⟨_, heq⟩ | ⟨_, hq⟩
      · cases heq
      · exact h.waits q other hq
    kept := by
      intro other q hentry hlive hexpired hhanded
      refine update_waits_iff.2 (.inr ⟨?_, h.kept other q hentry hlive hexpired hhanded⟩)
      rintro ⟨rfl, rfl⟩
      exact hexpired (h.givesUp q other hgivesUp)
    givesUp := by
      intro q other hq
      rcases update_eq_iff.1 hq with ⟨_, heq⟩ | ⟨_, hq⟩
      · cases heq
      · exact h.givesUp q other hq }

theorem Sound.evict (h : Sound b root) {waits : Id → Bool} {lost : List Id}
    (hwaits : ∀ id, waits id = true → b.waits root id = true)
    (hlost : ∀ id, b.waits root id = true → waits id = false → id ∈ lost) :
    Sound { b with
      expired := b.expired ++ lost.map fun id => (id, root)
      waits := Function.update b.waits root waits } root := by
  have hexpires := h.expires (lost.map fun id => (id, root))
  exact { hexpires with
    waits := by
      intro q id hq
      by_cases hsame : q = root
      · simp only [hsame, Function.update_self] at hq
        exact hsame ▸ h.waits root id (hwaits id hq)
      · simp only [Function.update_of_ne hsame] at hq
        exact h.waits q id hq
    kept := by
      intro id q hentry hlive hexpired hhanded
      have hold := hexpires.kept id q hentry hlive hexpired hhanded
      by_cases hsame : q = root
      · subst hsame
        simp only [Function.update_self]
        cases hid : waits id with
        | true => rfl
        | false => exact absurd (List.mem_append_right _ (List.mem_map_of_mem (hlost id hold hid))) hexpired
      · simp only [Function.update_of_ne hsame]
        exact hold }

theorem Sound.drop (h : Sound b root) {p : Party} (halive : b.alive p = false) :
    Sound { b with route := fun id => if b.route id = some p then none else b.route id } root := by
  exact { h with
    route := by
      intro id q hq
      dsimp only at hq
      split at hq
      · cases hq
      · exact h.route id q hq
    routed := by
      intro id q hq hlive hcall hexpired hhanded
      refine (h.routed id q hq hlive hcall hexpired hhanded).imp_left fun hroute => ?_
      dsimp only
      rw [if_neg, hroute]
      intro hsame
      obtain rfl : q = p := Option.some.inj (hroute.symm.trans hsame)
      rw [show b.alive q = true from hlive] at halive
      cases halive }

theorem Sound.join (h : Sound b root) {p : Party} (hfresh : ∀ id, (id, p) ∉ b.taken) :
    Sound { b with alive := Function.update b.alive p true } root := by
  have hold : ∀ {q id}, (id, q) ∈ b.taken → Function.update b.alive p true q = b.alive q := by
    intro q id htaken
    refine Function.update_of_ne ?_ _ _
    rintro rfl
    exact hfresh id htaken
  exact { h with
    submits := by
      intro q stage id hq
      obtain ⟨htaken, hentered, hlive, hwritten⟩ := h.submits q stage id hq
      exact ⟨htaken, hentered, (hold htaken).trans hlive, hwritten⟩
    kept := by
      intro id q hentry hlive hexpired hhanded
      exact h.kept id q hentry ((hold (h.entered _ hentry)).symm.trans hlive) hexpired hhanded
    routed := by
      intro id q hq hlive hcall hexpired hhanded
      have htaken : (id, q) ∈ b.taken := by
        rcases hcall with hentry | ⟨stage, _, hsubmitted⟩
        · exact h.entered _ hentry
        · exact (h.submits q stage id hsubmitted).1
      exact h.routed id q hq ((hold htaken).symm.trans hlive) hcall hexpired hhanded
    answered := by
      intro id hid
      obtain ⟨q, htaken, hfate⟩ := h.answered id hid
      refine ⟨q, htaken, ?_⟩
      rcases hfate with hmem | hmem | hmem | hdead
      · exact .inl hmem
      · exact .inr (.inl hmem)
      · exact .inr (.inr (.inl hmem))
      · exact .inr (.inr (.inr ((hold htaken).trans hdead)))
    root := by
      by_cases hsame : root = p
      · exact update_eq_iff.2 (.inl ⟨hsame, rfl⟩)
      · exact update_eq_iff.2 (.inr ⟨hsame, h.root⟩) }

/-! ### Any number of steps -/

theorem Sound.step [DecidableEq Id] (h : Sound b root) (hstep : Step root b b') : Sound b' root := by
  cases hstep with
  | fetch hsubmits halive hhand hfresh => exact h.fetch hsubmits halive hhand hfresh
  | record hsubmits => exact h.record hsubmits
  | write hsubmits => exact h.write hsubmits
  | refuse hsubmits => exact h.refuse hsubmits
  | enter hsubmits => exact h.enter hsubmits
  | read hhand hsubmits hwritten => exact h.reads hhand hsubmits hwritten
  | carry hhand => exact h.carry hhand
  | keep hhand => exact h.keep hhand
  | opens hbox hsubmits => exact h.opens hbox hsubmits
  | retire hroot hsubmits => exact h.retire hroot hsubmits
  | choose hstale => exact h.choose hstale
  | expire hstale => exact h.expire hstale
  | giveUp hgivesUp => exact h.giveUp hgivesUp
  | evict hwaits hlost => exact h.evict hwaits hlost
  | drop halive => exact h.drop halive
  | join hfresh => exact h.join hfresh

/-- What is sound stays so in any number of steps in any order. -/
theorem Sound.steps [DecidableEq Id] (h : Sound b root)
    (hsteps : Relation.ReflTransGen (Step root) b b') : Sound b' root := by
  induction hsteps with
  | refl => exact h
  | tail _ hstep ih => exact ih.step hstep

end Switchboard
