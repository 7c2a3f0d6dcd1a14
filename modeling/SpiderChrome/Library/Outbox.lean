import Mathlib.Data.List.Nodup

/-!
# Messages that are asked for and sent

Somebody asks for a message under an id. Part of what is asked for is sent at once, part of it waits in some place until it is handed out, and what is handed out is sent unless it is refused. A place may be dropped with all that waits in it. Every ask is served once if exactly one message, the right one, was sent for it or waits for it somewhere. `once_step_iff` says of each move when it keeps this up.
-/

/-- The messages sent and waiting, each under the id it was asked for with, and what was asked for. -/
structure Outbox (Place Id Message : Type) where
  asks : List (Id × Message)
  sent : List (Id × Message)
  waiting : Place → List (Id × Message)

namespace Outbox

variable {Place Id Message : Type} [DecidableEq Place] [DecidableEq Id]

/-- A message is asked for, and some messages are sent and some wait in the place. The next message of a place is handed out. Places are dropped. -/
inductive Move (Place Id Message : Type) where
  | ask (place : Place) (id : Id) (message : Message) (direct queued : List Message)
  | handOut (place : Place) (taken : Bool)
  | drop (places : List Place)

def step (box : Outbox Place Id Message) : Move Place Id Message → Outbox Place Id Message
  | .ask place id message direct queued =>
    { asks := box.asks ++ [(id, message)]
      sent := box.sent ++ direct.map fun m => (id, m)
      waiting := fun p =>
        if p = place then box.waiting p ++ queued.map fun m => (id, m) else box.waiting p }
  | .handOut place taken =>
    { box with
      sent := if taken then box.sent ++ (box.waiting place).take 1 else box.sent
      waiting := fun p => if p = place then (box.waiting p).drop 1 else box.waiting p }
  | .drop places =>
    { box with waiting := fun p => if p ∈ places then [] else box.waiting p }

/-- The messages under an id. -/
def under (id : Id) (entries : List (Id × Message)) : List Message :=
  entries.filterMap fun entry => if entry.1 = id then some entry.2 else none

/-- Every ask has an id of its own, and exactly one message, which was sent or waits in one place. -/
structure Once (box : Outbox Place Id Message) : Prop where
  distinct : (box.asks.map Prod.fst).Nodup
  once : ∀ ask ∈ box.asks, ∃ place,
    under ask.1 box.sent ++ under ask.1 (box.waiting place) = [ask.2] ∧
      ∀ other, other ≠ place → under ask.1 (box.waiting other) = []

/-- Nothing is sent or waits that was not asked for. -/
structure Sound (box : Outbox Place Id Message) : Prop where
  sent : ∀ entry ∈ box.sent, entry.1 ∈ box.asks.map Prod.fst
  waiting : ∀ place, ∀ entry ∈ box.waiting place, entry.1 ∈ box.asks.map Prod.fst

/-- What a move has to heed. -/
def Heeds (box : Outbox Place Id Message) : Move Place Id Message → Prop
  | .ask _ id message direct queued =>
    id ∉ box.asks.map Prod.fst ∧ direct ++ queued = [message]
  | .handOut place taken => taken = true ∨ box.waiting place = []
  | .drop places => ∀ place ∈ places, box.waiting place = []

/-! ### Messages under an id -/

omit [DecidableEq Place]

@[simp] theorem under_nil (id : Id) : under id ([] : List (Id × Message)) = [] := rfl

@[simp] theorem under_append (id : Id) (entries entries' : List (Id × Message)) :
    under id (entries ++ entries') = under id entries ++ under id entries' :=
  List.filterMap_append

theorem under_cons_self (id : Id) (message : Message) (rest : List (Id × Message)) :
    under id ((id, message) :: rest) = message :: under id rest :=
  List.filterMap_cons_some (if_pos rfl)

theorem under_cons_of_ne {id : Id} {entry : Id × Message} (h : entry.1 ≠ id)
    (rest : List (Id × Message)) : under id (entry :: rest) = under id rest :=
  List.filterMap_cons_none (if_neg h)

theorem under_map_self (id : Id) (messages : List Message) :
    under id (messages.map fun m => (id, m)) = messages := by
  induction messages with
  | nil => rfl
  | cons message rest ih => rw [List.map_cons, under_cons_self, ih]

theorem under_map_of_ne {id id' : Id} (h : id' ≠ id) (messages : List Message) :
    under id (messages.map fun m => (id', m)) = [] := by
  induction messages with
  | nil => rfl
  | cons message rest ih => rw [List.map_cons, under_cons_of_ne h, ih]

theorem under_eq_nil {id : Id} {entries : List (Id × Message)}
    (h : ∀ entry ∈ entries, entry.1 ≠ id) : under id entries = [] :=
  List.filterMap_eq_nil_iff.2 fun entry hentry => if_neg (h entry hentry)

theorem ne_nil_of_mem {entry : Id × Message} {entries : List (Id × Message)} (h : entry ∈ entries) :
    under entry.1 entries ≠ [] := by
  intro hnil
  have hnone := List.filterMap_eq_nil_iff.1 hnil entry h
  rw [if_pos rfl] at hnone
  cases hnone

/-! ### Soundness -/

variable [DecidableEq Place] {box : Outbox Place Id Message}

omit [DecidableEq Place] in
theorem Sound.under_eq_nil (hsound : box.Sound) {id : Id} (hfresh : id ∉ box.asks.map Prod.fst) :
    under id box.sent = [] ∧ ∀ place, under id (box.waiting place) = [] := by
  refine ⟨Outbox.under_eq_nil ?_, fun place => Outbox.under_eq_nil ?_⟩
  · rintro entry hentry rfl
    exact hfresh (hsound.sent entry hentry)
  · rintro entry hentry rfl
    exact hfresh (hsound.waiting place entry hentry)

omit [DecidableEq Id] in
theorem Sound.step (hsound : box.Sound) (move : Move Place Id Message) : (box.step move).Sound := by
  cases move with
  | ask place id message direct queued =>
    have hold : ∀ x, x ∈ box.asks.map Prod.fst →
        x ∈ (box.asks ++ [(id, message)]).map Prod.fst := fun x hx => by
      rw [List.map_append]
      exact List.mem_append_left _ hx
    have hnew : ∀ messages : List Message, ∀ entry ∈ messages.map fun m => (id, m),
        entry.1 ∈ (box.asks ++ [(id, message)]).map Prod.fst := by
      intro messages entry hentry
      obtain ⟨m, -, rfl⟩ := List.mem_map.1 hentry
      simp
    constructor
    · intro entry hentry
      obtain hentry | hentry := List.mem_append.1 hentry
      · exact hold _ (hsound.sent entry hentry)
      · exact hnew direct entry hentry
    · intro p entry hentry
      simp only [Outbox.step] at hentry
      split at hentry
      · obtain hentry | hentry := List.mem_append.1 hentry
        · exact hold _ (hsound.waiting p entry hentry)
        · exact hnew queued entry hentry
      · exact hold _ (hsound.waiting p entry hentry)
  | handOut place taken =>
    constructor
    · intro entry hentry
      simp only [Outbox.step] at hentry
      split at hentry
      · obtain hentry | hentry := List.mem_append.1 hentry
        · exact hsound.sent entry hentry
        · exact hsound.waiting place entry (List.mem_of_mem_take hentry)
      · exact hsound.sent entry hentry
    · intro p entry hentry
      simp only [Outbox.step] at hentry
      split at hentry
      · exact hsound.waiting p entry (List.mem_of_mem_drop hentry)
      · exact hsound.waiting p entry hentry
  | drop places =>
    refine ⟨hsound.sent, fun p entry hentry => ?_⟩
    simp only [Outbox.step] at hentry
    split at hentry
    · cases hentry
    · exact hsound.waiting p entry hentry

/-! ### Serving every ask once -/

/-- The place where a message waits is the one that the ask is served from, and nothing was sent. -/
theorem Once.of_waiting (honce : box.Once) {ask : Id × Message} (hask : ask ∈ box.asks)
    {place : Place} (hwaiting : under ask.1 (box.waiting place) ≠ []) :
    under ask.1 box.sent = [] ∧ under ask.1 (box.waiting place) = [ask.2] ∧
      ∀ other, other ≠ place → under ask.1 (box.waiting other) = [] := by
  obtain ⟨served, hserved, hothers⟩ := honce.once ask hask
  have hplace : place = served := by
    by_contra hne
    exact hwaiting (hothers place hne)
  subst hplace
  obtain ⟨hsent, hwait⟩ | ⟨hsent, hwait⟩ := List.append_eq_singleton_iff.1 hserved
  · exact ⟨hsent, hwait, hothers⟩
  · exact absurd hwait hwaiting

omit [DecidableEq Place] in
/-- No message was sent twice. -/
theorem Once.length_sent_le (honce : box.Once) (id : Id) (hid : id ∈ box.asks.map Prod.fst) :
    (under id box.sent).length ≤ 1 := by
  obtain ⟨ask, hask, rfl⟩ := List.mem_map.1 hid
  obtain ⟨place, hone, -⟩ := honce.once ask hask
  have hlength := congrArg List.length hone
  rw [List.length_append, List.length_singleton] at hlength
  omega

omit [DecidableEq Place] in
/-- An ask whose message is lost is not served. -/
theorem not_once_of_lost {box' : Outbox Place Id Message} {ask : Id × Message}
    (hask : ask ∈ box'.asks) (hsent : under ask.1 box'.sent = [])
    (hwaiting : ∀ place, under ask.1 (box'.waiting place) = []) : ¬ box'.Once := by
  intro honce
  obtain ⟨place, hserved, -⟩ := honce.once ask hask
  rw [hsent, hwaiting place] at hserved
  cases hserved

theorem once_ask_iff (hsound : box.Sound) (honce : box.Once) (place : Place) (id : Id)
    (message : Message) (direct queued : List Message) :
    (box.step (.ask place id message direct queued)).Once ↔
      id ∉ box.asks.map Prod.fst ∧ direct ++ queued = [message] := by
  have hdistinct : ((box.asks ++ [(id, message)]).map Prod.fst).Nodup ↔
      id ∉ box.asks.map Prod.fst := by
    rw [List.map_append, List.map_singleton, List.nodup_append]
    constructor
    · exact fun h hmem => h.2.2 id hmem id (List.mem_singleton.2 rfl) rfl
    · intro hfresh
      refine ⟨honce.distinct, List.nodup_singleton _, fun x hx y hy hxy => ?_⟩
      rw [List.mem_singleton.1 hy] at hxy
      subst hxy
      exact hfresh hx
  constructor
  · intro honce'
    have hfresh : id ∉ box.asks.map Prod.fst := hdistinct.1 honce'.distinct
    obtain ⟨hsent, hwaiting⟩ := hsound.under_eq_nil hfresh
    refine ⟨hfresh, ?_⟩
    obtain ⟨served, hserved, hothers⟩ := honce'.once (id, message) (by simp [Outbox.step])
    simp only [Outbox.step, under_append, hsent, under_map_self, List.nil_append] at hserved hothers
    by_cases hplace : served = place
    · rw [if_pos hplace, under_append, hwaiting, under_map_self, List.nil_append] at hserved
      exact hserved
    · have hqueued := hothers place fun h => hplace h.symm
      rw [if_pos rfl, under_append, hwaiting, under_map_self, List.nil_append] at hqueued
      rw [if_neg hplace, hwaiting] at hserved
      rw [hqueued]
      exact hserved
  · rintro ⟨hfresh, hmessages⟩
    obtain ⟨hsent, hwaiting⟩ := hsound.under_eq_nil hfresh
    refine ⟨hdistinct.2 hfresh, fun ask hask => ?_⟩
    obtain hold | hnew := List.mem_append.1 hask
    · have hne : id ≠ ask.1 := by
        rintro rfl
        exact hfresh (List.mem_map.2 ⟨ask, hold, rfl⟩)
      have hunder : ∀ p, under ask.1 ((box.step (.ask place id message direct queued)).waiting p) =
          under ask.1 (box.waiting p) := by
        intro p
        simp only [Outbox.step]
        split
        · rw [under_append, under_map_of_ne hne, List.append_nil]
        · rfl
      obtain ⟨served, hserved, hothers⟩ := honce.once ask hold
      refine ⟨served, ?_, fun other hother => (hunder other).trans (hothers other hother)⟩
      rw [hunder]
      simp only [Outbox.step, under_append, under_map_of_ne hne, List.append_nil]
      exact hserved
    · obtain rfl := List.mem_singleton.1 hnew
      refine ⟨place, ?_, fun other hother => ?_⟩
      · simp only [Outbox.step, under_append, if_true, hsent, hwaiting, under_map_self,
          List.nil_append]
        exact hmessages
      · simp only [Outbox.step, if_neg hother]
        exact hwaiting other

theorem once_handOut_iff (hsound : box.Sound) (honce : box.Once) (place : Place) (taken : Bool) :
    (box.step (.handOut place taken)).Once ↔ taken = true ∨ box.waiting place = [] := by
  cases hqueue : box.waiting place with
  | nil =>
    have hsame : box.step (.handOut place taken) = box := by
      have hwaiting : (fun p => if p = place then (box.waiting p).drop 1 else box.waiting p) =
          box.waiting := by
        funext p
        split
        · rename_i hp
          rw [hp, hqueue, List.drop_nil]
        · rfl
      simp only [Outbox.step, hwaiting, hqueue, List.take_nil, List.append_nil, ite_self]
    rw [hsame]
    exact iff_of_true honce (Or.inr rfl)
  | cons entry rest =>
    have hrest : ∀ id, under id ((box.step (.handOut place taken)).waiting place) = under id rest := by
      intro id
      simp only [Outbox.step, if_true, hqueue, List.drop_one, List.tail_cons]
    have hother : ∀ id p, p ≠ place →
        under id ((box.step (.handOut place taken)).waiting p) = under id (box.waiting p) := by
      intro id p hp
      simp only [Outbox.step, if_neg hp]
    cases taken with
    | false =>
      refine iff_of_false ?_ (by simp)
      have hmem : entry ∈ box.waiting place := by
        rw [hqueue]
        exact List.mem_cons_self
      obtain ⟨ask, hask, hid⟩ := List.mem_map.1 (hsound.waiting place entry hmem)
      have hne : under ask.1 (box.waiting place) ≠ [] := by
        rw [hid]
        exact ne_nil_of_mem hmem
      obtain ⟨hsent, hwaiting, hothers⟩ := honce.of_waiting hask hne
      rw [hqueue, hid, under_cons_self] at hwaiting
      refine not_once_of_lost hask hsent fun p => ?_
      by_cases hp : p = place
      · rw [hp, hrest, hid]
        exact (List.cons.inj hwaiting).2
      · rw [hother _ p hp]
        exact hothers p hp
    | true =>
      have hsent : ∀ id, under id (box.step (.handOut place true)).sent =
          under id box.sent ++ under id [entry] := by
        intro id
        simp only [Outbox.step, if_true, hqueue, List.take_succ_cons, List.take_zero, under_append]
      refine iff_of_true ⟨honce.distinct, fun ask hask => ?_⟩ (Or.inl rfl)
      by_cases hid : entry.1 = ask.1
      · have hwait : under ask.1 (box.waiting place) = entry.2 :: under ask.1 rest := by
          rw [hqueue, ← hid, under_cons_self]
        obtain ⟨hnone, hwaiting, hothers⟩ := honce.of_waiting hask (by rw [hwait]; exact List.cons_ne_nil _ _)
        refine ⟨place, ?_, fun p hp => (hother _ p hp).trans (hothers p hp)⟩
        rw [hsent, hrest, hnone, ← hwaiting, hwait, ← hid, under_cons_self]
        rfl
      · have hsame : ∀ p, under ask.1 ((box.step (.handOut place true)).waiting p) =
            under ask.1 (box.waiting p) := by
          intro p
          by_cases hp : p = place
          · rw [hp, hrest, hqueue, under_cons_of_ne hid]
          · exact hother _ p hp
        obtain ⟨served, hserved, hothers⟩ := honce.once ask hask
        refine ⟨served, ?_, fun p hp => (hsame p).trans (hothers p hp)⟩
        rw [hsent, hsame, under_cons_of_ne hid, under_nil, List.append_nil]
        exact hserved

theorem once_drop_iff (hsound : box.Sound) (honce : box.Once) (places : List Place) :
    (box.step (.drop places)).Once ↔ ∀ place ∈ places, box.waiting place = [] := by
  constructor
  · intro honce' place hplace
    cases hqueue : box.waiting place with
    | nil => rfl
    | cons entry rest =>
      have hmem : entry ∈ box.waiting place := by
        rw [hqueue]
        exact List.mem_cons_self
      obtain ⟨ask, hask, hid⟩ := List.mem_map.1 (hsound.waiting place entry hmem)
      obtain ⟨hsent, -, hothers⟩ := honce.of_waiting hask (by rw [hid]; exact ne_nil_of_mem hmem)
      refine absurd honce' (not_once_of_lost hask hsent fun p => ?_)
      by_cases hp : p ∈ places
      · simp only [Outbox.step, if_pos hp, under_nil]
      · have hne : p ≠ place := by
          rintro rfl
          exact hp hplace
        simp only [Outbox.step, if_neg hp]
        exact hothers p hne
  · intro hempty
    have hwaiting : (fun p => if p ∈ places then [] else box.waiting p) = box.waiting := by
      funext p
      split
      · rename_i hp
        exact (hempty p hp).symm
      · rfl
    simp only [Outbox.step, hwaiting]
    exact honce

/-- A move keeps every ask served once just when it heeds what it has to. -/
theorem once_step_iff (hsound : box.Sound) (honce : box.Once) (move : Move Place Id Message) :
    (box.step move).Once ↔ box.Heeds move := by
  cases move with
  | ask place id message direct queued => exact once_ask_iff hsound honce place id message direct queued
  | handOut place taken => exact once_handOut_iff hsound honce place taken
  | drop places => exact once_drop_iff hsound honce places

end Outbox
