import Mathlib.Data.List.Nodup
import Mathlib.Data.List.Sublists
import Mathlib.Logic.Function.Iterate

/-!
# Bounded channels

A channel has room for so many messages, and a sender needs a permit for a place. A sender that tries and finds no permit may wait in line. The receiver gives a permit back with each message that it takes, and the permit goes to whoever has waited longest; but a sender that was granted one pushes its message only when it comes round to it. `line` is the order in which the waiting senders came, which no operation changes but for those who come and go.
-/

structure Channel (Who Msg : Type) where
  capacity : Nat
  /-- Permits that nobody has. -/
  free : Nat
  /-- Senders that were granted a permit and have not pushed yet. -/
  granted : List Who
  /-- Senders that wait for a permit, the first to come first. -/
  queue : List Who
  items : List Msg

namespace Channel

variable {Who Msg : Type}

def empty (capacity : Nat) : Channel Who Msg := ⟨capacity, capacity, [], [], []⟩

/-- A permit is given back. -/
def release (c : Channel Who Msg) : Channel Who Msg :=
  match c.queue with
  | who :: rest => { c with granted := c.granted ++ [who], queue := rest }
  | [] => { c with free := c.free + 1 }

/-- A sender that does not wait. -/
def trySend (c : Channel Who Msg) (msg : Msg) : Option (Channel Who Msg) :=
  if 0 < c.free then some { c with free := c.free - 1, items := c.items ++ [msg] } else none

def enqueue (c : Channel Who Msg) (who : Who) : Channel Who Msg := { c with queue := c.queue ++ [who] }

/-- The receiver takes the first message. -/
def recv (c : Channel Who Msg) : Channel Who Msg :=
  match c.items with
  | _ :: rest => { c with items := rest }.release
  | [] => c

section Waiting

variable [DecidableEq Who]

/-- A sender that waits in line pushes its message, if it was granted a permit. -/
def push (c : Channel Who Msg) (who : Who) (msg : Msg) : Option (Channel Who Msg) :=
  if who ∈ c.granted then some { c with granted := c.granted.erase who, items := c.items ++ [msg] } else none

/-- A sender gives up, with its permit if it was granted one. -/
def leave (c : Channel Who Msg) (who : Who) : Channel Who Msg :=
  if who ∈ c.granted then { c with granted := c.granted.erase who }.release
  else { c with queue := c.queue.erase who }

end Waiting

/-- The senders that wait, in the order in which they came. -/
def line (c : Channel Who Msg) : List Who := c.granted ++ c.queue

/-- Every permit is free, granted, or spent on a message, and none is free while somebody waits for one. -/
structure Sound (c : Channel Who Msg) : Prop where
  permits : c.free + c.granted.length + c.items.length = c.capacity
  fair : 0 < c.free → c.queue = []
  distinct : c.line.Nodup

/-- The other has not come before. -/
def Ahead (c : Channel Who Msg) (who other : Who) : Prop := ¬ [other, who].Sublist c.line

variable {c c' : Channel Who Msg} {who other : Who} {msg : Msg}

/-! ### The line -/

@[simp] theorem line_release (c : Channel Who Msg) : c.release.line = c.line := by
  unfold release
  split
  · rename_i who rest hqueue
    simp only [line, hqueue, List.append_assoc, List.singleton_append]
  · rfl

@[simp] theorem capacity_release (c : Channel Who Msg) : c.release.capacity = c.capacity := by
  unfold release
  split
  · rfl
  · rfl

@[simp] theorem line_enqueue (c : Channel Who Msg) (who : Who) : (c.enqueue who).line = c.line ++ [who] :=
  (List.append_assoc _ _ _).symm

@[simp] theorem line_recv (c : Channel Who Msg) : c.recv.line = c.line := by
  unfold recv
  split
  · exact line_release _
  · rfl

@[simp] theorem capacity_recv (c : Channel Who Msg) : c.recv.capacity = c.capacity := by
  unfold recv
  split
  · exact capacity_release _
  · rfl

theorem trySend_eq_some (h : c.trySend msg = some c') :
    0 < c.free ∧ c' = { c with free := c.free - 1, items := c.items ++ [msg] } := by
  unfold trySend at h
  split at h
  · rename_i hfree
    exact ⟨hfree, (Option.some.inj h).symm⟩
  · cases h

theorem trySend_eq_none (h : c.trySend msg = none) : c.free = 0 := by
  unfold trySend at h
  split at h
  · cases h
  · omega

theorem trySend_of_full (hfree : c.free = 0) : c.trySend msg = none :=
  if_neg (Nat.not_lt.2 (Nat.le_of_eq hfree))

theorem Ahead.of_sublist (h : c.Ahead who other) (hline : c'.line.Sublist c.line) : c'.Ahead who other :=
  fun hboth => h (hboth.trans hline)

/-- Whoever comes is behind everybody else. -/
theorem ahead_enqueue (hnew : other ∉ c.line) (who : Who) : (c.enqueue other).Ahead who other := by
  intro hboth
  rw [line_enqueue] at hboth
  obtain ⟨first, second, heq, hfirst, hsecond⟩ := List.sublist_append_iff.1 hboth
  cases first with
  | nil =>
    rw [List.nil_append] at heq
    have hlength := hsecond.length_le
    rw [← heq] at hlength
    exact absurd hlength (by simp)
  | cons x first =>
    obtain ⟨rfl, -⟩ := List.cons.inj heq
    exact hnew (hfirst.subset List.mem_cons_self)

/-- Somebody else's coming changes nothing. -/
theorem Ahead.enqueue (h : c.Ahead who other) {third : Who} (hne : who ≠ third) :
    (c.enqueue third).Ahead who other := by
  intro hboth
  rw [line_enqueue] at hboth
  obtain ⟨first, second, heq, hfirst, hsecond⟩ := List.sublist_append_iff.1 hboth
  obtain rfl | rfl := List.sublist_singleton.1 hsecond
  · rw [List.append_nil] at heq
    exact h (heq ▸ hfirst)
  · have hsplit : [other] ++ [who] = first ++ [third] := heq
    obtain ⟨-, hlast⟩ := List.append_inj' hsplit rfl
    exact hne (List.singleton_inj.1 hlast)

/-- Whoever is ahead of a granted sender has been granted a permit as well. -/
theorem Ahead.granted (h : c.Ahead who other) (hwho : who ∈ c.line) (hother : other ∈ c.granted) :
    who ∈ c.granted := by
  obtain hgranted | hqueue := List.mem_append.1 hwho
  · exact hgranted
  · have hboth : [other, who].Sublist c.line :=
      (List.singleton_sublist.2 hother).append (List.singleton_sublist.2 hqueue)
    exact absurd hboth h

/-! ### Permits -/

theorem sound_empty (capacity : Nat) : (empty capacity : Channel Who Msg).Sound where
  permits := rfl
  fair := fun _ => rfl
  distinct := List.nodup_nil

/-- A permit that is back is as good as a free one. -/
theorem sound_release (hpermits : c.free + c.granted.length + c.items.length + 1 = c.capacity)
    (hfair : 0 < c.free → c.queue = []) (hdistinct : c.line.Nodup) : c.release.Sound where
  permits := by
    unfold release
    split
    · simp only [List.length_append, List.length_singleton]
      omega
    · dsimp only
      omega
  fair := by
    intro hfree
    unfold release at hfree ⊢
    split
    · rename_i who rest hqueue
      simp only [hqueue] at hfree
      have hempty := hfair hfree
      rw [hqueue] at hempty
      cases hempty
    · rename_i hqueue
      exact hqueue
  distinct := by
    rw [line_release]
    exact hdistinct

theorem Sound.trySend (h : c.Sound) (hsent : c.trySend msg = some c') : c'.Sound := by
  obtain ⟨hfree, rfl⟩ := trySend_eq_some hsent
  have hpermits := h.permits
  refine ⟨?_, fun _ => h.fair hfree, h.distinct⟩
  simp only [List.length_append, List.length_singleton]
  omega

theorem Sound.enqueue (h : c.Sound) (hfree : c.free = 0) (hnew : who ∉ c.line) : (c.enqueue who).Sound where
  permits := h.permits
  fair := fun hpos => absurd hfree (Nat.ne_of_gt hpos)
  distinct := by
    rw [line_enqueue]
    exact h.distinct.append (List.nodup_singleton who) (List.disjoint_singleton.2 hnew)

theorem Sound.recv (h : c.Sound) : c.recv.Sound := by
  have hpermits := h.permits
  unfold Channel.recv
  split
  · rename_i item rest hitems
    refine sound_release ?_ h.fair h.distinct
    rw [hitems, List.length_cons] at hpermits
    dsimp only
    omega
  · exact h

/-- Nobody who waits is served while a permit is free. -/
theorem Sound.free_eq_zero (h : c.Sound) (hwho : who ∈ c.queue) : c.free = 0 := by
  by_contra hfree
  rw [h.fair (Nat.pos_of_ne_zero hfree)] at hwho
  cases hwho

/-- A message that is taken serves whoever has waited longest. -/
theorem Sound.recv_grants (h : c.Sound) (hroom : c.granted.length < c.capacity) {rest : List Who}
    (hqueue : c.queue = who :: rest) : c.recv.granted = c.granted ++ [who] ∧ c.recv.free = 0 := by
  have hfree := h.free_eq_zero (hqueue ▸ List.mem_cons_self)
  have hpermits := h.permits
  cases hitems : c.items with
  | nil =>
    rw [hitems, List.length_nil] at hpermits
    omega
  | cons item items =>
    simp only [Channel.recv, release, hitems, hqueue, hfree, and_self]

/-- In a full channel the first senders of the line all get a permit, as many as there are permits, if the receiver takes enough messages. -/
theorem Sound.grants (h : c.Sound) (hfree : c.free = 0) {first rest : List Who} (hline : c.line = first ++ rest)
    (hroom : first.length ≤ c.capacity) :
    ∃ count, first <+: (Channel.recv^[count] c).granted ∧ (Channel.recv^[count] c).Sound ∧
      (Channel.recv^[count] c).free = 0 := by
  generalize hmissing : first.length - c.granted.length = missing
  induction missing generalizing c with
  | zero =>
    have hshort : first.length ≤ c.granted.length := Nat.le_of_sub_eq_zero hmissing
    have hfirst : first <+: c.line := hline ▸ List.prefix_append _ _
    exact ⟨0, List.prefix_of_prefix_length_le hfirst (List.prefix_append _ _) hshort, h, hfree⟩
  | succ missing ih =>
    cases hqueue : c.queue with
    | nil =>
      have hlength := congrArg List.length hline
      rw [line, hqueue, List.append_nil, List.length_append] at hlength
      omega
    | cons who waiting =>
      obtain ⟨hgranted, hfull⟩ := h.recv_grants (by omega) hqueue
      obtain ⟨count, hcount⟩ := ih h.recv hfull ((line_recv c).trans hline) ((capacity_recv c).symm ▸ hroom) (by
        rw [hgranted, List.length_append, List.length_singleton]
        omega)
      exact ⟨count + 1, hcount⟩

@[simp] theorem line_recvs (c : Channel Who Msg) (count : Nat) : (recv^[count] c).line = c.line := by
  induction count generalizing c with
  | zero => rfl
  | succ count ih => rw [Function.iterate_succ_apply, ih, line_recv]

@[simp] theorem capacity_recvs (c : Channel Who Msg) (count : Nat) : (recv^[count] c).capacity = c.capacity := by
  induction count generalizing c with
  | zero => rfl
  | succ count ih => rw [Function.iterate_succ_apply, ih, capacity_recv]

/-- As long as one sender has not used its permit, another can only send with a second one. -/
theorem Sound.two_le (h : c.Sound) (hwho : who ∈ c.granted) (hfree : 0 < c.free) : 2 ≤ c.capacity := by
  have hpermits := h.permits
  have hgranted := List.length_pos_of_mem hwho
  omega

theorem Sound.two_le_granted (h : c.Sound) (hne : who ≠ other) (hwho : who ∈ c.granted)
    (hother : other ∈ c.granted) : 2 ≤ c.capacity := by
  have hpermits := h.permits
  have hpair : [who, other].Subperm c.granted := by
    refine List.subperm_of_subset (List.nodup_cons.2 ⟨by simpa using hne, List.nodup_singleton other⟩) ?_
    intro x hx
    obtain rfl | hx := List.mem_cons.1 hx
    · exact hwho
    · exact List.mem_singleton.1 hx ▸ hother
  have hlength := hpair.length_le
  simp only [List.length_cons, List.length_nil] at hlength
  omega

section Waiting

variable [DecidableEq Who]

theorem push_eq_some (h : c.push who msg = some c') :
    who ∈ c.granted ∧ c' = { c with granted := c.granted.erase who, items := c.items ++ [msg] } := by
  unfold push at h
  split at h
  · rename_i hgranted
    exact ⟨hgranted, (Option.some.inj h).symm⟩
  · cases h

theorem exists_push (msg : Msg) (hgranted : who ∈ c.granted) : ∃ c', c.push who msg = some c' :=
  ⟨_, if_pos hgranted⟩

theorem capacity_push (h : c.push who msg = some c') : c'.capacity = c.capacity := by
  obtain ⟨-, rfl⟩ := push_eq_some h
  rfl

theorem free_push (h : c.push who msg = some c') : c'.free = c.free := by
  obtain ⟨-, rfl⟩ := push_eq_some h
  rfl

theorem line_push (h : c.push who msg = some c') : c'.line = c.line.erase who := by
  obtain ⟨hgranted, rfl⟩ := push_eq_some h
  exact (List.erase_append_left _ hgranted).symm

theorem Sound.push (h : c.Sound) (hsent : c.push who msg = some c') : c'.Sound := by
  have hline := line_push hsent
  obtain ⟨hgranted, rfl⟩ := push_eq_some hsent
  have hpermits := h.permits
  have hlength := List.length_erase_of_mem hgranted
  have hpos := List.length_pos_of_mem hgranted
  refine ⟨?_, h.fair, hline ▸ h.distinct.erase who⟩
  simp only [List.length_append, List.length_singleton]
  omega

theorem line_leave (c : Channel Who Msg) (who : Who) : (c.leave who).line = c.line.erase who := by
  unfold leave
  split
  · rename_i hgranted
    rw [line_release]
    exact (List.erase_append_left _ hgranted).symm
  · rename_i hnot
    exact (List.erase_append_right _ hnot).symm

theorem capacity_leave (c : Channel Who Msg) (who : Who) : (c.leave who).capacity = c.capacity := by
  unfold leave
  split
  · exact capacity_release _
  · rfl

theorem Sound.leave (h : c.Sound) (who : Who) : (c.leave who).Sound := by
  have hpermits := h.permits
  have hdistinct : (c.leave who).line.Nodup := by
    rw [line_leave]
    exact h.distinct.erase who
  unfold Channel.leave at hdistinct ⊢
  split at hdistinct
  · rename_i hgranted
    have hlength := List.length_erase_of_mem hgranted
    have hpos := List.length_pos_of_mem hgranted
    rw [if_pos hgranted]
    refine sound_release ?_ h.fair (line_release _ ▸ hdistinct)
    dsimp only
    omega
  · rename_i hnot
    rw [if_neg hnot]
    refine ⟨hpermits, fun hfree => ?_, hdistinct⟩
    have hqueue := h.fair hfree
    dsimp only
    rw [hqueue]
    rfl

end Waiting

end Channel
