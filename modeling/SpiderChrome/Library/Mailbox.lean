import SpiderChrome.Library.Channel

/-!
# Mailboxes

A mailbox is a bounded channel with one receiver, which may go away for good. A sender that finds it full waits in line and is served when the receiver has taken a message. The mailbox keeps a record that no operation reads: who put in what, what the receiver took, and what was in the channel when the receiver went.
-/

structure Mailbox (Who Msg : Type) where
  channel : Channel Who Msg
  closed : Bool
  entered : List (Who × Msg)
  taken : List Msg
  lost : List Msg

namespace Mailbox

variable {Who Msg : Type}

def empty (capacity : Nat) : Mailbox Who Msg := ⟨.empty capacity, false, [], [], []⟩

/-- What a sender finds that tries once. -/
inductive TrySend (Who Msg : Type) where
  | sent (mailbox : Mailbox Who Msg)
  | full
  | closed

/-- What a sender finds that is ready to wait. -/
inductive Send (Who Msg : Type) where
  | sent (mailbox : Mailbox Who Msg)
  | waits (mailbox : Mailbox Who Msg)
  | closed

/-- The message is in the channel. -/
def put (m : Mailbox Who Msg) (channel : Channel Who Msg) (who : Who) (msg : Msg) : Mailbox Who Msg :=
  { m with channel := channel, entered := m.entered ++ [(who, msg)] }

def trySend (m : Mailbox Who Msg) (who : Who) (msg : Msg) : TrySend Who Msg :=
  if m.closed then .closed
  else match m.channel.trySend msg with
    | some channel => .sent (m.put channel who msg)
    | none => .full

/-- The receiver takes the first message. -/
def recv (m : Mailbox Who Msg) : Mailbox Who Msg :=
  { m with channel := m.channel.recv, taken := m.taken ++ m.channel.items.take 1 }

/-- The receiver goes, and with it what waits in the channel. -/
def close (m : Mailbox Who Msg) : Mailbox Who Msg :=
  { m with
    channel := { m.channel with items := [] }
    closed := true
    lost := m.lost ++ m.channel.items }

section Waiting

variable [DecidableEq Who]

/-- A poll of the future that sends; `queued` says whether it stands in line already. -/
def pollSend (m : Mailbox Who Msg) (who : Who) (msg : Msg) (queued : Bool) : Send Who Msg :=
  if m.closed then .closed
  else if queued then
    match m.channel.push who msg with
    | some channel => .sent (m.put channel who msg)
    | none => .waits m
  else
    match m.channel.trySend msg with
    | some channel => .sent (m.put channel who msg)
    | none => .waits { m with channel := m.channel.enqueue who }

/-- A sender gives up. -/
def leave (m : Mailbox Who Msg) (who : Who) : Mailbox Who Msg := { m with channel := m.channel.leave who }

end Waiting

/-- A sender that waits has been served, or never will be. -/
def served [DecidableEq Who] (m : Mailbox Who Msg) (who : Who) : Bool := m.closed || m.channel.granted.contains who

def senders (m : Mailbox Who Msg) : List Who := m.entered.map Prod.fst

def line (m : Mailbox Who Msg) : List Who := m.channel.line

/-- What was put in was taken or lost in the order in which it came, or is still there. -/
structure Sound (m : Mailbox Who Msg) : Prop where
  order : m.entered.map Prod.snd = m.taken ++ m.lost ++ m.channel.items
  dead : m.closed = true → m.channel.items = []
  alive : m.closed = false → m.lost = [] ∧ m.channel.Sound
  distinct : m.line.Nodup

variable {m m' : Mailbox Who Msg} {who other : Who} {msg : Msg}

theorem sound_empty (capacity : Nat) : (empty capacity : Mailbox Who Msg).Sound where
  order := rfl
  dead := fun _ => rfl
  alive := fun _ => ⟨rfl, Channel.sound_empty capacity⟩
  distinct := List.nodup_nil

/-! ### What each operation changes -/

theorem trySend_eq_sent (h : m.trySend who msg = .sent m') :
    m.closed = false ∧ ∃ channel, m.channel.trySend msg = some channel ∧ m' = m.put channel who msg := by
  unfold trySend at h
  split at h
  · cases h
  · rename_i hopen
    split at h
    · rename_i channel htry
      cases h
      exact ⟨Bool.eq_false_iff.2 hopen, channel, htry, rfl⟩
    · cases h

theorem trySend_eq_closed (h : m.trySend who msg = .closed) : m.closed = true := by
  unfold trySend at h
  split at h
  · rename_i hclosed
    exact hclosed
  · split at h
    · cases h
    · cases h

@[simp] theorem senders_put (m : Mailbox Who Msg) (channel : Channel Who Msg) (who : Who) (msg : Msg) :
    (m.put channel who msg).senders = m.senders ++ [who] := by
  simp only [senders, put, List.map_append, List.map_cons, List.map_nil]

@[simp] theorem line_put (m : Mailbox Who Msg) (channel : Channel Who Msg) (who : Who) (msg : Msg) :
    (m.put channel who msg).line = channel.line := rfl

theorem line_trySend {c c' : Channel Who Msg} (h : c.trySend msg = some c') : c'.line = c.line := by
  obtain ⟨-, rfl⟩ := Channel.trySend_eq_some h
  rfl

@[simp] theorem line_recv (m : Mailbox Who Msg) : m.recv.line = m.line := Channel.line_recv m.channel

theorem items_recv (c : Channel Who Msg) : c.items = c.items.take 1 ++ c.recv.items := by
  unfold Channel.recv
  split
  · rename_i item rest hitems
    rw [hitems, Channel.release]
    split
    · rfl
    · rfl
  · rename_i hitems
    rw [hitems]
    rfl

/-- The message that is put in comes last. -/
theorem Sound.put_items (h : m.Sound) {channel : Channel Who Msg}
    (hitems : channel.items = m.channel.items ++ [msg]) :
    (m.put channel who msg).entered.map Prod.snd = m.taken ++ m.lost ++ channel.items := by
  rw [put, List.map_append, h.order, hitems, List.append_assoc]
  rfl

theorem Sound.trySend (h : m.Sound) (hsent : m.trySend who msg = .sent m') : m'.Sound := by
  obtain ⟨hopen, channel, htry, rfl⟩ := trySend_eq_sent hsent
  obtain ⟨-, hchannel⟩ := Channel.trySend_eq_some htry
  have hitems : channel.items = m.channel.items ++ [msg] := hchannel ▸ rfl
  have hline := line_trySend htry
  refine ⟨h.put_items hitems, fun hclosed => ?_, fun _ => ?_, ?_⟩
  · exact absurd hopen (by rw [show m.closed = true from hclosed]; simp)
  · exact ⟨(h.alive hopen).1, (h.alive hopen).2.trySend htry⟩
  · exact (show (m.put channel who msg).line = m.line from hline) ▸ h.distinct

theorem Sound.recv (h : m.Sound) : m.recv.Sound := by
  refine ⟨?_, fun hclosed => ?_, fun hopen => ?_, ?_⟩
  · have horder := h.order
    cases hclosed : m.closed with
    | true =>
      have hitems := h.dead hclosed
      have hrecv : m.channel.recv.items = [] := by
        have hsplit := items_recv m.channel
        rw [hitems] at hsplit
        exact (List.append_eq_nil_iff.1 hsplit.symm).2
      rw [Mailbox.recv]
      dsimp only
      rw [horder, hrecv, hitems]
      simp
    | false =>
      have hlost := (h.alive hclosed).1
      rw [Mailbox.recv]
      dsimp only
      rw [horder, hlost, List.append_nil, List.append_nil, List.append_assoc, ← items_recv]
  · have hitems := h.dead hclosed
    have hsplit := items_recv m.channel
    rw [hitems] at hsplit
    exact (List.append_eq_nil_iff.1 hsplit.symm).2
  · exact ⟨(h.alive hopen).1, (h.alive hopen).2.recv⟩
  · rw [line_recv]
    exact h.distinct

theorem Sound.close (h : m.Sound) : m.close.Sound where
  order := by
    rw [Mailbox.close]
    dsimp only
    rw [h.order, List.append_nil, List.append_assoc]
  dead := fun _ => rfl
  alive := fun hopen => absurd hopen (by simp [Mailbox.close])
  distinct := h.distinct

section Waiting

variable [DecidableEq Who]

/-- A poll that succeeds has used a permit of its own or a free one. -/
theorem pollSend_eq_sent {queued : Bool} (h : m.pollSend who msg queued = .sent m') :
    m.closed = false ∧ ∃ channel, m' = m.put channel who msg ∧
      (queued = true ∧ m.channel.push who msg = some channel ∨
        queued = false ∧ m.channel.trySend msg = some channel) := by
  unfold pollSend at h
  split at h
  · cases h
  · rename_i hopen
    refine ⟨Bool.eq_false_iff.2 hopen, ?_⟩
    split at h
    · rename_i hqueued
      split at h
      · rename_i channel hpush
        cases h
        exact ⟨channel, rfl, Or.inl ⟨hqueued, hpush⟩⟩
      · cases h
    · rename_i hqueued
      split at h
      · rename_i channel htry
        cases h
        exact ⟨channel, rfl, Or.inr ⟨Bool.eq_false_iff.2 hqueued, htry⟩⟩
      · cases h

/-- A poll that has to wait leaves the sender in line, where it may be new. -/
theorem pollSend_eq_waits {queued : Bool} (h : m.pollSend who msg queued = .waits m') :
    m.closed = false ∧
      (queued = true ∧ who ∉ m.channel.granted ∧ m' = m ∨
        queued = false ∧ m.channel.free = 0 ∧ m' = { m with channel := m.channel.enqueue who }) := by
  unfold pollSend at h
  split at h
  · cases h
  · rename_i hopen
    refine ⟨Bool.eq_false_iff.2 hopen, ?_⟩
    split at h
    · rename_i hqueued
      split at h
      · cases h
      · rename_i hpush
        cases h
        refine Or.inl ⟨hqueued, fun hgranted => ?_, rfl⟩
        obtain ⟨channel, hsome⟩ := Channel.exists_push msg hgranted
        rw [hpush] at hsome
        cases hsome
    · rename_i hqueued
      split at h
      · cases h
      · rename_i htry
        cases h
        exact Or.inr ⟨Bool.eq_false_iff.2 hqueued, Channel.trySend_eq_none htry, rfl⟩

theorem pollSend_eq_closed {queued : Bool} (h : m.pollSend who msg queued = .closed) : m.closed = true := by
  unfold pollSend at h
  split at h
  · rename_i hclosed
    exact hclosed
  · split at h
    · split at h
      · cases h
      · cases h
    · split at h
      · cases h
      · cases h

/-- A sender in line that is polled before it is served waits on. -/
theorem pollSend_of_not_served (h : m.served who = false) : m.pollSend who msg true = .waits m := by
  obtain ⟨hopen, hgranted⟩ := Bool.or_eq_false_iff.1 h
  have hpush : m.channel.push who msg = none := if_neg (by simpa using hgranted)
  simp only [pollSend, hopen, hpush, if_true, Bool.false_eq_true, if_false]

theorem line_leave (m : Mailbox Who Msg) (who : Who) : (m.leave who).line = m.line.erase who :=
  Channel.line_leave m.channel who

theorem items_leave (c : Channel Who Msg) (who : Who) : (c.leave who).items = c.items := by
  unfold Channel.leave
  split
  · rw [Channel.release]
    split
    · rfl
    · rfl
  · rfl

theorem Sound.pollSend {queued : Bool} (h : m.Sound) (hsent : m.pollSend who msg queued = .sent m') : m'.Sound := by
  obtain ⟨hopen, channel, rfl, ⟨-, hpush⟩ | ⟨-, htry⟩⟩ := pollSend_eq_sent hsent
  · have hline := Channel.line_push hpush
    have hitems : channel.items = m.channel.items ++ [msg] := (Channel.push_eq_some hpush).2 ▸ rfl
    refine ⟨h.put_items hitems, fun hclosed => ?_, fun _ => ?_, ?_⟩
    · exact absurd hopen (by rw [show m.closed = true from hclosed]; simp)
    · exact ⟨(h.alive hopen).1, (h.alive hopen).2.push hpush⟩
    · exact (show (m.put channel who msg).line = m.line.erase who from hline) ▸ h.distinct.erase who
  · have htrySend : m.trySend who msg = .sent (m.put channel who msg) := by
      simp only [Mailbox.trySend, hopen, htry, Bool.false_eq_true, if_false]
    exact h.trySend htrySend

theorem Sound.waits {queued : Bool} (h : m.Sound) (hwaits : m.pollSend who msg queued = .waits m')
    (hnew : queued = false → who ∉ m.line) : m'.Sound := by
  obtain ⟨hopen, ⟨-, -, rfl⟩ | ⟨hqueued, hfree, rfl⟩⟩ := pollSend_eq_waits hwaits
  · exact h
  · have hchannel := (h.alive hopen).2.enqueue hfree (hnew hqueued)
    exact ⟨h.order, h.dead, fun _ => ⟨(h.alive hopen).1, hchannel⟩, hchannel.distinct⟩

theorem Sound.leave (h : m.Sound) (who : Who) : (m.leave who).Sound where
  order := h.order.trans (congrArg _ (items_leave m.channel who).symm)
  dead := fun hclosed => (items_leave m.channel who).trans (h.dead hclosed)
  alive := fun hopen => ⟨(h.alive hopen).1, (h.alive hopen).2.leave who⟩
  distinct := by
    rw [line_leave]
    exact h.distinct.erase who

end Waiting

end Mailbox
