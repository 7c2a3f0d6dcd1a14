import SpiderChrome.Keyboard.Press

/-!
# The order of the keys

The keys of a text are put into the channel in order, and each goes down before it goes up, if the channel has room whenever a key that goes down is tried. Without room the command waits, the command that lets the key go waits behind it, and once both were granted a permit it is a matter of which is polled first; only a channel with a single place cannot grant both. `typed_in_order` is the law for whole runs.
-/

namespace SpiderChrome

namespace Keyboard

variable {layout : List KeyDefinition} {modifiers : Option Int} {keys : List String}
variable {channel : PageChannel} {half other : Half} {event : DispatchKeyEventParams} {sending : Sending}
variable {w : World} {press : Press} {input : Input}

/-- The command, once it is in the channel. -/
def Sending.command (sending : Sending) (event : DispatchKeyEventParams) : List DispatchKeyEventParams :=
  if sending.isPlaced then [event] else []

theorem command_of_isPlaced (h : sending.isPlaced = true) (event : DispatchKeyEventParams) :
    sending.command event = [event] := if_pos h

theorem command_of_not_isPlaced (h : sending.isPlaced = false) (event : DispatchKeyEventParams) :
    sending.command event = [] := by
  rw [Sending.command, h]
  rfl

namespace Press

@[simp] theorem sending_set_self (press : Press) (half : Half) (sending : Sending) :
    (press.set half sending).sending half = sending := by
  cases half <;> rfl

theorem sending_set_of_ne (press : Press) (sending : Sending) (hne : other ≠ half) :
    (press.set half sending).sending other = press.sending other := by
  cases half <;> cases other <;> first | rfl | exact absurd rfl hne

/-- The commands of the press that are in the channel, if the key has gone down before it goes up. -/
def placed (press : Press) : List DispatchKeyEventParams :=
  press.down.command press.downEvent ++ press.up.command press.upEvent

def events (press : Press) : List DispatchKeyEventParams := [press.downEvent, press.upEvent]

end Press

/-! ### One step of a command -/

/-- What a step of `send_command` does to the channel, with a rule for each case. -/
inductive Sends (channel : PageChannel) (half : Half) (event : DispatchKeyEventParams) : Sending → Sent → Prop where
  | passes {channel' : PageChannel} {sending : Sending} (hbegun : sending.isBegun = false)
      (hsent : channel.trySend (.key event) = some channel') :
      Sends channel half event sending ⟨channel', .sent, true⟩
  | fails (hfull : channel.free = 0) : Sends channel half event .fresh ⟨channel, .full, false⟩
  | waits (hfull : channel.free = 0) :
      Sends channel half event .full ⟨channel.enqueue (.half half), .queued, false⟩
  | pushes {channel' : PageChannel} (hsent : channel.push (.half half) (.key event) = some channel') :
      Sends channel half event .queued ⟨channel', .sent, true⟩
  | stays : Sends channel half event .queued ⟨channel, .queued, false⟩
  | past {sending : Sending} (hplaced : sending.isPlaced = true) :
      Sends channel half event sending ⟨channel, sending, false⟩

theorem sends (channel : PageChannel) (half : Half) (event : DispatchKeyEventParams) (sending : Sending) :
    Sends channel half event sending (sendCommand channel half event sending) := by
  cases sending with
  | fresh =>
    cases htry : channel.trySend (.key event) with
    | some channel' => simpa only [sendCommand, htry] using .passes rfl htry
    | none => simpa only [sendCommand, htry] using .fails (Channel.trySend_eq_none htry)
  | full =>
    cases htry : channel.trySend (.key event) with
    | some channel' => simpa only [sendCommand, htry] using .passes rfl htry
    | none => simpa only [sendCommand, htry] using .waits (Channel.trySend_eq_none htry)
  | queued =>
    cases hpush : channel.push (.half half) (.key event) with
    | some channel' => simpa only [sendCommand, hpush] using .pushes hpush
    | none => simpa only [sendCommand, hpush] using .stays
  | sent => exact .past rfl
  | answered => exact .past rfl

section Step

variable {sent : Sent}

theorem Sends.capacity (h : Sends channel half event sending sent) :
    sent.channel.capacity = channel.capacity := by
  cases h with
  | passes hbegun hsent =>
    obtain ⟨-, rfl⟩ := Channel.trySend_eq_some hsent
    rfl
  | pushes hsent => exact Channel.capacity_push hsent
  | fails | waits | stays | past => rfl

/-- The commands that wait in line are those that are queued. -/
def Waits (channel : PageChannel) (half : Half) (sending : Sending) : Prop :=
  Who.half half ∈ channel.line ↔ sending = .queued

theorem Sends.sound (h : Sends channel half event sending sent) (hsound : channel.Sound)
    (hwaits : Waits channel half sending) : sent.channel.Sound := by
  cases h with
  | passes hbegun hsent => exact hsound.trySend hsent
  | pushes hsent => exact hsound.push hsent
  | waits hfull =>
    refine hsound.enqueue hfull fun hmem => ?_
    cases hwaits.1 hmem
  | fails | stays | past => exact hsound

theorem Sends.line_of_ne (h : Sends channel half event sending sent) {who : Who} (hne : who ≠ .half half) :
    who ∈ sent.channel.line ↔ who ∈ channel.line := by
  cases h with
  | passes hbegun hsent =>
    obtain ⟨-, rfl⟩ := Channel.trySend_eq_some hsent
    exact Iff.rfl
  | pushes hsent =>
    rw [Channel.line_push hsent]
    exact List.mem_erase_of_ne hne
  | waits =>
    rw [Channel.line_enqueue, List.mem_append, List.mem_singleton, or_iff_left hne]
  | fails | stays | past => exact Iff.rfl

theorem Sends.waits_self (h : Sends channel half event sending sent) (hsound : channel.Sound)
    (hwaits : Waits channel half sending) : Waits sent.channel half sent.sending := by
  cases h with
  | passes hbegun hsent =>
    obtain ⟨-, rfl⟩ := Channel.trySend_eq_some hsent
    refine iff_of_false (fun hmem => ?_) nofun
    rw [hwaits.1 hmem] at hbegun
    cases hbegun
  | pushes hsent =>
    refine iff_of_false ?_ nofun
    rw [Channel.line_push hsent]
    exact hsound.distinct.not_mem_erase
  | waits =>
    refine iff_of_true ?_ rfl
    rw [Channel.line_enqueue]
    exact List.mem_append_right _ List.mem_cons_self
  | fails hfull =>
    refine iff_of_false (fun hmem => ?_) nofun
    cases hwaits.1 hmem
  | stays | past => exact hwaits

theorem Sends.isPlaced (h : Sends channel half event sending sent) :
    sent.sending.isPlaced = (sending.isPlaced || sent.placed) := by
  cases h with
  | passes => exact (Bool.or_true _).symm
  | fails | waits | pushes | stays => rfl
  | past => exact (Bool.or_false _).symm

/-- A command is put into the channel once. -/
theorem Sends.placed_once (h : Sends channel half event sending sent) (hplaced : sent.placed = true) :
    sending.isPlaced = false := by
  cases h with
  | passes hbegun =>
    cases sending with
    | fresh | full => rfl
    | queued | sent | answered => cases hbegun
  | pushes => rfl
  | fails | waits | stays | past => cases hplaced

theorem Sends.command (h : Sends channel half event sending sent) :
    sent.sending.command event = sending.command event ++ if sent.placed then [event] else [] := by
  have hplaced := h.isPlaced
  cases hnew : sent.placed with
  | false =>
    rw [hnew, Bool.or_false] at hplaced
    rw [Sending.command, hplaced]
    exact (List.append_nil _).symm
  | true =>
    rw [hnew, Bool.or_true] at hplaced
    rw [command_of_isPlaced hplaced, command_of_not_isPlaced (h.placed_once hnew)]
    rfl

theorem Sends.isBegun (h : Sends channel half event sending sent) (hbegun : sending.isBegun = true) :
    sent.sending.isBegun = true := by
  cases h with
  | passes | waits | pushes | stays => rfl
  | fails => cases hbegun
  | past => exact hbegun

/-- Where there is room, a command is put into the channel at once. -/
theorem Sends.of_room (h : Sends channel half event .fresh sent) (hroom : 0 < channel.free) :
    sent.sending.isPlaced = true := by
  cases h with
  | passes => rfl
  | fails hfull => omega
  | past hplaced => cases hplaced

/-- Whoever comes to the line comes behind the others. -/
theorem Sends.ahead (h : Sends channel half event sending sent)
    (hahead : channel.Ahead (.half .down) (.half .up))
    (hcomes : sending = .full → Who.half .up ∉ channel.line) : sent.channel.Ahead (.half .down) (.half .up) := by
  cases h with
  | passes hbegun hsent =>
    obtain ⟨-, rfl⟩ := Channel.trySend_eq_some hsent
    exact hahead
  | pushes hsent =>
    refine hahead.of_sublist ?_
    rw [Channel.line_push hsent]
    exact List.erase_sublist
  | waits =>
    have hnew := hcomes rfl
    cases half with
    | up => exact Channel.ahead_enqueue hnew _
    | down =>
      intro hboth
      rw [Channel.line_enqueue] at hboth
      have hmem := hboth.subset List.mem_cons_self
      rw [List.mem_append, List.mem_singleton] at hmem
      obtain hmem | hmem := hmem
      · exact hnew hmem
      · cases hmem
  | fails | stays | past => exact hahead

end Step

/-! ### What holds between the steps -/

/-- A press is in order: the first round goes through the commands in turn, only a channel with a single place lets the key that goes down wait, and the key goes up after it has gone down. -/
structure Going (channel : PageChannel) (press : Press) : Prop where
  begun : press.up ≠ .fresh → press.down.isBegun = true
  narrow : press.down ≠ .fresh → press.down.isPlaced = false → channel.capacity ≤ 1
  ordered : press.up.isPlaced = true → press.down.isPlaced = true
  differ : press.downEvent ≠ press.upEvent

/-- What has been put into the channel is what comes before the press, with what the press has placed so far. -/
def Follows (layout : List KeyDefinition) (modifiers : Option Int) (keys : List String) (w : World) : Prop :=
  match w.press with
  | some press => ∃ before, w.placed = before ++ press.placed ∧
      script layout modifiers keys = before ++ (press.events ++ script layout modifiers w.rest)
  | none => w.Typed layout modifiers keys

structure Sound (layout : List KeyDefinition) (modifiers : Option Int) (keys : List String) (w : World) :
    Prop where
  channel : w.channel.Sound
  ahead : w.channel.Ahead (.half .down) (.half .up)
  waits : ∀ half, Who.half half ∈ w.channel.line ↔ ∃ press, w.press = some press ∧ press.sending half = .queued
  going : ∀ press, w.press = some press → Going w.channel press
  follows : Follows layout modifiers keys w

theorem Sound.waits_of (h : Sound layout modifiers keys w) (hpress : w.press = some press) (half : Half) :
    Waits w.channel half (press.sending half) := by
  refine (h.waits half).trans ⟨fun ⟨press', hpress', hqueued⟩ => ?_, fun hqueued => ⟨press, hpress, hqueued⟩⟩
  rw [hpress] at hpress'
  rwa [Option.some.inj hpress']

theorem Going.placed_leads (h : Going channel press) : press.placed <+: press.events := by
  cases hup : press.up.isPlaced with
  | true =>
    rw [Press.placed, command_of_isPlaced (h.ordered hup), command_of_isPlaced hup]
    exact List.prefix_rfl
  | false =>
    rw [Press.placed, command_of_not_isPlaced hup, List.append_nil, Sending.command]
    split
    · exact ⟨[press.upEvent], rfl⟩
    · exact List.nil_prefix

theorem Sound.typed (h : Sound layout modifiers keys w) : w.Typed layout modifiers keys := by
  have hfollows := h.follows
  unfold Follows at hfollows
  split at hfollows
  · rename_i press hpress
    obtain ⟨before, hplaced, hscript⟩ := hfollows
    rw [World.Typed, hplaced, hscript, List.prefix_append_right_inj]
    exact (h.going press hpress).placed_leads.trans (List.prefix_append _ _)
  · exact hfollows

/-! ### The first key -/

theorem keyDown_ne_keyUp (definition : KeyDefinition) (modifiers : Option Int) :
    keyDown definition modifiers ≠ keyUp definition modifiers := by
  intro heq
  have htype : (keyText definition).2 = .keyUp := congrArg DispatchKeyEventParams.type heq
  unfold keyText at htype
  split at htype
  · cases htype
  · split at htype
    · cases htype
    · cases htype

/-- A press of which nothing has been sent yet. -/
structure Press.Fresh (press : Press) : Prop where
  down : press.down = .fresh
  up : press.up = .fresh
  differ : press.downEvent ≠ press.upEvent

/-- There is a press of the first key, or nothing more is typed. -/
theorem nextKey_cases (layout : List KeyDefinition) (modifiers : Option Int) (keys : List String) :
    nextKey layout modifiers keys = (none, []) ∨ ∃ press rest,
      nextKey layout modifiers keys = (some press, rest) ∧ press.Fresh ∧
      script layout modifiers keys = press.events ++ script layout modifiers rest := by
  cases keys with
  | nil => exact .inl rfl
  | cons key rest =>
    cases hkey : getKeyDefinition layout key with
    | none => simp [nextKey, hkey]
    | some definition =>
      have hdiffer := keyDown_ne_keyUp definition modifiers
      refine .inr ⟨⟨keyDown definition modifiers, keyUp definition modifiers, .fresh, .fresh⟩, rest, ?_,
        ⟨rfl, rfl, hdiffer⟩, ?_⟩
      · simp only [nextKey, hkey]
      · simp only [script, hkey]
        rfl

theorem follows_nextKey {before : List DispatchKeyEventParams} (rest : List String)
    (hscript : script layout modifiers keys = before ++ script layout modifiers rest) (channel : PageChannel) :
    Follows layout modifiers keys
      ⟨channel, (nextKey layout modifiers rest).1, (nextKey layout modifiers rest).2, before⟩ := by
  obtain hnext | ⟨press, rest', hnext, hfresh, hevents⟩ := nextKey_cases layout modifiers rest
  · rw [hnext]
    exact ⟨_, hscript.symm⟩
  · rw [hnext]
    refine ⟨before, ?_, ?_⟩
    · have hnothing : press.placed = [] := by rw [Press.placed, hfresh.down, hfresh.up]; rfl
      rw [hnothing, List.append_nil]
    · rw [hscript, hevents]

theorem fresh_of_nextKey {rest : List String} (hpress : (nextKey layout modifiers rest).1 = some press) :
    press.Fresh := by
  obtain hnext | ⟨press', rest', hnext, hfresh, -⟩ := nextKey_cases layout modifiers rest
  · rw [hnext] at hpress
    cases hpress
  · rw [hnext] at hpress
    exact Option.some.inj hpress ▸ hfresh

theorem Press.Fresh.going (h : press.Fresh) (channel : PageChannel) : Going channel press where
  begun := fun hbegun => absurd h.up hbegun
  narrow := fun hbegun => absurd h.down hbegun
  ordered := fun hplaced => by rw [h.up] at hplaced; cases hplaced
  differ := h.differ

theorem sending_of_both (hdown : press.down = sending) (hup : press.up = sending) (half : Half) :
    press.sending half = sending := by
  cases half with
  | down => exact hdown
  | up => exact hup

theorem sound_start (layout : List KeyDefinition) (modifiers : Option Int) (capacity : Nat) (keys : List String) :
    Sound layout modifiers keys (.start layout modifiers capacity keys) where
  channel := Channel.sound_empty _
  ahead := by
    intro hboth
    cases hboth.subset List.mem_cons_self
  waits := by
    refine fun half => iff_of_false List.not_mem_nil ?_
    rintro ⟨press, hpress, hqueued⟩
    have hfresh := fresh_of_nextKey hpress
    rw [sending_of_both hfresh.down hfresh.up] at hqueued
    cases hqueued
  going := fun press hpress => (fresh_of_nextKey hpress).going _
  follows := follows_nextKey keys rfl _

/-! ### One step -/

/-- As long as the key that goes down waits in a channel with a single place, the key does not go up. -/
theorem Sound.down_placed (h : Sound layout modifiers keys w) (hpress : w.press = some press)
    (hbegun : press.down.isBegun = true) {sent : Sent} (hsends : Sends w.channel .up event sending sent)
    (hplaced : sent.placed = true) : press.down.isPlaced = true := by
  by_contra hdown
  rw [Bool.not_eq_true] at hdown
  have hqueued : press.down = .queued := by
    cases hphase : press.down with
    | queued => rfl
    | fresh | full => rw [hphase] at hbegun; cases hbegun
    | sent | answered => rw [hphase] at hdown; cases hdown
  have hnarrow := (h.going press hpress).narrow (by rw [hqueued]; nofun) hdown
  have hline : Who.half .down ∈ w.channel.line := (h.waits_of hpress .down).2 hqueued
  have hwide : 2 ≤ w.channel.capacity := by
    cases hsends with
    | passes _ hsent =>
      obtain ⟨hfree, -⟩ := Channel.trySend_eq_some hsent
      obtain hgranted | hqueue := List.mem_append.1 hline
      · exact h.channel.two_le hgranted hfree
      · have hzero := h.channel.free_eq_zero hqueue
        omega
    | pushes hsent =>
      obtain ⟨hgranted, -⟩ := Channel.push_eq_some hsent
      have hne : Who.half .down ≠ Who.half .up := nofun
      exact h.channel.two_le_granted hne (h.ahead.granted hline hgranted) hgranted
    | fails | waits | stays | past => cases hplaced
  omega

theorem Going.polled (h : Sound layout modifiers keys w) (hpress : w.press = some press)
    (hmay : press.mayPoll half = true) (hguard : w.Guard (.poll half)) {sent : Sent}
    (hsends : Sends w.channel half (press.event half) (press.sending half) sent) :
    Going sent.channel (press.set half sent.sending) := by
  have hgoing := h.going press hpress
  have hplaced := hsends.isPlaced
  cases half with
  | down =>
    constructor
    · exact fun hup => hsends.isBegun (hgoing.begun hup)
    · intro hfresh hnot
      have hold : press.down.isPlaced = false := by
        rw [Press.set] at hnot
        dsimp only at hnot
        rw [hplaced, Bool.or_eq_false_iff] at hnot
        exact hnot.1
      rw [hsends.capacity]
      by_cases hstart : press.down = .fresh
      · obtain hroom | hnarrow := hguard press hpress hstart
        · rw [Press.sending, hstart] at hsends
          have hroom := hsends.of_room hroom
          rw [Press.set] at hnot
          dsimp only at hnot
          rw [hroom] at hnot
          cases hnot
        · exact hnarrow
      · exact hgoing.narrow hstart hold
    · intro hup
      have hdown := hgoing.ordered hup
      rw [Press.set]
      dsimp only
      rw [hplaced, Press.sending, hdown, Bool.true_or]
    · exact hgoing.differ
  | up =>
    constructor
    · exact fun _ => hmay
    · intro hfresh hnot
      rw [hsends.capacity]
      exact hgoing.narrow hfresh hnot
    · intro hup
      rw [Press.set] at hup ⊢
      dsimp only at hup ⊢
      rw [hplaced, Bool.or_eq_true_iff] at hup
      obtain hold | hnew := hup
      · exact hgoing.ordered hold
      · exact h.down_placed hpress hmay hsends hnew
    · exact hgoing.differ

/-- What a step places is the next command of the press. -/
theorem placed_polled (hgoing : Going channel press) {sent : Sent}
    (hsends : Sends channel half (press.event half) (press.sending half) sent) :
    (press.set half sent.sending).placed = press.placed ++ if sent.placed then [press.event half] else [] := by
  have hcommand := hsends.command
  cases half with
  | down =>
    have hfirst : sent.placed = true → press.up.command press.upEvent = [] := by
      intro hnew
      refine command_of_not_isPlaced ?_ _
      by_contra hup
      have hdown : press.down.isPlaced = false := hsends.placed_once hnew
      rw [hgoing.ordered (Bool.not_eq_false _ ▸ hup)] at hdown
      cases hdown
    have hset : (press.set .down sent.sending).placed =
        sent.sending.command press.downEvent ++ press.up.command press.upEvent := rfl
    rw [hset]
    simp only [Press.event, Press.sending] at hcommand ⊢
    rw [hcommand, Press.placed]
    split
    · rename_i hnew
      rw [hfirst hnew, List.append_nil, List.append_nil]
    · rw [List.append_nil, List.append_nil]
  | up =>
    have hset : (press.set .up sent.sending).placed =
        press.down.command press.downEvent ++ sent.sending.command press.upEvent := rfl
    rw [hset]
    simp only [Press.event, Press.sending] at hcommand ⊢
    rw [hcommand, Press.placed, List.append_assoc]

theorem Sound.poll (h : Sound layout modifiers keys w) (hpress : w.press = some press)
    (hmay : press.mayPoll half = true) (hguard : w.Guard (.poll half)) :
    Sound layout modifiers keys (w.poll press half) := by
  have hsends := sends w.channel half (press.event half) (press.sending half)
  have hgoing := Going.polled h hpress hmay hguard hsends
  have hplaced := placed_polled (h.going press hpress) hsends
  refine ⟨hsends.sound h.channel (h.waits_of hpress half), ?_, ?_, ?_, ?_⟩
  · refine hsends.ahead h.ahead fun hfull hmem => ?_
    have hqueued : press.up = .queued := (h.waits_of hpress .up).1 hmem
    cases half with
    | up =>
      rw [Press.sending, hqueued] at hfull
      cases hfull
    | down =>
      have hbegun := (h.going press hpress).begun (by rw [hqueued]; nofun)
      rw [Press.sending] at hfull
      rw [hfull] at hbegun
      cases hbegun
  · intro other
    have hwaits : Waits (w.poll press half).channel other ((press.set half
        (sendCommand w.channel half (press.event half) (press.sending half)).sending).sending other) := by
      by_cases hne : other = half
      · subst hne
        rw [Press.sending_set_self]
        exact hsends.waits_self h.channel (h.waits_of hpress other)
      · rw [Press.sending_set_of_ne _ _ hne]
        refine (hsends.line_of_ne fun heq => hne (Who.half.inj heq)).trans (h.waits_of hpress other)
    refine hwaits.trans ⟨fun hqueued => ⟨_, rfl, hqueued⟩, ?_⟩
    rintro ⟨press', hpress', hqueued⟩
    rwa [← Option.some.inj hpress'] at hqueued
  · intro press' hpress'
    rw [← Option.some.inj hpress']
    exact hgoing
  · have hfollows := h.follows
    unfold Follows at hfollows ⊢
    rw [hpress] at hfollows
    obtain ⟨before, hbefore, hscript⟩ := hfollows
    refine ⟨before, ?_, ?_⟩
    · rw [hplaced]
      simp only [World.poll, hbefore]
      split
      · rw [List.append_assoc]
      · rw [List.append_nil]
    · cases half <;> exact hscript

/-- Only the answer to a command is waited for, so the press stays what it was. -/
theorem Going.answered (h : Going channel press) (hsent : press.sending half = .sent) :
    Going channel (press.set half .answered) := by
  cases half with
  | down =>
    refine ⟨fun _ => rfl, fun _ hnot => ?_, fun _ => rfl, h.differ⟩
    cases hnot
  | up =>
    have hup : press.up = .sent := hsent
    have hdown : press.down.isPlaced = true := h.ordered (by rw [hup]; rfl)
    have hbegun : press.down.isBegun = true := h.begun (by rw [hup]; nofun)
    exact ⟨fun _ => hbegun, h.narrow, fun _ => hdown, h.differ⟩

theorem placed_answered (hsent : press.sending half = .sent) : (press.set half .answered).placed = press.placed := by
  cases half with
  | down =>
    have hdown : press.down = .sent := hsent
    rw [Press.placed, Press.placed, hdown]
    rfl
  | up =>
    have hup : press.up = .sent := hsent
    rw [Press.placed, Press.placed, hup]
    rfl

theorem Sound.answer (h : Sound layout modifiers keys w) (hpress : w.press = some press)
    (hsent : press.sending half = .sent) : Sound layout modifiers keys (w.answer layout modifiers press half) := by
  have hfollows := h.follows
  unfold Follows at hfollows
  rw [hpress] at hfollows
  obtain ⟨before, hbefore, hscript⟩ := hfollows
  rw [← placed_answered hsent] at hbefore
  have hwaits : ∀ other, Waits w.channel other ((press.set half .answered).sending other) := by
    intro other
    by_cases hne : other = half
    · subst hne
      rw [Press.sending_set_self]
      refine iff_of_false (fun hmem => ?_) nofun
      have hqueued := (h.waits_of hpress other).1 hmem
      rw [hsent] at hqueued
      cases hqueued
    · rw [Press.sending_set_of_ne _ _ hne]
      exact h.waits_of hpress other
  unfold World.answer
  dsimp only
  split
  · rename_i hboth
    have hevents : (press.set half .answered).placed = press.events := by
      rw [Press.placed, hboth.1, hboth.2]
      cases half <;> rfl
    rw [hevents] at hbefore
    rw [← List.append_assoc, ← hbefore] at hscript
    refine ⟨h.channel, h.ahead, ?_, ?_, follows_nextKey w.rest hscript w.channel⟩
    · refine fun other => iff_of_false (fun hmem => ?_) ?_
      · have hqueued := (hwaits other).1 hmem
        rw [sending_of_both hboth.1 hboth.2] at hqueued
        cases hqueued
      · rintro ⟨next, hnext, hqueued⟩
        have hfresh := fresh_of_nextKey hnext
        rw [sending_of_both hfresh.down hfresh.up] at hqueued
        cases hqueued
    · exact fun next hnext => (fresh_of_nextKey hnext).going _
  · refine ⟨h.channel, h.ahead, ?_, ?_, ⟨before, hbefore, ?_⟩⟩
    · refine fun other => (hwaits other).trans ⟨fun hqueued => ⟨_, rfl, hqueued⟩, ?_⟩
      rintro ⟨press', hpress', hqueued⟩
      rwa [← Option.some.inj hpress'] at hqueued
    · intro press' hpress'
      rw [← Option.some.inj hpress']
      exact (h.going press hpress).answered hsent
    · cases half <;> exact hscript

/-- The commands that wait leave the line, and nothing more is typed. -/
theorem Sound.stop (h : Sound layout modifiers keys w) :
    Sound layout modifiers keys (w.step layout modifiers .stop) where
  channel := (h.channel.leave _).leave _
  ahead := by
    refine h.ahead.of_sublist ?_
    rw [World.step, Channel.line_leave, Channel.line_leave]
    exact List.erase_sublist.trans List.erase_sublist
  waits := by
    intro half
    rw [World.step, Channel.line_leave, Channel.line_leave]
    refine iff_of_false (fun hmem => ?_) ?_
    · cases half with
      | down => exact h.channel.distinct.not_mem_erase (List.mem_of_mem_erase hmem)
      | up => exact (h.channel.distinct.erase _).not_mem_erase hmem
    · rintro ⟨press, hpress, -⟩
      cases hpress
  going := by
    intro press hpress
    cases hpress
  follows := h.typed

/-- A step that only changes the channel. -/
theorem Sound.withChannel (h : Sound layout modifiers keys w) {channel : PageChannel} (hsound : channel.Sound)
    (hahead : channel.Ahead (.half .down) (.half .up)) (hcapacity : channel.capacity = w.channel.capacity)
    (hline : ∀ half, Who.half half ∈ channel.line ↔ Who.half half ∈ w.channel.line) :
    Sound layout modifiers keys { w with channel := channel } where
  channel := hsound
  ahead := hahead
  waits := fun half => (hline half).trans (h.waits half)
  going := fun press hpress =>
    have hgoing := h.going press hpress
    ⟨hgoing.begun, hcapacity ▸ hgoing.narrow, hgoing.ordered, hgoing.differ⟩
  follows := h.follows

theorem Sound.trySend (h : Sound layout modifiers keys w) {channel : PageChannel}
    (hsent : w.channel.trySend .other = some channel) :
    Sound layout modifiers keys { w with channel := channel } := by
  have hsound := h.channel.trySend hsent
  obtain ⟨-, rfl⟩ := Channel.trySend_eq_some hsent
  exact h.withChannel hsound h.ahead rfl fun _ => Iff.rfl

/-- Somebody else leaves the line. -/
theorem mem_erase_other {line : List Who} (id : Nat) (half : Half) :
    Who.half half ∈ line.erase (.other id) ↔ Who.half half ∈ line :=
  List.mem_erase_of_ne nofun

/-- Every step keeps the keys in order, if its guard holds. -/
theorem Sound.step (h : Sound layout modifiers keys w) (hguard : w.Guard input) :
    Sound layout modifiers keys (w.step layout modifiers input) := by
  cases input with
  | poll half =>
    cases hpress : w.press with
    | none => simpa only [World.step, hpress] using h
    | some press =>
      simp only [World.step, hpress]
      split
      · rename_i hmay
        exact h.poll hpress hmay hguard
      · exact h
  | answer half =>
    cases hpress : w.press with
    | none => simpa only [World.step, hpress] using h
    | some press =>
      simp only [World.step, hpress]
      split
      · rename_i hsent
        exact h.answer hpress hsent
      · exact h
  | stop => exact h.stop
  | recv =>
    refine h.withChannel h.channel.recv (h.ahead.of_sublist ?_) (Channel.capacity_recv _) fun half => ?_
    · rw [Channel.line_recv]
    · rw [Channel.line_recv]
  | otherTry =>
    change Sound layout modifiers keys w.otherTry
    unfold World.otherTry
    split
    · rename_i channel hsent
      exact h.trySend hsent
    · exact h
  | otherStart id =>
    change Sound layout modifiers keys (w.otherStart id)
    unfold World.otherStart
    split
    · exact h
    · rename_i hnew
      split
      · rename_i channel hsent
        exact h.trySend hsent
      · rename_i hfull
        have hsound := h.channel.enqueue (Channel.trySend_eq_none hfull) hnew
        refine h.withChannel hsound (h.ahead.enqueue nofun) rfl fun half => ?_
        rw [Channel.line_enqueue, List.mem_append, List.mem_singleton, or_iff_left nofun]
  | otherPush id =>
    change Sound layout modifiers keys (w.otherPush id)
    unfold World.otherPush
    split
    · rename_i channel hsent
      have hline := Channel.line_push hsent
      have hcapacity := Channel.capacity_push hsent
      refine h.withChannel (h.channel.push hsent) (h.ahead.of_sublist ?_) hcapacity fun half => ?_
      · exact hline ▸ List.erase_sublist
      · rw [hline, mem_erase_other]
    · exact h
  | otherLeave id =>
    have hline := Channel.line_leave w.channel (.other id)
    refine h.withChannel (h.channel.leave _) (h.ahead.of_sublist ?_) (Channel.capacity_leave _ _) fun half => ?_
    · exact hline ▸ List.erase_sublist
    · rw [hline, mem_erase_other]

/-- At every moment of a run, what has been put into the channel is the beginning of the keys in order, each down before it is up, if no key that goes down finds the channel full. -/
theorem typed_in_order (layout : List KeyDefinition) (modifiers : Option Int) (capacity : Nat) (keys : List String)
    (inputs : List Input)
    (hallowed : Run.Allowed (World.step layout modifiers) World.Guard (.start layout modifiers capacity keys) inputs) :
    Run.Always (World.step layout modifiers) (World.Typed layout modifiers keys)
      (.start layout modifiers capacity keys) inputs := by
  have hsound := sound_start layout modifiers capacity keys
  have halways := Run.always_of_allowed (fun w input (h : Sound layout modifiers keys w) hguard => h.step hguard)
    hsound hallowed
  exact halways.mono fun w h => h.typed

def keyA : KeyDefinition := ⟨"a", 65, "KeyA", none⟩

/-- In a channel with a single place the key that goes down waits, and the key goes up behind it. -/
theorem typed_in_order_single : Run.Always (World.step [keyA] none) (World.Typed [keyA] none (keysOf "aa"))
    (.start [keyA] none 1 (keysOf "aa"))
    [.otherTry, .poll .down, .poll .down, .poll .up, .poll .up, .recv, .poll .up, .poll .down, .recv, .poll .up,
      .answer .up, .answer .down, .recv, .poll .down, .poll .up] :=
  typed_in_order [keyA] none 1 (keysOf "aa") _ (by decide)

/-- In a full channel with two places both commands wait. Once both were granted a permit, the key goes up before it has gone down. -/
theorem up_before_down : ¬ ∀ layout modifiers capacity keys inputs,
    Run.Always (World.step layout modifiers) (World.Typed layout modifiers keys)
      (.start layout modifiers capacity keys) inputs := by
  intro h
  have hlast := (h [keyA] none 2 (keysOf "a") [.otherTry, .otherTry, .poll .down, .poll .down, .poll .up, .poll .up,
    .recv, .recv, .poll .up]).last
  exact absurd hlast (by decide)

end Keyboard

end SpiderChrome
