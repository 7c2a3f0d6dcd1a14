import SpiderChrome.Keyboard.Order

/-!
# When the key goes up first

A key that goes down and finds the channel full, with more places than one, can be overtaken: both of its commands come to wait, everybody ahead of them is served, both are granted a permit, and the second is the first to use it. So the condition of `typed_in_order` is what it takes (`guard_iff`).
-/

namespace SpiderChrome

namespace Keyboard

variable {layout : List KeyDefinition} {modifiers : Option Int} {keys : List String}
variable {channel : PageChannel} {half : Half} {w : World} {press : Press} {input : Input}

/-- The worlds that a run leads to, if no key that goes down finds the channel full. -/
abbrev Leads (layout : List KeyDefinition) (modifiers : Option Int) : World → World → Prop :=
  Run.Reaches (World.step layout modifiers) World.Guard

/-! ### Serving the line -/

theorem leads_recvs (w : World) (count : Nat) :
    Leads layout modifiers w { w with channel := Channel.recv^[count] w.channel } := by
  induction count generalizing w with
  | zero => exact .refl w
  | succ count ih =>
    have hguard : w.Guard .recv := trivial
    exact .head hguard (ih _)

theorem leads_otherPush {id : Nat} (hsent : w.channel.push (.other id) .other = some channel) :
    Leads layout modifiers w { w with channel := channel } := by
  have hstep : w.step layout modifiers (.otherPush id) = { w with channel := channel } := by
    simp only [World.step, World.otherPush, hsent]
  have hguard : w.Guard (.otherPush id) := trivial
  refine .head hguard ?_
  rw [hstep]
  exact .refl _

/-- Everybody ahead of the key is served, if the handler takes enough messages and they are polled. -/
theorem leads_served {others rest : List Who} (hsound : w.channel.Sound) (hfree : w.channel.free = 0)
    (hroom : 1 ≤ w.channel.capacity) (hothers : ∀ half, Who.half half ∉ others)
    (hline : w.channel.line = others ++ rest) :
    ∃ channel : PageChannel, channel.Sound ∧ channel.free = 0 ∧ channel.capacity = w.channel.capacity ∧
      channel.line = rest ∧ Leads layout modifiers w { w with channel := channel } := by
  induction others generalizing w with
  | nil => exact ⟨w.channel, hsound, hfree, rfl, hline, .refl w⟩
  | cons who others ih =>
    cases who with
    | half half => exact absurd List.mem_cons_self (hothers half)
    | other id =>
      have hfirst : w.channel.line = [.other id] ++ (others ++ rest) := hline
      obtain ⟨count, hgranted, hsound', hfree'⟩ := hsound.grants hfree hfirst hroom
      have hmem := hgranted.subset List.mem_cons_self
      obtain ⟨channel, hsent⟩ := Channel.exists_push (Message.other) hmem
      have hline' : channel.line = others ++ rest := by
        rw [Channel.line_push hsent, Channel.line_recvs, hline]
        exact List.erase_cons_head (Who.other id) _
      have hcapacity : channel.capacity = w.channel.capacity := by
        rw [Channel.capacity_push hsent, Channel.capacity_recvs]
      have hleft : channel.free = 0 := by
        rw [Channel.free_push hsent, hfree']
      have hlater : ∀ half, Who.half half ∉ others := fun half hmem => hothers half (List.mem_cons_of_mem _ hmem)
      obtain ⟨channel', hsound'', hfree'', hcapacity', hlast, hleads⟩ :=
        ih (w := { w with channel := channel }) (hsound'.push hsent) hleft (hcapacity ▸ hroom) hlater hline'
      refine ⟨channel', hsound'', hfree'', hcapacity'.trans hcapacity, hlast, ?_⟩
      exact ((leads_recvs w count).trans (leads_otherPush hsent)).trans hleads

/-! ### The commands of the key -/

section Commands

variable (layout : List KeyDefinition) (modifiers : Option Int)

theorem step_poll (hpress : w.press = some press) (hmay : press.mayPoll half = true) :
    w.step layout modifiers (.poll half) = w.poll press half := by
  simp only [World.step, hpress, hmay, if_true]

/-- A command that finds the channel full. -/
theorem step_fresh (w : World) (press : Press) (half : Half) (hpress : w.press = some press)
    (hmay : press.mayPoll half = true) (hfresh : press.sending half = .fresh) (hfree : w.channel.free = 0) :
    w.step layout modifiers (.poll half) = { w with press := some (press.set half .full) } := by
  rw [step_poll layout modifiers hpress hmay]
  simp only [World.poll, hfresh, sendCommand, Channel.trySend_of_full hfree]
  rfl

theorem step_full (w : World) (press : Press) (half : Half) (hpress : w.press = some press)
    (hmay : press.mayPoll half = true) (hfull : press.sending half = .full) (hfree : w.channel.free = 0) :
    w.step layout modifiers (.poll half) =
      { w with channel := w.channel.enqueue (.half half), press := some (press.set half .queued) } := by
  rw [step_poll layout modifiers hpress hmay]
  simp only [World.poll, hfull, sendCommand, Channel.trySend_of_full hfree]
  rfl

theorem step_queued (w : World) (press : Press) (half : Half) (hpress : w.press = some press)
    (hmay : press.mayPoll half = true) (hqueued : press.sending half = .queued)
    (hsent : w.channel.push (.half half) (.key (press.event half)) = some channel) :
    w.step layout modifiers (.poll half) =
      { w with
        channel := channel
        press := some (press.set half .sent)
        placed := w.placed ++ [press.event half] } := by
  rw [step_poll layout modifiers hpress hmay]
  simp only [World.poll, hqueued, sendCommand, hsent]
  rfl

/-- A command may be polled once the key that goes down has been tried. -/
theorem leads_poll {layout : List KeyDefinition} {modifiers : Option Int} {w' w'' : World} (hpress : w.press = some press) (hne : press.down ≠ .fresh)
    (hstep : w.step layout modifiers (.poll half) = w') (h : Leads layout modifiers w' w'') :
    Leads layout modifiers w w'' := by
  have hguard : w.Guard (.poll half) := by
    cases half with
    | up => trivial
    | down =>
      intro press' hmem hfresh
      rw [hpress] at hmem
      rw [← Option.some.inj hmem] at hfresh
      exact absurd hfresh hne
  exact .head hguard (hstep ▸ h)

/-- Both commands of a key that finds the channel full come to wait, the one that goes up behind the other. -/
theorem leads_queued {downEvent upEvent : DispatchKeyEventParams}
    (hpress : w.press = some ⟨downEvent, upEvent, .fresh, .fresh⟩) (hfree : w.channel.free = 0) :
    Leads layout modifiers (w.step layout modifiers (.poll .down))
      { w with
        channel := (w.channel.enqueue (.half .down)).enqueue (.half .up)
        press := some ⟨downEvent, upEvent, .queued, .queued⟩ } := by
  have hfirst := step_fresh layout modifiers w _ .down hpress rfl rfl hfree
  have hsecond := step_full layout modifiers
    ⟨w.channel, some ⟨downEvent, upEvent, .full, .fresh⟩, w.rest, w.placed⟩ _ .down rfl rfl rfl hfree
  have hthird := step_fresh layout modifiers
    ⟨w.channel.enqueue (.half .down), some ⟨downEvent, upEvent, .queued, .fresh⟩, w.rest, w.placed⟩ _ .up rfl rfl rfl
    hfree
  have hfourth := step_full layout modifiers
    ⟨w.channel.enqueue (.half .down), some ⟨downEvent, upEvent, .queued, .full⟩, w.rest, w.placed⟩ _ .up rfl rfl rfl
    hfree
  rw [hfirst]
  have hfull : Sending.full ≠ .fresh := nofun
  have hqueued : Sending.queued ≠ .fresh := nofun
  exact leads_poll rfl hfull hsecond (leads_poll rfl hqueued hthird (leads_poll rfl hqueued hfourth (.refl _)))

/-- Once both wait and nobody is ahead of them, both are granted a permit, and the key may go up first. -/
theorem leads_up {downEvent upEvent : DispatchKeyEventParams}
    (hpress : w.press = some ⟨downEvent, upEvent, .queued, .queued⟩) (hsound : w.channel.Sound)
    (hfree : w.channel.free = 0) (hwide : 2 ≤ w.channel.capacity)
    (hline : w.channel.line = [.half .down, .half .up]) :
    ∃ w', w'.placed = w.placed ++ [upEvent] ∧ Leads layout modifiers w w' := by
  have hboth : w.channel.line = [.half .down, .half .up] ++ [] := hline
  obtain ⟨count, hgranted, -, -⟩ := hsound.grants hfree hboth hwide
  have hmem : Who.half .up ∈ (Channel.recv^[count] w.channel).granted :=
    hgranted.subset (List.mem_cons_of_mem _ List.mem_cons_self)
  obtain ⟨channel, hsent⟩ := Channel.exists_push (Message.key upEvent) hmem
  have hlast := step_queued layout modifiers
    { w with channel := Channel.recv^[count] w.channel } _ .up hpress rfl rfl hsent
  have hqueued : Sending.queued ≠ .fresh := nofun
  exact ⟨_, rfl, (leads_recvs w count).trans (leads_poll hpress hqueued hlast (.refl _))⟩

end Commands

/-! ### The guard -/

/-- A key that goes down and finds a channel full that has more places than one is overtaken in some run. -/
theorem overtaken (h : Sound layout modifiers keys w) (hpress : w.press = some press) (hfresh : press.down = .fresh)
    (hfree : w.channel.free = 0) (hwide : 2 ≤ w.channel.capacity) :
    ∃ w', Leads layout modifiers (w.step layout modifiers (.poll .down)) w' ∧
      ¬ w'.Typed layout modifiers keys := by
  have hgoing := h.going press hpress
  have hup : press.up = .fresh := by
    by_contra hne
    have hbegun := hgoing.begun hne
    rw [hfresh] at hbegun
    cases hbegun
  obtain ⟨downEvent, upEvent, down, up⟩ := press
  obtain rfl : down = .fresh := hfresh
  obtain rfl : up = .fresh := hup
  have hfollows := h.follows
  unfold Follows at hfollows
  rw [hpress] at hfollows
  obtain ⟨before, hbefore, hscript⟩ := hfollows
  have hnobody : ∀ half, Who.half half ∉ w.channel.line := by
    intro half hmem
    have hqueued := (h.waits_of hpress half).1 hmem
    rw [sending_of_both rfl rfl] at hqueued
    cases hqueued
  have hdown := h.channel.enqueue hfree (hnobody .down)
  have hnew : Who.half .up ∉ (w.channel.enqueue (.half .down)).line := by
    rw [Channel.line_enqueue, List.mem_append, List.mem_singleton]
    exact not_or.2 ⟨hnobody .up, nofun⟩
  have hboth := hdown.enqueue hfree hnew
  have hline : ((w.channel.enqueue (.half .down)).enqueue (.half .up)).line =
      w.channel.line ++ [.half .down, .half .up] := by
    rw [Channel.line_enqueue, Channel.line_enqueue, List.append_assoc]
    rfl
  have hqueued := leads_queued layout modifiers hpress hfree
  obtain ⟨channel, hsound, hfull, hcapacity, hlast, hserved⟩ :=
    leads_served (w := ⟨(w.channel.enqueue (.half .down)).enqueue (.half .up),
      some ⟨downEvent, upEvent, .queued, .queued⟩, w.rest, w.placed⟩) hboth hfree (Nat.le_of_succ_le hwide) hnobody hline
  obtain ⟨w', hplaced, hleads⟩ := leads_up layout modifiers
    (w := ⟨channel, some ⟨downEvent, upEvent, .queued, .queued⟩, w.rest, w.placed⟩) rfl hsound hfull
    (hcapacity ▸ hwide) hlast
  refine ⟨w', (hqueued.trans hserved).trans hleads, fun htyped => ?_⟩
  rw [World.Typed, hplaced, hscript] at htyped
  have hnothing : w.placed = before := hbefore.trans (List.append_nil before)
  dsimp only at htyped
  rw [hnothing, List.prefix_append_right_inj] at htyped
  obtain ⟨heq, -⟩ := List.cons_prefix_cons.1 htyped
  exact hgoing.differ heq.symm

/-- The guard is what it takes: a step meets it just when every run that goes on under it types the keys in order. -/
theorem guard_iff (h : Sound layout modifiers keys w) : w.Guard input ↔
    ∀ w', Leads layout modifiers (w.step layout modifiers input) w' → w'.Typed layout modifiers keys := by
  constructor
  · intro hguard w' hleads
    have hsound := hleads.invariant (Sound layout modifiers keys) (fun w input hw hguard => hw.step hguard)
      (h.step hguard)
    exact hsound.typed
  · intro htyped
    cases input with
    | poll half =>
      cases half with
      | up => trivial
      | down =>
        intro press hpress hfresh
        by_contra hfull
        rw [not_or, Nat.not_lt, Nat.not_le, Nat.le_zero] at hfull
        obtain ⟨w', hleads, hnot⟩ := overtaken h hpress hfresh hfull.1 hfull.2
        exact hnot (htyped w' hleads)
    | answer | stop | recv | otherTry | otherStart | otherPush | otherLeave => trivial

end Keyboard

end SpiderChrome
