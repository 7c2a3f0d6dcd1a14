import SpiderChrome.Handler.Registry
import SpiderChrome.Target.Keeps

/-!
# Waking the handler

A page sends a message in two steps: it puts the message in the channel of its target, and then notifies the handler, which stores one permit however often it is notified. The loop of `run` takes the messages from the channels of all its targets, and then waits for the permit among other things. It takes at most 128 messages of a target in one pass and does not come back for the rest, so what is left over waits until something else wakes the handler. `nobody_stranded` says when nothing is left over that nobody will wake it for.
-/

namespace SpiderChrome

namespace Handler

/-! ### The channels -/

/-- The messages that wait in the channel of a target; none if it is not there. -/
def waitingAt (h : Handler) (targetId : TargetId) : List TargetMessage :=
  ((h.targets.get targetId).map Target.waiting).getD []

variable {h : Handler} {input : HandlerInput} {targetId : TargetId}

theorem waitingAt_drainPage (h : Handler) (asked targetId : TargetId) :
    (h.step .run (.drainPage asked)).waitingAt targetId =
      if targetId = asked then (h.waitingAt targetId).drop perTargetDrainBudget
      else h.waitingAt targetId := by
  rw [waitingAt, waitingAt, show (h.step .run (.drainPage asked)).targets =
    h.targets.update asked drainPage from rfl, Table.get_update]
  split
  · cases h.targets.get targetId with
    | none => rfl
    | some target => exact target.waiting_drainPage
  · rfl

/-- The target has a page, and so a channel. -/
def hasPage (h : Handler) (targetId : TargetId) : Bool :=
  ((h.targets.get targetId).bind Target.page).isSome

theorem waitingAt_pageMessage (h : Handler) (asked : TargetId) (msg : TargetMessage)
    (hpage : h.hasPage asked = true) (targetId : TargetId) :
    (h.step .run (.pageMessage asked msg)).waitingAt targetId =
      if targetId = asked then h.waitingAt targetId ++ [msg] else h.waitingAt targetId := by
  rw [waitingAt, waitingAt, show (h.step .run (.pageMessage asked msg)).targets =
    h.targets.update asked fun target => target.receive msg from rfl, Table.get_update]
  split
  · rename_i hsame
    subst hsame
    rw [hasPage] at hpage
    cases htarget : h.targets.get targetId with
    | none =>
      rw [htarget] at hpage
      cases hpage
    | some target =>
      rw [htarget, Option.bind_some] at hpage
      obtain ⟨handle, hhandle⟩ := Option.isSome_iff_exists.1 hpage
      simp only [Option.map_some, Option.getD_some, Target.waiting, Target.receive, hhandle]
  · rfl

end Handler

/-! ### The loop -/

/-- Where the loop of `run` is: in a pass over the targets, of which some are yet to be visited; in its `select!`; or it was left. -/
inductive RunPhase where
  | pass (toVisit : List TargetId)
  | select
  | ended
deriving DecidableEq

/-- The handler in its loop. Every send of a page has a number; `unread` has those whose message waits in the channel of a target, in order, and `owed` those whose sender has not notified yet. -/
structure RunLoop where
  handler : Handler
  /-- `page_wake` stores a permit. -/
  permit : Bool
  phase : RunPhase
  unread : TargetId → List Nat
  owed : List Nat
  nextSend : Nat

/-- What happens next: a page puts a message in its channel, or notifies; the loop visits a target, polls one, or ends its pass; the `select!` takes the permit, or another arm, or the loop is left. -/
inductive RunInput where
  | push (targetId : TargetId) (msg : TargetMessage)
  | notify (send : Nat)
  | visit (targetId : TargetId)
  | turn (accepted : Bool) (targetId : TargetId) (env : Env) (now : Instant)
  | endPass
  | wake
  | arm (input : HandlerInput)
  | leave

/-- The inputs that the other arms of the `select!` take. -/
def HandlerInput.isArm : HandlerInput → Bool
  | browserMessage .. | response .. | event .. | evict _ => true
  | _ => false

namespace RunLoop

def new (config : HandlerConfig) : RunLoop where
  handler := .new config
  permit := false
  phase := .pass []
  unread := fun _ => []
  owed := []
  nextSend := 0

/-- The handler takes an input; the messages that leave a channel are its first. -/
def follow (s : RunLoop) (input : HandlerInput) : RunLoop :=
  let handler := s.handler.step .run input
  { s with
    handler := handler
    unread := fun targetId =>
      (s.unread targetId).drop ((s.unread targetId).length - (handler.waitingAt targetId).length) }

/-- A pass begins, over all the targets. -/
def beginPass (s : RunLoop) : RunLoop := { s with phase := .pass s.handler.targetIds }

def step (s : RunLoop) : RunInput → RunLoop
  | .push targetId msg =>
    -- The channel of a target that is gone is closed, and a send that fails does not notify.
    if s.handler.hasPage targetId then
      { s with
        handler := s.handler.step .run (.pageMessage targetId msg)
        unread := Function.update s.unread targetId (s.unread targetId ++ [s.nextSend])
        owed := s.nextSend :: s.owed
        nextSend := s.nextSend + 1 }
    else s
  | .notify send =>
    if send ∈ s.owed then { s with owed := s.owed.erase send, permit := true } else s
  | .visit targetId =>
    match s.phase with
    | .pass toVisit =>
      if targetId ∈ toVisit then
        { s.follow (.drainPage targetId) with phase := .pass (toVisit.erase targetId) }
      else s
    | _ => s
  | .turn accepted targetId env now =>
    match s.phase with
    | .pass _ => s.follow (.turn accepted targetId env now)
    | _ => s
  | .endPass =>
    match s.phase with
    | .pass [] =>
      let s := s.follow .blockExhausted
      { s with phase := if s.handler.closing then .ended else .select }
    | _ => s
  | .wake =>
    match s.phase, s.permit with
    | .select, true => { s with permit := false }.beginPass
    | _, _ => s
  | .arm input =>
    match s.phase, input.isArm with
    | .select, true => (s.follow input).beginPass
    | _, _ => s
  | .leave =>
    match s.phase with
    | .select => { s with phase := .ended }
    | _ => s

/-! ### What is left over -/

/-- Somebody will wake the loop for the channel: a permit is stored, or the sender of a message in it has not notified yet. -/
def Tended (s : RunLoop) (targetId : TargetId) : Prop :=
  s.permit = true ∨ ∃ send ∈ s.unread targetId, send ∈ s.owed

/-- While the loop is in its `select!`, somebody will wake it for every channel in which a message waits. -/
def NobodyStranded (s : RunLoop) : Prop :=
  s.phase = .select → ∀ targetId, s.handler.waitingAt targetId ≠ [] → s.Tended targetId

/-- The visits of a pass take all that waits in the channel, or a permit is stored, or the sender of a message that is left has not notified yet. -/
def DrainsAll (s : RunLoop) : RunInput → Prop
  | .visit targetId =>
    match s.phase with
    | .pass toVisit =>
      targetId ∈ toVisit →
        (s.handler.waitingAt targetId).length ≤ Handler.perTargetDrainBudget ∨ s.permit = true ∨
          ∃ send ∈ (s.unread targetId).drop Handler.perTargetDrainBudget, send ∈ s.owed
    | _ => True
  | _ => True

instance (s : RunLoop) (input : RunInput) : Decidable (s.DrainsAll input) :=
  match s, input with
  | ⟨_, _, .pass _, _, _, _⟩, .visit _ => inferInstanceAs (Decidable (_ → _ ∨ _ ∨ _))
  | ⟨_, _, .select, _, _, _⟩, .visit _ | ⟨_, _, .ended, _, _, _⟩, .visit _ => .isTrue trivial
  | _, .push .. | _, .notify _ | _, .turn .. | _, .endPass | _, .wake | _, .arm _ | _, .leave =>
    .isTrue trivial

/-- The sends that are unread are those whose messages wait, and the handler has listed its targets. -/
structure Sound (s : RunLoop) : Prop where
  aligned : ∀ targetId, (s.unread targetId).length = (s.handler.waitingAt targetId).length
  listed : s.handler.Listed
  unarmed : s.handler.remainingBytes = none

/-- Somebody will wake the loop for the channels that the pass is done with, and in the `select!` for all. -/
structure Watched (s : RunLoop) : Prop where
  visited : ∀ toVisit, s.phase = .pass toVisit → ∀ targetId, targetId ∉ toVisit →
    s.handler.waitingAt targetId ≠ [] → s.Tended targetId
  selecting : s.NobodyStranded

variable {s : RunLoop}

theorem Sound.follow (h : Sound s) (input : HandlerInput)
    (hshrink : ∀ targetId, ((s.handler.step .run input).waitingAt targetId).length ≤
      (s.handler.waitingAt targetId).length) : Sound (s.follow input) where
  aligned := by
    intro targetId
    have hle := hshrink targetId
    have haligned := h.aligned targetId
    show ((s.unread targetId).drop ((s.unread targetId).length -
      ((s.handler.step .run input).waitingAt targetId).length)).length = _
    rw [List.length_drop]
    show _ = ((s.handler.step .run input).waitingAt targetId).length
    omega
  listed := h.listed.step h.unarmed .run input
  unarmed := Handler.remainingBytes_step h.unarmed .run input

/-- A channel that keeps its messages keeps those who tend it. -/
theorem Sound.tended_follow (h : Sound s) (input : HandlerInput) {targetId : TargetId}
    (hsame : (s.handler.step .run input).waitingAt targetId = s.handler.waitingAt targetId)
    (htended : s.Tended targetId) : (s.follow input).Tended targetId := by
  have hunread : (s.follow input).unread targetId = s.unread targetId := by
    show (s.unread targetId).drop ((s.unread targetId).length -
      ((s.handler.step .run input).waitingAt targetId).length) = _
    rw [hsame, h.aligned, Nat.sub_self, List.drop_zero]
  obtain hpermit | ⟨send, hunsent, howed⟩ := htended
  · exact .inl hpermit
  · exact .inr ⟨send, hunread ▸ hunsent, howed⟩

theorem Sound.push (h : Sound s) {targetId : TargetId} (msg : TargetMessage)
    (hpage : s.handler.hasPage targetId = true) : Sound (s.step (.push targetId msg)) := by
  simp only [step, hpage, if_true]
  refine ⟨fun x => ?_, h.listed.step h.unarmed .run _, Handler.remainingBytes_step h.unarmed .run _⟩
  show (Function.update s.unread targetId (s.unread targetId ++ [s.nextSend]) x).length =
    ((s.handler.step .run (.pageMessage targetId msg)).waitingAt x).length
  have haligned := h.aligned x
  rw [s.handler.waitingAt_pageMessage targetId msg hpage, Function.update_apply]
  split
  · rename_i hsame
    subst hsame
    simp only [List.length_append, List.length_singleton]
    omega
  · exact haligned

/-- A message that is put in a channel is tended, and the other channels are as before. -/
theorem tended_push {targetId : TargetId} (msg : TargetMessage)
    (hpage : s.handler.hasPage targetId = true) {x : TargetId}
    (hbefore : s.handler.waitingAt x ≠ [] → s.Tended x)
    (hwaiting : (s.step (.push targetId msg)).handler.waitingAt x ≠ []) :
    (s.step (.push targetId msg)).Tended x := by
  simp only [step, hpage, if_true] at hwaiting ⊢
  by_cases hsame : x = targetId
  · subst hsame
    refine .inr ⟨s.nextSend, ?_, List.mem_cons_self⟩
    simp only [Function.update_self, List.mem_append, List.mem_singleton, or_true]
  · rw [s.handler.waitingAt_pageMessage targetId msg hpage, if_neg hsame] at hwaiting
    obtain hpermit | ⟨send, hunread, howed⟩ := hbefore hwaiting
    · exact .inl hpermit
    · refine .inr ⟨send, ?_, List.mem_cons_of_mem _ howed⟩
      simpa only [Function.update_of_ne hsame] using hunread

theorem Watched.push (h : Watched s) {targetId : TargetId} (msg : TargetMessage)
    (hpage : s.handler.hasPage targetId = true) : Watched (s.step (.push targetId msg)) := by
  have hphase : (s.step (.push targetId msg)).phase = s.phase := by
    simp only [step, hpage, if_true]
  refine ⟨fun toVisit hpass x hx hwaiting => ?_, fun hselect x hwaiting => ?_⟩
  · exact tended_push msg hpage (h.visited toVisit (hphase ▸ hpass) x hx) hwaiting
  · exact tended_push msg hpage (h.selecting (hphase ▸ hselect) x) hwaiting

/-- A channel after a visit: what is left in it is tended, as the visit took all or left somebody to wake the loop. -/
theorem tended_visit (h : Sound s) {toVisit : List TargetId} (hphase : s.phase = .pass toVisit)
    {targetId : TargetId} (hmem : targetId ∈ toVisit) (hdrains : DrainsAll s (.visit targetId))
    (hwaiting : (s.follow (.drainPage targetId)).handler.waitingAt targetId ≠ []) :
    (s.follow (.drainPage targetId)).Tended targetId := by
  have hleft : (s.handler.step .run (.drainPage targetId)).waitingAt targetId =
      (s.handler.waitingAt targetId).drop Handler.perTargetDrainBudget := by
    rw [s.handler.waitingAt_drainPage, if_pos rfl]
  have hmore : Handler.perTargetDrainBudget < (s.handler.waitingAt targetId).length := by
    by_contra hle
    refine hwaiting (hleft.trans (List.drop_eq_nil_of_le ?_))
    omega
  simp only [DrainsAll, hphase] at hdrains
  obtain hle | hpermit | ⟨send, hunread, howed⟩ := hdrains hmem
  · omega
  · exact .inl hpermit
  · refine .inr ⟨send, ?_, howed⟩
    show send ∈ (s.unread targetId).drop ((s.unread targetId).length -
      ((s.handler.step .run (.drainPage targetId)).waitingAt targetId).length)
    -- As many sends leave the list as messages leave the channel.
    have hcount : (s.unread targetId).length - ((s.handler.waitingAt targetId).drop
        Handler.perTargetDrainBudget).length = Handler.perTargetDrainBudget := by
      rw [List.length_drop, h.aligned]
      omega
    rw [hleft, hcount]
    exact hunread

theorem Sound.visit (h : Sound s) (targetId : TargetId) : Sound (s.follow (.drainPage targetId)) := by
  refine h.follow (.drainPage targetId) fun x => ?_
  rw [s.handler.waitingAt_drainPage]
  split
  · rw [List.length_drop]
    exact Nat.sub_le _ _
  · exact Nat.le_refl _

theorem Watched.visit (hsound : Sound s) (h : Watched s) {toVisit : List TargetId}
    (hphase : s.phase = .pass toVisit) {targetId : TargetId} (hmem : targetId ∈ toVisit)
    (hdrains : DrainsAll s (.visit targetId)) :
    Watched { s.follow (.drainPage targetId) with phase := .pass (toVisit.erase targetId) } where
  visited := by
    intro left hleft x hx hwaiting
    cases hleft
    by_cases hsame : x = targetId
    · subst hsame
      exact tended_visit hsound hphase hmem hdrains hwaiting
    · have hkept : (s.handler.step .run (.drainPage targetId)).waitingAt x = s.handler.waitingAt x := by
        rw [s.handler.waitingAt_drainPage, if_neg hsame]
      have hbefore : x ∉ toVisit := fun hin => hx ((List.mem_erase_of_ne hsame).2 hin)
      exact hsound.tended_follow (.drainPage targetId) hkept
        (h.visited toVisit hphase x hbefore (hkept ▸ hwaiting))
  selecting := nofun

open Handler in
/-- A pass over the one target, and an arm of the `select!` after it. -/
def passThenArm (input : HandlerInput) : List RunInput :=
  [.visit plainTarget, .turn true plainTarget plainEnv 0, .endPass, .arm input]

open Handler in
/-- A page is opened and fetched, and sends so many messages while the loop waits. The loop wakes, passes over the target and waits again. -/
def burst (sends : Nat) : List RunInput :=
  [.endPass,
      .arm (.event plainEnv ⟨.targetTargetCreated ⟨plainTarget, "page", none, none⟩, none⟩)] ++
    ((List.range 10).flatMap fun call => passThenArm (.response plainEnv (Handler.plainResponse (call + 1)))) ++
    passThenArm (.browserMessage true (.getPage plainTarget ⟨0⟩) 0) ++ [.visit plainTarget, .endPass] ++
    ((List.range sends).flatMap fun send =>
      [.push plainTarget (.blockNetwork true), .notify send]) ++
    [.wake, .visit plainTarget, .endPass]

end RunLoop

end SpiderChrome
