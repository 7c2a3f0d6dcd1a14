import SpiderChrome.Target.Drivers

/-!
# How much a target may still tell

The loop of `run` over the events of a target has no bound of its own: it ends because `advance` runs out of events. What a target may still tell is its queues, the reports of its navigations and the commands of its initialisation. Each event takes one of them away; a command of the page may begin a navigation, which tells at most as much as the command was counted for.
-/

namespace SpiderChrome

namespace TargetEvent

def isCommand : TargetEvent → Bool
  | command _ => true
  | _ => false

/-- What an event is counted for: a navigation is told in two events, and the network may be told its url. -/
def weight (event : TargetEvent) : Nat := if event.isCommand then 4 else 1

/-- The command that an event is. -/
def command? : TargetEvent → Option CommandMessage
  | command msg => some msg
  | _ => none

end TargetEvent

namespace Target

/-- How many events a turn of the initialisation tells. -/
def InitTurn.told : InitTurn → Nat
  | emit _ => 1
  | _ => 0

/-- The events of the initialisation that are told without a response from the browser. -/
def initLeft (t : Target) (now : Instant) : Nat :=
  match t.initState with
  | .attachToTarget => 2
  | init =>
    match init.chain? with
    | some cmds =>
      match cmds.waiting with
      | some (_, deadline) => if deadline < now then 1 else 0
      | none => 1
    | none => 0

/-- The commands in the queue. -/
def commands (t : Target) : List CommandMessage := t.queuedEvents.filterMap TargetEvent.command?

/-- What a target may still tell without any input, with each command counted for what comes of it. -/
def eventsLeft (t : Target) (now : Instant) : Nat := t.workLeft + 3 * t.commands.length + t.initLeft now

variable {env : Env} {now : Instant} {t t' : Target} {turn : InitTurn}

/-! ### The initialisation -/

theorem initLeft_of_chain {cmds : CommandChain} (hchain : t.initState.chain? = some cmds) :
    t.initLeft now =
      match cmds.waiting with
      | some (_, deadline) => if deadline < now then 1 else 0
      | none => 1 := by
  unfold initLeft
  split
  · rename_i hstate
    rw [hstate] at hchain
    cases hchain
  · rw [hchain]

theorem initLeft_le_of_chain {cmds : CommandChain} (hchain : t.initState.chain? = some cmds) :
    t.initLeft now ≤ 1 := by
  rw [initLeft_of_chain hchain]
  split
  · split
    · omega
    · omega
  · omega

/-- A chain that is done is followed by another one, or by the end of the initialisation. -/
theorem initLeft_afterChain {cmds : CommandChain} (hchain : t.initState.chain? = some cmds) (env : Env) :
    (t.afterChain env).initLeft now ≤ 1 := by
  have hfollows : (∃ cmds, (t.afterChain env).initState.chain? = some cmds) ∨
      (t.afterChain env).initState = .initialized := by
    unfold afterChain
    cases hstate : t.initState with
    | initializingFrame _ =>
      left
      dsimp only
      unfold afterFrameChain
      split
      · split
        · exact ⟨_, rfl⟩
        · exact ⟨_, rfl⟩
      · exact ⟨_, rfl⟩
    | initializingNetwork _ => exact .inl ⟨_, rfl⟩
    | initializingPage _ =>
      dsimp only
      cases t.config.viewport with
      | some viewport => exact .inl ⟨_, rfl⟩
      | none => exact .inr rfl
    | initializingEmulation _ => exact .inr rfl
    | _ =>
      rw [hstate] at hchain
      cases hchain
  obtain ⟨cmds, hnext⟩ | hready := hfollows
  · exact initLeft_le_of_chain hnext
  · rw [initLeft, hready]
    exact Nat.zero_le 1

theorem workLeft_afterChain (t : Target) (env : Env) : (t.afterChain env).workLeft = t.workLeft := by
  unfold afterChain
  split
  · unfold afterFrameChain FrameManager.ensureIsolatedWorld
    split
    · split
      · rename_i heq
        split at heq
        · cases heq
        · cases heq
          rfl
      · rename_i heq
        split at heq
        · cases heq
          rfl
        · cases heq
    · rfl
  all_goals rfl

theorem workLeft_onInitializationFailed (t : Target) : t.onInitializationFailed.1.workLeft = t.workLeft := by
  unfold onInitializationFailed
  cases t.initiator with
  | none => rfl
  | some initiator => rfl

theorem workLeft_serveInitiator (t : Target) : t.serveInitiator.workLeft = t.workLeft := by
  obtain ⟨_, _, _, heq⟩ := t.serveInitiator_same
  rw [heq]
  rfl

/-- A turn of the initialisation leaves the rest of the work alone. -/
theorem InitTurns.workLeft (h : InitTurns env now t t' turn) : t'.workLeft = t.workLeft := by
  induction h with
  | attach | unattached | pending | command | closing => rfl
  | expired => exact workLeft_onInitializationFailed _
  | passes hchain hsession hwaiting hcmds hrest ih => rw [ih, workLeft_afterChain]
  | ready => exact workLeft_serveInitiator _

/-- An event of the initialisation is one of those that were left. -/
theorem InitTurns.initLeft (h : InitTurns env now t t' turn) :
    t'.initLeft now + turn.told ≤ t.initLeft now := by
  induction h with
  | attach hstate =>
    have hbefore : ∀ t : Target, t.initState = .attachToTarget → t.initLeft now = 2 := by
      intro t hstate
      rw [Target.initLeft, hstate]
    rw [hbefore _ hstate]
    exact Nat.add_le_add_right (initLeft_le_of_chain rfl) 1
  | unattached => exact Nat.le_refl _
  | pending => exact Nat.le_refl _
  | closing => exact Nat.le_refl _
  | @expired t cmds method deadline hchain hsession hwaiting hdeadline =>
    have hclosing : t.onInitializationFailed.1.initLeft now = 0 := rfl
    rw [initLeft_of_chain hchain, hwaiting, hclosing]
    dsimp only
    rw [if_pos hdeadline]
    exact Nat.le_refl 1
  | @command t cmds method params rest hchain hsession hwaiting hcmds =>
    have hlater : ¬ now + cmds.timeout < now := Nat.not_lt.2 (Nat.le_add_right now cmds.timeout)
    rw [initLeft_of_chain hchain, hwaiting, initLeft_of_chain (chain?_withChain hchain _)]
    dsimp only
    rw [if_neg hlater]
    exact Nat.le_refl 1
  | passes hchain hsession hwaiting hcmds hrest ih =>
    have hone : ∀ {t : Target} {cmds : CommandChain}, t.initState.chain? = some cmds → cmds.waiting = none →
        t.initLeft now = 1 := by
      intro t cmds hchain hwaiting
      rw [initLeft_of_chain hchain, hwaiting]
    rw [hone hchain hwaiting]
    exact ih.trans (initLeft_afterChain hchain env)
  | @ready t hstate =>
    have hsame : t.serveInitiator.initLeft now = t.initLeft now := by
      rw [Target.initLeft, Target.initLeft, initState_serveInitiator]
    rw [hsame]
    exact Nat.le_refl _

/-! ### A call -/

/-- The commands in the queue are told one after the other, and a call brings no new ones. -/
theorem drains_commands : Drains TargetEvent.command? fun _ => ([] : List CommandMessage) where
  poll fm now clock := by
    cases (fm.poll now clock).2 with
    | none => rfl
    | some event =>
      cases event with
      | navigationResult res => rfl
      | navigationRequest id req => rfl
  frames _ _ _ := rfl
  worlds _ _ := rfl
  request _ := rfl
  bytesConsumed _ := rfl

theorem commands_advance (t : Target) (env : Env) (now : Instant) :
    t.commands =
      ((t.advance env now).event.bind TargetEvent.command?).toList ++ (t.advance env now).target.commands := by
  have hbacklog := backlog_advance drains_commands t env now
  rw [backlog, backlog, List.append_nil, List.append_nil] at hbacklog
  exact hbacklog

/-- What a call tells is taken off what is left to tell. -/
theorem workLeft_initLeft_advance (t : Target) (env : Env) (now : Instant) :
    (t.advance env now).target.workLeft + (t.advance env now).target.initLeft now +
      (t.advance env now).event.toList.length ≤ t.workLeft + t.initLeft now := by
  have hinit := (turns env now t).initLeft
  have hwork := (turns env now t).workLeft
  unfold advance pollWith
  split
  · exact Nat.le_refl _
  · rcases hturn : t.initTurn env now 6 with ⟨t', event | _ | _⟩
    all_goals rw [hturn] at hinit hwork
    all_goals dsimp only at hinit hwork ⊢
    · rw [← hwork, Nat.add_assoc]
      exact Nat.add_le_add_left hinit _
    · rw [← hwork]
      exact Nat.add_le_add_left hinit _
    · have hpump := (t'.pruneWaiters env.isClosed).workLeft_pump env.clock now
      have hpruned : (t'.pruneWaiters env.isClosed).workLeft = t'.workLeft := rfl
      have hsame : ((t'.pruneWaiters env.isClosed).pump List.length (fun t => t) env.clock now).target.initLeft now =
          t'.initLeft now := by
        rw [Target.initLeft, Target.initLeft, initState_pump fun _ => rfl]
        rfl
      rw [hsame]
      have hless : t'.initLeft now ≤ t.initLeft now := hinit
      omega

theorem eventsLeft_advance (t : Target) (env : Env) (now : Instant) :
    (t.advance env now).target.eventsLeft now + ((t.advance env now).event.map TargetEvent.weight).getD 0 ≤
      t.eventsLeft now := by
  have hwork := t.workLeft_initLeft_advance env now
  have hcommands := congrArg List.length (t.commands_advance env now)
  rw [List.length_append] at hcommands
  have hweight : ((t.advance env now).event.map TargetEvent.weight).getD 0 =
      (t.advance env now).event.toList.length +
        3 * ((t.advance env now).event.bind TargetEvent.command?).toList.length := by
    cases (t.advance env now).event with
    | none => rfl
    | some event => cases event <;> rfl
  unfold eventsLeft
  omega

/-- A navigation adds a request and a result, and what the network is told. -/
theorem eventsLeft_goto (t : Target) (req : FrameRequestedNavigation) (now : Instant) :
    (t.goto req).eventsLeft now ≤ t.eventsLeft now + 3 := by
  have hframes : frameTurns (t.frameManager.goto req) ≤ frameTurns t.frameManager + 2 := by
    unfold FrameManager.goto
    split
    · unfold frameTurns FrameManager.navigateFrame
      dsimp only
      rw [List.length_append, List.length_singleton]
      omega
    · omega
  have hpolicy : ∀ nm : NetworkManager, nm.emitRequestPolicy.queuedEvents.length ≤ nm.queuedEvents.length + 1 := by
    intro nm
    unfold NetworkManager.emitRequestPolicy
    split
    · exact Nat.le_succ _
    · unfold NetworkManager.pushCdpRequest NetworkManager.pushEvent
      dsimp only
      rw [List.length_append, List.length_singleton]
  have hnetwork : (t.goto req).networkManager.queuedEvents.length ≤ t.networkManager.queuedEvents.length + 1 := by
    unfold goto
    dsimp only
    split
    · split
      · exact hpolicy _
      · exact Nat.le_succ _
    · exact Nat.le_succ _
  have hwork : (t.goto req).workLeft ≤ t.workLeft + 3 := by
    unfold workLeft
    have hqueue : (t.goto req).queuedEvents = t.queuedEvents := rfl
    have hmanager : (t.goto req).frameManager = t.frameManager.goto req := rfl
    rw [hqueue, hmanager]
    omega
  have hcommands : (t.goto req).commands = t.commands := rfl
  have hinit : (t.goto req).initLeft now = t.initLeft now := rfl
  unfold eventsLeft
  rw [hcommands, hinit]
  omega

end Target

end SpiderChrome
