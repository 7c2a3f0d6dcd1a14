import SpiderChrome.Target.Turns

/-!
# The initialisation of a target

A target attaches itself to its page, and then goes through its chains of commands, one command after the other: those of the frames, those of the isolated world of the main frame, and those of the network, the page and the emulation. Each command waits for the response to the one before. A chain that waits for too long makes the target give up and ask for its page to be closed. `initialisation_law` states this for the events that the polls of a target hand out, and for the responses it gets.
-/

namespace SpiderChrome

/-- What happens to a target that initialises itself. -/
inductive InitInput where
  | polled (driver : Driver) (env : Env) (now : Instant)
  | response (env : Env) (method : MethodId) (resp : Response)
  | attached (session : SessionId)
  | initiated (tx : Sender)

namespace Target

/-- The isolated world that a poll starts to set up: the chain before is done, and the world of the main frame is not there. -/
def startedWorld (t : Target) (env : Env) : Option (String × CommandChain) :=
  match t.initState with
  | .initializingFrame cmds =>
    if t.sessionId.isSome ∧ cmds.waiting = none ∧ cmds.cmds = [] then
      t.frameManager.isolatedWorldName?.bind fun worldName =>
        (t.frameManager.ensureIsolatedWorld env.evaluationScriptUrl worldName).2.map
          (Prod.mk worldName)
    else none
  | _ => none

end Target

/-- A target, and what has become of its initialisation: the events it has handed out before it was initialised, the isolated worlds it has set up, and the command whose response is awaited, with the time it was handed out. -/
structure Initialisation where
  target : Target
  emitted : List TargetEvent
  worlds : List (String × CommandChain)
  awaited : Option (MethodId × Instant)

namespace Initialisation

def start (t : Target) : Initialisation := ⟨t, [], [], none⟩

/-- A request in a session is a command that awaits its response. -/
def awaits (now : Instant) : TargetEvent → Option (MethodId × Instant)
  | .request ⟨method, some _, _⟩ => some (method, now)
  | _ => none

/-- What a poll hands out before the target is initialised. -/
def handedOut (polled : Target.Polled) : Option TargetEvent :=
  if polled.target.initState.isInitialized then none else polled.event

def step (s : Initialisation) : InitInput → Initialisation
  | .polled driver env now =>
    let polled := Handler.pollTarget driver s.target env now
    { target := polled.target
      emitted := s.emitted ++ (handedOut polled).toList
      worlds := s.worlds ++ (s.target.startedWorld env).toList
      awaited := ((handedOut polled).bind (awaits now)).or s.awaited }
  | .response env method resp =>
    { s with
      target := (maybeStoreAttachSessionId env.decoders s.target method resp).onResponse env resp method
      awaited := if s.awaited.map Prod.fst = some method then none else s.awaited }
  | .attached session => { s with target := s.target.setSessionId session }
  | .initiated tx => { s with target := s.target.setInitiator tx }

/-- The wait for a response has exceeded the timeout. -/
def Overdue (config : TargetConfig) (s : Initialisation) (now : Instant) : Prop :=
  ∃ method since, s.awaited = some (method, since) ∧ since + config.requestTimeout < now

/-! ### The script -/

/-- The commands of the frames, and those of the isolated worlds. -/
def frameCommands (config : TargetConfig) (worlds : List (String × CommandChain)) :
    List (MethodId × Value) :=
  (FrameManager.initCommands config.requestTimeout).cmds ++
    worlds.flatMap fun world => world.2.cmds

def networkCommands (config : TargetConfig) : List (MethodId × Value) :=
  (Target.configuredNetworkManager config).initCommands.cmds

def pageCommands (config : TargetConfig) : List (MethodId × Value) :=
  (Target.pageInitCommands config.requestTimeout).cmds

def emulationCommands (config : TargetConfig) : List (MethodId × Value) :=
  match config.viewport with
  | some viewport => (emulationInitCommands viewport config.requestTimeout).cmds
  | none => []

/-- All commands of the chains. -/
def script (config : TargetConfig) (worlds : List (String × CommandChain)) : List (MethodId × Value) :=
  frameCommands config worlds ++ networkCommands config ++ pageCommands config ++
    emulationCommands config

/-- The commands of the chains that have been started in a state. -/
def scriptTo (config : TargetConfig) (worlds : List (String × CommandChain)) :
    TargetInit → List (MethodId × Value)
  | .attachToTarget => []
  | .initializingFrame _ => frameCommands config worlds
  | .initializingNetwork _ => frameCommands config worlds ++ networkCommands config
  | .initializingPage _ =>
    frameCommands config worlds ++ networkCommands config ++ pageCommands config
  | _ => script config worlds

theorem scriptTo_isPrefix (config : TargetConfig) (worlds : List (String × CommandChain))
    (init : TargetInit) : scriptTo config worlds init <+: script config worlds := by
  unfold script
  cases init with
  | attachToTarget => exact List.nil_prefix
  | initializingFrame cmds =>
    rw [List.append_assoc, List.append_assoc]
    exact List.prefix_append _ _
  | initializingNetwork cmds =>
    rw [List.append_assoc]
    exact List.prefix_append _ _
  | initializingPage cmds => exact List.prefix_append _ _
  | _ => exact List.prefix_rfl

/-- Where a target is in its script. The commands of the chain it is in are still to come, the others have been handed out. -/
structure Follows (info : TargetInfo) (config : TargetConfig) (t : Target)
    (commands : List (MethodId × Value)) (worlds : List (String × CommandChain))
    (awaited : Option (MethodId × Instant)) : Prop where
  infoKept : t.info = info
  configKept : t.config = config
  page : t.isPage = true
  network : t.networkManager = Target.configuredNetworkManager config
  frames : t.frameManager.requestTimeout = config.requestTimeout
  ongoing : t.initState.isClosing = false
  fresh : t.initState = .attachToTarget → worlds = []
  script : commands ++ (t.initState.chain?.map CommandChain.cmds).getD [] =
    scriptTo config worlds t.initState
  timeout : ∀ cmds, t.initState.chain? = some cmds → cmds.timeout = config.requestTimeout
  waiting : t.initState.chain?.bind CommandChain.waiting =
    awaited.map fun (method, since) => (method, since + config.requestTimeout)
  session : t.sessionId = none → awaited = none ∧ commands = [] ∧
    ∀ cmds, t.initState.chain? = some cmds → t.initState = .initializingFrame cmds
  names : (worlds.map Prod.fst).Nodup
  known : ∀ world ∈ worlds, world.1 ∈ t.frameManager.isolatedWorlds

/-- What a poll of an initialising target comes to. -/
inductive Outcome (info : TargetInfo) (config : TargetConfig) (now : Instant) (t : Target)
    (commands : List (MethodId × Value)) (worlds : List (String × CommandChain))
    (awaited : Option (MethodId × Instant)) : Target → Target.InitTurn → Prop where
  | attached {t' : Target} (hfirst : t.initState = .attachToTarget)
      (hleft : t'.initState ≠ .attachToTarget) (hnone : awaited = none)
      (hfollows : Follows info config t' commands worlds none) :
      Outcome info config now t commands worlds awaited t'
        (.emit (.request (Target.attachRequest info)))
  | commanded {t' : Target} {method : MethodId} {params : Value}
      (hstarted : t.initState ≠ .attachToTarget) (hnone : awaited = none)
      (hfollows : Follows info config t' (commands ++ [(method, params)]) worlds (some (method, now))) :
      Outcome info config now t commands worlds awaited t'
        (.emit (.request (t'.sessionRequest method params)))
  | failed {method : MethodId} {since : Instant} (hstarted : t.initState ≠ .attachToTarget)
      (hawaited : awaited = some (method, since))
      (hoverdue : since + config.requestTimeout < now)
      (hfollows : Follows info config t commands worlds awaited) :
      Outcome info config now t commands worlds awaited t.onInitializationFailed.1
        (.emit (.request (Target.closeRequest info t.sessionId)))
  | stopped {t' : Target} (hstarted : t.initState ≠ .attachToTarget)
      (hleft : t'.initState ≠ .attachToTarget) (hwithin : ∀ method since, awaited = some (method, since) →
      ¬ since + config.requestTimeout < now)
      (hfollows : Follows info config t' commands worlds awaited) :
      Outcome info config now t commands worlds awaited t' .stop
  | finished {t' : Target} (hstarted : t.initState ≠ .attachToTarget) (hnone : awaited = none) (hdone : t'.initState.isInitialized = true)
      (hscript : commands = Initialisation.script config worlds)
      (hnames : (worlds.map Prod.fst).Nodup) :
      Outcome info config now t commands worlds awaited t' .proceed

section Turns

variable {info : TargetInfo} {config : TargetConfig} {env : Env} {now : Instant} {t t' : Target}
  {turn : Target.InitTurn} {commands : List (MethodId × Value)} {worlds : List (String × CommandChain)}
  {awaited : Option (MethodId × Instant)} {cmds : CommandChain}

theorem Follows.chain (h : Follows info config t commands worlds awaited)
    (hchain : t.initState.chain? = some cmds) :
    commands ++ cmds.cmds = scriptTo config worlds t.initState ∧
      cmds.waiting = awaited.map fun (method, since) => (method, since + config.requestTimeout) := by
  have hscript := h.script
  have hwaiting := h.waiting
  rw [hchain] at hscript hwaiting
  exact ⟨hscript, hwaiting⟩

theorem Follows.isPrefix (h : Follows info config t commands worlds awaited) :
    commands <+: Initialisation.script config worlds :=
  (h.script ▸ List.prefix_append _ _ : commands <+: scriptTo config worlds t.initState).trans
    (scriptTo_isPrefix config worlds t.initState)

theorem Follows.awaited_eq_none (h : Follows info config t commands worlds awaited)
    (hchain : t.initState.chain? = some cmds) (hwaiting : cmds.waiting = none) : awaited = none := by
  rw [(h.chain hchain).2] at hwaiting
  exact Option.map_eq_none_iff.1 hwaiting

/-- A chain whose turn it is has a session. -/
theorem Follows.isSome_sessionId (h : Follows info config t commands worlds awaited)
    (hchain : t.initState.chain? = some cmds) (hsession : t.inSession = true) :
    t.sessionId.isSome = true := by
  by_contra hnone
  obtain ⟨_, _, hframe⟩ := h.session (by simpa using hnone)
  simp only [Target.inSession, hframe cmds hchain] at hsession
  exact hnone hsession

theorem startedWorld_eq_none (hchain : t.initState.chain? = some cmds)
    (hbusy : cmds.waiting ≠ none ∨ cmds.cmds ≠ []) : t.startedWorld env = none := by
  unfold Target.startedWorld
  split
  · rename_i hstate
    rw [hstate] at hchain
    cases hchain
    rw [if_neg fun ⟨_, hwaiting, hcmds⟩ => hbusy.elim (· hwaiting) (· hcmds)]
  · rfl

/-- A target is attached before its first chain starts. -/
theorem Follows.attach (h : Follows info config t commands worlds awaited)
    (hstate : t.initState = .attachToTarget) :
    commands = [] ∧ awaited = none ∧ Follows info config
      { t with initState := .initializingFrame (FrameManager.initCommands t.config.requestTimeout) }
      commands worlds none := by
  have hscript := h.script
  have hwaiting := h.waiting
  have hfresh := h.fresh hstate
  subst hfresh
  rw [hstate] at hscript hwaiting
  have hnone : awaited = none := Option.map_eq_none_iff.1 hwaiting.symm
  have hempty : commands = [] := (List.append_eq_nil_iff.1 hscript).1
  subst hempty
  refine ⟨rfl, hnone, ?_⟩
  exact {
    infoKept := h.infoKept
    configKept := h.configKept
    page := h.page
    network := h.network
    frames := h.frames
    ongoing := rfl
    fresh := nofun
    script := by
      rw [h.configKept]
      simp [TargetInit.chain?, scriptTo, frameCommands]
    timeout := by
      intro cmds hcmds
      cases hcmds
      rw [h.configKept]
      rfl
    waiting := rfl
    session := fun _ => ⟨rfl, rfl, fun cmds hcmds => by cases hcmds; rfl⟩
    names := h.names
    known := h.known }

theorem scriptTo_withChain (config : TargetConfig) (worlds : List (String × CommandChain)) (t : Target)
    (polled : CommandChain) :
    scriptTo config worlds (t.withChain polled).initState = scriptTo config worlds t.initState := by
  unfold Target.withChain
  cases t.initState <;> rfl

theorem isClosing_of_chain (hchain : t.initState.chain? = some cmds) :
    t.initState.isClosing = false := by
  cases hstate : t.initState with
  | closing =>
    rw [hstate] at hchain
    cases hchain
  | _ => rfl

theorem ne_attach_of_chain (hchain : t.initState.chain? = some cmds) :
    t.initState ≠ .attachToTarget := by
  intro hstate
  rw [hstate] at hchain
  cases hchain

/-- A command is handed out, and its response is awaited. -/
theorem Follows.command {method : MethodId} {params : Value} {rest : List (MethodId × Value)}
    (h : Follows info config t commands worlds awaited)
    (hchain : t.initState.chain? = some cmds) (hcmds : cmds.cmds = (method, params) :: rest)
    (hsession : t.inSession = true) :
    Follows info config
      (t.withChain { cmds with cmds := rest, waiting := some (method, now + cmds.timeout) })
      (commands ++ [(method, params)]) worlds (some (method, now)) := by
  have htimeout := h.timeout cmds hchain
  have hscript := (h.chain hchain).1
  have hsome := h.isSome_sessionId hchain hsession
  have hnext := Target.chain?_withChain hchain
    { cmds with cmds := rest, waiting := some (method, now + cmds.timeout) }
  exact {
    infoKept := h.infoKept
    configKept := h.configKept
    page := h.page
    network := h.network
    frames := h.frames
    ongoing := isClosing_of_chain hnext
    fresh := fun hstate => absurd hstate (ne_attach_of_chain hnext)
    script := by
      rw [scriptTo_withChain, ← hscript, hcmds, hnext]
      simp
    timeout := by
      intro polled hpolled
      rw [hnext] at hpolled
      cases hpolled
      exact htimeout
    waiting := by
      rw [hnext]
      simp [htimeout]
    session := fun hnone => absurd hnone (Option.isSome_iff_ne_none.1 hsome)
    names := h.names
    known := h.known }

/-- No setting changes the timeout that a network manager is made with. -/
theorem requestTimeout_configured (config : TargetConfig) :
    (Target.configuredNetworkManager config).requestTimeout = config.requestTimeout := by
  unfold Target.configuredNetworkManager
  extract_lets made cached bypassed intercepted limited headed whitelisted blacklisted ignoring governed
  have hcached : cached.requestTimeout = config.requestTimeout := by
    unfold cached NetworkManager.setCacheEnabled
    split
    · dsimp only
      split
      · rfl
      · rfl
    · rfl
  have hbypassed : bypassed.requestTimeout = config.requestTimeout := by
    unfold bypassed
    split
    · exact hcached
    · exact hcached
  have hintercepted : intercepted.requestTimeout = config.requestTimeout := by
    unfold intercepted NetworkManager.setRequestInterception
      NetworkManager.updateProtocolRequestInterception
    dsimp only
    split
    · exact hbypassed
    · split
      · exact hbypassed
      · exact hbypassed
  have hheaded : headed.requestTimeout = config.requestTimeout := by
    unfold headed NetworkManager.setExtraHeaders
    split
    · dsimp only
      split
      · exact hintercepted
      · exact hintercepted
    · exact hintercepted
  have hwhitelisted : whitelisted.requestTimeout = config.requestTimeout := by
    unfold whitelisted
    split
    · exact hheaded
    · exact hheaded
  have hblacklisted : blacklisted.requestTimeout = config.requestTimeout := by
    unfold blacklisted
    split
    · exact hwhitelisted
    · exact hwhitelisted
  have hgoverned : governed.requestTimeout = config.requestTimeout := by
    unfold governed NetworkManager.emitRequestPolicy
    split
    · exact hblacklisted
    · exact hblacklisted
  split
  · exact hgoverned
  · exact hgoverned

theorem ensureIsolatedWorld_known {fm : FrameManager} {worldName : String}
    (hknown : worldName ∈ fm.isolatedWorlds) (url : String) :
    fm.ensureIsolatedWorld url worldName = (fm, none) := if_pos hknown

theorem ensureIsolatedWorld_new {fm : FrameManager} {worldName : String}
    (hnew : worldName ∉ fm.isolatedWorlds) (url : String) :
    ∃ cmds, fm.ensureIsolatedWorld url worldName =
      ({ fm with isolatedWorlds := insert worldName fm.isolatedWorlds },
        some (.new cmds fm.requestTimeout)) :=
  ⟨_, if_neg hnew⟩

/-- A chain that has not started yet takes the place of one that is done. -/
theorem Follows.nextState (h : Follows info config t commands worlds none) {next : TargetInit}
    (hsession : t.sessionId.isSome = true)
    (hongoing : next.isClosing = false) (hfresh : next ≠ .attachToTarget)
    (hscript : commands ++ (next.chain?.map CommandChain.cmds).getD [] = scriptTo config worlds next)
    (hchain : ∀ cmds, next.chain? = some cmds →
      cmds.timeout = config.requestTimeout ∧ cmds.waiting = none) :
    Follows info config { t with initState := next } commands worlds none where
  infoKept := h.infoKept
  configKept := h.configKept
  page := h.page
  network := h.network
  frames := h.frames
  ongoing := hongoing
  fresh := fun hstate => absurd hstate hfresh
  script := hscript
  timeout := fun cmds hcmds => (hchain cmds hcmds).1
  waiting := by
    cases hcmds : next.chain? with
    | none => rfl
    | some cmds => exact (hchain cmds hcmds).2
  session := fun hnone => absurd hnone (Option.isSome_iff_ne_none.1 hsession)
  names := h.names
  known := h.known

/-- The chain of frames makes way for an isolated world that is not there yet, or for the network. -/
theorem Follows.afterFrameChain (h : Follows info config t commands worlds none)
    (hstate : t.initState = .initializingFrame cmds) (hsession : t.sessionId.isSome = true)
    (hwaiting : cmds.waiting = none) (hcmds : cmds.cmds = []) :
    Follows info config (t.afterFrameChain env) commands
      (worlds ++ (t.startedWorld env).toList) none := by
  have hscript : commands = frameCommands config worlds := by
    have hchained := (h.chain (show t.initState.chain? = some cmds by rw [hstate]; rfl)).1
    rwa [hcmds, List.append_nil, hstate] at hchained
  have hnetwork : Follows info config
      { t with initState := .initializingNetwork t.networkManager.initCommands } commands worlds none :=
    h.nextState hsession rfl nofun (by rw [hscript, h.network]; rfl) fun cmds hcmds => by
      cases hcmds
      rw [h.network]
      exact ⟨requestTimeout_configured config, rfl⟩
  have hstarted : t.startedWorld env = t.frameManager.isolatedWorldName?.bind fun worldName =>
      (t.frameManager.ensureIsolatedWorld env.evaluationScriptUrl worldName).2.map
        (Prod.mk worldName) := by
    simp only [Target.startedWorld, hstate, hsession, hwaiting, hcmds, and_self, if_true]
  rw [hstarted, Target.afterFrameChain]
  cases t.frameManager.isolatedWorldName? with
  | none => simpa using hnetwork
  | some worldName =>
    by_cases hknown : worldName ∈ t.frameManager.isolatedWorlds
    · simp only [Option.bind_some, ensureIsolatedWorld_known hknown]
      simpa using hnetwork
    · obtain ⟨worldCmds, hworld⟩ := ensureIsolatedWorld_new hknown env.evaluationScriptUrl
      simp only [Option.bind_some, hworld]
      exact {
        infoKept := h.infoKept
        configKept := h.configKept
        page := h.page
        network := h.network
        frames := h.frames
        ongoing := rfl
        fresh := nofun
        script := by simp [hscript, scriptTo, frameCommands, TargetInit.chain?]
        timeout := by
          intro cmds hcmds
          cases hcmds
          exact h.frames
        waiting := rfl
        session := fun hnone => absurd hnone (Option.isSome_iff_ne_none.1 hsession)
        names := by
          have hfresh : worldName ∉ worlds.map Prod.fst := by
            intro hmem
            obtain ⟨world, hbefore, rfl⟩ := List.mem_map.1 hmem
            exact hknown (h.known world hbefore)
          simpa [List.nodup_append] using ⟨h.names, fun other _ hmem heq =>
            hfresh (heq ▸ List.mem_map_of_mem hmem)⟩
        known := by
          intro world hmem
          rcases List.mem_append.1 hmem with hmem | hmem
          · exact Finset.mem_insert_of_mem (h.known world hmem)
          · obtain rfl := List.mem_singleton.1 hmem
            exact Finset.mem_insert_self _ _ }

/-- A chain that is done makes way for the next one, and after the last the target is initialised. -/
theorem Follows.afterChain (h : Follows info config t commands worlds none) (env : Env)
    (hchain : t.initState.chain? = some cmds) (hsession : t.inSession = true)
    (hwaiting : cmds.waiting = none) (hcmds : cmds.cmds = []) :
    Follows info config (t.afterChain env) commands (worlds ++ (t.startedWorld env).toList) none := by
  have hscript : commands = scriptTo config worlds t.initState := by
    have hchained := (h.chain hchain).1
    rwa [hcmds, List.append_nil] at hchained
  have hsome := h.isSome_sessionId hchain hsession
  cases hstate : t.initState with
  | initializingFrame _ =>
    rw [hstate] at hchain
    cases hchain
    have hafter : t.afterChain env = t.afterFrameChain env := by simp only [Target.afterChain, hstate]
    rw [hafter]
    exact h.afterFrameChain hstate hsome hwaiting hcmds
  | initializingNetwork _ =>
    rw [hstate] at hscript
    have hnone : t.startedWorld env = none := by simp only [Target.startedWorld, hstate]
    have hnext : Follows info config
        { t with initState := .initializingPage (Target.pageInitCommands t.config.requestTimeout) }
        commands worlds none :=
      h.nextState hsome rfl (by simp) (by rw [hscript, h.configKept]; rfl) fun cmds hcmds => by
        cases hcmds
        rw [h.configKept]
        exact ⟨rfl, rfl⟩
    simpa [Target.afterChain, hstate, hnone] using hnext
  | initializingPage _ =>
    rw [hstate] at hscript
    have hnone : t.startedWorld env = none := by simp only [Target.startedWorld, hstate]
    cases hviewport : t.config.viewport with
    | none =>
      have hnext : Follows info config { t with initState := .initialized } commands worlds none :=
        h.nextState hsome rfl (by simp)
          (by simp [hscript, scriptTo, Initialisation.script, emulationCommands, ← h.configKept, hviewport,
            TargetInit.chain?]) fun _ hcmds => by cases hcmds
      simpa [Target.afterChain, hstate, hnone, hviewport] using hnext
    | some viewport =>
      have hnext : Follows info config
          { t with
            initState :=
              .initializingEmulation (emulationInitCommands viewport t.config.requestTimeout) }
          commands worlds none :=
        h.nextState hsome rfl (by simp)
          (by simp [hscript, scriptTo, Initialisation.script, emulationCommands, ← h.configKept, hviewport,
            TargetInit.chain?])
          fun cmds hcmds => by
            cases hcmds
            rw [h.configKept]
            exact ⟨rfl, rfl⟩
      simpa [Target.afterChain, hstate, hnone, hviewport] using hnext
  | initializingEmulation _ =>
    rw [hstate] at hscript
    have hnone : t.startedWorld env = none := by simp only [Target.startedWorld, hstate]
    have hnext : Follows info config { t with initState := .initialized } commands worlds none :=
      h.nextState hsome rfl (by simp) ((List.append_nil commands).trans hscript) fun _ hcmds => by cases hcmds
    simpa [Target.afterChain, hstate, hnone] using hnext
  | _ =>
    rw [hstate] at hchain
    cases hchain

/-- The next chain is no isolated world that is to be set up again. -/
theorem startedWorld_afterChain (env : Env) (hchain : t.initState.chain? = some cmds) :
    (t.afterChain env).startedWorld env = none ∧ (t.afterChain env).initState ≠ .attachToTarget := by
  unfold Target.afterChain
  cases hstate : t.initState with
  | initializingFrame _ =>
    simp only [Target.afterFrameChain]
    cases t.frameManager.isolatedWorldName? with
    | none => exact ⟨rfl, (by simp)⟩
    | some worldName =>
      by_cases hknown : worldName ∈ t.frameManager.isolatedWorlds
      · simp only [ensureIsolatedWorld_known hknown]
        exact ⟨rfl, (by simp)⟩
      · simp [FrameManager.ensureIsolatedWorld, hknown, Target.startedWorld, CommandChain.new]
  | initializingPage _ =>
    cases hviewport : t.config.viewport with
    | none => simp [Target.startedWorld]
    | some viewport => simp [Target.startedWorld]
  | attachToTarget | initialized | closing =>
    rw [hstate] at hchain
    cases hchain
  | _ => exact ⟨rfl, (by simp)⟩

theorem Follows.outcome (h : Follows info config t commands worlds awaited)
    (hturns : Target.InitTurns env now t t' turn) :
    Outcome info config now t commands (worlds ++ (t.startedWorld env).toList) awaited t' turn := by
  induction hturns generalizing worlds awaited with
  | @attach t hstate =>
    obtain ⟨hempty, hnone, hfollows⟩ := h.attach hstate
    have hstarted : t.startedWorld env = none := by simp only [Target.startedWorld, hstate]
    subst hempty
    have hevent : Target.attachRequest t.info = Target.attachRequest info := by rw [h.infoKept]
    rw [hstarted, Option.toList_none, List.append_nil, hevent]
    exact .attached hstate nofun hnone hfollows
  | @unattached t _ hstate hsession =>
    have hstarted : t.startedWorld env = none := by simp [Target.startedWorld, hstate, hsession]
    obtain ⟨hnone, _⟩ := h.session hsession
    subst hnone
    have hleft : t.initState ≠ .attachToTarget := by
      rw [hstate]
      nofun
    rw [hstarted, Option.toList_none, List.append_nil]
    exact .stopped hleft hleft nofun h
  | pending hchain hsession hwaiting hdeadline =>
    have hbusy := hwaiting.trans_ne (Option.some_ne_none _)
    rw [startedWorld_eq_none hchain (.inl hbusy), Option.toList_none, List.append_nil]
    have hleft := ne_attach_of_chain hchain
    refine .stopped hleft hleft (fun method since hawaited => ?_) h
    rw [(h.chain hchain).2, hawaited] at hwaiting
    cases hwaiting
    exact hdeadline
  | @expired t _ _ _ hchain hsession hwaiting hdeadline =>
    have hbusy := hwaiting.trans_ne (Option.some_ne_none _)
    rw [startedWorld_eq_none hchain (.inl hbusy), Option.toList_none, List.append_nil]
    rw [(h.chain hchain).2] at hwaiting
    obtain ⟨⟨method, since⟩, hawaited, heq⟩ := Option.map_eq_some_iff.1 hwaiting
    cases heq
    have hevent : t.onInitializationFailed.2 = .request (Target.closeRequest info t.sessionId) := by
      rw [← h.infoKept]
      unfold Target.onInitializationFailed
      split
      · rfl
      · rfl
    rw [hevent]
    exact .failed (ne_attach_of_chain hchain) hawaited hdeadline h
  | @command t _ _ _ _ hchain hsession hwaiting hcmds =>
    have hbusy := hcmds.trans_ne (List.cons_ne_nil _ _)
    rw [startedWorld_eq_none hchain (.inr hbusy), Option.toList_none, List.append_nil]
    have hnone := h.awaited_eq_none hchain hwaiting
    exact .commanded (ne_attach_of_chain hchain) hnone (h.command hchain hcmds hsession)
  | passes hchain hsession hwaiting hcmds hrest ih =>
    obtain rfl := h.awaited_eq_none hchain hwaiting
    have hnext := h.afterChain env hchain hsession hwaiting hcmds
    obtain ⟨hnone, hattached⟩ := startedWorld_afterChain env hchain
    have houtcome := ih hnext
    rw [hnone, Option.toList_none, List.append_nil] at houtcome
    cases houtcome with
    | attached hfirst => exact absurd hfirst hattached
    | commanded _ hnone hfollows => exact .commanded (ne_attach_of_chain hchain) hnone hfollows
    | failed _ hawaited => cases hawaited
    | stopped _ hleft hwithin hfollows =>
      exact .stopped (ne_attach_of_chain hchain) hleft hwithin hfollows
    | finished _ hnone hdone hscript hnames =>
      exact .finished (ne_attach_of_chain hchain) hnone hdone hscript hnames
  | @ready t hstate =>
    have hscript := h.script
    have hwaiting := h.waiting
    have hstarted : t.startedWorld env = none := by simp only [Target.startedWorld, hstate]
    rw [hstate] at hscript hwaiting
    rw [hstarted, Option.toList_none, List.append_nil]
    have hleft : t.initState ≠ .attachToTarget := by
      rw [hstate]
      nofun
    refine .finished hleft (Option.map_eq_none_iff.1 hwaiting.symm) ?_ ?_ h.names
    · rw [Target.initState_serveInitiator, hstate]
      rfl
    · exact (List.append_nil commands).symm.trans hscript
  | closing hstate =>
    have := h.ongoing
    rw [hstate] at this
    cases this

end Turns

/-! ### Responses and sessions -/

/-- A frame tree leaves the timeout and the isolated worlds alone. -/
theorem onFrameTree_settings (worldName : FrameId → String) (tree : FrameTree) (fm : FrameManager) :
    ((FrameManager.onFrameTree worldName tree fm).requestTimeout,
      (FrameManager.onFrameTree worldName tree fm).isolatedWorlds) =
      (fm.requestTimeout, fm.isolatedWorlds) := by
  rw [FrameManager.onFrameTree_eq]
  have hattached : ∀ (fm : FrameManager) (id : FrameId) parent,
      ((fm.onFrameAttached id parent).requestTimeout, (fm.onFrameAttached id parent).isolatedWorlds) =
        (fm.requestTimeout, fm.isolatedWorlds) := by
    intro fm id parent
    unfold FrameManager.onFrameAttached
    split
    · rfl
    · split
      · split
        · rfl
        · rfl
      · rfl
  have hnode : ∀ (fm : FrameManager) frame,
      ((fm.onFrameNode worldName frame).requestTimeout, (fm.onFrameNode worldName frame).isolatedWorlds) =
        (fm.requestTimeout, fm.isolatedWorlds) := by
    intro fm frame
    rw [← hattached fm frame.id frame.parentId, FrameManager.onFrameNode]
    unfold FrameManager.onFrameNavigated
    split
    · unfold FrameManager.onChildNavigated
      split
      · rfl
      · rfl
    · rw [FrameManager.onMainNavigated_eq]
  exact @Run.foldl_unchanged _ _ _ _ (fun fm : FrameManager => (fm.requestTimeout, fm.isolatedWorlds))
    hnode fm tree.nodes

section Responses

variable {info : TargetInfo} {config : TargetConfig} {t : Target}
  {commands : List (MethodId × Value)} {worlds : List (String × CommandChain)}
  {awaited : Option (MethodId × Instant)}

theorem Follows.setSessionId (h : Follows info config t commands worlds awaited)
    (session : SessionId) : Follows info config (t.setSessionId session) commands worlds awaited where
  infoKept := h.infoKept
  configKept := h.configKept
  page := h.page
  network := h.network
  frames := h.frames
  ongoing := h.ongoing
  fresh := h.fresh
  script := h.script
  timeout := h.timeout
  waiting := h.waiting
  session := nofun
  names := h.names
  known := h.known

theorem Follows.setInitiator (h : Follows info config t commands worlds awaited) (tx : Sender) :
    Follows info config (t.setInitiator tx) commands worlds awaited where
  infoKept := h.infoKept
  configKept := h.configKept
  page := h.page
  network := h.network
  frames := h.frames
  ongoing := h.ongoing
  fresh := h.fresh
  script := h.script
  timeout := h.timeout
  waiting := h.waiting
  session := h.session
  names := h.names
  known := h.known

theorem chain?_mapCommands (f : CommandChain → CommandChain) (init : TargetInit) :
    (init.mapCommands f).chain? = init.chain?.map f := by
  cases init <;> rfl

theorem scriptTo_mapCommands (f : CommandChain → CommandChain) (init : TargetInit) :
    scriptTo config worlds (init.mapCommands f) = scriptTo config worlds init := by
  cases init <;> rfl

/-- The chain hears of a response to the command it waits for. -/
theorem Follows.receivedResponse (h : Follows info config t commands worlds awaited)
    (method : MethodId) :
    Follows info config
      { t with initState := t.initState.mapCommands fun cmds => cmds.receivedResponse method }
      commands worlds (if awaited.map Prod.fst = some method then none else awaited) := by
  have hcmds : ∀ cmds : CommandChain, (cmds.receivedResponse method).cmds = cmds.cmds ∧
      (cmds.receivedResponse method).timeout = cmds.timeout := by
    intro cmds
    unfold CommandChain.receivedResponse
    split
    · exact ⟨rfl, rfl⟩
    · exact ⟨rfl, rfl⟩
  exact {
    infoKept := h.infoKept
    configKept := h.configKept
    page := h.page
    network := h.network
    frames := h.frames
    ongoing := by
      rw [← h.ongoing]
      cases t.initState <;> rfl
    fresh := by
      intro hstate
      refine h.fresh ?_
      cases hinit : t.initState <;> simp [hinit, TargetInit.mapCommands] at hstate ⊢
    script := by
      rw [scriptTo_mapCommands, ← h.script, chain?_mapCommands, Option.map_map]
      congr 2
      exact congrArg (Option.map · t.initState.chain?) (funext fun cmds => (hcmds cmds).1)
    timeout := by
      intro polled hpolled
      rw [chain?_mapCommands] at hpolled
      obtain ⟨cmds, hchain, rfl⟩ := Option.map_eq_some_iff.1 hpolled
      exact (hcmds cmds).2.trans (h.timeout cmds hchain)
    waiting := by
      have hwaiting := h.waiting
      rw [chain?_mapCommands]
      cases hchain : t.initState.chain? with
      | none =>
        rw [hchain] at hwaiting
        obtain rfl := Option.map_eq_none_iff.1 hwaiting.symm
        rfl
      | some cmds =>
        rw [hchain, Option.bind_some] at hwaiting
        have hsame : cmds.waiting.map Prod.fst = awaited.map Prod.fst := by
          rw [hwaiting, Option.map_map]
          rfl
        rw [Option.map_some, Option.bind_some, CommandChain.receivedResponse, hsame]
        split
        · rfl
        · exact hwaiting
    session := by
      intro hnone
      obtain ⟨rfl, hempty, hframe⟩ := h.session hnone
      refine ⟨rfl, hempty, fun polled hpolled => ?_⟩
      rw [chain?_mapCommands] at hpolled
      obtain ⟨cmds, hchain, rfl⟩ := Option.map_eq_some_iff.1 hpolled
      rw [hframe cmds hchain]
      rfl
    names := h.names
    known := h.known }

/-- A frame tree that a target takes in leaves its script alone. -/
theorem Follows.frameTree (h : Follows info config t commands worlds awaited)
    (worldName : FrameId → String) (tree : FrameTree) :
    Follows info config
      { t with frameManager := FrameManager.onFrameTree worldName tree t.frameManager }
      commands worlds awaited := by
  obtain ⟨htimeout, hworlds⟩ := Prod.mk.inj (onFrameTree_settings worldName tree t.frameManager)
  exact {
    infoKept := h.infoKept
    configKept := h.configKept
    page := h.page
    network := h.network
    frames := htimeout.trans h.frames
    ongoing := h.ongoing
    fresh := h.fresh
    script := h.script
    timeout := h.timeout
    waiting := h.waiting
    session := h.session
    names := h.names
    known := fun world hworld => by
      rw [hworlds]
      exact h.known world hworld }

theorem Follows.response (h : Follows info config t commands worlds awaited) (env : Env)
    (method : MethodId) (resp : Response) :
    Follows info config ((maybeStoreAttachSessionId env.decoders t method resp).onResponse env resp method)
      commands worlds (if awaited.map Prod.fst = some method then none else awaited) := by
  have hstored : Follows info config (maybeStoreAttachSessionId env.decoders t method resp)
      commands worlds awaited := by
    unfold maybeStoreAttachSessionId
    split
    · exact h
    · split
      · exact h.setSessionId _
      · exact h
  have hreceived := hstored.receivedResponse method
  unfold Target.onResponse
  dsimp only
  split
  · split
    · exact hreceived.frameTree env.worldName _
    · exact hreceived
  · exact hreceived

end Responses

/-! ### Runs -/

def isClose : TargetEvent → Bool
  | .request req => req.method = "Target.closeTarget"
  | _ => false

/-- A target that has left its first state has asked to be attached. -/
def opening (info : TargetInfo) : TargetInit → List TargetEvent
  | .attachToTarget => []
  | _ => [.request (Target.attachRequest info)]

def commandsOf (requests : List Request) : List (MethodId × Value) :=
  requests.map fun req => (req.method, req.params)

/-- What a target has handed out before it was initialised: its attachment, commands in its session in the order of the script, and at last the request to close the page if it gave up. -/
structure Ordered (info : TargetInfo) (config : TargetConfig) (s : Initialisation) : Prop where
  events : ∃ (commands : List Request) (session : Option SessionId),
    s.emitted = opening info s.target.initState ++ commands.map .request ++
      (if s.target.initState.isClosing then [.request (Target.closeRequest info session)] else []) ∧
    (∀ req ∈ commands, req.sessionId.isSome = true) ∧
    commandsOf commands <+: script config s.worlds ∧
    (s.target.initState.isInitialized = true → commandsOf commands = script config s.worlds)
  worlds : (s.worlds.map Prod.fst).Nodup
  closes : s.emitted.countP isClose = if s.target.initState.isClosing then 1 else 0

/-- What a poll may do in view of the command that is awaited. -/
structure Awaits (info : TargetInfo) (config : TargetConfig) (s : Initialisation)
    (polled : Target.Polled) (now : Instant) : Prop where
  answered : ∀ req, handedOut polled = some (.request req) → req.sessionId.isSome = true →
    polled.target.initState.isClosing = false → s.awaited = none
  overdue : s.target.initState.isInitialized = false → s.target.initState.isClosing = false →
    (Overdue config s now ↔ polled.target.initState.isClosing = true)
  givesUp : s.target.initState.isClosing = false → polled.target.initState.isClosing = true →
    polled.event = some (.request (Target.closeRequest info s.target.sessionId)) ∧
    polled.target.initiator = none ∧
    polled.target.replies = s.target.replies ++
      (s.target.initiator.map fun tx => (tx, Reply.page (.error .timeout))).toList
  closed : s.target.initState.isClosing = true → polled = ⟨s.target, none, false⟩

/-- The same for any input. -/
def InOrder (info : TargetInfo) (config : TargetConfig) (s : Initialisation) : InitInput → Prop
  | .polled driver env now => Awaits info config s (Handler.pollTarget driver s.target env now) now
  | _ => True

/-- Where a run is in its initialisation. -/
inductive Recorded (info : TargetInfo) (config : TargetConfig) (s : Initialisation) : Prop where
  | ongoing (commands : List Request) (hsessions : ∀ req ∈ commands, req.sessionId.isSome = true)
      (hinit : s.target.initState.isInitialized = false)
      (hemitted : s.emitted = opening info s.target.initState ++ commands.map .request)
      (hfollows : Follows info config s.target (commandsOf commands) s.worlds s.awaited)
  | initialized (commands : List Request) (hsessions : ∀ req ∈ commands, req.sessionId.isSome = true)
      (hinit : s.target.initState.isInitialized = true)
      (hemitted : s.emitted = .request (Target.attachRequest info) :: commands.map .request)
      (hscript : commandsOf commands = script config s.worlds)
      (hnames : (s.worlds.map Prod.fst).Nodup)
  | closing (commands : List Request) (session : Option SessionId)
      (hsessions : ∀ req ∈ commands, req.sessionId.isSome = true)
      (hinit : s.target.initState.isClosing = true)
      (hemitted : s.emitted = .request (Target.attachRequest info) :: commands.map .request ++
        [.request (Target.closeRequest info session)])
      (hscript : commandsOf commands <+: script config s.worlds)
      (hnames : (s.worlds.map Prod.fst).Nodup)

section Runs

variable {info : TargetInfo} {config : TargetConfig} {s : Initialisation}

theorem opening_of_ne {init : TargetInit} (h : init ≠ .attachToTarget) :
    opening info init = [.request (Target.attachRequest info)] := by
  cases init with
  | attachToTarget => exact absurd rfl h
  | _ => rfl

theorem step_emit {driver : Driver} {env : Env} {now : Instant} {t' : Target} {event : TargetEvent}
    (hpolled : Handler.pollTarget driver s.target env now = ⟨t', some event, false⟩)
    (hinit : t'.initState.isInitialized = false) :
    s.step (.polled driver env now) =
      ⟨t', s.emitted ++ [event], s.worlds ++ (s.target.startedWorld env).toList,
        (awaits now event).or s.awaited⟩ := by
  simp [step, hpolled, handedOut, hinit]

theorem step_stop {driver : Driver} {env : Env} {now : Instant} {t' : Target}
    (hpolled : Handler.pollTarget driver s.target env now = ⟨t', none, false⟩) :
    s.step (.polled driver env now) =
      ⟨t', s.emitted, s.worlds ++ (s.target.startedWorld env).toList, s.awaited⟩ := by
  simp [step, hpolled, handedOut]

theorem step_initialized {driver : Driver} {env : Env} {now : Instant}
    (hinit : (Handler.pollTarget driver s.target env now).target.initState.isInitialized = true) :
    s.step (.polled driver env now) =
      ⟨(Handler.pollTarget driver s.target env now).target, s.emitted,
        s.worlds ++ (s.target.startedWorld env).toList, s.awaited⟩ := by
  simp [step, handedOut, hinit]

/-- What a target that initialises itself has handed out is what it should, whatever a poll comes to. -/
theorem recorded_polled {commands : List Request} (driver : Driver) (env : Env) (now : Instant)
    (hsessions : ∀ req ∈ commands, req.sessionId.isSome = true)
    (hemitted : s.emitted = opening info s.target.initState ++ commands.map .request)
    (hfollows : Follows info config s.target (commandsOf commands) s.worlds s.awaited) :
    Recorded info config (s.step (.polled driver env now)) := by
  obtain ⟨t', turn, hturns, hpolled⟩ := Target.poll_turns hfollows.page driver env now
  have hproceed := hturns.proceed_iff
  have houtcome := hfollows.outcome hturns
  cases houtcome with
  | attached hfirst hleft hnone hnext =>
    have hinit : t'.initState.isInitialized = false := by simpa using hproceed
    have hcommands : commands = [] := List.map_eq_nil_iff.1 (hfollows.attach hfirst).1
    subst hcommands
    rw [step_emit hpolled hinit]
    refine .ongoing [] nofun hinit ?_ ?_
    · rw [hemitted, hfirst, opening_of_ne hleft]
      rfl
    · rw [hnone]
      exact hnext
  | @commanded _ method params hstarted hnone hnext =>
    have hinit : t'.initState.isInitialized = false := by simpa using hproceed
    have hsome : t'.sessionId.isSome = true := by
      by_contra hsession
      have hwaits := (hnext.session (by simpa using hsession)).1
      cases hwaits
    have hleft : t'.initState ≠ .attachToTarget := by
      intro hstate
      cases (hnext.attach hstate).2.1
    rw [step_emit hpolled hinit]
    refine .ongoing (commands ++ [t'.sessionRequest method params]) ?_ hinit ?_ ?_
    · intro req hreq
      rcases List.mem_append.1 hreq with hreq | hreq
      · exact hsessions req hreq
      · obtain rfl := List.mem_singleton.1 hreq
        simpa [Target.sessionRequest] using hsome
    · simp [hemitted, opening_of_ne hstarted, opening_of_ne hleft]
    · obtain ⟨session, hsession⟩ := Option.isSome_iff_exists.1 hsome
      have hwaits : (awaits now (.request (t'.sessionRequest method params))).or s.awaited =
          some (method, now) := by
        simp [awaits, Target.sessionRequest, hsession]
      have hcommands : commandsOf (commands ++ [t'.sessionRequest method params]) =
          commandsOf commands ++ [(method, params)] := by
        simp [commandsOf, Target.sessionRequest]
      rw [hwaits, hcommands]
      exact hnext
  | failed hstarted hawaited hoverdue hbefore =>
    rw [step_emit hpolled rfl]
    refine .closing commands s.target.sessionId hsessions rfl ?_ hbefore.isPrefix hbefore.names
    simp [hemitted, opening_of_ne hstarted]
  | stopped hstarted hleft hwithin hnext =>
    have hinit : t'.initState.isInitialized = false := by simpa using hproceed
    rw [step_stop hpolled]
    refine .ongoing commands hsessions hinit ?_ hnext
    rw [hemitted, opening_of_ne hstarted, opening_of_ne hleft]
  | finished hstarted hnone hdone hscript hnames =>
    have hinit : (Handler.pollTarget driver s.target env now).target.initState.isInitialized = true := by
      rw [hpolled, hdone]
    rw [step_initialized hinit]
    refine .initialized commands hsessions hinit ?_ hscript hnames
    rw [hemitted, opening_of_ne hstarted]
    rfl

/-- What a poll does agrees with the command that is awaited. -/
theorem awaits_polled {commands : List (MethodId × Value)} (driver : Driver) (env : Env) (now : Instant)
    (hfollows : Follows info config s.target commands s.worlds s.awaited) :
    Awaits info config s (Handler.pollTarget driver s.target env now) now := by
  obtain ⟨t', turn, hturns, hpolled⟩ := Target.poll_turns hfollows.page driver env now
  have hproceed := hturns.proceed_iff
  have hongoing := hfollows.ongoing
  have hwithin : s.awaited = none → ¬ Overdue config s now := by
    rintro hnone ⟨method, since, hawaited, _⟩
    rw [hnone] at hawaited
    cases hawaited
  have houtcome := hfollows.outcome hturns
  cases houtcome with
  | attached hfirst hleft hnone hnext =>
    rw [hpolled]
    exact {
      answered := fun _ _ _ _ => hnone
      overdue := fun _ _ => iff_of_false (hwithin hnone) (by simp [hnext.ongoing])
      givesUp := fun _ hclosing => absurd hclosing (by simp [hnext.ongoing])
      closed := fun hclosing => absurd hclosing (by simp [hongoing]) }
  | commanded hstarted hnone hnext =>
    rw [hpolled]
    exact {
      answered := fun _ _ _ _ => hnone
      overdue := fun _ _ => iff_of_false (hwithin hnone) (by simp [hnext.ongoing])
      givesUp := fun _ hclosing => absurd hclosing (by simp [hnext.ongoing])
      closed := fun hclosing => absurd hclosing (by simp [hongoing]) }
  | failed hstarted hawaited hoverdue hbefore =>
    rw [hpolled]
    have hgone : s.target.onInitializationFailed.1.initiator = none ∧
        s.target.onInitializationFailed.1.replies = s.target.replies ++
          (s.target.initiator.map fun tx => (tx, Reply.page (.error .timeout))).toList := by
      unfold Target.onInitializationFailed
      cases hinitiator : s.target.initiator with
      | none => exact ⟨hinitiator, (List.append_nil _).symm⟩
      | some tx => exact ⟨rfl, rfl⟩
    exact {
      answered := fun _ _ _ hopen => by cases hopen
      overdue := fun _ _ => iff_of_true ⟨_, _, hawaited, hoverdue⟩ rfl
      givesUp := fun _ _ => ⟨rfl, hgone⟩
      closed := fun hclosing => absurd hclosing (by simp [hongoing]) }
  | stopped hstarted hleft hwithin hnext =>
    rw [hpolled]
    exact {
      answered := fun req hreq => by simp [handedOut] at hreq
      overdue := fun _ _ => iff_of_false
        (fun ⟨method, since, hawaited, hoverdue⟩ => hwithin method since hawaited hoverdue)
        (by simp [hnext.ongoing])
      givesUp := fun _ hclosing => absurd hclosing (by simp [hnext.ongoing])
      closed := fun hclosing => absurd hclosing (by simp [hongoing]) }
  | finished hstarted hnone hdone hscript hnames =>
    have hopen : (Handler.pollTarget driver s.target env now).target.initState.isClosing = false := by
      rw [hpolled, Target.initState_eq_of_isInitialized hdone]
      rfl
    exact {
      answered := fun _ _ _ _ => hnone
      overdue := fun _ _ => iff_of_false (hwithin hnone) (by simp [hopen])
      givesUp := fun _ hclosing => absurd hclosing (by simp [hopen])
      closed := fun hclosing => absurd hclosing (by simp [hongoing]) }

theorem inOrder_of_recorded (h : Recorded info config s) (input : InitInput) :
    InOrder info config s input := by
  cases input with
  | polled driver env now =>
    cases h with
    | ongoing commands hsessions hinit hemitted hfollows => exact awaits_polled driver env now hfollows
    | initialized commands hsessions hinit hemitted hscript hnames =>
      have hstate := Target.initState_eq_of_isInitialized hinit
      have hpolled := Target.pollTarget_initialized hstate driver env now
      exact {
        answered := fun req hreq => by simp [handedOut, hpolled, TargetInit.isInitialized] at hreq
        overdue := fun hnot => by simp [hinit] at hnot
        givesUp := fun _ hclosing => by simp [hpolled, TargetInit.isClosing] at hclosing
        closed := fun hclosing => by simp [hstate, TargetInit.isClosing] at hclosing }
    | closing commands session hsessions hinit hemitted hscript hnames =>
      have hpolled := Target.pollTarget_closing (Target.initState_eq_of_isClosing hinit) driver env now
      exact {
        answered := fun req hreq => by simp [handedOut, hpolled] at hreq
        overdue := fun _ hnot => by simp [hinit] at hnot
        givesUp := fun hnot => by simp [hinit] at hnot
        closed := fun _ => hpolled }
  | _ => trivial

theorem recorded_step (h : Recorded info config s) (input : InitInput) :
    Recorded info config (s.step input) := by
  cases h with
  | ongoing commands hsessions hinit hemitted hfollows =>
    cases input with
    | polled driver env now => exact recorded_polled driver env now hsessions hemitted hfollows
    | response env method resp =>
      have hstate := Target.initState_response s.target env method resp
      refine .ongoing commands hsessions ?_ ?_ (hfollows.response env method resp)
      · simp only [step, hstate]
        cases hs : s.target.initState <;> simp_all [TargetInit.mapCommands, TargetInit.isInitialized]
      · simp only [step, hstate, hemitted]
        cases s.target.initState <;> rfl
    | attached session => exact .ongoing commands hsessions hinit hemitted (hfollows.setSessionId session)
    | initiated tx => exact .ongoing commands hsessions hinit hemitted (hfollows.setInitiator tx)
  | initialized commands hsessions hinit hemitted hscript hnames =>
    have hstate := Target.initState_eq_of_isInitialized hinit
    cases input with
    | polled driver env now =>
      have hpolled := Target.pollTarget_initialized hstate driver env now
      have hstarted : s.target.startedWorld env = none := by simp only [Target.startedWorld, hstate]
      rw [step_initialized (by rw [hpolled]; rfl), hstarted, Option.toList_none, List.append_nil]
      exact .initialized commands hsessions (by rw [hpolled]; rfl) hemitted hscript hnames
    | response env method resp =>
      refine .initialized commands hsessions ?_ hemitted hscript hnames
      simp only [step, Target.initState_response, hstate]
      rfl
    | attached session => exact .initialized commands hsessions hinit hemitted hscript hnames
    | initiated tx => exact .initialized commands hsessions hinit hemitted hscript hnames
  | closing commands session hsessions hinit hemitted hscript hnames =>
    have hstate := Target.initState_eq_of_isClosing hinit
    cases input with
    | polled driver env now =>
      have hstarted : s.target.startedWorld env = none := by simp only [Target.startedWorld, hstate]
      rw [step_stop (Target.pollTarget_closing hstate driver env now), hstarted, Option.toList_none,
        List.append_nil]
      exact .closing commands session hsessions hinit hemitted hscript hnames
    | response env method resp =>
      refine .closing commands session hsessions ?_ hemitted hscript hnames
      simp only [step, Target.initState_response, hstate]
      rfl
    | attached session' =>
      exact .closing commands session hsessions hinit hemitted hscript hnames
    | initiated tx => exact .closing commands session hsessions hinit hemitted hscript hnames

/-- No isolated world closes the page. -/
def WorldsStay (s : Initialisation) : Prop :=
  ∀ world ∈ s.worlds, ∀ command ∈ world.2.cmds, command.1 ≠ "Target.closeTarget"

theorem worldsStay_step (h : s.WorldsStay) (input : InitInput) : (s.step input).WorldsStay := by
  cases input with
  | polled driver env now =>
    intro world hworld
    rcases List.mem_append.1 hworld with hworld | hworld
    · exact h world hworld
    · rw [Option.mem_toList] at hworld
      unfold Target.startedWorld at hworld
      split at hworld
      · split at hworld
        · obtain ⟨worldName, _, hstarted⟩ := Option.bind_eq_some_iff.1 hworld
          obtain ⟨cmds, hcmds, rfl⟩ := Option.map_eq_some_iff.1 hstarted
          unfold FrameManager.ensureIsolatedWorld at hcmds
          split at hcmds
          · cases hcmds
          · cases hcmds
            intro command hcommand
            simp only [CommandChain.new, List.mem_cons, List.mem_map] at hcommand
            rcases hcommand with rfl | ⟨_, _, rfl⟩
            · simp
            · simp
        · cases hworld
      · cases hworld
  | _ => exact h

theorem script_stays (config : TargetConfig) (h : s.WorldsStay) :
    ∀ command ∈ script config s.worlds, command.1 ≠ "Target.closeTarget" := by
  intro command hcommand
  simp only [script, frameCommands, List.mem_append, List.mem_flatMap] at hcommand
  rcases hcommand with (((hframe | ⟨world, hworld, hcommand⟩) | hnetwork) | hpage) | hemulation
  · simp only [FrameManager.initCommands, CommandChain.new, List.mem_cons, List.not_mem_nil,
      or_false] at hframe
    rcases hframe with rfl | rfl | rfl
    all_goals decide
  · exact h world hworld command hcommand
  · unfold networkCommands NetworkManager.initCommands CommandChain.new at hnetwork
    split at hnetwork
    · simp only [List.mem_cons, List.not_mem_nil, or_false] at hnetwork
      rcases hnetwork with rfl | rfl
      all_goals decide
    · obtain rfl := List.mem_singleton.1 hnetwork
      decide
  · simp only [pageCommands, Target.pageInitCommands, CommandChain.new, List.mem_cons,
      List.not_mem_nil, or_false] at hpage
    rcases hpage with rfl | rfl
    all_goals decide
  · unfold emulationCommands at hemulation
    split at hemulation
    · simp only [emulationInitCommands, CommandChain.new, List.mem_cons, List.not_mem_nil,
        or_false] at hemulation
      rcases hemulation with rfl | rfl
      all_goals simp
    · cases hemulation

/-- The commands of the script do not count as requests to close the page. -/
theorem countP_isClose (h : s.WorldsStay) {commands : List Request}
    (hscript : commandsOf commands <+: script config s.worlds) :
    (commands.map TargetEvent.request).countP isClose = 0 := by
  rw [List.countP_eq_zero]
  intro event hevent hclose
  obtain ⟨req, hreq, rfl⟩ := List.mem_map.1 hevent
  have hcommand : (req.method, req.params) ∈ commandsOf commands :=
    List.mem_map_of_mem hreq
  exact script_stays config h _ (hscript.mem hcommand) (by simpa [isClose] using hclose)

theorem ordered_of_recorded (h : Recorded info config s) (hworlds : s.WorldsStay) :
    Ordered info config s := by
  have hattach : isClose (.request (Target.attachRequest info)) = false := by
    simp [isClose, Target.attachRequest]
  cases h with
  | ongoing commands hsessions hinit hemitted hfollows =>
    have hcount := countP_isClose hworlds hfollows.isPrefix
    refine ⟨⟨commands, none, ?_, hsessions, hfollows.isPrefix, fun hdone => ?_⟩, hfollows.names, ?_⟩
    · simp [hemitted, hfollows.ongoing]
    · rw [hinit] at hdone
      cases hdone
    · rw [hemitted, List.countP_append, hcount, hfollows.ongoing]
      cases s.target.initState <;> simp [opening, hattach]
  | initialized commands hsessions hinit hemitted hscript hnames =>
    have hstate := Target.initState_eq_of_isInitialized hinit
    have hprefix : commandsOf commands <+: script config s.worlds := by
      rw [hscript]
    have hcount := countP_isClose hworlds hprefix
    refine ⟨⟨commands, none, ?_, hsessions, hprefix, fun _ => hscript⟩, hnames, ?_⟩
    · simp [hemitted, hstate, opening, TargetInit.isClosing]
    · simp [hemitted, hstate, TargetInit.isClosing, hcount, hattach]
  | closing commands session hsessions hinit hemitted hscript hnames =>
    have hstate := Target.initState_eq_of_isClosing hinit
    have hcount := countP_isClose hworlds hscript
    have hclose : isClose (.request (Target.closeRequest info session)) = true := by
      simp [isClose, Target.closeRequest]
    refine ⟨⟨commands, session, ?_, hsessions, hscript, fun hdone => ?_⟩, hnames, ?_⟩
    · simp [hemitted, hstate, opening, TargetInit.isClosing]
    · rw [hstate] at hdone
      cases hdone
    · simp [hemitted, hstate, TargetInit.isClosing, hcount, hattach, hclose]

theorem recorded_start (info : TargetInfo) (config : TargetConfig) (browserContext : BrowserContext)
    (hpage : TargetType.new info.type = .page) :
    Recorded info config (start (.new info config browserContext)) :=
  .ongoing [] nofun rfl rfl {
    infoKept := rfl
    configKept := rfl
    page := decide_eq_true hpage
    network := rfl
    frames := rfl
    ongoing := rfl
    fresh := fun _ => rfl
    script := rfl
    timeout := nofun
    waiting := rfl
    session := fun _ => ⟨rfl, rfl, nofun⟩
    names := List.nodup_nil
    known := nofun }

/-- Nothing that can be delivered to a target brings it back once it has given up. -/
theorem closing_take {t : Target} (h : t.initState = .closing) (input : TargetInput) :
    (t.take input).initState = .closing := by
  cases input with
  | event env event =>
    obtain ⟨_, _, _, heq⟩ := t.onEvent_same env event
    exact (congrArg Target.initState heq).trans h
  | response env method resp =>
    exact (Target.initState_response t env method resp).trans (by rw [h]; rfl)
  | drained =>
    have hmessage : ∀ (t : Target) msg, (t.onPageMessage msg).initState = t.initState := by
      intro t msg
      unfold Target.onPageMessage
      split
      · rfl
      · exact t.initState_handlePageMessage msg
    simp only [Target.take, Handler.drainPage]
    split
    · rw [Run.foldl_unchanged hmessage]
      exact h
    · exact h
  | paged everyKind =>
    simp only [Target.take, Target.createPage]
    split
    · split
      · exact h
      · exact h
    · exact h
  | polled driver env now id timeout =>
    simp only [Target.take, Target.pollTarget_closing h, Target.navigated]
    exact h
  | _ => exact h

end Runs

/-! ### The law of initialisation -/

/-- A page that initialises itself hands out its requests in the order of the script, each command but the first only when the response to the one before has come. It gives up when a wait exceeds the timeout, and only then, asks once for the page to be closed, lets a waiting initiator know, and has nothing more to say whatever happens. -/
theorem initialisation_law (info : TargetInfo) (config : TargetConfig) (browserContext : BrowserContext)
    (hpage : TargetType.new info.type = .page) (inputs : List InitInput) :
    Run.Always step (Ordered info config) (start (.new info config browserContext)) inputs ∧
    Run.Allowed step (InOrder info config) (start (.new info config browserContext)) inputs ∧
    let t := (Run.final step (start (.new info config browserContext)) inputs).target
    t.initState.isClosing = true → ∀ (later : List TargetInput) driver env now,
      Handler.pollTarget driver (Run.final Target.take t later) env now =
        ⟨Run.final Target.take t later, none, false⟩ := by
  have hstart : Recorded info config (start (.new info config browserContext)) ∧
      (start (.new info config browserContext)).WorldsStay :=
    ⟨recorded_start info config browserContext hpage, nofun⟩
  have hstep : ∀ s input, Recorded info config s ∧ s.WorldsStay →
      Recorded info config (s.step input) ∧ (s.step input).WorldsStay :=
    fun s input h => ⟨recorded_step h.1 input, worldsStay_step h.2 input⟩
  refine ⟨?_, ?_, fun hclosing later driver env now => ?_⟩
  · exact (Run.always_of_step hstep hstart inputs).mono fun s h => ordered_of_recorded h.1 h.2
  · exact Run.allowed_of_step _ hstep (fun s input h => inOrder_of_recorded h.1 input) hstart inputs
  · have hlater := Run.invariant_of_step (fun t : Target => t.initState = .closing)
      (fun t input h => closing_take h input) (Target.initState_eq_of_isClosing hclosing) later
    exact Target.pollTarget_closing hlater driver env now

/-- A page that hears nothing of its first command, nor of anything else, until it gives up after 31 seconds. -/
def unanswered : List InitInput :=
  [.initiated ⟨0⟩, .polled .run Handler.plainEnv 0, .attached ⟨"session"⟩,
    .polled .run Handler.plainEnv 0, .polled .run Handler.plainEnv 31000000000]

/-- The law for a page that gives up. -/
theorem initialisation_law_unanswered :
    let info : TargetInfo := ⟨Handler.plainTarget, "page", none, none⟩
    let config := Handler.plainConfig.targetConfig
    let s := Run.final step (start (.new info config ⟨none⟩)) unanswered
    s.emitted.countP isClose = 1 ∧
      ∀ (later : List TargetInput) driver env now,
        Handler.pollTarget driver (Run.final Target.take s.target later) env now =
          ⟨Run.final Target.take s.target later, none, false⟩ := by
  intro info config s
  have hlaw := initialisation_law info config ⟨none⟩ (by decide) unanswered
  have hclosing : s.target.initState.isClosing = true := by decide +kernel
  refine ⟨?_, hlaw.2.2 hclosing⟩
  rw [hlaw.1.last.closes, if_pos hclosing]

end Initialisation

end SpiderChrome
