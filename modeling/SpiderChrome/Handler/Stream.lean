import SpiderChrome.Handler.Pass
import SpiderChrome.Connection.Stream
import SpiderChrome.Parallel.Router

/-!
# The end of the connection

The loop of the stream driver, as `poll_next` has it: it takes what the browser handle sends, drives the targets, reads the connection, and returns or turns again. The other two drivers leave their loops when there is nothing more to read. The stream driver takes the end of the connection for a connection that has nothing to read just then, and waits; `ends_iff` says exactly which of its turns end the stream all the same.
-/

namespace SpiderChrome

/-- A message of the browser. -/
inductive CdpMessage where
  | response (resp : Response)
  | event (event : CdpEventMessage)

/-- The errors of the connection by which a driver ends as if it were told to close. -/
def ConnectionError.disposes : ConnectionError → Bool
  | ws .alreadyClosed => true
  | ws (.protocol .resetWithoutClosingHandshake) => true
  | _ => false

def HandlerMessage.disposes : HandlerMessage → Bool
  | disposeContext _ => true
  | _ => false

namespace Handler

def browserMsgBudget : Nat := 128

def wsMsgBudget : Nat := 512

/-! ### The parts of a turn -/

/-- The loop over the channel of the browser handle: the handler, whether a context was disposed of, and whether the budget was used up. -/
def takeBrowserMsgs (h : Handler) (msgs : List HandlerMessage) (now : Instant) : Handler × Bool × Bool :=
  let taken := msgs.take browserMsgBudget
  (taken.foldl (fun h msg => h.onBrowserMessage true msg now) h, taken.any HandlerMessage.disposes,
    decide (browserMsgBudget ≤ msgs.length))

/-- The loop over the events of a target, with the turns that it is left. It tells whether they were used up. -/
def drainTarget (env : Nat → Env) (now : Instant) (targetId : TargetId) : Nat → Handler → Handler × Bool
  | 0, h => (h, true)
  | room + 1, h =>
    let event := (h.targets.get targetId).bind fun target =>
      (pollTarget .stream target (env (perTargetDrainBudget - (room + 1))) now).event
    let h := h.turn .stream true targetId (env (perTargetDrainBudget - (room + 1))) now
    match event with
    | some _ => drainTarget env now targetId room h
    | none => (h, false)

/-- The loop over the targets, from the end of the list of their ids. -/
def drainTargets (h : Handler) (env : TargetId → Nat → Env) (now : Instant) : Handler × Bool :=
  (List.range h.targetIds.length).reverse.foldl (fun (h, hit) n =>
    match h.targetIds[n]? with
    | some targetId =>
      let (h, again) := (h.visit n).drainTarget (env targetId) now targetId perTargetDrainBudget
      (h, hit || again)
    | none => (h, hit)) (h, false)

/-- What was read from the connection in a turn. -/
structure Reads where
  conn : Connection
  msgs : List CdpMessage
  err : Option ConnectionError
  ended : Bool
  panicked : Bool
  budgetHit : Bool

/-- The loop over the connection, with the messages that it has room for. It goes on while there is an item, so it does not tell the end of the connection from one that has nothing to read. -/
def readConnection (parse : List UInt8 → Option CdpMessage) (polls : Nat → SinkEnv × Nat) :
    Nat → Connection → List CdpMessage → Reads
  | 0, conn, msgs => ⟨conn, msgs, none, false, false, true⟩
  | room + 1, conn, msgs =>
    let (env, available) := polls (wsMsgBudget - (room + 1))
    match conn.pollNext parse env available with
    | (conn, .item (.ok msg)) => readConnection parse polls room conn (msgs ++ [msg])
    | (conn, .item (.error err)) => ⟨conn, msgs, some err, false, false, false⟩
    | (conn, .done) => ⟨conn, msgs, none, true, false, false⟩
    | (conn, .pending) => ⟨conn, msgs, none, false, false, false⟩
    | (conn, .panicked) => ⟨conn, msgs, none, false, true, false⟩

/-- The loop over the messages, which ends when the handler is closing after a response. It tells whether it ended so. -/
def takeMessages (env : Nat → Env) : Nat → Handler → List CdpMessage → Handler × Bool
  | _, h, [] => (h, false)
  | n, h, .response resp :: rest =>
    let h := h.onResponse (env n) resp
    if h.closing then (h, true) else takeMessages env (n + 1) h rest
  | n, h, .event event :: rest => takeMessages env (n + 1) (h.onEvent (env n) event) rest

end Handler

/-! ### The loop -/

/-- What `poll_next` returns. -/
inductive Returned where
  | done
  | error (err : ConnectionError)
  | pending
  | panicked
deriving DecidableEq

/-- What a turn of the loop meets: the messages of the browser handle, what the targets see, what each poll of the connection does, what each message is taken with, and the eviction timer. -/
structure LoopTurn where
  browserMsgs : List HandlerMessage
  targetEnv : TargetId → Nat → Env
  polls : Nat → SinkEnv × Nat
  messageEnv : Nat → Env
  evicts : Bool
  now : Instant

/-- The handler with its connection, whether the connection has come to its end, and what the last turn of the loop returned, if it returned. -/
structure Streamed where
  handler : Handler
  conn : Connection
  ended : Bool
  returned : Option Returned

namespace Streamed

/-- A new handler, whose first call is in the queue of its connection. -/
def start (config : HandlerConfig) (items : List WsItem) : Streamed where
  handler := .new config
  conn := { Connection.new items with
    pendingCommands := (Handler.new config).submitted.map Prod.fst
    nextId := 1 }
  ended := false
  returned := none

/-- The handler as it reads the connection in a turn. -/
structure Prepared where
  handler : Handler
  conn : Connection
  dispose : Bool
  budgetHit : Bool

/-- The browser handle and the targets have had their turn, and what was submitted is in the queue of the connection. -/
def prepared (s : Streamed) (t : LoopTurn) : Prepared :=
  let (h, dispose, browserHit) := s.handler.takeBrowserMsgs t.browserMsgs t.now
  let (h, drainHit) := h.drainTargets t.targetEnv t.now
  let queued := (h.submitted.drop s.handler.submitted.length).map Prod.fst
  ⟨h, { s.conn with pendingCommands := s.conn.pendingCommands ++ queued }, dispose, browserHit || drainHit⟩

section

variable (parse : List UInt8 → Option CdpMessage)

def reads (s : Streamed) (t : LoopTurn) : Handler.Reads :=
  Handler.readConnection parse t.polls Handler.wsMsgBudget (s.prepared t).conn []

/-- What follows the messages in a turn. -/
def finish (s : Streamed) (t : LoopTurn) (h : Handler) (dispose budgetHit done : Bool) : Streamed :=
  let h := if t.evicts then h.evict t.now else h
  { s with
    handler := h.blockExhausted
    returned :=
      if dispose then some .done
      else if budgetHit then some .pending
      else if done then some .pending
      else none }

/-- One turn of the loop in `poll_next`. -/
def turn (s : Streamed) (t : LoopTurn) : Streamed :=
  let before := s.prepared t
  let reads := s.reads parse t
  let s := { s with conn := reads.conn, ended := s.ended || reads.ended }
  if reads.panicked then { s with handler := before.handler, returned := some .panicked }
  else match before.handler.takeMessages t.messageEnv 0 reads.msgs with
    | (h, true) => { s with handler := h, returned := some .done }
    | (h, false) =>
      let budgetHit := before.budgetHit || reads.budgetHit
      match reads.err with
      | some err =>
        if err.disposes then s.finish t { h with closing := true } true budgetHit reads.msgs.isEmpty
        else { s with handler := h, returned := some (.error err) }
      | none => s.finish t h before.dispose budgetHit reads.msgs.isEmpty

/-- A stream that has ended, or panicked, is polled no more. -/
def step (s : Streamed) (t : LoopTurn) : Streamed :=
  match s.returned with
  | some .done | some .panicked => s
  | _ => s.turn parse t

/-- Once the connection has come to its end, the loop turns again or ends the stream. -/
def LetsGo (s : Streamed) : Prop := s.ended = true → s.returned = none ∨ s.returned = some .done

/-- What a turn of the loop must meet once the connection has come to its end: a context is disposed of, or a response is taken while the handler is closing, or the websocket says that it is closed already or was reset, or there were messages before the end, and neither budget is used up. -/
def Leaves (s : Streamed) (t : LoopTurn) : Prop :=
  s.returned ≠ some .done → s.returned ≠ some .panicked → (s.ended || (s.reads parse t).ended) = true →
    (s.reads parse t).panicked = false ∧
      (((s.prepared t).handler.takeMessages t.messageEnv 0 (s.reads parse t).msgs).2 = true ∨
        match (s.reads parse t).err with
        | some err => err.disposes = true
        | none => (s.prepared t).dispose = true ∨
            (s.reads parse t).msgs ≠ [] ∧ (s.prepared t).budgetHit = false ∧ (s.reads parse t).budgetHit = false)

end

end Streamed

/-! ### The other drivers -/

/-- What `run` does with what its reader has for it, and with what it leaves its loop then. -/
def Handler.onFrame (h : Handler) (env : Env) :
    Option (Except ConnectionError CdpMessage) → Handler × Option (Except ConnectionError Unit)
  | some (.ok (.response resp)) => (h.onResponse env resp, none)
  | some (.ok (.event event)) => (h.onEvent env event, none)
  | some (.error err) => (h, some (if err.disposes then .ok () else .error err))
  | none => (h, some (.ok ()))

/-- What the router does with what its reader has for it, and whether it leaves its loop then. -/
def Router.onFrame (r : Router) (decoders : Decoders) (now : Instant) :
    Option (Except ConnectionError CdpMessage) → Router × Bool
  | some (.ok (.response resp)) => (r.onResponse decoders now resp, false)
  | some (.ok (.event event)) => (r.onEvent event, false)
  | some (.error _) => (r, true)
  | none => (r, true)

/-! ### Runs -/

namespace Streamed

variable {parse : List UInt8 → Option CdpMessage}

theorem letsGo_finish (s : Streamed) (t : LoopTurn) (h : Handler) (dispose budgetHit done : Bool) :
    (s.finish t h dispose budgetHit done).LetsGo ↔
      (s.ended = true → dispose = true ∨ budgetHit = false ∧ done = false) := by
  unfold LetsGo finish
  dsimp only
  refine imp_congr_right fun _ => ?_
  cases dispose with
  | true => simp
  | false =>
    cases budgetHit with
    | true => simp
    | false =>
      cases done with
      | true => simp
      | false => simp

/-- A turn lets the stream go just when it meets what it must. -/
theorem letsGo_turn (s : Streamed) (t : LoopTurn) (hdone : s.returned ≠ some .done)
    (hpanicked : s.returned ≠ some .panicked) : (s.turn parse t).LetsGo ↔ s.Leaves parse t := by
  unfold turn Leaves
  dsimp only
  generalize s.prepared t = before
  generalize s.reads parse t = reads
  cases hread : reads.panicked with
  | true => simp [LetsGo, hdone, hpanicked]
  | false =>
    simp only [Bool.false_eq_true, if_false]
    cases htaken : before.handler.takeMessages t.messageEnv 0 reads.msgs with
    | mk h closed =>
      cases closed with
      | true => simp [LetsGo]
      | false =>
        cases herr : reads.err with
        | some err =>
          cases hdisposes : err.disposes with
          | true => simp [letsGo_finish, hdisposes]
          | false => simp [LetsGo, hdone, hpanicked, hdisposes]
        | none =>
          dsimp only
          rw [letsGo_finish]
          simp [hdone, hpanicked, Bool.or_eq_false_iff, and_comm, List.isEmpty_eq_false_iff]

theorem letsGo_step (s : Streamed) (t : LoopTurn) (h : s.LetsGo) : (s.step parse t).LetsGo ↔ s.Leaves parse t := by
  unfold step
  split
  · rename_i hdone
    exact ⟨fun _ hgoes => absurd hdone hgoes, fun _ => h⟩
  · rename_i hpanicked
    exact ⟨fun _ _ hgoes => absurd hpanicked hgoes, fun _ => h⟩
  · rename_i hdone hpanicked
    exact s.letsGo_turn t hdone hpanicked

variable (parse) in
/-- The stream driver ends with the connection just when every turn of its loop meets what it must, whatever the browser and its handle send and in whatever order. The other two drivers leave their loops at once. -/
theorem ends_iff (config : HandlerConfig) (items : List WsItem) (turns : List LoopTurn) :
    (Run.Always (step parse) LetsGo (start config items) turns ↔
      Run.Allowed (step parse) (Leaves parse) (start config items) turns) ∧
      (∀ (h : Handler) (env : Env), (h.onFrame env none).2 = some (.ok ())) ∧
      ∀ (r : Router) (decoders : Decoders) (now : Instant), (r.onFrame decoders now none).2 = true := by
  refine ⟨?_, fun _ _ => rfl, fun _ _ _ => rfl⟩
  have hstart : (start config items).LetsGo := nofun
  exact Run.always_iff_allowed (fun _ _ => True) (fun _ _ _ _ => trivial) (fun s t _ _ h => s.letsGo_step t h)
    trivial hstart

/-- Nothing happens but that the connection is polled. -/
def idleTurn : LoopTurn where
  browserMsgs := []
  targetEnv := fun _ _ => Handler.plainEnv
  polls := fun _ => (⟨.ready (.ok ()), [.ok ()], .ready (.ok ())⟩, 1)
  messageEnv := fun _ => Handler.plainEnv
  evicts := false
  now := 0

/-- The browser closes the connection, and the stream waits on. -/
theorem not_letsGo_closed :
    ¬ Run.Always (step fun _ => none) LetsGo (start Handler.plainConfig [.ok .close]) [idleTurn] := by
  intro halways
  have hended : ((start Handler.plainConfig [.ok .close]).step (fun _ => none) idleTurn).ended = true := by
    decide +kernel
  have hreturned : ((start Handler.plainConfig [.ok .close]).step (fun _ => none) idleTurn).returned =
      some .pending := by
    decide +kernel
  obtain hnone | hdone := halways.last hended
  · rw [Run.final_cons, Run.final_nil, hreturned] at hnone
    cases hnone
  · rw [Run.final_cons, Run.final_nil, hreturned] at hdone
    cases hdone

end Streamed

end SpiderChrome
