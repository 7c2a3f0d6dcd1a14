import SpiderChrome.Handler.Wake
import SpiderChrome.Target.Commands

/-!
# The clock of the loop

The loop of `run` reads the clock at the top of every turn, then passes over the targets, and then waits in its `select!` for as long as nothing comes. What it does after the wait it does by the reading from before it: it stamps a command of the browser handle with it, and hands it to the eviction when the timer ticks. `TimedLoop` is the loop with the moments at which things happen; when the timer is due after a tick is left open. When the senders that the loop hears from were taken from their channels is kept in `taken`, and what the evictions answered in `expired`; no function reads these two.
-/

namespace SpiderChrome

/-- When a message was taken from its channel, and what the clock read at the top of that turn of the loop. -/
structure Taking where
  turn : Instant
  moment : Instant
deriving DecidableEq

/-- An answer of an eviction, with when the command was taken and when it was answered. -/
structure Expiry where
  tx : Sender
  taking : Option Taking
  moment : Instant
deriving DecidableEq

structure TimedLoop where
  loop : RunLoop
  /-- The reading at the top of this turn. -/
  now : Instant
  /-- The present moment. -/
  moment : Instant
  /-- When the eviction timer ticks next, or later. -/
  due : Instant
  taken : Sender → Option Taking
  expired : List Expiry

/-- What happens next, how long after what happened before, and, if a turn of the loop ends with it, how long it is until the clock is read again. -/
structure TimedInput where
  wait : Duration
  input : RunInput
  untilRead : Duration

/-- The senders of a message that may wait for a response. -/
def HandlerMessage.senders : HandlerMessage → List Sender
  | .command msg => [msg.sender]
  | .fetchTargets tx => [tx]
  | .closeBrowser tx => [tx]
  | .createPage _ tx => [tx]
  | _ => []

/-- An input with the reading that the loop goes by. -/
def RunInput.at (now : Instant) : RunInput → RunInput
  | .turn accepted targetId env _ => .turn accepted targetId env now
  | .arm (.browserMessage accepted msg _) => .arm (.browserMessage accepted msg now)
  | .arm (.evict _) => .arm (.evict now)
  | input => input

def RunInput.isTick : RunInput → Bool
  | .arm (.evict _) => true
  | _ => false

/-- The senders of what an input takes from a channel. -/
def RunLoop.takes (s : RunLoop) : RunInput → List Sender
  | .visit targetId =>
    match s.phase with
    | .pass toVisit =>
      if targetId ∈ toVisit then
        ((s.handler.waitingAt targetId).take Handler.perTargetDrainBudget).flatMap TargetMessage.senders
      else []
    | _ => []
  | .arm (.browserMessage _ msg _) =>
    match s.phase with
    | .select => msg.senders
    | _ => []
  | _ => []

/-- The loop goes from its `select!` to the top of a turn. -/
def RunLoop.turnsTo (s s' : RunLoop) : Bool :=
  match s.phase, s'.phase with
  | .select, .pass _ => true
  | _, _ => false

namespace TimedLoop

/-- The loop is entered some time after its timer was made. -/
def start (config : HandlerConfig) (made : Instant) (untilRead : Duration) : TimedLoop where
  loop := .new config
  now := made + untilRead
  moment := made + untilRead
  due := made + config.requestTimeout
  taken := fun _ => none
  expired := []

/-- The timer ticks for the loop. -/
def ticks (s : TimedLoop) (x : TimedInput) : Bool :=
  x.input.isTick && decide (s.loop.phase = .select) && decide (s.due ≤ s.moment + x.wait)

/-- The moment passes, and an input happens. -/
def advance (s : TimedLoop) (x : TimedInput) : TimedLoop :=
  let moment := s.moment + x.wait
  let loop := s.loop.step (x.input.at s.now)
  { s with
    loop := loop
    now := if s.loop.turnsTo loop then moment + x.untilRead else s.now
    moment := if s.loop.turnsTo loop then moment + x.untilRead else moment
    taken := fun tx => if tx ∈ s.loop.takes x.input then some ⟨s.now, moment⟩ else s.taken tx }

/-- The answers of an eviction, as they are recorded. -/
def expiries (s : TimedLoop) (x : TimedInput) : List Expiry :=
  ((s.advance x).loop.handler.replies.drop s.loop.handler.replies.length).map fun reply =>
    ⟨reply.1, s.taken reply.1, s.moment + x.wait⟩

variable (nextDue : Instant → Instant → Instant)

/-- A timer that is not due does not tick. -/
def step (s : TimedLoop) (x : TimedInput) : TimedLoop :=
  if s.ticks x then
    { s.advance x with
      due := nextDue s.due (s.moment + x.wait)
      expired := s.expired ++ s.expiries x }
  else if x.input.isTick then { s with moment := s.moment + x.wait }
  else s.advance x

end TimedLoop

end SpiderChrome
