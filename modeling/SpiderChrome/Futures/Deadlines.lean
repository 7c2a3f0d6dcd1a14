import SpiderChrome.Futures.Http
import SpiderChrome.Futures.Wakes

/-!
# Deadlines

A deadline is never set for less than the request timeout after the call began, so no call gives up early. The other way round it takes an executor that polls what is woken before the clock moves on: then a call with one deadline ends within one timeout, and a call that sets a second one when the first wait is over ends within two.
-/

namespace SpiderChrome

namespace Futures

variable {T : Type}

/-! ### Where a future stands -/

section Within

variable (requestTimeout : Duration) (started now : Instant)

def Delivery.Within (f : Delivery) : Prop := f.delay = started + requestTimeout ∧ now ≤ f.delay

def Sending.Within : Sending → Prop
  | start _ => now = started
  | send _ _ deadline => deadline = started + requestTimeout ∧ now ≤ deadline

/-- The second deadline is set when the first wait is over. -/
def Exchange.Within (f : Exchange) : Prop :=
  f.requestTimeout = requestTimeout ∧
    match f.state with
    | .sending sending => sending.Within requestTimeout started now
    | .receiving deadline => deadline ≤ started + 2 * requestTimeout ∧ now ≤ deadline

def HttpFuture.Within (f : HttpFuture T) : Prop :=
  f.navigation.requestTimeout = requestTimeout ∧
    match f.command with
    | some asked => asked.delivery.Within requestTimeout started now
    | none => f.navigation.delivery.delay ≤ started + 2 * requestTimeout ∧ now ≤ f.navigation.delivery.delay

/-- The clock has not passed the deadline of the wait that the future is in, and that is where it should be. -/
def Future.Within : Future T → Prop
  | command f => f.delivery.Within requestTimeout started now
  | wait f => f.delivery.Within requestTimeout started now
  | http f => f.Within requestTimeout started now
  | execute ⟨.ok exchange, _⟩ => exchange.Within requestTimeout started now
  | execute ⟨.error _, _⟩ => now = started
  | ask f => f.Within requestTimeout started now
  | tell f => f.requestTimeout = requestTimeout ∧ f.sending.Within requestTimeout started now

end Within

/-- The number of timeouts that a call may take. -/
def Future.waits : Future T → Nat
  | command _ | wait _ | tell _ => 1
  | http _ | execute _ | ask _ => 2

variable {s : Scene} {wakers : List Waker} {requestTimeout : Duration} {started now : Instant}

private theorem le_two {a b timeout : Nat} (h : a ≤ b + timeout) : a ≤ b + 2 * timeout := by
  omega

private theorem add_le_two {a b timeout : Nat} (h : a ≤ b + timeout) : a + timeout ≤ b + 2 * timeout := by
  omega

theorem Sending.Within.le {f : Sending} (h : f.Within requestTimeout started now) : now ≤ started + requestTimeout := by
  cases f with
  | start msg => exact Nat.le_trans (Nat.le_of_eq h) (Nat.le_add_right _ _)
  | send msg queued deadline => exact h.1 ▸ h.2

theorem Future.Within.le {f : Future T} (h : f.Within requestTimeout started now) :
    now ≤ started + f.waits * requestTimeout := by
  have hexchange : ∀ {exchange : Exchange}, exchange.Within requestTimeout started now →
      now ≤ started + 2 * requestTimeout := by
    intro exchange hexchange
    obtain ⟨tx, timeout, state⟩ := exchange
    cases state with
    | sending sending => exact le_two (Sending.Within.le hexchange.2)
    | receiving deadline => exact Nat.le_trans hexchange.2.2 hexchange.2.1
  cases f with
  | command f =>
    rw [Future.waits, Nat.one_mul, ← h.1]
    exact h.2
  | wait f =>
    rw [Future.waits, Nat.one_mul, ← h.1]
    exact h.2
  | http f =>
    obtain ⟨command, navigation⟩ := f
    rw [Future.waits]
    cases command with
    | none => exact Nat.le_trans h.2.2 h.2.1
    | some asked =>
      obtain ⟨-, hdelay, hle⟩ := h
      exact le_two (hdelay ▸ hle)
  | execute f =>
    obtain ⟨exchange, decode⟩ := f
    cases exchange with
    | error err => exact Nat.le_trans (Nat.le_of_eq h) (Nat.le_add_right _ _)
    | ok exchange => exact hexchange h
  | ask f => exact hexchange h
  | tell f =>
    rw [Future.waits, Nat.one_mul]
    exact Sending.Within.le h.2

/-! ### The clock moves on -/

/-- The deadline that a delivery is parked with has not come. -/
theorem Delivery.lt_of_parks {f : Delivery} (hparks : f.Parks wakers) (hquiet : s.Quiet wakers) : s.now < f.delay := by
  obtain ⟨tx, parcel, delay⟩ := f
  refine Nat.lt_of_not_le ?_
  cases parcel with
  | message msg => cases hparks
  | sendFut msg queued =>
    obtain ⟨-, rfl⟩ := hparks
    exact ready_timer.1 (quiet_pair.1 hquiet).2
  | delivered =>
    obtain rfl : wakers = [.timer delay, .answer tx] := hparks
    exact ready_timer.1 (quiet_pair.1 hquiet).1

theorem Sending.Within.tick {f : Sending} {tx : Sender} (h : f.Within requestTimeout started s.now)
    (hparks : f.Parks tx wakers) (hquiet : s.Quiet wakers) : f.Within requestTimeout started (s.now + 1) := by
  cases f with
  | start msg => cases hparks
  | send msg queued deadline =>
    obtain ⟨-, rfl⟩ := hparks
    exact ⟨h.1, Nat.lt_of_not_le (ready_timer.1 (quiet_pair.1 hquiet).2)⟩

theorem Exchange.Within.tick {f : Exchange} (h : f.Within requestTimeout started s.now) (hparks : f.Parks wakers)
    (hquiet : s.Quiet wakers) : f.Within requestTimeout started (s.now + 1) := by
  obtain ⟨tx, timeout, state⟩ := f
  cases state with
  | sending sending => exact ⟨h.1, Sending.Within.tick h.2 hparks hquiet⟩
  | receiving deadline =>
    obtain rfl : wakers = [.answer tx, .timer deadline] := hparks
    exact ⟨h.1, h.2.1, Nat.lt_of_not_le (ready_timer.1 (quiet_pair.1 hquiet).2)⟩

/-- A call that is parked is not late when the clock moves on by one. -/
theorem Future.Within.tick {f : Future T} (h : f.Within requestTimeout started s.now) (hparks : f.Parks wakers)
    (hquiet : s.Quiet wakers) : f.Within requestTimeout started (s.now + 1) := by
  cases f with
  | command f => exact ⟨h.1, Delivery.lt_of_parks hparks hquiet⟩
  | wait f => exact ⟨h.1, Delivery.lt_of_parks hparks hquiet⟩
  | http f =>
    obtain ⟨command, navigation⟩ := f
    cases command with
    | none => exact ⟨h.1, h.2.1, Delivery.lt_of_parks hparks hquiet⟩
    | some asked => exact ⟨h.1, h.2.1, Delivery.lt_of_parks hparks hquiet⟩
  | execute f =>
    obtain ⟨exchange, decode⟩ := f
    cases exchange with
    | error err => cases hparks
    | ok exchange => exact Exchange.Within.tick h hparks hquiet
  | ask f => exact Exchange.Within.tick h hparks hquiet
  | tell f => exact ⟨h.1, Sending.Within.tick h.2 hparks hquiet⟩

/-! ### A call is polled -/

theorem Sending.Within.poll {f : Sending} {tx : Sender} (h : f.Within requestTimeout started s.now) :
    ∀ g ∈ (f.poll requestTimeout tx s).future?, g.Within requestTimeout started s.now := by
  intro g hg
  cases f with
  | start msg =>
    simp only [Sending.poll] at hg
    split at hg
    · cases hg
    · cases hg
      exact ⟨congrArg (· + requestTimeout) h, Nat.le_add_right _ _⟩
    · cases hg
  | send msg queued deadline =>
    simp only [Sending.poll] at hg
    split at hg
    · cases hg
    · split at hg
      · cases hg
      · cases hg
        exact h
    · cases hg

theorem Exchange.Within.poll {f : Exchange} (h : f.Within requestTimeout started s.now) :
    ∀ g ∈ (f.poll s).future?, g.Within requestTimeout started s.now := by
  intro g hg
  obtain ⟨tx, timeout, state⟩ := f
  obtain ⟨rfl, hstate⟩ := h
  cases state with
  | sending sending =>
    have hnext : ∀ g ∈ (sending.poll timeout tx s).future?, g.Within timeout started s.now := Sending.Within.poll hstate
    simp only [Exchange.poll] at hg
    cases hpiece : sending.poll timeout tx s with
    | goesOn mailbox next =>
      rw [hpiece] at hg
      cases hg
      exact ⟨rfl, hnext next (by rw [hpiece]; rfl)⟩
    | pending mailbox next wakers =>
      rw [hpiece] at hg
      cases hg
      exact ⟨rfl, hnext next (by rw [hpiece]; rfl)⟩
    | ready mailbox result =>
      rw [hpiece] at hg
      cases result with
      | error err => cases hg
      | ok value =>
        cases hg
        exact ⟨rfl, add_le_two (Sending.Within.le hstate), Nat.le_add_right _ _⟩
  | receiving deadline =>
    simp only [Exchange.poll] at hg
    split at hg
    · cases hg
    · cases hg
    · split at hg
      · cases hg
      · cases hg
        exact ⟨rfl, hstate⟩

theorem Future.Within.poll {f : Future T} (h : f.Within requestTimeout started s.now) :
    ∀ g ∈ (f.poll s).future?, g.Within requestTimeout started s.now ∧ g.waits = f.waits := by
  intro g hg
  cases f with
  | command f =>
    obtain ⟨parcel, -, hfuture, -⟩ := f.poll_moves s
    rw [Future.poll, Piece.future?_map] at hg
    obtain ⟨next, hnext, rfl⟩ := Option.map_eq_some_iff.1 hg
    rw [hfuture next hnext]
    exact ⟨h, rfl⟩
  | wait f =>
    obtain ⟨parcel, -, hfuture⟩ := f.poll_moves s
    rw [Future.poll, Piece.future?_map] at hg
    obtain ⟨next, hnext, rfl⟩ := Option.map_eq_some_iff.1 hg
    rw [hfuture next hnext]
    exact ⟨h, rfl⟩
  | http f =>
    rw [Future.poll, Piece.future?_map] at hg
    obtain ⟨next, hnext, rfl⟩ := Option.map_eq_some_iff.1 hg
    refine ⟨?_, rfl⟩
    obtain ⟨command, navigation⟩ := f
    obtain ⟨rfl, hwithin⟩ := h
    cases HttpFuture.poll_next s _ next hnext with
    | command parcel hcommand =>
      cases hcommand
      exact ⟨rfl, hwithin⟩
    | navigates hcommand hearly hanswer hvalue =>
      cases hcommand
      obtain ⟨hdelay, hle⟩ := hwithin
      exact ⟨rfl, add_le_two (hdelay ▸ hle), Nat.le_add_right _ _⟩
    | navigation parcel hcommand =>
      cases hcommand
      exact ⟨rfl, hwithin⟩
  | execute f =>
    obtain ⟨exchange, decode⟩ := f
    rw [Future.poll, Piece.future?_map] at hg
    obtain ⟨next, hnext, rfl⟩ := Option.map_eq_some_iff.1 hg
    cases exchange with
    | error err => cases hnext
    | ok exchange =>
      rw [Execute.poll, Piece.future?_map] at hnext
      obtain ⟨left, hleft, rfl⟩ := Option.map_eq_some_iff.1 hnext
      exact ⟨Exchange.Within.poll h left hleft, rfl⟩
  | ask f =>
    rw [Future.poll, Piece.future?_map] at hg
    obtain ⟨next, hnext, rfl⟩ := Option.map_eq_some_iff.1 hg
    exact ⟨Exchange.Within.poll h next hnext, rfl⟩
  | tell f =>
    obtain ⟨tx, timeout, sending⟩ := f
    obtain ⟨rfl, hsending⟩ := h
    rw [Future.poll, Piece.future?_map] at hg
    obtain ⟨next, hnext, rfl⟩ := Option.map_eq_some_iff.1 hg
    rw [Tell.poll, Piece.future?_map] at hnext
    obtain ⟨left, hleft, rfl⟩ := Option.map_eq_some_iff.1 hnext
    exact ⟨⟨rfl, Sending.Within.poll hsending left hleft⟩, rfl⟩

theorem Future.Starts.within {id : Nat} {f : Future T} (h : f.Starts requestTimeout id now) :
    f.Within requestTimeout now now := by
  have hcommand : ∀ {cmd : Command T} {session : Option SessionId} {tx : Sender} {g : CommandFuture T},
      CommandFuture.new cmd tx session requestTimeout now = .ok g → g.delivery.Within requestTimeout now now := by
    intro cmd session tx g hnew
    rw [CommandFuture.new] at hnew
    split at hnew
    · cases hnew
    · cases hnew
      exact ⟨rfl, Nat.le_add_right _ _⟩
  cases h with
  | command hnew => exact hcommand hnew
  | wait msg => exact ⟨rfl, Nat.le_add_right _ _⟩
  | http hnew => exact ⟨rfl, hcommand hnew⟩
  | execute cmd session =>
    rw [Execute.new]
    cases cmd.params with
    | none => exact rfl
    | some params => exact ⟨rfl, rfl⟩
  | ask msg => exact ⟨rfl, rfl⟩
  | tell msg => exact ⟨rfl, rfl⟩

/-! ### Worlds -/

namespace World

variable {w w' : World T} {input : Input T} {id : Nat} {call : Call T}

/-- The clock moves on only when everything that was woken has been polled until it waits. -/
def Prompt (w : World T) : Input T → Prop
  | .tick => ∀ call ∈ w.calls, call.status ≠ .running
  | _ => True

def Punctual (requestTimeout : Duration) (w : World T) : Prop :=
  ∀ (id : Nat) (call : Call T), w.calls[id]? = some call → call.live = true →
    call.future.Within requestTimeout call.started w.now

theorem now_pollCall (w : World T) (id : Nat) (future : Future T) : (w.pollCall id future).now = w.now := by
  rw [World.pollCall]
  cases future.poll w.toScene with
  | goesOn mailbox future => rfl
  | pending mailbox future wakers => rfl
  | ready mailbox result => rfl

theorem Punctual.step (h : w.Punctual requestTimeout) (hparked : w.Parked) (hprompt : w.Prompt input) :
    (w.step requestTimeout input).Punctual requestTimeout := by
  intro id call hcall hlive
  have hacts := act_acts requestTimeout w input
  rw [get_step] at hcall
  obtain ⟨old, hold, rfl⟩ := Option.map_eq_some_iff.1 hcall
  rw [live_wake] at hlive
  rw [future_wake, started_wake]
  show old.future.Within requestTimeout old.started (w.act requestTimeout input).now
  generalize hafter : w.act requestTimeout input = after at hacts hold
  -- a call that was there before: the clock stands still, or it is parked
  have hbefore : w.calls[id]? = some old → old.future.Within requestTimeout old.started after.now := by
    intro hcalls
    have hwithin := h id old hcalls hlive
    cases hacts with
    | polled => exact (now_pollCall w _ _).symm ▸ hwithin
    | ticked =>
      have hstatus : ∃ wakers, old.status = .parked wakers := by
        have hrunning := hprompt old (List.mem_of_getElem? hcalls)
        rw [Call.live] at hlive
        cases hold : old.status with
        | running => exact absurd hold hrunning
        | parked wakers => exact ⟨wakers, rfl⟩
        | done result =>
          rw [hold] at hlive
          cases hlive
        | dropped =>
          rw [hold] at hlive
          cases hlive
      obtain ⟨wakers, hwakers⟩ := hstatus
      obtain ⟨hparks, hquiet⟩ := hparked id old wakers hcalls hwakers
      exact hwithin.tick hparks hquiet
    | _ => exact hwithin
  obtain hsame | ⟨future, -, rfl, hstarts, rfl⟩ | ⟨other, -, hother, hotherLive, rfl, rfl⟩ | ⟨other, -, -, -, rfl⟩ :=
    hacts.get hold
  · exact hbefore hsame
  · exact hstarts.within
  · rw [now_pollCall]
    have hwithin := h id other hother hotherLive
    cases hpiece : other.future.poll w.toScene with
    | goesOn mailbox future => exact (hwithin.poll future (by rw [hpiece]; rfl)).1
    | pending mailbox future wakers => exact (hwithin.poll future (by rw [hpiece]; rfl)).1
    | ready mailbox result =>
      rw [hpiece] at hlive
      cases hlive
  · cases hlive

/-- If the clock moves on only when all that was woken has been polled, a call that is still alive has not had more than its timeouts: one for a command future, a wait or a message alone, two for a navigation, for `execute` and for a question. -/
theorem no_call_outlives (capacity : Nat) (requestTimeout : Duration) (inputs : List (Input T))
    (hprompt : Run.Allowed (World.step requestTimeout) Prompt (start capacity : World T) inputs) :
    let w := Run.final (World.step requestTimeout) (start capacity : World T) inputs
    ∀ (id : Nat) (call : Call T), w.calls[id]? = some call → call.live = true →
      w.now ≤ call.started + call.future.waits * requestTimeout := by
  intro w id call hcall hlive
  have hkept : w.Sound ∧ w.Parked ∧ w.Punctual requestTimeout := by
    refine Run.invariant (fun w : World T => w.Sound ∧ w.Parked ∧ w.Punctual requestTimeout) ?_ ?_ hprompt
    · rintro w input ⟨hsound, hparked, hpunctual⟩ hinput
      exact ⟨hsound.step requestTimeout input, hparked.step hsound requestTimeout input, hpunctual.step hparked hinput⟩
    · exact ⟨sound_start capacity, parked_start capacity, fun id call hcall => by cases hcall⟩
  exact (hkept.2.2 id call hcall hlive).le

/-- The clock moves on twice while the only call waits for its answer. -/
theorem no_call_outlives_wait :
    let inputs : List (Input Unit) := [.wait (.waitForLoad ⟨0⟩), .poll 0, .poll 0, .tick, .tick]
    Run.Allowed (World.step 2) Prompt (start 1) inputs ∧
      let w := Run.final (World.step 2) (start 1) inputs
      ∀ (id : Nat) (call : Call Unit), w.calls[id]? = some call → call.live = true →
        w.now ≤ call.started + call.future.waits * 2 := by
  have hprompt : Run.Allowed (World.step 2) Prompt (start 1 : World Unit)
      [.wait (.waitForLoad ⟨0⟩), .poll 0, .poll 0, .tick, .tick] := by
    refine ⟨trivial, trivial, trivial, fun call hcall => ?_, fun call hcall => ?_, trivial⟩
    · obtain rfl := List.mem_singleton.1 hcall
      exact fun h => by cases h
    · obtain rfl := List.mem_singleton.1 hcall
      exact fun h => by cases h
  exact ⟨hprompt, no_call_outlives 1 2 _ hprompt⟩

end World

/-! ### No deadline is early -/

section Since

variable (requestTimeout : Duration) (started : Instant)

def Sending.Since : Sending → Prop
  | start _ => True
  | send _ _ deadline => started + requestTimeout ≤ deadline

def Exchange.Since (f : Exchange) : Prop :=
  f.requestTimeout = requestTimeout ∧
    match f.state with
    | .sending sending => sending.Since requestTimeout started
    | .receiving deadline => started + requestTimeout ≤ deadline

/-- The deadline that is set, if one is, leaves the call at least one timeout. -/
def Future.Since : Future T → Prop
  | command f => started + requestTimeout ≤ f.delivery.delay
  | wait f => started + requestTimeout ≤ f.delivery.delay
  | http f => f.navigation.requestTimeout = requestTimeout ∧
      (∀ asked ∈ f.command, started + requestTimeout ≤ asked.delivery.delay) ∧
      started + requestTimeout ≤ f.navigation.delivery.delay
  | execute ⟨.ok exchange, _⟩ => exchange.Since requestTimeout started
  | execute ⟨.error err, _⟩ => err = .cdp .serde
  | ask f => f.Since requestTimeout started
  | tell f => f.requestTimeout = requestTimeout ∧ f.sending.Since requestTimeout started

end Since

theorem Future.Starts.since {id : Nat} {f : Future T} (h : f.Starts requestTimeout id now) :
    f.Since requestTimeout now := by
  have hcommand : ∀ {cmd : Command T} {session : Option SessionId} {tx : Sender} {g : CommandFuture T},
      CommandFuture.new cmd tx session requestTimeout now = .ok g → now + requestTimeout ≤ g.delivery.delay := by
    intro cmd session tx g hnew
    rw [CommandFuture.new] at hnew
    split at hnew
    · cases hnew
    · cases hnew
      exact Nat.le_refl _
  cases h with
  | command hnew => exact hcommand hnew
  | wait msg => exact Nat.le_refl _
  | http hnew =>
    refine ⟨rfl, fun asked hasked => ?_, Nat.le_refl _⟩
    cases hasked
    exact hcommand hnew
  | execute cmd session =>
    rw [Execute.new]
    cases cmd.params with
    | none => exact rfl
    | some params => exact ⟨rfl, trivial⟩
  | ask msg => exact ⟨rfl, trivial⟩
  | tell msg => exact ⟨rfl, trivial⟩

theorem Sending.Since.poll {f : Sending} {tx : Sender} (h : f.Since requestTimeout started) (hstarted : started ≤ s.now) :
    ∀ g ∈ (f.poll requestTimeout tx s).future?, g.Since requestTimeout started := by
  intro g hg
  cases f with
  | start msg =>
    simp only [Sending.poll] at hg
    split at hg
    · cases hg
    · cases hg
      exact Nat.add_le_add_right hstarted _
    · cases hg
  | send msg queued deadline =>
    simp only [Sending.poll] at hg
    split at hg
    · cases hg
    · split at hg
      · cases hg
      · cases hg
        exact h
    · cases hg

theorem Exchange.Since.poll {f : Exchange} (h : f.Since requestTimeout started) (hstarted : started ≤ s.now) :
    ∀ g ∈ (f.poll s).future?, g.Since requestTimeout started := by
  intro g hg
  obtain ⟨tx, timeout, state⟩ := f
  obtain ⟨rfl, hstate⟩ := h
  cases state with
  | sending sending =>
    have hnext : ∀ g ∈ (sending.poll timeout tx s).future?, g.Since timeout started :=
      Sending.Since.poll hstate hstarted
    simp only [Exchange.poll] at hg
    cases hpiece : sending.poll timeout tx s with
    | goesOn mailbox next =>
      rw [hpiece] at hg
      cases hg
      exact ⟨rfl, hnext next (by rw [hpiece]; rfl)⟩
    | pending mailbox next wakers =>
      rw [hpiece] at hg
      cases hg
      exact ⟨rfl, hnext next (by rw [hpiece]; rfl)⟩
    | ready mailbox result =>
      rw [hpiece] at hg
      cases result with
      | error err => cases hg
      | ok value =>
        cases hg
        exact ⟨rfl, Nat.add_le_add_right hstarted _⟩
  | receiving deadline =>
    simp only [Exchange.poll] at hg
    split at hg
    · cases hg
    · cases hg
    · split at hg
      · cases hg
      · cases hg
        exact ⟨rfl, hstate⟩

theorem Future.Since.poll {f : Future T} (h : f.Since requestTimeout started) (hstarted : started ≤ s.now) :
    ∀ g ∈ (f.poll s).future?, g.Since requestTimeout started := by
  intro g hg
  cases f with
  | command f =>
    obtain ⟨parcel, -, hfuture, -⟩ := f.poll_moves s
    rw [Future.poll, Piece.future?_map] at hg
    obtain ⟨next, hnext, rfl⟩ := Option.map_eq_some_iff.1 hg
    rw [hfuture next hnext]
    exact h
  | wait f =>
    obtain ⟨parcel, -, hfuture⟩ := f.poll_moves s
    rw [Future.poll, Piece.future?_map] at hg
    obtain ⟨next, hnext, rfl⟩ := Option.map_eq_some_iff.1 hg
    rw [hfuture next hnext]
    exact h
  | http f =>
    rw [Future.poll, Piece.future?_map] at hg
    obtain ⟨next, hnext, rfl⟩ := Option.map_eq_some_iff.1 hg
    obtain ⟨rfl, hcommands, hnavigation⟩ := h
    cases f.poll_next s next hnext with
    | command parcel hcommand =>
      refine ⟨rfl, fun asked hasked => ?_, hnavigation⟩
      cases hasked
      have hold := hcommands _ hcommand
      exact hold
    | navigates => exact ⟨rfl, fun _ hasked => (by cases hasked), Nat.add_le_add_right hstarted _⟩
    | navigation parcel hcommand => exact ⟨rfl, hcommands, hnavigation⟩
  | execute f =>
    obtain ⟨exchange, decode⟩ := f
    rw [Future.poll, Piece.future?_map] at hg
    obtain ⟨next, hnext, rfl⟩ := Option.map_eq_some_iff.1 hg
    cases exchange with
    | error err => cases hnext
    | ok exchange =>
      rw [Execute.poll, Piece.future?_map] at hnext
      obtain ⟨left, hleft, rfl⟩ := Option.map_eq_some_iff.1 hnext
      exact Exchange.Since.poll h hstarted left hleft
  | ask f =>
    rw [Future.poll, Piece.future?_map] at hg
    obtain ⟨next, hnext, rfl⟩ := Option.map_eq_some_iff.1 hg
    exact Exchange.Since.poll h hstarted next hnext
  | tell f =>
    obtain ⟨tx, timeout, sending⟩ := f
    obtain ⟨rfl, hsending⟩ := h
    rw [Future.poll, Piece.future?_map] at hg
    obtain ⟨next, hnext, rfl⟩ := Option.map_eq_some_iff.1 hg
    rw [Tell.poll, Piece.future?_map] at hnext
    obtain ⟨left, hleft, rfl⟩ := Option.map_eq_some_iff.1 hnext
    exact ⟨rfl, Sending.Since.poll hsending hstarted left hleft⟩

/-- A deadline that has passed has left its call one timeout. -/
theorem Future.Since.le_of_overdue {f : Future T} (h : f.Since requestTimeout started) (hlate : f.Overdue s) :
    started + requestTimeout ≤ s.now := by
  have hsending : ∀ {sending : Sending}, sending.Since requestTimeout started → sending.Overdue s →
      started + requestTimeout ≤ s.now := by
    intro sending hsince hlate
    cases sending with
    | start msg => cases hlate
    | send msg queued deadline => exact Nat.le_trans hsince hlate
  have hexchange : ∀ {exchange : Exchange}, exchange.Since requestTimeout started → exchange.Overdue s →
      started + requestTimeout ≤ s.now := by
    intro exchange hsince hlate
    obtain ⟨tx, timeout, state⟩ := exchange
    cases state with
    | sending sending => exact hsending hsince.2 hlate
    | receiving deadline => exact Nat.le_trans hsince.2 hlate
  cases f with
  | command f => exact Nat.le_trans h hlate
  | wait f => exact Nat.le_trans h hlate
  | http f =>
    obtain ⟨command, navigation⟩ := f
    cases command with
    | none => exact Nat.le_trans h.2.2 hlate
    | some asked => exact Nat.le_trans (h.2.1 asked rfl) hlate
  | execute f =>
    obtain ⟨exchange, decode⟩ := f
    cases exchange with
    | error err => cases hlate
    | ok exchange => exact hexchange h hlate
  | ask f => exact hexchange h hlate
  | tell f => exact hsending h.2 hlate

namespace World

/-- In every run, a call that has timed out was given one timeout at least, unless the handler answered its message with a timeout. -/
theorem timeout_not_early (capacity : Nat) (requestTimeout : Duration) (inputs : List (Input T)) :
    let w := Run.final (World.step requestTimeout) (start capacity : World T) inputs
    ∀ (id : Nat) (call : Call T), w.calls[id]? = some call → call.status = .done (.error (.cdp .timeout)) →
      call.started + requestTimeout ≤ w.now ∨
        ∃ tx reply, call.future.awaits = some tx ∧ w.answers tx = .sent reply ∧
          call.future.Reads reply (.error (.cdp .timeout)) := by
  intro w id call hcall hdone
  have hkept : ∀ (id : Nat) (call : Call T), w.calls[id]? = some call →
      call.started ≤ w.now ∧ call.future.Since requestTimeout call.started := by
    refine Run.invariant_of_step (fun w : World T => ∀ (id : Nat) (call : Call T), w.calls[id]? = some call →
      call.started ≤ w.now ∧ call.future.Since requestTimeout call.started) ?_ (fun id call hcall => by cases hcall) inputs
    intro w input h
    refine future_step (fun w _ started f => started ≤ w.now ∧ f.Since requestTimeout started) ?_ ?_ ?_ h input
    · rintro w w' id started f ⟨hstarted, hsince⟩ hlater
      exact ⟨Nat.le_trans hstarted hlater.now, hsince⟩
    · intro w id f hstarts
      exact ⟨Nat.le_refl _, hstarts.since⟩
    · rintro w id started f g ⟨hstarted, hsince⟩ hg
      exact ⟨hstarted, hsince.poll hstarted g hg⟩
  have hsince := (hkept id call hcall).2
  cases (explained_final capacity requestTimeout inputs).2.2 id call _ hcall hdone with
  | timeout hlate => exact Or.inl (hsince.le_of_overdue hlate)
  | serde hfuture herror =>
    -- the message could not be built, which is another error
    rename_i g
    obtain ⟨exchange, decode⟩ := g
    obtain rfl : exchange = .error (.cdp .timeout) := herror
    rw [hfuture] at hsince
    cases hsince
  | answered htx hanswer hreads => exact Or.inr ⟨_, _, htx, hanswer, hreads⟩

/-- The channel is full for as long as the wait has time. -/
theorem timeout_not_early_full :
    let w := Run.final (World.step 2) (start 1 : World Unit)
      [.tell (.blockNetwork true), .wait (.waitForLoad ⟨0⟩), .poll 0, .poll 1, .poll 1, .tick, .tick, .poll 1]
    ∃ call, w.calls[1]? = some call ∧ call.status = .done (.error (.cdp .timeout)) ∧
      (call.started + 2 ≤ w.now ∨ ∃ tx reply, call.future.awaits = some tx ∧ w.answers tx = .sent reply ∧
        call.future.Reads reply (.error (.cdp .timeout))) :=
  ⟨_, rfl, rfl, timeout_not_early 1 2 _ 1 _ rfl rfl⟩

end World

end Futures

end SpiderChrome
