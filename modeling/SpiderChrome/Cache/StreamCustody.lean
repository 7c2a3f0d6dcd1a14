import SpiderChrome.Cache.Streams

/-!
# Who closes a body stream

In every state each stream that the browser has opened is in exactly one hand: that of a future that is alive, that of a cleanup task, that of the `IO.close` that was sent, or nobody's. The same is counted for the temporary files, of which the worker never removes one that is still written to.
-/

namespace SpiderChrome

namespace BodyStream

/-! ### Handles in a stream and in the effects of a step -/

/-- The guard has the handle, or the command that closes has it. -/
def Stage.holds (handle : StreamHandle) : Stage → Nat
  | opened h _ | closing h _ => if h = handle then 1 else 0
  | _ => 0

/-- The effect gives the handle to another hand. -/
def Effect.hands (handle : StreamHandle) : Effect → Nat
  | submit (.closeCdpStream h) | close h | abandon h => if h = handle then 1 else 0
  | _ => 0

def Effect.opens (effect : Effect) : Nat := if effect = .openStream then 1 else 0

/-- Something that the effects of a step add up to. -/
def tally (weight : Effect → Nat) (effects : List Effect) : Nat := (effects.map weight).sum

@[simp] theorem tally_nil (weight : Effect → Nat) : tally weight [] = 0 := rfl

@[simp] theorem tally_cons (weight : Effect → Nat) (effect : Effect) (effects : List Effect) :
    tally weight (effect :: effects) = weight effect + tally weight effects := by
  rw [tally, tally, List.map_cons, List.sum_cons]

@[simp] theorem tally_append (weight : Effect → Nat) (effects more : List Effect) :
    tally weight (effects ++ more) = tally weight effects + tally weight more := by
  rw [tally, tally, tally, List.map_append, List.sum_append]

theorem tally_eq_zero {weight : Effect → Nat} {effects : List Effect} (h : ∀ effect ∈ effects, weight effect = 0) :
    tally weight effects = 0 := by
  induction effects with
  | nil => rfl
  | cons effect rest ih =>
    rw [tally_cons, h effect List.mem_cons_self, ih fun effect heffect => h effect (List.mem_cons_of_mem _ heffect)]

variable {effects : List Effect}

/-- Effects that have to do with files only. -/
def Quiet (effects : List Effect) : Prop := ∀ effect ∈ effects, effect.opens = 0 ∧ ∀ handle, effect.hands handle = 0

theorem Quiet.eq (h : Quiet effects) (handle : StreamHandle) : tally (Effect.hands handle) effects = 0 ∧ tally Effect.opens effects = 0 :=
  ⟨tally_eq_zero fun effect heffect => (h effect heffect).2 handle, tally_eq_zero fun effect heffect => (h effect heffect).1⟩

theorem quiet_sink_dropped (sink : Sink) : Quiet sink.dropped := by
  intro effect heffect
  cases sink with
  | disk file path =>
    obtain rfl := List.mem_singleton.1 heffect
    exact ⟨rfl, fun _ => rfl⟩
  | memory buf => cases heffect

theorem quiet_unlink (removed : Bool) (path : TempFile) : Quiet [unlink removed path] := by
  intro effect heffect
  obtain rfl := List.mem_singleton.1 heffect
  cases removed with
  | false => exact ⟨rfl, fun _ => rfl⟩
  | true => exact ⟨rfl, fun _ => rfl⟩

theorem quiet_phase_dropped (landed : Bool) (phase : Phase) : Quiet (phase.dropped landed) := by
  have hlate : ∀ path, Quiet (droppedLate landed path) := by
    intro path effect heffect
    cases landed with
    | false =>
      obtain rfl := List.mem_singleton.1 heffect
      exact ⟨rfl, fun _ => rfl⟩
    | true =>
      obtain rfl | hrest := List.mem_cons.1 heffect
      · exact ⟨rfl, fun _ => rfl⟩
      · obtain rfl := List.mem_singleton.1 hrest
        exact ⟨rfl, fun _ => rfl⟩
  cases phase with
  | makingDir =>
    intro effect heffect
    cases heffect
  | creating path =>
    intro effect heffect
    cases landed with
    | false => cases heffect
    | true =>
      obtain rfl | hrest := List.mem_cons.1 heffect
      · exact ⟨rfl, fun _ => rfl⟩
      · obtain rfl := List.mem_singleton.1 hrest
        exact ⟨rfl, fun _ => rfl⟩
  | reading sink total => exact quiet_sink_dropped sink
  | writing file path total data eof => exact hlate path
  | finishing file path => exact hlate path

/-! ### One step of a stream -/

/-- Handles go from hand to hand; at most one is new, and that is the next free one. -/
def Passes (fresh : StreamHandle) (before : Stage) (after : Stream × List Effect) : Prop :=
  tally Effect.opens after.2 ≤ 1 ∧
    ∀ handle, after.1.stage.holds handle + tally (Effect.hands handle) after.2 =
      before.holds handle + if handle = fresh then tally Effect.opens after.2 else 0

section Passes

variable {fresh : StreamHandle} {before : Stage} {stream : Stream} {sink : Sink} {total : Nat}

theorem passes_of_quiet (hquiet : Quiet effects) (hholds : ∀ handle, stream.stage.holds handle = before.holds handle) :
    Passes fresh before (stream, effects) := by
  refine ⟨?_, fun handle => ?_⟩
  · rw [(hquiet.eq fresh).2]
    exact Nat.zero_le 1
  · rw [(hquiet.eq handle).1, (hquiet.eq handle).2, hholds, ite_self]

theorem quiet_read (handle : StreamHandle) : Quiet [.read handle] := by
  intro effect heffect
  obtain rfl := List.mem_singleton.1 heffect
  exact ⟨rfl, fun _ => rfl⟩

theorem quiet_nil : Quiet [] := fun _ heffect => absurd heffect List.not_mem_nil

theorem Quiet.append {more : List Effect} (h : Quiet effects) (hmore : Quiet more) : Quiet (effects ++ more) := by
  intro effect heffect
  obtain hleft | hright := List.mem_append.1 heffect
  · exact h effect hleft
  · exact hmore effect hright

/-- A turn of the loop keeps the handle. -/
theorem turn_keeps (stream : Stream) (handle : StreamHandle) (sink : Sink) (total : Nat) (eof : Bool) :
    Quiet (stream.turn handle sink total eof).2 ∧
      ∃ phase result, (stream.turn handle sink total eof).1.stage = .opened handle phase ∨
        (stream.turn handle sink total eof).1.stage = .closing handle result := by
  unfold Stream.turn
  split
  · cases sink with
    | disk file path => exact ⟨quiet_nil, _, .ok [], Or.inl rfl⟩
    | memory buf => exact ⟨quiet_nil, .makingDir, _, Or.inr rfl⟩
  · exact ⟨quiet_read handle, _, .ok [], Or.inl rfl⟩

theorem holds_of_keeps {stage : Stage} {handle : StreamHandle} {phase : Phase}
    (h : ∃ phase result, stage = .opened handle phase ∨ stage = .closing handle result) (handle' : StreamHandle) :
    stage.holds handle' = (Stage.opened handle phase).holds handle' := by
  obtain ⟨phase', result, rfl | rfl⟩ := h
  · rfl
  · rfl

theorem onChunk_keeps (decodeBase64 : String → Option (List UInt8)) (stream : Stream) (handle : StreamHandle)
    (sink : Sink) (total : Nat) (chunk : Chunk) :
    Quiet (stream.onChunk decodeBase64 handle sink total chunk).2 ∧
      ∃ phase result, (stream.onChunk decodeBase64 handle sink total chunk).1.stage = .opened handle phase ∨
        (stream.onChunk decodeBase64 handle sink total chunk).1.stage = .closing handle result := by
  unfold Stream.onChunk
  split
  · exact ⟨quiet_sink_dropped sink, .makingDir, _, Or.inr rfl⟩
  · dsimp only
    split
    · exact ⟨quiet_sink_dropped sink, .makingDir, _, Or.inr rfl⟩
    · cases sink with
      | disk file path => exact ⟨quiet_nil, _, .ok [], Or.inl rfl⟩
      | memory buf => exact turn_keeps ..

theorem next_passes (cacheStreamDisk : Bool) (decodeBase64 : String → Option (List UInt8)) (fresh : StreamHandle)
    (path : TempFile) (stream : Stream) (event : Event) :
    Passes fresh stream.stage (stream.next cacheStreamDisk decodeBase64 fresh path event) := by
  unfold Stream.next
  split
  · rename_i hstage
    rw [hstage]
    split
    · exact ⟨by simp [Effect.opens], fun handle => by simp [Stage.holds, Effect.hands, Effect.opens, eq_comm]⟩
    · exact ⟨by simp [Stream.begin, Effect.opens], fun handle => by simp [Stream.begin, Stage.holds, Effect.hands, Effect.opens, eq_comm]⟩
  · rename_i err landed hstage
    rw [hstage]
    cases landed with
    | false => exact passes_of_quiet quiet_nil fun _ => rfl
    | true => exact ⟨by simp [Effect.opens], fun handle => by simp [Stage.holds, Effect.hands, Effect.opens, eq_comm]⟩
  · rename_i landed hstage
    rw [hstage]
    cases landed with
    | false => exact passes_of_quiet quiet_nil fun _ => rfl
    | true => exact ⟨by simp [Effect.opens], fun handle => by simp [Stage.holds, Effect.hands, Effect.opens, eq_comm]⟩
  · rename_i handle ok hstage
    rw [hstage]
    cases ok with
    | false => exact passes_of_quiet (quiet_read handle) fun _ => rfl
    | true => exact ⟨by simp [Effect.opens], fun handle => by simp [Stage.holds, Effect.hands, Effect.opens]⟩
  · rename_i handle path ok hstage
    rw [hstage]
    cases ok with
    | false => exact passes_of_quiet (quiet_read handle) fun _ => rfl
    | true => exact ⟨by simp [Stream.begin, Effect.opens], fun handle => by simp [Stream.begin, Stage.holds, Effect.hands, Effect.opens]⟩
  · rename_i handle sink total chunk hstage
    rw [hstage]
    obtain ⟨hquiet, hkeeps⟩ := onChunk_keeps decodeBase64 (stream.heard chunk) handle sink total chunk
    exact passes_of_quiet hquiet (holds_of_keeps hkeeps)
  · rename_i handle sink total err hstage
    rw [hstage]
    exact passes_of_quiet (quiet_sink_dropped sink) fun _ => rfl
  · rename_i handle file path total data eof io removed hstage
    rw [hstage]
    obtain ⟨hquiet, hkeeps⟩ := turn_keeps (stream.wrote data io) handle ((Sink.disk file path).writeChunk data io) total eof
    refine passes_of_quiet (Quiet.append ?_ hquiet) (holds_of_keeps hkeeps)
    split
    · exact quiet_nil
    · exact quiet_unlink removed path
  · rename_i handle file path io removed hstage
    rw [hstage]
    exact passes_of_quiet (quiet_unlink removed path) fun _ => rfl
  · rename_i handle phase landed hstage
    rw [hstage]
    have hquiet := (quiet_phase_dropped landed phase).eq
    refine ⟨?_, fun handle' => ?_⟩
    · simp [Effect.opens, (hquiet handle).2]
    · simp [Stage.holds, Effect.hands, Effect.opens, (hquiet handle').1, (hquiet handle').2]
  · rename_i handle result delivered hstage
    rw [hstage]
    cases delivered with
    | false => exact ⟨by simp [Effect.opens], fun handle => by simp [Stage.holds, Effect.hands, Effect.opens]⟩
    | true => exact ⟨by simp [Effect.opens], fun handle => by simp [Stage.holds, Effect.hands, Effect.opens]⟩
  · rename_i handle result landed hstage
    rw [hstage]
    exact ⟨by simp [Effect.opens], fun handle => by simp [Stage.holds, Effect.hands, Effect.opens]⟩
  · exact passes_of_quiet quiet_nil fun _ => rfl

end Passes

/-! ### The commands of a step -/

def Effect.command? : Effect → Option StreamCommand
  | read handle => some (.read handle)
  | close handle => some (.close handle)
  | _ => none

/-- A step sends a command at most: it reads from a stream that it then holds, or closes one. -/
def SendsOne (after : Stream × List Effect) : Prop :=
  after.2.filterMap Effect.command? = [] ∨
    ∃ handle, after.2.filterMap Effect.command? = [.read handle] ∧ after.1.stage.holds handle = 1 ∨
      after.2.filterMap Effect.command? = [.close handle]

theorem command_sink_dropped (sink : Sink) : sink.dropped.filterMap Effect.command? = [] := by
  cases sink with
  | disk file path => rfl
  | memory buf => rfl

theorem command_phase_dropped (landed : Bool) (phase : Phase) :
    (phase.dropped landed).filterMap Effect.command? = [] := by
  cases phase with
  | makingDir => rfl
  | creating path =>
    cases landed with
    | false => rfl
    | true => rfl
  | reading sink total => exact command_sink_dropped sink
  | writing file path total data eof =>
    cases landed with
    | false => rfl
    | true => rfl
  | finishing file path =>
    cases landed with
    | false => rfl
    | true => rfl

theorem command_unlink (removed : Bool) (path : TempFile) : (unlink removed path).command? = none := by
  cases removed with
  | false => rfl
  | true => rfl

theorem holds_opened (handle : StreamHandle) (phase : Phase) : (Stage.opened handle phase).holds handle = 1 :=
  if_pos rfl

theorem turn_sendsOne (stream : Stream) (handle : StreamHandle) (sink : Sink) (total : Nat) (eof : Bool) :
    SendsOne (stream.turn handle sink total eof) := by
  unfold Stream.turn
  split
  · cases sink with
    | disk file path => exact Or.inl rfl
    | memory buf => exact Or.inl rfl
  · exact Or.inr ⟨handle, Or.inl ⟨rfl, holds_opened _ _⟩⟩

theorem next_sendsOne (cacheStreamDisk : Bool) (decodeBase64 : String → Option (List UInt8)) (fresh : StreamHandle)
    (path : TempFile) (stream : Stream) (event : Event) :
    SendsOne (stream.next cacheStreamDisk decodeBase64 fresh path event) := by
  have hread : ∀ (stream : Stream) (handle : StreamHandle) (sink : Sink), SendsOne (stream.begin handle sink) :=
    fun stream handle sink => Or.inr ⟨handle, Or.inl ⟨rfl, holds_opened _ _⟩⟩
  unfold Stream.next
  split
  · split
    · exact Or.inl rfl
    · exact Or.inr ⟨fresh, Or.inl ⟨rfl, holds_opened _ _⟩⟩
  · rename_i err landed hstage
    cases landed with
    | false => exact Or.inl rfl
    | true => exact Or.inl rfl
  · rename_i landed hstage
    cases landed with
    | false => exact Or.inl rfl
    | true => exact Or.inl rfl
  · split
    · exact Or.inl rfl
    · exact hread ..
  · split
    · exact Or.inr ⟨_, Or.inl ⟨rfl, holds_opened _ _⟩⟩
    · exact hread ..
  · unfold Stream.onChunk
    split
    · exact Or.inl (command_sink_dropped _)
    · dsimp only
      split
      · exact Or.inl (command_sink_dropped _)
      · split
        · exact Or.inl rfl
        · exact turn_sendsOne ..
  · exact Or.inl (command_sink_dropped _)
  · rename_i handle file path total data eof io removed hstage
    have hturn := turn_sendsOne (stream.wrote data io) handle ((Sink.disk file path).writeChunk data io) total eof
    simp only [SendsOne, List.filterMap_append] at hturn ⊢
    have hnone : (if io.write.isOk then [] else [unlink removed path]).filterMap Effect.command? = [] := by
      split
      · rfl
      · rw [List.filterMap_cons, command_unlink, List.filterMap_nil]
    rw [hnone, List.nil_append]
    exact hturn
  · rename_i handle file path io removed hstage
    refine Or.inl ?_
    rw [List.filterMap_cons, command_unlink, List.filterMap_nil]
  · rename_i handle phase landed hstage
    refine Or.inl ?_
    rw [List.filterMap_append, command_phase_dropped]
    rfl
  · rename_i handle result delivered hstage
    cases delivered with
    | false => exact Or.inl rfl
    | true => exact Or.inr ⟨handle, Or.inr rfl⟩
  · exact Or.inl rfl
  · exact Or.inl rfl

/-! ### Worlds -/

namespace World

/-- How many hands have a handle. -/
def custody (w : World) (handle : StreamHandle) : Nat :=
  (w.streams.map fun stream => stream.stage.holds handle).sum + w.worker.pending (· = .closeCdpStream handle) +
    w.commands.count (.close handle) + w.abandoned.count handle

variable {w : World}

theorem custody_apply (handle : StreamHandle) {effect : Effect}
    (hready : w.worker.ready = true ∨ effect.hands handle = 0) :
    (w.apply effect).custody handle = w.custody handle + effect.hands handle := by
  cases effect with
  | submit task =>
    obtain hready | hnone := hready
    · simp only [custody, apply, Dispatcher.pending_submit _ task hready]
      cases task with
      | removeFile path => simp [Effect.hands]
      | closeCdpStream h =>
        simp only [Effect.hands, CleanupTask.closeCdpStream.injEq, decide_eq_true_eq]
        omega
    · have hother : (decide (task = .closeCdpStream handle)) = false := by
        refine decide_eq_false fun heq => ?_
        rw [heq, Effect.hands, if_pos rfl] at hnone
        cases hnone
      by_cases hready : w.worker.ready = true
      · simp only [custody, apply, Dispatcher.pending_submit _ task hready, hother, hnone]
        simp only [Bool.false_eq_true, if_false, Nat.add_zero]
      · rw [hnone, Nat.add_zero, apply, Dispatcher.submit, if_neg hready]
  | close h =>
    simp only [custody, apply, List.count_append, List.count_singleton, Effect.hands, beq_iff_eq,
      StreamCommand.close.injEq]
    omega
  | read h => simp [custody, apply, Effect.hands]
  | abandon h =>
    simp only [custody, apply, List.count_append, List.count_singleton, Effect.hands, beq_iff_eq]
    omega
  | _ => rfl

theorem ready_apply (w : World) (effect : Effect) : (w.apply effect).worker.ready = w.worker.ready := by
  cases effect with
  | submit task =>
    simp only [apply, Dispatcher.submit]
    split
    · rfl
    · rfl
  | _ => rfl

/-- What a list of effects does to a world in which the worker has been started. -/
theorem applyAll_spec (w : World) (hready : w.worker.ready = true) (effects : List Effect) :
    (∀ handle, (w.applyAll effects).custody handle = w.custody handle + tally (Effect.hands handle) effects) ∧
      (w.applyAll effects).nextHandle = w.nextHandle + tally Effect.opens effects ∧
      (w.applyAll effects).commands = w.commands ++ effects.filterMap Effect.command? ∧
      (w.applyAll effects).streams = w.streams ∧ (w.applyAll effects).worker.ready = true ∧
      (w.applyAll effects).inflightStreams = w.inflightStreams := by
  induction effects generalizing w with
  | nil => simp [applyAll, hready]
  | cons effect rest ih =>
    obtain ⟨hcustody, hnext, hcommands, hstreams, hstill, hinflight⟩ :=
      ih (w.apply effect) ((ready_apply w effect).trans hready)
    have hfold : w.applyAll (effect :: rest) = (w.apply effect).applyAll rest := rfl
    rw [hfold, hnext, hcommands, hstreams, hinflight]
    refine ⟨fun handle => ?_, ?_, ?_, ?_, hstill, ?_⟩
    · rw [hcustody, custody_apply handle (Or.inl hready), tally_cons, Nat.add_assoc]
    · rw [tally_cons]
      cases effect with
      | openStream =>
        simp only [apply, Effect.opens, if_true]
        omega
      | _ => simp [apply, Effect.opens]
    · cases effect with
      | read handle => simp [apply, Effect.command?]
      | close handle => simp [apply, Effect.command?]
      | _ => rfl
    · cases effect with
      | _ => rfl
    · cases effect with
      | _ => rfl

theorem sound_applyAll {w : World} (h : w.worker.Sound BgCleanup.dispatchBatch) (effects : List Effect) :
    (w.applyAll effects).worker.Sound BgCleanup.dispatchBatch := by
  induction effects generalizing w with
  | nil => exact h
  | cons effect rest ih =>
    refine ih (w := w.apply effect) ?_
    cases effect with
    | submit task => exact h.step (.submit task)
    | _ => exact h

/-- Nothing is said to a stream that was told to close. -/
def Ordered (commands : List StreamCommand) : Prop :=
  commands.Pairwise fun earlier later => ∀ handle, earlier = .close handle → later.handle ≠ handle

/-- Each stream that was opened is in one hand, and nothing is said to it after it was closed. -/
structure InHand (w : World) : Prop where
  ready : w.streams ≠ [] → w.worker.ready = true
  worker : w.worker.Sound BgCleanup.dispatchBatch
  custody : ∀ handle, w.custody handle = if handle.id < w.nextHandle then 1 else 0
  ordered : Ordered w.commands
  inflight : w.inflightStreams = w.streams.countP fun stream => stream.stage.live

theorem InHand.le_one (h : w.InHand) (handle : StreamHandle) : w.custody handle ≤ 1 := by
  rw [h.custody]
  split
  · exact Nat.le_refl 1
  · exact Nat.zero_le 1

theorem ordered_append {commands : List StreamCommand} (h : Ordered commands) {command : StreamCommand}
    (hnone : commands.count (.close command.handle) = 0) : Ordered (commands ++ [command]) := by
  refine List.pairwise_append.2 ⟨h, List.pairwise_singleton _ _, ?_⟩
  intro earlier hearlier later hlater handle hclose heq
  obtain rfl := List.mem_singleton.1 hlater
  subst hclose heq
  exact absurd hearlier (List.count_eq_zero.1 hnone)

theorem inHand_init (cacheStreamDisk : Bool) (decodeBase64 : String → Option (List UInt8)) :
    (init cacheStreamDisk decodeBase64).InHand where
  ready := fun h => absurd rfl h
  worker := Dispatcher.sound_empty _
  custody := fun _ => rfl
  ordered := List.Pairwise.nil
  inflight := rfl

/-- A step of a stream. -/
theorem InHand.event (h : w.InHand) {id : Nat} {stream : Stream} (hstream : w.streams[id]? = some stream)
    (hlive : stream.stage.live = true) (event : Event) : (w.step (.event id event)).InHand := by
  have hready : w.worker.ready = true := h.ready fun hnil => by
    rw [hnil] at hstream
    cases hstream
  obtain ⟨hopens, hpasses⟩ :=
    next_passes w.cacheStreamDisk w.decodeBase64 ⟨w.nextHandle⟩ (.stream w.streamFileSeq) stream event
  have hsends := next_sendsOne w.cacheStreamDisk w.decodeBase64 ⟨w.nextHandle⟩ (.stream w.streamFileSeq) stream event
  simp only [step, hstream, hlive, if_true]
  generalize stream.next w.cacheStreamDisk w.decodeBase64 ⟨w.nextHandle⟩ (.stream w.streamFileSeq) event = after
    at hopens hpasses hsends ⊢
  obtain ⟨stream', effects⟩ := after
  simp only at hopens hpasses hsends ⊢
  generalize hmoved : ({ w with
    inflightStreams := if stream'.stage.live then w.inflightStreams else w.inflightStreams - 1
    streams := w.streams.modify id fun _ => stream' } : World) = moved
  have hstreams : moved.streams = w.streams.modify id fun _ => stream' := by
    rw [← hmoved]
  have hsame : moved.worker = w.worker ∧ moved.nextHandle = w.nextHandle ∧ moved.commands = w.commands ∧
      moved.abandoned = w.abandoned := by
    rw [← hmoved]
    exact ⟨rfl, rfl, rfl, rfl⟩
  obtain ⟨hworker, hnext, hcommands, habandoned⟩ := hsame
  obtain ⟨hcustody, hnext', hcommands', hstreams', hready', hinflight'⟩ :=
    applyAll_spec moved (hworker ▸ hready) effects
  have hall : ∀ handle, (moved.applyAll effects).custody handle =
      if handle.id < (moved.applyAll effects).nextHandle then 1 else 0 := by
    intro handle
    have hbefore := h.custody handle
    have hsum := Dispatcher.sum_map_modify (fun stream : Stream => stream.stage.holds handle) hstream fun _ => stream'
    have hthis := hpasses handle
    have hid : handle = ⟨w.nextHandle⟩ ↔ handle.id = w.nextHandle := by
      cases handle
      rw [StreamHandle.mk.injEq]
    rw [hcustody, hnext', hnext]
    simp only [World.custody, hstreams, hworker, hcommands, habandoned] at hbefore ⊢
    simp only [hid] at hthis
    split at hthis
    · split at hbefore
      · omega
      · split
        · omega
        · omega
    · split at hbefore
      · split
        · omega
        · omega
      · split
        · omega
        · omega
  refine ⟨fun _ => hready', sound_applyAll (hworker.symm ▸ h.worker) effects, hall, ?_, ?_⟩
  · rw [hcommands', hcommands]
    have hle : ∀ handle, (moved.applyAll effects).custody handle ≤ 1 := by
      intro handle
      rw [hall]
      split
      · exact Nat.le_refl 1
      · exact Nat.zero_le 1
    obtain hnone | ⟨handle, ⟨hread, hholds⟩ | hclose⟩ := hsends
    · rw [hnone, List.append_nil]
      exact h.ordered
    · have hone := hle handle
      have hheld : stream'.stage.holds handle = 1 := hholds
      have hmember := Dispatcher.le_sum_map (fun stream : Stream => stream.stage.holds handle)
        (l := w.streams.modify id fun _ => stream') (i := id) (a := stream') (by
          rw [List.getElem?_modify_eq, hstream]
          rfl)
      simp only [World.custody, hstreams', hstreams, hcommands', hcommands, hread, List.count_append] at hone
      rw [hread]
      refine ordered_append h.ordered ?_
      show w.commands.count (.close handle) = 0
      omega
    · have hone := hle handle
      simp only [World.custody, hcommands', hcommands, hclose, List.count_append, List.count_singleton_self] at hone
      rw [hclose]
      refine ordered_append h.ordered ?_
      show w.commands.count (.close handle) = 0
      omega
  · rw [hinflight', hstreams', hstreams, ← hmoved]
    have hcount := Dispatcher.countP_modify (fun stream : Stream => stream.stage.live) hstream fun _ => stream'
    have hinflight := h.inflight
    simp only [hlive, if_true] at hcount
    show (if stream'.stage.live then w.inflightStreams else w.inflightStreams - 1) = _
    split at hcount
    · rename_i hlive'
      rw [if_pos hlive']
      omega
    · rename_i hdead
      rw [if_neg hdead]
      omega

theorem hands_taskEffect (ok : Bool) (task : CleanupTask) (handle : StreamHandle) :
    (taskEffect ok task).hands handle = if decide (task = .closeCdpStream handle) then 1 else 0 := by
  cases task with
  | removeFile path =>
    cases ok with
    | false => simp [taskEffect, Effect.hands]
    | true => simp [taskEffect, Effect.hands]
  | closeCdpStream h =>
    cases ok with
    | false => simp [taskEffect, Effect.hands]
    | true => simp [taskEffect, Effect.hands]

theorem opens_taskEffect (ok : Bool) (task : CleanupTask) : (taskEffect ok task).opens = 0 := by
  cases task with
  | removeFile path =>
    cases ok with
    | false => rfl
    | true => rfl
  | closeCdpStream h =>
    cases ok with
    | false => rfl
    | true => rfl

theorem command_taskEffect (ok : Bool) (task : CleanupTask) :
    [taskEffect ok task].filterMap Effect.command? = [] ∨
      ∃ handle, [taskEffect ok task].filterMap Effect.command? = [.close handle] := by
  cases task with
  | removeFile path =>
    cases ok with
    | false => exact Or.inl rfl
    | true => exact Or.inl rfl
  | closeCdpStream handle =>
    cases ok with
    | false => exact Or.inl rfl
    | true => exact Or.inr ⟨handle, rfl⟩

theorem lost_spec (tasks : List CleanupTask) :
    (∀ handle, tally (Effect.hands handle) (tasks.map lostEffect) = tasks.countP (· = .closeCdpStream handle)) ∧
      tally Effect.opens (tasks.map lostEffect) = 0 ∧ (tasks.map lostEffect).filterMap Effect.command? = [] := by
  induction tasks with
  | nil => exact ⟨fun _ => rfl, rfl, rfl⟩
  | cons task rest ih =>
    obtain ⟨hhanded, hopens, hcommands⟩ := ih
    refine ⟨fun handle => ?_, ?_, ?_⟩
    · rw [List.map_cons, tally_cons, hhanded, List.countP_cons, lostEffect, hands_taskEffect]
      omega
    · rw [List.map_cons, tally_cons, hopens, lostEffect, opens_taskEffect]
    · rw [List.map_cons, List.filterMap_cons, hcommands]
      cases task with
      | removeFile path => rfl
      | closeCdpStream handle => rfl

/-- The end of a cleanup task. -/
theorem InHand.finishTask (h : w.InHand) (batch place : Nat) (ok : Bool) :
    (w.step (.finishTask batch place ok)).InHand := by
  cases hrunning : w.worker.running batch place with
  | none =>
    simp only [World.step, hrunning]
    exact h
  | some task =>
    have hready : w.worker.ready = true := by
      refine Bool.eq_true_of_not_eq_false fun hnot => ?_
      obtain ⟨jobs, hjobs, -⟩ := Dispatcher.running_eq_some hrunning
      rw [(h.worker.idle hnot).1] at hjobs
      cases hjobs
    obtain ⟨hcustody, hnext, hcommands, hstreams, hready', hinflight⟩ :=
      applyAll_spec { w with worker := w.worker.finish batch place } hready [taskEffect ok task]
    have hopens : tally Effect.opens [taskEffect ok task] = 0 := by
      rw [tally_cons, opens_taskEffect, tally_nil]
    have hsame : w.step (.finishTask batch place ok) =
        { w with worker := w.worker.finish batch place }.applyAll [taskEffect ok task] := by
      simp only [World.step, hrunning]
      rfl
    have hall : ∀ handle, (w.step (.finishTask batch place ok)).custody handle =
        if handle.id < w.nextHandle then 1 else 0 := by
      intro handle
      have hbefore := h.custody handle
      have hpending := Dispatcher.pending_finish (fun task => decide (task = .closeCdpStream handle)) hrunning
      rw [hsame, hcustody]
      simp only [World.custody, tally_cons, tally_nil, hands_taskEffect] at hbefore ⊢
      omega
    rw [hopens] at hnext
    refine ⟨fun _ => hsame ▸ hready', hsame ▸ sound_applyAll (h.worker.step (.finish batch place)) _, fun handle => ?_, ?_, ?_⟩
    · rw [hall, hsame, hnext]
      rfl
    · have hle := hall
      rw [hsame] at hle ⊢
      rw [hcommands]
      obtain hnone | ⟨handle, hclose⟩ := command_taskEffect ok task
      · rw [hnone, List.append_nil]
        exact h.ordered
      · have hone := hle handle
        simp only [World.custody, hcommands, hclose, List.count_append, List.count_singleton_self] at hone
        rw [hclose]
        refine ordered_append h.ordered ?_
        show w.commands.count (.close handle) = 0
        split at hone
        · omega
        · omega
    · rw [hsame, hinflight, hstreams]
      exact h.inflight

/-- Before the worker is started there is nothing that could panic. -/
theorem InHand.panic_of_unready (h : w.InHand) (hready : w.worker.ready = false) (batch : Nat) :
    w.step (.panic batch) = w := by
  have hidle := (h.worker.idle hready).1
  have hpanic : w.worker.panic batch = w.worker := by
    rw [Dispatcher.panic, hidle, List.modify_nil, ← hidle]
  rw [World.step, hpanic, Dispatcher.unfinished, hidle]
  rfl

theorem InHand.panic (h : w.InHand) (batch : Nat) : (w.step (.panic batch)).InHand := by
  obtain ⟨hhanded, hopens, hcommand⟩ := lost_spec (w.worker.unfinished batch)
  by_cases hready : w.worker.ready = true
  · obtain ⟨hcustody, hnext, hcommands, hstreams, hready', hinflight⟩ :=
      applyAll_spec { w with worker := w.worker.panic batch } hready ((w.worker.unfinished batch).map lostEffect)
    rw [hopens] at hnext
    rw [hcommand] at hcommands
    refine ⟨fun _ => hready', sound_applyAll (h.worker.step (.panic batch)) _, fun handle => ?_, ?_, ?_⟩
    · have hbefore := h.custody handle
      have hpending := Dispatcher.pending_panic (d := w.worker)
        (fun task => decide (task = .closeCdpStream handle)) batch
      show (({ w with worker := w.worker.panic batch } : World).applyAll _).custody handle =
        if handle.id < (({ w with worker := w.worker.panic batch } : World).applyAll _).nextHandle then 1 else 0
      rw [hcustody, hnext, hhanded]
      simp only [World.custody, Nat.add_zero] at hbefore ⊢
      omega
    · show Ordered (({ w with worker := w.worker.panic batch } : World).applyAll _).commands
      rw [hcommands, List.append_nil]
      exact h.ordered
    · show (({ w with worker := w.worker.panic batch } : World).applyAll _).inflightStreams =
        (({ w with worker := w.worker.panic batch } : World).applyAll _).streams.countP _
      rw [hinflight, hstreams]
      exact h.inflight
  · rw [h.panic_of_unready (Bool.eq_false_iff.2 hready)]
    exact h

theorem InHand.step (h : w.InHand) (input : Input) : (w.step input).InHand := by
  cases input with
  | start cap =>
    refine ⟨fun _ => rfl, h.worker.step .init, fun handle => ?_, h.ordered, ?_⟩
    · have hcustody := h.custody handle
      simp only [World.step, World.custody, List.map_append, List.map_cons, List.map_nil, List.sum_append, List.sum_cons,
        List.sum_nil, Stage.holds] at hcustody ⊢
      exact hcustody
    · have hinflight := h.inflight
      have hopening : Stage.opening.live = true := rfl
      simp only [World.step, List.countP_append, List.countP_singleton, hopening, if_true]
      omega
  | event id event =>
    cases hstream : w.streams[id]? with
    | none =>
      simp only [World.step, hstream]
      exact h
    | some stream =>
      by_cases hlive : stream.stage.live = true
      · exact h.event hstream hlive event
      · simp only [World.step, hstream, hlive]
        exact h
  | dropContentSink seq =>
    refine ⟨fun hne => (ready_apply w _).trans (h.ready hne), h.worker.step (.submit _), fun handle => ?_, h.ordered,
      h.inflight⟩
    rw [World.step, custody_apply handle (Or.inr rfl), h.custody]
    rfl
  | receive count =>
    have hready : (w.worker.receive BgCleanup.dispatchBatch count).ready = w.worker.ready := by
      obtain ⟨hsame, -⟩ | ⟨taken, rest, -, -, -, heq⟩ := Dispatcher.receive_cases BgCleanup.dispatchBatch w.worker count
      · rw [hsame]
      · rw [heq]
    refine ⟨fun hne => hready.trans (h.ready hne), h.worker.step (.receive count), fun handle => ?_, h.ordered, h.inflight⟩
    have hcustody := h.custody handle
    simp only [World.step, World.custody, Dispatcher.pending_receive] at hcustody ⊢
    exact hcustody
  | finishTask batch place ok => exact h.finishTask batch place ok
  | panic batch => exact h.panic batch

/-- In every run, whatever fails and wherever a future is dropped: each stream that the browser has opened is in exactly one place, with a future that is alive, with a cleanup task that waits or runs, closed by one `IO.close`, or abandoned; nothing is sent to a stream after it was closed; and the counter of streams in flight is the number of futures that are alive. -/
theorem streams_in_one_hand (cacheStreamDisk : Bool) (decodeBase64 : String → Option (List UInt8))
    (inputs : List Input) :
    let w := Run.final World.step (init cacheStreamDisk decodeBase64) inputs
    (∀ handle, w.custody handle = if handle.id < w.nextHandle then 1 else 0) ∧ Ordered w.commands ∧
      w.inflightStreams = w.streams.countP fun stream => stream.stage.live := by
  intro w
  have h : w.InHand :=
    Run.invariant_of_step InHand (fun _ input h => h.step input) (inHand_init cacheStreamDisk decodeBase64) inputs
  exact ⟨h.custody, h.ordered, h.inflight⟩

end World

end BodyStream

end SpiderChrome
