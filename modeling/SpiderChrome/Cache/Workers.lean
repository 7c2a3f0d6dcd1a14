import SpiderChrome.Cache.Responders
import SpiderChrome.Cache.Streams

/-!
# Background workers

Three workers take what other tasks leave to them: clean-up, the release of objects in the page, and the pauses of the interceptor at the response stage. They are started once and have the same loop. The loop of an interceptor handles a pause at the request stage itself, and gives one at the response stage to its worker.
-/

namespace SpiderChrome

structure RemoteObjectId where
  id : String
deriving DecidableEq

/-- `MAX_BATCH` of `runtime_release.rs`. -/
def RuntimeRelease.maxBatch : Nat := 64

/-- `DISPATCH_BATCH` of `fetch_worker.rs`. -/
def FetchWorker.dispatchBatch : Nat := 64

/-- A pause, with whose it is and with what its handler will be told by others. -/
structure FetchResponseJob where
  event : EventRequestPaused
  stage : FetchStage
  auth : Option String
  cacheStrategy : Option CacheStrategy
  world : FetchWorld

inductive BackgroundWorker where
  | bgCleanup
  | runtimeRelease
  | fetchWorker
deriving DecidableEq

namespace BackgroundWorker

def Task : BackgroundWorker → Type
  | bgCleanup => CleanupTask
  | runtimeRelease => RemoteObjectId
  | fetchWorker => FetchResponseJob

def limit : BackgroundWorker → Nat
  | bgCleanup => BgCleanup.dispatchBatch
  | runtimeRelease => RuntimeRelease.maxBatch
  | fetchWorker => FetchWorker.dispatchBatch

def step (worker : BackgroundWorker) (d : Dispatcher worker.Task) (input : Dispatcher.Input worker.Task) :
    Dispatcher worker.Task :=
  d.step worker.limit input

/-- In every run of a worker its batches cut what was submitted since its start into pieces of 1 to 64 tasks, in order, and each time it turns to its queue a task more is started, as long as one waits: no task that hangs or panics keeps another one from being started. -/
theorem starts_in_turn (worker : BackgroundWorker) (before later : List (Dispatcher.Input worker.Task)) :
    let d := Run.final worker.step .empty before
    let d' := Run.final worker.step d later
    d'.jobs.map Dispatcher.Job.task ++ d'.queue = d'.submitted ∧
      (∀ batch ∈ d'.batches, 1 ≤ batch.length ∧ batch.length ≤ 64) ∧
      min d.submitted.length (d.jobs.length + later.countP Dispatcher.Input.receives) ≤ d'.jobs.length := by
  intro d d'
  have hlimit : worker.limit = 64 := by
    cases worker with
    | _ => rfl
  have hsound : d.Sound worker.limit := Dispatcher.sound_final worker.limit before
  have hlater : d'.Sound worker.limit :=
    Run.invariant_of_step (Dispatcher.Sound worker.limit) (fun _ input h => h.step input) hsound later
  refine ⟨hlater.order, fun batch hbatch => ?_, ?_⟩
  · rw [← hlimit]
    exact hlater.sizes batch hbatch
  · exact Dispatcher.started_final hsound (by rw [hlimit]; decide) later

end BackgroundWorker

/-! ### Interceptors and their worker -/

namespace FetchResponseJob

/-- The pause is one of this request. -/
def isOf (requestId : Fetch.RequestId) (job : FetchResponseJob) : Bool := job.event.requestId = requestId

/-- What its handler does, at the stage that the pause is at. -/
def effects (keys : KeyMaker) (job : FetchResponseJob) : List FetchEffect :=
  interceptorEffects keys job.world job.event job.stage job.auth job.cacheStrategy

end FetchResponseJob

/-- The loop of `spawn_fetch_cache_interceptor`, with the pause that it handles itself. -/
structure InterceptorLoop where
  auth : Option String
  cacheStrategy : Option CacheStrategy
  handling : Option FetchResponseJob

/-- All interceptors of a process. The last three fields are a record: the pauses that the loops have taken, what the handlers have done, and the pauses whose handlers were lost before they had answered. -/
structure Interceptors where
  loops : List InterceptorLoop
  worker : Dispatcher FetchResponseJob
  taken : List FetchResponseJob
  done : List FetchEffect
  unanswered : List FetchResponseJob

namespace Interceptors

inductive Input where
  | spawn (auth : Option String) (cacheStrategy : Option CacheStrategy)
  /-- The loop takes the next event of its listener. -/
  | next (place : Nat) (event : EventRequestPaused) (stage : FetchStage) (world : FetchWorld)
  /-- The handler that a loop waits for comes to its end. -/
  | handled (place : Nat)
  | receive (count : Nat)
  | finish (batch place : Nat)
  /-- A handler panics; `reached` is how far those of its batch have come that had not finished. -/
  | panic (batch : Nat) (reached : List Nat)

def start : Interceptors := ⟨[], .empty, [], [], []⟩

/-- What handlers that are lost have done, each as far as it came. -/
def halfDone (keys : KeyMaker) : List FetchResponseJob → List Nat → List FetchEffect
  | [], _ => []
  | job :: rest, reached =>
    (job.effects keys).take (reached.headD 0) ++ halfDone keys rest reached.tail

/-- The pauses of handlers that are lost before they have answered. -/
def silent (keys : KeyMaker) : List FetchResponseJob → List Nat → List FetchResponseJob
  | [], _ => []
  | job :: rest, reached =>
    (if answerCount job.event ((job.effects keys).take (reached.headD 0)) = 0 then [job] else []) ++
      silent keys rest reached.tail

def step (keys : KeyMaker) (s : Interceptors) : Input → Interceptors
  | .spawn auth cacheStrategy =>
    { s with loops := s.loops ++ [⟨auth, cacheStrategy, none⟩], worker := s.worker.init }
  | .next place event stage world =>
    match s.loops[place]? with
    | some ⟨auth, cacheStrategy, none⟩ =>
      let job : FetchResponseJob := ⟨event, stage, auth, cacheStrategy, world⟩
      if stage.responseStatusCode.isSome then { s with worker := s.worker.submit job, taken := s.taken ++ [job] }
      else
        { s with
          loops := s.loops.modify place fun loop => { loop with handling := some job }
          taken := s.taken ++ [job] }
    | _ => s
  | .handled place =>
    match s.loops[place]? with
    | some ⟨_, _, some job⟩ =>
      { s with
        loops := s.loops.modify place fun loop => { loop with handling := none }
        done := s.done ++ job.effects keys }
    | _ => s
  | .receive count => { s with worker := s.worker.receive FetchWorker.dispatchBatch count }
  | .finish batch place =>
    match s.worker.running batch place with
    | some job => { s with worker := s.worker.finish batch place, done := s.done ++ job.effects keys }
    | none => s
  | .panic batch reached =>
    { s with
      worker := s.worker.panic batch
      done := s.done ++ halfDone keys (s.worker.unfinished batch) reached
      unanswered := s.unanswered ++ silent keys (s.worker.unfinished batch) reached }

/-- The pauses of a request that a loop handles. -/
def InterceptorLoop.handles (requestId : Fetch.RequestId) (loop : InterceptorLoop) : Nat :=
  if loop.handling.any (FetchResponseJob.isOf requestId) then 1 else 0

/-- The pauses of a request that are to be answered yet. -/
def pending (s : Interceptors) (requestId : Fetch.RequestId) : Nat :=
  (s.loops.map (InterceptorLoop.handles requestId)).sum + s.worker.pending (FetchResponseJob.isOf requestId)

/-- The answers that were given to a request. -/
def answers (s : Interceptors) (requestId : Fetch.RequestId) : Nat := s.done.countP (FetchEffect.answers requestId)

end Interceptors

/-! ### A handler answers its own pause -/

/-- Whatever is answered among the effects is the pause itself. -/
def Own (event : EventRequestPaused) (effects : List FetchEffect) : Prop :=
  ∀ effect ∈ effects, ∀ requestId, effect.answers requestId = true → event.requestId = requestId

section Own

variable {event : EventRequestPaused} {effects later : List FetchEffect} {effect : FetchEffect}

theorem own_continueRequest : Own event [continueRequest event] := by
  intro effect heffect requestId hanswers
  rw [List.mem_singleton.1 heffect] at hanswers
  exact of_decide_eq_true hanswers

theorem own_fulfillRequest (status : Int) (body : List UInt8) (headers : List (String × String)) :
    Own event [fulfillRequest event status body headers] := by
  intro effect heffect requestId hanswers
  rw [List.mem_singleton.1 heffect] at hanswers
  exact of_decide_eq_true hanswers

theorem Own.append (h : Own event effects) (hlater : Own event later) : Own event (effects ++ later) := by
  intro effect heffect
  obtain hfirst | hsecond := List.mem_append.1 heffect
  · exact h effect hfirst
  · exact hlater effect hsecond

theorem Own.cons (hsilent : ∀ requestId, effect.answers requestId = false) (h : Own event effects) :
    Own event (effect :: effects) := by
  intro other hother requestId hanswers
  obtain rfl | hrest := List.mem_cons.1 hother
  · rw [hsilent] at hanswers
    cases hanswers
  · exact h other hrest requestId hanswers

theorem own_nil : Own event [] := fun _ heffect => absurd heffect List.not_mem_nil

variable (keys : KeyMaker) (world : FetchWorld) (stage : FetchStage) (auth : Option String)
  (cacheStrategy : Option CacheStrategy)

theorem own_cacheAndFulfill (status : Int) (dedupKey : String) (body : List UInt8) :
    Own event (cacheAndFulfill keys world event stage auth status dedupKey body) := by
  rw [cacheAndFulfill]
  split
  · exact (own_fulfillRequest _ _ _).cons fun _ => rfl
  · exact ((own_fulfillRequest _ _ _).cons fun _ => rfl).cons fun _ => rfl

theorem own_oneshot (dedupKey : String) : Own event (fetchResponseBodyOneshot world event dedupKey).1 := by
  rw [fetchResponseBodyOneshot]
  split
  · split
    · split
      · exact own_nil.cons fun _ => rfl
      · exact (own_nil.cons fun _ => rfl).cons fun _ => rfl
    · exact own_nil.cons fun _ => rfl
  · exact own_nil.cons fun _ => rfl

theorem own_streamAndFulfill (status : Int) : Own event (streamAndFulfill keys world event stage auth status) := by
  refine (Own.cons (fun _ => rfl) ?_).cons fun _ => rfl
  split
  · exact own_cacheAndFulfill keys world stage auth status _ _
  · refine (own_oneshot world _).append ?_
    split
    · exact own_cacheAndFulfill keys world stage auth status _ _
    · exact own_continueRequest.cons fun _ => rfl
  · exact (own_fulfillRequest _ _ _).cons fun _ => rfl

theorem own_interceptorEffects : Own event (interceptorEffects keys world event stage auth cacheStrategy) := by
  rw [interceptorEffects]
  split
  · obtain heq | heq := handleFetchResponseStage_cases keys world event stage auth cacheStrategy
    · rw [heq]
      exact own_continueRequest
    · rw [heq]
      exact own_streamAndFulfill keys world stage auth _
  · rw [handleFetchPaused]
    split
    · exact own_continueRequest
    split
    · exact own_continueRequest
    split
    · exact own_fulfillRequest _ _ _
    · exact own_continueRequest

theorem Own.none_other (h : Own event effects) {requestId : Fetch.RequestId} (hne : event.requestId ≠ requestId) :
    effects.countP (FetchEffect.answers requestId) = 0 := by
  refine List.countP_eq_zero.2 fun effect heffect hanswers => ?_
  exact hne (h effect heffect requestId hanswers)

end Own

namespace FetchResponseJob

/-- A handler that comes to its end has answered its pause once, and no other. -/
theorem answers_effects (keys : KeyMaker) (job : FetchResponseJob) (requestId : Fetch.RequestId) :
    (job.effects keys).countP (FetchEffect.answers requestId) = if job.isOf requestId then 1 else 0 := by
  by_cases h : job.event.requestId = requestId
  · subst h
    rw [isOf, decide_eq_true rfl, if_pos rfl]
    exact answerCount_interceptorEffects keys job.world job.event job.stage job.auth job.cacheStrategy
  · rw [isOf, decide_eq_false h]
    exact (own_interceptorEffects keys job.world job.stage job.auth job.cacheStrategy).none_other h

/-- A handler that is lost has answered its pause once or not at all. -/
theorem answers_take (keys : KeyMaker) (job : FetchResponseJob) (reached : Nat) (requestId : Fetch.RequestId) :
    ((job.effects keys).take reached).countP (FetchEffect.answers requestId) +
      (if answerCount job.event ((job.effects keys).take reached) = 0 then [job] else []).countP (isOf requestId) =
        if job.isOf requestId then 1 else 0 := by
  by_cases h : job.event.requestId = requestId
  · subst h
    have hself : job.isOf job.event.requestId = true := decide_eq_true rfl
    have hle : answerCount job.event ((job.effects keys).take reached) ≤ 1 := by
      refine Nat.le_trans (List.Sublist.countP_le (List.take_sublist _ _)) ?_
      rw [answers_effects, if_pos hself]
    rw [if_pos hself]
    show answerCount job.event ((job.effects keys).take reached) + _ = 1
    split
    · rename_i hnone
      rw [hnone, List.countP_singleton, if_pos hself]
    · rw [List.countP_nil]
      omega
  · have hother : job.isOf requestId = false := decide_eq_false h
    have hnone : ((job.effects keys).take reached).countP (FetchEffect.answers requestId) = 0 := by
      refine Nat.le_zero.1 (Nat.le_trans (List.Sublist.countP_le (List.take_sublist _ _)) ?_)
      rw [answers_effects, hother]
      exact Nat.le_refl 0
    rw [hnone, hother]
    split
    · rw [List.countP_singleton, hother, Nat.zero_add]
    · rfl

end FetchResponseJob

namespace Interceptors

theorem answers_halfDone (keys : KeyMaker) (requestId : Fetch.RequestId) (jobs : List FetchResponseJob)
    (reached : List Nat) :
    (halfDone keys jobs reached).countP (FetchEffect.answers requestId) +
      (silent keys jobs reached).countP (FetchResponseJob.isOf requestId) =
        jobs.countP (FetchResponseJob.isOf requestId) := by
  induction jobs generalizing reached with
  | nil => rfl
  | cons job rest ih =>
    have hjob := job.answers_take keys (reached.headD 0) requestId
    have hrest := ih reached.tail
    rw [halfDone, silent, List.countP_append, List.countP_append, List.countP_cons]
    omega

/-- Each pause that was taken is answered, or is to be answered yet, or was lost. -/
def Balanced (s : Interceptors) : Prop :=
  ∀ requestId, s.answers requestId + s.pending requestId + s.unanswered.countP (FetchResponseJob.isOf requestId) =
    s.taken.countP (FetchResponseJob.isOf requestId)

/-- A worker that was not started stays so only while there is no loop. -/
def Ready (s : Interceptors) : Prop := s.loops ≠ [] → s.worker.ready = true

theorem Ready.step {keys : KeyMaker} {s : Interceptors} (h : s.Ready) (input : Input) : (s.step keys input).Ready := by
  have hloops : ∀ {place : Nat} {loop : InterceptorLoop}, s.loops[place]? = some loop → s.worker.ready = true := by
    intro place loop hloop
    refine h fun hnil => ?_
    rw [hnil] at hloop
    cases hloop
  cases input with
  | spawn auth cacheStrategy => exact fun _ => rfl
  | next place event stage world =>
    simp only [Interceptors.step]
    split
    · rename_i hloop
      split
      · exact fun _ => Dispatcher.ready_step FetchWorker.dispatchBatch (hloops hloop) (.submit _)
      · exact fun _ => hloops hloop
    · exact h
  | handled place =>
    simp only [Interceptors.step]
    split
    · rename_i hloop
      exact fun _ => hloops hloop
    · exact h
  | receive count => exact fun hne => Dispatcher.ready_step FetchWorker.dispatchBatch (h hne) (.receive count)
  | finish batch place =>
    simp only [Interceptors.step]
    split
    · exact h
    · exact h
  | panic batch reached => exact h

theorem Balanced.step {keys : KeyMaker} {s : Interceptors} (h : s.Balanced) (hready : s.Ready) (input : Input) :
    (s.step keys input).Balanced := by
  intro requestId
  have hbefore := h requestId
  cases input with
  | spawn auth cacheStrategy =>
    simp only [Interceptors.step, answers, pending, List.map_append, List.map_cons, List.map_nil, List.sum_append,
      List.sum_cons, List.sum_nil, InterceptorLoop.handles] at hbefore ⊢
    exact hbefore
  | next place event stage world =>
    simp only [Interceptors.step]
    split
    · rename_i auth cacheStrategy hloop
      split
      · have hstarted : s.worker.ready = true := hready fun hnil => by
          rw [hnil] at hloop
          cases hloop
        have hsubmit := Dispatcher.pending_submit (FetchResponseJob.isOf requestId)
          ⟨event, stage, auth, cacheStrategy, world⟩ hstarted
        simp only [answers, pending, hsubmit, List.countP_append, List.countP_singleton] at hbefore ⊢
        omega
      · have hsum := Dispatcher.sum_map_modify (InterceptorLoop.handles requestId) hloop
          fun loop => { loop with handling := some ⟨event, stage, auth, cacheStrategy, world⟩ }
        have hnone : InterceptorLoop.handles requestId ⟨auth, cacheStrategy, none⟩ = 0 := rfl
        rw [hnone] at hsum
        simp only [InterceptorLoop.handles, Option.any_some] at hsum
        simp only [answers, pending, List.countP_append, List.countP_singleton] at hbefore ⊢
        omega
    · exact hbefore
  | handled place =>
    simp only [Interceptors.step]
    split
    · rename_i auth cacheStrategy job hloop
      have hsum := Dispatcher.sum_map_modify (InterceptorLoop.handles requestId) hloop
        fun loop => { loop with handling := none }
      have hanswers := job.answers_effects keys requestId
      have hnone : InterceptorLoop.handles requestId ⟨auth, cacheStrategy, none⟩ = 0 := rfl
      simp only [hnone] at hsum
      simp only [InterceptorLoop.handles, Option.any_some] at hsum
      simp only [answers, pending, List.countP_append] at hbefore ⊢
      omega
    · exact hbefore
  | receive count =>
    simp only [Interceptors.step, answers, pending, Dispatcher.pending_receive] at hbefore ⊢
    exact hbefore
  | finish batch place =>
    simp only [Interceptors.step]
    split
    · rename_i job hrunning
      have hpending := Dispatcher.pending_finish (FetchResponseJob.isOf requestId) hrunning
      have hanswers := job.answers_effects keys requestId
      simp only [answers, pending, List.countP_append] at hbefore ⊢
      omega
    · exact hbefore
  | panic batch reached =>
    have hpending := Dispatcher.pending_panic (d := s.worker) (FetchResponseJob.isOf requestId) batch
    have hlost := answers_halfDone keys requestId (s.worker.unfinished batch) reached
    simp only [Interceptors.step, answers, pending, List.countP_append] at hbefore ⊢
    omega

end Interceptors

end SpiderChrome
