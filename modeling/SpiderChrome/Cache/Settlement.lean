import SpiderChrome.Cache.Markers

/-!
# The end of the response stage

Whatever comes of the stream and of the fallback, a run of the response stage does its reading and marking first and ends with the one command that settles the pause. It lets the request go on only where the body is still there.
-/

namespace SpiderChrome

namespace FetchEffect

def continues (requestId : Fetch.RequestId) : FetchEffect → Bool
  | send (.continueRequest id _ _) => id = requestId
  | _ => false

def fulfills (requestId : Fetch.RequestId) : FetchEffect → Bool
  | send (.fulfillRequest id _ _ _) => id = requestId
  | _ => false

/-- One of the two commands that settle a pause. -/
def settles (requestId : Fetch.RequestId) (effect : FetchEffect) : Bool :=
  effect.continues requestId || effect.fulfills requestId

/-- Nothing is sent but what reads a body. -/
def isQuiet : FetchEffect → Bool
  | send _ => false
  | _ => true

theorem not_settles_of_isQuiet (requestId : Fetch.RequestId) {effect : FetchEffect} (h : effect.isQuiet = true) :
    effect.settles requestId = false := by
  cases effect with
  | send command => cases h
  | _ => rfl

end FetchEffect

/-- The stream was opened, so the browser has given the body away, whether or not all of it was read. -/
def FetchWorld.bodyConsumed (world : FetchWorld) : Bool :=
  match world.responseBodyAsStream with
  | .ok _ => true
  | .notStarted => false
  | .partialBody _ => true

/-- A run that reads and marks in quiet, and then settles the pause: it fulfills the request, or lets it go on if it may. -/
def EndsSettled (event : EventRequestPaused) (mayContinue : Prop) (effects : List FetchEffect) : Prop :=
  ∃ quiet last, effects = quiet ++ [last] ∧ (∀ effect ∈ quiet, effect.isQuiet = true) ∧
    (last = continueRequest event ∧ mayContinue ∨ ∃ status body headers, last = fulfillRequest event status body headers)

section

variable (keys : KeyMaker) (world : FetchWorld) (event : EventRequestPaused) (stage : FetchStage)
  (auth : Option String) (cacheStrategy : Option CacheStrategy) (status : Int) (dedupKey : String)

variable {event} in
theorem EndsSettled.cons {mayContinue : Prop} {effects : List FetchEffect} (h : EndsSettled event mayContinue effects)
    {effect : FetchEffect} (hquiet : effect.isQuiet = true) : EndsSettled event mayContinue (effect :: effects) := by
  obtain ⟨quiet, last, heffects, hall, hlast⟩ := h
  refine ⟨effect :: quiet, last, congrArg (effect :: ·) heffects, ?_, hlast⟩
  intro e he
  obtain rfl | he := List.mem_cons.mp he
  · exact hquiet
  · exact hall e he

theorem endsSettled_continue {mayContinue : Prop} (h : mayContinue) :
    EndsSettled event mayContinue [continueRequest event] :=
  ⟨[], _, rfl, fun _ he => absurd he List.not_mem_nil, .inl ⟨rfl, h⟩⟩

theorem endsSettled_fulfill (mayContinue : Prop) (body : List UInt8) (headers : List (String × String)) :
    EndsSettled event mayContinue [fulfillRequest event status body headers] :=
  ⟨[], _, rfl, fun _ he => absurd he List.not_mem_nil, .inr ⟨status, body, headers, rfl⟩⟩

theorem endsSettled_cacheAndFulfill (mayContinue : Prop) (body : List UInt8) :
    EndsSettled event mayContinue (cacheAndFulfill keys world event stage auth status dedupKey body) := by
  rw [cacheAndFulfill]
  split
  · exact (endsSettled_fulfill event status _ _ _).cons rfl
  · exact ((endsSettled_fulfill event status _ _ _).cons rfl).cons rfl

/-- The fallback is only tried while the body is there. -/
theorem endsSettled_oneshot {mayContinue : Prop} (h : mayContinue) :
    EndsSettled event mayContinue ((fetchResponseBodyOneshot world event dedupKey).1 ++
      match (fetchResponseBodyOneshot world event dedupKey).2 with
      | some body => cacheAndFulfill keys world event stage auth status dedupKey body
      | none => [.clearStreamPending dedupKey, continueRequest event]) := by
  rw [fetchResponseBodyOneshot]
  split
  · split
    · split
      · exact (endsSettled_cacheAndFulfill keys world event stage auth status dedupKey _ _).cons rfl
      · exact (((endsSettled_continue event h).cons rfl).cons rfl).cons rfl
    · exact (endsSettled_cacheAndFulfill keys world event stage auth status dedupKey _ _).cons rfl
  · exact ((endsSettled_continue event h).cons rfl).cons rfl

theorem endsSettled_streamAndFulfill :
    EndsSettled event (world.bodyConsumed = false) (streamAndFulfill keys world event stage auth status) := by
  rw [streamAndFulfill]
  refine EndsSettled.cons (EndsSettled.cons ?_ rfl) rfl
  split
  · exact endsSettled_cacheAndFulfill keys world event stage auth status _ _ _
  · rename_i hstream
    exact endsSettled_oneshot keys world event stage auth status _ (by rw [FetchWorld.bodyConsumed, hstream])
  · exact (endsSettled_fulfill event status _ _ _).cons rfl

/-- A response that goes on at once was not read. -/
theorem endsSettled_handleFetchResponseStage :
    EndsSettled event
      (FetchEffect.takeResponseBodyAsStream event.requestId ∈
        handleFetchResponseStage keys world event stage auth cacheStrategy → world.bodyConsumed = false)
      (handleFetchResponseStage keys world event stage auth cacheStrategy) := by
  obtain heq | heq := handleFetchResponseStage_cases keys world event stage auth cacheStrategy
  · rw [heq]
    apply endsSettled_continue
    intro hmem
    cases List.mem_singleton.mp hmem
  · rw [heq]
    obtain ⟨quiet, last, heffects, hall, hlast⟩ :=
      endsSettled_streamAndFulfill keys world event stage auth (stage.responseStatusCode.getD 0)
    refine ⟨quiet, last, heffects, hall, ?_⟩
    obtain ⟨hlast, hmay⟩ | hlast := hlast
    · exact .inl ⟨hlast, fun _ => hmay⟩
    · exact .inr hlast

end

/-! ### What settling comes to -/

section

variable {event : EventRequestPaused} {mayContinue : Prop} {effects : List FetchEffect}

theorem EndsSettled.settles_once (h : EndsSettled event mayContinue effects) :
    effects.countP (FetchEffect.settles event.requestId) = 1 := by
  obtain ⟨quiet, last, rfl, hall, hlast⟩ := h
  have hquiet : quiet.countP (FetchEffect.settles event.requestId) = 0 := by
    rw [List.countP_eq_zero]
    intro effect he
    rw [FetchEffect.not_settles_of_isQuiet event.requestId (hall effect he)]
    exact Bool.false_ne_true
  have hsettles : last.settles event.requestId = true := by
    obtain ⟨rfl, -⟩ | ⟨status, body, headers, rfl⟩ := hlast
    · simp [FetchEffect.settles, FetchEffect.continues, continueRequest]
    · simp [FetchEffect.settles, FetchEffect.fulfills, fulfillRequest]
  rw [List.countP_append, hquiet, Nat.zero_add]
  exact List.countP_cons_of_pos hsettles

theorem EndsSettled.continues_only (h : EndsSettled event mayContinue effects) {effect : FetchEffect}
    (hmem : effect ∈ effects) (hcontinues : effect.continues event.requestId = true) : mayContinue := by
  obtain ⟨quiet, last, rfl, hall, hlast⟩ := h
  obtain hq | hl := List.mem_append.mp hmem
  · have hnot := FetchEffect.not_settles_of_isQuiet event.requestId (hall effect hq)
    rw [FetchEffect.settles, hcontinues] at hnot
    cases hnot
  · obtain rfl := List.mem_singleton.mp hl
    obtain ⟨-, hmay⟩ | ⟨status, body, headers, rfl⟩ := hlast
    · exact hmay
    · cases hcontinues

end

/-! ### Markers of a run -/

theorem Paired.clears {key : String} {effects : List FetchEffect} (h : Paired (some key) effects) :
    FetchEffect.clearStreamPending key ∈ effects := by
  induction effects with
  | nil => cases h
  | cons effect rest ih =>
    cases effect with
    | markStreamPending key' => cases h.1
    | clearStreamPending key' =>
      obtain hnone | hsome := h.1
      · cases hnone
      · rw [Option.some.inj hsome]
        exact List.mem_cons_self
    | _ => exact List.mem_cons_of_mem _ (ih h)

/-- A key that is marked is cleared later. -/
theorem Paired.clears_after {streaming : Option String} {before after : List FetchEffect} {key : String}
    (h : Paired streaming (before ++ .markStreamPending key :: after)) : .clearStreamPending key ∈ after := by
  induction before generalizing streaming with
  | nil => exact Paired.clears h.2
  | cons effect rest ih =>
    cases effect with
    | markStreamPending key' => exact ih h.2
    | clearStreamPending key' => exact ih h.2
    | _ => exact ih h

/-- The markers that a run leaves were there before it, but for the one that it had marked itself. -/
theorem Paired.markers_subset {streaming : Option String} {effects : List FetchEffect} (h : Paired streaming effects)
    (pending : Finset String) :
    effects.foldl (fun pending effect => effect.markers pending) pending ⊆
      streaming.elim pending fun key => pending.erase key := by
  induction effects generalizing streaming pending with
  | nil =>
    obtain rfl : streaming = none := h
    exact Finset.Subset.refl _
  | cons effect rest ih =>
    cases effect with
    | markStreamPending key =>
      obtain ⟨rfl, hrest⟩ := h
      refine (ih hrest (insert key pending)).trans ?_
      exact Finset.subset_insert_iff.mp (Finset.Subset.refl _)
    | clearStreamPending key =>
      obtain ⟨hkey, hrest⟩ := h
      refine (ih hrest (pending.erase key)).trans ?_
      obtain rfl | rfl := hkey
      · exact Finset.erase_subset key pending
      · exact Finset.Subset.refl _
    | _ => exact ih h pending

/-- Whatever is paused at the response stage, and whatever becomes of the body, the pause is settled with one command, never by letting a request go on whose body was consumed, and no marker of this run is left. -/
theorem handleFetchResponseStage_settles (keys : KeyMaker) (world : FetchWorld) (event : EventRequestPaused)
    (stage : FetchStage) (auth : Option String) (cacheStrategy : Option CacheStrategy) :
    let effects := handleFetchResponseStage keys world event stage auth cacheStrategy
    effects.countP (FetchEffect.settles event.requestId) = 1 ∧
      (FetchEffect.takeResponseBodyAsStream event.requestId ∈ effects → world.bodyConsumed = true →
        ∀ effect ∈ effects, effect.continues event.requestId = false) ∧
      (∀ before key after, effects = before ++ .markStreamPending key :: after → .clearStreamPending key ∈ after) ∧
      ∀ pending : Finset String, effects.foldl (fun pending effect => effect.markers pending) pending ⊆ pending := by
  intro effects
  have hsettled := endsSettled_handleFetchResponseStage keys world event stage auth cacheStrategy
  have hpaired := paired_handleFetchResponseStage keys world event stage auth cacheStrategy
  refine ⟨hsettled.settles_once, ?_, ?_, fun pending => hpaired.markers_subset pending⟩
  · intro htaken hconsumed effect hmem
    by_contra hcontinues
    have hmay := hsettled.continues_only hmem (Bool.not_eq_false _ ▸ hcontinues)
    rw [hmay htaken] at hconsumed
    cases hconsumed
  · intro before key after heffects
    apply Paired.clears_after
    rw [← heffects]
    exact hpaired

/-- A stream that breaks off. -/
theorem handleFetchResponseStage_settles_partial :
    let world := { sampleWorld with responseBodyAsStream := .partialBody [120] }
    let effects := handleFetchResponseStage sampleKeys world (samplePause "1") sampleStage none none
    effects.countP (FetchEffect.settles ⟨"1"⟩) = 1 ∧
      (∀ effect ∈ effects, effect.continues ⟨"1"⟩ = false) ∧
      FetchEffect.clearStreamPending "GET:https://example.com/a.js" ∈ effects.drop 1 := by
  intro world effects
  obtain ⟨honce, hnever, hcleared, -⟩ :=
    handleFetchResponseStage_settles sampleKeys world (samplePause "1") sampleStage none none
  have hheaders : shouldStream world sampleStage = true := by decide +kernel
  have heffects : effects = streamAndFulfill sampleKeys world (samplePause "1") sampleStage none 200 := by
    simp only [effects, handleFetchResponseStage, hheaders]
    rfl
  have hmarked : effects = [] ++ .markStreamPending "GET:https://example.com/a.js" :: effects.drop 1 := by
    rw [heffects]
    rfl
  have htaken : FetchEffect.takeResponseBodyAsStream (samplePause "1").requestId ∈ effects := by
    rw [heffects]
    exact .tail _ (.head _)
  exact ⟨honce, hnever htaken rfl, hcleared _ _ _ hmarked⟩

end SpiderChrome
