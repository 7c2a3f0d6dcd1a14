import SpiderChrome.Library.Run
import SpiderChrome.Cache.Interceptor
import SpiderChrome.Cache.SiteKeys

/-!
# Markers of streams

While the interceptor streams a body, a marker for its URL keeps the response listener away from it. The markers are a set, so that requests of one URL share theirs, and the first of them that ends takes it away from the others.
-/

namespace SpiderChrome

open Run

namespace FetchEffect

/-- What an effect does to `PENDING_STREAM_URLS`. -/
def markers : FetchEffect → Finset String → Finset String
  | markStreamPending key, pending => insert key pending
  | clearStreamPending key, pending => pending.erase key
  | _, pending => pending

/-- The key that a run has marked and not cleared after an effect. -/
def streaming : FetchEffect → Option String → Option String
  | markStreamPending key, _ => some key
  | clearStreamPending _, _ => none
  | _, streaming => streaming

end FetchEffect

/-- A run of `handle_fetch_response_stage`: the key between its mark and its clear, and what it has left to do. -/
structure FetchRun where
  streaming : Option String
  left : List FetchEffect

/-- The markers and the runs of all jobs that were submitted. -/
structure FetchWorker where
  pending : Finset String
  runs : List FetchRun

/-- A job is submitted, or a run does the next thing. -/
inductive WorkerInput where
  | submit (keys : KeyMaker) (world : FetchWorld) (event : EventRequestPaused) (stage : FetchStage)
      (auth : Option String) (cacheStrategy : Option CacheStrategy)
  | resume (i : Nat)

namespace FetchWorker

def new : FetchWorker := ⟨∅, []⟩

def isStreamPending (s : FetchWorker) (key : String) : Bool := key ∈ s.pending

/-- A run does an effect. -/
def perform (s : FetchWorker) (i : Nat) (run : FetchRun) (effect : FetchEffect) (rest : List FetchEffect) :
    FetchWorker where
  pending := effect.markers s.pending
  runs := s.runs.set i ⟨effect.streaming run.streaming, rest⟩

def step (s : FetchWorker) : WorkerInput → FetchWorker
  | .submit keys world event stage auth cacheStrategy =>
    { s with
      runs := s.runs ++ [⟨none, handleFetchResponseStage keys world event stage auth cacheStrategy⟩] }
  | .resume i =>
    match s.runs[i]? with
    | some run =>
      match run.left with
      | effect :: rest => s.perform i run effect rest
      | [] => s
    | none => s

/-- A run is between its mark of the key and its clear. -/
def Streams (s : FetchWorker) (i : Nat) (key : String) : Prop :=
  ∃ run, s.runs[i]? = some run ∧ run.streaming = some key

/-- A run is about to clear the key. -/
def Clears (s : FetchWorker) (i : Nat) (key : String) : Prop :=
  ∃ run rest, s.runs[i]? = some run ∧ run.left = .clearStreamPending key :: rest

/-- The key is pending exactly while a run streams it. -/
def Accurate (s : FetchWorker) : Prop := ∀ key, s.isStreamPending key = true ↔ ∃ i, s.Streams i key

/-- When a run clears a key, no other run streams it. -/
def ClearsAlone (s : FetchWorker) : WorkerInput → Prop
  | .submit .. => True
  | .resume i => ∀ key, s.Clears i key → ∀ j, j ≠ i → ¬ s.Streams j key

end FetchWorker

/-! ### A single run -/

/-- A run that has marked nothing, or this key, only ever clears what it has marked, marks nothing twice and ends without a mark. -/
def Paired : Option String → List FetchEffect → Prop
  | streaming, [] => streaming = none
  | streaming, .markStreamPending key :: rest => streaming = none ∧ Paired (some key) rest
  | streaming, .clearStreamPending key :: rest => (streaming = none ∨ streaming = some key) ∧ Paired none rest
  | streaming, .send _ :: rest => Paired streaming rest
  | streaming, .takeResponseBodyAsStream _ :: rest => Paired streaming rest
  | streaming, .getResponseBody _ :: rest => Paired streaming rest
  | streaming, .sessionCacheInsert _ _ _ :: rest => Paired streaming rest

theorem paired_cacheAndFulfill (keys : KeyMaker) (world : FetchWorld) (event : EventRequestPaused) (stage : FetchStage)
    (auth : Option String) (status : Int) (dedupKey : String) (body : List UInt8) :
    Paired (some dedupKey) (cacheAndFulfill keys world event stage auth status dedupKey body) := by
  rw [cacheAndFulfill]
  split
  · exact ⟨.inr rfl, rfl⟩
  · exact ⟨.inr rfl, rfl⟩

/-- Only a body that does not decode is cleared twice. -/
theorem paired_oneshot (keys : KeyMaker) (world : FetchWorld) (event : EventRequestPaused) (stage : FetchStage)
    (auth : Option String) (status : Int) (dedupKey : String) :
    Paired (some dedupKey) ((fetchResponseBodyOneshot world event dedupKey).1 ++
      match (fetchResponseBodyOneshot world event dedupKey).2 with
      | some body => cacheAndFulfill keys world event stage auth status dedupKey body
      | none => [.clearStreamPending dedupKey, continueRequest event]) := by
  rw [fetchResponseBodyOneshot]
  split
  · split
    · split
      · exact paired_cacheAndFulfill keys world event stage auth status dedupKey _
      · exact ⟨.inr rfl, .inl rfl, rfl⟩
    · exact paired_cacheAndFulfill keys world event stage auth status dedupKey _
  · exact ⟨.inr rfl, rfl⟩

theorem paired_streamAndFulfill (keys : KeyMaker) (world : FetchWorld) (event : EventRequestPaused)
    (stage : FetchStage) (auth : Option String) (status : Int) :
    Paired none (streamAndFulfill keys world event stage auth status) := by
  refine ⟨rfl, ?_⟩
  show Paired (some ("GET:" ++ event.request.url)) _
  split
  · exact paired_cacheAndFulfill keys world event stage auth status _ _
  · exact paired_oneshot keys world event stage auth status _
  · exact ⟨.inr rfl, rfl⟩

theorem paired_handleFetchResponseStage (keys : KeyMaker) (world : FetchWorld) (event : EventRequestPaused)
    (stage : FetchStage) (auth : Option String) (cacheStrategy : Option CacheStrategy) :
    Paired none (handleFetchResponseStage keys world event stage auth cacheStrategy) := by
  obtain heq | heq := handleFetchResponseStage_cases keys world event stage auth cacheStrategy
  · rw [heq]
    rfl
  · rw [heq]
    exact paired_streamAndFulfill keys world event stage auth _

/-! ### The runs together -/

namespace FetchWorker

variable {s : FetchWorker} {i : Nat} {run : FetchRun} {effect : FetchEffect} {rest : List FetchEffect} {key : String}

/-- All runs are paired with what they have marked. -/
def AllPaired (s : FetchWorker) : Prop := ∀ run ∈ s.runs, Paired run.streaming run.left

theorem Paired.tail {streaming : Option String} (h : Paired streaming (effect :: rest)) :
    Paired (effect.streaming streaming) rest := by
  cases effect with
  | markStreamPending key => exact h.2
  | clearStreamPending key => exact h.2
  | _ => exact h

theorem AllPaired.step (h : s.AllPaired) (input : WorkerInput) : (s.step input).AllPaired := by
  cases input with
  | submit keys world event stage auth cacheStrategy =>
    intro run hrun
    obtain hold | hnew := List.mem_append.1 hrun
    · exact h run hold
    · rw [List.mem_singleton.1 hnew]
      exact paired_handleFetchResponseStage keys world event stage auth cacheStrategy
  | resume i =>
    rw [FetchWorker.step]
    split
    · rename_i run hget
      split
      · rename_i effect rest hleft
        intro later hlater
        obtain hold | rfl := List.mem_or_eq_of_mem_set hlater
        · exact h later hold
        · have hpaired := h run (List.mem_of_getElem? hget)
          rw [hleft] at hpaired
          exact Paired.tail hpaired
      · exact h
    · exact h

/-- Another run streams the key. -/
def OtherStreams (s : FetchWorker) (i : Nat) (key : String) : Prop := ∃ j, j ≠ i ∧ s.Streams j key

theorem exists_streams_iff (hget : s.runs[i]? = some run) :
    (∃ j, s.Streams j key) ↔ run.streaming = some key ∨ s.OtherStreams i key := by
  constructor
  · rintro ⟨j, hstreams⟩
    by_cases hj : j = i
    · obtain ⟨other, hother, hkey⟩ := hstreams
      rw [hj, hget] at hother
      rw [Option.some.inj hother]
      exact .inl hkey
    · exact .inr ⟨j, hj, hstreams⟩
  · rintro (hkey | ⟨j, -, hstreams⟩)
    · exact ⟨i, run, hget, hkey⟩
    · exact ⟨j, hstreams⟩

/-- What a run does is nothing to the others. -/
theorem otherStreams_perform : (s.perform i run effect rest).OtherStreams i key ↔ s.OtherStreams i key := by
  have hother : ∀ j, j ≠ i → (s.perform i run effect rest).runs[j]? = s.runs[j]? :=
    fun j hj => List.getElem?_set_ne (Ne.symm hj)
  constructor
  · rintro ⟨j, hj, other, hget, hkey⟩
    exact ⟨j, hj, other, (hother j hj) ▸ hget, hkey⟩
  · rintro ⟨j, hj, other, hget, hkey⟩
    exact ⟨j, hj, other, (hother j hj).trans hget, hkey⟩

theorem accurate_iff (hget : s.runs[i]? = some run) :
    s.Accurate ↔ ∀ key, key ∈ s.pending ↔ run.streaming = some key ∨ s.OtherStreams i key := by
  refine forall_congr' fun key => ?_
  rw [exists_streams_iff hget, isStreamPending, decide_eq_true_iff]

/-- A mark is right whatever the others do, and a clear is right if none of them streams the key. -/
theorem accurate_perform_iff (hget : s.runs[i]? = some run) (hpaired : Paired run.streaming (effect :: rest))
    (h : s.Accurate) :
    (s.perform i run effect rest).Accurate ↔
      ∀ key, effect = .clearStreamPending key → ¬ s.OtherStreams i key := by
  have hlt : i < s.runs.length := (List.getElem?_eq_some_iff.1 hget).1
  have hbefore := (accurate_iff hget).1 h
  have hafter : (s.perform i run effect rest).runs[i]? = some ⟨effect.streaming run.streaming, rest⟩ :=
    List.getElem?_set_self hlt
  rw [accurate_iff hafter]
  simp only [otherStreams_perform]
  cases effect with
  | markStreamPending marked =>
    refine iff_of_true (fun key => ?_) nofun
    have hnone : run.streaming = none := hpaired.1
    have hkey := hbefore key
    rw [hnone] at hkey
    show key ∈ insert marked s.pending ↔ some marked = some key ∨ _
    rw [Finset.mem_insert, hkey, Option.some_inj]
    constructor
    · rintro (rfl | hstreams | hother)
      · exact .inl rfl
      · exact absurd hstreams nofun
      · exact .inr hother
    · rintro (rfl | hother)
      · exact .inl rfl
      · exact .inr (.inr hother)
  | clearStreamPending cleared =>
    show (∀ key, key ∈ s.pending.erase cleared ↔ none = some key ∨ s.OtherStreams i key) ↔ _
    constructor
    · intro haccurate key hkey hother
      rw [FetchEffect.clearStreamPending.inj hkey] at haccurate
      exact Finset.notMem_erase key s.pending ((haccurate key).2 (.inr hother))
    · intro halone key
      rw [Finset.mem_erase, hbefore key]
      constructor
      · rintro ⟨hne, hstreams | hother⟩
        · obtain hnone | hcleared := hpaired.1
          · exact absurd (hnone.symm.trans hstreams) nofun
          · exact absurd (Option.some.inj (hstreams.symm.trans hcleared)) hne
        · exact .inr hother
      · rintro (hstreams | hother)
        · exact absurd hstreams nofun
        · refine ⟨?_, .inr hother⟩
          rintro rfl
          exact halone key rfl hother
  | _ => exact iff_of_true hbefore nofun

/-- A new run has marked nothing. -/
theorem streams_submit (keys : KeyMaker) (world : FetchWorld) (event : EventRequestPaused) (stage : FetchStage)
    (auth : Option String) (cacheStrategy : Option CacheStrategy) (j : Nat) (key : String) :
    (s.step (.submit keys world event stage auth cacheStrategy)).Streams j key ↔ s.Streams j key := by
  constructor
  · rintro ⟨run, hget, hkey⟩
    rw [step, List.getElem?_append] at hget
    split at hget
    · exact ⟨run, hget, hkey⟩
    · rw [List.mem_singleton.1 (List.mem_of_getElem? hget)] at hkey
      exact absurd hkey nofun
  · rintro ⟨run, hget, hkey⟩
    exact ⟨run, List.getElem?_append_left (List.getElem?_eq_some_iff.1 hget).1 ▸ hget, hkey⟩

/-- A step keeps the markers accurate just when it clears alone. -/
theorem accurate_step_iff (hpaired : s.AllPaired) (h : s.Accurate) (input : WorkerInput) :
    (s.step input).Accurate ↔ s.ClearsAlone input := by
  cases input with
  | submit keys world event stage auth cacheStrategy =>
    refine iff_of_true (fun key => ?_) trivial
    exact (h key).trans (exists_congr fun j => (streams_submit keys world event stage auth cacheStrategy j key).symm)
  | resume i =>
    cases hget : s.runs[i]? with
    | none =>
      have hstep : s.step (.resume i) = s := by rw [step, hget]
      rw [hstep]
      refine iff_of_true h ?_
      rintro key ⟨run, rest, hrun, -⟩
      exact absurd (hget.symm.trans hrun) nofun
    | some run =>
      cases hleft : run.left with
      | nil =>
        have hstep : s.step (.resume i) = s := by rw [step, hget]; dsimp only; rw [hleft]
        rw [hstep]
        refine iff_of_true h ?_
        rintro key ⟨other, rest, hother, hclears⟩
        rw [← Option.some.inj (hget.symm.trans hother), hleft] at hclears
        exact absurd hclears nofun
      | cons effect rest =>
        have hstep : s.step (.resume i) = s.perform i run effect rest := by rw [step, hget]; dsimp only; rw [hleft]
        have hrun := hpaired run (List.mem_of_getElem? hget)
        rw [hleft] at hrun
        rw [hstep, accurate_perform_iff hget hrun h]
        refine forall_congr' fun key => ?_
        constructor
        · rintro halone ⟨other, later, hother, hclears⟩ j hj hstreams
          rw [← Option.some.inj (hget.symm.trans hother), hleft] at hclears
          exact halone (List.cons.inj hclears).1 ⟨j, hj, hstreams⟩
        · rintro halone rfl ⟨j, hj, hstreams⟩
          exact halone ⟨run, rest, hget, hleft⟩ j hj hstreams

/-- Over any number of runs in any order, the markers are accurate throughout just when every clear finds no other run between its mark and its clear of the key. -/
theorem accurate_iff_clears_alone (inputs : List WorkerInput) :
    Always step Accurate new inputs ↔ Allowed step ClearsAlone new inputs := by
  refine always_iff_allowed (fun s _ => s.AllPaired) (fun s input _ h => h.step input)
    (fun s input _ hpaired h => accurate_step_iff hpaired h input) ?_ ?_
  · exact fun run hrun => absurd hrun List.not_mem_nil
  · refine fun key => iff_of_false Bool.false_ne_true ?_
    rintro ⟨i, run, hget, -⟩
    exact absurd hget nofun

/-- Two requests of one script: both mark it, and the first reads its body and clears the marker. -/
def sampleOverlap : List WorkerInput :=
  [.submit sampleKeys sampleWorld (samplePause "interception-1") sampleStage none none,
    .submit sampleKeys sampleWorld (samplePause "interception-2") sampleStage none none,
    .resume 0, .resume 1, .resume 0, .resume 0]

/-- The second request still streams the body, and its marker is gone. -/
theorem marker_lost :
    (final step new sampleOverlap).Streams 1 "GET:https://example.com/a.js" ∧
      (final step new sampleOverlap).isStreamPending "GET:https://example.com/a.js" = false ∧
      ¬ ∀ inputs, Always step Accurate new inputs := by
  have hstreams : (final step new sampleOverlap).runs[1]?.map FetchRun.streaming =
      some (some "GET:https://example.com/a.js") := by decide +kernel
  have hgone : (final step new sampleOverlap).isStreamPending "GET:https://example.com/a.js" = false := by
    decide +kernel
  obtain ⟨run, hget, hkey⟩ := Option.map_eq_some_iff.1 hstreams
  refine ⟨⟨run, hget, hkey⟩, hgone, fun hall => ?_⟩
  have haccurate := (hall sampleOverlap).last
  exact absurd (hgone.symm.trans ((haccurate _).2 ⟨1, run, hget, hkey⟩)) Bool.false_ne_true

end FetchWorker

end SpiderChrome
