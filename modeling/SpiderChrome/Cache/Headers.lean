import SpiderChrome.Cache.Interceptor
import SpiderChrome.Cache.SiteKeys

/-!
# The headers of a streamed response

On its way through the cache a response has its headers collected in a map, from which they are written again. A map has one value for a name, so that they come through unless two of them have one name.
-/

namespace SpiderChrome

/-- The iteration of a map gives each of its entries once. -/
def FetchWorld.Iterates (world : FetchWorld) : Prop := ∀ map, (world.iterate map).Perm map.toList

/-- The headers with which a request is answered. -/
def FetchEffect.answer : FetchEffect → Option (Option (List (String × String)))
  | .send (.fulfillRequest _ _ _ headers) => some headers
  | _ => none

/-- Every answer has each header as often as the paused response. -/
def FetchStage.KeepsHeaders (stage : FetchStage) (effects : List FetchEffect) : Prop :=
  ∀ headers ∈ effects.filterMap FetchEffect.answer,
    ∃ sent, headers = some sent ∧ sent.Perm (stage.responseHeaders.getD [])

/-- The body is read, as a stream or else whole. -/
def FetchWorld.ReadsBody (world : FetchWorld) : Prop :=
  match world.responseBodyAsStream with
  | .ok _ | .partialBody _ => True
  | .notStarted => ∃ ret, world.responseBody = some ret ∧
      (ret.base64Encoded = true → (world.decodeBase64 ret.body).isSome = true)

/-- A response that is taken from the browser, and not let go on. -/
structure Streams (world : FetchWorld) (event : EventRequestPaused) (stage : FetchStage)
    (cacheStrategy : Option CacheStrategy) : Prop where
  noError : stage.responseErrorReason = none
  eligible : allowCacheResponse event.resourceType cacheStrategy = true
  http : startsWithHttp event.request.url = true
  successful : 200 ≤ stage.responseStatusCode.getD 0 ∧ stage.responseStatusCode.getD 0 < 400
  large : shouldStream world stage = true
  readsBody : world.ReadsBody

variable {world : FetchWorld} {event : EventRequestPaused} {stage : FetchStage}
variable {cacheStrategy : Option CacheStrategy}

/-! ### The exits -/

theorem answers_cacheAndFulfill (keys : KeyMaker) (world : FetchWorld) (event : EventRequestPaused)
    (stage : FetchStage) (auth : Option String) (status : Int) (dedupKey : String) (body : List UInt8) :
    (cacheAndFulfill keys world event stage auth status dedupKey body).filterMap FetchEffect.answer =
      [some (responseHeadersFromEvent world stage)] := by
  rw [cacheAndFulfill]
  split
  · rfl
  · rfl

theorem answers_oneshot (world : FetchWorld) (event : EventRequestPaused) (dedupKey : String) :
    (fetchResponseBodyOneshot world event dedupKey).1.filterMap FetchEffect.answer = [] := by
  rw [fetchResponseBodyOneshot]
  split
  · split
    · split
      · rfl
      · rfl
    · rfl
  · rfl

theorem oneshot_isSome_iff (world : FetchWorld) (event : EventRequestPaused) (dedupKey : String) :
    (fetchResponseBodyOneshot world event dedupKey).2.isSome = true ↔
      ∃ ret, world.responseBody = some ret ∧
        (ret.base64Encoded = true → (world.decodeBase64 ret.body).isSome = true) := by
  rw [fetchResponseBodyOneshot]
  cases hbody : world.responseBody with
  | none => exact iff_of_false Bool.false_ne_true nofun
  | some ret =>
    have hret : (∃ ret', some ret = some ret' ∧
        (ret'.base64Encoded = true → (world.decodeBase64 ret'.body).isSome = true)) ↔
        (ret.base64Encoded = true → (world.decodeBase64 ret.body).isSome = true) := by
      simp only [Option.some.injEq, exists_eq_left']
    rw [hret]
    dsimp only
    by_cases hencoded : ret.base64Encoded = true
    · rw [if_pos hencoded]
      cases hdecoded : world.decodeBase64 ret.body with
      | none => exact iff_of_false Bool.false_ne_true fun h => Bool.false_ne_true (h hencoded)
      | some body => exact iff_of_true rfl fun _ => rfl
    · rw [if_neg hencoded]
      exact iff_of_true rfl fun h => absurd h hencoded

/-- Whichever way the body is read, the request is answered with the headers of the map. -/
theorem answers_streamAndFulfill (h : world.ReadsBody) (keys : KeyMaker) (event : EventRequestPaused)
    (stage : FetchStage) (auth : Option String) (status : Int) :
    (streamAndFulfill keys world event stage auth status).filterMap FetchEffect.answer =
      [some (responseHeadersFromEvent world stage)] := by
  rw [streamAndFulfill, List.filterMap_cons_none rfl, List.filterMap_cons_none rfl]
  cases hstream : world.responseBodyAsStream with
  | ok body => exact answers_cacheAndFulfill keys world event stage auth status _ body
  | partialBody body => rfl
  | notStarted =>
    rw [FetchWorld.ReadsBody, hstream] at h
    have hsome := (oneshot_isSome_iff world event ("GET:" ++ event.request.url)).2 h
    obtain ⟨body, hbody⟩ := Option.isSome_iff_exists.1 hsome
    dsimp only
    rw [List.filterMap_append, answers_oneshot, List.nil_append, hbody]
    exact answers_cacheAndFulfill keys world event stage auth status _ body

/-- When neither way succeeds the request goes on. -/
theorem answers_not_read (h : ¬ world.ReadsBody) (keys : KeyMaker) (event : EventRequestPaused)
    (stage : FetchStage) (auth : Option String) (status : Int) :
    (streamAndFulfill keys world event stage auth status).filterMap FetchEffect.answer = [] := by
  rw [streamAndFulfill, List.filterMap_cons_none rfl, List.filterMap_cons_none rfl]
  cases hstream : world.responseBodyAsStream with
  | ok body =>
    rw [FetchWorld.ReadsBody, hstream] at h
    exact absurd trivial h
  | partialBody body =>
    rw [FetchWorld.ReadsBody, hstream] at h
    exact absurd trivial h
  | notStarted =>
    rw [FetchWorld.ReadsBody, hstream] at h
    have hnone : (fetchResponseBodyOneshot world event ("GET:" ++ event.request.url)).2 = none := by
      apply Option.not_isSome_iff_eq_none.1
      intro hsome
      exact h ((oneshot_isSome_iff world event _).1 hsome)
    dsimp only
    rw [List.filterMap_append, answers_oneshot, List.nil_append, hnone]
    rfl

theorem answers_of_streams (h : Streams world event stage cacheStrategy) (keys : KeyMaker) (auth : Option String) :
    (handleFetchResponseStage keys world event stage auth cacheStrategy).filterMap FetchEffect.answer =
      [some (responseHeadersFromEvent world stage)] := by
  obtain ⟨hnoError, heligible, hhttp, hsuccessful, hlarge, hreads⟩ := h
  simp only [handleFetchResponseStage, hnoError, heligible, hhttp, hsuccessful, hlarge, Option.isSome_none,
    Bool.not_true, Bool.or_self, Bool.false_eq_true, and_self, not_true_eq_false, if_false]
  exact answers_streamAndFulfill hreads keys event stage auth _

theorem answers_of_not_streams (h : ¬ Streams world event stage cacheStrategy) (keys : KeyMaker)
    (auth : Option String) :
    (handleFetchResponseStage keys world event stage auth cacheStrategy).filterMap FetchEffect.answer = [] := by
  rw [handleFetchResponseStage]
  split
  · rfl
  split
  · rfl
  split
  · rfl
  split
  · rfl
  · rename_i hnoError hallowed hsuccessful hlarge
    have heligible : allowCacheResponse event.resourceType cacheStrategy = true ∧
        startsWithHttp event.request.url = true := by
      simpa only [Bool.not_eq_true, Bool.or_eq_false_iff, Bool.not_eq_false'] using hallowed
    apply answers_not_read
    intro hreads
    apply h
    exact ⟨Option.not_isSome_iff_eq_none.1 hnoError, heligible.1, heligible.2, not_not.1 hsuccessful,
      by simpa only [Bool.not_eq_true', Bool.not_eq_false] using hlarge, hreads⟩

/-! ### The map -/

theorem responseHeadersFromEvent_perm_iff (hiterates : world.Iterates) (stage : FetchStage) :
    (responseHeadersFromEvent world stage).Perm (stage.responseHeaders.getD []) ↔
      ((stage.responseHeaders.getD []).map Prod.fst).Nodup := by
  rw [← Table.toList_foldl_set_perm_iff]
  have hmap := hiterates ((stage.responseHeaders.getD []).foldl (fun map header => map.set header.1 header.2) ∅)
  constructor
  · intro hperm
    exact hmap.symm.trans hperm
  · intro hperm
    exact hmap.trans hperm

/-- The headers of the paused response are kept, each as often, just when the response is let go on or no two of its headers have one name. -/
theorem keeps_headers_iff (hiterates : world.Iterates) (keys : KeyMaker) (event : EventRequestPaused)
    (stage : FetchStage) (auth : Option String) (cacheStrategy : Option CacheStrategy) :
    stage.KeepsHeaders (handleFetchResponseStage keys world event stage auth cacheStrategy) ↔
      (Streams world event stage cacheStrategy → ((stage.responseHeaders.getD []).map Prod.fst).Nodup) := by
  rw [FetchStage.KeepsHeaders, ← responseHeadersFromEvent_perm_iff hiterates stage]
  by_cases hstreams : Streams world event stage cacheStrategy
  · rw [answers_of_streams hstreams, List.forall_mem_singleton]
    constructor
    · rintro ⟨sent, hsent, hperm⟩ -
      rwa [Option.some.inj hsent]
    · intro hperm
      exact ⟨_, rfl, hperm hstreams⟩
  · rw [answers_of_not_streams hstreams]
    exact iff_of_true (List.forall_mem_nil _) fun h => absurd h hstreams

/-! ### Two cookies -/

def cookieWorld : FetchWorld := { sampleWorld with iterate := Table.toList }

/-- A large script that sets cookies. -/
def cookieStage (cookies : List String) : FetchStage :=
  ⟨none, some 200, some (("Content-Length", "2097152") :: cookies.map fun cookie => ("Set-Cookie", cookie)), []⟩

theorem cookieWorld_iterates : cookieWorld.Iterates := fun map => List.Perm.refl map.toList

/-- One cookie comes through. -/
theorem keeps_headers_one_cookie :
    (cookieStage ["a=1"]).KeepsHeaders
      (handleFetchResponseStage sampleKeys cookieWorld (samplePause "1") (cookieStage ["a=1"]) none none) :=
  (keeps_headers_iff cookieWorld_iterates sampleKeys (samplePause "1") (cookieStage ["a=1"]) none none).2
    fun _ => by decide

/-- Of two cookies only the second does. -/
theorem streamed_cookie_lost :
    (handleFetchResponseStage sampleKeys cookieWorld (samplePause "1") (cookieStage ["a=1", "b=2"]) none
        none).filterMap FetchEffect.answer = [some [("Set-Cookie", "b=2"), ("Content-Length", "2097152")]] ∧
      ¬ (cookieStage ["a=1", "b=2"]).KeepsHeaders
        (handleFetchResponseStage sampleKeys cookieWorld (samplePause "1") (cookieStage ["a=1", "b=2"]) none none) := by
  have hanswer : (handleFetchResponseStage sampleKeys cookieWorld (samplePause "1") (cookieStage ["a=1", "b=2"]) none
      none).filterMap FetchEffect.answer = [some [("Set-Cookie", "b=2"), ("Content-Length", "2097152")]] := by
    decide +kernel
  refine ⟨hanswer, ?_⟩
  rw [FetchStage.KeepsHeaders, hanswer, List.forall_mem_singleton]
  rintro ⟨sent, hsent, hperm⟩
  rw [← Option.some.inj hsent] at hperm
  exact absurd hperm.length_eq (by decide)

end SpiderChrome
