import SpiderChrome.Cache.SiteKeys

/-!
# What a visit leaves behind

All four navigations end with a call that is to clear the session cache, and drop it without awaiting it, so it never runs. What is cached under the site key of the navigation when it begins, and what is stored there while it runs, is there when it returns, unless the cache was full and the site had to make room.
-/

namespace SpiderChrome

open Run

namespace Visit

/-- A response is stored under the site key. -/
def Stores (site : String) (v : Visit) : VisitInput → Prop
  | .store order cacheKey _ _ => v.returned = false ∧ order.Perm v.session.sites.keys ∧ cacheKey = site
  | .advance _ => False

/-- A response of another site is stored in a full cache, and the site makes room for it. -/
def Evicts (site : String) (v : Visit) : VisitInput → Prop
  | .store order cacheKey _ _ =>
    v.returned = false ∧ order.Perm v.session.sites.keys ∧ cacheKey ≠ site ∧
      v.session.sites.get cacheKey = none ∧ site ∈ v.session.evicted order
  | .advance _ => False

/-- At the start, or right after an eviction, nothing is cached under the site key, and from then on nothing is stored there. -/
def LeavesNothing (site : String) (v : Visit) (inputs : List VisitInput) : Prop :=
  ∃ before after, inputs = before ++ after ∧
    (before = [] ∧ v.session.sites.get site = none ∨
      ∃ earlier input, before = earlier ++ [input] ∧ Evicts site (final step v earlier) input) ∧
    Allowed step (fun v input => ¬ Stores site v input) (final step v before) after

theorem not_evicts_of_stores {site : String} {v : Visit} {input : VisitInput} (h : Stores site v input) :
    ¬ Evicts site v input := by
  cases input with
  | store order cacheKey entry entryKey => exact fun he => he.2.2.1 h.2.2
  | advance ok => exact nofun

/-- No statement that is left clears a site of the session cache. -/
def NeverClears (v : Visit) : Prop := ∀ stmt ∈ v.left, ∀ call ∈ stmt.runs, ∀ key, call ≠ .clearLocalSessionCache key

theorem run_calls {calls : List Call} (h : ∀ call ∈ calls, ∀ key, call ≠ .clearLocalSessionCache key)
    (s : SessionStore) : calls.foldl (fun s call => call.run s) s = s := by
  induction calls with
  | nil => rfl
  | cons call rest ih =>
    have hcall : call.run s = s := by
      cases call with
      | clearLocalSessionCache key => exact absurd rfl (h _ List.mem_cons_self key)
      | _ => rfl
    rw [List.foldl_cons, hcall]
    exact ih fun later hlater => h later (List.mem_cons_of_mem _ hlater)

variable {v : Visit} {site : String}

theorem NeverClears.step (h : NeverClears v) (input : VisitInput) : NeverClears (v.step input) := by
  cases input with
  | store order cacheKey entry entryKey =>
    rw [Visit.step]
    split
    · exact h
    · split
      · exact h
      · exact h
  | advance ok =>
    rw [Visit.step]
    split
    · exact h
    · rw [advance]
      split
      · rename_i stmt rest hleft
        intro later hlater
        exact h later (by rw [hleft]; exact List.mem_cons_of_mem _ hlater)
      · exact h

/-- The navigation itself does nothing to the session cache. -/
theorem session_advance (h : NeverClears v) (ok : Bool) : (v.step (.advance ok)).session = v.session := by
  rw [Visit.step]
  split
  · rfl
  · rw [advance]
    split
    · rename_i stmt rest hleft
      exact run_calls (h stmt (by rw [hleft]; exact List.mem_cons_self)) v.session
    · rfl

/-- A step puts something under the site key, makes room of it, or leaves it as it was. -/
theorem get_step (h : NeverClears v) (input : VisitInput) :
    (Stores site v input ∧ (v.step input).session.sites.get site ≠ none) ∨
    (Evicts site v input ∧ ¬ Stores site v input ∧ (v.step input).session.sites.get site = none) ∨
    (¬ Evicts site v input ∧ ¬ Stores site v input ∧
      (v.step input).session.sites.get site = v.session.sites.get site) := by
  cases input with
  | store order cacheKey entry entryKey =>
    rw [Visit.step]
    split
    · rename_i hreturned
      have hover : ¬ v.returned = false := by simp [hreturned]
      exact .inr (.inr ⟨fun he => hover he.1, fun hs => hover hs.1, rfl⟩)
    · rename_i hreturned
      have hrunning : v.returned = false := by simpa using hreturned
      split
      · rename_i horder
        by_cases hkey : cacheKey = site
        · refine .inl ⟨⟨hrunning, horder, hkey⟩, ?_⟩
          rw [← hkey]
          exact v.session.get_insert_self order cacheKey entry entryKey
        · have hget := v.session.get_insert_of_ne order (Ne.symm hkey) entry entryKey
          by_cases hevicts : v.session.sites.get cacheKey = none ∧ site ∈ v.session.evicted order
          · rw [if_pos hevicts] at hget
            exact .inr (.inl ⟨⟨hrunning, horder, hkey, hevicts.1, hevicts.2⟩, fun hs => hkey hs.2.2, hget⟩)
          · rw [if_neg hevicts] at hget
            exact .inr (.inr ⟨fun he => hevicts ⟨he.2.2.2.1, he.2.2.2.2⟩, fun hs => hkey hs.2.2, hget⟩)
      · rename_i horder
        exact .inr (.inr ⟨fun he => horder he.2.1, fun hs => horder hs.2.1, rfl⟩)
  | advance ok => exact .inr (.inr ⟨not_false, not_false, by rw [session_advance h]⟩)

/-- With one more input, either that one makes room, or the site was empty before it and it stores nothing there. -/
theorem leavesNothing_concat (inputs : List VisitInput) (input : VisitInput) :
    LeavesNothing site v (inputs ++ [input]) ↔
      Evicts site (final step v inputs) input ∨
        LeavesNothing site v inputs ∧ ¬ Stores site (final step v inputs) input := by
  constructor
  · rintro ⟨before, after, heq, hempty, hquiet⟩
    induction after using List.reverseRecOn with
    | nil =>
      rw [List.append_nil] at heq
      obtain ⟨hnil, -⟩ | ⟨earlier, last, hlast, hevicts⟩ := hempty
      · rw [hnil] at heq
        exact absurd heq (List.append_ne_nil_of_right_ne_nil _ nofun)
      · obtain ⟨hinputs, hinput⟩ := List.append_inj' (heq.trans hlast) rfl
        rw [hinputs, (List.cons.inj hinput).1]
        exact .inl hevicts
    | append_singleton after last _ =>
      rw [← List.append_assoc] at heq
      obtain ⟨hinputs, hinput⟩ := List.append_inj' heq rfl
      obtain ⟨hearlier, hlast⟩ := allowed_append.1 hquiet
      rw [← final_append, ← hinputs, ← (List.cons.inj hinput).1] at hlast
      exact .inr ⟨⟨before, after, hinputs, hempty, hearlier⟩, hlast.1⟩
  · rintro (hevicts | ⟨⟨before, after, rfl, hempty, hquiet⟩, hstores⟩)
    · exact ⟨inputs ++ [input], [], (List.append_nil _).symm, .inr ⟨inputs, input, rfl, hevicts⟩, trivial⟩
    · rw [final_append] at hstores
      refine ⟨before, after ++ [input], List.append_assoc _ _ _, hempty, ?_⟩
      exact allowed_append.2 ⟨hquiet, hstores, trivial⟩

theorem leavesNothing_nil : LeavesNothing site v [] ↔ v.session.sites.get site = none := by
  constructor
  · rintro ⟨before, after, heq, hempty, -⟩
    obtain ⟨hbefore, -⟩ := List.append_eq_nil_iff.1 heq.symm
    obtain ⟨-, hnone⟩ | ⟨earlier, input, hearlier, -⟩ := hempty
    · exact hnone
    · rw [hbefore] at hearlier
      exact absurd hearlier.symm (List.append_ne_nil_of_right_ne_nil _ nofun)
  · exact fun hnone => ⟨[], [], rfl, .inl ⟨rfl, hnone⟩, trivial⟩

/-- What is cached under the site key after a run. -/
theorem final_get_iff (h : NeverClears v) (inputs : List VisitInput) :
    (final step v inputs).session.sites.get site = none ↔ LeavesNothing site v inputs := by
  induction inputs using List.reverseRecOn with
  | nil => exact leavesNothing_nil.symm
  | append_singleton inputs input ih =>
    have hkept : NeverClears (final step v inputs) :=
      invariant_of_step NeverClears (fun _ input h => h.step input) h inputs
    rw [final_append, final_cons, final_nil, leavesNothing_concat, ← ih]
    obtain ⟨hstores, hsome⟩ | ⟨hevicts, hstores, hnone⟩ | ⟨hevicts, hstores, hsame⟩ := @get_step _ site hkept input
    · constructor
      · exact fun hnone => absurd hnone hsome
      · rintro (hevicts | ⟨-, hquiet⟩)
        · exact absurd hevicts (not_evicts_of_stores hstores)
        · exact absurd hstores hquiet
    · exact iff_of_true hnone (.inl hevicts)
    · rw [hsame]
      constructor
      · exact fun hnone => .inr ⟨hnone, hstores⟩
      · rintro (hevicted | ⟨hnone, -⟩)
        · exact absurd hevicted hevicts
        · exact hnone

end Visit

def Call.clears : Call → Bool
  | clearLocalSessionCache _ => true
  | _ => false

/-- No call of the statement that runs clears a site. -/
def Stmt.quiet (stmt : Stmt) : Bool := stmt.runs.all fun call => !call.clears

theorem CachedNavigation.quiet_prepareRemote (keys : KeyMaker) (nav : CachedNavigation) :
    (nav.prepareRemote keys).all Stmt.quiet = true := by
  rw [prepareRemote]
  split
  · rfl
  · rfl

/-- The clearing call is only ever dropped. -/
theorem NavigationVariant.quiet_statements (variant : NavigationVariant) (keys : KeyMaker) (nav : CachedNavigation) :
    (variant.statements keys nav).all Stmt.quiet = true := by
  cases variant with
  | fastSeed => rfl
  | remote =>
    show (nav.prepareRemote keys ++ _).all Stmt.quiet = true
    rw [List.all_append, nav.quiet_prepareRemote]
    rfl
  | httpFuture =>
    show (nav.prepareRemote keys ++ _).all Stmt.quiet = true
    rw [List.all_append, nav.quiet_prepareRemote]
    rfl
  | seed => rfl

theorem NavigationVariant.neverClears (variant : NavigationVariant) (keys : KeyMaker) (nav : CachedNavigation)
    (session : SessionStore) : (Visit.new session (variant.statements keys nav)).NeverClears := by
  intro stmt hstmt call hcall key hclear
  have hquiet := List.all_eq_true.1 (variant.quiet_statements keys nav) stmt hstmt
  have hcalm := List.all_eq_true.1 hquiet call hcall
  rw [hclear] at hcalm
  exact absurd hcalm Bool.false_ne_true

/-- Whatever was cached before and whatever is stored during it, a navigation leaves its site empty if and only if the site is empty at the start, or was evicted, and nothing is stored there afterwards. -/
theorem CachedNavigation.leaves_nothing_iff (keys : KeyMaker) (nav : CachedNavigation) (variant : NavigationVariant)
    (session : SessionStore) (inputs : List VisitInput) :
    (final Visit.step (Visit.new session (variant.statements keys nav)) inputs).session.sites.get
        (nav.cacheSite keys) = none ↔
      (Visit.new session (variant.statements keys nav)).LeavesNothing (nav.cacheSite keys) inputs :=
  Visit.final_get_iff (variant.neverClears keys nav session) inputs

/-- A text of one page, never stale. -/
def sampleEntry : CacheEntry := (⟨"visited".toUTF8.toList, [], 200⟩, fun _ => false)

/-- The cache key is set, the seed stores a response, and then the navigation goes on to its end. -/
def sampleVisit (keys : KeyMaker) (nav : CachedNavigation) : List VisitInput :=
  [.advance true, .store [] (nav.cacheSite keys) sampleEntry nav.targetUrl, .advance true, .advance true]

/-- The navigation has returned and what was stored for it is there for the next one. -/
theorem left_behind :
    (final Visit.step (Visit.new ⟨∅⟩ (NavigationVariant.fastSeed.statements sampleKeys sampleNavigation))
        (sampleVisit sampleKeys sampleNavigation)).returned = true ∧
      (final Visit.step (Visit.new ⟨∅⟩ (NavigationVariant.fastSeed.statements sampleKeys sampleNavigation))
        (sampleVisit sampleKeys sampleNavigation)).session.checkSessionCacheItem sampleSite "https://example.com/" =
          true ∧
      ¬ ∀ (keys : KeyMaker) (nav : CachedNavigation) (variant : NavigationVariant) (session : SessionStore)
        (inputs : List VisitInput),
        (final Visit.step (Visit.new session (variant.statements keys nav)) inputs).returned = true →
        (final Visit.step (Visit.new session (variant.statements keys nav)) inputs).session.sites.get
          (nav.cacheSite keys) = none := by
  have hreturned : (final Visit.step (Visit.new ⟨∅⟩
      (NavigationVariant.fastSeed.statements sampleKeys sampleNavigation))
      (sampleVisit sampleKeys sampleNavigation)).returned = true := by decide +kernel
  have hstored : (final Visit.step (Visit.new ⟨∅⟩
      (NavigationVariant.fastSeed.statements sampleKeys sampleNavigation))
      (sampleVisit sampleKeys sampleNavigation)).session.checkSessionCacheItem
      (sampleNavigation.cacheSite sampleKeys) "https://example.com/" = true := by decide +kernel
  refine ⟨hreturned, by decide +kernel, fun hall => ?_⟩
  have hnone := hall sampleKeys sampleNavigation .fastSeed ⟨∅⟩ (sampleVisit sampleKeys sampleNavigation) hreturned
  rw [SessionStore.checkSessionCacheItem, SessionStore.getSessionCacheItem, hnone] at hstored
  exact absurd hstored (by simp)

end SpiderChrome
