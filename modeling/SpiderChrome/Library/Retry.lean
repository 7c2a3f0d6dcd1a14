import Mathlib.Data.List.Basic

/-!
# Queues of jobs that wait

A loop takes one job after the other from the front of a queue. A job that has to wait goes to the back, and the loop gives up at a job that has to wait when all the others have waited since the last one that was done. It ends after a bounded number of turns: `run_returns`. Where each job needs one key and gives another, it does every job if every need can be reached from the keys that are there at first, and otherwise gives up at a job whose need cannot: `run_reaches`.
-/

namespace Retry

/-- Why a loop stops. -/
inductive Stop (J E : Type) where
  | finished
  | failed (failure : E)
  | gaveUp (job : J)

/-- The state in which a loop stops, and why. -/
structure Ending (S J E : Type) where
  state : S
  stop : Stop J E

variable {S J E : Type}

/-- The loop. An attempt at a job that has to wait comes to `none`. -/
def run (attempt : S → J → Option (Except E S)) : Nat → S → List J → Nat → Option (Ending S J E)
  | 0, _, _, _ => none
  | _ + 1, s, [], _ => some ⟨s, .finished⟩
  | fuel + 1, s, job :: queue, retries =>
    match attempt s job with
    | some (.ok s) => run attempt fuel s queue 0
    | some (.error failure) => some ⟨s, .failed failure⟩
    | none =>
      if queue.length < retries + 1 then some ⟨s, .gaveUp job⟩
      else run attempt fuel s (queue ++ [job]) (retries + 1)

/-- More turns than the loop can take. -/
def turns (queue : List J) (retries : Nat) : Nat :=
  queue.length * (queue.length + 1) + (queue.length - retries)

variable {attempt : S → J → Option (Except E S)} {s s' : S} {job : J} {queue : List J} {failure : E}

/-! ### One turn -/

/-- Where the loop stops. -/
inductive Stops (attempt : S → J → Option (Except E S)) (s : S) : List J → Nat → Stop J E → Prop
  | finished (retries : Nat) : Stops attempt s [] retries .finished
  | failed {job : J} {failure : E} (h : attempt s job = some (.error failure)) (queue : List J) (retries : Nat) :
    Stops attempt s (job :: queue) retries (.failed failure)
  | gaveUp {job : J} {queue : List J} {retries : Nat} (h : attempt s job = none)
    (hall : queue.length < retries + 1) : Stops attempt s (job :: queue) retries (.gaveUp job)

/-- A turn after which the loop goes on. -/
inductive Goes (attempt : S → J → Option (Except E S)) (s : S) : List J → Nat → S → List J → Nat → Prop
  | done {job : J} {s' : S} (h : attempt s job = some (.ok s')) (queue : List J) (retries : Nat) :
    Goes attempt s (job :: queue) retries s' queue 0
  | waits {job : J} {queue : List J} {retries : Nat} (h : attempt s job = none)
    (hall : ¬ queue.length < retries + 1) :
    Goes attempt s (job :: queue) retries s (queue ++ [job]) (retries + 1)

theorem Stops.run {retries : Nat} {stop : Stop J E} (h : Stops attempt s queue retries stop) (fuel : Nat) :
    run attempt (fuel + 1) s queue retries = some ⟨s, stop⟩ := by
  cases h with
  | finished retries => rfl
  | failed hattempt queue retries => rw [Retry.run, hattempt]
  | gaveUp hattempt hall =>
    rw [Retry.run, hattempt]
    exact if_pos hall

theorem Goes.run {queue' : List J} {retries retries' : Nat} (h : Goes attempt s queue retries s' queue' retries')
    (fuel : Nat) : run attempt (fuel + 1) s queue retries = run attempt fuel s' queue' retries' := by
  cases h with
  | done hattempt queue retries => rw [Retry.run, hattempt]
  | waits hattempt hall =>
    rw [Retry.run, hattempt]
    exact if_neg hall

theorem stops_or_goes (attempt : S → J → Option (Except E S)) (s : S) (queue : List J) (retries : Nat) :
    (∃ stop, Stops attempt s queue retries stop) ∨
      ∃ s' queue' retries', Goes attempt s queue retries s' queue' retries' := by
  cases queue with
  | nil => exact .inl ⟨_, .finished retries⟩
  | cons job queue =>
    cases hattempt : attempt s job with
    | none =>
      by_cases hall : queue.length < retries + 1
      · exact .inl ⟨_, .gaveUp hattempt hall⟩
      · exact .inr ⟨_, _, _, .waits hattempt hall⟩
    | some result =>
      cases result with
      | error failure => exact .inl ⟨_, .failed hattempt queue retries⟩
      | ok s' => exact .inr ⟨_, _, _, .done hattempt queue retries⟩

/-! ### Termination -/

/-- Each turn takes a job out of the queue, or brings it nearer to giving up. -/
theorem Goes.turns_lt {queue' : List J} {retries retries' : Nat}
    (h : Goes attempt s queue retries s' queue' retries') : turns queue' retries' < turns queue retries := by
  cases h with
  | done _ =>
    have hsquare : (queue'.length + 1) * (queue'.length + 1 + 1)
        = queue'.length * (queue'.length + 1) + 2 * (queue'.length + 1) := by
      rw [Nat.mul_comm 2, ← Nat.mul_comm (queue'.length + 1), ← Nat.mul_add]
    simp only [turns, List.length_cons, hsquare]
    omega
  | waits _ hall =>
    simp only [turns, List.length_append, List.length_cons, List.length_nil, Nat.zero_add]
    omega

/-- With more fuel the loop ends no other way. -/
theorem run_of_le {fuel fuel' retries : Nat} {ending : Ending S J E} (hle : fuel ≤ fuel')
    (h : run attempt fuel s queue retries = some ending) : run attempt fuel' s queue retries = some ending := by
  induction fuel generalizing fuel' s queue retries with
  | zero => cases h
  | succ fuel ih =>
    obtain ⟨fuel', rfl⟩ : ∃ n, fuel' = n + 1 := ⟨fuel' - 1, by omega⟩
    rcases stops_or_goes attempt s queue retries with ⟨stop, hstops⟩ | ⟨s', queue', retries', hgoes⟩
    · rw [hstops.run] at h ⊢
      exact h
    · rw [hgoes.run] at h ⊢
      exact ih (Nat.le_of_succ_le_succ hle) h

theorem run_unique {fuel fuel' retries : Nat} {ending ending' : Ending S J E}
    (h : run attempt fuel s queue retries = some ending) (h' : run attempt fuel' s queue retries = some ending') :
    ending = ending' := by
  rcases Nat.le_total fuel fuel' with hle | hle
  · exact Option.some.inj ((run_of_le hle h).symm.trans h')
  · exact Option.some.inj (h.symm.trans (run_of_le hle h'))

/-- The loop ends, after no more turns than `turns` says. -/
theorem run_returns (attempt : S → J → Option (Except E S)) (s : S) (queue : List J) (retries : Nat) :
    ∃ ending, run attempt (turns queue retries + 1) s queue retries = some ending := by
  induction hturns : turns queue retries using Nat.strongRecOn generalizing s queue retries with
  | ind n ih =>
    subst hturns
    rcases stops_or_goes attempt s queue retries with ⟨stop, hstops⟩ | ⟨s', queue', retries', hgoes⟩
    · exact ⟨_, hstops.run _⟩
    · obtain ⟨ending, hending⟩ := ih _ hgoes.turns_lt s' queue' retries' rfl
      exact ⟨ending, (hgoes.run _).trans (run_of_le hgoes.turns_lt hending)⟩

/-! ### Invariants -/

/-- What each turn keeps holds where the loop stops. -/
theorem run_invariant {Inv : S → List J → Nat → Prop}
    (hkeeps : ∀ {s queue retries s' queue' retries'}, Goes attempt s queue retries s' queue' retries' →
      Inv s queue retries → Inv s' queue' retries')
    {fuel retries : Nat} {ending : Ending S J E} (hinv : Inv s queue retries)
    (h : run attempt fuel s queue retries = some ending) :
    ∃ queue retries, Inv ending.state queue retries ∧ Stops attempt ending.state queue retries ending.stop := by
  induction fuel generalizing s queue retries with
  | zero => cases h
  | succ fuel ih =>
    rcases stops_or_goes attempt s queue retries with ⟨stop, hstops⟩ | ⟨s', queue', retries', hgoes⟩
    · rw [hstops.run] at h
      cases h
      exact ⟨queue, retries, hinv, hstops⟩
    · rw [hgoes.run] at h
      exact ih (hkeeps hgoes hinv) h

/-- Where the loop fails, an attempt has failed. -/
theorem attempt_of_failed {fuel retries : Nat} (h : run attempt fuel s queue retries = some ⟨s', .failed failure⟩) :
    ∃ job, attempt s' job = some (.error failure) := by
  have hstopped := @run_invariant _ _ _ _ _ _ (fun _ _ _ => True) (fun _ _ => trivial) _ _ _ trivial h
  obtain ⟨_, _, _, hstops⟩ := hstopped
  cases hstops with
  | failed hattempt => exact ⟨_, hattempt⟩

/-! ### Jobs that need a key and give one -/

section Keys

variable {K : Type}

/-- A key that is there at first, or that a job gives whose need can be reached. -/
inductive Reached (needs gives : J → K) (initial : K → Prop) (jobs : List J) : K → Prop
  | initial {key : K} (h : initial key) : Reached needs gives initial jobs key
  | given {job : J} (hmem : job ∈ jobs) (h : Reached needs gives initial jobs (needs job)) :
    Reached needs gives initial jobs (gives job)

/-- A job waits for the key it needs, and does nothing to the keys but give one. -/
structure Keyed (attempt : S → J → Option (Except E S)) (needs gives : J → K) (known : S → K → Prop) :
    Prop where
  waits : ∀ s job, attempt s job = none ↔ ¬ known s (needs job)
  learns : ∀ s job s', attempt s job = some (.ok s') → ∀ key, known s' key ↔ known s key ∨ key = gives job

/-- How far the loop has come: the last `retries` jobs of the queue have had to wait since a job was done. -/
structure Progress (needs gives : J → K) (known : S → K → Prop) (initial : K → Prop) (jobs : List J)
    (s : S) (queue : List J) (retries : Nat) : Prop where
  keeps : ∀ key, initial key → known s key
  sound : ∀ key, known s key → Reached needs gives initial jobs key
  subset : ∀ job ∈ queue, job ∈ jobs
  complete : ∀ job ∈ jobs, job ∈ queue ∨ known s (needs job) ∧ known s (gives job)
  waiting : ∃ before after, queue = before ++ after ∧ after.length = retries ∧
    ∀ job ∈ after, ¬ known s (needs job)

variable {needs gives : J → K} {known : S → K → Prop} {initial : K → Prop} {jobs : List J}

theorem Progress.start (s : S) (jobs : List J) :
    Progress needs gives known (known s) jobs s jobs 0 where
  keeps _ h := h
  sound _ h := .initial h
  subset _ h := h
  complete _ h := .inl h
  waiting := ⟨jobs, [], (List.append_nil jobs).symm, rfl, fun _ h => absurd h List.not_mem_nil⟩

theorem Progress.done (hkeyed : Keyed attempt needs gives known) {retries : Nat}
    (h : Progress needs gives known initial jobs s (job :: queue) retries)
    (hattempt : attempt s job = some (.ok s')) : Progress needs gives known initial jobs s' queue 0 := by
  have hmem : job ∈ jobs := h.subset job List.mem_cons_self
  have hneeds : known s (needs job) := by
    by_contra hnot
    rw [(hkeyed.waits s job).2 hnot] at hattempt
    cases hattempt
  have hlearns := hkeyed.learns s job s' hattempt
  have hkept : ∀ key, known s key → known s' key := fun key hkey => (hlearns key).2 (.inl hkey)
  refine ⟨fun key hkey => hkept key (h.keeps key hkey), ?_, fun j hj => h.subset j (List.mem_cons_of_mem _ hj), ?_,
    queue, [], (List.append_nil queue).symm, rfl, fun _ hj => absurd hj List.not_mem_nil⟩
  · intro key hkey
    rcases (hlearns key).1 hkey with hkey | rfl
    · exact h.sound key hkey
    · exact .given hmem (h.sound _ hneeds)
  · intro j hj
    rcases h.complete j hj with hqueue | ⟨hj1, hj2⟩
    · rcases List.mem_cons.1 hqueue with rfl | hqueue
      · exact .inr ⟨hkept _ hneeds, (hlearns _).2 (.inr rfl)⟩
      · exact .inl hqueue
    · exact .inr ⟨hkept _ hj1, hkept _ hj2⟩

theorem Progress.rotate {retries : Nat} (h : Progress needs gives known initial jobs s (job :: queue) retries)
    (hwaits : ¬ known s (needs job)) (hall : ¬ queue.length < retries + 1) :
    Progress needs gives known initial jobs s (queue ++ [job]) (retries + 1) := by
  have hmem : ∀ j, j ∈ queue ++ [job] ↔ j ∈ job :: queue := by
    intro j
    rw [List.mem_append, List.mem_singleton, List.mem_cons, or_comm]
  refine ⟨h.keeps, h.sound, fun j hj => h.subset j ((hmem j).1 hj), ?_, ?_⟩
  · intro j hj
    exact (h.complete j hj).imp_left (hmem j).2
  · obtain ⟨before, after, hqueue, hlength, hafter⟩ := h.waiting
    cases before with
    | nil =>
      have hlengths := congrArg List.length hqueue
      rw [List.nil_append, List.length_cons] at hlengths
      omega
    | cons j before =>
      obtain ⟨rfl, rfl⟩ := List.cons.inj hqueue
      refine ⟨before, after ++ [job], List.append_assoc .., ?_, ?_⟩
      · rw [List.length_append, hlength, List.length_singleton]
      · intro j hj
        rcases List.mem_append.1 hj with hj | hj
        · exact hafter j hj
        · rw [List.mem_singleton.1 hj]
          exact hwaits

theorem Progress.goes (hkeyed : Keyed attempt needs gives known) {queue' : List J} {retries retries' : Nat}
    (hgoes : Goes attempt s queue retries s' queue' retries')
    (h : Progress needs gives known initial jobs s queue retries) :
    Progress needs gives known initial jobs s' queue' retries' := by
  cases hgoes with
  | done hattempt => exact h.done hkeyed hattempt
  | waits hattempt hall => exact h.rotate ((hkeyed.waits _ _).1 hattempt) hall

/-- Where all jobs that are left have to wait, no other key can be reached. -/
theorem Progress.reached_iff {retries : Nat} (h : Progress needs gives known initial jobs s queue retries)
    (hstuck : ∀ job ∈ queue, ¬ known s (needs job)) (key : K) :
    Reached needs gives initial jobs key ↔ known s key := by
  refine ⟨fun hreached => ?_, h.sound key⟩
  induction hreached with
  | initial hkey => exact h.keeps _ hkey
  | given hmem _ ih =>
    rcases h.complete _ hmem with hqueue | ⟨_, hgives⟩
    · exact absurd ih (hstuck _ hqueue)
    · exact hgives

/-- Where the loop gives up, every job that is left has to wait. -/
theorem Progress.stuck {retries : Nat} (h : Progress needs gives known initial jobs s (job :: queue) retries)
    (hwaits : ¬ known s (needs job)) (hall : queue.length < retries + 1) :
    ∀ j ∈ job :: queue, ¬ known s (needs j) := by
  obtain ⟨before, after, hqueue, hlength, hafter⟩ := h.waiting
  intro j hj
  rcases List.mem_cons.1 hj with rfl | hj
  · exact hwaits
  cases before with
  | nil =>
    rw [List.nil_append] at hqueue
    exact hafter j (hqueue ▸ List.mem_cons_of_mem job hj)
  | cons first before =>
    rw [List.cons_append] at hqueue
    obtain ⟨-, rfl⟩ := List.cons.inj hqueue
    rw [List.length_append] at hall
    have hnil : before = [] := List.length_eq_zero_iff.1 (by omega)
    subst hnil
    exact hafter j hj

/-- The loop does every job only if every need can be reached, and gives up only at a job whose need cannot. -/
theorem run_reaches (hkeyed : Keyed attempt needs gives known) {fuel : Nat} {ending : Ending S J E}
    (h : run attempt fuel s jobs 0 = some ending) :
    match ending.stop with
    | .finished => ∀ job ∈ jobs, Reached needs gives (known s) jobs (needs job)
    | .failed _ => True
    | .gaveUp job => job ∈ jobs ∧ ¬ Reached needs gives (known s) jobs (needs job) := by
  obtain ⟨queue, retries, hinv, hstops⟩ := run_invariant (Progress.goes hkeyed) (Progress.start s jobs) h
  obtain ⟨s', stop⟩ := ending
  cases hstops with
  | finished =>
    intro job hjob
    rcases hinv.complete job hjob with hqueue | ⟨hneeds, _⟩
    · cases hqueue
    · exact hinv.sound _ hneeds
  | failed => trivial
  | @gaveUp job queue _ hattempt hall =>
    have hwaits := (hkeyed.waits s' job).1 hattempt
    refine ⟨hinv.subset job List.mem_cons_self, fun hreached => hwaits ?_⟩
    exact (hinv.reached_iff (hinv.stuck hwaits hall) _).1 hreached

end Keys

/-! ### Two loops on one queue -/

section Limits

variable {T : Type}

/-- An attempt follows another one, except that it may fail where the other one goes beyond a limit. -/
structure Follows (attempt : S → J → Option (Except E S)) (plain : T → J → Option (Except E T))
    (related : S → T → Prop) (beyond : T → Prop) : Prop where
  waits : ∀ s t job, related s t → plain t job = none → attempt s job = none
  fails : ∀ s t job failure, related s t → plain t job = some (.error failure) →
    attempt s job = some (.error failure)
  does : ∀ s t job t', related s t → plain t job = some (.ok t') →
    (∃ s', attempt s job = some (.ok s') ∧ related s' t') ∨
      (∃ failure, attempt s job = some (.error failure)) ∧ beyond t'
  stays : ∀ t job t', beyond t → plain t job = some (.ok t') → beyond t'

variable {plain : T → J → Option (Except E T)} {related : S → T → Prop} {beyond : T → Prop} {t : T}

/-- Once beyond the limit, a loop ends beyond it. -/
theorem beyond_of_run (hfollows : Follows attempt plain related beyond) {fuel retries : Nat} {ending : Ending T J E}
    (hbeyond : beyond t) (h : run plain fuel t queue retries = some ending) : beyond ending.state := by
  have hkeeps : ∀ {t queue retries t' queue' retries'}, Goes plain t queue retries t' queue' retries' →
      beyond t → beyond t' := by
    intro t queue retries t' queue' retries' hgoes hbeyond
    cases hgoes with
    | done hplain => exact hfollows.stays _ _ _ hbeyond hplain
    | waits => exact hbeyond
  obtain ⟨_, _, hended, _⟩ := @run_invariant _ _ _ _ _ _ (fun t _ _ => beyond t) hkeeps _ _ _ hbeyond h
  exact hended

theorem Follows.stops (hfollows : Follows attempt plain related beyond) {retries : Nat} {stop : Stop J E}
    (hrelated : related s t) (h : Stops plain t queue retries stop) : Stops attempt s queue retries stop := by
  cases h with
  | finished => exact .finished retries
  | failed hplain => exact .failed (hfollows.fails _ _ _ _ hrelated hplain) _ _
  | gaveUp hplain hall => exact .gaveUp (hfollows.waits _ _ _ hrelated hplain) hall

theorem Follows.goes (hfollows : Follows attempt plain related beyond) {t' : T} {queue' : List J}
    {retries retries' : Nat} (hrelated : related s t) (h : Goes plain t queue retries t' queue' retries') :
    (∃ s', Goes attempt s queue retries s' queue' retries' ∧ related s' t') ∨
      (∃ failure, Stops attempt s queue retries (.failed failure)) ∧ beyond t' := by
  cases h with
  | done hplain =>
    rcases hfollows.does _ _ _ _ hrelated hplain with ⟨s', hattempt, hrelated'⟩ | ⟨⟨failure, hattempt⟩, hbeyond⟩
    · exact .inl ⟨s', .done hattempt _ _, hrelated'⟩
    · exact .inr ⟨⟨failure, .failed hattempt _ _⟩, hbeyond⟩
  | waits hplain hall => exact .inl ⟨s, .waits (hfollows.waits _ _ _ hrelated hplain) hall, hrelated⟩

/-- The loop ends as the other one does, or fails where the other one ends beyond the limit. -/
theorem run_follows (hfollows : Follows attempt plain related beyond) {fuel retries : Nat} {ending : Ending T J E}
    (hrelated : related s t) (h : run plain fuel t queue retries = some ending) :
    (∃ s', related s' ending.state ∧ run attempt fuel s queue retries = some ⟨s', ending.stop⟩) ∨
      (∃ s' failure, run attempt fuel s queue retries = some ⟨s', .failed failure⟩) ∧ beyond ending.state := by
  induction fuel generalizing s t queue retries with
  | zero => cases h
  | succ fuel ih =>
    rcases stops_or_goes plain t queue retries with ⟨stop, hstops⟩ | ⟨t', queue', retries', hgoes⟩
    · rw [hstops.run] at h
      cases h
      exact .inl ⟨s, hrelated, (hfollows.stops hrelated hstops).run fuel⟩
    · rw [hgoes.run] at h
      rcases hfollows.goes hrelated hgoes with ⟨s', hgoes', hrelated'⟩ | ⟨⟨failure, hfails⟩, hbeyond⟩
      · rw [hgoes'.run]
        exact ih hrelated' h
      · exact .inr ⟨⟨s, failure, hfails.run fuel⟩, beyond_of_run hfollows hbeyond h⟩

end Limits

end Retry
