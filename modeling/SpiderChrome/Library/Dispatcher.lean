import SpiderChrome.Library.Run
import Mathlib.Algebra.GroupWithZero.Nat

/-!
# Dispatchers

A dispatcher takes what was submitted to it in batches. For each batch it starts a task of its own that runs the jobs of the batch side by side, and goes back to its queue at once. A job that panics takes the others of its batch with it that have not finished. What is submitted before there is a dispatcher is gone.
-/

namespace Dispatcher

inductive JobState where
  | running
  | finished
  | lost
deriving DecidableEq

structure Job (Task : Type) where
  task : Task
  state : JobState

/-- A job that has an end keeps it. -/
def Job.settle {Task : Type} (state : JobState) (job : Job Task) : Job Task :=
  if job.state = .running then { job with state := state } else job

def Job.runs {Task : Type} (p : Task → Bool) (job : Job Task) : Bool := decide (job.state = .running) && p job.task

inductive Input (Task : Type) where
  | init
  | submit (task : Task)
  /-- The dispatcher finds so many tasks in its queue. -/
  | receive (count : Nat)
  | finish (batch place : Nat)
  | panic (batch : Nat)

end Dispatcher

/-- The dispatcher is `ready` once it was started; `submitted` is a record that no operation reads. -/
structure Dispatcher (Task : Type) where
  ready : Bool
  submitted : List Task
  queue : List Task
  batches : List (List (Dispatcher.Job Task))

namespace Dispatcher

variable {Task : Type}

def empty : Dispatcher Task := ⟨false, [], [], []⟩

def init (d : Dispatcher Task) : Dispatcher Task := { d with ready := true }

def submit (d : Dispatcher Task) (task : Task) : Dispatcher Task :=
  if d.ready then { d with submitted := d.submitted ++ [task], queue := d.queue ++ [task] } else d

def receive (limit : Nat) (d : Dispatcher Task) (count : Nat) : Dispatcher Task :=
  match d.queue.take (min count limit) with
  | [] => d
  | first :: rest =>
    { d with
      queue := d.queue.drop (min count limit)
      batches := d.batches ++ [(first :: rest).map fun task => ⟨task, .running⟩] }

def finish (d : Dispatcher Task) (batch place : Nat) : Dispatcher Task :=
  { d with batches := d.batches.modify batch fun jobs => jobs.modify place (Job.settle .finished) }

def panic (d : Dispatcher Task) (batch : Nat) : Dispatcher Task :=
  { d with batches := d.batches.modify batch fun jobs => jobs.map (Job.settle .lost) }

def step (limit : Nat) (d : Dispatcher Task) : Input Task → Dispatcher Task
  | .init => d.init
  | .submit task => d.submit task
  | .receive count => d.receive limit count
  | .finish batch place => d.finish batch place
  | .panic batch => d.panic batch

/-- The jobs that were started, in the order in which they were. -/
def jobs (d : Dispatcher Task) : List (Job Task) := d.batches.flatten

/-- The task of a job that runs. -/
def running (d : Dispatcher Task) (batch place : Nat) : Option Task :=
  ((d.batches[batch]?.bind fun jobs => jobs[place]?).filter fun job => job.state = .running).map Job.task

/-- The tasks of a batch that have no end yet. -/
def unfinished (d : Dispatcher Task) (batch : Nat) : List Task :=
  ((d.batches[batch]?.getD []).filter fun job => job.state = .running).map Job.task

/-- How many tasks of a kind wait or run. -/
def pending (d : Dispatcher Task) (p : Task → Bool) : Nat :=
  d.queue.countP p + (d.batches.map fun jobs => jobs.countP (Job.runs p)).sum

/-- The batches cut what was submitted into pieces, in order, and the queue has the rest. -/
structure Sound (limit : Nat) (d : Dispatcher Task) : Prop where
  order : d.jobs.map Job.task ++ d.queue = d.submitted
  sizes : ∀ batch ∈ d.batches, 1 ≤ batch.length ∧ batch.length ≤ limit
  unready : d.ready = false → d.submitted = []

variable {limit : Nat} {d : Dispatcher Task}

theorem sound_empty (limit : Nat) : (empty : Dispatcher Task).Sound limit where
  order := rfl
  sizes := fun _ hbatch => absurd hbatch List.not_mem_nil
  unready := fun _ => rfl

/-! ### Receiving -/

/-- Nothing is received, or a batch that is not empty. -/
theorem receive_cases (limit : Nat) (d : Dispatcher Task) (count : Nat) :
    d.receive limit count = d ∧ (d.queue = [] ∨ count = 0 ∨ limit = 0) ∨
      ∃ taken rest, taken ≠ [] ∧ taken.length ≤ limit ∧ d.queue = taken ++ rest ∧
        d.receive limit count =
          { d with queue := rest, batches := d.batches ++ [taken.map fun task => ⟨task, .running⟩] } := by
  unfold receive
  split
  · rename_i hnone
    refine Or.inl ⟨rfl, ?_⟩
    obtain hzero | hqueue := List.take_eq_nil_iff.1 hnone
    · by_cases hcount : count = 0
      · exact Or.inr (Or.inl hcount)
      · exact Or.inr (Or.inr (by omega))
    · exact Or.inl hqueue
  · rename_i first rest htake
    refine Or.inr ⟨first :: rest, d.queue.drop (min count limit), List.cons_ne_nil _ _, ?_, ?_, rfl⟩
    · rw [← htake, List.length_take]
      omega
    · rw [← htake, List.take_append_drop]

/-! ### One batch -/

/-- A batch stands between those before it and those after it. -/
theorem modify_eq {A : Type} (l : List A) (i : Nat) (f : A → A) :
    l.modify i f = l ∨ ∃ before a after, l[i]? = some a ∧ l = before ++ a :: after ∧ l.modify i f = before ++ f a :: after := by
  by_cases h : i < l.length
  · obtain ⟨before, a, after, hl, rfl, hmodify⟩ := List.exists_of_modify f h
    refine Or.inr ⟨before, a, after, ?_, hl, hmodify⟩
    rw [hl, List.getElem?_append_right (Nat.le_refl _), Nat.sub_self, List.getElem?_cons_zero]
  · exact Or.inl (List.modify_eq_self (Nat.le_of_not_lt h))

@[simp] theorem task_settle (state : JobState) (job : Job Task) : (job.settle state).task = job.task := by
  unfold Job.settle
  split
  · rfl
  · rfl

/-- What only settles jobs keeps the tasks and the sizes. -/
theorem Sound.modify (h : d.Sound limit) (batch : Nat) {f : List (Job Task) → List (Job Task)}
    (htasks : ∀ jobs, (f jobs).map Job.task = jobs.map Job.task) :
    ({ d with batches := d.batches.modify batch f } : Dispatcher Task).Sound limit := by
  obtain hsame | ⟨before, a, after, -, hbatches, hmodify⟩ := modify_eq d.batches batch f
  · rw [hsame]
    exact h
  · have hlength : (f a).length = a.length := by
      have hmap := congrArg List.length (htasks a)
      rwa [List.length_map, List.length_map] at hmap
    refine ⟨?_, fun jobs hjobs => ?_, h.unready⟩
    · have horder := h.order
      simp only [jobs, hbatches, List.flatten_append, List.flatten_cons, List.map_append] at horder
      simp only [jobs, hmodify, List.flatten_append, List.flatten_cons, List.map_append, htasks]
      exact horder
    · have hsizes := h.sizes
      rw [hbatches] at hsizes
      rw [hmodify] at hjobs
      obtain hbefore | hafter := List.mem_append.1 hjobs
      · exact hsizes jobs (List.mem_append_left _ hbefore)
      · obtain rfl | hrest := List.mem_cons.1 hafter
        · rw [hlength]
          exact hsizes a (List.mem_append_right _ List.mem_cons_self)
        · exact hsizes jobs (List.mem_append_right _ (List.mem_cons_of_mem _ hrest))

theorem map_task_modify (jobs : List (Job Task)) (place : Nat) (state : JobState) :
    (jobs.modify place (Job.settle state)).map Job.task = jobs.map Job.task := by
  obtain hsame | ⟨before, a, after, -, hjobs, hmodify⟩ := modify_eq jobs place (Job.settle state)
  · rw [hsame]
  · rw [hmodify, hjobs]
    simp only [List.map_append, List.map_cons, task_settle]

theorem Sound.step (h : d.Sound limit) (input : Input Task) : (d.step limit input).Sound limit := by
  cases input with
  | init => exact ⟨h.order, h.sizes, fun hready => by cases hready⟩
  | submit task =>
    rw [Dispatcher.step, Dispatcher.submit]
    split
    · rename_i hready
      refine ⟨?_, h.sizes, fun hnot => absurd hready (Bool.eq_false_iff.1 hnot)⟩
      show d.jobs.map Job.task ++ (d.queue ++ [task]) = d.submitted ++ [task]
      rw [← List.append_assoc, h.order]
    · exact h
  | receive count =>
    obtain ⟨hsame, -⟩ | ⟨taken, rest, hne, hlimit, hqueue, heq⟩ := receive_cases limit d count
    · rw [Dispatcher.step, hsame]
      exact h
    · rw [Dispatcher.step, heq]
      refine ⟨?_, fun batch hbatch => ?_, h.unready⟩
      · have horder := h.order
        rw [hqueue] at horder
        simpa [jobs, Function.comp_def] using horder
      · obtain hold | hnew := List.mem_append.1 hbatch
        · exact h.sizes batch hold
        · obtain rfl := List.mem_singleton.1 hnew
          rw [List.length_map]
          exact ⟨List.length_pos_iff.2 hne, hlimit⟩
  | finish batch place => exact h.modify batch fun jobs => map_task_modify jobs place .finished
  | panic batch =>
    refine h.modify batch fun jobs => ?_
    rw [List.map_map]
    exact List.map_congr_left fun job _ => task_settle .lost job

/-- A dispatcher that was started stays so. -/
theorem ready_step (limit : Nat) (h : d.ready = true) (input : Input Task) : (d.step limit input).ready = true := by
  cases input with
  | init => rfl
  | submit task =>
    rw [step, submit, if_pos h]
    exact h
  | receive count =>
    obtain ⟨hsame, -⟩ | ⟨taken, rest, -, -, -, heq⟩ := receive_cases limit d count
    · rw [step, hsame]
      exact h
    · rw [step, heq]
      exact h
  | finish batch place => exact h
  | panic batch => exact h

/-- A dispatcher that was not started has nothing to do. -/
theorem Sound.idle (h : d.Sound limit) (hready : d.ready = false) : d.batches = [] ∧ d.queue = [] := by
  have horder := h.order
  rw [h.unready hready, List.append_eq_nil_iff, List.map_eq_nil_iff] at horder
  obtain ⟨hjobs, hqueue⟩ := horder
  refine ⟨?_, hqueue⟩
  cases hbatches : d.batches with
  | nil => rfl
  | cons batch rest =>
    have hsize := (h.sizes batch (by rw [hbatches]; exact List.mem_cons_self)).1
    rw [jobs, hbatches, List.flatten_cons, List.append_eq_nil_iff] at hjobs
    rw [hjobs.1] at hsize
    cases hsize

/-! ### What waits or runs -/

theorem sum_map_modify {A : Type} (weight : A → Nat) {l : List A} {i : Nat} {a : A} (h : l[i]? = some a) (f : A → A) :
    ((l.modify i f).map weight).sum + weight a = (l.map weight).sum + weight (f a) := by
  induction l generalizing i with
  | nil => cases h
  | cons b rest ih =>
    cases i with
    | zero =>
      cases h
      simp only [List.modify_zero_cons, List.map_cons, List.sum_cons]
      omega
    | succ i =>
      have hrest := ih h
      simp only [List.modify_succ_cons, List.map_cons, List.sum_cons]
      omega

theorem le_sum_map {A : Type} (weight : A → Nat) {l : List A} {i : Nat} {a : A} (h : l[i]? = some a) :
    weight a ≤ (l.map weight).sum := by
  induction l generalizing i with
  | nil => cases h
  | cons b rest ih =>
    rw [List.map_cons, List.sum_cons]
    cases i with
    | zero =>
      cases h
      exact Nat.le_add_right _ _
    | succ i => exact Nat.le_trans (ih h) (Nat.le_add_left _ _)

theorem countP_modify {A : Type} (p : A → Bool) {l : List A} {i : Nat} {a : A} (h : l[i]? = some a) (f : A → A) :
    (l.modify i f).countP p + (if p a then 1 else 0) = l.countP p + if p (f a) then 1 else 0 := by
  induction l generalizing i with
  | nil => cases h
  | cons b rest ih =>
    cases i with
    | zero =>
      cases h
      simp only [List.modify_zero_cons, List.countP_cons]
      omega
    | succ i =>
      have hrest := ih h
      simp only [List.modify_succ_cons, List.countP_cons]
      omega

theorem runs_settle {p : Task → Bool} {state : JobState} (hstate : state ≠ .running) (job : Job Task) :
    (job.settle state).runs p = false := by
  unfold Job.settle Job.runs
  split
  · simp [hstate]
  · rename_i hnot
    simp [hnot]

theorem pending_submit (p : Task → Bool) (task : Task) (hready : d.ready = true) :
    (d.submit task).pending p = d.pending p + if p task then 1 else 0 := by
  rw [submit, if_pos hready]
  simp only [pending, List.countP_append, List.countP_singleton]
  omega

theorem pending_receive (p : Task → Bool) (limit count : Nat) : (d.receive limit count).pending p = d.pending p := by
  obtain ⟨hsame, -⟩ | ⟨taken, rest, -, -, hqueue, heq⟩ := receive_cases limit d count
  · rw [hsame]
  · have htaken : (taken.map fun task => (⟨task, .running⟩ : Job Task)).countP (Job.runs p) = taken.countP p := by
      rw [List.countP_map]
      rfl
    rw [heq]
    simp only [pending, hqueue, List.map_append, List.map_cons, List.map_nil, List.sum_append, List.sum_cons,
      List.sum_nil, List.countP_append, htaken]
    omega

theorem running_eq_some {batch place : Nat} {task : Task} (h : d.running batch place = some task) :
    ∃ jobs, d.batches[batch]? = some jobs ∧ jobs[place]? = some ⟨task, .running⟩ := by
  obtain ⟨⟨task', state⟩, hjob, rfl⟩ := Option.map_eq_some_iff.1 h
  obtain ⟨hget, hrunning⟩ := Option.filter_eq_some_iff.1 hjob
  obtain ⟨jobs, hjobs, hplace⟩ := Option.bind_eq_some_iff.1 hget
  obtain rfl : state = .running := of_decide_eq_true hrunning
  exact ⟨jobs, hjobs, hplace⟩

/-- A job that is finished neither waits nor runs. -/
theorem pending_finish {batch place : Nat} {task : Task} (p : Task → Bool) (h : d.running batch place = some task) :
    d.pending p = (d.finish batch place).pending p + if p task then 1 else 0 := by
  obtain ⟨jobs, hjobs, hplace⟩ := running_eq_some h
  have houter := sum_map_modify (fun jobs => jobs.countP (Job.runs p)) hjobs
    fun jobs => jobs.modify place (Job.settle .finished)
  have hinner := countP_modify (Job.runs p) hplace (Job.settle .finished)
  rw [runs_settle (by decide)] at hinner
  have hruns : Job.runs p ⟨task, .running⟩ = p task := rfl
  rw [hruns] at hinner
  simp only [Bool.false_eq_true, if_false] at hinner
  simp only [pending, finish]
  omega

/-- What a panic takes with it neither waits nor runs. -/
theorem pending_panic (p : Task → Bool) (batch : Nat) :
    d.pending p = (d.panic batch).pending p + (d.unfinished batch).countP p := by
  cases hget : d.batches[batch]? with
  | none =>
    rw [panic, List.modify_eq_self (List.getElem?_eq_none_iff.1 hget), unfinished, hget]
    rfl
  | some jobs =>
    have houter := sum_map_modify (fun jobs => jobs.countP (Job.runs p)) hget fun jobs => jobs.map (Job.settle .lost)
    have hlost : (jobs.map (Job.settle .lost)).countP (Job.runs p) = 0 := by
      rw [List.countP_map, List.countP_eq_zero]
      intro job _
      simp only [Function.comp_apply, runs_settle (show JobState.lost ≠ .running by decide), Bool.false_eq_true,
        not_false_eq_true]
    have hunfinished : (d.unfinished batch).countP p = jobs.countP (Job.runs p) := by
      rw [unfinished, hget, Option.getD_some, List.countP_map, List.countP_filter]
      refine List.countP_congr fun job _ => ?_
      rw [Job.runs, Bool.and_comm, Function.comp_apply]
    simp only [hlost] at houter
    simp only [pending, panic, hunfinished]
    omega

/-! ### Nothing stands in the way of the queue -/

def Input.receives : Input Task → Bool
  | .receive count => decide (0 < count)
  | _ => false

theorem length_jobs_modify (batch : Nat) {f : List (Job Task) → List (Job Task)}
    (hlength : ∀ jobs, (f jobs).length = jobs.length) :
    ({ d with batches := d.batches.modify batch f } : Dispatcher Task).jobs.length = d.jobs.length := by
  rw [jobs, jobs, List.length_flatten, List.length_flatten]
  cases hget : d.batches[batch]? with
  | none => rw [List.modify_eq_self (List.getElem?_eq_none_iff.1 hget)]
  | some jobs =>
    have hsum := sum_map_modify List.length hget f
    rw [hlength] at hsum
    exact Nat.add_right_cancel hsum

theorem submitted_step (limit : Nat) (d : Dispatcher Task) (input : Input Task) :
    d.submitted.length ≤ (d.step limit input).submitted.length := by
  cases input with
  | submit task =>
    rw [step, submit]
    split
    · simp only [List.length_append, Nat.le_add_right]
    · exact Nat.le_refl _
  | receive count =>
    obtain ⟨hsame, -⟩ | ⟨taken, rest, -, -, -, heq⟩ := receive_cases limit d count
    · exact Nat.le_of_eq (congrArg (fun d => d.submitted.length) hsame).symm
    · exact Nat.le_of_eq (congrArg (fun d => d.submitted.length) heq).symm
  | _ => exact Nat.le_refl _

/-- A batch is taken whatever the batches before it do. -/
theorem started_step (h : d.Sound limit) (hlimit : 0 < limit) (input : Input Task) :
    min d.submitted.length (d.jobs.length + if input.receives then 1 else 0) ≤ (d.step limit input).jobs.length := by
  have horder := congrArg List.length h.order
  rw [List.length_append, List.length_map] at horder
  cases input with
  | init => exact Nat.min_le_right _ _
  | submit task =>
    have hsame : (d.submit task).jobs = d.jobs := by
      rw [submit]
      split
      · rfl
      · rfl
    rw [step, hsame]
    exact Nat.min_le_right _ _
  | receive count =>
    obtain ⟨hsame, hidle⟩ | ⟨taken, rest, hne, -, -, heq⟩ := receive_cases limit d count
    · rw [step, hsame]
      obtain hqueue | rfl | rfl := hidle
      · rw [hqueue, List.length_nil] at horder
        omega
      · exact Nat.min_le_right _ _
      · exact absurd hlimit (Nat.lt_irrefl 0)
    · have htaken := List.length_pos_iff.2 hne
      rw [step, heq]
      simp only [jobs, List.flatten_append, List.flatten_cons, List.flatten_nil, List.append_nil, List.length_append,
        List.length_map]
      split
      · omega
      · omega
  | finish batch place =>
    exact Nat.le_trans (Nat.min_le_right _ _)
      (Nat.le_of_eq (length_jobs_modify batch fun jobs => List.length_modify ..).symm)
  | panic batch =>
    exact Nat.le_trans (Nat.min_le_right _ _) (Nat.le_of_eq (length_jobs_modify batch fun jobs => List.length_map ..).symm)

/-- With each batch that is taken one more task at least has been started, as long as there is one. -/
theorem started_final (h : d.Sound limit) (hlimit : 0 < limit) (inputs : List (Input Task)) :
    min d.submitted.length (d.jobs.length + inputs.countP Input.receives) ≤
      (Run.final (step limit) d inputs).jobs.length := by
  induction inputs generalizing d with
  | nil => exact Nat.min_le_right _ _
  | cons input rest ih =>
    have hstep := started_step h hlimit input
    have hmore := submitted_step limit d input
    have hrest := ih (h.step input)
    rw [List.countP_cons]
    show _ ≤ (Run.final (step limit) (d.step limit input) rest).jobs.length
    omega

theorem sound_final (limit : Nat) (inputs : List (Input Task)) :
    (Run.final (step limit) (empty : Dispatcher Task) inputs).Sound limit :=
  Run.invariant_of_step (Sound limit) (fun _ input h => h.step input) (sound_empty limit) inputs

end Dispatcher
