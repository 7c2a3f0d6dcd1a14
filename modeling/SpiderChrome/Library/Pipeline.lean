import Mathlib.Data.List.Basic
import Mathlib.Algebra.GroupWithZero.Nat

/-!
# Ordered pipelines

Jobs that run side by side and finish in any order, and whose results are taken in the order in which the jobs were submitted. The results that a pipeline holds are those of the jobs submitted and not yet taken, in this order, however far the jobs are.
-/

/-- A job, with the result that it comes to. -/
structure Job (A : Type) where
  result : A
  finished : Bool

/-- The jobs that were submitted and not yet taken, the oldest first. -/
structure Pipeline (A : Type) where
  jobs : List (Job A)

namespace Pipeline

variable {A : Type}

def empty : Pipeline A := ⟨[]⟩

def size (p : Pipeline A) : Nat := p.jobs.length

def submit (p : Pipeline A) (job : Job A) : Pipeline A := ⟨p.jobs ++ [job]⟩

/-- The job at a place finishes. -/
def finish (p : Pipeline A) (place : Nat) : Pipeline A :=
  ⟨p.jobs.modify place fun job => { job with finished := true }⟩

/-- The result of the oldest job, once it has finished, and what is left. -/
def next (p : Pipeline A) : Option (A × Pipeline A) :=
  match p.jobs with
  | job :: rest => if job.finished then some (job.result, ⟨rest⟩) else none
  | [] => none

/-- The results that are still to come, in order. -/
def results (p : Pipeline A) : List A := p.jobs.map Job.result

/-- What the jobs have still to go through: an end, and being taken. -/
def work (p : Pipeline A) : Nat := (p.jobs.map fun job => if job.finished then 1 else 2).sum

variable {p p' : Pipeline A}

@[simp] theorem results_submit (p : Pipeline A) (job : Job A) :
    (p.submit job).results = p.results ++ [job.result] := by
  simp [results, submit]

@[simp] theorem size_submit (p : Pipeline A) (job : Job A) : (p.submit job).size = p.size + 1 := by
  simp [size, submit]

@[simp] theorem size_finish (p : Pipeline A) (place : Nat) : (p.finish place).size = p.size := by
  simp [size, finish]

/-- An end that comes early or late does not change what is taken. -/
@[simp] theorem results_finish (p : Pipeline A) (place : Nat) : (p.finish place).results = p.results := by
  apply List.ext_getElem?
  intro i
  simp only [results, finish, List.getElem?_map, List.getElem?_modify]
  cases p.jobs[i]? with
  | none => rfl
  | some job =>
    by_cases hplace : place = i
    · simp [hplace]
    · simp [hplace]

theorem results_of_next {a : A} (h : p.next = some (a, p')) : p.results = a :: p'.results := by
  unfold next at h
  split at h
  · rename_i job rest hjobs
    split at h
    · obtain ⟨rfl, rfl⟩ := Prod.mk.inj (Option.some.inj h)
      simp [results, hjobs]
    · cases h
  · cases h

theorem size_of_next {a : A} (h : p.next = some (a, p')) : p.size = p'.size + 1 := by
  have hlength := congrArg List.length (results_of_next h)
  simpa [results, size] using hlength

theorem work_submit_le (p : Pipeline A) (job : Job A) : (p.submit job).work ≤ p.work + 2 := by
  simp only [work, submit, List.map_append, List.map_cons, List.map_nil, List.sum_append, List.sum_cons, List.sum_nil]
  split
  · omega
  · omega

theorem work_of_next {a : A} (h : p.next = some (a, p')) : p.work = p'.work + 1 := by
  unfold next at h
  split at h
  · rename_i job rest hjobs
    split at h
    · rename_i hfinished
      obtain ⟨rfl, rfl⟩ := Prod.mk.inj (Option.some.inj h)
      simp only [work, hjobs, List.map_cons, List.sum_cons, hfinished, if_true]
      omega
    · cases h
  · cases h

/-- A job finishes once. -/
theorem finish_eq_or_work_lt (p : Pipeline A) (place : Nat) :
    p.finish place = p ∨ (p.finish place).work < p.work := by
  obtain ⟨jobs⟩ := p
  simp only [finish, work, Pipeline.mk.injEq]
  induction jobs generalizing place with
  | nil => exact .inl (List.modify_nil _ _)
  | cons job rest ih =>
    cases place with
    | zero =>
      obtain ⟨result, finished⟩ := job
      cases finished with
      | true => exact .inl rfl
      | false =>
        right
        simp
    | succ place =>
      rw [List.modify_succ_cons]
      obtain heq | hlt := ih place
      · exact .inl (by rw [heq])
      · right
        simp only [List.map_cons, List.sum_cons]
        omega

/-- A pipeline that neither hands anything over nor changes when its oldest job finishes is empty. -/
theorem results_eq_nil_of_stuck (hnext : p.next = none) (hstuck : p.finish 0 = p) : p.jobs = [] := by
  obtain ⟨jobs⟩ := p
  cases jobs with
  | nil => rfl
  | cons job rest =>
    have hfinished : job.finished = true := by
      have hjobs := congrArg Pipeline.jobs hstuck
      simp only [finish, List.modify_zero_cons, List.cons.injEq, and_true] at hjobs
      exact (congrArg Job.finished hjobs).symm
    simp [next, hfinished] at hnext

end Pipeline
