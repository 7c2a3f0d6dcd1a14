import SpiderChrome.Uring.Store

/-!
# The ring

The worker pushes an operation, enters the kernel until there is a completion, and takes the first one there is for that of the operation: it does not look at whose it is. `workerLoop_ring` says that while no wait fails the worker does what it would do if it called the kernel itself. `outstanding_ringCall` says that every wait that fails leaves a completion behind for good.
-/

namespace SpiderChrome.Uring

/-- The kernel, what was pushed, what it has taken, and what it has completed and nobody has reaped. The clock counts how often it was entered. -/
structure Ring (κ : Type) where
  kernel : κ
  sq : List Op
  flight : List Op
  cq : List Cqe
  clock : Nat

/-- How entering the kernel goes: it may take what was pushed, complete some of what it has, in any order, and fail. -/
structure Enter where
  takes : Bool
  completes : List Nat
  error : Option Int

/-- The wait goes as it should. -/
def Enter.Waits (e : Enter) : Prop := e.takes = true ∧ 0 ∈ e.completes ∧ e.error = none

/-- A wait that fails leaves its operation in the ring. A push that fails does not. -/
def RingError.isWait : RingError → Bool
  | sqFull => false
  | _ => true

/-- The operation of the answer is left in the ring. -/
def leaves : Except RingError Cqe → Nat
  | .ok _ => 0
  | .error e => if e.isWait then 1 else 0

namespace Ring

variable {κ : Type} (serve : κ → Op → Cqe × κ)

def entries : Nat := 64

def idle (kernel : κ) (clock : Nat) : Ring κ := ⟨kernel, [], [], [], clock⟩

def outstanding (r : Ring κ) : Nat := r.sq.length + r.flight.length + r.cq.length

def push (r : Ring κ) (op : Op) : Ring κ := { r with sq := r.sq ++ [op] }

def take (r : Ring κ) : Ring κ := { r with sq := [], flight := r.flight ++ r.sq }

def complete (r : Ring κ) (i : Nat) : Ring κ :=
  match r.flight[i]? with
  | some op =>
    { r with kernel := (serve r.kernel op).2, flight := r.flight.eraseIdx i, cq := r.cq ++ [(serve r.kernel op).1] }
  | none => r

def enter (r : Ring κ) (e : Enter) : Ring κ :=
  { e.completes.foldl (complete serve) (if e.takes then r.take else r) with clock := r.clock + 1 }

/-- `submit_and_reap`, which takes the first completion. -/
def submitAndReap (r : Ring κ) (e : Enter) : Except RingError Cqe × Ring κ :=
  match e.error, (r.enter serve e).cq with
  | some code, _ => (.error (.enter code), r.enter serve e)
  | none, [] => (.error .noCqe, r.enter serve e)
  | none, cqe :: cq => (.ok cqe, { r.enter serve e with cq := cq })

def ringCall (enters : Nat → Enter) : Call (Ring κ) := fun r op =>
  if r.sq.length = entries then (.error .sqFull, r) else (r.push op).submitAndReap serve (enters r.clock)

/-! ### What is left in the ring -/

theorem outstanding_complete (r : Ring κ) (i : Nat) : (r.complete serve i).outstanding = r.outstanding := by
  rw [complete]
  split
  · rename_i op hop
    obtain ⟨hlt, -⟩ := List.getElem?_eq_some_iff.1 hop
    have hlength := List.length_eraseIdx_of_lt hlt
    simp only [outstanding, List.length_append, List.length_singleton, hlength]
    omega
  · rfl

theorem outstanding_completes (completes : List Nat) (r : Ring κ) :
    (completes.foldl (complete serve) r).outstanding = r.outstanding := by
  induction completes generalizing r with
  | nil => rfl
  | cons i completes ih => rw [List.foldl_cons, ih, outstanding_complete]

theorem outstanding_enter (r : Ring κ) (e : Enter) : (r.enter serve e).outstanding = r.outstanding := by
  have hcompletes := outstanding_completes serve e.completes (if e.takes then r.take else r)
  have htake : (if e.takes then r.take else r).outstanding = r.outstanding := by
    split
    · simp only [outstanding, take, List.length_nil, List.length_append]
      omega
    · rfl
  exact hcompletes.trans htake

theorem outstanding_submitAndReap (r : Ring κ) (e : Enter) :
    (r.submitAndReap serve e).2.outstanding + 1 = r.outstanding + leaves (r.submitAndReap serve e).1 := by
  have hentered := outstanding_enter serve r e
  rw [submitAndReap]
  split
  · exact congrArg (· + 1) hentered
  · exact congrArg (· + 1) hentered
  · rename_i cqe cq herror hcq
    have hreaped : ({ r.enter serve e with cq := cq } : Ring κ).outstanding + 1 = (r.enter serve e).outstanding := by
      simp only [outstanding, hcq, List.length_cons]
      omega
    exact hreaped.trans hentered

/-- A wait that fails leaves one more operation in the ring than there was, and nothing ever takes it out again. -/
theorem outstanding_ringCall (enters : Nat → Enter) (r : Ring κ) (op : Op) :
    (ringCall serve enters r op).2.outstanding = r.outstanding + leaves (ringCall serve enters r op).1 := by
  rw [ringCall]
  split
  · rfl
  · have hpushed : (r.push op).outstanding = r.outstanding + 1 := by
      simp only [outstanding, push, List.length_append, List.length_singleton]
      omega
    have hreaped := outstanding_submitAndReap serve (r.push op) (enters r.clock)
    omega

/-! ### After a wait has failed -/

theorem cq_complete (r : Ring κ) (i : Nat) : r.cq <+: (r.complete serve i).cq := by
  rw [complete]
  split
  · exact List.prefix_append _ _
  · exact List.prefix_refl _

theorem cq_completes (completes : List Nat) (r : Ring κ) : r.cq <+: (completes.foldl (complete serve) r).cq := by
  induction completes generalizing r with
  | nil => exact List.prefix_refl _
  | cons i completes ih => exact (cq_complete serve r i).trans (ih (r.complete serve i))

theorem cq_enter (r : Ring κ) (e : Enter) : r.cq <+: (r.enter serve e).cq := by
  have hcompletes := cq_completes serve e.completes (if e.takes then r.take else r)
  have htake : (if e.takes then r.take else r).cq = r.cq := by
    split <;> rfl
  rwa [htake] at hcompletes

/-- With a completion left behind, the next operation is answered by it, whatever the operation is. -/
theorem ringCall_stale {enters : Nat → Enter} {r : Ring κ} {cqe : Cqe} {cq : List Cqe} (op : Op) (hcq : r.cq = cqe :: cq)
    (hroom : r.sq.length ≠ entries) (herror : (enters r.clock).error = none) :
    (ringCall serve enters r op).1 = .ok cqe := by
  obtain ⟨more, hmore⟩ := cq_enter serve (r.push op) (enters r.clock)
  have hfirst : ((r.push op).enter serve (enters r.clock)).cq = cqe :: (cq ++ more) := by
    rw [← hmore, push, hcq]
    rfl
  rw [ringCall, if_neg hroom, submitAndReap, herror, hfirst]

/-! ### While no wait fails -/

theorem completes_empty (completes : List Nat) (r : Ring κ) (h : r.flight = []) :
    completes.foldl (complete serve) r = r := by
  induction completes with
  | nil => rfl
  | cons i completes ih =>
    have hnone : r.complete serve i = r := by rw [complete, h, List.getElem?_nil]
    rw [List.foldl_cons, hnone, ih]

/-- The one operation in flight is completed once. -/
theorem completes_single {completes : List Nat} (h : 0 ∈ completes) (k : κ) (op : Op) (clock : Nat) :
    completes.foldl (complete serve) ⟨k, [], [op], [], clock⟩ =
      ⟨(serve k op).2, [], [], [(serve k op).1], clock⟩ := by
  induction completes with
  | nil => cases h
  | cons i completes ih =>
    rw [List.foldl_cons]
    cases i with
    | zero => exact completes_empty serve completes _ rfl
    | succ i => exact ih ((List.mem_cons.1 h).resolve_left (Nat.succ_ne_zero i).symm)

theorem ringCall_idle {enters : Nat → Enter} (op : Op) (k : κ) {clock : Nat} (h : (enters clock).Waits) :
    ringCall serve enters (idle k clock) op = (.ok (serve k op).1, idle (serve k op).2 (clock + 1)) := by
  obtain ⟨htakes, hcompletes, herror⟩ := h
  have henter : ((idle k clock).push op).enter serve (enters clock) =
      ⟨(serve k op).2, [], [], [(serve k op).1], clock + 1⟩ := by
    have hsingle := completes_single serve hcompletes k op clock
    rw [enter, if_pos htakes]
    exact congrArg (fun r : Ring κ => { r with clock := clock + 1 }) hsingle
  have hroom : ¬(idle k clock).sq.length = entries := by
    rw [idle, List.length_nil, entries]
    decide
  rw [ringCall, if_neg hroom]
  show ((idle k clock).push op).submitAndReap serve (enters clock) = _
  rw [submitAndReap, henter, herror]
  rfl

end Ring

/-! ### Two kernels that answer alike -/

section Alike

variable {σ τ α : Type}

/-- Two results that are the same, in states that are related. -/
inductive Alike (R : σ → τ → Prop) : Except IoError α × σ → Except IoError α × τ → Prop
  | error {s : σ} {t : τ} (e : IoError) (h : R s t) : Alike R (.error e, s) (.error e, t)
  | ok {s : σ} {t : τ} (a : α) (h : R s t) : Alike R (.ok a, s) (.ok a, t)

/-- Related kernels answer alike and stay related. -/
def Simulates (call : Call σ) (call' : Call τ) (R : σ → τ → Prop) : Prop :=
  ∀ s t op, R s t → (call s op).1 = (call' t op).1 ∧ R (call s op).2 (call' t op).2

variable {R : σ → τ → Prop} {x : Except IoError α × σ} {y : Except IoError α × τ}

theorem alike_of_eq {r r' : Except IoError α} {s : σ} {t : τ} (hr : r = r') (h : R s t) : Alike R (r, s) (r', t) := by
  cases hr
  cases r with
  | error e => exact .error e h
  | ok a => exact .ok a h

theorem Alike.fst (h : Alike R x y) : x.1 = y.1 := by
  cases h <;> rfl

theorem Alike.snd (h : Alike R x y) : R x.2 y.2 := by
  cases h <;> assumption

variable {call : Call σ} {call' : Call τ} (hsim : Simulates call call' R) {s : σ} {t : τ}

include hsim

theorem perform_alike (op : Op) (h : R s t) : Alike R (perform call op s) (perform call' op t) :=
  alike_of_eq (congrArg (answered op) (hsim s t op h).1) (hsim s t op h).2

theorem uringClose_alike (fd : Nat) (h : R s t) : Alike R (uringClose call fd s) (uringClose call' fd t) := by
  have hclose := perform_alike hsim (.close fd) h
  rw [uringClose, uringClose]
  generalize perform call (.close fd) s = x, perform call' (.close fd) t = y at hclose ⊢
  cases hclose with
  | error e h => exact .error e h
  | ok a h => exact .ok () h

theorem uringWriteAll_alike (fd : Nat) (data : List UInt8) (offset : Nat) (h : R s t) :
    Alike R (uringWriteAll call fd data offset s) (uringWriteAll call' fd data offset t) := by
  induction hleft : data.length - offset using Nat.strongRecOn generalizing offset s t with
  | ind left ih =>
    rw [uringWriteAll.eq_def call, uringWriteAll.eq_def call']
    split
    · rename_i hlt
      have hwrite := perform_alike hsim (.write fd offset ((data.drop offset).take maxChunk)) h
      generalize perform call (.write fd offset ((data.drop offset).take maxChunk)) s = x,
        perform call' (.write fd offset ((data.drop offset).take maxChunk)) t = y at hwrite ⊢
      cases hwrite with
      | error e h => exact .error e h
      | ok a h =>
        dsimp only
        split
        · exact .error _ h
        · rename_i hmoved
          exact ih _ (by omega) (offset + a.1) h rfl
    · exact .ok () h

theorem uringReadExact_alike (fd : Nat) (buf : List UInt8) (len offset : Nat) (h : R s t) :
    Alike R (uringReadExact call fd buf len offset s) (uringReadExact call' fd buf len offset t) := by
  induction hleft : len - offset using Nat.strongRecOn generalizing buf offset s t with
  | ind left ih =>
    rw [uringReadExact.eq_def call, uringReadExact.eq_def call']
    split
    · rename_i hlt
      have hread := perform_alike hsim (.read fd offset (min (len - offset) maxChunk)) h
      generalize perform call (.read fd offset (min (len - offset) maxChunk)) s = x,
        perform call' (.read fd offset (min (len - offset) maxChunk)) t = y at hread ⊢
      cases hread with
      | error e h => exact .error e h
      | ok a h =>
        dsimp only
        split
        · exact .error _ h
        · rename_i hmoved
          exact ih _ (by omega) (splice buf offset a.2.bytes) (offset + a.1) h rfl
    · exact .ok buf h

theorem uringWriteFile_alike (path : String) (data : List UInt8) (h : R s t) :
    Alike R (uringWriteFile call path data s) (uringWriteFile call' path data t) := by
  rw [uringWriteFile, uringWriteFile]
  split
  · exact .error _ h
  · have hopen := perform_alike hsim (.openAt path true) h
    generalize perform call (.openAt path true) s = x, perform call' (.openAt path true) t = y at hopen ⊢
    cases hopen with
    | error e h => exact .error e h
    | @ok s t a h =>
      have hwrite := uringWriteAll_alike hsim a.1 data 0 h
      dsimp only
      generalize uringWriteAll call a.1 data 0 s = x, uringWriteAll call' a.1 data 0 t = y at hwrite ⊢
      cases hwrite with
      | error e h => exact .error e (uringClose_alike hsim a.1 h).snd
      | ok u h => exact uringClose_alike hsim a.1 h

theorem uringStatxSize_alike (path : String) (h : R s t) :
    Alike R (uringStatxSize call path s) (uringStatxSize call' path t) := by
  rw [uringStatxSize, uringStatxSize]
  split
  · exact .error _ h
  · have hsize := perform_alike hsim (.statx path) h
    generalize perform call (.statx path) s = x, perform call' (.statx path) t = y at hsize ⊢
    cases hsize with
    | error e h => exact .error e h
    | ok a h => exact .ok _ h

theorem uringReadFile_alike (path : String) (h : R s t) :
    Alike R (uringReadFile call path s) (uringReadFile call' path t) := by
  have hsize := uringStatxSize_alike hsim path h
  rw [uringReadFile, uringReadFile]
  generalize uringStatxSize call path s = x, uringStatxSize call' path t = y at hsize ⊢
  cases hsize with
  | error e h => exact .error e h
  | @ok s t len h =>
    dsimp only
    split
    · exact .ok [] h
    · have hopen := perform_alike hsim (.openAt path false) h
      generalize perform call (.openAt path false) s = x, perform call' (.openAt path false) t = y at hopen ⊢
      cases hopen with
      | error e h => exact .error e h
      | @ok s t a h =>
        have hread := uringReadExact_alike hsim a.1 (List.replicate len 0) len 0 h
        dsimp only
        generalize uringReadExact call a.1 (List.replicate len 0) len 0 s = x,
          uringReadExact call' a.1 (List.replicate len 0) len 0 t = y at hread ⊢
        cases hread with
        | error e h => exact .error e (uringClose_alike hsim a.1 h).snd
        | @ok s t buf h =>
          have hclose := uringClose_alike hsim a.1 h
          dsimp only
          generalize uringClose call a.1 s = x, uringClose call' a.1 t = y at hclose ⊢
          cases hclose with
          | error e h => exact .error e h
          | ok u h => exact .ok buf h

theorem uringTcpConnect_alike (addr : SocketAddr) (h : R s t) :
    Alike R (uringTcpConnect call addr s) (uringTcpConnect call' addr t) := by
  have hsocket := perform_alike hsim (.socket addr.isV6) h
  rw [uringTcpConnect, uringTcpConnect]
  generalize perform call (.socket addr.isV6) s = x, perform call' (.socket addr.isV6) t = y at hsocket ⊢
  cases hsocket with
  | error e h => exact .error e h
  | @ok s t a h =>
    obtain ⟨hanswer, hnext⟩ := hsim s t (.connect a.1 addr) h
    dsimp only
    rw [hanswer]
    cases connected (.connect a.1 addr) (call' t (.connect a.1 addr)).1 with
    | error e => exact .error e (uringClose_alike hsim a.1 hnext).snd
    | ok u => exact .ok a.1 hnext

/-- A task is answered alike, and leaves related kernels. -/
theorem serveTask_alike (task : IoTask) (h : R s t) :
    (serveTask call task s).1 = (serveTask call' task t).1 ∧ R (serveTask call task s).2 (serveTask call' task t).2 := by
  cases task with
  | writeFile path data =>
    have halike := uringWriteFile_alike hsim path data h
    exact ⟨congrArg IoAnswer.wrote halike.fst, halike.snd⟩
  | readFile path =>
    have halike := uringReadFile_alike hsim path h
    exact ⟨congrArg IoAnswer.got halike.fst, halike.snd⟩
  | tcpConnect addr =>
    have halike := uringTcpConnect_alike hsim addr h
    exact ⟨congrArg IoAnswer.connected halike.fst, halike.snd⟩

theorem workerLoop_alike (tasks : List IoTask) (h : R s t) :
    (workerLoop call tasks s).1 = (workerLoop call' tasks t).1 ∧
      R (workerLoop call tasks s).2 (workerLoop call' tasks t).2 := by
  induction tasks generalizing s t with
  | nil => exact ⟨rfl, h⟩
  | cons task tasks ih =>
    obtain ⟨hanswer, hnext⟩ := serveTask_alike hsim task h
    obtain ⟨hanswers, hlast⟩ := ih hnext
    exact ⟨List.cons_eq_cons.2 ⟨hanswer, hanswers⟩, hlast⟩

end Alike

section Waiting

variable {κ : Type} (serve : κ → Op → Cqe × κ)

/-- While no wait fails, the worker with a ring answers what it would answer if it called the kernel, and leaves the ring empty. -/
theorem workerLoop_ring {enters : Nat → Enter} (h : ∀ n, (enters n).Waits) (tasks : List IoTask) (k : κ) :
    (workerLoop (Ring.ringCall serve enters) tasks (Ring.idle k 0)).1 = (workerLoop (directCall serve) tasks k).1 ∧
      (workerLoop (Ring.ringCall serve enters) tasks (Ring.idle k 0)).2.outstanding = 0 ∧
      (workerLoop (Ring.ringCall serve enters) tasks (Ring.idle k 0)).2.kernel = (workerLoop (directCall serve) tasks k).2 := by
  have hsim : Simulates (Ring.ringCall serve enters) (directCall serve) fun r k => ∃ clock, r = Ring.idle k clock := by
    rintro _ k op ⟨clock, rfl⟩
    rw [Ring.ringCall_idle serve op k (h clock)]
    exact ⟨rfl, clock + 1, rfl⟩
  obtain ⟨hanswers, clock, hlast⟩ := workerLoop_alike hsim tasks ⟨0, rfl⟩
  rw [hlast]
  exact ⟨hanswers, rfl, rfl⟩

end Waiting

theorem workerLoop_ring_slow :
    (workerLoop (Ring.ringCall Disk.serve fun _ => ⟨true, [0], none⟩) Disk.roundTrip (Ring.idle Disk.slow 0)).1 =
        (workerLoop (directCall Disk.serve) Disk.roundTrip Disk.slow).1 ∧
      (workerLoop (Ring.ringCall Disk.serve fun _ => ⟨true, [0], none⟩) Disk.roundTrip (Ring.idle Disk.slow 0)).2.outstanding = 0 ∧
      (workerLoop (Ring.ringCall Disk.serve fun _ => ⟨true, [0], none⟩) Disk.roundTrip (Ring.idle Disk.slow 0)).2.kernel =
        (workerLoop (directCall Disk.serve) Disk.roundTrip Disk.slow).2 :=
  workerLoop_ring Disk.serve (fun _ => ⟨rfl, List.mem_singleton_self 0, rfl⟩) Disk.roundTrip Disk.slow

end SpiderChrome.Uring
