import Mathlib.Data.List.Basic

/-!
# The worker of the ring

`worker_loop` does each task with a few operations of the ring, one after the other, over a kernel that may refuse any of them, or do less than it was asked. `workerLoop_descriptors` says of every kernel that the worker closes what it opens, but for the connections that it returns, and that its answers are well exactly if nothing was refused.
-/

namespace SpiderChrome.Uring

inductive SocketAddr where
  | v4 (ip : List UInt8) (port : Nat)
  | v6 (ip : List UInt8) (port flowinfo scopeId : Nat)
deriving DecidableEq

/-- The operations, with what their pointers point at. -/
inductive Op where
  | openAt (path : String) (create : Bool)
  | statx (path : String)
  | write (fd offset : Nat) (bytes : List UInt8)
  | read (fd offset len : Nat)
  | close (fd : Nat)
  | socket (v6 : Bool)
  | connect (fd : Nat) (addr : SocketAddr)
deriving DecidableEq

def Op.name : Op → String
  | openAt _ _ => "open"
  | statx _ => "statx"
  | write _ _ _ => "write"
  | read _ _ _ => "read"
  | close _ => "close"
  | socket _ => "socket"
  | connect _ _ => "connect"

/-- A completion: its result, and what is in memory for it, the bytes of a read or the size of a file. -/
structure Cqe where
  result : Int
  bytes : List UInt8
  size : Nat
deriving DecidableEq

inductive RingError where
  | sqFull
  | enter (code : Int)
  | noCqe
deriving DecidableEq

inductive IoError where
  | invalidInput
  | other (text : String)
  | os (code : Int)
  | writeZero (text : String)
  | unexpectedEof (text : String)
deriving DecidableEq

def RingError.on (op : Op) : RingError → IoError
  | sqFull => .other ("io_uring: SQ full on " ++ op.name)
  | enter code => .os code
  | noCqe => .other "io_uring: no CQE after wait"

/-- What was asked of the ring, and what came back. -/
abbrev Entry : Type := Op × Except RingError Cqe

abbrev Call (σ : Type) : Type := σ → Op → Except RingError Cqe × σ

/-- A kernel that is called without a ring. -/
def directCall {κ : Type} (serve : κ → Op → Cqe × κ) : Call κ := fun k op => (.ok (serve k op).1, (serve k op).2)

def answered (op : Op) : Except RingError Cqe → Except IoError (Nat × Cqe)
  | .error e => .error (e.on op)
  | .ok cqe => if cqe.result < 0 then .error (.os (-cqe.result)) else .ok (cqe.result.toNat, cqe)

/-- `u32::MAX`. -/
def maxChunk : Nat := UInt32.size - 1

def einprogress : Int := 115

/-- The bytes from an offset on, replaced. -/
def splice (old : List UInt8) (offset : Nat) (new : List UInt8) : List UInt8 :=
  old.take offset ++ new ++ old.drop (offset + new.length)

section Worker

variable {σ : Type} (call : Call σ)

/-- A push and a wait, and the test of the result that nearly all of them share. -/
def perform (op : Op) (s : σ) : Except IoError (Nat × Cqe) × σ := (answered op (call s op).1, (call s op).2)

def uringClose (fd : Nat) (s : σ) : Except IoError Unit × σ :=
  match perform call (.close fd) s with
  | (.error e, s) => (.error e, s)
  | (.ok _, s) => (.ok (), s)

def uringWriteAll (fd : Nat) (data : List UInt8) (offset : Nat) (s : σ) : Except IoError Unit × σ :=
  if offset < data.length then
    match perform call (.write fd offset ((data.drop offset).take maxChunk)) s with
    | (.error e, s) => (.error e, s)
    | (.ok (written, _), s) =>
      if written = 0 then (.error (.writeZero "io_uring: write returned 0"), s)
      else uringWriteAll fd data (offset + written) s
  else (.ok (), s)
termination_by data.length - offset

/-- Whatever became of the writes, the file is closed, and the error of the writes comes first. -/
def uringWriteFile (path : String) (data : List UInt8) (s : σ) : Except IoError Unit × σ :=
  if Char.ofNat 0 ∈ path.toList then (.error .invalidInput, s)
  else
    match perform call (.openAt path true) s with
    | (.error e, s) => (.error e, s)
    | (.ok (fd, _), s) =>
      match uringWriteAll call fd data 0 s with
      | (.error e, s) => (.error e, (uringClose call fd s).2)
      | (.ok (), s) => uringClose call fd s

def uringStatxSize (path : String) (s : σ) : Except IoError Nat × σ :=
  if Char.ofNat 0 ∈ path.toList then (.error .invalidInput, s)
  else
    match perform call (.statx path) s with
    | (.error e, s) => (.error e, s)
    | (.ok (_, cqe), s) => (.ok cqe.size, s)

def uringReadExact (fd : Nat) (buf : List UInt8) (len offset : Nat) (s : σ) : Except IoError (List UInt8) × σ :=
  if offset < len then
    match perform call (.read fd offset (min (len - offset) maxChunk)) s with
    | (.error e, s) => (.error e, s)
    | (.ok (n, cqe), s) =>
      if n = 0 then (.error (.unexpectedEof "io_uring: read returned 0"), s)
      else uringReadExact fd (splice buf offset cqe.bytes) len (offset + n) s
  else (.ok buf, s)
termination_by len - offset

/-- The size is asked for before the file is opened. -/
def uringReadFile (path : String) (s : σ) : Except IoError (List UInt8) × σ :=
  match uringStatxSize call path s with
  | (.error e, s) => (.error e, s)
  | (.ok len, s) =>
    if len = 0 then (.ok [], s)
    else
      match perform call (.openAt path false) s with
      | (.error e, s) => (.error e, s)
      | (.ok (fd, _), s) =>
        match uringReadExact call fd (List.replicate len 0) len 0 s with
        | (.error e, s) => (.error e, (uringClose call fd s).2)
        | (.ok buf, s) =>
          match uringClose call fd s with
          | (.error e, s) => (.error e, s)
          | (.ok (), s) => (.ok buf, s)

def SocketAddr.isV6 : SocketAddr → Bool
  | v4 _ _ => false
  | v6 _ _ _ _ => true

/-- The socket does not block, so that a connection in progress is as good as one that is there. -/
def connected (op : Op) : Except RingError Cqe → Except IoError Unit
  | .error e => .error (e.on op)
  | .ok cqe => if cqe.result < 0 ∧ cqe.result ≠ -einprogress then .error (.os (-cqe.result)) else .ok ()

def uringTcpConnect (addr : SocketAddr) (s : σ) : Except IoError Nat × σ :=
  match perform call (.socket addr.isV6) s with
  | (.error e, s) => (.error e, s)
  | (.ok (fd, _), s) =>
    match connected (.connect fd addr) (call s (.connect fd addr)).1 with
    | .error e => (.error e, (uringClose call fd (call s (.connect fd addr)).2).2)
    | .ok () => (.ok fd, (call s (.connect fd addr)).2)

end Worker

inductive IoTask where
  | writeFile (path : String) (data : List UInt8)
  | readFile (path : String)
  | tcpConnect (addr : SocketAddr)
deriving DecidableEq

/-- What is sent back for a task. -/
inductive IoAnswer where
  | wrote (result : Except IoError Unit)
  | got (result : Except IoError (List UInt8))
  | connected (result : Except IoError Nat)

section Loop

variable {σ : Type} (call : Call σ)

def serveTask : IoTask → σ → IoAnswer × σ
  | .writeFile path data, s => (.wrote (uringWriteFile call path data s).1, (uringWriteFile call path data s).2)
  | .readFile path, s => (.got (uringReadFile call path s).1, (uringReadFile call path s).2)
  | .tcpConnect addr, s => (.connected (uringTcpConnect call addr s).1, (uringTcpConnect call addr s).2)

def workerLoop : List IoTask → σ → List IoAnswer × σ
  | [], s => ([], s)
  | task :: tasks, s =>
    ((serveTask call task s).1 :: (workerLoop tasks (serveTask call task s).2).1,
      (workerLoop tasks (serveTask call task s).2).2)

end Loop

/-! ### What was asked and answered -/

/-- A kernel with the entries so far. -/
structure Traced (σ : Type) where
  state : σ
  log : List Entry

def traced {σ : Type} (call : Call σ) : Call (Traced σ) := fun s op =>
  ((call s.state op).1, ⟨(call s.state op).2, s.log ++ [(op, (call s.state op).1)]⟩)

/-- The descriptor that an entry hands out. -/
def opened : Entry → List Nat
  | (.openAt _ _, .ok cqe) => if cqe.result < 0 then [] else [cqe.result.toNat]
  | (.socket _, .ok cqe) => if cqe.result < 0 then [] else [cqe.result.toNat]
  | _ => []

def closed : Entry → List Nat
  | (.close fd, _) => [fd]
  | _ => []

/-- An entry that fails its task. -/
def refused : Entry → Bool
  | (_, .error _) => true
  | (.connect _ _, .ok cqe) => decide (cqe.result < 0 ∧ cqe.result ≠ -einprogress)
  | (.write _ _ _, .ok cqe) => decide (cqe.result ≤ 0)
  | (.read _ _ _, .ok cqe) => decide (cqe.result ≤ 0)
  | (_, .ok cqe) => decide (cqe.result < 0)

def openedIn (log : List Entry) : List Nat := log.flatMap opened

def closedIn (log : List Entry) : List Nat := log.flatMap closed

/-- The descriptor that an answer hands over. -/
def IoAnswer.kept : IoAnswer → List Nat
  | connected (.ok fd) => [fd]
  | _ => []

def IoAnswer.isOk : IoAnswer → Bool
  | wrote result => result.isOk
  | got result => result.isOk
  | connected result => result.isOk

/-- The path is one that the kernel can be given. -/
def IoTask.isValid : IoTask → Bool
  | writeFile path _ => decide (Char.ofNat 0 ∉ path.toList)
  | readFile path => decide (Char.ofNat 0 ∉ path.toList)
  | tcpConnect _ => true

/-- What was done between two states: the descriptors handed out and closed, and whether nothing was refused. -/
def Part {σ : Type} (s t : Traced σ) (gets puts : List Nat) (ok : Bool) : Prop :=
  ∃ log, t.log = s.log ++ log ∧ openedIn log = gets ∧ closedIn log = puts ∧ log.any refused = !ok

section Parts

variable {σ : Type} {s t u : Traced σ}

theorem Part.nil (s : Traced σ) : Part s s [] [] true := ⟨[], (List.append_nil _).symm, rfl, rfl, rfl⟩

theorem Part.trans {gets puts gets' puts' : List Nat} {ok ok' : Bool} (h : Part s t gets puts ok)
    (h' : Part t u gets' puts' ok') : Part s u (gets ++ gets') (puts ++ puts') (ok && ok') := by
  obtain ⟨log, hlog, hgets, hputs, hok⟩ := h
  obtain ⟨log', hlog', hgets', hputs', hok'⟩ := h'
  refine ⟨log ++ log', ?_, ?_, ?_, ?_⟩
  · rw [hlog', hlog, List.append_assoc]
  · rw [openedIn, List.flatMap_append, ← hgets, ← hgets']
    rfl
  · rw [closedIn, List.flatMap_append, ← hputs, ← hputs']
    rfl
  · rw [List.any_append, hok, hok', Bool.not_and]

variable (call : Call σ)

theorem traced_part (op : Op) (s : Traced σ) :
    Part s (traced call s op).2 (opened (op, (traced call s op).1)) (closed (op, (traced call s op).1))
      (!refused (op, (traced call s op).1)) :=
  ⟨[(op, (call s.state op).1)], rfl, List.flatMap_singleton .., List.flatMap_singleton ..,
    (Bool.or_false _).trans (Bool.not_not _).symm⟩

/-- The descriptors that an operation hands out when it succeeds with a result. -/
def Op.gets : Op → Nat → List Nat
  | openAt _ _, n => [n]
  | socket _, n => [n]
  | _, _ => []

def Op.puts : Op → List Nat
  | close fd => [fd]
  | _ => []

/-- The operations that must not come back with nothing done. -/
def Op.moves : Op → Bool
  | write _ _ _ => true
  | read _ _ _ => true
  | _ => false

def Op.connects : Op → Bool
  | connect _ _ => true
  | _ => false

variable {op : Op} {r : Except RingError Cqe}

theorem closed_eq_puts (op : Op) (r : Except RingError Cqe) : closed (op, r) = op.puts := by
  cases op <;> rfl

theorem answered_ok_iff {n : Nat} {cqe : Cqe} :
    answered op r = .ok (n, cqe) ↔ r = .ok cqe ∧ 0 ≤ cqe.result ∧ n = cqe.result.toNat := by
  cases r with
  | error e => simp [answered]
  | ok cqe' =>
    rw [answered]
    split
    · rename_i hneg
      constructor
      · intro h
        cases h
      · rintro ⟨h, hpos, -⟩
        cases h
        omega
    · rename_i hpos
      constructor
      · intro h
        cases h
        exact ⟨rfl, Int.not_lt.1 hpos, rfl⟩
      · rintro ⟨h, -, rfl⟩
        cases h
        rfl

theorem answered_error {e : IoError} (h : answered op r = .error e) :
    (∃ err, r = .error err) ∨ ∃ cqe, r = .ok cqe ∧ cqe.result < 0 := by
  cases r with
  | error err => exact .inl ⟨err, rfl⟩
  | ok cqe =>
    rw [answered] at h
    split at h
    · rename_i hneg
      exact .inr ⟨cqe, rfl, hneg⟩
    · cases h

theorem opened_of_error {e : IoError} (h : answered op r = .error e) : opened (op, r) = [] := by
  obtain ⟨err, rfl⟩ | ⟨cqe, rfl, hneg⟩ := answered_error h
  · cases op <;> rfl
  · cases op <;> simp [opened, hneg]

theorem refused_of_error {e : IoError} (h : answered op r = .error e) (hop : op.connects = false) :
    refused (op, r) = true := by
  obtain ⟨err, rfl⟩ | ⟨cqe, rfl, hneg⟩ := answered_error h
  · cases op <;> rfl
  · have hle := Int.le_of_lt hneg
    cases op <;> simp_all [refused, Op.connects]

theorem opened_of_ok {n : Nat} {cqe : Cqe} (h : answered op r = .ok (n, cqe)) : opened (op, r) = op.gets n := by
  obtain ⟨rfl, hpos, rfl⟩ := answered_ok_iff.1 h
  have hneg : ¬cqe.result < 0 := Int.not_lt.2 hpos
  cases op <;> simp [opened, Op.gets, hneg]

theorem refused_of_ok {n : Nat} {cqe : Cqe} (h : answered op r = .ok (n, cqe)) :
    refused (op, r) = (op.moves && n == 0) := by
  obtain ⟨rfl, hpos, rfl⟩ := answered_ok_iff.1 h
  have hneg : ¬cqe.result < 0 := Int.not_lt.2 hpos
  have hzero : decide (cqe.result ≤ 0) = (cqe.result.toNat == 0) := by
    rw [Bool.eq_iff_iff, decide_eq_true_iff, beq_iff_eq]
    omega
  cases op with
  | write fd offset bytes => exact hzero
  | read fd offset len => exact hzero
  | connect fd addr => exact decide_eq_false fun h => hneg h.1
  | _ => exact decide_eq_false hneg

theorem perform_error {e : IoError} (h : perform (traced call) op s = (.error e, t)) (hop : op.connects = false) :
    Part s t [] op.puts false := by
  obtain ⟨hanswered, rfl⟩ := Prod.mk.inj h
  have hpart := traced_part call op s
  rwa [opened_of_error hanswered, closed_eq_puts, refused_of_error hanswered hop] at hpart

theorem perform_ok {n : Nat} {cqe : Cqe} (h : perform (traced call) op s = (.ok (n, cqe), t)) :
    Part s t (op.gets n) op.puts (!(op.moves && n == 0)) := by
  obtain ⟨hanswered, rfl⟩ := Prod.mk.inj h
  have hpart := traced_part call op s
  rwa [opened_of_ok hanswered, closed_eq_puts, refused_of_ok hanswered] at hpart

/-! ### The functions of the worker -/

theorem uringClose_part (fd : Nat) (s : Traced σ) :
    Part s (uringClose (traced call) fd s).2 [] [fd] (uringClose (traced call) fd s).1.isOk := by
  rw [uringClose]
  split
  · rename_i h
    exact perform_error call h rfl
  · rename_i h
    exact perform_ok call h

theorem uringWriteAll_part (fd : Nat) (data : List UInt8) (offset : Nat) (s : Traced σ) :
    Part s (uringWriteAll (traced call) fd data offset s).2 [] []
      (uringWriteAll (traced call) fd data offset s).1.isOk := by
  fun_induction uringWriteAll (traced call) fd data offset s with
  | case1 offset s hlt e t h => exact perform_error call h rfl
  | case2 offset s hlt cqe t h => exact perform_ok call h
  | case3 offset s hlt written cqe t h hmoved ih =>
    have hfirst := perform_ok call h
    rw [beq_false_of_ne hmoved, Bool.and_false, Bool.not_false] at hfirst
    exact hfirst.trans ih
  | case4 offset s hge => exact Part.nil s

theorem uringReadExact_part (fd : Nat) (buf : List UInt8) (len offset : Nat) (s : Traced σ) :
    Part s (uringReadExact (traced call) fd buf len offset s).2 [] []
      (uringReadExact (traced call) fd buf len offset s).1.isOk := by
  fun_induction uringReadExact (traced call) fd buf len offset s with
  | case1 buf offset s hlt e t h => exact perform_error call h rfl
  | case2 buf offset s hlt cqe t h => exact perform_ok call h
  | case3 buf offset s hlt n cqe t h hmoved ih =>
    have hfirst := perform_ok call h
    rw [beq_false_of_ne hmoved, Bool.and_false, Bool.not_false] at hfirst
    exact hfirst.trans ih
  | case4 buf offset s hge => exact Part.nil s

/-- A task has been served: what it was handed is closed but for what it keeps, and it is well unless something was refused, or its path is none. -/
def Served (s t : Traced σ) (kept : List Nat) (valid ok : Bool) : Prop :=
  ∃ gets puts clean, Part s t gets puts clean ∧ gets = puts ++ kept ∧ ok = (valid && clean)

theorem uringWriteFile_served (path : String) (data : List UInt8) (s : Traced σ) :
    Served s (uringWriteFile (traced call) path data s).2 [] (decide (Char.ofNat 0 ∉ path.toList))
      (uringWriteFile (traced call) path data s).1.isOk := by
  rw [uringWriteFile]
  split
  · rename_i hnul
    exact ⟨[], [], true, Part.nil s, rfl, by rw [decide_eq_false (not_not_intro hnul)]; rfl⟩
  · rename_i hnul
    rw [decide_eq_true hnul]
    split
    · rename_i h
      exact ⟨[], [], false, perform_error call h rfl, rfl, rfl⟩
    · rename_i fd cqe t h
      have hopened := perform_ok call h
      have hwritten := uringWriteAll_part call fd data 0 t
      split
      · rename_i hw
        rw [hw] at hwritten
        exact ⟨[fd], [fd], false, (hopened.trans hwritten).trans (uringClose_part call fd _), rfl, rfl⟩
      · rename_i hw
        rw [hw] at hwritten
        exact ⟨[fd], [fd], _, (hopened.trans hwritten).trans (uringClose_part call fd _), rfl, rfl⟩

theorem uringReadFile_served (path : String) (s : Traced σ) :
    Served s (uringReadFile (traced call) path s).2 [] (decide (Char.ofNat 0 ∉ path.toList))
      (uringReadFile (traced call) path s).1.isOk := by
  rw [uringReadFile, uringStatxSize]
  by_cases hnul : Char.ofNat 0 ∈ path.toList
  · rw [if_pos hnul]
    exact ⟨[], [], true, Part.nil s, rfl, by rw [decide_eq_false (not_not_intro hnul)]; rfl⟩
  · rw [if_neg hnul, decide_eq_true hnul]
    cases hsize : perform (traced call) (.statx path) s with
    | mk asked t =>
      cases asked with
      | error e => exact ⟨[], [], false, perform_error call hsize rfl, rfl, rfl⟩
      | ok size =>
        have hasked := perform_ok call hsize
        dsimp only
        split
        · exact ⟨[], [], true, hasked, rfl, rfl⟩
        · split
          · rename_i h
            exact ⟨[], [], false, hasked.trans (perform_error call h rfl), rfl, rfl⟩
          · rename_i fd cqe u h
            have hopened := hasked.trans (perform_ok call h)
            have hread := uringReadExact_part call fd (List.replicate size.2.size 0) size.2.size 0 u
            split
            · rename_i hr
              rw [hr] at hread
              exact ⟨[fd], [fd], false, (hopened.trans hread).trans (uringClose_part call fd _), rfl, rfl⟩
            · rename_i v hr
              rw [hr] at hread
              have hclosed := uringClose_part call fd v
              split
              · rename_i hc
                rw [hc] at hclosed
                exact ⟨[fd], [fd], false, (hopened.trans hread).trans hclosed, rfl, rfl⟩
              · rename_i hc
                rw [hc] at hclosed
                exact ⟨[fd], [fd], true, (hopened.trans hread).trans hclosed, rfl, rfl⟩

theorem connected_isOk (fd : Nat) (addr : SocketAddr) (r : Except RingError Cqe) :
    (connected (.connect fd addr) r).isOk = !refused (.connect fd addr, r) := by
  cases r with
  | error e => rfl
  | ok cqe =>
    rw [connected, refused]
    split
    · rename_i h
      rw [decide_eq_true h]
      rfl
    · rename_i h
      rw [decide_eq_false h]
      rfl

theorem uringTcpConnect_served (addr : SocketAddr) (s : Traced σ) :
    Served s (uringTcpConnect (traced call) addr s).2 (IoAnswer.connected (uringTcpConnect (traced call) addr s).1).kept
      true (uringTcpConnect (traced call) addr s).1.isOk := by
  rw [uringTcpConnect]
  split
  · rename_i h
    exact ⟨[], [], false, perform_error call h rfl, rfl, rfl⟩
  · rename_i fd cqe t h
    have hconnect := (perform_ok call h).trans (traced_part call (.connect fd addr) t)
    rw [← connected_isOk] at hconnect
    split
    · rename_i hc
      rw [hc] at hconnect
      exact ⟨[fd], [fd], false, hconnect.trans (uringClose_part call fd _), rfl, rfl⟩
    · rename_i hc
      rw [hc] at hconnect
      exact ⟨[fd], [], true, hconnect, rfl, rfl⟩

theorem serveTask_served (task : IoTask) (s : Traced σ) :
    Served s (serveTask (traced call) task s).2 (serveTask (traced call) task s).1.kept task.isValid
      (serveTask (traced call) task s).1.isOk := by
  cases task with
  | writeFile path data => exact uringWriteFile_served call path data s
  | readFile path => exact uringReadFile_served call path s
  | tcpConnect addr => exact uringTcpConnect_served call addr s

theorem workerLoop_part (tasks : List IoTask) (s : Traced σ) :
    ∃ gets puts clean, Part s (workerLoop (traced call) tasks s).2 gets puts clean ∧
      gets.Perm (puts ++ (workerLoop (traced call) tasks s).1.flatMap IoAnswer.kept) ∧
      (workerLoop (traced call) tasks s).1.all IoAnswer.isOk = (tasks.all IoTask.isValid && clean) := by
  induction tasks generalizing s with
  | nil => exact ⟨[], [], true, Part.nil s, .nil, rfl⟩
  | cons task tasks ih =>
    obtain ⟨gets, puts, clean, hpart, hgets, hok⟩ := serveTask_served call task s
    obtain ⟨gets', puts', clean', hpart', hgets', hok'⟩ := ih (serveTask (traced call) task s).2
    refine ⟨_, _, _, hpart.trans hpart', ?_, ?_⟩
    · rw [workerLoop, List.flatMap_cons, hgets, List.append_assoc, List.append_assoc]
      refine List.Perm.append_left puts ((List.Perm.append_left _ hgets').trans ?_)
      rw [← List.append_assoc, ← List.append_assoc]
      exact List.Perm.append_right _ List.perm_append_comm
    · rw [workerLoop, List.all_cons, List.all_cons, hok, hok']
      cases task.isValid <;> cases clean <;> simp

/-- Whatever the kernel does, over all its tasks the worker closes every descriptor that it is handed but those of the connections that it returns, and its answers are all well exactly if the paths were and nothing was refused. -/
theorem workerLoop_descriptors (tasks : List IoTask) (s : σ) :
    (openedIn (workerLoop (traced call) tasks ⟨s, []⟩).2.log).Perm
        (closedIn (workerLoop (traced call) tasks ⟨s, []⟩).2.log ++
          (workerLoop (traced call) tasks ⟨s, []⟩).1.flatMap IoAnswer.kept) ∧
      ((workerLoop (traced call) tasks ⟨s, []⟩).1.all IoAnswer.isOk = true ↔
        tasks.all IoTask.isValid = true ∧ ∀ entry ∈ (workerLoop (traced call) tasks ⟨s, []⟩).2.log, refused entry = false) := by
  obtain ⟨gets, puts, clean, ⟨log, hlog, rfl, rfl, hclean⟩, hperm, hok⟩ := workerLoop_part call tasks ⟨s, []⟩
  have hflag : clean = !log.any refused := by rw [hclean, Bool.not_not]
  refine ⟨by rwa [hlog, List.nil_append], ?_⟩
  rw [hlog, List.nil_append, hok, hflag, Bool.and_eq_true, Bool.not_eq_true', List.any_eq_false]
  simp only [Bool.not_eq_true]

end Parts

end SpiderChrome.Uring
