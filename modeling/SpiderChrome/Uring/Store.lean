import SpiderChrome.Uring.Files
import Mathlib.Logic.Function.Basic

/-!
# The files behind the ring

A kernel that keeps files may write and read less than it is asked, and hand out the descriptors that it likes. `workerLoop_refines` says that over such a kernel the worker is the store that it stands for: as long as its answers are well, a write replaces the file with all of its data, a read returns all of the file, and nothing else changes.
-/

namespace SpiderChrome.Uring

abbrev Files : Type := String → Option (List UInt8)

/-- The operations that may change a file. -/
def Op.changes : Op → Bool
  | openAt _ create => create
  | write _ _ _ => true
  | _ => false

/-- What a kernel keeps, and what its operations do to it when they succeed. -/
structure FileSystem {σ : Type} (call : Call σ) where
  files : σ → Files
  path : σ → Nat → Option String
  keeps : ∀ s op, op.changes = false → files (call s op).2 = files s
  creates : ∀ {p s t fd cqe}, perform call (.openAt p true) s = (.ok (fd, cqe), t) →
    files t = Function.update (files s) p (some []) ∧ path t fd = some p
  opens : ∀ {p s t fd cqe}, perform call (.openAt p false) s = (.ok (fd, cqe), t) → path t fd = some p
  sizes : ∀ {p s t n cqe}, perform call (.statx p) s = (.ok (n, cqe), t) →
    ∃ bytes, files s p = some bytes ∧ cqe.size = bytes.length
  writes : ∀ {p s t fd offset n cqe old bytes}, path s fd = some p → files s p = some old → offset ≤ old.length →
    perform call (.write fd offset bytes) s = (.ok (n, cqe), t) →
    n ≤ bytes.length ∧ path t fd = some p ∧
      files t = Function.update (files s) p (some (splice old offset (bytes.take n)))
  reads : ∀ {p s t fd offset len n cqe bytes}, path s fd = some p → files s p = some bytes →
    perform call (.read fd offset len) s = (.ok (n, cqe), t) →
    n ≤ len ∧ path t fd = some p ∧ cqe.bytes = (bytes.drop offset).take n

/-- What a task that is done well does to the files. -/
inductive Does : IoTask → IoAnswer → Files → Files → Prop
  | wrote (files : Files) (p : String) (data : List UInt8) :
    Does (.writeFile p data) (.wrote (.ok ())) files (Function.update files p (some data))
  | got {files : Files} {p : String} {bytes : List UInt8} (h : files p = some bytes) :
    Does (.readFile p) (.got (.ok bytes)) files files
  | connected (files : Files) (addr : SocketAddr) (fd : Nat) :
    Does (.tcpConnect addr) (.connected (.ok fd)) files files

/-- The tasks are done one after the other. -/
inductive DoesAll : List IoTask → List IoAnswer → Files → Files → Prop
  | nil (files : Files) : DoesAll [] [] files files
  | cons {task : IoTask} {answer : IoAnswer} {tasks : List IoTask} {answers : List IoAnswer} {files mid last : Files}
    (h : Does task answer files mid) (rest : DoesAll tasks answers mid last) :
    DoesAll (task :: tasks) (answer :: answers) files last

theorem splice_length (old new : List UInt8) : splice old old.length new = old ++ new := by
  rw [splice, List.take_length, List.drop_of_length_le (Nat.le_add_right _ _), List.append_nil]

section Kernel

variable {σ : Type} {call : Call σ} (fs : FileSystem call)

theorem keeps_perform {op : Op} (hop : op.changes = false) {s t : σ} {r : Except IoError (Nat × Cqe)}
    (h : perform call op s = (r, t)) : fs.files t = fs.files s := by
  obtain ⟨-, rfl⟩ := Prod.mk.inj h
  exact fs.keeps s op hop

theorem uringClose_files (fd : Nat) (s : σ) : fs.files (uringClose call fd s).2 = fs.files s := by
  rw [uringClose]
  split <;> rename_i h <;> exact keeps_perform fs rfl h

/-- The file holds the data up to the offset. -/
theorem uringWriteAll_files {fd : Nat} {data : List UInt8} {p : String} {offset : Nat} {s : σ}
    (hpath : fs.path s fd = some p) (hfile : fs.files s p = some (data.take offset)) (hoffset : offset ≤ data.length)
    (hok : (uringWriteAll call fd data offset s).1 = .ok ()) :
    fs.files (uringWriteAll call fd data offset s).2 = Function.update (fs.files s) p (some data) := by
  fun_induction uringWriteAll call fd data offset s with
  | case1 offset s hlt e t h => cases hok
  | case2 offset s hlt cqe t h => cases hok
  | case3 offset s hlt written cqe t h hmoved ih =>
    have hlength : (data.take offset).length = offset := List.length_take_of_le hoffset
    obtain ⟨hle, hpath', hfiles⟩ := fs.writes hpath hfile (Nat.le_of_eq hlength.symm) h
    rw [List.length_take, List.length_drop] at hle
    have hwritten : splice (data.take offset) offset (((data.drop offset).take maxChunk).take written) =
        data.take (offset + written) := by
      have hsplice := splice_length (data.take offset) (((data.drop offset).take maxChunk).take written)
      rw [hlength] at hsplice
      rw [hsplice, List.take_take, Nat.min_eq_left (Nat.le_trans hle (Nat.min_le_left _ _)), List.take_add]
    rw [hwritten] at hfiles
    rw [ih hpath' (by rw [hfiles, Function.update_self]) (by omega) hok, hfiles, Function.update_idem]
  | case4 offset s hge =>
    have hall : data.take offset = data := List.take_of_length_le (Nat.le_of_not_lt hge)
    rw [← hall, ← hfile, Function.update_eq_self]

theorem uringWriteFile_files {p : String} {data : List UInt8} {s : σ}
    (hok : (uringWriteFile call p data s).1 = .ok ()) :
    fs.files (uringWriteFile call p data s).2 = Function.update (fs.files s) p (some data) := by
  rw [uringWriteFile] at hok ⊢
  split at hok
  · cases hok
  · rename_i hnul
    rw [if_neg hnul]
    split at hok
    · cases hok
    · rename_i fd cqe t h
      obtain ⟨hfiles, hpath⟩ := fs.creates h
      split at hok
      · cases hok
      · rename_i u hw
        have hwritten := uringWriteAll_files fs hpath (by rw [hfiles, Function.update_self, List.take_zero])
          (Nat.zero_le data.length) (congrArg Prod.fst hw)
        rw [hw, hfiles, Function.update_idem] at hwritten
        exact (uringClose_files fs fd u).trans hwritten

theorem uringReadExact_keeps (fd : Nat) (buf : List UInt8) (len offset : Nat) (s : σ) :
    fs.files (uringReadExact call fd buf len offset s).2 = fs.files s := by
  fun_induction uringReadExact call fd buf len offset s with
  | case1 buf offset s hlt e t h => exact keeps_perform fs rfl h
  | case2 buf offset s hlt cqe t h => exact keeps_perform fs rfl h
  | case3 buf offset s hlt n cqe t h hmoved ih => exact ih.trans (keeps_perform fs rfl h)
  | case4 buf offset s hge => rfl

/-- The buffer holds the file up to the offset. -/
theorem uringReadExact_got {fd : Nat} {p : String} {bytes buf : List UInt8} {offset : Nat} {s : σ}
    (hpath : fs.path s fd = some p) (hfile : fs.files s p = some bytes) (hlength : buf.length = bytes.length)
    (hbuf : buf.take offset = bytes.take offset) {got : List UInt8}
    (hok : (uringReadExact call fd buf bytes.length offset s).1 = .ok got) : got = bytes := by
  generalize hlen : bytes.length = len at hok
  fun_induction uringReadExact call fd buf len offset s with
  | case1 buf offset s hlt e t h => cases hok
  | case2 buf offset s hlt cqe t h => cases hok
  | case3 buf offset s hlt n cqe t h hmoved ih =>
    obtain ⟨hle, hpath', hread⟩ := fs.reads hpath hfile h
    have hn : n ≤ len - offset := Nat.le_trans hle (Nat.min_le_left _ _)
    have hreadLength : cqe.bytes.length = n := by
      rw [hread, List.length_take, List.length_drop]
      omega
    have hfront : (buf.take offset ++ cqe.bytes).length = offset + n := by
      rw [List.length_append, List.length_take, hreadLength]
      omega
    refine ih hpath' ((congrFun (keeps_perform fs rfl h) p).trans hfile) ?_ ?_ hok
    · rw [splice, List.length_append, hfront, List.length_drop, hreadLength]
      omega
    · rw [splice, List.take_append_of_le_length (Nat.le_of_eq hfront.symm), List.take_of_length_le (Nat.le_of_eq hfront),
        hbuf, hread, List.take_add]
  | case4 buf offset s hge =>
    cases hok
    rw [List.take_of_length_le (by omega), List.take_of_length_le (by omega)] at hbuf
    exact hbuf

theorem uringStatxSize_files {p : String} {s t : σ} {size : Nat} (h : uringStatxSize call p s = (.ok size, t)) :
    fs.files t = fs.files s ∧ ∃ bytes, fs.files s p = some bytes ∧ size = bytes.length := by
  rw [uringStatxSize] at h
  split at h
  · cases h
  · split at h
    · cases h
    · rename_i hasked
      cases h
      exact ⟨keeps_perform fs rfl hasked, fs.sizes hasked⟩

theorem uringReadFile_files {p : String} {s : σ} {got : List UInt8} (hok : (uringReadFile call p s).1 = .ok got) :
    fs.files s p = some got ∧ fs.files (uringReadFile call p s).2 = fs.files s := by
  rw [uringReadFile] at hok ⊢
  split at hok
  · cases hok
  · rename_i len t hsize
    obtain ⟨hkept, bytes, hbytes, rfl⟩ := uringStatxSize_files fs hsize
    split at hok
    · rename_i hempty
      cases hok
      rw [hbytes, List.length_eq_zero_iff.1 hempty]
      exact ⟨rfl, hkept⟩
    · rename_i hempty
      rw [if_neg hempty]
      split at hok
      · cases hok
      · rename_i fd cqe u h
        have hopened := (keeps_perform fs rfl h).trans hkept
        have hread := uringReadExact_keeps fs fd (List.replicate bytes.length 0) bytes.length 0 u
        split at hok
        · cases hok
        · rename_i buf v hr
          have hgot := uringReadExact_got fs (fs.opens h) ((congrFun hopened p).trans hbytes) List.length_replicate rfl
            (congrArg Prod.fst hr)
          rw [hr] at hread
          have hclosed := uringClose_files fs fd v
          split at hok
          · cases hok
          · rename_i w hc
            cases hok
            rw [hc] at hclosed
            exact ⟨hgot ▸ hbytes, (hclosed.trans hread).trans hopened⟩

theorem uringTcpConnect_files (addr : SocketAddr) (s : σ) :
    fs.files (uringTcpConnect call addr s).2 = fs.files s := by
  rw [uringTcpConnect]
  split
  · rename_i h
    exact keeps_perform fs rfl h
  · rename_i fd cqe t h
    have hconnected := (fs.keeps t (.connect fd addr) rfl).trans (keeps_perform fs rfl h)
    split
    · exact (uringClose_files fs fd _).trans hconnected
    · exact hconnected

theorem serveTask_does {task : IoTask} {s : σ} (hok : (serveTask call task s).1.isOk = true) :
    Does task (serveTask call task s).1 (fs.files s) (fs.files (serveTask call task s).2) := by
  cases task with
  | writeFile p data =>
    rw [serveTask] at hok ⊢
    cases hresult : (uringWriteFile call p data s).1 with
    | error e =>
      rw [hresult] at hok
      cases hok
    | ok result =>
      cases result
      rw [uringWriteFile_files fs hresult]
      exact .wrote (fs.files s) p data
  | readFile p =>
    rw [serveTask] at hok ⊢
    cases hresult : (uringReadFile call p s).1 with
    | error e =>
      rw [hresult] at hok
      cases hok
    | ok got =>
      obtain ⟨hgot, hfiles⟩ := uringReadFile_files fs hresult
      rw [hfiles]
      exact .got hgot
  | tcpConnect addr =>
    rw [serveTask] at hok ⊢
    cases hresult : (uringTcpConnect call addr s).1 with
    | error e =>
      rw [hresult] at hok
      cases hok
    | ok fd =>
      rw [uringTcpConnect_files fs addr s]
      exact .connected (fs.files s) addr fd

/-- Over a kernel that keeps files, a worker whose answers are all well has done what the tasks say. -/
theorem workerLoop_refines {tasks : List IoTask} {s : σ}
    (hok : (workerLoop call tasks s).1.all IoAnswer.isOk = true) :
    DoesAll tasks (workerLoop call tasks s).1 (fs.files s) (fs.files (workerLoop call tasks s).2) := by
  induction tasks generalizing s with
  | nil => exact .nil (fs.files s)
  | cons task tasks ih =>
    rw [workerLoop, List.all_cons, Bool.and_eq_true] at hok
    exact .cons (serveTask_does fs hok.1) (ih hok.2)

end Kernel

/-! ### A disk -/

/-- A disk that moves so many bytes at a time, at most. -/
structure Disk where
  files : Files
  fds : List String
  most : Nat

namespace Disk

def done (n : Nat) : Cqe := ⟨n, [], 0⟩

def fails (code : Int) : Cqe := ⟨-code, [], 0⟩

def enoent : Int := 2

def ebadf : Int := 9

/-- What a read gets. -/
def front (d : Disk) (p : String) (offset len : Nat) : List UInt8 :=
  (((d.files p).getD []).drop offset).take (min len d.most)

def serve (d : Disk) : Op → Cqe × Disk
  | .openAt p true =>
    (done d.fds.length, { d with files := Function.update d.files p (some []), fds := d.fds ++ [p] })
  | .openAt p false =>
    match d.files p with
    | some _ => (done d.fds.length, { d with fds := d.fds ++ [p] })
    | none => (fails enoent, d)
  | .statx p =>
    match d.files p with
    | some bytes => (⟨0, [], bytes.length⟩, d)
    | none => (fails enoent, d)
  | .write fd offset bytes =>
    match d.fds[fd]? with
    | some p =>
      (done (min d.most bytes.length),
        { d with files := Function.update d.files p
                   (some (splice ((d.files p).getD []) offset (bytes.take (min d.most bytes.length)))) })
    | none => (fails ebadf, d)
  | .read fd offset len =>
    match d.fds[fd]? with
    | some p =>
      (⟨(d.front p offset len).length, d.front p offset len, 0⟩, d)
    | none => (fails ebadf, d)
  | .close _ => (done 0, d)
  | .socket _ => (fails enoent, d)
  | .connect _ _ => (fails ebadf, d)

def call : Call Disk := directCall serve

theorem keeps (d : Disk) {op : Op} (hop : op.changes = false) : (serve d op).2.files = d.files := by
  cases op with
  | openAt p create =>
    cases hop
    rw [serve]
    split <;> rfl
  | statx p =>
    rw [serve]
    split <;> rfl
  | read fd offset len =>
    rw [serve]
    split <;> rfl
  | write fd offset bytes => cases hop
  | close fd => rfl
  | socket v6 => rfl
  | connect fd addr => rfl

theorem getElem?_opened (d : Disk) (p : String) : (d.fds ++ [p])[d.fds.length]? = some p := by
  simp only [List.getElem?_append_right (Nat.le_refl _), Nat.sub_self, List.getElem?_cons_zero]

theorem perform_eq {d t u : Disk} {op : Op} {n : Nat} {cqe cqe' : Cqe} (hserve : serve d op = (cqe', t))
    (h : perform call op d = (.ok (n, cqe), u)) : 0 ≤ cqe'.result ∧ n = cqe'.result.toNat ∧ cqe = cqe' ∧ u = t := by
  rw [perform, call, directCall, hserve] at h
  obtain ⟨hanswered, rfl⟩ := Prod.mk.inj h
  obtain ⟨hcqe, hpos, rfl⟩ := answered_ok_iff.1 hanswered
  cases hcqe
  exact ⟨hpos, rfl, rfl, rfl⟩

theorem opens {d t : Disk} {p : String} {fd : Nat} {cqe : Cqe}
    (h : perform call (.openAt p false) d = (.ok (fd, cqe), t)) : t.fds[fd]? = some p := by
  cases hfile : d.files p with
  | none =>
    have hserve : serve d (.openAt p false) = (fails enoent, d) := by rw [serve, hfile]
    exact absurd (perform_eq hserve h).1 (by decide)
  | some bytes =>
    have hserve : serve d (.openAt p false) = (done d.fds.length, { d with fds := d.fds ++ [p] }) := by rw [serve, hfile]
    obtain ⟨-, rfl, -, rfl⟩ := perform_eq hserve h
    exact d.getElem?_opened p

theorem sizes {d t : Disk} {p : String} {n : Nat} {cqe : Cqe} (h : perform call (.statx p) d = (.ok (n, cqe), t)) :
    ∃ bytes, d.files p = some bytes ∧ cqe.size = bytes.length := by
  cases hfile : d.files p with
  | none =>
    have hserve : serve d (.statx p) = (fails enoent, d) := by rw [serve, hfile]
    exact absurd (perform_eq hserve h).1 (by decide)
  | some bytes =>
    have hserve : serve d (.statx p) = (⟨0, [], bytes.length⟩, d) := by rw [serve, hfile]
    obtain ⟨-, -, rfl, -⟩ := perform_eq hserve h
    exact ⟨bytes, rfl, rfl⟩

theorem writes {d t : Disk} {p : String} {fd offset n : Nat} {cqe : Cqe} {old bytes : List UInt8}
    (hpath : d.fds[fd]? = some p) (hfile : d.files p = some old)
    (h : perform call (.write fd offset bytes) d = (.ok (n, cqe), t)) :
    n ≤ bytes.length ∧ t.fds[fd]? = some p ∧
      t.files = Function.update d.files p (some (splice old offset (bytes.take n))) := by
  have hserve : serve d (.write fd offset bytes) = (done (min d.most bytes.length),
      { d with files := Function.update d.files p (some (splice old offset (bytes.take (min d.most bytes.length)))) }) := by
    rw [serve, hpath]
    dsimp only
    rw [hfile, Option.getD_some]
  obtain ⟨-, rfl, -, rfl⟩ := perform_eq hserve h
  exact ⟨Nat.min_le_right _ _, hpath, rfl⟩

theorem reads {d t : Disk} {p : String} {fd offset len n : Nat} {cqe : Cqe} {bytes : List UInt8}
    (hpath : d.fds[fd]? = some p) (hfile : d.files p = some bytes)
    (h : perform call (.read fd offset len) d = (.ok (n, cqe), t)) :
    n ≤ len ∧ t.fds[fd]? = some p ∧ cqe.bytes = (bytes.drop offset).take n := by
  have hserve : serve d (.read fd offset len) = (⟨(d.front p offset len).length, d.front p offset len, 0⟩, d) := by
    rw [serve, hpath]
  have hfront : d.front p offset len = (bytes.drop offset).take (min len d.most) := by rw [front, hfile, Option.getD_some]
  obtain ⟨-, rfl, rfl, rfl⟩ := perform_eq hserve h
  rw [hfront, Int.toNat_natCast]
  refine ⟨?_, hpath, ?_⟩
  · rw [List.length_take]
    omega
  · rw [List.length_take, ← List.take_eq_take_min]

def fileSystem : FileSystem call where
  files := files
  path d fd := d.fds[fd]?
  keeps d _ hop := d.keeps hop
  creates h := by
    obtain ⟨-, rfl, -, rfl⟩ := perform_eq rfl h
    exact ⟨rfl, getElem?_opened _ _⟩
  opens := opens
  sizes := sizes
  writes hpath hfile _ h := writes hpath hfile h
  reads := reads

/-- A disk that is empty and moves two bytes at a time. -/
def slow : Disk := ⟨fun _ => none, [], 2⟩

def roundTrip : List IoTask := [.writeFile "dump" [1, 2, 3], .readFile "dump", .writeFile "dump" [7], .readFile "dump"]

end Disk

theorem workerLoop_refines_slow :
    DoesAll Disk.roundTrip (workerLoop Disk.call Disk.roundTrip Disk.slow).1 Disk.slow.files
      (workerLoop Disk.call Disk.roundTrip Disk.slow).2.files :=
  workerLoop_refines Disk.fileSystem (by decide +kernel)

end SpiderChrome.Uring
