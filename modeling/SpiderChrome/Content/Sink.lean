import SpiderChrome.Library.BufferedFile

/-!
# Sinks that spill to disk

Where the chunks of a document or of a response body are gathered: a temporary file while that goes well, and memory from the first write that fails. What the file holds at that point is read back and the chunk that failed is put after it, so nothing is lost and nothing doubled exactly if the file holds the chunks before that one, whole, and none of that one.
-/

namespace SpiderChrome

open BufferedFile (File WriteResult FlushResult)

/-- The two kinds of sinks, which are the same. -/
inductive Spill where
  | disk (file : File UInt8)
  | memory (buf : List UInt8)

/-- How the operations go that one write comes to. The last two are only reached when the first fails. -/
structure WriteIo where
  write : WriteResult
  flush : FlushResult
  readable : Bool
deriving DecidableEq

/-- How the operations of the end go. -/
structure FinishIo where
  flush : FlushResult
  readable : Bool
deriving DecidableEq

namespace Spill

/-- A temporary file, or memory if there can be none. -/
def start (created : Bool) : Spill := if created then disk File.new else memory []

def put (sink : Spill) (data : List UInt8) (io : WriteIo) : Spill :=
  match sink with
  | disk file =>
    let written := file.writeAll data io.write
    if io.write.isOk then disk written
    else memory (((written.flush io.flush).read io.readable).getD [] ++ data)
  | memory buf => memory (buf ++ data)

/-- The bytes, and the sink that is left behind. -/
def take (sink : Spill) (io : FinishIo) : List UInt8 × Spill :=
  match sink with
  | disk file => (((file.flush io.flush).read io.readable).getD [], memory [])
  | memory buf => (buf, memory [])

end Spill

namespace ContentStream

namespace Sink

def openSink (created : Bool) : Spill := Spill.start created

def write (sink : Spill) (data : List UInt8) (io : WriteIo) : Spill := sink.put data io

def finish (sink : Spill) (io : FinishIo) : List UInt8 × Spill := sink.take io

end Sink

end ContentStream

namespace ChunkSink

def openDisk (created : Bool) : Spill := Spill.start created

def writeChunk (sink : Spill) (decoded : List UInt8) (io : WriteIo) : Spill := sink.put decoded io

def finish (sink : Spill) (io : FinishIo) : List UInt8 × Spill := sink.take io

end ChunkSink

namespace Spill

/-- The bytes that a sink ends with, after some writes. -/
def collect (sink : Spill) (writes : List (List UInt8 × WriteIo)) (last : FinishIo) : List UInt8 :=
  ((writes.foldl (fun sink w => sink.put w.1 w.2) sink).take last).1

/-- What the file is read back for: as many bytes as the sink was given before, or none if it cannot be read. -/
def ReadsBack (file : File UInt8) (readable : Bool) (given : Nat) : Prop :=
  if readable then file.written.length = given else given = 0

/-- The file is read back once, after the first write that fails or at the end, and it has then all that was given before. -/
def Recoverable (last : FinishIo) : File UInt8 → List (List UInt8 × WriteIo) → Prop
  | file, [] => ReadsBack (file.flush last.flush) last.readable file.accepted.length
  | file, (data, io) :: rest =>
    if io.write.isOk then Recoverable last (file.writeAll data io.write) rest
    else ReadsBack ((file.writeAll data io.write).flush io.flush) io.readable file.accepted.length

theorem collect_cons (sink : Spill) (data : List UInt8) (io : WriteIo) (rest : List (List UInt8 × WriteIo))
    (last : FinishIo) : sink.collect ((data, io) :: rest) last = (sink.put data io).collect rest last := rfl

/-- In memory nothing can go wrong. -/
theorem collect_memory (buf : List UInt8) (writes : List (List UInt8 × WriteIo)) (last : FinishIo) :
    (memory buf).collect writes last = buf ++ (writes.map Prod.fst).flatten := by
  induction writes generalizing buf with
  | nil => simp [collect, take]
  | cons w rest ih =>
    rw [collect_cons, put, ih]
    simp

/-- A file that has the front of what was given has all of it exactly when it is as long. -/
theorem readsBack_iff {file : File UInt8} {given : List UInt8} (readable : Bool)
    (hlength : file.written = given ↔ file.written.length = given.length) :
    (file.read readable).getD [] = given ↔ ReadsBack file readable given.length := by
  cases readable with
  | true => simpa [File.read, ReadsBack] using hlength
  | false =>
    simp only [File.read, ReadsBack]
    exact eq_comm.trans List.length_eq_zero_iff.symm

/-- What a sink would end with if all went well from here on. -/
def content : Spill → List UInt8
  | disk file => file.accepted
  | memory buf => buf

/-- A sink that nothing happens to: the operations on its file, where it has one, go well. -/
def Undisturbed (io : Nat → WriteIo) (last : FinishIo) : Spill → Prop
  | disk _ => (∀ round, (io round).write.isOk = true) ∧ last = ⟨.ok, true⟩
  | memory _ => True

theorem Undisturbed.content_put {io : Nat → WriteIo} {last : FinishIo} {sink : Spill} (h : sink.Undisturbed io last)
    (data : List UInt8) (round : Nat) :
    (sink.put data (io round)).Undisturbed io last ∧ (sink.put data (io round)).content = sink.content ++ data := by
  cases sink with
  | memory buf => exact ⟨trivial, rfl⟩
  | disk file =>
    obtain ⟨reached, hreached⟩ := WriteResult.exists_of_isOk (h.1 round)
    rw [put, if_pos (h.1 round)]
    refine ⟨h, ?_⟩
    rw [hreached]
    exact File.accepted_writeAll_ok file data reached

theorem Undisturbed.take_eq {io : Nat → WriteIo} {last : FinishIo} {sink : Spill} (h : sink.Undisturbed io last) :
    (sink.take last).1 = sink.content := by
  cases sink with
  | memory buf => rfl
  | disk file =>
    rw [h.2]
    rfl

/-- From any point on, while the sink is on disk. -/
theorem collect_disk_iff (file : File UInt8) (writes : List (List UInt8 × WriteIo)) (last : FinishIo) :
    (disk file).collect writes last = file.accepted ++ (writes.map Prod.fst).flatten ↔
      Recoverable last file writes := by
  induction writes generalizing file with
  | nil =>
    have hflush := file.flush_eq_iff last.flush
    simpa [collect, take, Recoverable] using readsBack_iff last.readable hflush
  | cons w rest ih =>
    obtain ⟨data, io⟩ := w
    simp only [List.map_cons, List.flatten_cons]
    by_cases hok : io.write.isOk = true
    · obtain ⟨reached, hreached⟩ := WriteResult.exists_of_isOk hok
      have hih := ih (file.writeAll data io.write)
      rw [hreached, File.accepted_writeAll_ok, List.append_assoc, ← hreached] at hih
      simpa only [collect_cons, put, Recoverable, if_pos hok] using hih
    · have hread := readsBack_iff io.readable (file.writeAll_flush_eq_iff data io.write io.flush)
      simp only [collect_cons, put, Recoverable, if_neg hok]
      rw [collect_memory, List.append_assoc, List.append_left_inj]
      exact hread

/-- What a sink ends with is what it was given exactly when a file, where there is one, has it when it is read back. -/
theorem collect_start_iff (created : Bool) (writes : List (List UInt8 × WriteIo)) (last : FinishIo) :
    (start created).collect writes last = (writes.map Prod.fst).flatten ↔
      (created = true → Recoverable last File.new writes) := by
  cases created with
  | true => simpa [start] using collect_disk_iff File.new writes last
  | false => simpa [start] using collect_memory [] writes last

end Spill

/-- The sink of the content reader, from its opening to its end. -/
def ContentStream.Sink.collect (created : Bool) (writes : List (List UInt8 × WriteIo)) (last : FinishIo) :
    List UInt8 :=
  (Sink.finish (writes.foldl (fun sink w => Sink.write sink w.1 w.2) (Sink.openSink created)) last).1

/-- The sink of the response bodies, from its opening to its end. -/
def ChunkSink.collect (created : Bool) (writes : List (List UInt8 × WriteIo)) (last : FinishIo) : List UInt8 :=
  (finish (writes.foldl (fun sink w => writeChunk sink w.1 w.2) (openDisk created)) last).1

/-- Both sinks give back the chunks that they were given exactly when the temporary file, where there is one, has all the chunks before the first write that failed, and nothing else, when it is read back. -/
theorem ChunkSink.gives_back_iff (created : Bool) (writes : List (List UInt8 × WriteIo)) (last : FinishIo) :
    (ChunkSink.collect created writes last = (writes.map Prod.fst).flatten ↔
        (created = true → Spill.Recoverable last File.new writes)) ∧
      (ContentStream.Sink.collect created writes last = (writes.map Prod.fst).flatten ↔
        (created = true → Spill.Recoverable last File.new writes)) :=
  ⟨Spill.collect_start_iff created writes last, Spill.collect_start_iff created writes last⟩

/-- The first chunk is accepted and only a byte of it reaches the file, which the second write finds out; or the second chunk fails after a byte of it has reached the file. The other bytes of the first chunk are gone, or this byte is there twice. -/
theorem ChunkSink.bytes_lost_or_doubled :
    let late : List (List UInt8 × WriteIo) :=
      [([1, 2, 3], ⟨.ok 0, .ok, true⟩), ([4, 5, 6], ⟨.failed 1 0, .ok, true⟩)]
    let torn : List (List UInt8 × WriteIo) :=
      [([1, 2, 3], ⟨.ok 3, .ok, true⟩), ([4, 5, 6], ⟨.failed 1 0, .ok, true⟩)]
    ChunkSink.collect true late ⟨.ok, true⟩ = [1, 4, 5, 6] ∧
      ContentStream.Sink.collect true late ⟨.ok, true⟩ = [1, 4, 5, 6] ∧
      ChunkSink.collect true torn ⟨.ok, true⟩ = [1, 2, 3, 4, 4, 5, 6] ∧
      ContentStream.Sink.collect true torn ⟨.ok, true⟩ = [1, 2, 3, 4, 4, 5, 6] := by
  decide

end SpiderChrome
