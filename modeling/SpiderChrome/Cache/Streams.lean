import SpiderChrome.Cache.Interceptor
import SpiderChrome.Content.Sink
import SpiderChrome.Library.Dispatcher

/-!
# Body streams

`read_response_body_as_stream` takes a body from the browser chunk by chunk and gathers it in a temporary file or in memory. Its future may be dropped wherever it waits: then the guards in it give what is left, the stream that is open in the browser and the file, to the cleanup worker. A step of a stream is the end of what it waits for. What a dropped future waited for may still take place, as the browser and the file system know nothing of the drop.
-/

namespace SpiderChrome

structure StreamHandle where
  id : Nat
deriving DecidableEq

/-- The temporary files of body streams, and those of the reads of a document, by the number in their names. -/
inductive TempFile where
  | stream (seq : Nat)
  | content (seq : Nat)
deriving DecidableEq

inductive CleanupTask where
  | removeFile (path : TempFile)
  | closeCdpStream (handle : StreamHandle)
deriving DecidableEq

/-- `DISPATCH_BATCH` of `bg_cleanup.rs`. -/
def BgCleanup.dispatchBatch : Nat := 64

namespace BodyStream

inductive StreamError where
  | cdp (err : CdpError)
  | bodyTooLarge (bytes : Nat)
  | base64

/-- `StreamResult`, with its errors. -/
inductive Result where
  | ok (body : List UInt8)
  | notStarted (error : StreamError)
  | partialBody (body : List UInt8) (error : StreamError)

/-- What the interceptor makes use of. -/
def Result.toStreamResult : Result → StreamResult
  | ok body => .ok body
  | notStarted _ => .notStarted
  | partialBody body _ => .partialBody body

/-- The answer to `IO.read`. -/
structure Chunk where
  data : String
  base64Encoded : Option Bool
  eof : Bool

def Chunk.bytes (decodeBase64 : String → Option (List UInt8)) (chunk : Chunk) : Option (List UInt8) :=
  if chunk.base64Encoded.getD false then decodeBase64 chunk.data else some (textBytes chunk.data)

/-- `ChunkSink`, with the path of its file. -/
inductive Sink where
  | disk (file : BufferedFile.File UInt8) (path : TempFile)
  | memory (buf : List UInt8)

namespace Sink

def toSpill : Sink → Spill
  | disk file _ => .disk file
  | memory buf => .memory buf

def ofSpill (path : TempFile) : Spill → Sink
  | .disk file => disk file path
  | .memory buf => memory buf

def writeChunk (sink : Sink) (decoded : List UInt8) (io : WriteIo) : Sink :=
  match sink with
  | disk file path => ofSpill path (ChunkSink.writeChunk (.disk file) decoded io)
  | memory buf => memory (buf ++ decoded)

end Sink

/-- Where `read_all_chunks` waits. -/
inductive Phase where
  | makingDir
  | creating (path : TempFile)
  | reading (sink : Sink) (total : Nat)
  | writing (file : BufferedFile.File UInt8) (path : TempFile) (total : Nat) (data : List UInt8) (eof : Bool)
  | finishing (file : BufferedFile.File UInt8) (path : TempFile)

/-- Where `read_response_body_as_stream` waits; while the stream is `opened`, the guard has its handle. -/
inductive Stage where
  | opening
  | opened (handle : StreamHandle) (phase : Phase)
  | closing (handle : StreamHandle) (result : Result)
  | done (result : Result)
  | dropped

/-- A stream, with the cap that it reads from the environment. The last three fields are a record: whether there was a file, the chunks that came, and what was written to the sink, and how that went. -/
structure Stream where
  cap : Option Nat
  stage : Stage
  created : Bool
  chunks : List Chunk
  writes : List (List UInt8 × WriteIo)

def Stage.live : Stage → Bool
  | done _ | dropped => false
  | _ => true

inductive Event where
  | opened
  /-- `landed`: the browser has opened the stream all the same. -/
  | notOpened (err : CdpError) (landed : Bool)
  | madeDir (ok : Bool)
  | created (ok : Bool)
  | chunk (chunk : Chunk)
  | readFailed (err : CdpError)
  /-- `removed`: the file is removed, if it comes to that. -/
  | wrote (io : WriteIo) (removed : Bool)
  | finished (io : FinishIo) (removed : Bool)
  | closed (delivered : Bool)
  /-- `landed`: what the future waited for takes place all the same. -/
  | drop (landed : Bool)

/-- What a step does to the rest of the world. -/
inductive Effect where
  /-- The browser opens a stream. -/
  | openStream
  /-- A name for a file is used up. -/
  | nameFile
  | create (path : TempFile)
  | remove (path : TempFile)
  | submit (task : CleanupTask)
  | read (handle : StreamHandle)
  | close (handle : StreamHandle)
  /-- Nobody is left who would close the stream. -/
  | abandon (handle : StreamHandle)
  /-- Nobody is left who would remove the file. -/
  | leave (path : TempFile)
deriving DecidableEq

/-- `Drop for ChunkSink`. -/
def Sink.dropped : Sink → List Effect
  | disk _ path => [.submit (.removeFile path)]
  | memory _ => []

/-- `remove_file`, the result of which nobody looks at. -/
def unlink (removed : Bool) (path : TempFile) : Effect := if removed then .remove path else .leave path

/-- The file may have been removed just before the sink is dropped. -/
def droppedLate (landed : Bool) (path : TempFile) : List Effect :=
  (if landed then [.remove path] else []) ++ [.submit (.removeFile path)]

/-- What is dropped with the future of `read_all_chunks`. -/
def Phase.dropped (landed : Bool) : Phase → List Effect
  | makingDir => []
  | creating path => if landed then [.create path, .leave path] else []
  | reading sink _ => sink.dropped
  | writing _ path _ _ _ | finishing _ path => droppedLate landed path

namespace Stream

/-- `read_all_chunks` returns with an error, and the sink is dropped. -/
def fail (stream : Stream) (handle : StreamHandle) (sink : Sink) (error : StreamError) : Stream × List Effect :=
  ({ stream with stage := .closing handle (.partialBody [] error) }, sink.dropped)

/-- The next turn of the loop, or its end. A sink in memory is finished at once. -/
def turn (stream : Stream) (handle : StreamHandle) (sink : Sink) (total : Nat) (eof : Bool) : Stream × List Effect :=
  if eof then
    match sink with
    | .disk file path => ({ stream with stage := .opened handle (.finishing file path) }, [])
    | .memory buf => ({ stream with stage := .closing handle (.ok buf) }, [])
  else ({ stream with stage := .opened handle (.reading sink total) }, [.read handle])

/-- The record of a chunk. -/
def heard (stream : Stream) (chunk : Chunk) : Stream := { stream with chunks := stream.chunks ++ [chunk] }

/-- The record of a write. -/
def wrote (stream : Stream) (data : List UInt8) (io : WriteIo) : Stream :=
  { stream with writes := stream.writes ++ [(data, io)] }

/-- A write to memory goes well. -/
def inMemory : WriteIo := ⟨.ok 0, .ok, true⟩

def onChunk (decodeBase64 : String → Option (List UInt8)) (stream : Stream) (handle : StreamHandle) (sink : Sink)
    (total : Nat) (chunk : Chunk) : Stream × List Effect :=
  match chunk.bytes decodeBase64 with
  | none => stream.fail handle sink .base64
  | some data =>
    let total := total + data.length
    if stream.cap.any fun max => total > max then stream.fail handle sink (.bodyTooLarge total)
    else match sink with
      | .disk file path => ({ stream with stage := .opened handle (.writing file path total data chunk.eof) }, [])
      | .memory _ => (stream.wrote data inMemory).turn handle (sink.writeChunk data inMemory) total chunk.eof

/-- The sink is ready, and the first chunk is asked for. -/
def begin (stream : Stream) (handle : StreamHandle) (sink : Sink) : Stream × List Effect :=
  ({ stream with stage := .opened handle (.reading sink 0) }, [.read handle])

/-- A step of a stream; what it does not wait for changes nothing. `handle` and `path` are the next ones that are free. -/
def next (cacheStreamDisk : Bool) (decodeBase64 : String → Option (List UInt8)) (handle : StreamHandle)
    (path : TempFile) (stream : Stream) (event : Event) : Stream × List Effect :=
  match stream.stage, event with
  | .opening, .opened =>
    if cacheStreamDisk then ({ stream with stage := .opened handle .makingDir }, [.openStream])
    else ((stream.begin handle (.memory [])).1, .openStream :: (stream.begin handle (.memory [])).2)
  | .opening, .notOpened err landed =>
    ({ stream with stage := .done (.notStarted (.cdp err)) }, if landed then [.openStream, .abandon handle] else [])
  | .opening, .drop landed =>
    ({ stream with stage := .dropped }, if landed then [.openStream, .abandon handle] else [])
  | .opened handle .makingDir, .madeDir ok =>
    if ok then ({ stream with stage := .opened handle (.creating path) }, [.nameFile])
    else stream.begin handle (.memory [])
  | .opened handle (.creating path), .created ok =>
    if ok then
      (({ stream with created := true }.begin handle (.disk .new path)).1,
        .create path :: (stream.begin handle (.disk .new path)).2)
    else stream.begin handle (.memory [])
  | .opened handle (.reading sink total), .chunk chunk => (stream.heard chunk).onChunk decodeBase64 handle sink total chunk
  | .opened handle (.reading sink _), .readFailed err => stream.fail handle sink (.cdp err)
  | .opened handle (.writing file path total data eof), .wrote io removed =>
    let (stream, effects) := (stream.wrote data io).turn handle ((Sink.disk file path).writeChunk data io) total eof
    (stream, (if io.write.isOk then [] else [unlink removed path]) ++ effects)
  | .opened handle (.finishing file path), .finished io removed =>
    ({ stream with stage := .closing handle (.ok (ChunkSink.finish (.disk file) io).1) }, [unlink removed path])
  | .opened handle phase, .drop landed =>
    ({ stream with stage := .dropped }, phase.dropped landed ++ [.submit (.closeCdpStream handle)])
  | .closing handle result, .closed delivered =>
    ({ stream with stage := .done result }, [if delivered then .close handle else .abandon handle])
  | .closing handle _, .drop _ => ({ stream with stage := .dropped }, [.abandon handle])
  | _, _ => (stream, [])

end Stream

/-! ### Any number of streams, and the worker -/

/-- The commands for a stream, in the order in which they are sent. -/
inductive StreamCommand where
  | read (handle : StreamHandle)
  | close (handle : StreamHandle)
deriving DecidableEq

def StreamCommand.handle : StreamCommand → StreamHandle
  | read handle | close handle => handle

/-- The feature and the decoder are the same throughout. `files` are the temporary files of streams that exist; `abandoned` and `left` are a record. -/
structure World where
  cacheStreamDisk : Bool
  decodeBase64 : String → Option (List UInt8)
  nextHandle : Nat
  streamFileSeq : Nat
  inflightStreams : Nat
  files : List TempFile
  worker : Dispatcher CleanupTask
  commands : List StreamCommand
  streams : List Stream
  abandoned : List StreamHandle
  left : List TempFile

inductive Input where
  /-- The first poll of a future. -/
  | start (cap : Option Nat)
  | event (id : Nat) (event : Event)
  /-- A sink of a document read is dropped. -/
  | dropContentSink (seq : Nat)
  | receive (count : Nat)
  | finishTask (batch place : Nat) (ok : Bool)
  | panic (batch : Nat)

namespace World

def init (cacheStreamDisk : Bool) (decodeBase64 : String → Option (List UInt8)) : World where
  cacheStreamDisk := cacheStreamDisk
  decodeBase64 := decodeBase64
  nextHandle := 0
  streamFileSeq := 0
  inflightStreams := 0
  files := []
  worker := .empty
  commands := []
  streams := []
  abandoned := []
  left := []

def apply (w : World) : Effect → World
  | .openStream => { w with nextHandle := w.nextHandle + 1 }
  | .nameFile => { w with streamFileSeq := w.streamFileSeq + 1 }
  | .create path => { w with files := path :: w.files }
  | .remove path => { w with files := w.files.filter (· ≠ path) }
  | .submit task => { w with worker := w.worker.submit task }
  | .read handle => { w with commands := w.commands ++ [.read handle] }
  | .close handle => { w with commands := w.commands ++ [.close handle] }
  | .abandon handle => { w with abandoned := w.abandoned ++ [handle] }
  | .leave path => { w with left := w.left ++ [path] }

/-- `run_task`, when it goes well and when it does not. -/
def taskEffect (ok : Bool) : CleanupTask → Effect
  | .removeFile path => if ok then .remove path else .leave path
  | .closeCdpStream handle => if ok then .close handle else .abandon handle

/-- What becomes of a task that a panic takes with it. -/
def lostEffect (task : CleanupTask) : Effect := taskEffect false task

def applyAll (w : World) (effects : List Effect) : World := effects.foldl apply w

def step (w : World) : Input → World
  | .start cap =>
    { w with
      worker := w.worker.init
      inflightStreams := w.inflightStreams + 1
      streams := w.streams ++ [⟨cap, .opening, false, [], []⟩] }
  | .event id event =>
    match w.streams[id]? with
    | some stream =>
      if stream.stage.live then
        let (stream', effects) := stream.next w.cacheStreamDisk w.decodeBase64 ⟨w.nextHandle⟩ (.stream w.streamFileSeq) event
        { w with
          inflightStreams := if stream'.stage.live then w.inflightStreams else w.inflightStreams - 1
          streams := w.streams.modify id fun _ => stream' }.applyAll effects
      else w
    | none => w
  | .dropContentSink seq => w.apply (.submit (.removeFile (.content seq)))
  | .receive count => { w with worker := w.worker.receive BgCleanup.dispatchBatch count }
  | .finishTask batch place ok =>
    match w.worker.running batch place with
    | some task => { w with worker := w.worker.finish batch place }.apply (taskEffect ok task)
    | none => w
  | .panic batch => { w with worker := w.worker.panic batch }.applyAll ((w.worker.unfinished batch).map lostEffect)

end World

end BodyStream

end SpiderChrome
