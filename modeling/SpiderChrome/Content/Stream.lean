import SpiderChrome.Cdp.Command
import SpiderChrome.Content.Units
import SpiderChrome.Content.Sink

/-!
# The content reader

How `content_stream.rs` reads the HTML of a document: a script puts it into an object of the page, its length is asked for, and slices of it are called up one after another, either until all are gathered (`content_bytes_streaming`) or one for each poll of a stream (`content_bytes_stream`). The page is a parameter that answers the calls; the page that the reader has in mind, which slices a text of UTF-16 units, stands at the end.
-/

namespace SpiderChrome

namespace ContentStream

/-! ### Limits -/

def defaultChunkUnits : UInt32 := 65536

def minChunkUnits : UInt32 := 1024

def maxChunkUnits : UInt32 := 4194304

def maxDocumentUnits : UInt32 := 256 * 1024 * 1024

def defaultMaxAccumulatedBytes : Nat := 512 * 1024 * 1024

def maxChunks : Nat := 262144

def clampChunkUnits (units : UInt32) : UInt32 :=
  if units < minChunkUnits then minChunkUnits else if units > maxChunkUnits then maxChunkUnits else units

/-- The length from which a document is read in default chunks, by the number of active pages. -/
def streamThresholdUnits (pages : UInt32) : UInt32 :=
  let base := 1048576
  let least := 262144
  let highPressurePages := 128
  if pages ≥ highPressurePages then least
  else
    let range := base - least
    let reduction := range * pages / highPressurePages
    base - reduction

/-- The chunk size that `init_state` settles on: a small document goes in one slice. -/
def initChunkUnits (pages total : UInt32) : UInt32 :=
  if total < streamThresholdUnits pages then max defaultChunkUnits total else defaultChunkUnits

/-- `u32::saturating_add`. -/
def saturatingAdd (a b : UInt32) : UInt32 := UInt32.ofNat (min (a.toNat + b.toNat) (2 ^ 32 - 1))

/-! ### Calls -/

inductive ContentError where
  | cdp (err : CdpError)
  | javascriptException

def msg (message : String) : ContentError := .cdp (.chromeMessage message)

/-- The value of a remote object, as far as the reader tells values apart. -/
inductive RemoteValue where
  | null
  | string (s : String)
  | number (n : Nat)
  | other (detail : String)

/-- What `Runtime.evaluate` and `Runtime.callFunctionOn` return. -/
structure RemoteAnswer where
  value : Option RemoteValue
  objectId : Option String
  exceptionDetails : Bool

/-- The calls that the reader makes, with the script that each runs. -/
inductive Call where
  /-- `INIT_JS` -/
  | init
  /-- `LEN_FN` -/
  | length (objectId : String)
  /-- `SLICE_FN` -/
  | slice (objectId : String) (start size : UInt32)

/-- A page, by what it answers; `S` is what changes with a call. -/
structure Page (S : Type) where
  executionContext : S → Except CdpError Unit × S
  execute : S → Call → Except CdpError RemoteAnswer × S

section

variable {S : Type} (page : Page S)

/-- `page.execute(..).await?`, and the exception that the answer may have. -/
def run (st : S) (call : Call) : Except ContentError RemoteAnswer × S :=
  match page.execute st call with
  | (.error err, st) => (.error (.cdp err), st)
  | (.ok resp, st) => if resp.exceptionDetails then (.error .javascriptException, st) else (.ok resp, st)

/-- The id of the wrapper, the length of the document and the chunk size; nothing for an empty document. -/
def initState (pages : UInt32) (st : S) : Except ContentError (Option (String × UInt32 × UInt32)) × S :=
  match page.executionContext st with
  | (.error err, st) => (.error (.cdp err), st)
  | (.ok (), st) =>
    match run page st .init with
    | (.error err, st) => (.error err, st)
    | (.ok initResp, st) =>
      match initResp.objectId with
      | none => (.error (msg "content stream: init returned no objectId"), st)
      | some objectId =>
        match run page st (.length objectId) with
        | (.error err, st) => (.error err, st)
        | (.ok lenResp, st) =>
          match lenResp.value with
          | some (.number totalUnits) =>
            if totalUnits > maxDocumentUnits.toNat then
              (.error (msg (s!"content stream: document exceeds MAX_DOCUMENT_UNITS ({totalUnits} > " ++
                s!"{maxDocumentUnits})")), st)
            else
              let total := UInt32.ofNat totalUnits
              if total == 0 then (.ok none, st)
              else (.ok (some (objectId, total, initChunkUnits pages total)), st)
          | _ => (.error (msg "content stream: length was not a number"), st)

/-- `into_bytes` of a string. -/
def intoBytes (s : String) : List UInt8 := Unicode.utf8 s.toList

def readSlice (st : S) (objectId : String) (offset chunkUnits : UInt32) : Except ContentError (List UInt8) × S :=
  match run page st (.slice objectId offset chunkUnits) with
  | (.error err, st) => (.error err, st)
  | (.ok resp, st) =>
    match resp.value with
    | some (.string s) => (.ok (intoBytes s), st)
    | some .null => (.ok [], st)
    | none => (.ok [], st)
    | some _ => (.error (msg "content stream: unexpected slice value"), st)

/-! ### Gathering all slices -/

/-- What `read_chunks` is given: the slices to ask for, the cap, and how the operations on the temporary file go, by round. -/
structure Reading where
  objectId : String
  totalUnits : UInt32
  chunkUnits : UInt32
  byteCap : Nat
  endian : Endian
  io : Nat → WriteIo
  last : FinishIo

/-- The loop of `read_chunks`. -/
def readLoop (r : Reading) (st : S) (sink : Spill) (offset : UInt32) (rounds totalBytes : Nat) :
    Except ContentError (List UInt8) × S :=
  if offset < r.totalUnits then
    if rounds ≥ maxChunks then (.error (msg "content stream exceeded MAX_CHUNKS"), st)
    else
      match readSlice page st r.objectId offset r.chunkUnits with
      | (.error err, st) => (.error err, st)
      | (.ok chunkBytes, st) =>
        let unitsAdvanced := utf16LenOfUtf8 r.endian chunkBytes
        if chunkBytes.isEmpty || unitsAdvanced == 0 then (.ok (Sink.finish sink r.last).1, st)
        else
          let totalBytes := min (totalBytes + chunkBytes.length) (2 ^ 64 - 1)
          if totalBytes > r.byteCap then
            (.error (msg (s!"content stream: accumulated bytes exceeded cap ({totalBytes} > {r.byteCap})")), st)
          else
            readLoop r st (Sink.write sink chunkBytes (r.io rounds)) (saturatingAdd offset unitsAdvanced)
              (rounds + 1) totalBytes
  else (.ok (Sink.finish sink r.last).1, st)
termination_by maxChunks - rounds

/-- `read_chunks`. Without `_cache_stream_disk` the chunks go to a buffer, as they do when no file can be created. -/
def readChunks (created : Bool) (r : Reading) (st : S) : Except ContentError (List UInt8) × S :=
  readLoop page r st (Sink.openSink created) 0 0 0

/-- The byte cap, which an environment variable may set. -/
def maxAccumulatedBytes (env : Option Nat) : Nat := env.getD defaultMaxAccumulatedBytes

def contentBytesStreaming (created : Bool) (endian : Endian) (pages : UInt32) (env : Option Nat) (io : Nat → WriteIo)
    (last : FinishIo) (st : S) : Except ContentError (List UInt8) × S :=
  match initState page pages st with
  | (.error err, st) => (.error err, st)
  | (.ok none, st) => (.ok [], st)
  | (.ok (some (objectId, totalUnits, chunkUnits)), st) =>
    readChunks page created ⟨objectId, totalUnits, chunkUnits, maxAccumulatedBytes env, endian, io, last⟩ st

/-! ### One slice for each poll -/

/-- `PumpState`, with the chunk size that the caller may give. -/
inductive PumpState where
  | init (overrideUnits : Option UInt32)
  | pumping (objectId : String) (total offset chunkUnits : UInt32) (rounds : Nat)

def pumpNext (endian : Endian) (st : S) (objectId : String) (total offset chunkUnits : UInt32) (rounds : Nat) :
    Except ContentError (Option (List UInt8 × PumpState)) × S :=
  if offset ≥ total || rounds ≥ maxChunks then (.ok none, st)
  else
    match readSlice page st objectId offset chunkUnits with
    | (.error err, st) => (.error err, st)
    | (.ok bytes, st) =>
      let advanced := utf16LenOfUtf8 endian bytes
      if bytes.isEmpty || advanced == 0 then (.ok none, st)
      else (.ok (some (bytes, .pumping objectId total (saturatingAdd offset advanced) chunkUnits (rounds + 1))), st)

/-- The closure that `content_bytes_stream` unfolds. -/
def nextChunk (endian : Endian) (pages : UInt32) (st : S) :
    PumpState → Except ContentError (Option (List UInt8 × PumpState)) × S
  | .init overrideUnits =>
    match initState page pages st with
    | (.error err, st) => (.error err, st)
    | (.ok none, st) => (.ok none, st)
    | (.ok (some (objectId, total, defaultUnits)), st) =>
      pumpNext page endian st objectId total 0 (overrideUnits.getD defaultUnits) 0
  | .pumping objectId total offset chunkUnits rounds => pumpNext page endian st objectId total offset chunkUnits rounds

/-- What a consumer has seen of the stream after some polls: the chunks, and how the stream ended, if it has. -/
def tryUnfold (endian : Endian) (pages : UInt32) :
    Nat → S → PumpState → List (List UInt8) × Option (Except ContentError Unit)
  | 0, _, _ => ([], none)
  | polls + 1, st, state =>
    match nextChunk page endian pages st state with
    | (.error err, _) => ([], some (.error err))
    | (.ok none, _) => ([], some (.ok ()))
    | (.ok (some (bytes, state)), st) =>
      let later := tryUnfold endian pages polls st state
      (bytes :: later.1, later.2)

def contentBytesStream (endian : Endian) (pages : UInt32) (chunkUnits : Option UInt32) (st : S) (polls : Nat) :
    List (List UInt8) × Option (Except ContentError Unit) :=
  tryUnfold page endian pages polls st (.init (chunkUnits.map clampChunkUnits))

end

/-! ### The page -/

/-- `s.charCodeAt(i)`, which is no number outside of the string. -/
def charCodeAt (s : List UInt16) (i : Int) : Option UInt16 := if 0 ≤ i then s[i.toNat]? else none

/-- `s.slice(start, end)` for two positions within the string. -/
def jsSlice (s : List UInt16) (start stop : Nat) : List UInt16 := (s.take stop).drop start

/-- `SLICE_FN`. -/
def sliceFn (s : List UInt16) (start size : Nat) : List UInt16 :=
  if start ≥ s.length then []
  else
    let stop := if start + size > s.length then s.length else start + size
    let stop :=
      if stop < s.length then
        match charCodeAt s (stop - 1) with
        | some c => if c ≥ 0xD800 && c ≤ 0xDBFF then stop - 1 else stop
        | none => stop
      else stop
    jsSlice s start stop

/-- A page whose calls succeed, on a document of these units: it keeps account of the slices it was asked for. What a string of units becomes on its way is a parameter. -/
def servedPage (transfer : List UInt16 → String) (objectId : String) (h : List UInt16) :
    Page (List (UInt32 × UInt32)) where
  executionContext asked := (.ok (), asked)
  execute asked call :=
    match call with
    | .init => (.ok ⟨none, some objectId, false⟩, asked)
    | .length _ => (.ok ⟨some (.number h.length), none, false⟩, asked)
    | .slice _ start size =>
      (.ok ⟨some (.string (transfer (sliceFn h start.toNat size.toNat))), none, false⟩, asked ++ [(start, size)])

/-- A well-formed string arrives as the same string. -/
def Faithful (transfer : List UInt16 → String) : Prop := ∀ text : String, transfer (Unicode.utf16 text.toList) = text

/-- A string on its way: a surrogate that stands alone is replaced. -/
def transferred (s : List UInt16) : String := String.ofList (Unicode.decodeUtf16 s)

theorem faithful_transferred : Faithful transferred := by
  intro text
  rw [transferred, Unicode.decodeUtf16_utf16, String.ofList_toList]

end ContentStream

end SpiderChrome
