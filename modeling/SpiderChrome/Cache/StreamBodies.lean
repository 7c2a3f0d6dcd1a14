import SpiderChrome.Cache.StreamFiles

/-!
# What a body stream gives back

The body of a stream that went well is what its sink makes of the chunks that came, up to the first one that says it is the last. The sink never holds more than the cap allows, and a body that is too large is given up with the first chunk that goes beyond it.
-/

namespace SpiderChrome

namespace BodyStream

open BufferedFile (File)

namespace Stream

/-- The sink as the writes have left it. -/
def spill (stream : Stream) : Spill := stream.writes.foldl (fun sink w => sink.put w.1 w.2) (Spill.start stream.created)

/-- What was given to the sink. -/
def given (stream : Stream) : List UInt8 := (stream.writes.map Prod.fst).flatten

/-- The chunks are decoded and none of them is the last. -/
def Going (decodeBase64 : String → Option (List UInt8)) (chunks : List Chunk) (datas : List (List UInt8)) : Prop :=
  chunks.map (Chunk.bytes decodeBase64) = datas.map some ∧ ∀ chunk ∈ chunks, chunk.eof = false

/-- The chunks are decoded, and the last one says so. -/
def Whole (decodeBase64 : String → Option (List UInt8)) (chunks : List Chunk) (datas : List (List UInt8)) : Prop :=
  ∃ before last, chunks = before ++ [last] ∧ (∀ chunk ∈ before, chunk.eof = false) ∧ last.eof = true ∧
    chunks.map (Chunk.bytes decodeBase64) = datas.map some

/-- A stream has kept to its cap. -/
def Within (stream : Stream) (bytes : Nat) : Prop := ∀ max ∈ stream.cap, bytes ≤ max

/-- What is true of a result. -/
def Sound.Result (decodeBase64 : String → Option (List UInt8)) (stream : Stream) : Result → Prop
  | .ok body => Whole decodeBase64 stream.chunks (stream.writes.map Prod.fst) ∧
      ∃ last, body = ChunkSink.collect stream.created stream.writes last
  | .notStarted _ => stream.writes = []
  | .partialBody body error => body = [] ∧ ∀ bytes, error = .bodyTooLarge bytes →
      ∃ max ∈ stream.cap, ∃ before last data, stream.chunks = before ++ [last] ∧
        before.map (Chunk.bytes decodeBase64) = (stream.writes.map Prod.fst).map some ∧
        last.bytes decodeBase64 = some data ∧ stream.given.length ≤ max ∧ max < bytes ∧
        bytes = stream.given.length + data.length

/-- What is true of a stream where it stands. -/
def Sound.At (decodeBase64 : String → Option (List UInt8)) (stream : Stream) : Stage → Prop
  | .opening | .opened _ .makingDir | .opened _ (.creating _) =>
    stream.created = false ∧ stream.chunks = [] ∧ stream.writes = []
  | .opened _ (.reading sink total) => sink.toSpill = stream.spill ∧ total = stream.given.length ∧
      Going decodeBase64 stream.chunks (stream.writes.map Prod.fst)
  | .opened _ (.writing file _ total data eof) => .disk file = stream.spill ∧ total = stream.given.length + data.length ∧
      stream.Within total ∧ ∃ before last, stream.chunks = before ++ [last] ∧ last.bytes decodeBase64 = some data ∧
        last.eof = eof ∧ Going decodeBase64 before (stream.writes.map Prod.fst)
  | .opened _ (.finishing file _) => .disk file = stream.spill ∧
      Whole decodeBase64 stream.chunks (stream.writes.map Prod.fst)
  | .closing _ result | .done result => Sound.Result decodeBase64 stream result
  | .dropped => True

structure Sound (decodeBase64 : String → Option (List UInt8)) (stream : Stream) : Prop where
  within : stream.Within stream.given.length
  here : Sound.At decodeBase64 stream stream.stage

/-- The sink was never given more than the cap. If all went well, every chunk was decoded up to the first that says it is the last, and the body is what the sink makes of them, which is the chunks joined exactly if the file, where there was one, had what it was given when it was read back. A body that was too large is given up with the chunk that went beyond the cap; and nothing of a body that was given up comes back. -/
structure Delivers (decodeBase64 : String → Option (List UInt8)) (stream : Stream) : Prop where
  within : ∀ max ∈ stream.cap, stream.given.length ≤ max
  whole : ∀ body, stream.stage = .done (.ok body) →
    Whole decodeBase64 stream.chunks (stream.writes.map Prod.fst) ∧
      ∃ last, body = ChunkSink.collect stream.created stream.writes last ∧
        (body = stream.given ↔ (stream.created = true → Spill.Recoverable last .new stream.writes))
  givenUp : ∀ body error, stream.stage = .done (.partialBody body error) → body = [] ∧
    ∀ bytes, error = .bodyTooLarge bytes → ∃ max ∈ stream.cap, ∃ before last data,
      stream.chunks = before ++ [last] ∧
      before.map (Chunk.bytes decodeBase64) = (stream.writes.map Prod.fst).map some ∧
      last.bytes decodeBase64 = some data ∧ stream.given.length ≤ max ∧ max < bytes ∧
      bytes = stream.given.length + data.length

variable {decodeBase64 : String → Option (List UInt8)} {stream : Stream}

@[simp] theorem spill_wrote (stream : Stream) (data : List UInt8) (io : WriteIo) :
    (stream.wrote data io).spill = stream.spill.put data io := by
  rw [spill, wrote, List.foldl_append]
  rfl

@[simp] theorem given_wrote (stream : Stream) (data : List UInt8) (io : WriteIo) :
    (stream.wrote data io).given = stream.given ++ data := by
  simp only [given, wrote, List.map_append, List.map_cons, List.map_nil, List.flatten_append, List.flatten_cons,
    List.flatten_nil, List.append_nil]

theorem toSpill_writeChunk (sink : Sink) (data : List UInt8) (io : WriteIo) :
    (sink.writeChunk data io).toSpill = sink.toSpill.put data io := by
  cases sink with
  | disk file path =>
    simp only [Sink.writeChunk, ChunkSink.writeChunk, Sink.toSpill]
    cases (Spill.disk file).put data io with
    | disk file' => rfl
    | memory buf => rfl
  | memory buf => rfl

theorem collect_eq (stream : Stream) (last : FinishIo) :
    ChunkSink.collect stream.created stream.writes last = (stream.spill.take last).1 := rfl

/-- The chunks so far, with one more. -/
theorem Going.snoc {before : List Chunk} {datas : List (List UInt8)} {chunk : Chunk} {data : List UInt8}
    (h : Going decodeBase64 before datas) (hdata : chunk.bytes decodeBase64 = some data) :
    (chunk.eof = false → Going decodeBase64 (before ++ [chunk]) (datas ++ [data])) ∧
      (chunk.eof = true → Whole decodeBase64 (before ++ [chunk]) (datas ++ [data])) := by
  obtain ⟨hmap, hnot⟩ := h
  have hmore : (before ++ [chunk]).map (Chunk.bytes decodeBase64) = (datas ++ [data]).map some := by
    simp only [List.map_append, List.map_cons, List.map_nil, hmap, hdata]
  refine ⟨fun heof => ⟨hmore, fun c hc => ?_⟩, fun heof => ⟨before, chunk, rfl, hnot, heof, hmore⟩⟩
  obtain hold | hnew := List.mem_append.1 hc
  · exact hnot c hold
  · rw [List.mem_singleton.1 hnew]
    exact heof

/-- A turn of the loop after a chunk was written. -/
theorem Sound.turn {handle : StreamHandle} {sink : Sink} {total : Nat} {eof : Bool} (hspill : sink.toSpill = stream.spill)
    (htotal : total = stream.given.length) (hwithin : stream.Within total)
    (hgoing : eof = false → Going decodeBase64 stream.chunks (stream.writes.map Prod.fst))
    (hwhole : eof = true → Whole decodeBase64 stream.chunks (stream.writes.map Prod.fst)) :
    (stream.turn handle sink total eof).1.Sound decodeBase64 := by
  subst htotal
  unfold Stream.turn
  split
  · rename_i heof
    cases sink with
    | disk file path => exact ⟨hwithin, hspill, hwhole heof⟩
    | memory buf =>
      refine ⟨hwithin, hwhole heof, ⟨.ok, true⟩, ?_⟩
      show buf = ChunkSink.collect stream.created stream.writes _
      rw [collect_eq, ← hspill]
      rfl
  · rename_i heof
    exact ⟨hwithin, hspill, rfl, hgoing (Bool.eq_false_iff.2 heof)⟩

theorem Sound.chunk {handle : StreamHandle} {sink : Sink} {total : Nat} (chunk : Chunk)
    (hwithin : stream.Within stream.given.length) (hspill : sink.toSpill = stream.spill)
    (htotal : total = stream.given.length)
    (hgoing : Going decodeBase64 stream.chunks (stream.writes.map Prod.fst)) :
    ((stream.heard chunk).onChunk decodeBase64 handle sink total chunk).1.Sound decodeBase64 := by
  unfold Stream.onChunk
  split
  · exact ⟨hwithin, rfl, fun bytes hbytes => by cases hbytes⟩
  · rename_i data hdata
    dsimp only
    split
    · rename_i hlarge
      obtain ⟨max, hmax, hbeyond⟩ := (Option.any_eq_true _ _).1 hlarge
      refine ⟨hwithin, rfl, fun bytes hbytes => ?_⟩
      cases hbytes
      exact ⟨max, hmax, stream.chunks, chunk, data, rfl, hgoing.1, hdata, hwithin max hmax, of_decide_eq_true hbeyond,
        congrArg (· + data.length) htotal⟩
    · rename_i hfits
      have hcap : stream.Within (total + data.length) := by
        intro max hmax
        refine Nat.le_of_not_lt fun hbeyond => hfits ?_
        exact (Option.any_eq_true _ _).2 ⟨max, hmax, decide_eq_true hbeyond⟩
      obtain ⟨hmore, hlast⟩ := hgoing.snoc hdata
      cases sink with
      | disk file path =>
        exact ⟨hwithin, hspill, congrArg (· + data.length) htotal, hcap, stream.chunks, chunk, rfl, hdata, rfl, hgoing⟩
      | memory buf =>
        refine Sound.turn ?_ ?_ hcap ?_ ?_
        · rw [toSpill_writeChunk, spill_wrote, hspill]
          rfl
        · rw [given_wrote, List.length_append, htotal]
          rfl
        · simpa [wrote, heard] using hmore
        · simpa [wrote, heard] using hlast

theorem Sound.next (h : stream.Sound decodeBase64) (cacheStreamDisk : Bool) (handle : StreamHandle) (path : TempFile)
    (event : Event) : (stream.next cacheStreamDisk decodeBase64 handle path event).1.Sound decodeBase64 := by
  obtain ⟨hwithin, hhere⟩ := h
  have hbegin : ∀ (handle : StreamHandle) (stream : Stream) (sink : Sink), stream.chunks = [] → stream.writes = [] →
      sink.toSpill = Spill.start stream.created → (stream.begin handle sink).1.Sound decodeBase64 := by
    intro handle stream sink hchunks hwrites hsink
    refine ⟨fun max _ => ?_, ?_, ?_, ?_⟩
    · simp [Stream.begin, given, hwrites]
    · simpa [Stream.begin, spill, hwrites] using hsink
    · simp [Stream.begin, given, hwrites]
    · simp [Stream.begin, Going, hchunks, hwrites]
  unfold Stream.next
  split
  · rename_i hstage
    rw [hstage] at hhere
    obtain ⟨hcreated, hchunks, hwrites⟩ := hhere
    split
    · exact ⟨hwithin, hcreated, hchunks, hwrites⟩
    · exact hbegin _ _ _ hchunks hwrites (by rw [hcreated]; rfl)
  · rename_i hstage
    rw [hstage] at hhere
    exact ⟨hwithin, hhere.2.2⟩
  · exact ⟨hwithin, trivial⟩
  · rename_i hstage
    rw [hstage] at hhere
    obtain ⟨hcreated, hchunks, hwrites⟩ := hhere
    split
    · exact ⟨hwithin, hcreated, hchunks, hwrites⟩
    · exact hbegin _ _ _ hchunks hwrites (by rw [hcreated]; rfl)
  · rename_i hstage
    rw [hstage] at hhere
    obtain ⟨hcreated, hchunks, hwrites⟩ := hhere
    split
    · exact hbegin _ { stream with created := true } (.disk .new _) hchunks hwrites rfl
    · exact hbegin _ _ _ hchunks hwrites (by rw [hcreated]; rfl)
  · rename_i chunk hstage
    rw [hstage] at hhere
    obtain ⟨hspill, htotal, hgoing⟩ := hhere
    exact Sound.chunk chunk hwithin hspill htotal hgoing
  · exact ⟨hwithin, rfl, fun bytes hbytes => by cases hbytes⟩
  · rename_i handle file path total data eof io removed hstage
    rw [hstage] at hhere
    obtain ⟨hspill, htotal, hcap, before, last, hchunks, hdata, heof, hgoing⟩ := hhere
    obtain ⟨hmore, hlast⟩ := hgoing.snoc hdata
    refine Sound.turn ?_ ?_ hcap ?_ ?_
    · rw [toSpill_writeChunk, spill_wrote, ← hspill]
      rfl
    · rw [given_wrote, List.length_append, htotal]
    · simpa [wrote, hchunks, heof] using hmore
    · simpa [wrote, hchunks, heof] using hlast
  · rename_i io removed hstage
    rw [hstage] at hhere
    obtain ⟨hspill, hwhole⟩ := hhere
    refine ⟨hwithin, hwhole, io, ?_⟩
    show (ChunkSink.finish _ io).1 = ChunkSink.collect stream.created stream.writes io
    rw [collect_eq, ← hspill]
    rfl
  · exact ⟨hwithin, trivial⟩
  · rename_i hstage
    rw [hstage] at hhere
    exact ⟨hwithin, hhere⟩
  · exact ⟨hwithin, trivial⟩
  · exact ⟨hwithin, hhere⟩

end Stream

namespace World

theorem kept_applyAll (w : World) (effects : List Effect) :
    (w.applyAll effects).streams = w.streams ∧ (w.applyAll effects).decodeBase64 = w.decodeBase64 := by
  induction effects generalizing w with
  | nil => exact ⟨rfl, rfl⟩
  | cons effect rest ih =>
    obtain ⟨hstreams, hdecode⟩ := ih (w.apply effect)
    cases effect with
    | _ => exact ⟨hstreams, hdecode⟩

/-- Each stream is sound, for one decoder. -/
def AllSound (decodeBase64 : String → Option (List UInt8)) (w : World) : Prop :=
  w.decodeBase64 = decodeBase64 ∧ ∀ stream ∈ w.streams, stream.Sound decodeBase64

theorem AllSound.step {w : World} {decodeBase64 : String → Option (List UInt8)} (h : w.AllSound decodeBase64)
    (input : Input) : (w.step input).AllSound decodeBase64 := by
  obtain ⟨hdecode, hsound⟩ := h
  cases input with
  | start cap =>
    refine ⟨hdecode, fun stream hstream => ?_⟩
    obtain hold | hnew := List.mem_append.1 hstream
    · exact hsound stream hold
    · rw [List.mem_singleton.1 hnew]
      exact ⟨fun _ _ => Nat.zero_le _, rfl, rfl, rfl⟩
  | event id event =>
    cases hstream : w.streams[id]? with
    | none =>
      simp only [World.step, hstream]
      exact ⟨hdecode, hsound⟩
    | some stream =>
      by_cases hlive : stream.stage.live = true
      · simp only [World.step, hstream, hlive, if_true]
        obtain ⟨hstreams, hsame⟩ := kept_applyAll { w with
          inflightStreams :=
            if (stream.next w.cacheStreamDisk w.decodeBase64 ⟨w.nextHandle⟩ (.stream w.streamFileSeq) event).1.stage.live
            then w.inflightStreams else w.inflightStreams - 1
          streams := w.streams.modify id fun _ =>
            (stream.next w.cacheStreamDisk w.decodeBase64 ⟨w.nextHandle⟩ (.stream w.streamFileSeq) event).1 }
          (stream.next w.cacheStreamDisk w.decodeBase64 ⟨w.nextHandle⟩ (.stream w.streamFileSeq) event).2
        refine ⟨hsame.trans hdecode, fun other hother => ?_⟩
        rw [hstreams] at hother
        obtain ⟨place, hplace⟩ := List.mem_iff_getElem?.1 hother
        by_cases hid : id = place
        · subst hid
          rw [List.getElem?_modify_eq, hstream] at hplace
          cases hplace
          rw [hdecode]
          exact (hsound stream (List.mem_of_getElem? hstream)).next _ _ _ _
        · rw [List.getElem?_modify_ne _ _ hid] at hplace
          exact hsound other (List.mem_of_getElem? hplace)
      · simp only [World.step, hstream, hlive]
        exact ⟨hdecode, hsound⟩
  | dropContentSink seq => exact ⟨hdecode, hsound⟩
  | receive count => exact ⟨hdecode, hsound⟩
  | finishTask batch place ok =>
    cases hrunning : w.worker.running batch place with
    | none =>
      simp only [World.step, hrunning]
      exact ⟨hdecode, hsound⟩
    | some task =>
      obtain ⟨hstreams, hsame⟩ := kept_applyAll { w with worker := w.worker.finish batch place } [taskEffect ok task]
      simp only [World.step, hrunning]
      exact ⟨hsame.trans hdecode, fun stream hstream => hsound stream (hstreams ▸ hstream)⟩
  | panic batch =>
    obtain ⟨hstreams, hsame⟩ := kept_applyAll { w with worker := w.worker.panic batch }
      ((w.worker.unfinished batch).map lostEffect)
    exact ⟨hsame.trans hdecode, fun stream hstream => hsound stream (hstreams ▸ hstream)⟩

/-- In every run each stream keeps to its cap, and gives back the chunks that came or nothing. -/
theorem bodies_of_chunks (cacheStreamDisk : Bool) (decodeBase64 : String → Option (List UInt8)) (inputs : List Input) :
    let w := Run.final World.step (init cacheStreamDisk decodeBase64) inputs
    ∀ stream ∈ w.streams, stream.Delivers decodeBase64 := by
  intro w stream hstream
  have hall : w.AllSound decodeBase64 :=
    Run.invariant_of_step (AllSound decodeBase64) (fun _ input h => h.step input)
      ⟨rfl, fun _ hnone => absurd hnone List.not_mem_nil⟩ inputs
  obtain ⟨hwithin, hhere⟩ := hall.2 stream hstream
  refine ⟨hwithin, fun body hdone => ?_, fun body error hdone => ?_⟩
  · rw [hdone] at hhere
    obtain ⟨hwhole, last, rfl⟩ := hhere
    exact ⟨hwhole, last, rfl, Spill.collect_start_iff stream.created stream.writes last⟩
  · rw [hdone] at hhere
    exact hhere

/-- The first chunk is written to the file, the second one is too much. -/
theorem bodies_of_chunks_too_large :
    let w := Run.final World.step (init true fun _ => some [1, 2, 3])
      [.start (some 5), .event 0 .opened, .event 0 (.madeDir true), .event 0 (.created true),
        .event 0 (.chunk ⟨"AQID", some true, false⟩), .event 0 (.wrote ⟨.ok 3, .ok, true⟩ false),
        .event 0 (.chunk ⟨"AQID", some true, true⟩), .event 0 (.closed true)]
    ∃ stream, w.streams[0]? = some stream ∧ stream.stage = .done (.partialBody [] (.bodyTooLarge 6)) ∧
      stream.Delivers fun _ => some [1, 2, 3] := by
  intro w
  have hstream : w.streams[0]? = some ⟨some 5, .done (.partialBody [] (.bodyTooLarge 6)), true,
      [⟨"AQID", some true, false⟩, ⟨"AQID", some true, true⟩], [([1, 2, 3], ⟨.ok 3, .ok, true⟩)]⟩ := rfl
  exact ⟨_, hstream, rfl, bodies_of_chunks true _ _ _ (List.mem_of_getElem? hstream)⟩

end World

end BodyStream

end SpiderChrome
