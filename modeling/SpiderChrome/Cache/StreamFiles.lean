import SpiderChrome.Cache.StreamCustody

/-!
# Temporary files of body streams

A file is in the charge of the stream that writes it, then of a cleanup task, or of nobody. No two have the charge of one file, so the worker removes no file that a stream still needs; and a file that exists is in somebody's charge, or was left where its removal failed or came too early.
-/

namespace SpiderChrome

namespace BodyStream

/-! ### Files in a stream and in the effects of a step -/

def Sink.names (path : TempFile) : Sink → Nat
  | disk _ p => if p = path then 1 else 0
  | memory _ => 0

def Phase.names (path : TempFile) : Phase → Nat
  | makingDir => 0
  | creating p | writing _ p _ _ _ | finishing _ p => if p = path then 1 else 0
  | reading sink _ => sink.names path

/-- The stream has the charge of the file. -/
def Stage.names (path : TempFile) : Stage → Nat
  | opened _ phase => phase.names path
  | _ => 0

/-- The stream waits for the file to be created. -/
def Stage.creates (path : TempFile) : Stage → Prop
  | opened _ (.creating p) => p = path
  | _ => False

def Effect.charges (path : TempFile) : Effect → Nat
  | submit (.removeFile p) | leave p => if p = path then 1 else 0
  | _ => 0

def Effect.namesFile (effect : Effect) : Nat := if effect = .nameFile then 1 else 0

/-! ### One step of a stream -/

/-- What a step does to the charge of files: at most one is new, and that is the next free name; a charge ends with the removal of the file, or with a creation that failed; and only a stream that waits for its file creates one. -/
structure Charges (fresh : TempFile) (before : Stage) (after : Stream × List Effect) : Prop where
  once : tally Effect.namesFile after.2 ≤ 1
  least : ∀ path, after.1.stage.names path + tally (Effect.charges path) after.2 ≤
    before.names path + if path = fresh then tally Effect.namesFile after.2 else 0
  kept : ∀ path, .remove path ∉ after.2 → ¬ before.creates path →
    after.1.stage.names path + tally (Effect.charges path) after.2 = before.names path + if path = fresh then tally Effect.namesFile after.2 else 0
  made : ∀ path, .create path ∈ after.2 → before.creates path ∧ after.1.stage.names path + tally (Effect.charges path) after.2 = 1
  creating : ∀ path, after.1.stage.creates path → after.2 = [] ∧ before.creates path ∨ path = fresh ∧ after.2 = [.nameFile]

/-- Effects that have to do with streams only. -/
def Fileless (effects : List Effect) : Prop :=
  tally Effect.namesFile effects = 0 ∧ ∀ path, tally (Effect.charges path) effects = 0 ∧ .remove path ∉ effects ∧ .create path ∉ effects

section Charges

variable {fresh : TempFile} {before : Stage} {stream : Stream} {effects : List Effect}

/-- A step that keeps its charge and has to do with streams only. -/
theorem charges_of_fileless (hfileless : Fileless effects)
    (hnames : ∀ path, stream.stage.names path = before.names path) (hcreates : ∀ path, ¬ stream.stage.creates path) :
    Charges fresh before (stream, effects) := by
  obtain ⟨hnamings, hall⟩ := hfileless
  have hsame : ∀ path, stream.stage.names path + tally (Effect.charges path) effects =
      before.names path + if path = fresh then tally Effect.namesFile effects else 0 := by
    intro path
    rw [hnames, (hall path).1, hnamings, ite_self]
  exact
    { once := by
        rw [hnamings]
        exact Nat.zero_le 1
      least := fun path => Nat.le_of_eq (hsame path)
      kept := fun path _ _ => hsame path
      made := fun path hcreate => absurd hcreate (hall path).2.2
      creating := fun path hcreating => absurd hcreating (hcreates path) }

theorem fileless_nil : Fileless [] :=
  ⟨rfl, fun _ => ⟨rfl, List.not_mem_nil, List.not_mem_nil⟩⟩

theorem fileless_read (handle : StreamHandle) : Fileless [.read handle] :=
  ⟨rfl, fun _ => ⟨rfl, by simp, by simp⟩⟩

/-- A turn of the loop leaves the charge with the sink. -/
theorem turn_names (stream : Stream) (handle : StreamHandle) (sink : Sink) (total : Nat) (eof : Bool) :
    Fileless (stream.turn handle sink total eof).2 ∧
      ∀ path, (stream.turn handle sink total eof).1.stage.names path = sink.names path ∧
        ¬ (stream.turn handle sink total eof).1.stage.creates path := by
  unfold Stream.turn
  split
  · cases sink with
    | disk file path => exact ⟨fileless_nil, fun _ => ⟨rfl, id⟩⟩
    | memory buf => exact ⟨fileless_nil, fun _ => ⟨rfl, id⟩⟩
  · exact ⟨fileless_read handle, fun _ => ⟨rfl, id⟩⟩

/-- A sink that is dropped gives its charge to a cleanup task. -/
theorem charges_sink_dropped {handle : StreamHandle} {sink : Sink} {total : Nat} {stage : Stage}
    {more : List Effect} (hnone : ∀ path, stage.names path = 0 ∧ ¬ stage.creates path) (hmore : Fileless more) :
    Charges fresh (.opened handle (.reading sink total)) ({ stream with stage := stage }, sink.dropped ++ more) := by
  obtain ⟨hnamings, hall⟩ := hmore
  have hdropped : tally Effect.namesFile sink.dropped = 0 ∧ ∀ path, tally (Effect.charges path) sink.dropped = sink.names path ∧
      .remove path ∉ sink.dropped ∧ .create path ∉ sink.dropped := by
    cases sink with
    | disk file p => exact ⟨rfl, fun path => ⟨rfl, by simp [Sink.dropped], by simp [Sink.dropped]⟩⟩
    | memory buf => exact ⟨rfl, fun path => ⟨rfl, List.not_mem_nil, List.not_mem_nil⟩⟩
  have hsame : ∀ path, stage.names path + tally (Effect.charges path) (sink.dropped ++ more) =
      sink.names path + if path = fresh then tally Effect.namesFile (sink.dropped ++ more) else 0 := by
    intro path
    rw [(hnone path).1, tally_append, (hdropped.2 path).1, (hall path).1, tally_append, hdropped.1, hnamings, ite_self]
    omega
  exact
    { once := by
        rw [tally_append, hdropped.1, hnamings]
        exact Nat.zero_le 1
      least := fun path => Nat.le_of_eq (hsame path)
      kept := fun path _ _ => hsame path
      made := fun path hcreate => by
        obtain hleft | hright := List.mem_append.1 hcreate
        · exact absurd hleft (hdropped.2 path).2.2
        · exact absurd hright (hall path).2.2
      creating := fun path hcreating => absurd hcreating (hnone path).2 }

/-- The file at hand is done with: removed, or left. -/
theorem charges_unlink {stage : Stage} {path : TempFile} {more : List Effect} (removed : Bool)
    (hbefore : ∀ p, before.names p = if path = p then 1 else 0)
    (hnone : ∀ p, stage.names p = 0 ∧ ¬ stage.creates p) (hmore : Fileless more) :
    Charges fresh before ({ stream with stage := stage }, [unlink removed path] ++ more) := by
  obtain ⟨hnamings, hall⟩ := hmore
  have hunlink : tally Effect.namesFile [unlink removed path] = 0 ∧ ∀ p,
      tally (Effect.charges p) [unlink removed path] = (if removed then 0 else if path = p then 1 else 0) ∧
        .create p ∉ [unlink removed path] := by
    cases removed with
    | false => exact ⟨rfl, fun p => ⟨rfl, by simp [unlink]⟩⟩
    | true => exact ⟨rfl, fun p => ⟨rfl, by simp [unlink]⟩⟩
  exact
    { once := by
        rw [tally_append, hunlink.1, hnamings]
        exact Nat.zero_le 1
      least := fun p => by
        rw [(hnone p).1, tally_append, (hunlink.2 p).1, (hall p).1, hbefore, tally_append, hunlink.1, hnamings, ite_self]
        cases removed with
        | false => simp
        | true => simp
      kept := fun p hkept _ => by
        rw [(hnone p).1, tally_append, (hunlink.2 p).1, (hall p).1, hbefore, tally_append, hunlink.1, hnamings, ite_self]
        cases removed with
        | false => simp
        | true =>
          have hne : path ≠ p := by
            rintro rfl
            exact hkept (List.mem_append_left _ (List.mem_singleton_self _))
          simp [hne]
      made := fun p hcreate => by
        obtain hleft | hright := List.mem_append.1 hcreate
        · exact absurd hleft (hunlink.2 p).2
        · exact absurd hright (hall p).2.2
      creating := fun p hcreating => absurd hcreating (hnone p).2 }

theorem charges_fail (stream : Stream) (handle : StreamHandle) (sink : Sink) (total : Nat) (error : StreamError) :
    Charges fresh (.opened handle (.reading sink total)) (stream.fail handle sink error) := by
  have hdropped : Charges fresh (.opened handle (.reading sink total))
      ({ stream with stage := .closing handle (.partialBody [] error) }, sink.dropped ++ []) :=
    charges_sink_dropped (fun _ => ⟨rfl, id⟩) fileless_nil
  rwa [List.append_nil] at hdropped

theorem charges_onChunk (decodeBase64 : String → Option (List UInt8)) (stream : Stream) (handle : StreamHandle)
    (sink : Sink) (total : Nat) (chunk : Chunk) :
    Charges fresh (.opened handle (.reading sink total)) (stream.onChunk decodeBase64 handle sink total chunk) := by
  unfold Stream.onChunk
  split
  · exact charges_fail ..
  · dsimp only
    split
    · exact charges_fail ..
    · cases sink with
      | disk file path => exact charges_of_fileless fileless_nil (fun _ => rfl) fun _ => id
      | memory buf =>
        obtain ⟨hfileless, hnames⟩ := turn_names (stream.wrote _ Stream.inMemory) handle
          ((Sink.memory buf).writeChunk _ Stream.inMemory) (total + _) chunk.eof
        exact charges_of_fileless hfileless (fun path => (hnames path).1) fun path => (hnames path).2

theorem names_writeChunk (file : BufferedFile.File UInt8) (path : TempFile) (data : List UInt8) (io : WriteIo)
    (p : TempFile) :
    ((Sink.disk file path).writeChunk data io).names p = if io.write.isOk then if path = p then 1 else 0 else 0 := by
  simp only [Sink.writeChunk, ChunkSink.writeChunk, Spill.put]
  split
  · rfl
  · rfl

/-- The creation of the file fails, or the future is dropped before anything is there. -/
theorem charges_not_created {stage : Stage} {handle : StreamHandle} {path : TempFile} (heffects : Fileless effects)
    (hnone : ∀ p, stage.names p = 0 ∧ ¬ stage.creates p) :
    Charges fresh (.opened handle (.creating path)) ({ stream with stage := stage }, effects) := by
  obtain ⟨hnamings, hall⟩ := heffects
  exact
    { once := by
        rw [hnamings]
        exact Nat.zero_le 1
      least := fun p => by
        rw [(hnone p).1, (hall p).1]
        exact Nat.zero_le _
      kept := fun p _ hnot => by
        have hne : path ≠ p := hnot
        rw [(hnone p).1, (hall p).1, hnamings, ite_self]
        simp [Stage.names, Phase.names, hne]
      made := fun p hcreate => absurd hcreate (hall p).2.2
      creating := fun p hcreating => absurd hcreating (hnone p).2 }

theorem charges_phase_dropped (handle : StreamHandle) (landed : Bool) (phase : Phase) :
    Charges fresh (.opened handle phase)
      ({ stream with stage := .dropped }, phase.dropped landed ++ [.submit (.closeCdpStream handle)]) := by
  have hclose : Fileless [.submit (.closeCdpStream handle)] := ⟨rfl, fun _ => ⟨rfl, by simp, by simp⟩⟩
  have hlate : ∀ (before : Phase) (path : TempFile), (∀ p, before.names p = if path = p then 1 else 0) →
      Charges fresh (.opened handle before)
        ({ stream with stage := .dropped }, droppedLate landed path ++ [.submit (.closeCdpStream handle)]) := by
    intro before path hnames
    have hsame : ∀ p, tally (Effect.charges p) (droppedLate landed path ++ [.submit (.closeCdpStream handle)]) =
        before.names p := by
      intro p
      rw [hnames]
      cases landed with
      | false => simp [droppedLate, Effect.charges]
      | true => simp [droppedLate, Effect.charges]
    have hnamings : tally Effect.namesFile (droppedLate landed path ++ [.submit (.closeCdpStream handle)]) = 0 := by
      cases landed with
      | false => rfl
      | true => rfl
    have heq : ∀ p, Stage.dropped.names p +
        tally (Effect.charges p) (droppedLate landed path ++ [.submit (.closeCdpStream handle)]) = before.names p + 0 := by
      intro p
      rw [hsame]
      exact Nat.zero_add _
    exact
      { once := by
          rw [hnamings]
          exact Nat.zero_le 1
        least := fun p => by
          rw [hnamings, ite_self]
          exact Nat.le_of_eq (heq p)
        kept := fun p _ _ => by
          rw [hnamings, ite_self]
          exact heq p
        made := fun p hcreate => by
          cases landed with
          | false => simp [droppedLate] at hcreate
          | true => simp [droppedLate] at hcreate
        creating := fun p hcreating => absurd hcreating id }
  cases phase with
  | makingDir => exact charges_of_fileless hclose (fun _ => rfl) fun _ => id
  | creating path =>
    cases landed with
    | false => exact charges_not_created hclose fun _ => ⟨rfl, id⟩
    | true =>
      exact
        { once := Nat.zero_le 1
          least := fun p => by
            simp [Phase.dropped, Stage.names, Phase.names, Effect.charges]
          kept := fun p _ _ => by
            simp [Phase.dropped, Stage.names, Phase.names, Effect.charges, Effect.namesFile]
          made := fun p hcreate => by
            obtain rfl : p = path := by simpa [Phase.dropped] using hcreate
            exact ⟨rfl, by simp [Phase.dropped, Stage.names, Effect.charges]⟩
          creating := fun p hcreating => absurd hcreating id }
  | reading sink total => exact charges_sink_dropped (fun _ => ⟨rfl, id⟩) hclose
  | writing file path total data eof => exact hlate _ path fun _ => rfl
  | finishing file path => exact hlate _ path fun _ => rfl

theorem next_charges (cacheStreamDisk : Bool) (decodeBase64 : String → Option (List UInt8)) (handle : StreamHandle)
    (fresh : TempFile) (stream : Stream) (event : Event) :
    Charges fresh stream.stage (stream.next cacheStreamDisk decodeBase64 handle fresh event) := by
  unfold Stream.next
  split
  · rename_i hstage
    rw [hstage]
    split
    · exact charges_of_fileless ⟨rfl, fun _ => ⟨rfl, by simp, by simp⟩⟩ (fun _ => rfl) fun _ => id
    · exact charges_of_fileless ⟨rfl, fun _ => ⟨rfl, by simp [Stream.begin], by simp [Stream.begin]⟩⟩ (fun _ => rfl) fun _ => id
  · rename_i err landed hstage
    rw [hstage]
    cases landed with
    | false => exact charges_of_fileless fileless_nil (fun _ => rfl) fun _ => id
    | true => exact charges_of_fileless ⟨rfl, fun _ => ⟨rfl, by simp, by simp⟩⟩ (fun _ => rfl) fun _ => id
  · rename_i landed hstage
    rw [hstage]
    cases landed with
    | false => exact charges_of_fileless fileless_nil (fun _ => rfl) fun _ => id
    | true => exact charges_of_fileless ⟨rfl, fun _ => ⟨rfl, by simp, by simp⟩⟩ (fun _ => rfl) fun _ => id
  · rename_i handle ok hstage
    rw [hstage]
    cases ok with
    | false => exact charges_of_fileless (fileless_read handle) (fun _ => rfl) fun _ => id
    | true =>
      have hsame : ∀ path, (Stage.opened handle (.creating fresh)).names path + tally (Effect.charges path) [.nameFile] =
          (Stage.opened handle .makingDir).names path + if path = fresh then tally Effect.namesFile [.nameFile] else 0 := by
        intro path
        simp [Stage.names, Phase.names, Effect.charges, Effect.namesFile, eq_comm]
      exact
        { once := by simp [Effect.namesFile]
          least := fun path => Nat.le_of_eq (hsame path)
          kept := fun path _ _ => hsame path
          made := fun path hcreate => by simp at hcreate
          creating := fun path hcreating => Or.inr ⟨Eq.symm hcreating, rfl⟩ }
  · rename_i handle path ok hstage
    rw [hstage]
    cases ok with
    | false => exact charges_not_created (fileless_read handle) fun _ => ⟨rfl, id⟩
    | true =>
      exact
        { once := Nat.zero_le 1
          least := fun p => by
            simp [Stream.begin, Stage.names, Phase.names, Sink.names, Effect.charges, Effect.namesFile]
          kept := fun p _ _ => by
            simp [Stream.begin, Stage.names, Phase.names, Sink.names, Effect.charges, Effect.namesFile]
          made := fun p hcreate => by
            obtain rfl : p = path := by simpa [Stream.begin] using hcreate
            exact ⟨rfl, by simp [Stream.begin, Stage.names, Phase.names, Sink.names, Effect.charges]⟩
          creating := fun p hcreating => absurd hcreating id }
  · rename_i handle sink total chunk hstage
    rw [hstage]
    exact charges_onChunk decodeBase64 (stream.heard chunk) handle sink total chunk
  · rename_i handle sink total err hstage
    rw [hstage]
    exact charges_fail stream handle sink total (.cdp err)
  · rename_i handle file path total data eof io removed hstage
    rw [hstage]
    obtain ⟨hfileless, hnames⟩ := turn_names (stream.wrote data io) handle ((Sink.disk file path).writeChunk data io) total eof
    generalize (stream.wrote data io).turn handle ((Sink.disk file path).writeChunk data io) total eof = after
      at hfileless hnames ⊢
    obtain ⟨stream', effects⟩ := after
    simp only [names_writeChunk] at hfileless hnames ⊢
    by_cases hok : io.write.isOk = true
    · rw [if_pos hok]
      refine charges_of_fileless hfileless (fun p => ?_) fun p => (hnames p).2
      rw [(hnames p).1, if_pos hok]
      rfl
    · rw [if_neg hok]
      have hnone : ∀ p, stream'.stage.names p = 0 ∧ ¬ stream'.stage.creates p := by
        intro p
        obtain ⟨hnames, hcreates⟩ := hnames p
        rw [hnames, if_neg hok]
        exact ⟨rfl, hcreates⟩
      exact charges_unlink removed (fun p => rfl) hnone hfileless
  · rename_i handle file path io removed hstage
    rw [hstage]
    exact charges_unlink removed (fun p => rfl) (fun p => ⟨rfl, id⟩) fileless_nil
  · rename_i handle phase landed hstage
    rw [hstage]
    exact charges_phase_dropped handle landed phase
  · rename_i handle result delivered hstage
    rw [hstage]
    cases delivered with
    | false => exact charges_of_fileless ⟨rfl, fun _ => ⟨rfl, by simp, by simp⟩⟩ (fun _ => rfl) fun _ => id
    | true => exact charges_of_fileless ⟨rfl, fun _ => ⟨rfl, by simp, by simp⟩⟩ (fun _ => rfl) fun _ => id
  · rename_i handle result landed hstage
    rw [hstage]
    exact charges_of_fileless ⟨rfl, fun _ => ⟨rfl, by simp, by simp⟩⟩ (fun _ => rfl) fun _ => id
  · exact
      { once := Nat.zero_le 1
        least := fun path => by simp
        kept := fun path _ _ => by simp
        made := fun path hcreate => absurd hcreate List.not_mem_nil
        creating := fun path hcreating => Or.inl ⟨rfl, hcreating⟩ }

end Charges

/-! ### Worlds -/

namespace World

/-- How many have the charge of a file. -/
def charge (w : World) (path : TempFile) : Nat :=
  (w.streams.map fun stream => stream.stage.names path).sum + w.worker.pending (· = .removeFile path) + w.left.count path

variable {w : World}

theorem charge_apply (path : TempFile) {effect : Effect} (hready : w.worker.ready = true ∨ effect.charges path = 0) :
    (w.apply effect).charge path = w.charge path + effect.charges path := by
  cases effect with
  | submit task =>
    obtain hready | hnone := hready
    · simp only [charge, apply, Dispatcher.pending_submit _ task hready]
      cases task with
      | removeFile p =>
        simp only [Effect.charges, CleanupTask.removeFile.injEq, decide_eq_true_eq]
        omega
      | closeCdpStream h => simp [Effect.charges]
    · have hother : (decide (task = .removeFile path)) = false := by
        refine decide_eq_false fun heq => ?_
        rw [heq, Effect.charges, if_pos rfl] at hnone
        cases hnone
      by_cases hready : w.worker.ready = true
      · simp only [charge, apply, Dispatcher.pending_submit _ task hready, hother, hnone]
        simp only [Bool.false_eq_true, if_false, Nat.add_zero]
      · rw [hnone, Nat.add_zero, apply, Dispatcher.submit, if_neg hready]
  | leave p =>
    simp only [charge, apply, List.count_append, List.count_singleton, Effect.charges, beq_iff_eq]
    omega
  | _ => rfl

/-- What a list of effects does to the files. -/
theorem applyAll_files (w : World) (hready : w.worker.ready = true) (effects : List Effect) :
    (∀ path, (w.applyAll effects).charge path = w.charge path + tally (Effect.charges path) effects) ∧
      (w.applyAll effects).streamFileSeq = w.streamFileSeq + tally Effect.namesFile effects ∧
      ∀ path ∈ (w.applyAll effects).files, .create path ∈ effects ∨ path ∈ w.files ∧ .remove path ∉ effects := by
  induction effects generalizing w with
  | nil => exact ⟨fun _ => rfl, rfl, fun path hpath => Or.inr ⟨hpath, List.not_mem_nil⟩⟩
  | cons effect rest ih =>
    obtain ⟨hcharge, hseq, hfiles⟩ := ih (w.apply effect) ((ready_apply w effect).trans hready)
    have hfold : w.applyAll (effect :: rest) = (w.apply effect).applyAll rest := rfl
    rw [hfold]
    refine ⟨fun path => ?_, ?_, fun path hpath => ?_⟩
    · rw [hcharge, charge_apply path (Or.inl hready), tally_cons, Nat.add_assoc]
    · rw [hseq, tally_cons]
      cases effect with
      | nameFile =>
        simp only [apply, Effect.namesFile, if_true]
        omega
      | _ => simp [apply, Effect.namesFile]
    · obtain hcreate | ⟨hhere, hkept⟩ := hfiles path hpath
      · exact Or.inl (List.mem_cons_of_mem _ hcreate)
      · cases effect with
        | create p =>
          obtain rfl | hbefore := List.mem_cons.1 hhere
          · exact Or.inl List.mem_cons_self
          · exact Or.inr ⟨hbefore, by simp [hkept]⟩
        | remove p =>
          obtain ⟨hbefore, hne⟩ := List.mem_filter.1 hhere
          have hne : path ≠ p := of_decide_eq_true hne
          exact Or.inr ⟨hbefore, by simp [hkept, hne]⟩
        | _ => exact Or.inr ⟨hhere, by simp [hkept]⟩

/-- Names of files are used once, nobody shares a charge, and what exists is in somebody's charge. -/
structure InCharge (w : World) : Prop where
  bound : ∀ seq, w.charge (.stream seq) ≤ if seq < w.streamFileSeq then 1 else 0
  kept : ∀ seq, .stream seq ∈ w.files → w.charge (.stream seq) = 1
  creating : ∀ (id : Nat) (stream : Stream) (path : TempFile), w.streams[id]? = some stream →
    stream.stage.creates path → ∃ seq, path = .stream seq ∧ path ∉ w.files

theorem inCharge_init (cacheStreamDisk : Bool) (decodeBase64 : String → Option (List UInt8)) :
    (init cacheStreamDisk decodeBase64).InCharge where
  bound := fun _ => Nat.zero_le _
  kept := fun _ hseq => absurd hseq List.not_mem_nil
  creating := fun _ _ _ hstream => by cases hstream

theorem names_of_creates {stage : Stage} {path : TempFile} (h : stage.creates path) : stage.names path = 1 := by
  cases stage with
  | opened handle phase =>
    cases phase with
    | creating p => exact if_pos h
    | _ => cases h
  | _ => cases h

/-- A stream that waits for its file has the charge of it alone. -/
theorem InCharge.alone (h : w.InCharge) {id other : Nat} {stream stream' : Stream} {seq : Nat}
    (hstream : w.streams[id]? = some stream) (hother : w.streams[other]? = some stream')
    (hnames : stream.stage.names (.stream seq) = 1) (hnames' : stream'.stage.names (.stream seq) = 1) : id = other := by
  by_cases hne : id = other
  · exact hne
  · have hbound := h.bound seq
    have hsum := Dispatcher.sum_map_modify (fun stream : Stream => stream.stage.names (.stream seq)) hstream
      fun stream => { stream with stage := .dropped }
    have hmember := Dispatcher.le_sum_map (fun stream : Stream => stream.stage.names (.stream seq))
      (l := w.streams.modify id fun stream => { stream with stage := .dropped }) (i := other) (a := stream') (by
        rw [List.getElem?_modify_ne _ _ hne, hother])
    have hdropped : (Stage.dropped).names (.stream seq) = 0 := rfl
    simp only [hdropped, hnames, hnames'] at hsum hmember
    simp only [charge] at hbound
    split at hbound
    · omega
    · omega

/-- A step of a stream. -/
theorem InCharge.event (h : w.InCharge) (hhand : w.InHand) {id : Nat} {stream : Stream}
    (hstream : w.streams[id]? = some stream) (hlive : stream.stage.live = true) (event : Event) :
    (w.step (.event id event)).InCharge := by
  have hready : w.worker.ready = true := hhand.ready fun hnil => by
    rw [hnil] at hstream
    cases hstream
  have hcharges := next_charges w.cacheStreamDisk w.decodeBase64 ⟨w.nextHandle⟩ (.stream w.streamFileSeq) stream event
  simp only [World.step, hstream, hlive, if_true]
  generalize stream.next w.cacheStreamDisk w.decodeBase64 ⟨w.nextHandle⟩ (.stream w.streamFileSeq) event = after
    at hcharges ⊢
  obtain ⟨stream', effects⟩ := after
  obtain ⟨honce, hleast, hkept, hmade, hcreating⟩ := hcharges
  simp only at honce hleast hkept hmade hcreating ⊢
  generalize hmoved : ({ w with
    inflightStreams := if stream'.stage.live then w.inflightStreams else w.inflightStreams - 1
    streams := w.streams.modify id fun _ => stream' } : World) = moved
  have hsame : moved.streams = (w.streams.modify id fun _ => stream') ∧ moved.worker = w.worker ∧
      moved.streamFileSeq = w.streamFileSeq ∧ moved.files = w.files ∧ moved.left = w.left := by
    rw [← hmoved]
    exact ⟨rfl, rfl, rfl, rfl, rfl⟩
  obtain ⟨hstreams, hworker, hseq, hfiles, hleft⟩ := hsame
  obtain ⟨hcharge, hseq', hfiles'⟩ := applyAll_files moved (hworker ▸ hready) effects
  have hstreams' := (applyAll_spec moved (hworker ▸ hready) effects).2.2.2.1
  -- the charge of a file before and after
  have hmoves : ∀ path, (moved.applyAll effects).charge path + stream.stage.names path =
      w.charge path + (stream'.stage.names path + tally (Effect.charges path) effects) := by
    intro path
    have hsum := Dispatcher.sum_map_modify (fun stream : Stream => stream.stage.names path) hstream fun _ => stream'
    rw [hcharge]
    simp only [World.charge, hstreams, hworker, hleft]
    omega
  have hfresh : ∀ seq, TempFile.stream seq = .stream w.streamFileSeq ↔ seq = w.streamFileSeq := by
    intro seq
    rw [TempFile.stream.injEq]
  have hbound : ∀ seq, (moved.applyAll effects).charge (.stream seq) ≤
      if seq < (moved.applyAll effects).streamFileSeq then 1 else 0 := by
    intro seq
    have hbefore := h.bound seq
    have hthis := hmoves (.stream seq)
    have hle := hleast (.stream seq)
    rw [hseq', hseq]
    simp only [hfresh] at hle
    split at hle
    · split at hbefore
      · omega
      · split
        · omega
        · omega
    · split at hbefore
      · split
        · omega
        · omega
      · split
        · omega
        · omega
  refine ⟨hbound, fun seq hin => ?_, fun other stream'' path hother hcreates => ?_⟩
  · have hthis := hmoves (.stream seq)
    obtain hcreate | ⟨hhere, hnot⟩ := hfiles' _ hin
    · obtain ⟨hwaits, hone⟩ := hmade _ hcreate
      have hnames := names_of_creates hwaits
      have hmember := Dispatcher.le_sum_map (fun stream : Stream => stream.stage.names (.stream seq)) hstream
      have hbefore := h.bound seq
      simp only [World.charge] at hthis hbefore ⊢
      split at hbefore
      · omega
      · omega
    · rw [hfiles] at hhere
      have hold := h.kept seq hhere
      have hwaits : ¬ stream.stage.creates (.stream seq) := by
        intro hcreates
        obtain ⟨-, -, habsent⟩ := h.creating id stream _ hstream hcreates
        exact habsent hhere
      have heq := hkept _ hnot hwaits
      have hbefore := h.bound seq
      rw [hold] at hbefore
      have hne : seq ≠ w.streamFileSeq := by
        rintro rfl
        rw [if_neg (Nat.lt_irrefl _)] at hbefore
        cases hbefore
      rw [if_neg (mt (hfresh seq).1 hne)] at heq
      omega
  · rw [hstreams', hstreams] at hother
    by_cases hid : id = other
    · subst hid
      rw [List.getElem?_modify_eq, hstream] at hother
      cases hother
      obtain ⟨hnothing, hstill⟩ | ⟨rfl, hnamed⟩ := hcreating path hcreates
      · obtain ⟨seq, hpath, habsent⟩ := h.creating id stream path hstream hstill
        refine ⟨seq, hpath, fun hin => ?_⟩
        obtain hcreate | ⟨hhere, -⟩ := hfiles' path hin
        · rw [hnothing] at hcreate
          cases hcreate
        · exact habsent (hfiles ▸ hhere)
      · refine ⟨w.streamFileSeq, rfl, fun hin => ?_⟩
        obtain hcreate | ⟨hhere, -⟩ := hfiles' _ hin
        · rw [hnamed] at hcreate
          simp at hcreate
        · have hold := h.kept _ (hfiles ▸ hhere)
          have hbefore := h.bound w.streamFileSeq
          rw [hold, if_neg (Nat.lt_irrefl _)] at hbefore
          cases hbefore
    · rw [List.getElem?_modify_ne _ _ hid] at hother
      obtain ⟨seq, rfl, habsent⟩ := h.creating other stream'' path hother hcreates
      refine ⟨seq, rfl, fun hin => ?_⟩
      obtain hcreate | ⟨hhere, -⟩ := hfiles' _ hin
      · -- two streams would wait for the same file
        exact hid (h.alone hstream hother (names_of_creates (hmade _ hcreate).1) (names_of_creates hcreates))
      · exact habsent (hfiles ▸ hhere)

/-- A world in which no charge has grown and no file is new. -/
theorem InCharge.mono {w' : World} (h : w.InCharge) (hseq : w'.streamFileSeq = w.streamFileSeq)
    (hstreams : ∀ (id : Nat) (stream : Stream), w'.streams[id]? = some stream → stream.stage ≠ .opening →
      w.streams[id]? = some stream)
    (hcharge : ∀ seq, w'.charge (.stream seq) ≤ w.charge (.stream seq))
    (hfiles : ∀ path ∈ w'.files, path ∈ w.files ∧ w'.charge path = w.charge path) : w'.InCharge where
  bound := fun seq => by
    rw [hseq]
    exact Nat.le_trans (hcharge seq) (h.bound seq)
  kept := fun seq hin => by
    obtain ⟨hbefore, hsame⟩ := hfiles _ hin
    rw [hsame]
    exact h.kept seq hbefore
  creating := fun id stream path hstream hcreates => by
    have hbefore := hstreams id stream hstream fun hopening => by
      rw [hopening] at hcreates
      exact hcreates
    obtain ⟨seq, hpath, habsent⟩ := h.creating id stream path hbefore hcreates
    exact ⟨seq, hpath, fun hin => habsent (hfiles path hin).1⟩

theorem charges_taskEffect (ok : Bool) (task : CleanupTask) (path : TempFile) :
    (taskEffect ok task).charges path = if ok then 0 else if decide (task = .removeFile path) then 1 else 0 := by
  cases task with
  | removeFile p =>
    cases ok with
    | false => simp [taskEffect, Effect.charges]
    | true => rfl
  | closeCdpStream h =>
    cases ok with
    | false => simp [taskEffect, Effect.charges]
    | true => rfl

theorem files_taskEffect (ok : Bool) (task : CleanupTask) : ∀ path ∈ (w.apply (taskEffect ok task)).files,
    path ∈ w.files ∧ (ok = true → task ≠ .removeFile path) := by
  intro path hpath
  cases task with
  | removeFile p =>
    cases ok with
    | false => exact ⟨hpath, fun h => by cases h⟩
    | true =>
      obtain ⟨hbefore, hne⟩ := List.mem_filter.1 hpath
      have hne : path ≠ p := of_decide_eq_true hne
      exact ⟨hbefore, fun _ heq => hne (CleanupTask.removeFile.inj heq).symm⟩
  | closeCdpStream h =>
    cases ok with
    | false => exact ⟨hpath, fun _ heq => by cases heq⟩
    | true => exact ⟨hpath, fun _ heq => by cases heq⟩

/-- The end of a cleanup task. -/
theorem InCharge.finishTask (h : w.InCharge) (hhand : w.InHand) (batch place : Nat) (ok : Bool) :
    (w.step (.finishTask batch place ok)).InCharge := by
  cases hrunning : w.worker.running batch place with
  | none =>
    simp only [World.step, hrunning]
    exact h
  | some task =>
    have hpending := fun path => Dispatcher.pending_finish (fun task => decide (task = .removeFile path)) hrunning
    have hstep : w.step (.finishTask batch place ok) =
        { w with worker := w.worker.finish batch place }.apply (taskEffect ok task) := by
      simp only [World.step, hrunning]
    have hcharge : ∀ path, (w.step (.finishTask batch place ok)).charge path +
        (if ok then if decide (task = .removeFile path) then 1 else 0 else 0) = w.charge path := by
      intro path
      have hthis := hpending path
      have happly : ({ w with worker := w.worker.finish batch place }.apply (taskEffect ok task)).charge path =
          ({ w with worker := w.worker.finish batch place } : World).charge path + (taskEffect ok task).charges path := by
        refine charge_apply path ?_
        cases hready : w.worker.ready with
        | true => exact Or.inl hready
        | false =>
          obtain ⟨jobs, hjobs, -⟩ := Dispatcher.running_eq_some hrunning
          rw [(hhand.worker.idle hready).1] at hjobs
          cases hjobs
      rw [hstep, happly, charges_taskEffect]
      simp only [World.charge]
      cases ok with
      | false =>
        simp only [Bool.false_eq_true, if_false]
        omega
      | true =>
        simp only [if_true]
        omega
    have hparts : (w.step (.finishTask batch place ok)).streamFileSeq = w.streamFileSeq ∧
        (w.step (.finishTask batch place ok)).streams = w.streams := by
      rw [hstep]
      cases task with
      | removeFile p =>
        cases ok with
        | false => exact ⟨rfl, rfl⟩
        | true => exact ⟨rfl, rfl⟩
      | closeCdpStream handle =>
        cases ok with
        | false => exact ⟨rfl, rfl⟩
        | true => exact ⟨rfl, rfl⟩
    refine h.mono hparts.1 (fun id stream hstream _ => hparts.2 ▸ hstream) (fun seq => ?_) fun path hpath => ?_
    · rw [← hcharge]
      exact Nat.le_add_right _ _
    · rw [hstep] at hpath
      obtain ⟨hbefore, hother⟩ := files_taskEffect ok task path hpath
      refine ⟨hbefore, ?_⟩
      rw [← hcharge path]
      cases ok with
      | false => rfl
      | true =>
        rw [if_pos rfl, if_neg (by simpa using hother rfl), Nat.add_zero]

/-- What a panic takes with it is left. -/
theorem lost_charges (tasks : List CleanupTask) (path : TempFile) :
    tally (Effect.charges path) (tasks.map lostEffect) = tasks.countP (· = .removeFile path) ∧
      tally Effect.namesFile (tasks.map lostEffect) = 0 ∧ .create path ∉ tasks.map lostEffect := by
  induction tasks with
  | nil => exact ⟨rfl, rfl, List.not_mem_nil⟩
  | cons task rest ih =>
    obtain ⟨hcharged, hnamings, hcreate⟩ := ih
    refine ⟨?_, ?_, ?_⟩
    · rw [List.map_cons, tally_cons, hcharged, List.countP_cons, lostEffect, charges_taskEffect]
      simp only [Bool.false_eq_true, if_false]
      omega
    · rw [List.map_cons, tally_cons, hnamings]
      cases task with
      | removeFile p => rfl
      | closeCdpStream handle => rfl
    · intro hin
      obtain hhead | hrest := List.mem_cons.1 hin
      · cases task with
        | removeFile p => cases hhead
        | closeCdpStream handle => cases hhead
      · exact hcreate hrest

theorem InCharge.panic (h : w.InCharge) (hhand : w.InHand) (batch : Nat) : (w.step (.panic batch)).InCharge := by
  by_cases hready : w.worker.ready = true
  · obtain ⟨hcharge, hseq, hfiles⟩ :=
      applyAll_files { w with worker := w.worker.panic batch } hready ((w.worker.unfinished batch).map lostEffect)
    have hall : ∀ path, (w.step (.panic batch)).charge path = w.charge path := by
      intro path
      have hpending := Dispatcher.pending_panic (d := w.worker) (fun task => decide (task = .removeFile path)) batch
      show (({ w with worker := w.worker.panic batch } : World).applyAll _).charge path = _
      rw [hcharge, (lost_charges _ path).1]
      simp only [World.charge]
      omega
    refine h.mono ?_ (fun id stream hstream _ => ?_) (fun seq => Nat.le_of_eq (hall _)) fun path hpath => ⟨?_, hall path⟩
    · show (({ w with worker := w.worker.panic batch } : World).applyAll _).streamFileSeq = _
      rw [hseq, (lost_charges _ (.stream 0)).2.1, Nat.add_zero]
    · have hstreams := (applyAll_spec { w with worker := w.worker.panic batch } hready
        ((w.worker.unfinished batch).map lostEffect)).2.2.2.1
      exact hstreams ▸ hstream
    · obtain hcreate | ⟨hhere, -⟩ := hfiles path hpath
      · exact absurd hcreate (lost_charges _ path).2.2
      · exact hhere
  · rw [hhand.panic_of_unready (Bool.eq_false_iff.2 hready)]
    exact h

theorem InCharge.step (h : w.InCharge) (hhand : w.InHand) (input : Input) : (w.step input).InCharge := by
  cases input with
  | start cap =>
    have hcharge : ∀ path, (w.step (.start cap)).charge path = w.charge path := by
      intro path
      simp only [World.step, World.charge, List.map_append, List.map_cons, List.map_nil, List.sum_append, List.sum_cons,
        List.sum_nil, Stage.names]
      rfl
    refine h.mono rfl (fun id stream hstream hne => ?_) (fun seq => Nat.le_of_eq (hcharge _))
      fun path hpath => ⟨hpath, hcharge path⟩
    by_cases hlt : id < w.streams.length
    · simp only [World.step, List.getElem?_append_left hlt] at hstream
      exact hstream
    · simp only [World.step, List.getElem?_append_right (Nat.le_of_not_lt hlt)] at hstream
      obtain rfl := List.mem_singleton.1 (List.mem_of_getElem? hstream)
      exact absurd rfl hne
  | event id event =>
    cases hstream : w.streams[id]? with
    | none =>
      simp only [World.step, hstream]
      exact h
    | some stream =>
      by_cases hlive : stream.stage.live = true
      · exact h.event hhand hstream hlive event
      · simp only [World.step, hstream, hlive]
        exact h
  | dropContentSink seq =>
    have hcharge : ∀ seq', (w.step (.dropContentSink seq)).charge (.stream seq') = w.charge (.stream seq') :=
      fun seq' => charge_apply _ (Or.inr rfl)
    refine ⟨fun seq' => ?_, fun seq' hin => ?_, h.creating⟩
    · rw [hcharge]
      exact h.bound seq'
    · rw [hcharge]
      exact h.kept seq' hin
  | receive count =>
    have hcharge : ∀ path, (w.step (.receive count)).charge path = w.charge path := by
      intro path
      simp only [World.step, World.charge, Dispatcher.pending_receive]
    exact h.mono rfl (fun id stream hstream _ => hstream) (fun seq => Nat.le_of_eq (hcharge _))
      fun path hpath => ⟨hpath, hcharge path⟩
  | finishTask batch place ok => exact h.finishTask hhand batch place ok
  | panic batch => exact h.panic hhand batch

/-- In every run, whatever fails and wherever a future is dropped: a temporary file of a stream is in the charge of one stream, of one cleanup task, or was left, and never of two of them; so the worker never removes a file that a stream still writes or reads. A file that exists is in somebody's charge, and once no stream is alive and no removal waits, those that still exist are those that were left. -/
theorem files_in_one_charge (cacheStreamDisk : Bool) (decodeBase64 : String → Option (List UInt8))
    (inputs : List Input) :
    let w := Run.final World.step (init cacheStreamDisk decodeBase64) inputs
    (∀ seq, w.charge (.stream seq) ≤ 1) ∧ (∀ seq, .stream seq ∈ w.files → w.charge (.stream seq) = 1) ∧
      ∀ seq, .stream seq ∈ w.files → (∀ stream ∈ w.streams, stream.stage.live = false) →
        w.worker.pending (· = .removeFile (.stream seq)) = 0 → .stream seq ∈ w.left := by
  intro w
  have h : w.InHand ∧ w.InCharge :=
    Run.invariant_of_step (fun w : World => w.InHand ∧ w.InCharge)
      (fun _ input h => ⟨h.1.step input, h.2.step h.1 input⟩)
      ⟨inHand_init cacheStreamDisk decodeBase64, inCharge_init cacheStreamDisk decodeBase64⟩ inputs
  refine ⟨fun seq => Nat.le_trans (h.2.bound seq) ?_, h.2.kept, fun seq hin hdead hpending => ?_⟩
  · split
    · exact Nat.le_refl 1
    · exact Nat.zero_le 1
  · have hkept := h.2.kept seq hin
    have hnone : (w.streams.map fun stream => stream.stage.names (.stream seq)).sum = 0 := by
      refine List.sum_eq_zero_iff_forall_eq_nat.2 fun n hn => ?_
      obtain ⟨stream, hstream, rfl⟩ := List.mem_map.1 hn
      have hend := hdead stream hstream
      cases hstage : stream.stage with
      | opened handle phase =>
        rw [hstage] at hend
        cases hend
      | _ => rfl
    simp only [charge, hnone, hpending] at hkept
    exact List.count_pos_iff.1 (by omega)

end World

end BodyStream

end SpiderChrome
