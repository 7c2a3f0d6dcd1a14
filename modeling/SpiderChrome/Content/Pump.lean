import SpiderChrome.Content.Chunks

/-!
# The stream of slices

`content_bytes_stream` yields the document slice by slice and ends when it has come to the end, or when it has asked for `MAX_CHUNKS` slices. The caps on the document and on the chunk size are such that as many slices of the smallest size just hold the largest document, if every slice is full. A slice that would part a character is not full, so the last of a large document may be missing, and the stream ends as if it were not.
-/

namespace SpiderChrome

namespace ContentStream

open Unicode (utf8 utf16 units)

/-- The chunk size that the stream works with. -/
def chunkSize (pages : UInt32) (html : List Char) (chunkUnits : Option UInt32) : UInt32 :=
  (chunkUnits.map clampChunkUnits).getD (initChunkUnits pages (offsetOf html))

theorem minChunkUnits_le_clamp (units : UInt32) : minChunkUnits ≤ clampChunkUnits units := by
  unfold clampChunkUnits
  split
  · exact UInt32.le_refl _
  · split
    · decide
    · rename_i hless _
      exact UInt32.not_lt.mp hless

theorem minChunkUnits_le_init (pages total : UInt32) : minChunkUnits ≤ initChunkUnits pages total := by
  have hdefault : minChunkUnits ≤ defaultChunkUnits := by decide
  unfold initChunkUnits
  split
  · have hmax : defaultChunkUnits ≤ max defaultChunkUnits total := by
      rw [UInt32.max_def]
      split
      · assumption
      · exact UInt32.le_refl _
    exact UInt32.le_trans hdefault hmax
  · exact hdefault

theorem minChunkUnits_le_chunkSize (pages : UInt32) (html : List Char) (chunkUnits : Option UInt32) :
    1024 ≤ (chunkSize pages html chunkUnits).toNat := by
  have hmin : minChunkUnits ≤ chunkSize pages html chunkUnits := by
    cases chunkUnits with
    | none => exact minChunkUnits_le_init pages _
    | some units => exact minChunkUnits_le_clamp units
  exact UInt32.le_iff_toNat_le.mp hmin

section

variable {transfer : List UInt16 → String} (objectId : String) (endian : Endian) (pages : UInt32) {html : List Char}
  {chunkUnits : UInt32}

/-- At the end of the document, or of the rounds, the stream ends. -/
theorem pumpNext_end (page : Page (List (UInt32 × UInt32))) (asked : List (UInt32 × UInt32)) {offset total : UInt32} {rounds : Nat}
    (h : offset = total ∨ rounds = maxChunks) :
    pumpNext page endian asked objectId total offset chunkUnits rounds = (.ok none, asked) := by
  have hend : (decide (offset ≥ total) || decide (rounds ≥ maxChunks)) = true := by
    obtain rfl | rfl := h
    · simp
    · simp
  rw [pumpNext, if_pos hend]

/-- Before that it yields the longest piece of the rest. -/
theorem pumpNext_served (htransfer : Faithful transfer) {a b : List Char} (hlength : (utf16 (a ++ b)).length < 2 ^ 32)
    (hchunk : 2 ≤ chunkUnits.toNat) (hb : b ≠ []) {rounds : Nat} (hrounds : rounds < maxChunks)
    (asked : List (UInt32 × UInt32)) :
    pumpNext (servedPage transfer objectId (utf16 (a ++ b))) endian asked objectId (offsetOf (a ++ b)) (offsetOf a)
        chunkUnits rounds =
      (.ok (some (utf8 (Pieces.takeWithin units chunkUnits.toNat b), .pumping objectId (offsetOf (a ++ b))
        (offsetOf (a ++ Pieces.takeWithin units chunkUnits.toNat b)) chunkUnits (rounds + 1))),
        asked ++ [(offsetOf a, chunkUnits)]) := by
  obtain ⟨hmore, hnonempty, hadvanced, hadvance⟩ := next_piece endian hlength hchunk hb
  have hgo : (decide (offsetOf a ≥ offsetOf (a ++ b)) || decide (rounds ≥ maxChunks)) = false := by
    rw [Bool.or_eq_false_iff, decide_eq_false_iff_not, decide_eq_false_iff_not]
    exact ⟨UInt32.not_le.mpr hmore, by omega⟩
  rw [pumpNext, hgo, readSlice_served htransfer objectId a b hlength hchunk asked]
  simp only [hnonempty, hadvanced, hadvance, Bool.or_false, Bool.false_eq_true, if_false]

/-- What a consumer sees from any round on: the pieces that are left, as many as it polls for, and then the end. -/
theorem tryUnfold_served (htransfer : Faithful transfer) (hlength : (utf16 html).length < 2 ^ 32)
    (hchunk : 2 ≤ chunkUnits.toNat) (polls : Nat) {n rounds : Nat} (hn : rounds + n = maxChunks) {a b : List Char}
    (hhtml : a ++ b = html) (asked : List (UInt32 × UInt32)) :
    tryUnfold (servedPage transfer objectId (utf16 html)) endian pages polls asked
        (.pumping objectId (offsetOf html) (offsetOf a) chunkUnits rounds) =
      let yielded := (Pieces.cutInto units chunkUnits.toNat n b).map utf8
      if polls ≤ yielded.length then (yielded.take polls, none) else (yielded, some (.ok ())) := by
  induction polls generalizing n rounds a b asked with
  | zero => simp [tryUnfold]
  | succ polls ih =>
    by_cases hmore : n = 0 ∨ b = []
    · have hend : offsetOf a = offsetOf html ∨ rounds = maxChunks := by
        obtain hzero | hnil := hmore
        · right
          omega
        · left
          rw [← hhtml, hnil, List.append_nil]
      have hnone : Pieces.cutInto units chunkUnits.toNat n b = [] := by
        obtain rfl | rfl := hmore
        · rfl
        · cases n <;> rfl
      rw [tryUnfold, nextChunk, pumpNext_end objectId endian _ asked hend, hnone]
      rfl
    · obtain ⟨hn0, hb⟩ := not_or.mp hmore
      obtain ⟨n, rfl⟩ : ∃ k, n = k + 1 := ⟨n - 1, by omega⟩
      subst hhtml
      have hsplit := @Pieces.takeWithin_append_dropWithin _ units chunkUnits.toNat b
      have hlater := ih (show rounds + 1 + n = maxChunks by omega)
        (show (a ++ Pieces.takeWithin units chunkUnits.toNat b) ++ Pieces.dropWithin units chunkUnits.toNat b = a ++ b by
          rw [List.append_assoc, hsplit]) (asked ++ [(offsetOf a, chunkUnits)])
      have hcut : Pieces.cutInto units chunkUnits.toNat (n + 1) b = Pieces.takeWithin units chunkUnits.toNat b ::
          Pieces.cutInto units chunkUnits.toNat n (Pieces.dropWithin units chunkUnits.toNat b) := by
        cases b with
        | nil => exact absurd rfl hb
        | cons c b => rfl
      rw [tryUnfold, nextChunk, pumpNext_served objectId endian htransfer hlength hchunk hb
        (show rounds < maxChunks by omega) asked, hcut]
      simp only [hlater, List.map_cons, List.length_cons, Nat.add_le_add_iff_right]
      split
      · rw [List.take_succ_cons]
      · rfl

theorem initState_served (hdoc : (utf16 html).length ≤ maxDocumentUnits.toNat) (asked : List (UInt32 × UInt32)) :
    initState (servedPage transfer objectId (utf16 html)) pages asked =
      (.ok (if offsetOf html == 0 then none else some (objectId, offsetOf html, initChunkUnits pages (offsetOf html))),
        asked) := by
  have hcap : ¬(utf16 html).length > maxDocumentUnits.toNat := by omega
  simp only [initState, run, servedPage, Bool.false_eq_true, if_false, if_neg hcap]
  show (if offsetOf html == 0 then _ else _) = _
  split
  · rfl
  · rfl

/-- The first poll asks for the length, and goes on as if it had been known. -/
theorem contentBytesStream_served (htransfer : Faithful transfer)
    (hdoc : (utf16 html).length ≤ maxDocumentUnits.toNat) (override : Option UInt32) (polls : Nat) :
    contentBytesStream (servedPage transfer objectId (utf16 html)) endian pages override [] polls =
      let yielded := (Pieces.cutInto units (chunkSize pages html override).toNat maxChunks html).map utf8
      if polls ≤ yielded.length then (yielded.take polls, none) else (yielded, some (.ok ())) := by
  have hlength : (utf16 html).length < 2 ^ 32 := Nat.lt_of_le_of_lt hdoc (by decide)
  have hchunk := minChunkUnits_le_chunkSize pages html override
  cases polls with
  | zero => simp [contentBytesStream, tryUnfold]
  | succ polls =>
    have hinit : nextChunk (servedPage transfer objectId (utf16 html)) endian pages [] (.init (override.map clampChunkUnits)) =
        nextChunk (servedPage transfer objectId (utf16 html)) endian pages []
          (.pumping objectId (offsetOf html) (offsetOf []) (chunkSize pages html override) 0) := by
      rw [nextChunk, nextChunk, initState_served objectId pages hdoc]
      cases hzero : offsetOf html == 0 with
      | true => exact (pumpNext_end objectId endian _ [] (.inl (beq_iff_eq.mp hzero).symm)).symm
      | false => rfl
    have hrun := tryUnfold_served objectId endian pages htransfer hlength (Nat.le_trans (by decide) hchunk) (polls + 1)
      (Nat.zero_add maxChunks) (List.nil_append html) []
    rw [← hrun, contentBytesStream, tryUnfold, tryUnfold, hinit]

end

theorem stream_whole_iff {transfer : List UInt16 → String} (htransfer : Faithful transfer)
    (objectId : String) (endian : Endian) (pages : UInt32) {html : List Char}
    (hdoc : (utf16 html).length ≤ maxDocumentUnits.toNat) (override : Option UInt32) :
    let stream := contentBytesStream (servedPage transfer objectId (utf16 html)) endian pages override []
    (∃ polls, (stream polls).2 = some (.ok ())) ∧
      ((∀ polls, (stream polls).2 = some (.ok ()) → (stream polls).1.flatten = utf8 html) ↔
        Pieces.Fits units (chunkSize pages html override).toNat maxChunks html) := by
  intro stream
  have hstream : ∀ polls, stream polls = _ := contentBytesStream_served objectId endian pages htransfer hdoc override
  have hsplit := @Pieces.flatten_cutInto _ units (chunkSize pages html override).toNat maxChunks html
  have hflatten := congrArg utf8 hsplit
  rw [Unicode.utf8_append, ← Unicode.utf8_flatten] at hflatten
  rw [Pieces.fits_iff_leftAfter]
  generalize Pieces.cutInto units (chunkSize pages html override).toNat maxChunks html = pieces at hstream hflatten
  generalize Pieces.leftAfter units (chunkSize pages html override).toNat maxChunks html = left at hflatten ⊢
  have hended : stream ((pieces.map utf8).length + 1) = (pieces.map utf8, some (.ok ())) := by
    rw [hstream]
    exact if_neg (by omega)
  refine ⟨⟨_, by rw [hended]⟩, ?_, ?_⟩
  · intro h
    have hwhole := h _ (by rw [hended])
    rw [hended, ← hflatten] at hwhole
    by_contra hleft
    exact utf8_ne_nil hleft (List.append_right_eq_self.mp hwhole.symm)
  · intro hleft polls hend
    rw [hleft, Unicode.utf8_nil, List.append_nil] at hflatten
    rw [hstream] at hend ⊢
    by_cases hpolls : polls ≤ (pieces.map utf8).length
    · simp only [if_pos hpolls] at hend
      cases hend
    · simp only [if_neg hpolls]
      exact hflatten

/-- The stream comes to an end without an error. What it has yielded then is the whole document exactly when the document can be cut, between characters, into no more than `MAX_CHUNKS` pieces within the chunk size. -/
theorem contentBytesStream_whole_iff {transfer : List UInt16 → String} (htransfer : Faithful transfer)
    (objectId : String) (endian : Endian) (pages : UInt32) (html : List Char)
    (hdoc : (utf16 html).length ≤ maxDocumentUnits.toNat) (override : Option UInt32) :
    let stream := contentBytesStream (servedPage transfer objectId (utf16 html)) endian pages override []
    (∃ polls, (stream polls).2 = some (.ok ())) ∧
      ((∀ polls, (stream polls).2 = some (.ok ()) → (stream polls).1.flatten = utf8 html) ↔
        Pieces.Fits units (chunkSize pages html override).toNat maxChunks html) :=
  stream_whole_iff htransfer objectId endian pages hdoc override

theorem contentBytesStream_whole_iff_emoji :
    let stream := contentBytesStream (servedPage transferred "7" (utf16 ['a', '😀', 'b'])) .little 3 (some 2) []
    (∃ polls, (stream polls).2 = some (.ok ())) ∧
      ((∀ polls, (stream polls).2 = some (.ok ()) → (stream polls).1.flatten = utf8 ['a', '😀', 'b']) ↔
        Pieces.Fits units (chunkSize 3 ['a', '😀', 'b'] (some 2)).toNat maxChunks ['a', '😀', 'b']) :=
  contentBytesStream_whole_iff faithful_transferred "7" .little 3 ['a', '😀', 'b'] (by decide) (some 2)

/-- Above the smallest chunk size every document that is let in is streamed whole. -/
theorem fits_of_above_min {html : List Char} (hdoc : (utf16 html).length ≤ maxDocumentUnits.toNat) {size : Nat}
    (hsize : minChunkUnits.toNat < size) : Pieces.Fits units size maxChunks html := by
  have hmin : minChunkUnits.toNat = 1024 := rfl
  have htwo : 2 ≤ size := by omega
  have hmax : maxDocumentUnits.toNat = maxChunks * 1024 := by decide +kernel
  have hle : maxChunks * 1024 ≤ maxChunks * (size + 1 - 2) := Nat.mul_le_mul_left _ (by omega)
  have htotal : Pieces.total units html ≤ maxChunks * (size + 1 - 2) := by
    rw [← Unicode.length_utf16]
    omega
  exact Pieces.fits_of_total_le (fun c _ => Unicode.units_le_two c) htwo (fun c _ => Unicode.units_pos c) htotal

/-! ### A document that is cut short -/

/-- The largest document: one character of one unit, then characters of two, and one of one unit at the end. -/
def largestDocument : List Char := 'a' :: (List.replicate 134217727 '😀' ++ ['b'])

theorem total_replicate (n : Nat) : Pieces.total units (List.replicate n '😀') = 2 * n := by
  rw [Pieces.total, List.map_replicate, List.sum_replicate_nat, Nat.mul_comm]
  rfl

theorem length_largestDocument : (utf16 largestDocument).length = maxDocumentUnits.toNat := by
  rw [Unicode.length_utf16, largestDocument, Pieces.total_cons, Pieces.total_append, total_replicate]
  rfl

/-- Its pieces would all have to be full, and the first cannot be. -/
theorem not_fits_largestDocument : ¬Pieces.Fits units 1024 maxChunks largestDocument := by
  intro h
  obtain ⟨pieces, hflatten, hcount, hbound⟩ := h
  have htotal := length_largestDocument
  rw [Unicode.length_utf16, ← hflatten] at htotal
  have hmax : maxDocumentUnits.toNat = maxChunks * 1024 := by decide +kernel
  cases pieces with
  | nil => cases hflatten
  | cons piece rest =>
    have hpiece := hbound piece List.mem_cons_self
    have hrest := Pieces.total_flatten_le fun p hp => hbound p (List.mem_cons_of_mem _ hp)
    rw [List.flatten_cons, Pieces.total_append] at htotal
    rw [List.length_cons] at hcount
    have hfull : Pieces.total units piece = 1024 := by omega
    rw [List.flatten_cons, largestDocument] at hflatten
    cases piece with
    | nil => cases hfull
    | cons c piece =>
      obtain ⟨rfl, hrest'⟩ := List.cons.inj hflatten
      have hunits : units 'a' = 1 := rfl
      rw [Pieces.total_cons, hunits] at hfull
      have hshort := Pieces.length_le_total fun c (_ : c ∈ piece) => Unicode.units_pos c
      have hfront : (piece ++ rest.flatten).take piece.length = _ := congrArg (List.take piece.length) hrest'
      rw [List.take_left, List.take_append_of_le_length (by rw [List.length_replicate]; omega),
        List.take_replicate] at hfront
      rw [hfront, total_replicate] at hfull
      omega

/-- The stream ends without an error, and the last character of the document is missing. -/
theorem largestDocument_cut_short :
    let stream := contentBytesStream (servedPage transferred "7" (utf16 largestDocument)) .little 0 (some 1024) []
    ∃ polls, (stream polls).2 = some (.ok ()) ∧ (stream polls).1.flatten ≠ utf8 largestDocument := by
  intro stream
  have hdoc : (utf16 largestDocument).length ≤ maxDocumentUnits.toNat := Nat.le_of_eq length_largestDocument
  obtain ⟨-, hwhole⟩ := stream_whole_iff faithful_transferred "7" .little 0 hdoc (some 1024)
  by_contra hnone
  apply not_fits_largestDocument
  apply hwhole.mp
  intro polls hend
  by_contra hne
  exact hnone ⟨polls, hend, hne⟩

end ContentStream

end SpiderChrome
