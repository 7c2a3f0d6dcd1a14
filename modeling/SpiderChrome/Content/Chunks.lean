import SpiderChrome.Content.Stream

/-!
# Reading a document slice by slice

A slice that the page cuts at the end of what was read before begins there and holds whole characters: it is the longest piece of the rest that the chunk size admits. The reader finds its length in units from its bytes, so the next slice begins where this one ended. So far both ways of reading are alike. Gathering the slices gives the document when the caps let it come to the end.
-/

namespace SpiderChrome

namespace ContentStream

open Unicode (utf8 utf16 units)

/-! ### Slices -/

theorem jsSlice_append (s t : List UInt16) (count : Nat) : jsSlice (s ++ t) s.length (s.length + count) = t.take count := by
  rw [jsSlice, List.take_length_add_append, List.drop_left]

theorem charCodeAt_append (s t : List UInt16) {size : Nat} (hsize : 1 ≤ size) :
    charCodeAt (s ++ t) (((s.length + size : Nat) : Int) - 1) = t[size - 1]? := by
  have hpos : (0 : Int) ≤ ((s.length + size : Nat) : Int) - 1 := by omega
  have hindex : (((s.length + size : Nat) : Int) - 1).toNat = s.length + (size - 1) := by omega
  rw [charCodeAt, if_pos hpos, hindex, List.getElem?_append_right (by omega), Nat.add_sub_cancel_left]

/-- What `SLICE_FN` gives at the end of what was read before. -/
theorem sliceFn_utf16 (a b : List Char) {size : Nat} (hsize : 1 ≤ size) :
    sliceFn (utf16 (a ++ b)) (utf16 a).length size = utf16 (Pieces.takeWithin units size b) := by
  rw [Unicode.utf16_append, ← Unicode.take_cut b hsize, sliceFn]
  generalize utf16 a = s
  generalize utf16 b = t
  by_cases hend : t.length = 0
  · rw [List.eq_nil_of_length_eq_zero hend]
    simp
  · rw [List.length_append, if_neg (by omega)]
    by_cases hless : size < t.length
    · rw [if_neg (by omega)]
      simp only
      rw [if_pos (by omega), charCodeAt_append s t hsize, Unicode.cut, if_pos hless]
      cases t[size - 1]? with
      | none => exact jsSlice_append s t size
      | some c =>
        have hhigh : (decide (c ≥ 0xD800) && decide (c ≤ 0xDBFF)) = Unicode.isHighSurrogate c := rfl
        simp only [hhigh]
        cases Unicode.isHighSurrogate c with
        | true =>
          rw [if_pos rfl, if_pos rfl, Nat.add_sub_assoc hsize]
          exact jsSlice_append s t (size - 1)
        | false => exact jsSlice_append s t size
    · have hstop : (if s.length + size > s.length + t.length then s.length + t.length else s.length + size)
          = s.length + t.length := by
        split <;> omega
      rw [hstop]
      simp only
      rw [if_neg (by omega), jsSlice_append, Unicode.cut, if_neg hless]

/-- A piece of a text that is not at its end takes up units. -/
theorem takeWithin_ne_nil {b : List Char} (hb : b ≠ []) {size : Nat} (hsize : 2 ≤ size) :
    Pieces.takeWithin units size b ≠ [] := by
  cases b with
  | nil => exact absurd rfl hb
  | cons c b =>
    have hc := Unicode.units_le_two c
    rw [Pieces.takeWithin, if_pos (by omega)]
    exact List.cons_ne_nil _ _

/-! ### Positions -/

/-- The position after a text, in the reader's numbers. -/
def offsetOf (a : List Char) : UInt32 := UInt32.ofNat (utf16 a).length

theorem toNat_offsetOf {a : List Char} (h : (utf16 a).length < 2 ^ 32) : (offsetOf a).toNat = (utf16 a).length :=
  UInt32.toNat_ofNat_of_lt' h

/-- The reader moves on by the units of what it has read. -/
theorem saturatingAdd_offsetOf (endian : Endian) {a s : List Char} (h : (utf16 (a ++ s)).length < 2 ^ 32) :
    saturatingAdd (offsetOf a) (utf16LenOfUtf8 endian (utf8 s)) = offsetOf (a ++ s) := by
  rw [Unicode.utf16_append, List.length_append] at h
  rw [saturatingAdd, toNat_offsetOf (by omega), utf16LenOfUtf8_utf8 endian s (by omega), offsetOf,
    Unicode.utf16_append, List.length_append, Nat.min_eq_left (by omega)]

theorem utf8_ne_nil {s : List Char} (h : s ≠ []) : utf8 s ≠ [] := by
  cases s with
  | nil => exact absurd rfl h
  | cons c s =>
    rw [Unicode.utf8_cons]
    intro hnil
    exact String.utf8EncodeChar_ne_nil (List.append_eq_nil_iff.mp hnil).1

theorem units_advanced_ne_zero (endian : Endian) {s : List Char} (hs : s ≠ []) (h : (utf16 s).length < 2 ^ 32) :
    (utf16LenOfUtf8 endian (utf8 s) == 0) = false := by
  have hlength := utf16LenOfUtf8_utf8 endian s h
  cases s with
  | nil => exact absurd rfl hs
  | cons c s =>
    have hc := Unicode.units_pos c
    rw [Unicode.utf16_cons, List.length_append, Unicode.length_utf16EncodeChar] at hlength
    rw [beq_eq_false_iff_ne]
    intro hzero
    rw [hzero, UInt32.toNat_zero] at hlength
    omega

/-- Before the end of the document, the longest piece of the rest is not empty, and the reader moves on to its end. -/
theorem next_piece (endian : Endian) {a b : List Char} (hlength : (utf16 (a ++ b)).length < 2 ^ 32) {size : Nat}
    (hsize : 2 ≤ size) (hb : b ≠ []) :
    let piece := Pieces.takeWithin units size b
    offsetOf a < offsetOf (a ++ b) ∧ (utf8 piece).isEmpty = false ∧ (utf16LenOfUtf8 endian (utf8 piece) == 0) = false ∧
      saturatingAdd (offsetOf a) (utf16LenOfUtf8 endian (utf8 piece)) = offsetOf (a ++ piece) := by
  intro piece
  have hpiece : piece ≠ [] := takeWithin_ne_nil hb hsize
  have hsplit : piece ++ Pieces.dropWithin units size b = b := Pieces.takeWithin_append_dropWithin _ _
  have hunits := congrArg (fun t => (utf16 t).length) hsplit
  have hlength' := hlength
  simp only [Unicode.utf16_append, List.length_append] at hunits hlength'
  have hshort : (utf16 piece).length < 2 ^ 32 := by omega
  have hadvanced := units_advanced_ne_zero endian hpiece hshort
  refine ⟨?_, List.isEmpty_eq_false_iff.mpr (utf8_ne_nil hpiece), hadvanced, ?_⟩
  · have hunits' := utf16LenOfUtf8_utf8 endian piece hshort
    have hne : (utf16LenOfUtf8 endian (utf8 piece)).toNat ≠ 0 := by
      intro hzero
      exact beq_eq_false_iff_ne.mp hadvanced (UInt32.toNat_inj.mp hzero)
    rw [UInt32.lt_iff_toNat_lt, toNat_offsetOf (by omega), toNat_offsetOf hlength, Unicode.utf16_append,
      List.length_append]
    omega
  · apply saturatingAdd_offsetOf
    rw [Unicode.utf16_append, List.length_append]
    omega

/-! ### Reading one slice -/

section

variable {transfer : List UInt16 → String} (htransfer : Faithful transfer) (objectId : String)
include htransfer

theorem intoBytes_transfer (s : List Char) : intoBytes (transfer (utf16 s)) = utf8 s := by
  have h := htransfer (String.ofList s)
  rw [String.toList_ofList] at h
  rw [h, intoBytes, String.toList_ofList]

/-- At the end of what was read before, the next slice is the longest piece of the rest within the chunk size. -/
theorem readSlice_served (a b : List Char) (h : (utf16 (a ++ b)).length < 2 ^ 32) {chunkUnits : UInt32}
    (hchunk : 2 ≤ chunkUnits.toNat) (asked : List (UInt32 × UInt32)) :
    readSlice (servedPage transfer objectId (utf16 (a ++ b))) asked objectId (offsetOf a) chunkUnits =
      (.ok (utf8 (Pieces.takeWithin units chunkUnits.toNat b)), asked ++ [(offsetOf a, chunkUnits)]) := by
  have ha : (utf16 a).length < 2 ^ 32 := by
    rw [Unicode.utf16_append, List.length_append] at h
    omega
  have hslice := sliceFn_utf16 a b (show 1 ≤ chunkUnits.toNat by omega)
  rw [← toNat_offsetOf ha] at hslice
  rw [← intoBytes_transfer htransfer]
  simp only [readSlice, run, servedPage, hslice]
  rfl

end

/-! ### Gathering all slices -/

/-- What the page is asked for when the pieces are read one after another. -/
def requests (chunkUnits : UInt32) : List Char → List (List Char) → List (UInt32 × UInt32)
  | _, [] => []
  | a, piece :: rest => (offsetOf a, chunkUnits) :: requests chunkUnits (a ++ piece) rest

section

variable {transfer : List UInt16 → String} {objectId : String} {html : List Char} {r : Reading}

/-- At the end of the document the loop is over. -/
theorem readLoop_end (page : Page (List (UInt32 × UInt32))) (htotal : r.totalUnits = offsetOf html) (asked : List (UInt32 × UInt32))
    {sink : Spill} (hsink : sink.Undisturbed r.io r.last) (rounds totalBytes : Nat) :
    readLoop page r asked sink (offsetOf html) rounds totalBytes = (.ok sink.content, asked) := by
  have hend : ¬offsetOf html < r.totalUnits := by
    rw [htotal]
    exact UInt32.lt_irrefl _
  rw [readLoop, if_neg hend, Sink.finish, hsink.take_eq]

/-- One turn of the loop reads the longest piece of the rest. -/
theorem readLoop_turn (htransfer : Faithful transfer) {a b : List Char} (hlength : (utf16 (a ++ b)).length < 2 ^ 32)
    (htotal : r.totalUnits = offsetOf (a ++ b)) (hid : r.objectId = objectId) (hchunk : 2 ≤ r.chunkUnits.toNat)
    (hcap : (utf8 (a ++ b)).length ≤ r.byteCap) (hb : b ≠ []) {rounds : Nat} (hrounds : rounds < maxChunks)
    (sink : Spill) {totalBytes : Nat} (hbytes : totalBytes ≤ (utf8 a).length) (asked : List (UInt32 × UInt32)) :
    let piece := Pieces.takeWithin units r.chunkUnits.toNat b
    ∃ totalBytes', totalBytes' ≤ (utf8 (a ++ piece)).length ∧
      readLoop (servedPage transfer objectId (utf16 (a ++ b))) r asked sink (offsetOf a) rounds totalBytes =
        readLoop (servedPage transfer objectId (utf16 (a ++ b))) r (asked ++ [(offsetOf a, r.chunkUnits)])
          (Sink.write sink (utf8 piece) (r.io rounds)) (offsetOf (a ++ piece)) (rounds + 1) totalBytes' := by
  intro piece
  obtain ⟨hmore, hnonempty, hadvanced, hadvance⟩ := next_piece r.endian hlength hchunk hb
  have hsplit : piece ++ Pieces.dropWithin units r.chunkUnits.toNat b = b := Pieces.takeWithin_append_dropWithin _ _
  have hutf8 := congrArg (fun t => (utf8 t).length) hsplit
  simp only [Unicode.utf8_append, List.length_append] at hutf8 hcap
  refine ⟨min (totalBytes + (utf8 piece).length) (2 ^ 64 - 1), ?_, ?_⟩
  · rw [Unicode.utf8_append, List.length_append]
    omega
  · have hread : readSlice (servedPage transfer objectId (utf16 (a ++ b))) asked r.objectId (offsetOf a) r.chunkUnits =
        (.ok (utf8 piece), asked ++ [(offsetOf a, r.chunkUnits)]) := by
      rw [hid]
      exact readSlice_served htransfer objectId a b hlength hchunk asked
    rw [readLoop, htotal, if_pos hmore, if_neg (show ¬rounds ≥ maxChunks by omega), hread]
    simp only [piece, hnonempty, hadvanced, hadvance, Bool.or_false, Bool.false_eq_true, if_false]
    rw [if_neg (show ¬min (totalBytes + (utf8 piece).length) (2 ^ 64 - 1) > r.byteCap by omega)]

/-- The loop from any round on: the sink has what came before, and the rounds that are left are enough for the rest. -/
theorem readLoop_served (htransfer : Faithful transfer) (hlength : (utf16 html).length < 2 ^ 32)
    (htotal : r.totalUnits = offsetOf html) (hid : r.objectId = objectId) (hchunk : 2 ≤ r.chunkUnits.toNat)
    (hcap : (utf8 html).length ≤ r.byteCap) (n : Nat) {rounds : Nat} (hn : rounds + n = maxChunks)
    {a b : List Char} (hhtml : a ++ b = html) (hleft : Pieces.leftAfter units r.chunkUnits.toNat n b = [])
    {sink : Spill} (hsink : sink.Undisturbed r.io r.last) (hcontent : sink.content = utf8 a)
    {totalBytes : Nat} (hbytes : totalBytes ≤ (utf8 a).length) (asked : List (UInt32 × UInt32)) :
    readLoop (servedPage transfer objectId (utf16 html)) r asked sink (offsetOf a) rounds totalBytes =
      (.ok (utf8 html),
        asked ++ requests r.chunkUnits a (Pieces.cutInto units r.chunkUnits.toNat n b)) := by
  induction n generalizing rounds a b sink totalBytes asked with
  | zero =>
    obtain rfl : b = [] := hleft
    obtain rfl : a = html := by rw [← hhtml, List.append_nil]
    rw [readLoop_end _ htotal asked hsink, hcontent]
    simp [Pieces.cutInto, requests]
  | succ n ih =>
    cases b with
    | nil =>
      obtain rfl : a = html := by rw [← hhtml, List.append_nil]
      rw [readLoop_end _ htotal asked hsink, hcontent]
      simp [Pieces.cutInto, requests]
    | cons c b =>
      subst hhtml
      obtain ⟨totalBytes', hbytes', hturn⟩ := readLoop_turn htransfer hlength htotal hid hchunk hcap
        (List.cons_ne_nil c b) (show rounds < maxChunks by omega) sink hbytes asked
      have hput := hsink.content_put (utf8 (Pieces.takeWithin units r.chunkUnits.toNat (c :: b))) rounds
      have hrest := ih (show rounds + 1 + n = maxChunks by omega) (by rw [List.append_assoc, Pieces.takeWithin_append_dropWithin]) hleft hput.1
        (by rw [hput.2, hcontent, Unicode.utf8_append]) hbytes' (asked ++ [(offsetOf a, r.chunkUnits)])
      rw [hturn, Pieces.cutInto, requests]
      refine hrest.trans ?_
      rw [List.append_assoc, List.singleton_append]

end

/-! ### What the page is asked for -/

theorem slices_requests {chunkUnits : UInt32} (hchunk : 2 ≤ chunkUnits.toNat) (n : Nat) (a b : List Char)
    (hlength : (utf16 (a ++ b)).length < 2 ^ 32) :
    (requests chunkUnits a (Pieces.cutInto units chunkUnits.toNat n b)).map
        (fun call => sliceFn (utf16 (a ++ b)) call.1.toNat call.2.toNat) =
      (Pieces.cutInto units chunkUnits.toNat n b).map utf16 := by
  induction n generalizing a b with
  | zero => rfl
  | succ n ih =>
    cases b with
    | nil => rfl
    | cons c b =>
      have ha : (utf16 a).length < 2 ^ 32 := by
        rw [Unicode.utf16_append, List.length_append] at hlength
        omega
      have hsplit := @Pieces.takeWithin_append_dropWithin _ units chunkUnits.toNat (c :: b)
      have hih := ih (a ++ Pieces.takeWithin units chunkUnits.toNat (c :: b))
        (Pieces.dropWithin units chunkUnits.toNat (c :: b))
      rw [List.append_assoc, hsplit] at hih
      rw [Pieces.cutInto, requests, List.map_cons, List.map_cons, hih hlength, toNat_offsetOf ha,
        sliceFn_utf16 a (c :: b) (show 1 ≤ chunkUnits.toNat by omega)]

/-- Every slice is asked for at the end of the slices before it. -/
theorem offset_requests (chunkUnits : UInt32) {a : List Char} {pieces : List (List Char)}
    (hlength : (utf16 (a ++ pieces.flatten)).length < 2 ^ 32) {i : Nat} {call : UInt32 × UInt32}
    (h : (requests chunkUnits a pieces)[i]? = some call) :
    call.1.toNat = (utf16 a).length + ((pieces.map utf16).take i).flatten.length := by
  induction pieces generalizing a i with
  | nil => simp [requests] at h
  | cons piece rest ih =>
    cases i with
    | zero =>
      have ha : (utf16 a).length < 2 ^ 32 := by
        rw [Unicode.utf16_append, List.length_append] at hlength
        omega
      obtain rfl : (offsetOf a, chunkUnits) = call := Option.some.inj h
      simpa using toNat_offsetOf ha
    | succ i =>
      have hrest := ih (by rwa [List.append_assoc, ← List.flatten_cons]) h
      rw [hrest, List.map_cons, List.take_succ_cons, List.flatten_cons, Unicode.utf16_append, List.length_append,
        List.length_append, Nat.add_assoc]

/-! ### The whole document -/

/-- `read_chunks` on a document within its caps: it returns the document, and the slices that it asked for follow one another without a gap, each of whole characters and each at the position that the reader had worked out. -/
theorem readChunks_whole {transfer : List UInt16 → String} (htransfer : Faithful transfer) (objectId : String)
    (html : List Char) (hlength : (utf16 html).length < 2 ^ 32) (chunkUnits : UInt32) (hchunk : 2 ≤ chunkUnits.toNat)
    (hrounds : Pieces.Fits units chunkUnits.toNat maxChunks html) (byteCap : Nat) (hcap : (utf8 html).length ≤ byteCap)
    (endian : Endian) (created : Bool) (io : Nat → WriteIo) (last : FinishIo)
    (hio : (Spill.start created).Undisturbed io last) :
    ∃ asked : List (UInt32 × UInt32),
      readChunks (servedPage transfer objectId (utf16 html)) created
          ⟨objectId, UInt32.ofNat (utf16 html).length, chunkUnits, byteCap, endian, io, last⟩ [] =
        (.ok (utf8 html), asked) ∧
      let slices := asked.map fun call => sliceFn (utf16 html) call.1.toNat call.2.toNat
      slices.flatten = utf16 html ∧
        (∀ i call, asked[i]? = some call → call.1.toNat = (slices.take i).flatten.length) ∧
        ∀ slice ∈ slices, ∃ piece : List Char, slice = utf16 piece := by
  have hleft : Pieces.leftAfter units chunkUnits.toNat maxChunks html = [] := Pieces.fits_iff_leftAfter.mp hrounds
  have hwhole : (Pieces.cutInto units chunkUnits.toNat maxChunks html).flatten = html := by
    have hflatten := @Pieces.flatten_cutInto _ units chunkUnits.toNat maxChunks html
    rwa [hleft, List.append_nil] at hflatten
  have hstart : (Spill.start created).content = utf8 [] := by
    cases created <;> rfl
  have hread := readLoop_served htransfer hlength
    (show Reading.totalUnits ⟨objectId, offsetOf html, chunkUnits, byteCap, endian, io, last⟩ = offsetOf html from rfl)
    rfl hchunk hcap maxChunks (Nat.zero_add _) (List.nil_append html) hleft hio hstart (Nat.zero_le _) []
  have hslices := slices_requests hchunk maxChunks [] html hlength
  rw [List.nil_append] at hslices
  refine ⟨_, hread, ?_⟩
  simp only [List.nil_append, hslices]
  refine ⟨?_, ?_, ?_⟩
  · rw [Unicode.utf16_flatten, hwhole]
  · intro i call hcall
    have hoffset := offset_requests chunkUnits (by rwa [List.nil_append, hwhole]) hcall
    rwa [Unicode.utf16_nil, List.length_nil, Nat.zero_add] at hoffset
  · intro slice hslice
    obtain ⟨piece, -, rfl⟩ := List.mem_map.mp hslice
    exact ⟨piece, rfl⟩

/-- Slices of two units, of which the first would part a character. -/
theorem readChunks_whole_emoji :
    ∃ asked : List (UInt32 × UInt32),
      readChunks (servedPage transferred "7" (utf16 ['a', '😀', 'b'])) true
          ⟨"7", UInt32.ofNat (utf16 ['a', '😀', 'b']).length, 2, defaultMaxAccumulatedBytes, .little,
            fun _ => ⟨.ok 1, .ok, true⟩, ⟨.ok, true⟩⟩ [] =
        (.ok (utf8 ['a', '😀', 'b']), asked) ∧
      let slices := asked.map fun call => sliceFn (utf16 ['a', '😀', 'b']) call.1.toNat call.2.toNat
      slices.flatten = utf16 ['a', '😀', 'b'] ∧
        (∀ i call, asked[i]? = some call → call.1.toNat = (slices.take i).flatten.length) ∧
        ∀ slice ∈ slices, ∃ piece : List Char, slice = utf16 piece :=
  readChunks_whole faithful_transferred "7" ['a', '😀', 'b'] (by decide) 2 (by decide)
    ⟨[['a'], ['😀'], ['b']], rfl, by decide, by decide⟩ defaultMaxAccumulatedBytes (by decide) .little true
    (fun _ => ⟨.ok 1, .ok, true⟩) ⟨.ok, true⟩ ⟨fun _ => rfl, rfl⟩

end ContentStream

end SpiderChrome
