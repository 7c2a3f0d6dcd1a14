import SpiderChrome.Connection.Serial
import SpiderChrome.Library.Pieces

/-!
# Malformed frames

A text that is no message is dropped after a preview of it was taken for the log. The preview is cut off at a byte position, and where a character stands across that position the cut panics. This ends the task that reads the websocket, and every frame behind is lost. The frames that the task does not come to do not matter, and neither do the large ones, which it decodes elsewhere and without a preview.
-/

namespace SpiderChrome

open Run

variable {M : Type} (parse : List UInt8 → Option M)

/-- A character of the text stands across a byte position. -/
def CutsCharacter (text : String) (position : Nat) : Prop :=
  ∃ before c after, text.toList = before ++ c :: after ∧ Pieces.total Char.utf8Size before < position ∧
    position < Pieces.total Char.utf8Size before + c.utf8Size

/-- A text that is no message, and cannot be cut after 512 bytes. -/
def Breaks (text : String) : Prop := parse (wireBytes text) = none ∧ CutsCharacter text 512

/-! ### Cutting a text -/

theorem isCharBoundary_eq_false_iff (s : List Char) (position : Nat) :
    isCharBoundary s position = false ↔ Pieces.total Char.utf8Size s < position ∨
      ∃ before c after, s = before ++ c :: after ∧ Pieces.total Char.utf8Size before < position ∧
        position < Pieces.total Char.utf8Size before + c.utf8Size := by
  induction s generalizing position with
  | nil =>
    cases position with
    | zero => simp [isCharBoundary]
    | succ n => simp [isCharBoundary]
  | cons c rest ih =>
    cases position with
    | zero => simp [isCharBoundary]
    | succ n =>
      rw [isCharBoundary]
      split
      · rename_i hle
        rw [ih, Pieces.total_cons]
        constructor
        · intro h
          obtain hshort | ⟨before, d, after, rfl, hbefore, hafter⟩ := h
          · exact .inl (by omega)
          · exact .inr ⟨c :: before, d, after, rfl, by rw [Pieces.total_cons]; omega, by rw [Pieces.total_cons]; omega⟩
        · intro h
          obtain hshort | ⟨before, d, after, heq, hbefore, hafter⟩ := h
          · exact .inl (by omega)
          · cases before with
            | nil =>
              obtain ⟨rfl, rfl⟩ := List.cons.inj heq
              rw [Pieces.total_nil] at hafter
              omega
            | cons e before =>
              obtain ⟨rfl, rfl⟩ := List.cons.inj heq
              rw [Pieces.total_cons] at hbefore hafter
              exact .inr ⟨before, d, after, rfl, by omega, by omega⟩
      · rename_i hlt
        refine iff_of_true rfl (.inr ⟨[], c, rest, rfl, Nat.succ_pos n, ?_⟩)
        rw [Pieces.total_nil]
        omega

theorem utf8ByteSize_ofList (s : List Char) : (String.ofList s).utf8ByteSize = Pieces.total Char.utf8Size s := by
  induction s with
  | nil => rfl
  | cons c rest ih =>
    have hsplit : String.ofList (c :: rest) = String.singleton c ++ String.ofList rest := by
      rw [String.singleton_eq_ofList, ← String.ofList_append]
      rfl
    rw [hsplit, String.utf8ByteSize_append, String.utf8ByteSize_singleton, ih, Pieces.total_cons]

theorem utf8ByteSize_eq_total (text : String) : text.utf8ByteSize = Pieces.total Char.utf8Size text.toList := by
  rw [← utf8ByteSize_ofList, String.ofList_toList]

theorem preview_eq_none_iff (text : String) : preview text = none ↔ CutsCharacter text 512 := by
  have hsize := utf8ByteSize_eq_total text
  have hnone : preview text = none ↔ isCharBoundary text.toList (min text.utf8ByteSize 512) = false := by
    rw [preview]
    cases isCharBoundary text.toList (min text.utf8ByteSize 512) with
    | true => simp
    | false => simp
  rw [hnone, isCharBoundary_eq_false_iff]
  constructor
  · intro h
    obtain hshort | ⟨before, c, after, heq, hbefore, hafter⟩ := h
    · omega
    · have htotal : Pieces.total Char.utf8Size text.toList =
          Pieces.total Char.utf8Size before + (c.utf8Size + Pieces.total Char.utf8Size after) := by
        rw [heq, Pieces.total_append, Pieces.total_cons]
      exact ⟨before, c, after, heq, by omega, by omega⟩
  · intro h
    obtain ⟨before, c, after, heq, hbefore, hafter⟩ := h
    have htotal : Pieces.total Char.utf8Size text.toList =
        Pieces.total Char.utf8Size before + (c.utf8Size + Pieces.total Char.utf8Size after) := by
      rw [heq, Pieces.total_append, Pieces.total_cons]
    exact .inr ⟨before, c, after, heq, by omega, by omega⟩

/-- A decode panics over a text that is no message and cannot be cut, and over nothing else. -/
theorem decodeMessage_eq_none_iff (bytes : List UInt8) (raw : Option String) :
    decodeMessage parse bytes raw = none ↔ parse bytes = none ∧ ∃ text, raw = some text ∧ CutsCharacter text 512 := by
  cases hparse : parse bytes with
  | some msg => simp [decodeMessage, hparse]
  | none =>
    cases raw with
    | none => simp [decodeMessage, hparse]
    | some text =>
      have hpreview := preview_eq_none_iff text
      simp only [decodeMessage, hparse, Option.some.injEq, exists_eq_left', true_and]
      rw [← hpreview]
      cases preview text with
      | none => simp
      | some length => simp

/-! ### The items that are read -/

/-- An item that ends the reading. -/
def WsItem.ends : WsItem → Bool
  | .ok .close => true
  | .error _ => true
  | _ => false

/-- The items up to the first that ends the reading. -/
def upToEnd : List WsItem → List WsItem
  | [] => []
  | item :: rest => if WsItem.ends item then [item] else item :: upToEnd rest

/-- An item as the reader task sees it, for which a large text is as good as its bytes. -/
def unlogged : WsItem → WsItem
  | .ok (.text text) => if text.utf8ByteSize ≥ largeFrameThreshold then .ok (.binary (wireBytes text)) else .ok (.text text)
  | item => item

variable {parse} {items : List WsItem}

theorem upToEnd_cons_of_ends {item : WsItem} (h : item.ends = true) (rest : List WsItem) :
    upToEnd (item :: rest) = [item] := if_pos h

theorem upToEnd_cons {item : WsItem} (h : item.ends = false) (rest : List WsItem) :
    upToEnd (item :: rest) = item :: upToEnd rest := by
  rw [upToEnd, h]
  rfl

/-- Only the items that are read carry anything. -/
theorem serial_upToEnd (items : List WsItem) : serial parse (upToEnd items) = serial parse items := by
  induction items with
  | nil => rfl
  | cons item rest ih =>
    match item with
    | .error err => rfl
    | .ok .close => rfl
    | .ok (.text text) => exact congrArg (_ ++ ·) ih
    | .ok (.binary buf) => exact congrArg (_ ++ ·) ih
    | .ok (.ping payload) => exact congrArg (_ ++ ·) ih
    | .ok (.pong payload) => exact congrArg (_ ++ ·) ih
    | .ok .frame => exact congrArg (_ ++ ·) ih

theorem serial_unlogged (items : List WsItem) : serial parse (items.map unlogged) = serial parse items := by
  induction items with
  | nil => rfl
  | cons item rest ih =>
    match item with
    | .error err => rfl
    | .ok .close => rfl
    | .ok (.text text) =>
      by_cases hlarge : text.utf8ByteSize ≥ largeFrameThreshold
      · rw [List.map_cons, unlogged, if_pos hlarge]
        exact congrArg (_ ++ ·) ih
      · rw [List.map_cons, unlogged, if_neg hlarge]
        exact congrArg (_ ++ ·) ih
    | .ok (.binary buf) => exact congrArg (_ ++ ·) ih
    | .ok (.ping payload) => exact congrArg (_ ++ ·) ih
    | .ok (.pong payload) => exact congrArg (_ ++ ·) ih
    | .ok .frame => exact congrArg (_ ++ ·) ih

variable (parse) in
/-- No text among the items that are read, and decoded with a preview, breaks the reading. -/
def Previewed (logged : String → Prop) (items : List WsItem) : Prop :=
  ∀ text, .ok (.text text) ∈ upToEnd items → logged text → ¬Breaks parse text

/-- The texts that the reader task decodes itself. -/
def DecodedInline (text : String) : Prop := text.utf8ByteSize < largeFrameThreshold

theorem isSome_decode_of_not_breaks {text : String} (h : ¬Breaks parse text) :
    (decodeMessage parse (wireBytes text) (some text)).isSome = true := by
  rw [Option.isSome_iff_ne_none]
  intro hnone
  obtain ⟨hparse, text', heq, hcuts⟩ := (decodeMessage_eq_none_iff parse _ _).mp hnone
  obtain rfl := Option.some.inj heq
  exact h ⟨hparse, hcuts⟩

theorem decodes_upToEnd (h : Previewed parse (fun _ => True) items) : Decodes parse (upToEnd items) := by
  intro item hitem
  match item with
  | .error err => trivial
  | .ok .close => trivial
  | .ok (.text text) => exact isSome_decode_of_not_breaks (h text hitem trivial)
  | .ok (.binary buf) => trivial
  | .ok (.ping payload) => trivial
  | .ok (.pong payload) => trivial
  | .ok .frame => trivial

theorem decodes_unlogged (h : Previewed parse DecodedInline items) : Decodes parse ((upToEnd items).map unlogged) := by
  intro item hitem
  obtain ⟨read, hread, rfl⟩ := List.mem_map.mp hitem
  match read with
  | .error err => trivial
  | .ok .close => trivial
  | .ok (.text text) =>
    by_cases hlarge : text.utf8ByteSize ≥ largeFrameThreshold
    · rw [unlogged, if_pos hlarge]
      trivial
    · rw [unlogged, if_neg hlarge]
      exact isSome_decode_of_not_breaks (h text hread (Nat.lt_of_not_le hlarge))
  | .ok (.binary buf) => trivial
  | .ok (.ping payload) => trivial
  | .ok (.pong payload) => trivial
  | .ok .frame => trivial

/-! ### The reader task -/

namespace Reader

variable {s : Reader M}

/-- The task with only the items before it that matter. -/
def trimmed (s : Reader M) : Reader M :=
  { s with items := if s.streamTerminated then [] else (upToEnd s.items).map unlogged }

theorem enqueue_trimmed (hopen : s.streamTerminated = false) (bytes : List UInt8) (length : Nat) (raw : Option String) :
    (s.enqueue parse bytes length raw).trimmed = s.trimmed.enqueue parse bytes length raw := by
  unfold enqueue
  split
  · simp only [trimmed, hopen]
  · split
    · simp only [trimmed, hopen]
    · simp only [trimmed, hopen]

theorem readItem_trimmed (hopen : s.streamTerminated = false) :
    (s.readItem parse).trimmed = s.trimmed.readItem parse := by
  obtain ⟨items, inFlight, streamTerminated, pendingErr, phase, channel, received, receiverDropped⟩ := s
  obtain rfl : streamTerminated = false := hopen
  cases items with
  | nil => rfl
  | cons item rest =>
    match item with
    | .error err => rfl
    | .ok .close => rfl
    | .ok (.text text) =>
      by_cases hlarge : text.utf8ByteSize ≥ largeFrameThreshold
      · -- On another thread a text and its bytes come to the same.
        have hlength : (wireBytes text).length ≥ largeFrameThreshold := hlarge
        simp only [readItem, trimmed, upToEnd_cons (show WsItem.ends (.ok (.text text)) = false from rfl), List.map_cons,
          unlogged, if_pos hlarge, enqueue, if_pos hlength, Bool.false_eq_true, if_false]
      · simp only [readItem, trimmed, upToEnd_cons (show WsItem.ends (.ok (.text text)) = false from rfl), List.map_cons,
          unlogged, if_neg hlarge, Bool.false_eq_true, if_false]
        exact enqueue_trimmed rfl _ _ _
    | .ok (.binary buf) => exact enqueue_trimmed rfl _ _ _
    | .ok (.ping payload) => rfl
    | .ok (.pong payload) => rfl
    | .ok .frame => rfl

theorem select_trimmed (s : Reader M) (available : Bool) :
    (s.select parse available).trimmed = s.trimmed.select parse available := by
  have hnext : s.trimmed.inFlight.next = s.inFlight.next := rfl
  have hsize : s.trimmed.inFlight.size = s.inFlight.size := rfl
  have hended : s.trimmed.streamTerminated = s.streamTerminated := rfl
  have herr : s.trimmed.pendingErr = s.pendingErr := rfl
  unfold select
  rw [hnext, hsize, hended, herr]
  split
  · rfl
  · rfl
  · split
    · rename_i hread
      obtain ⟨hopen, _⟩ := Bool.and_eq_true_iff.1 hread
      cases available with
      | true => exact readItem_trimmed (Bool.not_eq_true' _ ▸ hopen)
      | false => rfl
    · split
      · cases s.pendingErr with
        | some err => rfl
        | none => rfl
      · rfl

theorem poll_trimmed (s : Reader M) (available : Bool) :
    (s.poll parse available).trimmed = s.trimmed.poll parse available := by
  have hphase : s.trimmed.phase = s.phase := rfl
  have hdropped : s.trimmed.receiverDropped = s.receiverDropped := rfl
  have hchannel : s.trimmed.channel = s.channel := rfl
  unfold poll
  rw [hphase, hdropped, hchannel]
  split
  · exact select_trimmed s available
  · split
    · rfl
    · split
      · rfl
      · rfl
  · split
    · rfl
    · split
      · rfl
      · rfl
  · rfl
  · rfl

/-- What comes behind the end, and whether a large text is one, makes no difference to the task. -/
theorem step_trimmed (s : Reader M) (input : ReaderInput) : (s.step parse input).trimmed = s.trimmed.step parse input := by
  cases input with
  | finish place => rfl
  | dropReceiver => rfl
  | poll available => exact poll_trimmed s available
  | receive =>
    have hdropped : s.trimmed.receiverDropped = s.receiverDropped := rfl
    have hchannel : s.trimmed.channel = s.channel := rfl
    unfold step
    dsimp only
    rw [hdropped, hchannel]
    split
    · rfl
    · split
      · rfl
      · rfl

theorem final_trimmed (s : Reader M) (inputs : List ReaderInput) :
    (final (Reader.step parse) s inputs).trimmed = final (Reader.step parse) s.trimmed inputs := by
  induction inputs generalizing s with
  | nil => rfl
  | cons input rest ih => rw [final_cons, final_cons, ih, step_trimmed]

/-- The task sends what the websocket carries, in order, and while the handler listens it is not left before all of it is sent. -/
structure Delivers (parse : List UInt8 → Option M) (items : List WsItem) (s : Reader M) : Prop where
  running : s.phase ≠ .panicked
  sent : s.sent <+: serial parse items
  whole : s.receiverDropped = false → s.phase = .ended → s.sent = serial parse items
  ends : s.receiverDropped = false → (∀ input, input ≠ .dropReceiver → s.step parse input = s) → s.phase = .ended

theorem delivers_final (h : Previewed parse DecodedInline items) (inputs : List ReaderInput) :
    Delivers parse items (final (Reader.step parse) (.start items) inputs) := by
  have hreads : Reads parse ((upToEnd items).map unlogged) (final (Reader.step parse) (.start items) inputs).trimmed := by
    rw [final_trimmed]
    exact invariant_of_step _ (fun _ input h => h.step input) (reads_start (decodes_unlogged h)) inputs
  have hserial : serial parse ((upToEnd items).map unlogged) = serial parse items :=
    (serial_unlogged _).trans (serial_upToEnd items)
  refine ⟨hreads.running, ?_, ?_, ?_⟩
  · rw [← hserial]
    exact hreads.sent
  · intro hlistens hended
    have hsends := hreads.sends fun _ => hlistens
    have hahead : (final (Reader.step parse) (.start items) inputs).trimmed.ahead parse = [] := by
      unfold ahead
      split
      · rename_i hphase
        exact absurd (hended.symm.trans hphase) nofun
      · rename_i hphase
        exact absurd (hended.symm.trans hphase) nofun
      · rename_i hphase
        exact absurd (hended.symm.trans hphase) nofun
      · rfl
      · rfl
    rw [hahead, List.append_nil, hserial] at hsends
    exact hsends
  · intro hlistens hstuck
    apply hreads.ended_of_stuck hlistens
    intro input hinput
    rw [← step_trimmed, hstuck input hinput]

/-! #### A task that breaks -/

/-- The task waits for an item, and nothing is under way. -/
structure Idle (items : List WsItem) (s : Reader M) : Prop where
  items : s.items = items
  inFlight : s.inFlight = .empty
  quiet : s.streamTerminated = false
  phase : s.phase = .selecting
  channel : s.channel = []
  listens : s.receiverDropped = false

theorem Idle.step {item : WsItem} {rest : List WsItem} (h : Idle (item :: rest) s) :
    s.step parse (.poll true) = s.readItem parse := by
  have hnext : s.inFlight.next = none := by rw [h.inFlight]; rfl
  have hroom : (!s.streamTerminated && decide (s.inFlight.size < maxInFlightDecodes)) = true := by
    rw [h.quiet, h.inFlight]
    rfl
  rw [Reader.step, poll, h.phase]
  dsimp only
  rw [select, hnext]
  dsimp only
  rw [if_pos hroom, if_pos rfl]

/-- Once it has a decode to wait for, the task can come to wait for an item again. -/
theorem Idle.drains {rest : List WsItem} (h : Idle rest s) (job : Job (Except ConnectionError M)) :
    ∃ inputs, Idle rest (final (Reader.step parse) { s with inFlight := s.inFlight.submit job } inputs) := by
  obtain ⟨items, inFlight, streamTerminated, pendingErr, phase, channel, received, receiverDropped⟩ := s
  obtain ⟨rfl, rfl, rfl, rfl, rfl, rfl⟩ := h
  obtain ⟨res, finished⟩ := job
  cases res with
  | ok msg =>
    refine ⟨[.finish 0, .poll true, .poll true, .receive], ?_⟩
    exact ⟨rfl, rfl, rfl, rfl, rfl, rfl⟩
  | error err =>
    refine ⟨[.finish 0, .poll true], ?_⟩
    exact ⟨rfl, rfl, rfl, rfl, rfl, rfl⟩

theorem enqueue_eq (s : Reader M) (bytes : List UInt8) (length : Nat) (raw : Option String) :
    s.enqueue parse bytes length raw = { s with phase := .panicked } ∨
      ∃ job, s.enqueue parse bytes length raw = { s with inFlight := s.inFlight.submit job } := by
  unfold enqueue
  split
  · exact .inr ⟨_, rfl⟩
  · split
    · exact .inr ⟨_, rfl⟩
    · exact .inl rfl

theorem enqueue_of_breaks {text : String} (hbreaks : Breaks parse text) (hinline : DecodedInline text) (s : Reader M) :
    s.enqueue parse (wireBytes text) text.utf8ByteSize (some text) = { s with phase := .panicked } := by
  have hnone := (decodeMessage_eq_none_iff parse (wireBytes text) (some text)).mpr ⟨hbreaks.1, text, rfl, hbreaks.2⟩
  rw [enqueue, if_neg (Nat.not_le_of_lt hinline), hnone]

/-- A text that breaks the reading does so once it is read. -/
theorem Idle.panics {text : String} (hbreaks : Breaks parse text) (hinline : DecodedInline text) {items : List WsItem}
    {s : Reader M} (h : Idle items s) (hread : .ok (.text text) ∈ upToEnd items) :
    ∃ inputs, (final (Reader.step parse) s inputs).phase = .panicked := by
  induction items generalizing s with
  | nil => cases hread
  | cons item rest ih =>
    have hstep : final (Reader.step parse) s [.poll true] = s.readItem parse := h.step
    have hitems := h.items
    have hgoes : Idle rest { s with items := rest } := ⟨rfl, h.inFlight, h.quiet, h.phase, h.channel, h.listens⟩
    have hlater : ∀ {read : Reader M}, Idle rest read → .ok (.text text) ∈ upToEnd rest → s.readItem parse = read →
        ∃ inputs, (final (Reader.step parse) s inputs).phase = .panicked := by
      intro read hidle hmem heq
      obtain ⟨inputs, hpanics⟩ := ih hidle hmem
      refine ⟨[.poll true] ++ inputs, ?_⟩
      rw [final_append, hstep, heq]
      exact hpanics
    -- A frame that is decoded either panics now, or the task comes back from it.
    have hframe : ∀ bytes length raw, .ok (.text text) ∈ upToEnd rest →
        s.readItem parse = { s with items := rest }.enqueue parse bytes length raw →
          ∃ inputs, (final (Reader.step parse) s inputs).phase = .panicked := by
      intro bytes length raw hmem hread
      obtain heq | ⟨job, heq⟩ := @enqueue_eq _ parse { s with items := rest } bytes length raw
      · refine ⟨[.poll true], ?_⟩
        rw [hstep, hread, heq]
      · obtain ⟨before, hdrained⟩ := @Idle.drains _ parse _ _ hgoes job
        obtain ⟨inputs, hpanics⟩ := ih hdrained hmem
        refine ⟨[.poll true] ++ (before ++ inputs), ?_⟩
        rw [final_append, hstep, hread, heq, final_append]
        exact hpanics
    have htail : WsItem.ends item = false → item ≠ .ok (.text text) → .ok (.text text) ∈ upToEnd rest := by
      intro hends hne
      rw [upToEnd_cons hends] at hread
      exact (List.mem_cons.mp hread).resolve_left hne.symm
    match item with
    | .error err => cases List.mem_singleton.mp hread
    | .ok .close => cases List.mem_singleton.mp hread
    | .ok (.text head) =>
      by_cases hhead : head = text
      · refine ⟨[.poll true], ?_⟩
        rw [hstep, readItem, hitems, hhead]
        dsimp only
        rw [enqueue_of_breaks hbreaks hinline]
      · apply hframe (wireBytes head) head.utf8ByteSize (some head) (htail rfl (by simpa using hhead))
        rw [readItem, hitems]
    | .ok (.binary buf) =>
      apply hframe buf buf.length none (htail rfl nofun)
      rw [readItem, hitems]
    | .ok (.ping payload) =>
      apply hlater hgoes (htail rfl nofun)
      rw [readItem, hitems]
    | .ok (.pong payload) =>
      apply hlater hgoes (htail rfl nofun)
      rw [readItem, hitems]
    | .ok .frame =>
      apply hlater hgoes (htail rfl nofun)
      rw [readItem, hitems]

theorem delivers_iff_previewed (items : List WsItem) :
    (∀ inputs, Delivers parse items (final (Reader.step parse) (.start items) inputs)) ↔
      Previewed parse DecodedInline items := by
  constructor
  · intro h text hread hinline hbreaks
    have hidle : Idle items (Reader.start items : Reader M) := ⟨rfl, rfl, rfl, rfl, rfl, rfl⟩
    obtain ⟨inputs, hpanics⟩ := hidle.panics hbreaks hinline hread
    exact (h inputs).running hpanics
  · exact delivers_final

end Reader

/-! ### The stream -/

namespace Connection

/-- What is left to read of what matters after a poll of the websocket. -/
def leftOf (read : List WsItem × Polled M) : List WsItem :=
  match read.2 with
  | .item (.error _) | .done => []
  | _ => upToEnd read.1

theorem receive_eq_closed_iff (msg : WsMessage) : receive parse msg = .closed ↔ WsItem.ends (.ok msg) = true := by
  cases msg with
  | close => exact iff_of_true rfl rfl
  | text text =>
    refine iff_of_false ?_ Bool.false_ne_true
    rw [receive]
    split
    · simp
    · simp
    · simp
  | binary buf =>
    refine iff_of_false ?_ Bool.false_ne_true
    rw [receive]
    split
    · simp
    · simp
    · simp
  | ping payload =>
    refine iff_of_false ?_ Bool.false_ne_true
    intro hclosed
    cases hclosed
  | pong payload =>
    refine iff_of_false ?_ Bool.false_ne_true
    intro hclosed
    cases hclosed
  | frame =>
    refine iff_of_false ?_ Bool.false_ne_true
    intro hclosed
    cases hclosed

/-- A poll does not see what comes behind the end. -/
theorem readSkipping_upToEnd (available skips : Nat) (items : List WsItem) :
    readSkipping parse available skips (upToEnd items) =
      (leftOf (readSkipping parse available skips items), (readSkipping parse available skips items).2) := by
  induction items generalizing available skips with
  | nil =>
    cases available with
    | zero => rfl
    | succ available => rfl
  | cons item rest ih =>
    cases available with
    | zero =>
      have hne : upToEnd (item :: rest) ≠ [] := by
        rw [upToEnd]
        split
        · exact List.cons_ne_nil _ _
        · exact List.cons_ne_nil _ _
      obtain ⟨head, tail, heq⟩ := List.exists_cons_of_ne_nil hne
      rw [heq, readSkipping, readSkipping]
      exact congrArg (·, Polled.pending) heq.symm
    | succ available =>
      cases item with
      | error err => rfl
      | ok msg =>
        cases hends : WsItem.ends (.ok msg) with
        | true =>
          rw [upToEnd_cons_of_ends hends]
          have hclosed : receive parse msg = .closed := (receive_eq_closed_iff msg).mpr hends
          simp only [readSkipping, hclosed]
          rfl
        | false =>
          have hopen : receive parse msg ≠ .closed := mt (receive_eq_closed_iff msg).mp (by rw [hends]; simp)
          rw [upToEnd_cons hends]
          simp only [readSkipping]
          cases hreceived : receive parse msg with
          | message m => rfl
          | closed => exact absurd hreceived hopen
          | panicked => rfl
          | skipped =>
            dsimp only
            split
            · rfl
            · exact ih available (skips + 1)

/-! #### Writing does not see what is read -/

/-- The connection, on another websocket. -/
def withItems (c : Connection) (items : List WsItem) : Connection := { c with items := items }

theorem feed_withItems (c : Connection) (items : List WsItem) (sentAny : Bool)
    (sends : List (Except ConnectionError Unit)) :
    (c.withItems items).feed sentAny sends = ((c.feed sentAny sends).1.withItems items, (c.feed sentAny sends).2) := by
  induction sends generalizing c sentAny with
  | nil => rfl
  | cons sent rest ih =>
    obtain ⟨pendingCommands, read, nextId, needsFlush, fed⟩ := c
    cases pendingCommands with
    | nil => rfl
    | cons cmd commands =>
      cases sent with
      | error err => rfl
      | ok _ => exact ih ⟨commands, read, nextId, needsFlush, fed ++ [cmd]⟩ true

theorem feedAndFlush_withItems (c : Connection) (items : List WsItem) (env : SinkEnv) :
    (c.withItems items).feedAndFlush env = ((c.feedAndFlush env).1.withItems items, (c.feedAndFlush env).2) := by
  unfold feedAndFlush
  rw [feed_withItems]
  cases c.feed false env.sends with
  | mk fed sent =>
    cases sent with
    | error err => rfl
    | ok sentAny =>
      cases sentAny with
      | false => rfl
      | true =>
        dsimp only
        split
        · rfl
        · rfl
        · rfl

theorem startSendNext_withItems (c : Connection) (items : List WsItem) (env : SinkEnv) :
    (c.withItems items).startSendNext env = ((c.startSendNext env).1.withItems items, (c.startSendNext env).2) := by
  have hneeds : (c.withItems items).needsFlush = c.needsFlush := rfl
  unfold startSendNext
  rw [hneeds]
  split
  · split
    · exact feedAndFlush_withItems { c with needsFlush := false } items env
    · rfl
    · rfl
  · exact feedAndFlush_withItems c items env

end Connection

namespace Polling

variable {s : Polling M}

/-- The connection with only the items before it that matter. -/
def trimmed (s : Polling M) : Polling M :=
  { s with conn := s.conn.withItems (if s.stop = some .reading then [] else upToEnd s.conn.items) }

theorem step_trimmed (s : Polling M) (input : ConnectionInput) :
    (s.step parse input).trimmed = s.trimmed.step parse input := by
  obtain ⟨conn, yielded, stop⟩ := s
  cases stop with
  | some stop => rfl
  | none =>
    cases input with
    | submit req => rfl
    | poll env available =>
      have hwritten := conn.startSendNext_withItems (upToEnd conn.items) env
      have hitems := conn.items_startSendNext env
      have htrimmed : trimmed ⟨conn, yielded, none⟩ = ⟨conn.withItems (upToEnd conn.items), yielded, none⟩ := rfl
      rw [htrimmed]
      simp only [step, Option.isSome_none, Bool.false_eq_true, if_false, Connection.pollNext, hwritten]
      cases hsent : conn.startSendNext env with
      | mk written sent =>
        rw [hsent] at hitems
        rw [← hitems]
        cases sent with
        | some err => rfl
        | none =>
          dsimp only [Connection.withItems]
          rw [Connection.readSkipping_upToEnd]
          cases Connection.readSkipping parse available 0 written.items with
          | mk rest polled =>
            cases polled with
            | item result => cases result <;> rfl
            | done => rfl
            | pending => rfl
            | panicked => rfl

theorem final_trimmed (s : Polling M) (inputs : List ConnectionInput) :
    (final (Polling.step parse) s inputs).trimmed = final (Polling.step parse) s.trimmed inputs := by
  induction inputs generalizing s with
  | nil => rfl
  | cons input rest ih => rw [final_cons, final_cons, ih, step_trimmed]

/-- The connection yields what the websocket carries, in order, and at its end all of it, whatever becomes of the commands. -/
structure Delivers (parse : List UInt8 → Option M) (items : List WsItem) (s : Polling M) : Prop where
  running : s.stop ≠ some .panicked
  going : s.stop = none → s.yielded <+: serial parse items
  written : s.stop = some .writing → ∃ before err, s.yielded = before ++ [.error err] ∧ before <+: serial parse items
  whole : s.stop = some .reading → s.yielded = serial parse items

theorem delivers_final (h : Previewed parse (fun _ => True) items) (polls : List ConnectionInput) :
    Delivers parse items (final (Polling.step parse) (.start items) polls) := by
  have hserves : Serves parse (upToEnd items) (final (Polling.step parse) (.start items) polls).trimmed := by
    rw [final_trimmed]
    exact invariant_of_step _ (fun _ input h => h.step input) (serves_start (decodes_upToEnd h)) polls
  have hserial : serial parse (upToEnd items) = serial parse items := serial_upToEnd items
  refine ⟨hserves.panicked, ?_, ?_, ?_⟩
  · intro hstop
    rw [← hserial]
    exact ⟨_, hserves.going hstop⟩
  · intro hstop
    rw [← hserial]
    exact hserves.written hstop
  · intro hstop
    rw [← hserial]
    exact hserves.read hstop

/-- A poll for one item, with nothing to write. -/
def pollOnce : ConnectionInput := .poll ⟨.pending, [], .pending⟩ 1

theorem step_pollOnce {msg : WsMessage} {rest : List WsItem} (hgoing : s.stop = none) (hidle : s.conn.needsFlush = false)
    (hitems : s.conn.items = .ok msg :: rest) :
    match Connection.receive parse msg with
    | .message m =>
      s.step parse pollOnce = { s with conn := s.conn.withItems rest, yielded := s.yielded ++ [.ok m] }
    | .skipped => s.step parse pollOnce = { s with conn := s.conn.withItems rest }
    | .closed => WsItem.ends (.ok msg) = true
    | .panicked => (s.step parse pollOnce).stop = some .panicked := by
  obtain ⟨⟨pendingCommands, items, nextId, needsFlush, fed⟩, yielded, stop⟩ := s
  obtain rfl : stop = none := hgoing
  obtain rfl : needsFlush = false := hidle
  obtain rfl : items = .ok msg :: rest := hitems
  have hwritten : Connection.startSendNext ⟨pendingCommands, .ok msg :: rest, nextId, false, fed⟩ ⟨.pending, [], .pending⟩ =
      (⟨pendingCommands, .ok msg :: rest, nextId, false, fed⟩, none) := rfl
  cases hreceived : Connection.receive parse msg with
  | message m => simp [step, pollOnce, Connection.pollNext, hwritten, Connection.readSkipping, hreceived, Connection.withItems]
  | closed => exact (Connection.receive_eq_closed_iff msg).mp hreceived
  | panicked => simp [step, pollOnce, Connection.pollNext, hwritten, Connection.readSkipping, hreceived]
  | skipped =>
    have hpending : Connection.readSkipping parse 0 1 rest = (rest, .pending) := by
      cases rest with
      | nil => rfl
      | cons item rest => rfl
    simp [step, pollOnce, Connection.pollNext, hwritten, Connection.readSkipping, hreceived, hpending,
      Connection.withItems, Connection.maxSkipsPerPoll]

/-- A text that breaks the reading does so once it is read. -/
theorem panics {text : String} (hbreaks : Breaks parse text) {items : List WsItem} {s : Polling M}
    (hgoing : s.stop = none) (hidle : s.conn.needsFlush = false) (hitems : s.conn.items = items)
    (hread : .ok (.text text) ∈ upToEnd items) :
    ∃ polls, (final (Polling.step parse) s polls).stop = some .panicked := by
  induction items generalizing s with
  | nil => cases hread
  | cons item rest ih =>
    cases hends : WsItem.ends item with
    | true =>
      rw [upToEnd_cons_of_ends hends, List.mem_singleton] at hread
      rw [← hread] at hends
      cases hends
    | false =>
      rw [upToEnd_cons hends] at hread
      cases item with
      | error err => cases hends
      | ok msg =>
        have hstep := @step_pollOnce _ parse _ _ _ hgoing hidle hitems
        have hlater : ∀ s' : Polling M, Connection.receive parse msg ≠ .panicked → s'.stop = none →
            s'.conn.needsFlush = false → s'.conn.items = rest → s.step parse pollOnce = s' →
              ∃ polls, (final (Polling.step parse) s polls).stop = some .panicked := by
          intro s' hreceived hgoing' hidle' hitems' heq
          have hne : msg ≠ .text text := by
            intro hmsg
            have hnone := (decodeMessage_eq_none_iff parse (wireBytes text) (some text)).mpr
              ⟨hbreaks.1, text, rfl, hbreaks.2⟩
            apply hreceived
            rw [hmsg, Connection.receive, hnone]
          have hmem := (List.mem_cons.mp hread).resolve_left fun h => hne (Except.ok.inj h).symm
          obtain ⟨polls, hpanics⟩ := ih hgoing' hidle' hitems' hmem
          refine ⟨pollOnce :: polls, ?_⟩
          rw [final_cons, heq]
          exact hpanics
        cases hreceived : Connection.receive parse msg with
        | message m =>
          rw [hreceived] at hstep
          exact hlater { s with conn := s.conn.withItems rest, yielded := s.yielded ++ [.ok m] }
            (by rw [hreceived]; simp) hgoing hidle rfl hstep
        | skipped =>
          rw [hreceived] at hstep
          exact hlater { s with conn := s.conn.withItems rest } (by rw [hreceived]; simp) hgoing hidle rfl hstep
        | closed =>
          rw [hreceived] at hstep
          exact absurd (hends.symm.trans hstep) (by simp)
        | panicked =>
          rw [hreceived] at hstep
          exact ⟨[pollOnce], hstep⟩

theorem delivers_iff_previewed (items : List WsItem) :
    (∀ polls, Delivers parse items (final (Polling.step parse) (.start items) polls)) ↔
      Previewed parse (fun _ => True) items := by
  constructor
  · intro h text hread _ hbreaks
    obtain ⟨polls, hpanics⟩ := @panics _ parse _ hbreaks _ (.start items) rfl rfl rfl hread
    exact (h polls).running hpanics
  · exact delivers_final

end Polling

/-! ### A malformed frame -/

variable (parse) in
/-- A decode panics over the texts that are no message and cannot be cut after 512 bytes, and over nothing else. So the reader task delivers whatever the websocket carries exactly if it decodes no such text itself up to the end of the websocket, and the stream exactly if no such text comes up to there. -/
theorem malformed_harmless_iff :
    (∀ text, (decodeMessage parse (wireBytes text) (some text)).isSome = true ↔ ¬Breaks parse text) ∧
      (∀ buf, (decodeMessage parse buf none).isSome = true) ∧
      (∀ items, (∀ inputs, Reader.Delivers parse items (final (Reader.step parse) (.start items) inputs)) ↔
        Previewed parse DecodedInline items) ∧
      ∀ items, (∀ polls, Polling.Delivers parse items (final (Polling.step parse) (.start items) polls)) ↔
        Previewed parse (fun _ => True) items := by
  refine ⟨?_, ?_, Reader.delivers_iff_previewed, Polling.delivers_iff_previewed⟩
  · intro text
    constructor
    · intro hsome hbreaks
      have hnone := (decodeMessage_eq_none_iff parse (wireBytes text) (some text)).mpr ⟨hbreaks.1, text, rfl, hbreaks.2⟩
      rw [hnone] at hsome
      cases hsome
    · exact isSome_decode_of_not_breaks
  · intro buf
    obtain ⟨res, hres⟩ := @decode_unlogged _ parse buf
    rw [hres]
    rfl

/-- A task that starts with a text that breaks the reading does not get further. -/
theorem Reader.step_start_of_breaks {text : String} (hbreaks : Breaks parse text) (hinline : DecodedInline text)
    (rest : List WsItem) :
    Reader.step parse (.start (.ok (.text text) :: rest)) (.poll true) =
      { Reader.start rest with phase := .panicked } := by
  have hidle : Idle (.ok (.text text) :: rest) (Reader.start (.ok (.text text) :: rest) : Reader M) :=
    ⟨rfl, rfl, rfl, rfl, rfl, rfl⟩
  rw [hidle.step]
  exact enqueue_of_breaks hbreaks hinline (.start rest)

theorem Polling.step_start_of_breaks {text : String} (hbreaks : Breaks parse text) (rest : List WsItem) :
    Polling.step parse (.start (.ok (.text text) :: rest)) pollOnce = ⟨.new rest, [], some .panicked⟩ := by
  have hnone := (decodeMessage_eq_none_iff parse (wireBytes text) (some text)).mpr ⟨hbreaks.1, text, rfl, hbreaks.2⟩
  have hreceived : Connection.receive parse (.text text) = .panicked := by rw [Connection.receive, hnone]
  simp [step, start, pollOnce, Connection.pollNext, Connection.startSendNext, Connection.feedAndFlush, Connection.feed,
    Connection.new, Connection.readSkipping, hreceived]

def letters (n : Nat) : List Char := List.replicate n 'a'

theorem total_letters (n : Nat) : Pieces.total Char.utf8Size (letters n) = n := by
  have hone : Char.utf8Size 'a' = 1 := by decide
  simp [Pieces.total, letters, hone]

/-- Letters, and a character of two bytes behind them. -/
def cutAfter (n : Nat) : String := String.ofList (letters n ++ ['é'])

theorem cutsCharacter_cutAfter (n : Nat) : CutsCharacter (cutAfter n) (n + 1) := by
  have hlast : Char.utf8Size 'é' = 2 := by decide
  refine ⟨letters n, 'é', [], String.toList_ofList, ?_, ?_⟩
  · rw [total_letters]
    omega
  · rw [total_letters, hlast]
    omega

theorem utf8ByteSize_cutAfter (n : Nat) : (cutAfter n).utf8ByteSize = n + 2 := by
  have hlast : Char.utf8Size 'é' = 2 := by decide
  rw [cutAfter, utf8ByteSize_ofList, Pieces.total_append, total_letters, Pieces.total_cons, hlast, Pieces.total_nil]

theorem parsePlain_cutAfter {n : Nat} (h : 511 ≤ n) : parsePlain (wireBytes (cutAfter n)) = none := by
  have hother : ∀ text : String, text.utf8ByteSize < 513 → wireBytes (cutAfter n) ≠ wireBytes text := by
    intro text hshort heq
    have hlength : (cutAfter n).utf8ByteSize = text.utf8ByteSize := congrArg List.length heq
    rw [utf8ByteSize_cutAfter] at hlength
    omega
  rw [parsePlain, if_neg (hother _ (by decide)), if_neg (hother _ (by decide))]

/-- A response. -/
def plainResponse : WsItem := .ok (.text "\x7b\"id\":1,\"result\":\x7b\x7d\x7d")

/-- The decode of 511 letters and a character of two bytes panics, and the response behind them is neither sent by the reader task nor yielded by the stream. -/
theorem cutAfter_loses_response :
    decodeMessage parsePlain (wireBytes (cutAfter 511)) (some (cutAfter 511)) = none ∧
      (serial parsePlain [plainResponse]).length = 1 ∧
      Reader.step parsePlain (.start [.ok (.text (cutAfter 511)), plainResponse]) (.poll true) =
        { Reader.start [plainResponse] with phase := .panicked } ∧
      Polling.step parsePlain (.start [.ok (.text (cutAfter 511)), plainResponse]) Polling.pollOnce =
        ⟨.new [plainResponse], [], some .panicked⟩ := by
  have hbreaks : Breaks parsePlain (cutAfter 511) := ⟨parsePlain_cutAfter (Nat.le_refl _), cutsCharacter_cutAfter 511⟩
  have hinline : DecodedInline (cutAfter 511) := by
    rw [DecodedInline, utf8ByteSize_cutAfter, largeFrameThreshold]
    omega
  refine ⟨?_, by decide +kernel, ?_, ?_⟩
  · exact (decodeMessage_eq_none_iff parsePlain _ _).mpr ⟨hbreaks.1, _, rfl, hbreaks.2⟩
  · exact Reader.step_start_of_breaks hbreaks hinline _
  · exact Polling.step_start_of_breaks hbreaks _

end SpiderChrome
