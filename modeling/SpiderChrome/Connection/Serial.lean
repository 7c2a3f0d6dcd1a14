import SpiderChrome.Connection.Reader

/-!
# Reading in order

Whoever reads the connection gets the messages of its frames one after another up to the end of the websocket, and its error if it ends with one. So it is with the stream, and so it is with the reader task, in whatever order the decodes finish on other threads: what the task has sent, and what its pipeline and the websocket still hold, are together the same throughout.
-/

namespace SpiderChrome

variable {M : Type} (parse : List UInt8 → Option M)

/-! ### What a websocket carries -/

/-- The message of a frame. -/
def carried : WsMessage → Option M
  | .text text => parse (wireBytes text)
  | .binary buf => parse buf
  | _ => none

/-- The messages of the frames in order, up to the end of the websocket, and the error that it ends with. -/
def serial : List WsItem → List (Except ConnectionError M)
  | [] => []
  | .error err :: _ => [.error (.ws err)]
  | .ok .close :: _ => []
  | .ok msg :: rest => ((carried parse msg).toList.map .ok) ++ serial rest

/-- No text of the websocket makes its decode panic. -/
def Decodes (items : List WsItem) : Prop :=
  ∀ item ∈ items, match item with
    | .ok (.text text) => (decodeMessage parse (wireBytes text) (some text)).isSome = true
    | _ => True

instance (items : List WsItem) : Decidable (Decodes parse items) :=
  @List.decidableBAll _ _ (fun item => match item with
    | .ok (.text _) => inferInstanceAs (Decidable (_ = true))
    | .ok (.binary _) | .ok (.ping _) | .ok (.pong _) | .ok .close | .ok .frame | .error _ => .isTrue trivial) items

/-- What of a decode is passed on. -/
def passed : Except ConnectionError M → List (Except ConnectionError M)
  | .ok msg => [.ok msg]
  | .error _ => []

variable {parse}

theorem passed_of_decode {bytes : List UInt8} {raw : Option String} {res : Except ConnectionError M}
    (h : decodeMessage parse bytes raw = some res) : passed res = (parse bytes).toList.map .ok := by
  unfold decodeMessage at h
  split at h
  · rename_i msg hparse
    rw [← Option.some.inj h, hparse]
    rfl
  · rename_i hparse
    rw [hparse]
    split at h
    · split at h
      · rw [← Option.some.inj h]
        rfl
      · cases h
    · rw [← Option.some.inj h]
      rfl

/-- A decode without a text for its log does not panic. -/
theorem decode_unlogged (bytes : List UInt8) : ∃ res, decodeMessage parse bytes none = some res := by
  unfold decodeMessage
  split
  · exact ⟨_, rfl⟩
  · exact ⟨_, rfl⟩

theorem Decodes.tail {item : WsItem} {rest : List WsItem} (h : Decodes parse (item :: rest)) : Decodes parse rest :=
  fun x hx => h x (List.mem_cons_of_mem _ hx)

theorem Decodes.text {text : String} {rest : List WsItem} (h : Decodes parse (.ok (.text text) :: rest)) :
    ∃ res, decodeMessage parse (wireBytes text) (some text) = some res :=
  Option.isSome_iff_exists.1 (h _ List.mem_cons_self)

/-! ### The stream -/

namespace Connection

/-- What a frame is received as, against what it carries. -/
theorem receive_cases {msg : WsMessage} {rest : List WsItem} (h : Decodes parse (.ok msg :: rest)) :
    match receive parse msg with
    | .message m => serial parse (.ok msg :: rest) = .ok m :: serial parse rest
    | .closed => serial parse (.ok msg :: rest) = []
    | .skipped => serial parse (.ok msg :: rest) = serial parse rest
    | .panicked => False := by
  have hdecoded : ∀ {bytes : List UInt8} {raw : Option String} {res : Except ConnectionError M},
      decodeMessage parse bytes raw = some res → carried parse msg = parse bytes → msg ≠ .close →
        serial parse (.ok msg :: rest) = passed res ++ serial parse rest := by
    intro bytes raw res hres hcarried hopen
    rw [passed_of_decode hres, ← hcarried]
    cases msg with
    | close => exact absurd rfl hopen
    | _ => rfl
  cases msg with
  | text text =>
    obtain ⟨res, hres⟩ := h.text
    have hserial := hdecoded hres rfl nofun
    cases res with
    | ok m =>
      simp only [receive, hres]
      exact hserial
    | error err =>
      simp only [receive, hres]
      exact hserial
  | binary buf =>
    obtain ⟨res, hres⟩ := @decode_unlogged _ parse buf
    have hserial := hdecoded hres rfl nofun
    cases res with
    | ok m =>
      simp only [receive, hres]
      exact hserial
    | error err =>
      simp only [receive, hres]
      exact hserial
  | ping payload | pong payload => rfl
  | close => rfl
  | frame => rfl

/-- What a poll of the websocket comes to is the next of what the websocket carries. -/
theorem readSkipping_serial {items : List WsItem} (h : Decodes parse items) (available skips : Nat) :
    Decodes parse (readSkipping parse available skips items).1 ∧
      match readSkipping parse available skips items with
      | (rest, .item (.ok m)) => serial parse items = .ok m :: serial parse rest
      | (_, .item (.error err)) => serial parse items = [.error err]
      | (_, .done) => serial parse items = []
      | (rest, .pending) => serial parse items = serial parse rest
      | (_, .panicked) => False := by
  induction items generalizing available skips with
  | nil =>
    cases available with
    | zero => exact ⟨h, rfl⟩
    | succ available => exact ⟨h, rfl⟩
  | cons item rest ih =>
    cases available with
    | zero => exact ⟨h, rfl⟩
    | succ available =>
      cases item with
      | error err => exact ⟨h.tail, rfl⟩
      | ok msg =>
        have hreceived := receive_cases h
        simp only [readSkipping]
        split
        · rename_i m hm
          rw [hm] at hreceived
          exact ⟨h.tail, hreceived⟩
        · rename_i hm
          rw [hm] at hreceived
          exact ⟨h.tail, hreceived⟩
        · rename_i hm
          rw [hm] at hreceived
          exact absurd hreceived id
        · rename_i hm
          rw [hm] at hreceived
          split
          · exact ⟨h.tail, hreceived⟩
          · rw [hreceived]
            exact ih h.tail available (skips + 1)

theorem length_readSkipping_le (available skips : Nat) (items : List WsItem) :
    (readSkipping parse available skips items).1.length ≤ items.length := by
  induction items generalizing available skips with
  | nil => exact Nat.le_of_eq (by rw [readSkipping])
  | cons item rest ih =>
    cases available with
    | zero => exact Nat.le_refl _
    | succ available =>
      cases item with
      | error err => exact Nat.le_succ _
      | ok msg =>
        simp only [readSkipping]
        split
        · exact Nat.le_succ _
        · exact Nat.le_succ _
        · exact Nat.le_succ _
        · split
          · exact Nat.le_succ _
          · exact Nat.le_succ_of_le (ih available (skips + 1))

/-- A poll that finds an item at all reads one, or comes to the end. -/
theorem length_readSkipping_lt (available : Nat) {items : List WsItem} (hitems : items ≠ []) (skips : Nat) :
    (readSkipping parse (available + 1) skips items).1.length < items.length := by
  cases items with
  | nil => exact absurd rfl hitems
  | cons item rest =>
    cases item with
    | error err => exact Nat.lt_succ_self _
    | ok msg =>
      simp only [readSkipping]
      split
      · exact Nat.lt_succ_self _
      · exact Nat.lt_succ_self _
      · exact Nat.lt_succ_self _
      · split
        · exact Nat.lt_succ_self _
        · exact Nat.lt_succ_of_le (length_readSkipping_le available (skips + 1) rest)

/-! ### Writing leaves what is read alone -/

theorem items_feed (c : Connection) (sentAny : Bool) (sends : List (Except ConnectionError Unit)) :
    (c.feed sentAny sends).1.items = c.items := by
  induction sends generalizing c sentAny with
  | nil => rfl
  | cons sent rest ih =>
    simp only [feed]
    split
    · rfl
    · split
      · exact ih _ _
      · rfl

theorem items_feedAndFlush (c : Connection) (env : SinkEnv) : (c.feedAndFlush env).1.items = c.items := by
  have hfed := c.items_feed false env.sends
  unfold feedAndFlush
  split
  · rename_i heq
    rw [heq] at hfed
    exact hfed
  · rename_i heq
    rw [heq] at hfed
    exact hfed
  · rename_i heq
    rw [heq] at hfed
    split
    · exact hfed
    · exact hfed
    · exact hfed

theorem items_startSendNext (c : Connection) (env : SinkEnv) : (c.startSendNext env).1.items = c.items := by
  unfold startSendNext
  split
  · split
    · exact items_feedAndFlush _ env
    · rfl
    · rfl
  · exact c.items_feedAndFlush env

end Connection

/-! ### A connection that is polled -/

/-- Why a connection is polled no more: it has come to the end of the websocket, or has yielded its error, or that of a command that could not be written, or it has panicked. -/
inductive Stop where
  | reading
  | writing
  | panicked
deriving DecidableEq

/-- A connection with what it has yielded, until it yields `None` or an error. -/
structure Polling (M : Type) where
  conn : Connection
  yielded : List (Except ConnectionError M)
  stop : Option Stop

inductive ConnectionInput where
  | submit (req : Request)
  | poll (env : SinkEnv) (available : Nat)

/-- A poll that the websocket has an item for, or its end. -/
def ConnectionInput.finds : ConnectionInput → Bool
  | .poll _ (_ + 1) => true
  | _ => false

namespace Polling

def start (items : List WsItem) : Polling M := ⟨.new items, [], none⟩

variable (parse) in
def step (s : Polling M) (input : ConnectionInput) : Polling M :=
  if s.stop.isSome then s
  else match input with
    | .submit req => { s with conn := (s.conn.submitCommand req).1 }
    | .poll env available =>
      match s.conn.pollNext parse env available with
      | (conn, .item (.ok msg)) => { s with conn := conn, yielded := s.yielded ++ [.ok msg] }
      | (conn, .item (.error err)) =>
        { conn := conn
          yielded := s.yielded ++ [.error err]
          stop := some (if (s.conn.startSendNext env).2.isSome then .writing else .reading) }
      | (conn, .done) => { s with conn := conn, stop := some .reading }
      | (conn, .pending) => { s with conn := conn }
      | (conn, .panicked) => { s with conn := conn, stop := some .panicked }

/-- A poll fails with what could not be written, or goes by what the websocket has. -/
theorem step_poll (conn : Connection) (yielded : List (Except ConnectionError M)) (env : SinkEnv) (available : Nat) :
    (∃ sent err, sent.items = conn.items ∧
      step parse ⟨conn, yielded, none⟩ (.poll env available) = ⟨sent, yielded ++ [.error err], some .writing⟩) ∨
    ∃ sent polled, Connection.readSkipping parse available 0 conn.items = (sent.items, polled) ∧
      step parse ⟨conn, yielded, none⟩ (.poll env available) =
        match polled with
        | .item (.ok msg) => ⟨sent, yielded ++ [.ok msg], none⟩
        | .item (.error err) => ⟨sent, yielded ++ [.error err], some .reading⟩
        | .done => ⟨sent, yielded, some .reading⟩
        | .pending => ⟨sent, yielded, none⟩
        | .panicked => ⟨sent, yielded, some .panicked⟩ := by
  have hitems := conn.items_startSendNext env
  simp only [step, Option.isSome_none, Bool.false_eq_true, if_false, Connection.pollNext]
  cases hsent : conn.startSendNext env with
  | mk sent failed =>
    rw [hsent] at hitems
    rw [← hitems]
    cases failed with
    | some err => exact .inl ⟨sent, err, rfl, rfl⟩
    | none =>
      dsimp only
      cases Connection.readSkipping parse available 0 sent.items with
      | mk rest polled =>
        refine .inr ⟨{ sent with items := rest }, polled, rfl, ?_⟩
        match polled with
        | .item (.ok msg) => rfl
        | .item (.error err) => rfl
        | .done => rfl
        | .pending => rfl
        | .panicked => rfl

/-- What is yielded is what the websocket carried so far. If a command could not be written, its error comes after that. -/
structure Serves (parse : List UInt8 → Option M) (items : List WsItem) (s : Polling M) : Prop where
  decodes : Decodes parse s.conn.items
  going : s.stop = none → s.yielded ++ serial parse s.conn.items = serial parse items
  read : s.stop = some .reading → s.yielded = serial parse items
  written : s.stop = some .writing → ∃ before err, s.yielded = before ++ [.error err] ∧ before <+: serial parse items
  panicked : s.stop ≠ some .panicked

theorem Serves.step {items : List WsItem} {s : Polling M} (h : Serves parse items s) (input : ConnectionInput) :
    Serves parse items (s.step parse input) := by
  obtain ⟨conn, yielded, stop⟩ := s
  cases stop with
  | some stop => exact h
  | none =>
    have hgoing := h.going rfl
    cases input with
    | submit req => exact ⟨h.decodes, fun _ => hgoing, nofun, nofun, nofun⟩
    | poll env available =>
      obtain ⟨sent, err, hitems, hstep⟩ | ⟨sent, polled, hread, hstep⟩ := step_poll conn yielded env available
      · rw [hstep]
        exact ⟨hitems ▸ h.decodes, nofun, nofun, fun _ => ⟨yielded, err, rfl, _, hgoing⟩, nofun⟩
      · obtain ⟨hrest, hserial⟩ := Connection.readSkipping_serial h.decodes available 0
        rw [hread] at hrest hserial
        rw [hstep]
        cases polled with
        | item res =>
          cases res with
          | ok msg =>
            have hserial : serial parse conn.items = .ok msg :: serial parse sent.items := hserial
            rw [hserial] at hgoing
            refine ⟨hrest, fun _ => ?_, nofun, nofun, nofun⟩
            rw [← hgoing, List.append_assoc]
            rfl
          | error err =>
            have hserial : serial parse conn.items = [.error err] := hserial
            rw [hserial] at hgoing
            exact ⟨hrest, nofun, fun _ => hgoing, nofun, nofun⟩
        | done =>
          have hserial : serial parse conn.items = [] := hserial
          rw [hserial, List.append_nil] at hgoing
          exact ⟨hrest, nofun, fun _ => hgoing, nofun, nofun⟩
        | pending =>
          have hserial : serial parse conn.items = serial parse sent.items := hserial
          rw [hserial] at hgoing
          exact ⟨hrest, fun _ => hgoing, nofun, nofun, nofun⟩
        | panicked => exact absurd hserial id

theorem serves_start {items : List WsItem} (h : Decodes parse items) : Serves parse items (start items) :=
  ⟨h, fun _ => rfl, nofun, nofun, nofun⟩

/-- A poll that finds an item reads one, or is the last. -/
theorem stops_or_reads (s : Polling M) (input : ConnectionInput) :
    (s.step parse input).stop.isSome = true ∨
      (s.step parse input).conn.items.length + (if input.finds then 1 else 0) ≤ s.conn.items.length := by
  obtain ⟨conn, yielded, stop⟩ := s
  cases stop with
  | some stop => exact .inl rfl
  | none =>
    cases input with
    | submit req => exact .inr (Nat.le_refl _)
    | poll env available =>
      obtain ⟨sent, err, -, hstep⟩ | ⟨sent, polled, hread, hstep⟩ := @step_poll _ parse conn yielded env available
      · rw [hstep]
        exact .inl rfl
      · have hless : polled = .done ∨
            sent.items.length + (if (ConnectionInput.poll env available).finds then 1 else 0) ≤ conn.items.length := by
          cases available with
          | zero =>
            have hle := @Connection.length_readSkipping_le _ parse 0 0 conn.items
            rw [hread] at hle
            exact .inr hle
          | succ available =>
            by_cases hnil : conn.items = []
            · rw [hnil] at hread
              exact .inl (congrArg Prod.snd hread).symm
            · have hlt := @Connection.length_readSkipping_lt _ parse available _ hnil 0
              rw [hread] at hlt
              exact .inr hlt
        rw [hstep]
        cases polled with
        | item res =>
          cases res with
          | ok msg => exact .inr (hless.resolve_left nofun)
          | error err => exact .inl rfl
        | done => exact .inl rfl
        | pending => exact .inr (hless.resolve_left nofun)
        | panicked => exact .inl rfl

/-- A connection is at its end when more polls found an item than the websocket had. -/
theorem stopped_of_finds {s : Polling M} {inputs : List ConnectionInput}
    (h : s.conn.items.length < inputs.countP ConnectionInput.finds) :
    (Run.final (Polling.step parse) s inputs).stop.isSome = true := by
  have hstays : ∀ (s : Polling M) input, s.stop.isSome = true → (s.step parse input).stop.isSome = true := by
    intro s input hstop
    unfold Polling.step
    rw [if_pos hstop]
    exact hstop
  have hruns : ∀ (inputs : List ConnectionInput) (s : Polling M),
      (Run.final (Polling.step parse) s inputs).stop.isSome = true ∨
        (Run.final (Polling.step parse) s inputs).conn.items.length + inputs.countP ConnectionInput.finds ≤
          s.conn.items.length := by
    intro inputs
    induction inputs with
    | nil => exact fun s => .inr (Nat.le_refl _)
    | cons input rest ih =>
      intro s
      rw [Run.final_cons]
      obtain hstop | hrest := ih (s.step parse input)
      · exact .inl hstop
      · obtain hnow | hread := s.stops_or_reads input
        · left
          exact Run.invariant_of_step (fun s : Polling M => s.stop.isSome = true) hstays hnow rest
        · right
          rw [List.countP_cons]
          omega
  exact (hruns inputs s).resolve_right (by omega)

end Polling

/-! ### The reader task -/

namespace Reader

/-- What the websocket will still yield for the task, its error included. -/
def unread (parse : List UInt8 → Option M) (s : Reader M) : List (Except ConnectionError M) :=
  if s.streamTerminated then s.pendingErr.toList.map .error else serial parse s.items

/-- What the pipeline and the websocket still hold. -/
def queued (parse : List UInt8 → Option M) (s : Reader M) : List (Except ConnectionError M) :=
  s.inFlight.results.flatMap passed ++ s.unread parse

/-- What the task will still send. -/
def ahead (parse : List UInt8 → Option M) (s : Reader M) : List (Except ConnectionError M) :=
  match s.phase with
  | .selecting => s.queued parse
  | .emitting msg => .ok msg :: s.queued parse
  | .failing err => [.error err]
  | .ended | .panicked => []

/-- The task will send what the websocket carries and it has not sent, unless nobody listens any more. -/
structure Reads (parse : List UInt8 → Option M) (items : List WsItem) (s : Reader M) : Prop where
  decodes : Decodes parse s.items
  bounded : s.inFlight.size ≤ maxInFlightDecodes
  quiet : s.streamTerminated = false → s.pendingErr = none
  running : s.phase ≠ .panicked
  sent : s.sent <+: serial parse items
  whole : s.sent ++ s.ahead parse = serial parse items ∨ s.phase = .ended ∧ s.receiverDropped = true

variable {items : List WsItem} {s : Reader M}

/-- A frame is decoded in the loop or on another thread, and its place in the pipeline is the same. -/
theorem enqueue_queued {bytes : List UInt8} {length : Nat} {raw : Option String}
    (hdecodes : ∃ res, decodeMessage parse bytes raw = some res) :
    (s.enqueue parse bytes length raw).inFlight.results.flatMap passed =
        s.inFlight.results.flatMap passed ++ (parse bytes).toList.map .ok ∧
      ∃ job, s.enqueue parse bytes length raw = { s with inFlight := s.inFlight.submit job } := by
  unfold enqueue
  split
  · obtain ⟨res, hres⟩ := @decode_unlogged _ parse bytes
    refine ⟨?_, _, rfl⟩
    simp only [Pipeline.results_submit, List.flatMap_append, List.flatMap_singleton, decodeBlocking, hres,
      passed_of_decode hres]
  · obtain ⟨res, hres⟩ := hdecodes
    rw [hres]
    refine ⟨?_, _, rfl⟩
    simp only [Pipeline.results_submit, List.flatMap_append, List.flatMap_singleton, passed_of_decode hres]

/-- What the task has still to do. -/
def work (s : Reader M) : Nat :=
  7 * s.items.length + 3 * s.inFlight.work + (if s.streamTerminated then 0 else 1) +
    (match s.phase with
      | .selecting => 3
      | .emitting _ => 5
      | .failing _ => 2
      | .ended | .panicked => 0) +
    s.channel.length + (if s.receiverDropped then 0 else 1)

/-- The task has read an item, and holds the same as before. -/
structure ReadsOn (parse : List UInt8 → Option M) (s s' : Reader M) : Prop where
  same : s' = { s with
    items := s'.items
    inFlight := s'.inFlight
    streamTerminated := s'.streamTerminated
    pendingErr := s'.pendingErr }
  decodes : Decodes parse s'.items
  size : s'.inFlight.size ≤ s.inFlight.size + 1
  quiet : s'.streamTerminated = false → s'.pendingErr = none
  queued : s'.queued parse = s.queued parse
  work : s'.work < s.work

theorem readsOn_enqueue {msg : WsMessage} {rest : List WsItem} (hitems : s.items = .ok msg :: rest)
    (hdecodes : Decodes parse s.items) (hopen : s.streamTerminated = false) (hquiet : s.pendingErr = none)
    {bytes : List UInt8} {length : Nat} {raw : Option String}
    (hdecoded : ∃ res, decodeMessage parse bytes raw = some res) (hcarried : carried parse msg = parse bytes)
    (hframe : msg ≠ .close) : ReadsOn parse s ({ s with items := rest }.enqueue parse bytes length raw) := by
  obtain ⟨hqueued, job, heq⟩ := @enqueue_queued M parse { s with items := rest } bytes length raw hdecoded
  have hserial : serial parse s.items = (parse bytes).toList.map .ok ++ serial parse rest := by
    rw [hitems, ← hcarried]
    cases msg with
    | close => exact absurd rfl hframe
    | _ => rfl
  rw [heq] at hqueued ⊢
  refine ⟨rfl, (hitems ▸ hdecodes).tail, Nat.le_of_eq (Pipeline.size_submit _ _), fun _ => hquiet, ?_, ?_⟩
  · unfold Reader.queued unread
    rw [hqueued, hopen, hserial]
    simp
  · have hwork := s.inFlight.work_submit_le job
    simp only [Reader.work, hitems, List.length_cons]
    omega

theorem readsOn_skip {msg : WsMessage} {rest : List WsItem} (hitems : s.items = .ok msg :: rest)
    (hdecodes : Decodes parse s.items) (hopen : s.streamTerminated = false) (hquiet : s.pendingErr = none)
    (hserial : serial parse s.items = serial parse rest) : ReadsOn parse s { s with items := rest } := by
  refine ⟨rfl, (hitems ▸ hdecodes).tail, Nat.le_succ _, fun _ => hquiet, ?_, ?_⟩
  · unfold Reader.queued unread
    rw [hopen, hserial]
  · simp only [Reader.work, hitems, List.length_cons]
    omega

theorem readsOn_readItem (hdecodes : Decodes parse s.items) (hopen : s.streamTerminated = false)
    (hquiet : s.pendingErr = none) : ReadsOn parse s (s.readItem parse) := by
  unfold readItem
  split
  · rename_i text rest hitems
    exact readsOn_enqueue hitems hdecodes hopen hquiet (hitems ▸ hdecodes).text rfl nofun
  · rename_i buf rest hitems
    exact readsOn_enqueue hitems hdecodes hopen hquiet (decode_unlogged buf) rfl nofun
  · rename_i rest hitems
    refine ⟨rfl, (hitems ▸ hdecodes).tail, Nat.le_succ _, nofun, ?_, ?_⟩
    · unfold Reader.queued unread
      rw [hopen, hitems, hquiet]
      rfl
    · simp only [Reader.work, hitems, hopen, List.length_cons, if_true]
      omega
  · rename_i payload rest hitems
    exact readsOn_skip hitems hdecodes hopen hquiet (hitems ▸ rfl)
  · rename_i payload rest hitems
    exact readsOn_skip hitems hdecodes hopen hquiet (hitems ▸ rfl)
  · rename_i rest hitems
    exact readsOn_skip hitems hdecodes hopen hquiet (hitems ▸ rfl)
  · rename_i err rest hitems
    refine ⟨rfl, (hitems ▸ hdecodes).tail, Nat.le_succ _, nofun, ?_, ?_⟩
    · unfold Reader.queued unread
      rw [hopen, hitems]
      rfl
    · simp only [Reader.work, hitems, hopen, List.length_cons, if_true]
      omega
  · rename_i hitems
    refine ⟨rfl, hdecodes, Nat.le_succ _, nofun, ?_, ?_⟩
    · unfold Reader.queued unread
      rw [hopen, hitems, hquiet]
      rfl
    · simp only [Reader.work, hopen, if_true, Bool.false_eq_true, if_false]
      omega

/-- What a turn of the `select!` comes to: a result is passed on or dropped, an item is read, the loop is left, or the task waits. -/
theorem select_cases (h : Reads parse items s) (available : Bool) :
    (∃ msg inFlight, s.inFlight.next = some (.ok msg, inFlight) ∧
      s.select parse available = { s with inFlight := inFlight, phase := .emitting msg }) ∨
    (∃ err inFlight, s.inFlight.next = some (.error err, inFlight) ∧
      s.select parse available = { s with inFlight := inFlight }) ∨
    (s.inFlight.size < maxInFlightDecodes ∧ ReadsOn parse s (s.readItem parse) ∧ available = true ∧
      s.select parse available = s.readItem parse) ∨
    (s.queued parse = s.pendingErr.toList.map .error ∧
      s.select parse available = { s with phase := match s.pendingErr with
        | some err => .failing err
        | none => .ended }) ∨
    s.select parse available = s ∧ s.inFlight.next = none ∧
      (s.inFlight.size ≠ 0 ∨ s.streamTerminated = false ∧ available = false) := by
  unfold select
  split
  · rename_i msg inFlight hnext
    exact .inl ⟨msg, inFlight, hnext, rfl⟩
  · rename_i err inFlight hnext
    exact .inr (.inl ⟨err, inFlight, hnext, rfl⟩)
  · rename_i hnext
    split
    · rename_i hread
      obtain ⟨hopen, hroom⟩ := Bool.and_eq_true_iff.1 hread
      have hopen : s.streamTerminated = false := Bool.not_eq_true' _ ▸ hopen
      cases available with
      | true =>
        exact .inr (.inr (.inl ⟨of_decide_eq_true hroom, readsOn_readItem h.decodes hopen (h.quiet hopen), rfl, rfl⟩))
      | false => exact .inr (.inr (.inr (.inr ⟨rfl, hnext, .inr ⟨hopen, rfl⟩⟩)))
    · rename_i hread
      split
      · rename_i hsize
        have hended : s.streamTerminated = true := by
          cases hopen : s.streamTerminated with
          | true => rfl
          | false =>
            rw [hopen, hsize] at hread
            exact absurd rfl hread
        have hqueued : s.queued parse = s.pendingErr.toList.map .error := by
          have hnone : s.inFlight.results = [] := List.length_eq_zero_iff.1 (by
            simpa [Pipeline.results, Pipeline.size] using hsize)
          rw [queued, unread, hended, hnone]
          rfl
        refine .inr (.inr (.inr (.inl ⟨hqueued, ?_⟩)))
        cases s.pendingErr with
        | some err => rfl
        | none => rfl
      · rename_i hsize
        exact .inr (.inr (.inr (.inr ⟨rfl, hnext, .inl hsize⟩)))

/-- Taking a result from the pipeline. -/
theorem queued_of_next {res : Except ConnectionError M} {inFlight : Pipeline (Except ConnectionError M)}
    (hnext : s.inFlight.next = some (res, inFlight)) :
    s.queued parse = passed res ++ { s with inFlight := inFlight }.queued parse := by
  unfold queued unread
  rw [Pipeline.results_of_next hnext, List.flatMap_cons, List.append_assoc]

theorem Reads.sends (h : Reads parse items s) (hends : s.phase = .ended → s.receiverDropped = false) :
    s.sent ++ s.ahead parse = serial parse items :=
  h.whole.resolve_right fun ⟨hended, hdropped⟩ => by
    rw [hends hended] at hdropped
    cases hdropped

/-- The task goes on to send what it was to send. -/
theorem reads_goes {s' : Reader M} (hwhole : s.sent ++ s.ahead parse = serial parse items)
    (hdecodes : Decodes parse s'.items) (hbounded : s'.inFlight.size ≤ maxInFlightDecodes)
    (hquiet : s'.streamTerminated = false → s'.pendingErr = none) (hrunning : s'.phase ≠ .panicked)
    (hsame : s'.sent ++ s'.ahead parse = s.sent ++ s.ahead parse) : Reads parse items s' :=
  ⟨hdecodes, hbounded, hquiet, hrunning, ⟨_, hsame.trans hwhole⟩, .inl (hsame.trans hwhole)⟩

theorem Reads.select (h : Reads parse items s) (hphase : s.phase = .selecting) (available : Bool) :
    Reads parse items (s.select parse available) := by
  have hwhole := h.sends (by rw [hphase]; simp)
  have hahead : s.ahead parse = s.queued parse := by rw [ahead, hphase]
  obtain ⟨msg, inFlight, hnext, heq⟩ | ⟨err, inFlight, hnext, heq⟩ | ⟨hroom, hread, _, heq⟩ | ⟨hqueued, heq⟩ |
    ⟨heq, _⟩ := select_cases h available
  · have hsize := Pipeline.size_of_next hnext
    have hbounded := h.bounded
    rw [heq]
    refine reads_goes hwhole h.decodes (by show inFlight.size ≤ _; omega) h.quiet (by simp) ?_
    rw [hahead, queued_of_next hnext]
    rfl
  · have hsize := Pipeline.size_of_next hnext
    have hbounded := h.bounded
    rw [heq]
    refine reads_goes hwhole h.decodes (by show inFlight.size ≤ _; omega) h.quiet h.running ?_
    rw [hahead, queued_of_next hnext, ahead, hphase]
    rfl
  · have hsize := hread.size
    have hphase' : (s.readItem parse).phase = .selecting := by rw [hread.same]; exact hphase
    have hsent : (s.readItem parse).sent = s.sent := by rw [hread.same]; rfl
    rw [heq]
    refine reads_goes hwhole hread.decodes (by omega) hread.quiet (by rw [hphase']; simp) ?_
    rw [hahead, ahead, hphase', hsent]
    exact congrArg _ hread.queued
  · rw [heq]
    cases hpending : s.pendingErr with
    | some err =>
      refine reads_goes hwhole h.decodes h.bounded (fun hopen => hpending.symm.trans (h.quiet hopen)) (by simp) ?_
      rw [hahead, hqueued, hpending]
      rfl
    | none =>
      refine reads_goes hwhole h.decodes h.bounded (fun _ => rfl) (by simp) ?_
      rw [hahead, hqueued, hpending]
      rfl
  · rw [heq]
    exact h

/-- A task whose channel nobody listens to leaves without sending the rest. -/
theorem Reads.leaves (h : Reads parse items s) (hdropped : s.receiverDropped = true) :
    Reads parse items { s with phase := .ended } :=
  ⟨h.decodes, h.bounded, h.quiet, nofun, h.sent, .inr ⟨rfl, hdropped⟩⟩

theorem Reads.poll (h : Reads parse items s) (available : Bool) : Reads parse items (s.poll parse available) := by
  unfold Reader.poll
  split
  · rename_i hphase
    exact h.select hphase available
  · rename_i msg hphase
    have hwhole := h.sends (by rw [hphase]; simp)
    split
    · rename_i hdropped
      exact h.leaves hdropped
    · split
      · refine reads_goes hwhole h.decodes h.bounded h.quiet (by simp) ?_
        have hahead : s.ahead parse = .ok msg :: s.queued parse := by rw [ahead, hphase]
        rw [hahead, Reader.sent, Reader.sent, ← List.append_assoc, List.append_assoc]
        rfl
      · exact h
  · rename_i err hphase
    have hwhole := h.sends (by rw [hphase]; simp)
    split
    · rename_i hdropped
      exact h.leaves hdropped
    · split
      · refine reads_goes hwhole h.decodes h.bounded h.quiet (by simp) ?_
        have hahead : s.ahead parse = [.error err] := by rw [ahead, hphase]
        rw [hahead, Reader.sent, Reader.sent, ← List.append_assoc]
        exact List.append_nil _
      · exact h
  · exact h
  · exact h

theorem Reads.step (h : Reads parse items s) (input : ReaderInput) : Reads parse items (s.step parse input) := by
  unfold Reader.step
  cases input with
  | finish place =>
    have hahead : { s with inFlight := s.inFlight.finish place }.ahead parse = s.ahead parse := by
      unfold ahead queued unread
      rw [Pipeline.results_finish]
    refine ⟨h.decodes, ?_, h.quiet, h.running, h.sent, ?_⟩
    · show (s.inFlight.finish place).size ≤ _
      rw [Pipeline.size_finish]
      exact h.bounded
    · rw [hahead]
      exact h.whole
  | poll available => exact h.poll available
  | receive =>
    dsimp only
    split
    · exact h
    · split
      · rename_i res rest hchannel
        have hsent : { s with channel := rest, received := s.received ++ [res] }.sent = s.sent := by
          rw [Reader.sent, Reader.sent, hchannel, List.append_assoc]
          rfl
        refine ⟨h.decodes, h.bounded, h.quiet, h.running, hsent ▸ h.sent, ?_⟩
        rw [hsent]
        exact h.whole
      · exact h
  | dropReceiver =>
    refine ⟨h.decodes, h.bounded, h.quiet, h.running, h.sent, ?_⟩
    obtain hwhole | ⟨hended, _⟩ := h.whole
    · exact .inl hwhole
    · exact .inr ⟨hended, rfl⟩

theorem reads_start (h : Decodes parse items) : Reads parse items (start items) :=
  ⟨h, Nat.zero_le _, fun _ => rfl, nofun, ⟨_, rfl⟩, .inl rfl⟩

/-! ### The task comes to its end -/

/-- Whatever has an effect on the task leaves it less to do. -/
theorem Reads.step_eq_or_work_lt (h : Reads parse items s) (input : ReaderInput) :
    s.step parse input = s ∨ (s.step parse input).work < s.work := by
  unfold Reader.step
  cases input with
  | finish place =>
    obtain heq | hlt := s.inFlight.finish_eq_or_work_lt place
    · left
      dsimp only
      rw [heq]
    · right
      simp only [work]
      omega
  | poll available =>
    dsimp only
    unfold Reader.poll
    split
    · rename_i hphase
      obtain ⟨msg, inFlight, hnext, heq⟩ | ⟨err, inFlight, hnext, heq⟩ | ⟨_, hread, _, heq⟩ | ⟨_, heq⟩ | ⟨heq, _⟩ :=
        select_cases h available
      · have hwork := Pipeline.work_of_next hnext
        right
        rw [heq]
        simp only [work, hphase]
        omega
      · have hwork := Pipeline.work_of_next hnext
        right
        rw [heq]
        simp only [work, hphase]
        omega
      · exact .inr (heq ▸ hread.work)
      · right
        rw [heq]
        cases s.pendingErr with
        | some err =>
          simp only [work, hphase]
          omega
        | none =>
          simp only [work, hphase]
          omega
      · exact .inl heq
    · rename_i msg hphase
      split
      · right
        simp only [work, hphase]
        omega
      · split
        · right
          simp only [work, hphase, List.length_append, List.length_singleton]
          omega
        · exact .inl rfl
    · rename_i err hphase
      split
      · right
        simp only [work, hphase]
        omega
      · split
        · right
          simp only [work, hphase, List.length_append, List.length_singleton]
          omega
        · exact .inl rfl
    · exact .inl rfl
    · exact .inl rfl
  | receive =>
    dsimp only
    split
    · exact .inl rfl
    · split
      · rename_i res rest hchannel
        right
        simp only [work, hchannel, List.length_cons]
        omega
      · exact .inl rfl
  | dropReceiver =>
    cases hdropped : s.receiverDropped with
    | true => exact .inl (by rw [← hdropped])
    | false =>
      right
      simp [work, hdropped]

/-- A task that nothing moves any more, with a handler that listens, has come to its end. -/
theorem Reads.ended_of_stuck (h : Reads parse items s) (hlistens : s.receiverDropped = false)
    (hstuck : ∀ input, input ≠ .dropReceiver → s.step parse input = s) : s.phase = .ended := by
  have hmoves : ∀ {input}, input ≠ .dropReceiver → ¬ (s.step parse input).work < s.work := fun hinput hlt => by
    rw [hstuck _ hinput] at hlt
    exact Nat.lt_irrefl _ hlt
  -- The handler has taken all that was sent, so there is room.
  have hempty : s.channel = [] := by
    cases hchannel : s.channel with
    | nil => rfl
    | cons res rest =>
      refine absurd ?_ (hmoves (nofun : ReaderInput.receive ≠ .dropReceiver))
      simp only [Reader.step, hlistens, hchannel, Bool.false_eq_true, if_false, work, List.length_cons]
      omega
  have hroom : s.channel.length < wsReadChannelCapacity := by simp [hempty, wsReadChannelCapacity]
  have hpolled := hmoves (nofun : ReaderInput.poll true ≠ .dropReceiver)
  cases hphase : s.phase with
  | ended => rfl
  | panicked => exact absurd hphase h.running
  | emitting msg =>
    refine absurd ?_ hpolled
    simp only [Reader.step, Reader.poll, hphase, hlistens, hroom, Bool.false_eq_true, if_false, if_true, work,
      List.length_append, List.length_singleton]
    omega
  | failing err =>
    refine absurd ?_ hpolled
    simp only [Reader.step, Reader.poll, hphase, hlistens, hroom, Bool.false_eq_true, if_false, if_true, work,
      List.length_append, List.length_singleton]
    omega
  | selecting =>
    have hselect : s.step parse (.poll true) = s.select parse true := by
      rw [Reader.step, Reader.poll, hphase]
    have hstays := hstuck (.poll true) nofun
    have hfinish := hstuck (.finish 0) nofun
    obtain ⟨msg, inFlight, hnext, heq⟩ | ⟨err, inFlight, hnext, heq⟩ | ⟨_, hread, _, heq⟩ | ⟨_, heq⟩ |
      ⟨heq, hnext, hwaits⟩ := select_cases h true
    · rw [hselect, heq] at hstays
      exact absurd (congrArg Reader.phase hstays).symm (by rw [hphase]; exact nofun)
    · rw [hselect, heq] at hpolled
      have hwork := Pipeline.work_of_next hnext
      refine absurd ?_ hpolled
      simp only [work]
      omega
    · rw [hselect, heq] at hpolled
      exact absurd hread.work hpolled
    · rw [hselect, heq] at hstays
      have hsame := (congrArg Reader.phase hstays).symm
      rw [hphase] at hsame
      cases hpending : s.pendingErr with
      | some err => rw [hpending] at hsame; cases hsame
      | none => rw [hpending] at hsame; cases hsame
    · have hjobs := Pipeline.results_eq_nil_of_stuck hnext (congrArg Reader.inFlight hfinish)
      obtain hsize | ⟨_, havailable⟩ := hwaits
      · exact absurd (by rw [Pipeline.size, hjobs]; rfl) hsize
      · cases havailable

end Reader

/-! ### Both -/

variable (parse) in
/-- The reader task sends what the websocket carries, in order, with the websocket's error at the end, whatever the order in which the decodes finish and the task, the threads and the handler take their turns. It never has more than 32 decodes under way, and it comes to its end. A connection that is polled yields the same up to its first `None` or error. -/
theorem reader_is_serial {items : List WsItem} (hdecodes : Decodes parse items) (inputs : List ReaderInput)
    (polls : List ConnectionInput) :
    let s := Run.final (Reader.step parse) (.start items) inputs
    let c := Run.final (Polling.step parse) (.start items) polls
    Run.Always (Reader.step parse)
        (fun s => s.inFlight.size ≤ maxInFlightDecodes ∧ s.sent <+: serial parse items) (.start items) inputs ∧
      (s.receiverDropped = false → s.phase = .ended → s.sent = serial parse items) ∧
      (s.receiverDropped = false → (∀ input, input ≠ .dropReceiver → s.step parse input = s) → s.phase = .ended) ∧
      (Run.Allowed (Reader.step parse) (fun s input => s.step parse input ≠ s) (.start items) inputs →
        inputs.length ≤ 7 * items.length + 5) ∧
      (c.stop = some .reading → c.yielded = serial parse items) ∧
      (items.length < polls.countP ConnectionInput.finds → c.stop.isSome = true) := by
  have hstart : Reader.Reads parse items (.start items) := Reader.reads_start hdecodes
  have hlast : Reader.Reads parse items (Run.final (Reader.step parse) (.start items) inputs) :=
    Run.invariant_of_step _ (fun _ input h => h.step input) hstart inputs
  have hserves : Polling.Serves parse items (Run.final (Polling.step parse) (.start items) polls) :=
    Run.invariant_of_step _ (fun _ input h => h.step input) (Polling.serves_start hdecodes) polls
  refine ⟨?_, fun hlistens hended => ?_, fun hlistens hstuck => hlast.ended_of_stuck hlistens hstuck, ?_, hserves.read,
    fun hpolls => Polling.stopped_of_finds hpolls⟩
  · have hkept : Run.Always (Reader.step parse) (Reader.Reads parse items) (.start items) inputs :=
      Run.always_of_step (fun _ input h => h.step input) hstart inputs
    exact hkept.mono fun s h => ⟨h.bounded, h.sent⟩
  · have hsends := hlast.sends fun _ => hlistens
    rw [Reader.ahead, hended, List.append_nil] at hsends
    exact hsends
  · intro hchanges
    have hlength := Run.length_le_of_changes (Reader.Reads parse items) Reader.work (fun _ input h => h.step input)
      (fun _ input h => h.step_eq_or_work_lt input) hstart hchanges
    show inputs.length ≤ 7 * items.length + 5
    simpa [Reader.work, Reader.start, Pipeline.work, Pipeline.empty] using hlength

/-! ### A websocket that breaks -/

/-- What `serde_json` makes of two small responses, and of nothing else. -/
def parsePlain (bytes : List UInt8) : Option Response :=
  if bytes = wireBytes "\x7b\"id\":1,\"result\":\x7b\x7d\x7d" then some ⟨⟨1⟩, some (.object []), none⟩
  else if bytes = wireBytes "\x7b\"id\":2,\"result\":\x7b\x7d\x7d" then some ⟨⟨2⟩, some (.object []), none⟩
  else none

/-- Two responses with a ping and a text that is no message between them, and the websocket breaks. -/
def brokenSocket : List WsItem :=
  [.ok (.text "\x7b\"id\":1,\"result\":\x7b\x7d\x7d"), .ok (.ping []), .ok (.text "not json"),
    .ok (.text "\x7b\"id\":2,\"result\":\x7b\x7d\x7d"), .error .connectionClosed]

/-- The task is polled until it has nothing to do, and the handler takes what it has sent. -/
def readsAll : List ReaderInput := (List.replicate 14 (.poll true)) ++ List.replicate 3 .receive

theorem reader_is_serial_brokenSocket :
    let s := Run.final (Reader.step parsePlain) (.start brokenSocket) readsAll
    s.sent = serial parsePlain brokenSocket ∧ s.sent.length = 3 := by
  have hcomplete := (@reader_is_serial _ parsePlain brokenSocket (by decide +kernel) readsAll []).2.1
    (by decide +kernel) (by decide +kernel)
  exact ⟨hcomplete, by decide +kernel⟩

end SpiderChrome
