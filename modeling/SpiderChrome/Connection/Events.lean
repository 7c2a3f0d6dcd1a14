import SpiderChrome.Cdp.Value
import Mathlib.Data.List.Permutation
import Mathlib.Algebra.GroupWithZero.Nat

/-!
# Decoding messages

A message is tried as a response first and then as an event. The visitor of events reads the members of the object in their order, and the type of the parameters depends on the method, so it fails at parameters in front of the method. `deserialize_eq_iff` says which orders of an event's members decode alike.
-/

namespace SpiderChrome

namespace Decoding

/-- The errors of a visitor. -/
inductive DecodeError where
  | duplicateField (field : String)
  | missingField (field : String)
  | unknownField (field : String)
  | invalidValue
deriving DecidableEq

/-- The members of an object, in their order. -/
abbrev Members := List (String × Value)

/-- What decodes the values inside a message: the generated event types by their identifiers, and the error of a response. -/
structure Decoders (E Err : Type) where
  event : MethodId → Option (Value → Except DecodeError E)
  error : Value → Except DecodeError Err

variable {E Err : Type}

def asString : Value → Except DecodeError String
  | .string s => .ok s
  | _ => .error .invalidValue

def asUsize : Value → Except DecodeError Nat
  | .number literal =>
    match literal.toNat? with
    | some n => if n < 2 ^ 64 then .ok n else .error .invalidValue
    | none => .error .invalidValue
  | _ => .error .invalidValue

/-! ### Responses -/

structure Response (Err : Type) where
  id : Nat
  result : Option Value
  error : Option Err

/-- The fields of a response that have been read. A field that is not required is there even if its value is `null`. -/
structure ResponseFields (Err : Type) where
  id : Option Nat
  result : Option (Option Value)
  error : Option (Option Err)

def optionOf {α : Type} (decode : Value → Except DecodeError α) : Value → Except DecodeError (Option α)
  | .null => .ok none
  | value => (decode value).map some

def Response.visitMember (decoders : Decoders E Err) (fields : ResponseFields Err) (member : String × Value) :
    Except DecodeError (ResponseFields Err) :=
  match member.1 with
  | "id" =>
    if fields.id.isSome then .error (.duplicateField "id")
    else do
      let id ← asUsize member.2
      .ok { fields with id := some id }
  | "result" =>
    if fields.result.isSome then .error (.duplicateField "result")
    else do
      let result ← optionOf .ok member.2
      .ok { fields with result := some result }
  | "error" =>
    if fields.error.isSome then .error (.duplicateField "error")
    else do
      let error ← optionOf decoders.error member.2
      .ok { fields with error := some error }
  | _ => .ok fields

def Response.visitMap (decoders : Decoders E Err) (members : Members) : Except DecodeError (Response Err) := do
  let fields ← members.foldlM (Response.visitMember decoders) ⟨none, none, none⟩
  match fields.id with
  | some id => .ok ⟨id, fields.result.getD none, fields.error.getD none⟩
  | none => .error (.missingField "id")

/-! ### Events -/

/-- An event of a generated type, or of a method that none is generated for. -/
inductive CdpEvent (E : Type) where
  | known (event : E)
  | other (params : Value)

structure EventMessage (E : Type) where
  method : MethodId
  sessionId : Option String
  params : CdpEvent E

structure EventFields (E : Type) where
  method : Option MethodId
  sessionId : Option String
  params : Option (CdpEvent E)

/-- The parameters of a method. -/
def paramsOf (decoders : Decoders E Err) (method : MethodId) (params : Value) : Except DecodeError (CdpEvent E) :=
  match decoders.event method with
  | some decode => (decode params).map .known
  | none => .ok (.other params)

def EventMessage.visitMember (decoders : Decoders E Err) (fields : EventFields E) (member : String × Value) :
    Except DecodeError (EventFields E) :=
  match member.1 with
  | "method" =>
    if fields.method.isSome then .error (.duplicateField "method")
    else do
      let method ← asString member.2
      .ok { fields with method := some method }
  | "sessionId" =>
    if fields.sessionId.isSome then .error (.duplicateField "sessionId")
    else do
      let sessionId ← asString member.2
      .ok { fields with sessionId := some sessionId }
  | "params" =>
    if fields.params.isSome then .error (.duplicateField "params")
    else
      match fields.method with
      | none => .error (.missingField "params")
      | some method => do
        let params ← paramsOf decoders method member.2
        .ok { fields with params := some params }
  | key => .error (.unknownField key)

def EventMessage.visitMap (decoders : Decoders E Err) (members : Members) : Except DecodeError (EventMessage E) := do
  let fields ← members.foldlM (EventMessage.visitMember decoders) ⟨none, none, none⟩
  match fields.method with
  | none => .error (.missingField "method")
  | some method =>
    match fields.params with
    | none => .error (.missingField "params")
    | some params => .ok ⟨method, fields.sessionId, params⟩

/-! ### Messages -/

inductive Message (E Err : Type) where
  | response (response : Response Err)
  | event (event : EventMessage E)

/-- The first of the two that an object decodes as. All other objects give the same error. -/
def Message.deserialize (decoders : Decoders E Err) (members : Members) : Option (Message E Err) :=
  match Response.visitMap decoders members with
  | .ok answer => some (.response answer)
  | .error _ =>
    match EventMessage.visitMap decoders members with
    | .ok message => some (.event message)
    | .error _ => none

/-! ### The members of an event -/

/-- The members of an event, in the order in which they are written. -/
def eventMembers (method params : Value) (sessionId : Option Value) : Members :=
  ("method", method) :: ("params", params) :: (sessionId.map fun id => ("sessionId", id)).toList

/-- The method stands before the parameters. -/
def MethodFirst (members : Members) : Prop :=
  ∃ front method back, members = front ++ ("method", method) :: back ∧ ∀ params, ("params", params) ∉ front

/-- The method and the session are texts, and the parameters are some of the method's. -/
def Proper (decoders : Decoders E Err) (method params : Value) (sessionId : Option Value) : Prop :=
  ∃ name event, method = .string name ∧ (∀ id ∈ sessionId, ∃ s, id = .string s) ∧
    paramsOf decoders name params = .ok event

variable {decoders : Decoders E Err} {method params : Value} {sessionId : Option Value} {a : Members}

/-! ### No response -/

theorem Response.id_visitMember {fields fields' : ResponseFields Err} {member : String × Value}
    (hkey : member.1 ≠ "id") (h : Response.visitMember decoders fields member = .ok fields') :
    fields'.id = fields.id := by
  rw [Response.visitMember] at h
  split at h
  · rename_i hid
    exact absurd hid hkey
  · split at h
    · cases h
    · cases hdecode : optionOf .ok member.2 with
      | error e =>
        rw [hdecode] at h
        cases h
      | ok result =>
        rw [hdecode] at h
        cases h
        rfl
  · split at h
    · cases h
    · cases hdecode : optionOf decoders.error member.2 with
      | error e =>
        rw [hdecode] at h
        cases h
      | ok error =>
        rw [hdecode] at h
        cases h
        rfl
  · cases h
    rfl

theorem Response.id_foldlM {fields fields' : ResponseFields Err} (hkeys : ∀ member ∈ a, member.1 ≠ "id")
    (h : a.foldlM (Response.visitMember decoders) fields = .ok fields') : fields'.id = fields.id := by
  induction a generalizing fields with
  | nil =>
    cases h
    rfl
  | cons member a ih =>
    rw [List.forall_mem_cons] at hkeys
    rw [List.foldlM_cons] at h
    cases hvisit : Response.visitMember decoders fields member with
    | error e =>
      rw [hvisit] at h
      cases h
    | ok next =>
      rw [hvisit] at h
      exact (ih hkeys.2 h).trans (Response.id_visitMember hkeys.1 hvisit)

/-- An object without an id is no response. -/
theorem Response.visitMap_error (hkeys : ∀ member ∈ a, member.1 ≠ "id") :
    ∃ e, Response.visitMap decoders a = .error e := by
  rw [Response.visitMap]
  cases hfold : a.foldlM (Response.visitMember decoders) ⟨none, none, none⟩ with
  | error e => exact ⟨e, rfl⟩
  | ok fields =>
    have hid := Response.id_foldlM hkeys hfold
    refine ⟨.missingField "id", ?_⟩
    change (match fields.id with
      | some id => _
      | none => _) = _
    rw [hid]

theorem id_notMem_of_perm (h : a.Perm (eventMembers method params sessionId)) : ∀ member ∈ a, member.1 ≠ "id" := by
  have hkeys : ∀ member ∈ eventMembers method params sessionId, member.1 ≠ "id" := by
    cases sessionId with
    | none => simp [eventMembers]
    | some id => simp [eventMembers]
  intro member hmember
  exact hkeys member (h.mem_iff.1 hmember)

/-- An event is decoded by the visitor of events. -/
theorem deserialize_eq (h : a.Perm (eventMembers method params sessionId)) :
    Message.deserialize decoders a = (EventMessage.visitMap decoders a).toOption.map .event := by
  obtain ⟨e, he⟩ := @Response.visitMap_error E Err decoders a (id_notMem_of_perm h)
  rw [Message.deserialize, he]
  cases EventMessage.visitMap decoders a with
  | error e => rfl
  | ok event => rfl

/-! ### Orders -/

/-- In each order the parameters come before the method, or the method before the parameters and the session anywhere. -/
theorem orders (h : a.Perm (eventMembers method params sessionId)) :
    (∃ front back, a = front ++ ("params", params) :: back ∧ ∀ m, ("method", m) ∉ front) ∨
      (sessionId = none ∧ a = [("method", method), ("params", params)]) ∨
      ∃ id, sessionId = some id ∧
        (a = [("method", method), ("params", params), ("sessionId", id)] ∨
          a = [("method", method), ("sessionId", id), ("params", params)] ∨
          a = [("sessionId", id), ("method", method), ("params", params)]) := by
  have hmem := List.mem_permutations'.2 h
  cases sessionId with
  | none =>
    obtain rfl | rfl : a = [("method", method), ("params", params)] ∨ a = [("params", params), ("method", method)] := by
      simpa [eventMembers, List.permutations'] using hmem
    · exact .inr (.inl ⟨rfl, rfl⟩)
    · exact .inl ⟨[], _, rfl, fun m => List.not_mem_nil⟩
  | some id =>
    have hcases : a = [("method", method), ("params", params), ("sessionId", id)] ∨
        a = [("params", params), ("method", method), ("sessionId", id)] ∨
        a = [("params", params), ("sessionId", id), ("method", method)] ∨
        a = [("method", method), ("sessionId", id), ("params", params)] ∨
        a = [("sessionId", id), ("method", method), ("params", params)] ∨
        a = [("sessionId", id), ("params", params), ("method", method)] := by
      simpa [eventMembers, List.permutations'] using hmem
    obtain rfl | rfl | rfl | rfl | rfl | rfl := hcases
    · exact .inr (.inr ⟨id, rfl, .inl rfl⟩)
    · exact .inl ⟨[], _, rfl, fun m => List.not_mem_nil⟩
    · exact .inl ⟨[], _, rfl, fun m => List.not_mem_nil⟩
    · exact .inr (.inr ⟨id, rfl, .inr (.inl rfl)⟩)
    · exact .inr (.inr ⟨id, rfl, .inr (.inr rfl)⟩)
    · exact .inl ⟨[("sessionId", id)], _, rfl, by simp⟩

/-! ### The parameters first -/

theorem EventMessage.method_visitMember {fields fields' : EventFields E} {member : String × Value}
    (hkey : member.1 ≠ "method") (h : EventMessage.visitMember decoders fields member = .ok fields') :
    fields'.method = fields.method := by
  rw [EventMessage.visitMember] at h
  split at h
  · rename_i hmethod
    exact absurd hmethod hkey
  · split at h
    · cases h
    · cases hdecode : asString member.2 with
      | error e =>
        rw [hdecode] at h
        cases h
      | ok id =>
        rw [hdecode] at h
        cases h
        rfl
  · split at h
    · cases h
    · split at h
      · cases h
      · rename_i name hname
        cases hdecode : paramsOf decoders name member.2 with
        | error e =>
          rw [hdecode] at h
          cases h
        | ok params =>
          rw [hdecode] at h
          cases h
          rfl
  · cases h

theorem EventMessage.method_foldlM {fields fields' : EventFields E} {front : Members}
    (hkeys : ∀ m, ("method", m) ∉ front)
    (h : front.foldlM (EventMessage.visitMember decoders) fields = .ok fields') : fields'.method = fields.method := by
  induction front generalizing fields with
  | nil =>
    cases h
    rfl
  | cons member front ih =>
    have hkey : member.1 ≠ "method" := by
      intro hkey
      apply hkeys member.2
      rw [← hkey]
      exact List.mem_cons_self
    rw [List.foldlM_cons] at h
    cases hvisit : EventMessage.visitMember decoders fields member with
    | error e =>
      rw [hvisit] at h
      cases h
    | ok next =>
      rw [hvisit] at h
      exact (ih (fun m hm => hkeys m (List.mem_cons_of_mem _ hm)) h).trans
        (EventMessage.method_visitMember hkey hvisit)

/-- Parameters before any method are an error, whatever stands around them. -/
theorem EventMessage.visitMap_error {front : Members} (hkeys : ∀ m, ("method", m) ∉ front) (params : Value)
    (back : Members) : ∃ e, EventMessage.visitMap decoders (front ++ ("params", params) :: back) = .error e := by
  rw [EventMessage.visitMap, List.foldlM_append]
  cases hfold : front.foldlM (EventMessage.visitMember decoders) ⟨none, none, none⟩ with
  | error e => exact ⟨e, rfl⟩
  | ok fields =>
    have hmethod := EventMessage.method_foldlM hkeys hfold
    have hvisit : ∃ e, EventMessage.visitMember decoders fields ("params", params) = .error e := by
      cases hparams : fields.params with
      | none =>
        refine ⟨.missingField "params", ?_⟩
        simp [EventMessage.visitMember, hparams, hmethod]
      | some event =>
        refine ⟨.duplicateField "params", ?_⟩
        simp [EventMessage.visitMember, hparams]
    obtain ⟨e, hvisit⟩ := hvisit
    refine ⟨e, ?_⟩
    change ((("params", params) :: back).foldlM (EventMessage.visitMember decoders) fields >>= _) = _
    rw [List.foldlM_cons, hvisit]
    rfl

/-! ### The method first -/

/-- What an event with its method before its parameters is decoded to. -/
def decoded (decoders : Decoders E Err) (method params : Value) (sessionId : Option Value) : Option (EventMessage E) :=
  match method with
  | .string name =>
    match sessionId with
    | none => (paramsOf decoders name params).toOption.map fun event => ⟨name, none, event⟩
    | some (.string id) => (paramsOf decoders name params).toOption.map fun event => ⟨name, some id, event⟩
    | some _ => none
  | _ => none

@[simp] theorem asString_string (s : String) : asString (.string s) = .ok s := rfl

theorem asString_cases (value : Value) :
    (∃ s, value = .string s) ∨ asString value = .error .invalidValue ∧ ∀ s, value ≠ .string s := by
  cases value with
  | string s => exact .inl ⟨s, rfl⟩
  | _ => exact .inr ⟨rfl, nofun⟩

theorem decoded_of_not_string (h : ∀ s, method ≠ .string s) : decoded decoders method params sessionId = none := by
  cases method with
  | string s => exact absurd rfl (h s)
  | _ => rfl

theorem decoded_of_not_session {id : Value} (h : ∀ s, id ≠ .string s) :
    decoded decoders method params (some id) = none := by
  cases method with
  | string name =>
    cases id with
    | string s => exact absurd rfl (h s)
    | _ => rfl
  | _ => rfl

theorem decoded_isSome_iff :
    (decoded decoders method params sessionId).isSome = true ↔ Proper decoders method params sessionId := by
  obtain ⟨name, rfl⟩ | ⟨-, hmethod⟩ := asString_cases method
  · have hparams : ∀ make : CdpEvent E → EventMessage E,
        ((paramsOf decoders name params).toOption.map make).isSome = true ↔
          ∃ event, paramsOf decoders name params = .ok event := by
      intro make
      cases paramsOf decoders name params with
      | error e => exact iff_of_false Bool.false_ne_true nofun
      | ok event => exact iff_of_true rfl ⟨event, rfl⟩
    cases sessionId with
    | none =>
      refine (hparams _).trans ?_
      constructor
      · rintro ⟨event, hevent⟩
        exact ⟨name, event, rfl, nofun, hevent⟩
      · rintro ⟨name, event, hname, -, hevent⟩
        cases hname
        exact ⟨event, hevent⟩
    | some id =>
      obtain ⟨s, rfl⟩ | ⟨-, hid⟩ := asString_cases id
      · refine (hparams _).trans ?_
        constructor
        · rintro ⟨event, hevent⟩
          refine ⟨name, event, rfl, ?_, hevent⟩
          intro id hid
          cases hid
          exact ⟨s, rfl⟩
        · rintro ⟨name, event, hname, -, hevent⟩
          cases hname
          exact ⟨event, hevent⟩
      · rw [decoded_of_not_session hid]
        refine iff_of_false Bool.false_ne_true ?_
        rintro ⟨_, _, _, hsession, _⟩
        obtain ⟨s, hs⟩ := hsession id rfl
        exact hid s hs
  · rw [decoded_of_not_string hmethod]
    refine iff_of_false Bool.false_ne_true ?_
    rintro ⟨name, _, hname, _⟩
    exact hmethod name hname

@[simp] theorem ok_bind {α β : Type} (x : α) (f : α → Except DecodeError β) : (Except.ok x >>= f) = f x := rfl

@[simp] theorem error_bind {α β : Type} (e : DecodeError) (f : α → Except DecodeError β) :
    ((Except.error e : Except DecodeError α) >>= f) = .error e := rfl

namespace EventMessage

@[simp] theorem visit_method (id : Option String) (event : Option (CdpEvent E)) (value : Value) :
    visitMember decoders ⟨none, id, event⟩ ("method", value) = (asString value).map fun name => ⟨some name, id, event⟩ := by
  cases h : asString value with
  | error e => simp [visitMember, h, Except.map]
  | ok name => simp [visitMember, h, Except.map]

@[simp] theorem visit_sessionId (name : Option MethodId) (event : Option (CdpEvent E)) (value : Value) :
    visitMember decoders ⟨name, none, event⟩ ("sessionId", value) =
      (asString value).map fun id => ⟨name, some id, event⟩ := by
  cases h : asString value with
  | error e => simp [visitMember, h, Except.map]
  | ok id => simp [visitMember, h, Except.map]

@[simp] theorem visit_params (name : MethodId) (id : Option String) (value : Value) :
    visitMember decoders ⟨some name, id, none⟩ ("params", value) =
      (paramsOf decoders name value).map fun event => ⟨some name, id, some event⟩ := by
  cases h : paramsOf decoders name value with
  | error e => simp [visitMember, h, Except.map]
  | ok event => simp [visitMember, h, Except.map]

/-- Wherever the session stands, an event with its method first is decoded to the same. -/
theorem visitMap_first
    (h : (sessionId = none ∧ a = [("method", method), ("params", params)]) ∨
      ∃ id, sessionId = some id ∧
        (a = [("method", method), ("params", params), ("sessionId", id)] ∨
          a = [("method", method), ("sessionId", id), ("params", params)] ∨
          a = [("sessionId", id), ("method", method), ("params", params)])) :
    (visitMap decoders a).toOption = decoded decoders method params sessionId := by
  obtain ⟨name, rfl⟩ | ⟨hmethod, hnot⟩ := asString_cases method
  · cases hparams : paramsOf decoders name params with
    | error e =>
      have hnone : decoded decoders (.string name) params sessionId = none := by
        rw [← Option.not_isSome_iff_eq_none, decoded_isSome_iff]
        rintro ⟨name, event, hname, -, hevent⟩
        cases hname
        rw [hparams] at hevent
        cases hevent
      rw [hnone]
      obtain ⟨rfl, rfl⟩ | ⟨id, rfl, rfl | rfl | rfl⟩ := h
      · simp [visitMap, hparams, Except.map, Except.toOption]
      · simp [visitMap, hparams, Except.map, Except.toOption]
      · cases hid : asString id with
        | error e => simp [visitMap, hid, Except.map, Except.toOption]
        | ok s => simp [visitMap, hparams, hid, Except.map, Except.toOption]
      · cases hid : asString id with
        | error e => simp [visitMap, hid, Except.map, Except.toOption]
        | ok s => simp [visitMap, hparams, hid, Except.map, Except.toOption]
    | ok event =>
      obtain ⟨rfl, rfl⟩ | ⟨id, rfl, horder⟩ := h
      · simp [visitMap, hparams, decoded, Except.map, Except.toOption]
      · obtain ⟨s, rfl⟩ | ⟨hid, hnot⟩ := asString_cases id
        · obtain rfl | rfl | rfl := horder
          · simp [visitMap, hparams, decoded, Except.map, Except.toOption]
          · simp [visitMap, hparams, decoded, Except.map, Except.toOption]
          · simp [visitMap, hparams, decoded, Except.map, Except.toOption]
        · rw [decoded_of_not_session hnot]
          obtain rfl | rfl | rfl := horder
          · simp [visitMap, hparams, hid, Except.map, Except.toOption]
          · simp [visitMap, hid, Except.map, Except.toOption]
          · simp [visitMap, hid, Except.map, Except.toOption]
  · rw [decoded_of_not_string hnot]
    obtain ⟨rfl, rfl⟩ | ⟨id, rfl, rfl | rfl | rfl⟩ := h
    · simp [visitMap, hmethod, Except.map, Except.toOption]
    · simp [visitMap, hmethod, Except.map, Except.toOption]
    · simp [visitMap, hmethod, Except.map, Except.toOption]
    · cases hid : asString id with
      | error e => simp [visitMap, hid, Except.map, Except.toOption]
      | ok s => simp [visitMap, hmethod, hid, Except.map, Except.toOption]

end EventMessage

/-! ### Orders that decode alike -/

/-- Parameters in front of the method, if a method comes later, are in front of every method. -/
theorem not_methodFirst {front back : Members} (hkeys : ∀ m, ("method", m) ∉ front) :
    ¬ MethodFirst (front ++ ("params", params) :: back) := by
  rintro ⟨before, m, after, heq, hparams⟩
  obtain ⟨mid, rfl, hmid⟩ | ⟨mid, rfl, hmid⟩ := List.append_eq_append_iff.1 heq
  · cases mid with
    | nil => exact absurd (Prod.mk.inj (List.cons.inj hmid).1).1 (by decide)
    | cons member mid =>
      cases hmid
      exact hparams params (List.mem_append_right front List.mem_cons_self)
  · cases mid with
    | nil => exact absurd (Prod.mk.inj (List.cons.inj hmid).1).1 (by decide)
    | cons member mid =>
      cases hmid
      exact hkeys m (List.mem_append_right before List.mem_cons_self)

/-- An event decodes as with its members in the usual order just when its method stands before its parameters, or it decodes in no order. -/
theorem deserialize_eq_iff (decoders : Decoders E Err) (method params : Value) (sessionId : Option Value)
    {members : Members} (h : members.Perm (eventMembers method params sessionId)) :
    Message.deserialize decoders members = Message.deserialize decoders (eventMembers method params sessionId) ↔
      MethodFirst members ∨ ¬ Proper decoders method params sessionId := by
  have husual : (EventMessage.visitMap decoders (eventMembers method params sessionId)).toOption =
      decoded decoders method params sessionId := by
    apply EventMessage.visitMap_first
    cases sessionId with
    | none => exact .inl ⟨rfl, rfl⟩
    | some id => exact .inr ⟨id, rfl, .inl rfl⟩
  rw [deserialize_eq h, deserialize_eq (List.Perm.refl _), husual, ← decoded_isSome_iff]
  obtain ⟨front, back, rfl, hkeys⟩ | hfirst := orders h
  · obtain ⟨e, he⟩ := @EventMessage.visitMap_error E Err decoders front hkeys params back
    have hnot := @not_methodFirst params front back hkeys
    rw [he]
    cases decoded decoders method params sessionId with
    | none => exact iff_of_true rfl (.inr Bool.false_ne_true)
    | some event =>
      refine iff_of_false nofun ?_
      rintro (hmethod | habsurd)
      · exact hnot hmethod
      · exact habsurd rfl
  · rw [EventMessage.visitMap_first hfirst]
    refine iff_of_true rfl (.inl ?_)
    obtain ⟨-, rfl⟩ | ⟨id, -, rfl | rfl | rfl⟩ := hfirst
    · exact ⟨[], method, _, rfl, fun _ => List.not_mem_nil⟩
    · exact ⟨[], method, _, rfl, fun _ => List.not_mem_nil⟩
    · exact ⟨[], method, _, rfl, fun _ => List.not_mem_nil⟩
    · exact ⟨[("sessionId", id)], method, _, rfl, by simp⟩

/-- No event type, so that every event is of another method. -/
def noTypes : Decoders Unit Unit where
  event _ := none
  error _ := .ok ()

/-- With the session in front the event is the same. -/
theorem session_first :
    Message.deserialize noTypes
        [("sessionId", .string "S"), ("method", .string "Custom.event"), ("params", .object [])] =
      Message.deserialize noTypes (eventMembers (.string "Custom.event") (.object []) (some (.string "S"))) := by
  apply (deserialize_eq_iff noTypes (.string "Custom.event") (.object []) (some (.string "S")) ?_).2
  · exact .inl ⟨[("sessionId", .string "S")], _, _, rfl, by simp⟩
  · exact @List.perm_append_comm _ [("sessionId", Value.string "S")]
      [("method", .string "Custom.event"), ("params", .object [])]

/-- With the parameters in front there is no event. -/
theorem params_first :
    Message.deserialize noTypes [("method", .string "Custom.event"), ("params", .object [])] =
        some (.event ⟨"Custom.event", none, .other (.object [])⟩) ∧
      Message.deserialize noTypes [("params", .object []), ("method", .string "Custom.event")] = none :=
  ⟨rfl, rfl⟩

end Decoding

end SpiderChrome
