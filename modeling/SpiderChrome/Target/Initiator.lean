import SpiderChrome.Target.Waiters

/-!
# The initiator of a target

Whoever asks for a page leaves the sender of a oneshot channel with the target, which holds it until it can be sent the page, or an error if the initialisation fails. Nothing else takes a sender from the target, and nothing but `setInitiator` gives it one: what a target has got is what it holds and what it has answered, and a poll moves senders from the one to the other.
-/

namespace SpiderChrome

/-- The senders that a page, or an error in its place, was sent on. -/
def pageAnswers (replies : List (Sender × Reply)) : List Sender :=
  replies.filterMap fun
    | (tx, .page _) => some tx
    | _ => none

theorem pageAnswers_append (replies replies' : List (Sender × Reply)) :
    pageAnswers (replies ++ replies') = pageAnswers replies ++ pageAnswers replies' :=
  List.filterMap_append

@[simp] theorem pageAnswers_page (tx : Sender) (result : Except CdpError PageInner) :
    pageAnswers [(tx, .page result)] = [tx] := rfl

/-- Replies of other kinds. -/
theorem pageAnswers_eq_nil {replies : List (Sender × Reply)}
    (hreplies : ∀ tx result, (tx, .page result) ∉ replies) : pageAnswers replies = [] := by
  refine List.filterMap_eq_nil_iff.2 fun entry hentry => ?_
  obtain ⟨tx, reply⟩ := entry
  cases reply with
  | page result => exact absurd hentry (hreplies tx result)
  | _ => rfl

namespace Target

variable {t t' t'' : Target}

/-- The senders that the target has got: the one it holds and those that it has answered. -/
def initiators (t : Target) : List Sender := t.initiator.toList ++ pageAnswers t.replies

/-- The target is the same one, and has got no other senders. -/
structure SameInitiators (t t' : Target) : Prop where
  info : t'.info = t.info
  initiators : t'.initiators.Perm t.initiators

theorem SameInitiators.refl (t : Target) : SameInitiators t t := ⟨rfl, .refl _⟩

theorem SameInitiators.trans (h : SameInitiators t t') (h' : SameInitiators t' t'') : SameInitiators t t'' :=
  ⟨h'.info.trans h.info, h'.initiators.trans h.initiators⟩

theorem SameInitiators.of_eq (hinfo : t'.info = t.info) (hinitiator : t'.initiator = t.initiator)
    (hreplies : t'.replies = t.replies) : SameInitiators t t' where
  info := hinfo
  initiators := by rw [Target.initiators, hinitiator, hreplies, Target.initiators]

/-- The same, with replies that send no page. -/
theorem SameInitiators.of_replies {replies : List (Sender × Reply)}
    (hother : ∀ tx result, (tx, .page result) ∉ replies) (hinfo : t'.info = t.info)
    (hinitiator : t'.initiator = t.initiator) (hreplies : t'.replies = t.replies ++ replies) :
    SameInitiators t t' where
  info := hinfo
  initiators := by
    rw [Target.initiators, hinitiator, hreplies, pageAnswers_append, pageAnswers_eq_nil hother,
      List.append_nil, Target.initiators]

/-- The initiator is answered. -/
theorem sameInitiators_answer {tx : Sender} (result : Except CdpError PageInner)
    (hinitiator : t.initiator = some tx) :
    SameInitiators t ({ t with initiator := none }.send tx (.page result)) where
  info := rfl
  initiators := by
    unfold Target.initiators
    rw [hinitiator]
    show (pageAnswers (t.replies ++ [(tx, .page result)])).Perm (tx :: pageAnswers t.replies)
    rw [pageAnswers_append]
    exact List.perm_append_comm

theorem sameInitiators_createPage (t : Target) : SameInitiators t t.createPage := by
  unfold createPage
  split
  · exact .of_eq rfl rfl rfl
  · exact .refl t

theorem initiator_createPage (t : Target) : t.createPage.initiator = t.initiator := by
  unfold createPage
  split
  · rfl
  · rfl

/-! ### The steps of a poll -/

theorem sameInitiators_serveInitiator (t : Target) : SameInitiators t t.serveInitiator := by
  unfold serveInitiator
  split
  · rename_i initiator hinitiator
    split
    · have hcreated := t.sameInitiators_createPage
      split
      · rename_i t' page heq
        obtain rfl := (Prod.mk.inj heq).1
        exact hcreated.trans (sameInitiators_answer _ (t.initiator_createPage.trans hinitiator))
      · rename_i t' heq
        obtain rfl := (Prod.mk.inj heq).1
        exact hcreated
    · exact .refl t
  · exact .refl t

theorem sameInitiators_chainTurn (t : Target) (next : NextCommand) :
    SameInitiators t (t.chainTurn next).1 := by
  cases next with
  | deadlineExceeded now deadline =>
    simp only [chainTurn, onInitializationFailed]
    cases hinitiator : t.initiator with
    | none => exact .of_eq rfl rfl rfl
    | some initiator =>
      exact (sameInitiators_answer (.error .timeout) hinitiator).trans (.of_eq rfl rfl rfl)
  | _ => exact .refl t

theorem sameInitiators_afterFrameChain (t : Target) (env : Env) :
    SameInitiators t (t.afterFrameChain env) := by
  unfold afterFrameChain
  split
  · split
    · exact .of_eq rfl rfl rfl
    · exact .of_eq rfl rfl rfl
  · exact .of_eq rfl rfl rfl

theorem sameInitiators_initTurn (env : Env) (now : Instant) (chains : Nat) (t : Target) :
    SameInitiators t (t.initTurn env now chains).1 := by
  have hstate : ∀ (t : Target) (state : TargetInit), SameInitiators t { t with initState := state } :=
    fun _ _ => .of_eq rfl rfl rfl
  induction chains generalizing t with
  | zero => exact .refl t
  | succ chains ih =>
    unfold initTurn
    split
    · exact hstate t _
    · split
      · exact .refl t
      · split
        · exact (hstate t _).trans ((sameInitiators_afterFrameChain _ env).trans (ih _))
        · exact (hstate t _).trans (sameInitiators_chainTurn _ _)
    · split
      · exact (hstate t _).trans (ih _)
      · exact (hstate t _).trans (sameInitiators_chainTurn _ _)
    · split
      · exact (hstate t _).trans (ih _)
      · exact (hstate t _).trans (sameInitiators_chainTurn _ _)
    · split
      · exact (hstate t _).trans (ih _)
      · exact (hstate t _).trans (sameInitiators_chainTurn _ _)
    · exact sameInitiators_serveInitiator t
    · exact .refl t

theorem sameInitiators_notifyWaiters (t : Target) (budget : List Sender → Nat) :
    SameInitiators t (t.notifyWaiters budget).1 := by
  unfold notifyWaiters
  split
  · refine .of_replies (fun tx result hmem => ?_) rfl rfl rfl
    obtain ⟨_, _, heq⟩ := List.mem_map.1 hmem
    cases heq
  · exact .refl t

theorem sameInitiators_drainNetwork (t : Target) : SameInitiators t t.drainNetwork := by
  unfold drainNetwork
  have hstart : SameInitiators t { t with networkManager := { t.networkManager with queuedEvents := [] } } :=
    .of_eq rfl rfl rfl
  refine hstart.trans (Run.foldl_rel .refl .trans (fun t event => ?_) _ _)
  cases event with
  | request id => exact .refl t
  | response id => exact .refl t
  | _ => exact .of_eq rfl rfl rfl

theorem sameInitiators_drainFramesTo (clock : Nat → Instant) (now : Instant) (turns : Nat) (t : Target) :
    SameInitiators t (t.drainFramesTo clock now turns) := by
  induction turns generalizing t with
  | zero => exact .refl t
  | succ turns ih =>
    unfold drainFramesTo
    split
    · rename_i fm event _
      have hpushed : SameInitiators t ({ t with frameManager := fm }.pushEvent (frameEvent event)) :=
        .of_eq rfl rfl rfl
      exact hpushed.trans (ih _)
    · exact .of_eq rfl rfl rfl

theorem sameInitiators_drainFrames (t : Target) (clock : Nat → Instant) (now : Instant) :
    SameInitiators t (t.drainFrames clock now) :=
  sameInitiators_drainFramesTo clock now _ t

/-- A poll leaves its senders with the target, or answers them. -/
theorem sameInitiators_advance (t : Target) (env : Env) (now : Instant) :
    SameInitiators t (t.advance env now).target := by
  have hinit := t.sameInitiators_initTurn env now 6
  unfold advance pollWith
  split
  · exact .refl t
  · split
    · rename_i heq
      rw [heq] at hinit
      exact hinit
    · rename_i heq
      rw [heq] at hinit
      exact hinit
    · rename_i t' heq
      rw [heq] at hinit
      have hpruned : SameInitiators t (t'.pruneWaiters env.isClosed) := hinit.trans (.of_eq rfl rfl rfl)
      have hnotified := hpruned.trans (sameInitiators_notifyWaiters _ List.length)
      unfold pump
      dsimp only
      split
      · exact hnotified.trans (.of_eq rfl rfl rfl)
      · have hdrained := (hnotified.trans (sameInitiators_drainNetwork _)).trans
          (sameInitiators_drainFrames _ env.clock now)
        split
        · exact hdrained
        · exact (hdrained.trans (sameInitiators_notifyWaiters _ List.length)).trans (.of_eq rfl rfl rfl)

/-! ### Inputs -/

theorem sameInitiators_handlePageMessage (t : Target) (msg : TargetMessage) :
    SameInitiators t (t.handlePageMessage msg) := by
  have hsent : ∀ (t : Target) tx reply, (∀ result, reply ≠ .page result) → SameInitiators t (t.send tx reply) :=
    fun t tx reply hother => .of_replies (fun tx' result hmem => by
      cases List.mem_singleton.1 hmem
      exact hother result rfl) rfl rfl rfl
  cases msg with
  | waitForNavigation tx | waitForDomContentLoaded tx | waitForLoad tx | waitForNetworkIdle tx
  | waitForNetworkAlmostIdle tx =>
    simp only [handlePageMessage]
    split
    · exact hsent t tx _ (by simp [mainRequest])
    · exact .of_eq rfl rfl rfl
  | mainFrame tx | allFrames tx | url frameId tx | name frameId tx | parent frameId tx
  | getExecutionContext domWorld frameId tx => exact hsent t tx _ (by simp)
  | addEventListener method =>
    simp only [handlePageMessage]
    split
    · exact .of_eq rfl rfl rfl
    · exact .refl t
  | _ => exact .of_eq rfl rfl rfl

theorem sameInitiators_onPageMessage (t : Target) (msg : TargetMessage) :
    SameInitiators t (t.onPageMessage msg) := by
  unfold onPageMessage
  split
  · exact .refl t
  · exact t.sameInitiators_handlePageMessage msg

theorem sameInitiators_onEvent (t : Target) (env : Env) (event : CdpEventMessage) :
    SameInitiators t (t.onEvent env event) := by
  obtain ⟨_, _, _, heq⟩ := t.onEvent_same env event
  rw [heq]
  exact .of_eq rfl rfl rfl

theorem sameInitiators_onResponse (t : Target) (env : Env) (resp : Response) (method : MethodId) :
    SameInitiators t (t.onResponse env resp method) := by
  unfold onResponse
  dsimp only
  split
  · split
    · exact .of_eq rfl rfl rfl
    · exact .of_eq rfl rfl rfl
  · exact .of_eq rfl rfl rfl

end Target

end SpiderChrome
