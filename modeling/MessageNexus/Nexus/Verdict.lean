/-
  File:      MessageNexus/Nexus/Verdict.lean
  Subject:   WHAT A CLIENT IS TOLD ABOUT AN UNCERTAIN DELIVERY: the answer to a send, against what
             Flow can have received of its Deliver.

  * `sentWhole`, `answerLost` -- the Deliver frame went out whole; no answer of the Deliver contract
    came back;
  * `HonestVerdict` -- an uncertain delivery is told as uncertain, and a send is told as not sent, or
    Flow as unreachable, only where the Deliver frame did not go out whole;
  * `honest_iff` -- what the reply to a Deliver makes of it;
  * `send_verdict_iff` -- the verdict is honest except where a whole frame meets one of two things: a
    Soft message whose answer was lost, which `for_send` tells as a refusal, or Flow's own Failed
    with NotSent, which is passed on.
-/
import MessageNexus.Nexus.Replies

namespace MessageNexus

open Interact SignalFlow

/-! ## 1. The verdict -/

/-- The answers of the Deliver contract. -/
def SignalFlow.Response.ofDeliver : Response → Bool
  | .sendAccepted _ => true
  | .sent _ => true
  | .failed _ => true
  | .refused _ => true
  | _ => false

/-- The exchange wrote its whole frame to Flow. -/
def ExchangeAnswers.sentWhole (t : ExchangeAnswers) : Bool :=
  match t.connect, t.setReadTimeout, t.setWriteTimeout with
  | .ok (), .ok (), .ok () => t.write.complete
  | _, _, _ => false

/-- The answer did not come, could not be decoded, or was none of the Deliver contract. -/
def ExchangeAnswers.answerLost (t : ExchangeAnswers) : Bool :=
  match t.read with
  | .error _ => true
  | .ok response => !response.ofDeliver

/-- The answers that say the message was not sent. -/
def DeniesDelivery (response : SignalMessage.Response) : Prop :=
  response = .refused .flowUnreachable ∨ ∃ id text, response = .failed ⟨id, .notSent text⟩

/-- What the answer to a send owes the client, after a Deliver exchange that met `t`. -/
def HonestVerdict (t : ExchangeAnswers) (response : SignalMessage.Response) : Prop :=
  (t.sentWhole = true → t.answerLost = true →
    ∃ id, response = .failed ⟨id, .receiptUncertain⟩) ∧
  (DeniesDelivery response → t.sentWhole = false)

/-- The refusals that the Send contract has no word for. -/
def SignalFlow.Refusal.outsideSend : Refusal → Bool
  | .unknown (.other _) => true
  | .awake _ => true
  | .taken _ => true
  | .offRoute => true
  | .direct _ => true
  | _ => false

/-- The answer was lost, or refused in a way the Send contract has no word for. -/
def ExchangeAnswers.lostOrOutside (t : ExchangeAnswers) : Bool :=
  match t.read with
  | .ok (.refused refusal) => refusal.outsideSend
  | _ => t.answerLost

/-- Flow's own answer to the Deliver is that the message was not sent. -/
def ExchangeAnswers.flowDenies (t : ExchangeAnswers) : Bool :=
  match t.read with
  | .ok (.failed ⟨_, .notSent _⟩) => true
  | _ => false

/-- The sends whose verdict is honest. -/
def verdictSafe (request : SendRequest) (t : ExchangeAnswers) : Bool :=
  !(t.sentWhole && (t.flowDenies || request.message.isSoft && t.lostOrOutside))

/-! ## 2. What a Deliver exchange comes to -/

section Exchange

variable {t : ExchangeAnswers}

/-- An exchange whose frame went out whole, and was flushed, is decided by the read. -/
theorem exchangeResult_whole (hs : t.sentWhole = true) (hf : t.write.flush = .ok ()) :
    exchangeResult t = t.read.mapError fun _ => .broken := by
  unfold ExchangeAnswers.sentWhole at hs
  unfold exchangeResult
  cases hc : t.connect with
  | error error => simp [hc] at hs
  | ok _ =>
      cases hr : t.setReadTimeout with
      | error error => simp [hc, hr] at hs
      | ok _ =>
          cases hw : t.setWriteTimeout with
          | error error => simp [hc, hr, hw] at hs
          | ok _ =>
              simp only [hc, hr, hw] at hs
              have hok : writeFrame t.write = .ok () := (writeFrame_ok_iff _).mpr ⟨hs, hf⟩
              simp only [hok]
              cases t.read <;> rfl

/-- A lost answer leaves the edge broken, or the answer unexpected. -/
theorem deliverOutcome_lost (request : SendRequest) (hs : t.sentWhole = true)
    (hf : t.write.flush = .ok ()) (hl : t.answerLost = true) :
    deliverOutcome request t = .error .broken ∨ deliverOutcome request t = .error .unexpected := by
  rw [deliverOutcome, answered, exchangeResult_whole hs hf]
  unfold ExchangeAnswers.answerLost at hl
  cases hr : t.read with
  | error error => exact Or.inl rfl
  | ok response =>
      simp only [hr, Bool.not_eq_true'] at hl
      refine Or.inr ?_
      cases response <;> simp_all [SignalFlow.Response.ofDeliver, Except.mapError, FlowEdge.delivered]

/-- An answer of the Deliver contract settles the send. -/
theorem deliverOutcome_read (request : SendRequest) (hs : t.sentWhole = true)
    (hf : t.write.flush = .ok ()) {response : Response} (hr : t.read = .ok response)
    {settled : FlowSendReply}
    (hd : FlowEdge.delivered (!request.message.isSoft) response = some settled) :
    deliverOutcome request t = .ok settled := by
  rw [deliverOutcome, answered, exchangeResult_whole hs hf, hr]
  simp only [Except.mapError, hd]

theorem deliverOutcome_refused (request : SendRequest) (hs : t.sentWhole = true)
    (hf : t.write.flush = .ok ()) {refusal : Refusal} (hr : t.read = .ok (.refused refusal)) :
    deliverOutcome request t = .error (.refused refusal) := by
  rw [deliverOutcome, answered, exchangeResult_whole hs hf, hr]
  rfl

/-- The word that a Soft send has for a refusal of Flow is that Flow is unreachable exactly for
    the refusals outside the Send contract. -/
theorem forMessage_unreachable_iff (refusal : Refusal) :
    (EdgeFailure.refused refusal).forMessage = .flowUnreachable ↔ refusal.outsideSend = true := by
  cases refusal with
  | unknown data =>
      cases data <;> simp [EdgeFailure.forMessage, refusalForMessage, Refusal.outsideSend]
  | _ => simp [EdgeFailure.forMessage, refusalForMessage, Refusal.outsideSend]

end Exchange

/-! ## 3. Where the verdict is honest -/

section Honest

variable [FlowDebug] {request : SendRequest} {t : ExchangeAnswers}
  {opened : List (Except EdgeFailure FlowSubscription)}
  {reply : Except SignalMessage.Response SendReply}

/-- A Soft message is told of every failure of its Deliver as a refusal. -/
theorem forSend_soft (failure : EdgeFailure) (hs : request.message.isSoft = true) :
    failure.forSend (!request.message.isSoft) true = .refused failure.forMessage := by
  rw [hs]
  rfl

theorem forSend_abrupt (failure : EdgeFailure) (hs : request.message.isSoft = false) :
    failure.forSend (!request.message.isSoft) true = .failed ⟨none, failure.sendReason true⟩ := by
  rw [hs]
  rfl

/-- The verdict on a lost answer. -/
theorem honest_lost {failure : EdgeFailure}
    (hfail : failure = .broken ∨ failure = .unexpected) (hs : t.sentWhole = true)
    (hl : t.answerLost = true) :
    HonestVerdict t (failure.forSend (!request.message.isSoft) true) ↔
      request.message.isSoft = false := by
  constructor
  · intro hv
    by_contra hsoft
    obtain ⟨id, hr⟩ := hv.1 hs hl
    rw [Bool.not_eq_false] at hsoft
    rw [forSend_soft _ hsoft] at hr
    cases hr
  · intro hsoft
    have hr : failure.forSend (!request.message.isSoft) true = .failed ⟨none, .receiptUncertain⟩ := by
      rw [forSend_abrupt _ hsoft]
      rcases hfail with rfl | rfl <;> rfl
    rw [hr]
    refine ⟨fun _ _ => ⟨none, rfl⟩, fun hd => ?_⟩
    rcases hd with hd | ⟨id, text, hd⟩
    · cases hd
    · cases hd

/-- The verdict on a refusal of Flow. -/
theorem honest_refused {refusal : Refusal} (hs : t.sentWhole = true)
    (hr : t.read = .ok (.refused refusal)) :
    HonestVerdict t ((EdgeFailure.refused refusal).forSend (!request.message.isSoft) true) ↔
      ¬ (request.message.isSoft = true ∧ refusal.outsideSend = true) := by
  have hlost : t.answerLost = false := by
    simp only [ExchangeAnswers.answerLost, hr]
    rfl
  constructor
  · rintro hv ⟨hsoft, hout⟩
    rw [forSend_soft _ hsoft, (forMessage_unreachable_iff refusal).mpr hout] at hv
    rw [hv.2 (Or.inl rfl)] at hs
    cases hs
  · intro hsafe
    refine ⟨fun _ hl => ?_, fun hd => ?_⟩
    · rw [hlost] at hl
      cases hl
    · cases hsoft : request.message.isSoft with
      | false =>
          rw [forSend_abrupt _ hsoft] at hd
          rcases hd with hd | ⟨id, text, hd⟩ <;> cases hd
      | true =>
          rw [forSend_soft _ hsoft] at hd
          rcases hd with hd | ⟨id, text, hd⟩
          · have hun : (EdgeFailure.refused refusal).forMessage = .flowUnreachable := by
              injection hd
            exact absurd ⟨hsoft, (forMessage_unreachable_iff refusal).mp hun⟩ hsafe
          · cases hd

/-- The verdict on an answer that settles the send: Flow's own denial is passed on. -/
theorem honest_settled {response : Response} {settled : FlowSendReply} (hs : t.sentWhole = true)
    (hf : t.write.flush = .ok ()) (hr : t.read = .ok response)
    (hd : FlowEdge.delivered (!request.message.isSoft) response = some settled)
    (hreply : DeliverReply request t opened reply) :
    HonestVerdict t (firstFrame reply) ↔ t.flowDenies = false := by
  rw [DeliverReply, deliverOutcome_read request hs hf hr hd] at hreply
  have hlost : t.answerLost = false := by
    simp only [ExchangeAnswers.answerLost, hr]
    cases response <;> first | rfl | cases hd
  -- the client is told a denial exactly where Flow answered one
  have hdenies : DeniesDelivery (firstFrame reply) ↔ t.flowDenies = true := by
    simp only [ExchangeAnswers.flowDenies, hr]
    cases response with
    | sent receipt =>
        cases hd
        rw [hreply.2]
        simp [DeniesDelivery, firstFrame]
    | failed failure =>
        cases hd
        rw [hreply.2]
        obtain ⟨id, reason⟩ := failure
        cases reason <;> simp [DeniesDelivery, firstFrame]
    | sendAccepted acceptance =>
        simp only [FlowEdge.delivered] at hd
        split at hd
        · cases hd
          rw [hreply.2]
          simp [DeniesDelivery, firstFrame]
        · cases hd
          obtain ⟨opening, _, he⟩ := hreply
          rw [he]
          simp [DeniesDelivery, firstFrame]
    | _ => cases hd
  rw [HonestVerdict, hdenies, hs, hlost]
  simp

omit [FlowDebug] in
/-- An answer that was not lost settles the send, or refuses it. -/
theorem settled_or_refused (request : SendRequest) (hl : t.answerLost = false) :
    ∃ response, t.read = .ok response ∧
      ((∃ settled, FlowEdge.delivered (!request.message.isSoft) response = some settled ∧
        t.lostOrOutside = false) ∨ ∃ refusal, response = .refused refusal) := by
  unfold ExchangeAnswers.lostOrOutside
  unfold ExchangeAnswers.answerLost at hl ⊢
  cases hr : t.read with
  | error error => simp [hr] at hl
  | ok response =>
      simp only [hr, Bool.not_eq_false'] at hl
      refine ⟨response, rfl, ?_⟩
      cases response with
      | refused refusal => exact Or.inr ⟨refusal, rfl⟩
      | sendAccepted acceptance =>
          refine Or.inl ?_
          cases hsoft : request.message.isSoft with
          | true => exact ⟨.queued acceptance, rfl, rfl⟩
          | false => exact ⟨.failed ⟨some acceptance.logicalDeliveryId, .receiptUncertain⟩, rfl, rfl⟩
      | sent receipt => exact Or.inl ⟨.sent receipt, rfl, rfl⟩
      | failed failure => exact Or.inl ⟨.failed failure, rfl, rfl⟩
      | _ => cases hl

omit [FlowDebug] in
theorem lostOrOutside_of_lost (hl : t.answerLost = true) : t.lostOrOutside = true := by
  unfold ExchangeAnswers.lostOrOutside
  split
  · rename_i refusal hread
    simp [ExchangeAnswers.answerLost, hread, Response.ofDeliver] at hl
  · exact hl

omit [FlowDebug] in
/-- Flow denies only in an answer that was not lost. -/
theorem flowDenies_of_lost (hl : t.answerLost = true) : t.flowDenies = false := by
  unfold ExchangeAnswers.flowDenies
  split
  · rename_i id text hread
    simp [ExchangeAnswers.answerLost, hread, Response.ofDeliver] at hl
  · rfl

/-- The verdict on a Deliver is honest exactly for the safe sends. -/
theorem honest_iff (hr : DeliverReply request t opened reply) (hf : t.write.flush = .ok ()) :
    HonestVerdict t (firstFrame reply) ↔ verdictSafe request t = true := by
  cases hs : t.sentWhole with
  | false =>
      refine iff_of_true ⟨fun hw => ?_, fun _ => hs⟩ (by simp [verdictSafe, hs])
      rw [hs] at hw
      cases hw
  | true =>
      cases hl : t.answerLost with
      | true =>
          have hsafe : verdictSafe request t = true ↔ request.message.isSoft = false := by
            simp [verdictSafe, hs, lostOrOutside_of_lost hl, flowDenies_of_lost hl]
          rw [hsafe]
          unfold DeliverReply at hr
          rcases deliverOutcome_lost request hs hf hl with ho | ho
          · rw [ho] at hr
            rw [hr.2]
            exact honest_lost (Or.inl rfl) hs hl
          · rw [ho] at hr
            rw [hr.2]
            exact honest_lost (Or.inr rfl) hs hl
      | false =>
          obtain ⟨response, hread, ⟨settled, hd, hout⟩ | ⟨refusal, rfl⟩⟩ :=
            settled_or_refused request hl
          · rw [honest_settled hs hf hread hd hr]
            simp [verdictSafe, hs, hout]
          · unfold DeliverReply at hr
            rw [deliverOutcome_refused request hs hf hread] at hr
            rw [hr.2]
            refine (honest_refused hs hread).trans ?_
            simp only [verdictSafe, hs, ExchangeAnswers.flowDenies, ExchangeAnswers.lostOrOutside,
              hread]
            cases request.message.isSoft <;> simp

end Honest

/-! ## 4. The verdict of a connection -/

/-- In every interleaving, the first frame that answers a send is an honest verdict on its
    Deliver exactly where the send is safe, provided that flushing a stream does not fail. -/
theorem send_verdict_iff [FlowDebug] {s₀ : NexusShared} {c : NexusPool}
    (hr : Reach nexusSystem (.idle s₀) c) {t : Nat}
    {th : Thread NexusOp NexusAns ForwardLoop (Except FrameError Unit)}
    (ht : c.threads t = some th) {process : Process} {query : SignalMessage.Query}
    (ha : asked th.hist = some (process, query)) {request : SendRequest}
    {thread : Option String} (hs : query.sends = some (request, thread))
    (hflush : ∀ answers ∈ delivers th.hist, answers.write.flush = .ok ())
    {first : SignalMessage.Response} (hw : (written th.hist).head? = some first) :
    (∀ answers ∈ delivers th.hist, HonestVerdict answers first) ↔
      ∀ answers ∈ delivers th.hist, verdictSafe request answers = true := by
  obtain ⟨reply, hreply, rfl⟩ := connection_answered hr ht ha hs first hw
  rcases hreply with ⟨hunsent, _⟩ | ⟨answers, hd, hreply⟩
  · simp [hunsent.1]
  · rw [hd] at hflush ⊢
    have hiff := honest_iff hreply (hflush answers (List.mem_singleton_self _))
    simpa using hiff

/-- A Soft send whose Deliver goes out whole, and whose answer Flow never writes. -/
def lostScript : NexusScript :=
  { deliveredScript with
    query := .send ⟨.up, .wake, .soft (.question "What is current?")⟩
    flow := fun
      | .deliver _ _ _ => transported (.error .closed)
      | query => deliveredScript.flow query }

def lostHistory : List NexusEvent := lostScript.history 20 (.serving sampleConfiguration)

/-- It is answered that Flow is unreachable. -/
theorem send_verdict_lost :
    Reach (@nexusSystem unitDebug) (.idle (.serving sampleConfiguration))
      (@NexusScript.pool unitDebug lostScript 20 (.serving sampleConfiguration)) ∧
    (written lostHistory).head? = some (.refused .flowUnreachable) ∧
    ∃ answers ∈ delivers lostHistory, answers.sentWhole = true ∧ answers.answerLost = true ∧
      ¬ HonestVerdict answers (.refused .flowUnreachable) := by
  refine ⟨@NexusScript.pool_reach unitDebug lostScript 20 _ rfl, rfl,
    transported (.error .closed), List.mem_singleton_self _, rfl, rfl, fun hv => ?_⟩
  obtain ⟨id, hid⟩ := hv.1 rfl rfl
  cases hid

/-- An abrupt send whose Deliver goes out whole, and whose answer Flow never writes. -/
def uncertainScript : NexusScript := { lostScript with query := deliveredScript.query }

def uncertainHistory : List NexusEvent := uncertainScript.history 20 (.serving sampleConfiguration)

/-- It is told as uncertain. -/
theorem send_verdict_uncertain :
    (written uncertainHistory).head? = some (.failed ⟨none, .receiptUncertain⟩) ∧
    (∃ answers ∈ delivers uncertainHistory, answers.sentWhole = true ∧ answers.answerLost = true) ∧
    ∀ answers ∈ delivers uncertainHistory,
      HonestVerdict answers (.failed ⟨none, .receiptUncertain⟩) := by
  refine ⟨rfl, ⟨transported (.error .closed), List.mem_singleton_self _, rfl, rfl⟩,
    (@send_verdict_iff unitDebug _ _ (@NexusScript.pool_reach unitDebug uncertainScript 20 _ rfl)
      0 _ (@NexusScript.pool_thread unitDebug _ _ _) _ _ rfl _ _ rfl ?_ _ rfl).mpr ?_⟩
  · intro answers hanswers
    cases List.mem_singleton.mp hanswers
    rfl
  · intro answers hanswers
    cases List.mem_singleton.mp hanswers
    rfl

end MessageNexus
