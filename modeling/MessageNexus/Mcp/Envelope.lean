/-
  File:      MessageNexus/Mcp/Envelope.lean
  Subject:   THE JSON-RPC ENVELOPE ON THE PATHS OF THE STDIO LOOP: a message without version 2.0 is
             an Invalid Request, a notification is not answered, a request is answered once. The
             path for everything else keeps the rule; the paths for calls and cancellations look at
             the method first.

  * `EnvelopeRule`, `EnvelopeKept` -- the rule, of what handling a message did, and of all runs of
    the handling;
  * `EnvelopeHeld` -- the messages for which the paths keep it;
  * `callRequest_error`, `synchronous_answer` -- how the two checks of the adapter answer;
  * `envelope_kept_iff` -- the rule is kept exactly for those messages.
-/
import MessageNexus.Mcp.Told

namespace MessageNexus

open Interact SignalFlow SignalMessage Json

section Envelope

variable [McpCodec] {adapter : Adapter} {input : Value} {workers : List Nat} {h : List McpEvent}

/-! ## 1. The rule -/

/-- The `jsonrpc` member is the string 2.0. -/
def Versioned (input : Value) : Prop := (input.get "jsonrpc").bind Value.asStr = some "2.0"

instance (input : Value) : Decidable (Versioned input) :=
  inferInstanceAs (Decidable ((input.get "jsonrpc").bind Value.asStr = some "2.0"))

def answer? : McpEvent → Option Value
  | ⟨.writeJson value, _⟩ => some value
  | _ => none

/-- What the handling of a message wrote. -/
def answersOf (es : List McpEvent) : List Value := es.filterMap answer?

def spawn? : McpEvent → Option (Nat × CallRequest)
  | ⟨.spawn request call, _⟩ => some (call, request)
  | _ => none

/-- The calls it dispatched. -/
def spawnsOf (es : List McpEvent) : List (Nat × CallRequest) := es.filterMap spawn?

def McpOp.isCancel : McpOp → Bool
  | .storeCancelled _ => true
  | .shutdown _ => true
  | _ => false

/-- The code of an error. -/
def errorCode (value : Value) : Option Int := (value.pointer ["error", "code"]).bind Value.asI64

/-- The code that JSON-RPC gives an Invalid Request. -/
def invalidRequest : Int := -32600

/-- Every worker of this call that ends on a living connection has written one message with an id,
    and that is the id of the call. -/
def AnsweredByWorker (request : CallRequest) (call : Nat) : Prop :=
  ∀ c worker, Reach mcpSystem McpPool.initial c → c.threads (call + 1) = some worker →
    worker.start = runCall request call → worker.rest = .ret (.inr ()) → Steady worker.hist →
    ∃ final, (callLog worker.hist).told.filter bearsId = [final] ∧ final.get "id" = some request.id

/-- The envelope rule, of what handling a message did and of the adapter after it. -/
structure EnvelopeRule (adapter : Adapter) (input : Value) (es : List McpEvent) (after : Adapter) :
    Prop where
  malformed : ¬ Versioned input →
    (∃ response, answersOf es = [response] ∧ errorCode response = some invalidRequest) ∧
    spawnsOf es = [] ∧ (∀ e ∈ es, e.op.isCancel = false) ∧ after = adapter
  notification : Versioned input → input.get "id" = none → answersOf es = []
  request : Versioned input → ∀ id, input.get "id" = some id → isScalar id = true →
    (∃ response, answersOf es = [response] ∧ response.get "id" = some id ∧ spawnsOf es = []) ∨
    ∃ call request, spawnsOf es = [(call, request)] ∧ request.id = id ∧ answersOf es = [] ∧
      AnsweredByWorker request call

/-- The adapter with which the loop goes on. -/
def McpLoop.adapter? : McpLoop → Option Adapter
  | .lines adapter _ => some adapter
  | .reap adapter _ _ => some adapter
  | _ => none

/-- Every write goes out. -/
def writesOut : List McpEvent → McpEvent → Prop
  | _, ⟨.writeJson _, outcome⟩ => outcome = .ok ()
  | _, _ => True

/-- The condition at the end of the handling. -/
abbrev EnvelopeEnd (adapter : Adapter) (input : Value) : McpLoop ⊕ Unit → List McpEvent → Prop :=
  Sum.elim (fun l es => ∃ after, l.adapter? = some after ∧ EnvelopeRule adapter input es after)
    fun _ _ => False

/-- Every handling of the message keeps the rule, while the writes go out. -/
def EnvelopeKept (adapter : Adapter) (input : Value) : Prop :=
  ∀ workers, Holds writesOut (fun _ _ => True) (EnvelopeEnd adapter input)
    (dispatchInput adapter workers input) []

/-- The messages for which the paths keep the rule. A cancellation must have the version and no
    request id; a call with the version must have an id, and one without it must have no request id,
    or one that was used before. -/
def EnvelopeHeld (adapter : Adapter) (input : Value) : Prop :=
  (methodOf input = some "notifications/cancelled" →
    Versioned input ∧ (input.get "id").filter isScalar = none) ∧
  (methodOf input = some "tools/call" →
    (Versioned input → input.get "id" ≠ none) ∧
    (¬ Versioned input → ∀ id, (input.get "id").filter isScalar = some id →
      id.text ∈ adapter.seenIds))

/-! ## 2. The checks of the adapter -/

/-- An error of `call_request` bears the id of the call, or there was none; it is an Invalid Request
    exactly where there was none, or it was used before. -/
theorem callRequest_error {response : Value} (he : adapter.callRequest input = .error response) :
    (((input.get "id").filter isScalar = none ∧ errorCode response = some invalidRequest) ∨
    ∃ id, (input.get "id").filter isScalar = some id ∧ response.get "id" = some id ∧
      (errorCode response = some invalidRequest ↔ id.text ∈ adapter.seenIds)) := by
  unfold Adapter.callRequest at he
  cases hid : (input.get "id").filter isScalar with
  | none =>
      rw [hid] at he
      cases he
      exact Or.inl ⟨rfl, rfl⟩
  | some id =>
      rw [hid] at he
      refine Or.inr ⟨id, rfl, ?_⟩
      have hother : ∀ code message, response = rpcError id code message → code ≠ invalidRequest →
          -9223372036854775808 ≤ code ∧ code ≤ 9223372036854775807 → id.text ∉ adapter.seenIds →
          response.get "id" = some id ∧
            (errorCode response = some invalidRequest ↔ id.text ∈ adapter.seenIds) := by
        rintro code message rfl hcode hrange hnew
        refine ⟨rfl, fun hsame => ?_, fun hseen => absurd hseen hnew⟩
        have hget : errorCode (rpcError id code message) = some code := if_pos hrange
        rw [hget] at hsame
        exact absurd (Option.some.inj hsame) hcode
      dsimp only at he
      by_cases hseen : id.text ∈ adapter.seenIds
      · rw [if_pos hseen] at he
        cases he
        exact ⟨rfl, fun _ => hseen, fun _ => rfl⟩
      rw [if_neg hseen] at he
      by_cases hfull : adapter.seenIds.length ≥ maxSeenCalls
      · rw [if_pos hfull] at he
        cases he
        exact hother (-32000) _ rfl (by decide) (by decide) hseen
      rw [if_neg hfull] at he
      cases hready : adapter.ready with
      | false =>
          rw [hready] at he
          cases he
          exact hother (-32002) _ rfl (by decide) (by decide) hseen
      | true =>
          rw [hready, if_neg (by decide)] at he
          cases htoken : ((paramsOf input).pointer ["_meta", "progressToken"]).filter isScalar with
          | none =>
              rw [htoken] at he
              cases he
              exact hother (-32602) _ rfl (by decide) (by decide) hseen
          | some token =>
              rw [htoken] at he
              dsimp only at he
              cases hquery : threadQuery (paramsOf input) with
              | error message =>
                  rw [hquery] at he
                  cases he
                  exact hother (-32602) message rfl (by decide) (by decide) hseen
              | ok query =>
                  rw [hquery] at he
                  cases he

/-- The other path answers as the rule says. -/
theorem synchronous_answer (adapter : Adapter) (input : Value)
    (hmethod : methodOf input ≠ some "tools/call") :
    (¬ Versioned input → ∃ response, adapter.synchronous input = (some response, adapter) ∧
      errorCode response = some invalidRequest) ∧
    (Versioned input → input.get "id" = none → (adapter.synchronous input).1 = none) ∧
    (Versioned input → ∀ id, input.get "id" = some id → isScalar id = true →
      ∃ response, (adapter.synchronous input).1 = some response ∧ response.get "id" = some id) := by
  refine ⟨fun hv => ⟨_, if_pos hv, rfl⟩, fun hv hid => ?_, fun hv id hid hscalar => ?_⟩
  · have hno : ¬ (input.get "jsonrpc").bind Value.asStr ≠ some "2.0" := not_not_intro hv
    unfold Adapter.synchronous
    rw [if_neg hno, hid]
    dsimp only
    split <;> rfl
  · have hno : ¬ (input.get "jsonrpc").bind Value.asStr ≠ some "2.0" := not_not_intro hv
    unfold Adapter.synchronous
    rw [if_neg hno, hid]
    dsimp only
    rw [hscalar, if_neg (by decide)]
    by_cases hinit : methodOf input = some "initialize" ∧ adapter.initialized = false
    · rw [if_pos hinit]
      exact ⟨_, rfl, rfl⟩
    rw [if_neg hinit]
    by_cases hping : methodOf input = some "ping"
    · rw [if_pos hping]
      exact ⟨_, rfl, rfl⟩
    rw [if_neg hping]
    cases hready : adapter.ready with
    | false => exact ⟨_, rfl, rfl⟩
    | true =>
        rw [if_neg (by decide)]
        by_cases hlist : methodOf input = some "tools/list"
        · rw [if_pos hlist]
          exact ⟨_, rfl, rfl⟩
        · rw [if_neg hlist, if_neg hmethod]
          exact ⟨_, rfl, rfl⟩

/-! ## 3. The paths that keep the rule -/

theorem answered_by_worker (request : CallRequest) (call : Nat) :
    AnsweredByWorker request call := by
  intro c worker hr ht hstart hrest hsteady
  obtain ⟨_, hkept⟩ := worker_told hr ht hstart
  rw [hrest] at hkept
  exact (hkept.2 hsteady).identified

/-- A message that was answered at once, with no call dispatched and none cancelled. -/
theorem rule_answered {es : List McpEvent} {response : Value} {after : Adapter}
    (ha : answersOf es = [response]) (hs : spawnsOf es = [])
    (hmalformed : ¬ Versioned input → errorCode response = some invalidRequest ∧
      (∀ e ∈ es, e.op.isCancel = false) ∧ after = adapter)
    (hnote : Versioned input → input.get "id" ≠ none)
    (hid : Versioned input → ∀ id, input.get "id" = some id → isScalar id = true →
      response.get "id" = some id) : EnvelopeRule adapter input es after := by
  refine ⟨fun hv => ?_, fun hv hno => absurd hno (hnote hv), fun hv id hget hscalar => ?_⟩
  · obtain ⟨hcode, hcancels, hafter⟩ := hmalformed hv
    exact ⟨⟨response, ha, hcode⟩, hs, hcancels, hafter⟩
  · exact Or.inl ⟨response, ha, hid hv id hget hscalar, hs⟩

/-- An answer of the loop itself. -/
theorem answerLine_envelope {response : Value} {next : McpLoop} {after : Adapter}
    (hnext : next.adapter? = some after)
    (hrule : EnvelopeRule adapter input (h ++ [⟨.writeJson response, .ok ()⟩]) after) :
    Holds writesOut (fun _ _ => True) (EnvelopeEnd adapter input)
      (answerLine workers response next) h := by
  refine ⟨trivial, fun outcome hout => ?_⟩
  cases hout
  exact ⟨after, hnext, hrule⟩

/-- The operations that neither write nor dispatch. -/
def McpOp.unanswering : McpOp → Bool
  | .writeJson _ => false
  | .spawn _ _ => false
  | _ => true

omit [McpCodec] in
theorem unanswering_snoc {e : McpEvent} (ho : e.op.unanswering = true) :
    answersOf (h ++ [e]) = answersOf h ∧ spawnsOf (h ++ [e]) = spawnsOf h := by
  have hnone : answer? e = none ∧ spawn? e = none := by
    obtain ⟨o, a⟩ := e
    cases o with
    | writeJson value => cases ho
    | spawn request call => cases ho
    | _ => exact ⟨rfl, rfl⟩
  simp [answersOf, spawnsOf, List.filterMap_append, hnone]

/-- A cancellation writes nothing and dispatches nothing. -/
theorem cancelNamed_envelope (hnote : methodOf input = some "notifications/cancelled")
    (hheld : EnvelopeHeld adapter input) :
    Holds writesOut (fun _ _ => True) (EnvelopeEnd adapter input)
      (dispatchInput adapter workers input) [] := by
  obtain ⟨hv, hid⟩ := hheld.1 hnote
  have hkept : Holds writesOut (fun _ _ => True)
      (fun _ es => answersOf es = [] ∧ spawnsOf es = []) (cancelNamed input) [] := by
    have huses : Uses (fun o => o.unanswering = true) (cancelNamed input) :=
      cancelNamed_uses (P := fun o => o.unanswering = true) rfl (fun _ => rfl) (fun _ => rfl)
        (fun _ => rfl) rfl input
    refine huses.holds
      (I := fun es => answersOf es = [] ∧ spawnsOf es = []) ?_ (fun _ _ _ _ => trivial) ⟨rfl, rfl⟩
    intro es e hes ho
    obtain ⟨hanswers, hspawns⟩ := unanswering_snoc (h := es) ho
    exact ⟨hanswers.trans hes.1, hspawns.trans hes.2⟩
  unfold dispatchInput
  rw [if_pos hnote, holds_bind]
  refine hkept.mono (fun _ _ hG => hG) fun _ es hes => ⟨adapter, rfl, ?_⟩
  refine ⟨fun hno => absurd hv hno, fun _ _ => hes.1, fun _ id hget hscalar => ?_⟩
  rw [hget, Option.filter_some, hscalar] at hid
  cases hid

/-- A call that is dispatched, or refused because too many are active. -/
theorem dispatchCall_envelope {request : CallRequest} {after : Adapter} (hv : Versioned input)
    (hid : input.get "id" = some request.id) :
    Holds writesOut (fun _ _ => True) (EnvelopeEnd adapter input)
      (dispatchCall after workers request) [] := by
  have hone : ∀ id, input.get "id" = some id → request.id = id := fun id hget =>
    Option.some.inj (hid.symm.trans hget)
  have hsome : input.get "id" ≠ none := by
    rw [hid]
    exact Option.some_ne_none request.id
  refine ⟨trivial, fun _ _ => ⟨trivial, fun length _ => ⟨trivial, fun _ _ => ?_⟩⟩⟩
  change Holds writesOut _ _ (if length ≥ maxActiveCalls then _ else _) _
  by_cases hfull : length ≥ maxActiveCalls
  · rw [if_pos hfull]
    refine answerLine_envelope rfl (rule_answered rfl rfl (fun hno => absurd hv hno) (fun _ => hsome)
      fun _ id hget _ => ?_)
    rw [← hone id hget]
    rfl
  · rw [if_neg hfull]
    refine ⟨trivial, fun call _ => ⟨trivial, fun _ _ => ⟨trivial, fun _ _ => ⟨trivial, fun _ _ =>
      ⟨trivial, fun _ _ => ⟨after, rfl, ?_⟩⟩⟩⟩⟩⟩
    refine ⟨fun hno => absurd hv hno, fun _ hnone => absurd hnone hsome, fun _ id hget _ => ?_⟩
    exact Or.inr ⟨call, request, rfl, hone id hget, rfl, answered_by_worker request call⟩

theorem callPath_envelope (hnote : methodOf input ≠ some "notifications/cancelled")
    (hcall : methodOf input = some "tools/call") (hheld : EnvelopeHeld adapter input) :
    Holds writesOut (fun _ _ => True) (EnvelopeEnd adapter input)
      (dispatchInput adapter workers input) [] := by
  obtain ⟨hpresent, hused⟩ := hheld.2 hcall
  unfold dispatchInput
  rw [if_neg hnote, if_pos hcall]
  cases hrequest : adapter.callRequest input with
  | error response =>
      refine answerLine_envelope rfl (rule_answered rfl rfl (fun hv => ⟨?_, ?_, rfl⟩) hpresent
        fun hv id hget hscalar => ?_)
      · rcases callRequest_error hrequest with ⟨_, hcode⟩ | ⟨id, hid, _, hcode⟩
        · exact hcode
        · exact hcode.mpr (hused hv id hid)
      · intro e he
        cases List.mem_singleton.mp he
        rfl
      · rcases callRequest_error hrequest with ⟨hnone, _⟩ | ⟨id', hid, hsame, _⟩
        · rw [hget, Option.filter_some, hscalar] at hnone
          cases hnone
        · rw [hget, Option.filter_some, hscalar] at hid
          rw [hsame, ← Option.some.inj hid]
  | ok accepted =>
      obtain ⟨request, after⟩ := accepted
      obtain ⟨haccepts, _⟩ := callRequest_ok hrequest
      have hv : Versioned input := by
        by_contra hno
        refine haccepts.fresh ?_
        rw [haccepts.key]
        refine hused hno request.id ?_
        rw [haccepts.id, Option.filter_some, haccepts.scalar]
        rfl
      exact dispatchCall_envelope hv haccepts.id

theorem synchronous_envelope (hnote : methodOf input ≠ some "notifications/cancelled")
    (hcall : methodOf input ≠ some "tools/call") :
    Holds writesOut (fun _ _ => True) (EnvelopeEnd adapter input)
      (dispatchInput adapter workers input) [] := by
  obtain ⟨hmalformed, hquiet, hanswered⟩ := synchronous_answer adapter input hcall
  unfold dispatchInput
  rw [if_neg hnote, if_neg hcall]
  rcases hsync : adapter.synchronous input with ⟨answer, after⟩
  rw [hsync] at hmalformed hquiet hanswered
  cases answer with
  | some response =>
      refine answerLine_envelope rfl (rule_answered rfl rfl (fun hv => ?_) (fun hv hnone => ?_)
        fun hv id hget hscalar => ?_)
      · obtain ⟨_, he, hcode⟩ := hmalformed hv
        obtain ⟨hr, rfl⟩ := Prod.mk.inj he
        cases hr
        refine ⟨hcode, fun e he => ?_, rfl⟩
        cases List.mem_singleton.mp he
        rfl
      · cases hquiet hv hnone
      · obtain ⟨_, he, hid⟩ := hanswered hv id hget hscalar
        cases he
        exact hid
  | none =>
      refine ⟨after, rfl, fun hv => ?_, fun _ _ => rfl, fun hv id hget hscalar => ?_⟩
      · obtain ⟨_, he, _⟩ := hmalformed hv
        cases (Prod.mk.inj he).1
      · obtain ⟨_, he, _⟩ := hanswered hv id hget hscalar
        cases he

/-! ## 4. The paths that do not -/

/-- What the rule leaves of a handling that wrote nothing and dispatched nothing. -/
theorem EnvelopeRule.silent {es : List McpEvent} {after : Adapter}
    (hrule : EnvelopeRule adapter input es after) (ha : answersOf es = [])
    (hs : spawnsOf es = []) : Versioned input ∧ (input.get "id").filter isScalar = none := by
  have hv : Versioned input := by
    by_contra hno
    obtain ⟨⟨response, hone, _⟩, _⟩ := hrule.malformed hno
    rw [ha] at hone
    cases hone
  refine ⟨hv, ?_⟩
  cases hid : input.get "id" with
  | none => rfl
  | some id =>
      rw [Option.filter_some]
      by_contra hne
      have hscalar : isScalar id = true := by
        by_contra hno
        exact hne (if_neg hno)
      rcases hrule.request hv id hid hscalar with ⟨_, hone, _⟩ | ⟨_, _, hone, _⟩
      · rw [ha] at hone
        cases hone
      · rw [hs] at hone
        cases hone

/-- A cancellation of a call that is not active: nothing is written. -/
theorem cancelNamed_silent (hnote : methodOf input = some "notifications/cancelled")
    (hkept : EnvelopeKept adapter input) :
    Versioned input ∧ (input.get "id").filter isScalar = none := by
  have h := hkept []
  unfold dispatchInput at h
  rw [if_pos hnote, holds_bind] at h
  unfold cancelNamed at h
  cases hname : input.pointer ["params", "requestId"] with
  | none =>
      rw [hname] at h
      obtain ⟨after, _, hrule⟩ := h
      exact hrule.silent rfl rfl
  | some requestId =>
      rw [hname] at h
      -- the mutex is taken, the map has no such call, the mutex is given back
      have hend := ((h.2 () trivial).2 none trivial).2 () trivial
      obtain ⟨after, _, hrule⟩ := hend
      exact hrule.silent rfl rfl

/-- The answer to a call that failed the checks. -/
theorem callPath_refused {response : Value} (hnote : methodOf input ≠ some "notifications/cancelled")
    (hcall : methodOf input = some "tools/call")
    (hrequest : adapter.callRequest input = .error response) (hkept : EnvelopeKept adapter input) :
    ∃ after, EnvelopeRule adapter input [⟨.writeJson response, .ok ()⟩] after := by
  have h := hkept []
  unfold dispatchInput at h
  rw [if_neg hnote, if_pos hcall, hrequest] at h
  obtain ⟨after, _, hrule⟩ := h.2 (.ok ()) rfl
  exact ⟨after, hrule⟩

/-- A call that passed the checks and found the map empty. -/
theorem callPath_dispatched {request : CallRequest} {next : Adapter}
    (hnote : methodOf input ≠ some "notifications/cancelled")
    (hcall : methodOf input = some "tools/call")
    (hrequest : adapter.callRequest input = .ok (request, next))
    (hkept : EnvelopeKept adapter input) :
    ∃ es after, spawnsOf es = [(0, request)] ∧ EnvelopeRule adapter input es after := by
  have h := hkept []
  unfold dispatchInput at h
  rw [if_neg hnote, if_pos hcall, hrequest] at h
  have hcounted := ((h.2 () trivial).2 0 trivial).2 () trivial
  have hspawned := ((((hcounted.2 0 trivial).2 () trivial).2 () trivial).2 () trivial).2 () trivial
  obtain ⟨after, _, hrule⟩ := hspawned
  exact ⟨_, after, rfl, hrule⟩

theorem callPath_rule (hcall : methodOf input = some "tools/call")
    (hkept : EnvelopeKept adapter input) :
    (Versioned input → input.get "id" ≠ none) ∧
    (¬ Versioned input → ∀ id, (input.get "id").filter isScalar = some id →
      id.text ∈ adapter.seenIds) := by
  have hnote : methodOf input ≠ some "notifications/cancelled" := by
    rw [hcall]
    decide
  constructor
  · intro hv hnone
    have hrequest : adapter.callRequest input
        = .error (rpcError .null (-32600) "Invalid request id") := by
      unfold Adapter.callRequest
      rw [hnone]
      rfl
    obtain ⟨after, hrule⟩ := callPath_refused hnote hcall hrequest hkept
    cases hrule.notification hv hnone
  · intro hv id hid
    cases hrequest : adapter.callRequest input with
    | error response =>
        obtain ⟨after, hrule⟩ := callPath_refused hnote hcall hrequest hkept
        obtain ⟨⟨answer, hone, hcode⟩, _⟩ := hrule.malformed hv
        cases hone
        rcases callRequest_error hrequest with ⟨hnone, _⟩ | ⟨id', hid', _, hsame⟩
        · rw [hid] at hnone
          cases hnone
        · rw [hid] at hid'
          cases hid'
          exact hsame.mp hcode
    | ok accepted =>
        obtain ⟨request, next⟩ := accepted
        obtain ⟨es, after, hspawn, hrule⟩ := callPath_dispatched hnote hcall hrequest hkept
        obtain ⟨_, hnone, _⟩ := hrule.malformed hv
        rw [hspawn] at hnone
        cases hnone

/-! ## 5. The rule -/

/-- The handling of a message keeps the rule exactly for the messages of `EnvelopeHeld`, whatever
    the adapter knows. -/
theorem envelope_kept_iff (adapter : Adapter) (input : Value) :
    EnvelopeKept adapter input ↔ EnvelopeHeld adapter input := by
  constructor
  · intro hkept
    exact ⟨fun hnote => cancelNamed_silent hnote hkept, fun hcall => callPath_rule hcall hkept⟩
  · intro hheld workers
    by_cases hnote : methodOf input = some "notifications/cancelled"
    · exact cancelNamed_envelope hnote hheld
    by_cases hcall : methodOf input = some "tools/call"
    · exact callPath_envelope hnote hcall hheld
    · exact synchronous_envelope hnote hcall

end Envelope

/-- A call as a notification is answered, with the id null; a call without a version is dispatched;
    a cancellation that is a request is never answered. -/
theorem envelope_broken :
    let _ : McpCodec := sampleCodec [] []
    let ready : Adapter := ⟨true, true, []⟩
    let call : Value := .object [("id", .number (.int 7)), ("method", .string "tools/call"),
      ("params", toolParams "observe_sends" [])]
    ¬ EnvelopeKept ready (notificationMessage "tools/call" (.object [])) ∧
    ¬ EnvelopeKept ready call ∧
    ¬ EnvelopeKept ready (requestMessage 7 "notifications/cancelled" (.object [])) := by
  intro codec ready call
  refine ⟨fun hkept => ?_, fun hkept => ?_, fun hkept => ?_⟩
  · exact (callPath_rule (by rfl) hkept).1 rfl rfl
  · cases (callPath_rule (by rfl) hkept).2 (by decide) (.number (.int 7)) rfl
  · cases (cancelNamed_silent (by rfl) hkept).2

end MessageNexus
