/-
  File:      MessageNexus/Mcp/Calls.lean
  Subject:   WHAT A CALL IS TOLD: every response its worker reads as progress, in order, and then
             one final message, by whichever exit the worker leaves.

  * `CallLog`, `StillOpen` -- what the history of a worker tells of its responses and messages;
  * `CallExit`, `ExitAt`, `CallExit.value` -- the exits, what the history shows at each, and the
    final message it leads to;
  * `CallPlace`, `runCall_told`, `mcpRound_told` -- where a worker reads and writes, by the logic of
    histories, with flags that stay set;
  * `toldSoFar` -- what that makes of its messages at every moment;
  * `IsProgress`, `progressOf_get` -- what a progress notification carries.
-/
import MessageNexus.Mcp.Cancel

namespace MessageNexus

open Interact SignalFlow SignalMessage Json

/-! ## 1. What the history of a worker tells -/

/-- The responses read, the messages written, and whether a read failed. -/
structure CallLog where
  read : List SignalMessage.Response
  told : List Value
  failed : Bool

def CallLog.after (log : CallLog) : McpEvent → CallLog
  | ⟨.readResponse _, answers⟩ =>
      match readResponseResult answers with
      | .ok response => { log with read := log.read ++ [response] }
      | .error _ => { log with failed := true }
  | ⟨.writeJson value, _⟩ => { log with told := log.told ++ [value] }
  | _ => log

def callLog (h : List McpEvent) : CallLog := h.foldl .after ⟨[], [], false⟩

theorem callLog_snoc (h : List McpEvent) (e : McpEvent) :
    callLog (h ++ [e]) = (callLog h).after e := by
  simp [callLog]

/-- What a worker's reads met, in order. -/
def readMet? : McpEvent → Option ReadAnswers
  | ⟨.readResponse _, answers⟩ => some answers
  | _ => none

/-- The responses of a call are those of its reads. -/
theorem callLog_read (h : List McpEvent) : (callLog h).read =
    (h.filterMap readMet?).filterMap fun answers => (readResponseResult answers).toOption := by
  induction h using List.reverseRecOn with
  | nil => rfl
  | append_singleton h e ih =>
      rw [callLog_snoc, List.filterMap_append, List.filterMap_append, ← ih]
      obtain ⟨o, a⟩ := e
      cases o with
      | readResponse call =>
          unfold CallLog.after
          dsimp only
          cases hresult : readResponseResult a with
          | ok response => simp [readMet?, hresult, Except.toOption]
          | error error => simp [readMet?, hresult, Except.toOption]
      | _ => simp [CallLog.after, readMet?]

/-- What a read loop knows after these responses. -/
def stateOf (read : List SignalMessage.Response) : ReadState :=
  read.foldl ReadState.after ⟨none, none, 0⟩

theorem stateOf_snoc (read : List SignalMessage.Response) (response : SignalMessage.Response) :
    stateOf (read ++ [response]) = (stateOf read).after response := by
  simp [stateOf]

theorem stateOf_progress (read : List SignalMessage.Response) :
    (stateOf read).progress = read.length := by
  induction read using List.reverseRecOn with
  | nil => rfl
  | append_singleton read response ih =>
      rw [stateOf_snoc, List.length_append]
      show (stateOf read).progress + 1 = read.length + 1
      rw [ih]

/-- The response that comes after these is a last one. -/
def IsLast (before : List SignalMessage.Response) (response : SignalMessage.Response) : Bool :=
  terminalFor (stateOf (before ++ [response])).acceptedId response

/-- None of the responses was a last one. -/
def StillOpen (read : List SignalMessage.Response) : Prop :=
  ∀ before response after, read = before ++ response :: after → IsLast before response = false

theorem stillOpen_nil : StillOpen [] := by
  intro before response after he
  simp at he

theorem StillOpen.snoc {read : List SignalMessage.Response} (ho : StillOpen read)
    {response : SignalMessage.Response} (hl : IsLast read response = false) :
    StillOpen (read ++ [response]) := by
  intro before r after he
  rcases List.eq_nil_or_concat after with rfl | ⟨init, last, rfl⟩
  · obtain ⟨rfl, hr⟩ := List.append_inj' he rfl
    cases hr
    exact hl
  · have hsplit : read ++ [response] = (before ++ r :: init) ++ [last] := by
      rw [he]
      simp
    obtain ⟨hread, _⟩ := List.append_inj' hsplit rfl
    exact ho before r init hread

/-- A last response is not followed by another one. -/
theorem StillOpen.not_last {read : List SignalMessage.Response} (ho : StillOpen read)
    {before : List SignalMessage.Response} {response : SignalMessage.Response}
    (hr : read = before ++ [response]) : IsLast before response = false :=
  ho before response [] hr

section Told

variable [McpCodec] {request : CallRequest} {call : Nat}

/-- The progress notifications of these responses, numbered from one. -/
def progressOf (request : CallRequest) (read : List SignalMessage.Response) : List Value :=
  read.mapIdx fun i response =>
    progressNotification request (i + 1) (McpCodec.compact response)

theorem progressOf_snoc (read : List SignalMessage.Response) (response : SignalMessage.Response) :
    progressOf request (read ++ [response]) = progressOf request read ++
      [progressNotification request (read.length + 1) (McpCodec.compact response)] := by
  simp [progressOf, List.mapIdx_concat]

theorem length_progressOf (read : List SignalMessage.Response) :
    (progressOf request read).length = read.length := by
  simp [progressOf]

/-! ## 2. The exits of a worker -/

/-- The exits of a worker at which it may answer; a failed connect or send looks at the flag for
    the text and again for the code. -/
inductive CallExit where
  | cancelledAtStart
  | connectFailed (error : String) (told coded : Bool)
  | unregistered (error : IoError)
  | sendFailed (error : String) (told coded : Bool)
  | lastResponse (response : SignalMessage.Response)
  | readFailed (error : String)
  | cancelledReading

/-- The final message of an exit, after these responses. -/
def CallExit.value (request : CallRequest) (read : List SignalMessage.Response) : CallExit → Value
  | .cancelledAtStart => rpcError request.id (-32800) startCancelledText
  | .connectFailed error told coded =>
      rpcError request.id (failedCode coded) (failedText error told)
  | .unregistered error => rpcError request.id (-32001) (unregisteredText error)
  | .sendFailed error told coded =>
      rpcError request.id (failedCode coded) (failedText error told)
  | .lastResponse response => finalResponse request (stateOf read) response
  | .readFailed error => brokenResponse request (stateOf read) error
  | .cancelledReading => cancelledResponse request (stateOf read)

/-- The exits after the connection is made and the observer registered. -/
def CallExit.late : CallExit → Bool
  | .cancelledAtStart => false
  | .connectFailed _ _ _ => false
  | .unregistered _ => false
  | _ => true

/-- The worker has registered its observer. -/
def Registered (request : CallRequest) (call : Nat) (h : List McpEvent) : Prop :=
  (⟨.setObserver request.key call, ()⟩ : McpEvent) ∈ h

/-- What the history shows where the worker leaves by this exit. -/
def ExitAt (request : CallRequest) (call : Nat) (h : List McpEvent) : CallExit → Prop
  | .cancelledAtStart => h = [⟨.loadCancelled call, true⟩, ⟨.loadAlive, true⟩]
  | .connectFailed error told coded => ∃ answers, connectResult answers = .error error ∧
      h = [⟨.loadCancelled call, false⟩, ⟨.connect call, answers⟩, ⟨.loadAlive, true⟩,
        ⟨.loadCancelled call, told⟩, ⟨.loadCancelled call, coded⟩]
  | .unregistered error => ∃ answers, h = [⟨.loadCancelled call, false⟩, ⟨.connect call, answers⟩,
      ⟨.clone call, .error error⟩, ⟨.loadAlive, true⟩]
  | .sendFailed error _ _ => (callLog h).read = [] ∧ Registered request call h ∧
      ∃ answers, (⟨.send call request.query, answers⟩ : McpEvent) ∈ h ∧
        sendResult answers = .error error
  | .lastResponse response => ∃ before, (callLog h).read = before ++ [response] ∧
      StillOpen before ∧ IsLast before response = true
  | .readFailed error => StillOpen (callLog h).read ∧ Registered request call h ∧
      ∃ answers, (⟨.readResponse call, answers⟩ : McpEvent) ∈ h ∧
        readResponseResult answers = .error error
  | .cancelledReading => StillOpen (callLog h).read ∧ Registered request call h ∧
      (⟨.loadCancelled call, true⟩ : McpEvent) ∈ h

/-! ## 3. Where a worker writes -/

/-- Every response read so far is told, and nothing else. -/
def Level (request : CallRequest) (h : List McpEvent) : Prop :=
  (callLog h).told = progressOf request (callLog h).read

/-- The last response read is not told yet. -/
def Behind (request : CallRequest) (h : List McpEvent) : Prop :=
  ∃ before response, (callLog h).read = before ++ [response] ∧
    (callLog h).told = progressOf request before

/-- The final message was written with this outcome, and nothing was read or written since. -/
def Concluded (request : CallRequest) (call : Nat) (outcome : Except IoError Unit)
    (h : List McpEvent) : Prop :=
  ∃ before exit after, h = before ++ ⟨.writeJson (exit.value request (callLog before).read),
      outcome⟩ :: after ∧ Level request before ∧ ExitAt request call before exit ∧
    (callLog h).read = (callLog before).read ∧
    (callLog h).told = (callLog before).told ++ [exit.value request (callLog before).read]

/-- The final message went out. -/
abbrev CallAnswered (request : CallRequest) (call : Nat) (h : List McpEvent) : Prop :=
  Concluded request call (.ok ()) h

/-- A message of a worker in its place: the progress of the last response, or a final message. -/
def TellPlace (request : CallRequest) (call : Nat) (h : List McpEvent) (value : Value) : Prop :=
  (∃ before response, (callLog h).read = before ++ [response] ∧
    (callLog h).told = progressOf request before ∧
    value = progressNotification request (before.length + 1) (McpCodec.compact response)) ∨
  (Level request h ∧ ∃ exit, ExitAt request call h exit ∧
    value = exit.value request (callLog h).read)

/-- Where a worker may write and read. -/
def CallPlace (request : CallRequest) (call : Nat) (h : List McpEvent) : McpOp → Prop
  | .writeJson value => TellPlace request call h value
  | .readResponse _ => Level request h ∧ StillOpen (callLog h).read ∧ (callLog h).failed = false
  | _ => True

/-- The flag of a call was found set, or was set. -/
def FlagSeen (n : Nat) (h : List McpEvent) : Prop :=
  (⟨.loadCancelled n, true⟩ : McpEvent) ∈ h ∨ (⟨.storeCancelled n, ()⟩ : McpEvent) ∈ h

/-- The connection was found lost, or was declared lost. -/
def LossSeen (h : List McpEvent) : Prop :=
  (⟨.loadAlive, false⟩ : McpEvent) ∈ h ∨ (⟨.storeAlive, ()⟩ : McpEvent) ∈ h

/-- A flag that was seen or made set stays set. -/
def flagsStay (h : List McpEvent) : McpEvent → Prop
  | ⟨.loadCancelled n, flag⟩ => FlagSeen n h → flag = true
  | ⟨.loadAlive, flag⟩ => LossSeen h → flag = false
  | _ => True

/-- The connection was alive whenever the worker looked, and every write went out. -/
def Steady (h : List McpEvent) : Prop :=
  ∀ e ∈ h, e ≠ ⟨.loadAlive, false⟩ ∧ ∀ value error, e ≠ ⟨.writeJson value, .error error⟩

/-- What holds where a worker has ended: it has removed its key, and in a steady run it has
    answered. -/
def CallEnded (request : CallRequest) (call : Nat) (h : List McpEvent) : Prop :=
  (⟨.removeActive request.key, ()⟩ : McpEvent) ∈ h ∧ (Steady h → CallAnswered request call h)

/-- What holds where a worker's loop goes round. -/
def CallLoop (request : CallRequest) (call : Nat) : McpLoop → List McpEvent → Prop
  | .read request' call' state, h => request' = request ∧ call' = call ∧
      state = stateOf (callLog h).read ∧ Level request h ∧ StillOpen (callLog h).read ∧
      (callLog h).failed = false ∧ Registered request call h
  | _, _ => False

/-- From `h` on, the worker tells what it should. -/
abbrev CallKept (request : CallRequest) (call : Nat) (p : McpThread) (h : List McpEvent) : Prop :=
  Holds flagsStay (CallPlace request call)
    (Sum.elim (CallLoop request call) fun _ h => CallEnded request call h) p h

/-- The operations that neither read nor write. -/
def McpOp.silent : McpOp → Bool
  | .readResponse _ => false
  | .writeJson _ => false
  | _ => true

variable {h : List McpEvent}

omit [McpCodec] in
theorem silent_snoc (e : McpEvent) (ho : e.op.silent = true) :
    callLog (h ++ [e]) = callLog h := by
  rw [callLog_snoc]
  obtain ⟨o, a⟩ := e
  cases o with
  | readResponse n => cases ho
  | writeJson value => cases ho
  | _ => rfl

theorem Level.silent (hl : Level request h) (e : McpEvent) (ho : e.op.silent = true) :
    Level request (h ++ [e]) := by
  unfold Level
  rw [silent_snoc e ho]
  exact hl

theorem Concluded.silent {outcome : Except IoError Unit} (ha : Concluded request call outcome h)
    (e : McpEvent) (ho : e.op.silent = true) : Concluded request call outcome (h ++ [e]) := by
  obtain ⟨before, exit, after, hh, hlevel, hexit, hread, htold⟩ := ha
  refine ⟨before, exit, after ++ [e], ?_, hlevel, hexit, ?_, ?_⟩
  · rw [hh]
    simp
  · rw [silent_snoc e ho]
    exact hread
  · rw [silent_snoc e ho]
    exact htold

omit [McpCodec] in
theorem Steady.left {es : List McpEvent} (hs : Steady (h ++ es)) : Steady h :=
  fun e he => hs e (List.mem_append_left es he)

omit [McpCodec] in
/-- The exits that history never takes back. -/
theorem ExitAt.silent {exit : CallExit} (hx : ExitAt request call h exit)
    (hlate : exit.late = true) (e : McpEvent) (ho : e.op.silent = true) :
    ExitAt request call (h ++ [e]) exit := by
  cases exit with
  | cancelledAtStart => cases hlate
  | connectFailed error told coded => cases hlate
  | unregistered error => cases hlate
  | sendFailed error told coded =>
      obtain ⟨hread, hreg, answers, hin, hresult⟩ := hx
      refine ⟨?_, List.mem_append_left _ hreg, answers, List.mem_append_left _ hin, hresult⟩
      rw [silent_snoc e ho]
      exact hread
  | lastResponse response =>
      unfold ExitAt
      rw [silent_snoc e ho]
      exact hx
  | readFailed error =>
      obtain ⟨hopen, hreg, answers, hin, hresult⟩ := hx
      refine ⟨?_, List.mem_append_left _ hreg, answers, List.mem_append_left _ hin, hresult⟩
      rw [silent_snoc e ho]
      exact hopen
  | cancelledReading =>
      obtain ⟨hopen, hreg, hin⟩ := hx
      refine ⟨?_, List.mem_append_left _ hreg, List.mem_append_left _ hin⟩
      rw [silent_snoc e ho]
      exact hopen

/-- A silent operation, and the rest from there. -/
theorem CallKept.ask {o : McpOp} {k : McpAns o → McpThread} (ho : o.silent = true)
    (hk : ∀ a, flagsStay h ⟨o, a⟩ → CallKept request call (k a) (h ++ [⟨o, a⟩])) :
    CallKept request call (.ask o k) h := by
  refine ⟨?_, hk⟩
  cases o with
  | readResponse n => cases ho
  | writeJson value => cases ho
  | _ => trivial

/-- The final message, and the rest from there. -/
theorem CallKept.answer {exit : CallExit} {k : Except IoError Unit → McpThread} {value : Value}
    (hl : Level request h) (hx : ExitAt request call h exit)
    (hv : value = exit.value request (callLog h).read)
    (hk : ∀ a h', (Steady h' → CallAnswered request call h') → h ++ [⟨.writeJson value, a⟩] = h' →
      CallKept request call (k a) h') :
    CallKept request call (.ask (.writeJson value) k) h := by
  refine ⟨Or.inr ⟨hl, exit, hx, hv⟩, fun a _ => hk a _ (fun hs => ?_) rfl⟩
  cases a with
  | error error =>
      have hlast := hs ⟨.writeJson value, .error error⟩ (by simp)
      exact absurd rfl (hlast.2 value error)
  | ok _ =>
      refine ⟨h, exit, [], by rw [hv], hl, hx, ?_, ?_⟩
      · rw [callLog_snoc]
        rfl
      · rw [callLog_snoc, hv]
        rfl

/-! ## 4. The worker tells what it should -/

theorem finishCall_told (hremoved : (⟨.removeActive request.key, ()⟩ : McpEvent) ∈ h)
    (ha : Steady h → CallAnswered request call h) : CallKept request call (finishCall call) h := by
  refine .ask rfl fun _ _ => ⟨List.mem_append_left _ hremoved, fun hs => ?_⟩
  exact (ha hs.left).silent _ rfl

/-- Removing the key is silent. -/
theorem removeCall_told {f : Unit → McpThread}
    (hf : ∀ h', (∃ es, h' = h ++ es ∧ (⟨.removeActive request.key, ()⟩ : McpEvent) ∈ es) →
      callLog h' = callLog h → (CallAnswered request call h → CallAnswered request call h') →
      (∀ exit, ExitAt request call h exit → exit.late = true → ExitAt request call h' exit) →
      CallKept request call (f ()) h') :
    CallKept request call (removeCall request >>= f) h := by
  refine .ask rfl fun _ _ => .ask rfl fun _ _ => .ask rfl fun _ _ => ?_
  refine hf _ ⟨_, by rw [List.append_assoc, List.append_assoc], by simp⟩ ?_ ?_ ?_
  · rw [silent_snoc _ rfl, silent_snoc _ rfl, silent_snoc _ rfl]
  · exact fun ha => ((ha.silent _ rfl).silent _ rfl).silent _ rfl
  · exact fun exit hx hlate =>
      ((hx.silent hlate _ rfl).silent hlate _ rfl).silent hlate _ rfl

theorem leave_told (ha : Steady h → CallAnswered request call h) :
    CallKept request call (removeCall request >>= fun _ => finishCall call) h := by
  refine removeCall_told fun h' hgrown _ hanswered _ => ?_
  obtain ⟨es, rfl, hin⟩ := hgrown
  exact finishCall_told (List.mem_append_right h hin) fun hs => hanswered (ha hs.left)

omit [McpCodec] in
/-- A run that found the connection lost is not steady. -/
theorem not_steady {P : Prop} (hin : (⟨.loadAlive, false⟩ : McpEvent) ∈ h) (hs : Steady h) : P :=
  absurd rfl (hs _ hin).1

theorem giveUp_told (exit : CallExit) {code : Int} {message : String} (hl : Level request h)
    (hx : ExitAt request call (h ++ [⟨.loadAlive, true⟩]) exit)
    (hv : rpcError request.id code message = exit.value request (callLog h).read) :
    CallKept request call (giveUp request call code message) h := by
  refine .ask rfl fun alive _ => ?_
  cases alive with
  | false => exact leave_told (not_steady (by simp))
  | true =>
      refine .answer (hl.silent _ rfl) hx ?_ fun a h' ha _ => leave_told ha
      rw [silent_snoc _ rfl]
      exact hv

theorem giveUpFailed_told {error : String} (exit : Bool → Bool → CallExit) (hl : Level request h)
    (hx : ∀ told coded, ExitAt request call (h ++ [⟨.loadAlive, true⟩] ++
      [⟨.loadCancelled call, told⟩] ++ [⟨.loadCancelled call, coded⟩]) (exit told coded))
    (hv : ∀ told coded, (exit told coded).value request (callLog h).read =
      rpcError request.id (failedCode coded) (failedText error told)) :
    CallKept request call (giveUpFailed request call error) h := by
  refine .ask rfl fun alive _ => ?_
  cases alive with
  | false => exact leave_told (not_steady (by simp))
  | true =>
      refine .ask rfl fun told _ => .ask rfl fun coded _ => ?_
      refine .answer (((hl.silent _ rfl).silent _ rfl).silent _ rfl) (hx told coded) ?_
        fun a h' ha _ => leave_told ha
      rw [silent_snoc _ rfl, silent_snoc _ rfl, silent_snoc _ rfl]
      exact (hv told coded).symm

/-- The end with a final message. -/
theorem endCall_told (exit : CallExit) (state : ReadState) {value : Value} (hl : Level request h)
    (hx : ExitAt request call h exit) (hlate : exit.late = true)
    (hv : value = exit.value request (callLog h).read) :
    CallKept request call (endCall request call state (some value)) h := by
  subst hv
  refine removeCall_told fun h' hgrown hlog _ hexit => ?_
  have hlevel : Level request h' := by
    unfold Level
    rw [hlog]
    exact hl
  refine .answer hlevel (hexit exit hx hlate) (by rw [hlog]) fun a h'' ha hh => ?_
  obtain ⟨es, rfl, hin⟩ := hgrown
  refine finishCall_told ?_ ha
  rw [← hh]
  exact List.mem_append_left _ (List.mem_append_right h hin)

/-- The end without one: the call is cancelled, or the connection is lost. -/
theorem endCancelled_told (hl : Level request h) (ho : StillOpen (callLog h).read)
    (hr : Registered request call h) (hflag : (⟨.loadCancelled call, true⟩ : McpEvent) ∈ h) :
    CallKept request call (endCall request call (stateOf (callLog h).read) none) h := by
  refine removeCall_told fun h' hgrown hlog _ hexit => ?_
  obtain ⟨es, rfl, hin⟩ := hgrown
  refine .ask rfl fun flag hstay => ?_
  have hset : flag = true := hstay (Or.inl (List.mem_append_left es hflag))
  subst hset
  refine .ask rfl fun alive _ => ?_
  have hremoved : ∀ es', (⟨.removeActive request.key, ()⟩ : McpEvent) ∈ h ++ es ++ es' :=
    fun es' => List.mem_append_left _ (List.mem_append_right h hin)
  cases alive with
  | false =>
      refine finishCall_told ?_ (not_steady (by simp))
      rw [List.append_assoc (h ++ es)]
      exact hremoved _
  | true =>
      have hlevel : Level request (h ++ es) := by
        unfold Level
        rw [hlog]
        exact hl
      have hx : ExitAt request call (h ++ es) .cancelledReading :=
        hexit _ ⟨ho, hr, hflag⟩ rfl
      refine .answer ((hlevel.silent _ rfl).silent _ rfl)
        ((hx.silent rfl _ rfl).silent rfl _ rfl) ?_ fun a h'' ha hh => ?_
      · rw [silent_snoc _ rfl, silent_snoc _ rfl, hlog]
        rfl
      · refine finishCall_told ?_ ha
        rw [← hh, List.append_assoc (h ++ es), List.append_assoc (h ++ es)]
        exact hremoved _

/-- The end after a progress that could not be written: the worker itself has set the flag and
    declared the connection lost, so it says nothing more. -/
theorem endLost_told {state : ReadState} (hset : (⟨.storeCancelled call, ()⟩ : McpEvent) ∈ h)
    (hlost : (⟨.storeAlive, ()⟩ : McpEvent) ∈ h) (hns : ¬ Steady h) :
    CallKept request call (endCall request call state none) h := by
  refine removeCall_told fun h' hgrown _ _ _ => ?_
  obtain ⟨es, rfl, hin⟩ := hgrown
  refine .ask rfl fun flag hstay => ?_
  have hflag : flag = true := hstay (Or.inr (List.mem_append_left es hset))
  subst hflag
  refine .ask rfl fun alive hstay => ?_
  have hdead : alive = false :=
    hstay (Or.inr (List.mem_append_left _ (List.mem_append_left es hlost)))
  subst hdead
  have hremoved : (⟨.removeActive request.key, ()⟩ : McpEvent) ∈ h ++ es :=
    List.mem_append_right h hin
  refine finishCall_told (List.mem_append_left _ (List.mem_append_left _ hremoved)) fun hs => ?_
  exact absurd hs.left.left.left hns

/-- A response that was just read is told; the loop goes on with it unless it is a last one. -/
theorem tellResponse_told {before : List SignalMessage.Response} {response : SignalMessage.Response}
    (hread : (callLog h).read = before ++ [response])
    (htold : (callLog h).told = progressOf request before) (ho : StillOpen before)
    (hf : (callLog h).failed = false) (hr : Registered request call h) :
    CallKept request call (tellResponse request call (stateOf (before ++ [response])) response)
      h := by
  have hnumber : (stateOf (before ++ [response])).progress = before.length + 1 := by
    rw [stateOf_progress, List.length_append]
    rfl
  let notification := progressNotification request (stateOf (before ++ [response])).progress
    (McpCodec.compact response)
  have hlevel : ∀ a, Level request (h ++ [⟨.writeJson notification, a⟩]) := by
    intro a
    rw [Level, callLog_snoc]
    change (callLog h).told ++ [notification] = progressOf request (callLog h).read
    rw [hread, htold, progressOf_snoc, ← hnumber]
  have hread' : ∀ a, (callLog (h ++ [⟨.writeJson notification, a⟩])).read =
      before ++ [response] := by
    intro a
    rw [callLog_snoc]
    exact hread
  refine ⟨Or.inl ⟨before, response, hread, htold, by rw [hnumber]⟩, fun written _ => ?_⟩
  cases written with
  | error error =>
      refine CallKept.ask rfl fun _ _ => CallKept.ask rfl fun _ _ => CallKept.ask rfl fun _ _ => ?_
      refine endLost_told (by simp) (by simp) fun hs => ?_
      have hwrite := hs ⟨.writeJson notification, .error error⟩ (by simp [notification])
      exact absurd rfl (hwrite.2 notification error)
  | ok _ =>
      change CallKept request call
        (if terminalFor (stateOf (before ++ [response])).acceptedId response then _ else _) _
      by_cases hlast : terminalFor (stateOf (before ++ [response])).acceptedId response = true
      · rw [if_pos hlast]
        refine endCall_told (.lastResponse response) _ (hlevel _) ⟨before, hread' _, ho, hlast⟩ rfl ?_
        rw [hread']
        rfl
      · rw [if_neg hlast]
        have hopen : StillOpen (before ++ [response]) := ho.snoc (eq_false_of_ne_true hlast)
        refine ⟨rfl, rfl, ?_, hlevel _, ?_, ?_, List.mem_append_left _ hr⟩
        · rw [hread']
        · rw [hread']
          exact hopen
        · rw [callLog_snoc]
          exact hf

/-- After a failed read the flag decides how the call is told. -/
theorem readFailed_told {error : String} {answers : ReadAnswers} (hl : Level request h)
    (ho : StillOpen (callLog h).read) (hr : Registered request call h)
    (hin : (⟨.readResponse call, answers⟩ : McpEvent) ∈ h)
    (hresult : readResponseResult answers = .error error) :
    CallKept request call (.ask (.loadCancelled call) fun cancelled =>
      if cancelled then endCall request call (stateOf (callLog h).read) none
      else endCall request call (stateOf (callLog h).read)
        (some (brokenResponse request (stateOf (callLog h).read) error))) h := by
  refine .ask rfl fun cancelled _ => ?_
  have hlog : callLog (h ++ [⟨.loadCancelled call, cancelled⟩]) = callLog h := silent_snoc _ rfl
  have hl' := hl.silent ⟨.loadCancelled call, cancelled⟩ rfl
  have hr' := List.mem_append_left [(⟨.loadCancelled call, cancelled⟩ : McpEvent)] hr
  rw [← hlog] at ho ⊢
  cases cancelled with
  | true => exact endCancelled_told hl' ho hr' (by simp)
  | false =>
      have hx : ExitAt request call (h ++ [⟨.loadCancelled call, false⟩]) (.readFailed error) :=
        ⟨ho, hr', answers, List.mem_append_left _ hin, hresult⟩
      exact endCall_told (.readFailed error) (stateOf (callLog h).read) hl' hx rfl rfl

/-- One round reads one response and tells it, or ends the loop. -/
theorem readRound_told (hl : Level request h) (ho : StillOpen (callLog h).read)
    (hf : (callLog h).failed = false) (hr : Registered request call h) :
    CallKept request call (readRound request call (stateOf (callLog h).read)) h := by
  refine .ask rfl fun cancelled _ => ?_
  have hlog : callLog (h ++ [⟨.loadCancelled call, cancelled⟩]) = callLog h := silent_snoc _ rfl
  have hr' := List.mem_append_left [(⟨.loadCancelled call, cancelled⟩ : McpEvent)] hr
  have hl' := hl.silent ⟨.loadCancelled call, cancelled⟩ rfl
  rw [← hlog] at ho hf ⊢
  cases cancelled with
  | true => exact endCancelled_told hl' ho hr' (by simp)
  | false =>
      refine ⟨⟨hl', ho, hf⟩, fun answers _ => ?_⟩
      have hafter := callLog_snoc (h ++ [⟨.loadCancelled call, false⟩])
        ⟨.readResponse call, answers⟩
      have hin : (⟨.readResponse call, answers⟩ : McpEvent) ∈
          h ++ [⟨.loadCancelled call, false⟩] ++ [⟨.readResponse call, answers⟩] := by simp
      have hr'' := List.mem_append_left [(⟨.readResponse call, answers⟩ : McpEvent)] hr'
      dsimp only [Prog.bind]
      cases hresult : readResponseResult answers with
      | ok response =>
          simp only [CallLog.after, hresult] at hafter
          change CallKept request call
            (tellResponse request call (ReadState.after (stateOf _) response) response) _
          rw [← stateOf_snoc]
          refine tellResponse_told ?_ ?_ ho ?_ hr''
          · rw [hafter]
          · rw [hafter]
            exact hl'
          · rw [hafter]
            exact hf
      | error error =>
          simp only [CallLog.after, hresult] at hafter
          have hlevel : Level request
              (h ++ [⟨.loadCancelled call, false⟩] ++ [⟨.readResponse call, answers⟩]) := by
            rw [Level, hafter]
            exact hl'
          have hread : (callLog (h ++ [⟨.loadCancelled call, false⟩] ++
              [⟨.readResponse call, answers⟩])).read =
              (callLog (h ++ [⟨.loadCancelled call, false⟩])).read := by rw [hafter]
          rw [← hread] at ho ⊢
          exact readFailed_told hlevel ho hr'' hin hresult

/-- Nothing was read or written yet. -/
def Untold (h : List McpEvent) : Prop := callLog h = ⟨[], [], false⟩

omit [McpCodec] in
theorem Untold.silent (hu : Untold h) (e : McpEvent) (ho : e.op.silent = true) :
    Untold (h ++ [e]) :=
  (silent_snoc e ho).trans hu

theorem Untold.level (hu : Untold h) : Level request h := by
  rw [Level, hu]
  rfl

/-- A worker that has told nothing may enter its read loop. -/
theorem Untold.loop (hu : Untold h) (hr : Registered request call h) :
    CallLoop request call (.read request call ⟨none, none, 0⟩) h := by
  refine ⟨rfl, rfl, ?_, hu.level, ?_, ?_, hr⟩
  · rw [hu]
    rfl
  · rw [hu]
    exact stillOpen_nil
  · rw [hu]

theorem runRegistered_told (hu : Untold h) (hr : Registered request call h) :
    CallKept request call (runRegistered request call) h := by
  refine .ask rfl fun cancelled _ => ?_
  have hu' := hu.silent ⟨.loadCancelled call, cancelled⟩ rfl
  have hr' := List.mem_append_left [(⟨.loadCancelled call, cancelled⟩ : McpEvent)] hr
  cases cancelled with
  | true =>
      refine CallKept.ask rfl fun _ _ => ?_
      exact (hu'.silent _ rfl).loop (List.mem_append_left _ hr')
  | false =>
      refine CallKept.ask rfl fun answers _ => ?_
      have hu'' := hu'.silent ⟨.send call request.query, answers⟩ rfl
      have hr'' := List.mem_append_left [(⟨.send call request.query, answers⟩ : McpEvent)] hr'
      dsimp only [Prog.bind]
      cases hresult : sendResult answers with
      | ok _ => exact hu''.loop hr''
      | error error =>
          refine giveUpFailed_told (.sendFailed error) hu''.level (fun told coded => ?_)
            fun told coded => rfl
          refine ⟨?_, ?_, answers, by simp, hresult⟩
          · rw [silent_snoc _ rfl, silent_snoc _ rfl, silent_snoc _ rfl, hu'']
          · exact List.mem_append_left _ (List.mem_append_left _ (List.mem_append_left _ hr''))

theorem runCall_told : CallKept request call (runCall request call) [] := by
  refine .ask rfl fun cancelled _ => ?_
  cases cancelled with
  | true => exact giveUp_told .cancelledAtStart rfl rfl rfl
  | false =>
      refine CallKept.ask rfl fun answers _ => ?_
      dsimp only [Prog.bind]
      cases hresult : connectResult answers with
      | error error =>
          exact giveUpFailed_told (.connectFailed error) rfl
            (fun told coded => ⟨answers, hresult, rfl⟩) fun told coded => rfl
      | ok _ =>
          refine CallKept.ask rfl fun clone _ => ?_
          cases clone with
          | error error => exact giveUp_told (.unregistered error) rfl ⟨answers, rfl⟩ rfl
          | ok _ =>
              refine CallKept.ask rfl fun _ _ => CallKept.ask rfl fun _ _ =>
                CallKept.ask rfl fun _ _ => ?_
              exact runRegistered_told rfl (by simp [Registered])

theorem mcpRound_told (l : McpLoop) (h : List McpEvent) (hl : CallLoop request call l h) :
    CallKept request call (mcpRound l) h := by
  cases l with
  | read request' call' state =>
      obtain ⟨rfl, rfl, rfl, hlevel, ho, hf, hr⟩ := hl
      exact readRound_told hlevel ho hf hr
  | _ => exact hl.elim

/-! ## 5. The messages at every moment -/

/-- What a worker has told: the progress of the responses it has read, the last one perhaps not
    yet, or that of all of them and its final message. -/
def ToldSoFar (request : CallRequest) (call : Nat) (h : List McpEvent) : Prop :=
  Level request h ∨ Behind request h ∨ ∃ outcome, Concluded request call outcome h

theorem Level.length (hl : Level request h) :
    (callLog h).told.length = (callLog h).read.length := by
  rw [hl, length_progressOf]

theorem Behind.length (hb : Behind request h) :
    (callLog h).told.length + 1 = (callLog h).read.length := by
  obtain ⟨before, response, hread, htold⟩ := hb
  rw [hread, htold, length_progressOf, List.length_append]
  rfl

theorem Concluded.length {outcome : Except IoError Unit}
    (hc : Concluded request call outcome h) :
    (callLog h).told.length = (callLog h).read.length + 1 := by
  obtain ⟨before, exit, after, _, hlevel, _, hread, htold⟩ := hc
  rw [hread, htold, List.length_append, hlevel.length]
  rfl

theorem toldSoFar (hi : Issued (CallPlace request call) h) : ToldSoFar request call h := by
  refine issued_induction (P := ToldSoFar request call) (Or.inl rfl) ?_ h hi
  intro h e _ hp ih
  have hlog := callLog_snoc h e
  by_cases ho : e.op.silent = true
  · rcases ih with hl | hb | ⟨outcome, hc⟩
    · exact Or.inl (hl.silent e ho)
    · obtain ⟨before, response, hread, htold⟩ := hb
      refine Or.inr (Or.inl ⟨before, response, ?_, ?_⟩)
      · rw [silent_snoc e ho]
        exact hread
      · rw [silent_snoc e ho]
        exact htold
    · exact Or.inr (Or.inr ⟨outcome, hc.silent e ho⟩)
  obtain ⟨o, a⟩ := e
  cases o with
  | readResponse n =>
      -- a read finds everything told
      obtain ⟨hl, _, _⟩ := hp
      cases hresult : readResponseResult a with
      | ok response =>
          simp only [CallLog.after, hresult] at hlog
          refine Or.inr (Or.inl ⟨(callLog h).read, response, ?_, ?_⟩)
          · rw [hlog]
          · rw [hlog]
            exact hl
      | error error =>
          simp only [CallLog.after, hresult] at hlog
          refine Or.inl ?_
          rw [Level, hlog]
          exact hl
  | writeJson value =>
      simp only [CallLog.after] at hlog
      rcases hp with ⟨before, response, hread, htold, hv⟩ | ⟨hl, exit, hx, hv⟩
      · refine Or.inl ?_
        rw [Level, hlog]
        show (callLog h).told ++ [value] = progressOf request (callLog h).read
        rw [hread, htold, hv, progressOf_snoc]
      · refine Or.inr (Or.inr ⟨a, h, exit, [], by rw [hv], hl, hx, ?_, ?_⟩)
        · rw [hlog]
        · rw [hlog, hv]
  | _ => exact absurd rfl ho

/-- A message that bears an id. -/
def bearsId (value : Value) : Bool := (value.get "id").isSome

theorem progress_anonymous (read : List SignalMessage.Response) :
    ∀ value ∈ progressOf request read, bearsId value = false := by
  intro value hin
  obtain ⟨i, hi, rfl⟩ := List.mem_mapIdx.mp hin
  rfl

/-- The `i`-th progress notification of a call, which tells this response. -/
structure IsProgress (request : CallRequest) (i : Nat) (response : SignalMessage.Response)
    (value : Value) : Prop where
  version : value.get "jsonrpc" = some (.string "2.0")
  method : value.get "method" = some (.string "notifications/progress")
  token : value.pointer ["params", "progressToken"] = some request.progressToken
  number : value.pointer ["params", "progress"] = some (.number (.int i))
  text : value.pointer ["params", "message"] = some (.string (McpCodec.compact response))

/-- The progress notifications of responses tell them one for one. -/
theorem progressOf_get {read : List SignalMessage.Response} {i : Nat} {value : Value}
    (hget : (progressOf request read)[i]? = some value) :
    ∃ response, read[i]? = some response ∧ IsProgress request (i + 1) response value := by
  rw [progressOf, List.getElem?_mapIdx, Option.map_eq_some_iff] at hget
  obtain ⟨response, hresponse, rfl⟩ := hget
  exact ⟨response, hresponse, rfl, rfl, rfl, rfl, rfl⟩

/-- Every final message bears the id of the call. -/
theorem exit_identified (exit : CallExit) (read : List SignalMessage.Response) :
    (exit.value request read).get "id" = some request.id := by
  cases exit with
  | lastResponse response =>
      cases response with
      | observationInterrupted cursor text => rfl
      | _ => rfl
  | _ => rfl

theorem exit_bears (exit : CallExit) (read : List SignalMessage.Response) :
    bearsId (exit.value request read) = true := by
  rw [bearsId, exit_identified]
  rfl

end Told

end MessageNexus
