/-
  File:      MessageNexus/Mcp/Interrupted.lean
  Subject:   HOW AN INTERRUPTED CALL IS TOLD: with which resume cursor after an interruption of the
             stream, and in whose words where a call ends early.

  * `FinalAt`, `final_at` -- the one final message of a worker, and the exit it left by;
  * `newestCursor`, `ResumeKnown`, `resume_named_iff` -- the adapter names the last cursor of its
    responses, and neither the interruption's own nor the caller's;
  * `TellsAdmission`, `TellsObservation`, `FairReport`, `fair_report_iff` -- the early exits speak
    of a Send also where the call is an observation.
-/
import MessageNexus.Mcp.Verdicts

namespace MessageNexus

open Interact SignalFlow SignalMessage Json

section Final

variable [McpCodec] {request : CallRequest} {call : Nat} {h : List McpEvent}

/-! ## 1. The final message -/

/-- The final message of a worker with this history: the worker left by this exit, after all of
    its responses. -/
def FinalAt (request : CallRequest) (call : Nat) (h : List McpEvent) (exit : CallExit)
    (final : Value) : Prop :=
  ∃ before outcome after, h = before ++ ⟨.writeJson final, outcome⟩ :: after ∧
    ExitAt request call before exit ∧ (callLog before).read = (callLog h).read ∧
    final = exit.value request (callLog h).read

/-- A message that bears an id is the final one. -/
theorem ToldSoFar.final (ht : ToldSoFar request call h) {final : Value}
    (hin : final ∈ (callLog h).told) (hid : bearsId final = true) :
    ∃ exit, FinalAt request call h exit final := by
  have hno : ∀ read, final ∉ progressOf request read := by
    intro read hmem
    rw [progress_anonymous read final hmem] at hid
    cases hid
  rcases ht with hl | ⟨before, _, _, htold⟩ | ⟨outcome, before, exit, after, hh, hl, hx, hread, htold⟩
  · rw [hl] at hin
    exact absurd hin (hno _)
  · rw [htold] at hin
    exact absurd hin (hno _)
  · rw [htold, hl] at hin
    rcases List.mem_append.mp hin with hprogress | hlast
    · exact absurd hprogress (hno _)
    · have hfinal := List.mem_singleton.mp hlast
      rw [← hread] at hfinal hh
      rw [← hfinal] at hh
      exact ⟨exit, before, outcome, after, hh, hx, hread.symm, hfinal⟩

theorem final_at {c : McpPool} (hr : Reach mcpSystem McpPool.initial c)
    {worker : McpThreadState} (ht : c.threads (call + 1) = some worker)
    (hs : (call, request) ∈ c.shared.spawned) {final : Value}
    (hin : final ∈ (callLog worker.hist).told) (hid : bearsId final = true) :
    ∃ exit, FinalAt request call worker.hist exit final :=
  (toldSoFar (worker_told hr ht (worker_runs hr ht hs)).1).final hin hid

omit [McpCodec] in
/-- Whether the responses are over, at an exit. -/
theorem ExitAt.open_or_last {exit : CallExit} (hx : ExitAt request call h exit) :
    StillOpen (callLog h).read ∨ ∃ before response, exit = .lastResponse response ∧
      (callLog h).read = before ++ [response] ∧ IsLast before response = true := by
  cases exit with
  | cancelledAtStart =>
      left
      rw [hx]
      exact stillOpen_nil
  | connectFailed error told coded =>
      obtain ⟨answers, _, rfl⟩ := hx
      exact Or.inl stillOpen_nil
  | unregistered error =>
      obtain ⟨answers, rfl⟩ := hx
      exact Or.inl stillOpen_nil
  | sendFailed error told coded =>
      left
      rw [hx.1]
      exact stillOpen_nil
  | lastResponse response =>
      obtain ⟨before, hread, _, hlast⟩ := hx
      exact Or.inr ⟨before, response, rfl, hread, hlast⟩
  | readFailed error => exact Or.inl hx.1
  | cancelledReading => exact Or.inl hx.1

/-- The message of an error. -/
def messageOf (value : Value) : Option String :=
  (value.pointer ["error", "message"]).bind Value.asStr

/-! ## 2. The resume cursor -/

/-- The durable cursor in a response of the stream. -/
def cursorOf? : SignalMessage.Response → Option DeliveryCursor
  | .sendAccepted acceptance => some acceptance.deliveryCursor
  | .sendsObserved observation => some observation.deliveryCursor
  | .sendChanged snapshot => some snapshot.deliveryCursor
  | _ => none

/-- The cursor of the last acceptance or status frame. -/
def lastKnown (read : List SignalMessage.Response) : Option DeliveryCursor :=
  (read.filterMap cursorOf?).getLast?

/-- The cursor that the caller supplied. -/
def suppliedCursor : SignalMessage.Query → Option DeliveryCursor
  | .observeSends cursor => cursor
  | .observeThread cursor _ => cursor
  | _ => none

/-- The newest durable cursor of a call whose stream was interrupted after these responses. -/
def newestCursor (query : SignalMessage.Query) (before : List SignalMessage.Response)
    (carried : Option DeliveryCursor) : Option DeliveryCursor :=
  carried <|> lastKnown before <|> suppliedCursor query

/-- The adapter knows that cursor from the responses: an interruption that carries none comes after
    a cursor, or there is none at all; one that carries a cursor repeats the last one. -/
def ResumeKnown (query : SignalMessage.Query) (before : List SignalMessage.Response) :
    Option DeliveryCursor → Prop
  | none => lastKnown before ≠ none ∨ suppliedCursor query = none
  | some cursor => lastKnown before = some cursor

/-- The text of an interruption that names this cursor. -/
def interruptedText (cursor : Option DeliveryCursor) : String :=
  "Observation interrupted at durable cursor " ++ cursorText cursor ++
    "; delivery state is not Failed. Resume with observe_sends from this cursor."

/-- The final error names this resume cursor. -/
def NamesCursor (final : Value) (cursor : Option DeliveryCursor) : Prop :=
  messageOf final = some (interruptedText cursor)

omit [McpCodec] in
theorem stateOf_cursor (read : List SignalMessage.Response) :
    (stateOf read).lastCursor = lastKnown read := by
  induction read using List.reverseRecOn with
  | nil => rfl
  | append_singleton read response ih =>
      rw [stateOf_snoc, lastKnown, List.filterMap_append]
      show cursorAfter (stateOf read).lastCursor response = _
      rw [ih]
      cases response with
      | sendAccepted acceptance => simp [cursorAfter, cursorOf?]
      | sendsObserved observation => simp [cursorAfter, cursorOf?]
      | sendChanged snapshot => simp [cursorAfter, cursorOf?]
      | _ => simp [cursorAfter, cursorOf?, lastKnown]

omit [McpCodec] in
/-- Different cursors print differently, and none of them like no cursor. -/
theorem cursorText_injective {a b : Option DeliveryCursor} (h : cursorText a = cursorText b) :
    a = b := by
  have hnone : ∀ n : Int, n.repr ≠ "none" := by
    intro n he
    have hdigit := intRepr_chars n 'n' (by rw [he]; decide)
    exact absurd hdigit (by decide)
  cases a with
  | none =>
      cases b with
      | none => rfl
      | some n => exact absurd (show n.repr = "none" from h.symm) (hnone n)
  | some m =>
      cases b with
      | none => exact absurd (show m.repr = "none" from h) (hnone m)
      | some n =>
          have hrepr : m.repr = n.repr := h
          rw [Int.repr_injective hrepr]

omit [McpCodec] in
theorem interruptedText_injective {a b : Option DeliveryCursor}
    (h : interruptedText a = interruptedText b) : a = b := by
  have hleft := (String.append_left_inj _).mp h
  exact cursorText_injective ((String.append_right_inj _).mp hleft)

omit [McpCodec] in
theorem newest_known_iff {query : SignalMessage.Query} {before : List SignalMessage.Response}
    {carried : Option DeliveryCursor} :
    lastKnown before = newestCursor query before carried ↔ ResumeKnown query before carried := by
  cases carried with
  | some cursor => exact Iff.rfl
  | none =>
      unfold newestCursor ResumeKnown
      cases hlast : lastKnown before with
      | some cursor => simp
      | none => simp [eq_comm]

/-- After an interruption the worker leaves by its last response, and names the last cursor. -/
theorem FinalAt.interrupted {exit : CallExit} {final : Value}
    (hf : FinalAt request call h exit final) {before : List SignalMessage.Response}
    {carried : Option DeliveryCursor} {text : String}
    (hread : (callLog h).read = before ++ [.observationInterrupted carried text]) :
    messageOf final = some (interruptedText (lastKnown before)) := by
  obtain ⟨start, outcome, after, _, hx, hsame, rfl⟩ := hf
  rw [← hsame] at hread ⊢
  rcases hx.open_or_last with hopen | ⟨earlier, response, rfl, hlastRead, _⟩
  · have hlast := hopen.not_last hread
    cases hlast
  · rw [hread] at hlastRead
    obtain ⟨rfl, hresponse⟩ := List.append_inj' hlastRead rfl
    cases hresponse
    show messageOf (finalResponse request (stateOf (callLog start).read)
      (.observationInterrupted carried text)) = _
    rw [hread, stateOf_snoc]
    show some (interruptedText (stateOf before).lastCursor) = _
    rw [stateOf_cursor]

/-- In every interleaving: the final error of an interrupted call names the newest durable cursor
    exactly where the responses told that cursor. -/
theorem resume_named_iff {c : McpPool} (hr : Reach mcpSystem McpPool.initial c)
    {worker : McpThreadState} (ht : c.threads (call + 1) = some worker)
    (hs : (call, request) ∈ c.shared.spawned) {before : List SignalMessage.Response}
    {carried : Option DeliveryCursor} {text : String}
    (hread : (callLog worker.hist).read = before ++ [.observationInterrupted carried text])
    {final : Value} (hin : final ∈ (callLog worker.hist).told) (hid : bearsId final = true) :
    NamesCursor final (newestCursor request.query before carried) ↔
      ResumeKnown request.query before carried := by
  obtain ⟨exit, hfinal⟩ := final_at hr ht hs hin hid
  rw [NamesCursor, hfinal.interrupted hread, ← newest_known_iff]
  constructor
  · intro he
    exact interruptedText_injective (Option.some.inj he)
  · intro he
    rw [he]

/-! ## 3. Whose words -/

/-- The text begins with this word. -/
def Begins (word text : String) : Prop := word.toList <+: text.toList

instance (word text : String) : Decidable (Begins word text) :=
  inferInstanceAs (Decidable (word.toList <+: text.toList))

/-- The text reports the admission of a Send as unknown or cancelled. -/
def TellsAdmission (text : String) : Prop :=
  Begins "Send " text ∨ Begins "Uncertain: Send " text

/-- The text reports an interrupted or a cancelled observation. -/
def TellsObservation (text : String) : Prop :=
  Begins "Observation interrupted" text ∨ Begins "Observation cancelled" text

/-- The call is a send. -/
def isSend : SignalMessage.Query → Bool
  | .send _ => true
  | .sendThread _ _ => true
  | _ => false

/-- The final message speaks of the admission of a Send only where the call is a send that has read
    no acceptance; and an observation that ended early is reported as one. -/
def FairReport (request : CallRequest) (read : List SignalMessage.Response) (final : Value) : Prop :=
  (∀ text, messageOf final = some text → TellsAdmission text →
    isSend request.query = true ∧ ownDelivery read = none) ∧
  (isSend request.query = false → StillOpen read →
    ∃ text, messageOf final = some text ∧ TellsObservation text)

/-- The exits at which the worker has words for an observation: a last response; a failed read
    after an acceptance, a cancellation after a cursor. A failed connect or send that was not
    cancelled is told in the words of the error alone. -/
def CallExit.observes (read : List SignalMessage.Response) : CallExit → Prop
  | .lastResponse _ => True
  | .readFailed _ => ownDelivery read ≠ none
  | .cancelledReading => lastKnown read ≠ none
  | .connectFailed error told _ => told = false ∧ TellsObservation error
  | .sendFailed error told _ => told = false ∧ TellsObservation error
  | _ => False

omit [McpCodec] in
theorem begins_append {word text : String} (h : Begins word text) (rest : String) :
    Begins word (text ++ rest) := by
  rw [Begins, String.toList_append]
  exact h.trans (List.prefix_append _ _)

omit [McpCodec] in
/-- Literals are compared as lists of characters, and not decoded from their bytes. -/
theorem begins_ofList {word text : List Char} (h : word <+: text) :
    Begins (String.ofList word) (String.ofList text) := by
  rw [Begins, String.toList_ofList, String.toList_ofList]
  exact h

omit [McpCodec] in
/-- No text does both. -/
theorem tells_apart {text : String} (ha : TellsAdmission text) (ho : TellsObservation text) :
    False := by
  rcases ha with ha | ha <;> rcases ho with ho | ho <;>
    rcases List.prefix_or_prefix_of_prefix ha ho with hp | hp <;> revert hp <;> decide

omit [McpCodec] in
/-- A call without a cursor has no delivery of its own. -/
theorem own_none {read : List SignalMessage.Response} (h : lastKnown read = none) :
    ownDelivery read = none := by
  have hnil : read.filterMap cursorOf? = [] := List.getLast?_eq_none_iff.mp h
  have hnone : read.filterMap accepted? = [] := by
    refine List.filterMap_eq_nil_iff.mpr fun response hin => ?_
    have hcursor := List.filterMap_eq_nil_iff.mp hnil response hin
    cases response with
    | sendAccepted acceptance => cases hcursor
    | _ => rfl
  rw [ownDelivery, hnone]
  rfl

omit [McpCodec] in
theorem messageOf_broken (request : CallRequest) (read : List SignalMessage.Response) (error : String) :
    ∃ text, messageOf (brokenResponse request (stateOf read) error) = some text ∧
      (ownDelivery read ≠ none → TellsObservation text) ∧
      (ownDelivery read = none → TellsAdmission text) := by
  refine ⟨_, rfl, fun hown => ?_, fun hown => ?_⟩
  · rw [stateOf_own, if_pos (Option.isSome_iff_ne_none.mpr hown)]
    refine Or.inl (begins_append ?_ error)
    exact begins_ofList (by decide)
  · rw [stateOf_own, hown]
    refine Or.inl (begins_append ?_ error)
    exact begins_ofList (by decide)

set_option maxRecDepth 1024 in
omit [McpCodec] in
theorem messageOf_cancelled (request : CallRequest) (read : List SignalMessage.Response) :
    ∃ text, messageOf (cancelledResponse request (stateOf read)) = some text ∧
      (lastKnown read ≠ none → TellsObservation text) ∧
      (lastKnown read = none → TellsAdmission text) := by
  refine ⟨_, rfl, fun hcursor => ?_, fun hcursor => ?_⟩
  · obtain ⟨cursor, hsome⟩ := Option.ne_none_iff_exists'.mp hcursor
    rw [stateOf_cursor, hsome]
    refine Or.inr (begins_append (begins_append ?_ _) _)
    exact begins_ofList (by decide)
  · rw [stateOf_cursor, hcursor]
    exact Or.inl (begins_ofList (by decide))

omit [McpCodec] in
/-- A failed connect or send, as it is told. -/
theorem failedText_tells (error : String) (told : Bool) :
    (told = true → TellsAdmission (failedText error told)) ∧
      (told = false → failedText error told = error) := by
  refine ⟨fun ht => ?_, fun ht => ?_⟩
  · rw [ht, failedText, if_pos rfl]
    exact Or.inl (begins_ofList (by decide))
  · rw [ht]
    rfl

/-- What an exit says where the worker has no words for an observation. -/
theorem exit_unobserving (request : CallRequest) {exit : CallExit}
    {read : List SignalMessage.Response}
    (hno : ¬ exit.observes read) :
    ∃ text, messageOf (exit.value request read) = some text ∧ ¬ TellsObservation text := by
  have hfailed : ∀ error told, ¬ (told = false ∧ TellsObservation error) →
      ¬ TellsObservation (failedText error told) := by
    intro error told hnot htells
    cases told with
    | true => exact tells_apart ((failedText_tells error true).1 rfl) htells
    | false => exact hnot ⟨rfl, htells⟩
  cases exit with
  | cancelledAtStart =>
      refine ⟨startCancelledText, rfl, fun ho => tells_apart (Or.inl ?_) ho⟩
      exact begins_ofList (by decide)
  | connectFailed error told coded => exact ⟨failedText error told, rfl, hfailed error told hno⟩
  | unregistered error =>
      refine ⟨unregisteredText error, rfl, fun ho => tells_apart (Or.inl (begins_append ?_ error)) ho⟩
      exact begins_ofList (by decide)
  | sendFailed error told coded => exact ⟨failedText error told, rfl, hfailed error told hno⟩
  | lastResponse response => exact absurd trivial hno
  | readFailed error =>
      obtain ⟨text, hm, _, hadmission⟩ := messageOf_broken request read error
      exact ⟨text, hm, tells_apart (hadmission (Classical.not_not.mp hno))⟩
  | cancelledReading =>
      obtain ⟨text, hm, _, hadmission⟩ := messageOf_cancelled request read
      exact ⟨text, hm, tells_apart (hadmission (Classical.not_not.mp hno))⟩

/-- A last response is told as a result, or as an interruption. -/
theorem last_tells {read : List SignalMessage.Response} {response : SignalMessage.Response}
    {text : String} (hm : messageOf (finalResponse request (stateOf read) response) = some text) :
    TellsObservation text := by
  cases response with
  | observationInterrupted cursor reason =>
      have htext : interruptedText (stateOf read).lastCursor = text := Option.some.inj hm
      rw [← htext]
      refine Or.inl (begins_append (begins_append ?_ _) _)
      exact begins_ofList (by decide)
  | _ => cases hm

/-- What an exit says where it has words for an observation. -/
theorem exit_observing (exit : CallExit) {read : List SignalMessage.Response}
    (ho : exit.observes read) {text : String}
    (hm : messageOf (exit.value request read) = some text) : TellsObservation text := by
  cases exit with
  | cancelledAtStart => exact ho.elim
  | connectFailed error told coded =>
      obtain ⟨rfl, htells⟩ := ho
      rwa [show error = text from Option.some.inj hm] at htells
  | unregistered error => exact ho.elim
  | sendFailed error told coded =>
      obtain ⟨rfl, htells⟩ := ho
      rwa [show error = text from Option.some.inj hm] at htells
  | lastResponse response => exact last_tells hm
  | readFailed error =>
      obtain ⟨text', hm', hobserves, _⟩ := messageOf_broken request read error
      rw [Option.some.inj (hm.symm.trans hm')]
      exact hobserves ho
  | cancelledReading =>
      obtain ⟨text', hm', hobserves, _⟩ := messageOf_cancelled request read
      rw [Option.some.inj (hm.symm.trans hm')]
      exact hobserves ho

/-- The admission of a Send is only reported without an acceptance. -/
theorem exit_admission {exit : CallExit} (hx : ExitAt request call h exit) {text : String}
    (hm : messageOf (exit.value request (callLog h).read) = some text)
    (ha : TellsAdmission text) : ownDelivery (callLog h).read = none := by
  cases exit with
  | cancelledAtStart => rw [hx]; rfl
  | connectFailed error told coded =>
      obtain ⟨answers, _, rfl⟩ := hx
      rfl
  | unregistered error =>
      obtain ⟨answers, rfl⟩ := hx
      rfl
  | sendFailed error told coded => rw [hx.1]; rfl
  | lastResponse response => exact (tells_apart ha (last_tells hm)).elim
  | readFailed error =>
      by_contra hown
      exact tells_apart ha (exit_observing (.readFailed error) hown hm)
  | cancelledReading =>
      by_cases hcursor : lastKnown (callLog h).read = none
      · exact own_none hcursor
      · exact (tells_apart ha (exit_observing .cancelledReading hcursor hm)).elim

/-- The exits other than a last response write an error. -/
theorem exit_message (request : CallRequest) {exit : CallExit} (hlast : ∀ response, exit ≠ .lastResponse response)
    (read : List SignalMessage.Response) :
    ∃ text, messageOf (exit.value request read) = some text := by
  cases exit with
  | lastResponse response => exact absurd rfl (hlast response)
  | _ => exact ⟨_, rfl⟩

theorem FinalAt.fair_iff {exit : CallExit} {final : Value}
    (hf : FinalAt request call h exit final) :
    FairReport request (callLog h).read final ↔
      isSend request.query = true ∨ exit.observes (callLog h).read := by
  obtain ⟨before, outcome, after, _, hx, hsame, rfl⟩ := hf
  rw [← hsame]
  constructor
  · intro hfair
    by_cases hsend : isSend request.query = true
    · exact Or.inl hsend
    right
    by_contra hno
    have hopen : StillOpen (callLog before).read := by
      rcases hx.open_or_last with hopen | ⟨_, response, rfl, _⟩
      · exact hopen
      · exact absurd trivial hno
    obtain ⟨text, hm, htells⟩ := hfair.2 (eq_false_of_ne_true hsend) hopen
    obtain ⟨text', hm', hnot⟩ := exit_unobserving request hno
    rw [Option.some.inj (hm'.symm.trans hm)] at hnot
    exact hnot htells
  · rintro (hsend | hobserves)
    · refine ⟨fun text hm ha => ⟨hsend, exit_admission hx hm ha⟩, fun hobserve => ?_⟩
      rw [hsend] at hobserve
      cases hobserve
    · refine ⟨fun text hm ha => (tells_apart ha (exit_observing exit hobserves hm)).elim,
        fun _ hopen => ?_⟩
      have hlast : ∀ response, exit ≠ .lastResponse response := by
        rintro response rfl
        obtain ⟨earlier, hread, _, hl⟩ := hx
        rw [hopen.not_last hread] at hl
        cases hl
      obtain ⟨text, hm⟩ := exit_message request hlast (callLog before).read
      exact ⟨text, hm, exit_observing exit hobserves hm⟩

/-- In every interleaving: a final message comes from an exit of the worker, and it is fair exactly
    where the call is a send, or the exit has words for an observation. -/
theorem fair_report_iff {c : McpPool} (hr : Reach mcpSystem McpPool.initial c)
    {worker : McpThreadState} (ht : c.threads (call + 1) = some worker)
    (hs : (call, request) ∈ c.shared.spawned) {final : Value}
    (hin : final ∈ (callLog worker.hist).told) (hid : bearsId final = true) :
    (∃ exit, FinalAt request call worker.hist exit final) ∧
    ∀ exit, FinalAt request call worker.hist exit final →
      (FairReport request (callLog worker.hist).read final ↔
        isSend request.query = true ∨ exit.observes (callLog worker.hist).read) :=
  ⟨final_at hr ht hs hin hid, fun _ hfinal => hfinal.fair_iff⟩

end Final

/-! ## 4. Runs of an observation -/

/-- The handshake and an `observe_sends` from cursor 5. -/
def observeMessages : List Value :=
  [requestMessage 1 "initialize" (.object []),
    notificationMessage "notifications/initialized" (.object []),
    requestMessage 2 "tools/call"
      (toolParams "observe_sends" [("cursor", .number (.int 5))])]

@[reducible] def observeCodec : McpCodec := sampleCodec observeMessages []

/-- The observation is dispatched, and its worker runs to its end. -/
def observedPool (reads : List ReadAnswers) : McpPool :=
  @McpScript.turn observeCodec { messagesScript [] [] with reads := reads } 60 1
    (stdioPool observeCodec observeMessages).firstWorker

theorem observedPool_reach (reads : List ReadAnswers) :
    Reach (@mcpSystem observeCodec) McpPool.initial (observedPool reads) := by
  have hworker := @McpPool.firstWorker_reach observeCodec _ _
    (stdioPool_reach observeCodec observeMessages) (stdioPool_idle observeCodec observeMessages)
  exact @McpScript.turn_reach observeCodec _ 60 1 _ _ hworker (@thread_live observeCodec _ hworker 1)

/-- A worker of a pool, with its request and its final message, known by what can be computed. -/
theorem computed_final {pool : McpPool} {query : SignalMessage.Query}
    {read : List SignalMessage.Response} {text : String}
    (hcomputed : (pool.threads 1).isSome = true ∧
      pool.shared.spawned.map (fun call => (call.1, call.2.query)) = [(0, query)] ∧
      (callLog (pool.hist 1)).read = read ∧
      ((callLog (pool.hist 1)).told.any fun value =>
        bearsId value && messageOf value == some text) = true) :
    ∃ worker request final, pool.threads 1 = some worker ∧ (0, request) ∈ pool.shared.spawned ∧
      request.query = query ∧ (callLog worker.hist).read = read ∧
      final ∈ (callLog worker.hist).told ∧ bearsId final = true ∧ messageOf final = some text := by
  obtain ⟨worker, request, final, ht, hin, hquery, hread, hmem, hboth⟩ := computed_told hcomputed
  obtain ⟨hid, hm⟩ := (Bool.and_eq_true _ _).mp hboth
  exact ⟨worker, request, final, ht, hin, hquery, hread, hmem, hid, beq_iff_eq.mp hm⟩

def readOk (response : SignalMessage.Response) : ReadAnswers := ⟨.ok 64, .ok (), .ok response⟩

/-- The observation could not be opened: the interruption repeats the caller's cursor. -/
def unopenedPool : McpPool :=
  observedPool [readOk (.observationInterrupted (some 5) "could not open")]

/-- The final error names no cursor, where the newest one is 5. -/
theorem resume_named_lost : ∃ (worker : McpThreadState) (request : CallRequest) (final : Value),
    Reach (@mcpSystem observeCodec) McpPool.initial unopenedPool ∧
    unopenedPool.threads 1 = some worker ∧ (0, request) ∈ unopenedPool.shared.spawned ∧
    (callLog worker.hist).read = [] ++ [.observationInterrupted (some 5) "could not open"] ∧
    final ∈ (callLog worker.hist).told ∧ bearsId final = true ∧
    newestCursor request.query [] (some 5) = some 5 ∧
    ¬ NamesCursor final (newestCursor request.query [] (some 5)) := by
  obtain ⟨worker, request, final, ht, hin, hquery, hread, hmem, hid, hm⟩ :=
    @computed_final unopenedPool (.observeThread (some 5) "t1")
      [.observationInterrupted (some 5) "could not open"] (interruptedText none)
      (by decide +kernel)
  refine ⟨worker, request, final, observedPool_reach _, ht, hin, hread, hmem, hid, rfl, fun hn => ?_⟩
  have hsame := interruptedText_injective (Option.some.inj (hm.symm.trans hn))
  cases hsame

/-- An observation that is interrupted after one frame. -/
def framePool : McpPool :=
  observedPool [readOk (.sendsObserved ⟨6, []⟩), readOk (.observationInterrupted none "closed")]

theorem framePool_reach : Reach (@mcpSystem observeCodec) McpPool.initial framePool :=
  observedPool_reach _

/-- Its worker, its request and its final message. -/
theorem framePool_final : ∃ worker request final, framePool.threads 1 = some worker ∧
    (0, request) ∈ framePool.shared.spawned ∧ request.query = .observeThread (some 5) "t1" ∧
    (callLog worker.hist).read =
      [.sendsObserved ⟨6, []⟩, .observationInterrupted none "closed"] ∧
    final ∈ (callLog worker.hist).told ∧ bearsId final = true ∧
    messageOf final = some (interruptedText (some 6)) :=
  computed_final (by decide +kernel)

theorem resume_named_frame : ∃ (worker : McpThreadState) (request : CallRequest) (final : Value),
    framePool.threads 1 = some worker ∧ final ∈ (callLog worker.hist).told ∧
    newestCursor request.query [.sendsObserved ⟨6, []⟩] none = some 6 ∧
    NamesCursor final (newestCursor request.query [.sendsObserved ⟨6, []⟩] none) := by
  obtain ⟨worker, request, final, ht, hin, hquery, hread, hmem, hid, _⟩ := framePool_final
  have hknown : ResumeKnown request.query [.sendsObserved ⟨6, []⟩] none :=
    Or.inl fun he => by cases he
  have hreach := framePool_reach
  obtain ⟨pool, hpool⟩ : ∃ pool, framePool = pool := ⟨_, rfl⟩
  rw [hpool] at ht hin hreach ⊢
  exact ⟨worker, request, final, ht, hmem, rfl, (@resume_named_iff observeCodec request 0 pool
    hreach worker ht hin [.sendsObserved ⟨6, []⟩] none "closed" hread final hmem hid).mpr hknown⟩

/-- The same run is told in words for an observation. -/
theorem fair_report_frame : ∃ (worker : McpThreadState) (request : CallRequest) (final : Value),
    framePool.threads 1 = some worker ∧ final ∈ (callLog worker.hist).told ∧
    isSend request.query = false ∧ FairReport request (callLog worker.hist).read final := by
  obtain ⟨worker, request, final, ht, hin, hquery, hread, hmem, hid, _⟩ := framePool_final
  have hreach := framePool_reach
  obtain ⟨pool, hpool⟩ : ∃ pool, framePool = pool := ⟨_, rfl⟩
  rw [hpool] at ht hin hreach ⊢
  obtain ⟨⟨exit, hfinal⟩, hiff⟩ := @fair_report_iff observeCodec request 0 pool hreach worker ht hin
    final hmem hid
  refine ⟨worker, request, final, ht, hmem, by rw [hquery]; rfl, (hiff exit hfinal).mpr (Or.inr ?_)⟩
  obtain ⟨before, _, _, _, hx, hsame, _⟩ := hfinal
  rcases hx.open_or_last with hopen | ⟨_, response, rfl, _⟩
  · rw [hsame, hread] at hopen
    have hlast := hopen [.sendsObserved ⟨6, []⟩] (.observationInterrupted none "closed") [] rfl
    cases hlast
  · trivial

/-- The stream to Message ends before the first frame. -/
def endedPool : McpPool :=
  observedPool [⟨.error "failed to fill whole buffer", .error "", .error ""⟩]

/-- The observation is told that the admission of a Send is unknown. -/
theorem fair_report_ended : ∃ (worker : McpThreadState) (request : CallRequest) (final : Value),
    Reach (@mcpSystem observeCodec) McpPool.initial endedPool ∧
    endedPool.threads 1 = some worker ∧ (0, request) ∈ endedPool.shared.spawned ∧
    isSend request.query = false ∧ final ∈ (callLog worker.hist).told ∧ bearsId final = true ∧
    ¬ FairReport request (callLog worker.hist).read final := by
  obtain ⟨worker, request, final, ht, hin, hquery, hread, hmem, hid, hm⟩ :=
    @computed_final endedPool (.observeThread (some 5) "t1") []
      ("Send admission outcome is unknown; do not retry blindly. " ++
        "Observe sender deliveries before another Send: " ++
        "Message stream ended: failed to fill whole buffer")
      (by decide +kernel)
  have hobserve : isSend request.query = false := by
    rw [hquery]
    rfl
  refine ⟨worker, request, final, observedPool_reach _, ht, hin, hobserve, hmem, hid, fun hfair => ?_⟩
  have hadmission : Begins "Send " "Send admission outcome is unknown; do not retry blindly. " :=
    begins_ofList (by decide)
  have hsend := (hfair.1 _ hm (Or.inl (begins_append (begins_append hadmission _) _))).1
  rw [hobserve] at hsend
  cases hsend

end MessageNexus
