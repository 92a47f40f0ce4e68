/-
  File:      MessageNexus/Mcp/Lines.lean
  Subject:   THE LINES THAT AN MCP CLIENT READS, over the adapter whose writes are not one operation
             (`Mcp/Stdout.lean`).

  * `mcpRound_oneLine`, `thread_oneLine` -- every value that a thread writes is printed on one line,
    where the parsed messages are;
  * `StdoutAccount` -- what stdout took, write by write, and what a client reads of it;
  * `stdout_lines` -- in every interleaving inside the writes, stdout has such an account, and the
    adapter whose writes are one operation shows the same.
-/
import MessageNexus.Mcp.Stdout
import MessageNexus.Mcp.Told

namespace MessageNexus

open Interact SignalFlow SignalMessage Json Text Framing

/-! ## 1. What is written is on one line -/

/-- The values of a request that its answers repeat are on one line. -/
structure CallRequest.OneLine (request : CallRequest) : Prop where
  id : request.id.OneLine
  token : request.progressToken.OneLine

/-- What an operation writes or hands on is on one line. -/
def McpOp.OneLine : McpOp → Prop
  | .writeJson value => value.OneLine
  | .spawn request _ => request.OneLine
  | _ => True

def McpLoop.OneLine : McpLoop → Prop
  | .read request _ _ => request.OneLine
  | _ => True

/-- A program that keeps to it. -/
abbrev LineKept (p : McpThread) (h : List McpEvent) : Prop :=
  Holds anyAnswer (fun _ o => McpOp.OneLine o)
    (Sum.elim (fun l _ => McpLoop.OneLine l) fun _ _ => True) p h

section Values

theorem rpcError_oneLine {id : Value} (hid : id.OneLine) (code : Int) (message : String) :
    (rpcError id code message).OneLine := by
  simp [rpcError, hid]

theorem rpcResult_oneLine {id result : Value} (hid : id.OneLine) (hresult : result.OneLine) :
    (rpcResult id result).OneLine := by
  simp [rpcResult, hid, hresult]

variable {request : CallRequest}

theorem progress_oneLine (hrequest : request.OneLine) (progress : Nat) (text : String) :
    (progressNotification request progress text).OneLine := by
  simp [progressNotification, hrequest.token]

theorem finalResponse_oneLine [McpCodec] (hrequest : request.OneLine) (state : ReadState)
    (response : SignalMessage.Response) : (finalResponse request state response).OneLine := by
  have hresult : ∀ text isError, (callResult request text isError).OneLine := fun text isError =>
    rpcResult_oneLine hrequest.id (by simp)
  cases response with
  | observationInterrupted text cursor => exact rpcError_oneLine hrequest.id _ _
  | _ => exact hresult _ _

/-- The members of a message that are looked up for a call. -/
theorem paramsOf_oneLine {input : Value} (hin : input.OneLine) : (paramsOf input).OneLine := by
  unfold paramsOf
  cases hparams : input.get "params" with
  | none => exact oneLine_null
  | some params => exact hin.get hparams

theorem callRequest_refused [McpCodec] {adapter : Adapter} {input response : Value}
    (hin : input.OneLine) (he : adapter.callRequest input = .error response) :
    response.OneLine := by
  unfold Adapter.callRequest at he
  cases hid : (input.get "id").filter isScalar with
  | none =>
      rw [hid] at he
      cases he
      exact rpcError_oneLine oneLine_null _ _
  | some id =>
      have hline : id.OneLine := hin.get (Option.filter_eq_some_iff.mp hid).1
      rw [hid] at he
      dsimp only at he
      by_cases hseen : id.text ∈ adapter.seenIds
      · rw [if_pos hseen] at he
        cases he
        exact rpcError_oneLine hline _ _
      rw [if_neg hseen] at he
      by_cases hfull : adapter.seenIds.length ≥ maxSeenCalls
      · rw [if_pos hfull] at he
        cases he
        exact rpcError_oneLine hline _ _
      rw [if_neg hfull] at he
      cases hready : adapter.ready with
      | false =>
          rw [hready] at he
          cases he
          exact rpcError_oneLine hline _ _
      | true =>
          rw [hready, if_neg (by decide)] at he
          cases htoken : ((paramsOf input).pointer ["_meta", "progressToken"]).filter isScalar with
          | none =>
              rw [htoken] at he
              cases he
              exact rpcError_oneLine hline _ _
          | some token =>
              rw [htoken] at he
              dsimp only at he
              cases hquery : threadQuery (paramsOf input) with
              | error message =>
                  rw [hquery] at he
                  cases he
                  exact rpcError_oneLine hline _ _
              | ok query =>
                  rw [hquery] at he
                  cases he

theorem callRequest_oneLine [McpCodec] {adapter next : Adapter} {input : Value}
    (hin : input.OneLine) (he : adapter.callRequest input = .ok (request, next)) :
    request.OneLine := by
  obtain ⟨haccepts, _⟩ := callRequest_ok he
  exact ⟨hin.get haccepts.id, (paramsOf_oneLine hin).pointer haccepts.token⟩

theorem synchronous_oneLine [McpCodec] {adapter next : Adapter} {input response : Value}
    (hin : input.OneLine) (he : adapter.synchronous input = (some response, next)) :
    response.OneLine := by
  have hanswer : ∀ id, input.get "id" = some id → id.OneLine := fun id hid => hin.get hid
  have hor : ((input.get "id").getD .null).OneLine := by
    cases hid : input.get "id" with
    | none => exact oneLine_null
    | some id => exact hanswer id hid
  unfold Adapter.synchronous at he
  split at he
  · cases he
    exact rpcError_oneLine hor _ _
  · cases hid : input.get "id" with
    | none =>
        rw [hid] at he
        dsimp only at he
        split at he <;> cases he
    | some id =>
        have hline := hanswer id hid
        rw [hid] at he
        dsimp only at he
        split at he
        · cases he
          exact rpcError_oneLine oneLine_null _ _
        split at he
        · cases he
          exact rpcResult_oneLine hline (by simp [initializeResult])
        split at he
        · cases he
          exact rpcResult_oneLine hline (by simp)
        split at he
        · cases he
          exact rpcError_oneLine hline _ _
        split at he
        · cases he
          exact rpcResult_oneLine hline (by simp [toolsListResult])
        split at he
        · cases he
        · cases he
          exact rpcError_oneLine hline _ _

end Values

/-! ## 2. The threads keep to it -/

section Programs

variable {request : CallRequest} {call : Nat} {h : List McpEvent}

/-- The end of a worker writes nothing. -/
theorem leave_oneLine : LineKept (removeCall request >>= fun _ => finishCall call) h :=
  ⟨trivial, fun _ _ => ⟨trivial, fun _ _ => ⟨trivial, fun _ _ => ⟨trivial, fun _ _ => trivial⟩⟩⟩⟩

theorem giveUp_oneLine (hrequest : request.OneLine) (code : Int) (message : String) :
    LineKept (giveUp request call code message) h := by
  refine ⟨trivial, fun alive _ => ?_⟩
  cases alive with
  | false => exact leave_oneLine
  | true => exact ⟨rpcError_oneLine hrequest.id _ _, fun _ _ => leave_oneLine⟩

theorem giveUpFailed_oneLine (hrequest : request.OneLine) (error : String) :
    LineKept (giveUpFailed request call error) h := by
  refine ⟨trivial, fun alive _ => ?_⟩
  cases alive with
  | false => exact leave_oneLine
  | true =>
      refine ⟨trivial, fun told _ => ⟨trivial, fun coded _ => ?_⟩⟩
      exact ⟨rpcError_oneLine hrequest.id _ _, fun _ _ => leave_oneLine⟩

theorem endCall_oneLine (hrequest : request.OneLine) (state : ReadState) {final : Option Value}
    (hfinal : ∀ response, final = some response → response.OneLine) :
    LineKept (endCall request call state final) h := by
  refine ⟨trivial, fun _ _ => ⟨trivial, fun _ _ => ⟨trivial, fun _ _ => ?_⟩⟩⟩
  cases final with
  | some response => exact ⟨hfinal response rfl, fun _ _ => ⟨trivial, fun _ _ => trivial⟩⟩
  | none =>
      refine ⟨trivial, fun cancelled _ => ?_⟩
      cases cancelled with
      | false => exact ⟨trivial, fun _ _ => trivial⟩
      | true =>
          refine ⟨trivial, fun alive _ => ?_⟩
          cases alive with
          | false => exact ⟨trivial, fun _ _ => trivial⟩
          | true =>
              refine ⟨rpcError_oneLine hrequest.id _ _, fun _ _ => ?_⟩
              exact ⟨trivial, fun _ _ => trivial⟩

theorem endCall_oneLine_none (hrequest : request.OneLine) (state : ReadState) :
    LineKept (endCall request call state none) h :=
  endCall_oneLine hrequest state fun response he => (by cases he)

theorem endCall_oneLine_some (hrequest : request.OneLine) (state : ReadState) {response : Value}
    (hresponse : response.OneLine) : LineKept (endCall request call state (some response)) h :=
  endCall_oneLine hrequest state fun _ he => Option.some.inj he ▸ hresponse

variable [McpCodec]

theorem readRound_oneLine (hrequest : request.OneLine) (state : ReadState) :
    LineKept (readRound request call state) h := by
  refine ⟨trivial, fun cancelled _ => ?_⟩
  cases cancelled with
  | true => exact endCall_oneLine_none hrequest state
  | false =>
      refine ⟨trivial, fun answers _ => ?_⟩
      dsimp only [Prog.bind]
      cases readResponseResult answers with
      | ok response =>
          refine ⟨progress_oneLine hrequest _ _, fun written _ => ?_⟩
          cases written with
          | error error =>
              refine ⟨trivial, fun _ _ => ⟨trivial, fun _ _ => ⟨trivial, fun _ _ => ?_⟩⟩⟩
              exact endCall_oneLine_none hrequest _
          | ok =>
              dsimp only [Prog.bind]
              by_cases hlast : terminalFor (state.after response).acceptedId response
              · rw [if_pos hlast]
                exact endCall_oneLine_some hrequest _ (finalResponse_oneLine hrequest _ _)
              · rw [if_neg hlast]
                exact hrequest
      | error error =>
          refine ⟨trivial, fun cancelled _ => ?_⟩
          cases cancelled with
          | true => exact endCall_oneLine_none hrequest state
          | false =>
              exact endCall_oneLine_some hrequest state (rpcError_oneLine hrequest.id _ _)

omit [McpCodec] in
theorem runCall_oneLine (hrequest : request.OneLine) : LineKept (runCall request call) h := by
  refine ⟨trivial, fun cancelled _ => ?_⟩
  cases cancelled with
  | true => exact giveUp_oneLine hrequest _ _
  | false =>
      refine ⟨trivial, fun answers _ => ?_⟩
      dsimp only [Prog.bind]
      cases connectResult answers with
      | error error => exact giveUpFailed_oneLine hrequest error
      | ok =>
          refine ⟨trivial, fun clone _ => ?_⟩
          cases clone with
          | error error => exact giveUp_oneLine hrequest _ _
          | ok =>
              refine ⟨trivial, fun _ _ => ⟨trivial, fun _ _ => ⟨trivial, fun _ _ => ?_⟩⟩⟩
              refine ⟨trivial, fun cancelled _ => ?_⟩
              cases cancelled with
              | true => exact ⟨trivial, fun _ _ => hrequest⟩
              | false =>
                  refine ⟨trivial, fun answers _ => ?_⟩
                  dsimp only [Prog.bind]
                  cases sendResult answers with
                  | error error => exact giveUpFailed_oneLine hrequest error
                  | ok => exact hrequest

omit [McpCodec] in
/-- Cancelling writes nothing. -/
theorem cancelCalls_oneLine (calls : List ActiveCall) :
    Uses (fun o => McpOp.OneLine o) (cancelCalls calls) :=
  cancelCalls_uses (fun _ => trivial) (fun _ => trivial) calls

omit [McpCodec] in
theorem endLines_oneLine (workers : List Nat) : LineKept (endLines workers) h := by
  refine ⟨trivial, fun _ _ => ⟨trivial, fun _ _ => ⟨trivial, fun calls _ => ?_⟩⟩⟩
  refine (holds_bind (cancelCalls calls) _ _).mpr ?_
  refine (cancelCalls_oneLine calls).performs fun _ _ => ?_
  exact ⟨trivial, fun _ _ => trivial⟩

omit [McpCodec] in
theorem loseConnection_oneLine (workers : List Nat) : LineKept (loseConnection workers) h :=
  ⟨trivial, fun _ _ => endLines_oneLine workers⟩

omit [McpCodec] in
theorem answerLine_oneLine (workers : List Nat) {response : Value} (hline : response.OneLine)
    {next : McpLoop} (hnext : next.OneLine) : LineKept (answerLine workers response next) h := by
  refine ⟨hline, fun written _ => ?_⟩
  cases written with
  | error error => exact loseConnection_oneLine workers
  | ok => exact hnext

omit [McpCodec] in
theorem dispatchCall_oneLine (adapter : Adapter) (workers : List Nat) (hrequest : request.OneLine) :
    LineKept (dispatchCall adapter workers request) h := by
  refine ⟨trivial, fun _ _ => ⟨trivial, fun active _ => ⟨trivial, fun _ _ => ?_⟩⟩⟩
  dsimp only [Prog.bind]
  by_cases hfull : active ≥ maxActiveCalls
  · rw [if_pos hfull]
    exact answerLine_oneLine workers (rpcError_oneLine hrequest.id _ _) trivial
  · rw [if_neg hfull]
    refine ⟨trivial, fun _ _ => ⟨trivial, fun _ _ => ⟨trivial, fun _ _ => ⟨trivial, fun _ _ => ?_⟩⟩⟩⟩
    exact ⟨hrequest, fun _ _ => trivial⟩

theorem dispatchInput_oneLine (adapter : Adapter) (workers : List Nat) {input : Value}
    (hin : input.OneLine) : LineKept (dispatchInput adapter workers input) h := by
  unfold dispatchInput
  by_cases hcancel : methodOf input = some "notifications/cancelled"
  · rw [if_pos hcancel]
    refine (holds_bind (cancelNamed input) _ _).mpr ?_
    refine (cancelNamed_uses (P := McpOp.OneLine) trivial (fun _ => trivial) (fun _ => trivial)
      (fun _ => trivial) trivial input).performs fun _ _ => ?_
    exact trivial
  rw [if_neg hcancel]
  by_cases hcall : methodOf input = some "tools/call"
  · rw [if_pos hcall]
    cases hrequest : adapter.callRequest input with
    | error response => exact answerLine_oneLine workers (callRequest_refused hin hrequest) trivial
    | ok accepted => exact dispatchCall_oneLine _ workers (callRequest_oneLine hin hrequest)
  · rw [if_neg hcall]
    cases hanswer : adapter.synchronous input with
    | mk response next =>
        cases response with
        | some response => exact answerLine_oneLine workers (synchronous_oneLine hin hanswer) trivial
        | none => exact trivial

/-- Every round keeps to it, where a parsed message is one line when it is printed. -/
theorem mcpRound_oneLine
    (hparse : ∀ line value, McpCodec.fromStr line = some value → value.OneLine) (l : McpLoop)
    (hl : l.OneLine) : LineKept (mcpRound l) h := by
  cases l with
  | read request call state => exact readRound_oneLine hl state
  | reap adapter workers index =>
      show LineKept (reapRound adapter workers index) h
      unfold reapRound
      cases workers[index]? with
      | none => exact trivial
      | some worker =>
          refine ⟨trivial, fun finished _ => ?_⟩
          cases finished with
          | false => exact trivial
          | true => exact ⟨trivial, fun _ _ => trivial⟩
  | joins workers =>
      cases workers with
      | nil => exact trivial
      | cons worker workers => exact ⟨trivial, fun _ _ => trivial⟩
  | lines adapter workers =>
      refine ⟨trivial, fun read _ => ?_⟩
      cases read with
      | error error => exact loseConnection_oneLine workers
      | ok line =>
          dsimp only [Prog.bind]
          by_cases hempty : line = ""
          · rw [if_pos hempty]
            exact loseConnection_oneLine workers
          rw [if_neg hempty]
          by_cases hlong : maxLine < line.utf8ByteSize
          · rw [if_pos hlong]
            exact endLines_oneLine workers
          rw [if_neg hlong]
          unfold dispatchLine
          cases hvalue : McpCodec.fromStr line with
          | none => exact answerLine_oneLine workers (rpcError_oneLine oneLine_null _ _) trivial
          | some input => exact dispatchInput_oneLine adapter workers (hparse line input hvalue)

variable {c : McpPool}

/-- What a thread of the adapter has written, and is about to write, is on one line. -/
theorem thread_oneLine
    (hparse : ∀ line value, McpCodec.fromStr line = some value → value.OneLine)
    (hr : Reach mcpSystem McpPool.initial c) {t : Nat} {th : McpThreadState}
    (ht : c.threads t = some th) :
    LineKept th.rest th.hist ∧ Issued (fun _ o => McpOp.OneLine o) th.hist := by
  have hstdio : ∀ {th : McpThreadState}, c.threads 0 = some th →
      LineKept th.rest th.hist ∧ Issued (fun _ o => McpOp.OneLine o) th.hist := by
    intro th ht
    have hstart : LineKept th.start [] := (stdio_started hr ht) ▸ trivial
    exact ⟨hr.holds (fun l h hl => mcpRound_oneLine hparse l hl) ht hstart,
      hr.issued (fun l h hl => mcpRound_oneLine hparse l hl) ht hstart⟩
  cases t with
  | zero => exact hstdio ht
  | succ call =>
      obtain ⟨request, hin, hstart⟩ := worker_started hr ht
      -- the request was spawned by the stdio loop, which keeps to it
      obtain ⟨_, hspawned⟩ := disciplined hr 0
      rw [hspawned] at hin
      have hevent := mem_spawned.mp hin
      have hrequest : request.OneLine := by
        cases hzero : c.threads 0 with
        | none =>
            rw [Pool.hist, hzero] at hevent
            cases hevent
        | some stdio =>
            rw [Pool.hist_of hzero] at hevent
            have hall := Along.forall (A := fun e : McpEvent => McpOp.OneLine e.op) (hstdio hzero).2
            exact hall _ hevent
      have hkept : LineKept th.start [] := by
        rw [hstart]
        exact runCall_oneLine hrequest
      exact ⟨hr.holds (fun l h hl => mcpRound_oneLine hparse l hl) ht hkept,
        hr.issued (fun l h hl => mcpRound_oneLine hparse l hl) ht hkept⟩

end Programs

/-! ## 3. The lines of stdout -/

/-- One write of a line that is over: whose it is, the value, the result, and the bytes taken. -/
structure LineWrite where
  thread : Nat
  value : Value
  result : Except IoError Unit
  bytes : List UInt8

/-- The holder of stdout's mutex is inside its write of this value. -/
def Writing (c' : StdioPool) (c : McpPool) (value : Value) : Prop :=
  ∃ t th k, c'.shared.holder = some t ∧ c.threads t = some th ∧ th.rest = .ask (.writeJson value) k

/-- What stdout took, write by write in the order of their sections, and the rest of the open one;
    and what a client reads. -/
structure StdoutAccount (c' : StdioPool) (c : McpPool) (log : List LineWrite)
    (rest : List UInt8) : Prop where
  /-- The writes of each thread are in its own order. -/
  own : ∀ t, (log.filter fun line => line.thread = t).map (fun line => (line.value, line.result)) =
    (c.hist t).filterMap wroteJson?
  /-- A write that went well put its whole line there, any other one the beginning of it. -/
  whole : ∀ line ∈ log, line.bytes <+: lineBytes line.value ∧
    (line.result = .ok () → line.bytes = lineBytes line.value)
  /-- No write comes between the bytes of another. -/
  written : c'.shared.written = log.flatMap (·.bytes) ++ rest
  late : rest = [] ∨ ∃ value, Writing c' c value ∧ rest <+: lineBytes value
  /-- Up to the first failure the lines of stdout are the written values, one by one. -/
  begins : ∀ before, before <+: log → (∀ line ∈ before, line.result = .ok ()) →
    before.map (fun line => lineBytes line.value) <+: (splitLines newline c'.shared.written).1
  reads : (∀ line ∈ log, line.result = .ok ()) →
    (splitLines newline c'.shared.written).1 = log.map (fun line => lineBytes line.value) ∨
      ∃ value, Writing c' c value ∧ (splitLines newline c'.shared.written).1 =
        log.map (fun line => lineBytes line.value) ++ [lineBytes value]

/-- A value on one line is printed as one line. -/
theorem lineBytes_isLine {value : Value} (h : value.OneLine) : IsLine newline (lineBytes value) := by
  refine ⟨textBytes value.text, rfl, fun hin => h ?_⟩
  rw [textBytes_eq, Value.text, String.toList_ofList] at hin
  exact (ascii_mem_encode (c := '\n') (by decide)).mp hin

/-- The beginning of a line is the line, or has no newline. -/
theorem splitLines_begun {line rest : List UInt8} (hline : IsLine newline line)
    (hrest : rest <+: line) : (splitLines newline rest).1 = [] ∨
      rest = line ∧ (splitLines newline rest).1 = [line] := by
  obtain ⟨text, rfl, htext⟩ := hline
  rcases List.prefix_concat_iff.mp hrest with rfl | hpart
  · have hone := @splitLines_append _ _ newline [text ++ [newline]]
      (fun l hl => ⟨text, List.mem_singleton.mp hl, htext⟩) []
    rw [List.flatten_singleton, List.append_nil] at hone
    exact Or.inr ⟨rfl, by rw [hone]; rfl⟩
  · rw [splitLines_none fun hin => htext (hpart.subset hin)]
    exact Or.inl rfl

/-- Writes that went well put their lines there. -/
theorem bytes_of_ok {log : List LineWrite}
    (hwhole : ∀ line ∈ log, line.bytes <+: lineBytes line.value ∧
      (line.result = .ok () → line.bytes = lineBytes line.value))
    (hok : ∀ line ∈ log, line.result = .ok ()) :
    log.flatMap (·.bytes) = (log.map fun line => lineBytes line.value).flatten := by
  induction log with
  | nil => rfl
  | cons line log ih =>
      have hline := (hwhole line List.mem_cons_self).2 (hok line List.mem_cons_self)
      rw [List.flatMap_cons, List.map_cons, List.flatten_cons, hline,
        ih (fun l hl => hwhole l (List.mem_cons_of_mem _ hl))
          fun l hl => hok l (List.mem_cons_of_mem _ hl)]

theorem foldl_took (es : List StdioEvent) (written : List UInt8) :
    es.foldl (fun written e => written ++ tookOf e) written = written ++ tookAll es := by
  induction es generalizing written with
  | nil => exact (List.append_nil written).symm
  | cons e es ih =>
      rw [List.foldl_cons, ih, List.append_assoc]
      rfl

section Account

variable {c' : StdioPool} {c : McpPool}

/-- A write in the log was one of its thread. -/
theorem mem_own {log : List LineWrite}
    (hown : ∀ t, (log.filter fun line => line.thread = t).map
      (fun line => (line.value, line.result)) = (c.hist t).filterMap wroteJson?)
    {line : LineWrite} (hin : line ∈ log) :
    (⟨.writeJson line.value, line.result⟩ : McpEvent) ∈ c.hist line.thread := by
  have hmine : (line.value, line.result) ∈ (c.hist line.thread).filterMap wroteJson? := by
    rw [← hown line.thread]
    exact List.mem_map.mpr ⟨line, List.mem_filter.mpr ⟨hin, by simp⟩, rfl⟩
  obtain ⟨⟨o, a⟩, he, hwrote⟩ := List.mem_filterMap.mp hmine
  cases o with
  | writeJson value =>
      cases hwrote
      exact he
  | _ => cases hwrote

/-- The account, where all values are on one line. -/
theorem stdoutAccount {log : List LineWrite} {rest : List UInt8}
    (hown : ∀ t, (log.filter fun line => line.thread = t).map
      (fun line => (line.value, line.result)) = (c.hist t).filterMap wroteJson?)
    (hwhole : ∀ line ∈ log, line.bytes <+: lineBytes line.value ∧
      (line.result = .ok () → line.bytes = lineBytes line.value))
    (hwritten : c'.shared.written = log.flatMap (·.bytes) ++ rest)
    (hlate : rest = [] ∨ ∃ value, Writing c' c value ∧ rest <+: lineBytes value)
    (hlog : ∀ line ∈ log, line.value.OneLine)
    (hwriting : ∀ value, Writing c' c value → value.OneLine) : StdoutAccount c' c log rest := by
  have hlines : ∀ before, before <+: log →
      ∀ line ∈ before.map (fun line => lineBytes line.value), IsLine newline line := by
    intro before hbefore line hin
    obtain ⟨write, hwrite, rfl⟩ := List.mem_map.mp hin
    exact lineBytes_isLine (hlog write (hbefore.subset hwrite))
  refine ⟨hown, hwhole, hwritten, hlate, ?_, fun hok => ?_⟩
  · rintro before ⟨after, rfl⟩ hok
    have hbytes := bytes_of_ok (fun line hin => hwhole line (List.mem_append_left after hin)) hok
    rw [hwritten, List.flatMap_append, List.append_assoc, hbytes,
      splitLines_append (hlines before (List.prefix_append _ _))]
    exact List.prefix_append _ _
  · rw [hwritten, bytes_of_ok hwhole hok, splitLines_append (hlines log List.prefix_rfl)]
    rcases hlate with rfl | ⟨value, hin, hpart⟩
    · exact Or.inl (List.append_nil _)
    · rcases splitLines_begun (lineBytes_isLine (hwriting value hin)) hpart with hnone | ⟨_, hone⟩
      · rw [hnone]
        exact Or.inl (List.append_nil _)
      · rw [hone]
        exact Or.inr ⟨value, hin, rfl⟩

variable [McpCodec] [DisplaysJson]

/-- The sections of each thread, in the order of stdout, are those of its writes. -/
theorem order_own (hshows : stdioExpansion.Shows c' c)
    {order : List (Nat × List StdioEvent)} {eff : List UInt8 → StdioEvent → List UInt8}
    (hserial : stdoutMutex.Serial StdioShared.written eff [] c' order) (t : Nat) :
    List.Forall₂ (fun part wrote => Wrote wrote.1 wrote.2 part)
      ((order.filter fun own => own.1 = t).map (·.2)) ((c.hist t).filterMap wroteJson?) := by
  rw [hserial.sections t]
  cases ht : c'.threads t with
  | none =>
      have hnone := hshows.free ht
      rw [Pool.hist, ht, Pool.hist, hnone]
      exact .nil
  | some th' =>
      obtain ⟨th, part, hth, hexp⟩ := hshows.thread ht
      rw [Pool.hist_of ht, Pool.hist_of hth]
      exact (thread_cuts hexp).1

/-- The open section is that of the write that the holder is in. -/
theorem open_writing (hshows : stdioExpansion.Shows c' c) : stdoutMutex.openPart c' = [] ∨
    ∃ value, Writing c' c value ∧ Inside value (stdoutMutex.openPart c') := by
  unfold Mutex.openPart
  cases hholder : stdoutMutex.holder c'.shared with
  | none => exact Or.inl rfl
  | some t =>
      dsimp only
      cases ht : c'.threads t with
      | none =>
          rw [Pool.hist, ht]
          exact Or.inl rfl
      | some th' =>
          obtain ⟨th, part, hth, hexp⟩ := hshows.thread ht
          rw [Pool.hist_of ht]
          rcases (thread_cuts hexp).2 with hnone | ⟨value, k, hrest, hin⟩
          · exact Or.inl hnone
          · exact Or.inr ⟨value, ⟨t, th, k, hholder, hth, hrest⟩, hin⟩

/-- In every interleaving inside the writes: stdout holds the written values line by line, each
    thread's in its order, and the adapter whose writes are one operation shows the same. -/
theorem stdout_lines (hparse : ∀ line value, McpCodec.fromStr line = some value → value.OneLine)
    (hr : Reach stdioSystem StdioPool.initial c') :
    ∃ c, Reach mcpSystem McpPool.initial c ∧ stdioExpansion.Shows c' c ∧
      ∃ log rest, StdoutAccount c' c log rest := by
  obtain ⟨c, hc, hshows⟩ := stdioExpansion.reach hr
  have hsections : ∃ order, stdoutMutex.Serial StdioShared.written
      (fun written e => written ++ tookOf e) [] c' order :=
    stdoutMutex.serial rfl (fun c hrc t th ht => stdout_places hrc ht)
      (fun _ _ _ _ hs => written_after hs)
      (fun e he v => by rw [tookOf_outside he, List.append_nil])
      (fun _ _ _ _ hs => by obtain ⟨_, _, _, hs'⟩ := hs; rw [hs']) (fun _ _ h => h) hr
  obtain ⟨order, hserial⟩ := hsections
  obtain ⟨log, hlog, hmine, hall⟩ := exists_log order _ (order_own hshows hserial)
  have hown : ∀ t, ((log.map fun item => (⟨item.1, item.2.2.1, item.2.2.2, tookAll item.2.1⟩ :
      LineWrite)).filter fun line => line.thread = t).map (fun line => (line.value, line.result)) =
      (c.hist t).filterMap wroteJson? := by
    intro t
    rw [List.filter_map, List.map_map, ← hmine t]
    rfl
  refine ⟨c, hc, hshows, _, tookAll (stdoutMutex.openPart c'), stdoutAccount hown ?_ ?_ ?_ ?_ ?_⟩
  · intro line hin
    obtain ⟨item, hitem, rfl⟩ := List.mem_map.mp hin
    exact ⟨(hall item hitem).part, (hall item hitem).whole⟩
  · have hbytes : tookAll (order.flatMap (·.2)) = log.flatMap fun item => tookAll item.2.1 := by
      rw [← hlog, List.flatMap_map, tookAll, List.flatMap_assoc]
      rfl
    rw [hserial.view, foldl_took, tookAll_append, hbytes, List.flatMap_map]
    rfl
  · rcases open_writing hshows with hnone | ⟨value, hin, hopen⟩
    · rw [hnone]
      exact Or.inl rfl
    · exact Or.inr ⟨value, hin, hopen.part⟩
  · intro line hin
    have hevent := mem_own hown hin
    cases ht : c.threads line.thread with
    | none =>
        rw [Pool.hist, ht] at hevent
        cases hevent
    | some th =>
        rw [Pool.hist_of ht] at hevent
        exact Along.forall (A := fun e : McpEvent => McpOp.OneLine e.op)
          (thread_oneLine hparse hc ht).2 _ hevent
  · rintro value ⟨t, th, k, _, ht, hrest⟩
    have hkept := (thread_oneLine hparse hc ht).1
    rw [hrest] at hkept
    exact hkept.1

end Account

/-! ## 4. A write that is under way -/

/-- A display that hands on the first byte on its own. -/
@[reducible] def sampleDisplay : DisplaysJson where
  pieces value := [(textBytes value.text).take 1, (textBytes value.text).drop 1]
  whole value := by
    simp only [List.flatten_cons, List.flatten_nil, List.append_nil, List.take_append_drop]

/-- The answer of a script, with a stdout that takes everything. -/
def McpScript.stdio (script : McpScript) (t : Nat) (s : StdioShared) (h : List StdioEvent) :
    (o : StdioOp) → Option (StdioAns o × StdioShared)
  | .inl o => (script.answer s.base (h.filterMap visible) o).map fun a =>
      (a, { s with base := s.base.after t o })
  | .inr .lock => if s.holder = none then some ((), { s with holder := some t }) else none
  | .inr (.writeAll piece) => some (none, { s with written := s.written ++ piece })
  | .inr .flush => some (.ok (), s)
  | .inr .unlock => some ((), { s with holder := none })

/-- The script keeps to the system. -/
theorem McpScript.stdio_sem (script : McpScript) (t : Nat) (s : StdioShared)
    (h : List StdioEvent) (o : StdioOp) (a : StdioAns o) (s' : StdioShared)
    (ha : script.stdio t s h o = some (a, s')) : stdioSem s t ⟨o, a⟩ s' := by
  match o with
  | .inl o =>
      obtain ⟨b, hb, he⟩ := Option.map_eq_some_iff.mp ha
      cases he
      refine ⟨script.answer_sem t s.base (h.filterMap visible) o _ (s.base.after t o) ?_, rfl⟩
      rw [hb, Option.map_some]
  | .inr .lock =>
      by_cases hfree : s.holder = none
      · rw [McpScript.stdio, if_pos hfree] at ha
        cases ha
        exact ⟨hfree, rfl⟩
      · rw [McpScript.stdio, if_neg hfree] at ha
        cases ha
  | .inr (.writeAll piece) => cases ha; rfl
  | .inr .flush => cases ha; rfl
  | .inr .unlock => cases ha; rfl

/-- The messages of the run. -/
def pingMessages : List Value :=
  [requestMessage 1 "ping" (.object []), requestMessage 2 "ping" (.object [])]

/-- Two requests are read, the first is answered, and the second answer is under way. -/
def underWay : StdioPool :=
  let codec := sampleCodec pingMessages []
  let script : McpScript :=
    ⟨pingMessages.map fun message => message.text ++ "\n", ⟨.ok (), .ok ()⟩, .ok (),
      ⟨.ok 1, .ok (), .ok ()⟩, [], .ok ()⟩
  (StdioPool.initial.put .initial 0 (.fresh (runStdio.expand (@stdioStep sampleDisplay)))).turn
    (@stdioSystem codec sampleDisplay) (script.stdio 0) 13 0

theorem underWay_reach :
    Reach (@stdioSystem (sampleCodec pingMessages []) sampleDisplay) StdioPool.initial underWay := by
  have hstart : Reach (@stdioSystem (sampleCodec pingMessages []) sampleDisplay) StdioPool.initial
      (StdioPool.initial.put .initial 0 (.fresh (runStdio.expand (@stdioStep sampleDisplay)))) :=
    .single (.start _ 0 _ _ rfl ⟨runStdio, rfl, ⟨rfl, Or.inl ⟨rfl, rfl⟩⟩, rfl⟩)
  refine hstart.turn (fun s h o a s' => McpScript.stdio_sem _ 0 s h o a s') 13 ?_
  intro th ht
  rw [Pool.put_self] at ht
  cases ht
  rfl

/-- One line is out, and the first byte of the next one. -/
theorem stdout_lines_underWay : underWay.shared.holder = some 0 ∧
    underWay.shared.written = lineBytes (rpcResult (.number (.int 1)) (.object [])) ++ [123] ∧
    ∃ c, Reach (@mcpSystem (sampleCodec pingMessages [])) McpPool.initial c ∧
      (@stdioExpansion (sampleCodec pingMessages []) sampleDisplay).Shows underWay c ∧
      ∃ log rest, StdoutAccount underWay c log rest := by
  have hnow : underWay.shared.holder = some 0 ∧ underWay.shared.written =
      lineBytes (rpcResult (.number (.int 1)) (.object [])) ++ [123] := by
    decide +kernel
  refine ⟨hnow.1, hnow.2, @stdout_lines underWay (sampleCodec pingMessages []) sampleDisplay ?_
    underWay_reach⟩
  intro line value hfound
  have hin : value ∈ pingMessages := List.mem_of_find?_eq_some hfound
  have hall : ∀ message ∈ pingMessages, message.OneLine := by
    simp [pingMessages, requestMessage]
  exact hall value hin

end MessageNexus
