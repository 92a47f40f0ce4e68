/-
  File:      MessageNexus/Wire/EndToEnd.lean
  Subject:   FROM FLOW TO THE MCP CLIENT AND BACK: a call of the adapter, the bytes of its
             connection, and the handler of the Nexus at the other end, as one system.

  * `Wired` -- a worker and a handler on the two ends of one stream, which may be cut and fail
    anywhere and arrives in any pieces;
  * `wired_query`, `wired_read` -- the handler answers the query of the call, and the worker reads
    the first frames that the handler writes;
  * `FlowDelivered`, `FlowFailed` -- Flow's own word on a send;
  * `result_told` -- a tool result says delivered only on Flow's word on this very send.
-/
import MessageNexus.Mcp.Verdicts
import MessageNexus.Nexus.Written

namespace MessageNexus

open Interact SignalFlow Framing

/-! ## 1. The two ends of a stream -/

section Wire

variable [Rkyv SignalMessage.Query] [Rkyv SignalMessage.Response]

/-- The bytes that a worker put on its stream: none, or what its send wrote. -/
def SentBy (worker : List McpEvent) (bytes : List UInt8) : Prop :=
  bytes = [] ∨ ∃ call query faults,
    (⟨.send call query, WriteFaults.sendAnswers faults query⟩ : McpEvent) ∈ worker ∧
    bytes = (Framer.send.write query faults).2

/-- A worker of the adapter and a handler of the Nexus on one stream. Each reads what the other
    wrote, up to some point, in any pieces, and then the end or a failure. -/
structure Wired (worker : List McpEvent) (handler : List NexusEvent) : Prop where
  asks : ∃ bytes, ∃ s : ByteStream, SentBy worker bytes ∧ s.bytes <+: bytes ∧
    ∀ read, (⟨.readQuery, read⟩ : NexusEvent) ∈ handler →
      read = (Unframer.readFrame.read SignalMessage.Query s).map (·.1)
  answers : ∃ bytes, ∃ s : ByteStream, ∃ n, OnStream wroteResponse? handler bytes ∧
    s.bytes <+: bytes ∧ worker.filterMap readMet? = answersFrom .readResponse n s

omit [Rkyv SignalMessage.Query] in
/-- A client on the stream reads the first frames that the handler writes. -/
theorem frames_read (hrkyv : ReadsBack SignalMessage.Response) {r : Unframer String}
    {result : ReadAnswers → Except String SignalMessage.Response}
    (hresult : ∀ s, (r.read SignalMessage.Response s).map (·.1) = result (readAnswers s))
    {handler : List NexusEvent} (hstops : StopsWriting wroteResponse? handler)
    {bytes : List UInt8} (hon : OnStream wroteResponse? handler bytes) {s : ByteStream}
    (hs : s.bytes <+: bytes) (n : Nat) :
    (answersFrom r n s).filterMap (fun answers => (result answers).toOption) <+:
      written handler := by
  obtain ⟨values, all, hframes, hvalues, hbytes, _⟩ := onStream_frames hon hstops
  rw [answersFrom_read hresult]
  rw [valuesOf_written] at hvalues
  exact (read_part hrkyv r n hframes (hs.trans hbytes)).trans hvalues

omit [Rkyv SignalMessage.Query] in
/-- The worker reads the first frames that the handler writes. -/
theorem wired_read (hrkyv : ReadsBack SignalMessage.Response) {worker : List McpEvent}
    {handler : List NexusEvent} (hstops : StopsWriting wroteResponse? handler)
    (hwired : ∃ bytes, ∃ s : ByteStream, ∃ n, OnStream wroteResponse? handler bytes ∧
      s.bytes <+: bytes ∧ worker.filterMap readMet? = answersFrom .readResponse n s) :
    (callLog worker).read <+: written handler := by
  obtain ⟨bytes, s, n, hon, hs, hreads⟩ := hwired
  rw [callLog_read, hreads]
  exact frames_read hrkyv readResponse_result hstops hon hs n

variable [McpCodec] {c : McpPool} {call : Nat} {request : CallRequest} {worker : McpThreadState}

omit [Rkyv SignalMessage.Query] [Rkyv SignalMessage.Response] in
/-- A worker sends the query of its request. -/
theorem sends_own (hr : Reach mcpSystem McpPool.initial c)
    (ht : c.threads (call + 1) = some worker) (hs : (call, request) ∈ c.shared.spawned)
    {n : Nat} {query : SignalMessage.Query} {answers : SendAnswers}
    (hin : (⟨.send n query, answers⟩ : McpEvent) ∈ worker.hist) : query = request.query := by
  have hwalk := worker_hist hr (call + 1)
  rw [Pool.hist_of ht] at hwalk
  rcases hwalk with hnil | ⟨other, hother, hi⟩
  · rw [hnil] at hin
    cases hin
  · obtain ⟨hstdio, hspawned⟩ := disciplined hr 0
    rw [hspawned] at hs hother
    have hsame := spawned_numbers hstdio _ hs _ hother rfl
    obtain ⟨before, after, hhist⟩ := List.append_of_mem hin
    rw [hhist] at hi
    obtain ⟨_, ⟨_, hquery⟩, _⟩ := hi.at
    rw [hquery, (Prod.mk.inj hsame).2]

omit [Rkyv SignalMessage.Response] in
/-- The handler is asked the query of the call. -/
theorem wired_query (hrkyv : ReadsBack SignalMessage.Query)
    (hr : Reach mcpSystem McpPool.initial c) (ht : c.threads (call + 1) = some worker)
    (hs : (call, request) ∈ c.shared.spawned) {handler : List NexusEvent} {process : Process}
    {query : SignalMessage.Query} (ha : asked handler = some (process, query))
    (hwired : ∃ bytes, ∃ s : ByteStream, SentBy worker.hist bytes ∧ s.bytes <+: bytes ∧
      ∀ read, (⟨.readQuery, read⟩ : NexusEvent) ∈ handler →
        read = (Unframer.readFrame.read SignalMessage.Query s).map (·.1)) :
    query = request.query := by
  obtain ⟨bytes, s, hsent, hbytes, hread⟩ := hwired
  obtain ⟨rest, hhist⟩ := asked_eq ha
  have hgot := hread (.ok query) (by rw [hhist]; exact List.mem_cons_self)
  cases hfirst : Unframer.readFrame.read SignalMessage.Query s with
  | error e =>
      rw [hfirst] at hgot
      cases hgot
  | ok read =>
      obtain ⟨value, s'⟩ := read
      rw [hfirst] at hgot
      cases hgot
      rcases hsent with rfl | ⟨n, sent, faults, hin, rfl⟩
      · exact absurd hfirst (read_nothing hrkyv (List.prefix_nil.mp hbytes))
      · rw [read_own hrkyv (Or.inl send_checked) hbytes hfirst]
        exact sends_own hr ht hs hin

end Wire

/-! ## 2. Flow's word -/

/-- Flow has said that this send was delivered: it answered its Deliver with a receipt, or queued it
    and then showed this very delivery as Delivered. -/
def FlowDelivered (process : Process) (request : SendRequest) (thread : Option String)
    (h : List NexusEvent) : Prop :=
  ∃ t, DeliveredUnder process request thread t h ∧
    ((∃ receipt, exchangeResult t = .ok (.sent receipt)) ∨
      ∃ acceptance, exchangeResult t = .ok (.sendAccepted acceptance) ∧
        ∃ f : StatusFrame, .ok f.flow ∈ statuses h ∧
          ShowsDelivered acceptance.logicalDeliveryId f.frame ∧
          ¬ ShowsFailed acceptance.logicalDeliveryId f.frame)

/-- Flow has queued this send, and then shown it as Failed. -/
def FlowFailed (process : Process) (request : SendRequest) (thread : Option String)
    (h : List NexusEvent) : Prop :=
  ∃ t, DeliveredUnder process request thread t h ∧
    ∃ acceptance, exchangeResult t = .ok (.sendAccepted acceptance) ∧
      ∃ f : StatusFrame, .ok f.flow ∈ statuses h ∧
        ShowsFailed acceptance.logicalDeliveryId f.frame

/-- What a result with this `isError` stands on, where the query was answered by a connection with
    this history. -/
structure BorneOut (isError : Bool) (query : SignalMessage.Query) (process : Process)
    (h : List NexusEvent) : Prop where
  delivered : isError = false → ∃ request thread, query = .sendThread request thread ∧
    FlowDelivered process request (some thread) h
  failed : isError = true → (∃ failure, .failed failure ∈ written h) ∨
    (∃ refusal, .refused refusal ∈ written h) ∨
    ∃ request thread, query = .sendThread request thread ∧
      FlowFailed process request (some thread) h

/-- The call's own delivery is the one of an acceptance that it read. -/
theorem ownDelivery_mem {read : List SignalMessage.Response} {id : LogicalDeliveryId}
    (ho : ownDelivery read = some id) :
    ∃ acceptance : SendAcceptance, .sendAccepted acceptance ∈ read ∧
      acceptance.logicalDeliveryId = id := by
  obtain ⟨response, hin, hid⟩ := List.mem_filterMap.mp (List.mem_of_getLast? ho)
  cases response with
  | sendAccepted acceptance => exact ⟨acceptance, hin, Option.some.inj hid⟩
  | _ => cases hid

/-- A response that shows a delivery is a status frame. -/
theorem shows_status {response : SignalMessage.Response} {snapshot : DeliverySnapshot}
    (hin : snapshot ∈ snapshotsOf response) : ∃ f : StatusFrame, response = f.frame := by
  cases response with
  | sendsObserved observation => exact ⟨.observed observation, rfl⟩
  | sendChanged changed => exact ⟨.changed changed, rfl⟩
  | _ => cases hin

/-! ## 3. A result is Flow's word -/

section Told

variable [FlowDebug] [McpCodec] [Rkyv SignalMessage.Query] [Rkyv SignalMessage.Response]

omit [McpCodec] [Rkyv SignalMessage.Query] [Rkyv SignalMessage.Response] in
/-- A verdict that the responses of a call bear out is borne out by Flow. -/
theorem FairResult.borneOut {s₀ : NexusShared} {nexus : NexusPool}
    (hnexus : Reach nexusSystem (.idle s₀) nexus) {t : Nat}
    {th : Thread NexusOp NexusAns ForwardLoop (Except FrameError Unit)}
    (hth : nexus.threads t = some th) {process : Process} {query : SignalMessage.Query}
    (ha : asked th.hist = some (process, query))
    (hquery : (∃ request thread, query = .sendThread request thread) ∨
      ∃ cursor thread, query = .observeThread cursor thread)
    {read : List SignalMessage.Response} (hread : read <+: written th.hist) {isError : Bool}
    (hf : FairResult read isError) : BorneOut isError query process th.hist := by
  obtain ⟨before, last, rfl, hdelivered, hfailed⟩ := hf
  have hown := connection_own hnexus hth ha
  have hlast : last ∈ written th.hist :=
    hread.subset (List.mem_append_right before (List.mem_singleton_self last))
  -- a receipt or an acceptance was read only if the query is a send
  have hsend : (¬ ∀ r ∈ written th.hist, NoDelivery r) →
      ∃ request thread, query = .sendThread request thread := by
    intro hno
    rcases hquery with hsend | ⟨cursor, thread, rfl⟩
    · exact hsend
    · exact absurd (unsent_frames hnexus hth ha rfl) hno
  -- the delivery of a snapshot in the last response, under an acceptance that was read
  have hshown : ∀ id snapshot, ownDelivery (before ++ [last]) = some id →
      snapshot ∈ snapshotsOf last → ∃ request thread, query = .sendThread request thread ∧
        ∃ answers, DeliveredUnder process request (some thread) answers th.hist ∧
          ∃ acceptance : SendAcceptance, acceptance.logicalDeliveryId = id ∧
            exchangeResult answers = .ok (.sendAccepted acceptance) ∧
            ∃ f : StatusFrame, last = f.frame ∧ .ok f.flow ∈ statuses th.hist := by
    intro id snapshot hid hin
    obtain ⟨acceptance, haccepted, hsame⟩ := ownDelivery_mem hid
    have hwritten := hread.subset haccepted
    obtain ⟨request, thread, rfl⟩ := hsend fun hno => (hno _ hwritten).2 acceptance rfl
    obtain ⟨answers, hanswers, hresult⟩ := hown.accepted acceptance hwritten
    obtain ⟨f, rfl⟩ := shows_status hin
    exact ⟨request, thread, rfl, answers, delivered_under hnexus hth ha rfl hanswers, acceptance,
      hsame, hresult, f, rfl, hown.shown f hlast⟩
  refine ⟨fun he => ?_, fun he => ?_⟩
  · rcases hdelivered he with ⟨receipt, rfl⟩ | ⟨id, hid, ⟨snapshot, hin, hshows⟩, hnot⟩
    · obtain ⟨request, thread, rfl⟩ := hsend fun hno => (hno _ hlast).1 receipt rfl
      obtain ⟨answers, hanswers, hresult⟩ := hown.sent receipt hlast
      exact ⟨request, thread, rfl, answers, delivered_under hnexus hth ha rfl hanswers,
        Or.inl ⟨receipt, hresult⟩⟩
    · obtain ⟨request, thread, rfl, answers, hunder, acceptance, rfl, hresult, f, rfl, hstatus⟩ :=
        hshown id snapshot hid hin
      exact ⟨request, thread, rfl, answers, hunder,
        Or.inr ⟨acceptance, hresult, f, hstatus, ⟨snapshot, hin, hshows⟩, hnot⟩⟩
  · rcases hfailed he with ⟨failure, rfl⟩ | ⟨refusal, rfl⟩ | ⟨id, hid, snapshot, hin, hshows⟩
    · exact Or.inl ⟨failure, hlast⟩
    · exact Or.inr (Or.inl ⟨refusal, hlast⟩)
    · obtain ⟨request, thread, rfl, answers, hunder, acceptance, rfl, hresult, f, rfl, hstatus⟩ :=
        hshown id snapshot hid hin
      exact Or.inr (Or.inr ⟨request, thread, rfl, answers, hunder, acceptance, hresult, f, hstatus,
        snapshot, hin, hshows⟩)

/-- In every interleaving of the adapter and of the Nexus, for every worker and handler on the two
    ends of a stream: the handler answers the query of the call, and a tool result stands on Flow's
    word on this very send. -/
theorem result_told (hqueries : ReadsBack SignalMessage.Query)
    (hresponses : ReadsBack SignalMessage.Response) {c : McpPool}
    (hr : Reach mcpSystem McpPool.initial c) {call : Nat} {request : CallRequest}
    {worker : McpThreadState} (ht : c.threads (call + 1) = some worker)
    (hs : (call, request) ∈ c.shared.spawned) {s₀ : NexusShared} {nexus : NexusPool}
    (hnexus : Reach nexusSystem (.idle s₀) nexus) {t : Nat}
    {th : Thread NexusOp NexusAns ForwardLoop (Except FrameError Unit)}
    (hth : nexus.threads t = some th) {process : Process} {query : SignalMessage.Query}
    (ha : asked th.hist = some (process, query)) (hwired : Wired worker.hist th.hist) :
    query = request.query ∧ ∀ value ∈ (callLog worker.hist).told, ∀ isError,
      value.pointer ["result", "isError"] = some (.bool isError) →
        BorneOut isError request.query process th.hist := by
  obtain rfl := wired_query hqueries hr ht hs ha hwired.asks
  have hread := wired_read hresponses (connection_stops hnexus hth) hwired.answers
  have hquery : (∃ send thread, request.query = .sendThread send thread) ∨
      ∃ cursor thread, request.query = .observeThread cursor thread := by
    obtain ⟨params, haccepted⟩ := spawned_query hr hs
    generalize request.query = query at haccepted ⊢
    cases haccepted with
    | send text send thread _ _ _ _ => exact Or.inl ⟨send, thread, rfl⟩
    | observeAll thread _ _ _ => exact Or.inr ⟨none, thread, rfl⟩
    | observeFrom value cursor thread _ _ _ _ => exact Or.inr ⟨some cursor, thread, rfl⟩
  have hno : ∀ r ∈ (callLog worker.hist).read, r ≠ .configured := by
    have hnever := connection_responses hnexus hth ha fun configuration he => by
      rcases hquery with ⟨send, thread, hsend⟩ | ⟨cursor, thread, hobserve⟩
      · rw [hsend] at he
        cases he
      · rw [hobserve] at he
        cases he
    exact fun r hin => hnever r (hread.subset hin)
  refine ⟨rfl, fun value hin isError hresult => ?_⟩
  have hsofar := toldSoFar (worker_told hr ht (worker_runs hr ht hs)).1
  exact (hsofar.fair hno hin hresult).borneOut hnexus hth ha hquery hread

end Told

/-! ## 4. A send that is told as delivered -/

/-- Archives of one byte, for the values of a list. -/
@[reducible] def codebook {V : Type} [DecidableEq V] (values : List V) : Rkyv V where
  toBytes value :=
    match values.idxOf? value with
    | some i => .ok [UInt8.ofNat i]
    | none => .error "not in the codebook"
  fromBytes bytes :=
    match bytes with
    | [byte] =>
      match values[byte.toNat]? with
      | some value => .ok value
      | none => .error "not in the codebook"
    | _ => .error "not an archive"

theorem codebook_readsBack {V : Type} [DecidableEq V] {values : List V}
    (hshort : values.length ≤ 256) : @ReadsBack V (codebook values) := by
  intro value bytes h
  dsimp only [Rkyv.toBytes, Rkyv.fromBytes] at h ⊢
  cases hi : values.idxOf? value with
  | none => simp [hi] at h
  | some i =>
      obtain ⟨hlt, hget, _⟩ := List.idxOf?_eq_some_iff.mp hi
      have hbyte : (UInt8.ofNat i).toNat = i :=
        UInt8.toNat_ofNat_of_lt' (Nat.lt_of_lt_of_le hlt hshort)
      simp only [hi, Except.ok.injEq] at h
      subst h
      simp only [hbyte, List.getElem?_eq_getElem hlt, hget]

/-- The bytes of values whose writes all go out. -/
def bytesOf {V : Type} [Rkyv V] (values : List V) : List UInt8 :=
  values.flatMap fun value => (Framer.writeFrame.write value .none).2

/-- A history whose writes all went out put the bytes of its values on the stream. -/
theorem onStream_all {V ε : Type} [Rkyv V] {writes : ε → Option (V × Except FrameError Unit)}
    {h : List ε} (hall : ∀ e ∈ h, ∀ value result, writes e = some (value, result) →
      result = (Framer.writeFrame.write value .none).1) :
    OnStream writes h (bytesOf (valuesOf writes h)) := by
  induction h using List.reverseRecOn with
  | nil => exact .start
  | append_singleton h e ih =>
      have hrest := ih fun e' hin => hall e' (List.mem_append_left _ hin)
      have hlast := hall e (List.mem_append_right h (List.mem_singleton_self e))
      rw [valuesOf_snoc]
      cases he : writes e with
      | none =>
          rw [Option.map_none, Option.toList_none, List.append_nil]
          exact .other he hrest
      | some wrote =>
          obtain ⟨value, result⟩ := wrote
          rw [hlast value result he] at he
          have hbytes : bytesOf (valuesOf writes h ++ [value]) =
              bytesOf (valuesOf writes h) ++ (Framer.writeFrame.write value .none).2 := by
            simp [bytesOf]
          rw [Option.map_some, Option.toList_some, hbytes]
          exact .wrote .none he hrest

/-- The archives of the sample call. -/
@[reducible] def callQueries : Rkyv SignalMessage.Query := codebook [sampleCallScript.query]

@[reducible] def callResponses : Rkyv SignalMessage.Response :=
  codebook (written sampleCallHistory)

/-- What the Nexus writes to the sample call, as it arrives. -/
def callStream : ByteStream :=
  ⟨[⟨[0, 0, 0, 1, 0, 0, 0], by decide⟩, ⟨[0, 1, 1, 0, 0, 0, 1], by decide⟩, ⟨[2], by decide⟩], none⟩

/-- The call of the sample messages, over these bytes. -/
def wiredPool : McpPool :=
  @McpScript.turn callCodec
    { messagesScript [] [] with
      send := @WriteFaults.sendAnswers _ callQueries .none sampleCallScript.query
      reads := @answersFrom callResponses .readResponse 3 callStream } 60 1
    (stdioPool callCodec callMessages).firstWorker

theorem wiredPool_reach : Reach (@mcpSystem callCodec) McpPool.initial wiredPool := by
  have hworker := @McpPool.firstWorker_reach callCodec _ _
    (stdioPool_reach callCodec callMessages) (stdioPool_idle callCodec callMessages)
  exact @McpScript.turn_reach callCodec _ 60 1 _ _ hworker (@thread_live callCodec _ hworker 1)

/-- A result as a sum, to be compared. -/
def sumOf {ε α : Type} : Except ε α → ε ⊕ α
  | .error e => .inl e
  | .ok a => .inr a

theorem sumOf_injective {ε α : Type} : Function.Injective (@sumOf ε α) := by
  rintro (e | a) (e' | a') h <;> cases h <;> rfl

/-- The parts of what a send met. -/
def SendAnswers.parts (answers : SendAnswers) :
    (String ⊕ Nat) × (IoError ⊕ Unit) × (IoError ⊕ Unit) :=
  (sumOf answers.toBytes, sumOf answers.header, sumOf answers.body)

/-- The parts of what a read met. -/
def ReadAnswers.parts (answers : ReadAnswers) :
    (IoError ⊕ Nat) × (IoError ⊕ Unit) × (String ⊕ SignalMessage.Response) :=
  (sumOf answers.header, sumOf answers.body, sumOf answers.fromBytes)

theorem SendAnswers.parts_injective : Function.Injective SendAnswers.parts := by
  rintro ⟨toBytes, header, body⟩ ⟨toBytes', header', body'⟩ h
  obtain ⟨h1, h2⟩ := Prod.mk.inj h
  obtain ⟨h2, h3⟩ := Prod.mk.inj h2
  cases sumOf_injective h1
  cases sumOf_injective h2
  cases sumOf_injective h3
  rfl

theorem ReadAnswers.parts_injective : Function.Injective ReadAnswers.parts := by
  rintro ⟨header, body, fromBytes⟩ ⟨header', body', fromBytes'⟩ h
  obtain ⟨h1, h2⟩ := Prod.mk.inj h
  obtain ⟨h2, h3⟩ := Prod.mk.inj h2
  cases sumOf_injective h1
  cases sumOf_injective h2
  cases sumOf_injective h3
  rfl

/-- The query that a worker sent, and what its send met. -/
def sentQuery? : McpEvent → Option (SignalMessage.Query × SendAnswers)
  | ⟨.send _ query, answers⟩ => some (query, answers)
  | _ => none

theorem sentQuery_eq {e : McpEvent} {query : SignalMessage.Query} {answers : SendAnswers}
    (h : sentQuery? e = some (query, answers)) : ∃ call, e = ⟨.send call query, answers⟩ := by
  obtain ⟨o, a⟩ := e
  cases o with
  | send call query' =>
      cases h
      exact ⟨call, rfl⟩
  | _ => cases h

/-- What the sample call sends and reads, and what it is told. -/
theorem wiredPool_computed :
    ((wiredPool.threads 1).isSome = true ∧
      wiredPool.shared.spawned.map (fun call => (call.1, call.2.query)) =
        [(0, sampleCallScript.query)] ∧
      (callLog (wiredPool.hist 1)).read = written sampleCallHistory ∧
      (callLog (wiredPool.hist 1)).told.any (fun value => isErrorOf value == some false) = true) ∧
    (((wiredPool.hist 1).filterMap sentQuery?).map (fun sent => (sent.1, sent.2.parts)) =
      [(sampleCallScript.query, Sum.inr 1, Sum.inr (), Sum.inr ())] ∧
    ((wiredPool.hist 1).filterMap readMet?).map ReadAnswers.parts =
      (@answersFrom callResponses .readResponse 3 callStream).map ReadAnswers.parts) :=
  ⟨by decide +kernel, by decide +kernel⟩

/-- A result that went well, as a sum. -/
theorem ok_of_isRight {ε : Type} {result : Except ε Unit} (h : (sumOf result).isRight = true) :
    result = .ok () := by
  cases result with
  | error error => cases h
  | ok => rfl

/-- Writes that went well are those of a stream that takes everything. -/
theorem went_out {V ε : Type} [Rkyv V] {writes : ε → Option (V × Except FrameError Unit)}
    {h : List ε} (hall : (h.filterMap writes).all (fun wrote => (sumOf wrote.2).isRight &&
      (sumOf (Framer.writeFrame.write wrote.1 .none).1).isRight) = true) :
    ∀ e ∈ h, ∀ value result, writes e = some (value, result) →
      result = (Framer.writeFrame.write value .none).1 := by
  intro e he value result hw
  have hone := List.all_eq_true.mp hall _ (List.mem_filterMap.mpr ⟨e, he, hw⟩)
  obtain ⟨hresult, hwritten⟩ := Bool.and_eq_true_iff.mp hone
  exact (ok_of_isRight hresult).trans (ok_of_isRight hwritten).symm

/-- Reads that all got one value. -/
theorem all_read {V ε : Type} [DecidableEq V] {reads : ε → Option (Except FrameError V)}
    {h : List ε} {value : V}
    (hall : (h.filterMap reads).all (fun read => read.toOption == some value) = true) {e : ε}
    (he : e ∈ h) {read : Except FrameError V} (hread : reads e = some read) : read = .ok value := by
  have hone := List.all_eq_true.mp hall read (List.mem_filterMap.mpr ⟨e, he, hread⟩)
  cases read with
  | error error => cases hone
  | ok got => rw [Option.some.inj (beq_iff_eq.mp hone)]

/-- The writes of the Nexus to the sample call all go out. -/
theorem sampleCall_writes : ∀ e ∈ sampleCallHistory, ∀ value result,
    wroteResponse? e = some (value, result) →
      result = (@Framer.write _ _ callResponses .writeFrame value .none).1 :=
  @went_out _ _ callResponses _ _ (by decide +kernel)

/-- The query of the sample call, as it arrives. -/
def askStream : ByteStream := ⟨[⟨[0, 0, 0], by decide⟩, ⟨[1, 0], by decide⟩], none⟩

/-- What a read of the query met. -/
def queryRead? : NexusEvent → Option (Except FrameError SignalMessage.Query)
  | ⟨.readQuery, read⟩ => some read
  | _ => none

/-- The handler of the sample call reads its query from these bytes. -/
theorem sampleCall_reads (read : Except FrameError SignalMessage.Query)
    (hin : (⟨.readQuery, read⟩ : NexusEvent) ∈ sampleCallHistory) :
    read = (@Unframer.read _ _ callQueries .readFrame askStream).map (·.1) := by
  have hstream : (@Unframer.read _ _ callQueries .readFrame askStream).map (·.1) =
      .ok sampleCallScript.query := rfl
  rw [hstream]
  exact @all_read _ _ _ queryRead? _ _ (by decide +kernel) _ hin _ rfl

/-- The sample call reads its three responses from the bytes, is told delivered, and Flow has said
    so. -/
theorem result_told_delivered : ∃ worker : McpThreadState, wiredPool.threads 1 = some worker ∧
    @Wired callQueries callResponses worker.hist sampleCallHistory ∧
    (callLog worker.hist).read.length = 3 ∧
    (∃ value ∈ (callLog worker.hist).told, isErrorOf value = some false) ∧
    BorneOut false sampleCallScript.query sampleCallScript.process sampleCallHistory := by
  have hqueries : @ReadsBack _ callQueries := codebook_readsBack (by decide)
  have hresponses : @ReadsBack _ callResponses := codebook_readsBack (by decide +kernel)
  obtain ⟨hcomputed, hsent, hmet⟩ := wiredPool_computed
  obtain ⟨worker, request, value, ht, hin, hquery, hread, hmem, herror⟩ :=
    computed_told hcomputed
  have hreach := wiredPool_reach
  generalize wiredPool = pool at *
  rw [Pool.hist_of ht] at hsent hmet
  have hwired : @Wired callQueries callResponses worker.hist sampleCallHistory := by
    refine @Wired.mk callQueries callResponses _ _ ?_ ?_
    · have hone := List.mem_cons_self (a := (sampleCallScript.query, Sum.inr (α := String) 1,
        Sum.inr (α := IoError) (), Sum.inr (α := IoError) ())) (l := [])
      rw [← hsent] at hone
      obtain ⟨⟨query, answers⟩, hmet, hparts⟩ := List.mem_map.mp hone
      obtain ⟨e, he, hsend⟩ := List.mem_filterMap.mp hmet
      obtain ⟨n, rfl⟩ := sentQuery_eq hsend
      obtain ⟨rfl, hparts⟩ := Prod.mk.inj hparts
      have hall : answers = @WriteFaults.sendAnswers _ callQueries .none sampleCallScript.query :=
        SendAnswers.parts_injective hparts
      rw [hall] at he
      exact ⟨_, askStream, Or.inr ⟨n, _, .none, he, rfl⟩, ⟨[], rfl⟩, sampleCall_reads⟩
    · refine ⟨_, callStream, 3,
        @onStream_all _ _ callResponses _ sampleCallHistory sampleCall_writes, ?_, ?_⟩
      · have hbytes : callStream.bytes = @bytesOf _ callResponses (written sampleCallHistory) := by
          decide +kernel
        rw [hbytes, valuesOf_written]
      · exact List.map_injective_iff.mpr ReadAnswers.parts_injective hmet
  refine ⟨worker, ht, hwired, ?_, ⟨value, hmem, beq_iff_eq.mp herror⟩, ?_⟩
  · rw [hread]
    decide +kernel
  obtain ⟨hasked, htold⟩ :=
    @result_told unitDebug callCodec callQueries callResponses hqueries hresponses pool hreach 0
      request worker ht hin _ _
      (@NexusScript.pool_reach unitDebug sampleCallScript 30 (.serving sampleConfiguration) rfl) 0 _
      (@NexusScript.pool_thread unitDebug _ _ _) sampleCallScript.process sampleCallScript.query rfl
      hwired
  rw [hasked]
  exact htold value hmem false (isErrorOf_some (beq_iff_eq.mp herror))

end MessageNexus
