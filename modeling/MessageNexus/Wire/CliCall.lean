/-
  File:      MessageNexus/Wire/CliCall.lean
  Subject:   FROM FLOW TO THE `message` CLI: a run of the client, the bytes of its connection, and
             the handler of the Nexus at the other end.

  * `CliWired` -- a run and a handler on the two ends of one stream, which may be cut and fail
    anywhere and arrives in any pieces;
  * `CliShown`, `run_shows` -- what a run shows, whatever it meets;
  * `ReplyBorne`, `reply_borne` -- what a frame of the handler says of Flow;
  * `cli_told` -- what the client shows is what the handler wrote, in order, each frame is Flow's
    word on this very query, and the call succeeds only with a last word on it.
-/
import MessageNexus.Client.Terminal
import MessageNexus.Wire.EndToEnd

namespace MessageNexus

open Interact SignalFlow Framing

/-! ## 1. A run of the client -/

/-- The query that may be sent. -/
def SendsOnly (query : SignalMessage.Query) : CliOp → Prop
  | .send sent => sent = query
  | _ => True

/-- What a run has shown: a beginning of what it read, and the last response if it succeeded. -/
def CliShown (result : Except String Unit) (h : List CliEvent) : Prop :=
  (cliLog h).shown <+: (cliLog h).read ∧ (result = .ok () → ∃ before last,
    (cliLog h).shown = before ++ [last] ∧ terminalFor (ownDelivery (before ++ [last])) last = true)

abbrev CliShows (p : CliThread) (h : List CliEvent) : Prop :=
  Holds anyAnswer (fun h _ => (cliLog h).shown <+: (cliLog h).read) (Sum.elim Reading CliShown) p h

section Runs

variable {query : SignalMessage.Query} {run : List CliEvent} {rest : CliThread}

/-- The client remembers its own delivery. -/
theorem messageReader_own (read : List SignalMessage.Response) :
    messageReader.state none read = ownDelivery read := by
  rw [messageReader_eq, ← stateOf_accepted, stateOf_own]

theorem messageRound_shows (acceptedId : CliLoop) (h : List CliEvent) (hr : Reading acceptedId h) :
    CliShows (messageRound acceptedId) h := by
  have hbefore : (cliLog h).shown <+: (cliLog h).read := hr.shown ▸ List.prefix_rfl
  refine ⟨hbefore, fun answers _ => ?_⟩
  have hlog := cliLog_snoc h ⟨.readResponse, answers⟩
  dsimp only [Prog.bind]
  cases hread : messageRead answers with
  | error e =>
      simp only [CliLog.after, hread] at hlog
      show CliShown (.error e) (h ++ [⟨.readResponse, answers⟩])
      refine ⟨?_, fun he => by cases he⟩
      rw [hlog]
      exact hbefore
  | ok reply =>
      simp only [CliLog.after, hread] at hlog
      refine ⟨?_, fun _ _ => ?_⟩
      · show (cliLog (h ++ [⟨.readResponse, answers⟩])).shown <+: _
        rw [hlog]
        exact hbefore.trans (List.prefix_append _ _)
      change CliShows (if (messageTerminal acceptedId reply).2 = true then _ else _) _
      by_cases hlast : (messageTerminal acceptedId reply).2 = true
      · rw [if_pos hlast]
        obtain ⟨hread', hshown⟩ := hr.shows hread
        refine ⟨hshown.trans hread'.symm ▸ List.prefix_rfl, fun _ => ⟨_, reply, hshown, ?_⟩⟩
        -- the reader of the client judges a response with the delivery that it has noted by then
        rw [← messageTerminal_noted, hr.accepted, ← Reader.state_snoc, messageReader_own,
          messageReader_eq] at hlast
        exact hlast
      · rw [if_neg hlast]
        exact hr.next hread (eq_false_of_ne_true hlast)

theorem messageCall_shows (query : SignalMessage.Query) : CliShows (messageCall query) [] := by
  have hempty : ∀ e : Except String Unit, ∀ h, cliLog h = ⟨[], [], true⟩ → e ≠ .ok () →
      CliShown e h := by
    intro e h hlog hne
    refine ⟨?_, fun he => absurd he hne⟩
    rw [hlog]
  refine ⟨List.prefix_rfl, fun connected _ => ?_⟩
  cases connected with
  | error e => exact hempty _ _ rfl (by simp)
  | ok _ =>
      refine ⟨List.prefix_rfl, fun answers _ => ?_⟩
      dsimp only [Prog.bind]
      have hlog := cliLog_snoc [⟨.connect, .ok ()⟩] ⟨.send query, answers⟩
      cases hsend : messageSend answers with
      | error e =>
          simp only [CliLog.after, hsend] at hlog
          exact hempty _ _ hlog (by simp)
      | ok _ => exact Reading.start hsend

/-- A run shows a beginning of what it reads, and a call that succeeds has shown a last response. -/
theorem run_shows (ht : Trace messageRound (messageCall query) run rest) :
    (cliLog run).shown <+: (cliLog run).read ∧ (rest = .ret (.inr (.ok ())) → ∃ before last,
      (cliLog run).shown = before ++ [last] ∧
      terminalFor (ownDelivery (before ++ [last])) last = true) := by
  have hend := ht.holds messageRound_shows (messageCall_shows query) (along_any _ _)
  rw [List.nil_append] at hend
  refine ⟨Holds.now (hend.mono (fun _ _ hG => hG) fun a h' hq => ?_), fun hres => ?_⟩
  · cases a with
    | inl l =>
        have hreading : Reading l h' := hq
        exact hreading.shown ▸ List.prefix_rfl
    | inr r => exact hq.1
  · rw [hres] at hend
    exact hend.2 rfl

/-- A run sends nothing but its query. -/
theorem run_sends (ht : Trace messageRound (messageCall query) run rest)
    {sent : SignalMessage.Query} {answers : SendAnswers}
    (hin : (⟨.send sent, answers⟩ : CliEvent) ∈ run) : sent = query := by
  have hround : ∀ l, Uses (SendsOnly query) (messageRound l) := by
    intro l
    refine ⟨trivial, fun answers => ?_⟩
    dsimp only [Prog.bind]
    cases messageRead answers with
    | error e => trivial
    | ok reply =>
        refine ⟨trivial, fun _ => ?_⟩
        change Uses _ (if (messageTerminal l reply).2 = true then _ else _)
        split <;> trivial
  have hcall : Uses (SendsOnly query) (messageCall query) := by
    refine ⟨trivial, fun connected => ?_⟩
    cases connected with
    | error e => trivial
    | ok _ =>
        refine ⟨rfl, fun answers => ?_⟩
        dsimp only [Prog.bind]
        cases messageSend answers <;> trivial
  have hend : ∀ (a : CliLoop ⊕ Except String Unit) (h : List CliEvent),
      Sum.elim (fun _ _ => True) (fun _ _ => True) a h := by
    intro a h
    cases a <;> trivial
  have honly := ht.issued (fun l _ _ => (hround l).performs hend) (hcall.performs hend)
    (along_any [] _)
  exact Along.forall (A := fun e : CliEvent => SendsOnly query e.op) honly _ hin

end Runs

/-! ## 2. The two ends of a stream -/

section Wire

variable [Rkyv SignalMessage.Query] [Rkyv SignalMessage.Response]

/-- The bytes that a run put on its stream: none, or what its write did. -/
def SentByCli (run : List CliEvent) (bytes : List UInt8) : Prop :=
  bytes = [] ∨ ∃ query faults,
    (⟨.send query, WriteFaults.sendAnswers faults query⟩ : CliEvent) ∈ run ∧
    bytes = (Framer.message.write query faults).2

/-- A run and a handler of the Nexus on one stream. Each reads what the other wrote, up to some
    point, in any pieces, and then the end or a failure. -/
structure CliWired (run : List CliEvent) (handler : List NexusEvent) : Prop where
  asks : ∃ bytes, ∃ s : ByteStream, SentByCli run bytes ∧ s.bytes <+: bytes ∧
    ∀ read, (⟨.readQuery, read⟩ : NexusEvent) ∈ handler →
      read = (Unframer.readFrame.read SignalMessage.Query s).map (·.1)
  answers : ∃ bytes, ∃ s : ByteStream, ∃ n, OnStream wroteResponse? handler bytes ∧
    s.bytes <+: bytes ∧ run.filterMap cliRead? = answersFrom .message n s

variable {query : SignalMessage.Query} {run : List CliEvent} {rest : CliThread}
  {handler : List NexusEvent}

omit [Rkyv SignalMessage.Query] in
/-- The client reads the first frames that the handler writes. -/
theorem cli_read (hrkyv : ReadsBack SignalMessage.Response)
    (hstops : StopsWriting wroteResponse? handler)
    (hwired : ∃ bytes, ∃ s : ByteStream, ∃ n, OnStream wroteResponse? handler bytes ∧
      s.bytes <+: bytes ∧ run.filterMap cliRead? = answersFrom .message n s) :
    (cliLog run).read <+: written handler := by
  obtain ⟨bytes, s, n, hon, hs, hreads⟩ := hwired
  rw [cliLog_read, hreads]
  exact frames_read hrkyv message_read_result hstops hon hs n

omit [Rkyv SignalMessage.Response] in
/-- The handler is asked the query of the run, which writes its header without a check. -/
theorem cli_query (hrkyv : ReadsBack SignalMessage.Query) (hfits : FitsHeader query)
    (ht : Trace messageRound (messageCall query) run rest) {process : Process}
    {received : SignalMessage.Query} (ha : asked handler = some (process, received))
    (hwired : ∃ bytes, ∃ s : ByteStream, SentByCli run bytes ∧ s.bytes <+: bytes ∧
      ∀ read, (⟨.readQuery, read⟩ : NexusEvent) ∈ handler →
        read = (Unframer.readFrame.read SignalMessage.Query s).map (·.1)) :
    received = query := by
  obtain ⟨bytes, s, hsent, hbytes, hread⟩ := hwired
  obtain ⟨after, hhist⟩ := asked_eq ha
  have hgot := hread (.ok received) (by rw [hhist]; exact List.mem_cons_self)
  cases hfirst : Unframer.readFrame.read SignalMessage.Query s with
  | error e =>
      rw [hfirst] at hgot
      cases hgot
  | ok read =>
      obtain ⟨value, s'⟩ := read
      rw [hfirst] at hgot
      cases hgot
      rcases hsent with rfl | ⟨sent, faults, hin, rfl⟩
      · exact absurd hfirst (read_nothing hrkyv (List.prefix_nil.mp hbytes))
      · obtain rfl := run_sends ht hin
        exact read_own hrkyv (Or.inr hfits) hbytes hfirst

end Wire

/-! ## 3. What a frame says -/

/-- A frame that the client was shown: a receipt or an acceptance is Flow's answer to the Deliver of
    this very send, under the lock of its sender, and a status is one that Flow sent. -/
structure ReplyBorne (process : Process) (query : SignalMessage.Query)
    (reply : SignalMessage.Response) (h : List NexusEvent) : Prop where
  sent : ∀ receipt, reply = .sent receipt → ∃ request thread answers,
    query.sends = some (request, thread) ∧ DeliveredUnder process request thread answers h ∧
    exchangeResult answers = .ok (.sent receipt)
  accepted : ∀ acceptance, reply = .sendAccepted acceptance → ∃ request thread answers,
    query.sends = some (request, thread) ∧ DeliveredUnder process request thread answers h ∧
    exchangeResult answers = .ok (.sendAccepted acceptance)
  shown : ∀ f : StatusFrame, reply = f.frame → .ok f.flow ∈ statuses h

/-- A last word: a verdict, an interruption, a Configure that is done, or a status of the accepted
    delivery that says how it ended. -/
def LastWord (own : Option LogicalDeliveryId) (last : SignalMessage.Response) : Prop :=
  IsVerdict last ∨ IsInterruption last ∨ last = .configured ∨
    ∃ id, own = some id ∧ (ShowsDelivered id last ∨ ShowsFailed id last)

theorem terminalFor_lastWord {own : Option LogicalDeliveryId} {last : SignalMessage.Response}
    (h : terminalFor own last = true) : LastWord own last := by
  cases last with
  | configured => exact Or.inr (Or.inr (Or.inl rfl))
  | refused refusal => exact Or.inl (Or.inl ⟨refusal, rfl⟩)
  | sent receipt => exact Or.inl (Or.inr (Or.inr ⟨receipt, rfl⟩))
  | failed failure => exact Or.inl (Or.inr (Or.inl ⟨failure, rfl⟩))
  | sendAccepted acceptance => cases h
  | sendsObserved observation =>
      obtain ⟨id, hid, _, hover⟩ := observed_last h
      refine Or.inr (Or.inr (Or.inr ⟨id, hid, ?_⟩))
      exact (Classical.em (ShowsFailed id _)).elim Or.inr fun hno => Or.inl (hover hno)
  | sendChanged snapshot =>
      obtain ⟨id, hid, _, hover⟩ := changed_last h
      refine Or.inr (Or.inr (Or.inr ⟨id, hid, ?_⟩))
      exact (Classical.em (ShowsFailed id _)).elim Or.inr fun hno => Or.inl (hover hno)
  | observationInterrupted cursor text => exact Or.inr (Or.inl ⟨cursor, text, rfl⟩)

section Told

variable [FlowDebug] {s₀ : NexusShared} {nexus : NexusPool} {t : Nat}
  {th : Thread NexusOp NexusAns ForwardLoop (Except FrameError Unit)} {process : Process}
  {query : SignalMessage.Query}

/-- Every frame that a handler writes is borne out by Flow. -/
theorem reply_borne (hnexus : Reach nexusSystem (.idle s₀) nexus)
    (hth : nexus.threads t = some th) (ha : asked th.hist = some (process, query))
    {reply : SignalMessage.Response} (hin : reply ∈ written th.hist) :
    ReplyBorne process query reply th.hist := by
  have hown := connection_own hnexus hth ha
  -- a receipt or an acceptance is written only if the query is a send
  have hsend : ¬ NoDelivery reply → ∃ request thread, query.sends = some (request, thread) := by
    intro hno
    cases hs : query.sends with
    | none => exact absurd (unsent_frames hnexus hth ha hs reply hin) hno
    | some sends => exact ⟨sends.1, sends.2, rfl⟩
  refine ⟨?_, ?_, ?_⟩
  · rintro receipt rfl
    obtain ⟨request, thread, hs⟩ := hsend fun hno => hno.1 receipt rfl
    obtain ⟨answers, hanswers, hresult⟩ := hown.sent receipt hin
    exact ⟨request, thread, answers, hs, delivered_under hnexus hth ha hs hanswers, hresult⟩
  · rintro acceptance rfl
    obtain ⟨request, thread, hs⟩ := hsend fun hno => hno.2 acceptance rfl
    obtain ⟨answers, hanswers, hresult⟩ := hown.accepted acceptance hin
    exact ⟨request, thread, answers, hs, delivered_under hnexus hth ha hs hanswers, hresult⟩
  · rintro f rfl
    exact hown.shown f hin

variable [Rkyv SignalMessage.Query] [Rkyv SignalMessage.Response]

/-- End to end, in every interleaving of the Nexus and at every point of a run of the client: the
    handler is asked the query of the run, the client has shown a beginning of what the handler
    wrote, in order, each frame of it is Flow's word on this query, and a call that succeeds has
    shown a last word. -/
theorem cli_told (hqueries : ReadsBack SignalMessage.Query)
    (hresponses : ReadsBack SignalMessage.Response) (hfits : FitsHeader query)
    {run : List CliEvent} {rest : CliThread}
    (ht : Trace messageRound (messageCall query) run rest)
    (hnexus : Reach nexusSystem (.idle s₀) nexus) (hth : nexus.threads t = some th)
    {received : SignalMessage.Query} (ha : asked th.hist = some (process, received))
    (hwired : CliWired run th.hist) :
    received = query ∧ (cliLog run).shown <+: written th.hist ∧
    (∀ reply ∈ (cliLog run).shown, ReplyBorne process query reply th.hist) ∧
    (rest = .ret (.inr (.ok ())) → ∃ before last, (cliLog run).shown = before ++ [last] ∧
      LastWord (ownDelivery (before ++ [last])) last) := by
  obtain ⟨hshown, hlast⟩ := run_shows ht
  have hbegins := hshown.trans (cli_read hresponses (connection_stops hnexus hth) hwired.answers)
  obtain rfl := cli_query hqueries hfits ht ha hwired.asks
  refine ⟨rfl, hbegins, fun reply hin => ?_, fun hres => ?_⟩
  · exact reply_borne hnexus hth ha (hbegins.subset hin)
  · obtain ⟨before, last, hend, hterminal⟩ := hlast hres
    exact ⟨before, last, hend, terminalFor_lastWord hterminal⟩

end Told

/-! ## 4. A run over the bytes of a queued send -/

/-- The environment of a run: its writes go out, and its reads meet these answers, in order. -/
def cliAnswer (send : SendAnswers) :
    List ReadAnswers → List CliEvent → (o : CliOp) → Option (CliAns o × List ReadAnswers)
  | s, _, .connect => some (.ok (), s)
  | s, _, .send _ => some (send, s)
  | [], _, .readResponse => none
  | answers :: s, _, .readResponse => some (answers, s)
  | s, _, .each _ => some ((), s)

/-- The run of the sample send: what is left to read, the events, and the rest. -/
def sampleRun : List ReadAnswers × List CliEvent × CliThread :=
  drive messageRound
    (cliAnswer (@WriteFaults.sendAnswers _ callQueries .none sampleCallScript.query)) 20
    (@answersFrom callResponses .message 3 callStream) [] (messageCall sampleCallScript.query)

theorem sampleRun_trace :
    Trace messageRound (messageCall sampleCallScript.query) sampleRun.2.1 sampleRun.2.2 :=
  Trace.drive 20 (.here _)

/-- The query that a run sent, and what its send met. -/
def cliSent? : CliEvent → Option (SignalMessage.Query × SendAnswers)
  | ⟨.send query, answers⟩ => some (query, answers)
  | _ => none

theorem cliSent_eq {e : CliEvent} {query : SignalMessage.Query} {answers : SendAnswers}
    (h : cliSent? e = some (query, answers)) : e = ⟨.send query, answers⟩ := by
  obtain ⟨o, a⟩ := e
  cases o with
  | send query' =>
      cases h
      rfl
  | _ => cases h

/-- What the sample run sends, reads and shows, and that it succeeds. -/
theorem sampleRun_computed :
    ((sampleRun.2.2.outcome.map sumOf = some (Sum.inr ()) ∧
      (cliLog sampleRun.2.1).shown = written sampleCallHistory) ∧
    (sampleRun.2.1.filterMap cliSent?).map (fun sent => (sent.1, sent.2.parts)) =
      [(sampleCallScript.query, Sum.inr 1, Sum.inr (), Sum.inr ())]) ∧
    (sampleRun.2.1.filterMap cliRead?).map ReadAnswers.parts =
      (@answersFrom callResponses .message 3 callStream).map ReadAnswers.parts :=
  ⟨⟨⟨by decide +kernel, by decide +kernel⟩, by decide +kernel⟩, by decide +kernel⟩

theorem sampleRun_wired : @CliWired callQueries callResponses sampleRun.2.1 sampleCallHistory := by
  obtain ⟨⟨_, hsent⟩, hmet⟩ := sampleRun_computed
  refine @CliWired.mk callQueries callResponses _ _ ?_ ?_
  · have hone := List.mem_cons_self (a := (sampleCallScript.query, Sum.inr (α := String) 1,
      Sum.inr (α := IoError) (), Sum.inr (α := IoError) ())) (l := [])
    rw [← hsent] at hone
    obtain ⟨⟨query, answers⟩, hmem, hparts⟩ := List.mem_map.mp hone
    obtain ⟨e, he, hsend⟩ := List.mem_filterMap.mp hmem
    rw [cliSent_eq hsend] at he
    obtain ⟨rfl, hparts⟩ := Prod.mk.inj hparts
    have hall : answers = @WriteFaults.sendAnswers _ callQueries .none sampleCallScript.query :=
      SendAnswers.parts_injective hparts
    rw [hall] at he
    exact ⟨_, askStream, Or.inr ⟨_, .none, he, rfl⟩, ⟨[], rfl⟩, sampleCall_reads⟩
  · refine ⟨_, callStream, 3,
      @onStream_all _ _ callResponses _ sampleCallHistory sampleCall_writes, ?_, ?_⟩
    · have hbytes : callStream.bytes = @bytesOf _ callResponses (written sampleCallHistory) := by
        decide +kernel
      rw [hbytes, valuesOf_written]
    · exact List.map_injective_iff.mpr ReadAnswers.parts_injective hmet

/-- The client shows the three frames that the Nexus wrote, Flow's words all of them, and succeeds
    with the last one. -/
theorem cli_told_delivered : (written sampleCallHistory).length = 3 ∧
    (cliLog sampleRun.2.1).shown = written sampleCallHistory ∧
    (∀ reply ∈ written sampleCallHistory,
      ReplyBorne sampleCallScript.process sampleCallScript.query reply sampleCallHistory) ∧
    ∃ before last, written sampleCallHistory = before ++ [last] ∧
      LastWord (ownDelivery (before ++ [last])) last := by
  obtain ⟨⟨⟨houtcome, hshown⟩, _⟩, _⟩ := sampleRun_computed
  have hrest : sampleRun.2.2 = .ret (.inr (.ok ())) := by
    obtain ⟨result, hresult, hok⟩ := Option.map_eq_some_iff.mp houtcome
    have hgood : result = .ok () := ok_of_isRight (by rw [hok]; rfl)
    rw [Prog.outcome_some hresult, hgood]
  have hfits : @FitsHeader _ callQueries sampleCallScript.query := by
    intro archive harchive
    have hone : archive = [0] := (Except.ok.inj harchive).symm
    rw [hone]
    decide
  obtain ⟨_, _, hborne, hlast⟩ := @cli_told unitDebug (.serving sampleConfiguration) _ 0 _
    sampleCallScript.process sampleCallScript.query callQueries callResponses
    (codebook_readsBack (by decide)) (codebook_readsBack (by decide +kernel)) hfits _ _
    sampleRun_trace
    (@NexusScript.pool_reach unitDebug sampleCallScript 30 (.serving sampleConfiguration) rfl)
    (@NexusScript.pool_thread unitDebug _ _ _) _ rfl sampleRun_wired
  rw [hshown] at hborne hlast
  exact ⟨by decide +kernel, hshown, hborne, hlast hrest⟩

end MessageNexus
