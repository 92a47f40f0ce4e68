/-
  File:      MessageNexus/Wire/MetaCall.lean
  Subject:   `message-meta`, FROM THE OWNER TO THE STORE AND BACK: one Configure over the bytes of
             its connection, and the handler of the meta socket at the other end.

  * `messageMetaCall` -- the call of the client (`MessageMetaClient::call`), over bytes;
  * `OwnerWired` -- a call and a handler on the two ends of one stream;
  * `owner_hist`, `owner_commits` -- what a connection of the meta socket can have done;
  * `ReplyStands` -- what a reply says of the Nexus;
  * `owner_told` -- the Nexus commits nothing but what the owner asked for, and what the client
    shows stands, in every interleaving, across kills and restarts.
-/
import MessageNexus.Nexus.Restart
import MessageNexus.Wire.EndToEnd

namespace MessageNexus

open Interact Framing

/-! ## 1. The client -/

/-- What a call meets: its connect, its writes, and the bytes that come back. -/
structure MetaCallAnswers where
  connect : Except IoError Unit
  faults : WriteFaults
  stream : ByteStream

/-- What a call did: the bytes it put on its stream, the responses it gave to `each`, and its
    result. -/
structure MetaCalled where
  sent : List UInt8
  shown : List MetaSignalMessage.Response
  result : Except String Unit

section Call

variable [Rkyv MetaSignalMessage.Query] [Rkyv MetaSignalMessage.Response]

/-- `CallsMessageNexus::call` of `message-meta`. -/
def messageMetaCall (query : MetaSignalMessage.Query) (t : MetaCallAnswers) : MetaCalled :=
  match t.connect with
  | .error error => ⟨[], [], .error error⟩
  | .ok () =>
    match Framer.messageMeta.write query t.faults with
    | (.error error, sent) => ⟨sent, [], .error error⟩
    | (.ok (), sent) =>
      match Unframer.messageMeta.read MetaSignalMessage.Response t.stream with
      | .error error => ⟨sent, [], .error error⟩
      | .ok (reply, _) => ⟨sent, [reply], .ok ()⟩

variable {query : MetaSignalMessage.Query} {t : MetaCallAnswers}

/-- A call fails and shows nothing, or it succeeds and shows the one reply that it read. -/
theorem messageMetaCall_shows :
    ((messageMetaCall query t).shown = [] ∧
      ∃ error, (messageMetaCall query t).result = .error error) ∨
    ∃ reply s, (messageMetaCall query t).shown = [reply] ∧
      (messageMetaCall query t).result = .ok () ∧
      Unframer.messageMeta.read MetaSignalMessage.Response t.stream = .ok (reply, s) := by
  unfold messageMetaCall
  cases t.connect with
  | error error => exact Or.inl ⟨rfl, error, rfl⟩
  | ok =>
      dsimp only
      cases Framer.messageMeta.write query t.faults with
      | mk written sent =>
          cases written with
          | error error => exact Or.inl ⟨rfl, error, rfl⟩
          | ok =>
              dsimp only
              cases hread : Unframer.messageMeta.read MetaSignalMessage.Response t.stream with
              | error error => exact Or.inl ⟨rfl, error, rfl⟩
              | ok read => exact Or.inr ⟨read.1, read.2, rfl, rfl, rfl⟩

/-- A call sends nothing, or what its write put on the stream. -/
theorem messageMetaCall_sent : (messageMetaCall query t).sent = [] ∨
    (messageMetaCall query t).sent = (Framer.messageMeta.write query t.faults).2 := by
  unfold messageMetaCall
  cases t.connect with
  | error error => exact Or.inl rfl
  | ok =>
      refine Or.inr ?_
      dsimp only
      cases Framer.messageMeta.write query t.faults with
      | mk written sent =>
          cases written with
          | error error => rfl
          | ok =>
              dsimp only
              cases Unframer.messageMeta.read MetaSignalMessage.Response t.stream with
              | error error => rfl
              | ok read => rfl

/-- The call and a handler of the meta socket on one stream. Each reads what the other wrote, up to
    some point, in any pieces, and then the end or a failure. -/
structure OwnerWired (query : MetaSignalMessage.Query) (t : MetaCallAnswers)
    (handler : List NexusEvent) : Prop where
  asks : ∃ s : ByteStream, s.bytes <+: (messageMetaCall query t).sent ∧
    ∀ read, (⟨.readMetaQuery, read⟩ : NexusEvent) ∈ handler →
      read = (Unframer.readFrame.read MetaSignalMessage.Query s).map (·.1)
  answers : ∃ bytes, OnStream wroteMeta? handler bytes ∧ t.stream.bytes <+: bytes

variable {handler : List NexusEvent}

/-- The handler reads no other query than that of the call, which writes its header without a
    check. -/
theorem owner_query (hqueries : ReadsBack MetaSignalMessage.Query) (hfits : FitsHeader query)
    (hwired : OwnerWired query t handler) {received : MetaSignalMessage.Query}
    (hin : (⟨.readMetaQuery, .ok received⟩ : NexusEvent) ∈ handler) : received = query := by
  obtain ⟨s, hsent, hread⟩ := hwired.asks
  have hgot := hread _ hin
  cases hfirst : Unframer.readFrame.read MetaSignalMessage.Query s with
  | error error =>
      rw [hfirst] at hgot
      cases hgot
  | ok read =>
      obtain ⟨value, s'⟩ := read
      rw [hfirst] at hgot
      cases hgot
      rcases @messageMetaCall_sent _ _ query t with hnone | hwrote
      · rw [hnone] at hsent
        exact absurd hfirst (read_nothing hqueries (List.prefix_nil.mp hsent))
      · rw [hwrote] at hsent
        exact read_own hqueries (Or.inr hfits) hsent hfirst

omit [Rkyv MetaSignalMessage.Query] [Rkyv MetaSignalMessage.Response] in
theorem valuesOf_metaWritten (h : List NexusEvent) : valuesOf wroteMeta? h = metaWritten h := by
  unfold valuesOf metaWritten
  congr 1
  funext e
  obtain ⟨o, a⟩ := e
  cases o <;> rfl

/-- A reply that the client shows is one that the handler wrote. -/
theorem owner_reply (hresponses : ReadsBack MetaSignalMessage.Response)
    (hstops : StopsWriting wroteMeta? handler) (hwired : OwnerWired query t handler)
    {reply : MetaSignalMessage.Response} (hin : reply ∈ (messageMetaCall query t).shown) :
    reply ∈ metaWritten handler := by
  rcases @messageMetaCall_shows _ _ query t with ⟨hnone, _⟩ | ⟨shown, s, hshown, _, hread⟩
  · rw [hnone] at hin
    cases hin
  · rw [hshown] at hin
    cases List.mem_singleton.mp hin
    obtain ⟨bytes, hon, hbytes⟩ := hwired.answers
    obtain ⟨values, all, hframes, hvalues, hall, _⟩ := onStream_frames hon hstops
    obtain ⟨rest, _, rfl, _⟩ := read_first hresponses hframes (hbytes.trans hall) hread
    rw [← valuesOf_metaWritten]
    exact hvalues.subset List.mem_cons_self

end Call

/-! ## 2. The handler of the meta socket -/

/-- Nothing but this configuration is put into the store. -/
def CommitsOnly (configuration : Configuration) : NexusOp → Prop
  | .mutateKeyed standard => standard.configuration = configuration
  | _ => True

/-- A Configure replaces the configuration of the record by its own. -/
theorem configure_commitsOnly (configuration : Configuration) (isMeta : Bool) :
    Uses (CommitsOnly configuration) (configure configuration isMeta) := by
  refine ⟨trivial, fun _ => Uses.bind (p := configureStore configuration isMeta) ?_ fun _ =>
    ⟨trivial, fun _ => trivial⟩⟩
  refine Uses.bind (p := standard) ⟨trivial, fun _ => trivial⟩ fun read => ?_
  cases read with
  | error error => trivial
  | ok current =>
      dsimp only
      split
      · trivial
      · refine Uses.bind (p := replaceStandard _) ⟨rfl, fun _ => trivial⟩ fun outcome => ?_
        cases outcome <;> trivial

/-- So does the answer to the owner. -/
theorem answerMeta_commitsOnly (configuration : Configuration) (h : List NexusEvent) :
    Holds anyAnswer (fun _ o => CommitsOnly configuration o)
      (Sum.elim (fun (_ : ForwardLoop) _ => False) fun (_ : Except FrameError Unit) _ => True) (do
      let outcome ← configure configuration true
      let written ← perform (.writeMetaResponse (metaResponse outcome))
      return .inr written) h := by
  rw [holds_bind]
  refine (configure_commitsOnly configuration true).performs fun outcome h' => ?_
  exact ⟨trivial, fun _ _ => trivial⟩

/-- What was committed was put into the store. -/
theorem committed_of {configuration configuration' : Configuration} {h : List NexusEvent}
    (hall : ∀ e ∈ h, CommitsOnly configuration e.op) (hin : configuration' ∈ committed h) :
    configuration' = configuration := by
  obtain ⟨⟨o, a⟩, he, hcommit⟩ := List.mem_filterMap.mp hin
  have honly := hall _ he
  cases o with
  | mutateKeyed standard =>
      cases a with
      | error error => cases hcommit
      | ok =>
          cases hcommit
          exact honly
  | _ => cases hcommit

section Owner

variable [FlowDebug] {s₀ : NexusShared} {c : NexusPool} {t : Nat}
  {th : Thread NexusOp NexusAns ForwardLoop (Except FrameError Unit)}

/-- A connection of the meta socket has done nothing, or has failed to read, or was asked a
    Configure. -/
theorem owner_hist (hr : Reach nexusSystem (.idle s₀) c) (ht : c.threads t = some th)
    (hsocket : c.shared.socketOf t = some .owner) : th.hist = [] ∨
      (∃ error, th.hist = [⟨.readMetaQuery, .error error⟩]) ∨
      ∃ configuration rest, th.hist = ⟨.readMetaQuery, .ok (.configure configuration)⟩ :: rest := by
  obtain ⟨socket, hsock, hstart⟩ := socket_handler hr t th ht
  rw [hsocket] at hsock
  cases hsock
  have htrace := hr.trace t th ht
  rw [hstart] at htrace
  cases hhist : th.hist with
  | nil => exact Or.inl rfl
  | cons e rest =>
      rw [hhist] at htrace
      have hfirst : Trace forwardRound (.ask .readMetaQuery _) _ _ := htrace
      obtain ⟨read, rfl, hrest⟩ := hfirst.ask_inv
      cases read with
      | error error =>
          have hend : Trace forwardRound (.ret (.inr (.error error))) rest th.rest := hrest
          generalize th.rest = last at hend
          cases hend
          exact Or.inr (Or.inl ⟨error, rfl⟩)
      | ok query =>
          cases query with
          | configure configuration => exact Or.inr (Or.inr ⟨configuration, rest, rfl⟩)

/-- A connection of the meta socket commits only what it was asked, and writes only where it was
    asked. -/
theorem owner_commits (hr : Reach nexusSystem (.idle s₀) c) (ht : c.threads t = some th)
    (hsocket : c.shared.socketOf t = some .owner) :
    (committed th.hist = [] ∧ metaWritten th.hist = []) ∨
    ∃ configuration, (⟨.readMetaQuery, .ok (.configure configuration)⟩ : NexusEvent) ∈ th.hist ∧
      asksConfigure th.hist = some (.owner, configuration) ∧
      ∀ configuration' ∈ committed th.hist, configuration' = configuration := by
  rcases owner_hist hr ht hsocket with hnil | ⟨error, hfailed⟩ | ⟨configuration, rest, hhist⟩
  · rw [hnil]
    exact Or.inl ⟨rfl, rfl⟩
  · rw [hfailed]
    exact Or.inl ⟨rfl, rfl⟩
  · have honly := (meta_trace hr ht hhist).issued (J := fun _ _ => False)
      (fun _ _ hf => hf.elim) (answerMeta_commitsOnly configuration []) (along_any _ _)
    have hall := Along.forall (A := fun e : NexusEvent => CommitsOnly configuration e.op) honly
    rw [hhist]
    refine Or.inr ⟨configuration, List.mem_cons_self, rfl, fun configuration' hin => ?_⟩
    exact committed_of hall hin

end Owner

/-! ## 3. What the owner is shown -/

/-- What a reply says of the Nexus: what the connection has committed, what the store holds now, and
    what the request was compared with. -/
structure ReplyStands (configuration : Configuration) (reply : MetaSignalMessage.Response)
    (handler : List NexusEvent) (s : NexusShared) : Prop where
  asked : asksConfigure handler = some (.owner, configuration)
  answered : reply ∈ metaWritten handler
  refused : reply = .refused .storeRefused → committed handler = []
  /-- The request is in the store's log, and the latch stays closed after it. -/
  stored : reply ≠ .refused .storeRefused → committed handler = [configuration] ∧
    (Socket.owner, configuration) ∈ s.configured ∧
    ∃ current, s.rows = [current] ∧ current.metaConfigured = true
  compared : reply ≠ .refused .storeRefused → ∃ current, found handler = [current] ∧
    reply = if current.configuration ≠ configuration then .restartRequired else .configured

/-- Each frame to the owner is a verdict. -/
theorem told_of_metaWritten {h : List NexusEvent} {reply : MetaSignalMessage.Response}
    (hin : reply ∈ metaWritten h) : decide (reply ≠ .refused .storeRefused) ∈ told h := by
  obtain ⟨⟨o, a⟩, he, hwrote⟩ := List.mem_filterMap.mp hin
  cases o with
  | writeMetaResponse response =>
      cases hwrote
      refine List.mem_filterMap.mpr ⟨_, he, ?_⟩
      cases reply with
      | refused refusal => cases refusal; rfl
      | _ => rfl
  | _ => cases hwrote

section Told

variable [FlowDebug] {c : NexusPool} {t : Nat}
  {th : Thread NexusOp NexusAns ForwardLoop (Except FrameError Unit)}

/-- A frame that the handler of a Configure of the owner wrote stands. -/
theorem reply_stands (hr : Reach nexusSystem (.idle .absent) c) (ht : c.threads t = some th)
    (hsocket : c.shared.socketOf t = some .owner) {configuration : Configuration}
    (ha : asksConfigure th.hist = some (.owner, configuration))
    {reply : MetaSignalMessage.Response} (hin : reply ∈ metaWritten th.hist) :
    ReplyStands configuration reply th.hist c.shared := by
  have htold := (configure_told hr ht ha).1 _ (told_of_metaWritten hin)
  refine ⟨ha, hin, fun hrefused => ?_, fun hsuccess => ?_, fun hsuccess => ?_⟩
  · rw [htold, if_neg (by simp [hrefused])]
  · have hcommitted : committed th.hist = [configuration] := by
      rw [htold, if_pos (by simp [hsuccess])]
    have hlogged : (Socket.owner, configuration) ∈ c.shared.configured := by
      refine (reach_recorded hr _ _).mpr ⟨t, th, ht, hsocket, ?_⟩
      rw [hcommitted]
      exact List.mem_singleton_self _
    refine ⟨hcommitted, hlogged, ?_⟩
    exact rows_closed hr (s := c.shared) (reach_later .refl) ⟨_, hlogged, rfl⟩
  · exact meta_compares hr ht ha reply hin hsuccess

variable [Rkyv MetaSignalMessage.Query] [Rkyv MetaSignalMessage.Response]

/-- End to end, in every interleaving of the connections of the Nexus, its kills and restarts, and
    over a stream that may be cut, fail or split the bytes anywhere: the call shows one reply
    exactly if it succeeds, what it shows stands, and the connection never commits anything but what
    the owner asked for, whatever became of the call. -/
theorem owner_told (hqueries : ReadsBack MetaSignalMessage.Query)
    (hresponses : ReadsBack MetaSignalMessage.Response)
    (hr : Reach nexusSystem (.idle .absent) c) (ht : c.threads t = some th)
    (hsocket : c.shared.socketOf t = some .owner) {query : MetaSignalMessage.Query}
    (hfits : FitsHeader query) {answers : MetaCallAnswers}
    (hwired : OwnerWired query answers th.hist) :
    (∀ configuration ∈ committed th.hist, query = .configure configuration) ∧
    ((messageMetaCall query answers).result = .ok () ↔
      ∃ reply, (messageMetaCall query answers).shown = [reply]) ∧
    ∀ reply ∈ (messageMetaCall query answers).shown, ∃ configuration,
      query = .configure configuration ∧ ReplyStands configuration reply th.hist c.shared := by
  refine ⟨fun configuration hin => ?_, ?_, fun reply hin => ?_⟩
  · rcases owner_commits hr ht hsocket with ⟨hnone, _⟩ | ⟨asked, hread, _, honly⟩
    · rw [hnone] at hin
      cases hin
    · rw [← owner_query hqueries hfits hwired hread, honly configuration hin]
  · rcases @messageMetaCall_shows _ _ query answers with
      ⟨hnone, error, hresult⟩ | ⟨reply, _, hshown, hresult, _⟩
    · rw [hnone, hresult]
      exact iff_of_false (fun h => by cases h) fun ⟨_, h⟩ => by cases h
    · rw [hshown, hresult]
      exact iff_of_true rfl ⟨reply, rfl⟩
  · have hwrote := owner_reply hresponses (owner_stops hr ht) hwired hin
    rcases owner_commits hr ht hsocket with ⟨_, hnone⟩ | ⟨configuration, hread, ha, _⟩
    · rw [hnone] at hwrote
      cases hwrote
    · exact ⟨configuration, (owner_query hqueries hfits hwired hread).symm,
        reply_stands hr ht hsocket ha hwrote⟩

end Told

/-! ## 4. A move of the sockets -/

@[reducible] def movedQueries : Rkyv MetaSignalMessage.Query :=
  codebook [.configure movedConfiguration]

@[reducible] def movedResponses : Rkyv MetaSignalMessage.Response :=
  codebook [.restartRequired, .configured, .refused .storeRefused]

/-- What the Nexus did for the owner who moves the sockets. -/
def movedHistory : List NexusEvent :=
  (@NexusScript.thread unitDebug movedScript 20 (firstOpen smoothOpen) 0).hist

/-- The call that asked for it; the answer arrives in two pieces. -/
def movedAnswers : MetaCallAnswers := ⟨.ok (), .none, askStream⟩

/-- What a read of the owner's query met. -/
def metaRead? : NexusEvent → Option (Except FrameError MetaSignalMessage.Query)
  | ⟨.readMetaQuery, read⟩ => some read
  | _ => none

theorem moved_writes : ∀ e ∈ movedHistory, ∀ value result,
    wroteMeta? e = some (value, result) →
      result = (@Framer.write _ _ movedResponses .writeFrame value .none).1 :=
  @went_out _ _ movedResponses _ _ (by decide +kernel)

theorem moved_reads (read : Except FrameError MetaSignalMessage.Query)
    (hin : (⟨.readMetaQuery, read⟩ : NexusEvent) ∈ movedHistory) :
    read = (@Unframer.read _ _ movedQueries .readFrame askStream).map (·.1) := by
  have hstream : (@Unframer.read _ _ movedQueries .readFrame askStream).map (·.1) =
      .ok (.configure movedConfiguration) := rfl
  rw [hstream]
  exact @all_read _ _ _ metaRead? _ _ (by decide +kernel) _ hin _ rfl

theorem moved_wired : @OwnerWired movedQueries movedResponses (.configure movedConfiguration)
    movedAnswers movedHistory := by
  refine @OwnerWired.mk movedQueries movedResponses _ _ _ ⟨askStream, ?_, moved_reads⟩
    ⟨_, @onStream_all _ _ movedResponses _ _ moved_writes, ?_⟩
  · exact ⟨[], rfl⟩
  · have hbytes : @bytesOf _ movedResponses (valuesOf wroteMeta? movedHistory) =
        askStream.bytes := by
      decide +kernel
    rw [hbytes]
    exact List.prefix_rfl

/-- The owner is shown that a restart is required, and the store holds the moved sockets. -/
theorem owner_told_moved :
    (@messageMetaCall movedQueries movedResponses (.configure movedConfiguration)
      movedAnswers).shown = [.restartRequired] ∧
    ReplyStands movedConfiguration .restartRequired movedHistory movedPool.shared ∧
    movedPool.shared.rows = [⟨movedConfiguration, true⟩] := by
  have hshown : (@messageMetaCall movedQueries movedResponses (.configure movedConfiguration)
      movedAnswers).shown = [.restartRequired] := rfl
  have hfits : @FitsHeader _ movedQueries (.configure movedConfiguration) := by
    intro archive harchive
    have hone : archive = [0] := (Except.ok.inj harchive).symm
    rw [hone]
    decide
  obtain ⟨_, _, hstands⟩ := @owner_told unitDebug movedPool 0 _ movedQueries movedResponses
    (codebook_readsBack (by decide)) (codebook_readsBack (by decide))
    movedPool_reach (@NexusScript.join_thread unitDebug movedScript 20 _ 0) rfl
    (.configure movedConfiguration) hfits movedAnswers moved_wired
  obtain ⟨configuration, hquery, hreply⟩ := hstands .restartRequired
    (by rw [hshown]; exact List.mem_cons_self)
  cases hquery
  exact ⟨hshown, hreply, rfl⟩

end MessageNexus
