/-
  File:      MessageNexus/Mcp/Worker.lean
  Subject:   THE WORKER OF A CALL (`RunsMcpCall::run`): it connects, registers its observer, sends
             its query, tells every response as progress, and answers the call once.

  * `runCall` -- the worker up to its read loop, with its early exits;
  * `readRound` -- one round of the read loop;
  * `endCall` -- the end after the loop.
-/
import MessageNexus.Mcp.Operation

namespace MessageNexus

open Interact SignalFlow SignalMessage Json

/-! ## 1. The messages of a call -/

/-- The progress notification of a response. -/
def progressNotification (request : CallRequest) (progress : Nat) (text : String) : Value :=
  .object [("jsonrpc", .string "2.0"), ("method", .string "notifications/progress"),
    ("params", .object [("progressToken", request.progressToken),
      ("progress", .number (.int progress)), ("message", .string text)])]

/-- The result of a call. -/
def callResult (request : CallRequest) (text : String) (isError : Bool) : Value :=
  rpcResult request.id (.object [
    ("content", .array [.object [("type", .string "text"), ("text", .string text)]]),
    ("isError", .bool isError)])

/-- The cursor after one more response. -/
def cursorAfter (lastCursor : Option DeliveryCursor) :
    SignalMessage.Response → Option DeliveryCursor
  | .sendAccepted accepted => some accepted.deliveryCursor
  | .sendsObserved observation => some observation.deliveryCursor
  | .sendChanged snapshot => some snapshot.deliveryCursor
  | _ => lastCursor

/-- `failed`: whether a last response tells a failure. -/
def tellsFailure (acceptedId : Option LogicalDeliveryId) : SignalMessage.Response → Bool
  | .failed _ => true
  | .refused _ => true
  | .observationInterrupted _ _ => true
  | .sendChanged snapshot =>
      match snapshot.deliveryState with
      | .failed _ => true
      | _ => false
  | .sendsObserved observation => observation.deliverySnapshotVector.any fun snapshot =>
      acceptedId == some snapshot.logicalDeliveryId &&
        match snapshot.deliveryState with
        | .failed _ => true
        | _ => false
  | _ => false

/-- The text of an optional cursor in a message. -/
def cursorText : Option DeliveryCursor → String
  | some cursor => toString cursor
  | none => "none"

/-- The answer to a call after its last response. -/
def finalResponse [McpCodec] (request : CallRequest) (state : ReadState) (response : SignalMessage.Response) :
    Value :=
  match response with
  | .observationInterrupted _ _ =>
      rpcError request.id (-32001)
        ("Observation interrupted at durable cursor " ++ cursorText state.lastCursor ++
          "; delivery state is not Failed. Resume with observe_sends from this cursor.")
  | _ => callResult request (McpCodec.compact response) (tellsFailure state.acceptedId response)

/-- The answer to a call that was cancelled before it connected. -/
def startCancelledText : String :=
  "Send admission outcome is unknown; do not resend. Resume with observe_sends using this sender's durable delivery cursor."

/-- The answer to a call whose socket could not be duplicated. -/
def unregisteredText (error : IoError) : String :=
  "Send outcome unknown; observer could not be registered: " ++ error

/-- The answer to a call that could not connect or send. -/
def failedText (error : String) (cancelled : Bool) : String :=
  if cancelled then
    "Send admission outcome is unknown; do not resend. Resume with observe_sends from this sender's durable history."
  else error

def failedCode (cancelled : Bool) : Int := if cancelled then -32800 else -32001

/-- The answer to a call whose stream failed. -/
def brokenResponse (request : CallRequest) (state : ReadState) (error : String) : Value :=
  rpcError request.id (-32001)
    (if state.acceptedId.isSome then
      "Observation interrupted; resume from the last progress cursor. Durable delivery was not canceled: "
        ++ error
    else
      "Send admission outcome is unknown; do not retry blindly. Observe sender deliveries before another Send: "
        ++ error)

/-- The answer to a cancelled call after its loop. -/
def cancelledResponse (request : CallRequest) (state : ReadState) : Value :=
  rpcError request.id (-32800)
    (match state.lastCursor with
    | some cursor =>
      "Observation cancelled at durable cursor " ++ toString cursor ++
        "; delivery was not cancelled. Resume from this cursor."
    | none =>
      "Send admission was cancelled before acceptance and its outcome is unknown; do not resend blindly. Observe sender deliveries before another Send.")

/-! ## 2. The ends of a worker -/

/-- `active.lock().unwrap().remove(&call.key)`. -/
def removeCall (request : CallRequest) : McpProg Unit := do
  let _ ← act .lockActive
  let _ ← act (.removeActive request.key)
  let _ ← act .unlockActive

/-- The worker's closure returns. -/
def finishCall (call : Nat) : McpThread := do
  let _ ← act (.finish call)
  return .inr ()

/-- An early exit that answers with this text, as long as the connection is alive. -/
def giveUp (request : CallRequest) (call : Nat) (code : Int) (message : String) : McpThread := do
  let alive ← act .loadAlive
  if alive then
    let _ ← act (.writeJson (rpcError request.id code message))
  removeCall request
  finishCall call

/-- An early exit after a failed connect or send, which a cancelled call tells in its own way; the
    source reads the flag once for the text and once for the code. -/
def giveUpFailed (request : CallRequest) (call : Nat) (error : String) : McpThread := do
  let alive ← act .loadAlive
  if alive then
    let told ← act (.loadCancelled call)
    let coded ← act (.loadCancelled call)
    let _ ← act (.writeJson (rpcError request.id (failedCode coded) (failedText error told)))
  removeCall request
  finishCall call

/-- The end after the read loop. -/
def endCall (request : CallRequest) (call : Nat) (state : ReadState) (final : Option Value) :
    McpThread := do
  removeCall request
  let final ← match final with
    | some response => pure (some response)
    | none =>
      if ← act (.loadCancelled call) then
        if ← act .loadAlive then pure (some (cancelledResponse request state)) else pure none
      else pure none
  match final with
  | some response =>
    let _ ← act (.writeJson response)
    finishCall call
  | none => finishCall call

/-! ## 3. The worker -/

/-- The state of the read loop after one more response. -/
def ReadState.after (state : ReadState) (response : SignalMessage.Response) : ReadState where
  acceptedId := acceptedAfter state.acceptedId response
  lastCursor := cursorAfter state.lastCursor response
  progress := state.progress + 1

section Worker

variable [McpCodec]

/-- One response: it is told as progress, and the loop ends with it if it is the last. -/
def tellResponse (request : CallRequest) (call : Nat) (state : ReadState)
    (response : SignalMessage.Response) : McpThread := do
  let notification := progressNotification request state.progress (McpCodec.compact response)
  match ← act (.writeJson notification) with
  | .error _ =>
    let _ ← act (.storeCancelled call)
    let _ ← act .storeAlive
    let _ ← act (.shutdown call)
    endCall request call state none
  | .ok () =>
    if terminalFor state.acceptedId response then
      endCall request call state (some (finalResponse request state response))
    else return .inl (.read request call state)

/-- One round of the read loop. -/
def readRound (request : CallRequest) (call : Nat) (state : ReadState) : McpThread := do
  if ← act (.loadCancelled call) then endCall request call state none
  else
    let answers ← act (.readResponse call)
    match readResponseResult answers with
    | .ok response => tellResponse request call (state.after response) response
    | .error error =>
      if ← act (.loadCancelled call) then endCall request call state none
      else endCall request call state (some (brokenResponse request state error))

/-- The worker from its registered observer on. -/
def runRegistered (request : CallRequest) (call : Nat) : McpThread := do
  if ← act (.loadCancelled call) then
    let _ ← act (.shutdown call)
    return .inl (.read request call ⟨none, none, 0⟩)
  else
    let answers ← act (.send call request.query)
    match sendResult answers with
    | .error error => giveUpFailed request call error
    | .ok () => return .inl (.read request call ⟨none, none, 0⟩)

/-- `RunsMcpCall::run`. -/
def runCall (request : CallRequest) (call : Nat) : McpThread := do
  if ← act (.loadCancelled call) then
    giveUp request call (-32800) startCancelledText
  else
    let answers ← act (.connect call)
    match connectResult answers with
    | .error error => giveUpFailed request call error
    | .ok () =>
      match ← act (.clone call) with
      | .error error =>
        giveUp request call (-32001) (unregisteredText error)
      | .ok () =>
        let _ ← act .lockActive
        let _ ← act (.setObserver request.key call)
        let _ ← act .unlockActive
        runRegistered request call

end Worker

end MessageNexus
