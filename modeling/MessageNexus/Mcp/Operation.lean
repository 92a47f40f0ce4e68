/-
  File:      MessageNexus/Mcp/Operation.lean
  Subject:   WHAT THE THREADS OF THE MCP ADAPTER DO TO EACH OTHER AND TO THE WORLD.

  The stdio loop numbers the calls it dispatches; the number names the call's cancellation flag,
  its socket to Message and its worker thread alike.

  * `McpOp`, `McpAns` -- the operations of the stdio loop and of the workers, and their answers;
  * `connectResult`, `sendResult`, `readResponseResult` -- what the adapter makes of the steps of
    its stream, with its texts;
  * `McpLoop` -- the places at which a thread's loop goes round.
-/
import MessageNexus.Lib.Prog
import MessageNexus.Client.Stream
import MessageNexus.Mcp.Adapter

namespace MessageNexus

open Interact SignalFlow SignalMessage Json

/-! ## 1. The stream to Message -/

/-- `ConnectsToMessage::connect`. -/
def connectResult (t : ConnectAnswers) : Except String Unit :=
  match t.connect, t.setWriteTimeout with
  | .error e, _ => .error e
  | .ok (), .error e => .error e
  | .ok (), .ok () => .ok ()

/-- `ConnectsToMessage::send`. -/
def sendResult (t : SendAnswers) : Except String Unit :=
  match t.toBytes with
  | .error e => .error e
  | .ok length =>
    if headerLimit < length then .error "oversized Message frame"
    else
      match t.header, t.body with
      | .error e, _ =>
        .error ("Uncertain: Send outcome may be unknown; do not retry: " ++ e)
      | .ok (), .error e =>
        .error ("Uncertain: Send outcome may be unknown; do not retry: " ++ e)
      | .ok (), .ok () => .ok ()

/-- `ReadsMessageResponses::read_response`. -/
def readResponseResult (t : ReadAnswers) : Except String SignalMessage.Response :=
  match t.header with
  | .error e => .error ("Message stream ended: " ++ e)
  | .ok length =>
    if maxLine < length then .error "oversized Message response"
    else
      match t.body, t.fromBytes with
      | .error e, _ => .error ("incomplete Message response: " ++ e)
      | .ok (), .error e => .error ("invalid Message response: " ++ e)
      | .ok (), .ok response => .ok response

/-! ## 2. The operations -/

/-- An entry of the active map: the observer is a second handle of the call's socket. -/
structure ActiveCall where
  observer : Option Nat
  cancelled : Nat
  deriving DecidableEq, Repr

/-- The operations. The first group belongs to the stdio loop, the last one to a worker; `finish`
    is the return of a worker's closure. Storing a flag always stores the value that ends things:
    `cancelled` becomes true, `connection_alive` false. -/
inductive McpOp where
  | readLine
  | newFlag
  | lenActive
  | insertActive (key : String) (call : Nat)
  | getActive (key : String)
  | activeCalls
  | spawn (request : CallRequest) (call : Nat)
  | isFinished (call : Nat)
  | join (call : Nat)
  | lockActive
  | unlockActive
  | storeCancelled (call : Nat)
  | storeAlive
  | shutdown (call : Nat)
  | writeJson (value : Value)
  | loadCancelled (call : Nat)
  | loadAlive
  | connect (call : Nat)
  | clone (call : Nat)
  | setObserver (key : String) (call : Nat)
  | removeActive (key : String)
  | send (call : Nat) (query : SignalMessage.Query)
  | readResponse (call : Nat)
  | finish (call : Nat)

/-- What each operation answers. A line of stdin comes with its newline; the empty text is the end
    of the input. -/
@[reducible] def McpAns : McpOp → Type
  | .readLine => Except IoError String
  | .newFlag => Nat
  | .lenActive => Nat
  | .insertActive _ _ => Unit
  | .getActive _ => Option ActiveCall
  | .activeCalls => List ActiveCall
  | .spawn _ _ => Unit
  | .isFinished _ => Bool
  | .join _ => Unit
  | .lockActive => Unit
  | .unlockActive => Unit
  | .storeCancelled _ => Unit
  | .storeAlive => Unit
  | .shutdown _ => Unit
  | .writeJson _ => Except IoError Unit
  | .loadCancelled _ => Bool
  | .loadAlive => Bool
  | .connect _ => ConnectAnswers
  | .clone _ => Except IoError Unit
  | .setObserver _ _ => Unit
  | .removeActive _ => Unit
  | .send _ _ => SendAnswers
  | .readResponse _ => ReadAnswers
  | .finish _ => Unit

abbrev McpProg := Prog McpOp McpAns
abbrev McpEvent := Event McpOp McpAns

/-- One operation of a thread of the adapter. -/
abbrev act (o : McpOp) : McpProg (McpAns o) := Prog.perform o

/-! ## 3. The loops -/

/-- What a worker's read loop knows: the accepted delivery, the last cursor, and how many
    responses it has told. -/
structure ReadState where
  acceptedId : Option LogicalDeliveryId
  lastCursor : Option DeliveryCursor
  progress : Nat
  deriving DecidableEq, Repr

/-- Where a thread's loop goes round: the stdio loop at its next line, in its reaping pass or at
    its final joins (with the numbers of the workers it keeps), and the read loop of a call. -/
inductive McpLoop where
  | lines (adapter : Adapter) (workers : List Nat)
  | reap (adapter : Adapter) (workers : List Nat) (index : Nat)
  | joins (workers : List Nat)
  | read (request : CallRequest) (call : Nat) (state : ReadState)

/-- The program of a thread: the end, or the next round of its loop. -/
abbrev McpThread := McpProg (McpLoop ⊕ Unit)

end MessageNexus
