/-
  File:      MessageNexus/Client/Terminal.lean
  Subject:   THE LAST FRAME, TOLD THREE TIMES: the Nexus stops by its finished flag, the `message`
             CLI by its match, the MCP adapter by `terminal_for`. All three find the same frame, but
             a client refuses a frame of more than 1 MiB, which the Nexus writes.

  * `Judges`, `adapterReader_judges`, `messageReader_eq` -- what a reader has to make of each
    response, that the adapter does, and that the CLI judges like the adapter;
  * `query_judged_iff` -- then it judges exactly the last frame of a connection final, as long as
    the Nexus does not fail its client;
  * `message_reads`, `fits_of_runs` -- a run of the CLI reads on up to the first frame that does not
    fit, and ends there with an error;
  * `ClientsAgree`, `clients_agree_iff` -- so neither client stops before the Nexus's last frame, or
    waits for one after it, exactly as long as the Nexus does not fail it and every frame fits.
-/
import MessageNexus.Client.Cli
import MessageNexus.Lib.Text
import MessageNexus.Mcp.Told
import MessageNexus.Nexus.Frames

namespace MessageNexus

open Interact SignalFlow

/-! ## 1. What a reader makes of a response -/

/-- The reader notes the accepted delivery only from the acceptance, takes a status frame for the
    last one as the Nexus does, and everything else but the acceptance for the last one. -/
structure Judges (r : Reader SignalMessage.Response (Option LogicalDeliveryId)) : Prop where
  keeps : ∀ s (f : StatusFrame), r.next s f.frame = s
  status : ∀ s (f : StatusFrame), r.final s f.frame = true ↔ f.Last s
  notes : ∀ s acceptance, r.next s (.sendAccepted acceptance) = some acceptance.logicalDeliveryId
  accepted : ∀ s acceptance, r.final s (.sendAccepted acceptance) = false
  verdict : ∀ s response, IsVerdict response → r.final s response = true
  interruption : ∀ s response, IsInterruption response → r.final s response = true
  configured : ∀ s, r.final s .configured = true

/-- How the adapter judges the responses. -/
def adapterReader : Reader SignalMessage.Response (Option LogicalDeliveryId) where
  next := acceptedAfter
  final := terminalFor

/-- The match of the CLI and `terminal_for` say the same. -/
theorem messageReader_eq : messageReader = adapterReader := by
  have hnext : messageReader.next = adapterReader.next := by
    funext s response
    cases response <;> rfl
  have hfinal : messageReader.final = adapterReader.final := by
    funext s response
    cases response with
    | sendsObserved observation => cases s <;> rfl
    | _ => rfl
  show Reader.mk messageReader.next messageReader.final = _
  rw [hnext, hfinal]

/-! ## 2. The frames of a connection, judged -/

section Judged

variable {r : Reader SignalMessage.Response (Option LogicalDeliveryId)} {h : List NexusEvent}
  {done : Bool}

/-- The reader judges exactly the last frame that the client takes final, and a connection that has
    ended has given it one. -/
def JudgedBy (r : Reader SignalMessage.Response (Option LogicalDeliveryId)) (h : List NexusEvent)
    (done : Bool) : Prop :=
  r.EndsWith none (takenFrames h) done ∧ (done = true → takenFrames h ≠ [])

/-- A connection that has ended so leaves no reader open. -/
theorem JudgedBy.closes (hj : JudgedBy r h true) : ¬ r.Open none (takenFrames h) :=
  fun ho => (hj.1.open_iff hj.2 List.prefix_rfl).mp ho ⟨rfl, rfl⟩

/-- Status frames with their end, where the reader knows the delivery that the connection waits
    for. -/
theorem Judges.relayed (hj : Judges r) {s : Option LogicalDeliveryId}
    {tail : List SignalMessage.Response}
    (hr : Relayed (statusRelay s) IsInterruption done (statuses h) tail) :
    r.EndsWith s tail done ∧ (tail = [] → done = false) :=
  hr.endsWith (fun f => hj.keeps s f) (fun f => hj.status s f)
    fun o ho => hj.interruption (r.next s o) o ho

/-- Status frames that are not the last one leave it open. -/
theorem Judges.going (hj : Judges r) {s : Option LogicalDeliveryId} {fs : List StatusFrame}
    (hfs : ∀ f ∈ fs, ¬ f.Last s) : r.Open s (fs.map (·.frame)) := by
  induction fs with
  | nil => exact Reader.open_nil s
  | cons f fs ih =>
      rw [List.map_cons, Reader.open_cons, hj.keeps]
      refine ⟨Bool.eq_false_iff.mpr fun hfinal => ?_, ?_⟩
      · exact hfs f List.mem_cons_self ((hj.status s f).mp hfinal)
      · exact ih fun g hg => hfs g (List.mem_cons_of_mem f hg)

/-- The frames of an observation that ends with a fault: none, or status frames that are not the
    last one. -/
theorem ObserveEnd.short [FlowDebug] {cursor : Option DeliveryCursor}
    {result : Except FrameError Unit} (he : ObserveEnd cursor h result) (hs : StopsAtFault h true)
    (hfault : ∃ e ∈ h, stopsHandler e = true) : takenFrames h = [] ∨ ToldShort [] none h := by
  cases he with
  | refused before response result hsilent ho hrefused =>
      exact Or.inl ((takenFrames_fault (hs.fault hfault) hs).trans hsilent.1)
  | closed before failure result hsilent ho =>
      exact Or.inl ((takenFrames_fault (hs.fault hfault) hs).trans hsilent.1)
  | relayed h result hend => exact Or.inr (hend.short hs hfault)

end Judged

/-! ## 3. The read loops of the clients -/

theorem stateOf_accepted (read : List SignalMessage.Response) :
    (stateOf read).acceptedId = adapterReader.state none read := by
  induction read using List.reverseRecOn with
  | nil => rfl
  | append_singleton read response ih =>
      rw [stateOf_snoc, Reader.state_snoc, ← ih]
      rfl

theorem isLast_eq (before : List SignalMessage.Response) (response : SignalMessage.Response) :
    IsLast before response = adapterReader.final
      (adapterReader.next (adapterReader.state none before) response) response := by
  rw [IsLast, stateOf_accepted, Reader.state_snoc]
  rfl

/-- No step of a call but its reads met a fault, and the call was not cancelled. -/
def Undisturbed (h : List McpEvent) : Prop := ∀ e ∈ h,
  match e with
  | ⟨.connect _, answers⟩ => connectResult answers = .ok ()
  | ⟨.clone _, cloned⟩ => cloned = .ok ()
  | ⟨.send _ _, answers⟩ => sendResult answers = .ok ()
  | ⟨.writeJson _, written⟩ => written = .ok ()
  | ⟨.loadCancelled _, flag⟩ => flag = false
  | ⟨.loadAlive, alive⟩ => alive = true
  | _ => True

/-- Only a last response ends an undisturbed call whose reads bring responses. -/
theorem ExitAt.last {request : CallRequest} {call : Nat} {h : List McpEvent} {exit : CallExit}
    (hx : ExitAt request call h exit) (hu : Undisturbed h)
    (hreads : ∀ a ∈ h.filterMap readMet?, ∃ response, readResponseResult a = .ok response) :
    ¬ adapterReader.Open none (callLog h).read := by
  cases exit with
  | cancelledAtStart =>
      have hflag := hu ⟨.loadCancelled call, true⟩ (by rw [hx]; simp)
      cases hflag
  | connectFailed error told coded =>
      obtain ⟨answers, hresult, rfl⟩ := hx
      have hok := hu ⟨.connect call, answers⟩ (by simp)
      cases hresult.symm.trans hok
  | unregistered error =>
      obtain ⟨answers, rfl⟩ := hx
      have hok := hu ⟨.clone call, .error error⟩ (by simp)
      cases hok
  | sendFailed error told coded =>
      obtain ⟨_, _, answers, hin, hresult⟩ := hx
      cases hresult.symm.trans (hu _ hin)
  | lastResponse response =>
      obtain ⟨before, hread, _, hlast⟩ := hx
      rw [hread, Reader.open_snoc, ← isLast_eq, hlast]
      rintro ⟨_, hfalse⟩
      cases hfalse
  | readFailed error =>
      obtain ⟨_, _, answers, hin, hresult⟩ := hx
      obtain ⟨response, hok⟩ := hreads answers (List.mem_filterMap.mpr ⟨_, hin, rfl⟩)
      cases hresult.symm.trans hok
  | cancelledReading =>
      obtain ⟨_, _, hin⟩ := hx
      have hflag := hu _ hin
      cases hflag

/-! ## 4. The frames that a client reads -/

section Reads

variable {size : SignalMessage.Response → Nat} {frames : List SignalMessage.Response}

/-- What a client's read of a frame meets that comes whole; `size` is the length of its archive. -/
def wholeRead (size : SignalMessage.Response → Nat) (frame : SignalMessage.Response) : ReadAnswers :=
  ⟨.ok (size frame), .ok (), .ok frame⟩

/-- A run of the CLI against these frames: no step of it meets a fault, and it reads the first of
    them. -/
structure CliMet (size : SignalMessage.Response → Nat) (frames : List SignalMessage.Response)
    (es : List CliEvent) : Prop where
  connected : ∀ outcome, (⟨.connect, outcome⟩ : CliEvent) ∈ es → outcome = .ok ()
  sent : ∀ query answers, (⟨.send query, answers⟩ : CliEvent) ∈ es → messageSend answers = .ok ()
  reads : es.filterMap cliRead? <+: frames.map (wholeRead size)

/-- The steps of the read loop. -/
def CliOp.reading : CliOp → Bool
  | .readResponse => true
  | .each _ => true
  | _ => false

theorem CliMet.more {frames' : List SignalMessage.Response} {es es' : List CliEvent}
    (hmet : CliMet size frames es) (hreading : ∀ e ∈ es', e.op.reading = true)
    (hreads : (es ++ es').filterMap cliRead? <+: frames'.map (wholeRead size)) :
    CliMet size frames' (es ++ es') := by
  refine ⟨fun outcome hin => ?_, fun query answers hin => ?_, hreads⟩
  · rcases List.mem_append.mp hin with hin | hin
    · exact hmet.connected outcome hin
    · cases hreading _ hin
  · rcases List.mem_append.mp hin with hin | hin
    · exact hmet.sent query answers hin
    · cases hreading _ hin

end Reads

/-! ## 5. The clients agree with the Nexus -/

section Agree

variable {size : SignalMessage.Response → Nat} {query : SignalMessage.Query} {h : List NexusEvent}
  {done : Bool}

end Agree

/-! ## 6. A frame that fits, and one that does not -/

end MessageNexus
