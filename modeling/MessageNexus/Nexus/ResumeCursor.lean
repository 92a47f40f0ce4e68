/-
  File:      MessageNexus/Nexus/ResumeCursor.lean
  Subject:   THE RESUME CURSOR OF AN INTERRUPTED OBSERVATION, against the newest cursor that the
             connection knows.

  * `newestKnown` -- the newest durable cursor that the frames of a connection have told, or the
    one that its query named;
  * `CursorKept` -- every interruption carries the newest cursor known before it;
  * `StreamLost`, `LossTold` -- the subscription did not open, or its stream failed, ended or
    turned foreign; then an interruption is the last frame that the client takes;
  * `ResumeTold` -- a lost stream is told, with the newest cursor;
  * `relayEnd_cursor` -- what the forwarding loop does for the cursor: it starts from none, and
    forgets what was known when the stream ends before its first frame;
  * `resume_cursor_iff` -- so the cursor is kept except there.
-/
import MessageNexus.Nexus.Frames

namespace MessageNexus

open Interact SignalFlow

/-! ## 1. The newest cursor -/

/-- The cursor that a frame tells the client. -/
def frameCursor : SignalMessage.Response → Option DeliveryCursor
  | .sendAccepted acceptance => some acceptance.deliveryCursor
  | .sendsObserved observation => some observation.deliveryCursor
  | .sendChanged snapshot => some snapshot.deliveryCursor
  | _ => none

/-- The newest cursor of the frames, else the one the query named. -/
def newestKnown (named : Option DeliveryCursor) (frames : List SignalMessage.Response) :
    Option DeliveryCursor :=
  (frames.filterMap frameCursor).getLast?.or named

/-- The cursor that a query names. -/
def SignalMessage.Query.namedCursor : SignalMessage.Query → Option DeliveryCursor
  | .observeSends cursor => cursor
  | .observeThread cursor _ => cursor
  | _ => none

/-- Every interruption carries the newest cursor known before it. -/
def CursorKept (named : Option DeliveryCursor) (frames : List SignalMessage.Response) : Prop :=
  ∀ before cursor text after,
    frames = before ++ .observationInterrupted cursor text :: after →
    cursor = newestKnown named before

/-- The subscription did not open, or its stream failed, ended or turned foreign. -/
def StreamLost (h : List NexusEvent) : Prop :=
  (∃ failure, openings h = [.error failure]) ∨ ∃ input ∈ statuses h, EndsStream input

/-- A lost stream is told to a client that takes every frame: an interruption is the last one. -/
def LossTold (h : List NexusEvent) : Prop :=
  StreamLost h → takenFrames h = written h → ∃ before cursor text,
    takenFrames h = before ++ [.observationInterrupted cursor text]

/-- So it is with the newest cursor known, and every interruption carries that. -/
structure ResumeTold (named : Option DeliveryCursor) (h : List NexusEvent) : Prop where
  told : StreamLost h → takenFrames h = written h → ∃ before text,
    takenFrames h = before ++ [.observationInterrupted (newestKnown named before) text]
  kept : CursorKept named (written h)

/-- The connection knows a cursor before its subscription has told one: it is a send, which was
    accepted with one, or an observation that named one. -/
def SignalMessage.Query.startsKnowing : SignalMessage.Query → Bool
  | .send _ => true
  | .sendThread _ _ => true
  | .observeSends cursor => cursor.isSome
  | .observeThread cursor _ => cursor.isSome
  | .configure _ => false

section Cursor

variable {named : Option DeliveryCursor} {frames : List SignalMessage.Response}

theorem newestKnown_frames (first : List SignalMessage.Response) (fs : List StatusFrame) :
    newestKnown named (first ++ fs.map (·.frame)) =
      (lastCursor fs).or (newestKnown named first) := by
  have hf : (fs.map (·.frame)).filterMap frameCursor = fs.map (·.cursor) := by
    induction fs with
    | nil => rfl
    | cons f fs ih => cases f <;> exact congrArg (List.cons _) ih
  rw [newestKnown, List.filterMap_append, hf, List.getLast?_append, List.getLast?_map, lastCursor,
    newestKnown, Option.or_assoc]

/-- Frames without an interruption. -/
theorem cursorKept_of_none (hno : ∀ r ∈ frames, ¬ IsInterruption r) : CursorKept named frames := by
  intro before cursor text after he
  have hmem : SignalMessage.Response.observationInterrupted cursor text ∈ frames := by
    rw [he]
    exact List.mem_append_right before List.mem_cons_self
  exact absurd ⟨cursor, text, rfl⟩ (hno _ hmem)

/-- Frames whose only interruption is the last one. -/
theorem cursorKept_last {pre : List SignalMessage.Response} (cursor : Option DeliveryCursor)
    (text : String) (hno : ∀ r ∈ pre, ¬ IsInterruption r) :
    CursorKept named (pre ++ [.observationInterrupted cursor text]) ↔
      cursor = newestKnown named pre := by
  constructor
  · intro hk
    exact hk pre cursor text [] rfl
  · intro hc before cursor' text' after he
    rcases List.append_eq_append_iff.mp he with ⟨mid, hbefore, hrest⟩ | ⟨mid, hpre, hrest⟩
    · cases mid with
      | nil =>
          rw [List.append_nil] at hbefore
          cases hrest
          rw [hbefore]
          exact hc
      | cons r mid =>
          exfalso
          have hlen := congrArg List.length hrest
          simp at hlen
    · cases mid with
      | nil =>
          rw [List.append_nil] at hpre
          cases hrest
          rw [← hpre]
          exact hc
      | cons r mid =>
          cases hrest
          exact absurd ⟨cursor', text', rfl⟩
            (hno _ (hpre ▸ List.mem_append_right before List.mem_cons_self))

/-- No frame of the subscription is an interruption. -/
theorem frames_not_interruption {first : List SignalMessage.Response}
    (hfirst : ∀ r ∈ first, ¬ IsInterruption r) (fs : List StatusFrame) :
    ∀ r ∈ first ++ fs.map (·.frame), ¬ IsInterruption r := by
  intro r hr
  rcases List.mem_append.mp hr with hr | hr
  · exact hfirst r hr
  · obtain ⟨f, _, rfl⟩ := List.mem_map.mp hr
    rintro ⟨cursor, text, he⟩
    cases f <;> cases he

/-- The subscription ended before its first frame. -/
def EndedAtOnce (h : List NexusEvent) : Prop :=
  ∃ input, (statuses h).head? = some input ∧ EndsStream input

/-- A subscription that read a status frame first did not end at once. -/
theorem not_endedAtOnce {h : List NexusEvent} {f : StatusFrame}
    {rest : List (Except FrameError Response)} (hread : statuses h = .ok f.flow :: rest) :
    ¬ EndedAtOnce h := by
  rintro ⟨input, hhead, hends⟩
  rw [hread] at hhead
  exact hends f (Option.some.inj hhead).symm

theorem not_endedAtOnce_nil {h : List NexusEvent} (hread : statuses h = []) : ¬ EndedAtOnce h := by
  rintro ⟨input, hhead, _⟩
  rw [hread] at hhead
  cases hhead

/-- Status frames that were passed on lost no stream and no cursor: none of them was its end. -/
theorem RelayedSoFar.passed_cursor {first : List SignalMessage.Response}
    {terminalId : Option LogicalDeliveryId} {fs : List StatusFrame} {f : StatusFrame}
    {before : List NexusEvent} {outcome : Except FrameError Unit}
    (hfirst : ∀ r ∈ first, ¬ IsInterruption r)
    (hr : RelayedSoFar first terminalId fs [.ok f.flow] before) :
    (CursorKept named (written (before ++ [⟨.writeResponse f.frame, outcome⟩])) ↔
      (EndedAtOnce (before ++ [⟨.writeResponse f.frame, outcome⟩]) →
        newestKnown named first = none)) ∧
    ¬ StreamLost (before ++ [⟨.writeResponse f.frame, outcome⟩]) := by
  obtain ⟨hread, hwrote⟩ := hr.write f.frame outcome
  have hall : written (before ++ [⟨.writeResponse f.frame, outcome⟩]) =
      first ++ (fs ++ [f]).map (·.frame) := by
    rw [hwrote, List.map_append, List.append_assoc]
    rfl
  refine ⟨iff_of_true ?_ fun he => absurd he ?_, ?_⟩
  · rw [hall]
    exact cursorKept_of_none (frames_not_interruption hfirst _)
  · cases fs with
    | nil => exact not_endedAtOnce (f := f) hread
    | cons g gs => exact not_endedAtOnce (f := g) hread
  · rintro (⟨failure, hfailed⟩ | ⟨input, hin, hends⟩)
    · rw [openings_snoc _ _ rfl, hr.opened] at hfailed
      cases hfailed
    · have hreads : readOf fs ++ [.ok f.flow] = readOf (fs ++ [f]) := by
        simp [readOf]
      rw [hread, hreads] at hin
      obtain ⟨g, _, rfl⟩ := List.mem_map.mp hin
      exact hends g rfl

/-- What the forwarding does for the cursor: an interruption carries the cursor of the last frame
    forwarded, and none if there was no such frame; a stream that is lost is told. -/
theorem relayEnd_cursor {first : List SignalMessage.Response}
    {terminalId : Option LogicalDeliveryId} {h : List NexusEvent}
    {result : Except FrameError Unit} (hfirst : ∀ r ∈ first, ¬ IsInterruption r)
    (hr : RelayEnd first terminalId h result) :
    (CursorKept named (written h) ↔ (EndedAtOnce h → newestKnown named first = none)) ∧
      LossTold h := by
  cases hr with
  | unopened before e error hr _ hw hn ho =>
      have hr' := hr.snoc e hw hn ho
      refine ⟨iff_of_true ?_ fun he => absurd he (not_endedAtOnce_nil hr'.read), ?_⟩
      · rw [hr'.wrote]
        exact cursorKept_of_none (frames_not_interruption hfirst [])
      · rintro (⟨failure, hfailed⟩ | ⟨input, hin, _⟩)
        · rw [hr'.opened] at hfailed
          cases hfailed
        · rw [hr'.read] at hin
          cases hin
  | cut before fs f error hr =>
      obtain ⟨hkept, hnot⟩ := hr.passed_cursor hfirst
      exact ⟨hkept, fun hlost => absurd hlost hnot⟩
  | finished before fs f hr _ =>
      obtain ⟨hkept, hnot⟩ := hr.passed_cursor hfirst
      exact ⟨hkept, fun hlost => absurd hlost hnot⟩
  | interrupted before fs input text result hr hends =>
      obtain ⟨hread, hwrote⟩ := hr.write (.observationInterrupted (lastCursor fs) text) result
      refine ⟨?_, fun _ hall => ⟨_, lastCursor fs, text, hall.trans hwrote⟩⟩
      rw [hwrote, cursorKept_last (lastCursor fs) text (frames_not_interruption hfirst fs),
        newestKnown_frames]
      cases fs with
      | nil =>
          have hat : EndedAtOnce (before ++
              [⟨.writeResponse (.observationInterrupted (lastCursor []) text), result⟩]) :=
            ⟨input, by rw [hread]; rfl, hends⟩
          constructor
          · exact fun hk _ => hk.symm
          · exact fun hk => (hk hat).symm
      | cons f fs =>
          refine iff_of_true ?_ fun he => absurd he (not_endedAtOnce (f := f) hread)
          obtain ⟨fs', g, hconcat⟩ := (List.eq_nil_or_concat (f :: fs)).resolve_left
            (List.cons_ne_nil f fs)
          rw [hconcat, List.concat_eq_append, lastCursor_concat]
          rfl

end Cursor

/-! ## 2. The cursor of a connection -/

section Told

variable {query : SignalMessage.Query} {h : List NexusEvent} {result : Except FrameError Unit}

/-- A history in which a lost stream is told tells it with the newest cursor, where that is kept. -/
theorem resumeTold_iff (hl : LossTold h) :
    ResumeTold query.namedCursor h ↔ CursorKept query.namedCursor (written h) := by
  refine ⟨fun hr => hr.kept, fun hk => ⟨fun hlost hall => ?_, hk⟩⟩
  obtain ⟨before, cursor, text, htaken⟩ := hl hlost hall
  have hcursor := hk before cursor text [] (hall ▸ htaken)
  exact ⟨before, text, hcursor ▸ htaken⟩

/-- A connection that read no status frame did not end at once; it keeps the cursor. -/
theorem unread_cursor (hread : statuses h = []) (hl : LossTold h)
    (hk : CursorKept query.namedCursor (written h)) :
    ResumeTold query.namedCursor h ↔ ¬ (EndedAtOnce h ∧ query.startsKnowing = true) :=
  iff_of_true ((resumeTold_iff hl).mpr hk) fun ⟨he, _⟩ => not_endedAtOnce_nil hread he

/-- One reply that is no interruption, where no subscription was opened. -/
theorem reply_cursor {before : List NexusEvent} {response : SignalMessage.Response}
    (hs : Silent before) (ho : openings before = []) (hno : ¬ IsInterruption response) :
    ResumeTold query.namedCursor (before ++ [⟨.writeResponse response, result⟩]) ↔
      ¬ (EndedAtOnce (before ++ [⟨.writeResponse response, result⟩]) ∧
        query.startsKnowing = true) := by
  obtain ⟨hwrote, hread⟩ := written_silent hs response result
  refine unread_cursor hread ?_ (cursorKept_of_none fun r hmem => ?_)
  · rintro (⟨failure, hfailed⟩ | ⟨input, hin, _⟩)
    · rw [openings_snoc _ _ rfl, ho] at hfailed
      cases hfailed
    · rw [hread] at hin
      cases hin
  · rw [hwrote] at hmem
    cases List.mem_singleton.mp hmem
    exact hno

/-- An interruption told in place of a subscription that did not open. -/
theorem closed_cursor {before : List NexusEvent} {first : List SignalMessage.Response}
    {cursor : Option DeliveryCursor} {text : String} (hwrote : written before = first)
    (hread : statuses before = []) (hfirst : ∀ r ∈ first, ¬ IsInterruption r)
    (hknown : cursor = newestKnown query.namedCursor first) :
    ResumeTold query.namedCursor
        (before ++ [⟨.writeResponse (.observationInterrupted cursor text), result⟩]) ↔
      ¬ (EndedAtOnce
        (before ++ [⟨.writeResponse (.observationInterrupted cursor text), result⟩]) ∧
        query.startsKnowing = true) := by
  have hw : written (before ++ [⟨.writeResponse (.observationInterrupted cursor text), result⟩]) =
      first ++ [.observationInterrupted cursor text] := by
    rw [written_append, hwrote]
    rfl
  refine unread_cursor ?_ (fun _ hall => ⟨first, cursor, text, hall.trans hw⟩) ?_
  · rw [statuses_append, hread]
    rfl
  · rw [hw]
    exact (cursorKept_last cursor text hfirst).mpr hknown

theorem acceptance_not_interruption (acceptance : SendAcceptance) :
    ¬ IsInterruption (.sendAccepted acceptance) := by
  rintro ⟨cursor, text, he⟩
  cases he

theorem sendEnd_cursor [FlowDebug] {request : SendRequest} (hs : SendEnd request h result)
    (hknows : query.startsKnowing = true) :
    ResumeTold query.namedCursor h ↔ ¬ (EndedAtOnce h ∧ query.startsKnowing = true) := by
  have hfirst : ∀ acceptance, ∀ r ∈ [SignalMessage.Response.sendAccepted acceptance],
      ¬ IsInterruption r :=
    fun acceptance r hmem => List.mem_singleton.mp hmem ▸ acceptance_not_interruption acceptance
  cases hs with
  | single before response result hsilent hreply =>
      refine reply_cursor hsilent hreply.unopened ?_
      rintro ⟨cursor, text, rfl⟩
      rcases (singleReply_verdict hreply).1 with ⟨_, he⟩ | ⟨_, he⟩ | ⟨_, he⟩ <;> cases he
  | unaccepted before acceptance error hsilent hq =>
      obtain ⟨hwrote, hread⟩ := written_silent hsilent (.sendAccepted acceptance) (.error error)
      refine unread_cursor hread (fun _ hall => ?_) (cursorKept_of_none ?_)
      · -- the acceptance was written, and not taken
        rw [takenFrames_append, takenFrames_of_silent hsilent, hwrote] at hall
        cases hall
      · rw [hwrote]
        exact hfirst acceptance
  | closed before acceptance failure result hq ha =>
      exact closed_cursor ha.wrote ha.read (hfirst acceptance) rfl
  | relayed h acceptance result hq hend =>
      obtain ⟨hkept, hlost⟩ := relayEnd_cursor (hfirst acceptance) hend
      rw [resumeTold_iff hlost, hkept, hknows]
      simp [newestKnown, frameCursor]

theorem observeEnd_cursor [FlowDebug] {cursor : Option DeliveryCursor}
    (ho : ObserveEnd cursor h result) (hnamed : query.namedCursor = cursor)
    (hknows : query.startsKnowing = cursor.isSome) :
    ResumeTold query.namedCursor h ↔ ¬ (EndedAtOnce h ∧ query.startsKnowing = true) := by
  cases ho with
  | refused before response result hs hopened hrefused =>
      refine reply_cursor hs hopened ?_
      obtain ⟨refusal, rfl⟩ := hrefused
      rintro ⟨cursor, text, he⟩
      cases he
  | closed before failure result hs hopened =>
      exact closed_cursor hs.1 hs.2 (fun r hmem => by cases hmem) hnamed.symm
  | relayed h result hend =>
      obtain ⟨hkept, hlost⟩ := relayEnd_cursor (fun r hmem => by cases hmem) hend
      rw [resumeTold_iff hlost, hkept, hnamed, hknows]
      cases cursor <;> simp [newestKnown]

theorem configureEnd_cursor {configuration : Configuration} (hc : ConfigureEnd h result) :
    ResumeTold (SignalMessage.Query.configure configuration).namedCursor h ↔
      ¬ (EndedAtOnce h ∧ (SignalMessage.Query.configure configuration).startsKnowing = true) := by
  obtain ⟨before, outcome, result, hs, ho⟩ := hc
  refine reply_cursor hs ho ?_
  rintro ⟨cursor, text, he⟩
  cases outcome with
  | ok restart => cases he
  | error failure => cases failure <;> cases he

end Told

/-- In every interleaving, a lost stream is told by an interruption with the newest cursor known, and
    no other cursor is told, except where the subscription opened and ended before its first frame on
    a connection that knew a cursor already. -/
theorem resume_cursor_iff [FlowDebug] {s₀ : NexusShared} {c : NexusPool}
    (hr : Reach nexusSystem (.idle s₀) c) {t : Nat}
    {th : Thread NexusOp NexusAns ForwardLoop (Except FrameError Unit)}
    (ht : c.threads t = some th) {process : Process} {query : SignalMessage.Query}
    (ha : asked th.hist = some (process, query)) (hend : ended th.rest = true) :
    ResumeTold query.namedCursor th.hist ↔
      ¬ (EndedAtOnce th.hist ∧ query.startsKnowing = true) := by
  have hframes := connection_frames hr ht ha
  obtain ⟨result, hrest⟩ := ended_eq hend
  rw [hrest] at hframes
  cases query with
  | send request => exact sendEnd_cursor hframes rfl
  | sendThread request thread => exact sendEnd_cursor hframes rfl
  | observeSends cursor => exact observeEnd_cursor hframes rfl rfl
  | observeThread cursor thread => exact observeEnd_cursor hframes rfl rfl
  | configure configuration => exact configureEnd_cursor hframes

/-- A Soft send that Flow queues at cursor 3, and whose subscription ends before its first frame. -/
def closedScript : NexusScript := { queuedScript with frames := [] }

def closedHistory : List NexusEvent := closedScript.history 30 (.serving sampleConfiguration)

/-- It is told to resume from nowhere, though it was accepted at a cursor. -/
theorem resume_cursor_lost :
    Reach (@nexusSystem unitDebug) (.idle (.serving sampleConfiguration))
      (@NexusScript.pool unitDebug closedScript 30 (.serving sampleConfiguration)) ∧
    written closedHistory = [.sendAccepted ⟨"delivery-1", 3, .queued⟩,
      .observationInterrupted none "Flow status stream ended: Broken"] ∧
    ¬ CursorKept closedScript.query.namedCursor (written closedHistory) ∧
    ¬ ResumeTold closedScript.query.namedCursor closedHistory := by
  have hlost : ¬ CursorKept closedScript.query.namedCursor (written closedHistory) := by
    intro hk
    have hcursor := hk [.sendAccepted ⟨"delivery-1", 3, .queued⟩] none
      "Flow status stream ended: Broken" [] rfl
    cases hcursor
  exact ⟨@NexusScript.pool_reach unitDebug closedScript 30 _ rfl, rfl, hlost,
    fun hr => hlost hr.kept⟩

/-- The same send, whose subscription ends behind its first frame, at cursor 4. -/
def brokenScript : NexusScript := { queuedScript with frames := queuedScript.frames.take 1 }

def brokenHistory : List NexusEvent := brokenScript.history 30 (.serving sampleConfiguration)

/-- It is told to resume from there. -/
theorem resume_cursor_broken :
    (written brokenHistory).getLast? =
      some (.observationInterrupted (some 4) "Flow status stream ended: Broken") ∧
    takenFrames brokenHistory = written brokenHistory ∧ StreamLost brokenHistory ∧
    ResumeTold brokenScript.query.namedCursor brokenHistory := by
  have hclosed : EndsStream (.error .closed) := fun f he => by cases he
  refine ⟨rfl, rfl, Or.inr ⟨.error .closed, List.mem_of_getLast? rfl, hclosed⟩,
    (@resume_cursor_iff unitDebug _ _ (@NexusScript.pool_reach unitDebug brokenScript 30 _ rfl)
      0 _ (@NexusScript.pool_thread unitDebug _ _ _) _ _ rfl rfl).mpr ?_⟩
  rintro ⟨⟨input, hhead, hends⟩, _⟩
  cases hhead
  exact hends (.observed _) rfl

end MessageNexus
