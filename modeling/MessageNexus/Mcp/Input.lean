/-
  File:      MessageNexus/Mcp/Input.lean
  Subject:   THE LINES OF STDIN: each turn of the stdio loop reads one line through a fresh reader
             of `MAX_LINE + 1` bytes, and what it parses are the lines of the stream, as they stand.

  * `Stdin`, `Stdin.readLine`, `Served` -- the bytes of stdin as they arrive, one read, and a
    history whose reads were answered from them; a history has read only a beginning of its
    stream, so that an endless one needs no case of its own;
  * `taken`, `parsed` -- the text a read is parsed as, if any, and those of a history;
  * `accepted` -- the lines of the stream up to the first that is too long or not UTF-8;
  * `InputPlace` -- where the loop reads, gives up and sweeps;
  * `Sweeping`, `sweeping` -- after the final sweep every active call is cancelled;
  * `LinesParsed`, `lines_parsed` -- the loop parses the accepted lines whole and one by one, and
    cancels what is active at its end.
-/
import MessageNexus.Lib.Lines
import MessageNexus.Lib.Text
import MessageNexus.Mcp.Cancel

namespace MessageNexus

open Interact SignalFlow SignalMessage Json Text Framing

/-! ## 1. Listening stdin -/

/-- The bytes of stdin, as they arrive. -/
abbrev Stdin := Source UInt8 IoError

def newline : UInt8 := 10

/-- `read_line`, on the bytes that `read_until` has read. -/
def lineText : Except IoError (List UInt8) → Except IoError String
  | .error error => .error error
  | .ok bytes =>
      match decode bytes with
      | none => .error "stream did not contain valid UTF-8"
      | some line => .ok line

/-- `(&mut input).take(MAX_LINE + 1).read_line(&mut line)`. -/
def Stdin.readLine (stdin : Stdin) : Except IoError String × Stdin :=
  let read := stdin.takeLine newline (maxLine + 1)
  (lineText read.1, read.2)

/-- The first `n` reads. -/
def serve : Nat → Stdin → List (Except IoError String)
  | 0, _ => []
  | n + 1, stdin => stdin.readLine.1 :: serve n stdin.readLine.2

/-- The reads of a history. -/
def reads (h : List McpEvent) : List (Except IoError String) :=
  h.filterMap fun
    | ⟨.readLine, read⟩ => some read
    | _ => none

/-- The reads of this history were answered from stdin. -/
def Served (stdin : Stdin) (h : List McpEvent) : Prop := reads h = serve (reads h).length stdin

/-- The text that a read is parsed as: no failure, not the end, and not too long. -/
def taken : Except IoError String → Option String
  | .error _ => none
  | .ok line => if line = "" ∨ maxLine < line.utf8ByteSize then none else some line

theorem taken_ok (line : String) :
    taken (.ok line) = if line = "" ∨ maxLine < line.utf8ByteSize then none else some line := rfl

/-- The texts that a history parses. -/
def parsed (h : List McpEvent) : List String := (reads h).filterMap taken

/-- The line is within the limit, and UTF-8. -/
def acceptable (line : List UInt8) : Bool := line.length ≤ maxLine && (decode line).isSome

/-- The lines of stdin up to the first that is not acceptable. -/
def accepted (stdin : Stdin) : List (List UInt8) := (stdin.lines newline).takeWhile acceptable

/-! ## 2. The reads are the lines -/

/-- A line that is acceptable is parsed as it stands. -/
theorem lineText_acceptable {line : List UInt8} (hne : line ≠ []) (h : acceptable line = true) :
    ∃ text, taken (lineText (.ok line)) = some text ∧ textBytes text = line := by
  simp only [acceptable, Bool.and_eq_true, decide_eq_true_eq] at h
  obtain ⟨text, htext⟩ := Option.isSome_iff_exists.mp h.2
  have hbytes : textBytes text = line := decode_some htext
  have hsize : text.utf8ByteSize ≤ maxLine := by
    rw [← textBytes_length, hbytes]
    exact h.1
  have hfull : text ≠ "" := by
    rintro rfl
    exact hne hbytes.symm
  refine ⟨text, ?_, hbytes⟩
  simp only [lineText, htext]
  rw [taken_ok, if_neg (by simp [hfull, hsize])]

/-- Bytes that are none, too many or not UTF-8 are not parsed. -/
theorem lineText_rejected {bytes : List UInt8}
    (h : bytes = [] ∨ maxLine < bytes.length ∨ decode bytes = none) :
    taken (lineText (.ok bytes)) = none := by
  cases hdecode : decode bytes with
  | none => simp [lineText, hdecode, taken]
  | some text =>
      have hsize := textBytes_length text
      rw [decode_some hdecode] at hsize
      simp only [lineText, hdecode]
      rw [taken_ok, if_pos]
      rcases h with hempty | hlong | hnone
      · left
        rw [hempty] at hsize
        exact String.utf8ByteSize_eq_zero_iff.mp hsize.symm
      · right
        rwa [← hsize]
      · rw [hnone] at hdecode
        cases hdecode

/-- The lines of a stream are not empty. -/
theorem lines_ne_nil {stdin : Stdin} {line : List UInt8} (h : line ∈ stdin.lines newline) :
    line ≠ [] := by
  obtain ⟨_, hlines, _⟩ := splitLines_spec newline stdin.bytes
  rcases List.mem_append.mp h with hfull | hlast
  · obtain ⟨text, rfl, _⟩ := hlines line hfull
    simp
  · split at hlast
    · rename_i hleft
      rw [List.mem_singleton.mp hlast]
      exact hleft.2
    · cases hlast

/-- Where the next line is acceptable, the read is parsed as this line and the stream goes on after
    it; -/
theorem readLine_accepted {stdin : Stdin} {line : List UInt8} {lines : List (List UInt8)}
    (h : stdin.lines newline = line :: lines) (haccept : acceptable line = true) :
    (∃ text, taken stdin.readLine.1 = some text ∧ textBytes text = line) ∧
      stdin.readLine.2.lines newline = lines := by
  have hlength : line.length < maxLine + 1 := by
    simp only [acceptable, Bool.and_eq_true, decide_eq_true_eq] at haccept
    omega
  obtain ⟨hread, hrest⟩ := takeLine_line h hlength
  have hne : line ≠ [] := lines_ne_nil (by rw [h]; exact List.mem_cons_self)
  refine ⟨?_, hrest⟩
  have htext : stdin.readLine.1 = lineText (.ok line) := by
    rw [Stdin.readLine, hread]
  rw [htext]
  exact lineText_acceptable hne haccept

/-- where it is not, or there is none, the read is not parsed. -/
theorem readLine_rejected {stdin : Stdin}
    (h : ∀ line ∈ (stdin.lines newline).head?, acceptable line = false) :
    taken stdin.readLine.1 = none := by
  show taken (lineText (stdin.takeLine newline (maxLine + 1)).1) = none
  cases hlines : stdin.lines newline with
  | nil =>
      rcases takeLine_end (n := maxLine + 1) hlines with hend | ⟨error, hfail⟩ | ⟨bytes, hlong, hn⟩
      · rw [hend]
        exact lineText_rejected (Or.inl rfl)
      · rw [hfail]
        rfl
      · rw [hlong]
        exact lineText_rejected (Or.inr (Or.inl (by omega)))
  | cons line lines =>
      rw [hlines] at h
      have hno := h line rfl
      by_cases hshort : line.length < maxLine + 1
      · rw [(takeLine_line hlines hshort).1]
        refine lineText_rejected (Or.inr (Or.inr ?_))
        simp only [acceptable, Bool.and_eq_false_iff, decide_eq_false_iff_not] at hno
        rcases hno with hlong | hbytes
        · omega
        · exact Option.isNone_iff_eq_none.mp (by simpa using hbytes)
      · rw [takeLine_long hlines (by omega)]
        refine lineText_rejected (Or.inr (Or.inl ?_))
        rw [List.length_take]
        omega

/-- Lines within the limit are read as they stand, and then the end. -/
theorem serve_texts (texts : List String) (stdin : Stdin)
    (hlines : stdin.lines newline = texts.map textBytes) (hend : stdin.failure = none)
    (hshort : ∀ text ∈ texts, text.utf8ByteSize ≤ maxLine) :
    serve (texts.length + 1) stdin = texts.map .ok ++ [.ok ""] := by
  induction texts generalizing stdin with
  | nil =>
      have hempty := lines_nil hlines hend
      have hread : (stdin.takeLine newline (maxLine + 1)).1 = .ok [] := by
        rw [(takeLine_ended (by rw [hempty]; exact List.not_mem_nil) (by rw [hempty]; simp)).1 hend,
          hempty]
      have hdecode : decode [] = some "" := decode_encode []
      show [lineText (stdin.takeLine newline (maxLine + 1)).1] = _
      rw [hread, lineText, hdecode]
      rfl
  | cons text texts ih =>
      have hbytes : (textBytes text).length < maxLine + 1 := by
        rw [textBytes_length]
        exact Nat.lt_succ_of_le (hshort text List.mem_cons_self)
      obtain ⟨hread, hrest⟩ := takeLine_line hlines hbytes
      have htail := ih stdin.readLine.2 hrest ((takeLine_rest newline _ stdin).2.trans hend)
        fun text' hin => hshort text' (List.mem_cons_of_mem text hin)
      show lineText (stdin.takeLine newline (maxLine + 1)).1 ::
        serve (texts.length + 1) stdin.readLine.2 = _
      rw [htail, hread, lineText, decode_textBytes]
      rfl

theorem accepted_cons {stdin : Stdin} {line : List UInt8} {lines : List (List UInt8)}
    (h : stdin.lines newline = line :: lines) (haccept : acceptable line = true) :
    accepted stdin = line :: accepted stdin.readLine.2 := by
  rw [accepted, accepted, (readLine_accepted h haccept).2, h, List.takeWhile_cons, haccept,
    if_pos rfl]

/-- What reads that go on only after a parsed one are parsed as: accepted lines, and all of them
    once a read is not parsed. -/
theorem serve_parsed (n : Nat) (stdin : Stdin)
    (hlast : ∀ before read after, serve n stdin = before ++ read :: after → taken read = none →
      after = []) :
    ((serve n stdin).filterMap taken).map textBytes <+: accepted stdin ∧
      ((∃ read ∈ serve n stdin, taken read = none) →
        ((serve n stdin).filterMap taken).map textBytes = accepted stdin) := by
  induction n generalizing stdin with
  | zero => exact ⟨List.nil_prefix, fun ⟨read, hread, _⟩ => by cases hread⟩
  | succ n ih =>
      by_cases hhead : ∃ line lines, stdin.lines newline = line :: lines ∧ acceptable line = true
      · obtain ⟨line, lines, hlines, haccept⟩ := hhead
        obtain ⟨⟨text, htext, hbytes⟩, _⟩ := readLine_accepted hlines haccept
        obtain ⟨hbegin, hall⟩ := ih stdin.readLine.2 fun before read after he =>
          hlast (stdin.readLine.1 :: before) read after (by rw [serve, he]; rfl)
        rw [accepted_cons hlines haccept, serve, List.filterMap_cons_some htext, List.map_cons,
          hbytes]
        refine ⟨List.cons_prefix_cons.mpr ⟨rfl, hbegin⟩, fun ⟨read, hread, hnone⟩ => ?_⟩
        rcases List.mem_cons.mp hread with rfl | hrest
        · rw [htext] at hnone
          cases hnone
        · rw [hall ⟨read, hrest, hnone⟩]
      · have hno : ∀ line ∈ (stdin.lines newline).head?, acceptable line = false := by
          intro line hline
          by_contra haccept
          obtain ⟨lines, hlines⟩ := List.head?_eq_some_iff.mp hline
          exact hhead ⟨line, lines, hlines, by simpa using haccept⟩
        have hnone := readLine_rejected hno
        have hnil : accepted stdin = [] := by
          rw [accepted]
          cases hlines : stdin.lines newline with
          | nil => rfl
          | cons line lines =>
              have hfalse := hno line (by rw [hlines]; rfl)
              rw [List.takeWhile_cons, hfalse]
              rfl
        have hrest : serve n stdin.readLine.2 = [] := hlast [] _ _ rfl hnone
        rw [serve, hrest, List.filterMap_cons_none hnone, hnil]
        exact ⟨List.prefix_rfl, fun _ => rfl⟩

/-! ## 3. Where the loop reads, gives up and sweeps -/

section Loop

variable [McpCodec]

/-- Every read so far is parsed, and the connection is not given up. -/
structure Listening (h : List McpEvent) : Prop where
  taken : ∀ read ∈ reads h, taken read ≠ none
  going : (stdioLog h).givenUp = false

/-- Why the loop may end: a read that is not parsed, or a failed write. -/
def EndCause (h : List McpEvent) : Prop :=
  (∃ read ∈ reads h, taken read = none) ∨
    ∃ value error, (⟨.writeJson value, .error error⟩ : McpEvent) ∈ h

/-- The final sweep has found its calls. -/
def SweepBegun (h : List McpEvent) : Prop := ∃ calls, (⟨.activeCalls, calls⟩ : McpEvent) ∈ h

/-- The final sweep is over. -/
def SweepOver (h : List McpEvent) : Prop := SweepBegun h ∧ Unlocked h

/-- Where an operation of the loop may stand, other than its reads. -/
def InputPlace (h : List McpEvent) : McpOp → Prop
  | .readLine => False
  | .insertActive _ _ => (stdioLog h).givenUp = false
  | .storeAlive => EndCause h
  | .activeCalls => (stdioLog h).givenUp = true
  | _ => True

/-- The loop reads only while every read is parsed. -/
def ReadPlace (h : List McpEvent) (o : McpOp) : Prop :=
  InputPlace h o ∨ (o = .readLine ∧ Listening h)

def InputLoop : McpLoop → List McpEvent → Prop
  | .lines _ _, h => Listening h
  | .reap _ _ _, h => Listening h
  | .joins _, h => SweepOver h
  | .read _ _ _, _ => False

abbrev InputKept (p : McpThread) (h : List McpEvent) : Prop :=
  Holds anyAnswer InputPlace (Sum.elim InputLoop fun _ h => SweepOver h) p h

/-- The operations that leave the loop reading. -/
def McpOp.calm : McpOp → Bool
  | .readLine => false
  | .insertActive _ _ => false
  | .storeAlive => false
  | .activeCalls => false
  | _ => true

variable {adapter : Adapter} {h : List McpEvent}

omit [McpCodec] in
theorem reads_snoc (h : List McpEvent) (e : McpEvent) :
    reads (h ++ [e]) = reads h ++ reads [e] := by
  simp [reads]

omit [McpCodec] in
theorem reads_other {e : McpEvent} (ho : e.op ≠ .readLine) : reads [e] = [] := by
  obtain ⟨o, a⟩ := e
  cases o with
  | readLine => exact absurd rfl ho
  | _ => rfl

omit [McpCodec] in
/-- Only the store of the liveness flag gives the connection up. -/
theorem givenUp_snoc (h : List McpEvent) {e : McpEvent} (ho : e.op ≠ .storeAlive) :
    (stdioLog (h ++ [e])).givenUp = (stdioLog h).givenUp := by
  rw [stdioLog_snoc]
  obtain ⟨o, a⟩ := e
  cases o with
  | storeAlive => exact absurd rfl ho
  | readLine =>
      cases a with
      | error error => rfl
      | ok line =>
          unfold StdioLog.after
          dsimp only
          split <;> rfl
  | _ => rfl

omit [McpCodec] in
/-- The loop keeps reading over every operation but a read and the end of the connection. -/
theorem Listening.snoc (hr : Listening h) (e : McpEvent) (hread : e.op ≠ .readLine)
    (halive : e.op ≠ .storeAlive) : Listening (h ++ [e]) := by
  refine ⟨?_, ?_⟩
  · rw [reads_snoc, reads_other hread, List.append_nil]
    exact hr.taken
  · rw [givenUp_snoc h halive]
    exact hr.going

omit [McpCodec] in
theorem Listening.calm (hr : Listening h) (e : McpEvent) (ho : e.op.calm = true) :
    Listening (h ++ [e]) :=
  hr.snoc e (fun he => by rw [he] at ho; cases ho) (fun he => by rw [he] at ho; cases ho)

omit [McpCodec] in
theorem EndCause.snoc (hc : EndCause h) (e : McpEvent) : EndCause (h ++ [e]) := by
  rcases hc with ⟨read, hin, hnone⟩ | ⟨value, error, hin⟩
  · refine Or.inl ⟨read, ?_, hnone⟩
    rw [reads_snoc]
    exact List.mem_append_left _ hin
  · exact Or.inr ⟨value, error, List.mem_append_left _ hin⟩

omit [McpCodec] in
theorem inputPlace_calm {o : McpOp} (ho : o.calm = true) : InputPlace h o := by
  cases o with
  | readLine => cases ho
  | insertActive key call => cases ho
  | storeAlive => cases ho
  | activeCalls => cases ho
  | _ => trivial

theorem InputKept.ask {o : McpOp} {k : McpAns o → McpThread} (ho : o.calm = true) (hr : Listening h)
    (hk : ∀ a, Listening (h ++ [⟨o, a⟩]) → InputKept (k a) (h ++ [⟨o, a⟩])) :
    InputKept (.ask o k) h :=
  ⟨inputPlace_calm ho, fun a _ => hk a (hr.calm ⟨o, a⟩ ho)⟩

/-- The final sweep, for a cause. -/
theorem endLines_input (workers : List Nat) (hc : EndCause h) :
    InputKept (endLines workers) h := by
  refine ⟨hc, fun _ _ => ⟨trivial, fun _ _ => ⟨?_, fun calls _ => ?_⟩⟩⟩
  · show (stdioLog (h ++ [⟨.storeAlive, ()⟩] ++ [⟨.lockActive, ()⟩])).givenUp = true
    rw [stdioLog_snoc, stdioLog_snoc]
    rfl
  have hbegun : SweepBegun (h ++ [⟨.storeAlive, ()⟩] ++ [⟨.lockActive, ()⟩] ++
      [⟨.activeCalls, calls⟩]) := ⟨calls, by simp⟩
  have hcalls : Holds anyAnswer InputPlace (fun _ h' => SweepBegun h') (cancelCalls calls)
      (h ++ [⟨.storeAlive, ()⟩] ++ [⟨.lockActive, ()⟩] ++ [⟨.activeCalls, calls⟩]) := by
    have huses : Uses (fun o => o.calm = true) (cancelCalls calls) :=
      cancelCalls_uses (fun _ => rfl) (fun _ => rfl) calls
    exact huses.holds (fun h' e hin _ => hin.imp fun _ hin => List.mem_append_left _ hin)
      (fun _ o _ (ho : o.calm = true) => inputPlace_calm ho) hbegun
  show InputKept (cancelCalls calls >>= fun _ => act .unlockActive >>= fun _ =>
    pure (.inl (.joins workers))) _
  rw [InputKept, holds_bind]
  refine hcalls.mono (fun _ _ hG => hG) fun _ h' hin => ?_
  obtain ⟨calls, hin⟩ := hin
  exact ⟨trivial, fun _ _ => ⟨⟨calls, List.mem_append_left _ hin⟩, unlocked_unlock h'⟩⟩

theorem loseConnection_input (workers : List Nat) (hc : EndCause h) :
    InputKept (loseConnection workers) h :=
  ⟨hc, fun _ _ => endLines_input workers (hc.snoc _)⟩

theorem answerLine_input (workers : List Nat) (response : Value) {next : McpLoop} (hr : Listening h)
    (hnext : ∀ h', Listening h' → InputLoop next h') :
    InputKept (answerLine workers response next) h := by
  refine .ask rfl hr fun written hr => ?_
  cases written with
  | error error => exact loseConnection_input workers (Or.inr ⟨response, error, by simp⟩)
  | ok _ => exact hnext _ hr

omit [McpCodec] in
theorem cancelNamed_input (input : Value) (hr : Listening h) :
    Holds anyAnswer InputPlace (fun _ h' => Listening h') (cancelNamed input) h := by
  have huses : Uses (fun o => o.calm = true) (cancelNamed input) :=
    cancelNamed_uses (P := fun o => o.calm = true) rfl (fun _ => rfl) (fun _ => rfl)
      (fun _ => rfl) rfl input
  exact huses.holds (I := Listening) (fun _ e hr (ho : e.op.calm = true) => hr.calm e ho)
    (fun _ o _ (ho : o.calm = true) => inputPlace_calm ho) hr

theorem dispatchCall_input (workers : List Nat) (request : CallRequest) (hr : Listening h) :
    InputKept (dispatchCall adapter workers request) h := by
  refine .ask rfl hr fun _ hr => .ask rfl hr fun length hr => .ask rfl hr fun _ hr => ?_
  show InputKept (if length ≥ maxActiveCalls then _ else _) _
  by_cases hfull : length ≥ maxActiveCalls
  · rw [if_pos hfull]
    exact answerLine_input workers _ hr fun _ hr => hr
  · rw [if_neg hfull]
    refine .ask rfl hr fun call hr => .ask rfl hr fun _ hr => ⟨hr.going, fun _ _ => ?_⟩
    have hr := hr.snoc ⟨.insertActive request.key call, ()⟩ nofun nofun
    exact InputKept.ask rfl hr fun _ hr => InputKept.ask rfl hr fun _ hr => hr

theorem dispatchLine_input (workers : List Nat) (line : String) (hr : Listening h) :
    InputKept (dispatchLine adapter workers line) h := by
  unfold dispatchLine
  cases McpCodec.fromStr line with
  | none => exact answerLine_input workers _ hr fun _ hr => hr
  | some input =>
      show InputKept (dispatchInput adapter workers input) h
      unfold dispatchInput
      by_cases hcancel : methodOf input = some "notifications/cancelled"
      · rw [if_pos hcancel, InputKept, holds_bind]
        exact (cancelNamed_input input hr).mono (fun _ _ hG => hG) fun _ _ hr => hr
      rw [if_neg hcancel]
      by_cases hcall : methodOf input = some "tools/call"
      · rw [if_pos hcall]
        cases adapter.callRequest input with
        | error response => exact answerLine_input workers response hr fun _ hr => hr
        | ok accepted => exact dispatchCall_input workers accepted.1 hr
      · rw [if_neg hcall]
        cases adapter.synchronous input with
        | mk answer adapter' =>
            cases answer with
            | none => exact hr
            | some response => exact answerLine_input workers response hr fun _ hr => hr

/-- The end of the lines, at a read that is not parsed. -/
def stopLines (workers : List Nat) : Except IoError String → McpThread
  | .error _ => loseConnection workers
  | .ok line => if line = "" then loseConnection workers else endLines workers

/-- What the loop does with a read. -/
def afterRead (adapter : Adapter) (workers : List Nat) (read : Except IoError String) : McpThread :=
  match taken read with
  | some line => dispatchLine adapter workers line
  | none => stopLines workers read

theorem linesRound_eq (adapter : Adapter) (workers : List Nat) :
    linesRound adapter workers = .ask .readLine (afterRead adapter workers) := by
  refine congrArg (Prog.ask McpOp.readLine) (funext fun read => ?_)
  cases read with
  | error error => rfl
  | ok line =>
      show (if line = "" then loseConnection workers
        else if maxLine < line.utf8ByteSize then endLines workers
        else dispatchLine adapter workers line) = afterRead adapter workers (.ok line)
      rw [afterRead, taken_ok]
      by_cases hempty : line = ""
      · rw [if_pos hempty, if_pos (Or.inl hempty)]
        exact (if_pos hempty).symm
      · by_cases hlong : maxLine < line.utf8ByteSize
        · rw [if_neg hempty, if_pos hlong, if_pos (Or.inr hlong)]
          exact (if_neg hempty).symm
        · rw [if_neg hempty, if_neg hlong, if_neg (not_or.mpr ⟨hempty, hlong⟩)]

theorem afterRead_input (workers : List Nat) (read : Except IoError String) (hr : Listening h) :
    InputKept (afterRead adapter workers read) (h ++ [⟨.readLine, read⟩]) := by
  have hreads : reads (h ++ [⟨.readLine, read⟩]) = reads h ++ [read] := reads_snoc h _
  have hgoing : (stdioLog (h ++ [⟨.readLine, read⟩])).givenUp = false :=
    (@givenUp_snoc h ⟨.readLine, read⟩ nofun).trans hr.going
  unfold afterRead
  cases htaken : taken read with
  | some line =>
      refine dispatchLine_input workers line ⟨fun read' hin => ?_, hgoing⟩
      rw [hreads] at hin
      rcases List.mem_append.mp hin with hold | hnew
      · exact hr.taken read' hold
      · rw [List.mem_singleton.mp hnew, htaken]
        exact Option.some_ne_none line
  | none =>
      have hcause : EndCause (h ++ [⟨.readLine, read⟩]) :=
        Or.inl ⟨read, by rw [hreads]; exact List.mem_append_right _ (List.mem_singleton_self _),
          htaken⟩
      cases read with
      | error error => exact loseConnection_input workers hcause
      | ok line =>
          show InputKept (if line = "" then _ else _) _
          by_cases hempty : line = ""
          · rw [if_pos hempty]
            exact loseConnection_input workers hcause
          · rw [if_neg hempty]
            exact endLines_input workers hcause

/-- What the loop has left: it waits for a line, or is within its discipline. -/
def Awaits (p : McpThread) (h : List McpEvent) : Prop :=
  (∃ adapter workers, p = linesRound adapter workers ∧ Listening h) ∨ InputKept p h

theorem mcpRound_awaits (l : McpLoop) (hl : InputLoop l h) : Awaits (mcpRound l) h := by
  cases l with
  | lines adapter workers => exact Or.inl ⟨adapter, workers, rfl, hl⟩
  | reap adapter workers index =>
      right
      show InputKept (reapRound adapter workers index) h
      unfold reapRound
      cases workers[index]? with
      | none => exact hl
      | some worker =>
          refine .ask rfl hl fun finished hr => ?_
          cases finished with
          | false => exact hr
          | true => exact InputKept.ask rfl hr fun _ hr => hr
  | joins workers =>
      right
      cases workers with
      | nil => exact hl
      | cons worker workers =>
          refine ⟨trivial, fun _ _ => ⟨hl.1.imp fun _ hin => List.mem_append_left _ hin, ?_⟩⟩
          exact unlocked_off hl.2 _ rfl
  | read request call state => exact hl.elim

/-- Along the loop, every operation stands in its place. -/
theorem trace_awaits {p q : McpThread} {es : List McpEvent} (ht : Trace mcpRound p es q)
    (hp : Awaits p h) :
    Awaits q (h ++ es) ∧ Along (fun h e => ReadPlace h e.op) h es := by
  induction ht generalizing h with
  | here p => exact ⟨by rwa [List.append_nil], trivial⟩
  | @ask o k es q a _ ih =>
      have hnow : ReadPlace h o ∧ Awaits (k a) (h ++ [⟨o, a⟩]) := by
        rcases hp with ⟨adapter, workers, hround, hr⟩ | hkept
        · rw [linesRound_eq] at hround
          cases hround
          exact ⟨Or.inr ⟨rfl, hr⟩, Or.inr (afterRead_input workers a hr)⟩
        · exact ⟨Or.inl hkept.1, Or.inr (hkept.2 a trivial)⟩
      obtain ⟨hawaits, halong⟩ := ih hnow.2
      rw [List.append_assoc] at hawaits
      exact ⟨hawaits, hnow.1, halong⟩
  | @again l es q _ ih =>
      rcases hp with ⟨adapter, workers, hround, _⟩ | hkept
      · cases hround
      · exact ih (mcpRound_awaits l hkept)

omit [McpCodec] in
/-- A read that is not parsed is the last one. -/
theorem rejected_last (hi : Issued ReadPlace h) {before after : List (Except IoError String)}
    {read : Except IoError String} (he : reads h = before ++ read :: after)
    (hnone : taken read = none) : after = [] := by
  refine issued_induction (P := fun h => ∀ before after, reads h = before ++ read :: after →
    after = []) ?_ ?_ h hi before after he
  · intro before after he
    simp [reads] at he
  · intro h e _ hp ih before after he
    rw [reads_snoc] at he
    by_cases hread : e.op = .readLine
    · obtain ⟨o, a⟩ := e
      cases hread
      have hr : Listening h := by
        rcases hp with hfalse | ⟨_, hr⟩
        · exact hfalse.elim
        · exact hr
      rcases List.eq_nil_or_concat after with rfl | ⟨init, last, rfl⟩
      · rfl
      · have hsplit : reads h ++ reads [⟨.readLine, a⟩] = (before ++ read :: init) ++ [last] := by
          simpa using he
        obtain ⟨hreads, _⟩ := List.append_inj' hsplit rfl
        exact absurd hnone (hr.taken read (by rw [hreads]; simp))
    · rw [reads_other hread, List.append_nil] at he
      exact ih before after he

omit [McpCodec] in
/-- Once the connection is given up there was a cause. -/
theorem endCause_of_givenUp (hi : Issued ReadPlace h) (hgiven : (stdioLog h).givenUp = true) :
    EndCause h := by
  refine issued_induction (P := fun h => (stdioLog h).givenUp = true → EndCause h) ?_ ?_ h hi hgiven
  · intro hno
    cases hno
  · intro h e _ hp ih hgiven
    by_cases halive : e.op = .storeAlive
    · rw [halive] at hp
      rcases hp with hcause | ⟨hread, _⟩
      · exact EndCause.snoc hcause e
      · cases hread
    · rw [givenUp_snoc h halive] at hgiven
      exact (ih hgiven).snoc e

omit [McpCodec] in
theorem givenUp_append {before : List McpEvent} (after : List McpEvent)
    (hgiven : (stdioLog before).givenUp = true) : (stdioLog (before ++ after)).givenUp = true := by
  induction after using List.reverseRecOn with
  | nil => rwa [List.append_nil]
  | append_singleton after e ih =>
      rw [← List.append_assoc]
      by_cases halive : e.op = .storeAlive
      · rw [stdioLog_snoc]
        obtain ⟨o, a⟩ := e
        cases halive
        rfl
      · rwa [givenUp_snoc _ halive]

omit [McpCodec] in
/-- The final sweep begins once the connection is given up. -/
theorem givenUp_of_begun (hi : Issued ReadPlace h) (hbegun : SweepBegun h) :
    (stdioLog h).givenUp = true := by
  obtain ⟨calls, hin⟩ := hbegun
  obtain ⟨before, after, rfl⟩ := List.append_of_mem hin
  refine givenUp_append _ ?_
  rcases Along.at hi with hplace | ⟨hread, _⟩
  · exact hplace
  · cases hread

/-! ## 4. The final sweep -/

/-- Once the final sweep has found the active calls, each of them is cancelled or still to come;
    a flag that the section has set is set. -/
structure Sweeping (s : McpShared) (h : List McpEvent) : Prop where
  marked : SweepBegun h → ∀ entry ∈ s.active, s.cancelled entry.2.cancelled = true ∨
    ∃ call ∈ (sweepNow h).calls, call.cancelled = entry.2.cancelled
  front : (sweepNow h).flagged = true → ∀ call rest, (sweepNow h).calls = call :: rest →
    s.cancelled call.cancelled = true

variable {s : McpShared}

omit [McpCodec] in
/-- Only an insertion brings a call into the map. -/
theorem active_after (t : Nat) {o : McpOp} (ho : ∀ key call, o ≠ .insertActive key call) :
    ∀ entry ∈ (s.after t o).active, ∃ old ∈ s.active, old.2.cancelled = entry.2.cancelled := by
  intro entry hin
  cases o with
  | insertActive key call => exact absurd rfl (ho key call)
  | setObserver key call =>
      obtain ⟨old, hold, rfl⟩ := List.mem_map.mp hin
      refine ⟨old, hold, ?_⟩
      by_cases hkey : (old.1 == key) = true
      · rw [if_pos hkey]
      · rw [if_neg hkey]
  | removeActive key => exact ⟨entry, List.mem_of_mem_filter hin, rfl⟩
  | _ => exact ⟨entry, hin, rfl⟩

omit [McpCodec] in
theorem Sweeping.worker {t : Nat} {o : McpOp} (hc : Sweeping s h)
    (ho : ∀ key call, o ≠ .insertActive key call) : Sweeping (s.after t o) h := by
  refine ⟨fun hbegun entry hin => ?_, fun hflagged call rest hcalls => ?_⟩
  · obtain ⟨old, hold, hsame⟩ := active_after t ho entry hin
    rw [← hsame]
    exact (hc.marked hbegun old hold).imp_left (cancelled_after t o)
  · exact cancelled_after t o (hc.front hflagged call rest hcalls)

omit [McpCodec] in
/-- Only finding the active calls begins the sweep. -/
theorem SweepBegun.before {e : McpEvent} (hno : ∀ calls, e ≠ ⟨.activeCalls, calls⟩)
    (hbegun : SweepBegun (h ++ [e])) : SweepBegun h := by
  obtain ⟨calls, hin⟩ := hbegun
  rcases List.mem_append.mp hin with hold | hnew
  · exact ⟨calls, hold⟩
  · exact absurd (List.mem_singleton.mp hnew).symm (hno calls)

omit [McpCodec] in
/-- Where the section has nothing left, every active call is cancelled. -/
theorem Sweeping.all (hc : Sweeping s h) (hbegun : SweepBegun h)
    (hidle : (sweepNow h).calls = []) : ∀ entry ∈ s.active, s.cancelled entry.2.cancelled = true := by
  intro entry hin
  rcases hc.marked hbegun entry hin with hset | ⟨call, hcall, _⟩
  · exact hset
  · rw [hidle] at hcall
    cases hcall

/-- A flag of the section is set. -/
theorem Sweeping.store {n : Nat} (hc : Sweeping s h) (hp : StdioPlace h (.storeCancelled n)) :
    Sweeping (s.after 0 (.storeCancelled n)) (h ++ [⟨.storeCancelled n, ()⟩]) := by
  obtain ⟨_, _, _, _, _, call, rest, hcalls, hn⟩ := hp
  have hset : (s.after 0 (.storeCancelled n)).cancelled call.cancelled = true := by
    rw [hn]
    exact Function.update_self ..
  have hsweep : sweepNow (h ++ [⟨.storeCancelled n, ()⟩]) = (sweepNow h).stored := sweepNow_snoc h _
  have hstored : (sweepNow h).stored = { sweepNow h with flagged := true } ∨
      (sweepNow h).stored = ⟨(sweepNow h).key, rest, false⟩ := by
    unfold Sweep.stored
    rw [hcalls]
    dsimp only
    by_cases hobserver : call.observer.isSome = true
    · rw [if_pos hobserver, ← hcalls]
      exact Or.inl rfl
    · rw [if_neg hobserver]
      exact Or.inr rfl
  refine ⟨fun hbegun entry hin => ?_, fun hflagged call' rest' hcalls' => ?_⟩
  · have hbefore := hbegun.before fun _ he => by cases he
    rcases hc.marked hbefore entry hin with hold | ⟨found, hfound, hsame⟩
    · exact Or.inl (cancelled_after 0 _ hold)
    · rw [hcalls] at hfound
      rcases List.mem_cons.mp hfound with rfl | hrest
      · left
        rw [← hsame]
        exact hset
      · right
        refine ⟨found, ?_, hsame⟩
        rw [hsweep]
        rcases hstored with hsame | hnext
        · rw [hsame, hcalls]
          exact List.mem_cons_of_mem _ hrest
        · rw [hnext]
          exact hrest
  · rw [hsweep] at hflagged hcalls'
    rcases hstored with hsame | hnext
    · rw [hsame, hcalls] at hcalls'
      rw [← (List.cons.inj hcalls').1]
      exact hset
    · rw [hnext] at hflagged
      cases hflagged

/-- A socket of the section is shut down. -/
theorem Sweeping.close {n : Nat} (hc : Sweeping s h) (hp : StdioPlace h (.shutdown n)) :
    Sweeping (s.after 0 (.shutdown n)) (h ++ [⟨.shutdown n, ()⟩]) := by
  obtain ⟨_, _, _, _, hflagged, call, rest, hcalls, _⟩ := hp
  have hsweep : sweepNow (h ++ [⟨.shutdown n, ()⟩]) = (sweepNow h).closed := sweepNow_snoc h _
  refine ⟨fun hbegun entry hin => ?_, fun hnew => ?_⟩
  · have hbefore := hbegun.before fun _ he => by cases he
    rcases hc.marked hbefore entry hin with hold | ⟨found, hfound, hsame⟩
    · exact Or.inl hold
    · rw [hcalls] at hfound
      rcases List.mem_cons.mp hfound with rfl | hrest
      · left
        rw [← hsame]
        exact hc.front hflagged found rest hcalls
      · right
        refine ⟨found, ?_, hsame⟩
        rw [hsweep, Sweep.closed, hcalls]
        exact hrest
  · rw [hsweep] at hnew
    cases hnew

/-- An operation of the loop keeps the sweep. -/
theorem Sweeping.stdio {e : McpEvent} (hi : Issued StdioPlace h) (hr : Issued ReadPlace h)
    (hp : StdioPlace h e.op) (hread : ReadPlace h e.op) (hanswer : s.answers e)
    (hc : Sweeping s h) : Sweeping (s.after 0 e.op) (h ++ [e]) := by
  have hsweep := sweepNow_snoc h e
  -- the events before the sweep, and in it, that find no calls and set no flag
  have hidle : (∀ calls, e ≠ ⟨.activeCalls, calls⟩) → (sweepNow h).calls = [] →
      (∀ key call, e.op ≠ .insertActive key call) → (sweepNow (h ++ [e])).flagged = false →
      Sweeping (s.after 0 e.op) (h ++ [e]) := by
    intro hno hcalls hins hflagged
    refine ⟨fun hbegun entry hin => ?_, fun hnew => ?_⟩
    · obtain ⟨old, hold, hsame⟩ := active_after 0 hins entry hin
      have hset := hc.all (hbegun.before hno) hcalls old hold
      rw [← hsame]
      exact Or.inl (cancelled_after 0 _ hset)
    · rw [hflagged] at hnew
      cases hnew
  have hsame : (∀ calls, e ≠ ⟨.activeCalls, calls⟩) →
      (∀ key call, e.op ≠ .insertActive key call) → sweepNow (h ++ [e]) = sweepNow h →
      Sweeping (s.after 0 e.op) (h ++ [e]) := by
    intro hno hins hsame
    have hworker := hc.worker (t := 0) hins
    refine ⟨fun hbegun => ?_, ?_⟩
    · rw [hsame]
      exact hworker.marked (hbegun.before hno)
    · rw [hsame]
      exact hworker.front
  obtain ⟨o, a⟩ := e
  cases o with
  | activeCalls =>
      refine ⟨fun _ entry hin => Or.inr ⟨entry.2, ?_, rfl⟩, fun hnew => ?_⟩
      · rw [hsweep]
        have hperm : a.Perm (s.active.map (·.2)) := hanswer
        exact hperm.mem_iff.mpr (List.mem_map_of_mem hin)
      · rw [hsweep] at hnew
        cases hnew
  | getActive key =>
      exact hidle (fun _ he => by cases he) hp.2.2 (fun _ _ he => by cases he) (by rw [hsweep]; rfl)
  | lockActive =>
      have hcalls := unlocked_idle hi (hp.1.1 rfl)
      exact hidle (fun _ he => by cases he) hcalls (fun _ _ he => by cases he) (by rw [hsweep]; rfl)
  | insertActive key call =>
      have hgoing : (stdioLog h).givenUp = false := hread.resolve_right fun h => by cases h.1
      refine ⟨fun hbegun => ?_, fun hnew => ?_⟩
      · have hgiven := givenUp_of_begun hr (hbegun.before fun _ he => by cases he)
        rw [hgoing] at hgiven
        cases hgiven
      · rw [hsweep] at hnew
        cases hnew
  | setObserver key call => cases hp.2.1
  | removeActive key => cases hp.2.1
  | storeCancelled n => exact hc.store hp
  | shutdown n => exact hc.close hp
  | _ => exact hsame (fun _ he => by cases he) (fun _ _ he => by cases he) hsweep

variable {c : McpPool}

/-- What the loop has left, and where its operations stood. -/
theorem stdio_awaits (hr : Reach mcpSystem McpPool.initial c) {th : McpThreadState}
    (ht : c.threads 0 = some th) : Awaits th.rest th.hist ∧ Issued ReadPlace th.hist := by
  have htrace := hr.trace 0 th ht
  rw [stdio_started hr ht] at htrace
  have hstart : Awaits runStdio [] := Or.inr ⟨fun _ hin => (by cases hin), rfl⟩
  exact trace_awaits htrace hstart

theorem sweeping (hr : Reach mcpSystem McpPool.initial c) : Sweeping c.shared (c.hist 0) := by
  refine Reach.logged
    (D := fun s t h => Watched s t h ∧ (t = 0 → Issued ReadPlace h))
    (P := fun s H => Sweeping s (H 0)) ?_ ?_ ?_ ?_ ?_ hr
  · intro c hr t
    refine ⟨watched hr t, ?_⟩
    rintro rfl
    cases ht : c.threads 0 with
    | none =>
        rw [Pool.hist, ht]
        trivial
    | some th =>
        rw [Pool.hist_of ht]
        exact (stdio_awaits hr ht).2
  · refine ⟨?_, fun hflagged => (by cases hflagged)⟩
    rintro ⟨_, hin⟩
    cases hin
  · intro s H t e s' hd hnow hs hc
    obtain ⟨hanswer, rfl⟩ := hs
    cases t with
    | zero =>
        rw [Function.update_self]
        have hp : StdioPlace (H 0) e.op := hnow.1.1.1.at
        have hread : ReadPlace (H 0) e.op := (hnow.2 rfl).at
        exact hc.stdio (hd 0).1.1.1 ((hd 0).2 rfl) hp hread hanswer
    | succ n =>
        rw [Function.update_of_ne (by omega)]
        obtain ⟨request, _, _, hp⟩ := WorkerHist.last hnow.1.1
        refine hc.worker fun key call he => ?_
        rw [he] at hp
        exact hp.2.1.elim
  · intro s t p s' H hs hc
    rw [hs.1]
    exact hc
  · intro s s' H hs _
    exact hs.elim

/-! ## 5. The loop parses the lines of stdin -/

/-- The loop over the lines of stdin, in any reachable pool. -/
structure LinesParsed (stdin : Stdin) (c : McpPool) (th : McpThreadState) : Prop where
  /-- Where the loop reads, it ends, or parses the whole text that the read is taken as, and answers
      that this is no message, or dispatches the one message that it is; -/
  turns : ∀ k, th.rest = .ask .readLine k → ∃ adapter workers, ∀ read, k read =
    match taken read with
    | none => stopLines workers read
    | some line =>
        match McpCodec.fromStr line with
        | none => answerLine workers (rpcError .null (-32700) "Parse error") (.lines adapter workers)
        | some message => dispatchInput adapter workers message
  /-- the texts parsed are lines of the stream, from its first one on, as they stand; -/
  lines : (parsed th.hist).map textBytes <+: accepted stdin
  /-- after a read that is not parsed there is no other; -/
  last : ∀ before read after, reads th.hist = before ++ read :: after →
    taken read = none → after = []
  /-- and where the loop has ended without a failed write, every accepted line was parsed. -/
  ended : (stdioLog th.hist).givenUp = true →
    (∀ value error, (⟨.writeJson value, .error error⟩ : McpEvent) ∉ th.hist) →
    (parsed th.hist).map textBytes = accepted stdin
  /-- Once the final sweep is over, every call still active is cancelled; -/
  cancelled : SweepOver th.hist → ∀ entry ∈ c.shared.active,
    c.shared.cancelled entry.2.cancelled = true
  /-- and it is over before the first worker is joined at the end, and when the loop returns. -/
  swept : (∃ workers, th.rest = .ret (.inl (.joins workers))) ∨ th.rest = .ret (.inr ()) →
    SweepOver th.hist

theorem lines_parsed (hr : Reach mcpSystem McpPool.initial c) {th : McpThreadState}
    (ht : c.threads 0 = some th) (stdin : Stdin) (hserved : Served stdin th.hist) :
    LinesParsed stdin c th := by
  obtain ⟨hawaits, hissued⟩ := stdio_awaits hr ht
  have hlast : ∀ before read after, reads th.hist = before ++ read :: after → taken read = none →
      after = [] := fun before read after he hnone => rejected_last hissued he hnone
  have hparsed := serve_parsed (reads th.hist).length stdin
  rw [← hserved] at hparsed
  obtain ⟨hbegin, hall⟩ := hparsed hlast
  constructor
  · intro k hrest
    rcases hawaits with ⟨adapter, workers, hround, _⟩ | hkept
    · rw [linesRound_eq, hrest] at hround
      cases hround
      refine ⟨adapter, workers, fun read => ?_⟩
      unfold afterRead
      cases taken read with
      | none => rfl
      | some line => cases hparse : McpCodec.fromStr line <;> simp only [dispatchLine, hparse]
    · rw [hrest] at hkept
      exact hkept.1.elim
  · exact hbegin
  · exact hlast
  · intro hgiven hwrites
    refine hall ?_
    rcases endCause_of_givenUp hissued hgiven with hrejected | ⟨value, error, hin⟩
    · exact hrejected
    · exact absurd hin (hwrites value error)
  · intro hover
    have hsweeping := sweeping hr
    rw [Pool.hist_of ht] at hsweeping
    exact hsweeping.all hover.1 (unlocked_idle (stdio_places hr ht).1 hover.2)
  · intro hrest
    rcases hawaits with ⟨adapter, workers, hround, _⟩ | hkept
    · rw [linesRound_eq] at hround
      rcases hrest with ⟨workers, hrest⟩ | hrest
      · rw [hrest] at hround
        cases hround
      · rw [hrest] at hround
        cases hround
    · rcases hrest with ⟨workers, hrest⟩ | hrest
      · rw [hrest] at hkept
        exact hkept
      · rw [hrest] at hkept
        exact hkept

end Loop

/-! ## 6. A run to the end of the input, with a call that is still active -/

def callLines : List String := callMessages.map fun message => message.text ++ "\n"

def closedPool : McpPool :=
  @McpScript.turn callCodec { messagesScript callMessages [] with lines := callLines ++ [""] } 80 0
    McpPool.initial.stdio

theorem closedPool_reach : Reach (@mcpSystem callCodec) McpPool.initial closedPool := by
  refine @McpScript.turn_reach callCodec _ 80 0 _ _ (@McpPool.stdio_reach callCodec) ?_
  intro th ht
  cases ht
  rfl

/-- The handshake and the call, in one piece. -/
def callStdin : Stdin := ⟨[⟨callLines.flatMap textBytes, by decide +kernel⟩], none⟩

theorem lines_parsed_call : ∃ th, closedPool.threads 0 = some th ∧
    @LinesParsed callCodec callStdin closedPool th ∧ parsed th.hist = callLines ∧
    closedPool.shared.active.map (·.1) = ["2"] ∧ closedPool.shared.cancelled 0 = true := by
  have hrun : (closedPool.threads 0).isSome = true ∧
      reads (closedPool.hist 0) = (callLines ++ [""]).map .ok ∧
      closedPool.shared.active.map (·.1) = ["2"] ∧ closedPool.shared.cancelled 0 = true := by
    decide +kernel
  obtain ⟨hsome, hreads, hactive⟩ := hrun
  obtain ⟨th, ht⟩ := Option.isSome_iff_exists.mp hsome
  rw [Pool.hist_of ht] at hreads
  have hshort : callLines.all (fun text => decide (text.utf8ByteSize ≤ maxLine)) = true := by
    decide +kernel
  have hlines : callStdin.lines newline = callLines.map textBytes := by
    decide +kernel
  have hserve : serve 4 callStdin = (callLines ++ [""]).map .ok :=
    serve_texts callLines callStdin hlines rfl fun text hin =>
      of_decide_eq_true (List.all_eq_true.mp hshort text hin)
  have hserved : Served callStdin th.hist := by
    rw [Served, hreads]
    exact hserve.symm
  have hparsed : parsed th.hist = callLines := by
    rw [parsed, hreads]
    decide +kernel
  exact ⟨th, ht, @lines_parsed callCodec _ closedPool_reach _ ht callStdin hserved, hparsed, hactive⟩

end MessageNexus
