/-
  File:      MessageNexus/Mcp/Stdout.lean
  Subject:   STDOUT, PIECE BY PIECE. `write_json` is one operation in `Mcp/System.lean`; here it is
             what the source does: the mutex of stdout, the text of the value in as many writes as
             its formatting makes, the newline, the flush, and the release.

  * `writeJson`, `stdioSystem` -- the adapter whose threads interleave between these;
  * `stdioExpansion` -- it shows the adapter of `Mcp/System.lean`;
  * `stdoutMutex`, `stdout_places` -- its mutex, whose discipline every thread keeps;
  * `Inside`, `Wrote`, `writeJson_holds` -- what a section of a write put on stdout, so far and at
    its end;
  * `thread_cuts` -- the sections of a thread are those of its writes.
-/
import MessageNexus.Lib.Expand
import MessageNexus.Lib.Hide
import MessageNexus.Lib.Serial
import MessageNexus.Mcp.Input
import MessageNexus.Wire.Stream

namespace MessageNexus

open Interact SignalFlow SignalMessage Json Text Framing

/-! ## 1. The writer -/

/-- `Display` of a JSON value: the pieces in which it hands its text to a formatter. -/
class DisplaysJson where
  pieces : Value → List (List UInt8)
  whole : ∀ value, (pieces value).flatten = textBytes value.text

/-- The line of a value. -/
def lineBytes (value : Value) : List UInt8 := textBytes value.text ++ [newline]

/-- The operations on stdout; `lock` and `unlock` are those of its mutex. -/
inductive StdoutOp where
  | lock
  | writeAll (piece : List UInt8)
  | flush
  | unlock

/-- A write may fail after it took some bytes. -/
@[reducible] def StdoutAns : StdoutOp → Type
  | .lock => Unit
  | .writeAll _ => Option (Nat × IoError)
  | .flush => Except IoError Unit
  | .unlock => Unit

abbrev StdioOp := McpOp ⊕ StdoutOp
abbrev StdioAns := SumAns McpAns StdoutAns
abbrev StdioProg := Prog StdioOp StdioAns
abbrev StdioEvent := Event StdioOp StdioAns

/-- One operation on stdout. -/
abbrev out (o : StdoutOp) : StdioProg (StdoutAns o) := .ask (.inr o) .ret

/-- `write_fmt`: the pieces, up to the first failure. -/
def writePieces : List (List UInt8) → StdioProg (Except IoError Unit)
  | [] => return .ok ()
  | piece :: pieces => do
    match ← out (.writeAll piece) with
    | some (_, error) => return .error error
    | none => writePieces pieces

section Writer

variable [DisplaysJson]

/-- `WritesJsonLines::write_json`; the guard goes with the return. -/
def writeJson (value : Value) : StdioProg (Except IoError Unit) := do
  let _ ← out .lock
  match ← writePieces (DisplaysJson.pieces value ++ [[newline]]) with
  | .error error =>
    let _ ← out .unlock
    return .error error
  | .ok () =>
    let flushed ← out .flush
    let _ ← out .unlock
    return flushed

/-- What each operation of the adapter is. -/
def stdioStep : (o : McpOp) → StdioProg (McpAns o)
  | .writeJson value => writeJson value
  | o => .ask (.inl o) .ret

/-- Every operation but a write is one operation here too. -/
theorem stdioStep_other {o : McpOp} (ho : ∀ value, o ≠ .writeJson value) :
    stdioStep o = .ask (.inl o) .ret := by
  cases o with
  | writeJson value => exact absurd rfl (ho value)
  | _ => rfl

end Writer

/-! ## 2. The system -/

/-- The adapter, the holder of stdout's mutex, and what stdout took. -/
structure StdioShared where
  base : McpShared
  holder : Option Nat
  written : List UInt8

def StdioShared.initial : StdioShared := ⟨.initial, none, []⟩

/-- What stdout takes with an event. -/
def tookOf : StdioEvent → List UInt8
  | ⟨.inr (.writeAll piece), fault⟩ => (writeAll fault piece).2
  | _ => []

/-- One operation of thread `t`. -/
def stdioSem (s : StdioShared) (t : Nat) : StdioEvent → StdioShared → Prop
  | ⟨.inl o, a⟩, s' => mcpSem s.base t ⟨o, a⟩ s'.base ∧ s' = { s with base := s'.base }
  | ⟨.inr .lock, _⟩, s' => s.holder = none ∧ s' = { s with holder := some t }
  | ⟨.inr .unlock, _⟩, s' => s' = { s with holder := none }
  | ⟨.inr (.writeAll piece), fault⟩, s' =>
      s' = { s with written := s.written ++ (writeAll fault piece).2 }
  | ⟨.inr .flush, _⟩, s' => s' = s

/-- The adapter, with its writes piece by piece. -/
def stdioSystem [McpCodec] [DisplaysJson] : System StdioOp StdioAns McpLoop Unit StdioShared where
  body := fun l => (mcpRound l).expand stdioStep
  sem := stdioSem
  start := fun s t p' s' => ∃ p, p' = p.expand stdioStep ∧ mcpStart s.base t p s'.base ∧
    s' = { s with base := s'.base }
  halt := fun _ _ => False

abbrev StdioPool := Pool StdioOp StdioAns McpLoop Unit StdioShared

/-- Before the first step. -/
def StdioPool.initial : StdioPool := .idle .initial

/-- The pieces are written, and nothing else is done. -/
theorem writePieces_uses {P : StdioOp → Prop} (pieces : List (List UInt8))
    (hP : ∀ piece, P (.inr (.writeAll piece))) : Uses P (writePieces pieces) := by
  induction pieces with
  | nil => trivial
  | cons piece pieces ih =>
      refine ⟨hP piece, fun fault => ?_⟩
      cases fault with
      | none => exact ih
      | some fault => trivial

/-- A write is on stdout alone. -/
theorem writeJson_uses [DisplaysJson] (value : Value) :
    Uses (fun o : StdioOp => ∃ i, o = .inr i) (writeJson value) := by
  refine ⟨⟨_, rfl⟩, fun _ => (writePieces_uses _ fun _ => ⟨_, rfl⟩).bind fun result => ?_⟩
  cases result with
  | error error => exact ⟨⟨_, rfl⟩, fun _ => trivial⟩
  | ok => exact ⟨⟨_, rfl⟩, fun flushed => ⟨⟨_, rfl⟩, fun _ => trivial⟩⟩

/-- An operation on stdout leaves the adapter as it is. -/
theorem stdout_base {s s' : StdioShared} {t : Nat} {i : StdoutOp} {a : StdoutAns i}
    (hs : stdioSem s t ⟨.inr i, a⟩ s') : s'.base = s.base := by
  cases i with
  | lock => rw [hs.2]
  | writeAll piece => rw [show s' = _ from hs]
  | flush => rw [show s' = _ from hs]
  | unlock => rw [show s' = _ from hs]

/-- The adapter whose writes are one operation, as it is seen in the one whose writes are not: a
    write is seen at its release. -/
def stdioExpansion [McpCodec] [DisplaysJson] : Expansion stdioSystem mcpSystem where
  expand := stdioStep
  base := StdioShared.base
  begins o a := by
    by_cases ho : ∃ value, o = .writeJson value
    · obtain ⟨value, rfl⟩ := ho
      intro h
      cases h
    · rw [stdioStep_other fun value he => ho ⟨value, he⟩]
      intro h
      cases h
  body _ := rfl
  inner o part i k a i' k' hruns hk s t s' hsem := by
    by_cases ho : ∃ value, o = .writeJson value
    · obtain ⟨value, rfl⟩ := ho
      obtain ⟨⟨j, rfl⟩, _⟩ := (hruns.uses (writeJson_uses value)).1
      exact stdout_base hsem
    · rw [stdioStep_other fun value he => ho ⟨value, he⟩] at hruns
      cases hruns with
      | here => cases hk
      | ask b hrest => cases hrest
  last o part i k a r hruns hk s t s' hsem := by
    by_cases ho : ∃ value, o = .writeJson value
    · obtain ⟨value, rfl⟩ := ho
      obtain ⟨⟨j, rfl⟩, _⟩ := (hruns.uses (writeJson_uses value)).1
      exact ⟨trivial, stdout_base hsem⟩
    · rw [stdioStep_other fun value he => ho ⟨value, he⟩] at hruns
      cases hruns with
      | here =>
          cases hk
          exact hsem.1
      | ask b hrest => cases hrest
  start s t p' s' hs := by
    obtain ⟨p, hp, hstart, _⟩ := hs
    exact ⟨p, hp, hstart⟩
  halt _ _ h := h

/-! ## 3. The mutex of stdout -/

def StdioOp.locks : StdioOp → Bool
  | .inr .lock => true
  | _ => false

def StdioOp.unlocks : StdioOp → Bool
  | .inr .unlock => true
  | _ => false

/-- What is done inside a section. -/
def StdioOp.inside : StdioOp → Bool
  | .inr (.writeAll _) => true
  | .inr .flush => true
  | _ => false

/-- What is done inside a section neither opens nor closes one. -/
theorem inside_other {o : StdioOp} (h : StdioOp.inside o = true) :
    StdioOp.locks o = false ∧ StdioOp.unlocks o = false := by
  match o with
  | .inl o => cases h
  | .inr .lock => cases h
  | .inr (.writeAll _) => exact ⟨rfl, rfl⟩
  | .inr .flush => exact ⟨rfl, rfl⟩
  | .inr .unlock => cases h

/-- Every event tells what it adds to stdout. -/
theorem written_after {s s' : StdioShared} {t : Nat} {e : StdioEvent} (hs : stdioSem s t e s') :
    s'.written = s.written ++ tookOf e := by
  obtain ⟨o, a⟩ := e
  match o with
  | .inl o =>
      rw [hs.2]
      exact (List.append_nil _).symm
  | .inr .lock =>
      rw [hs.2]
      exact (List.append_nil _).symm
  | .inr (.writeAll _) => rw [show s' = _ from hs]; rfl
  | .inr .flush => rw [show s' = _ from hs]; exact (List.append_nil _).symm
  | .inr .unlock => rw [show s' = _ from hs]; exact (List.append_nil _).symm

/-- Only what is done inside a section adds something. -/
theorem tookOf_outside {e : StdioEvent} (h : ¬ StdioOp.inside e.op = true) : tookOf e = [] := by
  obtain ⟨o, a⟩ := e
  match o with
  | .inl o => rfl
  | .inr .lock => rfl
  | .inr (.writeAll _) => exact absurd rfl h
  | .inr .flush => rfl
  | .inr .unlock => rfl

section System

variable [McpCodec] [DisplaysJson]

def stdoutMutex : Mutex stdioSystem where
  acquires := StdioOp.locks
  releases := StdioOp.unlocks
  guarded := fun o => StdioOp.inside o = true
  holder := StdioShared.holder
  apart := fun o ho => by
    match o with
    | .inl o => cases ho
    | .inr .lock => rfl
    | .inr (.writeAll _) => cases ho
    | .inr .flush => cases ho
    | .inr .unlock => cases ho
  sem_acquire := fun s t e s' ha hs => by
    obtain ⟨o, a⟩ := e
    match o with
    | .inl o => cases ha
    | .inr .lock => exact ⟨hs.1, by rw [hs.2]⟩
    | .inr (.writeAll _) => cases ha
    | .inr .flush => cases ha
    | .inr .unlock => cases ha
  sem_release := fun s t e s' hr hs => by
    obtain ⟨o, a⟩ := e
    match o with
    | .inl o => cases hr
    | .inr .lock => cases hr
    | .inr (.writeAll _) => cases hr
    | .inr .flush => cases hr
    | .inr .unlock => rw [show s' = _ from hs]
  sem_other := fun s t e s' ha hr hs => by
    obtain ⟨o, a⟩ := e
    match o with
    | .inl o => rw [hs.2]
    | .inr .lock => cases ha
    | .inr (.writeAll _) => rw [show s' = _ from hs]
    | .inr .flush => rw [show s' = _ from hs]
    | .inr .unlock => cases hr
  start_keeps := fun s t p s' hs => by
    obtain ⟨_, _, _, hs'⟩ := hs
    rw [hs']
  halt_frees := fun _ _ h => h.elim

end System

/-! ## 4. A section -/

/-- What the events of a section put on stdout. -/
def tookAll (es : List StdioEvent) : List UInt8 := es.flatMap tookOf

@[simp] theorem tookAll_append (es fs : List StdioEvent) :
    tookAll (es ++ fs) = tookAll es ++ tookAll fs := by
  simp [tookAll]

/-- The open section of a write: it has put the beginning of the line there. -/
structure Inside (value : Value) (es : List StdioEvent) : Prop where
  locked : ∃ mid, es = ⟨.inr .lock, ()⟩ :: mid ∧ ∀ e ∈ mid, StdioOp.inside e.op = true
  part : tookAll es <+: lineBytes value

/-- The section of a write that is over, with its result. -/
structure Wrote (value : Value) (result : Except IoError Unit) (es : List StdioEvent) : Prop where
  closed : ∃ before, es = before ++ [⟨.inr .unlock, ()⟩] ∧ Inside value before
  part : tookAll es <+: lineBytes value
  whole : result = .ok () → tookAll es = lineBytes value

/-- The section goes on with a write, or the flush. -/
theorem Inside.snoc {value : Value} {es : List StdioEvent} (h : Inside value es) (e : StdioEvent)
    (he : StdioOp.inside e.op = true) (hpart : tookAll (es ++ [e]) <+: lineBytes value) :
    Inside value (es ++ [e]) := by
  obtain ⟨mid, rfl, hmid⟩ := h.locked
  refine ⟨⟨mid ++ [e], rfl, fun e' hin => ?_⟩, hpart⟩
  rcases List.mem_append.mp hin with hin | hin
  · exact hmid e' hin
  · rw [List.mem_singleton.mp hin]
    exact he

/-- Where a write stands: before its section, or in it. -/
def WritePlace (value : Value) (es : List StdioEvent) (o : StdioOp) : Prop :=
  (es = [] ∧ o = .inr .lock) ∨ Inside value es

/-- The pieces go out one after another, up to a failure. -/
theorem writePieces_holds {value : Value} (pieces : List (List UInt8)) {es : List StdioEvent}
    (h : Inside value es) (hline : tookAll es ++ pieces.flatten = lineBytes value) :
    Holds anyAnswer (WritePlace value)
      (fun result es' => Inside value es' ∧ (result = .ok () → tookAll es' = lineBytes value))
      (writePieces pieces) es := by
  induction pieces generalizing es with
  | nil =>
      refine ⟨h, fun _ => ?_⟩
      rw [← hline, List.flatten_nil, List.append_nil]
  | cons piece pieces ih =>
      refine ⟨Or.inr h, fun fault _ => ?_⟩
      rw [List.flatten_cons, ← List.append_assoc] at hline
      have htook : tookAll (es ++ [⟨.inr (.writeAll piece), fault⟩]) =
          tookAll es ++ (writeAll fault piece).2 := by
        simp [tookAll, tookOf]
      cases fault with
      | none =>
          have hmore : tookAll (es ++ [⟨.inr (.writeAll piece), none⟩]) ++ pieces.flatten =
              lineBytes value := by
            rw [htook]
            exact hline
          exact ih (h.snoc _ rfl ⟨_, hmore⟩) hmore
      | some fault =>
          obtain ⟨taken, error⟩ := fault
          refine ⟨h.snoc _ rfl ?_, fun hok => (by cases hok)⟩
          rw [htook, ← hline, List.append_assoc]
          exact (List.prefix_append_right_inj _).mpr
            ((piece.take_prefix taken).trans (List.prefix_append _ _))

/-- A write is a section: what it has put on stdout so far, and at its end. -/
theorem writeJson_holds [DisplaysJson] (value : Value) :
    Holds anyAnswer (WritePlace value) (Wrote value) (writeJson value) [] := by
  have hline : (DisplaysJson.pieces value ++ [[newline]]).flatten = lineBytes value := by
    rw [List.flatten_append, DisplaysJson.whole]
    simp [lineBytes]
  have hopen : Inside value [⟨.inr .lock, ()⟩] :=
    ⟨⟨[], rfl, fun e he => (by cases he)⟩, List.nil_prefix⟩
  have hclose : ∀ {es : List StdioEvent} {result : Except IoError Unit}, Inside value es →
      (result = .ok () → tookAll es = lineBytes value) →
      Wrote value result (es ++ [⟨.inr .unlock, ()⟩]) := by
    intro es result hin hwhole
    have hsame : tookAll (es ++ [⟨.inr .unlock, ()⟩]) = tookAll es := by simp [tookAll, tookOf]
    exact ⟨⟨es, rfl, hin⟩, hsame ▸ hin.part, fun hok => hsame ▸ hwhole hok⟩
  refine ⟨Or.inl ⟨rfl, rfl⟩, fun _ _ => ?_⟩
  refine (holds_bind (writePieces _) _ _).mpr ?_
  refine (writePieces_holds _ hopen (by simpa [tookAll, tookOf] using hline)).mono
    (fun _ _ hG => hG) fun result es hes => ?_
  obtain ⟨hin, hwhole⟩ := hes
  cases result with
  | error error => exact ⟨Or.inr hin, fun _ _ => hclose hin fun hok => (by cases hok)⟩
  | ok =>
      refine ⟨Or.inr hin, fun flushed _ => ?_⟩
      have hsame : tookAll (es ++ [⟨.inr .flush, flushed⟩]) = tookAll es := by
        simp [tookAll, tookOf]
      have hflushed := hin.snoc ⟨.inr .flush, flushed⟩ rfl (hsame ▸ hin.part)
      exact ⟨Or.inr hflushed, fun _ _ => hclose hflushed fun _ => hsame ▸ hwhole rfl⟩

/-! ## 5. The sections of a thread -/

/-- A write of the adapter, and its result. -/
def wroteJson? : McpEvent → Option (Value × Except IoError Unit)
  | ⟨.writeJson value, result⟩ => some (value, result)
  | _ => none

section Threads

variable [McpCodec] [DisplaysJson]

/-- Every operation of the adapter begins and ends outside a section. -/
theorem stdioStep_places (o : McpOp) (h : List StdioEvent) (hout : stdoutMutex.held h = false) :
    Holds anyAnswer stdoutMutex.Place (fun _ h' => stdoutMutex.held h' = false) (stdioStep o) h := by
  by_cases ho : ∃ value, o = .writeJson value
  · obtain ⟨value, rfl⟩ := ho
    have hin : ∀ h' : List StdioEvent, ∀ e : StdioEvent, stdoutMutex.held h' = true →
        StdioOp.inside e.op = true → stdoutMutex.held (h' ++ [e]) = true := by
      intro h' e hheld he
      obtain ⟨ha, hr⟩ := inside_other he
      rw [stdoutMutex.held_snoc]
      exact (stdoutMutex.after_other _ ha hr).trans hheld
    have hplace : ∀ h' : List StdioEvent, ∀ o : StdioOp, stdoutMutex.held h' = true →
        StdioOp.inside o = true → stdoutMutex.Place h' o := by
      intro h' o hheld ho
      obtain ⟨ha, hr⟩ := inside_other ho
      exact ⟨fun h => absurd (ha.symm.trans h) Bool.false_ne_true,
        fun h => absurd (hr.symm.trans h) Bool.false_ne_true, fun _ => hheld⟩
    have hend : ∀ h' : List StdioEvent, stdoutMutex.held h' = true →
        stdoutMutex.Place h' (.inr .unlock) ∧
        stdoutMutex.held (h' ++ [(⟨.inr .unlock, ()⟩ : StdioEvent)]) = false := by
      intro h' hheld
      refine ⟨⟨fun h => (by cases h), fun _ => hheld, fun h => (by cases h)⟩, ?_⟩
      rw [stdoutMutex.held_snoc]
      exact stdoutMutex.after_release _ rfl
    have hlocked : stdoutMutex.held (h ++ [(⟨.inr .lock, ()⟩ : StdioEvent)]) = true := by
      rw [stdoutMutex.held_snoc]
      exact stdoutMutex.after_acquire _ rfl
    refine ⟨⟨fun _ => hout, fun h => (by cases h), fun h => (by cases h)⟩, fun _ _ => ?_⟩
    refine (holds_bind (writePieces _) _ _).mpr ?_
    refine ((writePieces_uses _ fun _ => rfl).holds hin hplace hlocked).mono (fun _ _ hG => hG) ?_
    intro result h' hheld
    cases result with
    | error error => exact ⟨(hend h' hheld).1, fun _ _ => (hend h' hheld).2⟩
    | ok =>
        refine ⟨hplace h' _ hheld rfl, fun flushed _ => ?_⟩
        have hflushed := hin h' ⟨.inr .flush, flushed⟩ hheld rfl
        exact ⟨(hend _ hflushed).1, fun _ _ => (hend _ hflushed).2⟩
  · rw [stdioStep_other fun value he => ho ⟨value, he⟩]
    refine ⟨⟨fun ha => (by cases ha), fun hr => (by cases hr), fun hg => (by cases hg)⟩,
      fun a _ => ?_⟩
    show stdoutMutex.held (h ++ [(⟨.inl o, a⟩ : StdioEvent)]) = false
    rw [stdoutMutex.held_snoc]
    exact (stdoutMutex.after_other _ rfl rfl).trans hout

/-- Every thread keeps the discipline of the mutex. -/
theorem stdout_places {c' : StdioPool} (hr : Reach stdioSystem StdioPool.initial c') {t : Nat}
    {th' : Thread StdioOp StdioAns McpLoop Unit} (ht : c'.threads t = some th') :
    Issued stdoutMutex.Place th'.hist := by
  have hexpand : ∀ (p : McpThread) h, stdoutMutex.held h = false →
      Holds anyAnswer stdoutMutex.Place (Sum.elim (fun _ h' => stdoutMutex.held h' = false)
        fun _ h' => stdoutMutex.held h' = false) (p.expand stdioStep) h := by
    intro p h hout
    refine (holds_expand stdioStep stdioStep_places p hout).mono (fun _ _ hG => hG) ?_
    intro x h' hx
    cases x with
    | inl l => exact hx
    | inr r => exact hx
  have hstart : ∃ p : McpThread, th'.start = p.expand stdioStep := by
    refine Reach.started (P := fun p' => ∃ p : McpThread, p' = p.expand stdioStep) ?_ hr t th' ht
    intro _ _ p' _ hs
    obtain ⟨p, hp, _⟩ := hs
    exact ⟨p, hp⟩
  obtain ⟨p, hp⟩ := hstart
  exact Reach.issued (fun l h hl => hexpand (mcpRound l) h hl) hr ht (hp ▸ hexpand p [] rfl)

/-- The sections after the events of an open one. -/
theorem cuts_open_section {value : Value} {part : List StdioEvent} (h : Inside value part)
    (es : List StdioEvent) :
    stdoutMutex.cuts (es ++ part) = ⟨(stdoutMutex.cuts es).closed, part⟩ := by
  obtain ⟨mid, rfl, hmid⟩ := h.locked
  rw [stdoutMutex.cuts_append, List.foldl_cons, stdoutMutex.cut_acquire rfl,
    stdoutMutex.cuts_inside (fun e he => inside_other (hmid e he)) (List.cons_ne_nil _ _)]
  rfl

/-- The sections after those of a write that is over. -/
theorem cuts_closed_section {value : Value} {result : Except IoError Unit}
    {part : List StdioEvent} (h : Wrote value result part) (es : List StdioEvent) :
    stdoutMutex.cuts (es ++ part) = ⟨(stdoutMutex.cuts es).closed ++ [part], []⟩ := by
  obtain ⟨before, rfl, hin⟩ := h.closed
  rw [← List.append_assoc, stdoutMutex.cuts_snoc, cuts_open_section hin]
  obtain ⟨mid, rfl, _⟩ := hin.locked
  exact stdoutMutex.cut_release rfl (List.cons_ne_nil _ _)

/-- The sections of a thread between two operations are those of its writes. -/
theorem expanded_cuts {es : List StdioEvent} {h : List McpEvent} (hx : Expanded stdioStep es h) :
    (stdoutMutex.cuts es).current = [] ∧
      List.Forall₂ (fun part wrote => Wrote wrote.1 wrote.2 part) (stdoutMutex.cuts es).closed
        (h.filterMap wroteJson?) := by
  induction hx with
  | nil => exact ⟨rfl, .nil⟩
  | snoc hh hruns ih =>
      rename_i es part h o a
      obtain ⟨hcurrent, hclosed⟩ := ih
      by_cases ho : ∃ value, o = .writeJson value
      · obtain ⟨value, rfl⟩ := ho
        have hwrote : Wrote value a part := hruns.holds (writeJson_holds value)
        rw [cuts_closed_section hwrote, List.filterMap_append]
        exact ⟨rfl, List.rel_append hclosed (.cons hwrote .nil)⟩
      · rw [stdioStep_other fun value he => ho ⟨value, he⟩] at hruns
        have hpart : part = [⟨.inl o, a⟩] := by
          cases hruns with
          | ask b hrest =>
              obtain ⟨rfl, he⟩ := hrest.ret_inv
              cases he
              rfl
        have hnone : wroteJson? ⟨o, a⟩ = none := by
          unfold wroteJson?
          split
          · rename_i value result he
            cases he
            exact absurd ⟨value, rfl⟩ ho
          · rfl
        rw [hpart, stdoutMutex.cuts_snoc, stdoutMutex.cut_outside rfl hcurrent,
          List.filterMap_append, List.filterMap_cons_none hnone, List.filterMap_nil, List.append_nil]
        exact ⟨hcurrent, hclosed⟩

/-- The sections of a thread: those of its writes, and the one it is in. -/
theorem thread_cuts {th' : Thread StdioOp StdioAns McpLoop Unit} {th : McpThreadState}
    {part : List StdioEvent} (hx : Thread.Expands stdioStep th' th part) :
    List.Forall₂ (fun part wrote => Wrote wrote.1 wrote.2 part) (stdoutMutex.cuts th'.hist).closed
        (th.hist.filterMap wroteJson?) ∧
      ((stdoutMutex.cuts th'.hist).current = [] ∨ ∃ value k, th.rest = .ask (.writeJson value) k ∧
        Inside value (stdoutMutex.cuts th'.hist).current) := by
  obtain ⟨before, hhist, hbefore⟩ := hx.hist
  obtain ⟨hcurrent, hclosed⟩ := expanded_cuts hbefore
  have hrest := hx.rest
  rw [hhist]
  have hnone : part = [] → List.Forall₂ (fun part wrote => Wrote wrote.1 wrote.2 part)
      (stdoutMutex.cuts (before ++ part)).closed (th.hist.filterMap wroteJson?) ∧
      ((stdoutMutex.cuts (before ++ part)).current = [] ∨ ∃ value k,
        th.rest = .ask (.writeJson value) k ∧
          Inside value (stdoutMutex.cuts (before ++ part)).current) := by
    rintro rfl
    rw [List.append_nil]
    exact ⟨hclosed, Or.inl hcurrent⟩
  cases hth : th.rest with
  | ret x =>
      rw [hth] at hrest hnone
      exact hnone hrest.1
  | ask o k =>
      rw [hth] at hrest hnone
      obtain ⟨i, k', hruns, _⟩ := hrest
      by_cases ho : ∃ value, o = .writeJson value
      · obtain ⟨value, rfl⟩ := ho
        rcases (hruns.holds (writeJson_holds value)).1 with ⟨hempty, _⟩ | hin
        · exact hnone hempty
        · rw [List.nil_append] at hin
          rw [cuts_open_section hin]
          exact ⟨hclosed, Or.inr ⟨value, k, rfl, hin⟩⟩
      · rw [stdioStep_other fun value he => ho ⟨value, he⟩] at hruns
        refine hnone ?_
        cases hruns with
        | here => rfl
        | ask b hrest' =>
            obtain ⟨_, he⟩ := hrest'.ret_inv
            cases he

end Threads

end MessageNexus
