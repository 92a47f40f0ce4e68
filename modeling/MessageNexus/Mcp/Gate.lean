/-
  File:      MessageNexus/Mcp/Gate.lean
  Subject:   WHAT THE ADAPTER HAS CHECKED OF A CALL IT ACCEPTS, after any lines.

  * `ThreadQuery`, `Accepts` -- the queries a call can carry, and the checks of `call_request`;
  * `after_cases` -- what a line can do to the adapter;
  * `Handshaken` -- an accepted `initialize`, and later the notification that the client is ready;
  * `ready_handshaken`, `seen_bounded`, `seen_snoc` -- what any lines lead to.
-/
import MessageNexus.Mcp.Adapter

namespace MessageNexus

open SignalFlow SignalMessage Json

section Gate

variable [McpCodec]

/-! ## 1. The checks of a call -/

/-- The query of a call with these parameters: what the tool takes from its arguments, under the
    thread that the parameters name. -/
inductive ThreadQuery (params : Value) : SignalMessage.Query → Prop where
  | send (text : String) (request : SendRequest) (thread : String)
      (hname : (params.get "name").bind Value.asStr = some "send")
      (hargs : params.get "arguments" = some (.object [("query", .string text)]))
      (hdatom : McpCodec.actualize text = .ok (.send request))
      (hthread : threadOf params = some thread) : ThreadQuery params (.sendThread request thread)
  | observeAll (thread : String)
      (hname : (params.get "name").bind Value.asStr = some "observe_sends")
      (hargs : params.get "arguments" = some (.object []))
      (hthread : threadOf params = some thread) : ThreadQuery params (.observeThread none thread)
  | observeFrom (value : Value) (cursor : DeliveryCursor) (thread : String)
      (hname : (params.get "name").bind Value.asStr = some "observe_sends")
      (hargs : params.get "arguments" = some (.object [("cursor", value)]))
      (hcursor : value.asI64 = some cursor)
      (hthread : threadOf params = some thread) :
      ThreadQuery params (.observeThread (some cursor) thread)

theorem sendQuery_ok {args : List (String × Value)} {thread : String} {query : SignalMessage.Query}
    (h : sendQuery args thread = .ok query) : ∃ text request,
      args = [("query", .string text)] ∧ McpCodec.actualize text = .ok (.send request) ∧
      query = .sendThread request thread := by
  unfold sendQuery at h
  by_cases hkeys : args.length ≠ 1 ∨ (Value.object args).get "query" = none
  · rw [if_pos hkeys] at h
    cases h
  · rw [if_neg hkeys] at h
    have hone : args.length = 1 := by
      by_contra hne
      exact hkeys (Or.inl hne)
    have hget : (Value.object args).get "query" ≠ none := fun hne => hkeys (Or.inr hne)
    obtain ⟨entry, rfl⟩ := List.length_eq_one_iff.mp hone
    obtain ⟨key, value⟩ := entry
    by_cases hkey : key = "query"
    · subst hkey
      cases value with
      | string text =>
          have hstr : ((Value.object [("query", .string text)]).get "query").bind Value.asStr =
              some text := rfl
          rw [hstr] at h
          dsimp only at h
          cases hdatom : McpCodec.actualize text with
          | error e => rw [hdatom] at h; cases h
          | ok q =>
              rw [hdatom] at h
              cases q with
              | send request => cases h; exact ⟨text, request, rfl, hdatom, rfl⟩
              | _ => cases h
      | _ => cases h
    · exact absurd (by simp [Value.get, Value.asObject, hkey]) hget

omit [McpCodec] in
theorem observeQuery_ok {args : List (String × Value)} {thread : String}
    {query : SignalMessage.Query} (h : observeQuery args thread = .ok query) :
    (args = [] ∧ query = .observeThread none thread) ∨
    ∃ value cursor, args = [("cursor", value)] ∧ value.asI64 = some cursor ∧
      query = .observeThread (some cursor) thread := by
  unfold observeQuery at h
  by_cases hkeys : args.length > 1 ∨ (args.any fun entry => entry.1 != "cursor") = true
  · rw [if_pos hkeys] at h
    cases h
  · rw [if_neg hkeys] at h
    rcases args with _ | ⟨⟨key, value⟩, _ | ⟨second, rest⟩⟩
    · cases h
      exact Or.inl ⟨rfl, rfl⟩
    · have hkey : key = "cursor" := by
        by_contra hne
        exact hkeys (Or.inr (by simp [hne]))
      subst hkey
      have hget : (Value.object [("cursor", value)]).get "cursor" = some value := rfl
      rw [hget] at h
      dsimp only at h
      cases hcursor : value.asI64 with
      | none => rw [hcursor] at h; cases h
      | some cursor =>
          rw [hcursor] at h
          cases h
          exact Or.inr ⟨value, cursor, rfl, hcursor, rfl⟩
    · exact absurd (Or.inl (by simp)) hkeys

theorem threadQuery_ok {params : Value} {query : SignalMessage.Query}
    (h : threadQuery params = .ok query) : ThreadQuery params query := by
  unfold threadQuery at h
  cases hname : (params.get "name").bind Value.asStr with
  | none => rw [hname] at h; cases h
  | some name =>
    rw [hname] at h
    cases hobject : (params.get "arguments").bind Value.asObject with
    | none => rw [hobject] at h; cases h
    | some args =>
      rw [hobject] at h
      have hargs : params.get "arguments" = some (.object args) := by
        obtain ⟨value, hvalue, hentries⟩ := Option.bind_eq_some_iff.mp hobject
        cases value with
        | object entries => cases hentries; exact hvalue
        | _ => cases hentries
      cases hthread : threadOf params with
      | none => rw [hthread] at h; cases h
      | some thread =>
        rw [hthread] at h
        dsimp only at h
        by_cases hsend : name = "send"
        · subst hsend
          rw [if_pos rfl] at h
          obtain ⟨text, request, rfl, hdatom, rfl⟩ := sendQuery_ok h
          exact .send text request thread hname hargs hdatom hthread
        · rw [if_neg hsend] at h
          by_cases hobserve : name = "observe_sends"
          · subst hobserve
            rw [if_pos rfl] at h
            rcases observeQuery_ok h with ⟨rfl, rfl⟩ | ⟨value, cursor, rfl, hcursor, rfl⟩
            · exact .observeAll thread hname hargs hthread
            · exact .observeFrom value cursor thread hname hargs hcursor hthread
          · rw [if_neg hobserve] at h
            cases h

/-- What the adapter has checked when it accepts a call. -/
structure Accepts (adapter : Adapter) (input : Value) (request : CallRequest) : Prop where
  id : input.get "id" = some request.id
  scalar : isScalar request.id = true
  key : request.key = request.id.text
  fresh : request.key ∉ adapter.seenIds
  room : adapter.seenIds.length < maxSeenCalls
  ready : adapter.ready = true
  token : (paramsOf input).pointer ["_meta", "progressToken"] = some request.progressToken
  tokenScalar : isScalar request.progressToken = true
  query : ThreadQuery (paramsOf input) request.query

theorem callRequest_ok {adapter adapter' : Adapter} {input : Value} {request : CallRequest}
    (h : adapter.callRequest input = .ok (request, adapter')) :
    Accepts adapter input request ∧
      adapter' = { adapter with seenIds := request.key :: adapter.seenIds } := by
  unfold Adapter.callRequest at h
  cases hid : (input.get "id").filter isScalar with
  | none => rw [hid] at h; cases h
  | some id =>
    rw [hid] at h
    dsimp only at h
    by_cases hseen : id.text ∈ adapter.seenIds
    · rw [if_pos hseen] at h
      cases h
    · rw [if_neg hseen] at h
      by_cases hfull : adapter.seenIds.length ≥ maxSeenCalls
      · rw [if_pos hfull] at h
        cases h
      · rw [if_neg hfull] at h
        cases hready : adapter.ready with
        | false => rw [hready] at h; cases h
        | true =>
          rw [hready] at h
          rw [if_neg (by decide)] at h
          cases htoken : ((paramsOf input).pointer ["_meta", "progressToken"]).filter isScalar with
          | none => rw [htoken] at h; cases h
          | some token =>
            rw [htoken] at h
            dsimp only at h
            cases hquery : threadQuery (paramsOf input) with
            | error message => rw [hquery] at h; cases h
            | ok query =>
              rw [hquery] at h
              cases h
              obtain ⟨hidEq, hidScalar⟩ := Option.filter_eq_some_iff.mp hid
              obtain ⟨htokenEq, htokenScalar⟩ := Option.filter_eq_some_iff.mp htoken
              refine ⟨?_, rfl⟩
              exact ⟨hidEq, hidScalar, rfl, hseen, Nat.lt_of_not_le hfull, hready, htokenEq,
                htokenScalar, threadQuery_ok hquery⟩

/-! ## 2. What a line does to the adapter -/

/-- After these lines the line is an `initialize` request that the adapter accepts: it is answered
    with the capabilities. -/
def AcceptsInitialize (before : List String) (line : String) : Prop :=
  ∃ input id, McpCodec.fromStr line = some input ∧ methodOf input = some "initialize" ∧
    input.get "id" = some id ∧
    ((adapterAfter before).synchronous input).1 = some (rpcResult id initializeResult)

/-- The line is the notification that the client has initialized. -/
def NotifiesInitialized (line : String) : Prop :=
  ∃ input, McpCodec.fromStr line = some input ∧
    (input.get "jsonrpc").bind Value.asStr = some "2.0" ∧
    methodOf input = some "notifications/initialized" ∧ input.get "id" = none

/-- The line is a call that the adapter accepts. -/
def AcceptsCall (adapter : Adapter) (line : String) (request : CallRequest) : Prop :=
  ∃ input, McpCodec.fromStr line = some input ∧ methodOf input = some "tools/call" ∧
    Accepts adapter input request

/-- What a message other than a call and a cancellation can do to the adapter. -/
theorem synchronous_cases (adapter : Adapter) (input : Value) :
    (adapter.synchronous input).2 = adapter ∨
    (∃ id, methodOf input = some "initialize" ∧ input.get "id" = some id ∧
      adapter.synchronous input =
        (some (rpcResult id initializeResult), { adapter with initialized := true })) ∨
    ((input.get "jsonrpc").bind Value.asStr = some "2.0" ∧
      methodOf input = some "notifications/initialized" ∧ input.get "id" = none ∧
      adapter.initialized = true ∧ (adapter.synchronous input).2 = { adapter with ready := true }) := by
  unfold Adapter.synchronous
  by_cases hrpc : (input.get "jsonrpc").bind Value.asStr ≠ some "2.0"
  · rw [if_pos hrpc]
    exact Or.inl rfl
  rw [if_neg hrpc]
  cases hid : input.get "id" with
  | none =>
      dsimp only
      by_cases hnote : methodOf input = some "notifications/initialized" ∧ adapter.initialized = true
      · rw [if_pos hnote]
        exact Or.inr (Or.inr ⟨not_not.mp hrpc, hnote.1, rfl, hnote.2, rfl⟩)
      · rw [if_neg hnote]
        exact Or.inl rfl
  | some id =>
      dsimp only
      cases hscalar : isScalar id with
      | false => exact Or.inl rfl
      | true =>
          rw [if_neg (by decide)]
          by_cases hinit : methodOf input = some "initialize" ∧ adapter.initialized = false
          · rw [if_pos hinit]
            exact Or.inr (Or.inl ⟨id, hinit.1, rfl, rfl⟩)
          · rw [if_neg hinit]
            left
            repeat' split
            all_goals rfl

section After

variable {adapter : Adapter} {line : String} {input : Value}

theorem after_unparsed (hparse : McpCodec.fromStr line = none) : adapter.after line = adapter := by
  simp [Adapter.after, hparse]

theorem after_cancelled (hparse : McpCodec.fromStr line = some input)
    (hcancel : methodOf input = some "notifications/cancelled") :
    adapter.after line = adapter := by
  simp [Adapter.after, hparse, hcancel]

theorem after_refused (hparse : McpCodec.fromStr line = some input)
    (hcall : methodOf input = some "tools/call") {response : Value}
    (hrequest : adapter.callRequest input = .error response) : adapter.after line = adapter := by
  simp [Adapter.after, hparse, hcall, hrequest]

theorem after_accepted (hparse : McpCodec.fromStr line = some input)
    (hcall : methodOf input = some "tools/call") {request : CallRequest} {adapter' : Adapter}
    (hrequest : adapter.callRequest input = .ok (request, adapter')) :
    adapter.after line = adapter' := by
  simp [Adapter.after, hparse, hcall, hrequest]

theorem after_synchronous (hparse : McpCodec.fromStr line = some input)
    (hcancel : methodOf input ≠ some "notifications/cancelled")
    (hcall : methodOf input ≠ some "tools/call") :
    adapter.after line = (adapter.synchronous input).2 := by
  simp [Adapter.after, hparse, hcancel, hcall]

end After

/-- What a line can do to the adapter. -/
theorem after_cases (before : List String) (line : String) :
    (adapterAfter before).after line = adapterAfter before ∨
    (AcceptsInitialize before line ∧
      (adapterAfter before).after line = { adapterAfter before with initialized := true }) ∨
    (NotifiesInitialized line ∧ (adapterAfter before).initialized = true ∧
      (adapterAfter before).after line = { adapterAfter before with ready := true }) ∨
    (∃ request, AcceptsCall (adapterAfter before) line request ∧
      (adapterAfter before).after line =
        { adapterAfter before with seenIds := request.key :: (adapterAfter before).seenIds }) := by
  cases hparse : McpCodec.fromStr line with
  | none => exact Or.inl (after_unparsed hparse)
  | some input =>
    by_cases hcancel : methodOf input = some "notifications/cancelled"
    · exact Or.inl (after_cancelled hparse hcancel)
    by_cases hcall : methodOf input = some "tools/call"
    · cases hrequest : (adapterAfter before).callRequest input with
      | error response => exact Or.inl (after_refused hparse hcall hrequest)
      | ok accepted =>
          obtain ⟨request, adapter'⟩ := accepted
          obtain ⟨haccepts, hadapter⟩ := callRequest_ok hrequest
          rw [after_accepted hparse hcall hrequest]
          exact Or.inr (Or.inr (Or.inr ⟨request, ⟨input, hparse, hcall, haccepts⟩, hadapter⟩))
    · rw [after_synchronous hparse hcancel hcall]
      rcases synchronous_cases (adapterAfter before) input with
        hsame | ⟨id, hmethod, hid, hanswer⟩ | ⟨hrpc, hmethod, hid, hinit, hready⟩
      · exact Or.inl hsame
      · refine Or.inr (Or.inl ⟨⟨input, id, hparse, hmethod, hid, ?_⟩, ?_⟩)
        · rw [hanswer]
        · rw [hanswer]
      · exact Or.inr (Or.inr (Or.inl ⟨⟨input, hparse, hrpc, hmethod, hid⟩, hinit, hready⟩))

/-! ## 3. What any lines lead to -/

@[simp] theorem adapterAfter_nil : adapterAfter [] = .new := rfl

@[simp] theorem adapterAfter_snoc (lines : List String) (line : String) :
    adapterAfter (lines ++ [line]) = (adapterAfter lines).after line := by
  simp [adapterAfter]

/-- Some line of the list was an accepted `initialize`. -/
def Initialized (lines : List String) : Prop :=
  ∃ before line after, lines = before ++ line :: after ∧ AcceptsInitialize before line

/-- An `initialize` was accepted, and after it the client notified that it has initialized. -/
def Handshaken (lines : List String) : Prop :=
  ∃ before line after, lines = before ++ line :: after ∧ NotifiesInitialized line ∧
    Initialized before

theorem Initialized.snoc {lines : List String} (h : Initialized lines) (line : String) :
    Initialized (lines ++ [line]) := by
  obtain ⟨before, l, after, rfl, hl⟩ := h
  exact ⟨before, l, after ++ [line], by simp, hl⟩

theorem Handshaken.snoc {lines : List String} (h : Handshaken lines) (line : String) :
    Handshaken (lines ++ [line]) := by
  obtain ⟨before, l, after, rfl, hl⟩ := h
  exact ⟨before, l, after ++ [line], by simp, hl⟩

/-- An initialized adapter has accepted an `initialize`. -/
theorem initialized_of_after (lines : List String)
    (h : (adapterAfter lines).initialized = true) : Initialized lines := by
  induction lines using List.reverseRecOn with
  | nil => cases h
  | append_singleton lines line ih =>
      rw [adapterAfter_snoc] at h
      rcases after_cases lines line with he | ⟨hinit, _⟩ | ⟨_, hinit, _⟩ | ⟨request, _, he⟩
      · rw [he] at h
        exact (ih h).snoc line
      · exact ⟨lines, line, [], rfl, hinit⟩
      · exact (ih hinit).snoc line
      · rw [he] at h
        exact (ih h).snoc line

/-- An adapter that is ready has been through the handshake. -/
theorem ready_handshaken (lines : List String) (h : (adapterAfter lines).ready = true) :
    Handshaken lines := by
  induction lines using List.reverseRecOn with
  | nil => cases h
  | append_singleton lines line ih =>
      rw [adapterAfter_snoc] at h
      rcases after_cases lines line with he | ⟨_, he⟩ | ⟨hnote, hinit, _⟩ | ⟨request, _, he⟩
      · rw [he] at h
        exact (ih h).snoc line
      · rw [he] at h
        exact (ih h).snoc line
      · exact ⟨lines, line, [], rfl, hnote, initialized_of_after lines hinit⟩
      · rw [he] at h
        exact (ih h).snoc line

/-- The adapter never holds more ids than it may. -/
theorem seen_bounded (lines : List String) :
    (adapterAfter lines).seenIds.length ≤ maxSeenCalls := by
  induction lines using List.reverseRecOn with
  | nil => exact Nat.zero_le _
  | append_singleton lines line ih =>
      rw [adapterAfter_snoc]
      rcases after_cases lines line with he | ⟨_, he⟩ | ⟨_, _, he⟩ | ⟨request, hcall, he⟩
      · rw [he]
        exact ih
      · rw [he]
        exact ih
      · rw [he]
        exact ih
      · obtain ⟨input, _, _, haccepts⟩ := hcall
        rw [he]
        exact haccepts.room

/-- A key stays seen. -/
theorem seen_snoc {lines : List String} {key : String} (line : String)
    (h : key ∈ (adapterAfter lines).seenIds) : key ∈ (adapterAfter (lines ++ [line])).seenIds := by
  rw [adapterAfter_snoc]
  rcases after_cases lines line with he | ⟨_, he⟩ | ⟨_, _, he⟩ | ⟨request, _, he⟩
  · rw [he]
    exact h
  · rw [he]
    exact h
  · rw [he]
    exact h
  · rw [he]
    exact List.mem_cons_of_mem _ h

/-- The thread of a query that a call carries. -/
def nativeSession : SignalMessage.Query → Option String
  | .sendThread _ thread => some thread
  | .observeThread _ thread => some thread
  | _ => none

/-- The thread of a call's query is the one that its parameters name. -/
theorem ThreadQuery.thread {params : Value} {query : SignalMessage.Query}
    (h : ThreadQuery params query) : nativeSession query = threadOf params := by
  cases h with
  | send text request thread _ _ _ hthread => exact hthread.symm
  | observeAll thread _ _ hthread => exact hthread.symm
  | observeFrom value cursor thread _ _ _ hthread => exact hthread.symm

/-- The thread of a call: a non-empty text of at most 256 bytes without control characters. -/
theorem ThreadQuery.valid {params : Value} {query : SignalMessage.Query}
    (h : ThreadQuery params query) : ∃ thread,
      params.pointer ["_meta", "threadId"] = some (.string thread) ∧
      nativeSession query = some thread ∧ validThread thread = true := by
  have hsome : ∃ thread, threadOf params = some thread := by
    cases h with
    | send text request thread _ _ _ hthread => exact ⟨thread, hthread⟩
    | observeAll thread _ _ hthread => exact ⟨thread, hthread⟩
    | observeFrom value cursor thread _ _ _ hthread => exact ⟨thread, hthread⟩
  obtain ⟨thread, hthread⟩ := hsome
  obtain ⟨htext, hvalid⟩ := Option.filter_eq_some_iff.mp hthread
  obtain ⟨value, hvalue, hstring⟩ := Option.bind_eq_some_iff.mp htext
  refine ⟨thread, ?_, h.thread.trans hthread, hvalid⟩
  cases value with
  | string text => cases hstring; exact hvalue
  | _ => cases hstring

end Gate

end MessageNexus
