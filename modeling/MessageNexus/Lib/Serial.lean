/-
  File:      MessageNexus/Lib/Serial.lean
  Subject:   SECTIONS ONE AFTER ANOTHER. Where a part of the shared state changes only under a mutex
             (`Lock.lean`), it is what the sections leave behind that ran so far, each as a whole,
             in the order of their releases, and then the open one.

  * `Cut`, `Mutex.cuts` -- the sections of a history that are over, and the open one;
  * `Mutex.cuts_open` -- a thread stands in its section while one is open;
  * `Mutex.Serial`, `Mutex.serial` -- the part of the state, as the run of the sections;
  * `exists_log` -- an order of what the threads did, as one of what they did it for.
-/
import Mathlib.Data.List.Forall2
import MessageNexus.Lib.Lock

namespace Interact

variable {Op : Type} {Ans : Op → Type} {L R σ τ : Type}

/-- The sections of a history that are over, and the events of the open one. -/
structure Cut (Op : Type) (Ans : Op → Type) where
  closed : List (List (Event Op Ans))
  current : List (Event Op Ans)

/-- No section yet. -/
def Cut.empty : Cut Op Ans := ⟨[], []⟩

namespace Mutex

variable {S : System Op Ans L R σ} (m : Mutex S)

/-! ## 1. The sections of a history -/

/-- The sections after one more event. -/
def cut (s : Cut Op Ans) (e : Event Op Ans) : Cut Op Ans :=
  if m.acquires e.op then ⟨s.closed, [e]⟩
  else if s.current.isEmpty then s
  else if m.releases e.op then ⟨s.closed ++ [s.current ++ [e]], []⟩
  else ⟨s.closed, s.current ++ [e]⟩

/-- The sections of a history. -/
def cuts (h : List (Event Op Ans)) : Cut Op Ans := h.foldl m.cut .empty

@[simp] theorem cuts_nil : m.cuts ([] : List (Event Op Ans)) = .empty := rfl

theorem cuts_snoc (h : List (Event Op Ans)) (e : Event Op Ans) :
    m.cuts (h ++ [e]) = m.cut (m.cuts h) e := by
  simp [cuts]

theorem cuts_append (h es : List (Event Op Ans)) : m.cuts (h ++ es) = es.foldl m.cut (m.cuts h) := by
  simp [cuts]

theorem cut_acquire {e : Event Op Ans} (he : m.acquires e.op = true) (s : Cut Op Ans) :
    m.cut s e = ⟨s.closed, [e]⟩ := by
  simp [cut, he]

theorem cut_outside {e : Event Op Ans} {s : Cut Op Ans} (he : m.acquires e.op = false)
    (hs : s.current = []) : m.cut s e = s := by
  simp [cut, he, hs]

theorem cut_release {e : Event Op Ans} {s : Cut Op Ans} (he : m.releases e.op = true)
    (hs : s.current ≠ []) : m.cut s e = ⟨s.closed ++ [s.current ++ [e]], []⟩ := by
  have ha : m.acquires e.op = false := by
    cases ha : m.acquires e.op with
    | false => rfl
    | true => rw [m.apart _ ha] at he; cases he
  simp [cut, he, hs, ha]

theorem cut_inside {e : Event Op Ans} {s : Cut Op Ans} (ha : m.acquires e.op = false)
    (hr : m.releases e.op = false) (hs : s.current ≠ []) :
    m.cut s e = ⟨s.closed, s.current ++ [e]⟩ := by
  simp [cut, ha, hr, hs]

/-- The events inside a section join it. -/
theorem cuts_inside {es : List (Event Op Ans)} {s : Cut Op Ans}
    (hes : ∀ e ∈ es, m.acquires e.op = false ∧ m.releases e.op = false) (hs : s.current ≠ []) :
    es.foldl m.cut s = ⟨s.closed, s.current ++ es⟩ := by
  induction es generalizing s with
  | nil => simp
  | cons e es ih =>
      obtain ⟨ha, hr⟩ := hes e List.mem_cons_self
      rw [List.foldl_cons, m.cut_inside ha hr hs,
        ih (fun e' he => hes e' (List.mem_cons_of_mem e he)) (by simp)]
      simp

/-- A section is open while the history ends inside one. -/
theorem cuts_open (h : List (Event Op Ans)) : m.held h = true ↔ (m.cuts h).current ≠ [] := by
  induction h using List.reverseRecOn with
  | nil => simp [Cut.empty]
  | append_singleton h e ih =>
      rw [held_snoc, cuts_snoc]
      cases ha : m.acquires e.op with
      | true =>
          rw [m.after_acquire _ ha, m.cut_acquire ha]
          simp
      | false =>
          by_cases hopen : (m.cuts h).current = []
          · rw [m.cut_outside ha hopen]
            have hout : m.held h = false := by
              by_contra hin
              exact ih.mp (by simpa using hin) hopen
            simp [after, ha, hout, hopen]
          · cases hr : m.releases e.op with
            | true =>
                rw [m.after_release _ hr, m.cut_release hr hopen]
                simp
            | false =>
                rw [m.after_other _ ha hr, m.cut_inside ha hr hopen]
                simp [ih, hopen]

/-! ## 2. The run of the sections -/

/-- The open section of the holder. -/
def openPart (c : Pool Op Ans L R σ) : List (Event Op Ans) :=
  match m.holder c.shared with
  | some t => (m.cuts (c.hist t)).current
  | none => []

/-- The part of the state is what the sections leave, in this order of their releases, and then the
    open one; of each thread, the order has the sections that are over. -/
structure Serial (view : σ → τ) (eff : τ → Event Op Ans → τ) (start : τ) (c : Pool Op Ans L R σ)
    (order : List (Nat × List (Event Op Ans))) : Prop where
  sections : ∀ t, (order.filter fun own => own.1 = t).map (·.2) = (m.cuts (c.hist t)).closed
  view : view c.shared = (order.flatMap (·.2) ++ m.openPart c).foldl eff start

section Run

variable {view : σ → τ} {eff : τ → Event Op Ans → τ} {start : τ} {c : Pool Op Ans L R σ}

/-- One operation: it opens a section, closes one, or stands in one or in none. -/
theorem serial_act {order : List (Nat × List (Event Op Ans))} {t : Nat} {th : Thread Op Ans L R}
    {e : Event Op Ans} {rest : Prog Op Ans (L ⊕ R)} {s' : σ} (hex : m.Exclusive c)
    (hc : m.Serial view eff start c order) (ht : c.threads t = some th) (hl : th.live = true)
    (hs : S.sem c.shared t e s') (hp : m.Place th.hist e.op)
    (hview : view s' = eff (view c.shared) e)
    (hquiet : ¬ m.guarded e.op → ∀ v, eff v e = v) :
    ∃ order', m.Serial view eff start
      (c.put s' t { th with hist := th.hist ++ [e], rest := rest }) order' := by
  have hself := hex.1 t th ht hl
  have hown := m.cuts_open th.hist
  have hhist : (c.put s' t { th with hist := th.hist ++ [e], rest := rest }).hist =
      Function.update c.hist t (th.hist ++ [e]) := Pool.hist_put _ _ _ _
  have hbefore : c.hist t = th.hist := Pool.hist_of ht
  -- the sections of the other threads are what they were
  have hothers : ∀ closed, (m.cuts (th.hist ++ [e])).closed = closed → ∀ order' : List _,
      (order'.filter fun own => own.1 = t).map (·.2) = closed →
      (∀ u, u ≠ t → (order'.filter fun own => own.1 = u) = order.filter fun own => own.1 = u) →
      ∀ u, (order'.filter fun own => own.1 = u).map (·.2) =
        (m.cuts (Function.update c.hist t (th.hist ++ [e]) u)).closed := by
    intro closed hclosed order' hmine hrest u
    by_cases hu : u = t
    · subst hu
      rw [Function.update_self, hclosed, hmine]
    · rw [Function.update_of_ne hu, hrest u hu, hc.sections u]
  cases ha : m.acquires e.op with
  | true =>
      obtain ⟨hfree, hheld⟩ := m.sem_acquire _ _ _ _ ha hs
      have hcut : m.cuts (th.hist ++ [e]) = ⟨(m.cuts th.hist).closed, [e]⟩ := by
        rw [m.cuts_snoc, m.cut_acquire ha]
      refine ⟨order, ⟨?_, ?_⟩⟩
      · rw [hhist]
        exact hothers _ (by rw [hcut]) order (by rw [hc.sections t, hbefore]) fun u _ => rfl
      · have hpart : m.openPart c = [] := by rw [openPart, hfree]
        rw [Pool.put_shared, hview, hc.view, hpart, openPart, Pool.put_shared, hheld]
        dsimp only
        rw [hhist, Function.update_self, hcut]
        simp
  | false =>
      by_cases hopen : (m.cuts th.hist).current = []
      · -- outside: the part of the state is not touched
        have hcut : m.cuts (th.hist ++ [e]) = m.cuts th.hist := by
          rw [m.cuts_snoc, m.cut_outside ha hopen]
        have hout : ¬ m.held th.hist = true := fun hin => hown.mp hin hopen
        have hr : m.releases e.op = false := by
          cases hr : m.releases e.op with
          | false => rfl
          | true => exact absurd (hp.2.1 hr) hout
        have hkeep := m.sem_other _ _ _ _ ha hr hs
        refine ⟨order, ⟨?_, ?_⟩⟩
        · rw [hhist]
          exact hothers _ (by rw [hcut]) order (by rw [hc.sections t, hbefore]) fun u _ => rfl
        · have hpart : m.openPart (c.put s' t { th with hist := th.hist ++ [e], rest := rest }) =
              m.openPart c := by
            unfold openPart
            rw [Pool.put_shared, hkeep, hhist]
            cases hholder : m.holder c.shared with
            | none => rfl
            | some u =>
                have hu : u ≠ t := by
                  intro he
                  rw [he] at hholder
                  exact hout (hself.mpr hholder)
                dsimp only
                rw [Function.update_of_ne hu]
          rw [Pool.put_shared, hview, hquiet (fun hg => hout (hp.2.2 hg)), hpart, hc.view]
      · have hin : m.held th.hist = true := hown.mpr hopen
        have hholder := hself.mp hin
        have hpart : m.openPart c = (m.cuts th.hist).current := by
          rw [openPart, hholder]
          dsimp only
          rw [hbefore]
        cases hr : m.releases e.op with
        | true =>
            have hfree := m.sem_release _ _ _ _ hr hs
            have hcut : m.cuts (th.hist ++ [e]) =
                ⟨(m.cuts th.hist).closed ++ [(m.cuts th.hist).current ++ [e]], []⟩ := by
              rw [m.cuts_snoc, m.cut_release hr hopen]
            refine ⟨order ++ [(t, (m.cuts th.hist).current ++ [e])], ⟨?_, ?_⟩⟩
            · rw [hhist]
              refine hothers _ (by rw [hcut]) _ ?_ fun u hu => ?_
              · rw [List.filter_append, List.map_append, hc.sections t, hbefore]
                simp
              · rw [List.filter_append]
                simp [Ne.symm hu]
            · rw [Pool.put_shared, hview, hc.view, hpart, openPart, Pool.put_shared, hfree]
              simp
        | false =>
            have hkeep := m.sem_other _ _ _ _ ha hr hs
            have hcut : m.cuts (th.hist ++ [e]) =
                ⟨(m.cuts th.hist).closed, (m.cuts th.hist).current ++ [e]⟩ := by
              rw [m.cuts_snoc, m.cut_inside ha hr hopen]
            refine ⟨order, ⟨?_, ?_⟩⟩
            · rw [hhist]
              exact hothers _ (by rw [hcut]) order (by rw [hc.sections t, hbefore]) fun u _ => rfl
            · rw [Pool.put_shared, hview, hc.view, hpart, openPart, Pool.put_shared, hkeep, hholder]
              dsimp only
              rw [hhist, Function.update_self, hcut]
              simp

/-- In every reachable pool of a system that nothing halts, the part of the state is the run of the
    sections. -/
theorem serial {s₀ : σ} (h0 : m.holder s₀ = none)
    (hplaces : ∀ c, Reach S (.idle s₀) c → ∀ t th, c.threads t = some th →
      Issued m.Place th.hist)
    (hview : ∀ s t e s', S.sem s t e s' → view s' = eff (view s) e)
    (hquiet : ∀ e : Event Op Ans, ¬ m.guarded e.op → ∀ v, eff v e = v)
    (hstart : ∀ s t p s', S.start s t p s' → view s' = view s) (hhalt : ∀ s s', ¬ S.halt s s')
    (hr : Reach S (.idle s₀) c) : ∃ order, m.Serial view eff (view s₀) c order := by
  refine Reach.invariant (P := fun c => ∃ order, m.Serial view eff (view s₀) c order) ?_ ?_ hr
  · refine ⟨[], fun t => rfl, ?_⟩
    have hpart : m.openPart (Pool.idle s₀ : Pool Op Ans L R σ) = [] := by
      rw [openPart, show (Pool.idle s₀ : Pool Op Ans L R σ).shared = s₀ from rfl, h0]
    rw [hpart]
    rfl
  · intro c c' hrc hrc' hc hs
    obtain ⟨order, hserial⟩ := hc
    have hex := m.exclusive h0 hplaces hrc
    cases hs with
    | act t th o k a s' ht hl hrest hsem =>
        have hi := hplaces _ hrc' t _ (Pool.put_self _ _ _ _)
        obtain ⟨_, hp, _⟩ := (along_append [] th.hist [⟨o, a⟩]).mp hi
        exact m.serial_act hex hserial ht hl hsem hp (hview _ _ _ _ hsem) (hquiet _)
    | again t th l ht hl hrest =>
        have hsame : c.hist t = th.hist := Pool.hist_of ht
        have hput := @Pool.hist_put_same _ _ _ _ _ c c.shared t { th with rest := S.body l } hsame
        refine ⟨order, fun u => ?_, ?_⟩
        · rw [hput]
          exact hserial.sections u
        · rw [openPart, hput]
          exact hserial.view
    | start t p s' ht hs =>
        have hsame : c.hist t = (Thread.fresh p : Thread Op Ans L R).hist := by
          rw [Pool.hist, ht]
          rfl
        have hput := @Pool.hist_put_same _ _ _ _ _ c s' t (.fresh p) hsame
        refine ⟨order, fun u => ?_, ?_⟩
        · rw [hput]
          exact hserial.sections u
        · rw [openPart, hput, Pool.put_shared, m.start_keeps _ _ _ _ hs, hstart _ _ _ _ hs]
          exact hserial.view
    | halt s' hs => exact absurd hs (hhalt _ _)

end Run

end Mutex

/-! ## 3. An order of several histories -/

/-- Where the items of each thread in an order stand for its own ones, the order is one of these. -/
theorem exists_log {β γ : Type} {P : β → γ → Prop} (order : List (Nat × β)) (own : Nat → List γ)
    (h : ∀ t, List.Forall₂ P ((order.filter fun item => item.1 = t).map (·.2)) (own t)) :
    ∃ log : List (Nat × β × γ), log.map (fun item => (item.1, item.2.1)) = order ∧
      (∀ t, (log.filter fun item => item.1 = t).map (·.2.2) = own t) ∧
      ∀ item ∈ log, P item.2.1 item.2.2 := by
  induction order generalizing own with
  | nil =>
      refine ⟨[], rfl, fun t => ?_, fun item hin => (by cases hin)⟩
      exact (List.forall₂_nil_left_iff.mp (h t)).symm
  | cons first order ih =>
      obtain ⟨t, b⟩ := first
      have hfirst := h t
      rw [List.filter_cons_of_pos (by simp), List.map_cons] at hfirst
      obtain ⟨w, ws, hw, hws, hown⟩ := List.forall₂_cons_left_iff.mp hfirst
      obtain ⟨log, hlog, hmine, hall⟩ := ih (Function.update own t ws) fun u => by
        by_cases hu : u = t
        · subst hu
          rw [Function.update_self]
          exact hws
        · rw [Function.update_of_ne hu]
          have hother := h u
          rwa [List.filter_cons_of_neg (by simpa using Ne.symm hu)] at hother
      refine ⟨(t, b, w) :: log, by rw [List.map_cons, hlog], fun u => ?_, fun item hin => ?_⟩
      · by_cases hu : u = t
        · subst hu
          rw [List.filter_cons_of_pos (by simp), List.map_cons, hmine, Function.update_self, hown]
        · rw [List.filter_cons_of_neg (by simpa using Ne.symm hu), hmine,
            Function.update_of_ne hu]
      · rcases List.mem_cons.mp hin with rfl | hin
        · exact hw
        · exact hall item hin

end Interact
