/-
  File:      MessageNexus/Lib/Reap.lean
  Subject:   WORKERS THAT A LOOP SPAWNS, KEEPS AND JOINS: the vector that keeps them, the pass that
             reaps the finished ones, and the account of a history.

  * `swapRemove` -- `Vec::swap_remove`; `swapRemove_at` -- what is before the index stays, what is
    after it is permuted;
  * `Pass` -- a reaping pass from an index on: what it examined, with the answers, and what it
    keeps; `Pass.examined`, `Pass.keeps` -- every worker once, and the unfinished ones;
  * `Reaper` -- a loop whose rounds are those of a pass; `Reaper.pass` -- its traces are passes;
    `Reaper.run` -- what a thread does from one over all its workers on, with two events at most
    for each;
  * `Crew` -- which events spawn a worker and which join one; `Crew.Balanced` -- what is joined and
    what is kept is what was spawned; `Crew.Place` -- only a kept worker is joined, so that none is
    joined twice (`Crew.joined_once`).
-/
import Mathlib.Data.List.Perm.Basic
import MessageNexus.Lib.Pool

namespace Reap

open Interact

/-! ## 1. The vector -/

section Vector

variable {W : Type}

/-- `Vec::swap_remove`. -/
def swapRemove (workers : List W) (index : Nat) : List W :=
  match workers.getLast? with
  | none => []
  | some last => (workers.set index last).dropLast

/-- The last worker takes the place of the one that is removed. -/
theorem swapRemove_split (before : List W) (worker : W) (after : List W) :
    ∃ after', swapRemove (before ++ worker :: after) before.length = before ++ after' ∧
      after'.Perm after := by
  rcases List.eq_nil_or_concat after with rfl | ⟨init, last, rfl⟩
  · refine ⟨[], ?_, List.Perm.refl _⟩
    simp [swapRemove]
  · rw [List.concat_eq_append]
    refine ⟨last :: init, ?_, (List.perm_append_singleton last init).symm⟩
    have hlast : (before ++ worker :: (init ++ [last])).getLast? = some last := by
      rw [← List.cons_append, ← List.append_assoc, List.getLast?_concat]
    have hset : (before ++ worker :: (init ++ [last])).set before.length last =
        (before ++ last :: init) ++ [last] := by
      simp
    rw [swapRemove, hlast]
    dsimp only
    rw [hset, List.dropLast_concat]

/-- A worker of the vector, between those before it and those after it. -/
theorem split_at {workers : List W} {index : Nat} {worker : W} (h : workers[index]? = some worker) :
    workers = workers.take index ++ worker :: workers.drop (index + 1) ∧
      (workers.take index).length = index := by
  obtain ⟨hlt, rfl⟩ := List.getElem?_eq_some_iff.mp h
  refine ⟨?_, by rw [List.length_take]; omega⟩
  rw [← List.drop_eq_getElem_cons hlt, List.take_append_drop]

/-- What is before the index stays, and what is after it is permuted. -/
theorem swapRemove_at {workers : List W} {index : Nat} {worker : W}
    (h : workers[index]? = some worker) : ∃ after,
      swapRemove workers index = workers.take index ++ after ∧
      after.Perm (workers.drop (index + 1)) := by
  obtain ⟨hsplit, hlength⟩ := split_at h
  have hremoved := swapRemove_split (workers.take index) worker (workers.drop (index + 1))
  rwa [← hsplit, hlength] at hremoved

theorem swapRemove_perm {workers : List W} {index : Nat} {worker : W}
    (h : workers[index]? = some worker) : workers.Perm (worker :: swapRemove workers index) := by
  obtain ⟨after, hremoved, hperm⟩ := swapRemove_at h
  have hmoved : workers.Perm (worker :: (workers.take index ++ workers.drop (index + 1))) := by
    refine (List.Perm.of_eq (split_at h).1).trans ?_
    exact List.perm_middle
  rw [hremoved]
  exact hmoved.trans ((hperm.symm.append_left _).cons worker)

theorem swapRemove_length {workers : List W} {index : Nat} {worker : W}
    (h : workers[index]? = some worker) :
    (swapRemove workers index).length + 1 = workers.length := by
  have hperm := (swapRemove_perm h).length_eq
  rw [hperm, List.length_cons]

/-! ## 2. The pass -/

/-- A reaping pass over the vector from an index on. -/
inductive Pass : List W → Nat → List (W × Bool) → List W → Prop where
  | done {workers : List W} {index : Nat} (h : workers.length ≤ index) : Pass workers index [] workers
  | keep {workers : List W} {index : Nat} {worker : W} {seen : List (W × Bool)} {kept : List W}
      (h : workers[index]? = some worker) (rest : Pass workers (index + 1) seen kept) :
      Pass workers index ((worker, false) :: seen) kept
  | remove {workers : List W} {index : Nat} {worker : W} {seen : List (W × Bool)} {kept : List W}
      (h : workers[index]? = some worker) (rest : Pass (swapRemove workers index) index seen kept) :
      Pass workers index ((worker, true) :: seen) kept

/-- The workers that the pass found finished, and the others. -/
def finished (seen : List (W × Bool)) : List W := (seen.filter (·.2)).map (·.1)

def unfinished (seen : List (W × Bool)) : List W := (seen.filter (!·.2)).map (·.1)

variable {workers kept : List W} {index : Nat} {seen : List (W × Bool)}

/-- The pass examines every worker from the index on, and each once. -/
theorem Pass.examined (h : Pass workers index seen kept) :
    (seen.map (·.1)).Perm (workers.drop index) := by
  induction h with
  | done h => simp [List.drop_of_length_le h]
  | @keep workers index worker seen kept h _ ih =>
      obtain ⟨hlt, rfl⟩ := List.getElem?_eq_some_iff.mp h
      rw [List.drop_eq_getElem_cons hlt]
      exact ih.cons _
  | @remove workers index worker seen kept h _ ih =>
      obtain ⟨after, hremoved, hperm⟩ := swapRemove_at h
      have hdrop : (swapRemove workers index).drop index = after := by
        rw [hremoved, List.drop_left' (split_at h).2]
      rw [hdrop] at ih
      obtain ⟨hlt, rfl⟩ := List.getElem?_eq_some_iff.mp h
      rw [List.drop_eq_getElem_cons hlt]
      exact (ih.trans hperm).cons _

/-- It keeps the workers before the index and those it found unfinished, and no other. -/
theorem Pass.keeps (h : Pass workers index seen kept) :
    kept.Perm (workers.take index ++ unfinished seen) := by
  induction h with
  | done h => simp [unfinished, List.take_of_length_le h]
  | @keep workers index worker seen kept h _ ih =>
      obtain ⟨hlt, rfl⟩ := List.getElem?_eq_some_iff.mp h
      rw [List.take_succ_eq_append_getElem hlt, List.append_assoc] at ih
      exact ih
  | @remove workers index worker seen kept h _ ih =>
      obtain ⟨after, hremoved, _⟩ := swapRemove_at h
      have htake : (swapRemove workers index).take index = workers.take index := by
        rw [hremoved, List.take_left' (split_at h).2]
      rw [htake] at ih
      simpa [unfinished] using ih

/-- A pass examines as many workers as there are from its index on. -/
theorem Pass.length (h : Pass workers index seen kept) :
    seen.length = workers.length - index := by
  simpa using h.examined.length_eq

/-- There is always a pass: one that finds no worker finished. -/
theorem Pass.exists (workers : List W) (index : Nat) : ∃ seen kept, Pass workers index seen kept := by
  induction hn : workers.length - index generalizing index with
  | zero => exact ⟨[], workers, .done (by omega)⟩
  | succ n ih =>
      obtain ⟨seen, kept, hpass⟩ := ih (index + 1) (by omega)
      have hlt : index < workers.length := by omega
      exact ⟨_, kept, .keep (List.getElem?_eq_getElem hlt) hpass⟩

end Vector

/-! ## 3. The pass of a loop -/

section Rounds

variable {Op : Type} {Ans : Op → Type} {L R W : Type} {body : L → Prog Op Ans (L ⊕ R)}

/-- A loop that reaps: where its pass stands, where it goes on, and its events. -/
structure Reaper (body : L → Prog Op Ans (L ⊕ R)) (W : Type) where
  head : List W → Nat → L
  after : List W → L
  found : W → Bool → Event Op Ans
  joined : W → Event Op Ans
  /-- Behind the last worker the pass is over; -/
  behind : ∀ {workers : List W} {index : Nat}, workers.length ≤ index →
    body (head workers index) = .ret (.inl (after workers))
  /-- before that a worker is examined, and joined where it is found finished. -/
  round : ∀ {workers : List W} {index : Nat} {worker : W} {e : Event Op Ans}
    {es : List (Event Op Ans)} {q : Prog Op Ans (L ⊕ R)}, workers[index]? = some worker →
    Trace body (body (head workers index)) (e :: es) q →
      (e = found worker false ∧ Trace body (.ret (.inl (head workers (index + 1)))) es q) ∨
      (e = found worker true ∧ ∀ e' es', es = e' :: es' → e' = joined worker ∧
        Trace body (.ret (.inl (head (swapRemove workers index) index))) es' q)

namespace Reaper

variable (r : Reaper body W)

/-- The events of one worker in a pass. -/
def examine : W × Bool → List (Event Op Ans)
  | (worker, false) => [r.found worker false]
  | (worker, true) => [r.found worker true, r.joined worker]

def events (seen : List (W × Bool)) : List (Event Op Ans) := seen.flatMap r.examine

theorem events_cons (worker : W × Bool) (seen : List (W × Bool)) :
    r.events (worker :: seen) = r.examine worker ++ r.events seen := rfl

theorem events_length (seen : List (W × Bool)) : (r.events seen).length ≤ 2 * seen.length := by
  induction seen with
  | nil => simp [events]
  | cons worker seen ih =>
      obtain ⟨worker, finished⟩ := worker
      rw [events_cons, List.length_append, List.length_cons]
      cases finished <;> simp only [examine, List.length_cons, List.length_nil] <;> omega

/-- What a pass over these workers examines and keeps: every worker is examined once, with at most
    two events; those found finished are removed, and every other is kept. -/
structure Whole (workers : List W) (seen : List (W × Bool)) (kept : List W) : Prop where
  examined : (seen.map (·.1)).Perm workers
  keeps : kept.Perm (unfinished seen)
  removes : workers.Perm (finished seen ++ kept)
  short : (r.events seen).length ≤ 2 * workers.length

/-- The events are the beginning of those of the pass, or go on after it with what it keeps. -/
def Follows (seen : List (W × Bool)) (kept : List W) (es : List (Event Op Ans))
    (q : Prog Op Ans (L ⊕ R)) : Prop :=
  es <+: r.events seen ∨
    ∃ rest, es = r.events seen ++ rest ∧ Trace body (.ret (.inl (r.after kept))) rest q

def Passed (workers : List W) (index : Nat) (es : List (Event Op Ans)) (q : Prog Op Ans (L ⊕ R)) :
    Prop :=
  ∃ seen kept, Pass workers index seen kept ∧ r.Follows seen kept es q

variable {r} {workers kept : List W} {index : Nat} {worker : W} {seen : List (W × Bool)}
  {es : List (Event Op Ans)} {q : Prog Op Ans (L ⊕ R)}

/-- A pass from the first worker on is over all of them. -/
theorem whole (h : Pass workers 0 seen kept) : r.Whole workers seen kept := by
  have hexamined : (seen.map (·.1)).Perm workers := h.examined
  have hkept : kept.Perm (unfinished seen) := h.keeps
  refine ⟨hexamined, hkept, ?_, ?_⟩
  · have hseen : (finished seen ++ unfinished seen).Perm (seen.map (·.1)) := by
      rw [finished, unfinished, ← List.map_append]
      exact (List.filter_append_perm _ seen).map _
    exact hexamined.symm.trans (hseen.symm.trans (hkept.symm.append_left _))
  · have hevents := r.events_length seen
    have hlength := h.length
    omega

/-- What follows on the first examined worker, where it is in turn. -/
theorem Follows.cons (worker : W × Bool) (h : r.Follows seen kept es q) :
    r.Follows (worker :: seen) kept (r.examine worker ++ es) q := by
  unfold Follows
  rw [events_cons]
  rcases h with hwithin | ⟨rest, rfl, htrace⟩
  · exact Or.inl ((List.prefix_append_right_inj _).mpr hwithin)
  · exact Or.inr ⟨rest, (List.append_assoc _ _ _).symm, htrace⟩

theorem Passed.begun (workers : List W) (index : Nat) (q : Prog Op Ans (L ⊕ R)) :
    r.Passed workers index [] q := by
  obtain ⟨seen, kept, hpass⟩ := Pass.exists workers index
  exact ⟨seen, kept, hpass, Or.inl List.nil_prefix⟩

/-- The pass goes on over a worker that it found unfinished, -/
theorem Passed.keep (h : workers[index]? = some worker) (hrest : r.Passed workers (index + 1) es q) :
    r.Passed workers index (r.examine (worker, false) ++ es) q := by
  obtain ⟨seen, kept, hpass, hfollows⟩ := hrest
  exact ⟨_, kept, .keep h hpass, hfollows.cons _⟩

/-- or over one that it removed. -/
theorem Passed.remove (h : workers[index]? = some worker)
    (hrest : r.Passed (swapRemove workers index) index es q) :
    r.Passed workers index (r.examine (worker, true) ++ es) q := by
  obtain ⟨seen, kept, hpass, hfollows⟩ := hrest
  exact ⟨_, kept, .remove h hpass, hfollows.cons _⟩

/-- Every trace from the head of a pass is one of a pass. -/
theorem pass (ht : Trace body (.ret (.inl (r.head workers index))) es q) :
    r.Passed workers index es q := by
  -- each examined worker leaves one fewer from the index on, kept or removed
  induction hn : workers.length - index generalizing workers index es with
  | zero =>
      cases ht with
      | here => exact .begun workers index _
      | again ht =>
          rw [r.behind (by omega)] at ht
          exact ⟨[], workers, .done (by omega), Or.inr ⟨es, rfl, ht⟩⟩
  | succ n ih =>
      have hlt : index < workers.length := by omega
      have hworker := List.getElem?_eq_getElem hlt
      cases ht with
      | here => exact .begun workers index _
      | again ht =>
          cases es with
          | nil => exact .begun workers index _
          | cons e es =>
              rcases r.round hworker ht with ⟨rfl, hrest⟩ | ⟨rfl, hrest⟩
              · exact (ih hrest (by omega)).keep hworker
              · cases es with
                | nil =>
                    obtain ⟨seen, kept, hpass⟩ := Pass.exists (swapRemove workers index) index
                    refine ⟨_, kept, .remove hworker hpass, Or.inl ?_⟩
                    rw [events_cons]
                    exact ⟨_, rfl⟩
                | cons e' es =>
                    obtain ⟨rfl, hnext⟩ := hrest e' es rfl
                    have hlength := swapRemove_length hworker
                    exact (ih hnext (by omega)).remove hworker

/-- What a thread of a system does from the head of a pass over all its workers on. -/
theorem run {σ : Type} {S : System Op Ans L R σ} (r : Reaper S.body W) {c c' : Pool Op Ans L R σ}
    {t : Nat} {th th' : Thread Op Ans L R} (hr : Reach S c c') (ht : c.threads t = some th)
    (hl : th.rest = .ret (.inl (r.head workers 0))) (ht' : c'.threads t = some th') :
    ∃ es seen kept, th'.hist = th.hist ++ es ∧ r.Whole workers seen kept ∧
      r.Follows seen kept es th'.rest := by
  obtain ⟨th'', es, ht'', hhist, htrace⟩ := hr.thread_trace ht
  rw [ht'] at ht''
  cases ht''
  rw [hl] at htrace
  obtain ⟨seen, kept, hpass, hfollows⟩ := r.pass htrace
  exact ⟨es, seen, kept, hhist, r.whole hpass, hfollows⟩

end Reaper

end Rounds

/-! ## 4. The account of a history -/

section Accounts

variable {Op : Type} {Ans : Op → Type} {W : Type}

/-- Which events spawn a worker, and which join one. -/
structure Crew (Op : Type) (Ans : Op → Type) (W : Type) where
  spawns : Event Op Ans → Option W
  joins : Event Op Ans → Option W

namespace Crew

variable (crew : Crew Op Ans W)

def spawned (h : List (Event Op Ans)) : List W := h.filterMap crew.spawns

def joined (h : List (Event Op Ans)) : List W := h.filterMap crew.joins

/-- What was spawned is what was joined and what is kept. -/
def Balanced (h : List (Event Op Ans)) (kept : List W) : Prop :=
  (crew.joined h ++ kept).Perm (crew.spawned h)

/-- Only a worker that is kept is joined. -/
def Place (h : List (Event Op Ans)) (o : Op) : Prop :=
  ∀ a worker, crew.joins ⟨o, a⟩ = some worker → ∃ kept, crew.Balanced h (worker :: kept)

variable {crew} {h : List (Event Op Ans)} {e : Event Op Ans} {kept kept' : List W} {worker : W}

theorem spawned_snoc (h : List (Event Op Ans)) (e : Event Op Ans) :
    crew.spawned (h ++ [e]) = crew.spawned h ++ (crew.spawns e).toList := by
  cases hs : crew.spawns e <;> simp [spawned, hs]

theorem joined_snoc (h : List (Event Op Ans)) (e : Event Op Ans) :
    crew.joined (h ++ [e]) = crew.joined h ++ (crew.joins e).toList := by
  cases hj : crew.joins e <;> simp [joined, hj]

theorem balanced_nil : crew.Balanced [] [] := List.Perm.nil

/-- One event: what it spawns comes to the kept workers, and what it joins leaves them. -/
theorem Balanced.step (hb : crew.Balanced h kept)
    (hkept : (kept ++ (crew.spawns e).toList).Perm ((crew.joins e).toList ++ kept')) :
    crew.Balanced (h ++ [e]) kept' := by
  rw [Balanced, spawned_snoc, joined_snoc, List.append_assoc]
  refine (hkept.symm.append_left (crew.joined h)).trans ?_
  rw [← List.append_assoc]
  exact hb.append_right _

theorem Balanced.quiet (hb : crew.Balanced h kept) (hs : crew.spawns e = none)
    (hj : crew.joins e = none) : crew.Balanced (h ++ [e]) kept :=
  hb.step (by simp [hs, hj])

theorem Balanced.spawn (hb : crew.Balanced h kept) (hs : crew.spawns e = some worker)
    (hj : crew.joins e = none) : crew.Balanced (h ++ [e]) (kept ++ [worker]) :=
  hb.step (by simp [hs, hj])

theorem Balanced.join (hb : crew.Balanced h kept) (hs : crew.spawns e = none)
    (hj : crew.joins e = some worker) (hkept : kept.Perm (worker :: kept')) :
    crew.Balanced (h ++ [e]) kept' :=
  hb.step (by simpa [hs, hj] using hkept)

theorem Balanced.perm (hb : crew.Balanced h kept) (hkept : kept'.Perm kept) :
    crew.Balanced h kept' :=
  (hkept.append_left _).trans hb

/-- Where only kept workers are joined, some are kept after every history. -/
theorem exists_balanced (hi : Issued crew.Place h) : ∃ kept, crew.Balanced h kept := by
  refine issued_induction (P := fun h => ∃ kept, crew.Balanced h kept) ⟨[], balanced_nil⟩ ?_ h hi
  intro h e _ hp ⟨kept, hb⟩
  cases hj : crew.joins e with
  | none =>
      have hkept : crew.Balanced (h ++ [e]) (kept ++ (crew.spawns e).toList) :=
        hb.step (by simp [hj])
      exact ⟨_, hkept⟩
  | some worker =>
      obtain ⟨others, hb⟩ := hp e.ans worker hj
      have hkept : crew.Balanced (h ++ [e]) (others ++ (crew.spawns e).toList) :=
        hb.step (by simp [hj])
      exact ⟨_, hkept⟩

/-- Where every spawned worker has a name of its own, none is joined twice, and none that was not
    spawned. -/
theorem joined_once (hi : Issued crew.Place h) (hd : (crew.spawned h).Nodup) :
    (crew.joined h).Nodup ∧ crew.joined h ⊆ crew.spawned h := by
  obtain ⟨kept, hb⟩ := exists_balanced hi
  have hall : (crew.joined h ++ kept).Nodup := hb.nodup_iff.mpr hd
  exact ⟨(List.nodup_append.mp hall).1,
    fun worker hin => hb.mem_iff.mp (List.mem_append_left _ hin)⟩

/-- Where none is kept any more, every spawned worker is joined. -/
theorem Balanced.joined_all (hb : crew.Balanced h []) :
    (crew.joined h).Perm (crew.spawned h) := by
  rwa [Balanced, List.append_nil] at hb

end Crew

end Accounts

end Reap
