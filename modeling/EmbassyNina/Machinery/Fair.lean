import EmbassyNina.Machinery.Pool
import Mathlib.Data.Fintype.Order
import Mathlib.Order.WellFounded

/-!
# Machinery/Fair — a pool whose tasks all get their turns comes to rest

What is left of a task gets smaller with every answer (`Prog.Later`), and that order is well
founded, so finitely many tasks can move only finitely often, whatever they are answered
(`exists_still`).  In an ordered pool whoever holds the lock can go on, so that no task is still
waiting then: along every fair schedule all tasks come to their end (`Pool.Fair.rest`).
-/

namespace Machinery

open Prog

/-! ## Descents -/

variable {X : Type} {r : X → X → Prop}

/-- A sequence that only ever goes down stops somewhere. -/
theorem exists_still_of_wf (hr : WellFounded r) {f : ℕ → X}
    (hstep : ∀ n, f (n + 1) = f n ∨ r (f (n + 1)) (f n)) : ∃ n, ∀ m, n ≤ m → f m = f n := by
  obtain ⟨x, ⟨n, rfl⟩, hmin⟩ := hr.has_min (Set.range f) ⟨f 0, 0, rfl⟩
  refine ⟨n, fun m hm => ?_⟩
  induction m, hm using Nat.le_induction with
  | base => rfl
  | succ m _ ih =>
    rcases hstep m with hsame | hdown
    · exact hsame.trans ih
    · rw [ih] at hdown
      exact absurd hdown (hmin _ ⟨m + 1, rfl⟩)

/-- …and so do finitely many of them, together. -/
theorem exists_still {ι : Type} [Finite ι] (hr : WellFounded r) {f : ℕ → ι → X}
    (hstep : ∀ n i, f (n + 1) i = f n i ∨ r (f (n + 1) i) (f n i)) :
    ∃ n, ∀ m, n ≤ m → f m = f n := by
  choose stop hstop using fun i =>
    exists_still_of_wf hr (f := fun n => f n i) fun n => hstep n i
  obtain ⟨n, hn⟩ := Finite.exists_le stop
  refine ⟨n, fun m hm => funext fun i => ?_⟩
  exact (hstop i m ((hn i).trans hm)).trans (hstop i n (hn i)).symm

/-! ## What is left of a task -/

variable {S : Sig} {σ ι α : Type} {H : Env S σ}

/-- A task that has begun, or has had one more answer. -/
inductive Prog.Later : Option (Prog S α) → Option (Prog S α) → Prop
  | start (p : Prog S α) : Later (some p) none
  | answer {e : S.Eff} (k : S.Ans e → Prog S α) (r : S.Ans e) : Later (some (k r)) (some (.ask e k))

theorem Prog.later_wf : WellFounded (Later (S := S) (α := α)) := by
  have hsome : ∀ p : Prog S α, Acc Later (some p) := fun p => by
    induction p with
    | ret a => exact .intro _ fun _ h => by cases h
    | halt w => exact .intro _ fun _ h => by cases h
    | ask e k ih =>
      refine .intro _ fun _ h => ?_
      cases h with
      | answer _ r => exact ih r
  refine ⟨fun o => ?_⟩
  cases o with
  | some p => exact hsome p
  | none =>
    refine .intro _ fun _ h => ?_
    cases h with
    | start p => exact hsome p

namespace Pool

variable [DecidableEq ι] [DecidableEq S.Eff] {L : Lock H} {P : Pool S σ ι α} {i : ι}

/-- A turn answers the task's request, unless it has to wait for the lock. -/
theorem turn_moves {e : S.Eff} {k : S.Ans e → Prog S α} (htask : P.task i = some (.ask e k))
    (hgo : ¬ (e = L.acquire ∧ P.holder ≠ none)) :
    (P.turn L i).task i = some (k (H.answer P.env e).1) := by
  have hrequest : ∀ holder, (P.request H i e k holder).task i = some (k (H.answer P.env e).1) :=
    fun holder => Function.update_self ..
  rw [turn, htask]
  dsimp only
  by_cases he : e = L.acquire
  · rw [if_pos he, if_neg fun h => hgo ⟨he, Option.isSome_iff_ne_none.mp h⟩]
    exact hrequest _
  · rw [if_neg he]
    split <;> exact hrequest _

/-- What a turn does to a task: nothing, or it answers the task's request. -/
theorem turn_task (i j : ι) : (P.turn L i).task j = P.task j ∨
    ∃ e k r, P.task j = some (.ask e k) ∧ (P.turn L i).task j = some (k r) := by
  by_cases hj : j = i
  · subst hj
    rcases htask : P.task j with _ | a | w | ⟨e, k⟩
    · rw [turn, htask]
      exact .inl htask
    · rw [turn, htask]
      exact .inl htask
    · rw [turn, htask]
      exact .inl htask
    · by_cases hwait : e = L.acquire ∧ P.holder ≠ none
      · rw [turn, htask]
        dsimp only
        rw [if_pos hwait.1, if_pos (Option.isSome_iff_ne_none.mpr hwait.2)]
        exact .inl htask
      · exact .inr ⟨e, k, _, rfl, turn_moves htask hwait⟩
  · exact .inl (P.turn_of_ne hj)

/-! ## Fair schedules -/

/-- **A fair schedule** of finitely many tasks: at each step one of them begins or takes a turn, or
nothing happens, and each of them gets its turn again and again. -/
structure Fair (L : Lock H) (tasks : Set ι) (P : ℕ → Pool S σ ι α) : Prop where
  few : tasks.Finite
  step : ∀ n, (P (n + 1) = P n ∨ ∃ i p, (P n).task i = none ∧ P (n + 1) = (P n).start i p) ∨
    ∃ i, P (n + 1) = (P n).turn L i
  only : ∀ n i, i ∉ tasks → (P n).task i = none
  again : ∀ i ∈ tasks, ∀ n, ∃ m, n ≤ m ∧ P (m + 1) = (P m).turn L i

variable {tasks : Set ι} {Q : ℕ → Pool S σ ι α} {R : ι → σ → σ → Prog S α → Prop}

theorem Fair.later (h : Fair L tasks Q) (n : ℕ) (i : ι) :
    (Q (n + 1)).task i = (Q n).task i ∨ Later ((Q (n + 1)).task i) ((Q n).task i) := by
  rcases h.step n with (hsame | ⟨j, p, hnew, hstart⟩) | ⟨j, hturn⟩
  · exact .inl (by rw [hsame])
  · rw [hstart]
    by_cases hi : i = j
    · subst hi
      rw [start_self, hnew]
      exact .inr (.start p)
    · exact .inl ((Q n).start_of_ne hi p)
  · rw [hturn]
    rcases turn_task (L := L) (P := Q n) j i with hsame | ⟨e, k, r, htask, hmoved⟩
    · exact .inl hsame
    · rw [htask, hmoved]
      exact .inr (.answer k r)

/-- **Along a fair schedule all tasks come to their end**, and the lock to be free. -/
theorem Fair.rest (h : Fair L tasks Q) (hord : ∀ n, (Q n).Ordered L R) :
    ∃ n, ∀ m, n ≤ m → (Q m).holder = none ∧
      ∀ i p, (Q m).task i = some p → (∃ a, p = .ret a) ∨ p = .halt .fuel := by
  have := h.few.to_subtype
  obtain ⟨n, hn⟩ := exists_still later_wf (f := fun n (i : tasks) => (Q n).task i)
    fun n i => h.later n i
  have hstill : ∀ m, n ≤ m → ∀ i, (Q m).task i = (Q n).task i := fun m hm i => by
    by_cases hi : i ∈ tasks
    · exact congrFun (hn m hm) ⟨i, hi⟩
    · rw [h.only m i hi, h.only n i hi]
  have hmem : ∀ {m i p}, (Q m).task i = some p → i ∈ tasks := fun {m i p} hp =>
    by_contra fun hi => absurd (hp.symm.trans (h.only m i hi)) nofun
  -- a task that does not move at its turn is waiting for the lock
  have hwaits : ∀ m, n ≤ m → ∀ i e k, (Q m).task i = some (.ask e k) →
      e = L.acquire ∧ ∃ l, m ≤ l ∧ (Q l).holder ≠ none := fun m hm i e k htask => by
    obtain ⟨l, hl, hturn⟩ := h.again i (hmem htask) m
    have htask' : (Q l).task i = some (.ask e k) :=
      (hstill l (hm.trans hl) i).trans ((hstill m hm i).symm.trans htask)
    by_contra hgo
    have hmoves := turn_moves (L := L) htask' fun hw => hgo ⟨hw.1, l, hl, hw.2⟩
    rw [← hturn, hstill (l + 1) (hm.trans (hl.trans (Nat.le_succ l))), ← hstill l (hm.trans hl),
      htask'] at hmoves
    exact later_wf.irrefl.irrefl _ (hmoves ▸ Later.answer k _)
  -- so nobody holds it: he would be inside his section
  have hfree : ∀ m, n ≤ m → (Q m).holder = none := fun m hm => by
    rcases hheld : (Q m).holder with _ | ⟨i, s₀⟩
    · rfl
    · obtain ⟨p, hp, hhold⟩ := (hord m).holding i s₀ hheld
      obtain ⟨e, k, rfl, ⟨hin, -⟩ | ⟨rfl, -⟩⟩ := hhold.ask_cases
      · exact absurd (hwaits m hm i e k hp).1 hin.1
      · exact absurd (hwaits m hm i _ k hp).1 L.acquire_ne_release.symm
  refine ⟨n, fun m hm => ⟨hfree m hm, fun i p hp => ?_⟩⟩
  cases p with
  | ret a => exact .inl ⟨a, rfl⟩
  | ask e k =>
    obtain ⟨-, l, hl, hheld⟩ := hwaits m hm i e k hp
    exact absurd (hfree l (hm.trans hl)) hheld
  | halt w =>
    have hguarded := (hord m).guarded i _ hp
      (fun s₀ hs => absurd (hs.symm.trans (hfree m hm)) nofun) nofun
    cases hguarded with
    | fuel => exact .inr rfl

end Pool

end Machinery
