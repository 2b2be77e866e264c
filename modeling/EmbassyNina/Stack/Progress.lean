import EmbassyNina.Exchange.Totality
import EmbassyNina.Machinery.Fair
import EmbassyNina.Stack.Whole

/-!
# Stack/Progress — every call returns

A connect, a lookup or a write has only bounded loops (`Call.total`), and whoever holds the chip
mutex can always go on.  So if finitely many calls each get their turn again and again, the mutex
comes free for good and each of them returns, whatever the chip answers and in whatever order the
turns come (`World.all_return`): no call deadlocks, and none starves.
-/

namespace EmbassyNina

open Machinery Prog

variable {C E : Type} {K : Chip C} {calls : ℕ → Call}

/-- A call with no unbounded loop returns, whatever it is answered. -/
theorem Call.total {call : Call} (h : call.Single) : (call.prog (E := E)).Total := by
  cases call with
  | connect mode remote =>
    exact ((NinaStack.exchanges_connect mode remote).total
      (NinaStack.fuelled_connect mode remote)).bind fun _ => trivial
  | connectHostname mode hostname port =>
    exact ((NinaStack.exchanges_connectHostname mode hostname port).total
      (NinaStack.fuelled_connectHostname mode hostname port)).bind fun _ => trivial
  | getHostByName host addrType =>
    exact ((NinaStack.exchanges_getHostByName host addrType).total
      (NinaStack.fuelled_getHostByName host addrType)).bind fun _ => trivial
  | read conn sock fuel buf => exact h.elim
  | write conn sock buf =>
    exact ((Exchanges.lockedN (Nina.exchanges_tcpSend sock buf)).total
      (Fuelled.lockedN (Nina.fuelled_tcpSend sock buf))).bind fun _ => trivial

namespace World

variable {w : World E C} {i : ℕ}

theorem pool_turn (i : ℕ) : (w.turn K i).pool = w.pool.turn (chipMutex E K) i := by
  rcases htask : w.pool.task i with _ | a | h | ⟨e, k⟩
  · rw [turn, htask, Pool.turn, htask]
  · rw [turn, htask, Pool.turn, htask]
  · rw [turn, htask, Pool.turn, htask]
  · obtain ⟨p, hp⟩ : ∃ p, (w.pool.turn (chipMutex E K) i).task i = some p := by
      rcases Pool.turn_task (L := chipMutex E K) (P := w.pool) i i with hsame | ⟨_, k, r, _, hp⟩
      · exact ⟨_, hsame.trans htask⟩
      · exact ⟨_, hp⟩
    rw [turn, htask, hp]

/-- The pool begins one call, takes a turn, or stays. -/
theorem pool_next (K : Chip C) (calls : ℕ → Call) (w : World E C) (act : Action) :
    ((w.next K calls act).pool = w.pool ∨ ∃ i, act = .start i ∧ w.pool.task i = none ∧
      (w.next K calls act).pool = w.pool.start i (calls i).prog) ∨
    ∃ i, act = .turn i ∧ (w.next K calls act).pool = w.pool.turn (chipMutex E K) i := by
  cases act with
  | start i =>
    rw [next]
    split
    · exact .inl (.inr ⟨i, rfl, Option.isNone_iff_eq_none.mp (by assumption : _ ∧ _).1, rfl⟩)
    · exact .inl (.inl rfl)
  | drop conn =>
    rw [next]
    split <;> exact .inl (.inl rfl)
  | turn i => exact .inr ⟨i, rfl, pool_turn i⟩

/-- Calls without an unbounded loop still have none. -/
def Returning (calls : ℕ → Call) (w : World E C) : Prop :=
  ∀ i p, (calls i).Single → w.pool.task i = some p → p.Total

theorem Returning.next (h : w.Returning calls) (act : Action) :
    (w.next K calls act).Returning calls := by
  intro i p hsingle hp
  rcases pool_next K calls w act with
    (hsame | ⟨j, -, -, hstart⟩) | ⟨j, -, hturn⟩
  · rw [hsame] at hp
    exact h i p hsingle hp
  · rw [hstart] at hp
    by_cases hi : i = j
    · subst hi
      obtain rfl := Option.some.inj ((Pool.start_self ..).symm.trans hp)
      exact Call.total hsingle
    · exact h i p hsingle ((w.pool.start_of_ne hi _).symm.trans hp)
  · rw [hturn] at hp
    rcases Pool.turn_task (L := chipMutex E K) (P := w.pool) j i with hsame | ⟨e, k, r, htask, hk⟩
    · exact h i p hsingle (hsame.symm.trans hp)
    · obtain rfl := Option.some.inj (hk.symm.trans hp)
      exact h i _ hsingle htask r

/-! ## Schedules -/

/-- The world after the first `n` actions of a schedule. -/
def along (K : Chip C) (calls : ℕ → Call) (c : C) (sched : ℕ → Action) (n : ℕ) : World E C :=
  run K calls c ((List.range n).map sched)

variable {c : C} {sched : ℕ → Action}

theorem along_succ (n : ℕ) :
    (along K calls c sched (n + 1) : World E C) =
      (along K calls c sched n).next K calls (sched n) := by
  rw [along, List.range_succ, List.map_append, run, List.foldl_append]
  rfl

theorem ordered_along (n : ℕ) : (along K calls c sched n : World E C).Ordered K calls :=
  (run_induction (P := fun _ => True) trivial (fun _ _ _ _ _ => trivial) _).1

theorem returning_along (n : ℕ) : (along K calls c sched n : World E C).Returning calls := by
  induction n with
  | zero => exact fun i p _ hp => absurd hp nofun
  | succ n ih =>
    rw [along_succ]
    exact ih.next _

/-- The calls that a schedule starts. -/
def started (sched : ℕ → Action) : Set ℕ := {i | ∃ n, sched n = .start i}

/-- **Every call returns.**  Let finitely many calls be started, each of which gets its turn again
and again.  Then from some time on the mutex is free, and each call has returned, whatever the chip
has answered; only a read may have used up its unrolling instead. -/
theorem all_return (K : Chip C) (calls : ℕ → Call) (c : C) (sched : ℕ → Action)
    (hfew : (started sched).Finite)
    (hfair : ∀ i ∈ started sched, ∀ n, ∃ m, n ≤ m ∧ sched m = .turn i) :
    ∃ n, ∀ m, n ≤ m → (along K calls c sched m : World E C).pool.holder = none ∧
      ∀ i p, (along K calls c sched m : World E C).pool.task i = some p →
        (∃ a, p = .ret a) ∨ ¬ (calls i).Single ∧ p = .halt .fuel := by
  have hfairPool : Pool.Fair (chipMutex E K) (started sched)
      fun n => (along K calls c sched n : World E C).pool := {
    few := hfew
    step := fun n => by
      rw [along_succ]
      exact (pool_next K calls _ (sched n)).imp
        (Or.imp_right fun ⟨i, _, hnew, hstart⟩ => ⟨i, _, hnew, hstart⟩)
        fun ⟨i, _, hturn⟩ => ⟨i, hturn⟩
    only := fun n i hi => by
      by_contra htask
      obtain ⟨m, -, hm⟩ := List.mem_map.mp (start_mem_of_task htask)
      exact hi ⟨m, hm⟩
    again := fun i hi n => by
      obtain ⟨m, hm, hturn⟩ := hfair i hi n
      refine ⟨m, hm, ?_⟩
      rw [along_succ, hturn]
      exact pool_turn i }
  obtain ⟨n, hn⟩ := hfairPool.rest ordered_along
  refine ⟨n, fun m hm => ⟨(hn m hm).1, fun i p hp => ?_⟩⟩
  rcases (hn m hm).2 i p hp with hret | rfl
  · exact .inl hret
  · exact .inr ⟨fun hsingle => returning_along m i _ hsingle hp, rfl⟩

/-- Two calls start, and from then on take turns. -/
def alternately : ℕ → Action
  | 0 => .start 0
  | 1 => .start 1
  | n + 2 => .turn (n % 2)

theorem lt_two_of_started : ∀ i ∈ started alternately, i < 2
  | _, ⟨0, h⟩ => Action.start.inj h ▸ by decide
  | _, ⟨1, h⟩ => Action.start.inj h ▸ by decide
  | _, ⟨_ + 2, h⟩ => absurd h nofun

/-- A connect by hostname and a lookup, turn by turn, both return. -/
theorem all_return_alternately :
    ∃ n, ∀ m, n ≤ m → ∀ i p, (along (E := Unit) reusingChip lookupCalls (Slots.fresh 9) alternately
      m).pool.task i = some p → ∃ a, p = .ret a := by
  have hsingle : ∀ i, (lookupCalls i).Single
    | 0 => trivial
    | _ + 1 => trivial
  have hfair : ∀ i ∈ started alternately, ∀ n, ∃ m, n ≤ m ∧ alternately m = .turn i :=
    fun i hi n => by
      have hlt := lt_two_of_started i hi
      refine ⟨2 * n + i + 2, by omega, ?_⟩
      rw [alternately]
      congr 1
      omega
  obtain ⟨n, hn⟩ := all_return (E := Unit) reusingChip lookupCalls (Slots.fresh 9) alternately
    ((Set.finite_lt_nat 2).subset lt_two_of_started) hfair
  exact ⟨n, fun m hm i p hp => ((hn m hm).2 i p hp).resolve_right fun h => h.1 (hsingle i)⟩

end World

end EmbassyNina
