import EmbassyNina.Link.Release
import EmbassyNina.Stack.Slots

/-!
# Stack/Leases — which slots the sockets keep

A connect that succeeds keeps the slot it was granted, and nothing gives it back: reads and writes
neither reserve nor release, and a socket that is dropped sends nothing.  So at every point where no
call is in progress, the slots granted and not stopped are as many as the sockets ever minted, alive
or dropped: `NinaStack.held_length`.
-/

namespace EmbassyNina

open Machinery Prog

variable {C E : Type} {K : Chip C} {calls : ℕ → Call}

/-! ## What a section reserves -/

/-- A connect that succeeds holds one slot more. -/
theorem Attempt.held_ok {name : Option (List UInt8)} {log before : List (Exchange C)}
    {sock : Socket} (h : Attempt (E := E) name log (.ok sock)) :
    held (before ++ log) = sock.raw :: held before := by
  obtain ⟨pre, g, start, polls, rfl, hpre, hg, ⟨ip, port, mode, hstart⟩, -, hpolls⟩ :=
    h.ok_cases rfl
  obtain ⟨hsg, hss⟩ := Exchange.of_startFrame hstart
  rw [held_append, List.foldl_append, List.foldl_append,
    foldl_hold_eq_self fun ex hex => ⟨(hpre ex hex).granted, (hpre ex hex).stopped⟩,
    List.foldl_cons, List.foldl_cons, List.foldl_nil, Exchange.hold_of_granted hg,
    Exchange.hold_eq_self hsg hss,
    foldl_hold_eq_self fun ex hex => Exchange.of_stateFrame (hpolls ex hex)]

theorem held_eq_self {log : List (Exchange C)} (before : List (Exchange C))
    (h : ∀ ex ∈ log, opcode ex.request ≠ cmdGetSocket ∧ opcode ex.request ≠ cmdStopClientTcp) :
    held (before ++ log) = held before := by
  rw [held_append, foldl_hold_eq_self fun ex hex =>
    ⟨Exchange.granted_eq_none (h ex hex).1, Exchange.stopped_eq_none (h ex hex).2⟩]

/-- **A section that does not fail a connect** holds a slot more for the socket it mints, if any. -/
theorem Call.Spec.held_mints {call : Call} {log : List (Exchange C)} {p : Prog (halSig E) (Ret E)}
    (h : call.Spec log p) (hok : ∀ e, p ≠ .ret (.socket (.error e))) (before : List (Exchange C))
    (i : ℕ) (line : Link C) :
    (held (before ++ log)).length = (held before).length + (World.mints i line p).length := by
  rcases h.attempt_or with ⟨e | sock, rfl, hattempt⟩ | ⟨hoff, hnot⟩
  · exact absurd rfl (hok e)
  · rw [hattempt.held_ok]
    rfl
  · rw [held_eq_self before fun ex hex => ⟨(hoff ex hex).1, (hoff ex hex).2.2⟩,
      World.mints_eq_nil hnot]
    rfl

namespace World

/-! ## Runs -/

/-- The sockets that have not been dropped. -/
def alive (w : World E C) : List (Minted C) := w.minted.filter fun m => m.call ∉ w.dropped

/-- No call is in progress. -/
def Quiescent (w : World E C) : Prop := ∀ i p, w.pool.task i = some p → ∃ a, p = .ret a

/-- Every connect that has returned has succeeded. -/
def ConnectsSucceed (w : World E C) : Prop :=
  ∀ i e, w.pool.task i ≠ some (.ret (.socket (.error e)))

/-- Sockets are dropped once, after they were minted. -/
structure Drops (w : World E C) : Prop where
  nodup : w.dropped.Nodup
  minted : ∀ conn ∈ w.dropped, conn ∈ w.minted.map Minted.call

theorem Drops.next {w w' : World E C} (hd : w.Drops) (h : Next K calls w w') : w'.Drops := by
  rcases h with _ | _ | _ | _ | _ | ⟨⟨m, hm, rfl⟩, hnew⟩
  · exact hd
  · exact ⟨hd.nodup, hd.minted⟩
  · exact ⟨hd.nodup, hd.minted⟩
  · exact ⟨hd.nodup, hd.minted⟩
  · refine ⟨hd.nodup, fun conn hconn => ?_⟩
    rw [List.map_append]
    exact List.mem_append_left _ (hd.minted conn hconn)
  · exact ⟨List.nodup_cons.mpr ⟨hnew, hd.nodup⟩,
      List.forall_mem_cons.mpr ⟨List.mem_map.mpr ⟨m, hm, rfl⟩, hd.minted⟩⟩

/-- Every socket is alive or was dropped. -/
theorem length_alive {w : World E C} (hd : w.Drops) (hnodup : (w.minted.map Minted.call).Nodup) :
    w.alive.length + w.dropped.length = w.minted.length := by
  have hperm : ((w.minted.map Minted.call).filter (· ∈ w.dropped)).Perm w.dropped := by
    refine (List.perm_ext_iff_of_nodup (hnodup.filter _) hd.nodup).mpr fun conn => ?_
    rw [List.mem_filter, decide_eq_true_iff]
    exact and_iff_right_of_imp (hd.minted conn)
  have hdropped := hperm.length_eq
  rw [List.filter_map, List.length_map] at hdropped
  have hsplit := w.minted.length_eq_length_filter_add fun m => m.call ∈ w.dropped
  have halive : w.minted.filter (fun m => !decide (m.call ∈ w.dropped)) = w.alive := by
    refine List.filter_congr fun m _ => ?_
    rw [decide_not]
  rw [halive] at hsplit
  rw [← hdropped, hsplit, Nat.add_comm]
  rfl

/-- The line as it was when the mutex was last free, given who holds it. -/
def settled : Option (ℕ × Link C) → Link C → Link C
  | some (_, s₀), _ => s₀
  | none, line => line

/-- Sections that are over hold a slot for each socket, if no connect has failed. -/
def Leased (w : World E C) : Prop :=
  w.ConnectsSucceed → (held (settled w.pool.holder w.link).log).length = w.minted.length

theorem ConnectsSucceed.of_start {w : World E C} {i : ℕ} {p : Prog (halSig E) (Ret E)}
    (htask : ∀ a, w.pool.task i ≠ some (.ret a))
    (h : ∀ j e, (w.pool.start i p).task j ≠ some (.ret (.socket (.error e)))) :
    w.ConnectsSucceed := by
  intro j e hj
  by_cases hji : j = i
  · subst hji
    exact htask _ hj
  · exact h j e ((Pool.start_of_ne _ hji p).trans hj)

theorem Leased.next {w w' : World E C} (hl : w.Leased) (h : Next K calls w w') : w'.Leased := by
  rcases h with _ | ⟨hnew, -⟩ | ⟨⟨e, k, htask⟩, -, hholder⟩ | ⟨⟨e, k, htask⟩, -, hheld, -, -⟩ |
    ⟨⟨e, k, htask⟩, hheld, log, hlog, hspec⟩ | _
  · exact hl
  · exact fun hok => hl (.of_start (fun a ha => absurd (hnew.symm.trans ha) nofun) hok)
  · rename_i i p holder
    intro hok
    have hw := hl (.of_start (fun a ha => absurd (htask.symm.trans ha) nofun) hok)
    rcases hholder with rfl | ⟨hfree, rfl⟩
    · exact hw
    · rw [hfree] at hw
      exact hw
  · intro hok
    have hw := hl (.of_start (fun a ha => absurd (htask.symm.trans ha) nofun) hok)
    change (held (settled w.pool.holder _).log).length = _
    rw [hheld] at hw ⊢
    exact hw
  · rename_i i p s₀
    intro hok
    have hw := hl (.of_start (fun a ha => absurd (htask.symm.trans ha) nofun) hok)
    rw [hheld, settled] at hw
    have hp : ∀ e, p ≠ .ret (.socket (.error e)) := fun e he =>
      hok i e (he ▸ w.pool.start_self i p)
    have hlength := hspec.held_mints hp s₀.log i w.link
    rw [← hlog, hw, ← List.length_append] at hlength
    exact hlength
  · exact hl

end World

/-- Where only one call was started and it has minted a socket, nothing is in progress. -/
theorem World.task_of_minted {c : C} {acts : List Action} {m : Minted C}
    (hm : m ∈ (World.run K calls c acts : World E C).minted)
    (honly : ∀ i, .start i ∈ acts → i = m.call) {i : ℕ} {p : Prog (halSig E) (Ret E)}
    (h : (World.run K calls c acts : World E C).pool.task i = some p) :
    p = .ret (.socket (.ok m.sock)) := by
  have hstart : .start i ∈ acts :=
    World.start_mem_of_task fun hnone => absurd (h.symm.trans hnone) nofun
  have hret := (World.invariant (E := E) K calls c acts).2.2.returned m hm
  rw [← honly i hstart, h] at hret
  exact Option.some.inj hret

open World in
/-- **A socket keeps its slot for good.**  In a run in which no connect fails, whenever no call is
in progress the slots that were granted and not stopped are as many as the sockets alive and the
sockets dropped. -/
theorem NinaStack.held_length (K : Chip C) (calls : ℕ → Call) (c : C) (acts : List Action)
    (hquiet : (run K calls c acts : World E C).Quiescent)
    (hok : (run K calls c acts : World E C).ConnectsSucceed) :
    (held (run K calls c acts : World E C).link.log).length =
      (run K calls c acts : World E C).alive.length +
        (run K calls c acts : World E C).dropped.length := by
  obtain ⟨hordered, hinv, hsockets⟩ := invariant (E := E) K calls c acts
  obtain ⟨-, hdrops, hleased⟩ : (run K calls c acts : World E C).Ordered K calls ∧
      (run K calls c acts : World E C).Drops ∧ (run K calls c acts : World E C).Leased :=
    run_induction (P := fun w => w.Drops ∧ w.Leased) ⟨⟨List.nodup_nil, nofun⟩, fun _ => rfl⟩
      (fun _ _ _ hn h => ⟨h.1.next hn, h.2.next hn⟩) acts
  generalize (run K calls c acts : World E C) = w at *
  have hfree : w.pool.holder = none := by
    rcases hheld : w.pool.holder with _ | ⟨i, s₀⟩
    · rfl
    · obtain ⟨e, k, htask⟩ := Pool.Ordered.ask_of_holder hordered hheld
      obtain ⟨a, ha⟩ := hquiet i _ htask
      exact absurd ha nofun
  have hlength := hleased hok
  rw [hfree, settled] at hlength
  rw [length_alive hdrops hsockets.nodup]
  exact hlength

/-- A connect is made, and its socket dropped. -/
def leakyActs : List Action := inTurn [0] ++ [.drop 0]

/-- A world with one connection, whose socket is gone. -/
def leakyWorld : World Unit Slots := World.run reusingChip staleCalls (Slots.fresh 4) leakyActs

theorem mem_leakyActs {i : ℕ} (h : Action.start i ∈ leakyActs) : i = 0 := by
  simpa [leakyActs, inTurn] using h

/-- Only the connect was called, and it has succeeded. -/
theorem task_leakyWorld {i : ℕ} {p : Prog (halSig Unit) (Ret Unit)}
    (h : leakyWorld.pool.task i = some p) : ∃ sock, p = .ret (.socket (.ok sock)) := by
  obtain ⟨m, hm, hcall⟩ : ∃ m ∈ leakyWorld.minted, m.call = 0 := by decide +kernel
  rw [leakyWorld] at h hm
  exact ⟨m.sock, World.task_of_minted hm (fun i hi => (mem_leakyActs hi).trans hcall.symm) h⟩

theorem quiescent_leakyWorld : leakyWorld.Quiescent := fun i p h => by
  obtain ⟨sock, rfl⟩ := task_leakyWorld h
  exact ⟨_, rfl⟩

theorem connectsSucceed_leakyWorld : leakyWorld.ConnectsSucceed := fun i e h => by
  obtain ⟨sock, hsock⟩ := task_leakyWorld h
  exact absurd hsock nofun

theorem NinaStack.held_length_leakyWorld :
    (held leakyWorld.link.log).length = leakyWorld.alive.length + 1 := by
  have hdropped : leakyWorld.dropped.length = 1 := by decide +kernel
  have hquiet := quiescent_leakyWorld
  have hok := connectsSucceed_leakyWorld
  rw [← hdropped]
  rw [leakyWorld] at hquiet hok ⊢
  exact NinaStack.held_length reusingChip staleCalls (Slots.fresh 4) leakyActs hquiet hok

/-- **A dropped socket keeps its slot**: one slot is held for no socket alive. -/
theorem NinaStack.leaks_leakyWorld : leakyWorld.Quiescent ∧ leakyWorld.ConnectsSucceed ∧
    ¬ (held leakyWorld.link.log).length ≤ leakyWorld.alive.length := by
  refine ⟨quiescent_leakyWorld, connectsSucceed_leakyWorld, ?_⟩
  decide +kernel

end EmbassyNina
