import EmbassyNina.Machinery.Pool
import Mathlib.Algebra.Order.BigOperators.Group.List

/-!
# Machinery/Cost — what a program spends, in all and under a lock

Every request has a cost, in some ordered monoid.  `Costs cost b p` bounds what a run of `p` spends,
however it is answered and however far it gets.  `sections` cuts what was asked into what was asked
each time that a lock was held, and `Keeps` bounds these one by one: a program inside the lock
brings its own bound (`Keeps.enter`), and the rest is free.

The bounds add up along a program (`Costs.bindE`), a loop's as often as it may turn
(`Costs.repeatFor`).  A task of a pool asks for what a run of its program asks for
(`Pool.steps_turn`), so that a bound on its program is one on the task, whatever the others do.
-/

namespace Machinery

open Prog

variable {S : Sig} {σ ι α β ε M : Type} [AddCommMonoid M] {cost : S.Eff → M} {a b : M}

/-- What some requests cost. -/
def spent (cost : S.Eff → M) (es : List S.Eff) : M := (es.map cost).sum

theorem spent_append (es es' : List S.Eff) :
    spent cost (es ++ es') = spent cost es + spent cost es' := by
  rw [spent, List.map_append, List.sum_append]
  rfl

variable [PartialOrder M]

/-- **No run of `p` spends more than `b`.** -/
def Costs (cost : S.Eff → M) (b : M) (p : Prog S α) : Prop :=
  ∀ tr q, Steps p tr q → spent cost (tr.map Event.eff) ≤ b

theorem Costs.mono {p : Prog S α} (hp : Costs cost a p) (h : a ≤ b) : Costs cost b p :=
  fun tr q hrun => (hp tr q hrun).trans h

/-! ## Under a lock -/

/-- What a run asks for, its program may ask for. -/
theorem asked_of_does {P : S.Eff → Prop} {Q : α → Prop} {p q : Prog S α} {tr : List (Event S)}
    (hrun : Steps p tr q) (hp : p.Does P Q) : ∀ e ∈ tr.map Event.eff, P e := by
  induction hrun with
  | refl p => exact List.forall_mem_nil _
  | ask r _ ih => exact List.forall_mem_cons.mpr ⟨hp.1, ih (hp.2 r)⟩

section Lock

variable [DecidableEq S.Eff] {acquire release : S.Eff}

/-- **What is asked for under the lock**, each time that it is held; `held` is what has been asked
for since it was taken, if it is held now. -/
def sectionsFrom (acquire release : S.Eff) : Option (List S.Eff) → List S.Eff → List (List S.Eff)
  | none, [] => []
  | some held, [] => [held]
  | none, e :: es =>
    if e = acquire then sectionsFrom acquire release (some []) es
    else sectionsFrom acquire release none es
  | some held, e :: es =>
    if e = release then held :: sectionsFrom acquire release none es
    else sectionsFrom acquire release (some (held ++ [e])) es

/-- The sections of what is asked for by one who does not hold the lock. -/
abbrev sections (acquire release : S.Eff) : List S.Eff → List (List S.Eff) :=
  sectionsFrom acquire release none

theorem sectionsFrom_inside {held es rest : List S.Eff} (h : ∀ e ∈ es, e ≠ release) :
    sectionsFrom acquire release (some held) (es ++ rest) =
      sectionsFrom acquire release (some (held ++ es)) rest := by
  induction es generalizing held with
  | nil => rw [List.nil_append, List.append_nil]
  | cons e es ih =>
    obtain ⟨he, hes⟩ := List.forall_mem_cons.mp h
    rw [List.cons_append, sectionsFrom, if_neg he, ih hes, List.append_assoc]
    rfl

/-- The lock is never given back. -/
theorem sectionsFrom_open {held es : List S.Eff} (h : ∀ e ∈ es, e ≠ release) :
    sectionsFrom acquire release (some held) es = [held ++ es] := by
  have hopen : sectionsFrom acquire release (some held) (es ++ []) = [held ++ es] :=
    sectionsFrom_inside h
  rwa [List.append_nil] at hopen

/-- **No section of a run of `p` spends more than `b`.** -/
def Keeps (acquire release : S.Eff) (cost : S.Eff → M) (b : M) (p : Prog S α) : Prop :=
  ∀ tr q, Steps p tr q → ∀ sec ∈ sections acquire release (tr.map Event.eff), spent cost sec ≤ b

namespace Keeps

theorem ret (x : α) : Keeps acquire release cost b (.ret x) := by
  intro tr q hrun
  obtain ⟨rfl, -⟩ := Steps.ret_iff.mp hrun
  exact List.forall_mem_nil _

theorem halt (w : Halt) : Keeps acquire release cost b (.halt w : Prog S α) := by
  intro tr q hrun
  obtain ⟨rfl, -⟩ := Steps.halt_iff.mp hrun
  exact List.forall_mem_nil _

/-- What is asked for without the lock. -/
theorem apart {e : S.Eff} {k : S.Ans e → Prog S α} (he : e ≠ acquire)
    (hk : ∀ r, Keeps acquire release cost b (k r)) : Keeps acquire release cost b (.ask e k) := by
  intro tr q hrun
  obtain _ | ⟨r, hrun⟩ := hrun
  · exact List.forall_mem_nil _
  · rw [List.map_cons, sections, sectionsFrom, if_neg he]
    exact hk r _ _ hrun

/-- **A section**, and what follows it. -/
theorem enter {p : Prog S α} {f : α → Prog S β} (hp : Costs cost b p)
    (hinside : p.Does (· ≠ release) fun _ => True)
    (hf : ∀ x, Keeps acquire release cost b (f x)) :
    Keeps acquire release cost b
      (.ask acquire fun _ => p.bind fun x => .ask release fun _ => f x) := by
  intro tr q hrun
  obtain _ | ⟨_, hrun⟩ := hrun
  · exact List.forall_mem_nil _
  rw [List.map_cons, sections, sectionsFrom, if_pos rfl]
  obtain ⟨p', hrun, -, -⟩ | ⟨x, t₁, t₂, h₁, h₂, rfl⟩ := Steps.bind_cases hrun
  · rw [sectionsFrom_open (asked_of_does hrun hinside), List.nil_append]
    exact List.forall_mem_singleton.mpr (hp _ _ hrun)
  · rw [List.map_append, sectionsFrom_inside (asked_of_does h₁ hinside), List.nil_append]
    obtain _ | ⟨_, h₂⟩ := h₂
    · exact List.forall_mem_singleton.mpr (hp _ _ h₁)
    · rw [List.map_cons, sectionsFrom, if_pos rfl]
      exact List.forall_mem_cons.mpr ⟨hp _ _ h₁, hf x _ _ h₂⟩

end Keeps

end Lock

/-! ## Bounds that add up -/

namespace Costs

variable [CanonicallyOrderedAdd M]

theorem ret (x : α) : Costs cost b (.ret x) := by
  intro tr q hrun
  obtain ⟨rfl, -⟩ := Steps.ret_iff.mp hrun
  exact zero_le

theorem halt (w : Halt) : Costs cost b (.halt w : Prog S α) := by
  intro tr q hrun
  obtain ⟨rfl, -⟩ := Steps.halt_iff.mp hrun
  exact zero_le

variable [IsOrderedAddMonoid M]

theorem ask {e : S.Eff} {k : S.Ans e → Prog S α} (hk : ∀ r, Costs cost b (k r)) :
    Costs cost (cost e + b) (.ask e k) := by
  intro tr q hrun
  obtain _ | ⟨r, hrun⟩ := hrun
  · exact zero_le
  · exact add_le_add_right (hk r _ _ hrun) (cost e)

/-- Requests that cost nothing. -/
theorem of_free {P : S.Eff → Prop} {Q : α → Prop} {p : Prog S α} (hp : p.Does P Q)
    (hfree : ∀ e, P e → cost e = 0) : Costs cost 0 p := by
  induction p with
  | ret x => exact ret x
  | halt w => exact halt w
  | ask e k ih =>
    have hask := ask fun r => ih r (hp.2 r)
    rwa [hfree e hp.1, add_zero] at hask

/-- **One program after another.** -/
theorem bind {p : Prog S α} {f : α → Prog S β} (hp : Costs cost a p)
    (hf : ∀ x, Costs cost b (f x)) : Costs cost (a + b) (p.bind f) := by
  intro tr q hrun
  obtain ⟨p', hrun, -, -⟩ | ⟨x, t₁, t₂, h₁, h₂, rfl⟩ := Steps.bind_cases hrun
  · exact (hp tr p' hrun).trans (le_add_right le_rfl)
  · rw [List.map_append, spent_append]
    exact add_le_add (hp t₁ _ h₁) (hf x t₂ q h₂)

/-- What comes after is free. -/
theorem bind_free {p : Prog S α} {f : α → Prog S β} (hp : Costs cost b p)
    (hf : ∀ x, Costs cost 0 (f x)) : Costs cost b (p.bind f) := by
  have hbind := hp.bind hf
  rwa [add_zero] at hbind

theorem post {p : Prog S α} (hp : Costs cost b p) (f : α → β) :
    Costs cost b (p.bind fun x => .ret (f x)) := hp.bind_free fun _ => ret _

/-- One after another, while both succeed. -/
theorem bindE {x : ExceptT ε (Prog S) α} {f : α → ExceptT ε (Prog S) β}
    (hx : Costs cost a x.run) (hf : ∀ v, Costs cost b (f v).run) :
    Costs cost (a + b) (x >>= f).run := by
  rw [run_bind_eq]
  refine hx.bind fun r => ?_
  cases r with
  | ok v => exact hf v
  | error e => exact ret _

/-- **Loops**, turn by turn. -/
theorem repeatFor {body : ExceptT ε (Prog S) (Option α)} {after : ExceptT ε (Prog S) α}
    (hbody : Costs cost a body.run) (hafter : Costs cost b after.run) (n : ℕ) :
    Costs cost (n • a + b) (repeatFor n body after).run := by
  induction n with
  | zero =>
    rw [zero_nsmul, zero_add]
    exact hafter
  | succ n ih =>
    rw [succ_nsmul', add_assoc]
    refine bindE hbody fun o => ?_
    cases o with
    | some v => exact ret _
    | none => exact ih

end Costs

/-! ## Tasks of a pool -/

namespace Pool

variable [DecidableEq ι] [DecidableEq S.Eff] {H : Env S σ} {L : Lock H} {P : Pool S σ ι α} {i : ι}

/-- What task `i` asks for in a turn, unless it has to wait for the lock. -/
def asks (L : Lock H) (P : Pool S σ ι α) (i : ι) : List S.Eff :=
  match P.task i with
  | some (.ask e _) => if e = L.acquire ∧ P.holder.isSome then [] else [e]
  | _ => []

/-- **A turn of a task is a step of its program**, or none. -/
theorem steps_turn {p : Prog S α} (hp : P.task i = some p) :
    ∃ tr q, (P.turn L i).task i = some q ∧ Steps p tr q ∧ tr.map Event.eff = P.asks L i := by
  cases p with
  | ret x => exact ⟨[], .ret x, by rw [turn, hp, hp], .refl _, by rw [asks, hp]; rfl⟩
  | halt w => exact ⟨[], .halt w, by rw [turn, hp, hp], .refl _, by rw [asks, hp]; rfl⟩
  | ask e k =>
    have hasks : P.asks L i = if e = L.acquire ∧ P.holder.isSome then [] else [e] := by
      rw [asks, hp]
    by_cases hwait : e = L.acquire ∧ P.holder.isSome
    · refine ⟨[], .ask e k, ?_, .refl _, by rw [hasks, if_pos hwait]; rfl⟩
      rw [turn, hp]
      simp only [if_pos hwait.1, if_pos hwait.2, hp]
    · refine ⟨[⟨e, (H.answer P.env e).1⟩], k (H.answer P.env e).1, ?_, .ask _ (.refl _),
        by rw [hasks, if_neg hwait]; rfl⟩
      have hself : ∀ holder, (P.request H i e k holder).task i = some (k (H.answer P.env e).1) :=
        fun holder => Function.update_self ..
      rw [turn, hp]
      dsimp only
      split
      · rename_i hacquire
        rw [if_neg fun hheld => hwait ⟨hacquire, hheld⟩, hself]
      · split <;> exact hself _

end Pool

end Machinery
