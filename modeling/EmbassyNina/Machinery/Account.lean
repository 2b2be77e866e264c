import EmbassyNina.Machinery.Prog

/-!
# Machinery/Account — programs that account for what goes wrong in their runs

`fault` tells which answered requests are faults, and `f` which faults a result reports.  A program
`Accounts` for its faults when whatever its result reports are faults of the run, in their order;
and all of them, if the result is one of those that are `kept`.  `Accounts.bind` is the rule of
sequential composition: what the first half reports is handed on untouched, or there is nothing to
report and the second half goes on.
-/

namespace Machinery

open Prog

variable {S : Sig} {ε α β : Type} {fault : Event S → Option ε} {kept : α → Prop}
  {kept' R : β → Prop} {f : α → List ε} {g : β → List ε}

/-- A run of `p` that is over has met no fault, and its result satisfies `R`. -/
def Quiet (fault : Event S → Option ε) (R : β → Prop) (p : Prog S β) : Prop :=
  ∀ tr b, Steps p tr (.ret b) → tr.filterMap fault = [] ∧ R b

/-- **What a result reports are faults of the run**, and all of them if the result is `kept`. -/
def Accounts (fault : Event S → Option ε) (kept : α → Prop) (f : α → List ε) (p : Prog S α) :
    Prop :=
  ∀ tr a, Steps p tr (.ret a) →
    (f a).Sublist (tr.filterMap fault) ∧ (kept a → f a = tr.filterMap fault)

theorem Quiet.ret {b : β} (h : R b) : Quiet fault R (.ret b) := by
  intro tr b' hrun
  obtain ⟨rfl, rfl⟩ := hrun.done
  exact ⟨rfl, h⟩

/-- A request that is never a fault. -/
theorem Quiet.calm {e : S.Eff} {k : S.Ans e → Prog S β} (he : ∀ r, fault ⟨e, r⟩ = none)
    (hk : ∀ r, Quiet fault R (k r)) : Quiet fault R (.ask e k) := by
  intro tr b hrun
  obtain _ | ⟨r, hrun⟩ := hrun
  obtain ⟨hnone, hb⟩ := hk r _ _ hrun
  exact ⟨(List.filterMap_cons_none (he r)).trans hnone, hb⟩

namespace Accounts

theorem ret {a : α} (h : f a = []) : Accounts fault kept f (.ret a) := by
  intro tr a' hrun
  obtain ⟨rfl, rfl⟩ := hrun.done
  rw [h]
  exact ⟨.refl _, fun _ => rfl⟩

theorem halt (w : Halt) : Accounts fault kept f (.halt w) := fun _ _ h =>
  absurd (Steps.halt_iff.mp h).2 (by simp)

/-- **One program after another.** -/
theorem bind {p : Prog S α} {k : α → Prog S β} (hp : Accounts fault kept f p)
    (hk : ∀ a, Quiet fault (fun b => g b = f a ∧ (kept' b → kept a)) (k a) ∨
      f a = [] ∧ (∀ b, kept' b → kept a) ∧ Accounts fault kept' g (k a)) :
    Accounts fault kept' g (p.bind k) := by
  intro tr b hrun
  obtain ⟨a, t₁, t₂, h₁, h₂, rfl⟩ := Steps.exists_of_bind hrun
  obtain ⟨hsub, hall⟩ := hp t₁ a h₁
  rw [List.filterMap_append]
  obtain hquiet | ⟨hnone, hkeep, hgo⟩ := hk a
  · obtain ⟨hfaults, hb, hkeep⟩ := hquiet t₂ b h₂
    rw [hfaults, hb, List.append_nil]
    exact ⟨hsub, fun h => hall (hkeep h)⟩
  · obtain ⟨hsub', hall'⟩ := hgo t₂ b h₂
    refine ⟨hsub'.trans (List.sublist_append_right _ _), fun h => ?_⟩
    rw [← hall (hkeep b h), hnone, List.nil_append]
    exact hall' h

/-- A request that is never a fault. -/
theorem calm {e : S.Eff} {k : S.Ans e → Prog S α} (he : ∀ r, fault ⟨e, r⟩ = none)
    (hk : ∀ r, Accounts fault kept f (k r)) : Accounts fault kept f (.ask e k) := by
  intro tr a hrun
  obtain _ | ⟨r, hrun⟩ := hrun
  rw [List.filterMap_cons_none (he r)]
  exact hk r _ _ hrun

/-- A request, and what is made of its answer. -/
theorem ask {e : S.Eff} {k : S.Ans e → Prog S α} (v : S.Ans e → α) (hk : ∀ r, k r = .ret (v r))
    (h : ∀ r, f (v r) = (fault ⟨e, r⟩).toList) : Accounts fault kept f (.ask e k) := by
  intro tr a hrun
  obtain rfl : k = fun r => .ret (v r) := funext hk
  obtain _ | ⟨r, hrun⟩ := hrun
  obtain ⟨rfl, rfl⟩ := Steps.done hrun
  have hone : f (v r) = [(⟨e, r⟩ : Event S)].filterMap fault := by
    rw [h, List.filterMap_cons, List.filterMap_nil]
    cases fault ⟨e, r⟩ <;> rfl
  exact ⟨hone ▸ .refl _, fun _ => hone⟩

/-- **A list of programs**, one after the other: each result reports in its turn. -/
theorem mapM {ι : Type} {kept : ι → α → Prop} {p : ι → Prog S α} {is : List ι}
    (h : ∀ i ∈ is, Accounts fault (kept i) f (p i)) :
    Accounts fault (List.Forall₂ kept is) (List.flatMap f) (is.mapM p) := by
  induction is with
  | nil => exact ret rfl
  | cons i is ih =>
    obtain ⟨hi, his⟩ := List.forall_mem_cons.mp h
    intro tr as hrun
    rw [List.mapM_cons] at hrun
    obtain ⟨a, t₁, t, h₁, hrest, rfl⟩ := Steps.exists_of_bind hrun
    obtain ⟨as', t₂, t₃, h₂, hret, rfl⟩ := Steps.exists_of_bind hrest
    obtain ⟨rfl, rfl⟩ := Steps.done hret
    obtain ⟨hsub, hall⟩ := hi t₁ a h₁
    obtain ⟨hsubs, halls⟩ := ih his t₂ as' h₂
    rw [List.append_nil, List.filterMap_append, List.flatMap_cons]
    refine ⟨hsub.append hsubs, fun hkept => ?_⟩
    obtain ⟨ha, has⟩ := List.forall₂_cons.mp hkept
    rw [hall ha, halls has]

end Accounts

end Machinery
