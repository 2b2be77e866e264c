import EmbassyNina.Machinery.Exec

/-!
# Machinery/Refine — a program in one environment, done by another in another

A `Simulation` sets an environment beside a more abstract one, and says which states of the two are
alike.  `M.Refines V p q` says that `p` below does what `q` does above: from states that are alike
they stop alike, or return results that `V` relates, and leave states that are alike again.

The rules follow the programs: `Refines.bind` for sequences, `RefinesE.bind` for `?`,
`RefinesE.repeatFor` for loops.  What one request does below is all that is left to prove.
-/

namespace Machinery

variable {S T : Sig} {σ τ α β γ δ ε : Type}

/-- An environment, a more abstract one, and which of their states are alike. -/
structure Simulation (S T : Sig) (σ τ : Type) where
  below : Env S σ
  above : Env T τ
  alike : σ → τ → Prop

/-- Both have stopped alike, or their results are related. -/
def Outcome.Alike (V : α → β → Prop) : Outcome α → Outcome β → Prop
  | .done a, .done b => V a b
  | .stopped w, .stopped w' => w = w'
  | _, _ => False

/-- Both have failed alike, or their results are related. -/
def ExceptAlike (V : α → β → Prop) : Except ε α → Except ε β → Prop
  | .ok a, .ok b => V a b
  | .error e, .error e' => e = e'
  | _, _ => False

theorem exceptAlike_eq {r r' : Except ε α} : ExceptAlike Eq r r' ↔ r = r' := by
  cases r <;> cases r' <;> simp [ExceptAlike]

theorem ExceptAlike.map {V : α → β → Prop} {W : γ → δ → Prop} {f : α → γ} {g : β → δ}
    {r : Except ε α} {r' : Except ε β} (h : ExceptAlike V r r')
    (hV : ∀ a b, V a b → W (f a) (g b)) : ExceptAlike W (r.map f) (r'.map g) := by
  cases r <;> cases r' <;> first | exact h.elim | exact h | exact hV _ _ h

theorem Outcome.alike_eq {o o' : Outcome α} : o.Alike Eq o' ↔ o = o' := by
  cases o <;> cases o' <;> simp [Outcome.Alike]

namespace Simulation

variable (M : Simulation S T σ τ)

/-- **`p` does below what `q` does above.** -/
def Refines (V : α → β → Prop) (p : Prog S α) (q : Prog T β) : Prop :=
  ∀ s t, M.alike s t → (M.below.exec p s).1.Alike V (M.above.exec q t).1 ∧
    M.alike (M.below.exec p s).2 (M.above.exec q t).2

/-- The same of programs that may fail. -/
def RefinesE (V : α → β → Prop) (x : ExceptT ε (Prog S) α) (y : ExceptT ε (Prog T) β) : Prop :=
  M.Refines (ExceptAlike V) x.run y.run

variable {M} {V : α → β → Prop} {W : γ → δ → Prop}

namespace Refines

theorem ret {a : α} {b : β} (h : V a b) : M.Refines V (.ret a) (.ret b) := fun _ _ hst => ⟨h, hst⟩

theorem halt (w : Halt) : M.Refines V (.halt w) (.halt w) := fun _ _ hst => ⟨rfl, hst⟩

theorem mono {V' : α → β → Prop} {p : Prog S α} {q : Prog T β} (hp : M.Refines V p q)
    (h : ∀ a b, V a b → V' a b) : M.Refines V' p q := by
  intro s t hst
  obtain ⟨hout, hst'⟩ := hp s t hst
  refine ⟨?_, hst'⟩
  generalize (M.below.exec p s).1 = o at hout ⊢
  generalize (M.above.exec q t).1 = o' at hout ⊢
  cases o <;> cases o' <;> first | exact hout.elim | exact hout | exact h _ _ hout

/-- **One program after another.** -/
theorem bind {p : Prog S α} {q : Prog T β} {f : α → Prog S γ} {g : β → Prog T δ}
    (hp : M.Refines V p q) (hf : ∀ a b, V a b → M.Refines W (f a) (g b)) :
    M.Refines W (p.bind f) (q.bind g) := by
  intro s t hst
  obtain ⟨hout, hst'⟩ := hp s t hst
  rw [Env.exec_bind, Env.exec_bind]
  generalize M.below.exec p s = x at hout hst' ⊢
  generalize M.above.exec q t = y at hout hst' ⊢
  obtain ⟨o, s'⟩ := x
  obtain ⟨o', t'⟩ := y
  cases o with
  | done a =>
    cases o' with
    | done b => exact hf a b hout s' t' hst'
    | stopped w => exact hout.elim
  | stopped w =>
    cases o' with
    | done b => exact hout.elim
    | stopped w' => exact ⟨hout, hst'⟩

/-- Requests that are answered alike. -/
theorem ask {e : S.Eff} {e' : T.Eff} {k : S.Ans e → Prog S α} {k' : T.Ans e' → Prog T β}
    (Va : S.Ans e → T.Ans e' → Prop)
    (hans : ∀ s t, M.alike s t → Va (M.below.answer s e).1 (M.above.answer t e').1 ∧
      M.alike (M.below.answer s e).2 (M.above.answer t e').2)
    (hk : ∀ r r', Va r r' → M.Refines V (k r) (k' r')) :
    M.Refines V (.ask e k) (.ask e' k') := fun s t hst =>
  hk _ _ (hans s t hst).1 _ _ (hans s t hst).2

/-- **A list of programs**, one after the other. -/
theorem mapM {ι : Type} {f : ι → Prog S α} {g : ι → Prog T β} {is : List ι}
    (h : ∀ i ∈ is, M.Refines V (f i) (g i)) :
    M.Refines (List.Forall₂ V) (is.mapM f) (is.mapM g) := by
  induction is with
  | nil => exact ret .nil
  | cons i is ih =>
    obtain ⟨hi, his⟩ := List.forall_mem_cons.mp h
    rw [List.mapM_cons, List.mapM_cons]
    refine bind hi fun a b hab => bind (ih his) fun as bs habs => ?_
    exact ret (.cons hab habs)

end Refines

namespace RefinesE

theorem pure {a : α} {b : β} (h : V a b) :
    M.RefinesE (ε := ε) V (Pure.pure a) (Pure.pure b) := Refines.ret h

theorem throw (e : ε) : M.RefinesE V (MonadExcept.throw e : ExceptT ε (Prog S) α)
    (MonadExcept.throw e : ExceptT ε (Prog T) β) :=
  Refines.ret (show ExceptAlike V (.error e) (.error e) from rfl)

/-- **One after another**, while both succeed. -/
theorem bind {x : ExceptT ε (Prog S) α} {y : ExceptT ε (Prog T) β} {f : α → ExceptT ε (Prog S) γ}
    {g : β → ExceptT ε (Prog T) δ} (hx : M.RefinesE V x y)
    (hf : ∀ a b, V a b → M.RefinesE W (f a) (g b)) : M.RefinesE W (x >>= f) (y >>= g) := by
  rw [RefinesE, run_bind_eq, run_bind_eq]
  refine Refines.bind hx fun r r' h => ?_
  cases r with
  | ok a =>
    cases r' with
    | ok b => exact hf a b h
    | error e => exact h.elim
  | error e =>
    cases r' with
    | ok b => exact h.elim
    | error e' => exact Refines.ret h

/-- What is handed over instead of failing. -/
theorem attempt {x : ExceptT ε (Prog S) α} {y : ExceptT ε (Prog T) β} (hx : M.RefinesE V x y) :
    M.RefinesE (ExceptAlike V) (Machinery.attempt x) (Machinery.attempt y) :=
  Refines.bind hx fun r r' h =>
    Refines.ret (show ExceptAlike (ExceptAlike V) (.ok r) (.ok r') from h)

/-- **Loops**, turn by turn. -/
theorem repeatFor {body : ExceptT ε (Prog S) (Option α)} {body' : ExceptT ε (Prog T) (Option β)}
    {after : ExceptT ε (Prog S) α} {after' : ExceptT ε (Prog T) β}
    (hbody : M.RefinesE (Option.Rel V) body body') (hafter : M.RefinesE V after after') (n : ℕ) :
    M.RefinesE V (Machinery.repeatFor n body after) (Machinery.repeatFor n body' after') := by
  induction n with
  | zero => exact hafter
  | succ n ih =>
    refine bind hbody fun o o' h => ?_
    cases h with
    | some hab => exact pure hab
    | none => exact ih

end RefinesE

end Simulation

end Machinery
