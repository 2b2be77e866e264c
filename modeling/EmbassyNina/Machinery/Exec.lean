import EmbassyNina.Machinery.Prog

/-!
# Machinery/Exec — running a program in an environment

An `Env` answers every request from a state of its own, and `exec` runs a program in it to its end.
Whatever a program does in some environment is one of its runs (`steps_trace`), so a statement about
all runs is one about all environments, and an environment that computes is a source of runs.
-/

namespace Machinery

/-- An environment with state `σ`. -/
structure Env (S : Sig) (σ : Type) where
  answer : σ → (e : S.Eff) → S.Ans e × σ

/-- How a run ended. -/
inductive Outcome (α : Type)
  | done (a : α)
  | stopped (h : Halt)
deriving DecidableEq, Repr

namespace Outcome

variable {S : Sig} {α β : Type}

/-- What is left of a program that has ended so. -/
def prog : Outcome α → Prog S α
  | .done a => .ret a
  | .stopped h => .halt h

/-- Goes on after a result, keeping the state. -/
def andThen {σ : Type} (f : α → σ → Outcome β × σ) : Outcome α × σ → Outcome β × σ
  | (.done a, s) => f a s
  | (.stopped h, s) => (.stopped h, s)

end Outcome

namespace Env

variable {S : Sig} {σ α β ε : Type} (H : Env S σ)

/-- Runs `p` from state `s`. -/
def exec : Prog S α → σ → Outcome α × σ
  | .ret a, s => (.done a, s)
  | .halt h, s => (.stopped h, s)
  | .ask e k, s => exec (k (H.answer s e).1) (H.answer s e).2

/-- The trace of that run. -/
def trace : Prog S α → σ → List (Event S)
  | .ret _, _ | .halt _, _ => []
  | .ask e k, s => ⟨e, (H.answer s e).1⟩ :: trace (k (H.answer s e).1) (H.answer s e).2

@[simp] theorem exec_ret (a : α) (s : σ) : H.exec (.ret a) s = (.done a, s) := rfl

@[simp] theorem exec_halt (h : Halt) (s : σ) :
    H.exec (.halt h : Prog S α) s = (.stopped h, s) := rfl

@[simp] theorem exec_ask (e : S.Eff) (k : S.Ans e → Prog S α) (s : σ) :
    H.exec (.ask e k) s = H.exec (k (H.answer s e).1) (H.answer s e).2 := rfl

theorem exec_bind (p : Prog S α) (f : α → Prog S β) (s : σ) :
    H.exec (p.bind f) s = Outcome.andThen (fun a => H.exec (f a)) (H.exec p s) := by
  induction p generalizing s with
  | ret a => rfl
  | halt h => rfl
  | ask e k ih => exact ih _ _

/-- **What happens in an environment is a run.** -/
theorem steps_trace (p : Prog S α) (s : σ) : p.Steps (H.trace p s) (H.exec p s).1.prog := by
  induction p generalizing s with
  | ret a => exact .refl _
  | halt h => exact .refl _
  | ask e k ih => exact .ask _ (ih _ _)

/-- **A total program returns**, in any environment. -/
theorem exec_done {p : Prog S α} (hp : p.Total) (s : σ) : ∃ a, (H.exec p s).1 = .done a := by
  cases ho : (H.exec p s).1 with
  | done a => exact ⟨a, rfl⟩
  | stopped w =>
    exact absurd (congrArg Outcome.prog ho) ((H.steps_trace p s).ne_halt_of_total hp w)

theorem exists_run {p : Prog S α} (hp : p.Total) (s : σ) : ∃ a, p.Steps (H.trace p s) (.ret a) := by
  obtain ⟨a, ha⟩ := H.exec_done hp s
  have h := H.steps_trace p s
  rw [ha] at h
  exact ⟨a, h⟩

end Env

end Machinery
