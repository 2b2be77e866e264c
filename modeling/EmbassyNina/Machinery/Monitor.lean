import EmbassyNina.Machinery.Prog

/-!
# Machinery/Monitor — automata that watch a program's requests

A `Monitor` reads a trace and either moves on or reports a violation; the answers it considers
possible are part of it, so that one automaton can be run against an environment that may fail or
one that may not.  `Monitor.Safe Q p s` is the weakest precondition: from `s`, whatever possible
answers `p` gets, it never draws a violation, and it returns only in states allowed by `Q`.

`Safe.steps` is soundness: a safe program's every trace is accepted, and what is left of the
program is safe from the state reached.
-/

namespace Machinery

open Prog

/-- An automaton over the events of `S`: which answers are possible, and where each event leads
(`none`: the program has broken the rule). -/
structure Monitor (S : Sig) (σ : Type) where
  may : (e : S.Eff) → S.Ans e → Prop
  next : σ → (e : S.Eff) → S.Ans e → Option σ

namespace Monitor

variable {S : Sig} {σ α β ε : Type} (M : Monitor S σ)

/-- The state after a trace, if nothing in it breaks the rule. -/
def run (s : σ) : List (Event S) → Option σ
  | [] => some s
  | ev :: tr => (M.next s ev.eff ev.ans).bind fun s' => run s' tr

/-- Every answer of the trace is one the monitor considers possible. -/
def Possible (tr : List (Event S)) : Prop := ∀ ev ∈ tr, M.may ev.eff ev.ans

/-- **The weakest precondition** of `p` for never breaking the rule, never panicking, and returning
in `Q`. -/
def Safe (Q : α → σ → Prop) : Prog S α → σ → Prop
  | .ret a, s => Q a s
  | .halt h, _ => h = .fuel
  | .ask e k, s => ∀ r, M.may e r → ∃ s', M.next s e r = some s' ∧ Safe Q (k r) s'

@[simp] theorem run_nil (s : σ) : M.run s [] = some s := rfl

theorem run_append (s : σ) (t₁ t₂ : List (Event S)) :
    M.run s (t₁ ++ t₂) = (M.run s t₁).bind fun s' => M.run s' t₂ := by
  induction t₁ generalizing s with
  | nil => rfl
  | cons ev t₁ ih =>
    simp only [List.cons_append, run, Option.bind_assoc]
    exact congrArg _ (funext ih)

theorem possible_cons {ev : Event S} {tr : List (Event S)} :
    M.Possible (ev :: tr) ↔ M.may ev.eff ev.ans ∧ M.Possible tr := List.forall_mem_cons

theorem possible_append {t₁ t₂ : List (Event S)} :
    M.Possible (t₁ ++ t₂) ↔ M.Possible t₁ ∧ M.Possible t₂ := List.forall_mem_append

variable {M}

@[simp] theorem safe_ret {Q : α → σ → Prop} {a : α} {s : σ} : M.Safe Q (.ret a) s ↔ Q a s := .rfl

@[simp] theorem safe_halt {Q : α → σ → Prop} {h : Halt} {s : σ} :
    M.Safe Q (.halt h) s ↔ h = .fuel := .rfl

theorem Safe.mono {Q Q' : α → σ → Prop} (hQ : ∀ a s, Q a s → Q' a s) {p : Prog S α} {s : σ}
    (h : M.Safe Q p s) : M.Safe Q' p s := by
  induction p generalizing s with
  | ret a => exact hQ a s h
  | halt w => exact h
  | ask e k ih =>
    intro r hr
    obtain ⟨s', hs, h'⟩ := h r hr
    exact ⟨s', hs, ih r h'⟩

/-- **The rule of invariants.**  A program whose requests all satisfy `P` keeps what `P` keeps. -/
theorem safe_of_does {P : S.Eff → Prop} {Q : α → Prop} {I : σ → Prop}
    (hP : ∀ s e r, I s → P e → M.may e r → ∃ s', M.next s e r = some s' ∧ I s') {p : Prog S α}
    (hp : p.Does P Q) {s : σ} (hs : I s) : M.Safe (fun a s => Q a ∧ I s) p s := by
  induction p generalizing s with
  | ret a => exact ⟨hp, hs⟩
  | halt h => exact hp
  | ask e k ih =>
    intro r hr
    obtain ⟨s', hs', hI⟩ := hP s e r hs hp.1 hr
    exact ⟨s', hs', ih r (hp.2 r) hI⟩

/-- **The rule of sequential composition.** -/
theorem safe_bind {Q : β → σ → Prop} {p : Prog S α} {f : α → Prog S β} {s : σ} :
    M.Safe Q (p.bind f) s ↔ M.Safe (fun a => M.Safe Q (f a)) p s := by
  induction p generalizing s with
  | ret a => exact .rfl
  | halt w => exact .rfl
  | ask e k ih =>
    exact forall_congr' fun r => imp_congr_right fun _ => exists_congr fun s' =>
      and_congr_right fun _ => ih r

/-- **Soundness.**  Along possible answers a safe program's trace is accepted, and the rest of the
program is safe from where it leads. -/
theorem Safe.steps {Q : α → σ → Prop} {p q : Prog S α} {tr : List (Event S)}
    (ht : Steps p tr q) {s : σ} (h : M.Safe Q p s) (hm : M.Possible tr) :
    ∃ s', M.run s tr = some s' ∧ M.Safe Q q s' := by
  induction ht generalizing s with
  | refl p => exact ⟨s, rfl, h⟩
  | ask r _ ih =>
    obtain ⟨hr, hm⟩ := (M.possible_cons).mp hm
    obtain ⟨s', hs, h'⟩ := h r hr
    obtain ⟨s'', hrun, hq⟩ := ih h' hm
    refine ⟨s'', ?_, hq⟩
    simp only [run, hs, Option.bind_some, hrun]

/-! ## Programs that may fail -/

/-- The rule of sequential composition under `?`: an error skips the second half. -/
theorem safe_run_bind {Q : Except ε β → σ → Prop} {x : ExceptT ε (Prog S) α}
    {f : α → ExceptT ε (Prog S) β} {s : σ} :
    M.Safe Q (x >>= f).run s ↔
      M.Safe (fun r s' => match r with
        | .ok a => M.Safe Q (f a).run s'
        | .error e => Q (.error e) s') x.run s := by
  rw [run_bind_eq, safe_bind]
  constructor <;> refine Safe.mono fun r s' hr => ?_ <;> cases r <;> exact hr

end Monitor

end Machinery
