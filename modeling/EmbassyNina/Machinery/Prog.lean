import Mathlib.Data.FinEnum
import Mathlib.Tactic.Common

/-!
# Machinery/Prog — programs over a signature of effects, and the traces they leave

A program asks its environment for effects one at a time and goes on with the answer: `Prog S α`
is the free monad on the signature `S`.  `Steps p tr q` says that `p`, given the answers recorded
in the trace `tr`, has become `q`; a run that is still going, was cut off, or is over is one
relation, told apart by what `q` is.

`Steps.bind_cases` is the engine: a run of a sequential composition is a run of its first half, or
a whole run of the first half followed by a run of the second.
-/

namespace Machinery

/-- A signature of effects: what a program may ask for, and the answers each request can get. -/
structure Sig where
  Eff : Type
  Ans : Eff → Type

/-- Why a program stops without a result: an index or slice out of range, or a loop whose unrolling
is used up (the program goes on, and a longer unrolling shows how). -/
inductive Halt
  | panic
  | fuel
deriving DecidableEq, Repr

/-- Programs that ask for effects of `S` and return an `α`. -/
inductive Prog (S : Sig) (α : Type) : Type
  | ret (a : α)
  | halt (h : Halt)
  | ask (e : S.Eff) (k : S.Ans e → Prog S α)

/-- One answered request. -/
structure Event (S : Sig) where
  eff : S.Eff
  ans : S.Ans eff

namespace Prog

variable {S : Sig} {α β γ : Type}

/-- Sequential composition: the second program takes over where the first returns. -/
protected def bind : Prog S α → (α → Prog S β) → Prog S β
  | .ret a, f => f a
  | .halt h, _ => .halt h
  | .ask e k, f => .ask e fun r => (k r).bind f

instance : Monad (Prog S) where
  pure := .ret
  bind := Prog.bind

/-- The program that asks for one effect and returns its answer. -/
def perform (e : S.Eff) : Prog S (S.Ans e) := .ask e .ret

@[simp] theorem pure_eq (a : α) : (pure a : Prog S α) = .ret a := rfl

@[simp] theorem bind_eq (p : Prog S α) (f : α → Prog S β) : p >>= f = p.bind f := rfl

@[simp] theorem ret_bind (a : α) (f : α → Prog S β) : (Prog.ret a).bind f = f a := rfl

@[simp] theorem halt_bind (h : Halt) (f : α → Prog S β) :
    (Prog.halt h : Prog S α).bind f = .halt h := rfl

@[simp] theorem ask_bind (e : S.Eff) (k : S.Ans e → Prog S α) (f : α → Prog S β) :
    (Prog.ask e k).bind f = .ask e fun r => (k r).bind f := rfl

@[simp] theorem perform_bind (e : S.Eff) (f : S.Ans e → Prog S β) :
    (perform e).bind f = .ask e f := rfl

@[simp] theorem bind_ret (p : Prog S α) : p.bind .ret = p := by
  induction p with
  | ret a => rfl
  | halt h => rfl
  | ask e k ih => exact congrArg (Prog.ask e) (funext ih)

theorem bind_assoc (p : Prog S α) (f : α → Prog S β) (g : β → Prog S γ) :
    (p.bind f).bind g = p.bind fun a => (f a).bind g := by
  induction p with
  | ret a => rfl
  | halt h => rfl
  | ask e k ih => exact congrArg (Prog.ask e) (funext ih)

instance : LawfulMonad (Prog S) :=
  LawfulMonad.mk' _ (fun p => bind_ret p) (fun _ _ => rfl) bind_assoc

/-! ## What a program may ask for -/

/-- **Every request `p` can come to satisfies `P`, every result `Q`, and `p` never panics**,
whatever it is answered. -/
def Does (P : S.Eff → Prop) (Q : α → Prop) : Prog S α → Prop
  | .ret a => Q a
  | .halt h => h = .fuel
  | .ask e k => P e ∧ ∀ r, Does P Q (k r)

variable {P : S.Eff → Prop} {Q : α → Prop} {R : β → Prop}

@[simp] theorem does_ret {a : α} : (Prog.ret a : Prog S α).Does P Q ↔ Q a := .rfl

@[simp] theorem does_halt {h : Halt} : (Prog.halt h : Prog S α).Does P Q ↔ h = .fuel := .rfl

theorem Does.bind {p : Prog S α} {f : α → Prog S β} (hp : p.Does P Q)
    (hf : ∀ a, Q a → (f a).Does P R) : (p.bind f).Does P R := by
  induction p with
  | ret a => exact hf a hp
  | halt h => exact hp
  | ask e k ih => exact ⟨hp.1, fun r => ih r (hp.2 r)⟩

theorem Does.mono {Q' : α → Prop} {p : Prog S α} (hp : p.Does P Q) (hQ : ∀ a, Q a → Q' a) :
    p.Does P Q' := by
  rw [← bind_ret p]
  exact hp.bind hQ

theorem Does.weaken {P' : S.Eff → Prop} {p : Prog S α} (hp : p.Does P Q) (hP : ∀ e, P e → P' e) :
    p.Does P' Q := by
  induction p with
  | ret a => exact hp
  | halt h => exact hp
  | ask e k ih => exact ⟨hP e hp.1, fun r => ih r (hp.2 r)⟩

/-- `p` never stops without a result. -/
def Total : Prog S α → Prop
  | .ret _ => True
  | .halt _ => False
  | .ask _ k => ∀ r, Total (k r)

theorem Total.bind {p : Prog S α} {f : α → Prog S β} (hp : p.Total) (hf : ∀ a, (f a).Total) :
    (p.bind f).Total := by
  induction p with
  | ret a => exact hf a
  | halt h => exact hp.elim
  | ask e k ih => exact fun r => ih r (hp r)

theorem Total.does {p : Prog S α} (hp : p.Total) : p.Does (fun _ => True) fun _ => True := by
  induction p with
  | ret a => trivial
  | halt h => exact hp.elim
  | ask e k ih => exact ⟨trivial, fun r => ih r (hp r)⟩

/-- `p` never uses up an unrolling. -/
def Fuelled : Prog S α → Prop
  | .ret _ => True
  | .halt h => h ≠ .fuel
  | .ask _ k => ∀ r, Fuelled (k r)

theorem Fuelled.bind {p : Prog S α} {f : α → Prog S β} (hp : p.Fuelled)
    (hf : ∀ a, (f a).Fuelled) : (p.bind f).Fuelled := by
  induction p with
  | ret a => exact hf a
  | halt h => exact hp
  | ask e k ih => exact fun r => ih r (hp r)

/-- A program that does not panic and is not cut off returns. -/
theorem Does.total {p : Prog S α} (hp : p.Does P Q) (h : p.Fuelled) : p.Total := by
  induction p with
  | ret a => trivial
  | halt w => exact absurd hp h
  | ask e k ih => exact fun r => ih r (hp.2 r) (h r)

/-! ## Runs -/

/-- **`Steps p tr q`**: fed the answers of `tr`, the program `p` has become `q`. -/
inductive Steps : Prog S α → List (Event S) → Prog S α → Prop
  | refl (p : Prog S α) : Steps p [] p
  | ask {e : S.Eff} {k : S.Ans e → Prog S α} (r : S.Ans e) {tr : List (Event S)}
      {q : Prog S α} : Steps (k r) tr q → Steps (.ask e k) (⟨e, r⟩ :: tr) q

namespace Steps

variable {p q : Prog S α} {f : α → Prog S β} {tr : List (Event S)}

theorem nil_iff : Steps p [] q ↔ q = p :=
  ⟨fun h => by cases h; rfl, fun h => h ▸ .refl _⟩

theorem ret_iff {a : α} : Steps (.ret a) tr q ↔ tr = [] ∧ q = .ret a :=
  ⟨fun h => by cases h; exact ⟨rfl, rfl⟩, fun ⟨ht, hq⟩ => by subst ht hq; exact .refl _⟩

theorem halt_iff {h : Halt} : Steps (.halt h) tr q ↔ tr = [] ∧ q = .halt h :=
  ⟨fun h => by cases h; exact ⟨rfl, rfl⟩, fun ⟨ht, hq⟩ => by subst ht hq; exact .refl _⟩

/-- A program that returns at once. -/
theorem done {a b : α} (h : Steps (.ret a) tr (.ret b)) : tr = [] ∧ b = a := by
  obtain ⟨rfl, hret⟩ := ret_iff.mp h
  exact ⟨rfl, Prog.ret.inj hret⟩

/-- One run after another. -/
protected theorem trans {p' : Prog S α} {t₁ t₂ : List (Event S)} (h₁ : Steps p t₁ p')
    (h₂ : Steps p' t₂ q) : Steps p (t₁ ++ t₂) q := by
  induction h₁ with
  | refl p => exact h₂
  | ask r _ ih => exact .ask r (ih h₂)

/-- A run of a total program can always go on, until it returns. -/
theorem ne_halt_of_total (h : Steps p tr q) (hp : p.Total) (w : Halt) : q ≠ .halt w := by
  induction h with
  | refl p =>
    rintro rfl
    exact hp
  | ask r _ ih => exact ih (hp r)

theorem does {P : S.Eff → Prop} {Q : α → Prop} (h : Steps p tr q) (hp : p.Does P Q) :
    q.Does P Q := by
  induction h with
  | refl p => exact hp
  | ask r _ ih => exact ih (hp.2 r)

/-- **A run of a composition** is still in the first half, or has finished it. -/
theorem bind_cases {q : Prog S β} (h : Steps (p.bind f) tr q) :
    (∃ p', Steps p tr p' ∧ (∀ a, p' ≠ .ret a) ∧ q = p'.bind f) ∨
      ∃ a t₁ t₂, Steps p t₁ (.ret a) ∧ Steps (f a) t₂ q ∧ tr = t₁ ++ t₂ := by
  induction p generalizing tr with
  | ret a => exact .inr ⟨a, [], tr, .refl _, h, rfl⟩
  | halt w =>
    obtain ⟨rfl, rfl⟩ := halt_iff.mp h
    exact .inl ⟨.halt w, .refl _, nofun, rfl⟩
  | ask e k ih =>
    cases h with
    | refl => exact .inl ⟨.ask e k, .refl _, nofun, rfl⟩
    | ask r h =>
      rcases ih r h with ⟨p', hp, hne, rfl⟩ | ⟨a, t₁, t₂, h₁, h₂, rfl⟩
      · exact .inl ⟨p', .ask r hp, hne, rfl⟩
      · exact .inr ⟨a, ⟨e, r⟩ :: t₁, t₂, .ask r h₁, h₂, rfl⟩

/-- A finished first half, and a run of the second. -/
protected theorem bind {q : Prog S β} {a : α} {t₁ t₂ : List (Event S)} (h₁ : Steps p t₁ (.ret a))
    (h₂ : Steps (f a) t₂ q) : Steps (p.bind f) (t₁ ++ t₂) q := by
  induction p generalizing t₁ with
  | ret b =>
    obtain ⟨rfl, rfl⟩ := h₁.done
    exact h₂
  | halt w => exact absurd (halt_iff.mp h₁).2 nofun
  | ask e k ih =>
    obtain _ | ⟨r, h₁⟩ := h₁
    exact .ask r (ih r h₁)

/-- A run of a composition that is over has finished both halves. -/
theorem exists_of_bind {b : β} (h : Steps (p.bind f) tr (.ret b)) :
    ∃ a t₁ t₂, Steps p t₁ (.ret a) ∧ Steps (f a) t₂ (.ret b) ∧ tr = t₁ ++ t₂ := by
  rcases bind_cases h with ⟨p', -, hne, hret⟩ | hdone
  · cases p' with
    | ret a => exact absurd rfl (hne a)
    | halt w => exact absurd hret nofun
    | ask e k => exact absurd hret nofun
  · exact hdone

/-- A composition about to make a call, its first half still running: the call is the first
half's. -/
theorem ask_of_bind {p : Prog S α} {f : α → Prog S β} {e : S.Eff} {k : S.Ans e → Prog S β}
    (hne : ∀ a, p ≠ .ret a) (h : .ask e k = p.bind f) : ∃ k', p = .ask e k' := by
  cases p with
  | ret a => exact absurd rfl (hne a)
  | halt w => exact absurd h nofun
  | ask e' k' =>
    obtain ⟨rfl, -⟩ := Prog.ask.inj h
    exact ⟨k', rfl⟩

end Steps

end Prog

/-! ## Loops -/

/-- Runs `body` until it returns a value, at most `n` times, then runs `after`. -/
def repeatFor {m : Type → Type} [Monad m] {α : Type} (n : ℕ) (body : m (Option α)) (after : m α) :
    m α :=
  match n with
  | 0 => after
  | n + 1 => do
    match ← body with
    | some a => pure a
    | none => repeatFor n body after

/-- `?`: a program that may fail goes on only after success. -/
def onOk {S : Sig} {ε α β : Type} (f : α → ExceptT ε (Prog S) β) :
    Except ε α → Prog S (Except ε β)
  | .ok a => (f a).run
  | .error e => .ret (.error e)

theorem run_bind_eq {S : Sig} {ε α β : Type} (x : ExceptT ε (Prog S) α)
    (f : α → ExceptT ε (Prog S) β) : (x >>= f).run = x.run.bind (onOk f) :=
  congrArg (Prog.bind x.run) (funext fun r => by cases r <;> rfl)

/-- `Prog.Does` for a program that may fail: it is its successes that satisfy `Q`. -/
def DoesE {S : Sig} {ε α : Type} (P : S.Eff → Prop) (Q : α → Prop) (x : ExceptT ε (Prog S) α) :
    Prop := x.run.Does P fun r => ∀ a, r = .ok a → Q a

theorem DoesE.bind {S : Sig} {ε α β : Type} {P : S.Eff → Prop} {Q : α → Prop} {R : β → Prop}
    {x : ExceptT ε (Prog S) α} {f : α → ExceptT ε (Prog S) β} (hx : DoesE P Q x)
    (hf : ∀ a, Q a → DoesE P R (f a)) : DoesE P R (x >>= f) := by
  rw [DoesE, run_bind_eq]
  refine Prog.Does.bind hx fun r hr => ?_
  cases r with
  | ok a => exact hf a (hr a rfl)
  | error e => exact fun b hb => by cases hb

/-- Runs `x` and hands its result over, success or error, without failing itself. -/
def attempt {ε α : Type} {S : Sig} (x : ExceptT ε (Prog S) α) : ExceptT ε (Prog S) (Except ε α) :=
  ExceptT.mk (x.run.bind fun r => .ret (.ok r))

end Machinery
