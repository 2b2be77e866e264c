import EmbassyNina.Machinery.Exec

/-!
# Machinery/Watch — total correctness, measured along a run

A `Watch` reads a trace and keeps a measure of it, such as a count or a time, and says which answers
are possible as things stand.  `Watch.Returns Q p s` is the weakest precondition for total
correctness: from `s`, whatever possible answers `p` gets, it comes to a result, and `Q` holds of
the result and the measure; a program that is cut off does not return.
-/

namespace Machinery

open Prog

/-- A measure of the events of `S`; `none` marks an answer that is not possible. -/
structure Watch (S : Sig) (σ : Type) where
  next : σ → (e : S.Eff) → S.Ans e → Option σ

namespace Watch

variable {S : Sig} {σ α β ε : Type} (W : Watch S σ)

/-- The measure of a trace, if all its answers are possible. -/
def run (s : σ) : List (Event S) → Option σ
  | [] => some s
  | ev :: tr => (W.next s ev.eff ev.ans).bind fun s' => run s' tr

/-- **The weakest precondition** of `p` for returning in `Q`. -/
def Returns (Q : α → σ → Prop) : Prog S α → σ → Prop
  | .ret a, s => Q a s
  | .halt _, _ => False
  | .ask e k, s => ∀ r s', W.next s e r = some s' → Returns Q (k r) s'

variable {W} {Q Q' : α → σ → Prop} {s : σ}

theorem Returns.mono (hQ : ∀ a s, Q a s → Q' a s) {p : Prog S α} (h : W.Returns Q p s) :
    W.Returns Q' p s := by
  induction p generalizing s with
  | ret a => exact hQ a s h
  | halt w => exact h
  | ask e k ih => exact fun r s' hs' => ih r (h r s' hs')

/-- **The rule of sequential composition.** -/
theorem Returns.bind {R : β → σ → Prop} {p : Prog S α} {f : α → Prog S β} (hp : W.Returns Q p s)
    (hf : ∀ a s, Q a s → W.Returns R (f a) s) : W.Returns R (p.bind f) s := by
  induction p generalizing s with
  | ret a => exact hf a s hp
  | halt w => exact hp
  | ask e k ih => exact fun r s' hs' => ih r (hp r s' hs')

/-- …and under `?`: an error skips the second half. -/
theorem Returns.bindE {x : ExceptT ε (Prog S) α} {f : α → ExceptT ε (Prog S) β}
    {Q : Except ε α → σ → Prop} {R : Except ε β → σ → Prop} (hx : W.Returns Q x.run s)
    (hok : ∀ a s, Q (.ok a) s → W.Returns R (f a).run s)
    (herr : ∀ e s, Q (.error e) s → R (.error e) s) : W.Returns R (x >>= f).run s := by
  rw [run_bind_eq]
  refine hx.bind fun r s' hr => ?_
  cases r with
  | ok a => exact hok a s' hr
  | error e => exact herr e s' hr

theorem Returns.attempt {x : ExceptT ε (Prog S) α} {Q : Except ε α → σ → Prop}
    (hx : W.Returns Q x.run s) :
    W.Returns (fun r s => ∃ r', r = .ok r' ∧ Q r' s) (Machinery.attempt x).run s :=
  hx.bind fun r _ hr => ⟨r, rfl, hr⟩

/-- A program returns whose requests leave the measure alone. -/
theorem returns_of_does {P : S.Eff → Prop} {Q : α → Prop}
    (hP : ∀ e, P e → ∀ s r s', W.next s e r = some s' → s' = s) {p : Prog S α} (hp : p.Does P Q)
    (htotal : p.Total) (s : σ) : W.Returns (fun a s' => Q a ∧ s' = s) p s := by
  induction p with
  | ret a => exact ⟨hp, rfl⟩
  | halt w => exact htotal
  | ask e k ih =>
    intro r s' hs'
    obtain rfl := hP e hp.1 s r s' hs'
    exact ih r (hp.2 r) (htotal r)

/-- **Soundness.**  Along possible answers the program is never cut off, and what it returns is
in `Q`. -/
theorem Returns.steps {p q : Prog S α} {tr : List (Event S)} (ht : Steps p tr q)
    (h : W.Returns Q p s) {s' : σ} (hs' : W.run s tr = some s') : W.Returns Q q s' := by
  induction ht generalizing s with
  | refl p =>
    obtain rfl := Option.some.inj hs'
    exact h
  | ask r _ ih =>
    obtain ⟨s₁, hs₁, hrest⟩ := Option.bind_eq_some_iff.mp hs'
    exact ih (h r s₁ hs₁) hrest

theorem Returns.ne_halt {p : Prog S α} (h : W.Returns Q p s) (w : Halt) : p ≠ .halt w := by
  rintro rfl
  exact h

/-- **An environment whose answers are possible** has possible runs; `R` says which measures its
states go with. -/
theorem exists_run {τ : Type} {H : Env S τ} {R : τ → σ → Prop}
    (hstep : ∀ t s, R t s → ∀ e, ∃ s', W.next s e (H.answer t e).1 = some s' ∧
      R (H.answer t e).2 s') (p : Prog S α) {t : τ} {s : σ} (h : R t s) :
    ∃ s', W.run s (H.trace p t) = some s' := by
  induction p generalizing t s with
  | ret a => exact ⟨s, rfl⟩
  | halt w => exact ⟨s, rfl⟩
  | ask e k ih =>
    obtain ⟨s₁, hnext, h₁⟩ := hstep t s h e
    obtain ⟨s', hs'⟩ := ih _ h₁
    exact ⟨s', Option.bind_eq_some_iff.mpr ⟨s₁, hnext, hs'⟩⟩

end Watch

end Machinery
