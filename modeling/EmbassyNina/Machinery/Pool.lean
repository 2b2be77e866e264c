import EmbassyNina.Machinery.Exec

/-!
# Machinery/Pool — tasks that take turns under a lock

A `Pool` runs any number of programs in one environment, one request of one task at a time, in any
order.  A task is `Guarded` when it leaves the environment alone but for whole sections, each of
which begins by taking the lock and ends by giving it back.  A pool of such tasks is `Ordered`: it
stays so, and `Pool.Turn` says all that a turn can do to it (`Ordered.turn`).

A section is known by the relation `R` between the state in which the lock was taken, the state in
which it is given back, and what the task still has to do; it holds whatever the others do
meanwhile, because it holds of the section run alone.
-/

namespace Machinery

open Prog

variable {S : Sig} {σ ι α : Type} {H : Env S σ}

/-- A lock among the effects of `S`: what takes it, what gives it back, and what a task may ask for
without it.  None of these changes the environment. -/
structure Lock (H : Env S σ) where
  acquire : S.Eff
  release : S.Eff
  apart : S.Eff → Prop
  acquire_ne_release : acquire ≠ release
  not_apart_acquire : ¬ apart acquire
  not_apart_release : ¬ apart release
  still : ∀ s e, apart e ∨ e = acquire ∨ e = release → (H.answer s e).2 = s

/-- What may be asked for inside a section. -/
def Lock.Inside (L : Lock H) (e : S.Eff) : Prop := e ≠ L.acquire ∧ e ≠ L.release

/-! ## One task -/

/-- **A task outside its sections.**  It returns right after a section, or not at all. -/
inductive Guarded (L : Lock H) (R : σ → σ → Prog S α → Prop) : Prog S α → Prop
  | fuel : Guarded L R (.halt .fuel)
  | apart {e : S.Eff} {k : S.Ans e → Prog S α} (he : L.apart e) (hk : ∀ r, Guarded L R (k r)) :
    Guarded L R (.ask e k)
  | enter {β : Type} {q : Prog S β} {f : β → Prog S α} {k : S.Ans L.acquire → Prog S α}
      (hk : ∀ r, k r = q.bind fun b => .ask L.release fun _ => f b)
      (hq : q.Does L.Inside fun _ => True)
      (hrun : ∀ s, ∃ b s', H.exec q s = (.done b, s') ∧ R s s' (f b))
      (hf : ∀ b, (∀ a, f b ≠ .ret a) → Guarded L R (f b)) : Guarded L R (.ask L.acquire k)

/-- **A task inside a section** that began in `s₀`, the environment now being in `s`: it will come
to its end, in a state that `R` allows. -/
inductive Holding (L : Lock H) (R : σ → σ → Prog S α → Prop) (s₀ : σ) : Prog S α → σ → Prop
  | intro {β : Type} {q : Prog S β} {f : β → Prog S α} {b : β} {s s' : σ}
      (hq : q.Does L.Inside fun _ => True) (hrun : H.exec q s = (.done b, s'))
      (hR : R s₀ s' (f b)) (hf : ∀ b, (∀ a, f b ≠ .ret a) → Guarded L R (f b)) :
    Holding L R s₀ (q.bind fun b => .ask L.release fun _ => f b) s

variable {L : Lock H} {R : σ → σ → Prog S α → Prop} {s₀ s : σ} {p : Prog S α}

/-- What a guarded task asks for leaves it guarded, or takes the lock… -/
theorem Guarded.ask_cases {e : S.Eff} {k : S.Ans e → Prog S α} (h : Guarded L R (.ask e k)) :
    (L.apart e ∧ ∀ r, Guarded L R (k r)) ∨ e = L.acquire ∧ ∀ s r, Holding L R s (k r) s := by
  cases h with
  | apart he hk => exact .inl ⟨he, hk⟩
  | enter hk hq hrun hf =>
    refine .inr ⟨rfl, fun s r => ?_⟩
    obtain ⟨b, s', hexec, hR⟩ := hrun s
    rw [hk r]
    exact .intro hq hexec hR hf

/-- …and inside its section a task asks until it gives the lock back, as `R` says. -/
theorem Holding.ask_cases (h : Holding L R s₀ p s) :
    ∃ e k, p = .ask e k ∧
      (L.Inside e ∧ Holding L R s₀ (k (H.answer s e).1) (H.answer s e).2 ∨
        e = L.release ∧ ∀ r, R s₀ s (k r) ∧ ((∀ a, k r ≠ .ret a) → Guarded L R (k r))) := by
  rcases h with ⟨hq, hrun, hR, hf⟩
  rename_i q f b s'
  cases q with
  | ret b' =>
    obtain ⟨hb, hs⟩ := Prod.mk.inj hrun
    obtain rfl := Outcome.done.inj hb
    exact ⟨_, _, rfl, .inr ⟨rfl, fun _ => ⟨hs ▸ hR, hf _⟩⟩⟩
  | halt w => exact absurd (Prod.mk.inj hrun).1 nofun
  | ask e k => exact ⟨e, _, rfl, .inl ⟨hq.1, .intro (hq.2 _) hrun hR hf⟩⟩

theorem Holding.ne_ret (h : Holding L R s₀ p s) (a : α) : p ≠ .ret a := by
  obtain ⟨e, k, rfl, -⟩ := h.ask_cases
  exact nofun

/-- Run on alone, a section comes to an end that `R` allows. -/
theorem Holding.ends (h : Holding L R s₀ p s) :
    ∃ (β : Type) (q : Prog S β) (b : β) (s' : σ) (p' : Prog S α),
      H.exec q s = (.done b, s') ∧ R s₀ s' p' := by
  rcases h with ⟨hq, hrun, hR, hf⟩
  exact ⟨_, _, _, _, _, hrun, hR⟩

theorem Guarded.ne_ret (h : Guarded L R p) (a : α) : p ≠ .ret a := by
  rcases h with _ | _ | _ <;> exact nofun

/-! ## Pools -/

/-- The tasks that have been started, each with what it still has to do; their environment; and who
holds the lock, with the state in which it was taken. -/
structure Pool (S : Sig) (σ ι α : Type) where
  env : σ
  holder : Option (ι × σ)
  task : ι → Option (Prog S α)

namespace Pool

/-- Every task is inside its section, if it holds the lock, or guarded, or over. -/
structure Ordered (L : Lock H) (R : ι → σ → σ → Prog S α → Prop) (P : Pool S σ ι α) : Prop where
  holding : ∀ i s₀, P.holder = some (i, s₀) →
    ∃ p, P.task i = some p ∧ Holding L (R i) s₀ p P.env
  guarded : ∀ i p, P.task i = some p → (∀ s₀, P.holder ≠ some (i, s₀)) → (∀ a, p ≠ .ret a) →
    Guarded L (R i) p

variable {R : ι → σ → σ → Prog S α → Prop} {P : Pool S σ ι α} {i : ι}

/-- The holder is about to ask for something. -/
theorem Ordered.ask_of_holder (hP : P.Ordered L R) (hheld : P.holder = some (i, s₀)) :
    ∃ e k, P.task i = some (.ask e k) := by
  obtain ⟨p, hp, hhold⟩ := hP.holding i s₀ hheld
  obtain ⟨e, k, rfl, -⟩ := hhold.ask_cases
  exact ⟨e, k, hp⟩

variable [DecidableEq ι]

/-- Task `i` goes on with `p`. -/
def start (P : Pool S σ ι α) (i : ι) (p : Prog S α) : Pool S σ ι α :=
  { P with task := Function.update P.task i (some p) }

/-- Task `i` has its request answered, and from then on the lock is with `holder`. -/
def request (H : Env S σ) (P : Pool S σ ι α) (i : ι) (e : S.Eff) (k : S.Ans e → Prog S α)
    (holder : Option (ι × σ)) : Pool S σ ι α where
  env := (H.answer P.env e).2
  holder := holder
  task := Function.update P.task i (some (k (H.answer P.env e).1))

/-- **Task `i` makes its next request**, unless it has none to make or has to wait for the lock. -/
def turn [DecidableEq S.Eff] (L : Lock H) (P : Pool S σ ι α) (i : ι) : Pool S σ ι α :=
  match P.task i with
  | some (.ask e k) =>
    if e = L.acquire then
      if P.holder.isSome then P else P.request H i e k (some (i, P.env))
    else if e = L.release then P.request H i e k none
    else P.request H i e k P.holder
  | _ => P

/-- A turn of one task leaves the others where they are. -/
theorem turn_of_ne [DecidableEq S.Eff] {L : Lock H} (P : Pool S σ ι α) {i j : ι} (h : j ≠ i) :
    (P.turn L i).task j = P.task j := by
  rw [turn]
  split
  · split
    · split
      · rfl
      · exact Function.update_of_ne h ..
    · split <;> exact Function.update_of_ne h ..
  · rfl

/-- **What a turn can do** to an ordered pool. -/
inductive Turn (L : Lock H) (R : ι → σ → σ → Prog S α → Prop) (P : Pool S σ ι α) (i : ι) :
    Pool S σ ι α → Prop
  | apart {p : Prog S α} (hp : ∀ a, p ≠ .ret a) : Turn L R P i (P.start i p)
  | acquire {p : Prog S α} (hfree : P.holder = none) (hp : ∀ a, p ≠ .ret a) :
    Turn L R P i { P.start i p with holder := some (i, P.env) }
  | inside {p : Prog S α} {s₀ : σ} (e : S.Eff) (hheld : P.holder = some (i, s₀))
      (hp : ∀ a, p ≠ .ret a) : Turn L R P i { P.start i p with env := (H.answer P.env e).2 }
  | release {p : Prog S α} {s₀ : σ} (hheld : P.holder = some (i, s₀)) (hR : R i s₀ P.env p) :
    Turn L R P i { P.start i p with holder := none }

@[simp] theorem start_self (P : Pool S σ ι α) (i : ι) (p : Prog S α) :
    (P.start i p).task i = some p := Function.update_self ..

theorem start_of_ne (P : Pool S σ ι α) {i j : ι} (h : j ≠ i) (p : Prog S α) :
    (P.start i p).task j = P.task j := Function.update_of_ne h ..

/-- A turn of one task does not see where another one is. -/
theorem turn_start [DecidableEq S.Eff] {L : Lock H} (P : Pool S σ ι α) {i j : ι} (h : i ≠ j)
    (p : Prog S α) : (P.start j p).turn L i = (P.turn L i).start j p := by
  have hrequest : ∀ e k holder, (P.start j p).request H i e k holder =
      (P.request H i e k holder).start j p := fun e k holder => by
    rw [request, request, Pool.start, Pool.start, Function.update_comm h]
  have hholder : (P.start j p).holder = P.holder := rfl
  rw [turn, turn, P.start_of_ne h, hholder]
  split
  · simp only [hrequest]
    split
    · split <;> rfl
    · split <;> rfl
  · rfl

/-- A new task is guarded, or over before it began. -/
theorem Ordered.start (hP : P.Ordered L R) (hnew : P.task i = none) {p : Prog S α}
    (hp : (∀ a, p ≠ .ret a) → Guarded L (R i) p) : (P.start i p).Ordered L R where
  holding j s₀ hheld := by
    obtain ⟨q, hq, hhold⟩ := hP.holding j s₀ hheld
    have hne : j ≠ i := by
      rintro rfl
      exact absurd (hq.symm.trans hnew) nofun
    exact ⟨q, (P.start_of_ne hne p).trans hq, hhold⟩
  guarded j q hq hnot hret := by
    by_cases hj : j = i
    · subst hj
      obtain rfl := Option.some.inj ((P.start_self j p).symm.trans hq)
      exact hp hret
    · exact hP.guarded j q ((P.start_of_ne hj p).symm.trans hq) hnot hret

/-- Task `i` moves; the lock stays with another task only if nothing changed for that one. -/
theorem Ordered.move (hP : P.Ordered L R) {env : σ} {holder : Option (ι × σ)} {p : Prog S α}
    (hself : ∀ s₀, holder = some (i, s₀) → Holding L (R i) s₀ p env)
    (hother : ∀ j, j ≠ i → ∀ s₀, holder = some (j, s₀) ↔ P.holder = some (j, s₀))
    (henv : ∀ j, j ≠ i → ∀ s₀, P.holder = some (j, s₀) → env = P.env)
    (hp : (∀ s₀, holder ≠ some (i, s₀)) → (∀ a, p ≠ .ret a) → Guarded L (R i) p) :
    Ordered L R { P.start i p with env := env, holder := holder } where
  holding j s₀ hheld := by
    by_cases hj : j = i
    · subst hj
      exact ⟨p, P.start_self j p, hself s₀ hheld⟩
    · have hheld' := (hother j hj s₀).mp hheld
      obtain ⟨q, hq, hhold⟩ := hP.holding j s₀ hheld'
      refine ⟨q, (P.start_of_ne hj p).trans hq, ?_⟩
      rw [henv j hj s₀ hheld']
      exact hhold
  guarded j q hq hnot hret := by
    by_cases hj : j = i
    · subst hj
      obtain rfl := Option.some.inj ((P.start_self j p).symm.trans hq)
      exact hp hnot hret
    · exact hP.guarded j q ((P.start_of_ne hj p).symm.trans hq)
        (fun s₀ hs => hnot s₀ ((hother j hj s₀).mpr hs)) hret

variable [DecidableEq S.Eff]

/-- **A turn keeps a pool ordered**, and does nothing, or what `Turn` says. -/
theorem Ordered.turn (hP : P.Ordered L R) (i : ι) :
    (P.turn L i).Ordered L R ∧ (P.turn L i = P ∨
      (∃ e k, P.task i = some (.ask e k)) ∧ Turn L R P i (P.turn L i)) := by
  rcases htask : P.task i with _ | a | w | ⟨e, k⟩
  · rw [Pool.turn, htask]
    exact ⟨hP, .inl rfl⟩
  · rw [Pool.turn, htask]
    exact ⟨hP, .inl rfl⟩
  · rw [Pool.turn, htask]
    exact ⟨hP, .inl rfl⟩
  have hask : ∃ e' k', some (Prog.ask e k) = some (Prog.ask (S := S) (α := α) e' k') :=
    ⟨e, k, rfl⟩
  have hturn : P.turn L i = if e = L.acquire then
      if P.holder.isSome then P else P.request H i e k (some (i, P.env))
      else if e = L.release then P.request H i e k none else P.request H i e k P.holder := by
    rw [Pool.turn, htask]
  by_cases hheld : ∃ s₀, P.holder = some (i, s₀)
  · -- the holder goes on with its section, or ends it
    obtain ⟨s₀, hheld⟩ := hheld
    obtain ⟨p, hp, hhold⟩ := hP.holding i s₀ hheld
    obtain rfl := Option.some.inj (htask.symm.trans hp)
    obtain ⟨e', k', heq, hcase⟩ := hhold.ask_cases
    obtain ⟨rfl, rfl⟩ := Prog.ask.inj heq
    have hothers : ∀ j, j ≠ i → ∀ s₁, P.holder ≠ some (j, s₁) := fun j hj s₁ hs =>
      hj (Prod.mk.inj (Option.some.inj (hs.symm.trans hheld))).1
    rcases hcase with ⟨⟨hacq, hrel⟩, hhold'⟩ | ⟨rfl, hrel⟩
    · rw [hturn, if_neg hacq, if_neg hrel]
      refine ⟨hP.move (fun s₁ hs => ?_) (fun j hj s₁ => .rfl)
        (fun j hj s₁ hs => absurd hs (hothers j hj s₁)) (fun hnot => absurd hheld (hnot s₀)),
        .inr ⟨hask, .inside e hheld hhold'.ne_ret⟩⟩
      obtain ⟨-, rfl⟩ := Prod.mk.inj (Option.some.inj (hs.symm.trans hheld))
      exact hhold'
    · have hstill := L.still P.env L.release (.inr (.inr rfl))
      rw [hturn, if_neg L.acquire_ne_release.symm, if_pos rfl, Pool.request, hstill]
      refine ⟨hP.move nofun (fun j hj s₁ => ⟨nofun, fun hs => absurd hs (hothers j hj s₁)⟩)
        (fun j hj s₁ _ => rfl) (fun _ => (hrel _).2), .inr ⟨hask, .release hheld (hrel _).1⟩⟩
  · -- any other task does without the lock, waits for it, or takes it
    rw [not_exists] at hheld
    rcases (hP.guarded i _ htask hheld nofun).ask_cases with ⟨hapart, hk⟩ | ⟨rfl, hk⟩
    · have hacq : e ≠ L.acquire := fun h => L.not_apart_acquire (h ▸ hapart)
      have hrel : e ≠ L.release := fun h => L.not_apart_release (h ▸ hapart)
      rw [hturn, if_neg hacq, if_neg hrel, Pool.request, L.still P.env e (.inl hapart)]
      exact ⟨hP.move (fun s₁ hs => absurd hs (hheld s₁)) (fun j hj s₁ => .rfl)
        (fun j hj s₁ _ => rfl) (fun _ _ => hk _), .inr ⟨hask, .apart (hk _).ne_ret⟩⟩
    · rw [hturn, if_pos rfl]
      rcases hfree : P.holder with _ | ⟨j, s₁⟩
      · rw [if_neg nofun, Pool.request, L.still P.env _ (.inr (.inl rfl))]
        refine ⟨hP.move (fun s₁ hs => ?_) (fun j hj s₁ => ⟨fun hs => ?_, fun hs => ?_⟩)
          (fun j hj s₁ _ => rfl) (fun hnot => absurd rfl (hnot P.env)),
          .inr ⟨hask, .acquire hfree (hk P.env _).ne_ret⟩⟩
        · obtain ⟨-, rfl⟩ := Prod.mk.inj (Option.some.inj hs)
          exact hk _ _
        · exact absurd (Prod.mk.inj (Option.some.inj hs)).1.symm hj
        · exact absurd (hfree.symm.trans hs) nofun
      · exact ⟨hP, .inl rfl⟩

end Pool

end Machinery
