import EmbassyNina.Machinery.Serial
import EmbassyNina.Stack.Whole

/-!
# Stack/Serial — every interleaving comes to what a serial one does

What the other calls do while one call holds the mutex is to wait, for a timer or for the mutex, to
begin, or to drop a socket.  None of it touches the chip, and the call in its section does not see
it, so it can be moved in front of the section (`World.movers`): every run ends in the very world
that a run ends in whose sections are whole (`World.serializable`).

For calls that take the mutex once this says what they return: what they would have returned, had
they been made one after another in the order in which they did return (`World.sequential`).
-/

namespace EmbassyNina

open Machinery Prog

variable {C E : Type} {K : Chip C} {calls : ℕ → Call}

/-- The call that an action is about. -/
def Action.call : Action → ℕ
  | .start i | .turn i | .drop i => i

namespace World

variable {w : World E C} {i j : ℕ} {p : Prog (halSig E) (Ret E)}

/-! ## A turn, in full -/

/-- Call `i` goes on with `p`, nothing else having changed. -/
def goOn (w : World E C) (i : ℕ) (p : Prog (halSig E) (Ret E)) : World E C :=
  { w with pool := w.pool.start i p }

/-- **What a turn of call `i` does**: nothing, or it answers the call's request, which is a timer,
takes the mutex, is made inside the call's section, or gives the mutex back. -/
inductive Turned (K : Chip C) (calls : ℕ → Call) (w : World E C) (i : ℕ) : World E C → Prop
  | idle : Turned K calls w i w
  | timer {ms : ℕ} {k : Unit → Prog (halSig E) (Ret E)}
      (htask : w.pool.task i = some (.ask (.timer ms) k))
      (hnot : ∀ s₀, w.pool.holder ≠ some (i, s₀)) (hp : ∀ a, k () ≠ .ret a) :
    Turned K calls w i (w.goOn i (k ()))
  | lock {k : Unit → Prog (halSig E) (Ret E)} (htask : w.pool.task i = some (.ask Hal.lock k))
      (hfree : w.pool.holder = none) (hp : ∀ a, k () ≠ .ret a) :
    Turned K calls w i
      { w with pool := { w.pool.start i (k ()) with holder := some (i, w.link) } }
  | inside {e : Hal} {k : (halSig E).Ans e → Prog (halSig E) (Ret E)} {s₀ : Link C}
      {log : List (Exchange C)} (htask : w.pool.task i = some (.ask e k))
      (hheld : w.pool.holder = some (i, s₀))
      (hp : ∀ a, k ((K.bus E).answer w.link e).1 ≠ .ret a)
      (hlog : ((K.bus E).answer w.link e).2.log = w.link.log ++ log) :
    Turned K calls w i
      { w with
        pool := { w.pool.start i (k ((K.bus E).answer w.link e).1) with
          env := ((K.bus E).answer w.link e).2 }
        made := w.made ++ log.map (i, ·) }
  | unlock {k : Unit → Prog (halSig E) (Ret E)} {s₀ : Link C}
      (htask : w.pool.task i = some (.ask Hal.unlock k)) (hheld : w.pool.holder = some (i, s₀))
      (hleaves : (calls i).Leaves s₀ w.link (k ())) :
    Turned K calls w i
      { w with
        pool := { w.pool.start i (k ()) with holder := none }
        minted := w.minted ++ mints i w.link (k ()) }

/-- A turn whose request is answered without an exchange. -/
theorem turn_eq_still {e : Hal} {k : (halSig E).Ans e → Prog (halSig E) (Ret E)}
    (htask : w.pool.task i = some (.ask e k)) {pool : Pool (halSig E) (Link C) ℕ (Ret E)}
    (hpool : w.pool.turn (chipMutex E K) i = pool) (hp : pool.task i = some p)
    (henv : pool.env = w.link) :
    w.turn K i = { w with pool, minted := w.minted ++ mints i w.link p } := by
  have hlog : pool.env.log = w.link.log ++ [] := by rw [henv, List.append_nil]
  rw [turn_eq ⟨e, k, htask⟩ hpool hp hlog, henv, List.map_nil, List.append_nil]

theorem turn_timer {ms : ℕ} {k : Unit → Prog (halSig E) (Ret E)}
    (htask : w.pool.task i = some (.ask (.timer ms) k)) (hp : ∀ a, k () ≠ .ret a) :
    w.turn K i = w.goOn i (k ()) := by
  have hpool : w.pool.turn (chipMutex E K) i = w.pool.start i (k ()) := by
    rw [Pool.turn, htask]
    rfl
  rw [turn_eq_still htask hpool (Pool.start_self ..) rfl, mints_eq_nil fun r => hp _,
    List.append_nil]
  rfl

theorem Ordered.turned (hw : w.Ordered K calls) (i : ℕ) : Turned K calls w i (w.turn K i) := by
  rcases htask : w.pool.task i with _ | a | h | ⟨e, k⟩
  · rw [turn, htask]
    exact .idle
  · rw [turn, htask]
    exact .idle
  · rw [turn, htask]
    exact .idle
  by_cases hheld : ∃ s₀, w.pool.holder = some (i, s₀)
  · obtain ⟨s₀, hheld⟩ := hheld
    obtain ⟨p, hp, hhold⟩ := hw.holding i s₀ hheld
    obtain rfl := Option.some.inj (htask.symm.trans hp)
    obtain ⟨e', k', heq, ⟨⟨hacq, hrel⟩, hhold'⟩ | ⟨rfl, hrel⟩⟩ := hhold.ask_cases
    · obtain ⟨rfl, rfl⟩ := Prog.ask.inj heq
      obtain ⟨log, hlog, -⟩ := Chip.bus_follows (K := K) (E := E) w.link e
      have hpool : w.pool.turn (chipMutex E K) i =
          w.pool.request (K.bus E) i e k w.pool.holder := by
        rw [Pool.turn, htask]
        dsimp only
        rw [if_neg hacq, if_neg hrel]
      rw [turn_eq ⟨e, k, htask⟩ hpool (Pool.start_self ..) hlog,
        mints_eq_nil fun r => hhold'.ne_ret _, List.append_nil]
      exact .inside htask hheld hhold'.ne_ret hlog
    · obtain ⟨rfl, hk⟩ := Prog.ask.inj heq
      obtain rfl := eq_of_heq hk
      have hpool : w.pool.turn (chipMutex E K) i =
          w.pool.request (K.bus E) i Hal.unlock k none := by
        rw [Pool.turn, htask]
        rfl
      rw [turn_eq_still htask hpool (Pool.start_self ..) rfl]
      exact .unlock htask hheld (hrel ()).1
  · rw [not_exists] at hheld
    rcases (hw.guarded i _ htask hheld fun a => by simp).ask_cases with ⟨⟨ms, rfl⟩, hk⟩ | ⟨rfl, hk⟩
    · rw [turn_timer htask (hk ()).ne_ret]
      exact .timer htask hheld (hk ()).ne_ret
    · rcases hfree : w.pool.holder with _ | ⟨j, s₁⟩
      · have hpool : w.pool.turn (chipMutex E K) i =
            w.pool.request (K.bus E) i Hal.lock k (some (i, w.link)) := by
          rw [Pool.turn, htask]
          dsimp only
          rw [if_pos rfl, hfree]
          rfl
        have hturn := turn_eq_still (p := k ()) htask hpool (Pool.start_self ..) rfl
        rw [mints_eq_nil fun r => (hk w.link ()).ne_ret _, List.append_nil] at hturn
        rw [hturn]
        exact .lock htask hfree (hk w.link ()).ne_ret
      · have hpool : w.pool.turn (chipMutex E K) i = w.pool := by
          rw [Pool.turn, htask]
          dsimp only
          rw [if_pos rfl, hfree]
          rfl
        have hask := (hw.guarded i _ htask hheld fun a => by simp).ne_ret
        rw [turn_eq_still htask hpool htask rfl, mints_eq_nil fun r => hask _, List.append_nil]
        exact .idle

/-! ## Who holds the mutex -/

/-- Who holds the chip mutex. -/
def holder (w : World E C) : Option ℕ := w.pool.holder.map Prod.fst

theorem holder_eq_some : w.holder = some i ↔ ∃ s₀, w.pool.holder = some (i, s₀) := by
  rw [holder, Option.map_eq_some_iff]
  constructor
  · rintro ⟨⟨j, s₀⟩, hheld, rfl⟩
    exact ⟨s₀, hheld⟩
  · rintro ⟨s₀, hheld⟩
    exact ⟨(i, s₀), hheld, rfl⟩

theorem holder_eq_none : w.holder = none ↔ w.pool.holder = none := Option.map_eq_none_iff

/-- Only its own turn gives a call the mutex, and only its own takes it away. -/
theorem Turned.holder_cases {w' : World E C} (h : Turned K calls w i w') :
    w'.holder = w.holder ∨ w.holder = none ∧ w'.holder = some i ∨
      w.holder = some i ∧ w'.holder = none := by
  cases h with
  | idle => exact .inl rfl
  | timer htask hnot hp => exact .inl rfl
  | lock htask hfree hp => exact .inr (.inl ⟨holder_eq_none.mpr hfree, rfl⟩)
  | inside htask hheld hp hlog => exact .inl rfl
  | unlock htask hheld hleaves => exact .inr (.inr ⟨holder_eq_some.mpr ⟨_, hheld⟩, rfl⟩)

theorem holder_next (hw : w.Ordered K calls) (act : Action) :
    (w.next K calls act).holder = w.holder ∨
      ∃ i, act = .turn i ∧ (w.holder = none ∧ (w.next K calls act).holder = some i ∨
        w.holder = some i ∧ (w.next K calls act).holder = none) := by
  cases act with
  | start i =>
    rw [next]
    split <;> exact .inl rfl
  | drop conn =>
    rw [next]
    split <;> exact .inl rfl
  | turn i => exact (hw.turned i).holder_cases.imp_right fun h => ⟨i, rfl, h⟩

/-! ## What a section does not see -/

theorem turn_goOn (h : i ≠ j) : (w.goOn j p).turn K i = (w.turn K i).goOn j p := by
  have htask : (w.goOn j p).pool.task i = w.pool.task i := w.pool.start_of_ne h p
  have hturn : (w.goOn j p).pool.turn (chipMutex E K) i =
      (w.pool.turn (chipMutex E K) i).start j p := w.pool.turn_start h p
  rw [turn, turn, htask, hturn, Pool.start_of_ne _ h]
  split <;> rfl

theorem turn_dropped (dropped : List ℕ) :
    ({ w with dropped } : World E C).turn K i = { w.turn K i with dropped } := by
  rw [turn, turn]
  dsimp only
  split <;> rfl

theorem Turned.task_of_ne {w' : World E C} (h : Turned K calls w i w') (hj : j ≠ i) :
    w'.pool.task j = w.pool.task j := by
  cases h with
  | idle => rfl
  | timer | lock | inside | unlock => exact w.pool.start_of_ne hj _

/-- **A turn after which call `i` holds the mutex** mints no socket and drops none. -/
theorem Turned.frame {w' : World E C} (h : Turned K calls w i w') (hw : w.Ordered K calls)
    (hheld : w'.holder = some i) :
    w'.minted = w.minted ∧ w'.dropped = w.dropped ∧ w'.pool.task i ≠ none := by
  obtain ⟨s₀, hs₀⟩ := holder_eq_some.mp hheld
  have hsome : ∀ {q}, (w.pool.start i q).task i ≠ none := fun {q} =>
    Option.ne_none_iff_exists'.mpr ⟨q, Pool.start_self ..⟩
  cases h with
  | idle =>
    obtain ⟨e, k, htask⟩ := Pool.Ordered.ask_of_holder hw hs₀
    exact ⟨rfl, rfl, Option.ne_none_iff_exists'.mpr ⟨_, htask⟩⟩
  | timer htask hnot hp => exact absurd hs₀ (hnot s₀)
  | lock htask hfree hp => exact ⟨rfl, rfl, hsome⟩
  | inside htask hheld hp hlog => exact ⟨rfl, rfl, hsome⟩
  | unlock htask hheld hleaves => exact absurd hs₀ (by simp)

/-- **What another does right after a turn of the call that holds the mutex** changes nothing, or
might as well have been done right before it. -/
theorem Ordered.back (hw : w.Ordered K calls) {act : Action}
    (hheld : (w.turn K i).holder = some i) (hact : act ≠ .turn i) :
    (w.turn K i).next K calls act = w.turn K i ∨
      (w.turn K i).next K calls act = (w.next K calls act).turn K i ∧
        (w.next K calls act).holder = w.holder := by
  have hturned := hw.turned i
  obtain ⟨hminted, hdropped, hsome⟩ := hturned.frame hw hheld
  have hlive : ∀ conn sock, (w.turn K i).Live conn sock ↔ w.Live conn sock := fun conn sock => by
    rw [Live, Live, hminted, hdropped]
  have hready : ∀ call, (w.turn K i).Ready call ↔ w.Ready call := fun call => by
    rw [Ready, Ready]
    split
    · exact hlive ..
    · exact .rfl
  cases act with
  | start j =>
    by_cases hj : j = i
    · subst hj
      exact .inl (if_neg fun h => hsome (Option.isNone_iff_eq_none.mp h.1))
    · rw [World.next, World.next]
      by_cases h : (w.pool.task j).isNone ∧ w.Ready (calls j)
      · rw [if_pos h, if_pos (by rw [hturned.task_of_ne hj, hready]; exact h)]
        exact .inr ⟨(turn_goOn (Ne.symm hj)).symm, rfl⟩
      · rw [if_neg (by rw [hturned.task_of_ne hj, hready]; exact h)]
        exact .inl rfl
  | drop conn =>
    rw [World.next, World.next]
    by_cases h : (∃ m ∈ w.minted, m.call = conn) ∧ conn ∉ w.dropped
    · rw [if_pos h, if_pos (by rw [hminted, hdropped]; exact h), hdropped]
      exact .inr ⟨(turn_dropped _).symm, rfl⟩
    · rw [if_neg (by rw [hminted, hdropped]; exact h)]
      exact .inl rfl
  | turn j =>
    have hj : j ≠ i := fun h => hact (congrArg Action.turn h)
    have hother : ∀ s₀, (w.turn K i).pool.holder ≠ some (j, s₀) := fun s₀ hs₀ =>
      hj (Option.some.inj ((holder_eq_some.mpr ⟨s₀, hs₀⟩).symm.trans hheld))
    rw [World.next, World.next]
    have hturned' := (hw.next (.turn i)).1.turned j
    rw [World.next] at hturned'
    generalize hv : (w.turn K i).turn K j = v at hturned'
    cases hturned' with
    | idle => exact .inl rfl
    | @timer ms k htask hnot hp =>
      rw [hturned.task_of_ne hj] at htask
      rw [turn_timer htask hp]
      exact .inr ⟨(turn_goOn (Ne.symm hj)).symm, rfl⟩
    | lock htask hfree hp => exact absurd (hheld.symm.trans (holder_eq_none.mpr hfree)) (by simp)
    | inside htask hheld' hp hlog => exact absurd hheld' (hother _)
    | unlock htask hheld' hleaves => exact absurd hheld' (hother _)

theorem movers : Movers (next K calls) (holder (E := E)) Action.turn (Ordered K calls) where
  good act hw := (hw.next act).1
  enter {w act i} hw hfree hheld := by
    rcases holder_next hw act with hsame | ⟨j, rfl, ⟨-, hj⟩ | ⟨hj, -⟩⟩
    · exact absurd (hsame.symm.trans hheld) (by simp [hfree])
    · obtain rfl := Option.some.inj (hj.symm.trans hheld)
      rfl
    · exact absurd (hfree.symm.trans hj) (by simp)
  leave {w i j} hw hheld hheld' := by
    rcases (hw.turned i).holder_cases with hsame | ⟨hfree, -⟩ | ⟨-, hfree⟩
    · exact Option.some.inj (hheld'.symm.trans (hsame.trans hheld))
    · exact absurd (hfree.symm.trans hheld) (by simp)
    · exact absurd (hfree.symm.trans hheld') (by simp)
  stay {w act i} hw hheld hact := by
    rcases holder_next hw act with hsame | ⟨j, rfl, ⟨hfree, -⟩ | ⟨hj, -⟩⟩
    · exact hsame.trans hheld
    · exact absurd (hfree.symm.trans hheld) (by simp)
    · obtain rfl := Option.some.inj (hj.symm.trans hheld)
      exact absurd rfl hact
  back hw hheld hact := hw.back hheld hact

/-- **Every interleaving is serializable**: whatever order the calls' requests, their timers and
the drops of sockets come in, the world they come to is, in full, one that some of them come to in
an order in which nothing happens while a call is in its section but that section. -/
theorem serializable (c : C) (acts : List Action) : ∃ acts' : List Action,
    acts'.Subperm acts ∧ Serial (next K calls) (holder (E := E)) .turn (init c) acts' ∧
      run K calls c acts' = (run K calls c acts : World E C) :=
  movers.exists_serial (ordered_init c) rfl acts

/-! ## The order in which calls return -/

/-- What call `i` has returned. -/
def result (w : World E C) (i : ℕ) : Option (Ret E) :=
  match w.pool.task i with
  | some (.ret a) => some a
  | _ => none

/-- What call `i` has returned since. -/
def returns (w w' : World E C) (i : ℕ) : List (ℕ × Ret E) :=
  match w.result i, w'.result i with
  | none, some a => [(i, a)]
  | _, _ => []

/-- **The calls in the order in which they return**, each with what it returns. -/
def returned (K : Chip C) (calls : ℕ → Call) : World E C → List Action → List (ℕ × Ret E)
  | _, [] => []
  | w, act :: acts =>
    w.returns (w.next K calls act) act.call ++ returned K calls (w.next K calls act) acts

/-- **Calls made one after another**, each to its end on a chip that nobody else uses: what they
return, and where they lead the line. -/
inductive InTurn (K : Chip C) (calls : ℕ → Call) (s₀ : Link C) :
    List (ℕ × Ret E) → Link C → Prop
  | nil : InTurn K calls s₀ [] s₀
  | concat {rs : List (ℕ × Ret E)} {s s' : Link C} {i : ℕ} {a : Ret E}
      (h : InTurn K calls s₀ rs s) (hrun : K.Runs (calls i).prog s a s') :
    InTurn K calls s₀ (rs ++ [(i, a)]) s'

/-- As long as no call has returned, the line is where it was. -/
theorem InTurn.eq_start {s₀ s : Link C} {rs : List (ℕ × Ret E)} (h : InTurn K calls s₀ rs s)
    (hrs : rs = []) : s = s₀ := by
  cases h with
  | nil => rfl
  | concat h hrun => exact absurd hrs (List.append_ne_nil_of_right_ne_nil _ (by simp))

/-- The line as the last section left it. -/
def base (w : World E C) : Link C :=
  match w.pool.holder with
  | some (_, s₀) => s₀
  | none => w.link

/-- **What is known of a run of calls that take the mutex once.**  The calls that have returned
explain the line so far, and every other one has all it does still before it. -/
structure Sequential (K : Chip C) (calls : ℕ → Call) (s₀ : Link C) (w : World E C)
    (rs : List (ℕ × Ret E)) : Prop where
  inTurn : InTurn K calls s₀ rs w.base
  waiting : ∀ i p, w.pool.task i = some p → (∀ s, w.pool.holder ≠ some (i, s)) →
    (∀ a, p ≠ .ret a) → ∀ s, (K.bus E).exec p s = (K.bus E).exec (calls i).prog s
  inside : ∀ i p s, w.pool.task i = some p → w.pool.holder = some (i, s) →
    (K.bus E).exec p w.link = (K.bus E).exec (calls i).prog s

variable {w' : World E C} {s₀ : Link C} {rs rs' : List (ℕ × Ret E)}

/-- Call `i` moves, and the others do not see it. -/
theorem Sequential.move (h : w.Sequential K calls s₀ rs)
    (hself : w'.pool.task i = some p) (htask : ∀ j, j ≠ i → w'.pool.task j = w.pool.task j)
    (hother : ∀ j, j ≠ i → ∀ s, w'.pool.holder = some (j, s) ↔ w.pool.holder = some (j, s))
    (henv : ∀ j, j ≠ i → ∀ s, w.pool.holder = some (j, s) → w'.link = w.link)
    (hwait : (∀ s, w'.pool.holder ≠ some (i, s)) → (∀ a, p ≠ .ret a) →
      ∀ s, (K.bus E).exec p s = (K.bus E).exec (calls i).prog s)
    (hin : ∀ s, w'.pool.holder = some (i, s) →
      (K.bus E).exec p w'.link = (K.bus E).exec (calls i).prog s)
    (hbase : InTurn K calls s₀ rs' w'.base) : w'.Sequential K calls s₀ rs' where
  inTurn := hbase
  waiting j q hq hnot hret := by
    by_cases hj : j = i
    · subst hj
      obtain rfl := Option.some.inj (hself.symm.trans hq)
      exact hwait hnot hret
    · exact h.waiting j q ((htask j hj).symm.trans hq)
        (fun s hs => hnot s ((hother j hj s).mpr hs)) hret
  inside j q s hq hs := by
    by_cases hj : j = i
    · subst hj
      obtain rfl := Option.some.inj (hself.symm.trans hq)
      exact hin s hs
    · have hs' := (hother j hj s).mp hs
      rw [henv j hj s hs']
      exact h.inside j q s ((htask j hj).symm.trans hq) hs'

theorem returns_self (i : ℕ) : w.returns w i = [] := by
  rw [returns]
  split
  · rename_i h₁ h₂
    exact absurd (h₁.symm.trans h₂) (by simp)
  · rfl

theorem returns_of_ne_ret (hself : w'.pool.task i = some p) (hp : ∀ a, p ≠ .ret a) :
    w.returns w' i = [] := by
  have hresult : w'.result i = none := by
    rw [result, hself]
    split
    · rename_i h
      exact absurd (Option.some.inj h) (hp _)
    · rfl
  rw [returns, hresult]
  split
  · rename_i h
    exact absurd h (by simp)
  · rfl

theorem returns_of_ret {a : Ret E} (hbefore : ∀ a, w.pool.task i ≠ some (.ret a))
    (hself : w'.pool.task i = some (.ret a)) : w.returns w' i = [(i, a)] := by
  have hresult : w.result i = none := by
    rw [result]
    split
    · exact absurd ‹_› (hbefore _)
    · rfl
  have hresult' : w'.result i = some a := by rw [result, hself]
  rw [returns, hresult, hresult']

/-- **The step lemma**: whatever happens, the calls that have returned explain the line. -/
theorem Sequential.next (hsingle : ∀ i, (calls i).Single) (hw : w.Ordered K calls)
    (h : w.Sequential K calls s₀ rs) (act : Action) :
    (w.next K calls act).Sequential K calls s₀
      (rs ++ w.returns (w.next K calls act) act.call) := by
  cases act with
  | drop conn =>
    rw [World.next, Action.call]
    have hsame : ∀ dropped, w.returns { w with dropped } conn = [] := fun dropped =>
      returns_self conn
    split
    · rw [hsame, List.append_nil]
      exact ⟨h.inTurn, h.waiting, h.inside⟩
    · rw [returns_self, List.append_nil]
      exact h
  | start i =>
    rw [World.next, Action.call]
    split
    · rename_i hstart
      have hnew := Option.isNone_iff_eq_none.mp hstart.1
      have hnot : ∀ s, w.pool.holder ≠ some (i, s) := fun s hs => by
        obtain ⟨e, k, htask⟩ := Pool.Ordered.ask_of_holder hw hs
        exact absurd (hnew.symm.trans htask) (by simp)
      have hself := w.pool.start_self i (calls i).prog
      refine h.move hself (fun j hj => w.pool.start_of_ne hj _) (fun j hj s => .rfl)
        (fun j hj s _ => rfl) (fun _ _ s => rfl) (fun s hs => absurd hs (hnot s)) ?_
      by_cases hret : ∀ a : Ret E, (calls i).prog ≠ .ret a
      · rw [returns_of_ne_ret hself hret, List.append_nil]
        exact h.inTurn
      · -- the call is refused before it takes the mutex
        push Not at hret
        obtain ⟨a, ha⟩ := hret
        rw [ha] at hself
        rw [ha, returns_of_ret (fun a ha => absurd (hnew.symm.trans ha) (by simp)) hself]
        refine h.inTurn.concat ?_
        rw [ha]
        exact .ret a
    · rw [returns_self, List.append_nil]
      exact h
  | turn i =>
    rw [World.next, Action.call]
    have hturned := hw.turned i
    generalize w.turn K i = v at hturned
    have hother : ∀ {s : Link C}, w.pool.holder = some (i, s) → ∀ j, j ≠ i → ∀ s',
        w.pool.holder ≠ some (j, s') := fun hs j hj s' hs' =>
      hj (Prod.mk.inj (Option.some.inj (hs'.symm.trans hs))).1
    cases hturned with
    | idle =>
      rw [returns_self, List.append_nil]
      exact h
    | @timer ms k htask hnot hp =>
      have hself := w.pool.start_self i (k ())
      rw [returns_of_ne_ret hself hp, List.append_nil]
      refine h.move hself (fun j hj => w.pool.start_of_ne hj _) (fun j hj s => .rfl)
        (fun j hj s _ => rfl) (fun _ _ s => ?_) (fun s hs => absurd hs (hnot s)) h.inTurn
      exact h.waiting i _ htask hnot (fun a => by simp) s
    | @lock k htask hfree hp =>
      have hself := w.pool.start_self i (k ())
      have hbase : w.base = w.link := by rw [base, hfree]
      rw [returns_of_ne_ret hself hp, List.append_nil]
      refine h.move hself (fun j hj => w.pool.start_of_ne hj _) (fun j hj s => ⟨fun hs => ?_,
        fun hs => absurd (hfree.symm.trans hs) (by simp)⟩) (fun j hj s _ => rfl)
        (fun hnot => absurd rfl (hnot _)) (fun s hs => ?_) ?_
      · exact absurd (Prod.mk.inj (Option.some.inj hs)).1.symm hj
      · obtain ⟨-, rfl⟩ := Prod.mk.inj (Option.some.inj hs)
        have hnot : ∀ s, w.pool.holder ≠ some (i, s) := by simp [hfree]
        exact h.waiting i _ htask hnot (fun a => by simp) w.link
      · exact hbase ▸ h.inTurn
    | @inside e k s log htask hheld hp hlog =>
      have hself := w.pool.start_self i (k ((K.bus E).answer w.link e).1)
      rw [returns_of_ne_ret hself hp, List.append_nil]
      refine h.move hself (fun j hj => w.pool.start_of_ne hj _) (fun j hj s => .rfl)
        (fun j hj s hs => absurd hs (hother hheld j hj s)) (fun hnot => absurd hheld (hnot _))
        (fun s hs => ?_) ?_
      · exact h.inside i _ s htask hs
      · have hbase := h.inTurn
        rw [base, hheld] at hbase
        rw [base]
        dsimp only [Pool.start]
        rw [hheld]
        exact hbase
    | @unlock k s htask hheld hleaves =>
      obtain ⟨log, -, hspec⟩ := hleaves
      obtain ⟨a, ha⟩ := hspec.ret_of_single (hsingle i)
      have hself := w.pool.start_self i (k ())
      have hself' := hself.trans (congrArg some ha)
      have hbase : w.base = s := by rw [base, hheld]
      rw [returns_of_ret (fun a ha => absurd (htask.symm.trans ha) (by simp)) hself']
      refine h.move hself (fun j hj => w.pool.start_of_ne hj _) (fun j hj s' => ⟨by simp,
        fun hs => absurd hs (hother hheld j hj s')⟩) (fun j hj s' _ => rfl)
        (fun _ hret => absurd ha (hret a)) (by simp) ?_
      refine (hbase ▸ h.inTurn).concat ?_
      have hin := h.inside i _ s htask hheld
      exact hin.symm.trans (congrArg (fun p => (K.bus E).exec p w.link) ha)

theorem Sequential.run (hsingle : ∀ i, (calls i).Single) (acts : List Action)
    (hw : w.Ordered K calls) (h : w.Sequential K calls s₀ rs) :
    (acts.foldl (World.next K calls) w).Sequential K calls s₀ (rs ++ returned K calls w acts) := by
  induction acts generalizing w rs with
  | nil =>
    rw [returned, List.append_nil]
    exact h
  | cons act acts ih =>
    rw [returned, ← List.append_assoc]
    exact ih (hw.next act).1 (h.next hsingle hw act)

/-- Every run of calls that take the mutex once, from the start. -/
theorem sequential_run (hsingle : ∀ i, (calls i).Single) (c : C) (acts : List Action) :
    (run K calls c acts : World E C).Sequential K calls ⟨c, [], [], silence⟩
      (returned K calls (init c : World E C) acts) := by
  have hinit : (init c : World E C).Sequential K calls ⟨c, [], [], silence⟩ [] :=
    ⟨.nil, nofun, nofun⟩
  exact hinit.run hsingle acts (ordered_init c)

/-- **Calls that take the mutex once return as if made one after another**, in the order in which
they return: to each other they are atomic.  What the chip had been asked when the last section
ended is what these calls ask it so; and the call whose section has not ended yet goes on as it does
alone on the line that they leave. -/
theorem sequential (hsingle : ∀ i, (calls i).Single) (c : C) (acts : List Action) :
    InTurn K calls ⟨c, [], [], silence⟩ (returned K calls (init c : World E C) acts)
        (run K calls c acts : World E C).base ∧
      ∀ i p, (run K calls c acts : World E C).holder = some i →
        (run K calls c acts : World E C).pool.task i = some p →
        (K.bus E).exec p (run K calls c acts : World E C).link =
          (K.bus E).exec (calls i).prog (run K calls c acts : World E C).base := by
  have h := sequential_run (E := E) (K := K) hsingle c acts
  refine ⟨h.inTurn, fun i p hheld htask => ?_⟩
  obtain ⟨s, hs⟩ := holder_eq_some.mp hheld
  rw [base, hs]
  exact h.inside i p s htask hs

/-- A lookup that waits for a connect by hostname returns as if it had been called after it; and the
connect, in its section, goes on as it would alone. -/
theorem sequential_lookupWorld :
    (∃ rs : List (ℕ × Ret Unit), rs.map Prod.fst = [0, 1] ∧
      InTurn lookupChip lookupCalls ⟨(Slots.fresh 9, none), [], [], silence⟩ rs lookupWorld.link) ∧
    connectingWorld.link.log ≠ [] ∧ ∃ p, connectingWorld.pool.task 0 = some p ∧
      (lookupChip.bus Unit).exec p connectingWorld.link =
        (lookupChip.bus Unit).exec (lookupCalls 0).prog
          ⟨(Slots.fresh 9, none), [], [], silence⟩ := by
  have hsingle : ∀ i, (lookupCalls i).Single
    | 0 => trivial
    | _ + 1 => trivial
  obtain ⟨hall, -⟩ := sequential (E := Unit) (K := lookupChip) hsingle (Slots.fresh 9, none)
    lookupActs
  obtain ⟨hnone, hinside⟩ := sequential (E := Unit) (K := lookupChip) hsingle
    (Slots.fresh 9, none) (lookupActs.take 26)
  have hfree : lookupWorld.holder = none := by decide +kernel
  have hbase : lookupWorld.base = lookupWorld.link := by rw [base, holder_eq_none.mp hfree]
  refine ⟨⟨_, by decide +kernel, hbase ▸ hall⟩, by decide +kernel, ?_⟩
  have hheld : connectingWorld.holder = some 0 := by decide +kernel
  have htask : (connectingWorld.pool.task 0).isSome := by decide +kernel
  obtain ⟨p, hp⟩ := Option.isSome_iff_exists.mp htask
  have hgoesOn := hinside 0 p hheld hp
  -- nobody has returned yet, so the section began where the line did
  rw [hnone.eq_start (List.isEmpty_iff.mp (by decide +kernel))] at hgoesOn
  exact ⟨p, hp, hgoesOn⟩

end World

end EmbassyNina
