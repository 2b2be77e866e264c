import EmbassyNina.Stack.Calls

/-!
# Stack/World — every interleaving of calls on one chip

A `World` is a chip with any number of calls in progress on it.  An action starts a call, lets one
call make its next request, or drops a socket; a run is a list of actions (`World.run`), and every
interleaving is one.

`World.Next` says all that an action can do.  The run lemma is `World.invariant`: the exchanges that
have been made are whole sections, one after the other, and the beginning of the section of the call
that holds the mutex (`World.blocks`).
-/

namespace EmbassyNina

open Machinery Prog

variable {C E : Type} {K : Chip C} {calls : ℕ → Call}

instance : DecidableEq (halSig E).Eff := inferInstanceAs (DecidableEq Hal)

/-- A `NinaSocket`: the number of the call that minted it, its slot, and the line as it was then. -/
structure Minted (C : Type) where
  call : ℕ
  sock : Socket
  line : Link C

/-- The calls in progress on a chip; the exchanges made so far, each with the number of the call
that made it; the sockets that were minted, and the numbers of those that were dropped. -/
structure World (E C : Type) where
  pool : Pool (halSig E) (Link C) ℕ (Ret E)
  made : List (ℕ × Exchange C)
  minted : List (Minted C)
  dropped : List ℕ

/-- One thing that happens. -/
inductive Action
  | start (call : ℕ)
  | turn (call : ℕ)
  | drop (call : ℕ)
deriving DecidableEq

namespace World

/-- Nothing has been called yet. -/
def init (c : C) : World E C := ⟨⟨⟨c, [], [], silence⟩, none, fun _ => none⟩, [], [], []⟩

abbrev link (w : World E C) : Link C := w.pool.env

/-- The socket that call `conn` minted is `sock`, and has not been dropped. -/
def Live (w : World E C) (conn : ℕ) (sock : Socket) : Prop :=
  (∃ m ∈ w.minted, m.call = conn ∧ m.sock = sock) ∧ conn ∉ w.dropped

/-- A read or a write needs its socket.  (The borrow checker asks for more: that calls on one socket
do not overlap, and that none is left when it is dropped.) -/
def Ready (w : World E C) (call : Call) : Prop :=
  match call.on with
  | some (conn, sock) => w.Live conn sock
  | none => True

instance (w : World E C) (conn : ℕ) (sock : Socket) : Decidable (w.Live conn sock) :=
  inferInstanceAs (Decidable (_ ∧ _))

instance (w : World E C) (call : Call) : Decidable (w.Ready call) := by
  unfold Ready
  split <;> infer_instance

/-- The socket that call `i` mints by going on with `p`. -/
def mints (i : ℕ) (line : Link C) : Prog (halSig E) (Ret E) → List (Minted C)
  | .ret (.socket (.ok sock)) => [⟨i, sock, line⟩]
  | _ => []

/-- Call `i` makes its next request. -/
def turn (K : Chip C) (w : World E C) (i : ℕ) : World E C :=
  match w.pool.task i, (w.pool.turn (chipMutex E K) i).task i with
  | some (.ask _ _), some p =>
    let pool := w.pool.turn (chipMutex E K) i
    { w with
      pool
      made := w.made ++ (pool.env.log.drop w.link.log.length).map (i, ·)
      minted := w.minted ++ mints i pool.env p }
  | _, _ => w

/-- What happens; an action whose time has not come does nothing. -/
def next (K : Chip C) (calls : ℕ → Call) (w : World E C) : Action → World E C
  | .start i =>
    if (w.pool.task i).isNone ∧ w.Ready (calls i) then
      { w with pool := w.pool.start i (calls i).prog }
    else w
  | .turn i => w.turn K i
  | .drop conn =>
    if (∃ m ∈ w.minted, m.call = conn) ∧ conn ∉ w.dropped then
      { w with dropped := conn :: w.dropped }
    else w

/-- **A run**: any number of calls, in any interleaving. -/
def run (K : Chip C) (calls : ℕ → Call) (c : C) (acts : List Action) : World E C :=
  acts.foldl (next K calls) (init c)

/-- A call in progress, or over, was started. -/
theorem start_mem_of_task {c : C} {acts : List Action} {i : ℕ}
    (h : (run K calls c acts : World E C).pool.task i ≠ none) : .start i ∈ acts := by
  have key : ∀ w : World E C, w.pool.task i = none → .start i ∉ acts →
      (acts.foldl (next K calls) w).pool.task i = none := by
    clear h
    induction acts with
    | nil => exact fun w hw _ => hw
    | cons act acts ih =>
      intro w hw hnot
      rw [List.mem_cons, not_or] at hnot
      refine ih _ ?_ hnot.2
      cases act with
      | start j =>
        have hne : i ≠ j := fun h => hnot.1 (congrArg Action.start h)
        rw [next]
        split
        · exact (Pool.start_of_ne _ hne _).trans hw
        · exact hw
      | drop conn =>
        rw [next]
        split <;> exact hw
      | turn j =>
        rw [next, turn]
        split
        · rename_i e k p htask hp
          have hne : i ≠ j := by
            rintro rfl
            exact absurd (hw.symm.trans htask) nofun
          exact (Pool.turn_of_ne _ hne).trans hw
        · exact hw
  exact Decidable.byContradiction fun hnot => h (key _ rfl hnot)

/-! ## What an action can do -/

/-- **What an action can do.**  A call starts; it takes the mutex or waits; inside its section it
makes exchanges; it ends the section, and may have minted a socket; a socket is dropped. -/
inductive Next (K : Chip C) (calls : ℕ → Call) (w : World E C) : World E C → Prop
  | idle : Next K calls w w
  | start {i : ℕ} (hnew : w.pool.task i = none) (hready : w.Ready (calls i)) :
    Next K calls w { w with pool := w.pool.start i (calls i).prog }
  | wait {i : ℕ} {p : Prog (halSig E) (Ret E)} {holder : Option (ℕ × Link C)}
      (htask : ∃ e k, w.pool.task i = some (.ask e k)) (hp : ∀ a, p ≠ .ret a)
      (hholder : holder = w.pool.holder ∨ w.pool.holder = none ∧ holder = some (i, w.link)) :
    Next K calls w { w with pool := { w.pool.start i p with holder := holder } }
  | exchange {i : ℕ} {p : Prog (halSig E) (Ret E)} {s₀ line : Link C} {log : List (Exchange C)}
      (htask : ∃ e k, w.pool.task i = some (.ask e k)) (hp : ∀ a, p ≠ .ret a)
      (hheld : w.pool.holder = some (i, s₀)) (hlog : line.log = w.link.log ++ log)
      (hfollows : K.Follows w.link.chip log line.chip) :
    Next K calls w { w with
      pool := { w.pool.start i p with env := line }
      made := w.made ++ log.map (i, ·) }
  | leave {i : ℕ} {p : Prog (halSig E) (Ret E)} {s₀ : Link C}
      (htask : ∃ e k, w.pool.task i = some (.ask e k)) (hheld : w.pool.holder = some (i, s₀))
      (hleaves : (calls i).Leaves s₀ w.link p) :
    Next K calls w { w with
      pool := { w.pool.start i p with holder := none }
      minted := w.minted ++ mints i w.link p }
  | drop {conn : ℕ} (hminted : ∃ m ∈ w.minted, m.call = conn) (hnew : conn ∉ w.dropped) :
    Next K calls w { w with dropped := conn :: w.dropped }

/-- Every call keeps to its sections. -/
abbrev Ordered (K : Chip C) (calls : ℕ → Call) (w : World E C) : Prop :=
  w.pool.Ordered (chipMutex E K) fun i => (calls i).Leaves

theorem ordered_init (c : C) : (init c : World E C).Ordered K calls := ⟨nofun, nofun⟩

theorem mints_eq_nil {i : ℕ} {line : Link C} {p : Prog (halSig E) (Ret E)}
    (hp : ∀ r, p ≠ .ret (.socket r)) : mints i line p = [] := by
  rcases p with ⟨r | _ | _ | _⟩ | _ | _
  · exact absurd rfl (hp r)
  all_goals rfl

theorem turn_eq {w : World E C} {i : ℕ} {pool : Pool (halSig E) (Link C) ℕ (Ret E)}
    {p : Prog (halSig E) (Ret E)} {log : List (Exchange C)}
    (htask : ∃ e k, w.pool.task i = some (.ask e k))
    (hpool : w.pool.turn (chipMutex E K) i = pool) (hp : pool.task i = some p)
    (hlog : pool.env.log = w.link.log ++ log) :
    w.turn K i = { w with
      pool
      made := w.made ++ log.map (i, ·)
      minted := w.minted ++ mints i pool.env p } := by
  obtain ⟨e, k, htask⟩ := htask
  rw [turn, htask, hpool, hp]
  dsimp only
  rw [hlog, List.drop_left]

/-- **The step lemma.** -/
theorem Ordered.next {w : World E C} (hw : w.Ordered K calls) (act : Action) :
    (w.next K calls act).Ordered K calls ∧ Next K calls w (w.next K calls act) := by
  cases act with
  | start i =>
    rw [World.next]
    split
    · rename_i h
      have hnew := Option.isNone_iff_eq_none.mp h.1
      exact ⟨Pool.Ordered.start hw hnew (calls i).guarded, .start hnew h.2⟩
    · exact ⟨hw, .idle⟩
  | drop conn =>
    rw [World.next]
    split
    · rename_i h
      exact ⟨hw, .drop h.1 h.2⟩
    · exact ⟨hw, .idle⟩
  | turn i =>
    rw [World.next]
    obtain ⟨hordered, hsame | ⟨htask, hturn⟩⟩ := Pool.Ordered.turn hw i
    · have hw' : w.turn K i = w := by
        rcases htask : w.pool.task i with _ | a | h | ⟨e, k⟩
        · rw [turn, htask]
        · rw [turn, htask]
        · rw [turn, htask]
        · have hlog : w.pool.env.log = w.link.log ++ [] := (List.append_nil _).symm
          have hask : ∀ a, Prog.ask e k ≠ .ret a := nofun
          rw [turn_eq ⟨e, k, htask⟩ hsame htask hlog, mints_eq_nil fun r => hask _, List.map_nil,
            List.append_nil, List.append_nil]
      rw [hw']
      exact ⟨hw, .idle⟩
    · generalize hpool : w.pool.turn (chipMutex E K) i = pool at hordered hturn
      have hself : ∀ p, (w.pool.start i p).task i = some p := fun p => w.pool.start_self i p
      have hnil : w.pool.env.log = w.link.log ++ [] := (List.append_nil _).symm
      cases hturn with
      | apart hp =>
        rw [turn_eq htask hpool (hself _) hnil, mints_eq_nil fun r => hp _, List.map_nil,
          List.append_nil, List.append_nil]
        exact ⟨hordered, .wait htask hp (.inl rfl)⟩
      | acquire hfree hp =>
        rw [turn_eq htask hpool (hself _) hnil, mints_eq_nil fun r => hp _, List.map_nil,
          List.append_nil, List.append_nil]
        exact ⟨hordered, .wait htask hp (.inr ⟨hfree, rfl⟩)⟩
      | inside e hheld hp =>
        obtain ⟨log, hlog, hfollows⟩ := Chip.bus_follows (K := K) (E := E) w.link e
        rw [turn_eq htask hpool (hself _) hlog, mints_eq_nil fun r => hp _, List.append_nil]
        exact ⟨hordered, .exchange htask hp hheld hlog hfollows⟩
      | release hheld hR =>
        rw [turn_eq htask hpool (hself _) hnil, List.map_nil, List.append_nil]
        exact ⟨hordered, .leave htask hheld hR⟩

/-- **The rule of invariants for runs.** -/
theorem run_induction {P : World E C → Prop} {c : C} (hinit : P (init c))
    (hnext : ∀ w w', w.Ordered K calls → Next K calls w w' → P w → P w') (acts : List Action) :
    (run K calls c acts : World E C).Ordered K calls ∧ P (run K calls c acts) := by
  rw [run]
  have key : ∀ w : World E C, w.Ordered K calls → P w →
      (acts.foldl (next K calls) w).Ordered K calls ∧ P (acts.foldl (next K calls) w) := by
    induction acts with
    | nil => exact fun w hw hP => ⟨hw, hP⟩
    | cons act acts ih =>
      intro w hw hP
      obtain ⟨hw', hn⟩ := hw.next act
      exact ih _ hw' (hnext w _ hw hn hP)
  exact key _ (ordered_init c) hinit

end World

end EmbassyNina
