import EmbassyNina.Remote.Faithful
import EmbassyNina.Stack.Serial

/-!
# Remote/Tasks — tasks that share the chip are served one after another

Tasks call on a stack and on its sockets, interleaved however the executor likes.  On a chip that
implements a firmware, the calls that take the mutex once return what the firmware would answer to
their clients if these were called one after the other, in the order in which the calls return
(`World.served_in_turn`).
-/

namespace EmbassyNina

open Machinery Prog Chip.Implements Simulation

variable {C E F : Type} {K : Chip C} {fw : Firmware F} {view : C → F} {log₀ : List (Exchange C)}
  {calls : ℕ → Call}

/-! ## Calls and their clients -/

/-- The operation that a call runs. -/
def Call.op : Call → Op
  | .connect mode remote => .stackConnect mode remote
  | .connectHostname mode hostname port => .stackConnectHostname mode hostname port
  | .getHostByName host addrType => .stackGetHostByName host addrType
  | .read _ sock _ buf => .socketRead sock buf
  | .write _ sock buf => .socketWrite sock buf

/-- What a call is for. -/
def Call.remote : Call → Prog rpcSig (Ret E)
  | .connect mode remote => (Client.stackConnect mode remote).run.bind fun r => .ret (.socket r)
  | .connectHostname mode hostname port =>
    (Client.stackConnectHostname mode hostname port).run.bind fun r => .ret (.socket r)
  | .getHostByName host addrType =>
    (Client.getHostByName host addrType).run.bind fun r => .ret (.address r)
  | .read _ sock fuel buf =>
    (Client.socketRead fuel sock buf.length).run.bind fun r => .ret (.bytes r)
  | .write _ sock buf => (Client.locked (Client.tcpSend sock buf)).run.bind fun r => .ret (.count r)

theorem Call.faithful (hK : K.Implements fw view) {call : Call} (h : call.op.Fits) :
    (K.remote E fw view log₀).Refines Eq call.prog call.remote := by
  cases call with
  | connect mode remote =>
    refine Refines.bind (hK.stackConnect mode remote) fun r r' hr => ?_
    rw [exceptAlike_eq.mp hr]
    exact Refines.ret rfl
  | connectHostname mode hostname port =>
    have hhost := h hostname (by simp [Call.op, Op.strings])
    refine Refines.bind (hK.connectHostname mode hhost port) fun r r' hr => ?_
    rw [exceptAlike_eq.mp hr]
    exact Refines.ret rfl
  | getHostByName host addrType =>
    refine Refines.bind (hK.getHostByName (Op.Fits.host h)) fun r r' hr => ?_
    rw [exceptAlike_eq.mp hr]
    exact Refines.ret rfl
  | read conn sock fuel buf =>
    refine Refines.bind (hK.socketRead fuel sock buf) fun r r' hr => Refines.ret ?_
    have hbytes := exceptAlike_eq.mp (hr.2.map (g := id) fun n p h => h)
    rw [Except.map_id] at hbytes
    exact congrArg Ret.bytes hbytes
  | write conn sock buf =>
    refine Refines.bind (locked (hK.tcpSend sock buf)) fun r r' hr => ?_
    rw [exceptAlike_eq.mp hr]
    exact Refines.ret rfl

/-! ## One after another -/

/-- **Clients called one after another** on a firmware that nobody else uses: what they return, and
where they lead it. -/
inductive Firmware.InTurn (fw : Firmware F) (calls : ℕ → Call) (d₀ : Desk F) :
    List (ℕ × Ret E) → Desk F → Prop
  | nil : InTurn fw calls d₀ [] d₀
  | concat {rs : List (ℕ × Ret E)} {d d' : Desk F} {i : ℕ} {a : Ret E}
      (h : InTurn fw calls d₀ rs d) (hrun : fw.desk.exec (calls i).remote d = (.done a, d')) :
    InTurn fw calls d₀ (rs ++ [(i, a)]) d'

/-- A line without a clock is one beside a clock that stands still. -/
theorem Chip.exec_still {α : Type} (p : Prog (halSig E) α) (l : Link C) :
    (K.clocked E).exec p (l, Stream'.const 0) =
      (((K.bus E).exec p l).1, ((K.bus E).exec p l).2, Stream'.const 0) := by
  induction p generalizing l with
  | ret a => rfl
  | halt h => rfl
  | ask e k ih => cases e <;> exact ih _ _

/-- Calls made one after another on the line are clients called one after another. -/
theorem InTurn.faithful (hK : K.Implements fw view) (hfits : ∀ i, (calls i).op.Fits)
    {s₀ s : Link C} {d₀ : Desk F} {rs : List (ℕ × Ret E)} (h : World.InTurn K calls s₀ rs s)
    (hd₀ : Rendered view log₀ (s₀, Stream'.const 0) d₀) :
    ∃ d, fw.InTurn calls d₀ rs d ∧ Rendered view log₀ (s, Stream'.const 0) d := by
  induction h with
  | nil => exact ⟨d₀, .nil, hd₀⟩
  | @concat rs s s' i a h hrun ih =>
    obtain ⟨d, hserved, hd⟩ := ih
    obtain ⟨hout, hnext⟩ := Call.faithful (E := E) hK (hfits i) (s, Stream'.const 0) d hd
    have hcall : (K.remote E fw view log₀).below.exec (calls i).prog (s, Stream'.const 0) =
        (.done a, s', Stream'.const 0) :=
      (Chip.exec_still _ s).trans (by rw [show (K.bus E).exec (calls i).prog s = _ from hrun])
    rw [hcall] at hout hnext
    exact ⟨_, hserved.concat (Prod.ext (Outcome.alike_eq.mp hout).symm rfl), hnext⟩

namespace World

/-- **Tasks are served one after another.**  Whatever the tasks do, and however they interleave:
the calls that take the mutex once return what the firmware answers to their clients, called one
after the other in the order in which the calls return.  The exchanges on the line, as the last
section left it, are the commands these have had served, and the chip is where they have led the
firmware. -/
theorem served_in_turn (hK : K.Implements fw view) (hsingle : ∀ i, (calls i).Single)
    (hfits : ∀ i, (calls i).op.Fits) (c : C) (acts : List Action) :
    ∃ d : Desk F,
      fw.InTurn calls ⟨view c, [], Stream'.const 0⟩ (returned K calls (init c : World E C) acts) d ∧
      view (run K calls c acts : World E C).base.chip = d.fw ∧
      List.Forall₂ (Exchange.Renders view) (run K calls c acts : World E C).base.log d.served := by
  have hinit : Rendered view [] (⟨c, [], [], silence⟩, Stream'.const 0)
      ⟨view c, [], Stream'.const 0⟩ := ⟨rfl, rfl, rfl, [], rfl, .nil⟩
  have hinTurn := (sequential_run (E := E) (K := K) hsingle c acts).inTurn
  obtain ⟨d, hserved, hd⟩ := InTurn.faithful (E := E) hK hfits hinTurn hinit
  obtain ⟨-, hchip, -, log, hlog, hall⟩ := hd
  rw [List.nil_append] at hlog
  subst hlog
  exact ⟨d, hserved, hchip, hall⟩

/-- A lookup that waits for a connect by hostname is served after it. -/
theorem served_in_turn_lookupCalls :
    ∃ (rs : List (ℕ × Ret Unit)) (d : Desk (List UInt8 × List UInt8)),
      rs.map Prod.fst = [0, 1] ∧
      echoFirmware.InTurn lookupCalls ⟨([], []), [], Stream'.const 0⟩ rs d := by
  have hsingle : ∀ i, (lookupCalls i).Single := fun i => by cases i <;> trivial
  have hfits : ∀ i, (lookupCalls i).op.Fits := fun i => by
    cases i with
    | zero => decide
    | succ i => exact (by decide : (Call.getHostByName [98] .ipv4).op.Fits)
  obtain ⟨d, hserved, -⟩ := served_in_turn (Firmware.implements_chip fits_echoFirmware) hsingle
    hfits ([], []) lookupActs
  exact ⟨_, d, by decide +kernel, hserved⟩

end World

end EmbassyNina
