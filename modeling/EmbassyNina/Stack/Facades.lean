import EmbassyNina.Link.Connect
import EmbassyNina.Machinery.Hide
import EmbassyNina.Stack.Mutex

/-!
# Stack/Facades — the two client sockets are one machine

`NinaStack` and `NinaSocket` do what `Nina::tcp_connect` and `NinaTcpSocket` do, under the chip
mutex.  As long as nobody else wants it the mutex is silent (`chipSilence`), and what is heard is
the same: `hide_locked` takes a lock off, a loop is taken off its turns, and a `Session` of reads
and writes off its calls.
-/

namespace EmbassyNina

open Machinery Prog

variable {E α β : Type}

/-- The chip mutex, when nobody else wants it. -/
def chipSilence (E : Type) : Silence (halSig E) where
  answer
    | .lock | .unlock => some ()
    | _ => none
  only {e} {r₀} h r := by
    cases e <;> first | rfl | cases h

/-! ## A lock is taken off -/

theorem Wired.hide {p : Prog (halSig E) α} (hp : Wired p) : (chipSilence E).hide p = p :=
  Silence.hide_of_does (hp.weaken fun e he => by cases e <;> first | exact he.elim | rfl)

theorem hide_locked {x : Nina E α} (hx : Wired x.run) :
    (chipSilence E).hide (Nina.locked x).run = x.run := by
  have hrun : (Nina.locked x).run = (hal .lock).bind fun _ =>
    x.run.bind fun r => (hal .unlock).bind fun _ => .ret r := rfl
  have hunlock : ∀ r : Except (Error E) α,
      (chipSilence E).hide ((hal .unlock).bind fun _ => .ret r) = .ret r := fun _ => rfl
  rw [hrun, Silence.hide_bind]
  change (chipSilence E).hide (x.run.bind fun r => (hal .unlock).bind fun _ => .ret r) = x.run
  simp only [Silence.hide_bind, hx.hide, hunlock, bind_ret]

theorem hide_lockedB {x : BufM E α} {out : Buf} (hx : Wired (x.run out)) :
    (chipSilence E).hide ((BufM.locked x).run out) = x.run out := by
  have hunlock : ∀ r : Except (Error E) α × Buf,
      (chipSilence E).hide ((hal .unlock).bind fun _ => .ret r) = .ret r := fun _ => rfl
  change (chipSilence E).hide ((x.run out).bind fun r => (hal .unlock).bind fun _ => .ret r) = _
  simp only [Silence.hide_bind, hx.hide, hunlock, bind_ret]

/-- **A connect on a stack** is that of the chip, its loop's eight-way match an equality test. -/
theorem hide_connect (ip : Ipv4) (port : UInt16) :
    (chipSilence E).hide (NinaStack.connect tcpMode (.v4 ip port)).run =
      (Nina.tcpConnect ip port).run := by
  rw [tcpConnect_eq, NinaStack.connect, hide_locked (Wired.connectLocked tcpMode ip port)]

/-! ## Reads -/

/-- A turn, whatever the socket type, is the part under the mutex and the wait if nothing came. -/
theorem NinaTcpSocket.readTurn_eq (sock : Socket) :
    NinaTcpSocket.readTurn (E := E) sock = (do
      let o ← NinaSocket.readLocked sock
      if o.isSome then return o else
        BufM.lift (Nina.timer 50)
        return none) := by
  rw [NinaTcpSocket.readTurn, NinaSocket.readLocked, LawfulMonad.bind_assoc]
  refine bind_congr fun n => ?_
  by_cases hn : n > 0
  · rw [if_pos hn, if_pos hn]
    rfl
  · rw [if_neg hn, if_neg hn, LawfulMonad.bind_assoc]
    refine bind_congr fun st => ?_
    rw [isClosed_eq]
    cases st.readsAsEof <;> rfl

theorem NinaSocket.readTurn_eq (sock : Socket) :
    NinaSocket.readTurn (E := E) sock = (do
      let o ← BufM.locked (NinaSocket.readLocked sock)
      if o.isSome then return o else
        BufM.lift (Nina.timer 50)
        return none) := by
  rw [NinaSocket.readTurn]
  exact bind_congr fun o => by cases o <;> rfl

theorem Wired.readTurn (sock : Socket) (out : Buf) :
    Wired ((NinaTcpSocket.readTurn (E := E) sock).run out) := by
  rw [NinaTcpSocket.readTurn_eq]
  refine Wired.bindB (Wired.readLocked sock out) fun o out => ?_
  split
  · trivial
  · exact Wired.bindB (Wired.liftB (Wired.timerN 50) out) fun _ _ => trivial

/-- **A turn of either type** is heard as one of `NinaTcpSocket`… -/
theorem hide_readTurn (f : Facade) (sock : Socket) (out : Buf) :
    (chipSilence E).hide ((f.readTurn sock).run out) = (NinaTcpSocket.readTurn sock).run out := by
  cases f with
  | ninaTcpSocket => exact (Wired.readTurn sock out).hide
  | ninaSocket =>
    rw [Facade.readTurn, NinaSocket.readTurn_eq, NinaTcpSocket.readTurn_eq, BufM.run_bind,
      BufM.run_bind, Silence.hide_bind, hide_lockedB (Wired.readLocked sock out)]
    refine congrArg (Prog.bind _) (funext fun r => ?_)
    rcases r with ⟨_ | o, out⟩
    · rfl
    · cases o <;> rfl

/-- …and so is a loop of them. -/
theorem hide_read (f : Facade) (fuel : ℕ) (sock : Socket) (out : Buf) :
    (chipSilence E).hide ((f.read fuel sock).run out) =
      (NinaTcpSocket.read fuel sock).run out := by
  rw [f.read_eq, NinaTcpSocket.read]
  induction fuel generalizing out with
  | zero => rfl
  | succ fuel ih =>
    rw [repeatFor, repeatFor, BufM.run_bind, BufM.run_bind, Silence.hide_bind, hide_readTurn]
    refine congrArg (Prog.bind _) (funext fun r => ?_)
    rcases r with ⟨_ | o, out⟩
    · rfl
    · cases o with
      | none => exact ih out
      | some n => rfl

theorem hide_write (f : Facade) (sock : Socket) (buf : List UInt8) :
    (chipSilence E).hide (f.write sock buf).run = (NinaTcpSocket.write sock buf).run := by
  cases f with
  | ninaTcpSocket => exact (Wired.tcpSend sock buf).hide
  | ninaSocket => exact hide_locked (Wired.tcpSend sock buf)

/-! ## Sessions -/

/-- A caller of a socket, each of whose calls may depend on what the ones before have returned. -/
inductive Session (E : Type)
  | done
  | read (buf : Buf) (next : Except (Error E) ℕ × Buf → Session E)
  | write (buf : List UInt8) (next : Except (Error E) ℕ → Session E)

/-- The calls of a session, on a socket of type `f`; it returns what they do, and the buffers as
they leave them. -/
def Session.prog (f : Facade) (fuel : ℕ) (sock : Socket) :
    Session E → Prog (halSig E) (List (Except (Error E) ℕ × Buf))
  | .done => .ret []
  | .read buf next =>
    ((f.read fuel sock).run buf).bind fun r =>
      (prog f fuel sock (next r)).bind fun rs => .ret (r :: rs)
  | .write buf next =>
    (f.write sock buf).run.bind fun r =>
      (prog f fuel sock (next r)).bind fun rs => .ret ((r, buf) :: rs)

/-- **A session on either type** is heard as one on `NinaTcpSocket`. -/
theorem hide_session (f : Facade) (fuel : ℕ) (sock : Socket) (session : Session E) :
    (chipSilence E).hide (session.prog f fuel sock) = session.prog .ninaTcpSocket fuel sock := by
  induction session with
  | done => rfl
  | read buf next ih =>
    rw [Session.prog, Session.prog, Silence.hide_bind, hide_read]
    exact congrArg (Prog.bind _) (funext fun r => by rw [Silence.hide_bind, ih r]; rfl)
  | write buf next ih =>
    rw [Session.prog, Session.prog, Silence.hide_bind, hide_write]
    exact congrArg (Prog.bind _) (funext fun r => by rw [Silence.hide_bind, ih r]; rfl)

/-- **The two client sockets are one machine**: an uncontended mutex apart, they connect by the same
calls, to the same outcome, and then read and write so. -/
theorem facades_heardAs (fuel : ℕ) :
    (∀ ip port, (chipSilence E).HeardAs (Nina.tcpConnect ip port).run
      (NinaStack.connect tcpMode (.v4 ip port)).run) ∧
    ∀ (sock : Socket) (session : Session E), (chipSilence E).HeardAs
      (session.prog .ninaTcpSocket fuel sock) (session.prog .ninaSocket fuel sock) := by
  refine ⟨fun ip port => Silence.heardAs_of_hide_eq ?_, fun sock session => ?_⟩
  · rw [hide_connect, tcpConnect_eq, (Wired.connectLocked tcpMode ip port).hide]
  · refine Silence.heardAs_of_hide_eq ?_
    rw [hide_session, hide_session]

end EmbassyNina
