import EmbassyNina.Driver.Nina
import EmbassyNina.Server.Led

/-!
# Server/Serve — the accept loop of `led_http_server_rp2040.rs`

The example's `main`, from the reset of the chip to its endless accept loop: a turn of it accepts a
client, drains the first line of its request, sets the LED, responds and closes the socket.  It
handles every result of the driver itself, so it is a program that cannot fail.  The loop is cut off
after a number of turns; the LED on the board that says "ready" is left out.
-/

namespace EmbassyNina

open Machinery

variable {E : Type} {α : Type}

namespace Server

variable [Heapless]

/-- `Timer::after(..).await`. -/
def sleep (ms : ℕ) : Prog (halSig E) Unit := hal (.timer ms)

/-- `Instant::now()`. -/
def now : Prog (halSig E) ℕ := hal .now

/-- `unwrap_or(0)`. -/
def orZero : Except (Error E) ℕ → ℕ
  | .ok n => n
  | .error _ => 0

/-- `x` on `&mut buf[n..]`. -/
def onTail (n : ℕ) (x : BufM E α) (buf : Buf) : Prog (halSig E) (Except (Error E) α × Buf) :=
  if n ≤ buf.length then
    (x.run (buf.drop n)).bind fun (r, tail) => .ret (r, buf.take n ++ tail)
  else panicked

/-- `&buf[..n]`. -/
def upTo (n : ℕ) (buf : Buf) : Prog (halSig E) (List UInt8) :=
  if n ≤ buf.length then .ret (buf.take n) else panicked

/-- `while Instant::now() < deadline && total < req_buf.len()`: what the client sends, until a line
has ended; returns `total`, and the buffer. -/
def drain (client : Socket) (deadline : ℕ) : ℕ → ℕ → Buf → Prog (halSig E) (ℕ × Buf)
  | 0, _, _ => .halt .fuel
  | fuel + 1, total, buf => do
    let reading ← now
    if reading < deadline ∧ total < buf.length then
      let avail ← (Nina.tcpAvail client).run
      if orZero avail > 0 then
        let (got, buf) ← onTail total (Nina.tcpRecv client) buf
        let n := orZero got
        if n = 0 then return (total, buf) else
          let seen ← upTo (total + n) buf
          if [13, 10] <:+: seen then return (total + n, buf)
          else drain client deadline fuel (total + n) buf
      else
        sleep 5
        drain client deadline fuel total buf
    else return (total, buf)

/-- What the LED shows: its pins are active-low. -/
def light (state : LedState) : Prog (halSig E) Unit := do
  let _ ← (Nina.digitalWrite ledR (!state.r).toUInt8).run
  let _ ← (Nina.digitalWrite ledG (!state.g).toUInt8).run
  let _ ← (Nina.digitalWrite ledB (!state.b).toUInt8).run

/-- What outlives a turn: the state, and the buffer of the last request. -/
structure Memory where
  state : LedState := {}
  reqBuf : Buf := List.replicate 256 0
deriving DecidableEq, Repr

/-- The end of a turn: the response, and the close. -/
def respond (client : Socket) (ok : Bool) (mem : Memory) : Prog (halSig E) Memory := do
  let _ ← (Nina.tcpSend client (response ok mem.state).bytes).run
  sleep 20
  let _ ← (Nina.tcpClose client).run
  return mem

/-- What a turn does for an accepted client. -/
def serve (fuel : ℕ) (client : Socket) (mem : Memory) : Prog (halSig E) Memory := do
  -- the source warns that a state poll would poison a slot that has just been accepted
  sleep 80
  let start ← now
  let (total, reqBuf) ← drain client (start + 300) fuel 0 mem.reqBuf
  let req ← upTo total reqBuf
  let (ok, newState) := handle (extractPath req) mem.state
  let state ← if ok then (light newState).bind fun _ => .ret newState else .ret mem.state
  respond client ok ⟨state, reqBuf⟩

/-- A turn of the accept loop. -/
def turn (fuel : ℕ) (listen : Socket) (mem : Memory) : Prog (halSig E) Memory := do
  match ← (Nina.tcpAccept listen).run with
  | .ok (some client) => serve fuel client mem
  | _ =>
    sleep 50
    return mem

/-- The accept loop, cut off after `n` turns. -/
def turns (fuel : ℕ) (listen : Socket) : ℕ → Memory → Prog (halSig E) Memory
  | 0, mem => .ret mem
  | n + 1, mem => (turn fuel listen mem).bind (turns fuel listen n)

/-- The LED's pins become outputs, and dark. -/
def configure : List UInt8 → Prog (halSig E) Unit
  | [] => .ret ()
  | pin :: pins => do
    let _ ← (Nina.pinMode pin .output).run
    let _ ← (Nina.digitalWrite pin 1).run
    configure pins

def ssid : List UInt8 := ascii "YOUR-SSID"

def psk : List UInt8 := ascii "YOUR-PSK"

def port : UInt16 := 8080

/-- `main`, its loops cut off: `none` if it gave up before it got to serve. -/
def main (fuel n : ℕ) : Prog (halSig E) (Option Memory) := do
  let .ok _ ← Nina.init.run | return none
  configure [ledR, ledG, ledB]
  let .ok _ ← (Nina.connect fuel ssid psk).run | return none
  let .ok listen ← Nina.tcpOpenSocket.run | return none
  let .ok _ ← (Nina.tcpListen listen port).run | return none
  let mem ← turns fuel listen n {}
  return some mem

end Server

end EmbassyNina
