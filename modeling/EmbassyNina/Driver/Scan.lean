import EmbassyNina.Driver.Nina

/-!
# Driver/Scan — the scan results of `scan.rs`

A completed `Scan` is read by an iterator that slices one SSID after the other off the front of the
packed buffer.  Nothing here is asked of the hardware: a call returns, or stops at a slice out of
range.
-/

namespace EmbassyNina

open Machinery

namespace Nina.Scan

/-- Number of networks discovered. -/
def len (scan : Scan) : ℕ := scan.n.toNat

/-- `true` if the scan returned no networks. -/
def isEmpty (scan : Scan) : Bool := scan.n = 0

end Nina.Scan

/-- `&buf[i..j]`. -/
def slice (buf : Buf) (i j : ℕ) : Except Halt Buf :=
  if i ≤ j ∧ j ≤ buf.length then .ok ((buf.take j).drop i) else .error .panic

/-- The iterator over the SSIDs: what is left of the buffer, and how many are still to come. -/
structure ScanIter where
  buf : Buf
  rem : UInt8
deriving DecidableEq, Repr

def Nina.Scan.iter (scan : Nina.Scan) : ScanIter := ⟨scan.buf, scan.n⟩

namespace ScanIter

/-- `Iterator::next`: the next SSID, and the iterator after it. -/
def next (it : ScanIter) : Except Halt (Option (List UInt8) × ScanIter) :=
  if it.rem = 0 ∨ it.buf.isEmpty then .ok (none, it) else
    match it.buf.head? with
    | none => .ok (none, it)
    | some b =>
      let len := b.toNat
      if 1 + len > it.buf.length then .ok (none, it) else do
        let ssid ← slice it.buf 1 (1 + len)
        let buf ← slice it.buf (1 + len) it.buf.length
        return (some ssid, ⟨buf, it.rem - 1⟩)

/-- What `k` calls of `next` return, one after the other. -/
def nexts : ℕ → ScanIter → Except Halt (List (Option (List UInt8)))
  | 0, _ => .ok []
  | k + 1, it => do
    let (item, it) ← it.next
    return item :: (← nexts k it)

end ScanIter

end EmbassyNina
