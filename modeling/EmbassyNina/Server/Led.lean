import EmbassyNina.Wire.Proto
import Mathlib.Data.List.TakeWhile
import Mathlib.Tactic.Common

/-!
# Server/Led — the requests of `led_http_server_rp2040.rs`, and the responses to them

The pure part of the example server: its state, the path it takes out of a request line, what it
does for a path, and the response it makes.  `Endpoint` is what a client can ask for, and `handle`
does exactly what a request asks for, if it asks for anything (`handle_extractPath_iff`).
-/

namespace EmbassyNina

/-- The bytes of a literal. -/
def ascii (s : String) : List UInt8 := s.toList.map fun c => UInt8.ofNat c.toNat

/-! ## `heapless::String` -/

/-- `heapless::String<N>`: at most `cap` bytes. -/
structure HString (cap : ℕ) where
  bytes : List UInt8
  length_le : bytes.length ≤ cap

def HString.new {cap : ℕ} : HString cap := ⟨[], Nat.zero_le _⟩

/-- The crate `heapless`, which is not in the repository: what `let _ = write!(h, ..)` leaves, by
the pieces that it writes one after another. -/
class Heapless where
  write {cap : ℕ} (h : HString cap) (pieces : List (List UInt8)) : HString cap

/-- **What `heapless` promises**: what fits is written whole. -/
class LawfulHeapless [Heapless] : Prop where
  bytes_write {cap : ℕ} {h : HString cap} {pieces : List (List UInt8)}
    (hfit : (h.bytes ++ pieces.flatten).length ≤ cap) :
    (Heapless.write h pieces).bytes = h.bytes ++ pieces.flatten

namespace HString

variable {cap : ℕ}

/-- All of `s`, or nothing of it. -/
def writeStr (h : HString cap) (s : List UInt8) : Option (HString cap) :=
  if hs : (h.bytes ++ s).length ≤ cap then some ⟨h.bytes ++ s, hs⟩ else none

/-- Piece by piece: the first that does not fit ends it. -/
def writePieces (h : HString cap) : List (List UInt8) → HString cap
  | [] => h
  | s :: pieces =>
    match h.writeStr s with
    | some h' => h'.writePieces pieces
    | none => h

/-- A `heapless` to run the server with. -/
abbrev piecewise : Heapless := ⟨writePieces⟩

theorem lawful_piecewise : @LawfulHeapless piecewise :=
  @LawfulHeapless.mk piecewise fun {cap h pieces} hfit => by
    change (h.writePieces pieces).bytes = _
    induction pieces generalizing h with
    | nil => exact (List.append_nil _).symm
    | cons s pieces ih =>
      rw [List.flatten_cons, ← List.append_assoc] at hfit ⊢
      have hs : (h.bytes ++ s).length ≤ cap :=
        (List.length_append ▸ Nat.le_add_right _ _).trans hfit
      rw [writePieces, writeStr, dif_pos hs]
      exact ih hfit

end HString

/-- A number as `Display` writes it. -/
def decimal (n : ℕ) : List UInt8 := (Nat.toDigits 10 n).map fun c => UInt8.ofNat c.toNat

/-! ## The state -/

structure LedState where
  r : Bool := false
  g : Bool := false
  b : Bool := false
deriving DecidableEq, Repr

section Format

variable [Heapless]

def LedState.asJson (s : LedState) : HString 48 :=
  Heapless.write .new [ascii "\x7b\"r\":", decimal s.r.toNat, ascii ",\"g\":", decimal s.g.toNat,
    ascii ",\"b\":", decimal s.b.toNat, ascii "\x7d"]

/-- The response to a request: a status line, the headers, and the state as it is then. -/
def response (ok : Bool) (state : LedState) : HString 256 :=
  Heapless.write .new [ascii "HTTP/1.0 ", if ok then ascii "200 OK" else ascii "404 Not Found",
    ascii "\r\nContent-Type: application/json\r\nContent-Length: ",
    decimal state.asJson.bytes.length, ascii "\r\nConnection: close\r\n\r\n", state.asJson.bytes]

end Format

/-! ## A request -/

/-- A byte at which a path ends: a space, a carriage return or a line feed. -/
def EndsPath (b : UInt8) : Prop := b = 32 ∨ b = 13 ∨ b = 10

instance : DecidablePred EndsPath := fun b => inferInstanceAs (Decidable (b = 32 ∨ b = 13 ∨ b = 10))

def extractPath (req : List UInt8) : List UInt8 :=
  match req.dropPrefix? (ascii "GET ") with
  | none => ascii "/"
  | some afterGet =>
    match afterGet.findIdx? (EndsPath ·) with
    | some i => afterGet.take i
    | none => afterGet

/-- The closure `parse`. -/
def parseBit (b : UInt8) : Option Bool :=
  if b = 48 then some false else if b = 49 then some true else none

def handle (path : List UInt8) (cur : LedState) : Bool × LedState :=
  if path = ascii "/" then (true, cur)
  else if path = ascii "/r/1" then (true, { cur with r := true })
  else if path = ascii "/r/0" then (true, { cur with r := false })
  else if path = ascii "/g/1" then (true, { cur with g := true })
  else if path = ascii "/g/0" then (true, { cur with g := false })
  else if path = ascii "/b/1" then (true, { cur with b := true })
  else if path = ascii "/b/0" then (true, { cur with b := false })
  else if path = ascii "/all/on" then (true, ⟨true, true, true⟩)
  else if path = ascii "/all/off" then (true, ⟨false, false, false⟩)
  else if ascii "/rgb/" <+: path ∧ path.length = 8 then
    match parseBit (path.getD 5 0), parseBit (path.getD 6 0), parseBit (path.getD 7 0) with
    | some r, some g, some b => (true, { cur with r, g, b })
    | _, _, _ => (false, cur)
  else (false, cur)

/-! ## What a client can ask for -/

inductive Endpoint
  | current
  | red (on : Bool)
  | green (on : Bool)
  | blue (on : Bool)
  | all (on : Bool)
  | rgb (r g b : Bool)
deriving DecidableEq

namespace Endpoint

def bit (on : Bool) : UInt8 := if on then 49 else 48

def path : Endpoint → List UInt8
  | .current => ascii "/"
  | .red on => ascii "/r/" ++ [bit on]
  | .green on => ascii "/g/" ++ [bit on]
  | .blue on => ascii "/b/" ++ [bit on]
  | .all on => ascii "/all/" ++ if on then ascii "on" else ascii "off"
  | .rgb r g b => ascii "/rgb/" ++ [bit r, bit g, bit b]

def apply : Endpoint → LedState → LedState
  | .current, s => s
  | .red on, s => { s with r := on }
  | .green on, s => { s with g := on }
  | .blue on, s => { s with b := on }
  | .all on, _ => ⟨on, on, on⟩
  | .rgb r g b, _ => ⟨r, g, b⟩

end Endpoint

/-! ## Requests and paths -/

theorem parseBit_eq_some {b : UInt8} {on : Bool} : parseBit b = some on ↔ b = Endpoint.bit on := by
  rw [parseBit]
  constructor
  · intro h
    split at h
    · obtain rfl := Option.some.inj h
      assumption
    · split at h
      · obtain rfl := Option.some.inj h
        assumption
      · exact absurd h nofun
  · rintro rfl
    cases on <;> rfl

theorem handle_path (req : Endpoint) (cur : LedState) :
    handle req.path cur = (true, req.apply cur) := by
  cases req with
  | current => rfl
  | red on | green on | blue on | all on => cases on <;> rfl
  | rgb r g b => cases r <;> cases g <;> cases b <;> rfl

/-- A path of eight bytes that starts as one of `/rgb` does. -/
theorem rgb_of_start {path : List UInt8} (h : ascii "/rgb/" <+: path ∧ path.length = 8) :
    path = ascii "/rgb/" ++ [path.getD 5 0, path.getD 6 0, path.getD 7 0] := by
  obtain ⟨⟨rest, rfl⟩, hlen⟩ := h
  have hrest : rest.length = 3 := by
    rw [List.length_append] at hlen
    exact Nat.add_left_cancel hlen
  obtain ⟨a, b, c, rfl⟩ := List.length_eq_three.mp hrest
  rfl

/-- **What `handle` takes is a request**, and anything else leaves the state as it is. -/
theorem handle_cases (path : List UInt8) (cur : LedState) :
    (∃ req : Endpoint, path = req.path ∧ handle path cur = (true, req.apply cur)) ∨
      handle path cur = (false, cur) := by
  have hreq : ∀ req : Endpoint, path = req.path →
      ∃ req : Endpoint, path = req.path ∧ handle path cur = (true, req.apply cur) :=
    fun req h => ⟨req, h, h ▸ handle_path req cur⟩
  by_cases h : ∃ req : Endpoint, path = req.path
  · exact .inl (h.elim hreq)
  · right
    rw [not_exists] at h
    rw [handle, if_neg (c := path = ascii "/") (h .current),
      if_neg (c := path = ascii "/r/1") (h (.red true)),
      if_neg (c := path = ascii "/r/0") (h (.red false)),
      if_neg (c := path = ascii "/g/1") (h (.green true)),
      if_neg (c := path = ascii "/g/0") (h (.green false)),
      if_neg (c := path = ascii "/b/1") (h (.blue true)),
      if_neg (c := path = ascii "/b/0") (h (.blue false)),
      if_neg (c := path = ascii "/all/on") (h (.all true)),
      if_neg (c := path = ascii "/all/off") (h (.all false))]
    split
    · rename_i hrgb
      split
      · rename_i r g b hr hg hb
        rw [parseBit_eq_some] at hr hg hb
        refine absurd ((rgb_of_start hrgb).trans ?_) (h (.rgb r g b))
        rw [hr, hg, hb, Endpoint.path]
      · rfl
    · rfl

/-- **`handle` takes exactly the paths of requests**, and does what they ask for. -/
theorem handle_eq_true_iff {path : List UInt8} {cur s : LedState} :
    handle path cur = (true, s) ↔ ∃ req : Endpoint, path = req.path ∧ s = req.apply cur := by
  constructor
  · intro h
    rcases handle_cases path cur with ⟨req, hpath, hreq⟩ | hno
    · exact ⟨req, hpath, (Prod.mk.inj (h.symm.trans hreq)).2⟩
    · exact absurd (Prod.mk.inj (h.symm.trans hno)).1 nofun
  · rintro ⟨req, rfl, rfl⟩
    exact handle_path req cur

/-- What is refused changes nothing. -/
theorem handle_refused {path : List UInt8} {cur : LedState} (h : (handle path cur).1 = false) :
    (handle path cur).2 = cur := by
  rcases handle_cases path cur with ⟨req, -, hreq⟩ | hno
  · rw [hreq] at h
    exact absurd h nofun
  · rw [hno]

/-- A request made twice does what it does once. -/
theorem handle_idem (path : List UInt8) (cur : LedState) :
    handle path (handle path cur).2 = handle path cur := by
  rcases handle_cases path cur with ⟨req, rfl, hreq⟩ | hno
  · rw [handle_path, handle_path]
    cases req <;> rfl
  · rw [hno]
    exact hno

/-! ## The path in a request line -/

/-- The path runs up to the first byte that ends it, whatever follows. -/
theorem extractPath_get_append (afterGet : List UInt8) :
    extractPath (ascii "GET " ++ afterGet) = afterGet.takeWhile fun b => !EndsPath b := by
  rw [extractPath, List.dropPrefix?_append_of_beq _ (beq_self_eq_true _)]
  exact take_findIdx? _ _

theorem extractPath_of_not_get {req : List UInt8} (h : ¬ ascii "GET " <+: req) :
    extractPath req = ascii "/" := by
  have hdrop : req.dropPrefix? (ascii "GET ") = none := by
    rw [Option.eq_none_iff_forall_ne_some]
    intro rest hrest
    obtain ⟨p, rfl, hp⟩ := List.dropPrefix?_eq_some_iff.mp hrest
    exact h ⟨rest, by rw [eq_of_beq hp]⟩
  rw [extractPath, hdrop]

/-- **The path is decided by the first line**: what follows a line's end does not change it. -/
theorem extractPath_append {req : List UInt8} (h : 13 ∈ req) (more : List UInt8) :
    extractPath (req ++ more) = extractPath req := by
  have hnot : (13 : UInt8) ∉ ascii "GET " := by decide
  by_cases hget : ascii "GET " <+: req
  · obtain ⟨afterGet, rfl⟩ := hget
    have hafter : 13 ∈ afterGet := (List.mem_append.mp h).resolve_left hnot
    rw [List.append_assoc, extractPath_get_append, extractPath_get_append]
    rw [List.takeWhile_append, if_neg fun hlen => ?_]
    have hself := (List.takeWhile_prefix _).eq_of_length hlen
    have hall := List.mem_takeWhile_imp (hself.symm ▸ hafter)
    exact absurd hall (by decide)
  · rw [extractPath_of_not_get hget, extractPath_of_not_get]
    intro hget'
    rcases List.prefix_or_prefix_of_prefix hget' (List.prefix_append req more) with h' | h'
    · exact hget h'
    · exact hnot (h'.subset h)

/-- **A request for `e`**: a line with its path, ended by a byte that ends a path or by the end of
what has been received; or, for the state as it is, anything that is no `GET`. -/
def Endpoint.AskedBy (e : Endpoint) (req : List UInt8) : Prop :=
  (∃ rest : List UInt8, req = ascii "GET " ++ (e.path ++ rest) ∧ ∀ b ∈ rest.head?, EndsPath b) ∨
    e = .current ∧ ¬ ascii "GET " <+: req

namespace Endpoint

theorem eq_current {e : Endpoint} (h : e.path = ascii "/") : e = .current := by
  have hlen : e.path.length = 1 := congrArg List.length h
  cases e with
  | current => rfl
  | red on | green on | blue on | all on => cases on <;> exact absurd hlen (by decide)
  | rgb r g b => exact absurd hlen (by simp [path, ascii])

/-- No path has a byte that ends it. -/
theorem not_endsPath {e : Endpoint} : ∀ b ∈ e.path, ¬ EndsPath b := by
  have hall : e.path.all fun b => !decide (EndsPath b) := by
    cases e with
    | current => decide +kernel
    | red on | green on | blue on | all on => cases on <;> decide +kernel
    | rgb r g b => cases r <;> cases g <;> cases b <;> decide +kernel
  intro b hb
  simpa using List.all_eq_true.mp hall b hb

/-- **The path of a request is that of what it asks for.** -/
theorem extractPath_eq_iff {e : Endpoint} {req : List UInt8} :
    extractPath req = e.path ↔ e.AskedBy req := by
  by_cases hget : ascii "GET " <+: req
  · obtain ⟨afterGet, rfl⟩ := hget
    rw [extractPath_get_append]
    constructor
    · intro h
      refine .inl ⟨afterGet.dropWhile fun b => !EndsPath b, ?_, fun b hb => ?_⟩
      · rw [← h, List.takeWhile_append_dropWhile]
      · have hnot := List.head?_dropWhile_not (fun b => !decide (EndsPath b)) afterGet
        rw [Option.mem_def.mp hb] at hnot
        simpa using hnot
    · rintro (⟨rest, hrest, hends⟩ | ⟨-, hno⟩)
      · rw [List.append_cancel_left hrest, List.takeWhile_append_of_pos fun c hc => by
          simpa using not_endsPath c hc]
        cases rest with
        | nil => exact List.append_nil _
        | cons b rest =>
          rw [List.takeWhile_cons, decide_eq_true (hends b rfl)]
          exact List.append_nil _
      · exact absurd (List.prefix_append _ _) hno
  · rw [extractPath_of_not_get hget]
    constructor
    · intro h
      exact .inr ⟨eq_current h.symm, hget⟩
    · rintro (⟨rest, rfl, -⟩ | ⟨rfl, -⟩)
      · exact absurd (List.prefix_append _ _) hget
      · rfl

end Endpoint

/-- **What the server takes and what it does**: it takes a request exactly if it asks for something,
and what it asks for is done. -/
theorem handle_extractPath_iff {req : List UInt8} {cur s : LedState} :
    handle (extractPath req) cur = (true, s) ↔
      ∃ e : Endpoint, e.AskedBy req ∧ s = e.apply cur := by
  rw [handle_eq_true_iff]
  exact exists_congr fun e => and_congr_left fun _ => Endpoint.extractPath_eq_iff

/-! ## The response -/

/-- The digit of a colour. -/
theorem decimal_bit (on : Bool) : decimal on.toNat = [Endpoint.bit on] := by cases on <;> rfl

section Response

variable [Heapless] [LawfulHeapless]

/-- **The state is written whole**… -/
theorem bytes_asJson (s : LedState) : s.asJson.bytes =
    ascii "\x7b\"r\":" ++ [Endpoint.bit s.r] ++ ascii ",\"g\":" ++ [Endpoint.bit s.g] ++
      ascii ",\"b\":" ++ [Endpoint.bit s.b] ++ ascii "\x7d" := by
  rw [LedState.asJson, decimal_bit, decimal_bit, decimal_bit,
    LawfulHeapless.bytes_write (show 19 ≤ 48 by decide)]
  rfl

theorem length_asJson (s : LedState) : s.asJson.bytes.length = 19 := by
  rw [bytes_asJson]
  rfl

/-- …and so is every response: its body is the state, and as long as its header says. -/
theorem bytes_response (ok : Bool) (s : LedState) : (response ok s).bytes =
    ascii "HTTP/1.0 " ++ (if ok then ascii "200 OK" else ascii "404 Not Found") ++
      ascii "\r\nContent-Type: application/json\r\nContent-Length: " ++ ascii "19" ++
      ascii "\r\nConnection: close\r\n\r\n" ++ s.asJson.bytes := by
  have hdigits : decimal 19 = ascii "19" := rfl
  have hfit : ∀ body : List UInt8, body.length = 19 → ([] ++ [ascii "HTTP/1.0 ",
      if ok then ascii "200 OK" else ascii "404 Not Found",
      ascii "\r\nContent-Type: application/json\r\nContent-Length: ", ascii "19",
      ascii "\r\nConnection: close\r\n\r\n", body].flatten).length ≤ 256 := by
    intro body hbody
    simp only [List.nil_append, List.flatten_cons, List.flatten_nil, List.append_nil,
      List.length_append, hbody]
    cases ok <;> decide
  rw [response, length_asJson, hdigits, LawfulHeapless.bytes_write (hfit _ (length_asJson s))]
  simp [HString.new]

end Response

end EmbassyNina
