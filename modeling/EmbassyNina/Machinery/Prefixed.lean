import Mathlib.Data.FinEnum
import Mathlib.Tactic.Common

/-!
# Machinery/Prefixed — length-prefixed fields

A `LenCode` writes lengths below a bound as words of one fixed width.  `field` puts a word in front
of a string, and `take` reads one field back off the front of a stream; `fields` and `takeAll` do
the same for a list of fields, each under a code of its own.

The two directions are `takeAll_fields`, that what was written within bounds is read back, and
`takeAll_eq_some`, that whatever is read was written so; together they say when a stream decodes to
given fields.
-/

namespace Machinery

/-- Lengths below `bound`, written as words of `width` letters. -/
structure LenCode (α : Type) where
  bound : ℕ
  width : ℕ
  enc : ℕ → List α
  dec : List α → ℕ
  length_enc : ∀ n, (enc n).length = width
  dec_enc : ∀ n, n < bound → dec (enc n) = n
  dec_lt : ∀ w, w.length = width → dec w < bound
  enc_dec : ∀ w, w.length = width → enc (dec w) = w

namespace LenCode

variable {α : Type} (C : LenCode α) {d bs rest : List α}

attribute [simp] length_enc

/-- A string behind its length. -/
def field (d : List α) : List α := C.enc d.length ++ d

/-- Reads one field off the front, and returns what follows it. -/
def take (bs : List α) : Option (List α × List α) :=
  let len := C.dec (bs.take C.width)
  let body := bs.drop C.width
  if C.width ≤ bs.length ∧ len ≤ body.length then some (body.take len, body.drop len) else none

@[simp] theorem length_field (d : List α) : (C.field d).length = C.width + d.length := by
  rw [field, List.length_append, length_enc]

/-- A field is read back, whatever follows it. -/
theorem take_field (h : d.length < C.bound) (rest : List α) :
    C.take (C.field d ++ rest) = some (d, rest) := by
  have hw : (C.enc d.length).length = C.width := C.length_enc _
  have hlen : C.width ≤ (C.field d ++ rest).length := by
    rw [List.length_append, length_field]
    omega
  have htake : (C.field d ++ rest).take C.width = C.enc d.length := by
    rw [field, List.append_assoc, List.take_left' hw]
  have hdrop : (C.field d ++ rest).drop C.width = d ++ rest := by
    rw [field, List.append_assoc, List.drop_left' hw]
  have hd : d.length ≤ (d ++ rest).length := by
    rw [List.length_append]
    omega
  rw [take, htake, hdrop, C.dec_enc _ h, if_pos ⟨hlen, hd⟩, List.take_left, List.drop_left]

/-- What is read is a field of a length the code can write. -/
theorem take_eq_some (h : C.take bs = some (d, rest)) :
    d.length < C.bound ∧ bs = C.field d ++ rest := by
  rw [take] at h
  split at h
  · rename_i hlen
    obtain ⟨rfl, rfl⟩ := Prod.mk.inj (Option.some.inj h)
    have hword : (bs.take C.width).length = C.width := List.length_take_of_le hlen.1
    have hd : ((bs.drop C.width).take (C.dec (bs.take C.width))).length = C.dec (bs.take C.width) :=
      List.length_take_of_le hlen.2
    refine ⟨by rw [hd]; exact C.dec_lt _ hword, ?_⟩
    rw [field, hd, C.enc_dec _ hword, List.append_assoc, List.take_append_drop,
      List.take_append_drop]
  · exact absurd h (by simp)

/-! ## Lists of fields -/

/-- Fields one after the other. -/
def fields (ps : List (LenCode α × List α)) : List α := ps.flatMap fun p => p.1.field p.2

/-- Reads one field for each code. -/
def takeAll : List (LenCode α) → List α → Option (List (List α) × List α)
  | [], bs => some ([], bs)
  | C :: codes, bs => do
    let (d, bs) ← C.take bs
    let (ds, bs) ← takeAll codes bs
    return (d :: ds, bs)

@[simp] theorem fields_nil : fields ([] : List (LenCode α × List α)) = [] := rfl

@[simp] theorem fields_cons (p : LenCode α × List α) (ps : List (LenCode α × List α)) :
    fields (p :: ps) = p.1.field p.2 ++ fields ps := rfl

/-- **Round trip.**  Fields within their codes' bounds are read back in order. -/
theorem takeAll_fields {ps : List (LenCode α × List α)} (h : ∀ p ∈ ps, p.2.length < p.1.bound)
    (rest : List α) :
    takeAll (ps.map Prod.fst) (fields ps ++ rest) = some (ps.map Prod.snd, rest) := by
  induction ps with
  | nil => rfl
  | cons p ps ih =>
    obtain ⟨hp, hps⟩ := List.forall_mem_cons.mp h
    rw [fields_cons, List.append_assoc, List.map_cons, takeAll, p.1.take_field hp]
    simp [ih hps]

/-- **Only fields are read**: as many as there are codes, each within its code's bound. -/
theorem takeAll_eq_some {codes : List (LenCode α)} {ds : List (List α)} {bs rest : List α}
    (h : takeAll codes bs = some (ds, rest)) :
    ds.length = codes.length ∧ (∀ p ∈ codes.zip ds, p.2.length < p.1.bound) ∧
      bs = fields (codes.zip ds) ++ rest := by
  induction codes generalizing bs ds with
  | nil =>
    obtain ⟨rfl, rfl⟩ := Prod.mk.inj (Option.some.inj h)
    exact ⟨rfl, by simp, rfl⟩
  | cons C codes ih =>
    rw [takeAll, Option.bind_eq_bind, Option.bind_eq_some_iff] at h
    obtain ⟨⟨d, bs'⟩, hd, h⟩ := h
    rw [Option.bind_eq_bind, Option.bind_eq_some_iff] at h
    obtain ⟨⟨ds', bs''⟩, hds, h⟩ := h
    obtain ⟨rfl, rfl⟩ := Prod.mk.inj (Option.some.inj h)
    obtain ⟨hlt, rfl⟩ := C.take_eq_some hd
    obtain ⟨hlen, hall, rfl⟩ := ih hds
    refine ⟨by rw [List.length_cons, List.length_cons, hlen], ?_, ?_⟩
    · exact List.forall_mem_cons.mpr ⟨hlt, hall⟩
    · rw [List.zip_cons_cons, fields_cons, List.append_assoc]

end LenCode

end Machinery
