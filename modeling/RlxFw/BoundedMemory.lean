import RlxFw.ByteMap

/-!
# A buffer with bounds

A buffer of a size is read and written at offsets, and an access that is not inside it
fails.  A loop over such accesses runs to its end when each of its turns does.
-/

namespace RlxFw

namespace ByteMap

/-- A run of a run. -/
theorem slice_drop_take (memory : ByteMap) (start : Nat) {length skip count : Nat}
    (inside : skip + count ≤ length) :
    ((memory.slice start length).drop skip).take count = memory.slice (start + skip) count := by
  obtain ⟨rest, rfl⟩ := Nat.exists_eq_add_of_le inside
  rw [Nat.add_assoc, slice_append, List.drop_left' (slice_length _ _ _), slice_append,
    List.take_left' (slice_length _ _ _)]

/-- A run in pieces of a size. -/
theorem slice_flatMap (memory : ByteMap) (start size count : Nat) :
    memory.slice start (size * count) =
      (List.range count).flatMap fun i => memory.slice (start + size * i) size := by
  induction count with
  | zero => simp
  | succ count ih => simp [Nat.mul_succ, slice_append, ih, List.range_succ]

end ByteMap

/-- A buffer: its size, and the bytes it holds. -/
structure BoundedMemory where
  size : Nat
  bytes : ByteMap

namespace BoundedMemory

/-- `n` bytes at an offset. -/
def read (m : BoundedMemory) (off n : Nat) : Option (List UInt8) :=
  if off + n ≤ m.size then some (m.bytes.slice off n) else none

/-- The buffer with bytes put at an offset. -/
def write (m : BoundedMemory) (off : Nat) (data : List UInt8) : Option BoundedMemory :=
  if off + data.length ≤ m.size then
    some { m with bytes := m.bytes.blit off data.length (ByteMap.ofList data 0) }
  else none

section Accesses

variable {m m' : BoundedMemory} {off n : Nat} {data : List UInt8}

theorem read_eq (inside : off + n ≤ m.size) : m.read off n = some (m.bytes.slice off n) :=
  if_pos inside

/-- What a write leaves: the bytes where they were put, and all others as they were. -/
structure Written (m : BoundedMemory) (off : Nat) (data : List UInt8) (m' : BoundedMemory) :
    Prop where
  size : m'.size = m.size
  here : m'.bytes.slice off data.length = data
  apart {k n : Nat} : k + n ≤ off ∨ off + data.length ≤ k →
    m'.bytes.slice k n = m.bytes.slice k n

theorem exists_write (m : BoundedMemory) (off : Nat) (data : List UInt8)
    (inside : off + data.length ≤ m.size) :
    ∃ m', m.write off data = some m' ∧ m.Written off data m' := by
  refine ⟨_, if_pos inside, rfl, ?_, ?_⟩
  · rw [ByteMap.slice_blit_self]
    have whole := ByteMap.slice_ofList [] data [] 0
    rw [List.nil_append, List.append_nil] at whole
    exact whole
  · intro k n outside
    rw [ByteMap.slice_eq_slice_iff]
    intro i small
    exact ByteMap.blit_outside (by omega)

end Accesses

/-- A state after `n` turns of a loop. -/
def turns {State : Type*} (body : Nat → State → Option State) : Nat → State → Option State
  | 0, s => some s
  | n + 1, s => (turns body n s).bind (body n)

/-- What every turn keeps, a loop keeps. -/
theorem exists_turns {State : Type*} (body : Nat → State → Option State) (n : Nat)
    (Inv : Nat → State → Prop) {s : State} (start : Inv 0 s)
    (turn : ∀ i < n, ∀ s, Inv i s → ∃ s', body i s = some s' ∧ Inv (i + 1) s') :
    ∃ s', turns body n s = some s' ∧ Inv n s' := by
  induction n with
  | zero => exact ⟨s, rfl, start⟩
  | succ n ih =>
      obtain ⟨s', ran, inv⟩ := ih fun i small => turn i (Nat.lt_succ_of_lt small)
      obtain ⟨s'', last, inv'⟩ := turn n (Nat.lt_succ_self n) s' inv
      refine ⟨s'', ?_, inv'⟩
      rw [turns, ran]
      exact last

end BoundedMemory

end RlxFw
