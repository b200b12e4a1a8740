import RlxFw.Prelude
import Mathlib.Data.List.Basic

/-!
# Hashing block by block

A state takes in a message one block at a time.  A hash that is fed in pieces holds
back what does not fill a block; however the pieces are cut, it stands where the
message has brought it.
-/

namespace RlxFw.BlockHash

variable {State Other Byte : Type*}

/-- `count` blocks of `size` bytes folded into a state. -/
def folded (f : State → List Byte → State) (size : Nat) : Nat → State → List Byte → State
  | 0, h, _ => h
  | count + 1, h, p => folded f size count (f h (p.take size)) (p.drop size)

section Folded

variable {f : State → List Byte → State} {size : Nat}

theorem folded_add (j k : Nat) (h : State) (p : List Byte) :
    folded f size (j + k) h p =
      folded f size k (folded f size j h p) (p.drop (size * j)) := by
  induction j generalizing h p with
  | zero => simp [folded]
  | succ j ih =>
      rw [Nat.succ_add, folded, ih, List.drop_drop, Nat.mul_succ, Nat.add_comm (size * j)]
      rfl

/-- Only the blocks that are folded matter. -/
theorem folded_append {j : Nat} {h : State} {p : List Byte} (t : List Byte)
    (long : size * j ≤ p.length) : folded f size j h (p ++ t) = folded f size j h p := by
  induction j generalizing h p with
  | zero => rfl
  | succ j ih =>
      rw [Nat.mul_succ] at long
      rw [folded, folded, List.take_append_of_le_length (by omega),
        List.drop_append_of_le_length (by omega), ih]
      rw [List.length_drop]
      omega

/-- One more block. -/
theorem folded_succ {j : Nat} {h : State} {p b : List Byte} (front : p.length = size * j)
    (whole : b.length = size) :
    folded f size (j + 1) h (p ++ b) = f (folded f size j h p) b := by
  rw [folded_add, folded_append b (Nat.le_of_eq front.symm), List.drop_left' front, folded,
    List.take_of_length_le (Nat.le_of_eq whole)]
  rfl

/-- States that correspond stay so. -/
theorem folded_map {f' : Other → List Byte → Other} {g : State → Other}
    (commutes : ∀ h b, b.length = size → g (f h b) = f' (g h) b) {j : Nat} {h : State}
    {p : List Byte} (long : size * j ≤ p.length) :
    g (folded f size j h p) = folded f' size j (g h) p := by
  induction j generalizing h p with
  | zero => rfl
  | succ j ih =>
      rw [Nat.mul_succ] at long
      have whole : (p.take size).length = size := List.length_take_of_le (by omega)
      have rest : size * j ≤ (p.drop size).length := by
        rw [List.length_drop]
        omega
      rw [folded, ih rest, commutes h _ whole]
      rfl

end Folded

/-- What a hash stands at that took in a message and holds back what fills no block. -/
structure Absorbed (f : State → List Byte → State) (size : Nat) (start : State)
    (m : List Byte) (h : State) (held : List Byte) : Prop where
  short : held.length < size
  whole : ∃ front count, m = front ++ held ∧ front.length = size * count ∧
    h = folded f size count start front

section Absorbed

variable {f : State → List Byte → State} {size : Nat} {start h : State}
  {m held p : List Byte}

theorem Absorbed.nil (positive : 0 < size) : Absorbed f size start [] start [] :=
  ⟨positive, [], 0, rfl, rfl, rfl⟩

/-- What is held is the end of the message. -/
theorem Absorbed.length (absorbed : Absorbed f size start m h held) :
    held.length = m.length % size := by
  obtain ⟨short, front, count, rfl, isFront, -⟩ := absorbed
  rw [List.length_append, isFront, Nat.mul_add_mod, Nat.mod_eq_of_lt short]

theorem Absorbed.keep (absorbed : Absorbed f size start m h held)
    (room : held.length + p.length < size) :
    Absorbed f size start (m ++ p) h (held ++ p) := by
  obtain ⟨-, front, count, rfl, isFront, state⟩ := absorbed
  refine ⟨?_, front, count, List.append_assoc _ _ _, isFront, state⟩
  rw [List.length_append]
  exact room

theorem Absorbed.fill (absorbed : Absorbed f size start m h held)
    (full : held.length + p.length = size) :
    Absorbed f size start (m ++ p) (f h (held ++ p)) [] := by
  obtain ⟨short, front, count, rfl, isFront, state⟩ := absorbed
  have block : (held ++ p).length = size := by
    rw [List.length_append]
    exact full
  refine ⟨Nat.lt_of_le_of_lt (Nat.zero_le _) short, front ++ (held ++ p), count + 1, ?_, ?_, ?_⟩
  · rw [List.append_nil, List.append_assoc]
  · rw [List.length_append, isFront, block, Nat.mul_succ]
  · rw [folded_succ isFront block, state]

/-- With nothing held, the state is the message's. -/
theorem Absorbed.done (positive : 0 < size) (absorbed : Absorbed f size start m h []) :
    h = folded f size (m.length / size) start m := by
  obtain ⟨-, front, count, rfl, isFront, state⟩ := absorbed
  rw [List.append_nil, isFront, Nat.mul_div_cancel_left count positive]
  exact state

end Absorbed

end RlxFw.BlockHash
