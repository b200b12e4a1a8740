import RlxFw.Prelude
import Mathlib.Data.Nat.ModEq
import Mathlib.Data.List.Basic

/-!
# Queues in a ring of slots

A first-in first-out queue kept in `N` slots that are used in turn: from the head
on, the occupied slots hold the items in order, and the others are free.  What it
means for a slot to hold an item, or to be free, is left to the user.
-/

namespace RlxFw

variable {α : Type*} {N head : Nat} {items : List α}
  {Full Full' : Nat → α → Prop} {Free Free' : Nat → Prop}

/-- The slots from `head` on hold the items in order; the other slots are free. -/
structure RingQueue (N : Nat) (Full : Nat → α → Prop) (Free : Nat → Prop)
    (head : Nat) (items : List α) : Prop where
  head_lt : head < N
  fits : items.length ≤ N
  full : ∀ k (inside : k < items.length), Full ((head + k) % N) items[k]
  free : ∀ k, items.length ≤ k → k < N → Free ((head + k) % N)

namespace RingQueue

/-- Slots at different distances from the head are different. -/
theorem slot_injective {j k : Nat} (first : j < N) (second : k < N)
    (same : (head + j) % N = (head + k) % N) : j = k := by
  have cancelled : j ≡ k [MOD N] := Nat.ModEq.add_left_cancel' head same
  rwa [Nat.ModEq, Nat.mod_eq_of_lt first, Nat.mod_eq_of_lt second] at cancelled

theorem slot_lt (queue : RingQueue N Full Free head items) (k : Nat) :
    (head + k) % N < N :=
  Nat.mod_lt _ (Nat.zero_lt_of_lt queue.head_lt)

theorem empty (inside : head < N) (free : ∀ slot < N, Free slot) :
    RingQueue N Full Free head [] where
  head_lt := inside
  fits := Nat.zero_le _
  full k bound := absurd bound (Nat.not_lt_zero k)
  free _ _ _ := free _ (Nat.mod_lt _ (Nat.zero_lt_of_lt inside))

/-- What keeps every slot as it is keeps the queue. -/
theorem mono (queue : RingQueue N Full Free head items)
    (full : ∀ slot < N, ∀ x, Full slot x → Full' slot x)
    (free : ∀ slot < N, Free slot → Free' slot) :
    RingQueue N Full' Free' head items where
  head_lt := queue.head_lt
  fits := queue.fits
  full k inside := full _ (queue.slot_lt k) _ (queue.full k inside)
  free k outside bound := free _ (queue.slot_lt k) (queue.free k outside bound)

/-- The head is free when nothing is queued, and holds the first item otherwise. -/
theorem head_cases (queue : RingQueue N Full Free head items) :
    (items = [] ∧ Free head) ∨ ∃ x rest, items = x :: rest ∧ Full head x := by
  have here : (head + 0) % N = head := Nat.mod_eq_of_lt queue.head_lt
  cases items with
  | nil => exact .inl ⟨rfl, here ▸ queue.free 0 (Nat.zero_le _) (Nat.zero_lt_of_lt queue.head_lt)⟩
  | cons x rest =>
      exact .inr ⟨x, rest, rfl, here ▸ queue.full 0 (Nat.succ_pos _)⟩

/-- The slot after the last item is free, or all slots are taken and it is the
head. -/
theorem tail_cases (queue : RingQueue N Full Free head items) :
    (items.length < N ∧ Free ((head + items.length) % N)) ∨
      ∃ x rest, items = x :: rest ∧ Full ((head + items.length) % N) x := by
  by_cases room : items.length < N
  · exact .inl ⟨room, queue.free _ (Nat.le_refl _) room⟩
  · have all : items.length = N := Nat.le_antisymm queue.fits (Nat.not_lt.mp room)
    have here : (head + items.length) % N = head := by
      rw [all, Nat.add_mod_right, Nat.mod_eq_of_lt queue.head_lt]
    rcases queue.head_cases with ⟨none, -⟩ | ⟨x, rest, some, full⟩
    · have := queue.head_lt
      simp [none] at all
      omega
    · exact .inr ⟨x, rest, some, here.symm ▸ full⟩

/-- An item put into the free slot after the last one. -/
theorem push (queue : RingQueue N Full Free head items) {x : α}
    (room : items.length < N) (pushed : Full' ((head + items.length) % N) x)
    (full : ∀ slot < N, slot ≠ (head + items.length) % N →
      ∀ y, Full slot y → Full' slot y)
    (free : ∀ slot < N, slot ≠ (head + items.length) % N → Free slot → Free' slot) :
    RingQueue N Full' Free' head (items ++ [x]) where
  head_lt := queue.head_lt
  fits := by
    rw [List.length_append]
    exact room
  full k inside := by
    by_cases old : k < items.length
    · rw [List.getElem_append_left old]
      refine full _ (queue.slot_lt k) (fun same => ?_) _ (queue.full k old)
      exact absurd (slot_injective (old.trans room) room same) (Nat.ne_of_lt old)
    · have last : k = items.length := by
        rw [List.length_append, List.length_singleton] at inside
        omega
      subst last
      simpa using pushed
  free k outside bound := by
    rw [List.length_append, List.length_singleton] at outside
    refine free _ (queue.slot_lt k) (fun same => ?_) (queue.free k (by omega) bound)
    have := slot_injective bound room same
    omega

/-- The first item taken out of the head's slot. -/
theorem pop {x : α} (queue : RingQueue N Full Free head (x :: items))
    (popped : Free' head)
    (full : ∀ slot < N, slot ≠ head → ∀ y, Full slot y → Full' slot y)
    (free : ∀ slot < N, slot ≠ head → Free slot → Free' slot) :
    RingQueue N Full' Free' ((head + 1) % N) items where
  head_lt := Nat.mod_lt _ (Nat.zero_lt_of_lt queue.head_lt)
  fits := Nat.le_of_succ_le queue.fits
  full k inside := by
    have next : ((head + 1) % N + k) % N = (head + (k + 1)) % N := by
      rw [Nat.mod_add_mod, Nat.add_assoc, Nat.add_comm 1 k]
    have bound : k + 1 < N := lt_of_lt_of_le (Nat.succ_lt_succ inside) queue.fits
    have here : (head + 0) % N = head := Nat.mod_eq_of_lt queue.head_lt
    rw [next]
    refine full _ (queue.slot_lt _) (fun same => ?_) _
      (queue.full (k + 1) (Nat.succ_lt_succ inside))
    have := slot_injective bound (Nat.zero_lt_of_lt bound) (same.trans here.symm)
    omega
  free k outside bound := by
    have next : ((head + 1) % N + k) % N = (head + (k + 1)) % N := by
      rw [Nat.mod_add_mod, Nat.add_assoc, Nat.add_comm 1 k]
    have here : (head + 0) % N = head := Nat.mod_eq_of_lt queue.head_lt
    rw [next]
    by_cases last : k + 1 < N
    · refine free _ (queue.slot_lt _) (fun same => ?_)
        (queue.free (k + 1) (Nat.succ_le_succ outside) last)
      have := slot_injective last (Nat.zero_lt_of_lt last) (same.trans here.symm)
      omega
    · -- the slot furthest from the new head is the one just emptied
      have all : k + 1 = N := by omega
      rw [all, Nat.add_mod_right, Nat.mod_eq_of_lt queue.head_lt]
      exact popped

end RingQueue

end RlxFw
