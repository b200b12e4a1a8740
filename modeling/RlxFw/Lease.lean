import RlxFw.Prelude
import Mathlib.Data.Finset.Card
import Mathlib.Data.List.Basic

/-!
# Leases

A lease is given on a key together with a secret.  It is renewed by each use, and ends when it
is given back or when all are withdrawn.  A lease is read off a history of notes, in their order.
-/

namespace RlxFw

/-- What is noted of leases. -/
inductive Note (Key Secret : Type*) where
  | opened (key : Key) (secret : Secret) (time : Nat)
  | used (key : Key) (time : Nat)
  | closed (key : Key)
  | cleared
deriving DecidableEq

namespace Note

variable {Key Secret : Type*} [DecidableEq Key]

/-- A lease on a key, its secret with the time it was last used, past one more note. -/
def next (key : Key) (held : Option (Secret × Nat)) : Note Key Secret → Option (Secret × Nat)
  | opened k secret time => if k = key then some (secret, time) else held
  | used k time => if k = key then held.map fun lease => (lease.1, time) else held
  | closed k => if k = key then none else held
  | cleared => none

/-- The lease on a key that a history leaves. -/
def lease (notes : List (Note Key Secret)) (key : Key) : Option (Secret × Nat) :=
  notes.foldl (next key) none

/-- The key that was opened or used, at some time or later. -/
def busy (since : Nat) : Note Key Secret → Option Key
  | opened k _ time => if since ≤ time then some k else none
  | used k time => if since ≤ time then some k else none
  | closed _ => none
  | cleared => none

/-- The other keys that were opened or used at some time or later. -/
def rivals (notes : List (Note Key Secret)) (key : Key) (since : Nat) : Finset Key :=
  (notes.filterMap (busy since)).toFinset.erase key

/-- The key that was opened. -/
def fresh : Note Key Secret → Option Key
  | opened k _ _ => some k
  | _ => none

/-- No key is opened twice. -/
def Fresh (notes : List (Note Key Secret)) : Prop := (notes.filterMap fresh).Nodup

variable {notes more : List (Note Key Secret)} {note : Note Key Secret} {key other : Key}
  {secret : Secret} {since time last : Nat}

@[simp]
theorem lease_nil : lease ([] : List (Note Key Secret)) key = none := rfl

@[simp]
theorem lease_concat : lease (notes ++ [note]) key = next key (lease notes key) note := by
  simp [lease]

theorem lease_opened_self :
    lease (notes ++ [opened key secret time]) key = some (secret, time) := by
  simp [next]

theorem lease_opened_of_ne (apart : key ≠ other) :
    lease (notes ++ [opened key secret time]) other = lease notes other := by
  simp [next, apart]

theorem lease_used_self :
    lease (notes ++ [used key time]) key =
      (lease notes key).map fun held => (held.1, time) := by
  simp [next]

theorem lease_used_of_ne (apart : key ≠ other) :
    lease (notes ++ [used key time]) other = lease notes other := by
  simp [next, apart]

theorem lease_closed_self : lease (notes ++ [closed key]) key = none := by
  simp [next]

theorem lease_closed_of_ne (apart : key ≠ other) :
    lease (notes ++ [closed key]) other = lease notes other := by
  simp [next, apart]

theorem lease_cleared : lease (notes ++ [cleared]) key = none := by
  simp [next]

@[simp]
theorem mem_rivals :
    other ∈ rivals notes key since ↔
      other ≠ key ∧ ∃ note ∈ notes, busy since note = some other := by
  simp [rivals]

theorem rivals_subset : rivals notes key since ⊆ rivals (notes ++ more) key since := by
  intro k member
  obtain ⟨apart, note, listed, isBusy⟩ := mem_rivals.mp member
  exact mem_rivals.mpr ⟨apart, note, List.mem_append_left more listed, isBusy⟩

omit [DecidableEq Key] in
theorem Fresh.left (isFresh : Fresh (notes ++ more)) : Fresh notes := by
  unfold Fresh at isFresh ⊢
  rw [List.filterMap_append] at isFresh
  exact isFresh.of_append_left

omit [DecidableEq Key] in
/-- A key that is opened was not opened before. -/
theorem Fresh.not_opened (isFresh : Fresh (notes ++ [opened key secret time])) :
    ∀ note ∈ notes, Note.fresh note ≠ some key := by
  intro note listed isOpened
  unfold Fresh at isFresh
  rw [List.filterMap_append, List.nodup_append] at isFresh
  exact isFresh.2.2 key (List.mem_filterMap.mpr ⟨note, listed, isOpened⟩) key
    List.mem_cons_self rfl

/-- A lease was given when its key was opened. -/
theorem opened_of_lease (held : lease notes key = some (secret, last)) :
    ∃ time, opened key secret time ∈ notes := by
  induction notes using List.reverseRecOn generalizing last with
  | nil => cases held
  | append_singleton notes note ih =>
      have earlier : ∀ {last}, lease notes key = some (secret, last) →
          ∃ time, opened key secret time ∈ notes ++ [note] := fun was =>
        (ih was).imp fun _ listed => List.mem_append_left _ listed
      rw [lease_concat] at held
      cases note with
      | opened k s t =>
          dsimp only [next] at held
          split_ifs at held with here
          · cases held
            exact ⟨last, here ▸ List.mem_append_right _ List.mem_cons_self⟩
          · exact earlier held
      | used k t =>
          dsimp only [next] at held
          split_ifs at held
          · obtain ⟨⟨_, before⟩, was, same⟩ := Option.map_eq_some_iff.mp held
            cases same
            exact earlier was
          · exact earlier held
      | closed k =>
          dsimp only [next] at held
          split_ifs at held
          exact earlier held
      | cleared => cases held

/-- A key was busy when its lease was last used. -/
theorem busy_of_lease (held : lease notes key = some (secret, last)) :
    ∃ note ∈ notes, busy last note = some key := by
  induction notes using List.reverseRecOn with
  | nil => cases held
  | append_singleton notes note ih =>
      have earlier : lease notes key = some (secret, last) →
          ∃ other ∈ notes ++ [note], busy last other = some key := fun was =>
        (ih was).imp fun _ found => ⟨List.mem_append_left _ found.1, found.2⟩
      have now : busy last note = some key →
          ∃ other ∈ notes ++ [note], busy last other = some key := fun isBusy =>
        ⟨note, List.mem_append_right _ List.mem_cons_self, isBusy⟩
      rw [lease_concat] at held
      cases note with
      | opened k s t =>
          dsimp only [next] at held
          split_ifs at held with here
          · cases held
            exact now (by simp [busy, here])
          · exact earlier held
      | used k t =>
          dsimp only [next] at held
          split_ifs at held with here
          · obtain ⟨_, -, same⟩ := Option.map_eq_some_iff.mp held
            cases same
            exact now (by simp [busy, here])
          · exact earlier held
      | closed k =>
          dsimp only [next] at held
          split_ifs at held
          exact earlier held
      | cleared => cases held

omit [DecidableEq Key] in
/-- What is busy at some time is busy from any earlier time. -/
theorem busy_mono {earlier : Nat} (le : earlier ≤ since) (isBusy : busy since note = some key) :
    busy earlier note = some key := by
  cases note with
  | opened k s t =>
      dsimp only [busy] at isBusy ⊢
      split_ifs at isBusy with late
      rwa [if_pos (le.trans late)]
  | used k t =>
      dsimp only [busy] at isBusy ⊢
      split_ifs at isBusy with late
      rwa [if_pos (le.trans late)]
  | closed k => cases isBusy
  | cleared => cases isBusy

end Note

end RlxFw
