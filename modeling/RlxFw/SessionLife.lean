import RlxFw.Lease
import RlxFw.SessionHash

/-!
# The life of a session

The table of sessions as leases on tokens: a live entry is a lease, and a lease that is not
in the table has been idle too long or was evicted for want of room, which takes three other
sessions used since.
-/

namespace RlxFw.Broker

open Note (lease rivals)

/-- What is noted of the sessions: tokens and CSRF tokens as bytes. -/
abbrev SessNote := Note (List UInt8) (List UInt8)

/-- The table against the history that led to it, and the times at which it was searched for
idle entries. -/
structure Lives (table : Table) (notes : List SessNote) (clocks : List Nat) : Prop where
  leased : ∀ i, (table i).used = true →
    lease notes (table i).tok.bytes = some ((table i).csrf.bytes, (table i).last)
  apart : ∀ i j, (table i).used = true → (table j).used = true →
    (table i).tok.bytes = (table j).tok.bytes → i = j
  lost : ∀ tok csrf last, lease notes tok = some (csrf, last) →
    (∃ i, (table i).used = true ∧ (table i).tok.bytes = tok) ∨
      (∃ now ∈ clocks, sessTtl ≤ now - last) ∨ nsess ≤ (rivals notes tok last).card + 1

section Table

variable {table table' : Table} {notes : List SessNote} {clocks more : List Nat} {now : Nat}
  {i j : Fin nsess}

theorem lives_start : Lives bkSessDropAll [] [] where
  leased i used := by cases used
  apart i j used := by cases used
  lost tok csrf last held := by cases held

theorem Lives.searched (lives : Lives table notes clocks) (among : clocks ⊆ more) :
    Lives table notes more where
  leased := lives.leased
  apart := lives.apart
  lost tok csrf last held := by
    obtain present | ⟨now, listed, idle⟩ | evicted := lives.lost tok csrf last held
    · exact Or.inl present
    · exact Or.inr (Or.inl ⟨now, among listed, idle⟩)
    · exact Or.inr (Or.inr evicted)

/-- A table whose entries in use are some of those before, the lost ones accounted for. -/
theorem Lives.shrink (lives : Lives table notes clocks)
    (kept : ∀ i, (table' i).used = true → table' i = table i)
    (gone : ∀ i, (table i).used = true → (table' i).used = false →
      (∃ now ∈ clocks, sessTtl ≤ now - (table i).last) ∨
        nsess ≤ (rivals notes (table i).tok.bytes (table i).last).card + 1) :
    Lives table' notes clocks where
  leased i used := by
    have same := kept i used
    rw [same] at used ⊢
    exact lives.leased i used
  apart i j usedI usedJ same := by
    rw [kept i usedI, kept j usedJ] at same
    rw [kept i usedI] at usedI
    rw [kept j usedJ] at usedJ
    exact lives.apart i j usedI usedJ same
  lost tok csrf last held := by
    obtain ⟨i, used, rfl⟩ | past := lives.lost tok csrf last held
    · cases still : (table' i).used with
      | true => exact Or.inl ⟨i, still, by rw [kept i still]⟩
      | false =>
          have since := (lives.leased i used).symm.trans held
          obtain ⟨-, rfl⟩ := Prod.mk.inj (Option.some.inj since)
          exact Or.inr (gone i used still)
    · exact Or.inr past

theorem Lives.expire (lives : Lives table notes clocks) (now : Nat) :
    Lives (bkSessExpire now table) notes (clocks ++ [now]) := by
  have longer := lives.searched (List.subset_append_left clocks [now])
  refine longer.shrink (fun i used => bkSessExpire_used used) fun i used dropped => ?_
  unfold bkSessExpire at dropped
  split_ifs at dropped with idle
  · exact Or.inl ⟨now, List.mem_append_right _ List.mem_cons_self, idle.2⟩
  · rw [used] at dropped
    cases dropped

/-- The entry filled when none is free was last used no later than any other. -/
theorem last_lru_le (table : Table) (j : Fin nsess) :
    (table (lru table)).last ≤ (table j).last := by
  have least : ∀ (is : List (Fin nsess)) (start : Fin nsess), ∀ j ∈ start :: is,
      (table (is.foldl
        (fun slot i =>
          if (table i).last < (table slot).last ∨
              (table i).last = (table slot).last ∧
                (table i).born < (table slot).born then i
          else slot) start)).last ≤ (table j).last := by
    intro is
    induction is with
    | nil =>
        intro start j member
        rw [List.mem_singleton.mp member]
        exact le_rfl
    | cons i rest ih =>
        intro start j member
        rw [List.foldl_cons]
        split_ifs with older
        · have first := ih i i List.mem_cons_self
          rcases List.mem_cons.mp member with rfl | later
          · omega
          · exact ih i j later
        · have first := ih start start List.mem_cons_self
          rcases List.mem_cons.mp member with rfl | later
          · exact first
          · rcases List.mem_cons.mp later with rfl | further
            · omega
            · exact ih start j (List.mem_cons_of_mem _ further)
  have all : ∀ j : Fin nsess, j ∈ ([0, 1, 2, 3] : List (Fin nsess)) := by decide
  exact least [1, 2, 3] 0 j (all j)

/-- A full table crowds out each of its entries that none was used before. -/
theorem Lives.crowded (lives : Lives table notes clocks)
    (full : ∀ i, (table i).used = true) (oldest : ∀ j, (table i).last ≤ (table j).last) :
    nsess ≤ (rivals notes (table i).tok.bytes (table i).last).card + 1 := by
  have apart : Set.InjOn (fun j => (table j).tok.bytes)
      ((Finset.univ.erase i : Finset (Fin nsess)) : Set (Fin nsess)) := fun j _ k _ same =>
    lives.apart j k (full j) (full k) same
  have others : (Finset.univ.erase i).image (fun j => (table j).tok.bytes) ⊆
      rivals notes (table i).tok.bytes (table i).last := by
    intro tok member
    obtain ⟨j, listed, rfl⟩ := Finset.mem_image.mp member
    obtain ⟨note, noted, isBusy⟩ := Note.busy_of_lease (lives.leased j (full j))
    refine Note.mem_rivals.mpr ⟨fun same => ?_, note, noted, Note.busy_mono (oldest j) isBusy⟩
    exact (Finset.mem_erase.mp listed).1 (lives.apart j i (full j) (full i) same)
  have counted := Finset.card_le_card others
  rw [Finset.card_image_of_injOn apart, Finset.card_erase_of_mem (Finset.mem_univ i),
    Finset.card_univ, Fintype.card_fin] at counted
  omega

/-- The entry that is to be filled may go. -/
theorem Lives.vacate (lives : Lives table notes clocks) {entry : Sess}
    (unused : entry.used = false) :
    Lives (Function.update table (newSlot table) entry) notes clocks := by
  have elsewhere : ∀ i, i ≠ newSlot table →
      Function.update table (newSlot table) entry i = table i := fun i apart =>
    Function.update_of_ne apart _ _
  refine lives.shrink (fun i used => elsewhere i fun here => ?_) fun i used dropped => ?_
  · rw [here, Function.update_self, unused] at used
    cases used
  · by_cases here : i = newSlot table
    · by_cases full : ∀ i, (table i).used = true
      · rw [newSlot_full full] at here
        exact Or.inr (lives.crowded full (here ▸ last_lru_le table))
      · rw [here, newSlot_free full] at used
        cases used
    · rw [elsewhere i here, used] at dropped
      cases dropped

/-- An entry that is free takes a token that was not given out before. -/
theorem Lives.fill (lives : Lives table notes clocks) (free : (table i).used = false)
    {entry : Sess} (inUse : entry.used = true)
    (fresh : Note.Fresh (notes ++ [.opened entry.tok.bytes entry.csrf.bytes entry.last])) :
    Lives (Function.update table i entry)
      (notes ++ [.opened entry.tok.bytes entry.csrf.bytes entry.last]) clocks := by
  have other : ∀ {j}, (table j).used = true → entry.tok.bytes ≠ (table j).tok.bytes := by
    intro j used same
    obtain ⟨time, opened⟩ := Note.opened_of_lease (lives.leased j used)
    exact fresh.not_opened _ opened (congrArg some same.symm)
  have before : ∀ {j}, j ≠ i → Function.update table i entry j = table j := fun apart =>
    Function.update_of_ne apart _ _
  constructor
  · intro j used
    by_cases here : j = i
    · rw [here, Function.update_self]
      exact Note.lease_opened_self
    · rw [before here] at used ⊢
      rw [Note.lease_opened_of_ne (other used)]
      exact lives.leased j used
  · intro j k usedJ usedK same
    by_cases hereJ : j = i
    · by_cases hereK : k = i
      · rw [hereJ, hereK]
      · rw [before hereK] at usedK same
        rw [hereJ, Function.update_self] at same
        exact absurd same (other usedK)
    · rw [before hereJ] at usedJ same
      by_cases hereK : k = i
      · rw [hereK, Function.update_self] at same
        exact absurd same.symm (other usedJ)
      · rw [before hereK] at usedK same
        exact lives.apart j k usedJ usedK same
  · intro tok csrf last held
    by_cases here : entry.tok.bytes = tok
    · refine Or.inl ⟨i, ?_⟩
      rw [Function.update_self]
      exact ⟨inUse, here⟩
    · rw [Note.lease_opened_of_ne here] at held
      obtain ⟨j, used, same⟩ | idle | evicted := lives.lost tok csrf last held
      · refine Or.inl ⟨j, ?_⟩
        have apart : j ≠ i := fun at' => by
          rw [at', free] at used
          cases used
        rw [before apart]
        exact ⟨used, same⟩
      · exact Or.inr (Or.inl idle)
      · exact Or.inr (Or.inr (evicted.trans
          (Nat.succ_le_succ (Finset.card_le_card Note.rivals_subset))))

/-- A failing `bk_sess_new` that tears no token. -/
theorem Lives.refuse {call : NewCall} {s : Sessions} (lives : Lives s.table notes clocks)
    (fails : (bkSessNew call s).2 = none) (untorn : ¬ TearsToken call s) :
    Lives (bkSessNew call s).1.table notes (clocks ++ [call.expireAt]) := by
  have expired := lives.expire call.expireAt
  unfold TearsToken at untorn
  unfold bkSessNew at fails ⊢
  generalize bkSessExpire call.expireAt s.table = table at *
  generalize bkRandom call.tok tokLen = random at *
  dsimp only at fails untorn ⊢
  by_cases tokFails : ¬ random.2 = true
  · rw [if_pos tokFails]
    dsimp only
    by_cases full : ∀ i, (table i).used = true
    · have same : (table (lru table)).tok.overwrite random.1 = (table (lru table)).tok := by
        by_contra changed
        exact untorn ⟨full, Bool.not_eq_true _ ▸ tokFails, changed⟩
      rw [newSlot_full full, same, Function.update_eq_self]
      exact expired
    · exact expired.vacate (newSlot_free full)
  · rw [if_neg tokFails] at fails ⊢
    by_cases csrfFails : ¬ (bkRandom call.csrf tokLen).2 = true
    · rw [if_pos csrfFails]
      exact expired.vacate rfl
    · rw [if_neg csrfFails] at fails
      cases fails

/-- A `bk_sess_new` that hands out a token for the first time. -/
theorem Lives.make {call : NewCall} {s : Sessions} {i : Fin nsess}
    (lives : Lives s.table notes clocks) (made : (bkSessNew call s).2 = some i)
    (fresh : Note.Fresh (notes ++ [.opened ((bkSessNew call s).1.table i).tok.bytes
      ((bkSessNew call s).1.table i).csrf.bytes call.madeAt])) :
    Lives (bkSessNew call s).1.table
      (notes ++ [.opened ((bkSessNew call s).1.table i).tok.bytes
        ((bkSessNew call s).1.table i).csrf.bytes call.madeAt])
      (clocks ++ [call.expireAt]) := by
  have expired := lives.expire call.expireAt
  unfold bkSessNew at made fresh ⊢
  generalize bkSessExpire call.expireAt s.table = table at *
  dsimp only at made fresh ⊢
  split_ifs at made fresh ⊢ with tokFails csrfFails
  cases made
  dsimp only at fresh ⊢
  rw [Function.update_self] at fresh ⊢
  have vacant : Lives (Function.update table (newSlot table) .zero) notes
      (clocks ++ [call.expireAt]) := expired.vacate rfl
  rw [← Function.update_idem Sess.zero]
  exact vacant.fill (by rw [Function.update_self]; rfl) rfl fresh

theorem last_touch (table : Table) (i : Fin nsess) (time : Nat) :
    (touch table (some i) (some time) i).last = time := by
  simp [touch]

/-- An entry in use is marked as used. -/
theorem Lives.mark (lives : Lives table notes clocks) (used : (table i).used = true)
    (time : Nat) :
    Lives (touch table (some i) (some time))
      (notes ++ [.used (table i).tok.bytes time]) clocks := by
  have entry := fun j => touch_entry table (some i) (some time) j
  have away : ∀ {j}, j ≠ i → touch table (some i) (some time) j = table j :=
    fun apart => Function.update_of_ne apart _ _
  constructor
  · intro j usedJ
    by_cases here : j = i
    · subst here
      rw [(entry j).2.1, (entry j).2.2, Note.lease_used_self, lives.leased j used, last_touch]
      rfl
    · rw [away here] at usedJ ⊢
      rw [Note.lease_used_of_ne fun same => here (lives.apart i j used usedJ same).symm]
      exact lives.leased j usedJ
  · intro j k usedJ usedK same
    rw [(entry j).1] at usedJ
    rw [(entry k).1] at usedK
    rw [(entry j).2.1, (entry k).2.1] at same
    exact lives.apart j k usedJ usedK same
  · intro tok csrf last held
    by_cases here : (table i).tok.bytes = tok
    · exact Or.inl ⟨i, (entry i).1.trans used, by rw [(entry i).2.1, here]⟩
    · rw [Note.lease_used_of_ne here] at held
      obtain ⟨j, usedJ, same⟩ | idle | evicted := lives.lost tok csrf last held
      · exact Or.inl ⟨j, (entry j).1.trans usedJ, by rw [(entry j).2.1, same]⟩
      · exact Or.inr (Or.inl idle)
      · exact Or.inr (Or.inr (evicted.trans
          (Nat.succ_le_succ (Finset.card_le_card Note.rivals_subset))))

/-- A token is given back, its entry freed or not there. -/
theorem Lives.close (lives : Lives table notes clocks) {tok : List UInt8}
    (kept : ∀ j, (table' j).used = true → table' j = table j)
    (gone : ∀ j, (table j).used = true →
      ((table' j).used = false ↔ (table j).tok.bytes = tok)) :
    Lives table' (notes ++ [.closed tok]) clocks := by
  have other : ∀ {j}, (table' j).used = true → (table j).used = true := fun used =>
    kept _ used ▸ used
  constructor
  · intro j used
    have elsewhere : tok ≠ (table j).tok.bytes := fun same => by
      rw [(gone j (other used)).mpr same.symm] at used
      cases used
    rw [kept j used, Note.lease_closed_of_ne elsewhere]
    exact lives.leased j (other used)
  · intro j k usedJ usedK same
    rw [kept j usedJ, kept k usedK] at same
    exact lives.apart j k (other usedJ) (other usedK) same
  · intro t csrf last held
    by_cases here : tok = t
    · rw [here, Note.lease_closed_self] at held
      cases held
    · rw [Note.lease_closed_of_ne here] at held
      obtain ⟨j, used, rfl⟩ | idle | evicted := lives.lost t csrf last held
      · have still : (table' j).used = true := by
          by_contra dropped
          exact here ((gone j used).mp (Bool.not_eq_true _ ▸ dropped)).symm
        exact Or.inl ⟨j, still, by rw [kept j still]⟩
      · exact Or.inr (Or.inl idle)
      · exact Or.inr (Or.inr (evicted.trans
          (Nat.succ_le_succ (Finset.card_le_card Note.rivals_subset))))

theorem Lives.drop (lives : Lives table notes clocks) (used : (table i).used = true) :
    Lives (bkSessDrop table i) (notes ++ [.closed (table i).tok.bytes]) clocks := by
  have elsewhere : ∀ {j}, j ≠ i → bkSessDrop table i j = table j := fun apart =>
    Function.update_of_ne apart _ _
  have freed : (bkSessDrop table i i).used = false := by
    unfold bkSessDrop
    rw [Function.update_self]
    rfl
  refine lives.close (fun j usedJ => elsewhere fun here => ?_) fun j usedJ => ?_
  · rw [here, freed] at usedJ
    cases usedJ
  · by_cases here : j = i
    · rw [here]
      exact iff_of_true freed rfl
    · rw [elsewhere here, usedJ]
      exact iff_of_false nofun fun same => here (lives.apart j i usedJ used same)

theorem lives_cleared : Lives bkSessDropAll (notes ++ [.cleared]) clocks where
  leased i used := by cases used
  apart i j used := by cases used
  lost tok csrf last held := by
    rw [Note.lease_cleared] at held
    cases held

end Table

end RlxFw.Broker
