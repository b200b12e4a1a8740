import RlxFw.Session

/-!
# Creating a session

What `bk_sess_new` leaves of the table when the random source fails, and what
the tokens of the table are over a run.
-/

namespace RlxFw.Broker

/-! ## The random source -/

/-- Bytes come in up to the length asked for, and to it exactly on success. -/
theorem readLoop_length {n : Nat} (answers : List Read) {got : List UInt8}
    (short : got.length ≤ n) :
    (readLoop n answers got).1.length ≤ n ∧
      ((readLoop n answers got).2 = true →
        (readLoop n answers got).1.length = n) := by
  induction answers generalizing got with
  | nil =>
      unfold readLoop
      split_ifs with done
      · exact ⟨short, fun _ => le_antisymm short done⟩
      · exact ⟨short, nofun⟩
  | cons answer answers ih =>
      unfold readLoop
      split_ifs with done
      · exact ⟨short, fun _ => le_antisymm short done⟩
      · cases answer with
        | fail => exact ⟨short, nofun⟩
        | again => exact ih short
        | data bytes =>
            dsimp only
            split_ifs with ended
            · exact ⟨short, nofun⟩
            · apply ih
              rw [List.length_append, List.length_take]
              omega

theorem bkRandom_length (source : Source) (n : Nat) :
    (bkRandom source n).1.length ≤ n ∧
      ((bkRandom source n).2 = true → (bkRandom source n).1.length = n) := by
  cases source with
  | none => exact ⟨Nat.zero_le n, nofun⟩
  | some answers => exact readLoop_length answers (Nat.zero_le n)

/-- A token written over whole is the bytes written. -/
theorem Token.overwrite_whole (t : Token) {bytes : List UInt8}
    (whole : bytes.length = tokLen) : (t.overwrite bytes).bytes = bytes := by
  simp only [Token.overwrite]
  rw [List.take_of_length_le whole.le,
    List.drop_eq_nil_of_le (by rw [t.length_eq, whole]), List.append_nil]

/-! ## The entry that is filled -/

/-- With every entry in use, the least recently used one is filled. -/
theorem newSlot_full {table : Table} (full : ∀ i, (table i).used = true) :
    newSlot table = lru table := by
  unfold newSlot
  rw [List.find?_eq_none.mpr]
  · rfl
  · intro i _
    simp [full i]

/-- With an entry free, a free one is filled. -/
theorem newSlot_free {table : Table} (free : ¬ ∀ i, (table i).used = true) :
    (table (newSlot table)).used = false := by
  unfold newSlot
  cases found : (List.finRange nsess).find? fun i => !(table i).used with
  | none =>
      rw [List.find?_eq_none] at found
      exact absurd (fun i => by simpa using found i (List.mem_finRange i)) free
  | some i => simpa using List.find?_some found

/-! ## A failing call -/

/-- Every entry still in use is as it was. -/
def Intact (before after : Table) : Prop :=
  ∀ i, (after i).used = true → after i = before i

/-- The call evicts an entry and the random source fails part way through its
token, having changed it. -/
def TearsToken (call : NewCall) (s : Sessions) : Prop :=
  let table := bkSessExpire call.expireAt s.table
  let random := bkRandom call.tok tokLen
  (∀ i, (table i).used = true) ∧ random.2 = false ∧
    (table (lru table)).tok.overwrite random.1 ≠ (table (lru table)).tok

/-- A failing `bk_sess_new` keeps every live entry whole exactly when it does
not tear a token. -/
theorem intact_iff {call : NewCall} {s : Sessions}
    (fails : (bkSessNew call s).2 = none) :
    Intact (bkSessExpire call.expireAt s.table) (bkSessNew call s).1.table ↔
      ¬ TearsToken call s := by
  unfold bkSessNew at fails ⊢
  unfold TearsToken
  generalize bkSessExpire call.expireAt s.table = table at *
  generalize bkRandom call.tok tokLen = random at *
  dsimp only at fails ⊢
  by_cases tokFails : random.2 = false
  · rw [if_pos (by simp [tokFails])]
    by_cases full : ∀ i, (table i).used = true
    · -- the evicted entry is written in place and stays in use
      rw [newSlot_full full]
      constructor
      · intro intact torn
        apply torn.2.2
        have kept := intact (lru table) (by simp [full])
        simpa using congrArg Sess.tok kept
      · intro untorn i _
        have same : (table (lru table)).tok.overwrite random.1 =
            (table (lru table)).tok := by
          by_contra changed
          exact untorn ⟨full, tokFails, changed⟩
        rw [same, Function.update_eq_self]
    · refine ⟨fun _ torn => full torn.1, ?_⟩
      intro _ i used
      by_cases here : i = newSlot table
      · subst here
        simp [newSlot_free full] at used
      · exact Function.update_of_ne here _ _
  · rw [Bool.not_eq_false] at tokFails
    rw [if_neg (by simp [tokFails])] at fails ⊢
    refine ⟨fun _ torn => by simp [tokFails] at torn, ?_⟩
    intro _ i used
    split_ifs at fails used ⊢
    unfold bkSessDrop at used ⊢
    by_cases here : i = newSlot table
    · subst here
      simp [Sess.zero] at used
    · exact Function.update_of_ne here _ _

/-! ## A call that succeeds -/

/-- A successful call fills one entry with both random reads, whole. -/
theorem bkSessNew_eq_some {call : NewCall} {s : Sessions} {slot : Fin nsess}
    (made : (bkSessNew call s).2 = some slot) :
    ((bkSessNew call s).1.table slot).tok.bytes = (bkRandom call.tok tokLen).1 ∧
      ((bkSessNew call s).1.table slot).csrf.bytes =
        (bkRandom call.csrf tokLen).1 ∧
      ∀ i, i ≠ slot → (bkSessNew call s).1.table i =
        bkSessExpire call.expireAt s.table i := by
  have tokWhole := (bkRandom_length call.tok tokLen).2
  have csrfWhole := (bkRandom_length call.csrf tokLen).2
  unfold bkSessNew at made ⊢
  dsimp only at made ⊢
  split_ifs at made with tokRead csrfRead
  cases made
  simp only [tokRead, csrfRead, not_true_eq_false, if_false,
    Function.update_self]
  refine ⟨Token.overwrite_whole _ (tokWhole tokRead),
    Token.overwrite_whole _ (csrfWhole csrfRead), ?_⟩
  intro i other
  exact Function.update_of_ne other _ _

/-! ## Runs -/

/-- What the broker does to the table: a lookup, whose hit it may mark as used,
an entry made, one dropped, all dropped. -/
inductive SessEvent where
  | find (now : Nat) (tok : Token) (usedAt : Option Nat)
  | make (call : NewCall)
  | drop (i : Fin nsess)
  | dropAll

/-- `s->last = bk_now(bk)`, on an entry found and marked. -/
def touch (table : Table) : Option (Fin nsess) → Option Nat → Table
  | some i, some now => Function.update table i { table i with last := now }
  | _, _ => table

/-- Marking an entry changes no token. -/
theorem touch_entry (table : Table) (found : Option (Fin nsess))
    (usedAt : Option Nat) (i : Fin nsess) :
    (touch table found usedAt i).used = (table i).used ∧
      (touch table found usedAt i).tok = (table i).tok ∧
      (touch table found usedAt i).csrf = (table i).csrf := by
  cases found with
  | none => exact ⟨rfl, rfl, rfl⟩
  | some found =>
      cases usedAt with
      | none => exact ⟨rfl, rfl, rfl⟩
      | some now =>
          by_cases here : i = found
          · subst here
            simp only [touch, Function.update_self, and_self]
          · simp only [touch, Function.update_of_ne here, and_self]

/-- The sessions, and the random reads of every call that succeeded. -/
structure SessRun where
  sessions : Sessions
  issued : List (List UInt8 × List UInt8)

/-- `bk_init`. -/
def SessRun.init : SessRun where
  sessions := { table := bkSessDropAll, seq := 0 }
  issued := []

def SessRun.step (run : SessRun) : SessEvent → SessRun
  | .find now tok usedAt =>
      let found := bkSessFind now run.sessions.table tok
      { run with sessions :=
          { run.sessions with table := touch found.1 found.2 usedAt } }
  | .make call =>
      let made := bkSessNew call run.sessions
      { sessions := made.1
        issued :=
          if made.2.isSome then
            ((bkRandom call.tok tokLen).1, (bkRandom call.csrf tokLen).1) ::
              run.issued
          else run.issued }
  | .drop i =>
      { run with sessions :=
          { run.sessions with table := bkSessDrop run.sessions.table i } }
  | .dropAll =>
      { run with sessions := { run.sessions with table := bkSessDropAll } }

/-- No step of a run tears a token. -/
def Untorn : SessRun → List SessEvent → Prop
  | _, [] => True
  | run, event :: events =>
      (match event with
        | .make call => ¬ TearsToken call run.sessions
        | _ => True) ∧
      Untorn (run.step event) events

/-- Every entry in use holds the two reads of one call that succeeded. -/
def Issued (run : SessRun) : Prop :=
  ∀ i, (run.sessions.table i).used = true →
    ((run.sessions.table i).tok.bytes, (run.sessions.table i).csrf.bytes) ∈
      run.issued

/-- An entry in use after an expiry is as it was. -/
theorem bkSessExpire_used {now : Nat} {table : Table} {i : Fin nsess}
    (used : (bkSessExpire now table i).used = true) :
    bkSessExpire now table i = table i := by
  unfold bkSessExpire at used ⊢
  split_ifs at used ⊢ with expired
  · simp [Sess.zero] at used
  · rfl

theorem Issued.expire {run : SessRun} (issued : Issued run) {now : Nat}
    {i : Fin nsess} (used : (bkSessExpire now run.sessions.table i).used = true) :
    ((bkSessExpire now run.sessions.table i).tok.bytes,
      (bkSessExpire now run.sessions.table i).csrf.bytes) ∈ run.issued := by
  have same := bkSessExpire_used used
  rw [same] at used ⊢
  exact issued i used

theorem Issued.make {run : SessRun} (issued : Issued run) {call : NewCall}
    (untorn : ¬ TearsToken call run.sessions) :
    Issued (run.step (.make call)) := by
  intro i used
  simp only [SessRun.step] at used ⊢
  cases made : (bkSessNew call run.sessions).2 with
  | none =>
      have intact := (intact_iff made).mpr untorn i used
      rw [intact] at used ⊢
      exact issued.expire used
  | some slot =>
      obtain ⟨tok, csrf, others⟩ := bkSessNew_eq_some made
      by_cases here : i = slot
      · subst here
        rw [tok, csrf]
        exact List.mem_cons_self
      · rw [others i here] at used ⊢
        exact List.mem_cons_of_mem _ (issued.expire used)

theorem Issued.find {run : SessRun} (issued : Issued run) (now : Nat)
    (tok : Token) (usedAt : Option Nat) :
    Issued (run.step (.find now tok usedAt)) := by
  intro i used
  simp only [SessRun.step, bkSessFind] at used ⊢
  obtain ⟨sameUsed, sameTok, sameCsrf⟩ :=
    touch_entry (bkSessExpire now run.sessions.table)
      (hit (bkSessExpire now run.sessions.table) tok) usedAt i
  rw [sameUsed] at used
  rw [sameTok, sameCsrf]
  exact issued.expire used

theorem Issued.step {run : SessRun} (issued : Issued run) (event : SessEvent)
    (untorn : Untorn run [event]) : Issued (run.step event) := by
  cases event with
  | find now tok usedAt => exact issued.find now tok usedAt
  | make call => exact issued.make untorn.1
  | drop j =>
      intro i used
      simp only [SessRun.step, bkSessDrop] at used ⊢
      by_cases here : i = j
      · subst here
        simp [Sess.zero] at used
      · rw [Function.update_of_ne here] at used ⊢
        exact issued i used
  | dropAll =>
      intro i used
      simp [SessRun.step, bkSessDropAll, Sess.zero] at used

theorem Issued.run {run : SessRun} (issued : Issued run)
    (events : List SessEvent) (untorn : Untorn run events) :
    Issued (events.foldl SessRun.step run) := by
  induction events generalizing run with
  | nil => exact issued
  | cons event events ih =>
      exact ih (issued.step event ⟨untorn.1, trivial⟩) untorn.2

theorem issued_init : Issued SessRun.init := by
  intro i used
  simp [SessRun.init, bkSessDropAll, Sess.zero] at used

/-- A source that answers one read of sixteen like bytes. -/
def likeBytes (byte : UInt8) : Source := some [.data (List.replicate tokLen byte)]

/-- A call at time 0 whose two reads succeed. -/
def wholeCall (byte : UInt8) : NewCall where
  expireAt := 0
  madeAt := 0
  tok := likeBytes byte
  csrf := likeBytes byte

/-- A call whose source ends after one byte. -/
def tornCall : NewCall where
  expireAt := 0
  madeAt := 0
  tok := some [.data [9]]
  csrf := none

/-- Four sessions opened at boot. -/
def fourSessions : List SessEvent :=
  [.make (wholeCall 1), .make (wholeCall 2), .make (wholeCall 3),
    .make (wholeCall 4)]

/-- A source that ends after one byte of a fifth session's token leaves the
first session live under a token that no call issued. -/
theorem torn_token_stays_live :
    let run := fourSessions.foldl SessRun.step .init
    (bkSessNew tornCall run.sessions).2 = none ∧
      ¬ Intact (bkSessExpire tornCall.expireAt run.sessions.table)
        (bkSessNew tornCall run.sessions).1.table ∧
      ¬ Issued ((fourSessions ++ [SessEvent.make tornCall]).foldl SessRun.step .init) := by
  unfold Intact Issued
  decide

/-- A failing `bk_sess_new` keeps every live entry whole exactly when it does
not tear the token of the entry it evicts, and over a run in which no call does
that, every live entry holds the two reads of one call that succeeded. -/
theorem session_creation_atomic_iff (call : NewCall) (s : Sessions)
    (events : List SessEvent) :
    ((bkSessNew call s).2 = none →
      (Intact (bkSessExpire call.expireAt s.table)
          (bkSessNew call s).1.table ↔ ¬ TearsToken call s)) ∧
    (Untorn .init events → Issued (events.foldl SessRun.step .init)) :=
  ⟨intact_iff, issued_init.run events⟩

end RlxFw.Broker
