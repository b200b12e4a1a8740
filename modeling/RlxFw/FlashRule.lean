import RlxFw.FlashWriters

/-!
# The writers' rule of deviations

A writer follows its plan to the first answer that is not what the plan wants.  After
that it sends one verb, `img reset`, and nothing else; a writer that succeeds saw every
answer as it should be.
-/

namespace RlxFw.FlashWriters

open Broker (SlotName)
open CfgStore (slotSize)
open Emission (Accounts AccountsFrom accounts_pure accounts_stop accounts_ask
  accountsFrom_pure accountsFrom_stop)
open Spictl (Digest Place armLine installLine slotPlace cfgPlace)

/-! ## Deviations -/

/-- What `n_writes` read as, in order. -/
def counts (events : List Asked) : List UInt32 :=
  events.flatMap fun
    | .number name (.ok x) => if name = ascii "n_writes" then [x] else []
    | _ => []

/-- The answer is what a writer of an image of a length wants. -/
def Asked.Fine (len : Nat) : Asked → Prop
  | .lock fd => 0 ≤ fd
  | .unlock _ => True
  | .verb _ rc => rc = 0
  | .stage _ rc => rc = 0
  | .number name read => ∃ x, read = .ok x ∧ (name = ascii "img_len" → x.toNat = len) ∧
      (name = ascii "inst_cmp_ok" → x = 1) ∧ (name = ascii "inst_cmp_diff" → x = 0)
  | .text name read => ∃ v, read = .ok v ∧ (name = ascii "img_err" → v = ascii "none") ∧
      (name = ascii "inst_reason" → v = ascii "OK")
  | .digest _ md => md ≠ none

/-- An answer that is a deviation behind the others: wrong of itself, or a count of
flash operations that did not move by what is wanted. -/
def Deviates (len want : Nat) (before : List Asked) (e : Asked) : Prop :=
  ¬ e.Fine len ∨ ∃ nw0 nw1, counts before = [nw0] ∧
    e = .number (ascii "n_writes") (.ok nw1) ∧ (nw1 - nw0).toNat ≠ want

/-- No answer was a deviation. -/
def Smooth (len want : Nat) (events : List Asked) : Prop :=
  ∀ before e after, events = before ++ e :: after → ¬ Deviates len want before e

/-! ## Plans -/

/-- The calls up to the digest. -/
def planHead (place : Place) (img : List UInt8) : List Call :=
  [.verb (ascii "disarm"), .verb (ascii "img reset"), .stage img, .number (ascii "img_len"),
    .text (ascii "img_err"), .number (ascii "n_writes"),
    .verb (armLine place.base place.size), .digest img]

/-- The calls after the install. -/
def planTail : List Call :=
  [.text (ascii "inst_reason"), .number (ascii "inst_cmp_ok"), .number (ascii "inst_cmp_diff"),
    .number (ascii "n_writes"), .verb (ascii "img reset")]

/-- The calls of a writer that meets no deviation. -/
def plan (place : Place) (img : List UInt8) (md : Digest) : List Call :=
  planHead place img ++ .verb (installLine place.name md) :: planTail

/-- A run on its plan, with the counts read so far and the calls that are left. -/
structure Along (len want : Nat) (calls : List Call) (before : List Asked)
    (seen : List UInt32) (rest : List Call) : Prop where
  calls_eq : before.map Asked.call ++ rest = calls
  seen_eq : counts before = seen
  smooth : Smooth len want before

/-- A run on its plan to the first deviation, and cleaned up after it.  The reason of a
refused install was read before. -/
def Aborted (len want : Nat) (calls : List Call) (Cleans : List Asked → Prop)
    (events : List Asked) : Prop :=
  ∃ before e more cleaned, events = before ++ e :: (more ++ cleaned) ∧
    (before ++ [e]).map Asked.call <+: calls ∧ Smooth len want before ∧
    Deviates len want before e ∧
    (∀ x ∈ more, x.call = .text (ascii "inst_reason")) ∧ Cleans cleaned

section Runs

variable {len want : Nat} {calls rest : List Call} {before : List Asked} {seen : List UInt32}
  {Cleans : List Asked → Prop}

theorem smooth_nil : Smooth len want [] := by
  intro before e after same
  cases before <;> cases same

theorem Smooth.concat (smooth : Smooth len want before) {e : Asked}
    (fine : ¬ Deviates len want before e) : Smooth len want (before ++ [e]) := by
  intro front x after same
  rcases List.eq_nil_or_concat after with rfl | ⟨middle, last, rfl⟩
  · obtain ⟨rfl, ⟨⟩⟩ := List.append_inj' same rfl
    exact fine
  · have apart : before ++ [e] = front ++ x :: middle ++ [last] := by simpa using same
    exact smooth front x middle (List.append_inj' apart rfl).1

theorem counts_append (early late : List Asked) :
    counts (early ++ late) = counts early ++ counts late :=
  List.flatMap_append

/-- The next call of the plan, answered as it should be. -/
theorem Along.next {c : Call} (along : Along len want calls before seen (c :: rest)) {e : Asked}
    (call : e.call = c) (fine : ¬ Deviates len want before e) :
    Along len want calls (before ++ [e]) (seen ++ counts [e]) rest where
  calls_eq := by
    rw [List.map_append, List.map_singleton, call, List.append_assoc]
    exact along.calls_eq
  seen_eq := by
    rw [counts_append, along.seen_eq]
  smooth := along.smooth.concat fine

/-- The next call of the plan, answered with a deviation and cleaned up after. -/
theorem Along.aborted {c : Call} (along : Along len want calls before seen (c :: rest))
    {e : Asked} (call : e.call = c) (deviates : Deviates len want before e)
    {more cleaned : List Asked} (reasons : ∀ x ∈ more, x.call = .text (ascii "inst_reason"))
    (cleans : Cleans cleaned) :
    Aborted len want calls Cleans (before ++ e :: (more ++ cleaned)) := by
  refine ⟨before, e, more, cleaned, rfl, ?_, along.smooth, deviates, reasons, cleans⟩
  rw [← along.calls_eq, List.map_append, List.map_singleton, call]
  exact (List.prefix_append_right_inj _).mpr (List.prefix_append [c] rest)

theorem Aborted.mono {events : List Asked} (aborted : Aborted len want calls Cleans events)
    {longer : List Call} (prefix_ : calls <+: longer) :
    Aborted len want longer Cleans events := by
  obtain ⟨before, e, more, cleaned, same, along, rest⟩ := aborted
  exact ⟨before, e, more, cleaned, same, along.trans prefix_, rest⟩

/-- What is wrong of itself is all that can go wrong, but for a second count. -/
theorem not_deviates {e : Asked} (fine : e.Fine len) (uncounted : counts [e] = []) :
    ¬ Deviates len want before e := by
  rintro (wrong | ⟨nw0, nw1, -, rfl, -⟩)
  · exact wrong fine
  · cases uncounted

theorem fine_number {name : List UInt8} {x : UInt32} :
    (Asked.number name (.ok x)).Fine len ↔ (name = ascii "img_len" → x.toNat = len) ∧
      (name = ascii "inst_cmp_ok" → x = 1) ∧ (name = ascii "inst_cmp_diff" → x = 0) := by
  constructor
  · rintro ⟨x, ⟨⟩, fine⟩
    exact fine
  · exact fun fine => ⟨x, rfl, fine⟩

/-- A count is right whatever it is. -/
theorem fine_count (x : UInt32) : (Asked.number (ascii "n_writes") (.ok x)).Fine len :=
  fine_number.mpr
    ⟨(absurd · (by decide)), (absurd · (by decide)), (absurd · (by decide))⟩

end Runs

/-! ## The steps -/

section Steps

variable {World : Type} (dev : Device World) {cleanup : Writer World Unit}
  {len want : Nat} {calls rest : List Call} {before : List Asked} {seen : List UInt32}
  {Cleans : List Asked → Prop}

/-- What a step of the plan does behind a run on it: the run goes on, or is aborted. -/
abbrev Proceeds (len want : Nat) (calls : List Call) (Cleans : List Asked → Prop)
    (before : List Asked) {Value : Type} (After : Value → List Asked → Prop)
    (step : Writer World Value) : Prop :=
  step.AccountsFrom before After fun _ events => Aborted len want calls Cleans events

/-- A call that only asks. -/
theorem asked_from {Value : Type} (transition : World → Value × World)
    (report : Value → Asked) :
    Proceeds len want calls Cleans before (fun value events => events = before ++ [report value])
      (Emission.ask transition report) :=
  accounts_ask fun _ => rfl

section Cleaning

variable (cleans : cleanup.Accounts (fun _ ops => Cleans ops) fun _ _ => False)
include cleans

theorem abort_accounts {Value : Type} (step detail : List UInt8) :
    (abort cleanup step detail : Writer World Value).Accounts (fun _ _ => False)
      fun _ ops => Cleans ops := by
  refine cleans.bind ?_ fun _ _ never => never.elim
  intro _ ops cleaned
  exact accounts_stop (by rwa [List.append_nil])

/-- Going on after an answer that is right, giving up after one that is wrong. -/
theorem check_proceeds {c : Call} (along : Along len want calls before seen (c :: rest))
    {e : Asked} (call : e.call = c) (step detail : List UInt8) {right : Bool}
    (fine : right = true → ¬ Deviates len want before e)
    (wrong : right = false → Deviates len want before e) :
    Proceeds len want calls Cleans (before ++ [e])
      (fun _ events => right = true ∧ Along len want calls events (seen ++ counts [e]) rest)
      (check cleanup step detail right) := by
  apply Accounts.ite
  · intro isRight
    refine accounts_pure ⟨isRight, ?_⟩
    rw [List.append_nil]
    exact along.next call (fine isRight)
  · intro isWrong
    refine (abort_accounts cleans step detail).weaken (fun _ _ never => never.elim) ?_
    intro _ cleaned isClean
    rw [List.append_assoc]
    exact along.aborted call (wrong (by simpa using isWrong)) (List.forall_mem_nil _) isClean

/-- A call that must answer 0. -/
theorem mustAnswer_proceeds {transition : World → Int × World} {report : Int → Asked}
    {c : Call} {step : List UInt8} (along : Along len want calls before seen (c :: rest))
    (call : ∀ rc, (report rc).call = c) (fine : ∀ rc, (report rc).Fine len ↔ rc = 0)
    (uncounted : ∀ rc, counts [report rc] = []) :
    Proceeds len want calls Cleans before
      (fun _ events => Along len want calls events seen rest)
      (do
        let rc ← (Emission.ask transition report : Writer World Int)
        check cleanup step (errnoText rc) (rc == 0)) := by
  refine (asked_from transition report).bind ?_
  rintro rc ops rfl
  refine (check_proceeds cleans along (call rc) step (errnoText rc) ?_ ?_).weaken ?_ fun _ _ => id
  · intro right
    exact not_deviates ((fine rc).mpr (beq_iff_eq.mp right)) (uncounted rc)
  · intro wrong
    exact Or.inl (mt (fine rc).mp (beq_eq_false_iff_ne.mp wrong))
  · rintro - ops ⟨-, after⟩
    rwa [uncounted, List.append_nil] at after

theorem mustVerb_proceeds {step line : List UInt8}
    (along : Along len want calls before seen (.verb line :: rest)) :
    Proceeds len want calls Cleans before
      (fun _ events => Along len want calls events seen rest)
      (mustVerb dev cleanup step line) :=
  mustAnswer_proceeds cleans along (fun _ => rfl) (fun _ => Iff.rfl) fun _ => rfl

theorem mustStage_proceeds {img : List UInt8}
    (along : Along len want calls before seen (.stage img :: rest)) :
    Proceeds len want calls Cleans before
      (fun _ events => Along len want calls events seen rest)
      (mustStage dev cleanup img) :=
  mustAnswer_proceeds cleans along (fun _ => rfl) (fun _ => Iff.rfl) fun _ => rfl

/-- A field that reads as a number; whether it is right is still to be said. -/
theorem mustRead_proceeds {name : List UInt8}
    (along : Along len want calls before seen (.number name :: rest)) :
    Proceeds len want calls Cleans before
      (fun x events => events = before ++ [.number name (.ok x)])
      (mustRead dev cleanup name) := by
  refine (asked_from (dev.fieldU32 name) (.number name)).bind ?_
  rintro (rc | x) ops rfl
  · refine (abort_accounts cleans _ _).weaken (fun _ _ never => never.elim) ?_
    intro _ cleaned isClean
    have wrong : ¬ (Asked.number name (.error rc)).Fine len := by
      rintro ⟨x, ⟨⟩, -⟩
    rw [List.append_assoc]
    exact along.aborted rfl (Or.inl wrong) (List.forall_mem_nil _) isClean
  · exact accounts_pure (List.append_nil _)

theorem mustNumber_proceeds {name : List UInt8} {right : UInt32 → Bool}
    {detail : UInt32 → List UInt8}
    (along : Along len want calls before seen (.number name :: rest))
    (fine : ∀ x, right x = true → ¬ Deviates len want before (.number name (.ok x)))
    (wrong : ∀ x, right x = false → Deviates len want before (.number name (.ok x))) :
    Proceeds len want calls Cleans before
      (fun _ events => ∃ x, right x = true ∧
        Along len want calls events (seen ++ counts [.number name (.ok x)]) rest)
      (mustNumber dev cleanup name right detail) := by
  refine (mustRead_proceeds dev cleans along).bind ?_
  rintro x events rfl
  exact (check_proceeds cleans along rfl name (detail x) (fine x) (wrong x)).weaken
    (fun _ _ after => ⟨x, after⟩) fun _ _ => id

theorem mustText_proceeds {name expected : List UInt8}
    (along : Along len want calls before seen (.text name :: rest))
    (fine : (Asked.text name (.ok expected)).Fine len)
    (wrong : ∀ v, v ≠ expected → ¬ (Asked.text name (.ok v)).Fine len) :
    Proceeds len want calls Cleans before
      (fun _ events => Along len want calls events seen rest)
      (mustText dev cleanup name expected) := by
  refine (asked_from (dev.field name) (.text name)).bind ?_
  rintro (rc | v) events rfl
  · refine (abort_accounts cleans _ _).weaken (fun _ _ never => never.elim) ?_
    intro _ cleaned isClean
    have failed : ¬ (Asked.text name (.error rc)).Fine len := by
      rintro ⟨x, ⟨⟩, -⟩
    rw [List.append_assoc]
    exact along.aborted rfl (Or.inl failed) (List.forall_mem_nil _) isClean
  · have uncounted : seen ++ counts [.text name (.ok v)] = seen := List.append_nil seen
    refine (check_proceeds cleans along (e := .text name (.ok v)) rfl name v
      (fun right : (v == expected) = true =>
        not_deviates (beq_iff_eq.mp right ▸ fine) rfl)
      fun other => Or.inl (wrong v (beq_eq_false_iff_ne.mp other))).weaken ?_ fun _ _ => id
    rintro - ops ⟨-, after⟩
    rwa [uncounted] at after

/-- A number of the kernel's verdict, which the plan wants to be what is right. -/
theorem mustBe_proceeds {name : List UInt8} {right : UInt32 → Bool}
    {detail : UInt32 → List UInt8}
    (along : Along len want calls before seen (.number name :: rest))
    (fine : ∀ x, right x = true ↔ (Asked.number name (.ok x)).Fine len)
    (uncounted : ∀ x, counts [.number name (.ok x)] = []) :
    Proceeds len want calls Cleans before
      (fun _ events => Along len want calls events seen rest)
      (mustNumber dev cleanup name right detail) := by
  refine (mustNumber_proceeds dev cleans along ?_ ?_).weaken ?_ fun _ _ => id
  · intro x isRight
    exact not_deviates ((fine x).mp isRight) (uncounted x)
  · intro x isWrong
    refine Or.inl fun isFine => ?_
    rw [(fine x).mpr isFine] at isWrong
    cases isWrong
  · rintro - ops ⟨x, -, after⟩
    rwa [uncounted, List.append_nil] at after

/-- Steps 2 to 4. -/
theorem stageImage_proceeds {img : List UInt8} (isLen : len = img.length)
    (along : Along len want calls before []
      (.verb (ascii "disarm") :: .verb (ascii "img reset") :: .stage img ::
        .number (ascii "img_len") :: .text (ascii "img_err") :: .number (ascii "n_writes") ::
        rest)) :
    Proceeds len want calls Cleans before
      (fun nw0 events => Along len want calls events [nw0] rest)
      (stageImage dev cleanup img) := by
  subst isLen
  unfold stageImage
  refine (mustVerb_proceeds dev cleans along).bind fun _ disarmed along => ?_
  refine (mustVerb_proceeds dev cleans along).bind fun _ reset along => ?_
  refine (mustStage_proceeds dev cleans along).bind fun _ staged along => ?_
  refine (mustBe_proceeds dev cleans along ?_ fun _ => rfl).bind fun _ long along => ?_
  · intro x
    rw [fine_number, beq_iff_eq]
    exact ⟨fun right => ⟨fun _ => right, (absurd · (by decide)), (absurd · (by decide))⟩,
      fun fine => fine.1 rfl⟩
  refine (mustText_proceeds dev cleans along ?_ ?_).bind fun _ noError along => ?_
  · exact ⟨_, rfl, fun _ => rfl, (absurd · (by decide))⟩
  · rintro v other ⟨w, ⟨⟩, isNone, -⟩
    exact other (isNone rfl)
  refine (mustRead_proceeds dev cleans along).weaken ?_ fun _ _ => id
  rintro nw0 ops counted
  rw [counted]
  refine along.next rfl ?_
  rintro (wrong | ⟨first, second, earlier, -⟩)
  · exact wrong (fine_count _)
  · rw [along.seen_eq] at earlier
    cases earlier

theorem installVerb_proceeds {place : Place} {md : Digest}
    (along : Along len want calls before seen (.verb (installLine place.name md) :: rest)) :
    Proceeds len want calls Cleans before
      (fun _ events => Along len want calls events seen rest)
      (installVerb dev cleanup place md) := by
  refine (asked_from _ _).bind ?_
  rintro rc ops rfl
  have uncounted : seen ++ counts [.verb (installLine place.name md) rc] = seen :=
    List.append_nil seen
  apply AccountsFrom.ite
  · intro refused
    refine (asked_from (dev.field _) (.text (ascii "inst_reason"))).bind ?_
    rintro reason ops rfl
    refine (abort_accounts cleans _ _).weaken (fun _ _ never => never.elim) ?_
    intro _ cleaned isClean
    have asked : ∀ x ∈ [Asked.text (ascii "inst_reason") reason],
        x.call = .text (ascii "inst_reason") := by
      simp [Asked.call]
    have wrong : ¬ (Asked.verb (installLine place.name md) rc).Fine len := refused
    have aborted := along.aborted rfl (Or.inl wrong) asked isClean
    simpa using aborted
  · intro taken
    have ok : (Asked.verb (installLine place.name md) rc).Fine len := not_not.mp taken
    have after := along.next rfl (not_deviates ok rfl)
    rw [uncounted] at after
    exact accountsFrom_pure after

/-- Steps 5 and 6.  What is called after the digest depends on it. -/
theorem armAndInstall_proceeds {place : Place} {img : List UInt8} (tail : List Call)
    (along : Along len want calls before seen
      [.verb (armLine place.base place.size), .digest img]) :
    (armAndInstall dev cleanup place img).AccountsFrom before
      (fun _ events => ∃ md, Along len want
        (calls ++ .verb (installLine place.name md) :: tail) events seen tail)
      fun _ events => ∃ md, Aborted len want
        (calls ++ .verb (installLine place.name md) :: tail) Cleans events := by
  have early (why : Deviation) (events : List Asked)
      (aborted : Aborted len want calls Cleans events) :
      ∃ md, Aborted len want (calls ++ .verb (installLine place.name md) :: tail) Cleans
        events :=
    ⟨⟨List.replicate 32 0, List.length_replicate⟩, aborted.mono (List.prefix_append _ _)⟩
  unfold armAndInstall
  refine ((mustVerb_proceeds dev cleans along).weaken (fun _ _ => id) early).bind ?_
  intro _ armed along
  refine ((asked_from (dev.sha256 img) (.digest img)).weaken (fun _ _ => id) early).bind ?_
  rintro (_ | md) ops rfl
  · refine (abort_accounts cleans _ _).weaken (fun _ _ never => never.elim) ?_
    intro why cleaned isClean
    have wrong : ¬ (Asked.digest img none).Fine len := fun is => is rfl
    have aborted := along.aborted rfl (Or.inl wrong) (List.forall_mem_nil _) isClean
    refine early why _ ?_
    simpa using aborted
  · have right : (Asked.digest img (some md)).Fine len := nofun
    have digested := along.next rfl (not_deviates right rfl)
    have after : Along len want (calls ++ .verb (installLine place.name md) :: tail)
        (armed ++ [.digest img (some md)]) seen
        (.verb (installLine place.name md) :: tail) := by
      refine ⟨?_, ?_, digested.smooth⟩
      · rw [← digested.calls_eq, List.append_nil]
      · rw [digested.seen_eq]
        exact List.append_nil seen
    exact (installVerb_proceeds dev cleans after).weaken (fun _ _ installed => ⟨md, installed⟩)
      fun _ _ aborted => ⟨md, aborted⟩

/-- Step 7. -/
theorem verdict_proceeds {nw0 : UInt32}
    (along : Along len want calls before [nw0]
      (.text (ascii "inst_reason") :: .number (ascii "inst_cmp_ok") ::
        .number (ascii "inst_cmp_diff") :: .number (ascii "n_writes") :: rest)) :
    Proceeds len want calls Cleans before
      (fun _ events => ∃ nw1, (nw1 - nw0).toNat = want ∧
        Along len want calls events [nw0, nw1] rest)
      (verdict dev cleanup nw0 want) := by
  unfold verdict
  refine (mustText_proceeds dev cleans along ?_ ?_).bind fun _ reason along => ?_
  · exact ⟨_, rfl, (absurd · (by decide)), fun _ => rfl⟩
  · rintro v other ⟨w, ⟨⟩, -, isOk⟩
    exact other (isOk rfl)
  refine (mustBe_proceeds dev cleans along ?_ fun _ => rfl).bind fun _ compared along => ?_
  · intro x
    rw [fine_number, beq_iff_eq]
    exact ⟨fun right => ⟨(absurd · (by decide)), fun _ => right, (absurd · (by decide))⟩,
      fun fine => fine.2.1 rfl⟩
  refine (mustBe_proceeds dev cleans along ?_ fun _ => rfl).bind fun _ differ along => ?_
  · intro x
    rw [fine_number, beq_iff_eq]
    exact ⟨fun right => ⟨(absurd · (by decide)), (absurd · (by decide)), fun _ => right⟩,
      fun fine => fine.2.2 rfl⟩
  refine (mustNumber_proceeds dev cleans along ?_ ?_).weaken ?_ fun _ _ => id
  · rintro nw1 right (wrong | ⟨first, second, earlier, same, moved⟩)
    · exact wrong (fine_count _)
    · rw [along.seen_eq] at earlier
      cases earlier
      cases same
      exact moved (beq_iff_eq.mp right)
  · intro nw1 wrong
    exact Or.inr ⟨nw0, nw1, along.seen_eq, rfl, beq_eq_false_iff_ne.mp wrong⟩
  · rintro - events ⟨nw1, right, after⟩
    exact ⟨nw1, beq_iff_eq.mp right, after⟩

/-- The steps that the two writers share, behind the calls made before. -/
theorem writeRegion_proceeds {place : Place} {img : List UInt8} (isLen : len = img.length)
    (along : Along len want (calls ++ planHead place img) before [] (planHead place img)) :
    (writeRegion dev cleanup place img want).AccountsFrom before
      (fun _ events => ∃ md nw0 nw1, (nw1 - nw0).toNat = want ∧
        Along len want (calls ++ plan place img md) events [nw0, nw1]
          [.verb (ascii "img reset")])
      fun _ events => ∃ md, Aborted len want (calls ++ plan place img md) Cleans events := by
  have early (why : Deviation) (events : List Asked)
      (aborted : Aborted len want (calls ++ planHead place img) Cleans events) :
      ∃ md, Aborted len want (calls ++ plan place img md) Cleans events := by
    refine ⟨⟨List.replicate 32 0, List.length_replicate⟩, aborted.mono ?_⟩
    rw [plan, ← List.append_assoc]
    exact List.prefix_append _ _
  unfold writeRegion
  refine ((stageImage_proceeds dev cleans isLen along).weaken (fun _ _ => id) early).bind ?_
  intro nw0 staged along
  have installs := armAndInstall_proceeds dev cleans planTail along
  simp only [List.append_assoc] at installs
  refine AccountsFrom.bind installs ?_
  rintro - installed ⟨md, along⟩
  refine (verdict_proceeds dev cleans along).weaken ?_ fun _ _ aborted => ⟨md, aborted⟩
  rintro - events ⟨nw1, moved, after⟩
  exact ⟨md, nw0, nw1, moved, after⟩

end Cleaning

end Steps

/-! ## The rule -/

/-- A call that changes the node: a verb, or a staging. -/
def Call.sends : Call → Bool
  | .verb _ => true
  | .stage _ => true
  | _ => false

/-- An arm verb. -/
def Call.arms : Call → Bool
  | .verb line => (ascii "arm ").isPrefixOf line
  | _ => false

/-- An install verb. -/
def Call.installs : Call → Bool
  | .verb line => (ascii "install ").isPrefixOf line
  | _ => false

/-- The verbs and the stagings of a run. -/
def sent (events : List Asked) : List Call := (events.map Asked.call).filter Call.sends

/-- What a writer that reports success was told. -/
structure Verified (place : Place) (img : List UInt8) (want : Nat) (events : List Asked) :
    Prop where
  staged : Asked.stage img 0 ∈ events
  length : ∃ ilen, .number (ascii "img_len") (.ok ilen) ∈ events ∧ ilen.toNat = img.length
  noError : .text (ascii "img_err") (.ok (ascii "none")) ∈ events
  installed : ∃ md, .verb (installLine place.name md) 0 ∈ events
  reason : .text (ascii "inst_reason") (.ok (ascii "OK")) ∈ events
  cmpOk : .number (ascii "inst_cmp_ok") (.ok 1) ∈ events
  cmpDiff : .number (ascii "inst_cmp_diff") (.ok 0) ∈ events
  /-- `n_writes` was read twice, and moved by what is wanted, as a word of 32 bits. -/
  moved : ∃ nw0 nw1, counts events = [nw0, nw1] ∧ (nw1 - nw0).toNat = want

/-- The rule of a writer of an image in a place. -/
structure Rule (place : Place) (img : List UInt8) (want : Nat) (events : List Asked)
    (success : Prop) : Prop where
  verified : success → Verified place img want events
  arms : events.countP (·.call.arms) ≤ 1
  installs : events.countP (·.call.installs) ≤ 1
  /-- After the first deviation one `img reset` is sent and nothing else; nothing at all
  when the lock was not got or when all was verified. -/
  cleansUp : ∀ before e after, events = before ++ e :: after →
    Smooth img.length want before → Deviates img.length want before e →
      sent after = [.verb (ascii "img reset")] ∨
        sent after = [] ∧ (e.call = .lock ∨ Verified place img want before)
  /-- A writer that reports failure met a deviation, unless it was never begun. -/
  failed : ¬ success → events ≠ [] → ¬ Smooth img.length want events

section Rules

variable {place : Place} {img : List UInt8} {want : Nat} {calls : List Call}
  {Cleans : List Asked → Prop} {md : Digest}

theorem Smooth.fine {len : Nat} {events : List Asked} (smooth : Smooth len want events)
    {e : Asked} (member : e ∈ events) : e.Fine len := by
  obtain ⟨before, after, same⟩ := List.append_of_mem member
  exact not_not.mp fun wrong => smooth before e after same (Or.inl wrong)

/-- The first deviation of a run is one. -/
theorem first_deviation {len : Nat} {before before' after after' : List Asked} {e e' : Asked}
    (same : before ++ e :: after = before' ++ e' :: after') (smooth : Smooth len want before)
    (deviates : Deviates len want before e) (smooth' : Smooth len want before')
    (deviates' : Deviates len want before' e') :
    before = before' ∧ e = e' ∧ after = after' := by
  rcases List.append_eq_append_iff.mp same with
    ⟨middle, isLonger, rest⟩ | ⟨middle, isLonger, rest⟩
  · cases middle with
    | nil =>
        rw [List.append_nil] at isLonger
        rw [List.nil_append] at rest
        cases rest
        exact ⟨isLonger.symm, rfl, rfl⟩
    | cons x middle =>
        cases rest
        exact absurd deviates (smooth' before _ middle isLonger)
  · cases middle with
    | nil =>
        rw [List.append_nil] at isLonger
        rw [List.nil_append] at rest
        cases rest
        exact ⟨isLonger, rfl, rfl⟩
    | cons x middle =>
        cases rest
        exact absurd deviates' (smooth before' _ middle isLonger)

/-- The calls that were made before the closing verb. -/
theorem Along.asked {before : List Asked} {seen : List UInt32}
    (along : Along img.length want (calls ++ plan place img md) before seen
      [.verb (ascii "img reset")]) :
    before.map Asked.call = calls ++ (planHead place img ++
      .verb (installLine place.name md) :: planTail.dropLast) := by
  have ends : planTail = planTail.dropLast ++ [.verb (ascii "img reset")] := rfl
  have same := along.calls_eq
  rw [plan, ends, ← List.cons_append, ← List.append_assoc, ← List.append_assoc] at same
  rw [List.append_cancel_right same, List.append_assoc]

/-- A run whose answers were all right saw the image written. -/
theorem Along.verified {before : List Asked} {nw0 nw1 : UInt32}
    (along : Along img.length want (calls ++ plan place img md) before [nw0, nw1]
      [.verb (ascii "img reset")]) (moved : (nw1 - nw0).toNat = want) :
    Verified place img want before := by
  have answered (c : Call) (member : c ∈ planHead place img ++
      .verb (installLine place.name md) :: planTail.dropLast) :
      ∃ e ∈ before, e.call = c ∧ e.Fine img.length := by
    have inside : c ∈ before.map Asked.call := by
      rw [along.asked]
      exact List.mem_append_right _ member
    obtain ⟨e, inside, call⟩ := List.mem_map.mp inside
    exact ⟨e, inside, call, along.smooth.fine inside⟩
  have number (name : List UInt8) (member : Call.number name ∈ planHead place img ++
      .verb (installLine place.name md) :: planTail.dropLast) :
      ∃ x, .number name (.ok x) ∈ before ∧
        (Asked.number name (.ok x)).Fine img.length := by
    obtain ⟨e, inside, call, fine⟩ := answered _ member
    cases e <;> cases call
    obtain ⟨x, rfl, right⟩ := fine
    exact ⟨x, inside, fine_number.mpr right⟩
  constructor
  · obtain ⟨e, inside, call, fine⟩ := answered (.stage img) (by simp [planHead])
    cases e <;> cases call
    cases fine
    exact inside
  · obtain ⟨ilen, inside, fine⟩ := number (ascii "img_len") (by simp [planHead])
    exact ⟨ilen, inside, (fine_number.mp fine).1 rfl⟩
  · obtain ⟨e, inside, call, fine⟩ := answered (.text (ascii "img_err")) (by simp [planHead])
    cases e <;> cases call
    obtain ⟨v, rfl, right, -⟩ := fine
    rwa [right rfl] at inside
  · obtain ⟨e, inside, call, fine⟩ := answered (.verb (installLine place.name md)) (by simp)
    cases e <;> cases call
    cases fine
    exact ⟨md, inside⟩
  · obtain ⟨e, inside, call, fine⟩ :=
      answered (.text (ascii "inst_reason")) (by simp [planTail])
    cases e <;> cases call
    obtain ⟨v, rfl, -, right⟩ := fine
    rwa [right rfl] at inside
  · obtain ⟨x, inside, fine⟩ := number (ascii "inst_cmp_ok") (by simp [planTail])
    rwa [(fine_number.mp fine).2.1 rfl] at inside
  · obtain ⟨x, inside, fine⟩ := number (ascii "inst_cmp_diff") (by simp [planTail])
    rwa [(fine_number.mp fine).2.2 rfl] at inside
  · exact ⟨nw0, nw1, along.seen_eq, moved⟩

theorem sent_append (early late : List Asked) : sent (early ++ late) = sent early ++ sent late := by
  simp [sent]

/-- Reading a reason sends nothing. -/
theorem sent_reasons {more : List Asked}
    (reasons : ∀ x ∈ more, x.call = .text (ascii "inst_reason")) : sent more = [] := by
  refine List.filter_eq_nil_iff.mpr fun c member => ?_
  obtain ⟨x, inside, rfl⟩ := List.mem_map.mp member
  rw [reasons x inside]
  exact Bool.false_ne_true

/-- The verbs of a plan: one that arms, and one that installs. -/
theorem countP_plan (place : Place) (img : List UInt8) (md : Digest) :
    (plan place img md).countP Call.arms = 1 ∧ (plan place img md).countP Call.installs = 1 :=
  ⟨rfl, rfl⟩

/-- Nothing is counted of a run but what it sent. -/
theorem countP_sent {p : Call → Bool} (sends : ∀ c, p c = true → c.sends = true)
    (events : List Asked) : events.countP (fun e => p e.call) = (sent events).countP p := by
  unfold sent
  rw [List.countP_filter, List.countP_map]
  refine List.countP_congr fun e _ => ?_
  cases counted : p e.call <;> simp [counted, sends]

theorem arms_sends {c : Call} (arms : c.arms = true) : c.sends = true := by
  cases c <;> first | rfl | cases arms

theorem installs_sends {c : Call} (installs : c.installs = true) : c.sends = true := by
  cases c <;> first | rfl | cases installs

/-- A run that was aborted on its plan sent no more of a kind than the plan has. -/
theorem Aborted.countP_le {len : Nat} {events : List Asked}
    (aborted : Aborted len want calls Cleans events)
    (cleans : ∀ ops, Cleans ops → sent ops = [.verb (ascii "img reset")]) {p : Call → Bool}
    (sends : ∀ c, p c = true → c.sends = true) (other : p (.verb (ascii "img reset")) = false) :
    events.countP (fun e => p e.call) ≤ calls.countP p := by
  obtain ⟨before, e, more, cleaned, rfl, along, -, -, reasons, isClean⟩ := aborted
  have apart : before ++ e :: (more ++ cleaned) = (before ++ [e]) ++ (more ++ cleaned) := by simp
  have late : (more ++ cleaned).countP (fun e => p e.call) = 0 := by
    rw [countP_sent sends, sent_append, sent_reasons reasons, cleans cleaned isClean,
      List.nil_append, List.countP_singleton, other]
    rfl
  rw [apart, List.countP_append, late, Nat.add_zero]
  exact (List.countP_map (p := p) (f := Asked.call) (l := before ++ [e])).symm.le.trans
    along.sublist.countP_le

/-- What is called before a plan sends nothing. -/
def Quiet (calls : List Call) : Prop :=
  calls.countP Call.arms = 0 ∧ calls.countP Call.installs = 0

/-- A run that was aborted keeps the rule. -/
theorem Aborted.rule {events : List Asked}
    (aborted : Aborted img.length want (calls ++ plan place img md) Cleans events)
    (quiet : Quiet calls)
    (cleans : ∀ ops, Cleans ops → sent ops = [.verb (ascii "img reset")]) {success : Prop}
    (fails : ¬ success) : Rule place img want events success where
  verified holds := absurd holds fails
  arms := by
    refine (aborted.countP_le cleans (fun _ => arms_sends) rfl).trans ?_
    rw [List.countP_append, quiet.1, (countP_plan place img md).1]
  installs := by
    refine (aborted.countP_le cleans (fun _ => installs_sends) rfl).trans ?_
    rw [List.countP_append, quiet.2, (countP_plan place img md).2]
  cleansUp := by
    obtain ⟨before, e, more, cleaned, rfl, -, smooth, deviates, reasons, isClean⟩ := aborted
    intro before' e' after' same smooth' deviates'
    obtain ⟨-, -, rfl⟩ := first_deviation same smooth deviates smooth' deviates'
    left
    rw [sent_append, sent_reasons reasons, cleans cleaned isClean, List.nil_append]
  failed _ _ := by
    obtain ⟨before, e, more, cleaned, rfl, -, -, deviates, -⟩ := aborted
    exact fun smooth => smooth before e _ rfl deviates

theorem Verified.append {before : List Asked} (verified : Verified place img want before)
    {more : List Asked} (uncounted : counts more = []) :
    Verified place img want (before ++ more) where
  staged := List.mem_append_left _ verified.staged
  length := verified.length.imp fun _ read => ⟨List.mem_append_left _ read.1, read.2⟩
  noError := List.mem_append_left _ verified.noError
  installed := verified.installed.imp fun _ => List.mem_append_left _
  reason := List.mem_append_left _ verified.reason
  cmpOk := List.mem_append_left _ verified.cmpOk
  cmpDiff := List.mem_append_left _ verified.cmpDiff
  moved := by
    rw [counts_append, uncounted, List.append_nil]
    exact verified.moved

/-- A run on its whole plan sent the verbs of the plan. -/
theorem Along.countP_eq {before : List Asked} {seen : List UInt32}
    (along : Along img.length want calls before seen [.verb (ascii "img reset")])
    (rc : Int) (p : Call → Bool) :
    (before ++ [Asked.verb (ascii "img reset") rc]).countP (fun e => p e.call) =
      calls.countP p := by
  rw [← along.calls_eq, List.countP_append, List.countP_append, List.countP_map]
  rfl

/-- A run that was not aborted keeps the rule, whatever its closing verb answers. -/
theorem Along.rule {before : List Asked} {nw0 nw1 : UInt32} (quiet : Quiet calls)
    (along : Along img.length want (calls ++ plan place img md) before [nw0, nw1]
      [.verb (ascii "img reset")]) (moved : (nw1 - nw0).toNat = want) (rc : Int)
    {success : Prop} (fails : ¬ success → rc ≠ 0) :
    Rule place img want (before ++ [.verb (ascii "img reset") rc]) success where
  verified _ := (along.verified moved).append rfl
  arms := by
    rw [along.countP_eq, List.countP_append, quiet.1, (countP_plan place img md).1]
  installs := by
    rw [along.countP_eq, List.countP_append, quiet.2, (countP_plan place img md).2]
  cleansUp := by
    intro before' e' after' same smooth' deviates'
    right
    rcases List.eq_nil_or_concat after' with rfl | ⟨middle, last, rfl⟩
    · obtain ⟨rfl, -⟩ := List.append_inj' same rfl
      exact ⟨rfl, Or.inr (along.verified moved)⟩
    · have apart : before ++ [.verb (ascii "img reset") rc] =
          before' ++ e' :: middle ++ [last] := by
        simpa using same
      exact absurd deviates'
        (along.smooth before' e' middle (List.append_inj' apart rfl).1)
  failed fail _ smooth :=
    smooth before _ [] rfl (Or.inl (fails fail))

/-- The rule of what was not begun. -/
theorem rule_nil {success : Prop} (fails : ¬ success) : Rule place img want [] success where
  verified holds := absurd holds fails
  arms := Nat.zero_le 1
  installs := Nat.zero_le 1
  cleansUp before e after same := by
    cases before <;> cases same
  failed _ begun := absurd rfl begun

/-- The rule of a lock that was not got. -/
theorem rule_lock {fd : Int} (failed : fd < 0) {success : Prop} (fails : ¬ success) :
    Rule place img want [.lock fd] success where
  verified holds := absurd holds fails
  arms := Nat.zero_le 1
  installs := Nat.zero_le 1
  cleansUp before e after same := by
    intro _ _
    right
    cases before with
    | nil =>
        cases same
        exact ⟨rfl, Or.inl rfl⟩
    | cons x before => cases before <;> cases same
  failed _ _ smooth := by
    have held : 0 ≤ fd := smooth.fine (List.mem_singleton_self (Asked.lock fd))
    omega

/-! ## The lock -/

/-- The lock that is held after a call. -/
def Asked.held (held : Option Int) : Asked → Option Int
  | .lock fd => if 0 ≤ fd then some fd else held
  | .unlock fd => if held = some fd then none else held
  | _ => held

/-- The lock that a run holds. -/
def holder (events : List Asked) : Option Int := events.foldl Asked.held none

/-- A call that is not about the lock. -/
def Call.keeps : Call → Bool
  | .lock => false
  | .unlock _ => false
  | _ => true

theorem foldl_held {events : List Asked} (keeps : ∀ e ∈ events, e.call.keeps = true)
    (held : Option Int) : events.foldl Asked.held held = held := by
  induction events generalizing held with
  | nil => rfl
  | cons e events ih =>
      have first := keeps e List.mem_cons_self
      have same : e.held held = held := by
        cases e <;> first | rfl | cases first
      rw [List.foldl_cons, same]
      exact ih (fun e member => keeps e (List.mem_cons_of_mem _ member)) held

theorem plan_keeps (place : Place) (img : List UInt8) (md : Digest) :
    ∀ c ∈ plan place img md, c.keeps = true := by
  simp [plan, planHead, planTail, Call.keeps]

end Rules

/-! ## The writers -/

section Writers

variable {World : Type} (dev : Device World)

/-- The image is given up by one verb. -/
theorem imgReset_asked :
    (spictlVerb dev (ascii "img reset")).Accounts
      (fun rc ops => ops = [.verb (ascii "img reset") rc]) fun _ _ => False :=
  accounts_ask fun _ => rfl

theorem cfCleanup_cleans :
    (cfCleanup dev).Accounts (fun _ ops => ∃ rc, ops = [.verb (ascii "img reset") rc])
      fun _ _ => False := by
  refine (imgReset_asked dev).bind ?_ fun _ _ never => never
  rintro rc ops rfl
  exact accounts_pure ⟨rc, rfl⟩

theorem updCleanup_cleans (fd : Int) :
    (updCleanup dev fd).Accounts
      (fun _ ops => ∃ rc, ops = [.verb (ascii "img reset") rc, .unlock fd])
      fun _ _ => False := by
  refine (imgReset_asked dev).bind ?_ fun _ _ never => never
  rintro rc ops rfl
  exact accounts_ask fun _ => ⟨rc, rfl⟩

theorem along_start (len want : Nat) (calls : List Call) : Along len want calls [] [] calls where
  calls_eq := rfl
  seen_eq := rfl
  smooth := smooth_nil

theorem cfgFlashWriteSlotLocked_accounts (s : Int) (img : ByteMap) :
    (cfgFlashWriteSlotLocked dev s (some img)).Accounts
      (fun _ events => Rule (cfgPlace (if s = 0 then 0 else 1)) (img.slice 0 slotSize)
        cfgFlashNwrites events True)
      fun _ events => Rule (cfgPlace (if s = 0 then 0 else 1)) (img.slice 0 slotSize)
        cfgFlashNwrites events False := by
  generalize isPlace : cfgPlace (if s = 0 then 0 else 1) = place
  generalize isImage : img.slice 0 slotSize = bytes
  have quiet : Quiet [] := ⟨rfl, rfl⟩
  have start : Along bytes.length cfgFlashNwrites ([] ++ planHead place bytes) [] []
      (planHead place bytes) :=
    along_start _ _ _
  unfold cfgFlashWriteSlotLocked
  dsimp only
  rw [isPlace, isImage]
  apply Accounts.ite
  · intro _
    exact accounts_stop (rule_nil id)
  · intro _
    refine Accounts.bind (writeRegion_proceeds dev (cfCleanup_cleans dev) rfl start) ?_ ?_
    · rintro - events ⟨md, nw0, nw1, moved, along⟩
      refine (imgReset_asked dev).bind ?_ fun _ _ never => never.elim
      rintro rc ops rfl
      apply Accounts.ite
      · intro failed
        refine accounts_stop ?_
        rw [List.append_nil]
        exact along.rule quiet moved rc fun _ => failed
      · intro _
        refine accounts_pure ?_
        rw [List.append_nil]
        exact along.rule quiet moved rc fun never => absurd trivial never
    · rintro why events ⟨md, aborted⟩
      refine aborted.rule quiet ?_ id
      rintro ops ⟨rc, rfl⟩
      rfl

/-- The lock after a run that was aborted and let it go. -/
theorem holder_aborted {len want : Nat} {place : Place} {img : List UInt8} {md : Digest}
    {fd : Int} (got : 0 ≤ fd) {events : List Asked}
    (aborted : Aborted len want ([.lock] ++ plan place img md)
      (fun ops => ∃ rc, ops = [.verb (ascii "img reset") rc, .unlock fd]) (.lock fd :: events)) :
    holder (.lock fd :: events) = none := by
  obtain ⟨before, e, more, cleaned, same, along, -, deviates, reasons, rc, rfl⟩ := aborted
  cases before with
  | nil =>
      cases same
      exact absurd deviates (not_deviates got rfl)
  | cons first before =>
      rw [List.cons_append] at same
      obtain ⟨rfl, rfl⟩ := List.cons.inj same
      have planned : ∀ x ∈ before ++ [e], x.call.keeps = true := by
        intro x member
        have tail : (before ++ [e]).map Asked.call <+: plan place img md :=
          (List.cons_prefix_cons.mp along).2
        exact plan_keeps place img md _ (tail.subset (List.mem_map_of_mem member))
      have quiet : ∀ x ∈ (before ++ [e]) ++ (more ++ [.verb (ascii "img reset") rc]),
          x.call.keeps = true := by
        simp only [List.forall_mem_append]
        refine ⟨List.forall_mem_append.mp planned, fun x member => ?_,
          by simp [Asked.call, Call.keeps]⟩
        rw [reasons x member]
        rfl
      have apart : before ++ e :: (more ++ [.verb (ascii "img reset") rc, .unlock fd]) =
          (before ++ [e]) ++ (more ++ [.verb (ascii "img reset") rc]) ++ [.unlock fd] := by
        simp
      have taken : (Asked.lock fd).held none = some fd := if_pos got
      rw [holder, List.foldl_cons, taken, apart, List.foldl_append, foldl_held quiet]
      exact if_pos rfl

/-- The lock after a run on its whole plan. -/
theorem holder_along {want : Nat} {place : Place} {img : List UInt8} {md : Digest} {fd : Int}
    (got : 0 ≤ fd) {events : List Asked} {seen : List UInt32}
    (along : Along img.length want ([.lock] ++ plan place img md) (.lock fd :: events) seen
      [.verb (ascii "img reset")]) (rc : Int) :
    holder (.lock fd :: events ++ [.verb (ascii "img reset") rc]) = some fd := by
  have planned : ∀ x ∈ events, x.call.keeps = true := by
    intro x member
    have same : Call.lock :: events.map Asked.call ++ [.verb (ascii "img reset")] =
        .lock :: plan place img md :=
      along.calls_eq
    refine plan_keeps place img md _ ?_
    rw [← (List.cons.inj same).2]
    exact List.mem_append_left _ (List.mem_map_of_mem member)
  have taken : (Asked.lock fd).held none = some fd := if_pos got
  have held : (Asked.lock fd :: events).foldl Asked.held none = some fd := by
    rw [List.foldl_cons, taken, foldl_held planned]
  rw [holder, List.foldl_append, held]
  rfl

theorem updInstall_accounts (dest : SlotName) (img : List UInt8) :
    (updInstall dev dest img).Accounts
      (fun fd events => Rule (slotPlace dest) img (updNwrites img.length) events True ∧
        holder events = some fd)
      fun _ events => Rule (slotPlace dest) img (updNwrites img.length) events False ∧
        holder events = none := by
  have quiet : Quiet [.lock] := ⟨rfl, rfl⟩
  have locks : (spictlLock dev).Accounts (fun fd ops => ops = [.lock fd]) fun _ _ => False :=
    accounts_ask fun _ => rfl
  refine locks.bind ?_ fun _ _ never => never.elim
  rintro fd ops rfl
  apply Accounts.ite
  · intro failed
    have unheld : (Asked.lock fd).held none = none := if_neg (not_le.mpr failed)
    exact accounts_stop ⟨rule_lock failed id, unheld⟩
  · intro notFailed
    have got : 0 ≤ fd := not_lt.mp notFailed
    have begun := along_start img.length (updNwrites img.length)
      ([.lock] ++ planHead (slotPlace dest) img)
    have start := begun.next (e := .lock fd) rfl (not_deviates got rfl)
    refine Accounts.bind (writeRegion_proceeds dev (updCleanup_cleans dev fd) rfl start) ?_ ?_
    · rintro - events ⟨md, nw0, nw1, moved, along⟩
      refine (imgReset_asked dev).bind ?_ fun _ _ never => never.elim
      rintro rc ops rfl
      refine accounts_pure ⟨?_, ?_⟩
      · rw [List.append_nil]
        exact along.rule quiet moved rc fun never => absurd trivial never
      · rw [List.append_nil]
        exact holder_along got along rc
    · rintro why events ⟨md, aborted⟩
      refine ⟨aborted.rule quiet ?_ id, holder_aborted got aborted⟩
      rintro ops ⟨rc, rfl⟩
      rfl

theorem Rule.of_iff {place : Place} {img : List UInt8} {want : Nat} {events : List Asked}
    {success success' : Prop} (rule : Rule place img want events success)
    (same : success ↔ success') : Rule place img want events success' where
  verified holds := rule.verified (same.mpr holds)
  arms := rule.arms
  installs := rule.installs
  cleansUp := rule.cleansUp
  failed fails := rule.failed (mt same.mp fails)

/-- Both writers of flash keep the rule of deviations, and `upd_install` holds the flash
lock exactly when it succeeds. -/
theorem flash_writers_rule :
    (∀ (s : Int) (world : World),
      (cfgFlashWriteSlotLocked dev s none world).2.2 = [] ∧
        (cfgFlashWriteSlotLocked dev s none world).1 ≠ .ok ()) ∧
    (∀ (s : Int) (img : ByteMap) (world : World),
      Rule (cfgPlace (if s = 0 then 0 else 1)) (img.slice 0 slotSize) cfgFlashNwrites
        (cfgFlashWriteSlotLocked dev s (some img) world).2.2
        ((cfgFlashWriteSlotLocked dev s (some img) world).1 = .ok ())) ∧
    ∀ (dest : SlotName) (img : List UInt8) (world : World),
      Rule (slotPlace dest) img (updNwrites img.length) (updInstall dev dest img world).2.2
        (∃ fd, (updInstall dev dest img world).1 = .ok fd) ∧
      (∀ fd, (updInstall dev dest img world).1 = .ok fd →
        holder (updInstall dev dest img world).2.2 = some fd) ∧
      ∀ why, (updInstall dev dest img world).1 = .error why →
        holder (updInstall dev dest img world).2.2 = none := by
  refine ⟨fun s world => ⟨rfl, nofun⟩, ?_, ?_⟩
  · intro s img world
    have accounts := cfgFlashWriteSlotLocked_accounts dev s img
    cases ran : (cfgFlashWriteSlotLocked dev s (some img) world).1 with
    | ok done => exact (accounts.returned world done ran).of_iff (by simp)
    | error why => exact (accounts.stopped world why ran).of_iff (by simp)
  · intro dest img world
    have accounts := updInstall_accounts dev dest img
    refine ⟨?_, fun fd ran => (accounts.returned world fd ran).2,
      fun why ran => (accounts.stopped world why ran).2⟩
    cases ran : (updInstall dev dest img world).1 with
    | ok fd => exact (accounts.returned world fd ran).1.of_iff (by simp)
    | error why => exact (accounts.stopped world why ran).1.of_iff (by simp)

end Writers

/-- A node that takes everything, and counts the flash operations of an install. -/
def willing (len operations : UInt32) : Device UInt32 where
  lock writes := (3, writes)
  unlock _ writes := writes
  verb line writes :=
    (0, if (ascii "install ").isPrefixOf line then writes + operations else writes)
  stage _ writes := (0, writes)
  fieldU32 name writes :=
    (.ok (if name = ascii "img_len" then len else if name = ascii "n_writes" then writes
      else if name = ascii "inst_cmp_ok" then 1 else 0), writes)
  field name writes := (.ok (if name = ascii "img_err" then ascii "none" else ascii "OK"), writes)
  sha256 _ writes := (some ⟨List.replicate 32 0, List.length_replicate⟩, writes)

/-- The count of flash operations may wrap. -/
example :
    (updInstall (willing 3 289) .A [1, 2, 3] 0xFFFFFFFF).1 = .ok 3 ∧
      (updInstall (willing 3 288) .A [1, 2, 3] 0).1 =
        .error ⟨ascii "n_writes", ascii "moved by 288, want 289"⟩ := by
  decide

end RlxFw.FlashWriters
