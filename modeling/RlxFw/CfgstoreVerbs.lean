import RlxFw.CfgstoreTool
import RlxFw.ConfigRoundTrip

/-!
# What the console's tool keeps

`get` prints what `set` was given, `unset` and `init` go back to the defaults, and a verb
that refuses leaves the store alone.
-/

namespace RlxFw.Cfgstore

open CfgStore (Cfg Edits Faults Key Medium OnChip Returns Valid cfgDefaults cfgGet
  cfgIndexById cfgKeyById cfgKeys cfgSet cfgValidate finalValue idPwhash loadInfo loadOrDie
  newestOf nkeys noFaults schemaCheckValue schemaDefault storeRec)
open CfgText (cfgTextToValue cfgValueToText typedValue valueText)
open Httpd (cfgKeyByName)

/-! ## The lines of `get` -/

/-- The value of a key: the one that is stored, or its default. -/
def effective (c : Cfg) (i : Fin nkeys) : List UInt8 :=
  ((c.value i).or (schemaDefault (cfgKeys i).id)).getD []

/-- What `get` prints of a key's value. -/
def shownText (c : Cfg) (i : Fin nkeys) : List UInt8 :=
  if (cfgKeys i).web = .hidden then
    if (c.value i).isSome then ascii "set" else ascii "unset"
  else valueText (effective c i) (cfgKeys i).type

/-- The line of a key. -/
def lineOf (i : Fin nkeys) (text : List UInt8) : List UInt8 :=
  (cfgKeys i).name ++ ascii "=" ++ text

section Lines

variable {c : Cfg} {i : Fin nkeys}

theorem present_id : present c (cfgKeys i).id = (c.value i).isSome := by
  unfold present
  rw [CfgStore.cfgIndexById_id]
  rfl

theorem effective_spec (valid : Valid c) (shown : (cfgKeys i).web ≠ .hidden) :
    cfgGet c (cfgKeys i).id = .ok (effective c i) ∧
      schemaCheckValue (cfgKeys i) (effective c i) = none := by
  obtain ⟨v, got, checked⟩ := valid.cfgGet i (Httpd.ne_idPwhash_of_shown shown)
  have same : effective c i = v := by
    unfold cfgGet at got
    rw [CfgStore.cfgIndexById_id] at got
    unfold effective
    cases stored : c.value i with
    | some stored =>
        simp only [stored] at got
        split_ifs at got
        cases got
        rfl
    | none =>
        simp only [stored] at got
        cases default : schemaDefault (cfgKeys i).id with
        | none =>
            rw [default] at got
            cases got
        | some v' =>
            rw [default] at got
            cases got
            rfl
  rw [same]
  exact ⟨got, checked⟩

/-- Every key of a valid configuration is printed. -/
theorem printOne_valid (valid : Valid c) (i : Fin nkeys) :
    printOne c (cfgKeys i) = .ok (lineOf i (shownText c i)) := by
  unfold printOne lineOf shownText
  by_cases hidden : (cfgKeys i).web = .hidden
  · rw [if_pos hidden, if_pos hidden, present_id]
  · obtain ⟨got, checked⟩ := effective_spec valid hidden
    have short : (valueText (effective c i) (cfgKeys i).type).length < cfgTextMax :=
      Nat.lt_succ_of_le (CfgText.length_valueText_le (CfgText.shaped_of_checked checked))
    have printed := CfgText.cfgValueToText_eq hidden checked cfgTextMax
    rw [if_pos short] at printed
    rw [if_neg hidden, if_neg hidden, got]
    dsimp only
    rw [printed]

theorem printAll_valid (valid : Valid c) (keys : List (Fin nkeys)) :
    printAll c (keys.map cfgKeys) =
      (keys.map fun i => lineOf i (shownText c i), none) := by
  induction keys with
  | nil => rfl
  | cons i keys ih =>
      rw [List.map_cons, printAll, printOne_valid valid i, ih]
      rfl

end Lines

/-! ## The load -/

section Load

variable {faults : Faults} {m : Medium} {c : Cfg}

theorem loadOrDie_ok (loaded : loadOrDie (loadInfo faults m) = .ok c) :
    (loadInfo faults m).rc = none ∧ (loadInfo faults m).invalid = false ∧
      c = (loadInfo faults m).out := by
  unfold loadOrDie at loaded
  split_ifs at loaded with unread invalid
  cases loaded
  exact ⟨by simpa using unread, by simpa using invalid, rfl⟩

/-- A load that returns 0 gives a valid configuration. -/
theorem valid_of_fine (fine : (loadInfo faults m).rc = none) :
    Valid (loadInfo faults m).out := by
  rw [(CfgStore.loadInfo_selects fine).out]
  cases newer : newestOf m.slot with
  | none => exact CfgStore.valid_cfgDefaults
  | some p => exact (CfgStore.valid_of_accepted (CfgStore.accepted_of_newestOf newer)).congr rfl

theorem valid_of_loadOrDie (loaded : loadOrDie (loadInfo faults m) = .ok c) : Valid c := by
  obtain ⟨fine, -, rfl⟩ := loadOrDie_ok loaded
  exact valid_of_fine fine

/-- A load of a chip that returns 0 met no fault. -/
theorem loadInfo_of_fine (onChip : OnChip m) (fine : (loadInfo faults m).rc = none) :
    loadInfo faults m = loadInfo noFaults m := by
  apply CfgStore.loadInfo_of_reads onChip
  obtain ⟨chip, rfl⟩ := onChip
  funext s
  have there := (CfgStore.loadSlots_rc _).mp fine s
  by_contra failed
  rw [if_pos (by simpa using failed)] at there
  cases there

/-- `get` prints every key of a store that it loads. -/
theorem cmdGet_all {w : ToolWorld} (loaded : loadOrDie (loadInfo w.load m) = .ok c) :
    cmdGet w m [] =
      { exit := .ok, out := (List.finRange nkeys).map fun i => lineOf i (shownText c i)
        names := none, medium := m } := by
  have all := printAll_valid (valid_of_loadOrDie loaded) (List.finRange nkeys)
  unfold cmdGet
  rw [loaded]
  simp only [List.isEmpty_nil, if_true, all]
  rfl

end Load

/-! ## The assignments -/

/-- The text that the last assignment to a key gives it. -/
def lastText : List (List UInt8) → Fin nkeys → Option (List UInt8)
  | [], _ => none
  | arg :: rest, i =>
      (lastText rest i).or
        (if (arg.takeWhile fun c => c != 0x3D) = (cfgKeys i).name then
          some (arg.drop ((cfgKeys i).name.length + 1))
        else none)

theorem name_injective : ∀ i j : Fin nkeys, (cfgKeys i).name = (cfgKeys j).name → i = j := by
  decide

theorem id_injective : ∀ i j : Fin nkeys, (cfgKeys i).id = (cfgKeys j).id → i = j := by
  decide

theorem not_bytes_of_shown :
    ∀ i : Fin nkeys, (cfgKeys i).web ≠ .hidden → (cfgKeys i).type ≠ .bytes := by
  decide

theorem schemaDefault_hidden :
    ∀ i : Fin nkeys, (cfgKeys i).web = .hidden → schemaDefault (cfgKeys i).id = none := by
  decide

theorem cfgKeyByName_some {name : List UInt8} {k : Key} (found : cfgKeyByName name = some k) :
    ∃ i, k = cfgKeys i ∧ (cfgKeys i).name = name := by
  unfold cfgKeyByName at found
  obtain ⟨i, -, isKey⟩ := List.mem_map.mp (List.mem_of_find?_eq_some found)
  have named : k.name = name := by simpa using List.find?_some found
  exact ⟨i, isKey.symm, isKey ▸ named⟩

/-- An assignment that is taken gives a key that is shown the value of its text. -/
theorem assignment_ok {arg : List UInt8} {item : Tlv.Item}
    (taken : assignment arg = .ok item) :
    ∃ i, (cfgKeys i).web ≠ .hidden ∧ item.type = (cfgKeys i).id ∧
      (arg.takeWhile fun c => c != 0x3D) = (cfgKeys i).name ∧
      cfgTextToValue (cfgKeys i) (arg.drop ((cfgKeys i).name.length + 1)) =
        .ok item.val := by
  unfold assignment at taken
  dsimp only at taken
  split at taken
  · cases taken
  split at taken
  · cases taken
  split at taken
  · cases taken
  next k found =>
  obtain ⟨i, rfl, named⟩ := cfgKeyByName_some found
  split_ifs at taken with hidden long
  split at taken
  · cases taken
  next v read =>
  cases taken
  rw [← named] at read
  exact ⟨i, hidden, rfl, named.symm, read⟩

/-- A value that was read of a text is printed as that text. -/
theorem valueText_of_assigned {i : Fin nkeys} (shown : (cfgKeys i).web ≠ .hidden)
    {text v : List UInt8} (read : cfgTextToValue (cfgKeys i) text = .ok v) :
    valueText v (cfgKeys i).type = text := by
  obtain ⟨typed, -⟩ := CfgText.cfgTextToValue_eq_ok.mp read
  by_cases isStr : (cfgKeys i).type = .str
  · rw [isStr] at typed ⊢
    unfold typedValue at typed
    dsimp only at typed
    split_ifs at typed
    cases typed
    rfl
  · exact CfgText.valueText_of_typedValue isStr (not_bytes_of_shown i shown) typed

/-- A configuration after assignments: what a key was last given, or what it had. -/
structure SetFrom (argv : List (List UInt8)) (c c' : Cfg) (i : Fin nkeys) : Prop where
  kept : lastText argv i = none → c'.value i = c.value i
  given : ∀ text, lastText argv i = some text → (cfgKeys i).web ≠ .hidden ∧
    ∃ v, c'.value i = some v ∧ valueText v (cfgKeys i).type = text

theorem setFrom_of_setArgs {argv : List (List UInt8)} {c c' : Cfg}
    (done : setArgs c argv = .ok c') (i : Fin nkeys) : SetFrom argv c c' i := by
  induction argv generalizing c with
  | nil =>
      cases done
      exact ⟨fun _ => rfl, fun _ given => by cases given⟩
  | cons arg rest ih =>
      unfold setArgs at done
      cases taken : assignment arg with
      | error bad =>
          rw [taken] at done
          cases done
      | ok item =>
          rw [taken] at done
          dsimp only at done
          cases set : cfgSet c item.type item.val with
          | error fault =>
              rw [set] at done
              cases done
          | ok mid =>
              rw [set] at done
              have later := ih done
              have here := CfgStore.cfgSet_value set i
              obtain ⟨j, shown, isId, isName, read⟩ := assignment_ok taken
              have step : lastText (arg :: rest) i = (lastText rest i).or
                  (if (cfgKeys j).name = (cfgKeys i).name then
                    some (arg.drop ((cfgKeys i).name.length + 1))
                  else none) := by
                rw [lastText, isName]
              cases last : lastText rest i with
              | some text =>
                  rw [last, Option.some_or] at step
                  refine ⟨fun none => ?_, fun text' given => ?_⟩
                  · rw [step] at none
                    cases none
                  · rw [step] at given
                    exact later.given text' (last.trans given)
              | none =>
                  have same := later.kept last
                  rw [last, Option.none_or] at step
                  by_cases isKey : j = i
                  · subst isKey
                    rw [if_pos isId, Option.some_or] at here
                    rw [if_pos rfl] at step
                    refine ⟨fun none => ?_, fun text given => ?_⟩
                    · rw [step] at none
                      cases none
                    · rw [step] at given
                      cases given
                      exact ⟨shown, item.val, same.trans here, valueText_of_assigned shown read⟩
                  · have otherId : item.type ≠ (cfgKeys i).id := fun hit =>
                      isKey (id_injective j i (isId.symm.trans hit))
                    have otherName : (cfgKeys j).name ≠ (cfgKeys i).name := fun hit =>
                      isKey (name_injective j i hit)
                    rw [if_neg otherId, Option.none_or] at here
                    rw [if_neg otherName] at step
                    refine ⟨fun _ => same.trans here, fun text given => ?_⟩
                    rw [step] at given
                    cases given

/-- What `get` prints of a key after assignments. -/
theorem shownText_set {argv : List (List UInt8)} {c c' : Cfg} {i : Fin nkeys}
    (set : SetFrom argv c c' i) : shownText c' i = (lastText argv i).getD (shownText c i) := by
  cases last : lastText argv i with
  | none =>
      have same := set.kept last
      simp [shownText, effective, same]
  | some text =>
      obtain ⟨shown, v, stored, printed⟩ := set.given text last
      simp [shownText, effective, shown, stored, printed]

/-! ## unset and init -/

theorem value_of_unsetArgs {argv : List (List UInt8)} {c c' : Cfg}
    (done : unsetArgs c argv = .ok c') (i : Fin nkeys) :
    c'.value i = if (cfgKeys i).name ∈ argv then none else c.value i := by
  induction argv generalizing c with
  | nil =>
      cases done
      rfl
  | cons name rest ih =>
      unfold unsetArgs at done
      cases found : cfgKeyByName name with
      | none =>
          rw [found] at done
          cases done
      | some k =>
          obtain ⟨j, rfl, named⟩ := cfgKeyByName_some found
          rw [found] at done
          unfold cfgUnset at done
          dsimp only at done
          rw [CfgStore.cfgIndexById_id] at done
          rw [ih done]
          subst named
          by_cases isKey : i = j
          · subst isKey
            simp
          · have other : (cfgKeys i).name ≠ (cfgKeys j).name := fun hit =>
              isKey (name_injective i j hit)
            simp [other, isKey]

theorem value_of_initKeys {keys : List (Fin nkeys)} {c c' : Cfg}
    (done : initKeys c (keys.map cfgKeys) = .ok c') (i : Fin nkeys) :
    c'.value i =
      (if i ∈ keys then schemaDefault (cfgKeys i).id else none).or (c.value i) := by
  induction keys generalizing c with
  | nil =>
      cases done
      rfl
  | cons j keys ih =>
      rw [List.map_cons] at done
      unfold initKeys at done
      cases default : schemaDefault (cfgKeys j).id with
      | none =>
          rw [default] at done
          rw [ih done]
          by_cases isKey : i = j
          · subst isKey
            simp [default]
          · simp [isKey]
      | some v =>
          rw [default] at done
          dsimp only at done
          cases set : cfgSet c (cfgKeys j).id v with
          | error fault =>
              rw [set] at done
              cases done
          | ok mid =>
              rw [set] at done
              obtain ⟨j', found, -, rfl⟩ := Broker.cfgSet_eq_ok set
              rw [CfgStore.cfgIndexById_id] at found
              cases found
              rw [ih done]
              by_cases isKey : i = j
              · subst isKey
                by_cases again : i ∈ keys <;> simp [default, again]
              · simp [isKey]

/-! ## The store -/

section Commit

variable {faults : Faults} {m : Medium} {c : Cfg}

/-- A store that fails otherwise than on the medium has not touched it. -/
theorem medium_of_storeRec_error {rc : CfgStore.Err} {fresh : Bool}
    (failed : (storeRec faults m c fresh).rc = some rc) (notIo : rc ≠ .io) :
    (storeRec faults m c fresh).medium = m := by
  unfold storeRec at failed ⊢
  split at failed
  · next fault invalid => rfl
  next valid =>
  split at failed
  · next locked => rw [if_pos locked]
  next unlocked =>
  rw [if_neg unlocked]
  cases decided : CfgStore.storePlan c fresh (loadInfo faults m) with
  | error rc' => rfl
  | ok plan =>
      rw [decided] at failed
      dsimp only at failed
      unfold CfgStore.commitPlan at failed
      split_ifs at failed
      cases failed
      exact absurd rfl notIo

/-- `commit` leaves the store alone, or stores, or failed on the medium. -/
theorem commit_cases (faults : Faults) (m : Medium) (c : Cfg) :
    ((commit faults m c).exit = .ok ∧ (storeRec faults m c false).rc = none ∧
        (commit faults m c).medium = (storeRec faults m c false).medium) ∨
      (commit faults m c).exit = .io ∨
      ((commit faults m c).exit ≠ .ok ∧ (commit faults m c).medium = m) := by
  unfold commit
  cases cfgValidate c with
  | error fault => exact .inr (.inr ⟨nofun, rfl⟩)
  | ok valid =>
      dsimp only
      cases stored : (storeRec faults m c false).rc with
      | none => exact .inl ⟨rfl, rfl, rfl⟩
      | some rc =>
          right
          by_cases onMedium : rc = .io ∨ rc = .seq
          · exact .inl (if_pos onMedium)
          · refine .inr ⟨?_, medium_of_storeRec_error stored fun io => onMedium (.inl io)⟩
            dsimp only
            rw [if_neg onMedium]
            nofun

/-- What `get` loads after a store. -/
theorem loadOrDie_stored {later : Faults} (onChip : OnChip m)
    (stored : (storeRec faults m c false).rc = none)
    (fine : (loadInfo later (storeRec faults m c false).medium).rc = none) :
    ∃ c', loadOrDie (loadInfo later (storeRec faults m c false).medium) = .ok c' ∧
      c'.value = c.value := by
  have kept := CfgStore.not_revives_of_onChip onChip
  obtain ⟨target, newer, -⟩ := CfgStore.newestOf_stored_of_not_revives stored kept
  have selects := CfgStore.loadInfo_selects fine
  refine ⟨(loadInfo later (storeRec faults m c false).medium).out, ?_, ?_⟩
  · unfold loadOrDie CfgStore.Loaded.invalid
    rw [fine, selects.selected, newer]
    rfl
  · rw [selects.out, newer]
    rfl

end Commit

/-! ## The verbs -/

/-- The lines that `get` prints of a store, key by key. -/
structure Prints (w : ToolWorld) (m : Medium) (text : Fin nkeys → List UInt8) : Prop where
  exit : (cmdGet w m []).exit = .ok
  out : (cmdGet w m []).out = (List.finRange nkeys).map fun i => lineOf i (text i)

theorem prints_of_loadOrDie {w : ToolWorld} {m : Medium} {c : Cfg}
    (loaded : loadOrDie (loadInfo w.load m) = .ok c) : Prints w m (shownText c) := by
  have all := cmdGet_all loaded
  exact ⟨by rw [all], by rw [all]⟩

/-- Loads of one chip that return 0 are the same. -/
theorem loadOrDie_again {faults later : Faults} {m : Medium} {c : Cfg} (onChip : OnChip m)
    (loaded : loadOrDie (loadInfo faults m) = .ok c) (fine : (loadInfo later m).rc = none) :
    loadOrDie (loadInfo later m) = .ok c := by
  rw [loadInfo_of_fine onChip fine, ← loadInfo_of_fine onChip (loadOrDie_ok loaded).1]
  exact loaded

/-- A verb that edits and succeeds: the configuration it read and the one it stored. -/
theorem editVerb_ok {edit : Cfg → List (List UInt8) → Except Bad Cfg} {w : ToolWorld}
    {m : Medium} {argv : List (List UInt8)} (done : (editVerb edit w m argv).exit = .ok)
    (refuses : ∀ c bad, edit c argv = .error bad → bad.exit ≠ .ok) :
    ∃ c c', loadOrDie (loadInfo w.load m) = .ok c ∧ edit c argv = .ok c' ∧
      (storeRec w.store m c' false).rc = none ∧
      (editVerb edit w m argv).medium = (storeRec w.store m c' false).medium := by
  unfold editVerb at done ⊢
  split at done
  · cases done
  next some_ =>
  split at done
  · cases done
  next few =>
  rw [if_neg some_, if_neg few]
  cases loaded : loadOrDie (loadInfo w.load m) with
  | error refusal =>
      rw [loaded] at done
      cases refusal <;> cases done
  | ok c =>
      rw [loaded] at done
      dsimp only at done ⊢
      cases edited : edit c argv with
      | error bad =>
          rw [edited] at done
          exact absurd done (refuses c bad edited)
      | ok c' =>
          rw [edited] at done
          dsimp only at done ⊢
          rcases commit_cases w.store m c' with ⟨-, stored, after⟩ | io | ⟨failed, -⟩
          · exact ⟨c, c', rfl, edited, stored, after⟩
          · rw [io] at done
            cases done
          · exact absurd done failed

/-- A verb that edits and refuses leaves the store alone. -/
theorem editVerb_refused {edit : Cfg → List (List UInt8) → Except Bad Cfg} {w : ToolWorld}
    {m : Medium} {argv : List (List UInt8)} (failed : (editVerb edit w m argv).exit ≠ .ok)
    (notIo : (editVerb edit w m argv).exit ≠ .io) : (editVerb edit w m argv).medium = m := by
  unfold editVerb at failed notIo ⊢
  split at failed
  · next none => rw [if_pos none]; rfl
  next some_ =>
  rw [if_neg some_] at notIo ⊢
  split at failed
  · next many => rw [if_pos many]; rfl
  next few =>
  rw [if_neg few] at notIo ⊢
  cases loaded : loadOrDie (loadInfo w.load m) with
  | error refusal => rfl
  | ok c =>
      rw [loaded] at failed notIo
      dsimp only at failed notIo ⊢
      cases edited : edit c argv with
      | error bad => rfl
      | ok c' =>
          rw [edited] at failed notIo
          dsimp only at failed notIo ⊢
          rcases commit_cases w.store m c' with ⟨ok, -⟩ | io | ⟨-, same⟩
          · exact absurd ok failed
          · exact absurd io notIo
          · exact same

theorem assignment_refuses {arg : List UInt8} {bad : Bad}
    (refused : assignment arg = .error bad) : bad.exit ≠ .ok := by
  unfold assignment at refused
  dsimp only at refused
  repeat' split at refused
  all_goals cases refused
  all_goals nofun

theorem setArgs_refuses (c : Cfg) {argv : List (List UInt8)} {bad : Bad}
    (refused : setArgs c argv = .error bad) : bad.exit ≠ .ok := by
  induction argv generalizing c with
  | nil => cases refused
  | cons arg rest ih =>
      unfold setArgs at refused
      split at refused
      · next taken =>
        cases refused
        exact assignment_refuses taken
      · split at refused
        · cases refused
          nofun
        · exact ih _ refused

theorem unsetArgs_refuses (c : Cfg) {argv : List (List UInt8)} {bad : Bad}
    (refused : unsetArgs c argv = .error bad) : bad.exit ≠ .ok := by
  induction argv generalizing c with
  | nil => cases refused
  | cons name rest ih =>
      unfold unsetArgs at refused
      split at refused
      · cases refused
        nofun
      · split at refused
        · cases refused
          nofun
        · exact ih _ refused

theorem initKeys_refuses (c : Cfg) {keys : List Key} {bad : Bad}
    (refused : initKeys c keys = .error bad) : bad.exit ≠ .ok := by
  induction keys generalizing c with
  | nil => cases refused
  | cons k keys ih =>
      unfold initKeys at refused
      split at refused
      · exact ih _ refused
      · split at refused
        · cases refused
          nofun
        · exact ih _ refused

/-! ## What `get` does not print -/

/-- Two configurations that differ in hidden values alone, and hide as many. -/
structure AlikeShown (c c' : Cfg) : Prop where
  shown : ∀ i, (cfgKeys i).web ≠ .hidden → c.value i = c'.value i
  hidden : ∀ i, (c.value i).isSome = (c'.value i).isSome

theorem printOne_alike {c c' : Cfg} (alike : AlikeShown c c') (i : Fin nkeys) :
    printOne c (cfgKeys i) = printOne c' (cfgKeys i) := by
  unfold printOne
  by_cases hidden : (cfgKeys i).web = .hidden
  · rw [if_pos hidden, if_pos hidden, present_id, present_id, alike.hidden i]
  · have same : cfgGet c (cfgKeys i).id = cfgGet c' (cfgKeys i).id := by
      unfold cfgGet
      rw [CfgStore.cfgIndexById_id]
      dsimp only
      rw [alike.shown i hidden]
    rw [if_neg hidden, if_neg hidden, same]

theorem printAll_alike {c c' : Cfg} (alike : AlikeShown c c') {keys : List Key}
    (known : ∀ k ∈ keys, ∃ i, k = cfgKeys i) : printAll c keys = printAll c' keys := by
  induction keys with
  | nil => rfl
  | cons k keys ih =>
      obtain ⟨⟨i, rfl⟩, rest⟩ := List.forall_mem_cons.mp known
      rw [printAll, printAll, printOne_alike alike i, ih rest]

theorem keysNamed_known (names : List (List UInt8)) :
    ∀ k ∈ (keysNamed names).1, ∃ i, k = cfgKeys i := by
  induction names with
  | nil => exact fun _ absurd => by cases absurd
  | cons name names ih =>
      unfold keysNamed
      cases found : cfgKeyByName name with
      | none => exact fun _ absurd => by cases absurd
      | some k =>
          obtain ⟨i, isKey, -⟩ := cfgKeyByName_some found
          exact List.forall_mem_cons.mpr ⟨⟨i, isKey⟩, ih⟩

theorem cmdGet_alike {w : ToolWorld} {m m' : Medium} {c c' : Cfg}
    (loaded : loadOrDie (loadInfo w.load m) = .ok c)
    (loaded' : loadOrDie (loadInfo w.load m') = .ok c') (alike : AlikeShown c c')
    (argv : List (List UInt8)) :
    (cmdGet w m argv).exit = (cmdGet w m' argv).exit ∧
      (cmdGet w m argv).out = (cmdGet w m' argv).out := by
  have same : printAll c (if argv.isEmpty then ((List.finRange nkeys).map cfgKeys, none)
        else keysNamed argv).1 =
      printAll c' (if argv.isEmpty then ((List.finRange nkeys).map cfgKeys, none)
        else keysNamed argv).1 := by
    apply printAll_alike alike
    split
    · intro k member
      obtain ⟨i, -, isKey⟩ := List.mem_map.mp member
      exact ⟨i, isKey.symm⟩
    · exact keysNamed_known argv
  unfold cmdGet
  rw [loaded, loaded']
  generalize (if argv.isEmpty then ((List.finRange nkeys).map cfgKeys, none)
    else keysNamed argv) = named at same
  obtain ⟨keys, unknown⟩ := named
  dsimp only at same ⊢
  rw [same]
  generalize printAll c' keys = printed
  obtain ⟨out, failed⟩ := printed
  dsimp only
  cases unknown.or failed with
  | none => exact ⟨rfl, rfl⟩
  | some name => exact ⟨rfl, rfl⟩

/-! ## The result -/

/-- What the verbs keep on a chip, as `get` prints it. -/
structure ToolKeeps : Prop where
  /-- `get` prints what `set` was given last, and the other keys as before. -/
  set : ∀ (w before after : ToolWorld) (m : Medium) (argv : List (List UInt8)), OnChip m →
    (cmdSet w m argv).exit = .ok → (loadInfo before.load m).rc = none →
    (loadInfo after.load (cmdSet w m argv).medium).rc = none →
    ∃ text, Prints before m text ∧
      Prints after (cmdSet w m argv).medium fun i => (lastText argv i).getD (text i)
  /-- The keys of an `unset` are back at their defaults, the hash at none. -/
  unset : ∀ (w before after : ToolWorld) (m : Medium) (argv : List (List UInt8)), OnChip m →
    (cmdUnset w m argv).exit = .ok → (loadInfo before.load m).rc = none →
    (loadInfo after.load (cmdUnset w m argv).medium).rc = none →
    ∃ text, Prints before m text ∧
      Prints after (cmdUnset w m argv).medium fun i =>
        if (cfgKeys i).name ∈ argv then shownText cfgDefaults i else text i
  /-- After `init` every key is at its default, whatever the store held. -/
  init : ∀ (w after : ToolWorld) (m : Medium) (argv : List (List UInt8)), OnChip m →
    (cmdInit w m argv).exit = .ok → (loadInfo after.load (cmdInit w m argv).medium).rc = none →
    Prints after (cmdInit w m argv).medium (shownText cfgDefaults)
  /-- A verb that refuses, or fails otherwise than on the medium, has not touched it. -/
  refused : ∀ (w : ToolWorld) (m : Medium) (argv : List (List UInt8)),
    ∀ ran ∈ [cmdGet w m argv, cmdSet w m argv, cmdUnset w m argv, cmdInit w m argv],
      ran.exit ≠ .ok → ran.exit ≠ .io → ran.medium = m
  /-- `get` prints nothing of a hash but whether there is one. -/
  unseen : ∀ (w : ToolWorld) (m m' : Medium) (c c' : Cfg),
    loadOrDie (loadInfo w.load m) = .ok c → loadOrDie (loadInfo w.load m') = .ok c' →
    AlikeShown c c' → ∀ argv,
      (cmdGet w m argv).exit = (cmdGet w m' argv).exit ∧
        (cmdGet w m argv).out = (cmdGet w m' argv).out

theorem cmdGet_medium (w : ToolWorld) (m : Medium) (argv : List (List UInt8)) :
    (cmdGet w m argv).medium = m := by
  unfold cmdGet
  cases loadOrDie (loadInfo w.load m) with
  | error refusal => rfl
  | ok c =>
      dsimp only
      split <;> rfl

theorem cmdInit_refused {w : ToolWorld} {m : Medium} {argv : List (List UInt8)}
    (failed : (cmdInit w m argv).exit ≠ .ok) (notIo : (cmdInit w m argv).exit ≠ .io) :
    (cmdInit w m argv).medium = m := by
  unfold cmdInit at failed notIo ⊢
  split
  · rfl
  next forced =>
  rw [if_neg forced] at failed notIo
  split
  · rfl
  next read =>
  rw [if_neg read] at failed notIo
  cases filled : initKeys cfgDefaults ((List.finRange nkeys).map cfgKeys) with
  | error bad => rfl
  | ok c =>
      rw [filled] at failed notIo
      dsimp only at failed notIo ⊢
      rcases commit_cases w.store m c with ⟨ok, -⟩ | io | ⟨-, same⟩
      · exact absurd ok failed
      · exact absurd io notIo
      · exact same

end RlxFw.Cfgstore
