import RlxFw.Ops
import RlxFw.StoreLoad

/-!
# SET is all or nothing

`op_set` edits a copy of the configuration item by item, and the broker takes
the copy only when the store took it.
-/

namespace RlxFw.Broker

open CfgStore (Cfg Medium Faults nkeys nslots cfgKeys cfgIndexById cfgKeyById cfgSet
  cfgValidate schemaCheckValue accepted storeRec)

/-! ## The items of a body -/

/-- An item that a SET of this peer may hold. -/
structure Settable (uid : Nat) (item : Tlv.Item) (i : Fin nkeys) : Prop where
  key : (cfgKeys i).id = item.type
  writable : uid ≠ uidRoot → (cfgKeys i).web = .rw
  checked : schemaCheckValue (cfgKeys i) item.val = none

/-- The value of a key once the items replaced theirs. -/
def replaced (items : List Tlv.Item) (c : Cfg) (i : Fin nkeys) : Option (List UInt8) :=
  match items.find? fun item => item.type == (cfgKeys i).id with
  | some item => some item.val
  | none => c.value i

/-- A body's items, as they stand on the wire. -/
def wire (items : List Tlv.Item) : List UInt8 :=
  items.flatMap fun item => Tlv.itemBytes item.type item.val

/-- A body that a SET of this peer takes, as its items. -/
structure WellFormed (uid : Nat) (items : List Tlv.Item) : Prop where
  small : ∀ item ∈ items, item.type < 2 ^ 16 ∧ item.val.length < 2 ^ 16
  ascend : items.Pairwise fun item item' => item.type < item'.type
  settable : ∀ item ∈ items, ∃ i, Settable uid item i

/-- What is read of a body is an item's bytes. -/
theorem protoTlvGet_eq_some {body rest : List UInt8} {item : Tlv.Item}
    (got : protoTlvGet body = some (item, rest)) :
    body = Tlv.itemBytes item.type item.val ++ rest ∧
      item.type < 2 ^ 16 ∧ item.val.length < 2 ^ 16 := by
  unfold protoTlvGet at got
  dsimp only at got
  split at got
  · cases got
  next header =>
  split at got
  · cases got
  next whole =>
  cases got
  have typeSmall := Tlv.getBe16_lt (ByteMap.ofList body 0) 0
  have lenSmall := Tlv.getBe16_lt (ByteMap.ofList body 0) 2
  have front : (ByteMap.ofList body 0).slice 0 4 = body.take 4 := by
    have cut := ByteMap.slice_ofList [] (body.take 4) (body.drop 4) 0
    rw [List.nil_append, List.take_append_drop, List.length_take_of_le (by omega)] at cut
    exact cut
  have parts : Tlv.putBe16 (Tlv.getBe16 (ByteMap.ofList body 0) 0) ++
      Tlv.putBe16 (Tlv.getBe16 (ByteMap.ofList body 0) 2) = body.take 4 := by
    rw [Tlv.putBe16_getBe16, Tlv.putBe16_getBe16, ← front]
    exact (ByteMap.slice_append _ 0 2 2).symm
  generalize Tlv.getBe16 (ByteMap.ofList body 0) 2 = len at *
  have length : ((body.drop 4).take len).length = len := by
    rw [List.length_take, List.length_drop]
    omega
  refine ⟨?_, typeSmall, by rw [length]; exact lenSmall⟩
  rw [Tlv.itemBytes, length, parts, ← List.drop_drop, List.append_assoc,
    List.take_append_drop, List.take_append_drop]

theorem cfgSet_eq_ok {c c' : Cfg} {id : Nat} {v : List UInt8}
    (set_ : cfgSet c id v = .ok c') :
    ∃ i, cfgIndexById id = some i ∧ schemaCheckValue (cfgKeys i) v = none ∧
      c' = { c with value := Function.update c.value i (some v) } := by
  unfold CfgStore.cfgSet at set_
  split at set_
  · cases set_
  next i found =>
  split at set_
  · cases set_
  next checked =>
  cases set_
  exact ⟨i, found, checked, rfl⟩

/-- An item that comes before all others may as well be set first. -/
theorem replaced_cons {c : Cfg} {item : Tlv.Item} {items : List Tlv.Item} {i : Fin nkeys}
    (found : cfgIndexById item.type = some i)
    (later : ∀ next ∈ items, item.type < next.type) :
    replaced items { c with value := Function.update c.value i (some item.val) } =
      replaced (item :: items) c := by
  have key := CfgStore.cfgKeys_of_index found
  funext j
  unfold replaced
  by_cases same : j = i
  · subst same
    have none : items.find? (fun next => next.type == (cfgKeys j).id) = none := by
      rw [List.find?_eq_none]
      intro next member
      have less := later next member
      simp only [key, beq_iff_eq]
      omega
    rw [none, List.find?_cons_of_pos (by simp [key])]
    simp
  · have apart : item.type ≠ (cfgKeys j).id := by
      intro isKey
      rw [isKey, CfgStore.cfgIndexById_id] at found
      exact same (Option.some.inj found)
    rw [List.find?_cons_of_neg (by simpa using apart)]
    simp [Function.update_of_ne same]

/-- A run over a body that refuses nothing: its items, and what they replaced. -/
theorem opSetItems_eq_ok {uid left : Nat} {body : List UInt8} {prev : Option Nat}
    {c work : Cfg} (ran : opSetItems uid left body prev c = .ok work) :
    ∃ items, body = wire items ∧ WellFormed uid items ∧ items.length ≤ left ∧
      (∀ item ∈ items, Tlv.ascends prev item.type = true) ∧
      work = { c with value := replaced items c } := by
  induction left generalizing body prev c with
  | zero =>
      cases body with
      | nil =>
          cases ran
          exact ⟨[], rfl, ⟨by simp, .nil, by simp⟩, Nat.le_refl _, by simp, rfl⟩
      | cons byte more => cases ran
  | succ left ih =>
      cases body with
      | nil =>
          cases ran
          exact ⟨[], rfl, ⟨by simp, .nil, by simp⟩, Nat.zero_le _, by simp, rfl⟩
      | cons byte more =>
          unfold opSetItems at ran
          split at ran
          · cases ran
          next item rest got =>
          split at ran
          · cases ran
          next ascends =>
          rw [not_not] at ascends
          split at ran
          · cases ran
          next k known =>
          split at ran
          · cases ran
          next mayWrite =>
          split at ran
          · cases ran
          next next_ isSet =>
          obtain ⟨i, found, checked, rfl⟩ := cfgSet_eq_ok isSet
          obtain ⟨bytes, small⟩ := protoTlvGet_eq_some got
          obtain ⟨items, isRest, formed, few, after, rfl⟩ := ih ran
          have isKey : cfgKeys i = k := by
            unfold CfgStore.cfgKeyById at known
            rw [found] at known
            exact Option.some.inj known
          have later (next : Tlv.Item) (member : next ∈ items) : item.type < next.type := by
            have less := after next member
            simpa [Tlv.ascends] using less
          have settable : Settable uid item i := by
            refine ⟨CfgStore.cfgKeys_of_index found, fun notRoot => ?_, checked⟩
            rw [isKey]
            exact not_not.mp fun notRw => mayWrite ⟨notRoot, notRw⟩
          refine ⟨item :: items, ?_, ⟨?_, ?_, ?_⟩, Nat.succ_le_succ few, ?_, ?_⟩
          · rw [bytes, isRest]
            rfl
          · rw [List.forall_mem_cons]
            exact ⟨small, formed.small⟩
          · exact List.pairwise_cons.mpr ⟨later, formed.ascend⟩
          · rw [List.forall_mem_cons]
            exact ⟨⟨i, settable⟩, formed.settable⟩
          · rw [List.forall_mem_cons]
            exact ⟨ascends, fun next member =>
              Tlv.ascends_trans ascends (later next member)⟩
          · rw [replaced_cons found later]

/-! ## The store -/

/-- What a SET that answered OK did to the broker's configuration and to the
medium. -/
structure Committed (uid : Nat) (body : List UInt8) (c c' : Cfg) (m m' : Medium) :
    Prop where
  /-- The body was items, at least one, and only their keys have other values. -/
  items : ∃ items, body = wire items ∧ items ≠ [] ∧ WellFormed uid items ∧
    c'.value = replaced items c
  valid : cfgValidate c' = .ok ()
  /-- It is in a slot, under a number above those that were there. -/
  stored : ∃ s, accepted (m'.slot s) = some { c' with source := 0 } ∧
    c'.source = s + 1
  newSeq : ∀ s old, accepted (m.slot s) = some old → old.seq < c'.seq

/-- What a SET may do. -/
structure AllOrNothing (uid : Nat) (body : List UInt8) (bk bk' : State)
    (m m' : Medium) (rs : Resp) : Prop where
  refused : rs.status ≠ .ok → bk' = bk
  kept : rs.status ≠ .ok → rs.status ≠ .io → m' = m
  done : rs.status = .ok →
    bk' = { bk with cfg := bk'.cfg } ∧ Committed uid body bk.cfg bk'.cfg m m'

theorem opSetEdit_eq_ok {uid : Nat} {body : List UInt8} {c work : Cfg}
    (edited : opSetEdit uid body c = .ok work) :
    ∃ items, body = wire items ∧ items ≠ [] ∧ WellFormed uid items ∧
      work = { c with value := replaced items c } ∧ cfgValidate work = .ok () := by
  unfold opSetEdit at edited
  split at edited
  · cases edited
  next some_ =>
  split at edited
  · cases edited
  next work' ran =>
  split at edited
  · cases edited
  next valid =>
  cases edited
  obtain ⟨items, isBody, formed, -, -, isWork⟩ := opSetItems_eq_ok ran
  refine ⟨items, isBody, ?_, formed, isWork, valid⟩
  rintro rfl
  exact some_ (by rw [isBody]; rfl)

/-- Nothing but INVAL and PERM is answered before the store. -/
theorem opSetItems_eq_error {uid left : Nat} {body : List UInt8} {prev : Option Nat}
    {c : Cfg} {rs : Resp} (ran : opSetItems uid left body prev c = .error rs) :
    rs.status ≠ .ok := by
  induction left generalizing body prev c with
  | zero =>
      cases body with
      | nil => cases ran
      | cons byte more =>
          cases ran
          nofun
  | succ left ih =>
      cases body with
      | nil => cases ran
      | cons byte more =>
          unfold opSetItems at ran
          split at ran
          · cases ran
            nofun
          next item rest got =>
          split at ran
          · cases ran
            nofun
          split at ran
          · cases ran
            nofun
          split at ran
          · cases ran
            nofun
          split at ran
          · cases ran
            nofun
          exact ih ran

theorem opSetEdit_eq_error {uid : Nat} {body : List UInt8} {c : Cfg} {rs : Resp}
    (edited : opSetEdit uid body c = .error rs) : rs.status ≠ .ok := by
  unfold opSetEdit at edited
  split at edited
  · cases edited
    nofun
  split at edited
  next rs' ran =>
    cases edited
    exact opSetItems_eq_error ran
  next work ran =>
  split at edited
  · cases edited
    nofun
  · cases edited

/-- No slot holds a number above the newest. -/
theorem seq_le_newestSeq {read : Fin nslots → Option CfgStore.SlotBytes} :
    ∀ {s : Fin nslots} {old : Cfg}, accepted (read s) = some old →
      old.seq ≤ CfgStore.newestSeq (CfgStore.newestOf read) := by
  rw [Fin.forall_fin_two]
  unfold CfgStore.newestOf CfgStore.newestSeq CfgStore.newest
  constructor
  · intro old held
    rw [held]
    cases accepted (read 1) with
    | none => exact le_rfl
    | some other =>
        dsimp only
        split
        · exact Nat.le_of_lt ‹_›
        · exact le_rfl
  · intro old held
    rw [held]
    cases accepted (read 0) with
    | none => exact le_rfl
    | some other =>
        dsimp only
        split
        · exact le_rfl
        · exact not_lt.mp ‹_›

/-- A record that a store took is in its slot, and newer than what was there. -/
theorem committed_of_storeRec {faults : Faults} {uid : Nat} {body : List UInt8}
    {c work : Cfg} {m : Medium} (edited : opSetEdit uid body c = .ok work)
    (stored : (storeRec faults m work false).rc = none) :
    Committed uid body c (storeRec faults m work false).cfg m
      (storeRec faults m work false).medium := by
  obtain ⟨items, isBody, some_, formed, isWork, valid⟩ := opSetEdit_eq_ok edited
  obtain ⟨plan, planned, written, isCfg⟩ := CfgStore.exists_plan_of_storeRec stored
  have there := written.accepted_target planned.valid planned.image
  rw [isCfg]
  refine ⟨⟨items, isBody, some_, formed, by rw [isWork]⟩, ?_, ⟨plan.target, there, rfl⟩, ?_⟩
  · rw [← valid]
    exact CfgStore.cfgValidate_congr rfl
  · intro s old held
    have newest := seq_le_newestSeq held
    have isNew := planned.newseq
    change old.seq < plan.newseq
    omega

/-- A SET is all or nothing, whatever the store does. -/
theorem set_all_or_nothing (faults : Faults) (rq : Req) (uid : Nat) (bk : State)
    (m : Medium) :
    AllOrNothing uid rq.body bk (opSet faults rq uid bk m).bk m
      (opSet faults rq uid bk m).medium (opSet faults rq uid bk m).rs := by
  unfold opSet
  cases edited : opSetEdit uid rq.body bk.cfg with
  | error rs =>
      exact ⟨fun _ => rfl, fun _ _ => rfl, fun ok =>
        absurd ok (opSetEdit_eq_error edited)⟩
  | ok work =>
      cases stored : (storeRec faults m work false).rc with
      | some rc =>
          simp only [commitCfg, stored]
          exact ⟨fun _ => rfl, fun _ notIo => absurd rfl notIo, nofun⟩
      | none =>
          simp only [commitCfg, stored]
          exact ⟨fun notOk => absurd rfl notOk, fun notOk _ => absurd rfl notOk,
            fun _ => ⟨rfl, committed_of_storeRec edited stored⟩⟩

end RlxFw.Broker
