import RlxFw.StoreLoad

/-!
# Two writers of one store

The programs that store a configuration: the broker on a SET, `cfgstore set` and
the first-boot password.  Each loads a base, edits it in memory and stores it;
the flash lock covers the last of the three steps alone.
-/

namespace RlxFw.CfgStore

/-- The programs, and whether a SET's peer is root. -/
inductive Program where
  | brokerSet (root : Bool)
  | cfgstoreSet
  | firstpw
deriving DecidableEq, Repr

/-- A program and the values it was given, in order. -/
structure Job where
  program : Program
  items : List Tlv.Item

/-- `BK_GET_MAX_KEYS`. -/
def getMaxKeys : Nat := 64
/-- `CFGSTORE_MAXARG`. -/
def cfgstoreMaxArg : Nat := 64

/-- Why a program stored nothing. -/
inductive Refusal where
  | inval (key : Nat)
  | perm
  | io
  | corrupt
  | usage
  | hashed
deriving DecidableEq, Repr

/-! ## Loading a base -/

/-- Bytes, and no record among them. -/
def Loaded.invalid (loaded : Loaded) : Bool :=
  loaded.info.selected.isNone && decide (loaded.info.fileBytes > 0)

/-- `bk_cfg_reload`: what cannot be read or holds no record is answered from the
defaults. -/
def bkCfgReload (loaded : Loaded) : Cfg :=
  if loaded.rc.isSome ∨ loaded.invalid then cfgDefaults else loaded.out

/-- `load_or_die`, strict. -/
def loadOrDie (loaded : Loaded) : Except Refusal Cfg :=
  if loaded.rc.isSome then .error .io
  else if loaded.invalid then .error .corrupt
  else .ok loaded.out

/-- `fp_has_hash`. -/
def fpHasHash (c : Cfg) : Bool :=
  (cfgIndexById idPwhash).any fun i => (c.value i).isSome

/-- `fp_store` up to its edit: the base, and whether it is to be the first
record. -/
def fpBase (loaded : Loaded) : Except Refusal (Cfg × Bool) :=
  if loaded.rc.isSome then .error .io
  else if loaded.info.selected.isSome then
    if fpHasHash loaded.out then .error .hashed else .ok (loaded.out, false)
  else .ok (cfgDefaults, true)

/-- The base a program edits, and whether it stores with `cfg_store_fresh`. -/
def Program.base (program : Program) (loaded : Loaded) :
    Except Refusal (Cfg × Bool) :=
  match program with
  | .brokerSet _ => .ok (bkCfgReload loaded, false)
  | .cfgstoreSet => (loadOrDie loaded).map fun base => (base, false)
  | .firstpw => fpBase loaded

/-! ## Editing it -/

/-- The loop of `op_set`: `prev` is the last id, `n` the items so far. -/
def opSetItems (root : Bool) (prev : Option Nat) (n : Nat) (work : Cfg) :
    List Tlv.Item → Except Refusal Cfg
  | [] => .ok work
  | item :: rest =>
      if n + 1 > getMaxKeys then .error (.inval 0)
      else if ¬ Tlv.ascends prev item.type then .error (.inval item.type)
      else
        match cfgKeyById item.type with
        | none => .error (.inval item.type)
        | some k =>
            if ¬ root ∧ k.web ≠ .rw then .error .perm
            else
              match cfgSet work item.type item.val with
              | .error _ => .error (.inval item.type)
              | .ok work => opSetItems root (some item.type) (n + 1) work rest

/-- `op_set` before its store. -/
def opSet (root : Bool) (base : Cfg) (items : List Tlv.Item) :
    Except Refusal Cfg :=
  if items = [] then .error (.inval 0)
  else
    match opSetItems root none 0 base items with
    | .error refusal => .error refusal
    | .ok work =>
        match cfgValidate work with
        | .error fault => .error (.inval fault.key)
        | .ok () => .ok work

/-- The loop of `cmd_set`, over assignments whose names and texts it has read. -/
def cmdSetItems (work : Cfg) : List Tlv.Item → Except Refusal Cfg
  | [] => .ok work
  | item :: rest =>
      match cfgKeyById item.type with
      | none => .error (.inval item.type)
      | some k =>
          if k.web = .hidden then .error (.inval item.type)
          else
            match cfgSet work item.type item.val with
            | .error _ => .error (.inval item.type)
            | .ok work => cmdSetItems work rest

/-- `cmd_set` before the store of `commit`. -/
def cmdSet (base : Cfg) (items : List Tlv.Item) : Except Refusal Cfg :=
  if items = [] ∨ items.length > cfgstoreMaxArg then .error .usage
  else
    match cmdSetItems base items with
    | .error refusal => .error refusal
    | .ok work =>
        match cfgValidate work with
        | .error fault => .error (.inval fault.key)
        | .ok () => .ok work

/-- The edit of `fp_store`. -/
def fpSet (base : Cfg) : List Tlv.Item → Except Refusal Cfg
  | [item] =>
      if item.type = idPwhash then
        match cfgSet base item.type item.val with
        | .error _ => .error .io
        | .ok work => .ok work
      else .error .usage
  | _ => .error .usage

/-- The edit of a job. -/
def Job.edit (job : Job) (base : Cfg) : Except Refusal Cfg :=
  match job.program with
  | .brokerSet root => opSet root base job.items
  | .cfgstoreSet => cmdSet base job.items
  | .firstpw => fpSet base job.items

/-! ## The steps of a writer -/

/-- Where a writer is between two of its steps. -/
inductive Phase where
  | idle
  | loaded (base : Cfg) (fresh : Bool)
  | edited (work : Cfg) (fresh : Bool)
  | done (kept : Cfg)
  | refused (why : Refusal)

/-- The load of a program. -/
def loadStep (program : Program) (loaded : Loaded) : Phase :=
  match program.base loaded with
  | .error why => .refused why
  | .ok (base, fresh) => .loaded base fresh

/-- The edit of a job. -/
def editStep (job : Job) (base : Cfg) (fresh : Bool) : Phase :=
  match job.edit base with
  | .error why => .refused why
  | .ok work => .edited work fresh

/-- What a program makes of its store. -/
def storeStep (stored : Stored) : Phase :=
  match stored.rc with
  | some _ => .refused .io
  | none => .done stored.cfg

/-- One step of a writer: its load, its edit or its store. -/
def Phase.advance (job : Job) (faults : Faults) (m : Medium) :
    Phase → Phase × Medium
  | .idle => (loadStep job.program (loadInfo faults m), m)
  | .loaded base fresh => (editStep job base fresh, m)
  | .edited work fresh =>
      (storeStep (storeRec faults m work fresh),
        (storeRec faults m work fresh).medium)
  | .done kept => (.done kept, m)
  | .refused why => (.refused why, m)

/-- The medium and the two writers. -/
structure World where
  medium : Medium
  phase : Bool → Phase

/-- Which writer moves, and what fails under it. -/
structure Turn where
  who : Bool
  faults : Faults

/-- One turn. -/
def World.turn (jobs : Bool → Job) (world : World) (t : Turn) : World :=
  let after := (world.phase t.who).advance (jobs t.who) t.faults world.medium
  { medium := after.2, phase := Function.update world.phase t.who after.1 }

/-- Both writers idle over a chip. -/
def World.start (chip : ByteMap) : World :=
  { medium := .flash chip, phase := fun _ => .idle }

/-- A schedule, turn after turn. -/
def World.run (jobs : Bool → Job) (world : World) (turns : List Turn) : World :=
  turns.foldl (World.turn jobs) world

/-! ## What an edit changes -/

/-- The last value that the items give a key. -/
def finalValue : List Tlv.Item → Fin nkeys → Option (List UInt8)
  | [], _ => none
  | item :: rest, i =>
      (finalValue rest i).or
        (if item.type = (cfgKeys i).id then some item.val else none)

/-- The values of a configuration after the items. -/
def Edits (items : List Tlv.Item) (base work : Cfg) : Prop :=
  ∀ i, work.value i = (finalValue items i).or (base.value i)

theorem edits_nil (base : Cfg) : Edits [] base base := fun _ => rfl

theorem cfgSet_value {c c' : Cfg} {item : Tlv.Item}
    (set : cfgSet c item.type item.val = .ok c') (i : Fin nkeys) :
    c'.value i =
      (if item.type = (cfgKeys i).id then some item.val else none).or
        (c.value i) := by
  unfold cfgSet at set
  split at set
  · cases set
  · rename_i j found
    split at set
    · cases set
    · cases set
      by_cases same : i = j
      · subst same
        rw [if_pos (cfgKeys_of_index found).symm]
        simp
      · have other : item.type ≠ (cfgKeys i).id := by
          intro hit
          rw [hit, cfgIndexById_id] at found
          exact same (Option.some.inj found)
        rw [if_neg other]
        simp [same]

theorem Edits.cons {item : Tlv.Item} {rest : List Tlv.Item} {base mid work : Cfg}
    (set : cfgSet base item.type item.val = .ok mid)
    (later : Edits rest mid work) : Edits (item :: rest) base work := by
  intro i
  rw [later i, cfgSet_value set i, finalValue, Option.or_assoc]

theorem edits_of_opSetItems {root : Bool} {prev : Option Nat} {n : Nat}
    {base work : Cfg} {items : List Tlv.Item}
    (done : opSetItems root prev n base items = .ok work) :
    Edits items base work := by
  induction items generalizing prev n base with
  | nil =>
      cases done
      exact edits_nil _
  | cons item rest ih =>
      unfold opSetItems at done
      split_ifs at done
      split at done
      · cases done
      split_ifs at done
      cases set : cfgSet base item.type item.val with
      | error fault =>
          rw [set] at done
          cases done
      | ok mid =>
          rw [set] at done
          exact (ih done).cons set

theorem edits_of_cmdSetItems {base work : Cfg} {items : List Tlv.Item}
    (done : cmdSetItems base items = .ok work) : Edits items base work := by
  induction items generalizing base with
  | nil =>
      cases done
      exact edits_nil _
  | cons item rest ih =>
      unfold cmdSetItems at done
      split at done
      · cases done
      split_ifs at done
      cases set : cfgSet base item.type item.val with
      | error fault =>
          rw [set] at done
          cases done
      | ok mid =>
          rw [set] at done
          exact (ih done).cons set

theorem edits_of_fpSet {base work : Cfg} {items : List Tlv.Item}
    (done : fpSet base items = .ok work) : Edits items base work := by
  unfold fpSet at done
  split at done
  · rename_i item
    split_ifs at done
    cases set : cfgSet base item.type item.val with
    | error fault =>
        rw [set] at done
        cases done
    | ok mid =>
        rw [set] at done
        cases done
        exact (edits_nil _).cons set
  · cases done

/-- A job's edit sets the keys of its items and no other. -/
theorem edits_of_edit {job : Job} {base work : Cfg}
    (done : job.edit base = .ok work) : Edits job.items base work := by
  unfold Job.edit at done
  split at done
  · unfold opSet at done
    split_ifs at done
    split at done
    · cases done
    · rename_i edited
      split at done
      · cases done
      · cases done
        exact edits_of_opSetItems edited
  · unfold cmdSet at done
    split_ifs at done
    split at done
    · cases done
    · rename_i edited
      split at done
      · cases done
      · cases done
        exact edits_of_cmdSetItems edited
  · exact edits_of_fpSet done

end RlxFw.CfgStore
