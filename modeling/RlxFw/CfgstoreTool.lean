import RlxFw.CfgTextRoundTrip
import RlxFw.FirstPassword
import RlxFw.LastWriter

/-!
# The console's tool

`src/cfgstore/main.c`: the verbs that read and write the store from a root console.
Every verb loads once, edits in memory and stores at most once.
-/

namespace RlxFw.Cfgstore

open CfgStore (Cfg Err Faults Key Loaded Medium Refusal cfgDefaults cfgGet cfgIndexById
  cfgKeyById cfgKeys cfgSet cfgValidate idPwhash loadInfo loadOrDie nkeys schemaDefault storeRec
  valMax)
open CfgText (cfgTextToValue cfgValueToText)
open FirstPassword (Termios TtyWorld SaltWorld echoOff echoRestore kdfEntropyMin pwhashSalt
  stripCr)
open Httpd (cfgKeyByName)
open Scrypt (Allocator pwhashMake)

/-! ## What a verb comes to -/

/-- `EX_*`. -/
inductive Exit where
  | ok
  | usage
  | inval
  | io
  | corrupt
deriving DecidableEq, Repr

/-- A verb that ran: its exit status, its lines on stdout, the key that its last message
names, and the store. -/
structure Ran where
  exit : Exit
  out : List (List UInt8)
  names : Option (List UInt8)
  medium : Medium

/-- It stops before it writes. -/
def Ran.stop (exit : Exit) (names : Option (List UInt8)) (m : Medium) : Ran :=
  { exit, out := [], names, medium := m }

/-- The status of `load_or_die`. -/
def Refusal.exit : Refusal → Exit
  | .corrupt => .corrupt
  | _ => .io

/-- What a verb meets: the faults of its load and of its store. -/
structure ToolWorld where
  load : Faults
  store : Faults

/-- `CFG_TEXT_MAX`. -/
def cfgTextMax : Nat := 2 * valMax + 1
/-- `CFGSTORE_NAME_MAX`. -/
def nameMax : Nat := 40

/-! ## get -/

/-- `cfg_present`, of a key of the table. -/
def present (c : Cfg) (id : Nat) : Bool := (cfgIndexById id).any fun i => (c.value i).isSome

/-- `print_one`: a line, or the key that could not be printed. -/
def printOne (c : Cfg) (k : Key) : Except (List UInt8) (List UInt8) :=
  if k.web = .hidden then
    .ok (k.name ++ ascii "=" ++ if present c k.id then ascii "set" else ascii "unset")
  else
    match cfgGet c k.id with
    | .error _ => .error k.name
    | .ok v =>
        match cfgValueToText k v cfgTextMax with
        | .error _ => .error k.name
        | .ok text => .ok (k.name ++ ascii "=" ++ text)

/-- The lines of `cmd_get` and the last key that failed, key after key. -/
def printAll (c : Cfg) : List Key → List (List UInt8) × Option (List UInt8)
  | [] => ([], none)
  | k :: rest =>
      match printOne c k with
      | .ok line => (line :: (printAll c rest).1, (printAll c rest).2)
      | .error name => ((printAll c rest).1, (printAll c rest).2.or (some name))

/-- The names of `cmd_get`, up to one that the table does not have. -/
def keysNamed : List (List UInt8) → List Key × Option (List UInt8)
  | [] => ([], none)
  | name :: rest =>
      match cfgKeyByName name with
      | none => ([], some name)
      | some k => (k :: (keysNamed rest).1, (keysNamed rest).2)

/-- `cmd_get`. -/
def cmdGet (w : ToolWorld) (m : Medium) (argv : List (List UInt8)) : Ran :=
  match loadOrDie (loadInfo w.load m) with
  | .error refusal => .stop (Refusal.exit refusal) none m
  | .ok c =>
      let (keys, unknown) :=
        if argv.isEmpty then ((List.finRange nkeys).map cfgKeys, none) else keysNamed argv
      let (out, failed) := printAll c keys
      match unknown.or failed with
      | some name => { exit := .inval, out, names := some name, medium := m }
      | none => { exit := .ok, out, names := none, medium := m }

/-! ## set, unset and init -/

/-- The line of `commit`. -/
def writtenLine (c : Cfg) : List UInt8 :=
  ascii "written: slot " ++ Decimal.text (c.source - 1) ++ ascii ", seq " ++
    Decimal.text c.seq

/-- `commit`. -/
def commit (faults : Faults) (m : Medium) (c : Cfg) : Ran :=
  match cfgValidate c with
  | .error fault => .stop .inval ((cfgKeyById fault.key).map Key.name) m
  | .ok () =>
      let stored := storeRec faults m c false
      match stored.rc with
      | some rc =>
          { exit := if rc = .io ∨ rc = .seq then .io else .inval, out := [], names := none
            medium := stored.medium }
      | none =>
          { exit := .ok, out := [writtenLine stored.cfg], names := none
            medium := stored.medium }

/-- Why an assignment is not taken. -/
structure Bad where
  exit : Exit
  names : Option (List UInt8)

/-- An assignment of `cmd_set`, as the key and the value to be set. -/
def assignment (arg : List UInt8) : Except Bad Tlv.Item :=
  let name := arg.takeWhile fun c => c != 0x3D
  if 0x3D ∉ arg then .error ⟨.usage, none⟩
  else if name.length = 0 ∨ name.length ≥ nameMax then .error ⟨.usage, none⟩
  else
    match cfgKeyByName name with
    | none => .error ⟨.inval, some name⟩
    | some k =>
        let text := arg.drop (name.length + 1)
        if k.web = .hidden then .error ⟨.inval, some k.name⟩
        else if text.length ≥ cfgTextMax then .error ⟨.inval, some k.name⟩
        else
          match cfgTextToValue k text with
          | .error _ => .error ⟨.inval, some k.name⟩
          | .ok v => .ok { type := k.id, val := v }

/-- The loop of `cmd_set`. -/
def setArgs (c : Cfg) : List (List UInt8) → Except Bad Cfg
  | [] => .ok c
  | arg :: rest =>
      match assignment arg with
      | .error bad => .error bad
      | .ok item =>
          match cfgSet c item.type item.val with
          | .error _ => .error ⟨.inval, (cfgKeyById item.type).map Key.name⟩
          | .ok c => setArgs c rest

/-- `cfg_unset`. -/
def cfgUnset (c : Cfg) (id : Nat) : Except CfgStore.Fault Cfg :=
  match cfgIndexById id with
  | none => .error ⟨.unknown, id⟩
  | some i => .ok { c with value := Function.update c.value i none }

/-- The loop of `cmd_unset`. -/
def unsetArgs (c : Cfg) : List (List UInt8) → Except Bad Cfg
  | [] => .ok c
  | name :: rest =>
      match cfgKeyByName name with
      | none => .error ⟨.inval, some name⟩
      | some k =>
          match cfgUnset c k.id with
          | .error _ => .error ⟨.inval, some k.name⟩
          | .ok c => unsetArgs c rest

/-- The loop of `cmd_init`. -/
def initKeys (c : Cfg) : List Key → Except Bad Cfg
  | [] => .ok c
  | k :: rest =>
      match schemaDefault k.id with
      | none => initKeys c rest
      | some v =>
          match cfgSet c k.id v with
          | .error _ => .error ⟨.inval, some k.name⟩
          | .ok c => initKeys c rest

/-- What `cmd_set` and `cmd_unset` share: the count, the strict load, the edit and one
store. -/
def editVerb (edit : Cfg → List (List UInt8) → Except Bad Cfg) (w : ToolWorld) (m : Medium)
    (argv : List (List UInt8)) : Ran :=
  if argv.length < 1 then .stop .usage none m
  else if argv.length > CfgStore.cfgstoreMaxArg then .stop .usage none m
  else
    match loadOrDie (loadInfo w.load m) with
    | .error refusal => .stop (Refusal.exit refusal) none m
    | .ok c =>
        match edit c argv with
        | .error bad => .stop bad.exit bad.names m
        | .ok c => commit w.store m c

/-- `cmd_set`. -/
def cmdSet (w : ToolWorld) (m : Medium) (argv : List (List UInt8)) : Ran :=
  editVerb setArgs w m argv

/-- `cmd_unset`. -/
def cmdUnset (w : ToolWorld) (m : Medium) (argv : List (List UInt8)) : Ran :=
  editVerb unsetArgs w m argv

/-- `cmd_init`. -/
def cmdInit (w : ToolWorld) (m : Medium) (argv : List (List UInt8)) : Ran :=
  if argv ≠ [ascii "--force"] then .stop .usage none m
  -- not strict: a store without a record is what it repairs
  else if (loadInfo w.load m).rc.isSome then .stop .io none m
  else
    match initKeys cfgDefaults ((List.finRange nkeys).map cfgKeys) with
    | .error bad => .stop bad.exit bad.names m
    | .ok c => commit w.store m c

/-! ## passwd -/

/-- `sizeof pw`. -/
def pwBuf : Nat := 65

/-- `read_line`'s -1 and -2. -/
inductive LineErr where
  | eof
  | long
deriving DecidableEq

/-- The loop of `read_line`, over what `fgetc` gives before `EOF`. -/
def readLoop (cap : Nat) (buf : List UInt8) : List UInt8 → Except LineErr (List UInt8)
  | [] => if buf.isEmpty then .error .eof else .ok (stripCr buf)
  | b :: rest =>
      if b = 0x0A then .ok (stripCr buf)
      else if buf.length + 1 ≥ cap then .error .long
      else readLoop cap (buf ++ [b]) rest

/-- `read_line`. -/
def readLine (stdin : List UInt8) : Except LineErr (List UInt8) := readLoop pwBuf [] stdin

/-- What `cmd_passwd` meets. -/
structure PasswdWorld extends ToolWorld where
  isatty : Bool
  tty : TtyWorld
  stdin : List UInt8
  salt : SaltWorld
  malloc : Allocator

/-- `cmd_passwd` once it has the password; its line is left out of `out`. -/
def passwdStore (w : PasswdWorld) (m : Medium) (pw : List UInt8) : Ran :=
  match pwhashSalt w.salt with
  | .error _ => .stop .io none m
  | .ok salt =>
      match pwhashMake w.malloc pw (UInt8.ofNat Broker.kdfLog2n) (UInt16.ofNat Broker.kdfR)
          (UInt16.ofNat Broker.kdfP) salt with
      | .error _ => .stop .io none m
      | .ok blob =>
          match loadOrDie (loadInfo w.load m) with
          | .error refusal => .stop (Refusal.exit refusal) none m
          | .ok c =>
              match cfgSet c idPwhash blob with
              | .error _ => .stop .inval none m
              | .ok c => commit w.store m c

/-- `cmd_passwd`, without arguments: what it does, the mode of the terminal after it, and
the modes in which it read. -/
def cmdPasswd (w : PasswdWorld) (mode : Termios) (m : Medium) : Ran × Termios × List Termios :=
  let off := if w.isatty then echoOff w.tty mode else (true, mode)
  if ¬ off.1 then (.stop .io none m, off.2, [])
  else
    let line := readLine w.stdin
    let mode' := if w.isatty then echoRestore w.tty mode off.2 else off.2
    match line with
    | .error _ => (.stop .inval none m, mode', [off.2])
    | .ok pw =>
        if pw.length < 8 then (.stop .inval none m, mode', [off.2])
        else (passwdStore w m pw, mode', [off.2])

end RlxFw.Cfgstore
