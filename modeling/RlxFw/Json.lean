import RlxFw.Decimal

/-!
# The flat objects of the web API

`src/lib/json.c`: a reader of one flat object with a cursor, and a writer into a
buffer.  The cursor is the list of the bytes not read yet.
-/

namespace RlxFw.Json

/-- `JSON_KEYS_MAX`. -/
def keysMax : Nat := 24
/-- `JSON_STR_MAX`. -/
def strMax : Nat := 64
/-- `JSON_DOC_MAX`. -/
def docMax : Nat := 4096

/-- `JSONE_*`. -/
inductive Err where
  | malformed
  | depth
  | long
  | many
  | dup
  | num
  | nul
  | char
  | esc
  | trail
  | big
deriving DecidableEq, Repr

/-- `json_errname`. -/
def Err.name : Err → List UInt8
  | .malformed => ascii "syntax"
  | .depth => ascii "depth"
  | .long => ascii "long"
  | .many => ascii "many"
  | .dup => ascii "dup"
  | .num => ascii "num"
  | .nul => ascii "nul"
  | .char => ascii "char"
  | .esc => ascii "esc"
  | .trail => ascii "trail"
  | .big => ascii "big"

/-- The type of a member with the field that goes with it. -/
inductive Value where
  | str (sval : List UInt8)
  | num (nval : Nat)
  | bool (nval : Bool)
  | null
deriving DecidableEq, Repr

/-- `struct json_member`. -/
structure Member where
  key : List UInt8
  value : Value
deriving DecidableEq, Repr

/-! ## The reader -/

/-- A byte that `jp_skip_ws` skips. -/
def isWs (c : UInt8) : Bool := c == 0x20 || c == 0x09 || c == 0x0D || c == 0x0A

/-- `jp_skip_ws`. -/
def skipWs (s : List UInt8) : List UInt8 := s.dropWhile isWs

/-- `hexval`. -/
def hexval (c : UInt8) : Option Nat :=
  if 0x30 ≤ c ∧ c ≤ 0x39 then some (c.toNat - 0x30)
  else if 0x61 ≤ c ∧ c ≤ 0x66 then some (c.toNat - 0x61 + 10)
  else if 0x41 ≤ c ∧ c ≤ 0x46 then some (c.toNat - 0x41 + 10)
  else none

/-- The byte of `\u`, of the ones a raw byte may be. -/
def unicode (h0 h1 h2 h3 : UInt8) : Option UInt8 := do
  let h0 ← hexval h0
  let h1 ← hexval h1
  let h2 ← hexval h2
  let h3 ← hexval h3
  let v := h0 * 2 ^ 12 + h1 * 2 ^ 8 + h2 * 2 ^ 4 + h3
  if v < 0x20 ∨ v > 0x7E then none else some (UInt8.ofNat v)

/-- The byte of an escape of two. -/
def escaped (e : UInt8) : Option UInt8 :=
  if e = 0x22 then some 0x22
  else if e = 0x5C then some 0x5C
  else if e = 0x2F then some 0x2F
  else if e = 0x62 then some 0x08
  else if e = 0x66 then some 0x0C
  else if e = 0x6E then some 0x0A
  else if e = 0x72 then some 0x0D
  else if e = 0x74 then some 0x09
  else none

/-- The loop of `jp_string`, with the bytes so far. -/
def stringTail (cap : Nat) :
    List UInt8 → List UInt8 → Except Err (List UInt8 × List UInt8)
  | _, [] => .error .malformed
  | dst, c :: rest =>
      if c = 0x22 then .ok (dst, rest)
      else if c = 0x00 then .error .nul
      else if c < 0x20 then .error .char
      else if c ≥ 0x80 then .error .char
      else if c = 0x5C then
        match rest with
        | [] => .error .malformed
        | e :: rest =>
            if e = 0x75 then
              match rest with
              | h0 :: h1 :: h2 :: h3 :: rest =>
                  match unicode h0 h1 h2 h3 with
                  | none => .error .esc
                  | some c =>
                      if dst.length + 1 ≥ cap then .error .long
                      else stringTail cap (dst ++ [c]) rest
              | _ => .error .malformed
            else
              match escaped e with
              | none => .error .esc
              | some c =>
                  if dst.length + 1 ≥ cap then .error .long
                  else stringTail cap (dst ++ [c]) rest
      else if dst.length + 1 ≥ cap then .error .long
      else stringTail cap (dst ++ [c]) rest

/-- `jp_string`. -/
def jpString (s : List UInt8) (cap : Nat) : Except Err (List UInt8 × List UInt8) :=
  match s with
  | 0x22 :: rest => stringTail cap [] rest
  | _ => .error .malformed

/-- The loop of `jp_u32`: the number, how many digits, and the rest. -/
def u32Digits : Nat → Nat → List UInt8 → Except Err (Nat × Nat × List UInt8)
  | v, digits, [] => .ok (v, digits, [])
  | v, digits, c :: rest =>
      if 0x30 ≤ c ∧ c ≤ 0x39 then
        let d := c.toNat - 0x30
        if v > 429496729 ∨ (v = 429496729 ∧ d > 5) then .error .num
        else u32Digits (v * 10 + d) (digits + 1) rest
      else .ok (v, digits, c :: rest)

/-- `jp_u32`. -/
def jpU32 (s : List UInt8) : Except Err (Nat × List UInt8) :=
  match s with
  | [] => .error .malformed
  | first :: _ =>
      if first = 0x2D ∨ first = 0x2B then .error .num
      else
        match u32Digits 0 0 s with
        | .error e => .error e
        | .ok (v, digits, rest) =>
            if digits = 0 then .error .malformed
            else if digits > 1 ∧ first = 0x30 then .error .num
            else if rest.head? = some 0x2E ∨ rest.head? = some 0x65 ∨
                rest.head? = some 0x45 then .error .num
            else .ok (v, rest)

/-- `jp_lit`. -/
def jpLit (s word : List UInt8) : Except Err (List UInt8) :=
  if s.length < word.length then .error .malformed
  else if s.take word.length ≠ word then .error .malformed
  else .ok (s.drop word.length)

/-- The value of a member. -/
def jpValue (s : List UInt8) : Except Err (Value × List UInt8) :=
  match s with
  | [] => .error .malformed
  | c :: _ =>
      if c = 0x7B ∨ c = 0x5B then .error .depth
      else if c = 0x22 then (jpString s (strMax + 1)).map fun r => (.str r.1, r.2)
      else if c = 0x74 then (jpLit s (ascii "true")).map fun rest => (.bool true, rest)
      else if c = 0x66 then (jpLit s (ascii "false")).map fun rest => (.bool false, rest)
      else if c = 0x6E then (jpLit s (ascii "null")).map fun rest => (.null, rest)
      else (jpU32 s).map fun r => (.num r.1, r.2)

/-- One member, after the ones before it. -/
def jpMember (before : List Member) (s : List UInt8) : Except Err (Member × List UInt8) :=
  match jpString (skipWs s) (strMax + 1) with
  | .error e => .error e
  | .ok (key, s) =>
      if key.length = 0 then .error .malformed
      else if before.any fun m => m.key == key then .error .dup
      else
        match skipWs s with
        | 0x3A :: s => (jpValue (skipWs s)).map fun r => (⟨key, r.1⟩, r.2)
        | _ => .error .malformed

/-- The loop of `json_parse`, with how many members may come and those so far. -/
def jpMembers : Nat → List Member → List UInt8 → Except Err (List Member × List UInt8)
  | 0, _, _ => .error .many
  | left + 1, before, s =>
      match jpMember before s with
      | .error e => .error e
      | .ok (m, s) =>
          match skipWs s with
          | 0x2C :: s => jpMembers left (before ++ [m]) s
          | 0x7D :: s => .ok (before ++ [m], s)
          | _ => .error .malformed

/-- `json_parse` after its opening brace. -/
def jpObject (s : List UInt8) : Except Err (List Member × List UInt8) :=
  match skipWs s with
  | 0x7D :: s => .ok ([], s)
  | s => jpMembers keysMax [] s

/-- `json_parse`. -/
def jsonParse (p : List UInt8) : Except Err (List Member) :=
  if p.length > docMax then .error .big
  else if p.contains 0 then .error .nul
  else
    match skipWs p with
    | 0x7B :: s =>
        match jpObject s with
        | .error e => .error e
        | .ok (members, s) => if skipWs s ≠ [] then .error .trail else .ok members
    | _ => .error .malformed

/-- `json_get`. -/
def jsonGet (o : List Member) (key : List UInt8) : Option Member :=
  if key.length > strMax then none else o.find? fun m => m.key == key

/-! ## The writer -/

/-- `struct json_w`. -/
structure Writer where
  buf : List UInt8
  cap : Nat
  err : Bool
  nmemb : Nat
deriving DecidableEq, Repr

/-- `jw_put`. -/
def Writer.put (w : Writer) (s : List UInt8) : Writer :=
  if w.err then w
  else if w.buf.length + s.length + 1 > w.cap then { w with err := true }
  else { w with buf := w.buf ++ s }

/-- `json_w_init`. -/
def Writer.init (cap : Nat) : Writer :=
  { buf := [], cap := cap, err := cap == 0, nmemb := 0 }

/-- `json_w_obj_open`. -/
def Writer.objOpen (w : Writer) : Writer := { w.put [0x7B] with nmemb := 0 }

/-- `json_w_obj_close`. -/
def Writer.objClose (w : Writer) : Writer := w.put [0x7D]

/-- `json_w_key`. -/
def Writer.key (w : Writer) (key : List UInt8) : Writer :=
  let w := if w.nmemb ≠ 0 then w.put [0x2C] else w
  let w := { w with nmemb := w.nmemb + 1 }
  ((w.put [0x22]).put key).put [0x22, 0x3A]

/-- What `json_w_strn` makes of a byte, or none of those it refuses. -/
def quoteByte (c : UInt8) : Option (List UInt8) :=
  if c = 0x22 ∨ c = 0x5C then some [0x5C, c]
  else if c = 0x0A then some [0x5C, 0x6E]
  else if c = 0x0D then some [0x5C, 0x72]
  else if c = 0x09 then some [0x5C, 0x74]
  else if c < 0x20 ∨ c ≥ 0x7F then none
  else some [c]

/-- The loop of `json_w_strn` and the quote after it. -/
def Writer.strTail (w : Writer) : List UInt8 → Writer
  | [] => w.put [0x22]
  | c :: rest =>
      match quoteByte c with
      | none => { w with err := true }
      | some e => (w.put e).strTail rest

/-- `json_w_strn`. -/
def Writer.strn (w : Writer) (key val : List UInt8) : Writer :=
  ((w.key key).put [0x22]).strTail val

/-- The loop of `json_w_num`, over the digits not yet written. -/
def numDigits : Nat → Nat → List UInt8 → List UInt8
  | 0, _, d => d
  | i + 1, v, d => if v > 0 then numDigits i (v / 10) (Decimal.digit (v % 10) :: d) else d

/-- `json_w_num`. -/
def Writer.num (w : Writer) (key : List UInt8) (v : Nat) : Writer :=
  let w := w.key key
  if v = 0 then w.put [0x30] else w.put (numDigits 12 v [])

/-- `json_w_bool`. -/
def Writer.bool (w : Writer) (key : List UInt8) (v : Bool) : Writer :=
  (w.key key).put (if v then ascii "true" else ascii "false")

/-- `json_w_raw`. -/
def Writer.raw (w : Writer) (key raw : List UInt8) : Writer := (w.key key).put raw

end RlxFw.Json
