import RlxFw.Prelude
import Mathlib.Data.List.FinRange
import Mathlib.Logic.Function.Basic

/-!
# Sessions

`src/brokerd/session.c`: the random source, the constant-time comparison and
the table of four sessions.
-/

namespace RlxFw.Broker

/-- `PROTO_TOK_LEN`. -/
def tokLen : Nat := 16
/-- `BK_NSESS`. -/
abbrev nsess : Nat := 4
/-- `BK_SESS_TTL`. -/
def sessTtl : Nat := 900

/-- A session token or a CSRF token. -/
structure Token where
  bytes : List UInt8
  length_eq : bytes.length = tokLen
deriving DecidableEq, Repr

/-- The token a wiped entry holds. -/
def Token.zero : Token := ⟨List.replicate tokLen 0, List.length_replicate⟩

/-- A token whose first bytes were written over. -/
def Token.overwrite (t : Token) (bytes : List UInt8) : Token where
  bytes := bytes.take tokLen ++ t.bytes.drop bytes.length
  length_eq := by
    simp only [List.length_append, List.length_take, List.length_drop,
      t.length_eq]
    omega

/-- `bk_ct_eq`, on two runs of one length. -/
def bkCtEq (a b : List UInt8) : Bool :=
  (List.zipWith (· ^^^ ·) a b).foldl (· ||| ·) 0 == 0

theorem foldl_or_eq_zero (bytes : List UInt8) (d : UInt8) :
    bytes.foldl (· ||| ·) d = 0 ↔ d = 0 ∧ ∀ byte ∈ bytes, byte = 0 := by
  induction bytes generalizing d with
  | nil => simp
  | cons byte bytes ih =>
      rw [List.foldl_cons, ih, UInt8.or_eq_zero_iff, List.forall_mem_cons,
        and_assoc]

theorem bkCtEq_iff {a b : List UInt8} (same : a.length = b.length) :
    bkCtEq a b = true ↔ a = b := by
  unfold bkCtEq
  rw [beq_iff_eq, foldl_or_eq_zero]
  simp only [true_and]
  induction a generalizing b with
  | nil =>
      rw [List.length_nil] at same
      simp [List.eq_nil_of_length_eq_zero same.symm]
  | cons x a ih =>
      cases b with
      | nil => cases same
      | cons y b =>
          rw [List.zipWith_cons_cons, List.forall_mem_cons,
            ih (Nat.succ_inj.mp same), UInt8.xor_eq_zero_iff,
            List.cons.injEq]

theorem Token.ctEq_iff (t u : Token) :
    bkCtEq t.bytes u.bytes = true ↔ t = u := by
  rw [bkCtEq_iff (t.length_eq.trans u.length_eq.symm)]
  cases t
  cases u
  simp

/-! ## The random source -/

/-- One `read` of the random source: bytes, none of them at end of file, an
interruption or an error. -/
inductive Read where
  | data (bytes : List UInt8)
  | again
  | fail
deriving DecidableEq, Repr

/-- The loop of `bk_random` for `n` bytes, with those read so far.  A list of
answers that ends reads as end of file. -/
def readLoop (n : Nat) : List Read → List UInt8 → List UInt8 × Bool
  | answers, got =>
      if n ≤ got.length then (got, true)
      else
        match answers with
        | [] => (got, false)
        | .fail :: _ => (got, false)
        | .again :: answers => readLoop n answers got
        | .data bytes :: answers =>
            let chunk := bytes.take (n - got.length)
            if chunk = [] then (got, false)
            else readLoop n answers (got ++ chunk)

/-- A random source: it does not open, or it answers its reads. -/
abbrev Source := Option (List Read)

/-- `bk_random`: the bytes it wrote, and whether it returned 0. -/
def bkRandom (source : Source) (n : Nat) : List UInt8 × Bool :=
  match source with
  | none => ([], false)
  | some answers => readLoop n answers []

/-! ## The table -/

/-- `struct bk_sess`. -/
structure Sess where
  used : Bool
  tok : Token
  csrf : Token
  last : Nat
  born : Nat
deriving DecidableEq, Repr

/-- What `bk_sess_drop` leaves of an entry. -/
def Sess.zero : Sess where
  used := false
  tok := .zero
  csrf := .zero
  last := 0
  born := 0

/-- The entries. -/
abbrev Table := Fin nsess → Sess

/-- `bk_sess_drop`. -/
def bkSessDrop (table : Table) (i : Fin nsess) : Table :=
  Function.update table i .zero

/-- `bk_sess_drop_all`. -/
def bkSessDropAll : Table := fun _ => .zero

/-- `bk_sess_expire` at the time `now`. -/
def bkSessExpire (now : Nat) (table : Table) : Table := fun i =>
  if (table i).used ∧ now - (table i).last ≥ sessTtl then .zero else table i

/-- The entry that holds a token, the last one if several do. -/
def hit (table : Table) (tok : Token) : Option (Fin nsess) :=
  (List.finRange nsess).foldl
    (fun hit i =>
      if (table i).used ∧ bkCtEq (table i).tok.bytes tok.bytes then some i
      else hit)
    none

/-- `bk_sess_find`. -/
def bkSessFind (now : Nat) (table : Table) (tok : Token) :
    Table × Option (Fin nsess) :=
  (bkSessExpire now table, hit (bkSessExpire now table) tok)

/-- The least recently used entry, the first made of those used in one
second. -/
def lru (table : Table) : Fin nsess :=
  ([1, 2, 3] : List (Fin nsess)).foldl
    (fun slot i =>
      if (table i).last < (table slot).last ∨
          (table i).last = (table slot).last ∧
            (table i).born < (table slot).born then i
      else slot)
    0

/-- The entry that `bk_sess_new` fills. -/
def newSlot (table : Table) : Fin nsess :=
  ((List.finRange nsess).find? fun i => !(table i).used).getD (lru table)

/-- The table and `sess_seq`. -/
structure Sessions where
  table : Table
  seq : Nat

/-- The clock readings and the two random reads of one `bk_sess_new`. -/
structure NewCall where
  expireAt : Nat
  madeAt : Nat
  tok : Source
  csrf : Source

/-- `bk_sess_new`. -/
def bkSessNew (call : NewCall) (s : Sessions) :
    Sessions × Option (Fin nsess) :=
  let table := bkSessExpire call.expireAt s.table
  let slot := newSlot table
  let tok := bkRandom call.tok tokLen
  let entry := { table slot with tok := (table slot).tok.overwrite tok.1 }
  if ¬ tok.2 then
    ({ s with table := Function.update table slot entry }, none)
  else
    let csrf := bkRandom call.csrf tokLen
    if ¬ csrf.2 then
      ({ s with table := bkSessDrop table slot }, none)
    else
      let made :=
        { entry with
          csrf := entry.csrf.overwrite csrf.1, used := true
          last := call.madeAt, born := s.seq + 1 }
      ({ table := Function.update table slot made, seq := s.seq + 1 },
        some slot)

end RlxFw.Broker
