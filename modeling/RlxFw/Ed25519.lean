import RlxFw.Sha512

/-!
# Ed25519 verification

`src/lib/ed25519.c`: the field of sixteen limbs, the points, the scalars, and the wrapper that
checks a signature.  A limb is a signed word of 64 bits.
-/

namespace RlxFw.Ed25519

/-- `gf`. -/
abbrev Gf := Vector Int64 16

/-- `gf p[4]`. -/
abbrev Point := Vector Gf 4

/-- `gf0`. -/
def gf0 : Gf := Vector.replicate 16 0

/-- `gf1`. -/
def gf1 : Gf := gf0.set 0 1

/-- `D`. -/
def gfD : Gf :=
  #v[0x78a3, 0x1359, 0x4dca, 0x75eb, 0xd8ab, 0x4141, 0x0a4d, 0x0070, 0xe898, 0x7779, 0x4079,
    0x8cc7, 0xfe73, 0x2b6f, 0x6cee, 0x5203]

/-- `D2`. -/
def gfD2 : Gf :=
  #v[0xf159, 0x26b2, 0x9b94, 0xebd6, 0xb156, 0x8283, 0x149a, 0x00e0, 0xd130, 0xeef3, 0x80f2,
    0x198e, 0xfce7, 0x56df, 0xd9dc, 0x2406]

/-- `X`. -/
def gfX : Gf :=
  #v[0xd51a, 0x8f25, 0x2d60, 0xc956, 0xa7b2, 0x9525, 0xc760, 0x692c, 0xdc5c, 0xfdd6, 0xe231,
    0xc0a4, 0x53fe, 0xcd6e, 0x36d3, 0x2169]

/-- `Y`. -/
def gfY : Gf :=
  #v[0x6658, 0x6666, 0x6666, 0x6666, 0x6666, 0x6666, 0x6666, 0x6666, 0x6666, 0x6666, 0x6666,
    0x6666, 0x6666, 0x6666, 0x6666, 0x6666]

/-- `I`. -/
def gfI : Gf :=
  #v[0xa0b0, 0x4a0e, 0x1b27, 0xc4ee, 0xe478, 0xad2f, 0x1806, 0x2f43, 0xd7a7, 0x3dfb, 0x0099,
    0x2b4d, 0xdf0b, 0x4fc1, 0x2480, 0x2b83]

/-- `+=` on an element of an array. -/
def addAt {n : Nat} (t : Vector Int64 n) (k : Fin n) (v : Int64) : Vector Int64 n :=
  t.set k (t.get k + v)

/-- A byte as a limb. -/
def limb (b : UInt8) : Int64 := b.toUInt64.toInt64

/-- The low byte of a limb. -/
def lowByte (v : Int64) : UInt8 := v.toUInt64.toUInt8

/-- The bit above the sixteen of a limb. -/
def bit16 (v : Int64) : Int64 := (v >>> 16) &&& 1

/-! ## The field -/

/-- `vn`, whether it returns 0. -/
def vn (x y : List UInt8) (n : Nat) : Bool :=
  let d : UInt32 := (List.range n).foldl (fun d i => d ||| (byteAt x i ^^^ byteAt y i).toUInt32) 0
  let r := ((1 : UInt32) &&& ((d - 1) >>> 8)) - 1
  r == 0

/-- `crypto_verify_32`, whether it returns 0. -/
def cryptoVerify32 (x y : List UInt8) : Bool := vn x y 32

/-- `car25519`. -/
def car25519 (o : Gf) : Gf :=
  (List.finRange 16).foldl
    (fun o (i : Fin 16) =>
      let o := addAt o i ((1 : Int64) <<< 16)
      let c := o.get i >>> 16
      let o := addAt o (if i < 15 then i + 1 else 0)
        (c - 1 + 37 * (c - 1) * (if i = 15 then 1 else 0))
      addAt o i (-(c <<< 16))) o

/-- `sel25519`. -/
def sel25519 (p q : Gf) (b : Int64) : Gf × Gf :=
  let c := ~~~(b - 1)
  let t := Vector.zipWith (fun p q => c &&& (p ^^^ q)) p q
  (Vector.zipWith (· ^^^ ·) p t, Vector.zipWith (· ^^^ ·) q t)

/-- A turn of the second loop of `pack25519`: `t` less the prime, where that is not negative. -/
def packTurn (t : Gf) : Gf :=
  let m : Gf := gf0.set 0 (t.get 0 - 0xffed)
  let m : Gf := (List.finRange 14).foldl
    (fun (m : Gf) k =>
      let i : Fin 16 := k.succ.castLE (by decide)
      let m := m.set i (t.get i - 0xffff - bit16 (m.get (i - 1)))
      m.set (i - 1) (m.get (i - 1) &&& 0xffff)) m
  let m : Gf := m.set 15 (t.get 15 - 0x7fff - bit16 (m.get 14))
  let b := bit16 m[15]
  let m := m.set 14 (m[14] &&& 0xffff)
  (sel25519 t m (1 - b)).1

/-- `pack25519`. -/
def pack25519 (n : Gf) : List UInt8 :=
  let t := packTurn (packTurn (car25519 (car25519 (car25519 n))))
  t.toList.flatMap fun v => [lowByte (v &&& 0xff), lowByte (v >>> 8)]

/-- `neq25519`, whether it returns other than 0. -/
def neq25519 (a b : Gf) : Bool := !cryptoVerify32 (pack25519 a) (pack25519 b)

/-- `par25519`. -/
def par25519 (a : Gf) : UInt8 := byteAt (pack25519 a) 0 &&& 1

/-- `unpack25519`. -/
def unpack25519 (n : List UInt8) : Gf :=
  let o : Gf := Vector.ofFn fun i =>
    limb (byteAt n (2 * i)) + (limb (byteAt n (2 * i + 1)) <<< 8)
  o.set 15 (o[15] &&& 0x7fff)

/-- `A`. -/
def gfA (a b : Gf) : Gf := Vector.zipWith (· + ·) a b

/-- `Z`. -/
def gfZ (a b : Gf) : Gf := Vector.zipWith (· - ·) a b

/-- `M`. -/
def gfM (a b : Gf) : Gf :=
  let t : Vector Int64 31 := (List.finRange 16).foldl
    (fun t (i : Fin 16) =>
      (List.finRange 16).foldl
        (fun t (j : Fin 16) => addAt t (Fin.ofNat 31 (i + j)) (a.get i * b.get j)) t)
    (Vector.replicate 31 0)
  let t := (List.range 15).foldl
    (fun t i => addAt t (Fin.ofNat 31 i) (38 * t.get (Fin.ofNat 31 (i + 16)))) t
  car25519 (car25519 (Vector.ofFn fun i => t.get (Fin.ofNat 31 i)))

/-- `S`. -/
def gfS (a : Gf) : Gf := gfM a a

/-- `inv25519`. -/
def inv25519 (i : Gf) : Gf :=
  (List.range 254).foldr (fun a c => if a ≠ 2 ∧ a ≠ 4 then gfM (gfS c) i else gfS c) i

/-- `pow2523`. -/
def pow2523 (i : Gf) : Gf :=
  (List.range 251).foldr (fun a c => if a ≠ 1 then gfM (gfS c) i else gfS c) i

/-! ## Points -/

/-- `add`. -/
def add (p q : Point) : Point :=
  let a := gfM (gfZ p[1] p[0]) (gfZ q[1] q[0])
  let b := gfM (gfA p[0] p[1]) (gfA q[0] q[1])
  let c := gfM (gfM p[3] q[3]) gfD2
  let d := gfM p[2] q[2]
  let d := gfA d d
  let e := gfZ b a
  let f := gfZ d c
  let g := gfA d c
  let h := gfA b a
  #v[gfM e f, gfM h g, gfM g f, gfM e h]

/-- `cswap`. -/
def cswap (p q : Point) (b : UInt8) : Point × Point :=
  (Vector.zipWith (fun p q => (sel25519 p q (limb b)).1) p q,
    Vector.zipWith (fun p q => (sel25519 p q (limb b)).2) p q)

/-- `pack`. -/
def pack (p : Point) : List UInt8 :=
  let zi := inv25519 p[2]
  let tx := gfM p[0] zi
  let ty := gfM p[1] zi
  let r := pack25519 ty
  r.set 31 (byteAt r 31 ^^^ (par25519 tx <<< 7))

/-- `scalarmult`, for its first result. -/
def scalarmult (q : Point) (s : List UInt8) : Point :=
  ((List.range 256).foldr
    (fun i (p, q) =>
      let b := (byteAt s (i / 8) >>> (UInt8.ofNat i &&& 7)) &&& 1
      let (p, q) := cswap p q b
      let q := add q p
      let p := add p p
      cswap p q b) (#v[gf0, gf1, gf1, gf0], q)).1

/-- `scalarbase`. -/
def scalarbase (s : List UInt8) : Point := scalarmult #v[gfX, gfY, gf1, gfM gfX gfY] s

/-- `unpackneg`: the point, unless it returns -1. -/
def unpackneg (p : List UInt8) : Option Point :=
  let r1 := unpack25519 p
  let num := gfS r1
  let den := gfM num gfD
  let num := gfZ num gf1
  let den := gfA gf1 den
  let den2 := gfS den
  let den4 := gfS den2
  let den6 := gfM den4 den2
  let t := gfM (gfM den6 num) den
  let t := gfM (gfM (gfM (pow2523 t) num) den) den
  let r0 := gfM t den
  let r0 := if neq25519 (gfM (gfS r0) den) num then gfM r0 gfI else r0
  if neq25519 (gfM (gfS r0) den) num then none
  else
    let r0 := if par25519 r0 = byteAt p 31 >>> 7 then gfZ gf0 r0 else r0
    some #v[r0, r1, gf1, gfM r0 r1]

/-! ## Scalars -/

/-- `L`. -/
def orderL : Vector Int64 32 :=
  #v[0xed, 0xd3, 0xf5, 0x5c, 0x1a, 0x63, 0x12, 0x58, 0xd6, 0x9c, 0xf7, 0xa2, 0xde, 0xf9, 0xde,
    0x14, 0, 0, 0, 0, 0, 0, 0, 0, 0, 0, 0, 0, 0, 0, 0, 0x10]

/-- A turn of the first loop of `modL`. -/
def modLTurn (i : Nat) (x : Vector Int64 64) : Vector Int64 64 :=
  let (x, carry) := (List.range 20).foldl
    (fun (x, carry) k =>
      let j := Fin.ofNat 64 (i - 32 + k)
      let x := addAt x j (carry - 16 * x.get (Fin.ofNat 64 i) * orderL.get (Fin.ofNat 32 k))
      let carry := (x.get j + 128) >>> 8
      (addAt x j (-(carry <<< 8)), carry)) (x, 0)
  (addAt x (Fin.ofNat 64 (i - 12)) carry).set (Fin.ofNat 64 i) 0

/-- `modL`. -/
def modL (x : Vector Int64 64) : List UInt8 :=
  let x := (List.range 32).foldr (fun k => modLTurn (k + 32)) x
  let (x, carry) := (List.finRange 32).foldl
    (fun (x, carry) (j : Fin 32) =>
      let k : Fin 64 := j.castLE (by decide)
      let x := addAt x k (carry - (x[31] >>> 4) * orderL.get j)
      (x.set k (x.get k &&& 255), x.get k >>> 8)) (x, 0)
  let x := (List.finRange 32).foldl
    (fun x (j : Fin 32) => addAt x (j.castLE (by decide)) (-(carry * orderL.get j))) x
  ((List.range 32).foldl
    (fun (x, r) i =>
      let v := x.get (Fin.ofNat 64 i)
      (addAt x (Fin.ofNat 64 (i + 1)) (v >>> 8), r ++ [lowByte (v &&& 255)])) (x, [])).2

/-- `reduce`. -/
def reduce (r : List UInt8) : List UInt8 :=
  modL (Vector.ofFn fun i => limb (byteAt r i)) ++ List.replicate 32 0

/-! ## The wrapper -/

/-- `rlx_L_bytes`. -/
def rlxLBytes : List UInt8 :=
  [0xed, 0xd3, 0xf5, 0x5c, 0x1a, 0x63, 0x12, 0x58, 0xd6, 0x9c, 0xf7, 0xa2, 0xde, 0xf9, 0xde, 0x14,
    0x00, 0x00, 0x00, 0x00, 0x00, 0x00, 0x00, 0x00, 0x00, 0x00, 0x00, 0x00, 0x00, 0x00, 0x00, 0x10]

/-- `lt` and `gt`. -/
structure Flags where
  lt : UInt32
  gt : UInt32
deriving DecidableEq, Repr

/-- A turn of the loop of `rlx_s_below_L`, for a byte of the string and the one of the order. -/
def compareTurn (s l : UInt8) (f : Flags) : Flags :=
  let d := s.toUInt32 ^^^ l.toUInt32
  let gt := f.gt ||| ((~~~f.lt &&& ~~~f.gt) &&&
    (if d ≠ 0 then (if s.toUInt32 > l.toUInt32 then 1 else 0) else 0))
  let lt := f.lt ||| ((~~~f.lt &&& ~~~gt) &&&
    (if d ≠ 0 then (if s.toUInt32 < l.toUInt32 then 1 else 0) else 0))
  { lt, gt }

/-- `rlx_s_below_L`. -/
def rlxSBelowL (s : List UInt8) : UInt32 :=
  ((List.range 32).foldr (fun i => compareTurn (byteAt s i) (byteAt rlxLBytes i))
    { lt := 0, gt := 0 }).lt &&& 1

/-- `ED25519_MSG_MAX`. -/
def msgMax : Nat := 1024

/-- What `rlx_ed25519_verify` returns: 0, or an `RLX_ED25519_E*`. -/
inductive Verdict where
  | ok
  | badsig
  | pubkey
  | scalar
  | toolong
deriving DecidableEq, Repr

/-- `rlx_ed25519_verify`. -/
def rlxEd25519Verify (sig msg pk : List UInt8) : Verdict :=
  if msg.length > msgMax then .toolong
  else if rlxSBelowL (sig.drop 32) = 0 then .scalar
  else
    match unpackneg pk with
    | none => .pubkey
    | some q =>
        let h := reduce (Sha512.cryptoHash (sig.take 32 ++ pk.take 32 ++ msg))
        let p := add (scalarmult q h) (scalarbase (sig.drop 32))
        if cryptoVerify32 sig (pack p) then .ok else .badsig

end RlxFw.Ed25519
