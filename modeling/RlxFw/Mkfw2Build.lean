import RlxFw.Mkfw2Checks

/-!
# What the builder builds

The container that `build` makes of its arguments, field by field, and exactly
which arguments it takes.
-/

namespace RlxFw.Mkfw2

open Tlv (getBe16 getBe32 putBe16 putBe32)
open Container (be32 be16 version payloadLen loadAddr entryAddr flashAt flashForm
  destination staging landingRange licensable bodyOff)

/-- The bytes that `struct.pack` makes of numbers in range. -/
def headerBytes (version payloadLen loadAddr entryAddr flags : Nat)
    (digest recipeId : List UInt8) (flashAt flashForm : Nat) : List UInt8 :=
  putBe32 magic ++ putBe16 format ++ putBe16 headerLen ++ putBe32 version ++
    putBe32 payloadLen ++ putBe32 loadAddr ++ putBe32 entryAddr ++ putBe32 flags ++
    digest ++ recipeId ++ putBe32 flashAt ++ putBe32 flashForm ++ List.replicate resvLen 0

/-- A number that fits a word. -/
def InWord (v : Int) : Prop := 0 ≤ v ∧ v < 2 ^ 32

theorem packWord_eq_some_iff {v : Int} {bytes : List UInt8} :
    packWord v = some bytes ↔ InWord v ∧ bytes = putBe32 v.toNat := by
  unfold packWord InWord
  split
  next inside =>
    rw [Option.some.injEq, eq_comm, and_iff_right inside]
  next outside =>
    exact ⟨nofun, fun both => absurd both.1 outside⟩

theorem headerBytes_length (v n l e g at_ form : Nat) {digest recipeId : List UInt8}
    (isDigest : digest.length = 32) (isRecipe : recipeId.length = 4) :
    (headerBytes v n l e g digest recipeId at_ form).length = headerLen := by
  simp [headerBytes, isDigest, isRecipe, resvLen, headerLen]

section Pack

variable {v l e g at_ form : Int} {n : Nat} {digest recipeId h : List UInt8}

theorem packHeader_eq_some_iff :
    packHeader v n l e g digest recipeId at_ form = some h ↔
      (digest.length = 32 ∧ recipeId.length = 4) ∧
        (InWord v ∧ InWord n ∧ InWord l ∧ InWord e ∧ InWord g ∧ InWord at_ ∧ InWord form) ∧
        h = headerBytes v.toNat n l.toNat e.toNat g.toNat digest recipeId at_.toNat
          form.toNat := by
  unfold packHeader
  constructor
  · intro packed
    split at packed
    · cases packed
    next isDigest =>
    split at packed
    · cases packed
    next isRecipe =>
    rw [not_not] at isDigest isRecipe
    simp only [Option.bind_eq_bind, Option.bind_eq_some_iff, packWord_eq_some_iff] at packed
    obtain ⟨_, ⟨inV, rfl⟩, _, ⟨inN, rfl⟩, _, ⟨inL, rfl⟩, _, ⟨inE, rfl⟩, _, ⟨inG, rfl⟩, _,
      ⟨inAt, rfl⟩, _, ⟨inForm, rfl⟩, packed⟩ := packed
    split at packed
    · cases packed
    cases packed
    exact ⟨⟨isDigest, isRecipe⟩, ⟨inV, inN, inL, inE, inG, inAt, inForm⟩, rfl⟩
  · rintro ⟨⟨isDigest, isRecipe⟩, ⟨inV, inN, inL, inE, inG, inAt, inForm⟩, rfl⟩
    have long := headerBytes_length v.toNat n l.toNat e.toNat g.toNat at_.toNat form.toNat
      isDigest isRecipe
    rw [if_neg (not_not.mpr isDigest), if_neg (not_not.mpr isRecipe)]
    simp only [Option.bind_eq_bind, Option.bind_eq_some_iff, packWord_eq_some_iff]
    refine ⟨_, ⟨inV, rfl⟩, _, ⟨inN, rfl⟩, _, ⟨inL, rfl⟩, _, ⟨inE, rfl⟩, _, ⟨inG, rfl⟩, _,
      ⟨inAt, rfl⟩, _, ⟨inForm, rfl⟩, ?_⟩
    rw [if_neg]
    · rfl
    · exact not_not.mpr long

end Pack

/-! ## The container in memory -/

/-- A container that holds a source, for a flash destination. -/
structure Holds (c : ByteMap) (x : Source) (at_ form : Nat) (h signature : List UInt8) :
    Prop where
  magic : be32 c 0 = magic
  format : be16 c 4 = format
  headerLen : be16 c 6 = headerLen
  version : (version c : Int) = x.version
  payloadLen : payloadLen c = x.payload.length
  loadAddr : (loadAddr c : Int) = x.loadAddr
  entryAddr : (entryAddr c : Int) = x.entryAddr
  flags : be32 c 24 = 0
  digest : c.slice 28 32 = Sha256b.sha256 x.payload
  flashAt : flashAt c = at_
  flashForm : flashForm c = form
  reserved : c.slice resvOff resvLen = List.replicate resvLen 0
  header : c.slice 0 Mkfw2.headerLen = h
  signature : c.slice Mkfw2.headerLen sigLen = signature
  payload : c.slice body x.payload.length = x.payload

section Prefix

variable {blob front : List UInt8} {off v : Nat}

theorem be32_of_prefix (front : List UInt8) (small : v < 2 ^ 32)
    (shape : front ++ putBe32 v <+: blob) (at_ : front.length = off) :
    be32 (ByteMap.ofList blob 0) off = v := by
  obtain ⟨back, rfl⟩ := shape
  subst at_
  rw [← getBe32_eq_be32, List.append_assoc]
  exact Tlv.getBe32_ofList small front back 0

theorem be16_of_prefix (front : List UInt8) (small : v < 2 ^ 16)
    (shape : front ++ putBe16 v <+: blob) (at_ : front.length = off) :
    be16 (ByteMap.ofList blob 0) off = v := by
  obtain ⟨back, rfl⟩ := shape
  subst at_
  rw [List.append_assoc]
  exact Tlv.getBe16_ofList small front back 0

theorem slice_of_prefix (front : List UInt8) {middle : List UInt8} {n : Nat}
    (shape : front ++ middle <+: blob) (at_ : front.length = off) (long : middle.length = n) :
    (ByteMap.ofList blob 0).slice off n = middle := by
  obtain ⟨back, rfl⟩ := shape
  subst at_ long
  rw [List.append_assoc]
  exact ByteMap.slice_ofList front middle back 0

end Prefix

theorem sha256_length (m : List UInt8) : (Sha256b.sha256 m).length = 32 :=
  Sha256b.digest_length _

/-- What `build` lays out holds its source. -/
theorem holds_headerBytes {x : Source} {at_ form : Nat} {signature : List UInt8}
    (recipe : x.recipeId.length = 4) (inVersion : InWord x.version)
    (inLen : InWord x.payload.length) (inLoad : InWord x.loadAddr)
    (inEntry : InWord x.entryAddr) (inAt : InWord at_) (inForm : InWord form)
    (signed : signature.length = sigLen) :
    Holds (ByteMap.ofList (headerBytes x.version.toNat x.payload.length x.loadAddr.toNat
      x.entryAddr.toNat 0 (Sha256b.sha256 x.payload) x.recipeId at_ form ++ signature ++
        x.payload) 0) x at_ form
      (headerBytes x.version.toNat x.payload.length x.loadAddr.toNat x.entryAddr.toNat 0
        (Sha256b.sha256 x.payload) x.recipeId at_ form) signature := by
  obtain ⟨payload, ver, load, entry, recipeId⟩ := x
  dsimp only at *
  obtain ⟨v, rfl⟩ := Int.eq_ofNat_of_zero_le inVersion.1
  obtain ⟨l, rfl⟩ := Int.eq_ofNat_of_zero_le inLoad.1
  obtain ⟨e, rfl⟩ := Int.eq_ofNat_of_zero_le inEntry.1
  have smallV : v < 2 ^ 32 := by have := inVersion.2; omega
  have smallL : l < 2 ^ 32 := by have := inLoad.2; omega
  have smallE : e < 2 ^ 32 := by have := inEntry.2; omega
  have smallN : payload.length < 2 ^ 32 := by have := inLen.2; omega
  have smallAt : at_ < 2 ^ 32 := by have := inAt.2; omega
  have smallForm : form < 2 ^ 32 := by have := inForm.2; omega
  rw [Int.toNat_natCast, Int.toNat_natCast, Int.toNat_natCast]
  have isDigest := sha256_length payload
  have long := headerBytes_length v payload.length l e 0 at_ form isDigest recipe
  generalize isSum : Sha256b.sha256 payload = digest at isDigest long
  generalize isH : headerBytes v payload.length l e 0 digest recipeId at_ form = h at long
  -- the fields, each by what is before it
  have begins (run : List UInt8)
      (before : run <+: headerBytes v payload.length l e 0 digest recipeId at_ form) :
      run <+: h ++ signature ++ payload := by
    rw [isH] at before
    rw [List.append_assoc]
    exact before.trans (List.prefix_append h _)
  exact {
    magic := be32_of_prefix [] (by decide)
      (begins _ (by simp [headerBytes])) rfl
    format := be16_of_prefix (putBe32 magic) (by decide)
      (begins _ (by simp [headerBytes])) (by simp)
    headerLen := be16_of_prefix (putBe32 magic ++ putBe16 format) (by decide)
      (begins _ (by simp [headerBytes])) (by simp)
    version := congrArg Int.ofNat <| be32_of_prefix
      (putBe32 magic ++ putBe16 format ++ putBe16 headerLen) smallV
      (begins _ (by simp [headerBytes])) (by simp)
    payloadLen := be32_of_prefix
      (putBe32 magic ++ putBe16 format ++ putBe16 headerLen ++ putBe32 v) smallN
      (begins _ (by simp [headerBytes])) (by simp)
    loadAddr := congrArg Int.ofNat <| be32_of_prefix
      (putBe32 magic ++ putBe16 format ++ putBe16 headerLen ++ putBe32 v ++
        putBe32 payload.length) smallL
      (begins _ (by simp [headerBytes])) (by simp)
    entryAddr := congrArg Int.ofNat <| be32_of_prefix
      (putBe32 magic ++ putBe16 format ++ putBe16 headerLen ++ putBe32 v ++
        putBe32 payload.length ++ putBe32 l) smallE
      (begins _ (by simp [headerBytes])) (by simp)
    flags := be32_of_prefix
      (putBe32 magic ++ putBe16 format ++ putBe16 headerLen ++ putBe32 v ++
        putBe32 payload.length ++ putBe32 l ++ putBe32 e) (by decide)
      (begins _ (by simp [headerBytes])) (by simp)
    digest := isSum ▸ slice_of_prefix
      (putBe32 magic ++ putBe16 format ++ putBe16 headerLen ++ putBe32 v ++
        putBe32 payload.length ++ putBe32 l ++ putBe32 e ++ putBe32 0)
      (begins _ (by simp [headerBytes])) (by simp) isDigest
    flashAt := be32_of_prefix
      (putBe32 magic ++ putBe16 format ++ putBe16 headerLen ++ putBe32 v ++
        putBe32 payload.length ++ putBe32 l ++ putBe32 e ++ putBe32 0 ++ digest ++ recipeId) smallAt
      (begins _ (by simp [headerBytes])) (by simp [isDigest, recipe]; rfl)
    flashForm := be32_of_prefix
      (putBe32 magic ++ putBe16 format ++ putBe16 headerLen ++ putBe32 v ++
        putBe32 payload.length ++ putBe32 l ++ putBe32 e ++ putBe32 0 ++ digest ++ recipeId ++
        putBe32 at_) smallForm
      (begins _ (by simp [headerBytes])) (by simp [isDigest, recipe]; rfl)
    reserved := slice_of_prefix
      (putBe32 magic ++ putBe16 format ++ putBe16 headerLen ++ putBe32 v ++
        putBe32 payload.length ++ putBe32 l ++ putBe32 e ++ putBe32 0 ++ digest ++ recipeId ++
        putBe32 at_ ++ putBe32 form)
      (begins _ (by simp [headerBytes])) (by simp [isDigest, recipe]; rfl) (by simp)
    header := slice_of_prefix [] (begins _ (isH ▸ List.prefix_rfl)) rfl long
    signature := slice_of_prefix h (List.prefix_append _ _) long signed
    payload := slice_of_prefix (h ++ signature) List.prefix_rfl
      (by rw [List.length_append, long, signed]; rfl) rfl }

end RlxFw.Mkfw2
