import RlxFw.Decimal
import RlxFw.JsonText
import RlxFw.LanPool
import RlxFw.NetUtil

/-!
# The DHCP server's configuration

Step 6 of `src/init/main.c`: the bounded line builder, the values that init takes from
the configuration, and the file that `write_udhcpd_conf` builds from them.
-/

namespace RlxFw.InitMain

open CfgStore (Cfg cfgGet valueWord idLanIp idLanMask idDhcpdStart idDhcpdEnd idDhcpdLease
  idDnsUp)
open Net (nuMaskOk nuIsUnicast nuIsNetOrBcast)

/-! ## The line builder -/

/-- `LB_MAX`. -/
def lbMax : Nat := 240

/-- `struct lbuf`. -/
structure LBuf where
  b : List UInt8
  truncated : Bool
deriving DecidableEq, Repr

/-- `lb_reset`. -/
def lbReset : LBuf := { b := [], truncated := false }

/-- `lb_c`. -/
def lbC (l : LBuf) (c : UInt8) : LBuf :=
  if lbMax ≤ l.b.length then { l with truncated := true } else { l with b := l.b ++ [c] }

/-- `lb_s`. -/
def lbS (l : LBuf) (s : List UInt8) : LBuf := ((cString s).take lbMax).foldl lbC l

/-- `lb_u`. -/
def lbU (l : LBuf) (v : Nat) : LBuf :=
  if v = 0 then lbC l 0x30 else (Json.numDigits 24 v []).foldl lbC l

/-- An octet of `nu_format_ipv4`. -/
def octetText (v : Nat) : List UInt8 :=
  (if 100 ≤ v then [Decimal.digit (v / 100)] else []) ++
    (if 10 ≤ v then [Decimal.digit (v / 10 % 10)] else []) ++ [Decimal.digit (v % 10)]

/-- An octet of an address, the first being the third. -/
def octetAt (ip : UInt32) (oct : Nat) : Nat := ip.toNat / 2 ^ (8 * oct) % 256

/-- `nu_format_ipv4`, into a buffer of `n` bytes. -/
def nuFormatIpv4 (ip : UInt32) (n : Nat) : Option (List UInt8) :=
  let buf := octetText (octetAt ip 3) ++ 0x2E :: (octetText (octetAt ip 2) ++
    0x2E :: (octetText (octetAt ip 1) ++ 0x2E :: octetText (octetAt ip 0)))
  if n < buf.length + 1 then none else some buf

/-- `lb_ip`, with a buffer of `NU_QUAD_BUF` bytes. -/
def lbIp (l : LBuf) (ip : UInt32) : LBuf :=
  match nuFormatIpv4 ip 16 with
  | none => lbS l (ascii "?.?.?.?")
  | some q => lbS l q

/-- `lb_kv_ip`. -/
def lbKvIp (l : LBuf) (k : List UInt8) (ip : UInt32) : LBuf := lbC (lbIp (lbS l k) ip) 0x0A

/-! ## The file -/

/-- What `write_udhcpd_conf` is called with. -/
structure Pool where
  lan : UInt32
  mask : UInt32
  first : UInt32
  last : UInt32
  dns : UInt32
  lease : Nat
deriving DecidableEq, Repr

/-- The leases of a pool, of which no more than 254 are given out. -/
def maxLeases (first last : UInt32) : Nat :=
  let span := if first ≤ last then ((last - first).toNat + 1) % 2 ^ 32 else 1
  if 254 < span then 254 else span

/-- `write_udhcpd_conf`, up to the file it opens: what it writes there. -/
def writeUdhcpdConf (p : Pool) : Option (List UInt8) :=
  let l := lbS lbReset (ascii "# generated by rlxfw init; do not edit\n")
  let l := lbS l (ascii "interface rlx0\n")
  let l := lbKvIp l (ascii "start ") p.first
  let l := lbKvIp l (ascii "end ") p.last
  let l := lbKvIp l (ascii "opt subnet ") p.mask
  let l := lbKvIp l (ascii "opt router ") p.lan
  let l := lbKvIp l (ascii "opt dns ") p.dns
  let l := lbC (lbU (lbS l (ascii "opt lease ")) p.lease) 0x0A
  let l := lbC (lbU (lbS l (ascii "max_leases ")) (maxLeases p.first p.last)) 0x0A
  let l := lbS l (ascii "lease_file /var/udhcpd.leases\n")
  let l := lbS l (ascii "pidfile /run/udhcpd.pid\n")
  if l.truncated then none else some l.b

/-- `cfg_ipv4` and `cfg_u32`. -/
def cfgWord (c : Cfg) (id : Nat) (fallback : UInt32) : UInt32 :=
  match cfgGet c id with
  | .error _ => fallback
  | .ok v => if v.length ≠ 4 then fallback else valueWord v

/-- The LAN that init brings up: the configuration's, or 10.1.1.1/24 when that is
refused. -/
def lanOf (c : Cfg) : UInt32 × UInt32 :=
  let lan := cfgWord c idLanIp 0x0A010101
  let mask := cfgWord c idLanMask 0xFFFFFF00
  if nuMaskOk mask 8 30 ≠ .ok () ∨ ¬ nuIsUnicast lan ∨ nuIsNetOrBcast lan mask then
    (0x0A010101, 0xFFFFFF00)
  else (lan, mask)

/-- What init takes from a configuration for `write_udhcpd_conf`. -/
def poolOf (c : Cfg) : Pool where
  lan := (lanOf c).1
  mask := (lanOf c).2
  first := cfgWord c idDhcpdStart 0x0A010164
  last := cfgWord c idDhcpdEnd 0x0A0101C7
  dns := cfgWord c idDnsUp 0x0A010102
  lease := (cfgWord c idDhcpdLease 86400).toNat

/-! ## The whole text -/

/-- An address as a dotted quad. -/
def dotted (ip : UInt32) : List UInt8 :=
  Decimal.text (octetAt ip 3) ++ 0x2E :: (Decimal.text (octetAt ip 2) ++
    0x2E :: (Decimal.text (octetAt ip 1) ++ 0x2E :: Decimal.text (octetAt ip 0)))

/-- A line of the file: a key and its value. -/
def line (key value : List UInt8) : List UInt8 := key ++ (value ++ [0x0A])

/-- The file with every line whole. -/
def udhcpdText (p : Pool) : List UInt8 :=
  line (ascii "# generated by rlxfw init; do not edit") [] ++
    (line (ascii "interface rlx0") [] ++
    (line (ascii "start ") (dotted p.first) ++
    (line (ascii "end ") (dotted p.last) ++
    (line (ascii "opt subnet ") (dotted p.mask) ++
    (line (ascii "opt router ") (dotted p.lan) ++
    (line (ascii "opt dns ") (dotted p.dns) ++
    (line (ascii "opt lease ") (Decimal.text p.lease) ++
    (line (ascii "max_leases ") (Decimal.text (maxLeases p.first p.last)) ++
    (line (ascii "lease_file /var/udhcpd.leases") [] ++
      line (ascii "pidfile /run/udhcpd.pid") [])))))))))

/-- The characters of a pool's addresses and numbers. -/
def poolChars (p : Pool) : Nat :=
  (dotted p.first).length + (dotted p.last).length + (dotted p.mask).length +
    (dotted p.lan).length + (dotted p.dns).length + (Decimal.text p.lease).length +
    (Decimal.text (maxLeases p.first p.last)).length

/-- The DHCP server gets its whole configuration. -/
def WrittenWhole (c : Cfg) : Prop := writeUdhcpdConf (poolOf c) = some (udhcpdText (poolOf c))

theorem length_line (key value : List UInt8) :
    (line key value).length = key.length + value.length + 1 := by
  simp [line, Nat.add_assoc]

theorem length_udhcpdText (p : Pool) : (udhcpdText p).length = 176 + poolChars p := by
  have title : (ascii "# generated by rlxfw init; do not edit").length = 38 := rfl
  have interface : (ascii "interface rlx0").length = 14 := rfl
  have first : (ascii "start ").length = 6 := rfl
  have last : (ascii "end ").length = 4 := rfl
  have subnet : (ascii "opt subnet ").length = 11 := rfl
  have router : (ascii "opt router ").length = 11 := rfl
  have dns : (ascii "opt dns ").length = 8 := rfl
  have lease : (ascii "opt lease ").length = 10 := rfl
  have most : (ascii "max_leases ").length = 11 := rfl
  have leases : (ascii "lease_file /var/udhcpd.leases").length = 29 := rfl
  have pidfile : (ascii "pidfile /run/udhcpd.pid").length = 23 := rfl
  simp only [udhcpdText, List.length_append, length_line, List.length_nil, poolChars, title,
    interface, first, last, subnet, router, dns, lease, most, leases, pidfile]
  omega

/-! ## What is put into a buffer -/

/-- A buffer that a text was put into holds its start, and knows whether it was cut. -/
structure Holds (l : LBuf) (t : List UInt8) : Prop where
  b : l.b = t.take lbMax
  truncated : l.truncated = decide (lbMax < t.length)

theorem holds_lbReset : Holds lbReset [] := ⟨rfl, rfl⟩

section Put

variable {l : LBuf} {t : List UInt8}

theorem Holds.lbC (holds : Holds l t) (c : UInt8) : Holds (lbC l c) (t ++ [c]) := by
  have length : l.b.length = min lbMax t.length := by
    rw [holds.b, List.length_take]
  unfold InitMain.lbC
  split
  next full =>
    have enough : lbMax ≤ t.length := by omega
    constructor
    · exact holds.b.trans (List.take_append_of_le_length enough).symm
    · simp
      omega
  next room =>
    have fits : t.length < lbMax := by omega
    constructor
    · change l.b ++ [c] = _
      rw [holds.b, List.take_of_length_le fits.le, List.take_of_length_le]
      simp
      omega
    · refine holds.truncated.trans ?_
      simp
      omega

theorem Holds.put (holds : Holds l t) (s : List UInt8) :
    Holds (s.foldl InitMain.lbC l) (t ++ s) := by
  induction s generalizing l t with
  | nil =>
      rw [List.append_nil]
      exact holds
  | cons c s ih =>
      have rest := ih (holds.lbC c)
      rwa [List.append_assoc] at rest

theorem Holds.lbS (holds : Holds l t) {s : List UInt8} (short : s.length ≤ lbMax)
    (whole : cString s = s) : Holds (lbS l s) (t ++ s) := by
  unfold InitMain.lbS
  rw [whole, List.take_of_length_le short]
  exact holds.put s

theorem Holds.lbU (holds : Holds l t) {v : Nat} (small : v < 2 ^ 32) :
    Holds (lbU l v) (t ++ Decimal.text v) := by
  unfold InitMain.lbU
  split
  next zero =>
    subst zero
    exact holds.lbC 0x30
  next pos =>
    rw [Json.numDigits_eq (Nat.pos_of_ne_zero pos) (by omega), List.append_nil]
    exact holds.put (Decimal.text v)

theorem octetText_eq : ∀ v < 256, octetText v = Decimal.text v := by
  decide +kernel

theorem octetAt_lt (ip : UInt32) (oct : Nat) : octetAt ip oct < 256 :=
  Nat.mod_lt _ (by decide)

/-- An address has 15 characters at most. -/
theorem length_dotted_le (ip : UInt32) : (dotted ip).length ≤ 15 := by
  have long (oct : Nat) := Decimal.length_le_three (octetAt_lt ip oct)
  have first := long 0
  have second := long 1
  have third := long 2
  have fourth := long 3
  simp only [dotted, List.length_append, List.length_cons]
  omega

theorem nuFormatIpv4_eq (ip : UInt32) : nuFormatIpv4 ip 16 = some (dotted ip) := by
  have same (oct : Nat) := octetText_eq _ (octetAt_lt ip oct)
  have short := length_dotted_le ip
  unfold nuFormatIpv4
  rw [same, same, same, same]
  exact if_neg (by rw [← dotted]; omega)

theorem cString_dotted (ip : UInt32) : cString (dotted ip) = dotted ip := by
  have digits (oct : Nat) : ∀ c ∈ Decimal.text (octetAt ip oct), (c != 0) = true := by
    intro c member
    have isDigit := (Decimal.isDigit_text _ c member).1
    refine bne_iff_ne.mpr ?_
    rintro rfl
    exact absurd isDigit (by decide)
  have dot : ((0x2E : UInt8) != 0) = true := rfl
  refine List.takeWhile_eq_self_iff.mpr ?_
  simp only [dotted, List.forall_mem_append, List.forall_mem_cons]
  exact ⟨digits 3, dot, digits 2, dot, digits 1, dot, digits 0⟩

theorem Holds.lbKvIp (holds : Holds l t) (k : List UInt8) (short : k.length ≤ lbMax)
    (whole : cString k = k) (ip : UInt32) : Holds (lbKvIp l k ip) (t ++ line k (dotted ip)) := by
  have key := holds.lbS short whole
  have value : Holds (lbIp (InitMain.lbS l k) ip) (t ++ k ++ dotted ip) := by
    unfold lbIp
    rw [nuFormatIpv4_eq]
    exact key.lbS ((length_dotted_le ip).trans (by decide)) (cString_dotted ip)
  have ended := value.lbC 0x0A
  simp only [List.append_assoc] at ended
  exact ended

end Put

/-! ## When the file is whole -/

theorem maxLeases_lt (first last : UInt32) : maxLeases first last < 2 ^ 32 := by
  unfold maxLeases
  dsimp only
  repeat' split
  all_goals omega

/-- A line without a value. -/
theorem Holds.lbLine {l : LBuf} {t : List UInt8} (holds : Holds l t) (s key : List UInt8)
    (short : s.length ≤ lbMax) (whole : cString s = s) (isLine : s = line key []) :
    Holds (InitMain.lbS l s) (t ++ line key []) := by
  have put := holds.lbS short whole
  rwa [isLine] at put ⊢

/-- A line with a number. -/
theorem Holds.lbNumber {l : LBuf} {t : List UInt8} (holds : Holds l t) (key : List UInt8)
    (short : key.length ≤ lbMax) (whole : cString key = key) {v : Nat} (small : v < 2 ^ 32) :
    Holds (InitMain.lbC (InitMain.lbU (InitMain.lbS l key) v) 0x0A)
      (t ++ line key (Decimal.text v)) := by
  have put := ((holds.lbS short whole).lbU small).lbC 0x0A
  simp only [List.append_assoc] at put
  exact put

/-- The file is written whole when it fits the buffer, and not at all otherwise. -/
theorem writeUdhcpdConf_eq (p : Pool) (small : p.lease < 2 ^ 32) :
    writeUdhcpdConf p =
      if lbMax < (udhcpdText p).length then none else some (udhcpdText p) := by
  have head := holds_lbReset.lbLine (ascii "# generated by rlxfw init; do not edit\n")
    (ascii "# generated by rlxfw init; do not edit") (by decide) (by decide) (by decide)
  have interface := head.lbLine (ascii "interface rlx0\n") (ascii "interface rlx0")
    (by decide) (by decide) (by decide)
  have start := interface.lbKvIp (ascii "start ") (by decide) (by decide) p.first
  have last := start.lbKvIp (ascii "end ") (by decide) (by decide) p.last
  have subnet := last.lbKvIp (ascii "opt subnet ") (by decide) (by decide) p.mask
  have router := subnet.lbKvIp (ascii "opt router ") (by decide) (by decide) p.lan
  have dns := router.lbKvIp (ascii "opt dns ") (by decide) (by decide) p.dns
  have lease := dns.lbNumber (ascii "opt lease ") (by decide) (by decide) small
  have leases := lease.lbNumber (ascii "max_leases ") (by decide) (by decide)
    (maxLeases_lt p.first p.last)
  have file := leases.lbLine (ascii "lease_file /var/udhcpd.leases\n")
    (ascii "lease_file /var/udhcpd.leases") (by decide) (by decide) (by decide)
  have whole := file.lbLine (ascii "pidfile /run/udhcpd.pid\n")
    (ascii "pidfile /run/udhcpd.pid") (by decide) (by decide) (by decide)
  simp only [List.append_assoc, List.nil_append] at whole
  change Holds _ (udhcpdText p) at whole
  unfold writeUdhcpdConf
  dsimp only
  rw [whole.truncated, whole.b]
  by_cases cut : lbMax < (udhcpdText p).length
  · rw [if_pos (by simpa using cut), if_pos cut]
  · rw [if_neg (by simpa using cut), if_neg cut, List.take_of_length_le (by omega)]

/-- The DHCP server gets its whole configuration exactly when the addresses and the
numbers of the pool have no more than 64 characters. -/
theorem udhcpd_conf_whole_iff (c : Cfg) : WrittenWhole c ↔ poolChars (poolOf c) ≤ 64 := by
  have long := length_udhcpdText (poolOf c)
  have max : lbMax = 240 := rfl
  rw [WrittenWhole, writeUdhcpdConf_eq _ (UInt32.toNat_lt _)]
  constructor
  · intro whole
    by_contra more
    rw [if_pos (by omega)] at whole
    cases whole
  · intro fits
    exact if_neg (by omega)

/-- The lease time of a valid configuration has six digits at most. -/
theorem lease_lt {c : Cfg} (valid : CfgStore.Valid c) : (poolOf c).lease < 10 ^ 6 := by
  obtain ⟨v, got, checked⟩ := valid.cfgGet 6 (by decide)
  have read : cfgGet c idDhcpdLease = .ok v := got
  change (if v.length > CfgStore.valMax then some .type
    else if v.length ≠ 4 then some .type
    else CfgStore.boundsCheck (CfgStore.cfgKeys 6) (Tlv.getBe32 (ByteMap.ofList v 0) 0)) =
      none at checked
  split at checked
  · cases checked
  split at checked
  · cases checked
  next four =>
  have most : Tlv.getBe32 (ByteMap.ofList v 0) 0 ≤ 604800 := by
    unfold CfgStore.boundsCheck at checked
    split at checked
    · cases checked
    next inside => exact not_lt.mp (not_or.mp inside).2
  have word : (poolOf c).lease = (valueWord v).toNat := by
    change (cfgWord c idDhcpdLease 86400).toNat = _
    unfold cfgWord
    rw [read]
    exact congrArg UInt32.toNat (if_neg four)
  have value : (valueWord v).toNat ≤ Tlv.getBe32 (ByteMap.ofList v 0) 0 := by
    rw [valueWord, UInt32.toNat_ofNat']
    exact Nat.mod_le _ _
  omega

/-- A buffer of 260 bytes would hold the file of every valid configuration. -/
theorem length_udhcpdText_le {c : Cfg} (valid : CfgStore.Valid c) :
    (udhcpdText (poolOf c)).length ≤ 260 := by
  have leases : maxLeases (poolOf c).first (poolOf c).last < 10 ^ 3 := by
    unfold maxLeases
    dsimp only
    repeat' split
    all_goals omega
  have lease := Decimal.length_text_le (by decide) (lease_lt valid)
  have count := Decimal.length_text_le (by decide) leases
  have long (ip : UInt32) := length_dotted_le ip
  have first := long (poolOf c).first
  have last := long (poolOf c).last
  have mask := long (poolOf c).mask
  have lan := long (poolOf c).lan
  have dns := long (poolOf c).dns
  rw [length_udhcpdText, poolChars]
  omega

/-- A router at 192.168.1.1 that gives out 192.168.1.100 to 192.168.1.199. -/
def homeLan : Cfg where
  seq := 0
  source := 0
  value := fun i =>
    if i = 1 then some [192, 168, 1, 1]
    else if i = 4 then some [192, 168, 1, 100]
    else if i = 5 then some [192, 168, 1, 199]
    else none

/-- A valid configuration whose DHCP server gets no configuration. -/
theorem homeLan_refused :
    (∀ i, ∀ v ∈ homeLan.value i, CfgStore.schemaCheckValue (CfgStore.cfgKeys i) v = none) ∧
      CfgStore.cfgValidate homeLan = .ok () ∧ writeUdhcpdConf (poolOf homeLan) = none := by
  have long : lbMax < (udhcpdText (poolOf homeLan)).length := by
    rw [length_udhcpdText]
    decide
  refine ⟨by decide, by decide, ?_⟩
  rw [writeUdhcpdConf_eq _ (UInt32.toNat_lt _), if_pos long]

/-- Not every configuration that is accepted is written whole. -/
theorem udhcpd_conf_not_always_whole :
    ¬ ∀ c, CfgStore.cfgValidate c = .ok () → WrittenWhole c := by
  intro whole
  obtain ⟨-, accepted, refused⟩ := homeLan_refused
  have written := whole homeLan accepted
  rw [WrittenWhole, refused] at written
  cases written

end RlxFw.InitMain
