import RlxFw.Ascii
import RlxFw.Tlv
import Mathlib.Data.Fin.VecNotation

/-!
# The configuration schema

`src/lib/schema.c`: the table of keys, their defaults, and the rules a single
value must meet.
-/

namespace RlxFw.CfgStore

/-- `CFG_VAL_MAX`. -/
def valMax : Nat := 64
/-- `CFG_HOSTNAME_MAX`. -/
def hostnameMax : Nat := 32
/-- `CFG_PWHASH_LEN`. -/
def pwhashLen : Nat := 56
/-- `CFG_WAN_MODE_MAX`. -/
def wanModeMax : Nat := 2

/-- `CFGE_*`, the errors of the store. -/
inductive Err where
  | short
  | magic
  | format
  | crc
  | seq
  | len
  | tlv
  | order
  | unknown
  | type
  | range
  | cross
  | noent
  | io
  | space
deriving DecidableEq, Repr

/-- An error, and the key that `cfg_last_key` names after it, or 0. -/
structure Fault where
  rc : Err
  key : Nat
deriving DecidableEq, Repr

/-- `CT_*`. -/
inductive KeyType where
  | bool
  | u16
  | u32
  | ipv4
  | str
  | enum
  | bytes
deriving DecidableEq, Repr

/-- `WEB_*`. -/
inductive Web where
  | hidden
  | r
  | rw
deriving DecidableEq, Repr

/-- `struct cfg_key`. -/
structure Key where
  id : Nat
  name : List UInt8
  type : KeyType
  web : Web
  min : Nat
  max : Nat
deriving DecidableEq, Repr

/-- `CFG_ID_HOSTNAME`. -/
def idHostname : Nat := 0x0001
/-- `CFG_ID_LAN_IP`. -/
def idLanIp : Nat := 0x0010
/-- `CFG_ID_LAN_MASK`. -/
def idLanMask : Nat := 0x0011
/-- `CFG_ID_DHCPD_EN`. -/
def idDhcpdEn : Nat := 0x0020
/-- `CFG_ID_DHCPD_START`. -/
def idDhcpdStart : Nat := 0x0021
/-- `CFG_ID_DHCPD_END`. -/
def idDhcpdEnd : Nat := 0x0022
/-- `CFG_ID_DHCPD_LEASE`. -/
def idDhcpdLease : Nat := 0x0023
/-- `CFG_ID_DNS_UP`. -/
def idDnsUp : Nat := 0x0030
/-- `CFG_ID_WAN_MODE`. -/
def idWanMode : Nat := 0x0040
/-- `CFG_ID_WAN_IP`. -/
def idWanIp : Nat := 0x0041
/-- `CFG_ID_WAN_MASK`. -/
def idWanMask : Nat := 0x0042
/-- `CFG_ID_WAN_GW`. -/
def idWanGw : Nat := 0x0043
/-- `CFG_ID_FW_NAT`. -/
def idFwNat : Nat := 0x0050
/-- `CFG_ID_FW_LAN_ICMP`. -/
def idFwLanIcmp : Nat := 0x0051
/-- `CFG_ID_HTTP_PORT`. -/
def idHttpPort : Nat := 0x0060
/-- `CFG_ID_PWHASH`. -/
def idPwhash : Nat := 0x0070

/-- `CFG_NKEYS`. -/
abbrev nkeys : Nat := 16

/-- `cfg_keys`. -/
def cfgKeys : Fin nkeys → Key :=
  ![⟨idHostname, ascii "sys.hostname", .str, .rw, 1, hostnameMax⟩,
    ⟨idLanIp, ascii "lan.ipaddr", .ipv4, .rw, 0, 0⟩,
    ⟨idLanMask, ascii "lan.netmask", .ipv4, .rw, 0, 0⟩,
    ⟨idDhcpdEn, ascii "dhcpd.enable", .bool, .rw, 0, 1⟩,
    ⟨idDhcpdStart, ascii "dhcpd.start", .ipv4, .rw, 0, 0⟩,
    ⟨idDhcpdEnd, ascii "dhcpd.end", .ipv4, .rw, 0, 0⟩,
    ⟨idDhcpdLease, ascii "dhcpd.lease", .u32, .rw, 120, 604800⟩,
    ⟨idDnsUp, ascii "dns.upstream", .ipv4, .rw, 0, 0⟩,
    ⟨idWanMode, ascii "wan.mode", .enum, .rw, 0, wanModeMax⟩,
    ⟨idWanIp, ascii "wan.ipaddr", .ipv4, .rw, 0, 0⟩,
    ⟨idWanMask, ascii "wan.netmask", .ipv4, .rw, 0, 0⟩,
    ⟨idWanGw, ascii "wan.gateway", .ipv4, .rw, 0, 0⟩,
    ⟨idFwNat, ascii "fw.nat", .bool, .rw, 0, 1⟩,
    ⟨idFwLanIcmp, ascii "fw.lan_icmp", .bool, .rw, 0, 1⟩,
    ⟨idHttpPort, ascii "http.port", .u16, .r, 1, 65535⟩,
    ⟨idPwhash, ascii "admin.pwhash", .bytes, .hidden, pwhashLen, pwhashLen⟩]

/-- `cfg_index_by_id`. -/
def cfgIndexById (id : Nat) : Option (Fin nkeys) :=
  (List.finRange nkeys).find? fun i => (cfgKeys i).id = id

/-- `schema_defs`, and `schema_default` on a key of the table. -/
def schemaDefault (id : Nat) : Option (List UInt8) :=
  if id = idHostname then some (ascii "rlxfw")
  else if id = idLanIp then some [10, 1, 1, 1]
  else if id = idLanMask then some [255, 255, 255, 0]
  else if id = idDhcpdEn then some [1]
  else if id = idDhcpdStart then some [10, 1, 1, 100]
  else if id = idDhcpdEnd then some [10, 1, 1, 199]
  else if id = idDhcpdLease then some [0x00, 0x01, 0x51, 0x80]
  else if id = idDnsUp then some [10, 1, 1, 2]
  else if id = idWanMode then some [0]
  else if id = idWanIp then some [0, 0, 0, 0]
  else if id = idWanMask then some [0, 0, 0, 0]
  else if id = idWanGw then some [0, 0, 0, 0]
  else if id = idFwNat then some [0]
  else if id = idFwLanIcmp then some [1]
  else if id = idHttpPort then some [0x00, 0x50]
  else none

/-- The word that a four-byte value holds. -/
def valueWord (v : List UInt8) : UInt32 :=
  UInt32.ofNat (Tlv.getBe32 (ByteMap.ofList v 0) 0)

/-- `schema_ipv4_is_unicast`. -/
def ipv4IsUnicast (a : UInt32) : Bool :=
  let top := (a >>> 24) &&& 0xFF
  if a = 0 then false
  else if top = 0 ∨ top = 127 ∨ top ≥ 224 then false
  else true

/-- `schema_mask_is_contiguous`. -/
def maskIsContiguous (m : UInt32) : Bool :=
  let inv := ~~~m
  if inv = 0 then true else inv &&& (inv + 1) = 0

/-- The loop of `schema_mask_prefix_len`, which a word ends in 32 turns. -/
def leadingOnes : Nat → UInt32 → Nat
  | 0, _ => 0
  | turns + 1, m =>
      if m &&& 0x80000000 = 0 then 0 else leadingOnes turns (m <<< 1) + 1

/-- `schema_mask_prefix_len`. -/
def maskPrefixLen (m : UInt32) : Option Nat :=
  if maskIsContiguous m then some (leadingOnes 32 m) else none

/-- `hostname_ok`. -/
def hostnameOk (v : List UInt8) : Bool :=
  decide (1 ≤ v.length) && v.head? != some 0x2D && v.getLast? != some 0x2D &&
    v.all fun c =>
      decide (0x41 ≤ c ∧ c ≤ 0x5A) || decide (0x61 ≤ c ∧ c ≤ 0x7A) ||
        decide (0x30 ≤ c ∧ c ≤ 0x39) || c == 0x2D

/-- A number's bounds. -/
def boundsCheck (k : Key) (n : Nat) : Option Err :=
  if n < k.min ∨ n > k.max then some .range else none

/-- The rules of an IPv4 key. -/
def ipv4Check (k : Key) (n : UInt32) : Option Err :=
  if k.id = idLanIp ∨ k.id = idDnsUp then
    if ipv4IsUnicast n then none else some .range
  else if k.id = idLanMask then
    match maskPrefixLen n with
    | some p => if p < 8 ∨ p > 30 then some .range else none
    | none => some .range
  else if k.id = idWanMask then
    if n ≠ 0 ∧ ¬ maskIsContiguous n then some .range else none
  else if k.id = idDhcpdStart ∨ k.id = idDhcpdEnd ∨ k.id = idWanIp ∨
      k.id = idWanGw then
    none
  else some .unknown

/-- `schema_check_value`, 0 being `none`. -/
def schemaCheckValue (k : Key) (v : List UInt8) : Option Err :=
  if v.length > valMax then some .type
  else
    match k.type with
    | .bool | .enum =>
        if v.length ≠ 1 then some .type
        else boundsCheck k (v.getD 0 0).toNat
    | .u16 =>
        if v.length ≠ 2 then some .type
        else boundsCheck k (Tlv.getBe16 (ByteMap.ofList v 0) 0)
    | .u32 =>
        if v.length ≠ 4 then some .type
        else boundsCheck k (Tlv.getBe32 (ByteMap.ofList v 0) 0)
    | .str =>
        if v.length < k.min ∨ v.length > k.max then some .type
        else if k.id = idHostname then
          if hostnameOk v then none else some .range
        else if v.contains 0 then some .range
        else none
    | .bytes =>
        if v.length < k.min ∨ v.length > k.max then some .type else none
    | .ipv4 =>
        if v.length ≠ 4 then some .type else ipv4Check k (valueWord v)

/-! ## What the rest of the library assumes of the table -/

/-- Ids ascend strictly and fit the wire. -/
theorem cfgKeys_ascend :
    ∀ i j : Fin nkeys, i < j → (cfgKeys i).id < (cfgKeys j).id := by
  decide

theorem cfgKeys_id_lt (i : Fin nkeys) : (cfgKeys i).id < 2 ^ 16 := by
  revert i
  decide

theorem cfgIndexById_id (i : Fin nkeys) :
    cfgIndexById (cfgKeys i).id = some i := by
  revert i
  decide

theorem cfgKeys_of_index {id : Nat} {i : Fin nkeys}
    (found : cfgIndexById id = some i) : (cfgKeys i).id = id := by
  have holds := List.find?_some found
  simpa using holds

/-- Every default passes its own check. -/
theorem schemaDefault_checked :
    ∀ i : Fin nkeys, ∀ v ∈ schemaDefault (cfgKeys i).id,
      schemaCheckValue (cfgKeys i) v = none := by
  decide

/-- One key has no default, and it is the hidden one. -/
theorem schemaDefault_eq_none_iff :
    ∀ i : Fin nkeys, schemaDefault (cfgKeys i).id = none ↔
      (cfgKeys i).id = idPwhash ∧ (cfgKeys i).web = .hidden := by
  decide

/-- A value that passes its check fits the value array. -/
theorem length_le_of_checked {k : Key} {v : List UInt8}
    (checked : schemaCheckValue k v = none) : v.length ≤ valMax := by
  by_contra long
  unfold schemaCheckValue at checked
  rw [if_pos (by omega)] at checked
  cases checked

end RlxFw.CfgStore
