import RlxFw.Authorisation
import RlxFw.CfgValid
import RlxFw.DnsForward

/-!
# The LAN that the forwarder serves

`tlv_ipv4` and `cfg_fetch` of `src/dnsfwd/main.c` against the broker's own GET.
The broker refuses `lan.netmask` to the forwarder's uid, and the forwarder then
puts 255.255.255.0 in its place: for a longer mask that is a wider net than the
LAN.
-/

namespace RlxFw.Dns

open BytePairs
open Broker (Req Resp Token World State)
open CfgStore (Cfg Medium Valid cfgGet idLanIp idLanMask idDnsUp)

/-- `LAN_MASK_FALLBACK`. -/
def lanMaskFallback : UInt32 := 0xFFFFFF00

/-- `K_LAN_IPADDR`. -/
def kLanIpaddr : UInt16 := 0x0010
/-- `K_LAN_NETMASK`. -/
def kLanNetmask : UInt16 := 0x0011
/-- `K_DNS_UPSTREAM`. -/
def kDnsUpstream : UInt16 := 0x0030

/-- `tlv_ipv4`. -/
def tlvIpv4 (b : List UInt8) (id : UInt16) : Option UInt32 :=
  let l := (dnsGet16 b 2).toNat
  if b.length < 4 then none
  else if 4 + l > b.length then none
  else if dnsGet16 b 0 = id then
    if l ≠ 4 then none else some (dnsGet32 b 4)
  else tlvIpv4 (b.drop (4 + l)) id
termination_by b.length
decreasing_by
  simp only [List.length_drop]
  omega

/-- `struct cfg_wire`. -/
structure CfgWire where
  lanIp : UInt32
  lanMask : UInt32
  upstream : UInt32
deriving DecidableEq, Repr

/-- Why `cfg_fetch` fails; `unreachable` carries what `bk_call` returned. -/
inductive FetchErr where
  | unreachable (rc : Nat)
  | acces
  | noent
  | inval
deriving DecidableEq, Repr

/-- The request of a pass. -/
def getRequest (want : List UInt16) : Req where
  op := Broker.opGetId
  session := .zero
  csrf := .zero
  clientIp := 0
  body := want.flatMap dnsPut16

/-- The loop of `cfg_fetch`, on what `bk_call` gives in each pass. -/
def fetchReply (call : Fin 2 → Req → Except Nat Resp) : Except FetchErr Resp :=
  match call 0 (getRequest [kLanIpaddr, kLanNetmask, kDnsUpstream]) with
  | .error rc => .error (.unreachable rc)
  | .ok rs =>
      if rs.status = .perm then
        match call 1 (getRequest [kLanIpaddr, kDnsUpstream]) with
        | .error rc => .error (.unreachable rc)
        | .ok rs => if rs.status ≠ .ok then .error .acces else .ok rs
      else if rs.status ≠ .ok then .error .acces
      else .ok rs

/-- `cfg_fetch`. -/
def cfgFetch (call : Fin 2 → Req → Except Nat Resp) :
    Except FetchErr CfgWire :=
  match fetchReply call with
  | .error why => .error why
  | .ok rs =>
      match tlvIpv4 rs.body kLanIpaddr, tlvIpv4 rs.body kDnsUpstream with
      | some ip, some up =>
          let mask := (tlvIpv4 rs.body kLanNetmask).getD lanMaskFallback
          if mask = 0 ∨ ~~~mask &&& (~~~mask + 1) ≠ 0 then .error .inval
          else if up = 0 ∨ up >>> 24 = 127 ∨ up >>> 28 = 0xE then .error .inval
          else .ok { lanIp := ip, lanMask := mask, upstream := up }
      | _, _ => .error .noent

/-- The broker as a call finds it. -/
structure Turn where
  w : World
  bk : State
  m : Medium

/-- The configuration that the broker answers from. -/
def Turn.cfg (t : Turn) : Cfg :=
  CfgStore.bkCfgReload (CfgStore.loadInfo t.w.load t.m)

/-- `bk_call` by a peer, when the two ends reach each other. -/
def brokerCall (uid : Nat) (t : Fin 2 → Turn) (pass : Fin 2) (rq : Req) :
    Except Nat Resp :=
  .ok (Broker.bkDispatch (t pass).w rq uid (t pass).bk (t pass).m).rs

theorem Turn.cfg_valid (t : Turn) : Valid t.cfg :=
  CfgStore.bkCfgReload_valid t.w.load t.m

/-! ## Two readings of one number -/

theorem dnsGet16_toNat (p : List UInt8) (off : Nat) :
    (dnsGet16 p off).toNat = Tlv.be16 (byteAt p off) (byteAt p (off + 1)) :=
  toNat_of_pair _ _

theorem dnsGet32_toNat (p : List UInt8) (off : Nat) :
    (dnsGet32 p off).toNat =
      Tlv.be16 (byteAt p off) (byteAt p (off + 1)) * 2 ^ 16 +
        Tlv.be16 (byteAt p (off + 2)) (byteAt p (off + 3)) := by
  have aSmall := (byteAt p off).toNat_lt
  have bSmall := (byteAt p (off + 1)).toNat_lt
  have cSmall := (byteAt p (off + 2)).toNat_lt
  have dSmall := (byteAt p (off + 3)).toNat_lt
  unfold dnsGet32 Tlv.be16
  simp only [UInt32.toNat_or, UInt32.toNat_shiftLeft, UInt8.toNat_toUInt32]
  generalize (byteAt p off).toNat = a at *
  generalize (byteAt p (off + 1)).toNat = b at *
  generalize (byteAt p (off + 2)).toNat = c at *
  generalize (byteAt p (off + 3)).toNat = d at *
  rw [show (24 : UInt32).toNat % 32 = 24 from rfl,
    show (16 : UInt32).toNat % 32 = 16 from rfl,
    show (8 : UInt32).toNat % 32 = 8 from rfl]
  have ab : a <<< 24 ||| b <<< 16 = (a * 2 ^ 8 + b) <<< 16 := by
    rw [← Nat.shiftLeft_add_eq_or_of_lt (by simp [Nat.shiftLeft_eq]; omega)]
    simp only [Nat.shiftLeft_eq]
    omega
  have abc : (a * 2 ^ 8 + b) <<< 16 ||| c <<< 8 =
      ((a * 2 ^ 8 + b) * 2 ^ 8 + c) <<< 8 := by
    rw [← Nat.shiftLeft_add_eq_or_of_lt (by simp [Nat.shiftLeft_eq]; omega)]
    simp only [Nat.shiftLeft_eq]
    omega
  have mods {x s : Nat} (small : x <<< s < 2 ^ 32) :
      x <<< s % 2 ^ 32 = x <<< s := Nat.mod_eq_of_lt small
  rw [mods (by simp [Nat.shiftLeft_eq]; omega),
    mods (by simp [Nat.shiftLeft_eq]; omega),
    mods (by simp [Nat.shiftLeft_eq]; omega), ab, abc,
    ← Nat.shiftLeft_add_eq_or_of_lt (by omega)]
  simp only [Nat.shiftLeft_eq]
  omega

/-- The items of a reply, read one after the other. -/
theorem tlvIpv4_item {type : Nat} {v rest : List UInt8} (id : UInt16)
    (small : type < 2 ^ 16) (four : v.length = 4) :
    tlvIpv4 (Tlv.itemBytes type v ++ rest) id =
      if UInt16.ofNat type = id then some (CfgStore.valueWord v)
      else tlvIpv4 rest id := by
  obtain ⟨a, b, c, d, rfl⟩ := List.length_eq_four.mp four
  have kind : dnsGet16 (Tlv.itemBytes type [a, b, c, d] ++ rest) 0 =
      UInt16.ofNat type := by
    apply UInt16.toNat_inj.mp
    rw [dnsGet16_toNat, UInt16.toNat_ofNat_of_lt' small]
    exact Tlv.be16_put small
  have word : dnsGet32 (Tlv.itemBytes type [a, b, c, d] ++ rest) 4 =
      CfgStore.valueWord [a, b, c, d] := by
    apply UInt32.toNat_inj.mp
    unfold CfgStore.valueWord
    rw [dnsGet32_toNat, UInt32.toNat_ofNat_of_lt' (Tlv.getBe32_lt _ _)]
    rfl
  have length : (dnsGet16 (Tlv.itemBytes type [a, b, c, d] ++ rest) 2).toNat =
      4 := by
    rw [dnsGet16_toNat]
    exact Tlv.be16_put (show 4 < 2 ^ 16 by decide)
  rw [tlvIpv4, kind, word]
  have size : (Tlv.itemBytes type [a, b, c, d] ++ rest).length =
      8 + rest.length := by
    simp [Tlv.itemBytes_length, Tlv.hdrLen]
  rw [length, size, if_neg (by omega), if_neg (by omega),
    if_neg (not_not.mpr rfl)]
  rfl

/-! ## What the broker answers -/

/-- The address that a key holds. -/
def ipv4Of (c : Cfg) (id : Nat) : UInt32 :=
  (cfgGet c id).toOption.elim 0 CfgStore.valueWord

/-- An IPv4 value as the broker hands it out. -/
structure Ipv4Value (c : Cfg) (id : Nat) (v : List UInt8) : Prop where
  got : cfgGet c id = .ok v
  length : v.length = 4
  word : CfgStore.valueWord v = ipv4Of c id

theorem exists_ipv4Value {c : Cfg} (valid : Valid c) {i : Fin CfgStore.nkeys}
    (isIpv4 : (CfgStore.cfgKeys i).type = .ipv4)
    (shown : (CfgStore.cfgKeys i).id ≠ CfgStore.idPwhash) :
    ∃ v, Ipv4Value c (CfgStore.cfgKeys i).id v ∧
      CfgStore.ipv4Check (CfgStore.cfgKeys i)
        (ipv4Of c (CfgStore.cfgKeys i).id) = none := by
  obtain ⟨v, got, checked⟩ := valid.cfgGet i shown
  have word : CfgStore.valueWord v = ipv4Of c (CfgStore.cfgKeys i).id := by
    unfold ipv4Of
    rw [got]
    rfl
  obtain ⟨four, passed⟩ := CfgStore.ipv4_of_checked isIpv4 checked
  exact ⟨v, ⟨got, four, word⟩, word ▸ passed⟩

/-- A GET of a peer that needs no session is answered from the reloaded
configuration. -/
theorem get_reply {uid : Nat} (t : Turn) (want : List UInt16)
    (peer : uid = Broker.uidRoot ∨ uid = Broker.uidDnsfwd) :
    (Broker.bkDispatch t.w (getRequest want) uid t.bk t.m).rs =
      Broker.opGet (getRequest want) uid t.cfg := by
  have early : Broker.earlyRefusal (getRequest want) uid = none := by
    rcases peer with rfl | rfl <;> rfl
  have other : uid ≠ Broker.uidHttpd := by
    rcases peer with rfl | rfl <;> decide
  unfold Broker.bkDispatch Broker.gate
  rw [early]
  dsimp only
  rw [Broker.sessionRefusal_other other]
  rfl

theorem upstream_of_check {k : CfgStore.Key} {n : UInt32}
    (isUp : k.id = idDnsUp) (checked : CfgStore.ipv4Check k n = none) :
    CfgStore.ipv4IsUnicast n = true := by
  unfold CfgStore.ipv4Check at checked
  rw [if_pos (Or.inr isUp)] at checked
  split at checked
  · assumption
  · cases checked

/-- The address, the mask and the upstream of a configuration. -/
structure Addresses (c : Cfg) (ip mask up : List UInt8) : Prop where
  ip : Ipv4Value c idLanIp ip
  mask : Ipv4Value c idLanMask mask
  up : Ipv4Value c idDnsUp up
  maskSound : CfgStore.maskIsContiguous (ipv4Of c idLanMask) = true ∧
    ipv4Of c idLanMask ≠ 0
  upSound : CfgStore.ipv4IsUnicast (ipv4Of c idDnsUp) = true

theorem exists_addresses {c : Cfg} (valid : Valid c) :
    ∃ ip mask up, Addresses c ip mask up := by
  obtain ⟨ip, isIp, -⟩ :=
    exists_ipv4Value valid (show (CfgStore.cfgKeys 1).type = .ipv4 from rfl)
      (by decide)
  obtain ⟨mask, isMask, maskChecked⟩ :=
    exists_ipv4Value valid (show (CfgStore.cfgKeys 2).type = .ipv4 from rfl)
      (by decide)
  obtain ⟨up, isUp, upChecked⟩ :=
    exists_ipv4Value valid (show (CfgStore.cfgKeys 7).type = .ipv4 from rfl)
      (by decide)
  exact ⟨ip, mask, up, isIp, isMask, isUp, CfgStore.mask_of_check rfl maskChecked,
    upstream_of_check rfl upChecked⟩

/-! ## What the forwarder makes of it -/

/-- The forwarder's own check of a mask passes on what the broker accepts. -/
theorem mask_check_passes {n : UInt32}
    (sound : CfgStore.maskIsContiguous n = true ∧ n ≠ 0) :
    ¬ (n = 0 ∨ ~~~n &&& (~~~n + 1) ≠ 0) := by
  rintro (zero | holed)
  · exact sound.2 zero
  exact holed (CfgStore.filled_of_contiguous sound.1)

theorem upstream_check_passes {up : UInt32}
    (unicast : CfgStore.ipv4IsUnicast up = true) :
    ¬ (up = 0 ∨ up >>> 24 = 127 ∨ up >>> 28 = 0xE) := by
  have small := up.toNat_lt
  have top : (up >>> 24).toNat = up.toNat / 2 ^ 24 := by
    rw [UInt32.toNat_shiftRight, Nat.shiftRight_eq_div_pow]
    rfl
  have byte : (up >>> 24) &&& (0xFF : UInt32) = up >>> 24 := by
    apply UInt32.toNat_inj.mp
    rw [UInt32.toNat_and, show (0xFF : UInt32).toNat = 2 ^ 8 - 1 from rfl,
      Nat.and_two_pow_sub_one_eq_mod, top]
    omega
  unfold CfgStore.ipv4IsUnicast at unicast
  dsimp only at unicast
  rw [byte] at unicast
  split_ifs at unicast with zero reserved
  rintro (none | loop | multicast)
  · exact zero none
  · exact reserved (.inr (.inl loop))
  · refine reserved (.inr (.inr ?_))
    have value := congrArg UInt32.toNat multicast
    rw [UInt32.toNat_shiftRight, Nat.shiftRight_eq_div_pow] at value
    change up.toNat / 2 ^ 28 = 14 at value
    change (224 : UInt32) ≤ up >>> 24
    rw [UInt32.le_iff_toNat_le, top]
    change 224 ≤ _
    omega

theorem opGet_three (uid : Nat) (c : Cfg) :
    Broker.opGet (getRequest [kLanIpaddr, kLanNetmask, kDnsUpstream]) uid c =
      Broker.opGetKeys c uid [idLanIp, idLanMask, idDnsUp] [] := by
  have ids : Broker.getIds
      (getRequest [kLanIpaddr, kLanNetmask, kDnsUpstream]).body =
      [idLanIp, idLanMask, idDnsUp] := by
    decide
  unfold Broker.opGet
  rw [if_neg (by decide), if_neg (by decide), ids]

theorem opGet_two (uid : Nat) (c : Cfg) :
    Broker.opGet (getRequest [kLanIpaddr, kDnsUpstream]) uid c =
      Broker.opGetKeys c uid [idLanIp, idDnsUp] [] := by
  have ids : Broker.getIds (getRequest [kLanIpaddr, kDnsUpstream]).body =
      [idLanIp, idDnsUp] := by
    decide
  unfold Broker.opGet
  rw [if_neg (by decide), if_neg (by decide), ids]

variable {t : Fin 2 → Turn}

/-- The forwarder's uid is refused the mask. -/
theorem fetchReply_dnsfwd {ip mask up : List UInt8}
    (has : Addresses (t 1).cfg ip mask up) (first : Valid (t 0).cfg) :
    fetchReply (brokerCall Broker.uidDnsfwd t) =
      .ok { status := .ok
            body := Tlv.itemBytes idLanIp ip ++ Tlv.itemBytes idDnsUp up } := by
  obtain ⟨firstIp, _, _, hasFirst⟩ := exists_addresses first
  have refused : (brokerCall Broker.uidDnsfwd t 0
      (getRequest [kLanIpaddr, kLanNetmask, kDnsUpstream])) =
      .ok (Broker.rsStatus .perm) := by
    unfold brokerCall
    rw [get_reply (t 0) _ (.inr rfl), opGet_three,
      Broker.opGetKeys_cons (k := CfgStore.cfgKeys 1) rfl (by decide) (by decide)
      hasFirst.ip.got (by rw [hasFirst.ip.length]; decide)]
    rfl
  have granted : (brokerCall Broker.uidDnsfwd t 1
      (getRequest [kLanIpaddr, kDnsUpstream])) = .ok
        { status := .ok
          body := Tlv.itemBytes idLanIp ip ++ Tlv.itemBytes idDnsUp up } := by
    unfold brokerCall
    rw [get_reply (t 1) _ (.inr rfl), opGet_two,
      Broker.opGetKeys_cons (k := CfgStore.cfgKeys 1) rfl (by decide) (by decide)
        has.ip.got (by rw [has.ip.length]; decide),
      Broker.opGetKeys_cons (k := CfgStore.cfgKeys 7) rfl (by decide) (by decide)
        has.up.got
        (by rw [has.up.length, List.nil_append, Tlv.itemBytes_length,
          has.ip.length]; decide)]
    rfl
  unfold fetchReply
  rw [refused, granted]
  rfl

/-- The root's uid is handed all three. -/
theorem fetchReply_root {ip mask up : List UInt8}
    (has : Addresses (t 0).cfg ip mask up) :
    fetchReply (brokerCall Broker.uidRoot t) =
      .ok { status := .ok
            body := Tlv.itemBytes idLanIp ip ++ Tlv.itemBytes idLanMask mask ++
              Tlv.itemBytes idDnsUp up } := by
  have granted : (brokerCall Broker.uidRoot t 0
      (getRequest [kLanIpaddr, kLanNetmask, kDnsUpstream])) = .ok
        { status := .ok
          body := Tlv.itemBytes idLanIp ip ++ Tlv.itemBytes idLanMask mask ++
            Tlv.itemBytes idDnsUp up } := by
    unfold brokerCall
    rw [get_reply (t 0) _ (.inl rfl), opGet_three,
      Broker.opGetKeys_cons (k := CfgStore.cfgKeys 1) rfl (by decide) (by decide)
        has.ip.got (by rw [has.ip.length]; decide),
      Broker.opGetKeys_cons (k := CfgStore.cfgKeys 2) rfl (by decide) (by decide)
        has.mask.got
        (by rw [has.mask.length, List.nil_append, Tlv.itemBytes_length,
          has.ip.length]; decide),
      Broker.opGetKeys_cons (k := CfgStore.cfgKeys 7) rfl (by decide) (by decide)
        has.up.got
        (by rw [has.up.length, List.nil_append, List.length_append,
          Tlv.itemBytes_length, Tlv.itemBytes_length, has.ip.length,
          has.mask.length]; decide)]
    rfl
  unfold fetchReply
  rw [granted]
  rfl

/-- With its own uid the forwarder gets the fallback for a mask. -/
theorem cfgFetch_dnsfwd (t : Fin 2 → Turn) :
    cfgFetch (brokerCall Broker.uidDnsfwd t) =
      .ok { lanIp := ipv4Of (t 1).cfg idLanIp, lanMask := lanMaskFallback
            upstream := ipv4Of (t 1).cfg idDnsUp } := by
  obtain ⟨ip, mask, up, has⟩ := exists_addresses (t 1).cfg_valid
  have ipRead : tlvIpv4 (Tlv.itemBytes idLanIp ip ++ Tlv.itemBytes idDnsUp up)
      kLanIpaddr = some (ipv4Of (t 1).cfg idLanIp) := by
    rw [tlvIpv4_item _ (by decide) has.ip.length, if_pos (by decide),
      has.ip.word]
  have upRead : tlvIpv4 (Tlv.itemBytes idLanIp ip ++ Tlv.itemBytes idDnsUp up)
      kDnsUpstream = some (ipv4Of (t 1).cfg idDnsUp) := by
    rw [tlvIpv4_item _ (by decide) has.ip.length, if_neg (by decide),
      ← List.append_nil (Tlv.itemBytes idDnsUp up),
      tlvIpv4_item _ (by decide) has.up.length, if_pos (by decide), has.up.word]
  have maskRead : tlvIpv4 (Tlv.itemBytes idLanIp ip ++ Tlv.itemBytes idDnsUp up)
      kLanNetmask = none := by
    rw [tlvIpv4_item _ (by decide) has.ip.length, if_neg (by decide),
      ← List.append_nil (Tlv.itemBytes idDnsUp up),
      tlvIpv4_item _ (by decide) has.up.length, if_neg (by decide), tlvIpv4]
    rfl
  unfold cfgFetch
  rw [fetchReply_dnsfwd has (t 0).cfg_valid]
  dsimp only
  rw [ipRead, upRead, maskRead]
  dsimp only [Option.getD_none]
  rw [if_neg (by decide), if_neg (upstream_check_passes has.upSound)]

/-- Before it drops its privileges it gets the mask itself. -/
theorem cfgFetch_root (t : Fin 2 → Turn) :
    cfgFetch (brokerCall Broker.uidRoot t) =
      .ok { lanIp := ipv4Of (t 0).cfg idLanIp
            lanMask := ipv4Of (t 0).cfg idLanMask
            upstream := ipv4Of (t 0).cfg idDnsUp } := by
  obtain ⟨ip, mask, up, has⟩ := exists_addresses (t 0).cfg_valid
  have ipRead (rest : List UInt8) :
      tlvIpv4 (Tlv.itemBytes idLanIp ip ++ rest) kLanIpaddr =
        some (ipv4Of (t 0).cfg idLanIp) := by
    rw [tlvIpv4_item _ (by decide) has.ip.length, if_pos (by decide),
      has.ip.word]
  have maskRead (rest : List UInt8) :
      tlvIpv4 (Tlv.itemBytes idLanIp ip ++ (Tlv.itemBytes idLanMask mask ++ rest))
        kLanNetmask = some (ipv4Of (t 0).cfg idLanMask) := by
    rw [tlvIpv4_item _ (by decide) has.ip.length, if_neg (by decide),
      tlvIpv4_item _ (by decide) has.mask.length, if_pos (by decide),
      has.mask.word]
  have upRead (rest : List UInt8) :
      tlvIpv4 (Tlv.itemBytes idLanIp ip ++ (Tlv.itemBytes idLanMask mask ++
        (Tlv.itemBytes idDnsUp up ++ rest))) kDnsUpstream =
          some (ipv4Of (t 0).cfg idDnsUp) := by
    rw [tlvIpv4_item _ (by decide) has.ip.length, if_neg (by decide),
      tlvIpv4_item _ (by decide) has.mask.length, if_neg (by decide),
      tlvIpv4_item _ (by decide) has.up.length, if_pos (by decide), has.up.word]
  have upRead := upRead []
  rw [List.append_nil] at upRead
  unfold cfgFetch
  rw [fetchReply_root has]
  dsimp only
  rw [List.append_assoc, ipRead, upRead, maskRead]
  dsimp only [Option.getD_some]
  rw [if_neg (mask_check_passes has.maskSound),
    if_neg (upstream_check_passes has.upSound)]

/-! ## Who is served -/

/-- The addresses of the LAN of a configuration. -/
def InLan (c : Cfg) (src : UInt32) : Prop :=
  src &&& ipv4Of c idLanMask = ipv4Of c idLanIp &&& ipv4Of c idLanMask

/-- Every source that a forwarder accepts is on the LAN of a configuration. -/
def ServesLan (c : Cfg) (d : Dnsfwd) : Prop :=
  ∀ src, dnsOnLan src d.lanIp d.lanMask = true → InLan c src

theorem dnsOnLan_iff {src ip mask : UInt32} :
    dnsOnLan src ip mask = true ↔
      src ≠ 0 ∧ src &&& mask = ip &&& mask ∧ src ≠ ip &&& mask ∧
        src ≠ ip &&& mask ||| ~~~mask := by
  unfold dnsOnLan
  dsimp only
  split_ifs with zero outside edge
  · exact ⟨nofun, fun on => absurd zero on.1⟩
  · exact ⟨nofun, fun on => absurd on.2.1 outside⟩
  · exact ⟨nofun, fun on => (edge.elim on.2.2.1 on.2.2.2).elim⟩
  · obtain ⟨notNet, notBcast⟩ := not_or.mp edge
    exact ⟨fun _ => ⟨zero, not_not.mp outside, notNet, notBcast⟩, fun _ => rfl⟩

/-! ## The fallback and a mask -/

theorem and_or_left (a b c : UInt32) : a &&& (b ||| c) = a &&& b ||| a &&& c := by
  apply UInt32.eq_of_toBitVec_eq
  ext i inside
  simp [Bool.and_or_distrib_left]

/-- A mask that ends in a zero byte is no longer than the fallback. -/
theorem fallback_and_of_short {m : UInt32} (short : m.toUInt8 = 0) :
    lanMaskFallback &&& m = m := by
  have low : m &&& 0xFF = 0 := by
    apply UInt32.toNat_inj.mp
    have byte := congrArg UInt8.toNat short
    rw [UInt32.toNat_toUInt8] at byte
    rw [UInt32.toNat_and]
    exact (Nat.and_two_pow_sub_one_eq_mod m.toNat 8).trans byte
  have whole : m &&& (lanMaskFallback ||| 0xFF) = m := by
    rw [show lanMaskFallback ||| 0xFF = -1 by decide]
    exact UInt32.and_neg_one
  rw [and_or_left, low, UInt32.or_zero, UInt32.and_comm] at whole
  exact whole

theorem top_of_filled (b : UInt8) :
    ~~~b &&& (~~~b + 1) = 0 → b = 0 ∨ b &&& 0x80 = 0x80 := by
  revert b
  refine forall_byte ?_
  decide

/-- The last byte of a mask is zero or reaches the top. -/
theorem top_of_contiguous {m : UInt32}
    (contiguous : CfgStore.maskIsContiguous m = true) :
    m.toUInt8 = 0 ∨ m.toUInt8 &&& 0x80 = 0x80 := by
  have low := congrArg UInt32.toUInt8 (CfgStore.filled_of_contiguous contiguous)
  rw [UInt32.toUInt8_and, UInt32.toUInt8_add, UInt32.toUInt8_not] at low
  exact top_of_filled _ low

/-- An address next door: in the same 256 addresses, in the other half. -/
def nextDoor (ip : UInt32) : UInt32 :=
  (ip &&& lanMaskFallback) ||| (if ip.toUInt8 &&& 0x80 = 0 then 0xC0 else 0x40)

theorem nextDoor_byte (ip : UInt32) : (nextDoor ip).toUInt8 =
    if ip.toUInt8 &&& 0x80 = 0 then 0xC0 else 0x40 := by
  unfold nextDoor
  rw [UInt32.toUInt8_or, UInt32.toUInt8_and,
    show lanMaskFallback.toUInt8 = 0 by decide, UInt8.and_zero, UInt8.zero_or]
  split <;> rfl

theorem nextDoor_accepted (ip : UInt32) :
    dnsOnLan (nextDoor ip) ip lanMaskFallback = true := by
  have byte := nextDoor_byte ip
  have away {x : UInt32} (edge : x.toUInt8 = 0 ∨ x.toUInt8 = 0xFF) :
      nextDoor ip ≠ x := by
    rintro rfl
    rw [byte] at edge
    revert edge
    split <;> decide
  rw [dnsOnLan_iff]
  refine ⟨away (.inl rfl), ?_, away (.inl ?_), away (.inr ?_)⟩
  · unfold nextDoor
    rw [UInt32.and_comm, and_or_left, UInt32.and_comm lanMaskFallback (ip &&& _),
      UInt32.and_assoc, UInt32.and_self]
    split <;> exact UInt32.or_zero
  · rw [UInt32.toUInt8_and, show lanMaskFallback.toUInt8 = 0 by decide,
      UInt8.and_zero]
  · rw [UInt32.toUInt8_or, UInt32.toUInt8_and,
      show lanMaskFallback.toUInt8 = 0 by decide, UInt8.and_zero]
    decide

theorem other_half (b : UInt8) :
    (if b &&& 0x80 = 0 then 0xC0 else 0x40) &&& 0x80 ≠ b &&& (0x80 : UInt8) := by
  revert b
  refine forall_byte ?_
  decide

theorem nextDoor_outside {ip mask : UInt32}
    (top : mask.toUInt8 &&& 0x80 = 0x80) :
    nextDoor ip &&& mask ≠ ip &&& mask := by
  intro same
  have low := congrArg (fun x : UInt32 => x.toUInt8 &&& 0x80) same
  simp only [UInt32.toUInt8_and, UInt8.and_assoc, top, nextDoor_byte] at low
  exact other_half _ low

/-- Configured by what the broker hands to its uid, the forwarder serves nobody
but the LAN exactly when the mask is no longer than the fallback. -/
theorem dnsfwd_serves_lan_iff (t : Fin 2 → Turn) (d : Dnsfwd) :
    ∃ wire, cfgFetch (brokerCall Broker.uidDnsfwd t) = .ok wire ∧
      (ServesLan (t 1).cfg
          (dnsfwdConfig d wire.lanIp wire.lanMask wire.upstream) ↔
        (ipv4Of (t 1).cfg idLanMask).toUInt8 = 0) := by
  obtain ⟨ip, mask, up, has⟩ := exists_addresses (t 1).cfg_valid
  refine ⟨_, cfgFetch_dnsfwd t, ?_, ?_⟩
  · intro serves
    rcases top_of_contiguous has.maskSound.1 with short | top
    · exact short
    · exact absurd (serves _ (nextDoor_accepted _)) (nextDoor_outside top)
  · intro short src accepted
    have near := (dnsOnLan_iff.mp accepted).2.1
    change src &&& lanMaskFallback =
      ipv4Of (t 1).cfg idLanIp &&& lanMaskFallback at near
    unfold InLan
    rw [← fallback_and_of_short short, ← UInt32.and_assoc, near,
      UInt32.and_assoc]

/-- As root it serves nobody but the LAN. -/
theorem root_serves_lan (t : Fin 2 → Turn) (d : Dnsfwd) :
    ∃ wire, cfgFetch (brokerCall Broker.uidRoot t) = .ok wire ∧
      ServesLan (t 0).cfg
        (dnsfwdConfig d wire.lanIp wire.lanMask wire.upstream) :=
  ⟨_, cfgFetch_root t, fun _ accepted => (dnsOnLan_iff.mp accepted).2.1⟩

/-- A LAN of 128 addresses, 10.1.1.0 to 10.1.1.127. -/
def halfLan : Cfg :=
  { CfgStore.cfgDefaults with
    value := Function.update
      (Function.update CfgStore.cfgDefaults.value 2 (some [255, 255, 255, 128]))
      5 (some [10, 1, 1, 120]) }

theorem halfLan_valid : Valid halfLan where
  checked i v present :=
    (by decide : ∀ i, ∀ v ∈ halfLan.value i,
      CfgStore.schemaCheckValue (CfgStore.cfgKeys i) v = none) i v present
  rules := by decide

/-- Configured from that LAN, the forwarder accepts 10.1.1.200. -/
theorem fallback_serves_outsider :
    ∃ t : Fin 2 → Turn, (∀ pass, (t pass).cfg.value = halfLan.value) ∧
      ∃ wire, cfgFetch (brokerCall Broker.uidDnsfwd t) = .ok wire ∧
        dnsOnLan 0x0A0101C8 wire.lanIp wire.lanMask = true ∧
        ¬ InLan halfLan 0x0A0101C8 := by
  obtain ⟨m, reloaded⟩ := CfgStore.exists_reloaded halfLan_valid
  let turn : Turn := { w := World.quiet, bk := State.init, m := m }
  have held : turn.cfg = { halfLan with seq := 1, source := 1 } := reloaded
  refine ⟨fun _ => turn, fun _ => ?_, _, cfgFetch_dnsfwd _, ?_, ?_⟩
  · rw [held]
  · dsimp only
    rw [held]
    decide
  · unfold InLan
    decide

end RlxFw.Dns
