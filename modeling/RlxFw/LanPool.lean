import RlxFw.CfgValid
import RlxFw.Netmask

/-!
# The DHCP pool of a valid configuration

`cfg_validate` looks at the ends of the pool and at the router.  Under a mask
that is a prefix that settles every address between the ends.
-/

namespace RlxFw.CfgStore

open Netmask (IsMask IsHost)

/-- A pool that can be handed out: the router is a host of its subnet, and so is
every address of the pool, none of them the router's. -/
structure UsablePool (lan mask first last : UInt32) : Prop where
  ordered : first ≤ last
  router : IsHost lan mask lan
  hosts : ∀ x, first ≤ x → x ≤ last → IsHost lan mask x ∧ x ≠ lan

/-- The four settings of the LAN, as a configuration has them. -/
structure LanSettings (c : Cfg) (lan mask first last : UInt32) : Prop where
  lan : getU32 c idLanIp = .ok lan
  mask : getU32 c idLanMask = .ok mask
  first : getU32 c idDhcpdStart = .ok first
  last : getU32 c idDhcpdEnd = .ok last

theorem rule_eq_ok_iff {broken : Prop} [Decidable broken] {id : Nat} {u : Unit} :
    rule broken id = .ok u ↔ ¬ broken := by
  unfold rule
  split <;> simp [*]

/-- The rules on the LAN, read off an acceptance. -/
theorem lanRules_eq_ok_iff {lan mask first last : UInt32} {u : Unit} :
    lanRules lan mask first last = .ok u ↔
      first ≤ last ∧ IsHost lan mask first ∧ IsHost lan mask last ∧
        IsHost lan mask lan ∧ ¬ (first ≤ lan ∧ lan ≤ last) := by
  unfold lanRules
  simp only [bind_eq_ok_iff, rule_eq_ok_iff]
  constructor
  · rintro ⟨-, ordered, -, firstIn, -, lastIn, -, firstEdge, -, lastEdge, -,
      lanEdge, apart⟩
    rw [not_or] at firstEdge lastEdge lanEdge
    exact ⟨UInt32.not_lt.mp ordered,
      ⟨not_not.mp firstIn, firstEdge.1, firstEdge.2⟩,
      ⟨not_not.mp lastIn, lastEdge.1, lastEdge.2⟩,
      ⟨rfl, lanEdge.1, lanEdge.2⟩, apart⟩
  · rintro ⟨ordered, first, last, router, apart⟩
    exact ⟨(), UInt32.not_lt.mpr ordered, (), not_not.mpr first.inside, (),
      not_not.mpr last.inside, (), not_or.mpr ⟨first.ne_net, first.ne_bcast⟩, (),
      not_or.mpr ⟨last.ne_net, last.ne_bcast⟩, (),
      not_or.mpr ⟨router.ne_net, router.ne_bcast⟩, apart⟩

/-- The LAN's mask is a prefix once it passed its check. -/
theorem Valid.exists_isMask {c : Cfg} (valid : Valid c) {mask : UInt32}
    (read : getU32 c idLanMask = .ok mask) : ∃ host, IsMask mask host := by
  obtain ⟨v, got, checked⟩ := valid.cfgGet 2 (by decide)
  obtain ⟨four, passed⟩ := ipv4_of_checked rfl checked
  unfold getU32 at read
  rw [show CfgStore.cfgGet c idLanMask = .ok v from got] at read
  change (if v.length ≠ 4 then _ else Except.ok (valueWord v)) = _ at read
  rw [if_neg (not_not.mpr four)] at read
  cases read
  exact Netmask.exists_isMask (filled_of_contiguous (mask_of_check rfl passed).1)

/-- A pool between two hosts of a prefix, with the router outside of it. -/
theorem usablePool_of_lanRules {lan mask first last : UInt32} {host : Nat}
    (isMask : IsMask mask host) (kept : lanRules lan mask first last = .ok ()) :
    UsablePool lan mask first last := by
  obtain ⟨ordered, atFirst, atLast, router, apart⟩ := lanRules_eq_ok_iff.mp kept
  refine ⟨ordered, router, fun x low high => ⟨?_, ?_⟩⟩
  · exact isMask.isHost_of_between atFirst atLast low high
  · rintro rfl
    exact apart ⟨low, high⟩

/-- A valid configuration has a LAN, and a pool that can be handed out there. -/
theorem pool_usable {c : Cfg} (valid : Valid c) :
    ∃ lan mask first last, LanSettings c lan mask first last ∧
      UsablePool lan mask first last := by
  have rules := valid.rules
  unfold cfgValidate at rules
  simp only [bind_eq_ok_iff] at rules
  obtain ⟨lan, isLan, mask, isMask, first, isFirst, last, isLast, u, kept, -⟩ := rules
  obtain ⟨host, narrow⟩ := valid.exists_isMask isMask
  exact ⟨lan, mask, first, last, ⟨isLan, isMask, isFirst, isLast⟩,
    usablePool_of_lanRules narrow kept⟩

/-- The defaults' pool. -/
theorem pool_usable_cfgDefaults :
    ∃ lan mask first last, LanSettings cfgDefaults lan mask first last ∧
      UsablePool lan mask first last :=
  pool_usable valid_cfgDefaults

end RlxFw.CfgStore
