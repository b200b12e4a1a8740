import RlxFw.InstallPlan
import RlxFw.ContainerSpec

/-!
# Committed by the header page

What a plan leaves on the part, whole or cut short: the staged bytes followed
by `0xFF` when it ran, and a first page of `0xFF` from the end of the first
erase to the start of the last program.
-/

namespace RlxFw.Install

open NorFlash

/-- A region, its staged bytes, and the erase opcode's block. -/
structure Task where
  rg : Region
  image : ByteMap
  len : Nat
  opcode : Nat
  listed : rg ∈ regions
  staged : 0 < len
  fits : len ≤ rg.size
  opcode_cases : opcode = 4096 ∨ opcode = 65536

namespace Task

/-- The plan the driver makes at its own grain. -/
def plan (t : Task) : Plan where
  base := t.rg.base
  size := t.rg.size
  len := t.len
  grain := WrPolicy.eraseGrain
  ne := t.rg.size / WrPolicy.eraseGrain
  np := (t.len + WrPolicy.page - 1) / WrPolicy.page

theorem planInit_eq (t : Task) :
    planInit t.rg t.len WrPolicy.eraseGrain = .ok t.plan := by
  have geometry : ¬ (WrPolicy.eraseGrain = 0 ∨
      WrPolicy.eraseGrain &&& (WrPolicy.eraseGrain - 1) ≠ 0 ∨
      WrPolicy.eraseGrain < WrPolicy.page ∨
      WrPolicy.eraseGrain > blockSize) := by
    decide
  unfold planInit
  rw [if_neg geometry, if_neg (Nat.not_lt_of_le t.fits)]
  rfl

/-- The region in numbers the arithmetic below can use. -/
theorem geometry (t : Task) :
    t.rg.base % 65536 = 0 ∧ t.rg.size % 65536 = 0 ∧ 0 < t.rg.size ∧
      0x70000 ≤ t.rg.base ∧ t.rg.base + t.rg.size ≤ 0x3F0000 := by
  have placed := wellPlaced_of_mem t.listed
  exact ⟨Nat.mod_eq_zero_of_dvd placed.base_block,
    Nat.mod_eq_zero_of_dvd placed.size_block, placed.size_pos,
    placed.aboveBarrier, placed.belowState⟩

/-! ## The operations -/

/-- The erases of the first `count` operations. -/
def erases (t : Task) (count : Nat) : List Op :=
  ((List.range count).map fun i => t.rg.base + i * 4096).map Op.erase

/-- The page at place `j` of the program order: its offset and its length. -/
def pageAt (t : Task) (j : Nat) : Nat × Nat :=
  (pageIndex t.plan.np j * 256, min (t.len - pageIndex t.plan.np j * 256) 256)

/-- The first `count` page programs. -/
def pages (t : Task) (count : Nat) : List Op :=
  ((List.range count).map t.pageAt).map fun page =>
    pageOf t.rg.base t.image page.1 page.2

theorem effect_erase (t : Task) {i : Nat} (early : i < t.plan.ne) :
    effect t.image (planOp t.plan i) = .erase (t.rg.base + i * 4096) := by
  unfold planOp
  rw [if_pos early]
  rfl

theorem effect_prog (t : Task) {j : Nat} (within : j < t.plan.np) :
    effect t.image (planOp t.plan (t.plan.ne + j)) =
      pageOf t.rg.base t.image (t.pageAt j).1 (t.pageAt j).2 := by
  unfold planOp
  rw [if_neg (by omega)]
  simp only [Nat.add_sub_cancel_left]
  rw [if_neg (by omega)]
  rfl

theorem effects_take_erases (t : Task) {count : Nat}
    (early : count ≤ t.plan.ne) :
    (effects t.plan t.image).take count = t.erases count := by
  unfold effects erases nops
  rw [← List.map_take, List.take_range, List.map_map,
    Nat.min_eq_left (by omega)]
  apply List.map_congr_left
  intro i member
  exact t.effect_erase (by have := List.mem_range.mp member; omega)

theorem effects_take_pages (t : Task) {count : Nat}
    (within : count ≤ t.plan.np) :
    (effects t.plan t.image).take (t.plan.ne + count) =
      t.erases t.plan.ne ++ t.pages count := by
  unfold effects nops
  rw [← List.map_take, List.take_range, Nat.min_eq_left (by omega),
    List.range_add, List.map_append, List.map_map]
  congr 1
  · rw [← t.effects_take_erases le_rfl]
    unfold effects nops
    rw [← List.map_take, List.take_range, Nat.min_eq_left (by omega)]
  · unfold pages
    rw [List.map_map]
    apply List.map_congr_left
    intro j member
    exact t.effect_prog (by have := List.mem_range.mp member; omega)

theorem effects_length (t : Task) :
    (effects t.plan t.image).length = nops t.plan := by
  simp [effects]

/-! ## Erasing -/

/-- Every byte of the region is in the block of one of the erases. -/
theorem erases_cover (t : Task) {offset : Nat} (lower : t.rg.base ≤ offset)
    (upper : offset < t.rg.base + t.rg.size) :
    ∃ address ∈ (List.range t.plan.ne).map fun i => t.rg.base + i * 4096,
      offset / t.opcode = address / t.opcode := by
  obtain ⟨baseAligned, sizeAligned, -⟩ := t.geometry
  have neEq : t.plan.ne = t.rg.size / 4096 := rfl
  refine ⟨t.rg.base + (offset - t.rg.base) / 4096 * 4096, ?_, ?_⟩
  · rw [List.mem_map]
    exact ⟨(offset - t.rg.base) / 4096, List.mem_range.mpr (by omega), rfl⟩
  · rcases t.opcode_cases with opcodeEq | opcodeEq <;>
      · rw [opcodeEq]
        omega

/-- No erase reaches outside the region. -/
theorem erase_inside (t : Task) {i offset : Nat} (early : i < t.plan.ne)
    (inside : offset / t.opcode = (t.rg.base + i * 4096) / t.opcode) :
    t.rg.base ≤ offset ∧ offset < t.rg.base + t.rg.size := by
  obtain ⟨baseAligned, sizeAligned, -⟩ := t.geometry
  have neEq : t.plan.ne = t.rg.size / 4096 := rfl
  rcases t.opcode_cases with opcodeEq | opcodeEq <;>
    · rw [opcodeEq] at inside
      omega

/-- The first erase already covers the first page. -/
theorem first_page_block (t : Task) {offset : Nat}
    (lower : t.rg.base ≤ offset) (upper : offset < t.rg.base + 256) :
    offset / t.opcode = (t.rg.base + 0 * 4096) / t.opcode := by
  obtain ⟨baseAligned, -⟩ := t.geometry
  rcases t.opcode_cases with opcodeEq | opcodeEq <;>
    · rw [opcodeEq]
      omega

/-- The whole region erased. -/
theorem run_erases_region (t : Task) (old : ByteMap) (offset : Nat) :
    run t.opcode (t.erases t.plan.ne) old offset =
      if t.rg.base ≤ offset ∧ offset < t.rg.base + t.rg.size then 0xFF
      else old offset := by
  unfold erases
  rw [run_erases]
  by_cases inside : t.rg.base ≤ offset ∧ offset < t.rg.base + t.rg.size
  · rw [if_pos inside, if_pos (t.erases_cover inside.1 inside.2)]
  · rw [if_neg inside, if_neg]
    rintro ⟨address, member, sameBlock⟩
    obtain ⟨i, inRange, rfl⟩ := List.mem_map.mp member
    exact inside (t.erase_inside (List.mem_range.mp inRange) sameBlock)

/-- Once one erase is complete the first page is clear. -/
theorem run_erases_first_page (t : Task) (old : ByteMap) {count : Nat}
    (begun : 0 < count) {offset : Nat} (lower : t.rg.base ≤ offset)
    (upper : offset < t.rg.base + 256) :
    run t.opcode (t.erases count) old offset = 0xFF := by
  unfold erases
  rw [run_erases, if_pos]
  exact ⟨t.rg.base + 0 * 4096,
    List.mem_map.mpr ⟨0, List.mem_range.mpr begun, rfl⟩,
    t.first_page_block lower upper⟩

/-! ## Programming -/

theorem np_bounds (t : Task) :
    0 < t.plan.np ∧ t.len ≤ t.plan.np * 256 ∧
      (t.plan.np - 1) * 256 < t.len := by
  have staged := t.staged
  have npEq : t.plan.np = (t.len + 255) / 256 := rfl
  omega

/-- Between them the pages cover the staged bytes and no more. -/
theorem pages_cover (t : Task) {offset : Nat} (lower : t.rg.base ≤ offset) :
    (∃ page ∈ (List.range t.plan.np).map t.pageAt,
        t.rg.base + page.1 ≤ offset ∧
          offset < t.rg.base + page.1 + page.2) ↔
      offset - t.rg.base < t.len := by
  obtain ⟨npPos, npUpper, npLower⟩ := t.np_bounds
  constructor
  · rintro ⟨page, member, below, above⟩
    obtain ⟨j, -, rfl⟩ := List.mem_map.mp member
    simp only [pageAt] at below above
    omega
  · intro inImage
    have pageExists : ∃ j < t.plan.np,
        pageIndex t.plan.np j = (offset - t.rg.base) / 256 := by
      by_cases firstPage : (offset - t.rg.base) / 256 = 0
      · refine ⟨t.plan.np - 1, by omega, ?_⟩
        unfold pageIndex
        rw [if_neg (by omega), firstPage]
      · refine ⟨(offset - t.rg.base) / 256 - 1, by omega, ?_⟩
        unfold pageIndex
        rw [if_pos (by omega)]
        omega
    obtain ⟨j, within, indexEq⟩ := pageExists
    refine ⟨t.pageAt j, List.mem_map.mpr ⟨j, List.mem_range.mpr within, rfl⟩,
      ?_⟩
    simp only [pageAt, indexEq]
    omega

/-- No page reaches outside the region. -/
theorem page_inside (t : Task) {j offset : Nat}
    (inside : t.rg.base + (t.pageAt j).1 ≤ offset ∧
      offset < t.rg.base + (t.pageAt j).1 + (t.pageAt j).2) :
    t.rg.base ≤ offset ∧ offset < t.rg.base + t.rg.size := by
  have fits := t.fits
  simp only [pageAt] at inside
  omega

/-- Only the last program touches the first page. -/
theorem page_misses_first (t : Task) {j : Nat} (early : j + 1 < t.plan.np) :
    256 ≤ (t.pageAt j).1 := by
  simp only [pageAt, pageIndex]
  rw [if_pos early]
  omega

theorem pageAt_last (t : Task) :
    t.pageAt (t.plan.np - 1) = (0, min t.len 256) := by
  obtain ⟨npPos, -⟩ := t.np_bounds
  have indexEq : pageIndex t.plan.np (t.plan.np - 1) = 0 := by
    unfold pageIndex
    exact if_neg (by omega)
  simp [pageAt, indexEq]

private theorem erased_and (byte : UInt8) : 0xFF &&& byte = byte := by
  apply UInt8.toNat_inj.mp
  rw [UInt8.toNat_and]
  have small := byte.toNat_lt
  change 2 ^ 8 - 1 &&& byte.toNat = byte.toNat
  rw [Nat.and_comm, Nat.and_two_pow_sub_one_eq_mod]
  omega

/-- The staged bytes, then `0xFF` to the end of the region; nothing else
changes. -/
theorem run_effects (t : Task) (old : ByteMap) :
    run t.opcode (effects t.plan t.image) old =
      old.blit t.rg.base t.rg.size (wanted t.image t.len) := by
  have whole : effects t.plan t.image =
      t.erases t.plan.ne ++ t.pages t.plan.np := by
    rw [← t.effects_take_pages le_rfl, List.take_of_length_le]
    rw [t.effects_length]
    rfl
  funext offset
  rw [whole, run_append]
  unfold pages
  rw [run_pages]
  simp only [t.run_erases_region]
  by_cases inside : t.rg.base ≤ offset ∧ offset < t.rg.base + t.rg.size
  · rw [ByteMap.blit_inside inside.1 inside.2]
    simp only [t.pages_cover inside.1, if_pos inside]
    unfold wanted
    split
    · exact erased_and _
    · rfl
  · have noPage : ¬ ∃ page ∈ (List.range t.plan.np).map t.pageAt,
        t.rg.base + page.1 ≤ offset ∧
          offset < t.rg.base + page.1 + page.2 := by
      rintro ⟨page, member, within⟩
      obtain ⟨j, -, rfl⟩ := List.mem_map.mp member
      exact inside (t.page_inside within)
    rw [if_neg noPage, if_neg inside, ByteMap.blit_outside (by omega)]

/-! ## Cut short -/

/-- The first page of the region. -/
def firstPage (t : Task) : Set Nat := Set.Ico t.rg.base (t.rg.base + 256)

theorem page_program_misses {t : Task} {j offset : Nat}
    (early : j + 1 < t.plan.np) (first : offset ∈ t.firstPage) :
    offset ∉ (pageOf t.rg.base t.image (t.pageAt j).1 (t.pageAt j).2).range
      t.opcode := by
  have skip := t.page_misses_first early
  intro inside
  have lower := inside.1
  have upper := first.2
  omega

/-- With one erase complete and the last program not complete, the first page
reads erased. -/
theorem first_page_erased (t : Task) (old : ByteMap) {count : Nat}
    (begun : 0 < count) (pending : count < nops t.plan) {offset : Nat}
    (first : offset ∈ t.firstPage) :
    run t.opcode ((effects t.plan t.image).take count) old offset = 0xFF := by
  by_cases erasing : count ≤ t.plan.ne
  · rw [t.effects_take_erases erasing]
    exact t.run_erases_first_page old begun first.1 first.2
  · obtain ⟨j, rfl⟩ : ∃ j, count = t.plan.ne + j :=
      ⟨count - t.plan.ne, by omega⟩
    unfold nops at pending
    obtain ⟨-, -, sizePos, -⟩ := t.geometry
    obtain ⟨-, sizeAligned, -⟩ := t.geometry
    have neEq : t.plan.ne = t.rg.size / 4096 := rfl
    rw [t.effects_take_pages (by omega), run_append, run_outside]
    · exact t.run_erases_first_page old (by omega) first.1 first.2
    · intro op member
      obtain ⟨page, inPages, rfl⟩ := List.mem_map.mp member
      obtain ⟨i, inRange, rfl⟩ := List.mem_map.mp inPages
      have early := List.mem_range.mp inRange
      exact page_program_misses (by omega) first

/-- The same inside an operation, up to the start of the last program. -/
theorem first_page_erased_stopped (t : Task) (old now : ByteMap) {count : Nat}
    (begun : 0 < count) (notLast : count + 1 < nops t.plan)
    (stopped : StoppedIn t.opcode (effects t.plan t.image) count old now)
    {offset : Nat} (first : offset ∈ t.firstPage) :
    now offset = 0xFF := by
  have before := t.first_page_erased old begun (by omega) first
  have opEq : (effects t.plan t.image)[count]? =
      some (effect t.image (planOp t.plan count)) := by
    unfold effects
    rw [List.getElem?_map, List.getElem?_range (by omega)]
    rfl
  unfold StoppedIn at stopped
  rw [opEq] at stopped
  have unchanged : (effect t.image (planOp t.plan count)).apply t.opcode
      (run t.opcode ((effects t.plan t.image).take count) old) offset =
      run t.opcode ((effects t.plan t.image).take count) old offset := by
    by_cases erasing : count < t.plan.ne
    · rw [t.effect_erase erasing]
      change (if _ then (0xFF : UInt8) else _) = _
      rw [before]
      exact ite_self _
    · obtain ⟨j, rfl⟩ : ∃ j, count = t.plan.ne + j :=
        ⟨count - t.plan.ne, by omega⟩
      unfold nops at notLast
      rw [t.effect_prog (by omega)]
      exact Op.apply_outside (page_program_misses (by omega) first)
  rw [stopped.eq_of_apply_eq unchanged, before]

/-- Inside the last program every byte past the first page is already
final. -/
theorem rest_final_in_last (t : Task) (old now : ByteMap)
    (stopped : StoppedIn t.opcode (effects t.plan t.image)
      (nops t.plan - 1) old now)
    {offset : Nat} (past : offset ∉ t.firstPage) :
    now offset = run t.opcode (effects t.plan t.image) old offset := by
  obtain ⟨npPos, -⟩ := t.np_bounds
  have lastIndex : nops t.plan - 1 = t.plan.ne + (t.plan.np - 1) := by
    unfold nops
    omega
  have opEq : (effects t.plan t.image)[nops t.plan - 1]? =
      some (pageOf t.rg.base t.image 0 (min t.len 256)) := by
    have lastEffect := t.effect_prog (Nat.sub_lt npPos Nat.one_pos)
    rw [t.pageAt_last] at lastEffect
    unfold effects
    rw [List.getElem?_map, List.getElem?_range (by unfold nops; omega),
      Option.map_some, lastIndex, lastEffect]
  have whole : effects t.plan t.image =
      (effects t.plan t.image).take (nops t.plan - 1) ++
        [pageOf t.rg.base t.image 0 (min t.len 256)] := by
    have lengthEq := t.effects_length
    have split := @List.take_add_one _ (effects t.plan t.image)
      (nops t.plan - 1)
    rw [opEq, Option.toList_some, Nat.sub_add_cancel (by unfold nops; omega),
      List.take_of_length_le lengthEq.le] at split
    exact split
  have untouched : offset ∉
      (pageOf t.rg.base t.image 0 (min t.len 256)).range t.opcode := by
    intro inside
    exact past ⟨inside.1, by have := inside.2; omega⟩
  unfold StoppedIn at stopped
  rw [opEq] at stopped
  rw [whole, run_snoc, Op.apply_outside untouched]
  exact stopped.eq_of_apply_eq (Op.apply_outside untouched)

/-! ## The policy -/

/-- Bytes charged to the program arm before program `j`. -/
def charged (t : Task) (j : Nat) : Nat :=
  min t.len ((j + 1) * 256) - min t.len 256

theorem armsBefore_succ (pl : Plan) (arms : Arms) (i : Nat) :
    armsBefore pl arms (i + 1) = charge (armsBefore pl arms i) (planOp pl i) := by
  simp [armsBefore, List.range_succ]

theorem planOp_erase (t : Task) {i : Nat} (early : i < t.plan.ne) :
    (planOp t.plan i).kind = .erase ∧
      (planOp t.plan i).addr = t.rg.base + i * 4096 ∧
      (planOp t.plan i).len = 4096 := by
  unfold planOp
  rw [if_pos early]
  exact ⟨rfl, rfl, rfl⟩

theorem planOp_prog (t : Task) {j : Nat} (within : j < t.plan.np) :
    (planOp t.plan (t.plan.ne + j)).kind = .prog ∧
      (planOp t.plan (t.plan.ne + j)).addr =
        t.rg.base + (t.pageAt j).1 ∧
      (planOp t.plan (t.plan.ne + j)).len = (t.pageAt j).2 := by
  unfold planOp
  rw [if_neg (by omega)]
  simp only [Nat.add_sub_cancel_left]
  rw [if_neg (by omega)]
  exact ⟨rfl, rfl, rfl⟩

/-- The budgets left before each operation. -/
theorem armsBefore_eq (t : Task) {i : Nat} (within : i < nops t.plan) :
    armsBefore t.plan (phaseArms t.rg) i =
      { erase :=
          { armed := true, lo := t.rg.base, hi := t.rg.base + t.rg.size
            budget := t.rg.size - min i t.plan.ne * 4096 }
        prog :=
          { armed := true, lo := t.rg.base, hi := t.rg.base + t.rg.size
            budget := t.rg.size - t.charged (i - t.plan.ne) } } := by
  induction i with
  | zero =>
      have nothing : t.charged (0 - t.plan.ne) = 0 := by
        simp [charged]
      rw [nothing]
      simp [armsBefore, phaseArms]
  | succ i ih =>
      rw [armsBefore_succ, ih (by omega)]
      by_cases erasing : i < t.plan.ne
      · obtain ⟨kindEq, -, lenEq⟩ := t.planOp_erase erasing
        have sameCharge : t.charged (i + 1 - t.plan.ne) =
            t.charged (i - t.plan.ne) := by
          rw [Nat.sub_eq_zero_of_le (by omega : i + 1 ≤ t.plan.ne),
            Nat.sub_eq_zero_of_le (by omega : i ≤ t.plan.ne)]
        have left : t.rg.size - min i t.plan.ne * 4096 - 4096 =
            t.rg.size - min (i + 1) t.plan.ne * 4096 := by
          omega
        simp only [charge, kindEq, lenEq, sameCharge, left]
      · obtain ⟨j, rfl⟩ : ∃ j, i = t.plan.ne + j := ⟨i - t.plan.ne, by omega⟩
        unfold nops at within
        obtain ⟨kindEq, -, lenEq⟩ := t.planOp_prog (show j < t.plan.np by omega)
        obtain ⟨-, npUpper, npLower⟩ := t.np_bounds
        have pageLen : (t.pageAt j).2 = min (t.len - (j + 1) * 256) 256 := by
          simp only [pageAt, pageIndex]
          rw [if_pos (by omega)]
        have nextIndex : t.plan.ne + j + 1 - t.plan.ne = j + 1 := by omega
        have thisIndex : t.plan.ne + j - t.plan.ne = j := by omega
        have left : t.rg.size - t.charged j - (t.pageAt j).2 =
            t.rg.size - t.charged (j + 1) := by
          rw [pageLen]
          unfold charged
          omega
        have sameErase : min (t.plan.ne + j) t.plan.ne =
            min (t.plan.ne + j + 1) t.plan.ne := by
          omega
        simp only [charge, kindEq, lenEq, nextIndex, thisIndex, left,
          sameErase]

/-- Every operation lies in the region, and the policy accepts it under what is
left of its phase's arm. -/
theorem policy_accepts (t : Task) {i : Nat} (within : i < nops t.plan) :
    policyCheck (armsBefore t.plan (phaseArms t.rg) i) (planOp t.plan i) =
        .ok ∧
      t.rg.base ≤ (planOp t.plan i).addr ∧
      (planOp t.plan i).addr + (planOp t.plan i).len ≤
        t.rg.base + t.rg.size := by
  rw [t.armsBefore_eq within]
  obtain ⟨baseAligned, sizeAligned, sizePos, aboveBarrier, belowState⟩ :=
    t.geometry
  by_cases erasing : i < t.plan.ne
  · obtain ⟨kindEq, addrEq, lenEq⟩ := t.planOp_erase erasing
    have neEq : t.plan.ne = t.rg.size / 4096 := rfl
    simp only [policyCheck, kindEq, addrEq, lenEq,
      WrPolicy.chkErase_eq_ok_iff, true_and]
    unfold WrPolicy.chip WrPolicy.neverHi WrPolicy.eraseGrain
    omega
  · obtain ⟨j, rfl⟩ : ∃ j, i = t.plan.ne + j := ⟨i - t.plan.ne, by omega⟩
    unfold nops at within
    obtain ⟨kindEq, addrEq, lenEq⟩ := t.planOp_prog (show j < t.plan.np by omega)
    obtain ⟨npPos, npUpper, npLower⟩ := t.np_bounds
    have fits := t.fits
    have thisIndex : t.plan.ne + j - t.plan.ne = j := by omega
    have charges : t.charged j + (t.pageAt j).2 ≤ t.len := by
      simp only [pageAt, pageIndex, charged]
      split <;> omega
    have inImage : 0 < (t.pageAt j).2 ∧ (t.pageAt j).2 ≤ 256 ∧
        (t.pageAt j).1 + (t.pageAt j).2 ≤ t.len ∧
        (t.pageAt j).1 % 256 = 0 := by
      simp only [pageAt, pageIndex]
      split <;> omega
    simp only [policyCheck, kindEq, addrEq, lenEq, thisIndex,
      WrPolicy.chkProg_eq_ok_iff, true_and]
    unfold WrPolicy.chip WrPolicy.neverHi WrPolicy.page
    omega

/-- What an operation can change of the part lies in the region too, under
either erase size. -/
theorem effect_range_subset (t : Task) {i : Nat} (within : i < nops t.plan) :
    (effect t.image (planOp t.plan i)).range t.opcode ⊆
      Set.Ico t.rg.base (t.rg.base + t.rg.size) := by
  intro offset inside
  by_cases erasing : i < t.plan.ne
  · rw [t.effect_erase erasing] at inside
    exact t.erase_inside erasing inside
  · obtain ⟨j, rfl⟩ : ∃ j, i = t.plan.ne + j := ⟨i - t.plan.ne, by omega⟩
    unfold nops at within
    rw [t.effect_prog (by omega)] at inside
    exact t.page_inside inside

/-- A region whose first page reads erased is refused at its magic. -/
theorem refused_of_erased (t : Task) {now : ByteMap}
    (erased : ∀ offset ∈ t.firstPage, now offset = 0xFF)
    (ed25519 : Container.SignatureCheck) {avail : Nat} (e : Container.Env)
    (readable : Container.bodyOff ≤ avail) :
    (Container.rlxuVerify ed25519 (fun i => now (t.rg.base + i)) avail
      e).reason = .magic := by
  apply Container.reason_eq_magic readable
  have byteErased (i : Nat) (early : i < 4) : now (t.rg.base + i) = 0xFF :=
    erased _ ⟨by omega, by omega⟩
  unfold Container.be32
  simp only [Nat.zero_add, byteErased 0 (by omega), byteErased 1 (by omega),
    byteErased 2 (by omega), byteErased 3 (by omega)]
  decide

end Task

/-- An install is committed by its header page.  A whole run leaves the staged
bytes and then `0xFF`; a run stopped after the first erase and before the last
program leaves a slot that is refused at its magic; one stopped inside the last
program leaves everything past the first page final; and the policy accepts
every operation of the plan, inside the region. -/
theorem install_committed_by_header (t : Task) (old : ByteMap) :
    planInit t.rg t.len WrPolicy.eraseGrain = .ok t.plan ∧
    run t.opcode (effects t.plan t.image) old =
      old.blit t.rg.base t.rg.size (wanted t.image t.len) ∧
    (∀ count now, 0 < count → count < nops t.plan →
      (now = run t.opcode ((effects t.plan t.image).take count) old ∨
        (count + 1 < nops t.plan ∧
          StoppedIn t.opcode (effects t.plan t.image) count old now)) →
      (∀ offset ∈ t.firstPage, now offset = 0xFF) ∧
        ∀ ed25519 avail e, Container.bodyOff ≤ avail →
          (Container.rlxuVerify ed25519 (fun i => now (t.rg.base + i)) avail
            e).reason = .magic) ∧
    (∀ now, StoppedIn t.opcode (effects t.plan t.image) (nops t.plan - 1) old
        now →
      ∀ offset, offset ∉ t.firstPage →
        now offset = old.blit t.rg.base t.rg.size (wanted t.image t.len)
          offset) ∧
    ∀ i < nops t.plan,
      policyCheck (armsBefore t.plan (phaseArms t.rg) i) (planOp t.plan i) =
        .ok ∧
      t.rg.base ≤ (planOp t.plan i).addr ∧
      (planOp t.plan i).addr + (planOp t.plan i).len ≤
        t.rg.base + t.rg.size ∧
      (effect t.image (planOp t.plan i)).range t.opcode ⊆
        Set.Ico t.rg.base (t.rg.base + t.rg.size) := by
  refine ⟨t.planInit_eq, t.run_effects old, ?_, ?_, ?_⟩
  · intro count now begun pending cut
    have erased : ∀ offset ∈ t.firstPage, now offset = 0xFF := by
      intro offset first
      rcases cut with rfl | ⟨notLast, stopped⟩
      · exact t.first_page_erased old begun pending first
      · exact t.first_page_erased_stopped old now begun notLast stopped first
    exact ⟨erased, fun ed25519 _ e readable =>
      t.refused_of_erased erased ed25519 e readable⟩
  · intro now stopped offset past
    rw [← t.run_effects old]
    exact t.rest_final_in_last old now stopped past
  · intro i within
    obtain ⟨accepted, lower, upper⟩ := t.policy_accepts within
    exact ⟨accepted, lower, upper, t.effect_range_subset within⟩

/-- One staged byte in slot A, under the larger erase. -/
def oneByte : Task where
  rg := slotaRegion
  image := fun _ => 0x52
  len := 1
  opcode := 65536
  listed := List.mem_cons_self
  staged := Nat.one_pos
  fits := by decide
  opcode_cases := Or.inr rfl

/-- Cut after its first erase, that install leaves a slot refused at its
magic. -/
theorem install_committed_by_header_oneByte :
    (Container.rlxuVerify (fun _ _ _ => true)
      (fun i => run oneByte.opcode
        ((effects oneByte.plan oneByte.image).take 1) (fun _ => 0)
        (oneByte.rg.base + i))
      160
      { ramBase := 0, ramEnd := 0, selfBase := 0, selfEnd := 0, bufBase := 0
        bufLimit := 0, ldrBase := 0, ldrEnd := 0, counter := 0, writeAt := 0
        writeForm := 0, pk := [] }).reason = .magic :=
  ((install_committed_by_header oneByte fun _ => 0).2.2.1 1 _ Nat.one_pos
    (by decide) (Or.inl rfl)).2 _ _ _ le_rfl

end RlxFw.Install
