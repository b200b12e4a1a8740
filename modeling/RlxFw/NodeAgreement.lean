import Mathlib.Data.List.Nodup
import RlxFw.NodeFields

/-!
# What is read is what was printed

Every line of the node is found by its key, whole, and the numbers come back as the
numbers of the state.
-/

namespace RlxFw.SpiNode

open KeyLines (Entry newline blank firstLine valueOf CompleteLine)

/-! ## Tables of the blocks -/

/-- Entries whose keys and widths are those of a table. -/
abbrev Tabled : List Entry → List (String × Nat) → Prop :=
  List.Forall₂ fun e row => e.key = ascii row.1 ∧ Fits row.2 e.value

theorem Tabled.row {width : Nat} {v : List UInt8} {entries : List Entry}
    {rows : List (String × Nat)} {key : String} (fits : Fits width v)
    (rest : Tabled entries rows) : Tabled (line key v :: entries) ((key, width) :: rows) :=
  .cons ⟨rfl, fits⟩ rest

/-- The keys of `rlxfw_spi_inst_emit`, each with its widest value. -/
def instRows : List (String × Nat) :=
  [("inst_version", 23), ("img_cap", 7), ("img_len", 10), ("img_writes", 10),
    ("img_resets", 10), ("img_err", 8), ("inst_attempts", 10), ("inst_done", 10),
    ("inst_refused", 10), ("inst_failed", 10), ("inst_ran", 1), ("inst_verb", 10),
    ("inst_region", 7), ("inst_base", 8), ("inst_size", 10), ("inst_len", 10),
    ("inst_paced", 1), ("inst_pace_ms", 10), ("inst_reason", 16), ("inst_rc", 11),
    ("inst_policy", 11), ("inst_arm_ok", 1), ("inst_sha_checked", 1), ("inst_sha_ok", 1),
    ("inst_hdr_checked", 1), ("inst_hdr_ok", 1), ("inst_erase_op", 8),
    ("inst_erase_step", 10), ("inst_ops", 10), ("inst_ops_planned", 10),
    ("inst_n_se", 10), ("inst_n_pp", 10), ("inst_erased", 10), ("inst_programmed", 10),
    ("inst_committed", 1), ("inst_phase", 1), ("inst_cmp_ran", 1), ("inst_cmp_ok", 1),
    ("inst_cmp_bytes", 10), ("inst_cmp_diff", 10), ("inst_cmp_first", 11),
    ("inst_ms", 10), ("eraseprobe", 83), ("eraseprobe_detail", 178), ("inst_truncated", 1)]

/-- The keys of `rlxfw_spi_inst_emit_ctr`, each with its widest value. -/
def ctrRows : List (String × Nat) :=
  [("ctr_attempts", 10), ("ctr_done", 10), ("ctr_refused", 10), ("ctr_failed", 10),
    ("ctr_ran", 1), ("ctr_reason", 16), ("ctr_cur", 10), ("ctr_malformed", 1),
    ("ctr_new", 10), ("ctr_read", 10), ("ctr_pp", 10), ("ctr_ms", 10), ("loop_ran", 1),
    ("loop_reason", 16), ("loop_passes", 10), ("loop_done", 10), ("loop_ops", 10),
    ("loop_ms", 10), ("ctrscratch_shows", 10), ("ctrscratch_rc", 11),
    ("ctrscratch_value", 10), ("ctrscratch_malformed", 1), ("ctrscratch_erased", 1),
    ("ctr_truncated", 1)]

/-- The keys of the node. -/
def nodeRows : List (String × Nat) := ("n_writes", 10) :: (instRows ++ ctrRows)

theorem fits_oneDigit (c : Prop) [Decidable c] : Fits 1 (if c then [0x31] else [0x30]) := by
  split <;> decide

theorem emit_tabled (provision : Bool) (s : InstSt) (im : Img) (pr : Probe)
    (eraseOpcode eraseStep tickUs : UInt32) :
    Tabled (emit provision s im pr eraseOpcode eraseStep tickUs) instRows :=
  .row (by decide) <| .row (by decide) <| .row (fits_u _) <| .row (fits_u _) <|
  .row (fits_u _) <| .row (fits_imgErrName _) <| .row (fits_u _) <| .row (fits_u _) <|
  .row (fits_u _) <| .row (fits_u _) <| .row (fits_b _) <| .row (fits_verbName _) <|
  .row (fits_regionName _ _) <| .row (fits_hex (by decide) _) <| .row (fits_u _) <|
  .row (fits_u _) <| .row (fits_oneDigit _) <| .row (fits_u _) <|
  .row (fits_reasonName _) <| .row (fits_d _) <| .row (fits_d _) <| .row (fits_b _) <|
  .row (fits_b _) <| .row (fits_b _) <| .row (fits_b _) <| .row (fits_b _) <|
  .row (fits_hex (by decide) _) <| .row (fits_u _) <| .row (fits_u _) <|
  .row (fits_u _) <| .row (fits_u _) <| .row (fits_u _) <| .row (fits_u _) <|
  .row (fits_u _) <| .row (fits_b _) <| .row (fits_phaseChar _) <| .row (fits_b _) <|
  .row (fits_b _) <| .row (fits_u _) <| .row (fits_u _) <| .row (fits_d _) <|
  .row (fits_u _) <| .row (fits_probeLine _ _) <| .row (fits_probeDetail _) <|
  .row (by decide) .nil

theorem emitCtr_tabled (c : CtrState) : Tabled (emitCtr c) ctrRows :=
  .row (fits_u _) <| .row (fits_u _) <| .row (fits_u _) <| .row (fits_u _) <|
  .row (fits_b _) <| .row (fits_reasonName _) <| .row (fits_u _) <| .row (fits_b _) <|
  .row (fits_u _) <| .row (fits_u _) <| .row (fits_u _) <| .row (fits_u _) <|
  .row (fits_b _) <| .row (fits_reasonName _) <| .row (fits_u _) <| .row (fits_u _) <|
  .row (fits_u _) <| .row (fits_u _) <| .row (fits_u _) <| .row (fits_d _) <|
  .row (fits_u _) <| .row (fits_b _) <| .row (fits_b _) <| .row (by decide) .nil

theorem nodeLines_tabled (provision : Bool) (st : State) :
    Tabled (nodeLines provision st) nodeRows :=
  .row (fits_u _) (List.rel_append (emit_tabled ..) (emitCtr_tabled _))

/-- How long the text of a table is at most. -/
def rowsMax (rows : List (String × Nat)) : Nat :=
  (rows.map fun row => (ascii row.1).length + row.2 + 2).sum

theorem Tabled.length_le {entries : List Entry} {rows : List (String × Nat)}
    (tabled : Tabled entries rows) : (KeyLines.text entries).length ≤ rowsMax rows := by
  rw [KeyLines.length_text]
  unfold rowsMax
  induction tabled with
  | nil => exact le_rfl
  | cons both _ ih =>
      rw [List.map_cons, List.map_cons, List.sum_cons, List.sum_cons, both.1]
      have short := both.2.short
      omega

theorem Tabled.keys {entries : List Entry} {rows : List (String × Nat)}
    (tabled : Tabled entries rows) : entries.map Entry.key = rows.map fun row => ascii row.1 := by
  induction tabled with
  | nil => rfl
  | cons both _ ih => rw [List.map_cons, List.map_cons, both.1, ih]

theorem Tabled.onLine {entries : List Entry} {rows : List (String × Nat)}
    (tabled : Tabled entries rows) : ∀ e ∈ entries, ∀ c ∈ e.value, c ≠ newline := by
  induction tabled with
  | nil => simp
  | cons both _ ih => exact List.forall_mem_cons.mpr ⟨both.2.onLine, ih⟩

/-- A key that `spictl_field` takes. -/
def GoodKey (key : List UInt8) : Prop :=
  key.length ≠ 0 ∧ ∀ c ∈ key, c ≠ blank ∧ c ≠ newline ∧ c ≠ 0x0D

instance (key : List UInt8) : Decidable (GoodKey key) :=
  decidable_of_iff (key.length ≠ 0 ∧
      key.all (fun c => c != blank && (c != newline && c != 0x0D)) = true)
    (by simp [GoodKey])

/-- The bytes of a key as one number. -/
def keyCode (key : List UInt8) : Nat := key.foldl (fun code c => code * 256 + c.toNat) 0

/-- The tables, evaluated: their keys are good and apart, and their rows fit. -/
theorem tables_fit :
    (∀ row ∈ nodeRows, GoodKey (ascii row.1)) ∧
      ((nodeRows.map fun row => ascii row.1).map keyCode).Nodup ∧
      rowsMax nodeRows ≤ nodeMax ∧ rowsMax instRows = instProcMax ∧
      rowsMax ctrRows = ctrProcMax := by
  decide +kernel

theorem nodeRows_goodKey : ∀ row ∈ nodeRows, GoodKey (ascii row.1) := tables_fit.1

theorem nodeRows_distinct : (nodeRows.map fun row => ascii row.1).Nodup :=
  List.Nodup.of_map keyCode tables_fit.2.1

theorem nodeRows_fit : rowsMax nodeRows ≤ nodeMax := tables_fit.2.2.1

theorem instRows_fit : rowsMax instRows = instProcMax := tables_fit.2.2.2.1

theorem ctrRows_fit : rowsMax ctrRows = ctrProcMax := tables_fit.2.2.2.2

section Node

variable (provision : Bool) (st : State)

theorem goodKey_of_mem {e : Entry} (member : e ∈ nodeLines provision st) : GoodKey e.key := by
  have inKeys := List.mem_map_of_mem (f := Entry.key) member
  rw [(nodeLines_tabled provision st).keys] at inKeys
  obtain ⟨row, inRows, same⟩ := List.mem_map.mp inKeys
  rw [← same]
  exact nodeRows_goodKey row inRows

theorem plain_of_mem {e : Entry} (member : e ∈ nodeLines provision st) : e.Plain where
  key c inKey :=
    ⟨((goodKey_of_mem provision st member).2 c inKey).1,
      ((goodKey_of_mem provision st member).2 c inKey).2.1⟩
  value := (nodeLines_tabled provision st).onLine e member

theorem nodeLines_distinct : ((nodeLines provision st).map Entry.key).Nodup := by
  rw [(nodeLines_tabled provision st).keys]
  exact nodeRows_distinct

theorem length_nodeReadProc_le : (nodeReadProc provision st).length ≤ nodeMax :=
  (nodeLines_tabled provision st).length_le.trans nodeRows_fit

/-- One read(2) returns the node whole. -/
theorem readOnce_nodeReadProc :
    readOnce (nodeReadProc provision st) spictlPageMax = nodeReadProc provision st := by
  apply List.take_of_length_le
  exact (length_nodeReadProc_le provision st).trans (by decide)

/-- `spictl_field` finds a line's value by its key. -/
theorem spictlField_of_mem {e : Entry} (member : e ∈ nodeLines provision st) {cap : Nat}
    (room : e.value.length < cap) :
    spictlField (nodeReadProc provision st) e.key cap = .ok e.value := by
  have good := goodKey_of_mem provision st member
  have found : firstLine (matchLine e.key cap) [] (nodeReadProc provision st) =
      some (.ok e.value) := by
    have asLines : nodeReadProc provision st =
        ((nodeLines provision st).map Entry.line).flatMap fun line => line ++ [newline] := by
      rw [List.flatMap_map]
      rfl
    have onLine : ∀ line ∈ (nodeLines provision st).map Entry.line, ∀ c ∈ line, c ≠ newline := by
      intro line inLines
      obtain ⟨other, inside, rfl⟩ := List.mem_map.mp inLines
      exact (plain_of_mem provision st inside).line
    have value := KeyLines.findSome?_valueOf (fun _ => plain_of_mem provision st)
      (nodeLines_distinct provision st) member
    rw [asLines, KeyLines.firstLine_lines onLine]
    change List.findSome? (Option.map _ ∘ valueOf e.key) _ = _
    rw [← List.map_findSome?, value, Option.map_some, if_neg (by omega)]
  have noBad : ¬ (e.key.any fun c => c = blank ∨ c = newline ∨ c = 0x0D) = true := by
    intro bad
    obtain ⟨c, inKey, isBad⟩ := List.any_eq_true.mp bad
    obtain ⟨notBlank, notEnd, notReturn⟩ := good.2 c inKey
    simp_all
  unfold spictlField
  rw [if_neg (by have := good.1; omega), if_neg noBad, readOnce_nodeReadProc, found]

end Node

/-! ## Numbers -/

theorem u32Digit_digit {x : Nat} : ∀ d < 10, x * 10 + d ≤ 0xFFFFFFFF →
    u32Digit x (Decimal.digit d) = .ok (x * 10 + d) := by
  intro d small fits
  have low : ∀ d < 10, ¬ (Decimal.digit d < 0x30 ∨ Decimal.digit d > 0x39) := by decide
  have value : ∀ d < 10, (Decimal.digit d - 0x30).toNat = d := by decide
  unfold u32Digit
  dsimp only
  rw [if_neg (low d small), value d small, if_neg (by omega)]

theorem foldlM_u32Digit_text {n : Nat} (small : n ≤ 0xFFFFFFFF) :
    (Decimal.text n).foldlM u32Digit 0 = .ok n := by
  refine Decimal.text_induction
    (fun n digits => n ≤ 0xFFFFFFFF → digits.foldlM u32Digit 0 = .ok n) ?_ ?_ n small
  · intro n one fits
    have step := u32Digit_digit (x := 0) n one (by omega)
    rw [Nat.zero_mul, Nat.zero_add] at step
    simp [step]
  · intro n _ ih fits
    have step := u32Digit_digit (x := n / 10) (n % 10) (Nat.mod_lt n (by omega)) (by omega)
    rw [Nat.div_add_mod'] at step
    rw [List.foldlM_append, ih (by omega)]
    change (u32Digit (n / 10) (Decimal.digit (n % 10))).bind Except.ok = .ok n
    rw [step]
    rfl

/-- A number's text holds no NUL. -/
theorem cString_text (n : Nat) : cString (Decimal.text n) = Decimal.text n := by
  apply List.takeWhile_eq_self_iff.mpr
  intro c member
  have digit := Decimal.isDigit_text n c member
  rw [bne_iff_ne]
  rintro rfl
  exact absurd digit (by decide)

/-- `spictl_field_u32` returns the number of a line that is one. -/
theorem spictlFieldU32_of_field {node key : List UInt8} {v : UInt32}
    (found : spictlField node key u32Text = .ok (u v)) :
    spictlFieldU32 node key = .ok v.toNat := by
  have bound : v.toNat ≤ 0xFFFFFFFF := Nat.le_of_lt_succ v.toNat_lt
  have few := (fits_u v).short
  have some_ := Decimal.text_ne_nil v.toNat
  unfold spictlFieldU32
  rw [found]
  change (if _ then _ else _) = _
  unfold u at few ⊢
  rw [cString_text, if_neg, foldlM_u32Digit_text bound]
  rintro (empty | long | ⟨lead, more⟩)
  · exact some_ (List.eq_nil_of_length_eq_zero empty)
  · omega
  · rcases Nat.eq_zero_or_pos v.toNat with zero | pos
    · rw [zero] at more
      exact absurd more (by decide)
    · obtain ⟨c, rest, isText, notZero⟩ := Decimal.head_text pos
      rw [isText] at lead
      exact notZero lead

/-! ## Agreement -/

/-- The lines that print a `u32`, each with its number. -/
def numbers (st : State) : List (String × UInt32) :=
  [("img_len", st.img.len), ("n_writes", st.nWrites), ("inst_cmp_diff", st.inst.r.cmpDiff),
    ("ctr_attempts", st.ctr.attempts), ("ctr_done", st.ctr.done),
    ("ctr_refused", st.ctr.refused), ("ctr_failed", st.ctr.failed), ("ctr_cur", st.ctr.cur),
    ("ctr_new", st.ctr.newv), ("ctr_read", st.ctr.read), ("ctr_pp", st.ctr.pp),
    ("ctr_ms", st.ctr.ms)]

/-- The lines that print a flag, each with its `int`. -/
def flags (st : State) : List (String × Int32) :=
  [("inst_cmp_ok", st.inst.r.cmpOk), ("ctr_ran", st.ctr.ran),
    ("ctr_malformed", st.ctr.malformed)]

/-- The lines that print a name, each with the name. -/
def names (st : State) : List (String × List UInt8) :=
  [("img_err", imgErrName st.img.err), ("inst_reason", reasonName st.inst.r.reason),
    ("ctr_reason", reasonName st.ctr.reason)]

/-- A number that a table names. -/
def Named (table : List (List UInt8)) (i : Int32) : Prop :=
  0 ≤ i.toInt ∧ i.toInt < table.length

/-- The node and its reader agree in a state. -/
structure NodeAgrees (provision : Bool) (st : State) : Prop where
  instFits : (KeyLines.text (emit provision st.inst st.img st.probe cmdSe eraseGrain
    st.tickUs)).length ≤ instProcMax
  ctrFits : (KeyLines.text (emitCtr st.ctr)).length ≤ ctrProcMax
  nodeFits : (nodeReadProc provision st).length ≤ nodeMax
  oneRead : readOnce (nodeReadProc provision st) spictlPageMax = nodeReadProc provision st
  complete : ∀ e ∈ nodeLines provision st,
    CompleteLine (nodeReadProc provision st) e.key e.value
  fields : ∀ e ∈ nodeLines provision st, ∀ cap > e.value.length,
    spictlField (nodeReadProc provision st) e.key cap = .ok e.value
  numbers : ∀ n ∈ numbers st, line n.1 (u n.2) ∈ nodeLines provision st ∧
    spictlFieldU32 (nodeReadProc provision st) (ascii n.1) = .ok n.2.toNat
  flags : ∀ f ∈ flags st, line f.1 (b f.2) ∈ nodeLines provision st ∧
    spictlFieldU32 (nodeReadProc provision st) (ascii f.1) = .ok (if f.2 ≠ 0 then 1 else 0)
  names : ∀ n ∈ names st, line n.1 n.2 ∈ nodeLines provision st ∧ ∀ cap > 16,
    spictlField (nodeReadProc provision st) (ascii n.1) cap = .ok n.2
  errTold : Named iname st.img.err → ∀ j, imgErrName st.img.err = imgErrName j →
    st.img.err = j
  reasonTold : ∀ i, i = st.inst.r.reason ∨ i = st.ctr.reason → Named rname i →
    ∀ j, reasonName i = reasonName j → i = j

theorem spictlFieldU32_of_mem {provision : Bool} {st : State} {key : String} {v : UInt32}
    (member : line key (u v) ∈ nodeLines provision st) :
    spictlFieldU32 (nodeReadProc provision st) (ascii key) = .ok v.toNat := by
  have few := (fits_u v).short
  have room : (u v).length < u32Text := few.trans_lt (by decide)
  exact spictlFieldU32_of_field (spictlField_of_mem provision st member room)

/-- A flag prints as the number 0 or 1. -/
theorem b_eq_u (v : Int32) : b v = u (if v ≠ 0 then 1 else 0) := by
  unfold b
  split <;> decide

/-- The tables' names tell their numbers. -/
theorem nameOf_inj {table : List (List UInt8)} {other : List UInt8} (distinct : table.Nodup)
    (outside : other ∉ table) {i j : Int32} (named : Named table i)
    (same : nameOf table other i = nameOf table other j) : i = j := by
  obtain ⟨low, high⟩ := named
  have bound : i.toInt.toNat < table.length := by omega
  have isName : nameOf table other i = table[i.toInt.toNat] := by
    unfold nameOf
    rw [if_pos low, List.getD_eq_getElem?_getD, List.getElem?_eq_getElem bound,
      Option.getD_some]
  have inside : nameOf table other j ∈ table := by
    rw [← same, isName]
    exact List.getElem_mem bound
  unfold nameOf at inside same
  split at inside
  next jLow =>
    rw [if_pos low, if_pos jLow] at same
    rw [List.getD_eq_getElem?_getD] at inside
    cases found : table[j.toInt.toNat]? with
    | none =>
        rw [found] at inside
        exact absurd inside outside
    | some name =>
        obtain ⟨jBound, _⟩ := List.getElem?_eq_some_iff.mp found
        rw [List.getD_eq_getElem?_getD, List.getD_eq_getElem?_getD,
          List.getElem?_eq_getElem bound, List.getElem?_eq_getElem jBound] at same
        have index := (distinct.getElem_inj_iff).mp same
        exact Int32.toInt_inj.mp (by omega)
  · exact absurd inside outside

section Lines

variable (provision : Bool) (st : State)

theorem numbers_printed : ∀ n ∈ numbers st, line n.1 (u n.2) ∈ nodeLines provision st := by
  simp [numbers, nodeLines, emit, emitCtr]

theorem flags_printed : ∀ f ∈ flags st, line f.1 (b f.2) ∈ nodeLines provision st := by
  simp [flags, nodeLines, emit, emitCtr]

theorem names_printed : ∀ n ∈ names st,
    line n.1 n.2 ∈ nodeLines provision st ∧ n.2.length ≤ 16 := by
  have err := (fits_imgErrName st.img.err).short
  have reason := fun r => (fits_reasonName r).short
  simp [names, nodeLines, emit, emitCtr, reason]
  omega

end Lines

/-- In every state of the driver, the node's text fits its maximum and one read, and
the reader returns what each line was printed from. -/
theorem node_agrees (provision : Bool) (st : State) : NodeAgrees provision st where
  instFits := (emit_tabled ..).length_le.trans instRows_fit.le
  ctrFits := (emitCtr_tabled _).length_le.trans ctrRows_fit.le
  nodeFits := length_nodeReadProc_le provision st
  oneRead := readOnce_nodeReadProc provision st
  complete _ member := KeyLines.completeLine_text member
  fields _ member _ room := spictlField_of_mem provision st member room
  numbers n member :=
    have printed := numbers_printed provision st n member
    ⟨printed, spictlFieldU32_of_mem printed⟩
  flags f member := by
    have printed := flags_printed provision st f member
    have asNumber := printed
    rw [b_eq_u] at asNumber
    refine ⟨printed, (spictlFieldU32_of_mem asNumber).trans ?_⟩
    split <;> rfl
  names n member := by
    obtain ⟨printed, few⟩ := names_printed provision st n member
    exact ⟨printed, fun cap room =>
      spictlField_of_mem provision st printed (Nat.lt_of_le_of_lt few room)⟩
  errTold named _ same := nameOf_inj (by decide) (by decide) named same
  reasonTold _ _ named _ same := nameOf_inj (by decide) (by decide) named same

end RlxFw.SpiNode
