import RlxFw.ConfigValues

/-!
# The web configuration round trip

What `h_config_get` shows of a configuration, posted back in any part and order, is a
SET of the stored bytes.
-/

namespace RlxFw.Httpd

open Broker (Resp protoBe16 opGetKeys)
open CfgStore (Cfg Key cfgKeys cfgGet cfgKeyById nkeys Valid)
open Json (Member Value Writer Spacing Layout)

/-! ## What is stored and shown -/

/-- The keys that `h_config_get` asks for. -/
def shownKeys : List (Fin nkeys) :=
  (List.finRange nkeys).filter fun i => (cfgKeys i).web ≠ .hidden

/-- The value of a key: the stored one, or the default. -/
def storedValue (c : Cfg) (i : Fin nkeys) : List UInt8 :=
  ((cfgGet c (cfgKeys i).id).toOption).getD []

/-- The item of a key. -/
def storedItem (c : Cfg) (i : Fin nkeys) : List UInt8 :=
  Tlv.itemBytes (cfgKeys i).id (storedValue c i)

/-- The member that shows a key. -/
def configMember (c : Cfg) (i : Fin nkeys) : Member :=
  ⟨(cfgKeys i).name, shownValue (cfgKeys i) (storedValue c i)⟩

/-- The object of all that is shown, as the writer writes it. -/
def configLayout (c : Cfg) : Layout :=
  ⟨[], shownKeys.map fun i => (Spacing.tight, configMember c i), [], Json.blanks_nil⟩

section Shown

variable {c : Cfg} {i : Fin nkeys}

theorem cfgKeyById_id (i : Fin nkeys) : cfgKeyById (cfgKeys i).id = some (cfgKeys i) := by
  unfold CfgStore.cfgKeyById
  rw [CfgStore.cfgIndexById_id]
  rfl

theorem ne_idPwhash_of_shown (shown : (cfgKeys i).web ≠ .hidden) :
    (cfgKeys i).id ≠ CfgStore.idPwhash := by
  revert i
  decide

theorem storedValue_spec (valid : Valid c) (shown : (cfgKeys i).web ≠ .hidden) :
    cfgGet c (cfgKeys i).id = .ok (storedValue c i) ∧
      CfgStore.schemaCheckValue (cfgKeys i) (storedValue c i) = none := by
  obtain ⟨v, got, checked⟩ := valid.cfgGet i (ne_idPwhash_of_shown shown)
  have same : storedValue c i = v := by
    unfold storedValue
    rw [got]
    rfl
  rw [same]
  exact ⟨got, checked⟩

theorem storedShape (valid : Valid c) (shown : (cfgKeys i).web ≠ .hidden) :
    Shape (cfgKeys i) (storedValue c i) :=
  shape_of_checked (storedValue_spec valid shown).2

theorem length_storedValue_le (valid : Valid c) (shown : (cfgKeys i).web ≠ .hidden) :
    (storedValue c i).length ≤ 64 :=
  CfgStore.length_le_of_checked (storedValue_spec valid shown).2

theorem plainMember_config (valid : Valid c) (shown : (cfgKeys i).web ≠ .hidden) :
    Json.PlainMember (configMember c i) where
  key := (webKey_of_shown shown).name
  value := plainValue_shown (webKey_of_shown shown) (storedShape valid shown)

end Shown

/-! ## The reply to the GET -/

section Get

variable {c : Cfg}

theorem opGetKeys_shown (valid : Valid c) {ks : List (Fin nkeys)}
    (shown : ∀ i ∈ ks, (cfgKeys i).web ≠ .hidden) {out : List UInt8}
    (room : out.length + 68 * ks.length ≤ Broker.respBodyMax) :
    opGetKeys c Broker.uidHttpd (ks.map fun i => (cfgKeys i).id) out =
      { status := .ok, body := out ++ ks.flatMap (storedItem c) } := by
  induction ks generalizing out with
  | nil => rw [List.flatMap_nil, List.append_nil]; rfl
  | cons i ks ih =>
      obtain ⟨here, later⟩ := List.forall_mem_cons.mp shown
      have short := length_storedValue_le valid here
      have item : (storedItem c i).length = 4 + (storedValue c i).length :=
        Tlv.itemBytes_length _ _
      rw [List.length_cons] at room
      rw [List.map_cons, Broker.opGetKeys_cons (cfgKeyById_id i) (fun both => here both.2)
        (fun both => absurd both.1 (by decide)) (storedValue_spec valid here).1 (by omega)]
      change opGetKeys c Broker.uidHttpd _ (out ++ storedItem c i) = _
      rw [ih later (by rw [List.length_append]; omega), List.flatMap_cons, List.append_assoc]

theorem getIds_shownIds :
    Broker.getIds shownIds = shownKeys.map fun i => (cfgKeys i).id := by
  decide

theorem mem_shownKeys {i : Fin nkeys} : i ∈ shownKeys ↔ (cfgKeys i).web ≠ .hidden := by
  simp [shownKeys]

/-- The broker replies with every item that is shown. -/
theorem opGet_shownIds (valid : Valid c) {rq : Broker.Req} (asks : rq.body = shownIds) :
    Broker.opGet rq Broker.uidHttpd c =
      { status := .ok, body := shownKeys.flatMap (storedItem c) } := by
  have length : shownIds.length = 30 := by decide
  unfold Broker.opGet
  rw [asks, if_neg (by rw [length]; decide), if_neg (by rw [length]; decide),
    getIds_shownIds, opGetKeys_shown valid (fun i => mem_shownKeys.mp)
      (by rw [List.length_nil]; decide), List.nil_append]

end Get

/-! ## The object -/

section Object

variable {c : Cfg}

/-- An item is taken off the front of a body. -/
theorem configLoop_item (valid : Valid c) {i : Fin nkeys}
    (shown : (cfgKeys i).web ≠ .hidden) (turns : Nat) (rest : List UInt8) (w : Writer) :
    configLoop (turns + 1) (storedItem c i ++ rest) w =
      configLoop turns rest (w.member (configMember c i)) := by
  have short := length_storedValue_le valid shown
  have small := CfgStore.cfgKeys_id_lt i
  have item : (storedItem c i).length = 4 + (storedValue c i).length :=
    Tlv.itemBytes_length _ _
  have id : protoBe16 (storedItem c i ++ rest) 0 = (cfgKeys i).id := by
    have read := Tlv.getBe16_ofList small []
      (Tlv.putBe16 (storedValue c i).length ++ storedValue c i ++ rest) 0
    simpa [storedItem, Tlv.itemBytes, Broker.protoBe16] using read
  have len : protoBe16 (storedItem c i ++ rest) 2 = (storedValue c i).length := by
    have read := Tlv.getBe16_ofList (show (storedValue c i).length < 2 ^ 16 by omega)
      (Tlv.putBe16 (cfgKeys i).id) (storedValue c i ++ rest) 0
    simpa [storedItem, Tlv.itemBytes, Broker.protoBe16] using read
  have value : ((storedItem c i ++ rest).drop 4).take (storedValue c i).length =
      storedValue c i := by
    have front : storedItem c i ++ rest =
        (Tlv.putBe16 (cfgKeys i).id ++ Tlv.putBe16 (storedValue c i).length) ++
          (storedValue c i ++ rest) := by
      simp [storedItem, Tlv.itemBytes]
    have header : (Tlv.putBe16 (cfgKeys i).id ++
        Tlv.putBe16 (storedValue c i).length).length = 4 := rfl
    rw [front, List.drop_left' header, List.take_left' rfl]
  have after : (storedItem c i ++ rest).drop (4 + (storedValue c i).length) = rest :=
    List.drop_left' item
  rw [configLoop, if_neg (by rw [List.length_append]; omega)]
  dsimp only
  rw [len, if_neg (by rw [List.length_append]; omega), id, cfgKeyById_id]
  dsimp only
  rw [if_neg shown, value, after,
    writeShown_eq (webKey_of_shown shown) (storedShape valid shown)]
  rfl

/-- The loop writes a member for every item. -/
theorem configLoop_items (valid : Valid c) {ks : List (Fin nkeys)}
    (shown : ∀ i ∈ ks, (cfgKeys i).web ≠ .hidden) {turns : Nat} (enough : ks.length ≤ turns)
    (w : Writer) :
    configLoop turns (ks.flatMap (storedItem c)) w =
      ks.foldl (fun w i => w.member (configMember c i)) w := by
  induction ks generalizing turns w with
  | nil => cases turns <;> rfl
  | cons i ks ih =>
      obtain ⟨here, later⟩ := List.forall_mem_cons.mp shown
      rw [List.length_cons] at enough
      obtain ⟨turns, rfl⟩ : ∃ n, turns = n + 1 := ⟨turns - 1, by omega⟩
      rw [List.flatMap_cons, configLoop_item valid here, List.foldl_cons,
        ih later (by omega)]

theorem length_member_le (valid : Valid c) {i : Fin nkeys}
    (shown : (cfgKeys i).web ≠ .hidden) :
    (Spacing.tight.text (configMember c i)).length ≤ 81 := by
  have names : ∀ i : Fin nkeys, (cfgKeys i).name.length ≤ 12 := by decide
  have name := names i
  have webKey := webKey_of_shown shown
  have value := length_shown_le webKey (storedShape valid shown)
  unfold Spacing.text configMember
  rw [webKey.name.valueText]
  simp only [Spacing.tight, List.length_append, List.length_cons, List.length_nil]
  omega

/-- The members of keys, written one after the other. -/
theorem holds_members (valid : Valid c) {cap : Nat} {ks : List (Fin nkeys)}
    (shown : ∀ i ∈ ks, (cfgKeys i).web ≠ .hidden) (ps : List (Spacing × Member)) {w : Writer}
    (holds : w.Holds cap (0x7B :: Json.bodyText ps) ps.length)
    (room : (0x7B :: Json.bodyText ps).length + 82 * ks.length + 1 ≤ cap) :
    (ks.foldl (fun w i => w.member (configMember c i)) w).Holds cap
        (0x7B :: Json.bodyText (ps ++ ks.map fun i => (Spacing.tight, configMember c i)))
        (ps.length + ks.length) ∧
      (0x7B :: Json.bodyText
          (ps ++ ks.map fun i => (Spacing.tight, configMember c i))).length ≤
        (0x7B :: Json.bodyText ps).length + 82 * ks.length := by
  induction ks generalizing ps w with
  | nil =>
      rw [List.map_nil, List.append_nil]
      exact ⟨holds, le_rfl⟩
  | cons i ks ih =>
      obtain ⟨here, later⟩ := List.forall_mem_cons.mp shown
      have short := length_member_le valid here
      have few := Json.length_separator ps.length
      have more : (i :: ks).length = ks.length + 1 := rfl
      rw [more] at room ⊢
      have step := holds.member (plainMember_config valid here) (by omega)
      have text : 0x7B :: Json.bodyText ps ++
          (Json.separator ps.length ++ Spacing.tight.text (configMember c i)) =
          0x7B :: Json.bodyText (ps ++ [(Spacing.tight, configMember c i)]) := by
        rw [Json.bodyText_snoc, List.cons_append]
      rw [text] at step
      have longer : (0x7B :: Json.bodyText
          (ps ++ [(Spacing.tight, configMember c i)])).length ≤
          (0x7B :: Json.bodyText ps).length + 82 := by
        rw [← text, List.length_append, List.length_append]
        omega
      have count : (ps ++ [(Spacing.tight, configMember c i)]).length = ps.length + 1 := by
        simp
      rw [← count] at step
      obtain ⟨holds', longer'⟩ := ih later _ step (by omega)
      rw [List.append_assoc, count] at holds'
      rw [List.append_assoc] at longer'
      rw [List.foldl_cons]
      refine ⟨?_, ?_⟩
      · rw [show ps.length + (ks.length + 1) = ps.length + 1 + ks.length by omega]
        exact holds'
      · refine longer'.trans ?_
        omega

/-- A writer that has just opened its object. -/
theorem holds_objOpen (cap : Nat) (room : 2 ≤ cap) :
    (Writer.init cap).objOpen.Holds cap [0x7B] 0 := by
  have init : (Writer.init cap).Holds cap [] 0 := by
    refine ⟨?_, rfl, rfl, rfl⟩
    change (cap == 0) = false
    rw [beq_eq_false_iff_ne]
    omega
  have opened := init.put (s := [0x7B]) room
  exact ⟨opened.err, opened.cap, opened.buf, rfl⟩

theorem length_le_flatMap {f : Fin nkeys → List UInt8} (some_ : ∀ i, 1 ≤ (f i).length)
    (ks : List (Fin nkeys)) : ks.length ≤ (ks.flatMap f).length := by
  induction ks with
  | nil => exact le_rfl
  | cons i ks ih =>
      have here := some_ i
      rw [List.flatMap_cons, List.length_append, List.length_cons]
      omega

theorem length_shownKeys : shownKeys.length = 15 := by
  decide

/-- The object fits its buffer, whole. -/
theorem configObject_reply (valid : Valid c) :
    (configObject (shownKeys.flatMap (storedItem c))).err = false ∧
      (configObject (shownKeys.flatMap (storedItem c))).buf = (configLayout c).text ∧
      (configLayout c).text.length ≤ 1232 := by
  have shown : ∀ i ∈ shownKeys, (cfgKeys i).web ≠ .hidden := fun i => mem_shownKeys.mp
  have enough : shownKeys.length ≤ (shownKeys.flatMap (storedItem c)).length := by
    refine length_le_flatMap (fun i => ?_) shownKeys
    rw [storedItem, Tlv.itemBytes_length]
    exact Nat.le_add_right_of_le (by decide)
  obtain ⟨holds, short⟩ := holds_members (c := c) valid shown []
    (holds_objOpen 2048 (by decide))
    (by rw [length_shownKeys]; decide)
  rw [length_shownKeys] at short
  have closed := holds.put (s := [0x7D]) (by
    refine le_trans (Nat.add_le_add_right (Nat.add_le_add_right short _) _) ?_
    decide)
  have loop := configLoop_items valid shown enough (Writer.init 2048).objOpen
  unfold configObject
  rw [loop]
  have whole : (configLayout c).text.length =
      (0x7B :: Json.bodyText ([] ++ shownKeys.map fun i =>
        (Spacing.tight, configMember c i))).length + 1 := by
    simp [Layout.text, configLayout]
  refine ⟨closed.err, closed.buf, ?_⟩
  rw [whole]
  exact Nat.add_le_add_right short 1

end Object

/-! ## The order of the ids -/

theorem insertId_perm (order : List Nat) (v : Nat) : (insertId order v).Perm (v :: order) := by
  unfold insertId
  refine List.perm_middle.trans (List.Perm.cons v ?_)
  rw [List.rdropWhile_append_rtakeWhile]

theorem insertId_sorted {order : List Nat} (sorted : order.Pairwise (· ≤ ·)) (v : Nat) :
    (insertId order v).Pairwise (· ≤ ·) := by
  have whole := List.rdropWhile_append_rtakeWhile (p := fun x => decide (x > v)) (l := order)
  have parts := sorted
  rw [← whole, List.pairwise_append] at parts
  obtain ⟨low, high, across⟩ := parts
  have above : ∀ x ∈ order.rtakeWhile fun x => decide (x > v), v ≤ x := by
    intro x member
    have passed := List.mem_rtakeWhile_imp member
    simp only [decide_eq_true_eq] at passed
    omega
  -- the last one of the front is not above, and the others are not above it
  have below : ∀ x ∈ order.rdropWhile fun x => decide (x > v), x ≤ v := by
    intro x member
    have some_ : order.rdropWhile (fun x => decide (x > v)) ≠ [] := List.ne_nil_of_mem member
    have last := List.rdropWhile_last_not _ _ some_
    simp only [decide_eq_true_eq] at last
    have split := List.dropLast_append_getLast some_
    rw [← split, List.pairwise_append] at low
    rw [← split] at member
    rcases List.mem_append.mp member with inside | isLast
    · have le := low.2.2 x inside _ (List.mem_singleton_self _)
      omega
    · rw [List.mem_singleton.mp isLast]
      omega
  unfold insertId
  rw [List.pairwise_append, List.pairwise_cons]
  refine ⟨low, ⟨above, high⟩, fun x inLow y inRest => ?_⟩
  rcases List.mem_cons.mp inRest with rfl | inHigh
  · exact below x inLow
  · exact across x inLow y inHigh

/-- The insertion sort sorts. -/
theorem insertIds_spec (ids : List Nat) {order : List Nat} (sorted : order.Pairwise (· ≤ ·)) :
    (ids.foldl insertId order).Perm (order ++ ids) ∧
      (ids.foldl insertId order).Pairwise (· ≤ ·) := by
  induction ids generalizing order with
  | nil => exact ⟨by rw [List.append_nil]; rfl, sorted⟩
  | cons id ids ih =>
      obtain ⟨perm, sorted'⟩ := ih (insertId_sorted sorted id)
      refine ⟨perm.trans ?_, sorted'⟩
      exact ((insertId_perm order id).append_right ids).trans List.perm_middle.symm

/-- Keys in the order in which a SET names them. -/
def Ascending (ks : List (Fin nkeys)) : Prop :=
  ks.Pairwise fun i j => (cfgKeys i).id < (cfgKeys j).id

/-- The ids of distinct keys come out as those of the keys, ascending. -/
theorem exists_ascending {chosen : List (Fin nkeys)} (distinct : chosen.Nodup) :
    ∃ ks : List (Fin nkeys), ks.Perm chosen ∧ Ascending ks ∧
      (chosen.map fun i => (cfgKeys i).id).foldl insertId [] =
        ks.map fun i => (cfgKeys i).id := by
  obtain ⟨perm, sorted⟩ := insertIds_spec (chosen.map fun i => (cfgKeys i).id) List.Pairwise.nil
  rw [List.nil_append] at perm
  generalize (chosen.map fun i => (cfgKeys i).id).foldl insertId [] = ids at perm sorted
  have known : ∀ id ∈ ids, ∃ i, CfgStore.cfgIndexById id = some i ∧ (cfgKeys i).id = id := by
    intro id member
    obtain ⟨i, -, rfl⟩ := List.mem_map.mp (perm.mem_iff.mp member)
    exact ⟨i, CfgStore.cfgIndexById_id i, rfl⟩
  have back : (ids.filterMap CfgStore.cfgIndexById).map (fun i => (cfgKeys i).id) = ids := by
    clear perm sorted
    induction ids with
    | nil => rfl
    | cons id ids ih =>
        obtain ⟨here, later⟩ := List.forall_mem_cons.mp known
        obtain ⟨i, found, isId⟩ := here
        rw [List.filterMap_cons_some found, List.map_cons, isId, ih later]
  have keys : (ids.filterMap CfgStore.cfgIndexById).Perm chosen := by
    have filtered := perm.filterMap CfgStore.cfgIndexById
    have same : (chosen.map fun i => (cfgKeys i).id).filterMap CfgStore.cfgIndexById =
        chosen := by
      rw [List.filterMap_map]
      have each : CfgStore.cfgIndexById ∘ (fun i => (cfgKeys i).id) = some :=
        funext CfgStore.cfgIndexById_id
      rw [each, List.filterMap_some]
    rwa [same] at filtered
  refine ⟨_, keys, ?_, back.symm⟩
  have injective : ∀ i j : Fin nkeys, (cfgKeys i).id = (cfgKeys j).id → i = j := by decide
  have apart := keys.nodup_iff.mpr distinct
  rw [← back, List.pairwise_map] at sorted
  refine (sorted.and apart).imp fun both => ?_
  exact lt_of_le_of_ne both.1 fun same => both.2 (injective _ _ same)

/-! ## The SET -/

section Set

variable {c : Cfg} {chosen : List (Fin nkeys)}

theorem resolve_config (rs : Rsp) {i : Fin nkeys} (writable : (cfgKeys i).web = .rw) :
    resolve rs (configMember c i) = .ok (cfgKeys i).id := by
  have found : ∀ i : Fin nkeys, cfgKeyByName (cfgKeys i).name = some (cfgKeys i) := by
    decide
  unfold resolve
  rw [show (configMember c i).key = (cfgKeys i).name from rfl, found i]
  dsimp only
  rw [if_neg (not_not.mpr writable)]

theorem resolve_all (rs : Rsp) (writable : ∀ i ∈ chosen, (cfgKeys i).web = .rw) :
    (chosen.map (configMember c)).mapM (resolve rs) =
      .ok (chosen.map fun i => (cfgKeys i).id) := by
  induction chosen with
  | nil => rfl
  | cons i chosen ih =>
      obtain ⟨here, later⟩ := List.forall_mem_cons.mp writable
      rw [List.map_cons, List.mapM_cons, resolve_config rs here, ih later]
      rfl

/-- A key finds its member among those of the chosen keys. -/
theorem jsonGet_config {i : Fin nkeys} (member : i ∈ chosen)
    (shown : (cfgKeys i).web ≠ .hidden) :
    Json.jsonGet (chosen.map (configMember c)) (cfgKeys i).name = some (configMember c i) := by
  have injective : ∀ i j : Fin nkeys, (cfgKeys i).name = (cfgKeys j).name → i = j := by
    decide
  have short := (webKey_of_shown shown).name.short
  unfold Json.jsonGet
  rw [if_neg (by omega)]
  clear short
  induction chosen with
  | nil => cases member
  | cons j chosen ih =>
      rw [List.map_cons, List.find?_cons]
      by_cases same : i = j
      · subst same
        rw [show ((configMember c i).key == (cfgKeys i).name) = true from beq_self_eq_true _]
      · have other : ((configMember c j).key == (cfgKeys i).name) = false := by
          rw [beq_eq_false_iff_ne]
          exact fun equal => same (injective _ _ equal).symm
        rw [other]
        exact ih ((List.mem_cons.mp member).resolve_left same)

/-- The loop of `h_config_set` writes the stored item of every key. -/
theorem setLoop_config (valid : Valid c) (rs : Rsp) {ks : List (Fin nkeys)}
    (among : ∀ i ∈ ks, i ∈ chosen) (writable : ∀ i ∈ ks, (cfgKeys i).web = .rw)
    {tlv : List UInt8} (room : tlv.length + 68 * ks.length ≤ Broker.reqBodyMax) :
    setLoop rs (chosen.map (configMember c)) (ks.map fun i => (cfgKeys i).id) tlv =
      .ok (tlv ++ ks.flatMap (storedItem c)) := by
  induction ks generalizing tlv with
  | nil => rw [List.map_nil, setLoop, List.flatMap_nil, List.append_nil]
  | cons i ks ih =>
      obtain ⟨here, later⟩ := List.forall_mem_cons.mp among
      obtain ⟨isRw, restRw⟩ := List.forall_mem_cons.mp writable
      have shown : (cfgKeys i).web ≠ .hidden := by rw [isRw]; decide
      have webKey := webKey_of_shown shown
      have short := length_storedValue_le valid shown
      have item : (storedItem c i).length = 4 + (storedValue c i).length :=
        Tlv.itemBytes_length _ _
      have most : CfgStore.valMax = 64 := rfl
      rw [List.length_cons] at room
      have value := memberToValue_shown webKey isRw (storedShape valid shown)
        (Broker.reqBodyMax - tlv.length - 4) (by omega)
      rw [List.map_cons, setLoop, cfgKeyById_id]
      dsimp only
      rw [jsonGet_config here shown]
      dsimp only
      rw [if_neg (by omega)]
      rw [show (configMember c i).value = shownValue (cfgKeys i) (storedValue c i) from rfl, value]
      dsimp only
      change setLoop rs _ _ (tlv ++ storedItem c i) = _
      rw [ih later restRw (by rw [List.length_append]; omega), List.flatMap_cons,
        List.append_assoc]

end Set

/-! ## The round trip -/

/-- The broker's reply to a GET that the web asks for. -/
def getReply (rq : Broker.Req) (c : Cfg) (ids : List UInt8) : Option Resp :=
  some (Broker.opGet { rq with body := ids } Broker.uidHttpd c)

/-- The answer that holds the object. -/
def shownBody (c : Cfg) : List UInt8 :=
  0x7B :: (ascii "\"ok\":true,\"config\":" ++ ((configLayout c).text ++ [0x7D]))

/-- The members of keys, posted without blanks. -/
def tightLayout (c : Cfg) (chosen : List (Fin nkeys)) : Layout :=
  ⟨[], chosen.map fun i => (Spacing.tight, configMember c i), [], Json.blanks_nil⟩

/-- What is shown of a configuration, and what any part of it comes to when it is
posted: the members in any order, with any blanks. -/
structure RoundTrips (c : Cfg) : Prop where
  shown : ∀ rs rq, hConfigGet rs (getReply rq c) =
    { rs with status := 200, nostore := true, body := shownBody c }
  stored : ∀ i ∈ shownKeys, cfgGet c (cfgKeys i).id = .ok (storedValue c i)
  fits : ∀ chosen : List (Fin nkeys), chosen.Nodup → (∀ i ∈ chosen, (cfgKeys i).web = .rw) →
    (tightLayout c chosen).text.length ≤ Json.docMax
  posted : ∀ chosen : List (Fin nkeys), chosen ≠ [] → chosen.Nodup →
    (∀ i ∈ chosen, (cfgKeys i).web = .rw) →
    ∀ d : Layout, d.members.map Prod.snd = chosen.map (configMember c) →
      d.text.length ≤ Json.docMax →
      ∃ ks : List (Fin nkeys), ks.Perm chosen ∧ Ascending ks ∧
        ∀ rs, configSetBody rs d.text = .ok (ks.flatMap (storedItem c))

section RoundTrip

variable {c : Cfg}

theorem hConfigGet_shown (valid : Valid c) (rs : Rsp) (rq : Broker.Req) :
    hConfigGet rs (getReply rq c) =
      { rs with status := 200, nostore := true, body := shownBody c } := by
  obtain ⟨err, buf, short⟩ := configObject_reply valid
  have get : getReply rq c shownIds =
      some { status := .ok, body := shownKeys.flatMap (storedItem c) } :=
    congrArg some (opGet_shownIds valid rfl)
  have opened := holds_objOpen rspBodyMax (by decide)
  have ok := opened.member (m := ⟨ascii "ok", .bool true⟩) ⟨by decide, trivial⟩
    (by decide)
  have front : [0x7B] ++ (Json.separator 0 ++
      Spacing.tight.text ⟨ascii "ok", .bool true⟩) = 0x7B :: ascii "\"ok\":true" := by
    decide
  rw [front] at ok
  have config := ok.key (ascii "config") (by decide)
  have named : 0x7B :: ascii "\"ok\":true" ++ Json.separator (0 + 1) ++ [0x22] ++
      ascii "config" ++ [0x22, 0x3A] = 0x7B :: ascii "\"ok\":true,\"config\":" := by
    decide
  rw [named] at config
  have length : (0x7B :: ascii "\"ok\":true,\"config\":" : List UInt8).length = 20 := by
    decide
  have most : rspBodyMax = 6144 := rfl
  have object := config.put (s := (configLayout c).text) (by omega)
  have closed := object.put (s := [0x7D]) (by
    rw [List.length_append, List.length_singleton]
    omega)
  unfold hConfigGet callBroker
  rw [get]
  dsimp only
  rw [if_neg (by simp)]
  dsimp only
  rw [err, buf, if_neg (by decide)]
  change bodyJson _ (((((Writer.init rspBodyMax).objOpen.member
    ⟨ascii "ok", .bool true⟩).key (ascii "config")).put (configLayout c).text).put [0x7D]) = _
  unfold bodyJson
  rw [closed.err, closed.buf, if_neg (by decide)]
  unfold shownBody
  rw [List.append_assoc, List.cons_append]

theorem length_tightLayout_le (valid : Valid c) {chosen : List (Fin nkeys)}
    (distinct : chosen.Nodup) (writable : ∀ i ∈ chosen, (cfgKeys i).web = .rw) :
    (tightLayout c chosen).text.length ≤ Json.docMax := by
  have few : chosen.length ≤ 16 := by
    simpa using distinct.length_le_card
  have shown : ∀ i ∈ chosen, (cfgKeys i).web ≠ .hidden := fun i member => by
    rw [writable i member]
    decide
  have short := (holds_members (c := c) valid shown []
    (holds_objOpen 4096 (by decide)) (by simp [Json.bodyText]; omega)).2
  have whole : (tightLayout c chosen).text.length =
      (0x7B :: Json.bodyText ([] ++ chosen.map fun i =>
        (Spacing.tight, configMember c i))).length + 1 := by
    simp [Layout.text, tightLayout]
  have first : (0x7B :: Json.bodyText [] : List UInt8).length = 1 := rfl
  have most : Json.docMax = 4096 := rfl
  omega

theorem readable_chosen (valid : Valid c) {chosen : List (Fin nkeys)}
    (distinct : chosen.Nodup) (writable : ∀ i ∈ chosen, (cfgKeys i).web = .rw) {d : Layout}
    (members : d.members.map Prod.snd = chosen.map (configMember c))
    (short : d.text.length ≤ Json.docMax) : d.Readable where
  plain p member := by
    have among := List.mem_map_of_mem (f := Prod.snd) member
    rw [members] at among
    obtain ⟨i, inChosen, same⟩ := List.mem_map.mp among
    rw [← same]
    exact plainMember_config valid (by rw [writable i inChosen]; decide)
  distinct := by
    have injective : ∀ i j : Fin nkeys, (cfgKeys i).name = (cfgKeys j).name → i = j := by
      decide
    rw [members, List.map_map]
    exact distinct.map fun i j same => injective i j same
  few := by
    have count := congrArg List.length members
    rw [List.length_map, List.length_map] at count
    have few : chosen.length ≤ 16 := by simpa using distinct.length_le_card
    have most : Json.keysMax = 24 := rfl
    omega
  short := short

theorem configSetBody_posted (valid : Valid c) {chosen : List (Fin nkeys)}
    (some_ : chosen ≠ []) (distinct : chosen.Nodup)
    (writable : ∀ i ∈ chosen, (cfgKeys i).web = .rw) {d : Layout}
    (members : d.members.map Prod.snd = chosen.map (configMember c))
    (short : d.text.length ≤ Json.docMax) :
    ∃ ks : List (Fin nkeys), ks.Perm chosen ∧ Ascending ks ∧
      ∀ rs, configSetBody rs d.text = .ok (ks.flatMap (storedItem c)) := by
  obtain ⟨ks, perm, ascending, ids⟩ := exists_ascending distinct
  have few : ks.length ≤ 16 := by
    rw [perm.length_eq]
    simpa using distinct.length_le_card
  have parsed := (readable_chosen valid distinct writable members short).parse
  refine ⟨ks, perm, ascending, fun rs => ?_⟩
  have count : (chosen.map (configMember c)).length ≠ 0 := by
    rw [List.length_map]
    exact fun zero => some_ (List.eq_nil_of_length_eq_zero zero)
  have set : setLoop rs (chosen.map (configMember c)) _ [] = _ :=
    setLoop_config valid rs (fun _ => perm.mem_iff.mp)
      (fun i member => writable i (perm.mem_iff.mp member))
      (by
        have most : Broker.reqBodyMax = 2048 := rfl
        rw [List.length_nil]
        omega)
  unfold configSetBody
  rw [parsed, members]
  dsimp only
  rw [if_neg count, resolve_all rs writable]
  dsimp only
  rw [ids, set, List.nil_append]

end RoundTrip

/-- Every part of what the web is shown of a configuration, posted back, sets the
stored bytes of its keys. -/
theorem config_round_trip (c : Cfg) (valid : Valid c) : RoundTrips c where
  shown := hConfigGet_shown valid
  stored _ member := (storedValue_spec valid (mem_shownKeys.mp member)).1
  fits _ distinct writable := length_tightLayout_le valid distinct writable
  posted _ some_ distinct writable _ members short :=
    configSetBody_posted valid some_ distinct writable members short

/-- The defaults go round. -/
theorem config_round_trip_cfgDefaults : RoundTrips CfgStore.cfgDefaults :=
  config_round_trip CfgStore.cfgDefaults CfgStore.valid_cfgDefaults

end RlxFw.Httpd
