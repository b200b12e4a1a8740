import RlxFw.ConfigValues
import RlxFw.Upload

/-!
# What an upload forwards

The pieces that are sent are cut one after the other from what was read before and
the stream behind it.  Nothing follows a call that went wrong, so `UPDATE_END` is sent
only when every piece was acknowledged.
-/

namespace RlxFw.Httpd

open Broker (Req Resp opUpdateBeginId opUpdateDataId opUpdateEndId protoBe32)
open Emission (Accounts accounts_pure accounts_stop accounts_ask)

/-! ## Reading the calls -/

/-- The call of an operation. -/
def UpEvent.Calls (op : Nat) : UpEvent → Prop
  | .call q _ => q.op = op
  | _ => False

/-- A call that went as it should: some bytes of the stream, or a reply that is OK and
that, of a piece, names all that was sent so far. -/
def UpEvent.Good : UpEvent → Prop
  | .read got => ∃ bytes, got = .bytes bytes ∧ bytes ≠ []
  | .call q reply => ∃ br, reply = some br ∧ br.status = .ok ∧
      (q.op = opUpdateDataId →
        upReceived br = some (protoBe32 q.body 0 + (q.body.length - 4)))
  | _ => True

/-- The body of a piece. -/
def UpEvent.data : UpEvent → List (List UInt8)
  | .call q _ => if q.op = opUpdateDataId then [q.body] else []
  | _ => []

/-- The bytes of a read. -/
def UpEvent.stream : UpEvent → List UInt8
  | .read (.bytes bytes) => bytes
  | _ => []

/-- The bodies of the pieces that were sent. -/
def pieces (events : List UpEvent) : List (List UInt8) := events.flatMap UpEvent.data

/-- The bytes of the stream that were read. -/
def streamed (events : List UpEvent) : List UInt8 := events.flatMap UpEvent.stream

/-- What the pieces carry behind their offsets. -/
def payload (events : List UpEvent) : List UInt8 := (pieces events).flatMap (List.drop 4)

/-- The offset that a piece names, and how long it is. -/
def cut (body : List UInt8) : Nat × Nat := (protoBe32 body 0, body.length - 4)

@[simp]
theorem pieces_append (early late : List UpEvent) :
    pieces (early ++ late) = pieces early ++ pieces late :=
  List.flatMap_append

@[simp]
theorem streamed_append (early late : List UpEvent) :
    streamed (early ++ late) = streamed early ++ streamed late :=
  List.flatMap_append

@[simp]
theorem payload_append (early late : List UpEvent) :
    payload (early ++ late) = payload early ++ payload late := by
  simp [payload]

/-- What an upload of a declared length promises of the calls it made. -/
structure Forwards (total : Nat) (pre : List UInt8) (events : List UpEvent) : Prop where
  /-- Nothing follows a call that went wrong. -/
  smooth : ∀ e ∈ events.dropLast, e.Good
  /-- END is the last call, so it is sent at most once. -/
  last : ∀ e ∈ events.dropLast, ¬ e.Calls opUpdateEndId
  /-- The offsets tile the length, and each piece but the last is full-sized. -/
  tiles : (pieces events).map cut =
    (List.range (pieces events).length).map fun i =>
      (i * updDataMax, pieceLen total (i * updDataMax))
  /-- No piece is empty. -/
  inside : ∀ i < (pieces events).length, i * updDataMax < total
  /-- What the pieces carry is what was read, from its first byte. -/
  content : payload events = (pre ++ streamed events).take (payload events).length
  /-- END is sent behind the whole body. -/
  whole : (∃ e ∈ events, e.Calls opUpdateEndId) →
    payload events = (pre ++ streamed events).take total ∧ (payload events).length = total
  /-- An upload on which nothing went wrong sends the whole body, and END unless too
  little was left of the alarm. -/
  finishes : events ≠ [] → (∀ e ∈ events, e.Good) →
    (payload events).length = total ∧
      ((∃ e ∈ events, e.Calls opUpdateEndId) ∨
        ∃ left < uploadEndNeedS, UpEvent.alarm 0 left ∈ events)

/-! ## Reads -/

/-- Reads that filled a piece, with what is left of the bytes read before. -/
structure Filled (want : Nat) (held pre : List UInt8) (filled : List UInt8 × List UInt8)
    (ops : List UpEvent) : Prop where
  reads : ∀ e ∈ ops, ∃ bytes, e = .read (.bytes bytes) ∧ bytes ≠ []
  length : filled.1.length = want
  content : filled.1 ++ filled.2 = held ++ pre ++ streamed ops

/-- Reads of which the last went wrong. -/
structure CutShort (ops : List UpEvent) : Prop where
  reads : ∀ e ∈ ops, ∃ got, e = .read got
  smooth : ∀ e ∈ ops.dropLast, e.Good
  wrong : ∃ e ∈ ops, ¬ e.Good

/-- A read that goes wrong gives no bytes. -/
theorem cutShort_single {got : Got} (wrong : ¬ (UpEvent.read got).Good) :
    CutShort [.read got] where
  reads := by simp
  smooth := by simp
  wrong := ⟨_, List.mem_singleton_self _, wrong⟩

theorem CutShort.cons {bytes : List UInt8} (some_ : bytes ≠ []) {ops : List UpEvent}
    (short : CutShort ops) : CutShort (.read (.bytes bytes) :: ops) where
  reads := by
    simp only [List.mem_cons, forall_eq_or_imp]
    exact ⟨⟨_, rfl⟩, short.reads⟩
  smooth := by
    obtain ⟨e, member, -⟩ := short.wrong
    rw [List.dropLast_cons_of_ne_nil (List.ne_nil_of_mem member)]
    simp only [List.mem_cons, forall_eq_or_imp]
    exact ⟨⟨bytes, rfl, some_⟩, short.smooth⟩
  wrong := by
    obtain ⟨e, member, wrong⟩ := short.wrong
    exact ⟨e, List.mem_cons_of_mem _ member, wrong⟩

section Client

variable {World : Type} (out : Outside World)

theorem upRead_accounts (fd : Int) (n : Nat) :
    (upRead out fd n).Accounts
      (fun got ops => ops = [.read got] ∧ ∀ bytes, got = .bytes bytes → bytes.length ≤ n)
      fun _ _ => False := by
  refine accounts_ask fun world => ⟨rfl, fun bytes => ?_⟩
  split
  · rintro ⟨⟩
    exact Nat.zero_le n
  · exact out.read_le n world bytes

/-- A call that returns was answered OK. -/
theorem upCall_accounts (rs : Reply) (q : Req) :
    (upCall out rs q).Accounts
      (fun br ops => ops = [.call q (some br)] ∧ br.status = .ok)
      fun _ ops => ∃ reply, ops = [.call q reply] ∧ ¬ (UpEvent.call q reply).Good := by
  have asked : (Emission.ask (out.call q) (.call q) : Upload World (Option Resp)).Accounts
      (fun reply ops => ops = [.call q reply]) fun _ _ => False :=
    accounts_ask fun _ => rfl
  refine asked.bind ?_ fun _ _ never => never.elim
  rintro (_ | br) ops rfl
  · refine accounts_stop ⟨none, rfl, ?_⟩
    rintro ⟨br, ⟨⟩, -⟩
  · apply Accounts.ite
    · intro refused
      refine accounts_stop ⟨some br, rfl, ?_⟩
      rintro ⟨br, ⟨⟩, ok, -⟩
      exact refused ok
    · intro ok
      exact accounts_pure ⟨rfl, not_not.mp ok⟩

/-- A piece is filled to its length, or the reads stop at one that goes wrong. -/
theorem fill_accounts (rs : Reply) (fd : Int) (want : Nat) (held pre : List UInt8)
    (room : held.length ≤ want) :
    (fill out rs fd want held pre).Accounts (Filled want held pre)
      fun _ ops => CutShort ops := by
  induction held, pre using fill.induct want with
  | case1 held pre before short c rest isCons ih =>
      subst isCons
      rw [fill.eq_def, if_pos short]
      refine (ih ?_).weaken ?_ fun _ _ => id
      · rw [List.length_append, List.length_take]
        omega
      · rintro filled ops ⟨reads, length, content⟩
        refine ⟨reads, length, content.trans ?_⟩
        rw [List.append_assoc held, List.take_append_drop]
  | case2 held pre before short isNil ih =>
      subst isNil
      rw [fill, if_pos short]
      refine (upRead_accounts out fd _).bind ?_ fun _ _ never => never.elim
      rintro got ops ⟨rfl, bounded⟩
      rcases got with (_ | ⟨c, read⟩) | _ | _
      · refine accounts_stop (cutShort_single ?_)
        rintro ⟨bytes, ⟨⟩, nonempty⟩
        exact nonempty rfl
      · have fits := bounded _ rfl
        refine (ih c read ?_).weaken ?_ fun _ _ => CutShort.cons (List.cons_ne_nil c read)
        · rw [List.length_append]
          omega
        · rintro filled ops ⟨reads, length, content⟩
          refine ⟨?_, length, ?_⟩
          · simp only [List.cons_append, List.nil_append, List.mem_cons, forall_eq_or_imp]
            exact ⟨⟨_, rfl, List.cons_ne_nil c read⟩, reads⟩
          · rw [streamed_append, content]
            simp [streamed, UpEvent.stream]
      · exact accounts_stop (cutShort_single (by rintro ⟨bytes, ⟨⟩, -⟩))
      · exact accounts_stop (cutShort_single (by rintro ⟨bytes, ⟨⟩, -⟩))
  | case3 held pre full =>
      rw [fill.eq_def, if_neg full]
      refine accounts_pure ⟨by simp, by dsimp only; omega, by simp [streamed]⟩

end Client

/-! ## The pieces -/

/-- How far the pieces reached: to an offset, with what was read and not sent. -/
structure Reached (total : Nat) (pre : List UInt8) (off : Nat) (rest : List UInt8)
    (events : List UpEvent) : Prop where
  tiles : (pieces events).map cut =
    (List.range (pieces events).length).map fun i =>
      (i * updDataMax, pieceLen total (i * updDataMax))
  inside : ∀ i < (pieces events).length, i * updDataMax < total
  off_eq : off = min ((pieces events).length * updDataMax) total
  content : payload events ++ rest = pre ++ streamed events
  length : (payload events).length = off

/-- Everything went as it should so far, and END was not sent. -/
structure Going (total : Nat) (pre : List UInt8) (off : Nat) (rest : List UInt8)
    (events : List UpEvent) : Prop where
  reached : Reached total pre off rest events
  good : ∀ e ∈ events, e.Good
  noEnd : ∀ e ∈ events, ¬ e.Calls opUpdateEndId

/-- An upload that ended before END at a call that went wrong. -/
structure Halted (total : Nat) (pre : List UInt8) (events : List UpEvent) : Prop where
  reached : ∃ off rest, Reached total pre off rest events
  smooth : ∀ e ∈ events.dropLast, e.Good
  noEnd : ∀ e ∈ events, ¬ e.Calls opUpdateEndId
  wrong : ∃ e ∈ events, ¬ e.Good

section Pieces

variable {total off : Nat} {pre rest : List UInt8} {events : List UpEvent}

theorem reached_nil (total : Nat) (pre : List UInt8) : Reached total pre 0 pre [] where
  tiles := rfl
  inside := by simp [pieces]
  off_eq := by simp [pieces]
  content := by simp [payload, pieces, streamed]
  length := rfl

/-- A call that is no piece sends nothing of the body. -/
theorem Reached.quiet (reached : Reached total pre off rest events) {more : List UpEvent}
    (none : pieces more = []) : Reached total pre off (rest ++ streamed more) (events ++ more) := by
  have same : pieces (events ++ more) = pieces events := by
    rw [pieces_append, none, List.append_nil]
  have carried : payload (events ++ more) = payload events := by
    rw [payload, same, payload]
  constructor
  · rw [same]
    exact reached.tiles
  · rw [same]
    exact reached.inside
  · rw [same]
    exact reached.off_eq
  · rw [carried, ← List.append_assoc, reached.content, streamed_append, List.append_assoc]
  · rw [carried]
    exact reached.length

theorem pieces_reads {more : List UpEvent} (reads : ∀ e ∈ more, ∃ got, e = .read got) :
    pieces more = [] := by
  refine List.flatMap_eq_nil_iff.mpr fun e member => ?_
  obtain ⟨got, rfl⟩ := reads e member
  rfl

theorem cut_piece (small : off < 2 ^ 32) (piece : List UInt8) :
    cut (Tlv.putBe32 off ++ piece) = (off, piece.length) := by
  have offset : protoBe32 (Tlv.putBe32 off ++ piece) 0 = off :=
    Tlv.getBe32_ofList small [] piece 0
  rw [cut, offset]
  simp

theorem upReceived_lt {br : Resp} {n : Nat} (received : upReceived br = some n) :
    n < 2 ^ 32 := by
  unfold upReceived at received
  split at received
  · split at received
    · cases received
      exact protoBe32_lt _ 0
    · cases received
  · cases received

/-- A piece is acknowledged by the offset behind it. -/
theorem good_piece_iff (small : off < 2 ^ 32) (piece : List UInt8) {q : Req}
    (op : q.op = opUpdateDataId) (body : q.body = Tlv.putBe32 off ++ piece) {br : Resp}
    (ok : br.status = .ok) :
    (UpEvent.call q (some br)).Good ↔ upReceived br = some (off + piece.length) := by
  have parts := cut_piece small piece
  rw [← body, cut, Prod.mk.injEq] at parts
  simp only [UpEvent.Good, Option.some.injEq, ↓existsAndEq, op, parts, ok, true_and, true_imp_iff]

/-- A piece of its length is the next one. -/
theorem Reached.piece {piece left : List UInt8}
    (reached : Reached total pre off (piece ++ left) events) (more : off < total)
    (small : off < 2 ^ 32) (length : piece.length = pieceLen total off) {q : Req}
    (op : q.op = opUpdateDataId) (body : q.body = Tlv.putBe32 off ++ piece)
    (reply : Option Resp) :
    Reached total pre (off + pieceLen total off) left (events ++ [.call q reply]) := by
  have sent : pieces [.call q reply] = [q.body] := by
    simp [pieces, UpEvent.data, op]
  have carried : payload [.call q reply] = piece := by
    simp [payload, sent, body, Tlv.putBe32]
  have atCut : cut q.body = (off, pieceLen total off) := by
    rw [body, cut_piece small, length]
  have whole : off = (pieces events).length * updDataMax := by
    have := reached.off_eq
    omega
  constructor
  · rw [pieces_append, sent, List.map_append, reached.tiles, List.length_append,
      List.length_singleton, List.range_succ, List.map_append, List.map_singleton, atCut,
      List.map_singleton, ← whole]
  · intro i inside
    rw [pieces_append, sent, List.length_append, List.length_singleton] at inside
    rcases Nat.lt_succ_iff_lt_or_eq.mp inside with before | rfl
    · exact reached.inside i before
    · rw [← whole]
      exact more
  · rw [pieces_append, sent, List.length_append, List.length_singleton, pieceLen, Nat.add_mul,
      ← whole]
    omega
  · rw [payload_append, carried, List.append_assoc, reached.content, streamed_append]
    simp [streamed, UpEvent.stream]
  · rw [payload_append, List.length_append, carried, reached.length, length]

theorem going_nil (total : Nat) (pre : List UInt8) : Going total pre 0 pre [] where
  reached := reached_nil total pre
  good := by simp
  noEnd := by simp

theorem Going.append (going : Going total pre off rest events) {more : List UpEvent}
    (none : pieces more = []) (good : ∀ e ∈ more, e.Good)
    (noEnd : ∀ e ∈ more, ¬ e.Calls opUpdateEndId) :
    Going total pre off (rest ++ streamed more) (events ++ more) where
  reached := going.reached.quiet none
  good := List.forall_mem_append.mpr ⟨going.good, good⟩
  noEnd := List.forall_mem_append.mpr ⟨going.noEnd, noEnd⟩

/-- A call about nothing of the body leaves the upload where it is. -/
theorem Going.call (going : Going total pre off rest events) {e : UpEvent} (none : e.data = [])
    (silent : e.stream = []) (good : e.Good) (noEnd : ¬ e.Calls opUpdateEndId) :
    Going total pre off rest (events ++ [e]) := by
  have sent : pieces [e] = [] := by
    simp [pieces, none]
  have read : streamed [e] = [] := by
    simp [streamed, silent]
  have after := going.append sent (by simpa using good) (by simpa using noEnd)
  rwa [read, List.append_nil] at after

/-- A read that goes wrong ends the upload. -/
theorem Going.cutShort (going : Going total pre off rest events) {more : List UpEvent}
    (short : CutShort more) : Halted total pre (events ++ more) where
  reached := ⟨_, _, going.reached.quiet (pieces_reads short.reads)⟩
  smooth := by
    obtain ⟨e, member, -⟩ := short.wrong
    rw [List.dropLast_append_of_ne_nil (List.ne_nil_of_mem member)]
    exact List.forall_mem_append.mpr ⟨going.good, short.smooth⟩
  noEnd := by
    refine List.forall_mem_append.mpr ⟨going.noEnd, fun e member => ?_⟩
    obtain ⟨got, rfl⟩ := short.reads e member
    exact id
  wrong := by
    obtain ⟨e, member, wrong⟩ := short.wrong
    exact ⟨e, List.mem_append_right _ member, wrong⟩

/-- A call that goes wrong ends the upload. -/
theorem Going.halted (going : Going total pre off rest events) {e : UpEvent} {off' : Nat}
    {left : List UInt8} (reached : Reached total pre off' left (events ++ [e]))
    (wrong : ¬ e.Good) (noEnd : ¬ e.Calls opUpdateEndId) : Halted total pre (events ++ [e]) where
  reached := ⟨off', left, reached⟩
  smooth := by
    rw [List.dropLast_concat]
    exact going.good
  noEnd := List.forall_mem_append.mpr ⟨going.noEnd, by simpa using noEnd⟩
  wrong := ⟨e, by simp, wrong⟩

end Pieces

section Client

variable {World : Type} (out : Outside World)

/-- The pieces are read, sent and acknowledged one by one, or the upload ends. -/
theorem sendPieces_accounts (rs : Reply) (fd : Int) (q : Req) {total : Nat} {pre : List UInt8}
    (off : Nat) (rest : List UInt8) {before : List UpEvent}
    (going : Going total pre off rest before) (le : off ≤ total) (small : off < 2 ^ 32) :
    (sendPieces out rs fd q total off rest).Accounts
      (fun _ ops => ∃ left, Going total pre total left (before ++ ops))
      fun _ ops => Halted total pre (before ++ ops) := by
  induction off, rest using sendPieces.induct total generalizing before with
  | case2 off rest done =>
      rw [sendPieces, if_neg done]
      obtain rfl : off = total := by omega
      exact accounts_pure ⟨rest, by simpa using going⟩
  | case1 off rest more ih =>
      rw [sendPieces, if_pos more]
      refine (fill_accounts out rs fd (pieceLen total off) [] rest (Nat.zero_le _)).bind ?_
        fun _ ops short => going.cutShort short
      rintro ⟨piece, left⟩ reads ⟨areReads, length, content⟩
      dsimp only at length content ⊢
      have areGood : ∀ e ∈ reads, e.Good := by
        intro e member
        obtain ⟨bytes, rfl, some_⟩ := areReads e member
        exact ⟨bytes, rfl, some_⟩
      have noEnd : ∀ e ∈ reads, ¬ e.Calls opUpdateEndId := by
        intro e member
        obtain ⟨bytes, rfl, -⟩ := areReads e member
        exact id
      have none : pieces reads = [] := pieces_reads fun e member =>
        let ⟨bytes, same, _⟩ := areReads e member
        ⟨.bytes bytes, same⟩
      have held := going.append none areGood noEnd
      rw [show rest ++ streamed reads = piece ++ left from content.symm] at held
      simp only [← List.append_assoc]
      -- The piece is sent whatever the broker answers.
      generalize isPiece : { q with op := opUpdateDataId, body := Tlv.putBe32 off ++ piece } =
        data
      have op : data.op = opUpdateDataId := congrArg Req.op isPiece.symm
      have body : data.body = Tlv.putBe32 off ++ piece := congrArg Req.body isPiece.symm
      have sent := held.reached.piece more small length op body
      have noEnd (reply : Option Resp) : ¬ (UpEvent.call data reply).Calls opUpdateEndId := by
        rw [UpEvent.Calls, op]
        decide
      refine (upCall_accounts out rs data).bind ?_ ?_
      · rintro br ops ⟨rfl, ok⟩
        have acked := good_piece_iff small piece op body ok
        rw [length] at acked
        apply Accounts.ite
        · intro received
          simp only [← List.append_assoc]
          refine ih ⟨piece, left⟩ ⟨sent (some br), ?_, ?_⟩ ?_ ?_
          · exact List.forall_mem_append.mpr ⟨held.good, by simpa using acked.mpr received⟩
          · exact List.forall_mem_append.mpr ⟨held.noEnd, by simpa using noEnd (some br)⟩
          · unfold pieceLen
            omega
          · exact upReceived_lt received
        · intro received
          refine accounts_stop ?_
          rw [List.append_nil]
          exact held.halted (sent (some br)) (mt acked.mp received) (noEnd (some br))
      · rintro why ops ⟨reply, rfl, wrong⟩
        exact held.halted (sent reply) wrong (noEnd reply)

/-! ## The whole upload -/

variable {total : Nat} {pre rest : List UInt8} {off : Nat} {events : List UpEvent}

/-- The bytes past the declared length are not forwarded. -/
theorem Reached.prefix_eq (reached : Reached total (pre.take total) off rest events) :
    payload events = (pre ++ streamed events).take off := by
  have le : off ≤ total := by
    have := reached.off_eq
    omega
  have sent : payload events = (pre.take total ++ streamed events).take off := by
    rw [← reached.content, ← reached.length, List.take_left]
  rw [sent, List.take_append, List.take_append, List.take_take, List.length_take,
    Nat.min_eq_left le]
  congr 2
  omega

theorem Halted.forwards (halted : Halted total (pre.take total) events) :
    Forwards total pre events := by
  obtain ⟨⟨off, rest, reached⟩, smooth, noEnd, wrong⟩ := halted
  constructor
  · exact smooth
  · exact fun e member => noEnd e (List.mem_of_mem_dropLast member)
  · exact reached.tiles
  · exact reached.inside
  · rw [reached.length]
    exact reached.prefix_eq
  · rintro ⟨e, member, isEnd⟩
    exact absurd isEnd (noEnd e member)
  · obtain ⟨e, member, bad⟩ := wrong
    exact fun _ good => absurd (good e member) bad

/-- An upload that is given up because too little is left of the alarm. -/
theorem Going.forwards_late (going : Going total (pre.take total) total rest events)
    {left : Nat} (low : left < uploadEndNeedS) (asked : UpEvent.alarm 0 left ∈ events) :
    Forwards total pre events := by
  obtain ⟨reached, good, noEnd⟩ := going
  constructor
  · exact fun e member => good e (List.mem_of_mem_dropLast member)
  · exact fun e member => noEnd e (List.mem_of_mem_dropLast member)
  · exact reached.tiles
  · exact reached.inside
  · rw [reached.length]
    exact reached.prefix_eq
  · rintro ⟨e, member, isEnd⟩
    exact absurd isEnd (noEnd e member)
  · exact fun _ _ => ⟨reached.length, Or.inr ⟨left, low, asked⟩⟩

/-- An upload whose END is sent. -/
theorem Going.forwards_end (going : Going total (pre.take total) total rest events) {q : Req}
    (op : q.op = opUpdateEndId) (reply : Option Resp) :
    Forwards total pre (events ++ [.call q reply]) := by
  have none : pieces [.call q reply] = [] := by
    simp [pieces, UpEvent.data, op]
    decide
  have reached := going.reached.quiet none
  have isEnd : (UpEvent.call q reply).Calls opUpdateEndId := op
  constructor
  · rw [List.dropLast_concat]
    exact going.good
  · rw [List.dropLast_concat]
    exact going.noEnd
  · exact reached.tiles
  · exact reached.inside
  · rw [reached.length]
    exact reached.prefix_eq
  · exact fun _ => ⟨reached.prefix_eq, reached.length⟩
  · exact fun _ _ => ⟨reached.length, Or.inl ⟨_, by simp, isEnd⟩⟩

theorem forwards_nil (total : Nat) (pre : List UInt8) : Forwards total pre [] where
  smooth := by simp
  last := by simp
  tiles := rfl
  inside := by simp [pieces]
  content := by simp [payload, pieces]
  whole := by simp
  finishes := fun none => absurd rfl none

/-- What asks the clock sends nothing. -/
theorem Going.alarm (going : Going total pre off rest events) (secs left : Nat) :
    Going total pre off rest (events ++ [.alarm secs left]) :=
  going.call rfl rfl trivial id

theorem upLeft_accounts (going : Going total pre off rest events) :
    (upLeft out).Accounts
      (fun left ops => Going total pre off rest (events ++ ops) ∧
        UpEvent.alarm 0 left ∈ events ++ ops)
      fun _ _ => False := by
  have asked (secs : Nat) :
      (upAlarm out secs).Accounts (fun left ops => ops = [.alarm secs left])
        fun _ _ => False :=
    accounts_ask fun _ => rfl
  refine (asked 0).bind ?_ fun _ _ never => never
  rintro left ops rfl
  have first := going.alarm 0 left
  apply Accounts.ite
  · intro _
    refine (asked left).bind ?_ fun _ _ never => never
    rintro again ops rfl
    refine accounts_pure ⟨?_, by simp⟩
    simpa using first.alarm left again
  · intro _
    exact accounts_pure ⟨by simpa using first, by simp⟩

theorem upEnd_accounts (rs : Reply) (q : Req)
    (going : Going total (pre.take total) total rest events) :
    (upEnd out rs q total).Accounts (fun _ ops => Forwards total pre (events ++ ops))
      fun _ ops => Forwards total pre (events ++ ops) := by
  refine (upLeft_accounts out going).bind ?_ fun _ _ never => never.elim
  rintro left ops ⟨still, asked⟩
  apply Accounts.ite
  · intro low
    refine accounts_stop ?_
    rw [List.append_nil]
    exact still.forwards_late low asked
  · intro _
    have set : (bkSetTimeouts out uploadEndConnectS uploadEndIoS).Accounts
        (fun _ ops => ops = [.setTimeouts uploadEndConnectS uploadEndIoS])
        fun _ _ => False :=
      accounts_ask fun _ => rfl
    refine set.bind ?_ fun _ _ never => never.elim
    rintro - more rfl
    have ready : Going total (pre.take total) total rest
        (events ++ ops ++ [.setTimeouts uploadEndConnectS uploadEndIoS]) :=
      still.call rfl rfl trivial id
    refine (upCall_accounts out rs _).bind ?_ ?_
    · rintro br last ⟨rfl, -⟩
      refine accounts_pure ?_
      simpa using ready.forwards_end rfl (some br)
    · rintro why last ⟨reply, rfl, -⟩
      simpa using ready.forwards_end rfl reply

theorem upForward_accounts (rs : Reply) (fd : Int) (q : Req) (total : Nat) (pre : List UInt8) :
    (upForward out rs fd q total pre).Accounts (fun _ ops => Forwards total pre ops)
      fun _ ops => Forwards total pre ops := by
  have start := going_nil total (pre.take total)
  generalize isBegin : { q with op := opUpdateBeginId, body := Tlv.putBe32 total } = begin'
  have op : begin'.op = opUpdateBeginId := congrArg Req.op isBegin.symm
  have none (reply : Option Resp) : (UpEvent.call begin' reply).data = [] := by
    rw [UpEvent.data, op]
    exact if_neg (by decide)
  have noEnd (reply : Option Resp) : ¬ (UpEvent.call begin' reply).Calls opUpdateEndId := by
    rw [UpEvent.Calls, op]
    decide
  unfold upForward
  rw [isBegin]
  refine (upCall_accounts out rs begin').bind ?_ ?_
  · rintro br ops ⟨rfl, ok⟩
    have good : (UpEvent.call begin' (some br)).Good :=
      ⟨br, rfl, ok, fun isData => absurd (op.symm.trans isData) (by decide)⟩
    have begun := start.call (none (some br)) rfl good (noEnd (some br))
    have asked :
        (upAlarm out httpUploadAlarmS).Accounts
          (fun left ops => ops = [.alarm httpUploadAlarmS left]) fun _ _ => False :=
      accounts_ask fun _ => rfl
    refine asked.bind ?_ fun _ _ never => never.elim
    rintro left more rfl
    have armed := begun.alarm httpUploadAlarmS left
    refine (sendPieces_accounts out rs fd q 0 _ armed (Nat.zero_le _) (by decide)).bind ?_ ?_
    · rintro - sent ⟨rest, all⟩
      refine (upEnd_accounts out rs q all).weaken ?_ ?_
      · simp
      · simp
    · intro why sent halted
      simpa using halted.forwards
  · rintro why ops ⟨reply, rfl, wrong⟩
    have sent : pieces [.call begin' reply] = [] := by
      simp [pieces, none reply]
    exact (start.halted (start.reached.quiet sent) wrong (noEnd reply)).forwards

end Client

/-- A broker that takes every piece, and a socket that gives two bytes a read. -/
def willing : Outside (List UInt8) where
  read n stream := (.bytes (stream.take (min n 2)), stream.drop (min n 2))
  read_le n stream bytes same := by
    cases same
    rw [List.length_take]
    omega
  call q stream :=
    (some ⟨.ok, Tlv.itemBytes Broker.updTReceived
      (Tlv.putBe32 (protoBe32 q.body 0 + (q.body.length - 4)))⟩, stream)
  alarm _ stream := (100, stream)
  setTimeouts _ _ := id

/-- Five bytes, of which two were read before, in a stream of more. -/
example :
    let q : Req := { op := 0, session := .zero, csrf := .zero, clientIp := 0, body := [] }
    let ran := upForward willing .init 3 q 5 [1, 2] [3, 4, 5, 6, 7]
    payload ran.2.2 = [1, 2, 3, 4, 5] ∧ ran.2.1 = [6, 7] ∧
      (ran.2.2.any fun
        | .call q _ => q.op == opUpdateEndId
        | _ => false) = true := by
  decide +kernel

end RlxFw.Httpd
