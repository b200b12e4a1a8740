import RlxFw.DnsNames

/-!
# Exact DNS messages

A query that was encoded parses back to its question, and an accepted reply is
tiled: its header, its question and its records are all there is in it.
-/

namespace RlxFw.Dns

open BytePairs

/-! ## Words -/

theorem dnsGet16_append (before behind : List UInt8) (v : UInt16) :
    dnsGet16 (before ++ (dnsPut16 v ++ behind)) before.length = v := by
  have first : byteAt (before ++ (dnsPut16 v ++ behind)) before.length = (v >>> 8).toUInt8 := by
    simp [byteAt, dnsPut16, List.getD]
  have second : byteAt (before ++ (dnsPut16 v ++ behind)) (before.length + 1) =
      (v &&& 0xFF).toUInt8 := by
    simp [byteAt, dnsPut16, List.getD]
  rw [dnsGet16, first, second]
  exact pair_of_put v

theorem hdrDecode_hdrBytes (id flags qd : UInt16) (rest : List UInt8) :
    hdrDecode (hdrBytes id flags qd ++ rest) = ⟨id, flags, qd, 0, 0, 0⟩ := by
  apply Hdr.mk.injEq .. |>.mpr
  exact ⟨pair_of_put id, pair_of_put flags, pair_of_put qd, pair_of_put 0, pair_of_put 0, pair_of_put 0⟩

theorem length_hdrBytes (id flags qd : UInt16) : (hdrBytes id flags qd).length = hdrLen := rfl

/-! ## Queries -/

/-- A name that some message holds. -/
def Decodable (name : List UInt8) : Prop :=
  ∃ msg pos outcap next, dnsDecodeName msg pos outcap = .ok (name, next)

theorem Decodable.wire {name : List UInt8} (decodable : Decodable name) :
    WireName name ∧ name.length ≤ nameMax := by
  obtain ⟨msg, pos, outcap, next, decoded⟩ := decodable
  obtain ⟨wire, fits, -⟩ := dnsDecodeName_ok decoded
  exact ⟨wire, Nat.le_trans fits (capacity_of_ok decoded)⟩

theorem questionDecode_questionBytes {q : Question} (wire : WireName q.name)
    (fits : q.name.length ≤ nameMax) {header : List UInt8} (isHeader : header.length = hdrLen) :
    questionDecode (header ++ questionBytes q) hdrLen =
      .ok (q, (header ++ questionBytes q).length) := by
  have named : dnsDecodeName (header ++ questionBytes q) hdrLen nameMax =
      .ok (q.name, hdrLen + q.name.length) := by
    rw [← isHeader, questionBytes, List.append_assoc q.name, ← List.append_assoc header]
    exact dnsDecodeName_wire wire fits (Nat.le_refl _) _ _
  have length : (header ++ questionBytes q).length = hdrLen + q.name.length + 4 := by
    rw [List.length_append, isHeader, questionBytes, List.length_append, List.length_append]
    change hdrLen + (q.name.length + 2 + 2) = _
    omega
  have type_ : dnsGet16 (header ++ questionBytes q) (hdrLen + q.name.length) = q.qtype := by
    have read := dnsGet16_append (header ++ q.name) (dnsPut16 q.qclass) q.qtype
    rw [List.length_append, isHeader] at read
    rw [questionBytes, List.append_assoc q.name, ← List.append_assoc header]
    exact read
  have class_ : dnsGet16 (header ++ questionBytes q) (hdrLen + q.name.length + 2) = q.qclass := by
    have read := dnsGet16_append (header ++ q.name ++ dnsPut16 q.qtype) [] q.qclass
    rw [List.length_append, List.length_append, isHeader, List.append_nil] at read
    rw [questionBytes, ← List.append_assoc header, ← List.append_assoc header]
    exact read
  unfold questionDecode
  rw [named]
  change (if hdrLen + q.name.length + 4 > (header ++ questionBytes q).length then _ else _) = _
  rw [length, if_neg (Nat.lt_irrefl _), type_, class_]

/-- A query with such a question is encoded whenever there is room for it, and parses
back. -/
theorem dnsParseQuery_dnsEncodeQuery {q : Question} (decodable : Decodable q.name)
    (internet : q.qclass = classIn) {id : UInt16} {cap : Nat} {bytes : List UInt8}
    (encoded : dnsEncodeQuery q id true cap = .ok bytes) :
    dnsParseQuery bytes = .ok ⟨⟨id, flagRd, 1, 0, 0, 0⟩, q⟩ := by
  obtain ⟨wire, fits⟩ := decodable.wire
  obtain ⟨-, encoded⟩ := ok_of_check encoded
  obtain ⟨room, encoded⟩ := ok_of_check encoded
  obtain rfl := Except.ok.inj encoded
  have length : (hdrBytes id flagRd 1 ++ questionBytes q).length = hdrLen + q.name.length + 4 := by
    rw [List.length_append, length_hdrBytes, questionBytes, List.length_append,
      List.length_append]
    change hdrLen + (q.name.length + 2 + 2) = _
    omega
  unfold dnsParseQuery
  dsimp only
  rw [if_pos rfl, hdrDecode_hdrBytes, questionDecode_questionBytes wire fits rfl, length]
  dsimp only
  rw [if_neg (by omega), if_neg (by omega), if_neg (by decide), if_neg (by decide),
    if_neg (by decide), if_neg (by decide), if_neg (not_not_intro internet), if_neg (by decide),
    if_neg (by decide), if_neg (not_not_intro rfl)]

theorem exists_dnsEncodeQuery {q : Question} (decodable : Decodable q.name) {id : UInt16}
    {rd : Bool} {cap : Nat} (room : hdrLen + q.name.length + 4 ≤ cap) :
    ∃ bytes, dnsEncodeQuery q id rd cap = .ok bytes := by
  obtain ⟨wire, fits⟩ := decodable.wire
  have some_ := wire.length_pos
  have short : hdrLen + q.name.length + 4 ≤ msgMax :=
    Nat.le_trans (Nat.add_le_add_right (Nat.add_le_add_left fits _) _) (by decide)
  unfold dnsEncodeQuery
  dsimp only
  rw [if_neg (by omega), if_neg (by omega)]
  exact ⟨_, rfl⟩

/-! ## Replies -/

/-- A record that begins at a position of a message, with all it describes inside the
message, and the position behind it. -/
structure RecordAt (msg : List UInt8) (pos : Nat) (rr : Rr) (next : Nat) : Prop where
  named : ∃ pointers, Expands msg pos rr.name (rr.rdoff.toNat - 10) pointers
  short : rr.name.length ≤ nameMax
  fixed : pos + 10 < rr.rdoff.toNat
  type_ : rr.type = dnsGet16 msg (rr.rdoff.toNat - 10)
  rclass : rr.rclass = dnsGet16 msg (rr.rdoff.toNat - 8)
  ttl : rr.ttl = dnsGet32 msg (rr.rdoff.toNat - 6)
  rdlen : rr.rdlen = dnsGet16 msg (rr.rdoff.toNat - 2)
  data : next = rr.rdoff.toNat + rr.rdlen.toNat
  inside : next ≤ msg.length
  notOpt : rr.type ≠ typeOpt

/-- Records that lie one behind the other, between two positions of a message. -/
inductive Tiled (msg : List UInt8) : Nat → List Rr → Nat → Prop
  | none {pos : Nat} : Tiled msg pos [] pos
  | record {pos next last : Nat} {rr : Rr} {records : List Rr}
      (here : RecordAt msg pos rr next) (later : Tiled msg next records last) :
      Tiled msg pos (rr :: records) last

/-- The records of a reply that are kept: the answers, up to so many. -/
def keptOf (answers : Nat) (records : List Rr) : List Rr :=
  (records.take answers).take rrKeep

variable {msg : List UInt8}

theorem Tiled.inside {pos last : Nat} {records : List Rr} (tiled : Tiled msg pos records last) :
    ∀ rr ∈ records, rr.rdoff.toNat + rr.rdlen.toNat ≤ msg.length := by
  induction tiled with
  | none => exact nofun
  | record here later ih =>
      intro rr member
      rcases List.mem_cons.mp member with rfl | member
      · exact here.data ▸ here.inside
      · exact ih rr member

/-- One turn of the walk. -/
theorem walkRecords_succ {left answers pos last : Nat} {kept an : List Rr}
    (walked : walkRecords msg (left + 1) answers pos kept = .ok (an, last))
    (short : msg.length ≤ msgMax) :
    ∃ rr next, RecordAt msg pos rr next ∧
      walkRecords msg left (answers - 1) next
        (if 0 < answers ∧ kept.length < rrKeep then kept ++ [rr] else kept) = .ok (an, last) := by
  rw [walkRecords] at walked
  rcases named : dnsDecodeName msg pos nameMax with why | ⟨name, behind⟩
  · rw [named] at walked
    cases walked
  · rw [named] at walked
    obtain ⟨fixed, walked⟩ := ok_of_check walked
    obtain ⟨whole, walked⟩ := ok_of_check walked
    obtain ⟨notOpt, walked⟩ := ok_of_check walked
    obtain ⟨pointers, expands, -, -, -, fits⟩ := (dnsDecodeName_eq_ok (Nat.le_refl _)).mp named
    have forward := expands.pos_lt_next
    have offset : (UInt16.ofNat (behind + 10)).toNat = behind + 10 := by
      apply UInt16.toNat_ofNat_of_lt'
      exact Nat.lt_of_le_of_lt (Nat.le_trans (Nat.le_of_not_lt fixed) short) (by decide)
    refine ⟨_, _, ?_, walked⟩
    constructor
    case named =>
      simp only [offset]
      exact ⟨pointers, expands⟩
    case short => exact fits
    case fixed =>
      simp only [offset]
      omega
    case type_ => simp only [offset, Nat.add_sub_cancel]
    case rclass => simp only [offset, Nat.reduceSubDiff]
    case ttl => simp only [offset, Nat.reduceSubDiff]
    case rdlen => simp only [offset, Nat.reduceSubDiff]
    case data => simp only [offset]
    case inside => omega
    case notOpt => exact notOpt

/-- What the walk went through is tiled by the records, and the answers are kept. -/
theorem tiled_of_walkRecords {left answers pos last : Nat} {kept an : List Rr}
    (walked : walkRecords msg left answers pos kept = .ok (an, last))
    (short : msg.length ≤ msgMax) (room : kept.length ≤ rrKeep) :
    ∃ records, Tiled msg pos records last ∧ records.length = left ∧
      an = kept ++ (records.take answers).take (rrKeep - kept.length) := by
  induction left generalizing answers pos kept with
  | zero =>
      obtain ⟨rfl, rfl⟩ := Prod.mk.inj (Except.ok.inj walked)
      exact ⟨[], .none, rfl, by simp⟩
  | succ left ih =>
      obtain ⟨rr, next, here, walked⟩ := walkRecords_succ walked short
      -- a record is kept while it is an answer and there is room for it
      by_cases keeps : 0 < answers ∧ kept.length < rrKeep
      · rw [if_pos keeps] at walked
        obtain ⟨records, tiled, length, rfl⟩ := ih walked (by
          rw [List.length_append, List.length_singleton]
          exact keeps.2)
        refine ⟨rr :: records, .record here tiled, congrArg (· + 1) length, ?_⟩
        obtain ⟨answers, rfl⟩ := Nat.exists_eq_succ_of_ne_zero keeps.1.ne'
        obtain ⟨room', isRoom⟩ := Nat.exists_eq_add_of_lt keeps.2
        rw [List.length_append, List.length_singleton, isRoom,
          show kept.length + room' + 1 - (kept.length + 1) = room' by omega,
          show kept.length + room' + 1 - kept.length = room' + 1 by omega]
        simp
      · rw [if_neg keeps] at walked
        obtain ⟨records, tiled, length, rfl⟩ := ih walked room
        refine ⟨rr :: records, .record here tiled, congrArg (· + 1) length, ?_⟩
        rcases Nat.eq_zero_or_pos answers with rfl | some_
        · simp
        · have full : rrKeep - kept.length = 0 := by
            have notLess := fun less => keeps ⟨some_, less⟩
            omega
          rw [full, List.take_zero, List.take_zero]

/-- The question of a message, with the position behind it. -/
structure QuestionAt (msg : List UInt8) (q : Question) (next : Nat) : Prop where
  named : ∃ pointers, Expands msg hdrLen q.name (next - 4) pointers
  short : q.name.length ≤ nameMax
  fixed : hdrLen + 4 < next
  qtype : q.qtype = dnsGet16 msg (next - 4)
  qclass : q.qclass = dnsGet16 msg (next - 2)
  inside : next ≤ msg.length

theorem questionAt_of_decode {q : Question} {next : Nat}
    (decoded : questionDecode msg hdrLen = .ok (q, next)) : QuestionAt msg q next := by
  obtain ⟨behind, named, qtype, qclass, rfl, inside⟩ := questionDecode_ok decoded
  obtain ⟨pointers, expands, -, -, -, fits⟩ := (dnsDecodeName_eq_ok (Nat.le_refl _)).mp named
  have forward := expands.pos_lt_next
  constructor
  case named => exact ⟨pointers, expands⟩
  case short => exact fits
  case fixed => omega
  case qtype => exact qtype
  case qclass => exact qclass
  case inside => exact inside

/-- What is promised of an accepted reply: behind its header, the question and the
counted records tile it to its last byte, and of what is kept, all is inside. -/
structure TiledReply (msg : List UInt8) (reply : Reply) : Prop where
  header : reply.h = hdrDecode msg ∧ hdrLen ≤ msg.length
  tiled : ∃ next records, QuestionAt msg reply.q next ∧ Tiled msg next records msg.length ∧
    records.length = reply.h.an.toNat + reply.h.ns.toNat + reply.h.ar.toNat ∧
    reply.an = keptOf reply.h.an.toNat records
  kept : ∀ rr ∈ reply.an, rr.rdoff.toNat + rr.rdlen.toNat ≤ msg.length

theorem dnsParseReply_walked {reply : Reply} (parsed : dnsParseReply msg = .ok reply) :
    ∃ next, questionDecode msg hdrLen = .ok (reply.q, next) ∧
      walkRecords msg (reply.h.an.toNat + reply.h.ns.toNat + reply.h.ar.toNat)
        reply.h.an.toNat next [] = .ok (reply.an, msg.length) := by
  obtain ⟨isHeader, -⟩ := dnsParseReply_ok parsed
  rw [isHeader]
  obtain ⟨-, parsed⟩ := ok_of_check parsed
  obtain ⟨-, parsed⟩ := ok_of_check parsed
  obtain ⟨-, parsed⟩ := ok_of_check parsed
  obtain ⟨-, parsed⟩ := ok_of_check parsed
  obtain ⟨-, parsed⟩ := ok_of_check parsed
  obtain ⟨-, parsed⟩ := ok_of_check parsed
  obtain ⟨-, parsed⟩ := ok_of_check parsed
  rcases decoded : questionDecode msg hdrLen with why | ⟨q, next⟩
  · rw [decoded] at parsed
    cases parsed
  · rw [decoded] at parsed
    change (walkRecords msg _ _ _ _ >>= _) = _ at parsed
    rcases walked : walkRecords msg
        ((hdrDecode msg).an.toNat + (hdrDecode msg).ns.toNat + (hdrDecode msg).ar.toNat)
        (hdrDecode msg).an.toNat next [] with why | ⟨an, last⟩
    · rw [walked] at parsed
      cases parsed
    · rw [walked] at parsed
      obtain ⟨whole, parsed⟩ := ok_of_check parsed
      obtain rfl := Except.ok.inj parsed
      exact ⟨next, rfl, walked.trans (by rw [not_not.mp whole])⟩

theorem tiledReply_of_parse {reply : Reply} (parsed : dnsParseReply msg = .ok reply) :
    TiledReply msg reply := by
  obtain ⟨isHeader, whole, short⟩ := dnsParseReply_ok parsed
  obtain ⟨next, decoded, walked⟩ := dnsParseReply_walked parsed
  obtain ⟨records, tiled, length, kept⟩ :=
    tiled_of_walkRecords walked short (Nat.zero_le _)
  constructor
  case header => exact ⟨isHeader, whole⟩
  case tiled => exact ⟨next, records, questionAt_of_decode decoded, tiled, length, kept⟩
  case kept =>
    intro rr member
    rw [kept, List.nil_append] at member
    exact tiled.inside rr (List.mem_of_mem_take (List.mem_of_mem_take member))

/-- DNS messages are parsed exactly: a query that was encoded parses back to its id and
its question, and an accepted reply is tiled. -/
theorem dns_parsing_exact :
    (∀ (q : Question) (id : UInt16) (cap : Nat), Decodable q.name → q.qclass = classIn →
      (hdrLen + q.name.length + 4 ≤ cap → ∃ bytes, dnsEncodeQuery q id true cap = .ok bytes) ∧
      ∀ bytes, dnsEncodeQuery q id true cap = .ok bytes →
        dnsParseQuery bytes = .ok ⟨⟨id, flagRd, 1, 0, 0, 0⟩, q⟩) ∧
    ∀ msg reply, dnsParseReply msg = .ok reply → TiledReply msg reply := by
  constructor
  · intro q id cap decodable internet
    constructor
    · exact fun room => exists_dnsEncodeQuery decodable room
    · exact fun bytes encoded => dnsParseQuery_dnsEncodeQuery decodable internet encoded
  · exact fun msg reply parsed => tiledReply_of_parse parsed

end RlxFw.Dns
