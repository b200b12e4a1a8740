import RlxFw.DnsAnswers
import RlxFw.DnsNames

/-!
# The size of the forwarder's own replies

An error reply has a header of its own and the question as it was decoded.  It is
longer than the datagram it answers only by the header of a datagram without one,
or by what the name of a compressed question grows when it is expanded.
-/

namespace RlxFw.Dns

/-- What the name of a datagram's question is longer by once it is expanded. -/
def nameGrowth (buf : List UInt8) : Nat :=
  match dnsDecodeName buf hdrLen nameMax with
  | .ok (name, next) => name.length - (next - hdrLen)
  | .error _ => 0

/-- A reply that is no longer than its datagram with the name expanded, or than a
header. -/
def Bounded (s : Sent) (buf : List UInt8) : Prop :=
  s.bytes.length ≤ max hdrLen (buf.length + nameGrowth buf)

/-- The question that a reply to a datagram may echo. -/
def echoed : Except BadQuery Query → Option Question
  | .error bad => bad.q
  | .ok query => some query.q

/-- A name that is not compressed does not grow. -/
theorem nameGrowth_wire {name : List UInt8} (wire : WireName name) {header : List UInt8}
    (isHeader : header.length = hdrLen) (behind : List UInt8) :
    nameGrowth (header ++ name ++ behind) = 0 := by
  unfold nameGrowth
  rcases decoded : dnsDecodeName (header ++ name ++ behind) hdrLen nameMax with
    why | ⟨name', next⟩
  · rfl
  · obtain ⟨pointers, expands, -⟩ := (dnsDecodeName_eq_ok (Nat.le_refl _)).mp decoded
    rw [← isHeader] at expands
    obtain ⟨rfl, rfl, -⟩ := expands.unique (wire.expands header behind)
    dsimp only
    omega

/-! ## What is echoed -/

theorem echoed_of_check {c : Prop} [Decidable c] {why : Err}
    {rest : Except BadQuery Query} {q : Question}
    (isEchoed : echoed (if c then .error ⟨why, none⟩ else rest) = some q) :
    echoed rest = some q := by
  by_cases failed : c
  · rw [if_pos failed] at isEchoed
    cases isEchoed
  · rwa [if_neg failed] at isEchoed

/-- A refusal of a question that was decoded echoes it. -/
theorem echoed_check {c : Prop} [Decidable c] {why : Err}
    {rest : Except BadQuery Query} {q : Question} (same : echoed rest = some q) :
    echoed (if c then .error ⟨why, some q⟩ else rest) = some q := by
  by_cases failed : c
  · rw [if_pos failed]
    rfl
  · rwa [if_neg failed]

/-- A question that is echoed was decoded behind the header. -/
theorem questionDecode_of_echoed {buf : List UInt8} {q : Question}
    (isEchoed : echoed (dnsParseQuery buf) = some q) :
    ∃ next, questionDecode buf hdrLen = .ok (q, next) := by
  unfold dnsParseQuery at isEchoed
  dsimp only at isEchoed
  have decodedNext := echoed_of_check (echoed_of_check (echoed_of_check (echoed_of_check
    (echoed_of_check (echoed_of_check isEchoed)))))
  rcases decoded : questionDecode buf hdrLen with why | ⟨q', next⟩
  · rw [decoded] at decodedNext
    cases decodedNext
  · rw [decoded] at decodedNext
    obtain rfl := Option.some.inj (decodedNext.symm.trans
      (echoed_check (echoed_check (echoed_check (echoed_check rfl)))))
    exact ⟨next, rfl⟩

theorem length_dnsEncodeError {id : UInt16} {q : Option Question} {rcode : UInt8} {cap : Nat}
    {bytes : List UInt8} (encoded : dnsEncodeError id q rcode cap = .ok bytes) :
    bytes.length = hdrLen + q.elim 0 fun q => q.name.length + 4 := by
  unfold dnsEncodeError at encoded
  dsimp only at encoded
  cases q with
  | none =>
      obtain ⟨-, made⟩ := ok_of_check encoded
      obtain rfl := Except.ok.inj made
      rfl
  | some q =>
      obtain ⟨-, encoded⟩ := ok_of_check encoded
      obtain ⟨-, made⟩ := ok_of_check encoded
      obtain rfl := Except.ok.inj made
      rw [List.length_append, questionBytes, List.length_append, List.length_append]
      change 12 + (q.name.length + 2 + 2) = 12 + (q.name.length + 4)
      rfl

theorem bounded_of_encoded {buf : List UInt8} {id : UInt16} {q : Option Question}
    {rcode : UInt8} {s : Sent} (encoded : dnsEncodeError id q rcode msgMax = .ok s.bytes)
    (isEchoed : ∀ q', q = some q' → echoed (dnsParseQuery buf) = some q') :
    Bounded s buf := by
  have length := length_dnsEncodeError encoded
  unfold Bounded
  cases q with
  | none =>
      rw [length]
      exact Nat.le_max_left _ _
  | some q =>
      obtain ⟨next, decoded⟩ := questionDecode_of_echoed (isEchoed q rfl)
      obtain ⟨behind, named, -, -, rfl, whole⟩ := questionDecode_ok decoded
      obtain ⟨-, -, forward, -⟩ := dnsDecodeName_ok named
      have growth : nameGrowth buf = q.name.length - (behind - hdrLen) := by
        unfold nameGrowth
        rw [named]
      rw [length, growth]
      change hdrLen + (q.name.length + 4) ≤ _
      omega

/-! ## What the forwarder sends of itself -/

theorem answer_mem {id : UInt16} {q : Option Question} {rcode : UInt8} {addr : UInt32}
    {port : UInt16} {s : Sent} (sent : s ∈ answer id q rcode addr port) :
    dnsEncodeError id q rcode msgMax = .ok s.bytes ∧
      s = ⟨.client, s.bytes, addr, port⟩ := by
  rcases answer_cases id q rcode addr port with none | ⟨bytes, encoded, one⟩
  · rw [none] at sent
    cases sent
  · rw [one] at sent
    obtain rfl := List.mem_singleton.mp sent
    exact ⟨encoded, rfl⟩

section Client

variable {d : Dnsfwd} {buf : List UInt8} {src : UInt32} {sport : UInt16} {io : ClientIo}
  {s : Sent}

theorem bounded_servfail {query : Query} (parsed : dnsParseQuery buf = .ok query)
    {addr : UInt32} {port : UInt16}
    (sent : s ∈ answer query.h.id (some query.q) rcodeServfail addr port) : Bounded s buf := by
  refine bounded_of_encoded (answer_mem sent).1 fun q' same => ?_
  obtain rfl := Option.some.inj same
  rw [parsed]
  rfl

theorem bounded_refuseQuery {bad : BadQuery} (refused : dnsParseQuery buf = .error bad)
    (sent : s ∈ (refuseQuery d buf src sport bad).sent) : Bounded s buf := by
  unfold refuseQuery at sent
  cases rcode : refusalRcode bad.why with
  | none =>
      rw [rcode] at sent
      cases sent
  | some rcode =>
      simp only [rcode] at sent
      by_cases short : buf.length < 2
      · rw [if_pos short] at sent
        cases sent
      · rw [if_neg short] at sent
        refine bounded_of_encoded (answer_mem sent).1 fun q' same => ?_
        rw [refused]
        exact same

theorem bounded_forwardQuery {query : Query} {uid : UInt16}
    (parsed : dnsParseQuery buf = .ok query)
    (sent : s ∈ (forwardQuery d src sport io query uid).sent) (client : s.sock = .client) :
    Bounded s buf := by
  unfold forwardQuery at sent
  dsimp only at sent
  split at sent
  · cases sent
  split at sent
  · exact bounded_servfail parsed sent
  split at sent
  · obtain rfl := List.mem_singleton.mp sent
    cases client
  · exact bounded_servfail parsed sent

theorem bounded_onClient (sent : s ∈ (dnsfwdOnClient d buf src sport io).sent)
    (client : s.sock = .client) : Bounded s buf := by
  unfold dnsfwdOnClient at sent
  dsimp only at sent
  split at sent
  · cases sent
  split at sent
  · cases sent
  split at sent
  · cases sent
  cases parsed : dnsParseQuery buf with
  | error bad =>
      rw [parsed] at sent
      exact bounded_refuseQuery parsed sent
  | ok query =>
      rw [parsed] at sent
      dsimp only at sent
      split at sent
      · exact bounded_servfail parsed sent
      · cases sent
      · exact bounded_forwardQuery parsed sent client

theorem answers_onClient (sent : s ∈ (dnsfwdOnClient d buf src sport io).sent)
    (client : s.sock = .client) : Answers s buf src sport := by
  cases clientStep d buf src sport io with
  | silent tbl none =>
      rw [none] at sent
      cases sent
  | answered tbl s' one answers =>
      rw [one] at sent
      obtain rfl := List.mem_singleton.mp sent
      exact answers
  | forwarded x slot s' added fresh asked one out =>
      rw [one] at sent
      obtain rfl := List.mem_singleton.mp sent
      rw [out.sock] at client
      cases client

end Client

theorem tickEntries_mem {d : Dnsfwd} {idx : List (Fin inflightMax)} {s : Sent}
    (sent : s ∈ (tickEntries d idx).2) :
    ∃ i x, d.tbl.e i = some x ∧
      s ∈ answer x.cid (some x.q) rcodeServfail x.caddr x.cport := by
  induction idx generalizing d with
  | nil => cases sent
  | cons i rest ih =>
      rcases List.mem_append.mp sent with here | later
      · unfold tickEntry at here
        cases taken : d.tbl.e i with
        | none =>
            rw [taken] at here
            cases here
        | some x =>
            rw [taken] at here
            exact ⟨i, x, taken, here⟩
      · obtain ⟨j, x, left, made⟩ := ih later
        exact ⟨j, x, (Table.eq_some_of_free left).2, made⟩

/-- Over any run: what the forwarder itself builds for a client, at once or when the
query times out, answers a datagram of that client and is no longer than that datagram
with its name expanded, or than a header.  Only a compressed name grows. -/
theorem own_replies_bounded (lanIp lanMask up : UInt32) (past : List Event) :
    (∀ buf src sport io,
      ∀ s ∈ (forwarder.step (forwarder.run (configured lanIp lanMask up) past).1
        (Event.client buf src sport io)).2,
      s.sock = Sock.client → Answers s buf src sport ∧ Bounded s buf) ∧
    (∀ now,
      ∀ s ∈ (forwarder.step (forwarder.run (configured lanIp lanMask up) past).1
        (Event.tick now)).2,
      ∃ (k : Nat) (buf : List UInt8) (io : ClientIo),
        past[k]? = some (Event.client buf s.addr s.port io) ∧
          Answers s buf s.addr s.port ∧ Bounded s buf) ∧
    ∀ header name behind, header.length = hdrLen → WireName name →
      nameGrowth (header ++ name ++ behind) = 0 := by
  have booked := booked_run lanIp lanMask up past
  obtain ⟨causes, holder, ledger⟩ := booked.ledger
  refine ⟨?_, ?_, fun header name behind isHeader wire => nameGrowth_wire wire isHeader behind⟩
  · intro buf src sport io s sent client
    exact ⟨answers_onClient sent client, bounded_onClient sent client⟩
  · intro now s sent
    obtain ⟨i, x, taken, made⟩ := tickEntries_mem sent
    obtain ⟨encoded, built⟩ := answer_mem made
    obtain ⟨-, e, came, asked⟩ := ledger.asked i x taken
    cases asked with
    | @client buf io query parsed question id =>
        rw [← question, ← id] at encoded made
        have answers : Answers ⟨.client, s.bytes, x.caddr, x.cport⟩ buf x.caddr x.cport :=
          answers_servfail parsed encoded
        rw [← built] at answers
        rw [answers.addr, answers.port]
        exact ⟨holder i, buf, io, came, answers, bounded_servfail parsed made⟩

/-- A query from the LAN whose name is a pointer to its own id. -/
def pointsAtId : List UInt8 :=
  [1, 0x61, 0, 0, 0, 1, 0, 0, 0, 0, 0, 0, 0xC0, 0, 0, 1, 0, 1]

/-- What the forwarder sends when a first datagram comes from a client on the LAN. -/
def firstSends (buf : List UInt8) : List Sent :=
  (forwarder.step (configured 0x0A010101 0xFFFFFF00 0x01010101)
    (Event.client buf 0x0A010102 5353 { now := 0, draws := fun _ => none, goesOut := true })).2

/-- Two bytes from the LAN are answered with a header, and that query with its name
expanded: both replies are longer than what they answer. -/
theorem replies_outgrow_datagrams :
    (∃ s ∈ firstSends [0, 1], s.sock = Sock.client ∧ 2 < s.bytes.length) ∧
      ∃ s ∈ firstSends pointsAtId, s.sock = Sock.client ∧ pointsAtId.length < s.bytes.length := by
  decide +kernel

end RlxFw.Dns
