import RlxFw.DnsForward
import RlxFw.Reactor
import Mathlib.Data.Fintype.Card

/-!
# The forwarder answers what was asked, once

The forwarder run on datagrams and ticks in any order.  Every datagram to a
client is charged to one datagram of that client, and none is charged twice:
an entry of the in-flight table stands for a datagram that is not charged yet.
-/

namespace RlxFw.Dns

/-- What comes in. -/
inductive Event where
  | client (buf : List UInt8) (src : UInt32) (sport : UInt16) (io : ClientIo)
  | upstream (buf : List UInt8) (src : UInt32) (sport : UInt16)
  | tick (now : UInt32)

/-- The forwarder. -/
def forwarder : Reactor Dnsfwd Event Sent where
  step d
    | .client buf src sport io =>
        ((dnsfwdOnClient d buf src sport io).d,
          (dnsfwdOnClient d buf src sport io).sent)
    | .upstream buf src sport =>
        ((dnsfwdOnUpstream d buf src sport).d,
          (dnsfwdOnUpstream d buf src sport).sent)
    | .tick now => dnsfwdTick d now

/-- The forwarder at its start. -/
def configured (lanIp lanMask upstream : UInt32) : Dnsfwd :=
  dnsfwdConfig dnsfwdInit lanIp lanMask upstream

/-! ## The table -/

namespace Table

/-- The used entries. -/
def used (t : Table) : Finset (Fin inflightMax) :=
  Finset.univ.filter fun i => (t.e i).isSome

/-- No id twice in flight, and a counter that counts. -/
structure Sound (t : Table) : Prop where
  distinct : ∀ i j x y, t.e i = some x → t.e j = some y → x.uid = y.uid → i = j
  counted : t.nUsed = UInt32.ofNat t.used.card

variable {t t' : Table} {i : Fin inflightMax} {x : Inflight}

theorem mem_used : i ∈ t.used ↔ (t.e i).isSome := by
  simp [used]

theorem used_card_le (t : Table) : t.used.card ≤ inflightMax := by
  simpa using Finset.card_le_univ t.used

theorem Sound.toNat_nUsed (sound : t.Sound) : t.nUsed.toNat = t.used.card := by
  have small := t.used_card_le
  rw [sound.counted, UInt32.toNat_ofNat_of_lt']
  exact lt_of_le_of_lt small (by decide)

theorem sound_init : dnsTableInit.Sound where
  distinct := nofun
  counted := by decide

/-- Where an entry was added. -/
theorem add_eq_some (added : dnsTableAdd t x = some (t', i)) :
    t.e i = none ∧
      t' = { e := Function.update t.e i (some x), nUsed := t.nUsed + 1 } := by
  unfold dnsTableAdd at added
  split at added
  · cases added
  · rename_i found
    cases added
    have free := List.find?_some found
    exact ⟨Option.isNone_iff_eq_none.mp free, rfl⟩

theorem free_eq (taken : t.e i = some x) :
    dnsTableFree t i =
      { e := Function.update t.e i none, nUsed := t.nUsed - 1 } := by
  unfold dnsTableFree
  rw [taken]

/-- An entry added and freed leaves the table as it was. -/
theorem free_add (added : dnsTableAdd t x = some (t', i)) :
    dnsTableFree t' i = t := by
  obtain ⟨free, rfl⟩ := add_eq_some added
  rw [free_eq (Function.update_self ..)]
  cases t
  simp only [Function.update_idem, UInt32.add_sub_cancel, mk.injEq, and_true]
  exact Function.update_eq_self_iff.mpr free.symm

theorem uid_of_not_used {uid : UInt16} (fresh : dnsTableUidUsed t uid = false)
    (taken : t.e i = some x) : x.uid ≠ uid := by
  intro same
  have none := List.any_eq_false.mp fresh i (List.mem_finRange i)
  simp [taken, same] at none

theorem Sound.add (sound : t.Sound) (fresh : dnsTableUidUsed t x.uid = false)
    (added : dnsTableAdd t x = some (t', i)) : t'.Sound := by
  obtain ⟨free, rfl⟩ := add_eq_some added
  constructor
  · intro j k y z atJ atK same
    dsimp only at atJ atK
    by_cases jHere : j = i
    · subst jHere
      rw [Function.update_self] at atJ
      cases atJ
      by_contra apart
      rw [Function.update_of_ne (Ne.symm apart)] at atK
      exact uid_of_not_used fresh atK same.symm
    · rw [Function.update_of_ne jHere] at atJ
      by_cases kHere : k = i
      · subst kHere
        rw [Function.update_self] at atK
        cases atK
        exact absurd same (uid_of_not_used fresh atJ)
      · rw [Function.update_of_ne kHere] at atK
        exact sound.distinct j k y z atJ atK same
  · have grown : used { e := Function.update t.e i (some x), nUsed := t.nUsed + 1 } =
        insert i t.used := by
      ext j
      by_cases here : j = i <;> simp [used, here]
    have absent : i ∉ t.used := by simp [mem_used, free]
    change t.nUsed + 1 = _
    rw [grown, Finset.card_insert_of_notMem absent, sound.counted,
      UInt32.ofNat_add]
    rfl

/-- Freeing an entry leaves the others. -/
theorem eq_some_of_free {j : Fin inflightMax}
    (left : (dnsTableFree t i).e j = some x) : j ≠ i ∧ t.e j = some x := by
  cases taken : t.e i with
  | none =>
      unfold dnsTableFree at left
      rw [taken] at left
      refine ⟨?_, left⟩
      rintro rfl
      rw [taken] at left
      cases left
  | some y =>
      rw [free_eq taken] at left
      dsimp only at left
      by_cases here : j = i
      · subst here
        rw [Function.update_self] at left
        cases left
      · rw [Function.update_of_ne here] at left
        exact ⟨here, left⟩

theorem Sound.free (sound : t.Sound) (i : Fin inflightMax) :
    (dnsTableFree t i).Sound := by
  constructor
  · intro j k y z atJ atK same
    exact sound.distinct j k y z (eq_some_of_free atJ).2
      (eq_some_of_free atK).2 same
  cases taken : t.e i with
  | none =>
      unfold dnsTableFree
      rw [taken]
      exact sound.counted
  | some x =>
      have here : i ∈ t.used := by simp [mem_used, taken]
      have shrunk : used (dnsTableFree t i) = t.used.erase i := by
        rw [free_eq taken]
        ext j
        by_cases same : j = i <;> simp [used, same]
      rw [shrunk, free_eq taken]
      change t.nUsed - 1 = _
      have grown := Finset.card_erase_add_one here
      rw [sound.counted, ← grown, UInt32.ofNat_add]
      exact UInt32.add_sub_cancel _ _

end Table

/-! ## What an answer is -/

/-- Two questions that the forwarder takes for the same. -/
def Question.same (asked got : Question) : Prop :=
  asked.qtype = got.qtype ∧ asked.qclass = got.qclass ∧
    dnsNameEq asked.name got.name = true

/-- A datagram that answers a client's datagram: it goes back where that came
from, under its id, and where there was a question it is a SERVFAIL for it or a
reply to it. -/
structure Answers (s : Sent) (buf : List UInt8) (src : UInt32)
    (sport : UInt16) : Prop where
  sock : s.sock = .client
  addr : s.addr = src
  port : s.port = sport
  id : s.bytes.take 2 = buf.take 2
  question : ∀ query, dnsParseQuery buf = .ok query →
    dnsEncodeError query.h.id (some query.q) rcodeServfail msgMax =
        .ok s.bytes ∨
      ∃ msg reply, dnsParseReply msg = .ok reply ∧ query.q.same reply.q ∧
        s.bytes = dnsPut16 query.h.id ++ msg.drop 2

/-- A datagram that answers what came in. -/
inductive AnswersEvent (s : Sent) : Event → Prop where
  | client {buf src sport io} (answers : Answers s buf src sport) :
      AnswersEvent s (.client buf src sport io)

/-- An entry stands for what came in. -/
inductive Asked (x : Inflight) : Event → Prop where
  | client {buf io query} (parsed : dnsParseQuery buf = .ok query)
      (question : query.q = x.q) (id : query.h.id = x.cid) :
      Asked x (.client buf x.caddr x.cport io)

/-- The datagram by which an entry was forwarded. -/
structure Forwarded (up : UInt32) (upPort : UInt16) (x : Inflight) (s : Sent) :
    Prop where
  sock : s.sock = .upstream
  addr : s.addr = up
  port : s.port = upPort
  bytes : dnsEncodeQuery x.q x.uid true msgMax = .ok s.bytes

theorem answer_cases (id : UInt16) (q : Option Question) (rcode : UInt8)
    (addr : UInt32) (port : UInt16) :
    answer id q rcode addr port = [] ∨
      ∃ bytes, dnsEncodeError id q rcode msgMax = .ok bytes ∧
        answer id q rcode addr port = [⟨.client, bytes, addr, port⟩] := by
  unfold answer
  cases encoded : dnsEncodeError id q rcode msgMax with
  | error why => exact .inl rfl
  | ok bytes => exact .inr ⟨bytes, rfl, rfl⟩

/-- The id of an accepted query is its first two bytes. -/
theorem put_id_of_parsed {buf : List UInt8} {query : Query}
    (parsed : dnsParseQuery buf = .ok query) :
    dnsPut16 query.h.id = buf.take 2 := by
  obtain ⟨head, whole⟩ := dnsParseQuery_ok parsed
  rw [head]
  exact dnsPut16_dnsGet16 (le_trans (by decide) whole)

/-- A SERVFAIL answers the query it is for. -/
theorem answers_servfail {buf bytes : List UInt8} {query : Query}
    {src : UInt32} {sport : UInt16} (parsed : dnsParseQuery buf = .ok query)
    (encoded : dnsEncodeError query.h.id (some query.q) rcodeServfail msgMax =
      .ok bytes) :
    Answers ⟨.client, bytes, src, sport⟩ buf src sport where
  sock := rfl
  addr := rfl
  port := rfl
  id := (dnsEncodeError_take encoded).trans (put_id_of_parsed parsed)
  question query' parsed' := by
    rw [parsed] at parsed'
    cases parsed'
    exact .inl encoded

/-- A refusal answers what could not be parsed. -/
theorem answers_refusal {buf bytes : List UInt8} {bad : BadQuery}
    {rcode : UInt8} {src : UInt32} {sport : UInt16}
    (refused : dnsParseQuery buf = .error bad) (whole : 2 ≤ buf.length)
    (encoded : dnsEncodeError (dnsGet16 buf 0) bad.q rcode msgMax = .ok bytes) :
    Answers ⟨.client, bytes, src, sport⟩ buf src sport where
  sock := rfl
  addr := rfl
  port := rfl
  id := (dnsEncodeError_take encoded).trans (dnsPut16_dnsGet16 whole)
  question query parsed := by
    rw [refused] at parsed
    cases parsed

/-- What is sent for an entry answers the event the entry stands for. -/
theorem Asked.answered {x : Inflight} {e : Event} (asked : Asked x e)
    {bytes : List UInt8} (made :
      dnsEncodeError x.cid (some x.q) rcodeServfail msgMax = .ok bytes ∨
        ∃ msg reply, dnsParseReply msg = .ok reply ∧ x.q.same reply.q ∧
          bytes = dnsPut16 x.cid ++ msg.drop 2) :
    AnswersEvent ⟨.client, bytes, x.caddr, x.cport⟩ e := by
  cases asked with
  | @client buf io query parsed question id =>
      rw [← question, ← id] at made
      rcases made with encoded | ⟨msg, reply, got, same, rfl⟩
      · exact .client (answers_servfail parsed encoded)
      · refine .client ⟨rfl, rfl, rfl, ?_, ?_⟩
        · exact put_id_of_parsed parsed
        · intro query' parsed'
          rw [parsed] at parsed'
          cases parsed'
          exact .inr ⟨msg, reply, got, same, rfl⟩

/-! ## What a client's datagram does -/

/-- The outcomes of `dnsfwd_on_client`. -/
inductive ClientStep (d : Dnsfwd) (buf : List UInt8) (src : UInt32)
    (sport : UInt16) (io : ClientIo) (r : Handled) : Prop where
  | silent (tbl : r.d.tbl = d.tbl) (sent : r.sent = [])
  | answered (tbl : r.d.tbl = d.tbl) (s : Sent) (sent : r.sent = [s])
      (answers : Answers s buf src sport)
  | forwarded (x : Inflight) (slot : Fin inflightMax) (s : Sent)
      (added : dnsTableAdd d.tbl x = some (r.d.tbl, slot))
      (fresh : dnsTableUidUsed d.tbl x.uid = false)
      (asked : Asked x (.client buf src sport io)) (sent : r.sent = [s])
      (out : Forwarded d.upstream d.upstreamPort x s)

theorem not_used_of_drawUid {t : Table} {draws : List (Option UInt16)}
    {uid : UInt16} (drawn : drawUid t draws = .uid uid) :
    dnsTableUidUsed t uid = false := by
  induction draws with
  | nil => cases drawn
  | cons draw rest ih =>
      cases draw with
      | none => cases drawn
      | some first =>
          unfold drawUid at drawn
          split at drawn
          · exact ih drawn
          · cases drawn
            exact Bool.eq_false_iff.mpr ‹_›

section Client

variable {d : Dnsfwd} {buf : List UInt8} {src : UInt32} {sport : UInt16}
  {io : ClientIo}

/-- A SERVFAIL that leaves the table alone. -/
theorem clientStep_servfail {query : Query} {r : Handled}
    (parsed : dnsParseQuery buf = .ok query) (tbl : r.d.tbl = d.tbl)
    (sent : r.sent =
      answer query.h.id (some query.q) rcodeServfail src sport) :
    ClientStep d buf src sport io r := by
  rcases answer_cases query.h.id (some query.q) rcodeServfail src sport with
    none | ⟨bytes, encoded, one⟩
  · exact .silent tbl (sent.trans none)
  · exact .answered tbl _ (sent.trans one) (answers_servfail parsed encoded)

theorem clientStep_refuseQuery {bad : BadQuery}
    (refused : dnsParseQuery buf = .error bad) :
    ClientStep d buf src sport io (refuseQuery d buf src sport bad) := by
  unfold refuseQuery
  split
  · exact .silent rfl rfl
  next rcode answered =>
  split
  · exact .silent rfl rfl
  rcases answer_cases (dnsGet16 buf 0) bad.q rcode src sport with
    none | ⟨bytes, encoded, one⟩
  · exact .silent rfl none
  · exact .answered rfl _ one (answers_refusal refused (by omega) encoded)

theorem clientStep_forwardQuery {query : Query} {uid : UInt16}
    (parsed : dnsParseQuery buf = .ok query)
    (fresh : dnsTableUidUsed d.tbl uid = false) :
    ClientStep d buf src sport io (forwardQuery d src sport io query uid) := by
  unfold forwardQuery
  dsimp only
  split
  · exact .silent rfl rfl
  next tbl slot added =>
  split
  · exact clientStep_servfail parsed (Table.free_add added) rfl
  next out encoded =>
  split
  · exact .forwarded _ slot _ added fresh (.client parsed rfl rfl) rfl
      ⟨rfl, rfl, rfl, encoded⟩
  · exact clientStep_servfail parsed (Table.free_add added) rfl

/-- A step is the same with tokens taken from the rate limit. -/
theorem ClientStep.of_rate {rate : Rate} {r : Handled}
    (step : ClientStep { d with rate } buf src sport io r) :
    ClientStep d buf src sport io r := by
  cases step with
  | silent tbl sent => exact .silent tbl sent
  | answered tbl s sent answers => exact .answered tbl s sent answers
  | forwarded x slot s added fresh asked sent out =>
      exact .forwarded x slot s added fresh asked sent out

theorem clientStep (d : Dnsfwd) (buf : List UInt8) (src : UInt32)
    (sport : UInt16) (io : ClientIo) :
    ClientStep d buf src sport io (dnsfwdOnClient d buf src sport io) := by
  unfold dnsfwdOnClient
  split
  · exact .silent rfl rfl
  split
  · exact .silent rfl rfl
  dsimp only
  split
  · exact .silent rfl rfl
  apply ClientStep.of_rate
  cases parsed : dnsParseQuery buf with
  | error bad => exact clientStep_refuseQuery parsed
  | ok query =>
      dsimp only
      cases drawn : drawUid d.tbl (List.ofFn io.draws) with
      | noRandom => exact clientStep_servfail parsed rfl rfl
      | allUsed => exact .silent rfl rfl
      | uid uid =>
          exact clientStep_forwardQuery parsed (not_used_of_drawUid drawn)

end Client

/-! ## What a reply does -/

/-- A reply that is relayed: the four halves of the check, and the client's own
id before bytes that are otherwise the upstream's. -/
structure Relayed (d : Dnsfwd) (buf : List UInt8) (src : UInt32)
    (sport : UInt16) (x : Inflight) (reply : Reply) (s : Sent) : Prop where
  addr : src = d.upstream
  port : sport = d.upstreamPort
  parsed : dnsParseReply buf = .ok reply
  id : reply.h.id = x.uid
  question : x.q.same reply.q
  sent : s = ⟨.client, dnsPut16 x.cid ++ buf.drop 2, x.caddr, x.cport⟩

/-- The outcomes of `dnsfwd_on_upstream`. -/
inductive UpstreamStep (d : Dnsfwd) (buf : List UInt8) (src : UInt32)
    (sport : UInt16) (r : Handled) : Prop where
  | silent (same : r.d = d) (sent : r.sent = [])
  | relayed (i : Fin inflightMax) (x : Inflight) (reply : Reply) (s : Sent)
      (taken : d.tbl.e i = some x)
      (freed : r.d = { d with tbl := dnsTableFree d.tbl i })
      (sent : r.sent = [s]) (relayed : Relayed d buf src sport x reply s)

theorem isFor_iff {x : Inflight} {uid : UInt16} {q : Question} :
    x.isFor uid q = true ↔ x.uid = uid ∧ x.q.same q := by
  simp [Inflight.isFor, Question.same, and_assoc]

theorem upstreamStep (d : Dnsfwd) (buf : List UInt8) (src : UInt32)
    (sport : UInt16) :
    UpstreamStep d buf src sport (dnsfwdOnUpstream d buf src sport) := by
  unfold dnsfwdOnUpstream
  split
  · exact .silent rfl rfl
  next source =>
  push Not at source
  cases parsed : dnsParseReply buf with
  | error why => exact .silent rfl rfl
  | ok reply =>
      dsimp only
      cases found : dnsTableMatch d.tbl reply.h.id reply.q with
      | none => exact .silent rfl rfl
      | some i =>
          have tested := List.find?_some found
          obtain ⟨x, taken, isFor⟩ := (Option.any_eq_true _ _).mp tested
          obtain ⟨id, question⟩ := isFor_iff.mp isFor
          refine .relayed i x reply _ taken rfl ?_
            ⟨source.1, source.2, parsed, id.symm, question, rfl⟩
          dsimp only
          rw [taken]
          rfl

/-! ## The runs -/

/-- Both were configured for one upstream. -/
def SameUpstream (d d' : Dnsfwd) : Prop :=
  d'.upstream = d.upstream ∧ d'.upstreamPort = d.upstreamPort

theorem sameUpstream_onClient (d : Dnsfwd) (buf : List UInt8) (src : UInt32)
    (sport : UInt16) (io : ClientIo) :
    SameUpstream d (dnsfwdOnClient d buf src sport io).d := by
  have refused (d : Dnsfwd) (bad : BadQuery) :
      (refuseQuery d buf src sport bad).d = d := by
    unfold refuseQuery
    repeat' split
    all_goals rfl
  have forwarded (d : Dnsfwd) (query : Query) (uid : UInt16) :
      SameUpstream d (forwardQuery d src sport io query uid).d := by
    unfold forwardQuery
    dsimp only
    repeat' split
    all_goals exact ⟨rfl, rfl⟩
  unfold dnsfwdOnClient
  dsimp only
  repeat' split
  all_goals try exact ⟨rfl, rfl⟩
  · rw [refused]
    exact ⟨rfl, rfl⟩
  · exact forwarded _ _ _

theorem sameUpstream_tickEntries (d : Dnsfwd) (idx : List (Fin inflightMax)) :
    SameUpstream d (tickEntries d idx).1 := by
  induction idx generalizing d with
  | nil => exact ⟨rfl, rfl⟩
  | cons i rest ih => exact ih (tickEntry d i).1

theorem sameUpstream_step (d : Dnsfwd) (e : Event) :
    SameUpstream d (forwarder.step d e).1 := by
  cases e with
  | client buf src sport io => exact sameUpstream_onClient d buf src sport io
  | upstream buf src sport =>
      change SameUpstream d (dnsfwdOnUpstream d buf src sport).d
      cases upstreamStep d buf src sport with
      | silent same sent =>
          rw [same]
          exact ⟨rfl, rfl⟩
      | relayed i x reply s taken freed sent relayed =>
          rw [freed]
          exact ⟨rfl, rfl⟩
  | tick now => exact sameUpstream_tickEntries d _

/-! ## The ledger -/

/-- Which datagram every answer was charged to, and which one every entry
stands for. -/
structure Ledger (events : List Event) (t : Table) (log : List Sent)
    (causes : List Nat) (holder : Fin inflightMax → Nat) : Prop where
  answered : List.Forall₂ (fun k s => ∃ e, events[k]? = some e ∧ AnswersEvent s e)
    causes (log.filter fun s => s.sock = .client)
  nodup : causes.Nodup
  asked : ∀ i x, t.e i = some x →
    holder i ∉ causes ∧ ∃ e, events[holder i]? = some e ∧ Asked x e
  apart : ∀ i j x y, t.e i = some x → t.e j = some y → holder i = holder j →
    i = j

namespace Ledger

variable {events : List Event} {t t' : Table} {log : List Sent}
  {causes : List Nat} {holder : Fin inflightMax → Nat}

theorem exists_of_forall₂_mem {α β : Type} {R : α → β → Prop} {as : List α}
    {bs : List β} (related : List.Forall₂ R as bs) {a : α} (among : a ∈ as) :
    ∃ b, R a b := by
  induction related with
  | nil => cases among
  | @cons a' b as bs here rest ih =>
      rcases List.mem_cons.mp among with rfl | later
      · exact ⟨b, here⟩
      · exact ih later

/-- What came in stays where it is. -/
theorem came_later {k : Nat} {e last : Event} (came : events[k]? = some e) :
    (events ++ [last])[k]? = some e := by
  rw [List.getElem?_append_left (List.getElem?_eq_some_iff.mp came).1]
  exact came

theorem later (ledger : Ledger events t log causes holder) (last : Event) :
    Ledger (events ++ [last]) t log causes holder where
  answered := ledger.answered.imp fun _ _ ⟨e, came, answers⟩ =>
    ⟨e, came_later came, answers⟩
  nodup := ledger.nodup
  asked i x taken := by
    obtain ⟨uncharged, e, came, asked⟩ := ledger.asked i x taken
    exact ⟨uncharged, e, came_later came, asked⟩
  apart := ledger.apart

/-- The event to come is charged nothing yet. -/
theorem next_uncharged (ledger : Ledger events t log causes holder) :
    events.length ∉ causes ∧
      ∀ i x, t.e i = some x → holder i ≠ events.length := by
  constructor
  · intro charged
    obtain ⟨s, e, came, -⟩ := exists_of_forall₂_mem ledger.answered charged
    simp at came
  · intro i x taken here
    obtain ⟨-, e, came, -⟩ := ledger.asked i x taken
    rw [here] at came
    simp at came

/-- Entries may go without an answer. -/
theorem narrow (ledger : Ledger events t log causes holder)
    (kept : ∀ i x, t'.e i = some x → t.e i = some x) :
    Ledger events t' log causes holder where
  answered := ledger.answered
  nodup := ledger.nodup
  asked i x taken := ledger.asked i x (kept i x taken)
  apart i j x y atI atJ := ledger.apart i j x y (kept i x atI) (kept j y atJ)

/-- An answer is charged to an event that no entry stands for any more. -/
theorem charge (ledger : Ledger events t log causes holder) {k : Nat}
    {e : Event} {s : Sent} (new : k ∉ causes) (came : events[k]? = some e)
    (answers : AnswersEvent s e)
    (kept : ∀ i x, t'.e i = some x → t.e i = some x ∧ holder i ≠ k) :
    Ledger events t' (log ++ [s]) (causes ++ [k]) holder := by
  have client : s.sock = .client := by
    cases answers with
    | client answers => exact answers.sock
  constructor
  · rw [List.filter_append, List.filter_singleton, client]
    exact List.rel_append ledger.answered (.cons ⟨e, came, answers⟩ .nil)
  · refine List.nodup_append.mpr ⟨ledger.nodup, List.nodup_singleton k, ?_⟩
    rintro a charged b here rfl
    rw [List.mem_singleton.mp here] at charged
    exact new charged
  · intro i x taken
    obtain ⟨before, other⟩ := kept i x taken
    obtain ⟨uncharged, asked⟩ := ledger.asked i x before
    refine ⟨?_, asked⟩
    simp [uncharged, other]
  · intro i j x y atI atJ
    exact ledger.apart i j x y (kept i x atI).1 (kept j y atJ).1

/-- What goes to the upstream is charged to nobody. -/
theorem outward (ledger : Ledger events t log causes holder) {s : Sent}
    (out : s.sock = .upstream) :
    Ledger events t (log ++ [s]) causes holder where
  answered := by
    rw [List.filter_append, List.filter_singleton, out]
    simpa using ledger.answered
  nodup := ledger.nodup
  asked := ledger.asked
  apart := ledger.apart

/-- An entry is taken for an event that is charged nothing. -/
theorem take (ledger : Ledger events t log causes holder) {k : Nat} {e : Event}
    {i : Fin inflightMax} {x : Inflight}
    (unheld : ∀ j y, t.e j = some y → holder j ≠ k) (new : k ∉ causes)
    (came : events[k]? = some e) (asked : Asked x e) (n : UInt32) :
    Ledger events { e := Function.update t.e i (some x), nUsed := n } log causes
      (Function.update holder i k) := by
  have other {j : Fin inflightMax} {y : Inflight} (apart : j ≠ i)
      (taken : Function.update t.e i (some x) j = some y) :
      t.e j = some y ∧ Function.update holder i k j = holder j := by
    rw [Function.update_of_ne apart] at taken
    exact ⟨taken, Function.update_of_ne apart ..⟩
  refine ⟨ledger.answered, ledger.nodup, ?_, ?_⟩
  · intro j y taken
    by_cases here : j = i
    · subst here
      dsimp only at taken
      rw [Function.update_self] at taken ⊢
      cases taken
      exact ⟨new, e, came, asked⟩
    · obtain ⟨before, same⟩ := other here taken
      rw [same]
      exact ledger.asked j y before
  · intro j l y z atJ atL same
    by_cases jHere : j = i <;> by_cases lHere : l = i
    · rw [jHere, lHere]
    · obtain ⟨before, held⟩ := other lHere atL
      rw [jHere, Function.update_self, held] at same
      exact absurd same.symm (unheld l z before)
    · obtain ⟨before, held⟩ := other jHere atJ
      rw [lHere, Function.update_self, held] at same
      exact absurd same (unheld j y before)
    · obtain ⟨beforeJ, heldJ⟩ := other jHere atJ
      obtain ⟨beforeL, heldL⟩ := other lHere atL
      rw [heldJ, heldL] at same
      exact ledger.apart j l y z beforeJ beforeL same

end Ledger

/-- What holds of every history of the forwarder. -/
structure Booked (up : UInt32) (events : List Event) (d : Dnsfwd)
    (log : List Sent) : Prop where
  upstream : d.upstream = up
  port : d.upstreamPort = dnsPort
  sound : d.tbl.Sound
  forwarded : ∀ i x, d.tbl.e i = some x →
    ∃ s ∈ log, Forwarded up dnsPort x s
  ledger : ∃ causes holder, Ledger events d.tbl log causes holder

namespace Booked

variable {up : UInt32} {past : List Event} {d d' : Dnsfwd} {log : List Sent}

theorem start (lanIp lanMask up : UInt32) :
    Booked up [] (configured lanIp lanMask up) [] where
  upstream := rfl
  port := rfl
  sound := Table.sound_init
  forwarded := nofun
  ledger := ⟨[], fun _ => 0, .nil, .nil, nofun, nofun⟩

/-- An entry is freed for an answer. -/
theorem free_answered (booked : Booked up past d log) {i : Fin inflightMax}
    {x : Inflight} (taken : d.tbl.e i = some x) {bytes : List UInt8}
    (made :
      dnsEncodeError x.cid (some x.q) rcodeServfail msgMax = .ok bytes ∨
        ∃ msg reply, dnsParseReply msg = .ok reply ∧ x.q.same reply.q ∧
          bytes = dnsPut16 x.cid ++ msg.drop 2) :
    Booked up past { d with tbl := dnsTableFree d.tbl i }
      (log ++ [⟨.client, bytes, x.caddr, x.cport⟩]) where
  upstream := booked.upstream
  port := booked.port
  sound := booked.sound.free i
  forwarded j y left := by
    obtain ⟨s, sent, out⟩ :=
      booked.forwarded j y (Table.eq_some_of_free left).2
    exact ⟨s, List.mem_append_left _ sent, out⟩
  ledger := by
    obtain ⟨causes, holder, ledger⟩ := booked.ledger
    obtain ⟨uncharged, e, came, asked⟩ := ledger.asked i x taken
    refine ⟨causes ++ [holder i], holder,
      ledger.charge uncharged came (asked.answered made) fun j y left => ?_⟩
    obtain ⟨other, before⟩ := Table.eq_some_of_free left
    exact ⟨before, fun same => other (ledger.apart j i y x before taken same)⟩

/-- An entry is freed, and no answer could be made. -/
theorem free_unanswered (booked : Booked up past d log) (i : Fin inflightMax) :
    Booked up past { d with tbl := dnsTableFree d.tbl i } log where
  upstream := booked.upstream
  port := booked.port
  sound := booked.sound.free i
  forwarded j y left := booked.forwarded j y (Table.eq_some_of_free left).2
  ledger := by
    obtain ⟨causes, holder, ledger⟩ := booked.ledger
    exact ⟨causes, holder,
      ledger.narrow fun j y left => (Table.eq_some_of_free left).2⟩

theorem later (booked : Booked up past d log) (last : Event) :
    Booked up (past ++ [last]) d log where
  upstream := booked.upstream
  port := booked.port
  sound := booked.sound
  forwarded := booked.forwarded
  ledger := by
    obtain ⟨causes, holder, ledger⟩ := booked.ledger
    exact ⟨causes, holder, ledger.later last⟩

theorem tickEntry (booked : Booked up past d log) (i : Fin inflightMax) :
    Booked up past (tickEntry d i).1 (log ++ (tickEntry d i).2) := by
  unfold Dns.tickEntry
  cases taken : d.tbl.e i with
  | none => simpa using booked.free_unanswered i
  | some x =>
      rcases answer_cases x.cid (some x.q) rcodeServfail x.caddr x.cport with
        nothing | ⟨bytes, encoded, one⟩
      · simpa [nothing] using booked.free_unanswered i
      · simpa [one] using booked.free_answered taken (.inl encoded)

theorem tickEntries (booked : Booked up past d log)
    (idx : List (Fin inflightMax)) :
    Booked up past (tickEntries d idx).1 (log ++ (tickEntries d idx).2) := by
  induction idx generalizing d log with
  | nil => simpa [Dns.tickEntries] using booked
  | cons i rest ih =>
      have after := ih (booked.tickEntry i)
      rwa [List.append_assoc] at after

theorem onUpstream (booked : Booked up past d log) (buf : List UInt8)
    (src : UInt32) (sport : UInt16) :
    Booked up past (dnsfwdOnUpstream d buf src sport).d
      (log ++ (dnsfwdOnUpstream d buf src sport).sent) := by
  cases upstreamStep d buf src sport with
  | silent same sent =>
      rw [same, sent, List.append_nil]
      exact booked
  | relayed i x reply s taken freed sent relayed =>
      rw [freed, sent, relayed.sent]
      exact booked.free_answered taken
        (.inr ⟨buf, reply, relayed.parsed, relayed.question, rfl⟩)

theorem onClient (booked : Booked up past d log) (buf : List UInt8)
    (src : UInt32) (sport : UInt16) (io : ClientIo) :
    Booked up (past ++ [.client buf src sport io])
      (dnsfwdOnClient d buf src sport io).d
      (log ++ (dnsfwdOnClient d buf src sport io).sent) := by
  have same := sameUpstream_onClient d buf src sport io
  have up' := same.1.trans booked.upstream
  have port' := same.2.trans booked.port
  obtain ⟨causes, holder, ledger⟩ := booked.ledger
  obtain ⟨uncharged, unheld⟩ := ledger.next_uncharged
  have came : (past ++ [Event.client buf src sport io])[past.length]? =
      some (.client buf src sport io) := by simp
  have ledger := ledger.later (.client buf src sport io)
  cases clientStep d buf src sport io with
  | silent tbl sent =>
      rw [sent, List.append_nil]
      exact
        { upstream := up', port := port'
          sound := tbl ▸ booked.sound
          forwarded := tbl ▸ booked.forwarded
          ledger := ⟨causes, holder, tbl ▸ ledger⟩ }
  | answered tbl s sent answers =>
      rw [sent]
      refine
        { upstream := up', port := port'
          sound := tbl ▸ booked.sound
          forwarded := ?_
          ledger := ⟨causes ++ [past.length], holder,
            ledger.charge uncharged came (.client answers) ?_⟩ }
      · rw [tbl]
        intro i x taken
        obtain ⟨out, logged, forwarded⟩ := booked.forwarded i x taken
        exact ⟨out, List.mem_append_left _ logged, forwarded⟩
      · rw [tbl]
        exact fun i x taken => ⟨taken, unheld i x taken⟩
  | forwarded x slot s added fresh asked sent out =>
      rw [sent]
      rw [booked.upstream, booked.port] at out
      obtain ⟨-, grown⟩ := Table.add_eq_some added
      refine
        { upstream := up', port := port'
          sound := booked.sound.add fresh added
          forwarded := ?_
          ledger := ⟨causes, Function.update holder slot past.length, ?_⟩ }
      · rw [grown]
        intro i y taken
        by_cases here : i = slot
        · subst here
          dsimp only at taken
          rw [Function.update_self] at taken
          cases taken
          exact ⟨s, by simp, out⟩
        · dsimp only at taken
          rw [Function.update_of_ne here] at taken
          obtain ⟨before, logged, forwarded⟩ := booked.forwarded i y taken
          exact ⟨before, List.mem_append_left _ logged, forwarded⟩
      · rw [grown]
        exact (ledger.take unheld uncharged came asked _).outward out.sock

end Booked

/-- A run of the forwarder leaves a history that is booked. -/
theorem booked_run (lanIp lanMask up : UInt32) (events : List Event) :
    Booked up events (forwarder.run (configured lanIp lanMask up) events).1
      (forwarder.run (configured lanIp lanMask up) events).2 := by
  refine forwarder.run_history (Booked.start lanIp lanMask up) ?_ events
  intro past d log e booked
  cases e with
  | client buf src sport io => exact booked.onClient buf src sport io
  | upstream buf src sport => exact (booked.onUpstream buf src sport).later _
  | tick now => exact (booked.tickEntries _).later _

/-- Over any run: every datagram to a client answers a datagram of that client,
and no datagram of a client is answered twice.  A reply is relayed only when
its source and its port are the ones the query of one in-flight entry went to
and its id and its question are that entry's; what goes out is then the reply
under the client's own id.  The ids in flight are distinct and the counter
counts the used entries. -/
theorem dns_answers_once (lanIp lanMask up : UInt32) (events : List Event) :
    (∃ causes : List Nat, causes.Nodup ∧
      List.Forall₂
        (fun k s => ∃ e, events[k]? = some e ∧ AnswersEvent s e) causes
        ((forwarder.run (configured lanIp lanMask up) events).2.filter
          fun s => s.sock = .client)) ∧
    (∀ buf src sport,
      ∀ s ∈ (forwarder.step (forwarder.run (configured lanIp lanMask up)
        events).1 (.upstream buf src sport)).2,
      ∃ i x reply,
        (forwarder.run (configured lanIp lanMask up) events).1.tbl.e i =
          some x ∧
        Relayed (forwarder.run (configured lanIp lanMask up) events).1 buf src
          sport x reply s ∧
        ∃ out ∈ (forwarder.run (configured lanIp lanMask up) events).2,
          Forwarded src sport x out) ∧
    (∀ i j x y,
      (forwarder.run (configured lanIp lanMask up) events).1.tbl.e i = some x →
      (forwarder.run (configured lanIp lanMask up) events).1.tbl.e j = some y →
      x.uid = y.uid → i = j) ∧
    (forwarder.run (configured lanIp lanMask up) events).1.tbl.nUsed.toNat =
      (forwarder.run (configured lanIp lanMask up) events).1.tbl.used.card := by
  have booked := booked_run lanIp lanMask up events
  obtain ⟨causes, holder, ledger⟩ := booked.ledger
  refine ⟨⟨causes, ledger.nodup, ledger.answered⟩, ?_, booked.sound.distinct,
    booked.sound.toNat_nUsed⟩
  intro buf src sport s sent
  cases upstreamStep (forwarder.run (configured lanIp lanMask up) events).1 buf
      src sport with
  | silent same nothing =>
      change s ∈ (dnsfwdOnUpstream _ buf src sport).sent at sent
      rw [nothing] at sent
      cases sent
  | relayed i x reply s' taken freed one relayed =>
      change s ∈ (dnsfwdOnUpstream _ buf src sport).sent at sent
      rw [one] at sent
      rw [List.mem_singleton.mp sent]
      refine ⟨i, x, reply, taken, relayed, ?_⟩
      rw [relayed.addr, relayed.port, booked.upstream, booked.port]
      exact booked.forwarded i x taken

end RlxFw.Dns
