import RlxFw.HttpDocuments

/-!
# The tokens of a login come back

A login's answer hands out the session's two tokens, in its cookies and in its body.  A request
that brings them back as they were handed out passes the gate, and asks the broker with the
bytes that the broker gave.
-/

namespace RlxFw.Httpd

open Broker (Req Resp Token protoBe32 opLoginId)
open Http
open Json (Member Value Layout PlainKey PlainMember Writer tightBody)
open MessageHead (Field)

/-! ## Digits -/

section Digits

variable {f g : Nat → UInt8} {bytes : List UInt8}

theorem byteAt_pairs (f g : Nat → UInt8) {n i : Nat} (inside : i < n) (rest : List UInt8) :
    byteAt ((List.range n).flatMap (fun i => [f i, g i]) ++ rest) (i * 2) = f i ∧
      byteAt ((List.range n).flatMap (fun i => [f i, g i]) ++ rest) (i * 2 + 1) = g i := by
  induction n generalizing rest with
  | zero => cases inside
  | succ n ih =>
      have snoc : (List.range (n + 1)).flatMap (fun i => [f i, g i]) ++ rest =
          (List.range n).flatMap (fun i => [f i, g i]) ++ (f n :: g n :: rest) := by
        simp [List.range_succ]
      have size : ((List.range n).flatMap fun i => [f i, g i]).length = n * 2 := by
        simp [List.length_flatMap]
      rw [snoc]
      rcases Nat.lt_succ_iff_lt_or_eq.mp inside with before | rfl
      · exact ih before _
      · unfold byteAt
        rw [List.getD_append_right _ _ _ _ (by omega), List.getD_append_right _ _ _ _ (by omega),
          size]
        simp

theorem mapM_some {α β : Type} {f : α → Option β} {g : α → β} {as : List α}
    (each : ∀ a ∈ as, f a = some (g a)) : as.mapM f = some (as.map g) := by
  induction as with
  | nil => rfl
  | cons a as ih =>
      obtain ⟨here, later⟩ := List.forall_mem_cons.mp each
      rw [List.mapM_cons, here, ih later]
      rfl

/-- The two digits of a byte. -/
theorem byteAt_hex16 (bytes : List UInt8) {i : Nat} (inside : i < 16) :
    hexdig (byteAt (hex16 bytes) (i * 2)) = some (byteAt bytes i >>> 4) ∧
      hexdig (byteAt (hex16 bytes) (i * 2 + 1)) = some (byteAt bytes i &&& 0x0F) := by
  have places := byteAt_pairs
    (fun i => byteAt (ascii "0123456789abcdef") (byteAt bytes i >>> 4).toNat)
    (fun i => byteAt (ascii "0123456789abcdef") (byteAt bytes i &&& 0x0F).toNat) inside []
  rw [List.append_nil] at places
  obtain ⟨high, low, -⟩ := hexdig_digits (byteAt bytes i)
  unfold hex16
  dsimp only
  rw [places.1, places.2]
  exact ⟨high, low⟩

theorem map_byteAt {n : Nat} (room : n ≤ bytes.length) :
    (List.range n).map (byteAt bytes) = bytes.take n := by
  apply List.ext_getElem
  · rw [List.length_map, List.length_range, List.length_take, Nat.min_eq_left room]
  · intro i first second
    rw [List.length_map, List.length_range] at first
    rw [List.getElem_map, List.getElem_range, List.getElem_take, byteAt,
      List.getD_eq_getElem _ _ (by omega)]

/-- The digits of sixteen bytes are read back as the bytes. -/
theorem unhex16_hex16 (room : 16 ≤ bytes.length) :
    ∃ token, unhex16 (hex16 bytes) = some token ∧ token.bytes = bytes.take 16 := by
  have each : ∀ i ∈ List.range 16, (do
      let h ← hexdig (byteAt (hex16 bytes) (i * 2))
      let l ← hexdig (byteAt (hex16 bytes) (i * 2 + 1))
      pure (h <<< 4 ||| l)) = some (byteAt bytes i) := by
    intro i listed
    obtain ⟨high, low⟩ := byteAt_hex16 bytes (List.mem_range.mp listed)
    rw [high, low]
    exact congrArg some (hexdig_digits (byteAt bytes i)).2.2
  refine ⟨Token.zero.overwrite (bytes.take 16), ?_, ?_⟩
  · unfold unhex16
    rw [mapM_some each, map_byteAt room]
    rfl
  · have size : (bytes.take 16).length = 16 := by
      rw [List.length_take, Nat.min_eq_left room]
    have whole : Token.zero.bytes.length = 16 := Token.zero.length_eq
    change (bytes.take 16).take 16 ++ Token.zero.bytes.drop (bytes.take 16).length = _
    rw [size, List.drop_of_length_le (by omega), List.append_nil, List.take_of_length_le (by omega)]

theorem tokenOf_hex16 (room : 16 ≤ bytes.length) :
    ∃ token, tokenOf (hex16 bytes) = some token ∧ token.bytes = bytes.take 16 := by
  obtain ⟨token, read, same⟩ := unhex16_hex16 room
  refine ⟨token, ?_, same⟩
  have present : byteAt (hex16 bytes) 0 ≠ 0 := by
    intro absent
    obtain ⟨first, -⟩ := byteAt_hex16 bytes (i := 0) (by decide)
    rw [Nat.zero_mul, absent] at first
    cases first
  rw [tokenOf, if_pos present, read]

end Digits

/-! ## The jar -/

/-- What a browser keeps of an answer: of each cookie, its name and its value. -/
def handedOut (fields : List Field) : List (List UInt8) :=
  (fields.filter fun f => f.name = ascii "Set-Cookie").map fun f =>
    f.value.takeWhile fun c => c != 0x3B

/-- What a browser sends of its jar. -/
def jarText : List (List UInt8) → List UInt8
  | [] => []
  | [pair] => pair
  | pair :: next :: jar => pair ++ 0x3B :: 0x20 :: jarText (next :: jar)

/-- A jar that holds the cookies of an answer, and others of other names. -/
structure Jar (kept jar : List (List UInt8)) : Prop where
  whole : ∀ pair ∈ jar, (0x3B : UInt8) ∉ pair
  holds : ∀ pair ∈ kept, pair ∈ jar
  others : ∀ pair ∈ jar, pair ∉ kept → ∀ named ∈ cookieOf pair,
    named.1 ≠ ascii "rlxs" ∧ named.1 ≠ ascii "rlxc"

instance (kept jar : List (List UInt8)) : Decidable (Jar kept jar) :=
  decidable_of_iff
    ((∀ pair ∈ jar, (0x3B : UInt8) ∉ pair) ∧ (∀ pair ∈ kept, pair ∈ jar) ∧
      ∀ pair ∈ jar, pair ∉ kept → ∀ named ∈ cookieOf pair,
        named.1 ≠ ascii "rlxs" ∧ named.1 ≠ ascii "rlxc")
    ⟨fun all => ⟨all.1, all.2.1, all.2.2⟩, fun jar => ⟨jar.whole, jar.holds, jar.others⟩⟩

section Cookie

variable {jar kept : List (List UInt8)}

theorem cookiePairs_jarText (whole : ∀ pair ∈ jar, (0x3B : UInt8) ∉ pair) :
    cookiePairs (jarText jar) = jar.filterMap cookieOf := by
  induction jar with
  | nil => rfl
  | cons pair jar ih =>
      obtain ⟨here, later⟩ := List.forall_mem_cons.mp whole
      cases jar with
      | nil =>
          have alone := pieces_append here []
          rw [List.append_nil, pieces, List.append_nil] at alone
          rw [jarText, cookiePairs, alone]
      | cons next jar =>
          have blank : cookieGap 0x20 = true := by decide
          have rest : cookiePairs (0x20 :: jarText (next :: jar)) =
              (next :: jar).filterMap cookieOf := by
            rw [cookiePairs_gap blank, ih later]
          unfold cookiePairs at rest
          rw [jarText, cookiePairs, pieces_append here, pieces, if_pos rfl]
          dsimp only
          rw [List.append_nil, List.filterMap_cons, rest, ← List.filterMap_cons]

/-- The token of a cookie that is there once. -/
theorem cookieToken_jar (whole : ∀ pair ∈ jar, (0x3B : UInt8) ∉ pair) {key value : List UInt8}
    (there : ∃ pair ∈ jar, cookieOf pair = some (key, value))
    (only : ∀ pair ∈ jar, ∀ named, cookieOf pair = some named → named.1 = key →
      named.2 = value) : cookieToken key (jarText jar) = takeTok32 value := by
  obtain ⟨pair, listed, reads⟩ := there
  unfold cookieToken
  rw [cookiePairs_jarText whole]
  cases found : (jar.filterMap cookieOf).reverse.find? fun named => named.1 == key with
  | none =>
      have absent := List.find?_eq_none.mp found (key, value)
        (List.mem_reverse.mpr (List.mem_filterMap.mpr ⟨pair, listed, reads⟩))
      exact absurd (beq_iff_eq.mpr rfl) absent
  | some named =>
      have named_ := List.find?_some found
      have listed := List.mem_reverse.mp (List.mem_of_find?_eq_some found)
      obtain ⟨other, inJar, reads⟩ := List.mem_filterMap.mp listed
      dsimp only
      rw [only other inJar named reads (beq_iff_eq.mp named_)]

end Cookie

/-! ## The answer -/

section Answer

variable {rs : HttpRsp} {sess csrf : List UInt8}

theorem token_plain (token : Http.Token csrf) :
    (0x3B : UInt8) ∉ csrf ∧ (∀ c ∈ csrf, Json.quoteByte c = some [c]) ∧ cString csrf = csrf := by
  have each : ∀ c : UInt8, (hexdig c).isSome = true →
      c ≠ 0x3B ∧ Json.quoteByte c = some [c] ∧ (c != 0) = true := by
    apply forall_byte
    decide
  refine ⟨fun listed => (each _ (token.2 _ listed)).1 rfl,
    fun c listed => (each c (token.2 c listed)).2.1, ?_⟩
  exact List.takeWhile_eq_self_iff.mpr fun c listed => (each c (token.2 c listed)).2.2

theorem takeTok32_token (token : Http.Token csrf) : takeTok32 csrf = csrf := by
  unfold takeTok32
  rw [if_neg (not_not.mpr token.1), if_pos (List.all_eq_true.mpr token.2)]

/-- The pair that a browser keeps of a cookie. -/
theorem kept_cookieField (token : Http.Token sess) :
    ((cookieField true (some sess)).value.takeWhile fun c => c != 0x3B) =
        ascii "rlxs=" ++ sess ∧
      ((cookieField false (some sess)).value.takeWhile fun c => c != 0x3B) =
        ascii "rlxc=" ++ sess := by
  have digits : ∀ c ∈ sess, (c != 0x3B) = true := fun c listed =>
    bne_iff_ne.mpr fun same => (token_plain token).1 (same ▸ listed)
  have literals : (ascii "rlxs=").all (fun c => c != 0x3B) = true ∧
      (ascii "rlxc=").all (fun c => c != 0x3B) = true ∧
      (ascii "; Path=/; HttpOnly; SameSite=Strict").takeWhile (fun c => c != 0x3B) = [] ∧
      (ascii "; Path=/; SameSite=Strict").takeWhile (fun c => c != 0x3B) = [] := by
    decide
  unfold cookieField
  dsimp only [Option.getD_some]
  constructor
  · rw [if_pos rfl, if_pos rfl, if_neg nofun, List.append_nil, List.append_assoc,
      List.takeWhile_append_of_pos (List.all_eq_true.mp literals.1),
      List.takeWhile_append_of_pos digits,
      literals.2.2.1, List.append_nil]
  · rw [if_neg nofun, if_neg nofun, if_neg nofun, List.append_nil, List.append_assoc,
      List.takeWhile_append_of_pos (List.all_eq_true.mp literals.2.1),
      List.takeWhile_append_of_pos digits,
      literals.2.2.2, List.append_nil]

/-- Only the two cookies are handed out. -/
theorem handedOut_headOf (first : Http.Token sess) (second : Http.Token csrf) :
    handedOut (headOf rs (.given sess csrf)).fields =
      [ascii "rlxs=" ++ sess, ascii "rlxc=" ++ csrf] := by
  have passed {fs : List Field} (names : ∀ f ∈ fs, f.name ≠ ascii "Set-Cookie") :
      fs.filter (fun f => f.name = ascii "Set-Cookie") = [] :=
    List.filter_eq_nil_iff.mpr fun f listed => by simpa using names f listed
  have optional {cond : Prop} [Decidable cond] {f : Field} (name : f.name ≠ ascii "Set-Cookie") :
      (if cond then [f] else []).filter (fun f => f.name = ascii "Set-Cookie") = [] := by
    refine passed fun g listed => ?_
    split at listed
    · exact List.mem_singleton.mp listed ▸ name
    · cases listed
  have names : ascii "X-Frame-Options" ≠ ascii "Set-Cookie" ∧
      ascii "Content-Security-Policy" ≠ ascii "Set-Cookie" ∧
      ascii "X-Content-Type-Options" ≠ ascii "Set-Cookie" ∧
      ascii "Connection" ≠ ascii "Set-Cookie" ∧ ascii "Content-Type" ≠ ascii "Set-Cookie" ∧
      ascii "Content-Length" ≠ ascii "Set-Cookie" ∧
      ascii "Cache-Control" ≠ ascii "Set-Cookie" ∧ ascii "Retry-After" ≠ ascii "Set-Cookie" ∧
      ascii "Allow" ≠ ascii "Set-Cookie" := by
    decide
  obtain ⟨frame, policy, sniff, connection, ctype, clen, cache, retry, allow⟩ := names
  have cookies : (Cookies.given sess csrf).fields.filter
      (fun f => f.name = ascii "Set-Cookie") = (Cookies.given sess csrf).fields := by
    simp [Cookies.fields, cookieField]
  unfold handedOut headOf
  simp only [List.filter_append, cookies]
  rw [passed (by simp [frame, policy, sniff, connection, ctype, clen]), optional cache,
    optional retry, optional allow]
  simp only [List.nil_append, Cookies.fields, List.map_cons, List.map_nil,
    (kept_cookieField first).1, (kept_cookieField second).2]

/-- What a pair of the answer is read as. -/
theorem cookieOf_pair (sess : List UInt8) :
    cookieOf (ascii "rlxs=" ++ sess) = some (ascii "rlxs", sess) ∧
      cookieOf (ascii "rlxc=" ++ sess) = some (ascii "rlxc", sess) :=
  ⟨rfl, rfl⟩

/-- The tokens of a jar that holds both cookies. -/
theorem cookieToken_kept (first : Http.Token sess) (second : Http.Token csrf)
    {jar : List (List UInt8)}
    (holds : Jar [ascii "rlxs=" ++ sess, ascii "rlxc=" ++ csrf] jar) :
    cookieToken (ascii "rlxs") (jarText jar) = sess ∧
      cookieToken (ascii "rlxc") (jarText jar) = csrf := by
  have differ : ascii "rlxs" ≠ ascii "rlxc" := by decide
  have pairs (pair : List UInt8) (listed : pair ∈ jar) (named : List UInt8 × List UInt8)
      (reads : cookieOf pair = some named) :
      (named.1 = ascii "rlxs" → named.2 = sess) ∧ (named.1 = ascii "rlxc" → named.2 = csrf) := by
    by_cases kept : pair ∈ [ascii "rlxs=" ++ sess, ascii "rlxc=" ++ csrf]
    · rcases List.mem_cons.mp kept with rfl | last
      · rw [(cookieOf_pair sess).1] at reads
        cases reads
        exact ⟨fun _ => rfl, fun same => absurd same differ⟩
      · rw [List.mem_singleton.mp last, (cookieOf_pair csrf).2] at reads
        cases reads
        exact ⟨fun same => absurd same.symm differ, fun _ => rfl⟩
    · obtain ⟨notSess, notCsrf⟩ := holds.others pair listed kept named reads
      exact ⟨fun same => absurd same notSess, fun same => absurd same notCsrf⟩
  constructor
  · rw [cookieToken_jar holds.whole ⟨_, holds.holds _ (by simp), (cookieOf_pair sess).1⟩
      fun pair listed named reads => (pairs pair listed named reads).1, takeTok32_token first]
  · rw [cookieToken_jar holds.whole ⟨_, holds.holds _ (by simp), (cookieOf_pair csrf).2⟩
      fun pair listed named reads => (pairs pair listed named reads).2, takeTok32_token second]

/-- The members of a login's answer. -/
def loginMembers (csrf : List UInt8) (ttl : Nat) : List Member :=
  [⟨ascii "ok", .bool true⟩, ⟨ascii "csrf", .str csrf⟩, ⟨ascii "ttl_s", .num ttl⟩]

theorem plainMember_login (token : Http.Token csrf) {ttl : Nat} (small : ttl < 2 ^ 32) :
    ∀ m ∈ loginMembers csrf ttl, PlainMember m := by
  have keys : PlainKey (ascii "ok") ∧ PlainKey (ascii "csrf") ∧ PlainKey (ascii "ttl_s") := by
    decide
  have value : Json.PlainString csrf := by
    refine ⟨?_, fun c listed => ?_⟩
    · rw [token.1]
      decide
    · rw [(token_plain token).2.1 c listed]
      rfl
  exact List.forall_mem_cons.mpr ⟨⟨keys.1, trivial⟩, List.forall_mem_cons.mpr
    ⟨⟨keys.2.1, value⟩, List.forall_mem_cons.mpr ⟨⟨keys.2.2, small⟩, nofun⟩⟩⟩

theorem length_login_le (token : Http.Token csrf) {ttl : Nat} (small : ttl < 2 ^ 32) :
    (tightBody (loginMembers csrf ttl)).length ≤ 100 := by
  have keys : PlainKey (ascii "ok") ∧ PlainKey (ascii "csrf") ∧ PlainKey (ascii "ttl_s") ∧
      (ascii "ok").length = 2 ∧ (ascii "csrf").length = 4 ∧ (ascii "ttl_s").length = 5 ∧
      (tightBody []).length = 1 ∧ (Json.valueText (.bool true)).length = 4 := by
    decide
  obtain ⟨ok, name, ttlName, two, four, five, none_, word⟩ := keys
  have quoted : (Json.valueText (.str csrf)).length = 34 := by
    simp [Json.valueText, Json.flatMap_quoteByte (token_plain token).2.1, token.1]
  have digits : (Json.valueText (.num ttl)).length ≤ 10 := length_text_le_ten small
  have first := Json.length_tightBody_snoc_le [] (m := ⟨ascii "ok", .bool true⟩) ok
  have second := Json.length_tightBody_snoc_le [⟨ascii "ok", .bool true⟩]
    (m := ⟨ascii "csrf", .str csrf⟩) name
  have third := Json.length_tightBody_snoc_le
    [⟨ascii "ok", .bool true⟩, ⟨ascii "csrf", .str csrf⟩] (m := ⟨ascii "ttl_s", .num ttl⟩) ttlName
  dsimp only [List.nil_append, List.cons_append] at first second third
  unfold loginMembers
  omega

/-- The body of a login's answer tells the page the token that the cookie carries. -/
theorem loggedIn_body (rs : HttpRsp) {body : List UInt8} (room : 36 ≤ body.length) :
    (loggedIn rs body).reply.rsp.status = 200 ∧
      (loggedIn rs body).cookies =
        (Cookies.given (hex16 body) (hex16 (body.drop 16))).text ∧
      Json.jsonParse (loggedIn rs body).reply.rsp.body =
        .ok (loginMembers (hex16 (body.drop 16)) (protoBe32 body 32)) := by
  have token := token_hex16 (body.drop 16)
  have small := protoBe32_lt body 32
  have plain := plainMember_login token small
  have few : 3 ≤ Json.keysMax := by decide
  have short := length_login_le token small
  have fits : (tightBody (loginMembers (hex16 (body.drop 16)) (protoBe32 body 32))).length + 2 ≤
      rspBodyMax := by
    unfold rspBodyMax
    omega
  obtain ⟨fine, text⟩ := Json.Writer.document plain fits
  have writer : ((jsonStr ((Writer.init rspBodyMax).objOpen.bool (ascii "ok") true) (ascii "csrf")
      (hex16 (body.drop 16))).num (ascii "ttl_s") (protoBe32 body 32)).objClose =
      ((loginMembers (hex16 (body.drop 16)) (protoBe32 body 32)).foldl Writer.member
        (Writer.init rspBodyMax).objOpen).objClose := by
    rw [jsonStr, (token_plain token).2.2]
    rfl
  have notFailed := Bool.eq_false_iff.mp fine
  unfold loggedIn
  rw [if_neg (by omega)]
  unfold HttpRsp.document bodyJson
  dsimp only
  rw [writer, if_neg notFailed]
  refine ⟨rfl, rfl, ?_⟩
  dsimp only
  rw [text]
  refine Json.parse_tight plain ?_ few ?_
  · change [ascii "ok", ascii "csrf", ascii "ttl_s"].Nodup
    decide
  · have whole := congrArg List.length (Json.Layout.tight_text
      (loginMembers (hex16 (body.drop 16)) (protoBe32 body 32)))
    rw [List.length_append, List.length_singleton] at whole
    unfold Json.docMax
    omega

end Answer

/-! ## The next request -/

/-- A call that goes well was answered OK. -/
theorem brokerCall_ok {env : Env} {rs : HttpRsp} {rq : HttpReq} {op : Nat} {body out : List UInt8}
    (called : brokerCall env rs op rq body = .ok out) :
    ∃ q br, env.call q = some br ∧ q.op = op ∧ q.body = body ∧ br.status = .ok ∧
      br.body = out := by
  unfold brokerCall at called
  split at called
  · cases called
  next q _ =>
    split at called
    · cases called
    next answered =>
      cases called
      refine ⟨{ q with op := op, body := body }, ?_⟩
      unfold callBroker at answered
      cases reply : env.call { q with op := op, body := body } with
      | none =>
          rw [reply] at answered
          cases answered
      | some br =>
          rw [reply] at answered
          dsimp only at answered
          split at answered
          · cases answered
          next ok =>
            cases answered
            exact ⟨br, rfl, rfl, rfl, not_not.mp ok, rfl⟩

/-- A login that sets cookies was answered by the broker. -/
theorem hLogin_answered {env : Env} {rq : HttpReq} {rs : HttpRsp} (blank : Blank rs)
    (set : (hLogin env rq rs).cookies ≠ []) :
    ∃ q br, env.call q = some br ∧ q.op = opLoginId ∧ br.status = .ok ∧
      36 ≤ br.body.length ∧ hLogin env rq rs = loggedIn rs br.body := by
  have none_ : rs.cookies = [] := blank.cookies
  unfold hLogin at set ⊢
  split at set
  · exact absurd none_ set
  split at set
  · exact absurd none_ set
  · exact absurd none_ set
  split at set
  · exact absurd none_ set
  split at set
  next refused => exact absurd (blank.refused refused).kept set
  next body called =>
    obtain ⟨q, br, reply, op, -, ok, rfl⟩ := brokerCall_ok called
    refine ⟨q, br, reply, op, ok, ?_, ?_⟩
    · by_contra short
      unfold loggedIn at set
      rw [if_pos (Nat.lt_of_not_le short)] at set
      exact set none_
    · simp only [*]

/-- A request that brings back what a login handed out. -/
structure BroughtBack (rq : HttpReq) (session csrf : List UInt8) : Prop where
  /-- Its tokens stop it nowhere. -/
  passes : ∀ rs blen row, (lookup rq false routes).2 = some row →
    ¬ (row.post = true ∧ rq.method = .post ∧ row.api = true ∧ blen = 0) →
      (routeGate rq rs blen).2 = some row
  /-- The broker is asked with the bytes that it gave. -/
  asks : ∀ clientIp rs, ∃ q, routeBkReq clientIp rq rs = .ok q ∧ q.session.bytes = session ∧
    q.csrf.bytes = csrf ∧ q.clientIp = clientIp

theorem present_of_token {tok : List UInt8} (token : Http.Token tok) : byteAt tok 0 ≠ 0 := by
  obtain ⟨length, digits⟩ := token
  cases tok with
  | nil => cases length
  | cons c tok =>
      rintro (rfl : c = 0)
      exact absurd (digits 0 List.mem_cons_self) (by decide)

theorem broughtBack {rq : HttpReq} {body : List UInt8} (room : 36 ≤ body.length)
    (sess : rq.sess = hex16 body) (ccsrf : rq.ccsrf = hex16 (body.drop 16))
    (hcsrf : rq.hcsrf = hex16 (body.drop 16)) :
    BroughtBack rq (body.take 16) ((body.drop 16).take 16) where
  passes rs blen row found posted := by
    have first := token_hex16 body
    have second := token_hex16 (body.drop 16)
    have same : routeCtEq32 rq.hcsrf rq.ccsrf = true := by
      rw [hcsrf, ccsrf]
      exact (routeCtEq32_iff second.1 second.1).mpr rfl
    unfold routeGate
    rcases looked : lookup rq false routes with ⟨path, _ | r⟩
    · rw [looked] at found
      cases found
    · rw [looked] at found
      cases found
      dsimp only
      rw [if_neg fun absent => present_of_token first (sess ▸ absent.2), if_neg, if_neg posted]
      rintro ⟨-, absent | absent | differ⟩
      · exact present_of_token second (hcsrf ▸ absent)
      · exact present_of_token second (ccsrf ▸ absent)
      · exact differ same
  asks clientIp rs := by
    have long : 16 ≤ (body.drop 16).length := by
      rw [List.length_drop]
      omega
    obtain ⟨session, readSession, isSession⟩ := @tokenOf_hex16 body (by omega)
    obtain ⟨csrf, readCsrf, isCsrf⟩ := tokenOf_hex16 long
    refine ⟨{ op := 0, session := session, csrf := csrf, clientIp := clientIp, body := [] }, ?_,
      isSession, isCsrf, rfl⟩
    unfold routeBkReq
    rw [sess, readSession, hcsrf, readCsrf]

/-- The lines of a request are told by its bytes. -/
theorem wire_unique {reqline reqline' rest rest' : List UInt8} {heads heads' : List (List UInt8)}
    (lines : Lines reqline heads) (lines' : Lines reqline' heads')
    (same : wire reqline heads ++ crlf ++ rest = wire reqline' heads' ++ crlf ++ rest') :
    reqline = reqline' ∧ heads = heads' := by
  have ends (line : List UInt8) (rest : List UInt8) (plain : Plain line) :
      MessageHead.takeLine (line ++ (crlf ++ rest)) = some (line, rest) :=
    MessageHead.takeLine_append plain rest
  have first := congrArg MessageHead.takeLine same
  simp only [wire, List.append_assoc] at first
  rw [ends _ _ lines.reqline, ends _ _ lines'.reqline] at first
  obtain ⟨rfl, later⟩ := Prod.mk.inj (Option.some.inj first)
  refine ⟨rfl, ?_⟩
  have formed := lines.heads
  have formed' := lines'.heads
  clear same first lines lines'
  induction heads generalizing heads' with
  | nil =>
      cases heads' with
      | nil => rfl
      | cons line heads' =>
          have taken := congrArg MessageHead.takeLine later
          obtain ⟨plain, some_⟩ := formed' line List.mem_cons_self
          simp only [List.flatMap_nil, List.nil_append, List.flatMap_cons,
            List.append_assoc] at taken
          rw [ends _ _ plain] at taken
          cases some_ (Prod.mk.inj (Option.some.inj taken)).1.symm
  | cons line heads ih =>
      obtain ⟨⟨plain, some_⟩, more⟩ := List.forall_mem_cons.mp formed
      have taken := congrArg MessageHead.takeLine later
      simp only [List.flatMap_cons, List.append_assoc] at taken
      rw [ends _ _ plain] at taken
      cases heads' with
      | nil => cases some_ (Prod.mk.inj (Option.some.inj taken)).1
      | cons line' heads' =>
          obtain ⟨⟨plain', -⟩, more'⟩ := List.forall_mem_cons.mp formed'
          simp only [List.flatMap_cons, List.append_assoc] at taken
          rw [ends _ _ plain'] at taken
          obtain ⟨rfl, behind⟩ := Prod.mk.inj (Option.some.inj taken)
          rw [ih behind more more']

/-- What a login's answer hands out, as a browser and its page take it. -/
structure HandsOut (rs : HttpRsp) (sess csrf : List UInt8) : Prop where
  written : Written rs (.given sess csrf)
  ok : rs.reply.rsp.status = 200
  page : ∃ members, Json.jsonParse rs.reply.rsp.body = .ok members ∧
    stringOf (Json.jsonGet members (ascii "csrf")) = some csrf

/-- Every login that sets cookies was answered OK by the broker, and any request that later
brings the cookies back, with the page's token in its header, is let pass and asks with exactly
the bytes of the broker's reply. -/
theorem login_tokens_return {env : Env} {rq : HttpReq} {rs : HttpRsp} (blank : Blank rs)
    (set : (hLogin env rq rs).cookies ≠ []) :
    ∃ q br sess csrf, (env.call q = some br ∧ q.op = opLoginId ∧ br.status = .ok) ∧
      (sess = hex16 br.body ∧ csrf = hex16 (br.body.drop 16)) ∧
      HandsOut (hLogin env rq rs) sess csrf ∧
      ∀ reads reqline heads rest jar, feedCode reads = 1 ∨ feedCode reads = 2 →
        taken reads = wire reqline heads ++ crlf ++ rest → Lines reqline heads →
        Jar (handedOut (headOf (hLogin env rq rs) (.given sess csrf)).fields) jar →
        soleValue (heads.filter isCookie) = jarText jar →
        soleValue (heads.filter isCsrf) = csrf →
          BroughtBack (parser reads).r (br.body.take 16) ((br.body.drop 16).take 16) := by
  obtain ⟨q, br, reply, op, ok, room, answered⟩ := hLogin_answered blank set
  obtain ⟨status, kept, body⟩ := loggedIn_body rs room
  have first := token_hex16 br.body
  have second := token_hex16 (br.body.drop 16)
  obtain ⟨cookies, written⟩ := blank.login env rq
  rw [answered] at written ⊢
  have handed : HandsOut (loggedIn rs br.body) (hex16 br.body) (hex16 (br.body.drop 16)) :=
    ⟨⟨⟨first, second⟩, kept, written.retry, written.content⟩, status, _, body, rfl⟩
  refine ⟨q, br, _, _, ⟨reply, op, ok⟩, ⟨rfl, rfl⟩, handed, ?_⟩
  intro reads reqline heads rest jar whole sent lines holds cookieLine csrfLine
  rw [handedOut_headOf first second] at holds
  obtain ⟨⟨reqline', heads', rest', sent', lines', keeps, -, -⟩, -⟩ := past_of_code whole
  obtain ⟨-, rfl⟩ := wire_unique lines lines' (sent.symm.trans sent')
  have tokens := tokensOf_kept keeps
  obtain ⟨session, csrf⟩ := cookieToken_kept first second holds
  refine broughtBack room ?_ ?_ ?_
  · rw [tokens.sess, cookieLine, session]
  · rw [tokens.ccsrf, cookieLine, csrf]
  · rw [tokens.hcsrf, csrfLine, takeTok32_token second]

/-- The broker's reply to a login. -/
def loginReply : Resp :=
  ⟨.ok, List.replicate 16 0xA5 ++ List.replicate 16 0x3C ++ [0, 0, 3, 0x84]⟩

/-- A broker that takes any password. -/
def obliging : Env where
  clientIp := 1
  call q := if q.op = opLoginId then some loginReply else none
  grant := .ok ()
  stat _ := none

/-- A login as the parser leaves it. -/
def loginAsked : HttpReq :=
  { httpParseInit.r with
    method := .post
    body := 0x7B :: ascii "\"password\":\"pw\"" ++ [0x7D] }

instance (line : List UInt8) : Decidable (Plain line) := inferInstanceAs (Decidable (_ ∧ _))

/-- A jar with both cookies behind another. -/
def themedJar : List (List UInt8) :=
  [ascii "theme=dark", ascii "rlxc=" ++ hex16 (loginReply.body.drop 16),
    ascii "rlxs=" ++ hex16 loginReply.body]

/-- The lines of a request that brings them back. -/
def statusLines : List (List UInt8) :=
  [ascii "Cookie: " ++ jarText themedJar,
    ascii "X-RLX-CSRF: " ++ hex16 (loginReply.body.drop 16)]

/-- The request. -/
def statusAsked : List (List UInt8) := [wire (ascii "GET /api/status HTTP/1.1") statusLines ++ crlf]

theorem statusAsked_brings :
    feedCode statusAsked = 1 ∧ taken statusAsked = statusAsked.flatten ∧
      (hLogin obliging loginAsked .init).cookies ≠ [] ∧
      Jar [ascii "rlxs=" ++ hex16 loginReply.body,
        ascii "rlxc=" ++ hex16 (loginReply.body.drop 16)] themedJar ∧
      (Plain (ascii "GET /api/status HTTP/1.1") ∧ ∀ line ∈ statusLines, Plain line ∧ line ≠ []) ∧
      soleValue (statusLines.filter isCookie) = jarText themedJar ∧
      soleValue (statusLines.filter isCsrf) = hex16 (loginReply.body.drop 16) ∧
      loginReply.body.take 16 = List.replicate 16 0xA5 ∧
      (loginReply.body.drop 16).take 16 = List.replicate 16 0x3C := by
  decide +kernel

theorem login_tokens_return_status :
    BroughtBack (parser statusAsked).r (List.replicate 16 0xA5) (List.replicate 16 0x3C) := by
  obtain ⟨whole, sent, set, jar, lines, cookie, header, session, csrf⟩ := statusAsked_brings
  obtain ⟨q, br, _, _, ⟨reply, op, -⟩, ⟨rfl, rfl⟩, -, returns⟩ :=
    login_tokens_return blank_init set
  have same : loginReply = br := Option.some.inj ((if_pos op).symm.trans reply)
  subst same
  have line : taken statusAsked =
      wire (ascii "GET /api/status HTTP/1.1") statusLines ++ crlf ++ [] := by
    rw [sent, statusAsked, List.flatten_singleton, List.append_nil]
  have holds := jar
  rw [← handedOut_headOf (token_hex16 _) (token_hex16 _)] at holds
  have brought := returns statusAsked _ statusLines [] themedJar (Or.inl whole) line
    ⟨lines.1, lines.2⟩ holds cookie header
  rwa [session, csrf] at brought

end RlxFw.Httpd
