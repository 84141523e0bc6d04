import SojCivicLight.Jansson.Loaded
import SojCivicLight.Stratum.Methods
import SojCivicLight.Stratum.SendLine

/-! The replies to the pool's requests.  `hardened` is the build with `RELEASE_HARDENED`. -/

namespace SojCivicLight.Stratum

open SojCivicLight.Jansson

def jsonObjectSetError (code : Int) (msg : CStr) : Json :=
  .object (jsonObjectSet (jsonObjectSet [] (cstr "code") (.integer code)) (cstr "message")
    (.string msg))

def unknownMethodAnswer (id : Json) : Json :=
  .object (jsonObjectSet (jsonObjectSet (jsonObjectSet [] (cstr "id") id)
    (cstr "result") (.bool false)) (cstr "error") (jsonObjectSetError 38 (cstr "unknown method")))

def answer (id result : Json) : Json :=
  .object (jsonObjectSet (jsonObjectSet (jsonObjectSet [] (cstr "id") id)
    (cstr "error") .null) (cstr "result") result)

def currentAlgo : CStr := cstr "civiclight"

def userAgent (hardened : Bool) : CStr := if hardened then cstr "miner" else cstr "SOJ"

/-- What `sprintf` prints of the number to which the `id` is converted. -/
def pongText (id : Json) : CStr :=
  cstr "\x7b\"id\":" ++ integerText (castInt (jsonIntegerValue (some id))) ++
    cstr ",\"result\":\"pong\",\"error\":null\x7d"

/-- What is sent: the string that `stratum_pong` prints, or what `json_dumps` makes of a value. -/
inductive Reply where
  | pong (id : Json)
  | dumped (value : Json)

namespace Reply

/-- None is the NULL of a `json_dumps` that failed. -/
def text (snprintf : Double → CStr) (chain : List Nat → List CStr → List CStr) :
    Reply → Option CStr
  | pong id => some (pongText id)
  | dumped value => jsonDumps snprintf chain 0 value

/-- The value that the reply is meant to carry. -/
def value : Reply → Json
  | pong id =>
      .object [(cstr "id", .integer (castInt (jsonIntegerValue (some id)))),
        (cstr "result", .string (cstr "pong")), (cstr "error", .null)]
  | dumped value => value

end Reply

/-- The reply of `stratum_handle_method` to a request, none when it sends nothing. -/
def stratumReply (hardened : Bool) (val : Option Json) : Option Reply :=
  match jsonStringValue (jsonObjectGet val (cstr "method")) with
  | none => none
  | some method =>
      let reply := fun text : Json → Reply =>
        match jsonObjectGet val (cstr "id") with
        | none => none
        | some id => if jsonIsNull (some id) then none else some (text id)
      if methodEq2 method "mining" "notify" then none
      else if methodEq2 method "mining" "ping" then reply .pong
      else if methodEq2 method "mining" "set_difficulty" then none
      else if methodEq2 method "mining" "set_extranonce" then none
      else if strcaseEq method (cstr "client.reconnect") then none
      else if strcaseEq method (cstr "client.get_algo") then
        reply fun id => .dumped (answer id (.string currentAlgo))
      else if strcaseEq method (cstr "client.get_version") then
        reply fun id => .dumped (answer id (.string (userAgent hardened)))
      else if strcaseEq method (cstr "client.show_message") then
        reply fun id => .dumped (answer id (.bool true))
      else reply fun id => .dumped (unknownMethodAnswer id)

/-! The values that are sent. -/

section

variable {P : Double → Prop} {snprintf : Double → CStr}

/-- The replies, each with the `id` that it is sent under. -/
inductive RepliesTo : Json → Reply → Prop
  | pong (id : Json) : RepliesTo id (.pong id)
  | result (id : Json) {result : Json} (hresult : (∃ s, IsText s ∧ result = .string s) ∨
      ∃ b, result = .bool b) : RepliesTo id (.dumped (answer id result))
  | unknown (id : Json) : RepliesTo id (.dumped (unknownMethodAnswer id))

theorem isText_ascii {s : CStr} (h : s.all fun c => c < 0x80 ∧ c ≠ 0) : IsText s where
  utf8 := stream_ascii fun c hc => (List.all_iff_forall_prop.mp h c hc).1
  terminated := fun hmem => (List.all_iff_forall_prop.mp h 0 hmem).2 rfl

theorem isText_currentAlgo : IsText currentAlgo := isText_ascii (by decide)

theorem isText_userAgent (hardened : Bool) : IsText (userAgent hardened) := by
  cases hardened with
  | true => exact isText_ascii (by decide)
  | false => exact isText_ascii (by decide)

theorem stratumReply_cases {hardened : Bool} {val : Option Json} {reply : Reply}
    (h : stratumReply hardened val = some reply) :
    ∃ id, jsonObjectGet val (cstr "id") = some id ∧ jsonIsNull (some id) = false ∧
      RepliesTo id reply := by
  rw [stratumReply] at h
  split at h
  · cases h
  · rename_i method hmethod
    cases hid : jsonObjectGet val (cstr "id") with
    | none => simp [hid] at h
    | some id =>
        rw [hid] at h
        cases hnull : jsonIsNull (some id) with
        | true => simp [hnull] at h
        | false =>
            refine ⟨id, rfl, hnull, ?_⟩
            simp only [hnull, Bool.false_eq_true, if_false] at h
            split at h
            · cases h
            split at h
            · cases h
              exact .pong id
            split at h
            · cases h
            split at h
            · cases h
            split at h
            · cases h
            split at h
            · cases h
              exact .result id (Or.inl ⟨_, isText_currentAlgo, rfl⟩)
            split at h
            · cases h
              exact .result id (Or.inl ⟨_, isText_userAgent hardened, rfl⟩)
            split at h
            · cases h
              exact .result id (Or.inr ⟨true, rfl⟩)
            · cases h
              exact .unknown id

theorem wellFormed_answer {id result : Json} (hid : WellFormed P id)
    (hresult : (∃ s, IsText s ∧ result = .string s) ∨ ∃ b, result = .bool b) :
    WellFormed P (answer id result) := by
  have hvalue : WellFormed P result := by
    rcases hresult with ⟨s, hs, rfl⟩ | ⟨b, rfl⟩
    · exact hs
    · trivial
  have hkeys : [cstr "id", cstr "error", cstr "result"].Nodup := by decide
  exact ⟨hkeys, ⟨isText_ascii (by decide), hid⟩, ⟨isText_ascii (by decide), trivial⟩,
    ⟨isText_ascii (by decide), hvalue⟩, trivial⟩

theorem wellFormed_unknownMethodAnswer {id : Json} (hid : WellFormed P id) :
    WellFormed P (unknownMethodAnswer id) := by
  have herror : WellFormed P (jsonObjectSetError 38 (cstr "unknown method")) :=
    ⟨by decide, ⟨isText_ascii (by decide), by decide, by decide⟩,
      ⟨isText_ascii (by decide), isText_ascii (by decide)⟩, trivial⟩
  have hkeys : [cstr "id", cstr "result", cstr "error"].Nodup := by decide
  exact ⟨hkeys, ⟨isText_ascii (by decide), hid⟩, ⟨isText_ascii (by decide), trivial⟩,
    ⟨isText_ascii (by decide), herror⟩, trivial⟩

theorem wellFormed_member {value member : Json} {key : CStr}
    (h : WellFormed P value) (hget : jsonObjectGet (some value) key = some member) :
    WellFormed P member := by
  cases value with
  | object members =>
      obtain ⟨-, hmembers⟩ := h
      rw [membersWellFormed_iff] at hmembers
      rw [jsonObjectGet] at hget
      obtain ⟨found, hfind, rfl⟩ := Option.map_eq_some_iff.mp hget
      exact (hmembers found (List.mem_of_find?_eq_some hfind)).2
  | _ => cases hget

/-! The pong. -/

theorem castInt_bounds (n : Int) : -2 ^ 31 ≤ castInt n ∧ castInt n < 2 ^ 31 := by
  rw [castInt]
  have hlow := @Int.le_bmod n (2 ^ 32) (by decide)
  have hhigh := @Int.bmod_lt n (2 ^ 32) (by decide)
  omega

theorem pongText_eq (id : Json) :
    pongText id = 123 :: 34 :: (cstr "id" ++ 34 :: 58 ::
      (integerText (castInt (jsonIntegerValue (some id))) ++ 44 :: 34 :: (cstr "result" ++
        34 :: 58 :: 34 :: (cstr "pong" ++ 34 :: 44 :: 34 :: (cstr "error" ++ 34 :: 58 ::
          (cstr "null" ++ [125])))))) := by
  have hhead : cstr "\x7b\"id\":" = 123 :: 34 :: (cstr "id" ++ [34, 58]) := rfl
  have htail : cstr ",\"result\":\"pong\",\"error\":null\x7d" = 44 :: 34 :: (cstr "result" ++ 34 ::
      58 :: 34 :: (cstr "pong" ++ 34 :: 44 :: 34 :: (cstr "error" ++ 34 :: 58 ::
        (cstr "null" ++ [125])))) := rfl
  rw [pongText, hhead, htail]
  simp only [List.append_assoc, List.cons_append, List.nil_append]

theorem printable_pongText (id : Json) : ∀ c ∈ pongText id, 0x1f < c ∧ c < 0x80 := by
  rw [pongText]
  simp only [List.forall_mem_append]
  exact ⟨⟨List.all_iff_forall_prop.mp (by decide), printable_integerText _⟩,
    List.all_iff_forall_prop.mp (by decide)⟩

/-- The text that is printed for a ping says what it is meant to. -/
theorem jsonLoads_pongText (strtod : CStr → Option Double) (id : Json) :
    jsonLoads strtod (pongText id) = some (Reply.pong id).value := by
  have hbounds : -2 ^ 63 ≤ castInt (jsonIntegerValue (some id)) ∧
      castInt (jsonIntegerValue (some id)) < 2 ^ 63 := by
    have hbounds := castInt_bounds (jsonIntegerValue (some id))
    omega
  have htext := pongText_eq id
  have utf8 := utf8_of_printable (printable_pongText id)
  have hbrace : lexScan strtod .eof (pongText id) = (.punct 123, (pongText id).tail) := by
    rw [htext]
    rfl
  have hlen : 20 ≤ (pongText id).length := by
    rw [pongText, List.length_append, List.length_append]
    exact Nat.le_add_left_of_le (by decide)
  rw [Reply.value]
  generalize castInt (jsonIntegerValue (some id)) = n at htext hbounds
  obtain ⟨fuel, hfuel⟩ : ∃ fuel, 2 * (pongText id).length = fuel + 8 :=
    ⟨2 * (pongText id).length - 8, by omega⟩
  have hid : Plain (cstr "id") := List.all_iff_forall_prop.mp (by decide)
  have hresult : Plain (cstr "result") := List.all_iff_forall_prop.mp (by decide)
  have hpong : Plain (cstr "pong") := List.all_iff_forall_prop.mp (by decide)
  have herror : Plain (cstr "error") := List.all_iff_forall_prop.mp (by decide)
  have hinteger : ∀ rest, parseValue strtod .eof (fuel + 6)
      (lexScan strtod .eof (integerText n ++ 44 :: rest)).1
      (lexScan strtod .eof (integerText n ++ 44 :: rest)).2 = some (.integer n, 44 :: rest) := by
    intro rest
    rw [lexScan_integerText hbounds (ends_cons (by decide) rest)]
    rfl
  have hstring : ∀ rest, parseValue strtod .eof (fuel + 5)
      (lexScan strtod .eof (34 :: (cstr "pong" ++ 34 :: 44 :: rest))).1
      (lexScan strtod .eof (34 :: (cstr "pong" ++ 34 :: 44 :: rest))).2 =
        some (.string (cstr "pong"), 44 :: rest) := by
    intro rest
    rw [lexScan_plain hpong]
    rfl
  have hnull : parseValue strtod .eof (fuel + 4) (lexScan strtod .eof (cstr "null" ++ [125])).1
      (lexScan strtod .eof (cstr "null" ++ [125])).2 = some (.null, [125]) := rfl
  rw [jsonLoads, stream_fst utf8, utf8, if_pos rfl, parseJson, hbrace]
  dsimp only
  rw [if_pos (Or.inr rfl), hfuel, parseValue, htext, List.tail_cons, lexScan_plain hid]
  dsimp only
  rw [if_neg (by simp), parseObject_member (hinteger _), lexScan_plain hresult,
    parseObject_member (hstring _), lexScan_plain herror, parseObject_last hnull]
  rfl

theorem wellFormed_pong (id : Json) : WellFormed P (Reply.pong id).value := by
  have hbounds := castInt_bounds (jsonIntegerValue (some id))
  have hkeys : [cstr "id", cstr "result", cstr "error"].Nodup := by decide
  exact ⟨hkeys, ⟨isText_ascii (by decide), by omega, by omega⟩,
    ⟨isText_ascii (by decide), isText_ascii (by decide)⟩, ⟨isText_ascii (by decide), trivial⟩,
    trivial⟩

/-- The buffer that the pong is printed into holds it, and the newline that is put in place of its
terminator. -/
theorem length_pongText (id : Json) : (pongText id).length + 1 ≤ 64 := by
  have hbounds := castInt_bounds (jsonIntegerValue (some id))
  have hdigits : (decimalText (castInt (jsonIntegerValue (some id))).natAbs).length ≤ 10 := by
    rw [decimalText, List.length_map, Nat.length_toDigits_le_iff (by decide) (by decide)]
    omega
  have hnumber : (integerText (castInt (jsonIntegerValue (some id)))).length ≤ 11 := by
    rw [integerText]
    split
    · rw [List.length_cons]
      omega
    · omega
  have hhead : (cstr "\x7b\"id\":").length = 6 := rfl
  have htail : (cstr ",\"result\":\"pong\",\"error\":null\x7d").length = 30 := rfl
  rw [pongText, List.length_append, List.length_append, hhead, htail]
  omega

/-! Every reply. -/

theorem wellFormed_reply {id : Json} (hid : WellFormed P id) {value : Json}
    (h : RepliesTo id (.dumped value)) :
    WellFormed P value ∧ isContainer value = true := by
  cases h with
  | result hresult => exact ⟨wellFormed_answer hid hresult, rfl⟩
  | unknown => exact ⟨wellFormed_unknownMethodAnswer hid, rfl⟩

/-- The `id` that a reply is sent under: the request's own, but for a ping its number. -/
def Reply.id (id : Json) : Reply → Json
  | pong _ => .integer (castInt (jsonIntegerValue (some id)))
  | dumped _ => id

theorem RepliesTo.get_id {id : Json} {reply : Reply} (h : RepliesTo id reply) :
    jsonObjectGet (some reply.value) (cstr "id") = some (reply.id id) := by
  cases h with
  | pong => rfl
  | result => rfl
  | unknown => rfl

theorem jsonEqual_get {value read member : Json} {key : CStr} (hequal : jsonEqual value read = true)
    (hget : jsonObjectGet (some value) key = some member) :
    ∃ other, jsonObjectGet (some read) key = some other ∧ jsonEqual member other = true := by
  cases value with
  | object members =>
      cases read with
      | object others =>
          rw [jsonEqual, Bool.and_eq_true] at hequal
          obtain ⟨-, hmembers⟩ := hequal
          rw [jsonObjectGet_lookup] at hget
          induction members with
          | nil => cases hget
          | cons first members ih =>
              obtain ⟨key', value⟩ := first
              rw [jsonObjectEqual, Bool.and_eq_true] at hmembers
              by_cases heq : key = key'
              · subst heq
                rw [List.lookup_cons_self, Option.some.injEq] at hget
                subst hget
                obtain ⟨hfirst, -⟩ := hmembers
                split at hfirst
                · cases hfirst
                · rename_i other hother
                  exact ⟨other, hother, hfirst⟩
              · have hne : (key == key') = false := beq_false_of_ne heq
                rw [List.lookup_cons, hne] at hget
                exact ih hget hmembers.2
      | _ => cases hequal
  | _ => cases hget

variable {strtod : CStr → Double × Bool}

/-- The reals of the `id` of a request are printed and read back as they are. -/
def IdPrinted (snprintf : Double → CStr) (strtod : CStr → Double × Bool) (val : Json) : Prop :=
  ∀ id ∈ jsonObjectGet (some val) (cstr "id"), ∀ x ∈ reals id, Printed snprintf (readReal strtod) x

/-- The text of a reply is one line, which reads as the reply. -/
theorem stratumReply_text {chain : List Nat → List CStr → List CStr} (hchain : Chains chain)
    {hardened : Bool} {s : CStr} (hlen : s.length < 2 ^ 31) {val : Json}
    (hval : jsonLoads (readReal strtod) s = some val) (hid : IdPrinted snprintf strtod val)
    {reply : Reply} (h : stratumReply hardened (some val) = some reply) :
    ∃ text read, reply.text snprintf chain = some text ∧ 10 ∉ text ∧
      jsonLoads (readReal strtod) text = some read ∧ jsonEqual reply.value read = true := by
  obtain ⟨id, hget, -, hreply⟩ := stratumReply_cases h
  have hread := (jsonLoads_wellFormed (fun _ _ => readReal_finite) hlen hval).1
  have hwell : WellFormed (PrintsBack snprintf (readReal strtod)) id :=
    (wellFormed_member hread hget).reals fun x hx hfinite => ⟨hid id hget x hx, hfinite⟩
  cases reply with
  | pong id' =>
      cases hreply
      refine ⟨_, _, rfl, fun hmem => ?_, jsonLoads_pongText (readReal strtod) id,
        jsonEqual_self (@wellFormed_pong (PrintsBack snprintf (readReal strtod)) id)⟩
      exact absurd (printable_pongText id 10 hmem).1 (by decide)
  | dumped value =>
      obtain ⟨hvalue, hroot⟩ := wellFormed_reply hwell hreply
      obtain ⟨text, htext, hread, hline⟩ := jsonDumps_read hchain 0 hvalue hroot
      exact ⟨text, _, htext, hline rfl, hread, jsonEqual_arranged hchain 0 hvalue []⟩

/-- Whatever line the pool sends, what is sent back is never the NULL of a failed `json_dumps`: it
is one line, which reads as the reply, under the `id` of the request. -/
theorem stratumReply_answers {chain : List Nat → List CStr → List CStr} (hchain : Chains chain)
    {hardened : Bool} {s : CStr} (hlen : s.length < 2 ^ 31) {val : Json}
    (hval : jsonLoads (readReal strtod) s = some val) (hid : IdPrinted snprintf strtod val)
    {reply : Reply} (h : stratumReply hardened (some val) = some reply) :
    ∃ id text read, jsonObjectGet (some val) (cstr "id") = some id ∧
      reply.text snprintf chain = some text ∧ 10 ∉ text ∧
      jsonLoads (readReal strtod) text = some read ∧ jsonEqual reply.value read = true ∧
      ∃ readId, jsonObjectGet (some read) (cstr "id") = some readId ∧
        jsonEqual (reply.id id) readId = true := by
  obtain ⟨id, hget, -, hreply⟩ := stratumReply_cases h
  obtain ⟨text, read, htext, hline, hread, hequal⟩ :=
    stratumReply_text hchain hlen hval hid h
  obtain ⟨readId, hreadId, hsame⟩ := jsonEqual_get hequal hreply.get_id
  exact ⟨id, text, read, hget, htext, hline, hread, hequal, readId, hreadId, hsame⟩

/-! A run of requests. -/

/-- A line of the pool, and the turns that the send of the reply to it meets. -/
structure Request where
  line : CStr
  turns : List Send

/-- The reply to a line, none when it is no request. -/
def Request.reply (strtod : CStr → Double × Bool) (hardened : Bool) (request : Request) :
    Option Reply :=
  (jsonLoads (readReal strtod) request.line).bind fun val => stratumReply hardened (some val)

/-- The sends that a run of requests makes. -/
def replySends (snprintf : Double → CStr) (strtod : CStr → Double × Bool)
    (chain : List Nat → List CStr → List CStr) (hardened : Bool) (requests : List Request) :
    List SendCall :=
  requests.filterMap fun request =>
    (request.reply strtod hardened).bind fun reply =>
      (reply.text snprintf chain).map fun text => ⟨text, request.turns⟩

theorem unbroken_of_completed {calls : List SendCall}
    (h : ∀ call ∈ calls, call.returned = some true) : Unbroken calls := by
  induction calls with
  | nil => trivial
  | cons call calls ih =>
      rw [List.forall_mem_cons] at h
      exact ⟨Or.inl h.1, ih h.2⟩

theorem exists_of_forall₂ {α β : Type} {r : α → β → Prop} {as : List α} {bs : List β}
    (h : List.Forall₂ r as bs) {a : α} (hmem : a ∈ as) : ∃ b ∈ bs, r a b := by
  induction h with
  | nil => cases hmem
  | cons hfirst hrest ih =>
      rcases List.mem_cons.mp hmem with rfl | hmem
      · exact ⟨_, List.mem_cons_self, hfirst⟩
      · obtain ⟨b, hb, hr⟩ := ih hmem
        exact ⟨b, List.mem_cons_of_mem _ hb, hr⟩

/-- When every send completes, the lines on the wire are the replies to the requests, each once and
in order. -/
theorem replies_read_back {chain : List Nat → List CStr → List CStr} (hchain : Chains chain)
    (hardened : Bool) {requests : List Request}
    (hlen : ∀ request ∈ requests, request.line.length < 2 ^ 31)
    (hids : ∀ request ∈ requests, ∀ val ∈ jsonLoads (readReal strtod) request.line,
      IdPrinted snprintf strtod val)
    (hsent : ∀ call ∈ replySends snprintf strtod chain hardened requests,
      call.returned = some true) :
    List.Forall₂ (fun line (reply : Reply) => ∃ read, jsonLoads (readReal strtod) line = some read ∧
        jsonEqual reply.value read = true)
      (Library.cutAt 10 (wire (replySends snprintf strtod chain hardened requests))).1
      (requests.filterMap (Request.reply strtod hardened)) := by
  have hreplies : List.Forall₂ (fun call (reply : Reply) => 10 ∉ call.line ∧
      ∃ read, jsonLoads (readReal strtod) call.line = some read ∧ jsonEqual reply.value read = true)
      (replySends snprintf strtod chain hardened requests)
      (requests.filterMap (Request.reply strtod hardened)) := by
    clear hsent
    rw [replySends]
    induction requests with
    | nil => exact List.Forall₂.nil
    | cons request requests ih =>
        rw [List.forall_mem_cons] at hlen hids
        rw [List.filterMap_cons, List.filterMap_cons]
        cases hreply : request.reply strtod hardened with
        | none => exact ih hlen.2 hids.2
        | some reply =>
            obtain ⟨val, hval, hcase⟩ := Option.bind_eq_some_iff.mp hreply
            obtain ⟨text, read, htext, hline, hread, hequal⟩ :=
              stratumReply_text hchain hlen.1 hval (hids.1 val hval) hcase
            rw [Option.bind_some, htext]
            exact List.Forall₂.cons ⟨hline, read, hread, hequal⟩ (ih hlen.2 hids.2)
  generalize replySends snprintf strtod chain hardened requests = calls at hsent hreplies
  have hlines : ∀ call ∈ calls, 10 ∉ call.line := by
    clear hsent
    intro call hmem
    obtain ⟨reply, -, hline, -⟩ := exists_of_forall₂ hreplies hmem
    exact hline
  have hall : completed calls = calls.map SendCall.line := by
    rw [completed, List.filter_eq_self.mpr fun call hmem => by simpa using hsent call hmem]
  rw [wire_lines hlines, linesOf_unbroken.mpr (unbroken_of_completed hsent), hall]
  clear hlines hsent hall
  generalize requests.filterMap (Request.reply strtod hardened) = replies at hreplies ⊢
  induction hreplies with
  | nil => exact List.Forall₂.nil
  | cons hfirst hrest ih => exact List.Forall₂.cons hfirst.2 ih

end

/-! A request for the version, under an `id` that is a real. -/

def versionRequest : CStr := cstr "\x7b\"id\":0.5,\"method\":\"client.get_version\"\x7d"

theorem versionRequest_replied :
    ((jsonLoads (readReal strtodHalf) versionRequest).bind fun val =>
      (jsonObjectGet (some val) (cstr "id")).bind fun id =>
        (stratumReply false (some val)).map fun _ => reals id) = some [half] := by
  decide +kernel

theorem stratumReply_answers_version : ∃ val reply,
    jsonLoads (readReal strtodHalf) versionRequest = some val ∧
    stratumReply false (some val) = some reply ∧
    ∃ id text read, jsonObjectGet (some val) (cstr "id") = some id ∧
      reply.text printHalf (fun _ keys => keys) = some text ∧ 10 ∉ text ∧
      jsonLoads (readReal strtodHalf) text = some read ∧ jsonEqual reply.value read = true ∧
      ∃ readId, jsonObjectGet (some read) (cstr "id") = some readId ∧
        jsonEqual (reply.id id) readId = true := by
  obtain ⟨val, hval, hbind⟩ := Option.bind_eq_some_iff.mp versionRequest_replied
  obtain ⟨id, hid, hmap⟩ := Option.bind_eq_some_iff.mp hbind
  obtain ⟨reply, hreply, hreals⟩ := Option.map_eq_some_iff.mp hmap
  have hchain : Chains fun _ keys => keys := fun _ keys => List.Perm.refl keys
  have hprinted : IdPrinted printHalf strtodHalf val := by
    intro id' hid' x hx
    obtain rfl : id = id' := Option.some.inj (hid.symm.trans hid')
    rw [hreals, List.mem_singleton] at hx
    exact hx ▸ printed_strtodHalf
  exact ⟨val, reply, hval, hreply, stratumReply_answers hchain (by decide) hval hprinted hreply⟩

/-- A ping, whose pong goes out in two pieces, and a line that is no request. -/
def pingRequests : List Request :=
  [⟨cstr "\x7b\"id\":7,\"method\":\"mining.ping\"\x7d", [.sent 20, .again, .sent 100]⟩,
    ⟨cstr "[]", []⟩]

theorem pingRequests_ids :
    (pingRequests.all fun request => (jsonLoads (readReal strtodHalf) request.line).all fun val =>
      (jsonObjectGet (some val) (cstr "id")).all fun id => (reals id).isEmpty) = true := by
  decide +kernel

theorem replies_read_back_ping :
    List.Forall₂ (fun line (reply : Reply) => ∃ read,
        jsonLoads (readReal strtodHalf) line = some read ∧ jsonEqual reply.value read = true)
      (Library.cutAt 10 (wire (replySends printHalf strtodHalf (fun _ keys => keys) false
        pingRequests))).1
      (pingRequests.filterMap (Request.reply strtodHalf false)) := by
  have hchain : Chains fun _ keys => keys := fun _ keys => List.Perm.refl keys
  refine replies_read_back hchain false (by decide) ?_ (by decide +kernel)
  intro request hmem val hval id hid x hx
  have hids := List.all_eq_true.mp pingRequests_ids request hmem
  rw [Option.mem_def.mp hval, Option.all_some, Option.mem_def.mp hid, Option.all_some,
    List.isEmpty_iff] at hids
  rw [hids] at hx
  cases hx

end SojCivicLight.Stratum
