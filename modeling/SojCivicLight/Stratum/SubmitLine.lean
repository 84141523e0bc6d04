import SojCivicLight.Jansson.PlainText
import SojCivicLight.Stratum.Submit

/-! The submit line as a JSON text. -/

namespace SojCivicLight.Stratum

open SojCivicLight.Util SojCivicLight.Jansson SojCivicLight.Mining

def SubmitParams.strings (params : SubmitParams) : List CStr :=
  [params.user, params.jobId, params.xnonce2str, params.ntimestr, params.noncestr]

def Submits (strtod : CStr → Option Double) (line : CStr) (params : SubmitParams) : Prop :=
  ∃ val, jsonLoads strtod line = some val ∧
    jsonObjectGet (some val) (cstr "method") = some (.string (cstr "mining.submit")) ∧
    jsonObjectGet (some val) (cstr "params") = some (.array (params.strings.map .string)) ∧
    jsonObjectGet (some val) (cstr "id") = some (.integer 4)

/-- The string can be spliced into a line: UTF-8 without a quote, a backslash or a control
character. -/
def Spliceable (s : CStr) : Prop := Plain s ∧ (stream 0 s).2 = true

instance (s : CStr) : Decidable (Spliceable s) := inferInstanceAs (Decidable (_ ∧ _))

/-! The line before it is cut to the buffer. -/

def submitText (params : SubmitParams) : CStr :=
  123 :: 34 :: (cstr "method" ++ 34 :: 58 :: 34 :: (cstr "mining.submit" ++ 34 :: 44 :: 34 ::
    (cstr "params" ++ 34 :: 58 :: 91 :: 34 :: (params.user ++ 34 ::
      moreStrings [params.jobId, params.xnonce2str, params.ntimestr, params.noncestr]
        (44 :: 34 :: (cstr "id" ++ 34 :: 58 :: 52 :: 125 :: []))))))

theorem stdLeBuildStratumRequest_eq (rpcUser : CStr) (work : Work) :
    stdLeBuildStratumRequest rpcUser work =
      (submitText (submitParams rpcUser work)).take (jsonBufLen - 1) := by
  have hhead : cstr "\x7b\"method\":\"mining.submit\",\"params\":[\"" =
      123 :: 34 :: (cstr "method" ++ 34 :: 58 :: 34 :: (cstr "mining.submit" ++ 34 :: 44 :: 34 ::
        (cstr "params" ++ 34 :: 58 :: 91 :: [34]))) := rfl
  have hbetween : cstr "\",\"" = [34, 44, 34] := rfl
  have htail : cstr "\"],\"id\":4\x7d" = 34 :: 93 :: 44 :: 34 :: (cstr "id" ++ [34, 58, 52, 125]) :=
    rfl
  rw [stdLeBuildStratumRequest, hhead, hbetween, htail, submitText]
  simp only [moreStrings, List.append_assoc, List.cons_append, List.nil_append]

theorem length_submitText (params : SubmitParams) :
    (submitText params).length = 59 + (params.strings.map List.length).sum := by
  have hmethod : (cstr "method").length = 6 := rfl
  have hsubmit : (cstr "mining.submit").length = 13 := rfl
  have hparams : (cstr "params").length = 6 := rfl
  have hid : (cstr "id").length = 2 := rfl
  simp only [submitText, moreStrings, SubmitParams.strings, List.length_cons, List.length_append,
    List.length_nil, List.map_cons, List.map_nil, List.sum_cons, List.sum_nil, hmethod, hsubmit,
    hparams, hid]
  omega

/-- What the line is meant to say. -/
def submitJson (params : SubmitParams) : Json :=
  .object [(cstr "method", .string (cstr "mining.submit")),
    (cstr "params", .array (params.strings.map .string)), (cstr "id", .integer 4)]

section

variable {strtod : CStr → Option Double} {atEnd : Token}

theorem parseValue_string (fuel : Nat) {s : CStr} (h : Plain s) (rest : CStr) :
    parseValue strtod atEnd (fuel + 1) (lexScan strtod atEnd (34 :: (s ++ 34 :: rest))).1
      (lexScan strtod atEnd (34 :: (s ++ 34 :: rest))).2 = some (.string s, rest) := by
  rw [lexScan_plain h]
  rfl

theorem parseValue_strings {fuel : Nat} {first : CStr} {strings : List CStr} (hfirst : Plain first)
    (hstrings : ∀ s ∈ strings, Plain s) (hfuel : strings.length + 2 ≤ fuel) (rest : CStr) :
    parseValue strtod atEnd (fuel + 1)
      (lexScan strtod atEnd (91 :: 34 :: (first ++ 34 :: moreStrings strings rest))).1
      (lexScan strtod atEnd (91 :: 34 :: (first ++ 34 :: moreStrings strings rest))).2 =
      some (.array ((first :: strings).map .string), rest) := by
  have hbracket : lexScan strtod atEnd (91 :: 34 :: (first ++ 34 :: moreStrings strings rest)) =
      (.punct 91, 34 :: (first ++ 34 :: moreStrings strings rest)) := rfl
  rw [hbracket, parseValue, lexScan_plain hfirst]
  dsimp only
  rw [if_neg (by simp), parseArray_plain hstrings rest [] first hfuel]
  rfl

theorem parseJson_submitText {params : SubmitParams} (h : ∀ s ∈ params.strings, Plain s) :
    parseJson strtod .eof (submitText params) = some (submitJson params) := by
  rw [SubmitParams.strings, List.forall_mem_cons] at h
  obtain ⟨huser, hstrings⟩ := h
  have hlen := length_submitText params
  obtain ⟨fuel, hfuel⟩ : ∃ fuel, 2 * (submitText params).length = fuel + 11 :=
    ⟨2 * (submitText params).length - 11, by omega⟩
  have hmethod : Plain (cstr "method") := by decide +kernel
  have hsubmit : Plain (cstr "mining.submit") := by decide +kernel
  have hparams : Plain (cstr "params") := by decide +kernel
  have hid : Plain (cstr "id") := by decide +kernel
  have hinteger : parseValue strtod .eof (fuel + 7) (lexScan strtod .eof [52, 125]).1
      (lexScan strtod .eof [52, 125]).2 = some (.integer 4, [125]) := rfl
  have hobject : parseObject strtod .eof (fuel + 10) [] (.string (cstr "method"))
      (58 :: 34 :: (cstr "mining.submit" ++ 34 :: 44 :: 34 ::
        (cstr "params" ++ 34 :: 58 :: 91 :: 34 :: (params.user ++ 34 ::
          moreStrings [params.jobId, params.xnonce2str, params.ntimestr, params.noncestr]
            (44 :: 34 :: (cstr "id" ++ 34 :: 58 :: 52 :: 125 :: [])))))) =
      some ([(cstr "method", .string (cstr "mining.submit")),
        (cstr "params", .array (params.strings.map .string)), (cstr "id", .integer 4)], []) := by
    rw [parseObject_member (parseValue_string (fuel + 8) hsubmit _), lexScan_plain hparams,
      parseObject_member (parseValue_strings huser hstrings (by simp) _), lexScan_plain hid,
      parseObject_last hinteger]
    rfl
  have hbrace : lexScan strtod .eof (submitText params) = (.punct 123, (submitText params).tail) :=
    rfl
  rw [parseJson, hbrace]
  dsimp only
  rw [if_pos (Or.inr rfl), hfuel, parseValue, submitText, List.tail_cons, lexScan_plain hmethod]
  dsimp only
  rw [if_neg (by simp), hobject]
  rfl

end

theorem utf8_submitText (params : SubmitParams) :
    (stream 0 (submitText params)).2 = true ↔ ∀ s ∈ params.strings, (stream 0 s).2 = true := by
  have hmethod : (stream 0 (cstr "method")).2 = true := rfl
  have hsubmit : (stream 0 (cstr "mining.submit")).2 = true := rfl
  have hparams : (stream 0 (cstr "params")).2 = true := rfl
  have hid : (stream 0 (cstr "id")).2 = true := rfl
  have hends : (stream 0 []).2 = true := rfl
  have hquote : (34 : UInt8) < 0x80 := by decide
  simp [submitText, moreStrings, SubmitParams.strings, utf8_splice, utf8_cons, hmethod, hsubmit,
    hparams, hid, hends]

theorem jsonLoads_submitText {strtod : CStr → Option Double} {params : SubmitParams}
    (h : ∀ s ∈ params.strings, Spliceable s) :
    jsonLoads strtod (submitText params) = some (submitJson params) := by
  have hutf8 := (utf8_submitText params).mpr fun s hs => (h s hs).2
  rw [jsonLoads, if_pos hutf8, stream_fst hutf8]
  exact parseJson_submitText fun s hs => (h s hs).1

/-- A text that submits the params leaves no room for anything but them. -/
theorem Submits.length {strtod : CStr → Option Double} {line : CStr} {params : SubmitParams}
    (h : Submits strtod line params) :
    44 + elementsLength (params.strings.map .string) ≤ line.length := by
  obtain ⟨val, hloads, hmethod, hparams, hid⟩ := h
  have hlen := jsonLoads_length hloads
  cases val with
  | object members =>
      have hfirst := membersLength_get hmethod
      rw [← @get_filter members (cstr "method") _ (by decide)] at hparams hid
      have hsecond := membersLength_get hparams
      rw [← @get_filter _ (cstr "params") _ (by decide)] at hid
      have hthird := membersLength_get hid
      have hlengths : stringLength (cstr "method") = 8 ∧ stringLength (cstr "mining.submit") = 15 ∧
          stringLength (cstr "params") = 8 ∧ stringLength (cstr "id") = 4 := by decide +kernel
      simp only [textLength, hlengths] at hfirst hsecond hthird hlen
      omega
  | _ => cases hmethod

theorem isHexDigit_plain : ∀ c : UInt8, isHexDigit c = true →
    (c ≠ 34 ∧ c ≠ 92 ∧ 0x1f < c) ∧ c < 0x80 := by
  apply forall_isHexDigit
  decide +kernel

theorem spliceable_bin2hex (p : List UInt8) : Spliceable (bin2hex p) := by
  have hplain := fun c hc => isHexDigit_plain c (allHex_bin2hex p c hc)
  exact ⟨fun c hc => (hplain c hc).1, stream_ascii fun c hc => (hplain c hc).2⟩

/-- The params of a work, whose other strings are hex, are read back when those can be
spliced and the line is not cut. -/
theorem submits_strings_iff (strtod : CStr → Option Double) (rpcUser : CStr) (work : Work) :
    Submits strtod (stdLeBuildStratumRequest rpcUser work) (submitParams rpcUser work) ↔
      (∀ s ∈ (submitParams rpcUser work).strings, Spliceable s) ∧
        (submitText (submitParams rpcUser work)).length < jsonBufLen := by
  rw [stdLeBuildStratumRequest_eq]
  generalize submitParams rpcUser work = params
  have hfull := length_submitText params
  constructor
  · intro h
    have hlen := h.length
    have hstrings := elementsLength_ge params.strings
    have hcut := List.length_take (i := jsonBufLen - 1) (l := submitText params)
    have hsum : (params.strings.map fun s => s.length + 3).sum =
        (params.strings.map List.length).sum + 15 := by
      simp only [SubmitParams.strings, List.map_cons, List.map_nil, List.sum_cons, List.sum_nil]
      omega
    have hplain := @plain_of_elementsLength params.strings (by omega)
    have hfits : (submitText params).length < jsonBufLen := by
      have hbuf : jsonBufLen = 8192 := rfl
      omega
    rw [List.take_of_length_le (Nat.le_sub_one_of_lt hfits)] at h
    obtain ⟨val, hloads, -⟩ := h
    have hutf8 := (utf8_submitText params).mp (jsonLoads_utf8 hloads)
    exact ⟨fun s hs => ⟨hplain s hs, hutf8 s hs⟩, hfits⟩
  · rintro ⟨hstrings, hfits⟩
    rw [List.take_of_length_le (Nat.le_sub_one_of_lt hfits)]
    exact ⟨submitJson params, jsonLoads_submitText hstrings, rfl, rfl, rfl⟩

/-- The line is read back as it was meant, exactly when the user and the job id can be
spliced and it fits its buffer. -/
theorem submits_iff (strtod : CStr → Option Double) (rpcUser : CStr) {jobId : CStr} {work : Work}
    (hjob : work.jobId = some jobId) :
    Submits strtod (stdLeBuildStratumRequest rpcUser work) (submitParams rpcUser work) ↔
      Spliceable rpcUser ∧ Spliceable jobId ∧
        rpcUser.length + jobId.length + 2 * work.xnonce2.length + 75 < jsonBufLen := by
  have hparams : (submitParams rpcUser work).strings = [rpcUser, jobId, bin2hex work.xnonce2,
      bin2hex (le32enc (work.data.getD ntimeIndex 0)),
      bin2hex (le32enc (work.data.getD nonceIndex 0))] := by
    rw [SubmitParams.strings, submitParams, hjob]
    rfl
  rw [submits_strings_iff, length_submitText, hparams]
  simp only [List.forall_mem_cons, List.map_cons, List.map_nil, List.sum_cons, List.sum_nil,
    length_bin2hex, spliceable_bin2hex, le32enc, List.length_cons, List.length_nil]
  constructor
  · rintro ⟨⟨huser, hjobId, -⟩, hlen⟩
    exact ⟨huser, hjobId, by omega⟩
  · rintro ⟨huser, hjobId, hlen⟩
    refine ⟨⟨huser, hjobId, trivial, trivial, trivial, ?_⟩, by omega⟩
    exact fun s hs => absurd hs List.not_mem_nil

def submitWork (jobId : CStr) : Work :=
  { Work.zero with jobId := some jobId, xnonce2 := [0, 0, 0, 0] }

theorem submits_plain_job :
    Submits (fun _ => none) (stdLeBuildStratumRequest (cstr "miner.1") (submitWork (cstr "1")))
      (submitParams (cstr "miner.1") (submitWork (cstr "1"))) :=
  (submits_iff _ _ rfl).mpr (by decide +kernel)

def Notified (jobId : CStr) : Prop :=
  ∃ heap sctx params, (stratumNotify heap sctx params).2 = true ∧
    (stratumNotify heap sctx params).1.job.jobId = some jobId

def quotedJob : Option Json :=
  some (.array [.string (cstr "a\"b"), .string (List.replicate 64 48), .string (cstr "00"),
    .string (cstr "00"), .array [], .string (cstr "00000001"), .string (cstr "1d00ffff"),
    .string (cstr "5e000000"), .bool true])

theorem quoted_job_not_submitted : ¬ ∀ (strtod : CStr → Option Double) (rpcUser jobId : CStr)
    (work : Work), work.jobId = some jobId → Notified jobId →
    2 ≤ work.xnonce2.length → work.xnonce2.length ≤ 16 →
    Submits strtod (stdLeBuildStratumRequest rpcUser work) (submitParams rpcUser work) := by
  intro h
  have hnotified : Notified (cstr "a\"b") :=
    ⟨.zero, .init, quotedJob, by decide +kernel, by decide +kernel⟩
  have hsubmits := h (fun _ => none) (cstr "miner.1") _ (submitWork (cstr "a\"b")) rfl hnotified
    (by decide) (by decide)
  have hplain := (submits_strings_iff _ _ _).mp hsubmits
  exact absurd (hplain.1 (cstr "a\"b") (by decide +kernel)).1 (by decide +kernel)

end SojCivicLight.Stratum
