import SojCivicLight.Stratum.Session

/-! The handlers once more, on the pointers that `json_string_value` returns.  A string
function that is given NULL has no result, and so has what calls it. -/

namespace SojCivicLight.Stratum

open SojCivicLight.Util

def portNumber : Option Json → Int
  | some (.string port) => atoi port
  | port => castInt (jsonIntegerValue port)

theorem stratumReconnect_portNumber (opts : Options) (sctx : StratumCtx) (params : Option Json) :
    stratumReconnect opts sctx params =
      if (jsonStringValue (jsonArrayGet params 0)).isNone ∨
        portNumber (jsonArrayGet params 1) = 0 then
        (sctx, false)
      else if !opts.optRedirect then (sctx, true)
      else (stratumDisconnect sctx, true) := rfl

namespace Pointer

def strlen (s : Option CStr) : Option Nat := s.map List.length

def atoi (s : Option CStr) : Option Int := s.map Stratum.atoi

/-- `!strcasecmp` -/
def strcaseEq (left right : Option CStr) : Option Bool := do
  return Stratum.strcaseEq (← left) (← right)

def strstr (haystack : Option CStr) (needle : String) : Option Bool := do
  return Stratum.strstr (← haystack) (cstr needle)

/-- `||`: the right side runs when the left one is false. -/
def or (left right : Option Bool) : Option Bool := do
  if ← left then return true else right

def lengthNe (s : Option CStr) (n : Nat) : Option Bool := do
  return (← strlen s) != n

def methodEq2 (method : Option CStr) (left right : String) : Option Bool :=
  strcaseEq method (some (cstr left ++ cstr "." ++ cstr right))

/-- The checks made before anything is written; after them every pointer is used. -/
def readNotify (params : Option Json) : Option (Option NotifyFields) := do
  let jobId := jsonStringValue (jsonArrayGet params 0)
  let prevhash := jsonStringValue (jsonArrayGet params 1)
  let coinb1 := jsonStringValue (jsonArrayGet params 2)
  let coinb2 := jsonStringValue (jsonArrayGet params 3)
  let some (.array merkle) := jsonArrayGet params 4 | return none
  let version := jsonStringValue (jsonArrayGet params 5)
  let nbits := jsonStringValue (jsonArrayGet params 6)
  let stime := jsonStringValue (jsonArrayGet params 7)
  let missing := jobId.isNone || prevhash.isNone || coinb1.isNone || coinb2.isNone ||
    version.isNone || nbits.isNone || stime.isNone
  if ← or missing (or (lengthNe prevhash 64) (or (lengthNe version 8)
      (or (lengthNe nbits 8) (lengthNe stime 8)))) then
    return none
  return some
    { jobId := ← jobId, prevhash := ← prevhash, coinb1 := ← coinb1, coinb2 := ← coinb2, merkle,
      merkleCount := castInt merkle.length, version := ← version, nbits := ← nbits,
      stime := ← stime, clean := jsonIsTrue (jsonArrayGet params 8) }

def decodeMerkle : List (Bytes 32) → List Json → Option (List (Bytes 32) × Bool)
  | row :: rows, branch :: rest => do
      let s := jsonStringValue (some branch)
      if ← or s.isNone (lengthNe s 64) then return (row :: rows, false)
      let decoded ← decodeMerkle rows rest
      return (row.hex2bin (← s) :: decoded.1, decoded.2)
  | rows, _ => some (rows, true)

def stratumNotify (heap : Heap) (sctx : StratumCtx) (params : Option Json) :
    Option (StratumCtx × Bool) := do
  let some fields ← readNotify params | return (sctx, false)
  let rows := growMerkle heap sctx.job.merkle fields.merkleCount
  let decoded ← decodeMerkle rows (fields.merkle.take fields.merkleCount.toNat)
  if decoded.2 then return (acceptJob heap sctx fields decoded.1, true)
  else return (rejectBranch sctx fields decoded.1, false)

def stratumParseExtranonce (sctx : StratumCtx) (params : Option Json) (pndx : Nat) :
    Option (StratumCtx × Bool) := do
  let xnonce1 := jsonStringValue (jsonArrayGet params pndx)
  if xnonce1.isNone then return (sctx, false)
  let xn2Size := castInt (jsonIntegerValue (jsonArrayGet params (pndx + 1)))
  if xn2Size = 0 ∨ xn2Size < 2 ∨ 16 < xn2Size then return (sctx, false)
  let size := (← strlen xnonce1) / 2
  return ({ sctx with
    xnonce1 := (hex2bin (List.replicate size 0) (← xnonce1)).1
    xnonce2Size := xn2Size.toNat }, true)

def reconnectPort (portVal : Option Json) : Option Int :=
  match portVal with
  | some (.string _) => atoi (jsonStringValue portVal)
  | _ => some (castInt (jsonIntegerValue portVal))

def stratumReconnect (opts : Options) (sctx : StratumCtx) (params : Option Json) :
    Option (StratumCtx × Bool) := do
  let host := jsonStringValue (jsonArrayGet params 0)
  let port ← reconnectPort (jsonArrayGet params 1)
  if host.isNone ∨ port = 0 then return (sctx, false)
  let _ ← strlen host
  if !opts.optRedirect then return (sctx, true)
  return (stratumDisconnect sctx, true)

def stratumHandleMethod (opts : Options) (sctx : StratumCtx) (line : Line) :
    Option (StratumCtx × Bool) := do
  let method := jsonStringValue (jsonObjectGet line.val (cstr "method"))
  if method.isNone then return (sctx, false)
  let params := jsonObjectGet line.val (cstr "params")
  let id := jsonObjectGet line.val (cstr "id")
  if ← methodEq2 method "mining" "notify" then
    let notified ← stratumNotify line.heap sctx params
    return ({ notified.1 with newJob := true }, notified.2)
  if ← methodEq2 method "mining" "ping" then return (sctx, stratumPong id line.sent)
  if ← methodEq2 method "mining" "set_difficulty" then
    return stratumSetDifficulty opts sctx params
  if ← methodEq2 method "mining" "set_extranonce" then
    stratumParseExtranonce sctx params 0
  else if ← strcaseEq method (cstr "client.reconnect") then stratumReconnect opts sctx params
  else if ← strcaseEq method (cstr "client.get_algo") then
    return (sctx, stratumGetAlgo id line.sent)
  else if ← strcaseEq method (cstr "client.get_version") then
    return (sctx, stratumGetVersion id line.sent)
  else if ← strcaseEq method (cstr "client.show_message") then
    return (sctx, stratumShowMessage id line.sent)
  else return (sctx, stratumUnknownMethod id line.sent)

def responseError (val : Option Json) : Option ResponseError := do
  let message := jsonObjectGet (jsonObjectGet val (cstr "error")) (cstr "message")
  if message.isNone then return .none
  let errorMsg := jsonStringValue message
  if ← or (strstr errorMsg "stale") (or (strstr errorMsg "incorrect cycle")
      (strstr errorMsg "job not found")) then
    if ← strstr errorMsg "duplicate" then return .duplicate
    else if ← strstr errorMsg "incorrect cycle" then return .incorrectCycle
    else return .stale
  else return .none

def stratumHandleResponse (s : Session) (val : Option Json) : Option (Session × List Effect) :=
  let idVal := jsonObjectGet val (cstr "id")
  if val.isNone then some (s.goto (.reauthenticate .jsonError), [])
  else if idVal.isNone || jsonIsNull idVal then some (s.goto .after, [])
  else do
    match ← responseError val with
    | .notString => none
    | .duplicate => return (s.goto .after, [])
    | .none => return (s.shareStep val, [])
    | .stale =>
        return ({ s with
          consecutiveIncorrectCycleErrors := 0, pc := .reauthenticate .poolError }, [])
    | .incorrectCycle =>
        let s := { s with
          consecutiveIncorrectCycleErrors := s.consecutiveIncorrectCycleErrors + 1 }
        if 2 < s.consecutiveIncorrectCycleErrors then
          return ({ s with miningSuspendedForNewJob := true, pc := .reauthenticate .poolError },
            [.restartThreads])
        else return (s.shareStep val, [])

/-! Where every pointer is checked the handlers do what they do on strings. -/

@[simp] theorem strlen_some (s : CStr) : strlen (some s) = some s.length := rfl

@[simp] theorem strcaseEq_some (left right : CStr) :
    strcaseEq (some left) (some right) = some (Stratum.strcaseEq left right) := rfl

@[simp] theorem strstr_some (haystack : CStr) (needle : String) :
    strstr (some haystack) needle = some (Stratum.strstr haystack (cstr needle)) := rfl

@[simp] theorem lengthNe_some (s : CStr) (n : Nat) : lengthNe (some s) n = some (s.length != n) :=
  rfl

@[simp] theorem methodEq2_some (method : CStr) (left right : String) :
    methodEq2 (some method) left right = some (Stratum.methodEq2 method left right) := rfl

@[simp] theorem or_true (right : Option Bool) : or (some true) right = some true := rfl

@[simp] theorem or_false (right : Option Bool) : or (some false) right = right := rfl

@[simp] theorem or_some (left right : Bool) :
    or (some left) (some right) = some (left || right) := by
  cases left with
  | true => rfl
  | false => rfl

theorem decodeMerkle_eq (rows : List (Bytes 32)) (branches : List Json) :
    decodeMerkle rows branches = some (Stratum.decodeMerkle rows branches) := by
  induction rows generalizing branches with
  | nil => rfl
  | cons row rows ih =>
      cases branches with
      | nil => rfl
      | cons branch rest =>
          rw [decodeMerkle, Stratum.decodeMerkle, ih, branchString]
          cases jsonStringValue (some branch) with
          | none => rfl
          | some s =>
              by_cases hlen : s.length = 64
              · simp [hlen, Option.filter]
              · simp [hlen, Option.filter]

theorem readNotify_eq (params : Option Json) :
    readNotify params = some (Stratum.readNotify params) := by
  rw [readNotify, Stratum.readNotify]
  cases h4 : jsonArrayGet params 4 with
  | none => rfl
  | some merkle =>
  cases merkle with
  | array merkle =>
    cases h0 : jsonStringValue (jsonArrayGet params 0) with
    | none => rfl
    | some jobId =>
    cases h1 : jsonStringValue (jsonArrayGet params 1) with
    | none => rfl
    | some prevhash =>
    cases h2 : jsonStringValue (jsonArrayGet params 2) with
    | none => rfl
    | some coinb1 =>
    cases h3 : jsonStringValue (jsonArrayGet params 3) with
    | none => rfl
    | some coinb2 =>
    cases h5 : jsonStringValue (jsonArrayGet params 5) with
    | none => rfl
    | some version =>
    cases h6 : jsonStringValue (jsonArrayGet params 6) with
    | none => rfl
    | some nbits =>
    cases h7 : jsonStringValue (jsonArrayGet params 7) with
    | none => rfl
    | some stime =>
      by_cases hlengths : prevhash.length = 64 ∧ version.length = 8 ∧ nbits.length = 8 ∧
          stime.length = 8
      · simp [hlengths, guard]
      · have hbad : (prevhash.length != 64 || (version.length != 8 || (nbits.length != 8 ||
            stime.length != 8))) = true := by
          simp only [Bool.or_eq_true, bne_iff_ne]
          omega
        simp [hlengths, hbad, guard]
  | _ => rfl

theorem stratumNotify_eq (heap : Heap) (sctx : StratumCtx) (params : Option Json) :
    stratumNotify heap sctx params = some (Stratum.stratumNotify heap sctx params) := by
  rw [stratumNotify, Stratum.stratumNotify, readNotify_eq]
  cases Stratum.readNotify params with
  | none => rfl
  | some fields =>
      simp only [decodeMerkle_eq, Option.bind_eq_bind, Option.bind_some, Option.pure_def]
      split
      · rfl
      · rfl

theorem stratumParseExtranonce_eq (sctx : StratumCtx) (params : Option Json) (pndx : Nat) :
    stratumParseExtranonce sctx params pndx =
      some (Stratum.stratumParseExtranonce sctx params pndx) := by
  rw [stratumParseExtranonce, Stratum.stratumParseExtranonce]
  cases jsonStringValue (jsonArrayGet params pndx) with
  | none => rfl
  | some xnonce1 =>
      generalize castInt (jsonIntegerValue (jsonArrayGet params (pndx + 1))) = xn2Size
      simp only [Option.isNone_some, Bool.false_eq_true, ↓reduceIte]
      by_cases hsize : xn2Size = 0 ∨ xn2Size < 2 ∨ 16 < xn2Size
      · rw [if_pos hsize, if_pos hsize]
        rfl
      · rw [if_neg hsize, if_neg hsize]
        rfl

theorem reconnectPort_eq (portVal : Option Json) :
    reconnectPort portVal = some (portNumber portVal) := by
  cases portVal with
  | none => rfl
  | some portVal =>
      cases portVal with
      | _ => rfl

theorem stratumReconnect_eq (opts : Options) (sctx : StratumCtx) (params : Option Json) :
    stratumReconnect opts sctx params = some (Stratum.stratumReconnect opts sctx params) := by
  rw [stratumReconnect, stratumReconnect_portNumber, reconnectPort_eq]
  generalize portNumber (jsonArrayGet params 1) = port
  cases jsonStringValue (jsonArrayGet params 0) with
  | none => simp
  | some host =>
      by_cases hport : port = 0
      · simp [hport]
      · simp [hport, apply_ite some]

theorem stratumHandleMethod_eq (opts : Options) (sctx : StratumCtx) (line : Line) :
    stratumHandleMethod opts sctx line = some (Stratum.stratumHandleMethod opts sctx line) := by
  rw [stratumHandleMethod, Stratum.stratumHandleMethod]
  cases jsonStringValue (jsonObjectGet line.val (cstr "method")) with
  | none => rfl
  | some method =>
      simp only [methodEq2_some, strcaseEq_some, stratumNotify_eq, stratumParseExtranonce_eq,
        stratumReconnect_eq, Option.bind_eq_bind, Option.bind_some, Option.pure_def,
        Option.isNone_some, Bool.false_eq_true, ↓reduceIte, ← apply_ite some]

theorem responseError_eq (val : Option Json) :
    responseError val =
      match Stratum.responseError val with
      | .notString => none
      | error => some error := by
  rw [responseError, Stratum.responseError]
  cases jsonObjectGet (jsonObjectGet val (cstr "error")) (cstr "message") with
  | none => rfl
  | some message =>
      simp only
      cases jsonStringValue (some message) with
      | none => rfl
      | some errorMsg =>
          simp only [strstr_some]
          generalize Stratum.strstr errorMsg (cstr "stale") = stale
          generalize Stratum.strstr errorMsg (cstr "incorrect cycle") = incorrectCycle
          generalize Stratum.strstr errorMsg (cstr "job not found") = jobNotFound
          generalize Stratum.strstr errorMsg (cstr "duplicate") = duplicate
          cases stale <;> cases incorrectCycle <;> cases jobNotFound <;> cases duplicate <;> rfl

end Pointer

/-! Which lines are left to the handler of responses. -/

def notifyHandled (params : Option Json) : Bool :=
  (readNotify params).any fun fields => decide fields.BranchGood

def setDifficultyHandled (opts : Options) (params : Option Json) : Bool :=
  !(jsonNumberValue opts (jsonArrayGet params 0)).isZero

def extranonceHandled (params : Option Json) : Bool :=
  let xn2Size := castInt (jsonIntegerValue (jsonArrayGet params 1))
  (jsonStringValue (jsonArrayGet params 0)).isSome && 2 ≤ xn2Size && xn2Size ≤ 16

def reconnectHandled (params : Option Json) : Bool :=
  (jsonStringValue (jsonArrayGet params 0)).isSome && portNumber (jsonArrayGet params 1) != 0

/-- The line asks for something that is done. -/
def methodHandled (opts : Options) (line : Line) : Bool :=
  match jsonStringValue (jsonObjectGet line.val (cstr "method")) with
  | none => false
  | some method =>
      let params := jsonObjectGet line.val (cstr "params")
      let id := jsonObjectGet line.val (cstr "id")
      if methodEq2 method "mining" "notify" then notifyHandled params
      else if methodEq2 method "mining" "ping" then answerable id && line.sent
      else if methodEq2 method "mining" "set_difficulty" then setDifficultyHandled opts params
      else if methodEq2 method "mining" "set_extranonce" then extranonceHandled params
      else if strcaseEq method (cstr "client.reconnect") then reconnectHandled params
      else if strcaseEq method (cstr "client.get_algo") then answerable id && line.sent
      else if strcaseEq method (cstr "client.get_version") then answerable id && line.sent
      else if strcaseEq method (cstr "client.show_message") then !answerable id || line.sent
      else answerable id && line.sent

theorem stratumNotify_handled (heap : Heap) (sctx : StratumCtx) (params : Option Json) :
    (stratumNotify heap sctx params).2 = notifyHandled params := by
  rw [Bool.eq_iff_iff, stratumNotify_accepts, notifyHandled, Option.any_eq_true]
  simp only [decide_eq_true_eq]

theorem stratumSetDifficulty_handled (opts : Options) (sctx : StratumCtx) (params : Option Json) :
    (stratumSetDifficulty opts sctx params).2 = setDifficultyHandled opts params := by
  rw [stratumSetDifficulty, setDifficultyHandled]
  cases (jsonNumberValue opts (jsonArrayGet params 0)).isZero with
  | true => rfl
  | false => rfl

theorem stratumParseExtranonce_handled (sctx : StratumCtx) (params : Option Json) :
    (stratumParseExtranonce sctx params 0).2 = extranonceHandled params := by
  rw [stratumParseExtranonce, extranonceHandled, Nat.zero_add]
  generalize castInt (jsonIntegerValue (jsonArrayGet params 1)) = xn2Size
  cases jsonStringValue (jsonArrayGet params 0) with
  | none => rfl
  | some xnonce1 =>
      dsimp only
      split
      · rename_i hsize
        symm
        simp
        omega
      · rename_i hsize
        symm
        simp
        omega

theorem stratumReconnect_handled (opts : Options) (sctx : StratumCtx) (params : Option Json) :
    (stratumReconnect opts sctx params).2 = reconnectHandled params := by
  rw [stratumReconnect_portNumber, reconnectHandled]
  generalize portNumber (jsonArrayGet params 1) = port
  cases jsonStringValue (jsonArrayGet params 0) with
  | none => simp
  | some host =>
      by_cases hport : port = 0
      · simp [hport]
      · cases hredirect : opts.optRedirect with
        | true => simp [hport]
        | false => simp [hport]

theorem stratumHandleMethod_handled (opts : Options) (sctx : StratumCtx) (line : Line) :
    (stratumHandleMethod opts sctx line).2 = methodHandled opts line := by
  rw [stratumHandleMethod, methodHandled]
  cases jsonStringValue (jsonObjectGet line.val (cstr "method")) with
  | none => rfl
  | some method =>
      simp only [apply_ite Prod.snd, stratumNotify_handled, stratumSetDifficulty_handled,
        stratumParseExtranonce_handled, stratumReconnect_handled, stratumPong, stratumGetAlgo,
        stratumGetVersion, stratumShowMessage, stratumUnknownMethod]

/-! Where a NULL is passed. -/

def ReadableMessage (val : Option Json) : Prop :=
  answerable (jsonObjectGet val (cstr "id")) = true →
    ∀ message, jsonObjectGet (jsonObjectGet val (cstr "error")) (cstr "message") = some message →
      (jsonStringValue (some message)).isSome

theorem responseError_notString_iff (val : Option Json) :
    responseError val = .notString ↔
      ∃ message, jsonObjectGet (jsonObjectGet val (cstr "error")) (cstr "message") = some message ∧
        jsonStringValue (some message) = none := by
  rw [responseError]
  cases jsonObjectGet (jsonObjectGet val (cstr "error")) (cstr "message") with
  | none => simp
  | some message =>
      simp only [Option.some_inj, exists_eq_left']
      cases jsonStringValue (some message) with
      | none => simp
      | some errorMsg =>
          simp only [reduceCtorEq, iff_false]
          split
          · split
            · simp
            · split
              · simp
              · simp
          · simp

/-- The response is handled as it is on strings, or it passes NULL. -/
theorem pointer_response_cases (s : Session) (val : Option Json) :
    (ReadableMessage val ∧
      Pointer.stratumHandleResponse s val = some (s.stratumHandleResponse val)) ∨
    (¬ ReadableMessage val ∧ Pointer.stratumHandleResponse s val = none ∧
      (s.stratumHandleResponse val).1.pc = .crashed) := by
  have hcheck :
      ((jsonObjectGet val (cstr "id")).isNone || jsonIsNull (jsonObjectGet val (cstr "id"))) =
        !answerable (jsonObjectGet val (cstr "id")) := by
    rw [answerable, Bool.not_and, Option.not_isSome, Bool.not_not]
  rw [Pointer.stratumHandleResponse, Session.stratumHandleResponse, hcheck,
    Pointer.responseError_eq]
  cases val with
  | none => exact Or.inl ⟨fun hid => absurd hid Bool.false_ne_true, rfl⟩
  | some val =>
      cases hid : answerable (jsonObjectGet (some val) (cstr "id")) with
      | false => exact Or.inl ⟨fun hid' => absurd (hid.symm.trans hid') Bool.false_ne_true, rfl⟩
      | true =>
          have hreadable : ReadableMessage (some val) ↔ responseError (some val) ≠ .notString := by
            rw [ReadableMessage, Ne, responseError_notString_iff]
            simp [hid, Option.ne_none_iff_isSome]
          rw [hreadable]
          cases responseError (some val) with
          | notString => exact Or.inr ⟨fun h => h rfl, rfl, rfl⟩
          | none => exact Or.inl ⟨ResponseError.noConfusion, rfl⟩
          | duplicate => exact Or.inl ⟨ResponseError.noConfusion, rfl⟩
          | stale => exact Or.inl ⟨ResponseError.noConfusion, rfl⟩
          | incorrectCycle =>
              refine Or.inl ⟨ResponseError.noConfusion, ?_⟩
              exact (apply_ite some _ _ _).symm

/-- Neither handler passes NULL to a string function. -/
def NoNullString (opts : Options) (s : Session) (line : Line) : Prop :=
  ∃ handled, Pointer.stratumHandleMethod opts s.ctx line = some handled ∧
    (handled.2 = false → (Pointer.stratumHandleResponse (s.setCtx handled.1) line.val).isSome)

theorem no_null_string_iff (opts : Options) (s : Session) (line : Line) :
    NoNullString opts s line ↔ (methodHandled opts line = false → ReadableMessage line.val) := by
  rw [NoNullString, Pointer.stratumHandleMethod_eq]
  simp only [Option.some_inj, exists_eq_left', stratumHandleMethod_handled]
  apply imp_congr_right
  intro _
  obtain ⟨hreadable, heq⟩ | ⟨hunreadable, heq, -⟩ :=
    pointer_response_cases (s.setCtx (stratumHandleMethod opts s.ctx line).1) line.val
  · simp [hreadable, heq]
  · simp [hunreadable, heq]

def numberedError : Line where
  val := some (.object [(cstr "id", .integer 4), (cstr "result", .null),
    (cstr "error", .object [(cstr "code", .integer 21), (cstr "message", .integer 5)])])
  sent := true
  heap := .zero

theorem numberedError_passes_null : ¬ NoNullString .plain (.init false) numberedError := by
  rw [no_null_string_iff]
  intro h
  have hmessage := h (by decide) (by decide) (.integer 5) rfl
  exact absurd hmessage (by decide)

end SojCivicLight.Stratum
