import SojCivicLight.Stratum.Notify

/-! The requests and notifications of the pool, dispatched by `stratum_handle_method`. -/

namespace SojCivicLight.Stratum

open SojCivicLight.Util

/-- The options the handlers read.  `userDiff` is the number behind a `d=` in the pool
password, if there is one. -/
structure Options where
  userDiff : Option Double
  optRedirect : Bool
  /-- the conversion of an integer to a double -/
  toDouble : Int → Double

def jsonNumberValue (opts : Options) : Option Json → Double
  | some (.integer value) => opts.toDouble value
  | some (.real value) => value
  | _ => ⟨0⟩

def isSpace (c : UInt8) : Bool := c == 32 || (9 ≤ c && c ≤ 13)

def isDigit (c : UInt8) : Bool := 48 ≤ c && c ≤ 57

/-- `atoi`: `strtol`, which saturates, converted to `int`. -/
def atoi (s : CStr) : Int :=
  let digits := fun s : CStr =>
    ((s.takeWhile isDigit).foldl (fun n c => 10 * n + (c.toNat - 48)) 0 : Nat)
  match s.dropWhile isSpace with
  | 45 :: s => castInt (max (-(digits s : Int)) (-2 ^ 63))
  | 43 :: s => castInt (min (digits s : Int) (2 ^ 63 - 1))
  | s => castInt (min (digits s : Int) (2 ^ 63 - 1))

def stratumParseExtranonce (sctx : StratumCtx) (params : Option Json) (pndx : Nat) :
    StratumCtx × Bool :=
  match jsonStringValue (jsonArrayGet params pndx) with
  | none => (sctx, false)
  | some xnonce1 =>
      let xn2Size := castInt (jsonIntegerValue (jsonArrayGet params (pndx + 1)))
      if xn2Size = 0 ∨ xn2Size < 2 ∨ 16 < xn2Size then (sctx, false)
      else
        ({ sctx with
            xnonce1 := (hex2bin (List.replicate (xnonce1.length / 2) 0) xnonce1).1
            xnonce2Size := xn2Size.toNat }, true)

def stratumSetDifficulty (opts : Options) (sctx : StratumCtx) (params : Option Json) :
    StratumCtx × Bool :=
  let diff := jsonNumberValue opts (jsonArrayGet params 0)
  if diff.isZero then (sctx, false)
  else
    let nextDiff :=
      match opts.userDiff with
      | some userDiff => if userDiff.isPos then userDiff else diff
      | none => diff
    ({ sctx with nextDiff }, true)

def stratumReconnect (opts : Options) (sctx : StratumCtx) (params : Option Json) :
    StratumCtx × Bool :=
  let port :=
    match jsonArrayGet params 1 with
    | some (.string port) => atoi port
    | port => castInt (jsonIntegerValue port)
  if (jsonStringValue (jsonArrayGet params 0)).isNone ∨ port = 0 then (sctx, false)
  else if !opts.optRedirect then (sctx, true)
  else (stratumDisconnect sctx, true)

/-- The handlers that only send an answer need an `id` to send it under. -/
def answerable (id : Option Json) : Bool := id.isSome && !jsonIsNull id

def stratumUnknownMethod (id : Option Json) (sent : Bool) : Bool := answerable id && sent

def stratumPong (id : Option Json) (sent : Bool) : Bool := answerable id && sent

def stratumGetAlgo (id : Option Json) (sent : Bool) : Bool := answerable id && sent

def stratumGetVersion (id : Option Json) (sent : Bool) : Bool := answerable id && sent

def stratumShowMessage (id : Option Json) (sent : Bool) : Bool := !answerable id || sent

def methodEq2 (method : CStr) (left right : String) : Bool :=
  strcaseEq method (cstr left ++ cstr "." ++ cstr right)

/-- A line from the pool as the decoder sees it, none when it is not JSON. `sent` says
whether an answer to it goes out. -/
structure Line where
  val : Option Json
  sent : Bool
  heap : Heap

def stratumHandleMethod (opts : Options) (sctx : StratumCtx) (line : Line) :
    StratumCtx × Bool :=
  match jsonStringValue (jsonObjectGet line.val (cstr "method")) with
  | none => (sctx, false)
  | some method =>
      let params := jsonObjectGet line.val (cstr "params")
      let id := jsonObjectGet line.val (cstr "id")
      if methodEq2 method "mining" "notify" then
        let notified := stratumNotify line.heap sctx params
        ({ notified.1 with newJob := true }, notified.2)
      else if methodEq2 method "mining" "ping" then (sctx, stratumPong id line.sent)
      else if methodEq2 method "mining" "set_difficulty" then
        stratumSetDifficulty opts sctx params
      else if methodEq2 method "mining" "set_extranonce" then
        stratumParseExtranonce sctx params 0
      else if strcaseEq method (cstr "client.reconnect") then stratumReconnect opts sctx params
      else if strcaseEq method (cstr "client.get_algo") then (sctx, stratumGetAlgo id line.sent)
      else if strcaseEq method (cstr "client.get_version") then
        (sctx, stratumGetVersion id line.sent)
      else if strcaseEq method (cstr "client.show_message") then
        (sctx, stratumShowMessage id line.sent)
      else (sctx, stratumUnknownMethod id line.sent)

def CallsNotify (val : Option Json) : Prop :=
  (jsonStringValue (jsonObjectGet val (cstr "method"))).any (methodEq2 · "mining" "notify") = true

instance (val : Option Json) : Decidable (CallsNotify val) :=
  inferInstanceAs (Decidable (_ = true))

theorem stratumHandleMethod_notify (opts : Options) (sctx : StratumCtx) {line : Line}
    (h : CallsNotify line.val) :
    stratumHandleMethod opts sctx line =
      let notified := stratumNotify line.heap sctx (jsonObjectGet line.val (cstr "params"))
      ({ notified.1 with newJob := true }, notified.2) := by
  rw [CallsNotify] at h
  cases hmethod : jsonStringValue (jsonObjectGet line.val (cstr "method")) with
  | none => simp [hmethod] at h
  | some method =>
      rw [hmethod] at h
      rw [stratumHandleMethod, hmethod]
      exact if_pos h

/-- What the lines other than a notify can change. -/
inductive MethodEffect (sctx : StratumCtx) : StratumCtx → Prop
  | unchanged : MethodEffect sctx sctx
  | nextDiff (nextDiff : Double) : MethodEffect sctx { sctx with nextDiff }
  | extranonce (xnonce1 : List UInt8) (xnonce2Size : Nat) :
      MethodEffect sctx { sctx with xnonce1, xnonce2Size }
  | disconnect : MethodEffect sctx (stratumDisconnect sctx)

theorem stratumParseExtranonce_effect (sctx : StratumCtx) (params : Option Json) (pndx : Nat) :
    MethodEffect sctx (stratumParseExtranonce sctx params pndx).1 := by
  rw [stratumParseExtranonce]
  split
  · exact .unchanged
  · dsimp only
    split
    · exact .unchanged
    · exact .extranonce _ _

theorem stratumParseExtranonce_job (sctx : StratumCtx) (params : Option Json) (pndx : Nat) :
    (stratumParseExtranonce sctx params pndx).1.job = sctx.job := by
  rw [stratumParseExtranonce]
  split
  · rfl
  · dsimp only
    split <;> rfl

theorem stratumSetDifficulty_effect (opts : Options) (sctx : StratumCtx)
    (params : Option Json) : MethodEffect sctx (stratumSetDifficulty opts sctx params).1 := by
  rw [stratumSetDifficulty]
  dsimp only
  split
  · exact .unchanged
  · exact .nextDiff _

theorem stratumReconnect_effect (opts : Options) (sctx : StratumCtx) (params : Option Json) :
    MethodEffect sctx (stratumReconnect opts sctx params).1 := by
  rw [stratumReconnect]
  generalize (match jsonArrayGet params 1 with
    | some (.string port) => atoi port
    | port => castInt (jsonIntegerValue port)) = port
  split
  · exact .unchanged
  · split
    · exact .unchanged
    · exact .disconnect

theorem stratumHandleMethod_effect (opts : Options) (sctx : StratumCtx) {line : Line}
    (h : ¬ CallsNotify line.val) :
    MethodEffect sctx (stratumHandleMethod opts sctx line).1 := by
  rw [CallsNotify] at h
  cases hmethod : jsonStringValue (jsonObjectGet line.val (cstr "method")) with
  | none =>
      rw [stratumHandleMethod, hmethod]
      exact .unchanged
  | some method =>
      rw [hmethod, Option.any_some] at h
      rw [stratumHandleMethod, hmethod]
      dsimp only
      rw [if_neg h]
      split
      · exact .unchanged
      split
      · exact stratumSetDifficulty_effect opts sctx _
      split
      · exact stratumParseExtranonce_effect sctx _ 0
      split
      · exact stratumReconnect_effect opts sctx _
      · split <;> try exact .unchanged
        split <;> try exact .unchanged
        split <;> exact .unchanged

/-! What a rejected notify leaves behind. -/

/-- The job with only the rows of the branch that are in use. -/
def StratumJob.view (job : StratumJob) : StratumJob := { job with merkle := job.branch }

/-- A notify that returns false changes neither the job nor the height nor `new_job`. -/
def RejectedUnchanged (opts : Options) (sctx : StratumCtx) (line : Line) : Prop :=
  (stratumHandleMethod opts sctx line).2 = false →
    (stratumHandleMethod opts sctx line).1.job.view = sctx.job.view ∧
    (stratumHandleMethod opts sctx line).1.blockHeight = sctx.blockHeight ∧
    (stratumHandleMethod opts sctx line).1.newJob = sctx.newJob

/-- The notify is accepted; or `new_job` is set already and the notify falls at the first
checks, or at its branch when no branch and the very same version are stored. -/
def RejectHarmless (sctx : StratumCtx) (params : Option Json) : Prop :=
  (∃ fields, readNotify params = some fields ∧ fields.BranchGood) ∨
    (sctx.newJob = true ∧ ∀ fields, readNotify params = some fields →
      sctx.job.merkleCount = 0 ∧ sctx.job.version.hex2bin fields.version = sctx.job.version)

theorem rejectBranch_view_iff (sctx : StratumCtx) (fields : NotifyFields)
    (merkle : List (Bytes 32)) :
    (rejectBranch sctx fields merkle).job.view = sctx.job.view ↔
      sctx.job.merkleCount = 0 ∧ sctx.job.version.hex2bin fields.version = sctx.job.version := by
  constructor
  · intro h
    exact ⟨(congrArg StratumJob.merkleCount h).symm, congrArg StratumJob.version h⟩
  · rintro ⟨hcount, hversion⟩
    rw [StratumJob.view, StratumJob.view, StratumJob.branch, StratumJob.branch, rejectBranch]
    dsimp only
    rw [hcount, hversion]
    rfl

theorem rejected_notify_unchanged_iff (opts : Options) (sctx : StratumCtx) {line : Line}
    (h : CallsNotify line.val) : RejectedUnchanged opts sctx line ↔
      RejectHarmless sctx (jsonObjectGet line.val (cstr "params")) := by
  rw [RejectedUnchanged, stratumHandleMethod_notify opts sctx h, RejectHarmless]
  generalize jsonObjectGet line.val (cstr "params") = params
  obtain ⟨hread, heq⟩ | ⟨fields, merkle, hread, -, ⟨hgood, heq⟩ | ⟨hbad, heq⟩⟩ :=
    stratumNotify_eq line.heap sctx params
  · -- nothing was written, but `new_job` is set
    simp [heq, hread, eq_comm (a := true)]
  · simp [heq, hread, hgood]
  · have hview := rejectBranch_view_iff sctx fields merkle
    have hfields : ∀ fields', readNotify params = some fields' ↔ fields' = fields := fun _ => by
      rw [hread, Option.some_inj, eq_comm]
    simp only [heq, hfields, exists_eq_left, forall_eq, hbad, false_or, forall_true_left, hview]
    exact ⟨fun ⟨hjob, _, hnew⟩ => ⟨hnew.symm, hjob⟩, fun ⟨hnew, hjob⟩ => ⟨hjob, rfl, hnew.symm⟩⟩

def badBranchNotify : Line where
  val := some <| .object
    [(cstr "method", .string (cstr "mining.notify")),
      (cstr "params", .array [.string (cstr "a"), .string (List.replicate 64 48),
        .string (cstr "00"), .string (cstr "00"), .array [.null], .string (cstr "20000000"),
        .string (cstr "1d00ffff"), .string (cstr "5e000000"), .bool true])]
  sent := true
  heap := .zero

def Options.plain : Options where
  userDiff := none
  optRedirect := false
  toDouble _ := ⟨0⟩

/-- It sets `new_job` and leaves its version behind. -/
theorem badBranchNotify_changes : ¬ RejectedUnchanged .plain .init badBranchNotify := by
  intro h
  obtain ⟨-, -, hnew⟩ := h (by decide +kernel)
  exact absurd hnew (by decide +kernel)

def emptyNotify : Line where
  val := some (.object [(cstr "method", .string (cstr "mining.notify"))])
  sent := true
  heap := .zero

theorem emptyNotify_unchanged_while_pending : CallsNotify emptyNotify.val ∧
    RejectedUnchanged .plain { StratumCtx.init with newJob := true } emptyNotify := by
  have hcalls : CallsNotify emptyNotify.val := by decide
  refine ⟨hcalls, (rejected_notify_unchanged_iff .plain _ hcalls).mpr (Or.inr ⟨rfl, ?_⟩)⟩
  intro fields hread
  cases hread

end SojCivicLight.Stratum
