import SojCivicLight.Stratum.Methods

/-! Opening a session: connect, subscribe, authorize.  What the network does is given: a
line, or none because the send failed, the wait timed out or the receive failed, and then
perhaps with the connection closed by `stratum_recv_line`. -/

namespace SojCivicLight.Stratum

inductive Received (α : Type) where
  | line (line : α)
  | none (closed : Bool)

/-- `stratum_recv_line` without a line: after repeated failures it disconnects. -/
def recvFailed (sctx : StratumCtx) (closed : Bool) : StratumCtx :=
  if closed then stratumDisconnect sctx else sctx

/-- `number` is the number of the connection that is opened. -/
def stratumConnect (sctx : StratumCtx) (number : Nat) (ok : Bool) : StratumCtx :=
  { sctx with curl := if ok then some number else none }

def Double.one : Double := ⟨0x3ff0000000000000⟩

/-- `stratum_subscribe` from the decoded reply on. -/
def subscribeReply (sctx : StratumCtx) (val : Option Json) : StratumCtx × Bool :=
  let resVal := jsonObjectGet val (cstr "result")
  let errVal := jsonObjectGet val (cstr "error")
  if val.isNone ∨ resVal.isNone ∨ jsonIsNull resVal ∨ (errVal.isSome ∧ !jsonIsNull errVal) then
    (sctx, false)
  else stratumParseExtranonce { sctx with nextDiff := .one } resVal 1

/-- A reply that does not serve is answered by one more request; a missing one is not. -/
def stratumSubscribe (sctx : StratumCtx) (reply retry : Received (Option Json)) :
    StratumCtx × Bool :=
  if sctx.curl.isNone then (sctx, false)
  else
    match reply with
    | .none closed => (recvFailed sctx closed, false)
    | .line val =>
        let first := subscribeReply sctx val
        if first.2 then first
        else
          match retry with
          | .none closed => (recvFailed first.1 closed, false)
          | .line val => subscribeReply first.1 val

/-- `stratum_authorize` from the decoded reply on. -/
def authorizeReply (val : Option Json) : Bool :=
  let resVal := jsonObjectGet val (cstr "result")
  let errVal := jsonObjectGet val (cstr "error")
  !(val.isNone || resVal.isNone || jsonIsFalse resVal || (errVal.isSome && !jsonIsNull errVal))

/-! What becomes of the connection and of the extranonce. -/

/-- The sizes of extranonce2 that are accepted. -/
def StratumCtx.Sized (sctx : StratumCtx) : Prop := 2 ≤ sctx.xnonce2Size ∧ sctx.xnonce2Size ≤ 16

/-- The same connection, with the extranonce as it was or newly sized. -/
structure SameConnection (sctx after : StratumCtx) : Prop where
  curl : after.curl = sctx.curl
  size : after.xnonce2Size = sctx.xnonce2Size ∨ after.Sized

theorem SameConnection.refl (sctx : StratumCtx) : SameConnection sctx sctx := ⟨rfl, Or.inl rfl⟩

theorem SameConnection.trans {a b c : StratumCtx} (h : SameConnection a b)
    (h' : SameConnection b c) : SameConnection a c := by
  refine ⟨h'.curl.trans h.curl, ?_⟩
  rcases h'.size with hsame | hsized
  · rcases h.size with hsame' | hsized'
    · exact Or.inl (hsame.trans hsame')
    · exact Or.inr ⟨hsame ▸ hsized'.1, hsame ▸ hsized'.2⟩
  · exact Or.inr hsized

theorem SameConnection.sized {sctx after : StratumCtx} (h : SameConnection sctx after)
    (hsized : sctx.Sized) : after.Sized :=
  h.size.elim (fun hsame => ⟨hsame ▸ hsized.1, hsame ▸ hsized.2⟩) id

theorem stratumParseExtranonce_cases (sctx : StratumCtx) (params : Option Json) (pndx : Nat) :
    SameConnection sctx (stratumParseExtranonce sctx params pndx).1 ∧
      ((stratumParseExtranonce sctx params pndx).2 = true →
        (stratumParseExtranonce sctx params pndx).1.Sized) := by
  rw [stratumParseExtranonce]
  split
  · exact ⟨.refl sctx, fun h => absurd h Bool.false_ne_true⟩
  · dsimp only
    split
    · exact ⟨.refl sctx, fun h => absurd h Bool.false_ne_true⟩
    · rename_i hsize
      have hsized : 2 ≤ (castInt (jsonIntegerValue (jsonArrayGet params (pndx + 1)))).toNat ∧
          (castInt (jsonIntegerValue (jsonArrayGet params (pndx + 1)))).toNat ≤ 16 := by omega
      exact ⟨⟨rfl, Or.inr hsized⟩, fun _ => hsized⟩

theorem stratumNotify_connection (heap : Heap) (sctx : StratumCtx) (params : Option Json) :
    SameConnection sctx (stratumNotify heap sctx params).1 := by
  obtain ⟨-, heq⟩ | ⟨fields, merkle, -, -, ⟨-, heq⟩ | ⟨-, heq⟩⟩ := stratumNotify_eq heap sctx params
  · rw [heq]
    exact .refl sctx
  · rw [heq]
    exact ⟨rfl, Or.inl rfl⟩
  · rw [heq]
    exact ⟨rfl, Or.inl rfl⟩

theorem stratumReconnect_cases (opts : Options) (sctx : StratumCtx) (params : Option Json) :
    SameConnection sctx (stratumReconnect opts sctx params).1 ∨
      stratumReconnect opts sctx params = (stratumDisconnect sctx, true) := by
  have reconnects : ∀ port : Int,
      SameConnection sctx
        (if (jsonStringValue (jsonArrayGet params 0)).isNone ∨ port = 0 then (sctx, false)
          else if !opts.optRedirect then (sctx, true) else (stratumDisconnect sctx, true)).1 ∨
      (if (jsonStringValue (jsonArrayGet params 0)).isNone ∨ port = 0 then (sctx, false)
        else if !opts.optRedirect then (sctx, true) else (stratumDisconnect sctx, true)) =
          (stratumDisconnect sctx, true) := by
    intro port
    split
    · exact Or.inl (.refl sctx)
    · split
      · exact Or.inl (.refl sctx)
      · exact Or.inr rfl
  exact reconnects _

theorem stratumHandleMethod_cases (opts : Options) (sctx : StratumCtx) (line : Line) :
    SameConnection sctx (stratumHandleMethod opts sctx line).1 ∨
      stratumHandleMethod opts sctx line = (stratumDisconnect sctx, true) := by
  rw [stratumHandleMethod]
  split
  · exact Or.inl (.refl sctx)
  · dsimp only
    split
    · obtain ⟨hcurl, hsize⟩ := stratumNotify_connection line.heap sctx
        (jsonObjectGet line.val (cstr "params"))
      exact Or.inl ⟨hcurl, hsize⟩
    split
    · exact Or.inl (.refl sctx)
    split
    · rw [stratumSetDifficulty]
      dsimp only
      split
      · exact Or.inl (.refl sctx)
      · exact Or.inl ⟨rfl, Or.inl rfl⟩
    split
    · exact Or.inl (stratumParseExtranonce_cases sctx _ 0).1
    split
    · exact stratumReconnect_cases opts sctx _
    · split <;> try exact Or.inl (.refl sctx)
      split <;> try exact Or.inl (.refl sctx)
      split <;> exact Or.inl (.refl sctx)

theorem stratumHandleMethod_curl (opts : Options) (sctx : StratumCtx) (line : Line) :
    (stratumHandleMethod opts sctx line).1.curl = sctx.curl ∨
      stratumHandleMethod opts sctx line = (stratumDisconnect sctx, true) :=
  (stratumHandleMethod_cases opts sctx line).imp_left SameConnection.curl

theorem recvFailed_cases (sctx : StratumCtx) (closed : Bool) :
    recvFailed sctx closed = sctx ∨ recvFailed sctx closed = stratumDisconnect sctx := by
  cases closed with
  | false => exact Or.inl rfl
  | true => exact Or.inr rfl

theorem subscribeReply_cases (sctx : StratumCtx) (val : Option Json) :
    (SameConnection sctx (subscribeReply sctx val).1 ∧
        (subscribeReply sctx val).1.job = sctx.job) ∧
      ((subscribeReply sctx val).2 = true → (subscribeReply sctx val).1.Sized) := by
  rw [subscribeReply]
  split
  · exact ⟨⟨.refl sctx, rfl⟩, nofun⟩
  · obtain ⟨⟨hcurl, hsize⟩, hsized⟩ := stratumParseExtranonce_cases
      { sctx with nextDiff := .one } (jsonObjectGet val (cstr "result")) 1
    exact ⟨⟨⟨hcurl, hsize⟩, stratumParseExtranonce_job _ _ _⟩, hsized⟩

theorem stratumSubscribe_cases (sctx : StratumCtx) (reply retry : Received (Option Json)) :
    ((SameConnection sctx (stratumSubscribe sctx reply retry).1 ∧
        (stratumSubscribe sctx reply retry).1.job = sctx.job) ∧
      ((stratumSubscribe sctx reply retry).2 = true →
        sctx.curl.isSome ∧ (stratumSubscribe sctx reply retry).1.Sized)) ∨
    ((∃ lost, (stratumSubscribe sctx reply retry).1 = stratumDisconnect lost) ∧
      (stratumSubscribe sctx reply retry).2 = false) := by
  by_cases hcurl : sctx.curl.isNone = true
  · rw [stratumSubscribe.eq_def, if_pos hcurl]
    exact Or.inl ⟨⟨.refl sctx, rfl⟩, nofun⟩
  · have hopen : sctx.curl.isSome := by
      rwa [Bool.not_eq_true, Option.isNone_eq_false_iff] at hcurl
    rw [stratumSubscribe.eq_def, if_neg hcurl]
    cases reply with
    | none closed =>
        dsimp only
        rcases recvFailed_cases sctx closed with heq | heq
        · rw [heq]
          exact Or.inl ⟨⟨.refl sctx, rfl⟩, nofun⟩
        · exact Or.inr ⟨⟨sctx, heq⟩, rfl⟩
    | line val =>
        obtain ⟨⟨hsame, hjob⟩, hsized⟩ := subscribeReply_cases sctx val
        dsimp only
        split
        · exact Or.inl ⟨⟨hsame, hjob⟩, fun hret => ⟨hopen, hsized hret⟩⟩
        · cases retry with
          | none closed =>
              dsimp only
              rcases recvFailed_cases (subscribeReply sctx val).1 closed with heq | heq
              · rw [heq]
                exact Or.inl ⟨⟨hsame, hjob⟩, nofun⟩
              · exact Or.inr ⟨⟨_, heq⟩, rfl⟩
          | line val' =>
              obtain ⟨⟨hsame', hjob'⟩, hsized'⟩ :=
                subscribeReply_cases (subscribeReply sctx val).1 val'
              exact Or.inl ⟨⟨hsame.trans hsame', hjob'.trans hjob⟩,
                fun hret => ⟨hopen, hsized' hret⟩⟩

end SojCivicLight.Stratum
