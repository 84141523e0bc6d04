import SojCivicLight.Stratum.Session

/-! How `stratum_handle_response` counts the answers to the shares. -/

namespace SojCivicLight.Stratum

open SojCivicLight.Library

structure ShareCounts where
  acceptedShareCount : UInt32
  rejectedShareCount : UInt32
deriving DecidableEq

/-- `share_result`, as far as it counts. -/
def shareResult (counts : ShareCounts) (result : Bool) : ShareCounts :=
  if result then { counts with acceptedShareCount := counts.acceptedShareCount + 1 }
  else { counts with rejectedShareCount := counts.rejectedShareCount + 1 }

/-- The counting step at the end of a response. -/
def countShare (counts : ShareCounts) (val : Option Json) : ShareCounts :=
  let idVal := jsonObjectGet val (cstr "id")
  let resVal := jsonObjectGet val (cstr "result")
  if resVal.isSome && 4 ≤ jsonIntegerValue idVal then shareResult counts (jsonIsTrue resVal)
  else counts

/-- The counts after a response, none when it brings the process down. -/
def countResponse (counts : ShareCounts) (val : Option Json) : Option ShareCounts :=
  let idVal := jsonObjectGet val (cstr "id")
  if val.isNone then some counts
  else if idVal.isNone || jsonIsNull idVal then some counts
  else
    match responseError val with
    | .notString => none
    | .duplicate => some counts
    | .none | .stale | .incorrectCycle => some (countShare counts val)

theorem shareStep_pc (s : Session) (val : Option Json) : (s.shareStep val).pc = .after := by
  rw [Session.shareStep]
  split
  · rfl
  · rfl

theorem countResponse_eq_none {counts : ShareCounts} {val : Option Json} (s : Session) :
    countResponse counts val = none ↔ (s.stratumHandleResponse val).1.pc = .crashed := by
  rw [countResponse, Session.stratumHandleResponse]
  dsimp only
  split
  · exact iff_of_false (Option.some_ne_none _) fun h => Pc.noConfusion h
  · split
    · exact iff_of_false (Option.some_ne_none _) fun h => Pc.noConfusion h
    · cases responseError val with
      | notString => exact iff_of_true rfl rfl
      | duplicate => exact iff_of_false (Option.some_ne_none _) fun h => Pc.noConfusion h
      | stale => exact iff_of_false (Option.some_ne_none _) fun h => Pc.noConfusion h
      | none =>
          apply iff_of_false (Option.some_ne_none _)
          intro h
          exact Pc.noConfusion ((shareStep_pc s val).symm.trans h)
      | incorrectCycle =>
          apply iff_of_false (Option.some_ne_none _)
          intro h
          dsimp only at h
          split at h
          · exact Pc.noConfusion h
          · exact Pc.noConfusion ((shareStep_pc _ val).symm.trans h)

theorem countResponse_of_lt {counts : ShareCounts} {val : Option Json}
    (hid : jsonIntegerValue (jsonObjectGet val (cstr "id")) < 4) :
    (countResponse counts val).getD counts = counts := by
  have hshare : countShare counts val = counts := by
    rw [countShare, decide_eq_false (Int.not_le.mpr hid), Bool.and_false]
    rfl
  rw [countResponse, hshare]
  split
  · rfl
  · split
    · rfl
    · split
      · rfl
      · rfl
      · rfl
      · rfl
      · rfl

theorem four_not_le_zero : ¬ (4 : Int) ≤ 0 := by decide

theorem countResponse_of_le {counts : ShareCounts} {val : Option Json}
    (hid : 4 ≤ jsonIntegerValue (jsonObjectGet val (cstr "id"))) :
    countResponse counts val =
      match responseError val with
      | .notString => none
      | .duplicate => some counts
      | .none | .stale | .incorrectCycle => some (countShare counts val) := by
  cases val with
  | none => exact absurd hid four_not_le_zero
  | some val =>
      rw [countResponse]
      cases hget : jsonObjectGet (some val) (cstr "id") with
      | none =>
          rw [hget] at hid
          exact absurd hid four_not_le_zero
      | some id =>
          rw [hget] at hid
          cases id with
          | integer => rfl
          | _ => exact absurd hid four_not_le_zero

theorem countShare_of_isSome {counts : ShareCounts} {val : Option Json}
    (hid : 4 ≤ jsonIntegerValue (jsonObjectGet val (cstr "id")))
    (hresult : (jsonObjectGet val (cstr "result")).isSome) :
    countShare counts val =
      shareResult counts (jsonIsTrue (jsonObjectGet val (cstr "result"))) := by
  rw [countShare, hresult, decide_eq_true hid]
  rfl

theorem countShare_of_isNone {counts : ShareCounts} {val : Option Json}
    (hresult : ¬ (jsonObjectGet val (cstr "result")).isSome) : countShare counts val = counts := by
  rw [countShare, Bool.eq_false_iff.mpr hresult]
  rfl

/-! What a pool answers. -/

def hasError (val : Option Json) : Bool :=
  (jsonObjectGet val (cstr "error")).isSome && !jsonIsNull (jsonObjectGet val (cstr "error"))

/-- The answer to a share: an id from 4 on, with a result of true, false or null, or with an
error. -/
def answersShare (val : Option Json) : Bool :=
  let resVal := jsonObjectGet val (cstr "result")
  4 ≤ jsonIntegerValue (jsonObjectGet val (cstr "id")) &&
    (jsonIsTrue resVal || jsonIsFalse resVal || jsonIsNull resVal || hasError val)

theorem responseError_of_hasError {val : Option Json} (h : hasError val = false) :
    responseError val = .none := by
  rw [hasError] at h
  rw [responseError]
  cases herror : jsonObjectGet val (cstr "error") with
  | none => rfl
  | some error =>
      rw [herror] at h
      cases error with
      | null => rfl
      | _ => exact Bool.noConfusion h

/-- The counts of a session, whether it has gone down, and how many answers it has got. -/
structure Tally where
  counts : ShareCounts
  crashed : Bool
  answers : Nat

def Tally.init : Tally := ⟨⟨0, 0⟩, false, 0⟩

def tallyStep (s : Tally) (val : Option Json) : Option Tally :=
  if s.crashed then none
  else
    some
      { counts := (countResponse s.counts val).getD s.counts
        crashed := (countResponse s.counts val).isNone
        answers := s.answers + if answersShare val then 1 else 0 }

def ShareCounts.sum (counts : ShareCounts) : Nat :=
  counts.acceptedShareCount.toNat + counts.rejectedShareCount.toNat

/-- One of the two counts has gone up by one. -/
def CountedOnce (before after : ShareCounts) : Prop :=
  (after.acceptedShareCount.toNat = before.acceptedShareCount.toNat + 1 ∧
      after.rejectedShareCount = before.rejectedShareCount) ∨
    (after.acceptedShareCount = before.acceptedShareCount ∧
      after.rejectedShareCount.toNat = before.rejectedShareCount.toNat + 1)

def AnswerCounted (s : Tally) (val : Option Json) : Prop :=
  answersShare val = true → ∀ s', tallyStep s val = some s' → CountedOnce s.counts s'.counts

def SumRight (s : Tally) : Prop := s.counts.sum = s.answers

/-- The count that the result is for is below its last value. -/
def HasRoom (counts : ShareCounts) (result : Bool) : Prop :=
  if result then counts.acceptedShareCount.toNat + 1 < 2 ^ 32
  else counts.rejectedShareCount.toNat + 1 < 2 ^ 32

instance (counts : ShareCounts) (result : Bool) : Decidable (HasRoom counts result) :=
  inferInstanceAs (Decidable (if result then _ else _))

/-- An answer has a result, and no error message that is not a string or that names a
duplicate among the errors looked for; a response that is no answer has no result under the
id of a share. -/
def PlainResponse (s : Tally) (val : Option Json) : Prop :=
  if answersShare val then
    (jsonObjectGet val (cstr "result")).isSome ∧ responseError val ≠ .notString ∧
      responseError val ≠ .duplicate ∧
      HasRoom s.counts (jsonIsTrue (jsonObjectGet val (cstr "result")))
  else
    (jsonObjectGet val (cstr "result")).isSome →
    jsonIntegerValue (jsonObjectGet val (cstr "id")) < 4

instance (s : Tally) (val : Option Json) : Decidable (PlainResponse s val) :=
  inferInstanceAs (Decidable (if answersShare val then _ else _))

theorem CountedOnce.sum {before after : ShareCounts} (h : CountedOnce before after) :
    after.sum = before.sum + 1 := by
  rw [ShareCounts.sum, ShareCounts.sum]
  rcases h with ⟨haccepted, hrejected⟩ | ⟨haccepted, hrejected⟩
  · rw [haccepted, hrejected, Nat.add_right_comm]
  · rw [haccepted, hrejected, Nat.add_assoc]

theorem shareResult_countedOnce {counts : ShareCounts} {result : Bool}
    (h : HasRoom counts result) : CountedOnce counts (shareResult counts result) := by
  have hadd : ∀ n : UInt32, n.toNat + 1 < 2 ^ 32 → (n + 1).toNat = n.toNat + 1 := by
    intro n hn
    rw [UInt32.toNat_add]
    exact Nat.mod_eq_of_lt hn
  cases result with
  | true => exact Or.inl ⟨hadd _ h, rfl⟩
  | false => exact Or.inr ⟨rfl, hadd _ h⟩

/-- Counting a result never leaves the sum as it is, and without room it goes down. -/
theorem shareResult_sum {counts : ShareCounts} {result : Bool} :
    (shareResult counts result).sum ≠ counts.sum ∧
      (¬ HasRoom counts result → (shareResult counts result).sum ≠ counts.sum + 1) := by
  have hadd : ∀ n : UInt32, (n + 1).toNat ≠ n.toNat ∧
      (¬ n.toNat + 1 < 2 ^ 32 → (n + 1).toNat ≠ n.toNat + 1) := by
    intro n
    have hlt := n.toNat_lt
    have hsum : (n + 1).toNat = (n.toNat + 1) % 2 ^ 32 := UInt32.toNat_add n 1
    omega
  cases result with
  | true =>
      obtain ⟨hne, hwrap⟩ := hadd counts.acceptedShareCount
      refine ⟨fun h => hne (Nat.add_right_cancel h), fun hroom h => hwrap hroom ?_⟩
      exact Nat.add_right_cancel (h.trans (Nat.add_right_comm _ _ _))
  | false =>
      obtain ⟨hne, hwrap⟩ := hadd counts.rejectedShareCount
      refine ⟨fun h => hne (Nat.add_left_cancel h), fun hroom h => hwrap hroom ?_⟩
      exact Nat.add_left_cancel (h.trans (Nat.add_assoc _ _ _))

theorem le_of_answersShare {val : Option Json} (h : answersShare val = true) :
    4 ≤ jsonIntegerValue (jsonObjectGet val (cstr "id")) := by
  rw [answersShare, Bool.and_eq_true] at h
  exact of_decide_eq_true h.1

theorem hasError_of_not_answersShare {val : Option Json} (h : answersShare val = false)
    (hid : 4 ≤ jsonIntegerValue (jsonObjectGet val (cstr "id"))) : hasError val = false := by
  rw [answersShare] at h
  rw [decide_eq_true hid, Bool.true_and, Bool.or_eq_false_iff] at h
  exact h.2

theorem countResponse_of_plain {s : Tally} {val : Option Json} (hanswers : answersShare val = true)
    (h : PlainResponse s val) :
    CountedOnce s.counts ((countResponse s.counts val).getD s.counts) := by
  have hid := le_of_answersShare hanswers
  rw [PlainResponse, if_pos hanswers] at h
  obtain ⟨hresult, hstring, hduplicate, hroom⟩ := h
  rw [countResponse_of_le hid, countShare_of_isSome hid hresult]
  have hcounted := shareResult_countedOnce hroom
  cases herror : responseError val with
  | notString => exact absurd herror hstring
  | duplicate => exact absurd herror hduplicate
  | none => exact hcounted
  | stale => exact hcounted
  | incorrectCycle => exact hcounted

theorem countResponse_of_silent {s : Tally} {val : Option Json}
    (hanswers : answersShare val = false) (h : PlainResponse s val) :
    (countResponse s.counts val).getD s.counts = s.counts := by
  rw [PlainResponse, hanswers, if_neg Bool.false_ne_true] at h
  by_cases hid : jsonIntegerValue (jsonObjectGet val (cstr "id")) < 4
  · exact countResponse_of_lt hid
  · have hle := Int.not_lt.mp hid
    rw [countResponse_of_le hle, countShare_of_isNone fun hresult => hid (h hresult)]
    split
    · rfl
    · rfl
    · rfl
    · rfl
    · rfl

/-- The sum misses an answer that is not counted as it should be, or counts what is none. -/
theorem sum_of_not_plain {s : Tally} {val : Option Json} (h : ¬ PlainResponse s val) :
    ((countResponse s.counts val).getD s.counts).sum ≠
      s.counts.sum + if answersShare val then 1 else 0 := by
  rw [PlainResponse] at h
  cases hanswers : answersShare val with
  | true =>
      have hid := le_of_answersShare hanswers
      rw [hanswers, if_pos rfl] at h
      rw [if_pos rfl, countResponse_of_le hid]
      have hmissed : s.counts.sum ≠ s.counts.sum + 1 := Nat.ne_of_lt (Nat.lt_succ_self _)
      by_cases hresult : (jsonObjectGet val (cstr "result")).isSome
      · have hcounted : responseError val ≠ .notString → responseError val ≠ .duplicate →
            (countShare s.counts val).sum ≠ s.counts.sum + 1 := by
          intro hstring hduplicate
          rw [countShare_of_isSome hid hresult]
          exact shareResult_sum.2 fun hroom => h ⟨hresult, hstring, hduplicate, hroom⟩
        cases herror : responseError val with
        | notString => exact hmissed
        | duplicate => exact hmissed
        | none => exact hcounted (by simp [herror]) (by simp [herror])
        | stale => exact hcounted (by simp [herror]) (by simp [herror])
        | incorrectCycle => exact hcounted (by simp [herror]) (by simp [herror])
      · rw [countShare_of_isNone hresult]
        split
        · exact hmissed
        · exact hmissed
        · exact hmissed
        · exact hmissed
        · exact hmissed
  | false =>
      rw [hanswers, if_neg Bool.false_ne_true, Classical.not_imp] at h
      obtain ⟨hresult, hlt⟩ := h
      have hid := Int.not_lt.mp hlt
      have herror := responseError_of_hasError (hasError_of_not_answersShare hanswers hid)
      rw [if_neg Bool.false_ne_true, countResponse_of_le hid, herror,
        countShare_of_isSome hid hresult]
      exact shareResult_sum.1

theorem tallyStep_eq_some {s s' : Tally} {val : Option Json} (taken : tallyStep s val = some s') :
    s'.counts = (countResponse s.counts val).getD s.counts ∧
      s'.answers = s.answers + if answersShare val then 1 else 0 := by
  rw [tallyStep] at taken
  split at taken
  · contradiction
  · obtain rfl := Option.some.inj taken
    exact ⟨rfl, rfl⟩

theorem PlainResponse.answerCounted {s : Tally} {val : Option Json} (h : PlainResponse s val) :
    AnswerCounted s val := by
  intro hanswers s' taken
  rw [(tallyStep_eq_some taken).1]
  exact countResponse_of_plain hanswers h

theorem sumRight_step (s : Tally) (val : Option Json) (s' : Tally) (hsum : SumRight s)
    (h : PlainResponse s val) (taken : tallyStep s val = some s') : SumRight s' := by
  obtain ⟨hcounts, htotal⟩ := tallyStep_eq_some taken
  rw [SumRight] at hsum ⊢
  rw [hcounts, htotal]
  cases hanswers : answersShare val with
  | true => rw [(countResponse_of_plain hanswers h).sum, hsum, if_pos rfl]
  | false =>
      rw [countResponse_of_silent hanswers h, hsum, if_neg Bool.false_ne_true, Nat.add_zero]

theorem not_sumRight_step (s : Tally) (val : Option Json) (s' : Tally) (hsum : SumRight s)
    (h : ¬ PlainResponse s val) (taken : tallyStep s val = some s') : ¬ SumRight s' := by
  obtain ⟨hcounts, htotal⟩ := tallyStep_eq_some taken
  rw [SumRight] at hsum ⊢
  rw [hcounts, htotal, ← hsum]
  exact sum_of_not_plain h

/-- Every answer is counted once and the sum is the number of answers, in the runs whose
responses are all plain. -/
theorem answers_counted_iff {trace : List (Tally × Option Json)} {s : Tally}
    (run : Run tallyStep Tally.init trace s) :
    (Steps AnswerCounted trace ∧ Visits SumRight trace s) ↔ Steps PlainResponse trace := by
  have hvisits := run.visits_iff_steps SumRight PlainResponse rfl (fun _ h => h) sumRight_step
    not_sumRight_step
  rw [hvisits]
  refine ⟨fun h => h.2, fun h => ⟨fun taken hmem => ?_, h⟩⟩
  exact (h taken hmem).answerCounted

def shareResponse (id : Int) (members : List (CStr × Json)) : Option Json :=
  some (.object ((cstr "id", .integer id) :: members))

/-- A share accepted, one rejected with an error, and the answer to an authorization. -/
theorem answers_counted_three : ∃ trace s, Run tallyStep Tally.init trace s ∧
    s.counts = ⟨1, 1⟩ ∧ s.answers = 2 ∧ Steps AnswerCounted trace ∧ Visits SumRight trace s := by
  have hrun : (exec (guarded tallyStep PlainResponse) Tally.init
      [shareResponse 4 [(cstr "result", .bool true), (cstr "error", .null)],
        shareResponse 4 [(cstr "result", .null), (cstr "error", .array [.integer 21,
          .string (cstr "job not found")])],
        shareResponse 2 [(cstr "result", .bool true)]]).map
      (fun s => (s.counts, s.answers)) = some (⟨1, 1⟩, 2) := by decide +kernel
  obtain ⟨s, hexec, hs⟩ := Option.map_eq_some_iff.mp hrun
  obtain ⟨trace, run, -⟩ := Run.start.exec hexec
  obtain ⟨hcounts, hanswers⟩ := Prod.mk.inj hs
  exact ⟨trace, s, run.of_guarded.1, hcounts, hanswers,
    (answers_counted_iff run.of_guarded.1).mpr run.of_guarded.2⟩

/-- The answer to a stale duplicate is not counted. -/
theorem duplicate_not_counted : ¬ ∀ (trace : List (Tally × Option Json)) (s : Tally),
    Run tallyStep Tally.init trace s → Steps AnswerCounted trace ∧ Visits SumRight trace s := by
  intro h
  have hrun : (exec tallyStep Tally.init
      [shareResponse 4 [(cstr "result", .null), (cstr "error", .object [(cstr "message",
        .string (cstr "duplicate of a stale share"))])]]).map
      (fun s => (s.counts, s.answers)) = some (⟨0, 0⟩, 1) := by decide +kernel
  obtain ⟨s, hexec, hs⟩ := Option.map_eq_some_iff.mp hrun
  obtain ⟨trace, run, -⟩ := Run.start.exec hexec
  obtain ⟨hcounts, hanswers⟩ := Prod.mk.inj hs
  have hsum : s.counts.sum = s.answers := (h trace s run).2.1
  rw [hcounts, hanswers] at hsum
  exact absurd hsum (by decide)

end SojCivicLight.Stratum
