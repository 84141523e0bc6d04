import SojCivicLight.Library.Lines
import SojCivicLight.Stratum.Context

/-! The receive buffer: chunks are appended to it as they come, and lines are taken out. -/

namespace SojCivicLight.Stratum

open SojCivicLight.Library

def RBUFSIZE : Nat := 2048

def RECVSIZE : Nat := RBUFSIZE - 4

/-- `sockbuf`: `sockbuf_size` bytes with a terminator among them. -/
structure SockBuf where
  bytes : List UInt8
  terminated : 0 ∈ bytes

namespace SockBuf

def size (buf : SockBuf) : Nat := buf.bytes.length

def string (buf : SockBuf) : CStr := before 0 buf.bytes

theorem bytes_eq (buf : SockBuf) : ∃ rest, buf.bytes = buf.string ++ 0 :: rest :=
  eq_before_append buf.terminated

theorem notMem_string (buf : SockBuf) : 0 ∉ buf.string := notMem_before 0 buf.bytes

theorem length_string_lt (buf : SockBuf) : buf.string.length + 1 ≤ buf.size := by
  obtain ⟨rest, hrest⟩ := buf.bytes_eq
  rw [size, hrest, List.length_append, List.length_cons]
  omega

/-- The buffer after `stratum_connect`. -/
def empty : SockBuf :=
  ⟨List.replicate RBUFSIZE 0, List.mem_replicate.mpr ⟨by decide, rfl⟩⟩

theorem string_empty : empty.string = [] := rfl

end SockBuf

/-- What `realloc` leaves in the bytes that it adds. -/
abbrev Fill := Nat → UInt8

/-- `sockbuf` grown to the size that the string `s` calls for. -/
def growSockBuf (fill : Fill) (buf : SockBuf) (s : CStr) : List UInt8 :=
  let n := buf.string.length + s.length + 1
  if buf.size ≤ n then
    let size := n + (RBUFSIZE - n % RBUFSIZE)
    buf.bytes.take size ++ (List.range (size - buf.size)).map fun i => fill (buf.size + i)
  else buf.bytes

/-- None when `strcpy` would write past the buffer. -/
def stratumBufferAppend (fill : Fill) (buf : SockBuf) (s : CStr) : Option SockBuf :=
  let old := buf.string.length
  let bytes := growSockBuf fill buf s
  if old + s.length + 1 ≤ bytes.length then
    some ⟨bytes.take old ++ s ++ 0 :: bytes.drop (old + s.length + 1), by simp⟩
  else none

/-- `*nl = '\0'` and the shift of what follows, given that there is a newline in the string. -/
def extractLine (buf : SockBuf) : CStr × List UInt8 :=
  let buflen := buf.string.length
  let nl := (before 10 buf.string).length
  let bytes := buf.bytes.set nl 0
  let remLen := buflen - (nl + 1)
  (before 0 bytes,
    if 0 < remLen then
      (bytes.drop (nl + 1)).take (remLen + 1) ++ bytes.drop (remLen + 1)
    else bytes.set 0 0)

/-- What one turn of the receive loop meets: a chunk, nothing for now, or a failure. `late`
says whether the time is over after it. -/
inductive Recv where
  | chunk (bytes : List UInt8) (late : Bool)
  | again (late : Bool)
  | failed

inductive Outcome (α : Type) where
  | ok (value : α)
  /-- the call has returned NULL -/
  | failed
  /-- the call is still waiting -/
  | waiting
  | overflow

def hasNewline (buf : SockBuf) : Bool := buf.string.contains 10

/-- The loop that receives until there is a newline. -/
def recvLoop (fill : Fill) (buf : SockBuf) : List Recv → Outcome (SockBuf × List Recv)
  | [] => .waiting
  | .failed :: _ => .failed
  | .again late :: recvs =>
      if late || hasNewline buf then .ok (buf, recvs) else recvLoop fill buf recvs
  | .chunk bytes late :: recvs =>
      -- the rest of `s` is zeroed
      match stratumBufferAppend fill buf (before 0 bytes) with
      | none => .overflow
      | some buf => if late || hasNewline buf then .ok (buf, recvs) else recvLoop fill buf recvs

/-! The three operations on the buffer. -/

theorem le_length_growSockBuf (fill : Fill) (buf : SockBuf) (s : CStr) :
    buf.string.length + s.length + 1 ≤ (growSockBuf fill buf s).length := by
  rw [growSockBuf]
  dsimp only
  split
  · have hmod := Nat.mod_lt (buf.string.length + s.length + 1) (show 0 < RBUFSIZE by decide)
    have hsize : buf.bytes.length = buf.size := rfl
    rw [List.length_append, List.length_take, List.length_map, List.length_range, hsize]
    omega
  · have hsize : buf.bytes.length = buf.size := rfl
    omega

theorem take_growSockBuf (fill : Fill) (buf : SockBuf) (s : CStr) :
    (growSockBuf fill buf s).take buf.string.length = buf.string := by
  obtain ⟨rest, hrest⟩ := buf.bytes_eq
  have hkeep : buf.bytes.take buf.string.length = buf.string := by
    rw [hrest, List.take_left]
  rw [growSockBuf]
  dsimp only
  split
  · rw [List.take_append_of_le_length, List.take_take, Nat.min_eq_left (by omega), hkeep]
    have := buf.length_string_lt
    have hsize : buf.bytes.length = buf.size := rfl
    rw [List.length_take, hsize]
    omega
  · exact hkeep

theorem stratumBufferAppend_eq (fill : Fill) (buf : SockBuf) {s : CStr} (hs : 0 ∉ s) :
    ∃ buf', stratumBufferAppend fill buf s = some buf' ∧ buf'.string = buf.string ++ s := by
  rw [stratumBufferAppend, if_pos (le_length_growSockBuf fill buf s)]
  refine ⟨_, rfl, ?_⟩
  show before 0 ((growSockBuf fill buf s).take buf.string.length ++ s ++ 0 :: _) = _
  rw [take_growSockBuf, before_append]
  exact List.not_mem_append buf.notMem_string hs

theorem extractLine_eq {buf : SockBuf} (h : hasNewline buf = true) :
    10 ∉ (extractLine buf).1 ∧ 0 ∈ (extractLine buf).2 ∧
      buf.string = (extractLine buf).1 ++ 10 :: before 0 (extractLine buf).2 := by
  have hmem : 10 ∈ buf.string := by
    simpa [hasNewline] using h
  obtain ⟨rest, hrest⟩ := eq_before_append hmem
  obtain ⟨tail, htail⟩ := buf.bytes_eq
  generalize hline : before 10 buf.string = line at hrest
  have hterminator := buf.notMem_string
  rw [hrest] at hterminator htail
  have hline0 : 0 ∉ line := fun h0 => hterminator (List.mem_append_left _ h0)
  have hrest0 : 0 ∉ rest :=
    fun h0 => hterminator (List.mem_append_right _ (List.mem_cons_of_mem _ h0))
  have hset : buf.bytes.set line.length 0 = line ++ 0 :: (rest ++ 0 :: tail) := by
    rw [htail, List.append_assoc, List.cons_append, List.set_append_right _ _ (Nat.le_refl _),
      Nat.sub_self, List.set_cons_zero]
  have hdrop : (line ++ 0 :: (rest ++ 0 :: tail)).drop (line.length + 1) = rest ++ 0 :: tail := by
    rw [← List.drop_drop, List.drop_left, List.drop_one, List.tail_cons]
  have hremLen : buf.string.length - (line.length + 1) = rest.length := by
    rw [hrest, List.length_append, List.length_cons]
    omega
  have hnl : 10 ∉ line := hline ▸ notMem_before 10 buf.string
  have htaken : (rest ++ 0 :: tail).take (rest.length + 1) = rest ++ [0] := by
    rw [List.take_length_add_append, List.take_one, List.head?_cons]
    rfl
  rw [extractLine, hline, hset, hremLen]
  dsimp only
  rw [before_append hline0, hdrop, htaken]
  refine ⟨hnl, ?_⟩
  split
  · rw [List.append_assoc, List.singleton_append, before_append hrest0]
    exact ⟨List.mem_append_right _ List.mem_cons_self, hrest⟩
  · -- the newline ended the string
    have hempty : rest = [] := List.eq_nil_of_length_eq_zero (by omega)
    subst hempty
    obtain ⟨first, others, hcons⟩ : ∃ first others, line ++ 0 :: ([] ++ 0 :: tail) =
        first :: others := List.exists_cons_of_ne_nil (by simp)
    rw [hcons, List.set_cons_zero]
    exact ⟨List.mem_cons_self, by rw [hrest]; rfl⟩

theorem zero_mem_extractLine {buf : SockBuf} (h : hasNewline buf = true) :
    0 ∈ (extractLine buf).2 :=
  (extractLine_eq h).2.1

/-- `stratum_recv_line`: the line, the buffer after it and what is still to be received. -/
def stratumRecvLine (fill : Fill) (buf : SockBuf) (recvs : List Recv) :
    Outcome (CStr × SockBuf × List Recv) :=
  let received := if hasNewline buf then .ok (buf, recvs) else recvLoop fill buf recvs
  match received with
  | .ok (buf, recvs) =>
      if h : hasNewline buf then
        .ok ((extractLine buf).1, ⟨(extractLine buf).2, zero_mem_extractLine h⟩, recvs)
      else .failed
  | .failed => .failed
  | .waiting => .waiting
  | .overflow => .overflow

def recvLines (fill : Fill) : Nat → SockBuf → List Recv →
    Outcome (List CStr × SockBuf × List Recv)
  | 0, buf, recvs => .ok ([], buf, recvs)
  | calls + 1, buf, recvs =>
      match stratumRecvLine fill buf recvs with
      | .ok (line, buf, recvs) =>
          match recvLines fill calls buf recvs with
          | .ok (lines, rest) => .ok (line :: lines, rest)
          | .failed => .failed
          | .waiting => .waiting
          | .overflow => .overflow
      | .failed => .failed
      | .waiting => .waiting
      | .overflow => .overflow

/-! What the calls return. -/

def Recv.bytes : Recv → List UInt8
  | .chunk bytes _ => bytes
  | .again _ | .failed => []

/-- The chunks come from a stream without NUL bytes, at most `RECVSIZE` of them at a time. -/
def Recv.Plain (recv : Recv) : Prop := 0 ∉ recv.bytes ∧ recv.bytes.length ≤ RECVSIZE

/-- The call in question never writes past the buffer, and what it returns satisfies `P`. -/
def Outcome.Holds {α : Type} (P : α → Prop) : Outcome α → Prop
  | .ok value => P value
  | .failed | .waiting => True
  | .overflow => False

def received (recvs : List Recv) : List UInt8 := recvs.flatMap Recv.bytes

/-- No byte is lost on the way from `recvs` to the buffer. -/
structure Kept (buf : SockBuf) (recvs : List Recv) (buf' : SockBuf) (rest : List Recv) :
    Prop where
  suffix : rest <:+ recvs
  bytes : buf'.string ++ received rest = buf.string ++ received recvs

theorem recvLoop_kept (fill : Fill) {buf : SockBuf} {recvs : List Recv}
    (hplain : ∀ recv ∈ recvs, recv.Plain) :
    (recvLoop fill buf recvs).Holds fun result => Kept buf recvs result.1 result.2 := by
  induction recvs generalizing buf with
  | nil => trivial
  | cons recv recvs ih =>
      obtain ⟨hfirst, hrest⟩ := List.forall_mem_cons.mp hplain
      have step : ∀ buf1 : SockBuf, buf1.string = buf.string ++ recv.bytes → ∀ late : Bool,
          (if late || hasNewline buf1 then .ok (buf1, recvs) else
            recvLoop fill buf1 recvs).Holds
            fun result => Kept buf (recv :: recvs) result.1 result.2 := by
        intro buf1 hbuf1 late
        have hbytes : buf1.string ++ received recvs = buf.string ++ received (recv :: recvs) := by
          rw [hbuf1, received, received, List.flatMap_cons, List.append_assoc]
        split
        · exact ⟨List.suffix_cons recv recvs, hbytes⟩
        · have hloop := @ih buf1 hrest
          cases hresult : recvLoop fill buf1 recvs with
          | ok result =>
              rw [hresult] at hloop
              exact ⟨hloop.suffix.trans (List.suffix_cons recv recvs), hloop.bytes.trans hbytes⟩
          | failed | waiting => trivial
          | overflow =>
              rw [hresult] at hloop
              exact hloop
      cases recv with
      | failed => trivial
      | again late =>
          rw [recvLoop]
          exact step buf (List.append_nil _).symm late
      | chunk bytes late =>
          have hzero : 0 ∉ bytes := hfirst.1
          obtain ⟨buf1, happend, hstring⟩ := stratumBufferAppend_eq fill buf hzero
          rw [recvLoop, before_eq_self hzero, happend]
          exact step buf1 hstring late

structure LineKept (buf : SockBuf) (recvs : List Recv) (line : CStr) (buf' : SockBuf)
    (rest : List Recv) : Prop where
  suffix : rest <:+ recvs
  newline : 10 ∉ line
  bytes : buf.string ++ received recvs = line ++ 10 :: (buf'.string ++ received rest)

theorem stratumRecvLine_kept (fill : Fill) {buf : SockBuf} {recvs : List Recv}
    (hplain : ∀ recv ∈ recvs, recv.Plain) :
    (stratumRecvLine fill buf recvs).Holds fun result =>
      LineKept buf recvs result.1 result.2.1 result.2.2 := by
  have hkept : (if hasNewline buf then .ok (buf, recvs) else recvLoop fill buf recvs).Holds
      fun result => Kept buf recvs result.1 result.2 := by
    split
    · exact ⟨List.suffix_refl recvs, rfl⟩
    · exact recvLoop_kept fill hplain
  rw [stratumRecvLine]
  cases hresult : (if hasNewline buf then .ok (buf, recvs) else recvLoop fill buf recvs) with
  | ok result =>
      rw [hresult] at hkept
      obtain ⟨buf1, rest⟩ := result
      dsimp only
      split
      · rename_i hnewline
        obtain ⟨hline, -, hstring⟩ := extractLine_eq hnewline
        refine ⟨hkept.suffix, hline, ?_⟩
        rw [← hkept.bytes]
        dsimp only
        rw [hstring, List.append_assoc, List.cons_append]
        rfl
      · trivial
  | failed | waiting => trivial
  | overflow =>
      rw [hresult] at hkept
      exact hkept

theorem recvLines_kept (fill : Fill) (calls : Nat) {buf : SockBuf} {recvs : List Recv}
    (hplain : ∀ recv ∈ recvs, recv.Plain) :
    (recvLines fill calls buf recvs).Holds fun result =>
      result.1.length = calls ∧ (∀ line ∈ result.1, 10 ∉ line) ∧ result.2.2 <:+ recvs ∧
        buf.string ++ received recvs =
          result.1.flatMap (· ++ [10]) ++ (result.2.1.string ++ received result.2.2) := by
  induction calls generalizing buf recvs with
  | zero => exact ⟨rfl, by simp, List.suffix_refl recvs, rfl⟩
  | succ calls ih =>
      have hline := @stratumRecvLine_kept fill buf recvs hplain
      rw [recvLines]
      cases hfirst : stratumRecvLine fill buf recvs with
      | ok result =>
          obtain ⟨line, buf1, rest1⟩ := result
          rw [hfirst] at hline
          obtain ⟨hsuffix, hnewline, hbytes⟩ := hline
          have hrest := @ih buf1 rest1 fun recv hmem => hplain recv (hsuffix.subset hmem)
          dsimp only
          cases hmore : recvLines fill calls buf1 rest1 with
          | ok result =>
              rw [hmore] at hrest
              obtain ⟨hlength, hlines, hsuffix1, hbytes1⟩ := hrest
              refine ⟨congrArg (· + 1) hlength, List.forall_mem_cons.mpr ⟨hnewline, hlines⟩,
                hsuffix1.trans hsuffix, ?_⟩
              rw [hbytes, hbytes1, List.flatMap_cons, List.append_assoc, List.append_assoc]
              rfl
          | failed | waiting => trivial
          | overflow =>
              rw [hmore] at hrest
              exact hrest
      | failed | waiting => trivial
      | overflow =>
          rw [hfirst] at hline
          exact hline

def Recv.OnTime : Recv → Prop
  | .chunk _ late | .again late => late = false
  | .failed => False

theorem recvLoop_returns (fill : Fill) {buf : SockBuf} {recvs : List Recv}
    (hplain : ∀ recv ∈ recvs, recv.Plain) (honTime : ∀ recv ∈ recvs, recv.OnTime)
    (hnewline : 10 ∈ received recvs) :
    ∃ result, recvLoop fill buf recvs = .ok result ∧ hasNewline result.1 = true := by
  induction recvs generalizing buf with
  | nil => contradiction
  | cons recv recvs ih =>
      obtain ⟨hfirst, hrest⟩ := List.forall_mem_cons.mp hplain
      obtain ⟨hnow, hlater⟩ := List.forall_mem_cons.mp honTime
      rw [received, List.flatMap_cons, List.mem_append] at hnewline
      cases recv with
      | failed => exact absurd hnow id
      | again late =>
          rw [recvLoop, show late = false from hnow, Bool.false_or]
          split
          · rename_i hhas
            exact ⟨_, rfl, hhas⟩
          · exact ih hrest hlater (hnewline.resolve_left List.not_mem_nil)
      | chunk bytes late =>
          have hzero : 0 ∉ bytes := hfirst.1
          obtain ⟨buf1, happend, hstring⟩ := stratumBufferAppend_eq fill buf hzero
          rw [recvLoop, before_eq_self hzero, happend, show late = false from hnow]
          dsimp only
          rw [Bool.false_or]
          split
          · rename_i hhas
            exact ⟨_, rfl, hhas⟩
          · rename_i hnone
            refine ih hrest hlater (hnewline.resolve_left fun hbytes => hnone ?_)
            simp [hasNewline, hstring, show (10 : UInt8) ∈ bytes from hbytes]

theorem stratumRecvLine_returns (fill : Fill) {buf : SockBuf} {recvs : List Recv}
    (hplain : ∀ recv ∈ recvs, recv.Plain) (honTime : ∀ recv ∈ recvs, recv.OnTime)
    (hnewline : 10 ∈ buf.string ++ received recvs) :
    ∃ result, stratumRecvLine fill buf recvs = .ok result := by
  rw [stratumRecvLine]
  by_cases hhas : hasNewline buf = true
  · rw [if_pos hhas]
    dsimp only
    rw [dif_pos hhas]
    exact ⟨_, rfl⟩
  · have hlater : 10 ∈ received recvs :=
      (List.mem_append.mp hnewline).resolve_left fun hmem => hhas (by simpa [hasNewline] using hmem)
    obtain ⟨result, hloop, hresult⟩ := @recvLoop_returns fill buf recvs hplain honTime hlater
    rw [if_neg hhas, hloop]
    dsimp only
    rw [dif_pos hresult]
    exact ⟨_, rfl⟩

/-- There are as many lines to return as newlines have come. -/
theorem recvLines_returns (fill : Fill) {calls : Nat} {buf : SockBuf} {recvs : List Recv}
    (hplain : ∀ recv ∈ recvs, recv.Plain) (honTime : ∀ recv ∈ recvs, recv.OnTime)
    (hcalls : calls ≤ (buf.string ++ received recvs).count 10) :
    ∃ result, recvLines fill calls buf recvs = .ok result := by
  induction calls generalizing buf recvs with
  | zero => exact ⟨_, rfl⟩
  | succ calls ih =>
      obtain ⟨⟨line, buf1, rest⟩, hline⟩ := stratumRecvLine_returns fill hplain honTime
        (List.count_pos_iff.mp (by omega : 0 < (buf.string ++ received recvs).count 10))
      have hkept := @stratumRecvLine_kept fill buf recvs hplain
      rw [hline] at hkept
      obtain ⟨hsuffix, hclean, hbytes⟩ := hkept
      rw [hbytes, List.count_append, List.count_eq_zero_of_not_mem hclean,
        List.count_cons_self] at hcalls
      dsimp only at hcalls
      obtain ⟨⟨lines, more⟩, hlines⟩ := @ih buf1 rest
        (fun recv hmem => hplain recv (hsuffix.subset hmem))
        (fun recv hmem => honTime recv (hsuffix.subset hmem)) (by omega)
      refine ⟨(line :: lines, more), ?_⟩
      rw [recvLines, hline]
      dsimp only
      rw [hlines]

/-- Whatever is in the buffer and whatever the chunks, the lines returned are those that the stream
is cut into, what has not been returned is in the buffer, no append writes past it, and no line
stays behind. -/
theorem recvLines_eq_cut (fill : Fill) (calls : Nat) (buf : SockBuf) {recvs : List Recv}
    (hplain : ∀ recv ∈ recvs, recv.Plain) :
    (∀ (buf : SockBuf) (s : CStr), 0 ∉ s → ∃ buf', stratumBufferAppend fill buf s = some buf' ∧
      buf'.string = buf.string ++ s ∧ buf'.string.length + 1 ≤ buf'.size) ∧
    ((recvLines fill calls buf recvs).Holds fun result =>
      ∃ done, recvs = done ++ result.2.2 ∧
        buf.string ++ received done = result.1.flatMap (· ++ [10]) ++ result.2.1.string ∧
        cutAt 10 (buf.string ++ received done) =
          (result.1 ++ (cutAt 10 result.2.1.string).1, (cutAt 10 result.2.1.string).2) ∧
        result.1.length = calls) ∧
    ((∀ recv ∈ recvs, recv.OnTime) → calls ≤ (buf.string ++ received recvs).count 10 →
      ∃ result, recvLines fill calls buf recvs = .ok result) := by
  refine ⟨fun buf s hs => ?_, ?_, fun honTime hcalls =>
    recvLines_returns fill hplain honTime hcalls⟩
  · obtain ⟨buf', happend, hstring⟩ := stratumBufferAppend_eq fill buf hs
    exact ⟨buf', happend, hstring, buf'.length_string_lt⟩
  · have hkept := @recvLines_kept fill calls buf recvs hplain
    cases hresult : recvLines fill calls buf recvs with
    | ok result =>
        rw [hresult] at hkept
        obtain ⟨hlength, hlines, ⟨done, hdone⟩, hbytes⟩ := hkept
        rw [← hdone, received, List.flatMap_append, ← List.append_assoc,
          ← List.append_assoc] at hbytes
        have hstream := List.append_cancel_right hbytes
        refine ⟨done, hdone.symm, hstream, ?_, hlength⟩
        rw [received, hstream, cutAt_parts hlines]
    | failed | waiting => trivial
    | overflow =>
        rw [hresult] at hkept
        exact hkept

def threeChunks : List Recv :=
  [.chunk (cstr "a") false, .again false, .chunk (cstr "b\n") false, .chunk (cstr "c\nd") false]

theorem recvLines_three_chunks : ∃ result,
    recvLines (fun _ => 0xaa) 2 .empty threeChunks = .ok result ∧
      ∃ done, threeChunks = done ++ result.2.2 ∧
        received done = result.1.flatMap (· ++ [10]) ++ result.2.1.string := by
  have hplain : ∀ recv ∈ threeChunks, recv.Plain := by
    simp [threeChunks, Recv.Plain, Recv.bytes, cstr, RECVSIZE, RBUFSIZE]
  have honTime : ∀ recv ∈ threeChunks, recv.OnTime := by simp [threeChunks, Recv.OnTime]
  have hcut := recvLines_eq_cut (fun _ => 0xaa) 2 .empty hplain
  obtain ⟨result, hresult⟩ := hcut.2.2 honTime
    (by simp [threeChunks, received, Recv.bytes, cstr])
  rw [hresult] at hcut
  obtain ⟨done, hdone, hstream, -⟩ := hcut.2.1
  rw [SockBuf.string_empty, List.nil_append] at hstream
  exact ⟨result, hresult, done, hdone, hstream⟩

end SojCivicLight.Stratum
