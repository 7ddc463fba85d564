import MonitorCoverage.Proofs.Outcome
import MonitorCoverage.Proofs.ReaderScripts

/-!
# The way of the cursor

Parsing a file makes several readers: one for the file, one for each code attribute and one for each
code array. No reader leaves its bytes, whatever lengths, counts and bounds stand in them, and none
asks for a negative number of bytes. Reading an instruction moves the cursor on, so the loop over a
code array comes to an end after at most as many turns as there are bytes.
-/

namespace MonitorCoverage.ClassFile

open Decoder

/-! ## Runs of readers -/

/-- A run of a reader over its bytes: what it asks for, and the fault that it ends with, if any. -/
structure Run where
  bytes : Bytes
  requests : List Request
  fault? : Option Fault

/-- A run that keeps to its bytes. -/
structure Run.IsSafe (run : Run) : Prop where
  /-- The requests make up the whole way of the cursor and explain every want of bytes. -/
  accounts : ∃ c, Accounts run.requests (Cursor.start run.bytes) run.fault? c
  inside : ∀ request ∈ run.requests,
    request.cursor.IsIn run.bytes ∧ request.after.IsIn run.bytes
  sized : ∀ request ∈ run.requests, 0 ≤ request.size.exact ∧ request.size.exact < 2 ^ 35
  /-- It is never its sign for which a size is refused. -/
  refused : ∀ request ∈ run.requests, ¬request.IsGranted →
    request.cursor.rest.length < request.size.exact
  /-- Nothing overflows, for bytes whose number is a word. -/
  fits : run.bytes.length < 2 ^ 63 → ∀ request ∈ run.requests,
    request.size.Fits ∧ request.size.word.toInt = request.size.exact

/-- Sizes that are safe to compute from the positions of a run make the run safe. -/
theorem Run.isSafe_of_sizes {run : Run} {c : Cursor}
    (haccounts : Accounts run.requests (Cursor.start run.bytes) run.fault? c)
    (hsizes : ∀ request ∈ run.requests, ∃ start,
      request.size.IsSafe start ∧ (start = 0 ∨ start < run.bytes.length)) : run.IsSafe where
  accounts := ⟨c, haccounts⟩
  inside := haccounts.chained.isIn (Cursor.isIn_start run.bytes)
  sized request hmem := by
    obtain ⟨start, hsafe, -⟩ := hsizes request hmem
    exact ⟨hsafe.nonneg, hsafe.lt⟩
  refused request hmem hrefused := by
    obtain ⟨start, hsafe, -⟩ := hsizes request hmem
    by_contra hle
    exact hrefused ⟨hsafe.nonneg, by omega⟩
  fits hlength request hmem := by
    obtain ⟨start, hsafe, hstart⟩ := hsizes request hmem
    -- a position before the last byte leaves room for one more
    have hfits := hsafe.fits (by omega)
    exact ⟨hfits, WordTerm.toInt_word hfits⟩

/-- The fault that a computation ends with, if any. -/
def errorOf {α : Type} : Except Fault α → Option Fault
  | .ok _ => none
  | .error fault => some fault

/-- What is wrong where a computation fails, wherever it is. -/
def causeOf {α : Type} (result : Except Fault α) : Option Cause := (errorOf result).map (·.cause)

def Run.cause? (run : Run) : Option Cause := run.fault?.map (·.cause)

theorem errorOf_run {α : Type} (decoder : Decoder α) (bytes : Bytes) :
    errorOf (Decoder.run decoder bytes) = faultOf (decoder (Cursor.start bytes)) := by
  unfold Decoder.run
  cases decoder (Cursor.start bytes) with
  | ok a c => rfl
  | error fault c => rfl

/-- The run of a decoder over bytes of its own. -/
def runOf {α : Type} {decoder : Decoder α} (script : Script 0 decoder) (bytes : Bytes) : Run :=
  ⟨bytes, script.requests (Cursor.start bytes), errorOf (Decoder.run decoder bytes)⟩

theorem isSafe_runOf {α : Type} {decoder : Decoder α} (script : Script 0 decoder) (bytes : Bytes) :
    (runOf script bytes).IsSafe := by
  have haccounts := script.accounts (Cursor.start bytes)
  rw [← errorOf_run] at haccounts
  apply Run.isSafe_of_sizes haccounts
  intro request hmem
  exact ⟨0, script.isSafe_of_mem_requests request hmem, .inl rfl⟩

/-! ## The loop over a code array -/

theorem Written.offset_of_read {c c' : Cursor} {written : Written}
    (h : Written.read c = .ok written c') :
    c.offset + 1 ≤ c'.offset ∧ c'.offset + c'.rest.length = c.offset + c.rest.length := by
  obtain ⟨bytes, hrest, hoffset, layout, phrase, -, rfl, -⟩ :=
    (Written.recognizes_read c written c').mp h
  rw [hrest, hoffset]
  simp only [List.length_append, List.length_cons]
  omega

theorem Written.isIn_of_read {bytes : Bytes} {c c' : Cursor} {written : Written}
    (h : Written.read c = .ok written c') (hc : c.IsIn bytes) : c'.IsIn bytes := by
  obtain ⟨front, hrest, hoffset, -⟩ := (Written.recognizes_read c written c').mp h
  have hlength := hc.length_rest
  constructor
  · have := Written.offset_of_read h
    omega
  · rw [hoffset, ← List.drop_drop, ← hc.2, hrest, List.drop_left]

namespace Instruction

/-- One turn of the loop: the instruction at a position. -/
def decodeAt (c : Cursor) : Except Fault Instruction :=
  match Written.read c with
  | .ok written _ => .ok (written.normalize c.offset)
  | .error fault _ => .error fault

/-- The positions at which the loop starts another turn. -/
def heads (c : Cursor) : List Cursor :=
  if c.rest.isEmpty then []
  else
    match h : Written.read c with
    | .ok _ c' =>
      have := Written.length_rest_lt_of_read h
      c :: heads c'
    | .error _ _ => [c]
termination_by c.rest.length

theorem length_heads_le (c : Cursor) : (heads c).length ≤ c.rest.length := by
  fun_induction heads c with
  | case1 c hempty => simp
  | case2 c hempty written c' hread hlt ih =>
    rw [List.length_cons]
    omega
  | case3 c hempty fault c' hread =>
    have : c.rest.length ≠ 0 := by simpa using hempty
    simp only [List.length_singleton]
    omega

theorem isIn_of_mem_heads {bytes : Bytes} {c : Cursor} (hc : c.IsIn bytes) :
    ∀ head ∈ heads c, head.IsIn bytes ∧ head.offset < bytes.length := by
  fun_induction heads c with
  | case1 c hempty => simp
  | case2 c hempty written c' hread hlt ih =>
    have hlength := hc.length_rest
    intro head hmem
    obtain rfl | hmem := List.mem_cons.mp hmem
    · exact ⟨hc, by omega⟩
    · exact ih (Written.isIn_of_read hread hc) head hmem
  | case3 c hempty fault c' hread =>
    have hlength := hc.length_rest
    have : c.rest.length ≠ 0 := by simpa using hempty
    intro head hmem
    obtain rfl := List.mem_singleton.mp hmem
    exact ⟨hc, by omega⟩

/-- The loop decodes at each of its heads in turn. -/
theorem readFrom_eq_mapM_heads (c : Cursor) (found : List Instruction) :
    readFrom c found = (heads c).mapM decodeAt >>= fun more => .ok (found.reverse ++ more) := by
  fun_induction heads c generalizing found with
  | case1 c hempty =>
    rw [readFrom_of_isEmpty (List.isEmpty_iff.mp hempty)]
    simp [Bind.bind, Except.bind, Pure.pure, Except.pure]
  | case2 c hempty written c' hread hlt ih =>
    have hturn : decodeAt c = .ok (written.normalize c.offset) := by simp [decodeAt, hread]
    rw [readFrom_of_read_eq_ok hread, ih, List.mapM_cons, hturn]
    cases (heads c').mapM decodeAt with
    | ok more => simp [Bind.bind, Except.bind, Pure.pure, Except.pure]
    | error fault => rfl
  | case3 c hempty fault c' hread =>
    have hturn : decodeAt c = .error fault := by simp [decodeAt, hread]
    rw [readFrom_of_read_eq_error (List.isEmpty_iff.not.mp hempty) hread, List.mapM_cons, hturn]
    rfl

theorem decode_eq_mapM_heads (code : Bytes) :
    decode code = (heads (Cursor.start code)).mapM decodeAt := by
  rw [decode, readFrom_eq_mapM_heads]
  cases (heads (Cursor.start code)).mapM decodeAt with
  | ok more => rfl
  | error fault => rfl

/-- The requests of one turn of the loop. -/
def requestsAt (c : Cursor) : List Request := (Written.script c.offset).requests c

theorem accounts_requestsAt (c : Cursor) :
    Accounts (requestsAt c) c (faultOf (Written.read c)) (endOf (Written.read c)) := by
  rw [Written.read_eq_readAt]
  exact (Written.script c.offset).accounts c

theorem accounts_heads (c : Cursor) (found : List Instruction) :
    ∃ c', Accounts ((heads c).flatMap requestsAt) c (errorOf (readFrom c found)) c' := by
  fun_induction heads c generalizing found with
  | case1 c hempty =>
    rw [readFrom_of_isEmpty (List.isEmpty_iff.mp hempty)]
    exact ⟨c, .nil (by simp [errorOf])⟩
  | case2 c hempty written c' hread hlt ih =>
    have hturn := accounts_requestsAt c
    rw [hread] at hturn
    obtain ⟨c'', hrest⟩ := ih (written.normalize c.offset :: found)
    rw [readFrom_of_read_eq_ok hread, List.flatMap_cons]
    exact ⟨c'', hturn.append hrest⟩
  | case3 c hempty fault c' hread =>
    have hturn := accounts_requestsAt c
    rw [hread] at hturn
    rw [readFrom_of_read_eq_error (List.isEmpty_iff.not.mp hempty) hread, List.flatMap_singleton]
    exact ⟨c', hturn⟩

/-- The run of the loop over a code array. -/
def run (code : Bytes) : Run :=
  ⟨code, (heads (Cursor.start code)).flatMap requestsAt, errorOf (decode code)⟩

theorem isSafe_run (code : Bytes) : (run code).IsSafe := by
  obtain ⟨c, haccounts⟩ := accounts_heads (Cursor.start code) []
  apply Run.isSafe_of_sizes haccounts
  intro request hmem
  obtain ⟨head, hhead, hmem⟩ := List.mem_flatMap.mp hmem
  have hinside := isIn_of_mem_heads (Cursor.isIn_start code) head hhead
  exact ⟨head.offset, (Written.script head.offset).isSafe_of_mem_requests request hmem,
    .inr hinside.2⟩

end Instruction

/-! ## The readers of a file -/

/-- The runs over a code attribute and, if it can be read, over its code array. -/
def Code.runs (body : Bytes) : List Run :=
  runOf Code.bodyScript body ::
    match Decoder.run Code.readBody body with
    | .ok (_, _, code, _) => [Instruction.run code]
    | .error _ => []

/-- The runs over the code of methods, up to the first that cannot be decoded. -/
def Method.runs : List Member → List Run
  | [] => []
  | member :: members =>
    match member.lastBody? Code.codeName with
    | none => runs members
    | some body =>
      Code.runs body ++
        match Code.decode body with
        | .ok _ => runs members
        | .error _ => []

/-- The runs over a file and the code in it. -/
def runs (data : Bytes) : List Run :=
  runOf Outline.script data ::
    match Decoder.run Outline.read data with
    | .ok outline => Method.runs outline.methods
    | .error _ => []

theorem Code.isSafe_of_mem_runs {body : Bytes} : ∀ run ∈ Code.runs body, run.IsSafe := by
  intro run hmem
  obtain rfl | hmem := List.mem_cons.mp hmem
  · exact isSafe_runOf Code.bodyScript body
  · split at hmem
    · obtain rfl := List.mem_singleton.mp hmem
      exact Instruction.isSafe_run _
    · simp at hmem

theorem Method.isSafe_of_mem_runs {members : List Member} :
    ∀ run ∈ Method.runs members, run.IsSafe := by
  induction members with
  | nil => simp [Method.runs]
  | cons member members ih =>
    intro run hmem
    rw [Method.runs] at hmem
    split at hmem
    · exact ih run hmem
    · obtain hmem | hmem := List.mem_append.mp hmem
      · exact Code.isSafe_of_mem_runs run hmem
      · split at hmem
        · exact ih run hmem
        · simp at hmem

theorem isSafe_of_mem_runs {data : Bytes} : ∀ run ∈ runs data, run.IsSafe := by
  intro run hmem
  obtain rfl | hmem := List.mem_cons.mp hmem
  · exact isSafe_runOf Outline.script data
  · split at hmem
    · exact Method.isSafe_of_mem_runs run hmem
    · simp at hmem

theorem Code.causeOf_decode (body : Bytes) :
    causeOf (Code.decode body) = (Code.runs body).findSome? Run.cause? := by
  unfold Code.decode Code.runs
  cases hbody : Decoder.run Code.readBody body with
  | error fault => simp [Bind.bind, Except.bind, runOf, hbody, Run.cause?, causeOf, errorOf]
  | ok parts =>
    obtain ⟨maxStack, maxLocals, code, handlers⟩ := parts
    have hhead : (runOf Code.bodyScript body).cause? = none := by
      simp [runOf, hbody, Run.cause?, errorOf]
    simp only [Bind.bind, Except.bind, List.findSome?_cons, hhead, List.findSome?_nil]
    cases hcode : Instruction.decode code with
    | error fault => simp [Run.cause?, Instruction.run, hcode, causeOf, errorOf]
    | ok instructions =>
      simp [Run.cause?, Instruction.run, hcode, causeOf, errorOf, Pure.pure, Except.pure]

theorem Method.causeOf_mapM_ofMember (members : List Member) :
    causeOf (members.mapM Method.ofMember) = (Method.runs members).findSome? Run.cause? := by
  induction members with
  | nil => rfl
  | cons member members ih =>
    have hrest (method : Method) :
        causeOf (members.mapM Method.ofMember >>= fun methods => .ok (method :: methods)) =
          (Method.runs members).findSome? Run.cause? := by
      rw [← ih]
      cases members.mapM Method.ofMember with
      | ok methods => rfl
      | error fault => rfl
    rw [List.mapM_cons, Method.runs]
    cases hbody : member.lastBody? Code.codeName with
    | none =>
      simp only [Method.ofMember, hbody]
      exact hrest _
    | some body =>
      have hcode := Code.causeOf_decode body
      cases hdecode : Code.decode body with
      | ok code =>
        rw [hdecode] at hcode
        simp only [Method.ofMember, hbody, hdecode, List.findSome?_append, ← hcode]
        exact hrest _
      | error fault =>
        rw [hdecode] at hcode
        simp only [Method.ofMember, hbody, hdecode, List.append_nil, ← hcode]
        rfl

/-- A file is refused for what its first run that fails is refused for. -/
theorem causeOf_parse (data : Bytes) :
    causeOf (parse data) = (runs data).findSome? Run.cause? := by
  unfold parse runs
  cases houtline : Decoder.run Outline.read data with
  | error fault => simp [Bind.bind, Except.bind, runOf, houtline, Run.cause?, causeOf, errorOf]
  | ok outline =>
    have hhead : (runOf Outline.script data).cause? = none := by
      simp [runOf, houtline, Run.cause?, errorOf]
    simp only [List.findSome?_cons, hhead, ← Method.causeOf_mapM_ofMember]
    simp only [ofOutline, Bind.bind, Except.bind]
    cases outline.methods.mapM Method.ofMember with
    | ok methods => rfl
    | error fault => rfl

/-- No reader leaves its bytes, and the loop over code always moves on. A read of some size moves
past just so many bytes or stays where it is for want of them. Whatever the file, every position of
every reader lies in its bytes, every size that is asked for is computed without overflow and lies
between 0 and 2 ^ 35, and only a size that exceeds the bytes left is refused; what a file is refused
for is what one of these readers was refused for. The same holds of decoding a code array, which
takes as many turns as it has instructions, at most one for each byte: an instruction takes at least
one byte and at most those that are left. -/
theorem readers_stay_inside (data code : Bytes) :
    (Reads 1 u1 ∧ Reads 2 u2 ∧ Reads 4 u4 ∧ ∀ n, Reads n (take n) ∧ Reads n (skip n)) ∧
    (∀ run ∈ runs data, run.IsSafe) ∧
    causeOf (parse data) = (runs data).findSome? Run.cause? ∧
    (Instruction.run code).IsSafe ∧
    Instruction.decode code =
      (Instruction.heads (Cursor.start code)).mapM Instruction.decodeAt ∧
    (Instruction.heads (Cursor.start code)).length ≤ code.length ∧
    ∀ c written c', Written.read c = .ok written c' →
      c.offset + 1 ≤ c'.offset ∧ c'.offset ≤ c.offset + c.rest.length := by
  refine ⟨⟨.u1, .u2, .u4, fun n => ⟨.take n, .skip n⟩⟩, isSafe_of_mem_runs, causeOf_parse data,
    Instruction.isSafe_run code, Instruction.decode_eq_mapM_heads code,
    Instruction.length_heads_le _, ?_⟩
  intro c written c' h
  have hmoves := Written.offset_of_read h
  exact ⟨hmoves.1, by omega⟩

/-- A table switch from the least to the greatest number of 32 bits, without its targets. -/
def widestTable : Bytes :=
  [170, 0, 0, 0, 0, 0, 0, 0, 0x80, 0, 0, 0, 0x7F, 0xFF, 0xFF, 0xFF]

theorem readers_stay_inside_widestTable :
    (∀ run ∈ runs bareClass, run.IsSafe) ∧ (Instruction.run widestTable).IsSafe ∧
    (∃ request ∈ (Instruction.run widestTable).requests,
      request.size.exact = 17179869184 ∧ ¬request.IsGranted) ∧
    Instruction.decode widestTable =
      .error ⟨[.instruction .tableSwitch 0], .truncated 17179869184 16 0⟩ ∧
    (Instruction.heads (Cursor.start widestTable)).length ≤ 16 := by
  obtain ⟨-, hfile, -, hcode, -, hturns, -⟩ := readers_stay_inside bareClass widestTable
  have hdecode : Instruction.decode widestTable =
      .error ⟨[.instruction .tableSwitch 0], .truncated 17179869184 16 0⟩ := by decide +kernel
  refine ⟨hfile, hcode, ?_, hdecode, hturns⟩
  obtain ⟨c, haccounts⟩ := hcode.accounts
  have hfault : (Instruction.run widestTable).fault? =
      some ⟨[.instruction .tableSwitch 0], .truncated 17179869184 16 0⟩ := by
    simp [Instruction.run, hdecode, errorOf]
  obtain ⟨request, hmem, hrefused, hcause⟩ := haccounts.truncated _ hfault rfl
  have hsized := hcode.sized request hmem
  simp only [Request.shortfall, Cause.truncated.injEq] at hcause
  exact ⟨request, hmem, by omega, hrefused⟩

end MonitorCoverage.ClassFile
