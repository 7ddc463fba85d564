import Mathlib.Algebra.Ring.Int.Defs
import Mathlib.Algebra.Ring.Nat
import MonitorCoverage.Proofs.FaultKinds

/-!
# Requests for bytes

A decoder moves over its input by asking for bytes. A request says where it is made and how the
number of bytes is computed; it is granted if that many bytes are left, and is refused otherwise. A
script of a decoder tells how the decoder is put together from reads, so that the requests of each
run can be listed: the decoder itself stays what it is, and the script only follows its run. Where
every size in a script is safe to compute, so is every request of every run, and the requests
account for each move of the cursor and for each fault for want of bytes.
-/

namespace MonitorCoverage.ClassFile

/-! ## Numbers computed on words -/

/-- A number, as it is computed step by step on words of 64 bits. -/
inductive WordTerm where
  | given (n : Int)
  | sum (a b : WordTerm)
  | difference (a b : WordTerm)
  | product (a b : WordTerm)
  | remainder (a b : WordTerm)
  deriving DecidableEq, Repr

namespace WordTerm

/-- The number that is meant. -/
def exact : WordTerm → Int
  | given n => n
  | sum a b => a.exact + b.exact
  | difference a b => a.exact - b.exact
  | product a b => a.exact * b.exact
  | remainder a b => a.exact.tmod b.exact

/-- The word that comes out, where every step may wrap around. -/
def word : WordTerm → Int64
  | given n => Int64.ofInt n
  | sum a b => a.word + b.word
  | difference a b => a.word - b.word
  | product a b => a.word * b.word
  | remainder a b => a.word % b.word

/-- The numbers that a word can hold. -/
def IsWord (n : Int) : Prop := -2 ^ 63 ≤ n ∧ n < 2 ^ 63

/-- No step of the computation leaves the range of words or divides by zero. -/
def Fits : WordTerm → Prop
  | given n => IsWord n
  | sum a b => a.Fits ∧ b.Fits ∧ IsWord (a.exact + b.exact)
  | difference a b => a.Fits ∧ b.Fits ∧ IsWord (a.exact - b.exact)
  | product a b => a.Fits ∧ b.Fits ∧ IsWord (a.exact * b.exact)
  | remainder a b => a.Fits ∧ b.Fits ∧ b.exact ≠ 0

theorem bmod_of_isWord {n : Int} (h : IsWord n) : n.bmod (2 ^ 64) = n := by
  obtain ⟨hlow, hhigh⟩ := h
  apply Int.bmod_eq_of_le
  · omega
  · omega

/-- Where nothing overflows, the word is the number that is meant. -/
theorem toInt_word {term : WordTerm} (h : term.Fits) : term.word.toInt = term.exact := by
  induction term with
  | given n => exact Int64.toInt_ofInt_of_le h.1 h.2
  | sum a b iha ihb =>
    obtain ⟨ha, hb, hword⟩ := h
    rw [word, Int64.toInt_add, iha ha, ihb hb, bmod_of_isWord hword, exact]
  | difference a b iha ihb =>
    obtain ⟨ha, hb, hword⟩ := h
    rw [word, Int64.toInt_sub, iha ha, ihb hb, bmod_of_isWord hword, exact]
  | product a b iha ihb =>
    obtain ⟨ha, hb, hword⟩ := h
    rw [word, Int64.toInt_mul, iha ha, ihb hb, bmod_of_isWord hword, exact]
  | remainder a b iha ihb =>
    obtain ⟨ha, hb, -⟩ := h
    rw [word, Int64.toInt_mod, iha ha, ihb hb, exact]

/-- A size that is safe to ask for: it is not negative, it lies below a bound, and its computation
does not overflow as long as the position that it may start from is a word itself. -/
structure IsSafe (start : Nat) (size : WordTerm) : Prop where
  nonneg : 0 ≤ size.exact
  lt : size.exact < 2 ^ 35
  fits : start + 1 < 2 ^ 63 → size.Fits

theorem IsSafe.of_exact_eq {start n : Nat} {size : WordTerm} (hexact : size.exact = n)
    (hlt : n < 2 ^ 35) (hfits : start + 1 < 2 ^ 63 → size.Fits) : size.IsSafe start where
  nonneg := by rw [hexact]; omega
  lt := by rw [hexact]; omega
  fits := hfits

theorem IsSafe.given (start : Nat) {n : Nat} (h : n < 2 ^ 35) :
    IsSafe start (WordTerm.given n) := by
  refine .of_exact_eq rfl h fun _ => ?_
  simp only [Fits, IsWord]
  omega

end WordTerm

/-! ## Requests -/

/-- The position a number of bytes further on. -/
def Cursor.advance (c : Cursor) (n : Nat) : Cursor := ⟨c.offset + n, c.rest.drop n⟩

/-- A position in a byte sequence: it does not lie behind the end, and all bytes from there on are
left to read. -/
def Cursor.IsIn (bytes : Bytes) (c : Cursor) : Prop :=
  c.offset ≤ bytes.length ∧ c.rest = bytes.drop c.offset

theorem Cursor.isIn_start (bytes : Bytes) : (Cursor.start bytes).IsIn bytes :=
  ⟨Nat.zero_le _, rfl⟩

theorem Cursor.IsIn.length_rest {bytes : Bytes} {c : Cursor} (h : c.IsIn bytes) :
    c.offset + c.rest.length = bytes.length := by
  obtain ⟨hle, hrest⟩ := h
  rw [hrest, List.length_drop]
  omega

theorem Cursor.IsIn.advance {bytes : Bytes} {c : Cursor} {n : Nat} (h : c.IsIn bytes)
    (hn : n ≤ c.rest.length) : (c.advance n).IsIn bytes := by
  have hlength := h.length_rest
  constructor
  · simp only [Cursor.advance]
    omega
  · simp only [Cursor.advance, h.2, List.drop_drop]

/-- A request for bytes: where it is made, and the computation of how many bytes are wanted. -/
structure Request where
  cursor : Cursor
  size : WordTerm
  deriving DecidableEq, Repr

namespace Request

/-- A request is refused if its size is negative or exceeds what is left. -/
def IsGranted (request : Request) : Prop :=
  0 ≤ request.size.exact ∧ request.size.exact ≤ request.cursor.rest.length

instance (request : Request) : Decidable request.IsGranted :=
  inferInstanceAs (Decidable (_ ∧ _))

/-- Where a request leaves the cursor. -/
def after (request : Request) : Cursor :=
  if request.IsGranted then request.cursor.advance request.size.exact.toNat else request.cursor

/-- What is wrong where a request is refused. -/
def shortfall (request : Request) : Cause :=
  .truncated request.size.exact.toNat request.cursor.offset request.cursor.rest.length

theorem isIn_after {request : Request} {bytes : Bytes} (h : request.cursor.IsIn bytes) :
    request.after.IsIn bytes := by
  unfold after
  by_cases hgranted : request.IsGranted
  · rw [if_pos hgranted]
    apply h.advance
    have := hgranted.2
    omega
  · rwa [if_neg hgranted]

/-- Requests that lead from one position to another: each is made where the one before it has left
the cursor. -/
def Chained (c : Cursor) (requests : List Request) (c' : Cursor) : Prop :=
  requests.map (·.cursor) ++ [c'] = c :: requests.map (·.after)

theorem Chained.nil (c : Cursor) : Chained c [] c := rfl

theorem Chained.append {c c' c'' : Cursor} {requests more : List Request}
    (h : Chained c requests c') (h' : Chained c' more c'') : Chained c (requests ++ more) c'' := by
  unfold Chained at *
  calc (requests ++ more).map (·.cursor) ++ [c'']
      = requests.map (·.cursor) ++ (more.map (·.cursor) ++ [c'']) := by simp
    _ = (requests.map (·.cursor) ++ [c']) ++ more.map (·.after) := by simp [h']
    _ = c :: (requests ++ more).map (·.after) := by simp [h]

/-- Requests that start inside a byte sequence stay inside it. -/
theorem Chained.isIn {c c' : Cursor} {requests : List Request} {bytes : Bytes}
    (h : Chained c requests c') (hc : c.IsIn bytes) :
    ∀ request ∈ requests, request.cursor.IsIn bytes ∧ request.after.IsIn bytes := by
  induction requests generalizing c with
  | nil => simp
  | cons first requests ih =>
    obtain ⟨hfirst, hrest⟩ := List.cons.inj h
    obtain rfl : first.cursor = c := hfirst
    have hafter := isIn_after hc
    intro request hmem
    obtain rfl | hmem := List.mem_cons.mp hmem
    · exact ⟨hc, hafter⟩
    · exact ih hrest hafter request hmem

end Request

/-! ## Reads -/

namespace Decoder

variable {α β : Type}

/-- A read of a number of bytes: it moves past just so many, or else, where there are fewer, it
stays where it is and fails for want of them. -/
def Reads (n : Nat) (decoder : Decoder α) : Prop :=
  ∀ c, (n ≤ c.rest.length → ∃ a, decoder c = .ok a (c.advance n)) ∧
    (c.rest.length < n →
      decoder c = .error (.ofCause (.truncated n c.offset c.rest.length)) c)

namespace Reads

theorem u1 : Reads 1 u1 := by
  rintro ⟨offset, rest⟩
  match rest with
  | [] => simp [Decoder.u1, Decoder.starve]
  | [_] => simp [Decoder.u1, Cursor.advance]
  | _ :: _ :: _ => simp [Decoder.u1, Cursor.advance]

theorem u2 : Reads 2 u2 := by
  rintro ⟨offset, rest⟩
  match rest with
  | [] | [_] => simp [Decoder.u2, Decoder.starve]
  | _ :: _ :: _ => simp [Decoder.u2, Cursor.advance]

theorem u4 : Reads 4 u4 := by
  rintro ⟨offset, rest⟩
  match rest with
  | [] | [_] | [_, _] | [_, _, _] => simp [Decoder.u4, Decoder.starve]
  | _ :: _ :: _ :: _ :: _ => simp [Decoder.u4, Cursor.advance]

theorem take (n : Nat) : Reads n (take n) := by
  intro c
  constructor
  · intro hn
    simp [Decoder.take, Cursor.advance, hn]
  · intro hn
    have hshort : ¬min n c.rest.length = n := by omega
    simp [Decoder.take, Decoder.starve, hshort]

theorem skip (n : Nat) : Reads n (skip n) := by
  intro c
  constructor
  · intro hn
    obtain ⟨bytes, hbytes⟩ := (take n c).1 hn
    exact ⟨(), by simp only [Decoder.skip, Bind.bind, EStateM.bind, hbytes]; rfl⟩
  · intro hn
    have hshort := (take n c).2 hn
    simp only [Decoder.skip, Bind.bind, EStateM.bind, hshort]

end Reads

/-! ## Scripts -/

/-- How a decoder is put together from reads, each with the computation of its size. A size may
start from a position, and the conditions met so far may be used to show that it is safe. -/
inductive Script (start : Nat) : {α : Type} → Decoder α → Type 1 where
  | pure {α : Type} (a : α) : Script start (Pure.pure a)
  | fail {α : Type} (cause : Cause) (other : cause.kind ≠ .truncated) :
    Script start (Decoder.fail cause : Decoder α)
  | read {α : Type} {decoder : Decoder α} {n : Nat} (size : WordTerm) (safe : size.IsSafe start)
    (exact : size.exact = n) (reads : Reads n decoder) : Script start decoder
  | bind {α β : Type} {decoder : Decoder α} {next : α → Decoder β}
    (first : Script start decoder) (second : ∀ a, Script start (next a)) :
    Script start (decoder >>= next)
  | map {α β : Type} {decoder : Decoder α} (f : α → β) (script : Script start decoder) :
    Script start (f <$> decoder)
  | within {α : Type} {decoder : Decoder α} (place : Place) (script : Script start decoder) :
    Script start (Decoder.within place decoder)
  | ite {α : Type} {p : Prop} [Decidable p] {decoder other : Decoder α}
    (yes : p → Script start decoder) (no : ¬p → Script start other) :
    Script start (if p then decoder else other)

/-- Where a run of a decoder has left the cursor. -/
def endOf : EStateM.Result Fault Cursor α → Cursor
  | .ok _ c => c
  | .error _ c => c

def faultOf : EStateM.Result Fault Cursor α → Option Fault
  | .ok _ _ => none
  | .error fault _ => some fault

namespace Script

variable {start : Nat}

/-- The requests of the run from a position on, in order. -/
def requests {α : Type} {decoder : Decoder α} : Script start decoder → Cursor → List Request
  | .pure _, _ => []
  | .fail _ _, _ => []
  | .read size _ _ _, c => [⟨c, size⟩]
  | @bind _ _ _ decoder _ first second, c =>
    first.requests c ++
      match decoder c with
      | .ok a c' => (second a).requests c'
      | .error _ _ => []
  | .map _ script, c => script.requests c
  | .within _ script, c => script.requests c
  | @ite _ _ p _ _ _ yes no, c => if h : p then (yes h).requests c else (no h).requests c

theorem isSafe_of_mem_requests {decoder : Decoder α} (script : Script start decoder) {c : Cursor} :
    ∀ request ∈ script.requests c, request.size.IsSafe start := by
  induction script generalizing c with
  | pure a => simp [requests]
  | fail cause other => simp [requests]
  | read size safe exact reads =>
    intro request hmem
    obtain rfl := List.mem_singleton.mp hmem
    exact safe
  | @bind α β decoder next first second ih₁ ih₂ =>
    intro request hmem
    simp only [requests, List.mem_append] at hmem
    obtain hmem | hmem := hmem
    · exact ih₁ request hmem
    · cases hc : decoder c with
      | ok a c' =>
        rw [hc] at hmem
        exact ih₂ a request hmem
      | error fault c' => simp [hc] at hmem
  | map f script ih => exact ih
  | within place script ih => exact ih
  | @ite α p _ decoder other yes no ihYes ihNo =>
    by_cases h : p
    · simpa only [requests, dif_pos h] using ihYes h
    · simpa only [requests, dif_neg h] using ihNo h

end Script

/-! ## What the requests of a run say about it -/

/-- Requests that account for a run: they make up its whole way, and it fails for want of bytes
exactly if a request was refused, saying which. -/
structure Accounts (requests : List Request) (c : Cursor) (fault? : Option Fault)
    (c' : Cursor) : Prop where
  chained : Request.Chained c requests c'
  refused : ∀ request ∈ requests, ¬request.IsGranted →
    ∃ fault, fault? = some fault ∧ fault.cause = request.shortfall
  truncated : ∀ fault, fault? = some fault → fault.kind = .truncated →
    ∃ request ∈ requests, ¬request.IsGranted ∧ fault.cause = request.shortfall

namespace Accounts

theorem nil {c : Cursor} {fault? : Option Fault}
    (h : ∀ fault, fault? = some fault → fault.kind ≠ .truncated) : Accounts [] c fault? c where
  chained := .nil c
  refused := by simp
  truncated fault hfault hkind := absurd hkind (h fault hfault)

/-- A run that goes on where another one has ended well. -/
theorem append {requests more : List Request} {c c' c'' : Cursor} {fault? : Option Fault}
    (h : Accounts requests c none c') (h' : Accounts more c' fault? c'') :
    Accounts (requests ++ more) c fault? c'' where
  chained := h.chained.append h'.chained
  refused := by
    intro request hmem hrefused
    obtain hmem | hmem := List.mem_append.mp hmem
    · obtain ⟨fault, hfault, -⟩ := h.refused request hmem hrefused
      cases hfault
    · exact h'.refused request hmem hrefused
  truncated := by
    intro fault hfault hkind
    obtain ⟨request, hmem, hrefused⟩ := h'.truncated fault hfault hkind
    exact ⟨request, List.mem_append_right requests hmem, hrefused⟩

theorem within {requests : List Request} {c c' : Cursor} {fault? : Option Fault} (place : Place)
    (h : Accounts requests c fault? c') :
    Accounts requests c (fault?.map (Fault.within place)) c' where
  chained := h.chained
  refused := by
    intro request hmem hrefused
    obtain ⟨fault, hfault, hcause⟩ := h.refused request hmem hrefused
    exact ⟨fault.within place, by simp [hfault], hcause⟩
  truncated := by
    intro fault hfault hkind
    obtain ⟨inner, hinner, rfl⟩ := Option.map_eq_some_iff.mp hfault
    exact h.truncated inner hinner hkind

theorem read {decoder : Decoder α} {n : Nat} {size : WordTerm} (hexact : size.exact = n)
    (hreads : Reads n decoder) (c : Cursor) :
    Accounts [⟨c, size⟩] c (faultOf (decoder c)) (endOf (decoder c)) := by
  by_cases hn : n ≤ c.rest.length
  · have hgranted : Request.IsGranted ⟨c, size⟩ := by
      constructor <;> simp only [hexact] <;> omega
    obtain ⟨a, ha⟩ := (hreads c).1 hn
    rw [ha]
    constructor
    · simp [Request.Chained, Request.after, hgranted, endOf, hexact]
    · simp [hgranted]
    · simp [faultOf]
  · have hrefused : ¬Request.IsGranted ⟨c, size⟩ := by
      rintro ⟨-, hle⟩
      simp only [hexact] at hle
      omega
    rw [(hreads c).2 (by omega)]
    constructor
    · simp [Request.Chained, Request.after, hrefused, endOf]
    · simp [faultOf, Request.shortfall, Fault.ofCause, hexact]
    · simp [faultOf, Request.shortfall, Fault.ofCause, hrefused, hexact]

end Accounts

namespace Script

variable {start : Nat}

/-- The requests of a script account for every run of its decoder. -/
theorem accounts {decoder : Decoder α} (script : Script start decoder) (c : Cursor) :
    Accounts (script.requests c) c (faultOf (decoder c)) (endOf (decoder c)) := by
  induction script generalizing c with
  | pure a => exact .nil (by simp [Pure.pure, EStateM.pure, faultOf])
  | fail cause other =>
    refine .nil fun fault hfault => ?_
    obtain rfl := Option.some.inj hfault
    exact other
  | read size safe exact reads => exact .read exact reads c
  | @bind α β decoder next first second ih₁ ih₂ =>
    -- the second part starts where the first has ended, and is not reached where that has failed
    have hfirst := ih₁ c
    simp only [requests, Bind.bind, EStateM.bind]
    cases hc : decoder c with
    | ok a c' =>
      rw [hc] at hfirst
      exact hfirst.append (ih₂ a c')
    | error fault c' =>
      rw [hc] at hfirst
      rw [List.append_nil]
      exact hfirst
  | @map α β decoder f script ih =>
    have hscript := ih c
    simp only [requests, Functor.map, EStateM.map]
    cases hc : decoder c with
    | ok a c' => rwa [hc] at hscript
    | error fault c' => rwa [hc] at hscript
  | @within α decoder place script ih =>
    have hscript := (ih c).within place
    simp only [requests, Decoder.within]
    cases hc : decoder c with
    | ok a c' => rwa [hc] at hscript
    | error fault c' => rwa [hc] at hscript
  | @ite α p _ decoder other yes no ihYes ihNo =>
    by_cases h : p
    · simpa only [requests, dif_pos h, if_pos h] using ihYes h c
    · simpa only [requests, dif_neg h, if_neg h] using ihNo h c

/-! ## Scripts of the common parts -/

def u1 : Script start Decoder.u1 := .read (.given 1) (.given start (n := 1) (by decide)) rfl .u1

def u2 : Script start Decoder.u2 := .read (.given 2) (.given start (n := 2) (by decide)) rfl .u2

def u4 : Script start Decoder.u4 := .read (.given 4) (.given start (n := 4) (by decide)) rfl .u4

/-- A number of bytes that is given and not computed. -/
def take (n : Nat) (h : n < 2 ^ 35) : Script start (Decoder.take n) :=
  .read (.given n) (.given start h) rfl (.take n)

/-- As many bytes as a word of two bytes says. -/
def takeWord16 (length : UInt16) : Script start (Decoder.take length.toNat) :=
  .take length.toNat (by have := length.toNat_lt; omega)

/-- As many bytes as a word of four bytes says. -/
def takeWord32 (length : UInt32) : Script start (Decoder.take length.toNat) :=
  .take length.toNat (by have := length.toNat_lt; omega)

/-- A decoder that goes on only where a condition for failure does not hold. -/
def guarded {p : Prop} [Decidable p] {cause : Cause} {next : Unit → Decoder α}
    (other : cause.kind ≠ .truncated) (script : Script start (next ())) :
    Script start (if p then Decoder.fail cause >>= next else next ()) :=
  .ite (fun _ => .bind (.fail cause other) fun _ => script) fun _ => script

def replicateOnto {decoder : Decoder α} (script : Script start decoder) :
    (n : Nat) → (found : List α) → Script start (Decoder.replicateOnto decoder n found)
  | 0, found => .pure found.reverse
  | n + 1, found => .bind script fun a => replicateOnto script n (a :: found)

def counted {decoder : Decoder α} (script : Script start decoder) :
    Script start (Decoder.counted decoder) :=
  .bind .u2 fun count => script.replicateOnto count.toNat []

end Script

end Decoder

end MonitorCoverage.ClassFile
