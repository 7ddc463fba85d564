import MonitorCoverage.ClassFile.Error

/-!
# Decoders

A decoder reads from the front of a byte sequence and either yields a value, having moved on, or
fails, having stayed where it was. Words are read with the most significant byte first.
-/

namespace MonitorCoverage.ClassFile

/-- A position in a byte sequence: the number of bytes before it and the bytes after it. -/
structure Cursor where
  offset : Nat
  rest : Bytes
  deriving DecidableEq, Repr

def Cursor.start (bytes : Bytes) : Cursor := ⟨0, bytes⟩

abbrev Decoder := EStateM Fault Cursor

namespace Decoder

def fail {α : Type} (cause : Cause) : Decoder α := fun c => .error (.ofCause cause) c

/-- Failure for want of a number of bytes. -/
def starve {α : Type} (need : Nat) : Decoder α := fun c =>
  .error (.ofCause (.truncated need c.offset c.rest.length)) c

/-- The same decoder; its faults lie in a place. -/
def within {α : Type} (place : Place) (decoder : Decoder α) : Decoder α := fun c =>
  match decoder c with
  | .ok a c' => .ok a c'
  | .error fault c' => .error (fault.within place) c'

def offset : Decoder Nat := fun c => .ok c.offset c

def u1 : Decoder UInt8 := fun c =>
  match c.rest with
  | a :: rest => .ok a ⟨c.offset + 1, rest⟩
  | _ => starve 1 c

def u2 : Decoder UInt16 := fun c =>
  match c.rest with
  | a :: b :: rest => .ok (UInt16.ofNat (a.toNat * 256 + b.toNat)) ⟨c.offset + 2, rest⟩
  | _ => starve 2 c

def u4 : Decoder UInt32 := fun c =>
  match c.rest with
  | a :: b :: d :: e :: rest =>
    .ok (UInt32.ofNat (((a.toNat * 256 + b.toNat) * 256 + d.toNat) * 256 + e.toNat))
      ⟨c.offset + 4, rest⟩
  | _ => starve 4 c

/-- The next bytes, as many as asked for. -/
def take (n : Nat) : Decoder Bytes := fun c =>
  let (front, back) := c.rest.splitAt n
  if front.length = n then .ok front ⟨c.offset + n, back⟩ else starve n c

def skip (n : Nat) : Decoder Unit := do let _ ← take n

/-- What a decoder yields when it is run some number of times, after what it yielded before. -/
def replicateOnto {α : Type} (decoder : Decoder α) : Nat → List α → Decoder (List α)
  | 0, found => pure found.reverse
  | n + 1, found => do
    let a ← decoder
    replicateOnto decoder n (a :: found)

/-- A count of two bytes, and that many values. -/
def counted {α : Type} (decoder : Decoder α) : Decoder (List α) := do
  let count ← u2
  replicateOnto decoder count.toNat []

/-- A decoder that succeeds has moved past some bytes of its input and counted them. -/
def Forward {α : Type} (decoder : Decoder α) : Prop :=
  ∀ c a c', decoder c = .ok a c' →
    ∃ front, c.rest = front ++ c'.rest ∧ c'.offset = c.offset + front.length

theorem Forward.pure {α : Type} (a : α) : Forward (Pure.pure a : Decoder α) := by
  intro c a' c' h
  cases h
  exact ⟨[], by simp⟩

theorem Forward.bind {α β : Type} {decoder : Decoder α} {next : α → Decoder β}
    (hd : Forward decoder) (hn : ∀ a, Forward (next a)) : Forward (decoder >>= next) := by
  intro c b c' h
  simp only [Bind.bind, EStateM.bind] at h
  split at h
  · rename_i a c₁ h₁
    obtain ⟨f₁, hr₁, ho₁⟩ := hd c a c₁ h₁
    obtain ⟨f₂, hr₂, ho₂⟩ := hn a c₁ b c' h
    exact ⟨f₁ ++ f₂, by simp [hr₁, hr₂], by simp [ho₂, ho₁]; omega⟩
  · cases h

theorem Forward.map {α β : Type} {decoder : Decoder α} (f : α → β) (hd : Forward decoder) :
    Forward (f <$> decoder) := by
  intro c b c' h
  simp only [Functor.map, EStateM.map] at h
  split at h
  · rename_i a c₁ h₁
    cases h
    exact hd c a _ h₁
  · cases h

theorem Forward.within {α : Type} {decoder : Decoder α} (place : Place) (hd : Forward decoder) :
    Forward (within place decoder) := by
  intro c a c' h
  simp only [Decoder.within] at h
  split at h
  · rename_i h₁
    cases h
    exact hd c _ _ h₁
  · cases h

theorem Forward.fail {α : Type} (cause : Cause) : Forward (fail cause : Decoder α) := by
  intro c a c' h
  cases h

theorem u1_eq_ok {c c' : Cursor} {v : UInt8} (h : u1 c = .ok v c') :
    c.rest = v :: c'.rest ∧ c'.offset = c.offset + 1 := by
  simp only [u1] at h
  split at h
  · rename_i hr
    cases h
    exact ⟨hr, rfl⟩
  · cases h

theorem Forward.u1 : Forward u1 := by
  intro c v c' h
  obtain ⟨hr, ho⟩ := u1_eq_ok h
  exact ⟨[v], by simp [hr], ho⟩

theorem Forward.u2 : Forward u2 := by
  intro c v c' h
  simp only [Decoder.u2] at h
  split at h
  · rename_i a b rest hr
    cases h
    exact ⟨[a, b], by simp [hr], rfl⟩
  · cases h

theorem Forward.u4 : Forward u4 := by
  intro c v c' h
  simp only [Decoder.u4] at h
  split at h
  · rename_i a b d e rest hr
    cases h
    exact ⟨[a, b, d, e], by simp [hr], rfl⟩
  · cases h

theorem Forward.take (n : Nat) : Forward (take n) := by
  intro c v c' h
  simp only [Decoder.take, List.splitAt_eq] at h
  split at h
  · rename_i hn
    cases h
    exact ⟨c.rest.take n, (List.take_append_drop n c.rest).symm, by rw [hn]⟩
  · cases h

/-- The value that a decoder finds at the front of a byte sequence. -/
def run {α : Type} (decoder : Decoder α) (bytes : Bytes) : Except Fault α :=
  match decoder (Cursor.start bytes) with
  | .ok a _ => .ok a
  | .error fault _ => .error fault

end Decoder

end MonitorCoverage.ClassFile
