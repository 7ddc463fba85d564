import MonitorCoverage.Proofs.InputExtension

/-!
# Kinds of faults

A caller tells faults apart by their kind, whatever their places and details are. There are six
kinds, and the message of a cause starts with the text of its kind. Which kinds a decoder can fail
with follows from its parts: a part that reads bytes can only run out of them.
-/

namespace MonitorCoverage

theorem utf8_append (first second : String) :
    utf8 (first ++ second) = utf8 first ++ utf8 second := by
  simp [utf8]

namespace ClassFile

inductive FaultKind where
  | badMagic
  | truncated
  | badConstant
  | unknownOpcode
  | unsupportedVersion
  | badCode
  deriving DecidableEq, Repr

def FaultKind.text : FaultKind → String
  | badMagic => "not a class file: bad magic number"
  | truncated => "class file truncated"
  | badConstant => "bad constant pool entry"
  | unknownOpcode => "unknown opcode"
  | unsupportedVersion => "unsupported class file version"
  | badCode => "malformed code attribute"

def Cause.kind : Cause → FaultKind
  | .truncated _ _ _ => .truncated
  | .badMagic _ => .badMagic
  | .unsupportedVersion _ _ => .unsupportedVersion
  | .unknownTag _ _ | .slotOutOfRange _ | .unexpectedTag _ _ _ => .badConstant
  | .unknownOpcode _ _ | .unknownWide _ _ => .unknownOpcode
  | .emptyTable _ _ | .negativePairs _ => .badCode

/-- The message of a cause starts with the text of its kind. -/
theorem Cause.text_kind_isPrefix (cause : Cause) : utf8 cause.kind.text <+: cause.message := by
  cases cause <;> simp only [kind, FaultKind.text, message, utf8_append, List.append_assoc] <;>
    exact List.IsPrefix.trans (by decide) (List.prefix_append _ _)

def Fault.kind (fault : Fault) : FaultKind := fault.cause.kind

theorem Fault.isTruncated_iff {fault : Fault} : fault.IsTruncated ↔ fault.kind = .truncated := by
  obtain ⟨places, cause⟩ := fault
  cases cause <;> simp [IsTruncated, kind, Cause.kind]

namespace Decoder

variable {α β : Type} {kinds : FaultKind → Prop} {decoder : Decoder α}

/-- A decoder whose faults are of some kinds only. -/
def FailsOnly (kinds : FaultKind → Prop) (decoder : Decoder α) : Prop :=
  ∀ c fault c', decoder c = .error fault c' → kinds fault.kind

namespace FailsOnly

theorem pure (a : α) : FailsOnly kinds (Pure.pure a : Decoder α) := by
  intro c fault c' h
  cases h

theorem fail {cause : Cause} (h : kinds cause.kind) :
    FailsOnly kinds (fail cause : Decoder α) := by
  intro c fault c' hfail
  cases hfail
  exact h

theorem bind {next : α → Decoder β} (hd : FailsOnly kinds decoder)
    (hn : ∀ a, FailsOnly kinds (next a)) : FailsOnly kinds (decoder >>= next) := by
  intro c fault c' h
  simp only [Bind.bind, EStateM.bind] at h
  cases hc : decoder c with
  | ok a c₁ =>
    rw [hc] at h
    exact hn a c₁ fault c' h
  | error fault₁ c₁ =>
    rw [hc] at h
    cases h
    exact hd c fault _ hc

theorem within (place : Place) (hd : FailsOnly kinds decoder) :
    FailsOnly kinds (within place decoder) := by
  intro c fault c' h
  simp only [Decoder.within] at h
  cases hc : decoder c with
  | ok a c₁ => simp [hc] at h
  | error fault₁ c₁ =>
    rw [hc] at h
    cases h
    exact hd c fault₁ _ hc

theorem offset : FailsOnly kinds Decoder.offset := by
  intro c fault c' h
  cases h

/-- What a read ends with where there are too few bytes. -/
theorem starve (h : kinds .truncated) (need : Nat) : FailsOnly kinds (starve need : Decoder α) := by
  intro c fault c' hstarve
  cases hstarve
  exact h

theorem u1 (h : kinds .truncated) : FailsOnly kinds u1 := by
  intro c fault c' hread
  simp only [Decoder.u1] at hread
  split at hread
  · cases hread
  · exact starve h 1 c fault c' hread

theorem u2 (h : kinds .truncated) : FailsOnly kinds u2 := by
  intro c fault c' hread
  simp only [Decoder.u2] at hread
  split at hread
  · cases hread
  · exact starve h 2 c fault c' hread

theorem u4 (h : kinds .truncated) : FailsOnly kinds u4 := by
  intro c fault c' hread
  simp only [Decoder.u4] at hread
  split at hread
  · cases hread
  · exact starve h 4 c fault c' hread

theorem take (h : kinds .truncated) (n : Nat) : FailsOnly kinds (take n) := by
  intro c fault c' hread
  simp only [Decoder.take] at hread
  split at hread
  · cases hread
  · exact starve h n c fault c' hread

end FailsOnly

end Decoder

end ClassFile

end MonitorCoverage
