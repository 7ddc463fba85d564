import MonitorCoverage.Lz4.Frame

/-!
# Output only grows

A block is expanded by writing at the end of the output, one byte after the other. So what was
written before a block is the beginning of what stands there after it, and bytes that a stream has
delivered are not taken back, whatever the stream goes on with.
-/

namespace MonitorCoverage.Lz4

/-- An output that begins with an earlier one. -/
def Extends (later earlier : ByteArray) : Prop := earlier.data.toList <+: later.data.toList

namespace Extends

theorem refl (output : ByteArray) : Extends output output := List.prefix_rfl

theorem trans {a b c : ByteArray} (h : Extends a b) (h' : Extends b c) : Extends a c :=
  List.IsPrefix.trans h' h

theorem push (output : ByteArray) (byte : UInt8) : Extends (output.push byte) output :=
  ⟨[byte], Array.toList_push.symm⟩

theorem foldl_push (block : Bytes) (output : ByteArray) :
    Extends (block.foldl ByteArray.push output) output := by
  induction block generalizing output with
  | nil => exact refl output
  | cons byte block ih => exact (ih (output.push byte)).trans (push output byte)

theorem moveLiterals {count : Nat} {data rest : Bytes} {output moved : ByteArray}
    (h : Lz4.moveLiterals count data output = some (rest, moved)) : Extends moved output := by
  induction count generalizing data output with
  | zero =>
    cases h
    exact refl _
  | succ count ih =>
    cases data with
    | nil => cases h
    | cons byte data => exact (ih h).trans (push output byte)

theorem copyBack (distance count : Nat) (output : ByteArray) :
    Extends (Lz4.copyBack distance count output) output := by
  induction count generalizing output with
  | zero => exact refl output
  | succ count ih => exact (ih _).trans (push output _)

theorem runSteps {floor ceiling fuel : Nat} {data : Bytes} {output expanded : ByteArray}
    (h : Lz4.runSteps floor ceiling fuel data output = some expanded) :
    Extends expanded output := by
  induction fuel generalizing data output with
  | zero => cases h
  | succ fuel ih =>
    cases data with
    | nil =>
      cases h
      exact refl _
    | cons token data =>
      simp only [Lz4.runSteps] at h
      split at h
      · cases h
      split at h
      · cases h
      split at h
      · cases h
      · rename_i hmoved
        split at h
        · cases h
          exact moveLiterals hmoved
        · cases h
      · cases h
      · rename_i hmoved
        split at h
        · cases h
        split at h
        · cases h
        · exact (ih h).trans ((copyBack _ _ _).trans (moveLiterals hmoved))

theorem addBlock {header : Header} {size : UInt32} {block : Bytes} {content more : ByteArray}
    (h : Lz4.addBlock header size block content = some more) : Extends more content := by
  unfold Lz4.addBlock at h
  split at h
  · exact runSteps h
  · cases h
    exact foldl_push block content

theorem size_le {later earlier : ByteArray} (h : Extends later earlier) :
    earlier.size ≤ later.size :=
  h.length_le

/-- The bytes at the beginning of an output stay the same. -/
theorem take_eq {later earlier : ByteArray} (h : Extends later earlier) {n : Nat}
    (hn : n ≤ earlier.size) : later.data.toList.take n = earlier.data.toList.take n := by
  obtain ⟨more, hmore⟩ := h
  rw [← hmore, List.take_append_of_le_length hn]

end Extends

end MonitorCoverage.Lz4
