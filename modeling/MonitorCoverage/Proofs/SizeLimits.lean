import MonitorCoverage.Proofs.WholeInput

/-!
# Limits of sizes are exact

A limit is kept by asking for one byte more than it allows. Where that number can be formed, data
is refused for its size exactly if it is longer than the limit, stored or expanded, and whatever is
accepted is complete. The greatest limit cannot be raised by one: under it nothing is asked for, and
all data seems to be empty. Under a limit that is not positive nothing is accepted. All this holds
for every reader of frames that delivers streams.
-/

namespace MonitorCoverage.Input

variable {frames : FrameReader} {streamOf : Bytes → ByteStream} {limit : Int64}
  {source : ByteStream} {stored : Bytes}

theorem isUsable_of_ne_maxValue (hpos : 1 ≤ limit.toInt) (hmax : limit ≠ Int64.maxValue) :
    IsUsable limit := by
  have hle := limit.toInt_le
  have hne : limit.toInt ≠ Int64.maxValue.toInt := fun h => hmax (Int64.toInt_inj.mp h)
  have hvalue : Int64.maxValue.toInt = 9223372036854775807 := by decide
  exact ⟨by omega, by omega⟩

/-- Reading nothing finds nothing, whether or not there is something stored. -/
theorem readFrom_of_askedFor_eq_zero (hasked : askedFor limit = 0) (hlimit : 0 ≤ limit.toInt) :
    readFrom frames limit source = .error .empty := by
  have hfront : source.first (askedFor limit) = .ok [] := by
    rw [hasked]
    exact if_pos (Nat.zero_le _)
  have hraw : withinLimit limit .tooLarge [] = .ok [] := if_neg (by simpa using hlimit)
  rw [readFrom, hfront]
  simp only [Except.mapError, Bind.bind, Except.bind, hraw]
  rfl

theorem readFrom_maxValue : readFrom frames Int64.maxValue source = .error .empty :=
  readFrom_of_askedFor_eq_zero (by decide) (by decide)

theorem withinLimit_eq_ok_iff {excess : UInt64 → ReadFault} {raw data : Bytes} :
    withinLimit limit excess raw = .ok data ↔ data = raw ∧ (raw.length : Int) ≤ limit.toInt := by
  unfold withinLimit
  split
  · split <;> simp <;> omega
  · simp only [Except.ok.injEq, eq_comm, iff_self_and]
    omega

/-- Only a limit that is positive and can be raised by one lets anything pass. -/
theorem isUsable_of_readFrom_eq_ok {input : Input} (h : readFrom frames limit source = .ok input) :
    IsUsable limit := by
  obtain ⟨front, -, hread⟩ := Outcome.bind_eq_ok_iff.mp h
  obtain ⟨raw, hraw, hdata⟩ := Outcome.bind_eq_ok_iff.mp hread
  obtain ⟨rfl, hle⟩ := withinLimit_eq_ok_iff.mp hraw
  have hne : raw ≠ [] := by
    rintro rfl
    cases hdata
  have hlength := List.length_pos_iff.mpr hne
  refine isUsable_of_ne_maxValue (by omega) ?_
  rintro rfl
  rw [readFrom_maxValue] at h
  cases h

/-- What is accepted under a limit is accepted under a greater one, with the same result. -/
theorem readFrom_mono {smaller : Int64} {input : Input} (hdelivers : frames.Delivers streamOf)
    (hlimit : IsUsable limit) (hle : smaller ≤ limit)
    (h : readFrom frames smaller source = .ok input) :
    readFrom frames limit source = .ok input := by
  have hwithin := readFrom_eq_ok hdelivers (isUsable_of_readFrom_eq_ok h) h
  have hdata := hwithin.data_le
  have hstored := hwithin.stored_le
  rw [hwithin.data_eq] at hdata
  rw [Int64.le_iff_toInt_le] at hle
  rw [readFrom_eq hdelivers (isUsable_of_readFrom_eq_ok h), if_neg (by omega)] at h
  rw [readFrom_eq hdelivers hlimit, if_neg (by omega)]
  simp only [hwithin.stored_intact] at h ⊢
  rw [if_neg (by omega)] at h ⊢
  exact h

theorem read_eq_of_plain (hlimit : IsUsable limit) (hplain : ¬Lz4.magic <+: stored) :
    read limit stored =
      if limit.toInt < stored.length then .error (.tooLarge limit.toUInt64)
      else if stored.length = 0 then .error .empty
      else .ok ⟨[], stored, stored.length, false⟩ := by
  have hframe : Lz4.magic.isPrefixOf stored = false := by
    rwa [← List.isPrefixOf_iff_prefix, Bool.not_eq_true] at hplain
  rw [read, readFrom_eq lz4Frames_delivers hlimit]
  split
  · rfl
  · rename_i hle
    simp [classStream_of_plain hframe, hframe, hle]

theorem read_ne_limitOutOfRange (hlimit : 1 ≤ limit.toInt) (cause : RangeError) :
    read limit stored ≠ .error (.limitOutOfRange cause) := by
  by_cases hmax : limit = Int64.maxValue
  · rw [hmax, read, readFrom_maxValue]
    nofun
  · intro h
    exact readFrom_eq_error lz4Frames_delivers (isUsable_of_ne_maxValue hlimit hmax) h

/-- Under a positive limit that can be raised by one, plain data is accepted as it is if there is
some and not more than the limit allows, is refused as empty if there is none, and is refused as too
large if there is more; a greater such limit accepts no less. Under the greatest limit all plain
data is refused as empty. The limit itself is never found fault with. -/
theorem read_plain_exact (limit : Int64) (stored : Bytes) (hlimit : 1 ≤ limit.toInt)
    (hplain : ¬Lz4.magic <+: stored) :
    (limit ≠ Int64.maxValue →
      (read limit stored = .ok ⟨[], stored, stored.length, false⟩ ↔
        1 ≤ stored.length ∧ (stored.length : Int) ≤ limit.toInt) ∧
      (read limit stored = .error .empty ↔ stored = []) ∧
      (read limit stored = .error (.tooLarge limit.toUInt64) ↔ limit.toInt < stored.length) ∧
      ∀ smaller input, smaller ≤ limit → read smaller stored = .ok input →
        read limit stored = .ok input) ∧
    (limit = Int64.maxValue → read limit stored = .error .empty) ∧
    ∀ cause, read limit stored ≠ .error (.limitOutOfRange cause) := by
  refine ⟨fun hmax => ?_, fun hmax => hmax ▸ readFrom_maxValue, read_ne_limitOutOfRange hlimit⟩
  have husable := isUsable_of_ne_maxValue hlimit hmax
  have hread := read_eq_of_plain husable hplain
  rw [hread, ← List.length_eq_zero_iff]
  refine ⟨?_, ?_, ?_, fun smaller input hle h =>
    hread ▸ readFrom_mono lz4Frames_delivers husable hle h⟩
  · split_ifs <;> simp <;> omega
  · split_ifs <;> simp [-List.length_eq_zero_iff] <;> omega
  · split_ifs <;> simp <;> omega

/-- Where the limit cannot be raised by one, data well within it is refused. -/
theorem read_plain_fails_at_maxValue :
    ¬∀ (limit : Int64) (stored : Bytes), 1 ≤ limit.toInt → ¬Lz4.magic <+: stored →
      1 ≤ stored.length → (stored.length : Int) ≤ limit.toInt →
        read limit stored = .ok ⟨[], stored, stored.length, false⟩ := by
  intro h
  have hread := h Int64.maxValue [0] (by decide) (by decide) (by decide) (by decide)
  rw [read, readFrom_maxValue] at hread
  cases hread

theorem read_plain_exact_twoBytes :
    read 2 [0xCA, 0xFE] = .ok ⟨[], [0xCA, 0xFE], 2, false⟩ ∧
    read 2 [0xCA, 0xFE, 0xBA] = .error (.tooLarge 2) ∧
    read 3 [0xCA, 0xFE] = .ok ⟨[], [0xCA, 0xFE], 2, false⟩ ∧
    read Int64.maxValue [0xCA, 0xFE] = .error .empty := by
  obtain ⟨haccepted, -, -, -⟩ :=
    (read_plain_exact 2 [0xCA, 0xFE] (by decide) (by decide)).1 (by decide)
  obtain ⟨-, -, hrefused, -⟩ :=
    (read_plain_exact 2 [0xCA, 0xFE, 0xBA] (by decide) (by decide)).1 (by decide)
  obtain ⟨-, -, -, hmono⟩ :=
    (read_plain_exact 3 [0xCA, 0xFE] (by decide) (by decide)).1 (by decide)
  have htwo := haccepted.mpr (by decide)
  exact ⟨htwo, hrefused.mpr (by decide), hmono 2 _ (by decide) htwo,
    (read_plain_exact Int64.maxValue [0xCA, 0xFE] (by decide) (by decide)).2.1 rfl⟩

/-- Whatever is read with a reader of frames that delivers streams is complete and within the limit.
Nothing was cut off from what is stored by a fault. It is compressed exactly if it starts as a frame
does; then it is all of the stream of the frame, which has no fault. Under a positive limit that can
be raised by one, what is longer than the limit is refused for its size, whether it is stored or
comes in the stream before its end or its fault. -/
theorem readFrom_complete (hdelivers : frames.Delivers streamOf) (limit : Int64)
    (source : ByteStream) :
    (∀ input, readFrom frames limit source = .ok input →
      source.fault? = none ∧
      1 ≤ input.data.length ∧ (input.data.length : Int) ≤ limit.toInt ∧
      (source.content.length : Int) ≤ limit.toInt ∧
      (input.isCompressed = true ↔ Lz4.magic <+: source.content) ∧
      (input.isCompressed = false → input.data = source.content) ∧
      (input.isCompressed = true →
        (streamOf source.content).fault? = none ∧
        input.data = (streamOf source.content).content)) ∧
    (1 ≤ limit.toInt → limit ≠ Int64.maxValue →
      (limit.toInt < source.content.length →
        readFrom frames limit source = .error (.tooLarge limit.toUInt64)) ∧
      (Lz4.magic <+: source.content → source.fault? = none →
        (source.content.length : Int) ≤ limit.toInt →
        limit.toInt < (streamOf source.content).content.length →
        readFrom frames limit source = .error (.expandsTooLarge limit.toUInt64))) := by
  constructor
  · intro input h
    obtain ⟨hintact, hend, hdata, hne, hcompressed, hstored, hle⟩ :=
      readFrom_eq_ok hdelivers (isUsable_of_readFrom_eq_ok h) h
    refine ⟨hintact, List.length_pos_iff.mpr hne, hle, hstored, ?_, fun hplain => ?_,
      fun hframe => ?_⟩
    · rw [hcompressed, List.isPrefixOf_iff_prefix]
    · rw [hdata, classStream_of_plain (hcompressed ▸ hplain)]
    · rw [classStream_of_frame (hcompressed ▸ hframe)] at hend hdata
      exact ⟨hend, hdata⟩
  · intro hpos hmax
    have hread := readFrom_eq hdelivers (isUsable_of_ne_maxValue hpos hmax) source
    refine ⟨fun hlarge => by rw [hread, if_pos hlarge], fun hframe hintact hstored hlarge => ?_⟩
    rw [hread, if_neg (Int.not_lt.mpr hstored)]
    simp only [hintact, classStream_of_frame (List.isPrefixOf_iff_prefix.mpr hframe), if_pos hlarge]

/-- Whatever is read is complete and within the limit. It is compressed exactly if it starts as a
frame does; then it is all that the stream of the frame delivers, and the stream ends without a
fault. Under a positive limit that can be raised by one, what is longer than the limit is refused
for its size, whether it is stored or delivered by the stream before it ends or fails. -/
theorem read_complete (limit : Int64) (stored : Bytes) :
    (∀ input, read limit stored = .ok input →
      1 ≤ input.data.length ∧ (input.data.length : Int) ≤ limit.toInt ∧
      (stored.length : Int) ≤ limit.toInt ∧
      (input.isCompressed = true ↔ Lz4.magic <+: stored) ∧
      (input.isCompressed = false → input.data = stored) ∧
      (input.isCompressed = true →
        (Lz4.deliver (fun _ => false) stored).ending = .complete ∧
        input.data = (Lz4.deliver (fun _ => false) stored).content.data.toList)) ∧
    (1 ≤ limit.toInt → limit ≠ Int64.maxValue →
      (limit.toInt < stored.length → read limit stored = .error (.tooLarge limit.toUInt64)) ∧
      (Lz4.magic <+: stored → (stored.length : Int) ≤ limit.toInt →
        limit.toInt < (Lz4.deliver (fun _ => false) stored).content.size →
        read limit stored = .error (.expandsTooLarge limit.toUInt64))) := by
  obtain ⟨hok, herror⟩ :=
    readFrom_complete lz4Frames_delivers limit { content := stored, fault? := none }
  constructor
  · intro input h
    obtain ⟨-, hne, hdata, hstored, hcompressed, hplain, hframe⟩ := hok input h
    refine ⟨hne, hdata, hstored, hcompressed, hplain, fun h => ?_⟩
    obtain ⟨hend, hall⟩ := hframe h
    exact ⟨Lz4.fault?_streamOf_eq_none_iff.mp hend, hall⟩
  · intro hpos hmax
    obtain ⟨hlarge, hexpands⟩ := herror hpos hmax
    refine ⟨hlarge, fun hframe hstored hcontent => hexpands hframe rfl hstored ?_⟩
    rw [Lz4.length_streamOf]
    exact hcontent

/-- A frame whose first block expands to 53 bytes. -/
def denseFrame (rest : Bytes) : Bytes :=
  Lz4.magic ++ [0x60, 0x40, 0x82, 7, 0, 0, 0, 0x1F, 0x41, 0x01, 0x00, 0x20, 0x10, 0x42] ++ rest

/-- A frame that ends after the block, and one that goes on with a block that is none. -/
theorem read_complete_denseFrame :
    (∃ input, read 53 (denseFrame [0, 0, 0, 0]) = .ok input ∧ input.isCompressed = true ∧
      input.data = (Lz4.deliver (fun _ => false) (denseFrame [0, 0, 0, 0])).content.data.toList) ∧
    read 52 (denseFrame [0, 0, 0, 0]) = .error (.expandsTooLarge 52) ∧
    read 53 (denseFrame [1, 0, 0, 0, 0xFF]) = .error .malformedFrame ∧
    read 52 (denseFrame [1, 0, 0, 0, 0xFF]) = .error (.expandsTooLarge 52) ∧
    read 22 (denseFrame [1, 0, 0, 0, 0xFF]) = .error (.tooLarge 22) := by
  refine ⟨?_, ?_, by decide +kernel, ?_, ?_⟩
  · have hread : read 53 (denseFrame [0, 0, 0, 0]) =
        .ok ⟨[], List.replicate 52 0x41 ++ [0x42], 22, true⟩ := by decide +kernel
    obtain ⟨-, -, -, -, -, hframe⟩ := (read_complete 53 (denseFrame [0, 0, 0, 0])).1 _ hread
    exact ⟨_, hread, rfl, (hframe rfl).2⟩
  · exact ((read_complete 52 (denseFrame [0, 0, 0, 0])).2 (by decide) (by decide)).2 (by decide)
      (by decide) (by decide +kernel)
  · exact ((read_complete 52 (denseFrame [1, 0, 0, 0, 0xFF])).2 (by decide) (by decide)).2
      (by decide) (by decide) (by decide +kernel)
  · exact ((read_complete 22 (denseFrame [1, 0, 0, 0, 0xFF])).2 (by decide) (by decide)).1
      (by decide)

end MonitorCoverage.Input
