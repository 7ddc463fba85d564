import MonitorCoverage.Text.Utf8

/-!
# Reading UTF-8

Scanning finds a character exactly where its encoding stands, so a byte string falls into pieces in
one way only: characters where encodings stand, and single bytes where none starts. What was encoded
is read back without loss.
-/

namespace MonitorCoverage

namespace Text

theorem toNat_charOfNat (code : Nat) (h : code.isValidChar) : (Char.ofNat code).toNat = code := by
  unfold Char.ofNat
  rw [dif_pos h]
  exact UInt32.toNat_ofNatLT

theorem isContinuation_iff {byte : UInt8} :
    isContinuation byte = true ↔ 128 ≤ byte.toNat ∧ byte.toNat < 192 := by
  simp [isContinuation, UInt8.lt_iff_toNat_lt, UInt8.le_iff_toNat_le]

/-! ## Encodings by their length -/

section Encodings

variable {c : Char}

theorem utf8EncodeChar_one (h : c.toNat < 128) : String.utf8EncodeChar c = [UInt8.ofNat c.toNat] :=
  if_pos (Nat.le_of_lt_succ h)

theorem utf8EncodeChar_two (hlow : 128 ≤ c.toNat) (hhigh : c.toNat < 2048) :
    String.utf8EncodeChar c =
      [UInt8.ofNat (c.toNat / 64 + 192), UInt8.ofNat (c.toNat % 64 + 128)] := by
  have hlead : c.toNat / 64 % 32 = c.toNat / 64 := by omega
  rw [← hlead]
  exact (if_neg (Nat.not_le.mpr hlow)).trans (if_pos (Nat.le_of_lt_succ hhigh))

theorem utf8EncodeChar_three (hlow : 2048 ≤ c.toNat) (hhigh : c.toNat < 65536) :
    String.utf8EncodeChar c =
      [UInt8.ofNat (c.toNat / 4096 + 224), UInt8.ofNat (c.toNat / 64 % 64 + 128),
        UInt8.ofNat (c.toNat % 64 + 128)] := by
  have hlead : c.toNat / 4096 % 16 = c.toNat / 4096 := by omega
  have hone : 128 ≤ c.toNat := by omega
  rw [← hlead]
  exact (if_neg (Nat.not_le.mpr hone)).trans ((if_neg (Nat.not_le.mpr hlow)).trans
    (if_pos (Nat.le_of_lt_succ hhigh)))

theorem utf8EncodeChar_four (hlow : 65536 ≤ c.toNat) (hhigh : c.toNat < 1114112) :
    String.utf8EncodeChar c =
      [UInt8.ofNat (c.toNat / 262144 + 240), UInt8.ofNat (c.toNat / 4096 % 64 + 128),
        UInt8.ofNat (c.toNat / 64 % 64 + 128), UInt8.ofNat (c.toNat % 64 + 128)] := by
  have hlead : c.toNat / 262144 % 8 = c.toNat / 262144 := by omega
  have hone : 128 ≤ c.toNat := by omega
  have htwo : 2048 ≤ c.toNat := by omega
  rw [← hlead]
  exact (if_neg (Nat.not_le.mpr hone)).trans ((if_neg (Nat.not_le.mpr htwo)).trans
    (if_neg (Nat.not_le.mpr hlow)))

end Encodings

theorem toNat_ofNat {n : Nat} (h : n < 256) : (UInt8.ofNat n).toNat = n :=
  UInt8.toNat_ofNat_of_lt' h

theorem eq_ofNat {byte : UInt8} {n : Nat} (h : byte.toNat = n) : byte = UInt8.ofNat n := by
  rw [← h, UInt8.ofNat_toNat]

/-! ## Scanning -/

section Scanning

variable {a b c d : UInt8} {rest : Bytes}

theorem scanChar?_one (ha : a.toNat < 128) :
    scanChar? (a :: rest) = some (Char.ofNat a.toNat, 1) := by
  simp [scanChar?, UInt8.lt_iff_toNat_lt, ha]

theorem scanChar?_two (hlow : 194 ≤ a.toNat) (hhigh : a.toNat < 224)
    (hb : isContinuation b = true) :
    scanChar? (a :: b :: rest) = some (Char.ofNat (a.toNat % 32 * 64 + payload b), 2) := by
  have hone : ¬ a.toNat < 128 := by omega
  have hlow : ¬ a.toNat < 194 := by omega
  simp [scanChar?, UInt8.lt_iff_toNat_lt, hone, hlow, hhigh, hb]

theorem scanChar?_three (code : Nat) (hlow : 224 ≤ a.toNat) (hhigh : a.toNat < 240)
    (hb : isContinuation b = true) (hc : isContinuation c = true)
    (hcode : code = (a.toNat % 16 * 64 + payload b) * 64 + payload c) (hleast : 2048 ≤ code)
    (hvalid : code.isValidChar) :
    scanChar? (a :: b :: c :: rest) = some (Char.ofNat code, 3) := by
  have hone : ¬ a.toNat < 128 := by omega
  have htwo : ¬ a.toNat < 194 := by omega
  have hlow : ¬ a.toNat < 224 := by omega
  have hsurrogate : code < 55296 ∨ 57344 ≤ code := by
    unfold Nat.isValidChar at hvalid
    omega
  simp [scanChar?, UInt8.lt_iff_toNat_lt, hone, htwo, hlow, hhigh, hb, hc, ← hcode, hleast,
    hsurrogate]

theorem scanChar?_four (code : Nat) (hlow : 240 ≤ a.toNat) (hhigh : a.toNat < 245)
    (hb : isContinuation b = true) (hc : isContinuation c = true) (hd : isContinuation d = true)
    (hcode : code = ((a.toNat % 8 * 64 + payload b) * 64 + payload c) * 64 + payload d)
    (hleast : 65536 ≤ code) (hmost : code < 1114112) :
    scanChar? (a :: b :: c :: d :: rest) = some (Char.ofNat code, 4) := by
  have hone : ¬ a.toNat < 128 := by omega
  have htwo : ¬ a.toNat < 194 := by omega
  have hthree : ¬ a.toNat < 224 := by omega
  have hlow : ¬ a.toNat < 240 := by omega
  simp [scanChar?, UInt8.lt_iff_toNat_lt, hone, htwo, hthree, hlow, hhigh, hb, hc, hd, ← hcode,
    hleast, hmost]

end Scanning

theorem isContinuation_next (n : Nat) : isContinuation (UInt8.ofNat (n % 64 + 128)) = true := by
  rw [isContinuation_iff, toNat_ofNat (by omega)]
  omega

theorem payload_next (n : Nat) : payload (UInt8.ofNat (n % 64 + 128)) = n % 64 := by
  rw [payload, toNat_ofNat (by omega)]
  omega

/-- A character is found at the front of its encoding, whatever follows. -/
theorem scanChar?_append (c : Char) (rest : Bytes) :
    scanChar? (String.utf8EncodeChar c ++ rest) = some (c, (String.utf8EncodeChar c).length) := by
  have hvalid : c.toNat.isValidChar := c.valid
  have hmost : c.toNat < 1114112 := by
    unfold Nat.isValidChar at hvalid
    omega
  have hback : Char.ofNat c.toNat = c := Char.ofNat_toNat c
  by_cases hone : c.toNat < 128
  · have hlead := toNat_ofNat (n := c.toNat) (by omega)
    rw [utf8EncodeChar_one hone, List.singleton_append, scanChar?_one (by omega), hlead, hback]
    rfl
  by_cases htwo : c.toNat < 2048
  · have hlead := toNat_ofNat (n := c.toNat / 64 + 192) (by omega)
    have hcode : (c.toNat / 64 + 192) % 32 * 64 + c.toNat % 64 = c.toNat := by omega
    rw [utf8EncodeChar_two (by omega) htwo]
    refine (scanChar?_two (by omega) (by omega) (isContinuation_next _)).trans ?_
    rw [hlead, payload_next, hcode, hback]
    rfl
  by_cases hthree : c.toNat < 65536
  · have hlead := toNat_ofNat (n := c.toNat / 4096 + 224) (by omega)
    rw [utf8EncodeChar_three (by omega) hthree]
    refine (scanChar?_three c.toNat (by omega) (by omega) (isContinuation_next _)
      (isContinuation_next _) ?_ (by omega) hvalid).trans ?_
    · rw [hlead, payload_next, payload_next]
      omega
    · rw [hback]
      rfl
  · have hlead := toNat_ofNat (n := c.toNat / 262144 + 240) (by omega)
    rw [utf8EncodeChar_four (by omega) hmost]
    refine (scanChar?_four c.toNat (by omega) (by omega) (isContinuation_next _)
      (isContinuation_next _) (isContinuation_next _) ?_ (by omega) hmost).trans ?_
    · rw [hlead, payload_next, payload_next, payload_next]
      omega
    · rw [hback]
      rfl

section Encoded

variable {a b c d : UInt8} {code : Nat}

theorem utf8EncodeChar_ofNat_one (ha : a.toNat < 128) :
    String.utf8EncodeChar (Char.ofNat a.toNat) = [a] := by
  have hcode := toNat_charOfNat a.toNat (.inl (by omega))
  rw [utf8EncodeChar_one (by omega), hcode, UInt8.ofNat_toNat]

theorem utf8EncodeChar_ofNat_two (hlow : 194 ≤ a.toNat) (hhigh : a.toNat < 224)
    (hb : isContinuation b = true) (hcode : code = a.toNat % 32 * 64 + payload b) :
    String.utf8EncodeChar (Char.ofNat code) = [a, b] := by
  rw [isContinuation_iff] at hb
  unfold payload at hcode
  have hchar := toNat_charOfNat code (.inl (by omega))
  have ha : a = UInt8.ofNat (code / 64 + 192) := eq_ofNat (by omega)
  have hb : b = UInt8.ofNat (code % 64 + 128) := eq_ofNat (by omega)
  rw [utf8EncodeChar_two (by omega) (by omega), hchar, ← ha, ← hb]

theorem utf8EncodeChar_ofNat_three (hlow : 224 ≤ a.toNat) (hhigh : a.toNat < 240)
    (hb : isContinuation b = true) (hc : isContinuation c = true)
    (hcode : code = (a.toNat % 16 * 64 + payload b) * 64 + payload c) (hleast : 2048 ≤ code)
    (hvalid : code.isValidChar) : String.utf8EncodeChar (Char.ofNat code) = [a, b, c] := by
  rw [isContinuation_iff] at hb hc
  unfold payload at hcode
  have hchar := toNat_charOfNat code hvalid
  have ha : a = UInt8.ofNat (code / 4096 + 224) := eq_ofNat (by omega)
  have hb : b = UInt8.ofNat (code / 64 % 64 + 128) := eq_ofNat (by omega)
  have hc : c = UInt8.ofNat (code % 64 + 128) := eq_ofNat (by omega)
  rw [utf8EncodeChar_three (by omega) (by omega), hchar, ← ha, ← hb, ← hc]

theorem utf8EncodeChar_ofNat_four (hlow : 240 ≤ a.toNat) (hhigh : a.toNat < 245)
    (hb : isContinuation b = true) (hc : isContinuation c = true) (hd : isContinuation d = true)
    (hcode : code = ((a.toNat % 8 * 64 + payload b) * 64 + payload c) * 64 + payload d)
    (hleast : 65536 ≤ code) (hmost : code < 1114112) :
    String.utf8EncodeChar (Char.ofNat code) = [a, b, c, d] := by
  rw [isContinuation_iff] at hb hc hd
  unfold payload at hcode
  have hchar := toNat_charOfNat code (.inr (by omega))
  have ha : a = UInt8.ofNat (code / 262144 + 240) := eq_ofNat (by omega)
  have hb : b = UInt8.ofNat (code / 4096 % 64 + 128) := eq_ofNat (by omega)
  have hc : c = UInt8.ofNat (code / 64 % 64 + 128) := eq_ofNat (by omega)
  have hd : d = UInt8.ofNat (code % 64 + 128) := eq_ofNat (by omega)
  rw [utf8EncodeChar_four (by omega) (by omega), hchar, ← ha, ← hb, ← hc, ← hd]

end Encoded

/-- What is found is the character whose encoding stands at the front. -/
theorem exists_of_scanChar? {bytes : Bytes} {c : Char} {width : Nat} :
    scanChar? bytes = some (c, width) →
    ∃ rest, bytes = String.utf8EncodeChar c ++ rest ∧ width = (String.utf8EncodeChar c).length := by
  fun_cases scanChar? bytes with
  | case2 a rest hone =>
    rintro ⟨⟩
    have ha : a.toNat < 128 := UInt8.lt_iff_toNat_lt.mp hone
    rw [utf8EncodeChar_ofNat_one ha]
    exact ⟨rest, rfl, rfl⟩
  | case4 a _ hlow hhigh b rest hb =>
    rintro ⟨⟩
    have hlow : 194 ≤ a.toNat := UInt8.le_iff_toNat_le.mp (UInt8.not_lt.mp hlow)
    have hhigh : a.toNat < 224 := UInt8.lt_iff_toNat_lt.mp hhigh
    rw [utf8EncodeChar_ofNat_two hlow hhigh hb rfl]
    exact ⟨rest, rfl, rfl⟩
  | case7 a _ _ hlow hhigh b c rest code hall =>
    rintro ⟨⟩
    have hlow : 224 ≤ a.toNat := UInt8.le_iff_toNat_le.mp (UInt8.not_lt.mp hlow)
    have hhigh : a.toNat < 240 := UInt8.lt_iff_toNat_lt.mp hhigh
    simp only [Bool.and_eq_true, Bool.not_eq_true', Bool.and_eq_false_iff, decide_eq_true_eq,
      decide_eq_false_iff_not] at hall
    obtain ⟨⟨⟨hb, hc⟩, hleast⟩, hsurrogate⟩ := hall
    have hmost : code < 65536 := by
      unfold code payload
      omega
    have hvalid : code.isValidChar := by
      unfold Nat.isValidChar
      omega
    rw [utf8EncodeChar_ofNat_three hlow hhigh hb hc rfl hleast hvalid]
    exact ⟨rest, rfl, rfl⟩
  | case10 a _ _ _ hlow hhigh b c d rest code hall =>
    rintro ⟨⟩
    have hlow : 240 ≤ a.toNat := UInt8.le_iff_toNat_le.mp (UInt8.not_lt.mp hlow)
    have hhigh : a.toNat < 245 := UInt8.lt_iff_toNat_lt.mp hhigh
    simp only [Bool.and_eq_true, decide_eq_true_eq] at hall
    obtain ⟨⟨⟨⟨hb, hc⟩, hd⟩, hleast⟩, hmost⟩ := hall
    rw [utf8EncodeChar_ofNat_four hlow hhigh hb hc hd rfl hleast hmost]
    exact ⟨rest, rfl, rfl⟩
  | case1 | case3 | case5 | case6 | case8 | case9 | case11 | case12 | case13 => rintro ⟨⟩

/-! ## Pieces -/

/-- A byte string falls into pieces from the front. Where the encoding of a character stands, the
character is the next piece; a byte at which no encoding starts is a piece of its own. -/
inductive SplitsInto : Bytes → List Piece → Prop where
  | nil : SplitsInto [] []
  | char (c : Char) {bytes : Bytes} {pieces : List Piece} (h : SplitsInto bytes pieces) :
    SplitsInto (String.utf8EncodeChar c ++ bytes) (.char c :: pieces)
  | stray (byte : UInt8) {bytes : Bytes} {pieces : List Piece}
    (hstray : ∀ c, ¬ String.utf8EncodeChar c <+: byte :: bytes) (h : SplitsInto bytes pieces) :
    SplitsInto (byte :: bytes) (.stray byte :: pieces)

theorem exists_cons_utf8EncodeChar (c : Char) :
    ∃ first more, String.utf8EncodeChar c = first :: more := by
  apply List.exists_cons_of_length_pos
  rw [String.length_utf8EncodeChar]
  exact c.utf8Size_pos

theorem scanChar?_eq_none_iff {bytes : Bytes} :
    scanChar? bytes = none ↔ ∀ c, ¬ String.utf8EncodeChar c <+: bytes := by
  constructor
  · rintro hnone c ⟨rest, rfl⟩
    rw [scanChar?_append] at hnone
    cases hnone
  · intro hstray
    cases hscan : scanChar? bytes with
    | none => rfl
    | some found =>
      obtain ⟨c, width⟩ := found
      obtain ⟨rest, hbytes, -⟩ := exists_of_scanChar? hscan
      exact absurd ⟨rest, hbytes.symm⟩ (hstray c)

/-- With a step for each byte, the pieces found are those that the byte string falls into. -/
theorem SplitsInto.piecesOnto_eq {bytes : Bytes} {pieces : List Piece}
    (h : SplitsInto bytes pieces) {fuel : Nat} (hfuel : bytes.length ≤ fuel) (found : List Piece) :
    piecesOnto fuel bytes found = found.reverse ++ pieces := by
  induction h generalizing fuel found with
  | nil => simp [piecesOnto]
  | @char c bytes pieces _ ih =>
    obtain ⟨first, more, heq⟩ := exists_cons_utf8EncodeChar c
    have hscan := scanChar?_append c bytes
    rw [heq, List.cons_append] at hscan hfuel ⊢
    obtain ⟨fuel, rfl⟩ : ∃ k, fuel = k + 1 := Nat.exists_eq_add_one.mpr (by simp at hfuel; omega)
    have hdrop : (more ++ bytes).drop ((first :: more).length - 1) = bytes := by simp
    simp only [piecesOnto, hscan, hdrop]
    rw [ih (by simp at hfuel; omega), List.reverse_cons, List.append_assoc]
    rfl
  | @stray byte bytes pieces hstray _ ih =>
    obtain ⟨fuel, rfl⟩ : ∃ k, fuel = k + 1 := Nat.exists_eq_add_one.mpr (by simp at hfuel; omega)
    simp only [piecesOnto, scanChar?_eq_none_iff.mpr hstray]
    rw [ih (by simp at hfuel; omega), List.reverse_cons, List.append_assoc]
    rfl

theorem exists_splitsInto (bytes : Bytes) : ∃ pieces, SplitsInto bytes pieces := by
  cases hscan : scanChar? bytes with
  | some found =>
    obtain ⟨c, width⟩ := found
    obtain ⟨rest, hbytes, -⟩ := exists_of_scanChar? hscan
    obtain ⟨first, more, heq⟩ := exists_cons_utf8EncodeChar c
    have hshorter : rest.length < bytes.length := by
      rw [hbytes, heq, List.length_append, List.length_cons]
      omega
    obtain ⟨pieces, hrest⟩ := exists_splitsInto rest
    exact ⟨.char c :: pieces, hbytes ▸ hrest.char c⟩
  | none =>
    cases bytes with
    | nil => exact ⟨[], .nil⟩
    | cons byte rest =>
      obtain ⟨pieces, hrest⟩ := exists_splitsInto rest
      exact ⟨.stray byte :: pieces, hrest.stray byte (scanChar?_eq_none_iff.mp hscan)⟩
termination_by bytes.length

theorem splitsInto_iff {bytes : Bytes} {found : List Piece} :
    SplitsInto bytes found ↔ pieces bytes = found := by
  constructor
  · intro h
    exact h.piecesOnto_eq (Nat.le_refl _) []
  · rintro rfl
    obtain ⟨found, h⟩ := exists_splitsInto bytes
    have heq : pieces bytes = found := h.piecesOnto_eq (Nat.le_refl _) []
    rwa [heq]

/-! ## Encoded texts -/

theorem splitsInto_encode (chars : List Char) : SplitsInto (encode chars) (chars.map .char) := by
  induction chars with
  | nil => exact .nil
  | cons c chars ih => exact ih.char c

/-- What was encoded is read back, without a stray byte. -/
theorem lossyChars_encode (chars : List Char) : lossyChars (encode chars) = chars := by
  rw [lossyChars, splitsInto_iff.mp (splitsInto_encode chars), List.map_map]
  exact List.map_id chars

theorem encode_append (a b : List Char) : encode (a ++ b) = encode a ++ encode b :=
  List.flatMap_append

end Text

theorem utf8_ofList (chars : List Char) : utf8 (String.ofList chars) = Text.encode chars := by
  rw [utf8, String.toUTF8_eq_toByteArray, String.toByteArray_ofList, List.utf8Encode]
  simp [Text.encode]

end MonitorCoverage
