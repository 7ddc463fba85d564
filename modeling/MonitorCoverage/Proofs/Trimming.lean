import Mathlib.Data.List.TakeWhile
import MonitorCoverage.Proofs.Utf8Reading
import MonitorCoverage.Text.Blank

/-!
# Texts without blanks around them

Pieces of byte strings are found one after the other, so what follows a byte string may change its
last pieces, but only by continuing an encoding: a text that starts with another byte leaves them as
they are. Blanks start in this way, and so does every character. Therefore blanks in front of a byte
string and behind it are trimmed off whatever bytes it has, and nothing else is.
-/

namespace MonitorCoverage.Text

/-! ## The bytes of encodings -/

/-- The encoding of an ASCII character is one byte. Any other has a lead byte, which continues
nothing, and continuation bytes behind it. -/
theorem utf8EncodeChar_cases (c : Char) :
    c.toNat < 128 ∧ String.utf8EncodeChar c = [UInt8.ofNat c.toNat] ∨
    ∃ lead more, String.utf8EncodeChar c = lead :: more ∧ 192 ≤ lead.toNat ∧
      ∀ byte ∈ more, isContinuation byte = true := by
  have hmost : c.toNat < 1114112 := by
    have hvalid : c.toNat.isValidChar := c.valid
    unfold Nat.isValidChar at hvalid
    omega
  by_cases hone : c.toNat < 128
  · exact .inl ⟨hone, utf8EncodeChar_one hone⟩
  right
  by_cases htwo : c.toNat < 2048
  · have hlead := toNat_ofNat (n := c.toNat / 64 + 192) (by omega)
    refine ⟨_, _, utf8EncodeChar_two (by omega) htwo, by omega, ?_⟩
    simp only [List.forall_mem_cons, isContinuation_next, true_and]
    simp
  by_cases hthree : c.toNat < 65536
  · have hlead := toNat_ofNat (n := c.toNat / 4096 + 224) (by omega)
    refine ⟨_, _, utf8EncodeChar_three (by omega) hthree, by omega, ?_⟩
    simp only [List.forall_mem_cons, isContinuation_next, true_and]
    simp
  · have hlead := toNat_ofNat (n := c.toNat / 262144 + 240) (by omega)
    refine ⟨_, _, utf8EncodeChar_four (by omega) hmost, by omega, ?_⟩
    simp only [List.forall_mem_cons, isContinuation_next, true_and]
    simp

/-- An ASCII byte stands in no encoding but that of its own character. -/
theorem eq_of_mem_utf8EncodeChar {c : Char} {byte : UInt8} (hmem : byte ∈ String.utf8EncodeChar c)
    (hascii : byte.toNat < 128) : c = Char.ofNat byte.toNat := by
  obtain ⟨hlt, heq⟩ | ⟨lead, more, heq, hlead, hmore⟩ := utf8EncodeChar_cases c
  · rw [heq] at hmem
    rw [List.mem_singleton.mp hmem, toNat_ofNat (by omega), Char.ofNat_toNat]
  · exfalso
    rw [heq, List.mem_cons] at hmem
    obtain rfl | hmem := hmem
    · omega
    · have hnext := isContinuation_iff.mp (hmore byte hmem)
      omega

/-- The bytes behind the first one of an encoding continue it. -/
theorem isContinuation_of_encoding {c : Char} {first byte : UInt8} {front rest : Bytes}
    (h : String.utf8EncodeChar c = first :: (front ++ byte :: rest)) :
    isContinuation byte = true := by
  obtain ⟨-, heq⟩ | ⟨lead, more, heq, -, hmore⟩ := utf8EncodeChar_cases c
  · rw [h] at heq
    simp at heq
  · rw [heq, List.cons_eq_cons] at h
    apply hmore
    rw [h.2]
    simp

/-! ## Pieces of parts -/

/-- Nothing, or a text whose first byte continues no encoding. -/
def StartsAnew (bytes : Bytes) : Prop := ∀ byte ∈ bytes.head?, isContinuation byte = false

theorem startsAnew_nil : StartsAnew [] := by simp [StartsAnew]

theorem startsAnew_utf8EncodeChar (c : Char) (rest : Bytes) :
    StartsAnew (String.utf8EncodeChar c ++ rest) := by
  have hbyte (byte : UInt8) (h : byte.toNat < 128 ∨ 192 ≤ byte.toNat) :
      isContinuation byte = false := by
    rw [← Bool.not_eq_true, isContinuation_iff]
    omega
  obtain ⟨hlt, heq⟩ | ⟨lead, more, heq, hlead, -⟩ := utf8EncodeChar_cases c
  · have hascii := toNat_ofNat (n := c.toNat) (by omega)
    have hfirst := hbyte (UInt8.ofNat c.toNat) (by omega)
    simpa [StartsAnew, heq] using hfirst
  · simpa [StartsAnew, heq] using hbyte lead (.inr hlead)

theorem startsAnew_encode (chars : List Char) {rest : Bytes} (h : StartsAnew rest) :
    StartsAnew (encode chars ++ rest) := by
  cases chars with
  | nil => exact h
  | cons c chars =>
    have hfirst := startsAnew_utf8EncodeChar c (encode chars ++ rest)
    simpa [encode] using hfirst

theorem ofPieces_append (p q : List Piece) : ofPieces (p ++ q) = ofPieces p ++ ofPieces q :=
  List.flatMap_append

namespace SplitsInto

variable {a b bytes : Bytes} {p q : List Piece}

/-- The pieces of a text are not changed by another one that starts anew. -/
theorem append (ha : SplitsInto a p) (hb : SplitsInto b q) (hstart : StartsAnew b) :
    SplitsInto (a ++ b) (p ++ q) := by
  induction ha with
  | nil => exact hb
  | char c _ ih =>
    rw [List.append_assoc]
    exact ih.char c
  | @stray byte bytes pieces hstray _ ih =>
    refine ih.stray byte ?_
    intro c hprefix
    -- An encoding that the byte does not start in its own text would have to reach into the other.
    obtain hshort | ⟨reach, hreach⟩ :=
      List.prefix_or_prefix_of_prefix hprefix (List.prefix_append (byte :: bytes) b)
    · exact hstray c hshort
    cases reach with
    | nil =>
      rw [List.append_nil] at hreach
      exact hstray c (hreach ▸ List.prefix_refl _)
    | cons first more =>
      have hcontinues := isContinuation_of_encoding hreach.symm
      have hfirst : first :: more <+: b := by
        rw [← hreach, List.cons_append, List.cons_prefix_cons] at hprefix
        exact (List.prefix_append_right_inj bytes).mp hprefix.2
      obtain ⟨rest, rfl⟩ := hfirst
      have hanew := hstart first (by simp)
      rw [hcontinues] at hanew
      cases hanew

theorem ofPieces_eq (h : SplitsInto bytes p) : ofPieces p = bytes := by
  induction h with
  | nil => rfl
  | char c _ ih => rw [ofPieces, List.flatMap_cons, ← ofPieces, ih, Piece.bytes]
  | stray byte _ _ ih =>
    rw [ofPieces, List.flatMap_cons, ← ofPieces, ih, Piece.bytes, List.singleton_append]

/-- Some of the first pieces, and the pieces behind them, are those of their own bytes. -/
theorem of_append (h : SplitsInto bytes (p ++ q)) :
    SplitsInto (ofPieces p) p ∧ SplitsInto (ofPieces q) q := by
  induction p generalizing bytes with
  | nil => exact ⟨.nil, h.ofPieces_eq ▸ h⟩
  | cons piece p ih =>
    cases h with
    | char c h =>
      obtain ⟨hp, hq⟩ := ih h
      exact ⟨hp.char c, hq⟩
    | @stray byte bytes _ hstray h =>
      obtain ⟨hp, hq⟩ := ih h
      have hbytes : ofPieces p ++ ofPieces q = bytes :=
        (ofPieces_append p q).symm.trans h.ofPieces_eq
      refine ⟨hp.stray byte fun c hprefix => hstray c ?_, hq⟩
      rw [← hbytes]
      exact hprefix.trans (List.prefix_append (byte :: ofPieces p) (ofPieces q))

end SplitsInto

theorem splitsInto_pieces (bytes : Bytes) : SplitsInto bytes (pieces bytes) :=
  splitsInto_iff.mpr rfl

theorem pieces_append (a : Bytes) {b : Bytes} (h : StartsAnew b) :
    pieces (a ++ b) = pieces a ++ pieces b :=
  splitsInto_iff.mp ((splitsInto_pieces a).append (splitsInto_pieces b) h)

theorem pieces_append_char (a : Bytes) (c : Char) (b : Bytes) :
    pieces (a ++ (String.utf8EncodeChar c ++ b)) = pieces a ++ .char c :: pieces b := by
  rw [pieces_append a (startsAnew_utf8EncodeChar c b)]
  congr 1
  exact splitsInto_iff.mp ((splitsInto_pieces b).char c)

theorem pieces_encode (chars : List Char) : pieces (encode chars) = chars.map .char :=
  splitsInto_iff.mp (splitsInto_encode chars)

theorem pieces_encode_append (chars : List Char) (rest : Bytes) :
    pieces (encode chars ++ rest) = chars.map .char ++ pieces rest := by
  induction chars with
  | nil => rfl
  | cons c chars ih =>
    have hchar := (splitsInto_pieces (encode chars ++ rest)).char c
    rw [ih, ← List.append_assoc] at hchar
    exact splitsInto_iff.mp hchar

theorem ofPieces_pieces (bytes : Bytes) : ofPieces (pieces bytes) = bytes :=
  (splitsInto_pieces bytes).ofPieces_eq

theorem pieces_ofPieces_of_isPrefix {bytes : Bytes} {p : List Piece} (h : p <+: pieces bytes) :
    pieces (ofPieces p) = p := by
  obtain ⟨q, hq⟩ := h
  have hsplits := splitsInto_pieces bytes
  rw [← hq] at hsplits
  exact splitsInto_iff.mp hsplits.of_append.1

theorem pieces_ofPieces_of_isSuffix {bytes : Bytes} {q : List Piece} (h : q <:+ pieces bytes) :
    pieces (ofPieces q) = q := by
  obtain ⟨p, hp⟩ := h
  have hsplits := splitsInto_pieces bytes
  rw [← hp] at hsplits
  exact splitsInto_iff.mp hsplits.of_append.2

/-! ## Trimming -/

section TrimWhere

variable {α : Type} {p : α → Bool}

/-- A list without the elements of a kind at its end. -/
def trimEnd (p : α → Bool) (items : List α) : List α := (items.reverse.dropWhile p).reverse

theorem trimWhere_eq (items : List α) : trimWhere p items = trimEnd p (items.dropWhile p) := rfl

theorem exists_eq_trimEnd_append (p : α → Bool) (items : List α) :
    ∃ back, items = trimEnd p items ++ back ∧ ∀ item ∈ back, p item = true := by
  refine ⟨(items.reverse.takeWhile p).reverse, ?_, ?_⟩
  · rw [trimEnd, ← List.reverse_append, List.takeWhile_append_dropWhile, List.reverse_reverse]
  · intro item hmem
    exact List.mem_takeWhile_imp (List.mem_reverse.mp hmem)

theorem trimEnd_append {back : List α} (h : ∀ item ∈ back, p item = true) (items : List α) :
    trimEnd p (items ++ back) = trimEnd p items := by
  rw [trimEnd, List.reverse_append, List.dropWhile_append_of_pos, trimEnd]
  intro item hmem
  exact h item (List.mem_reverse.mp hmem)

/-- An element of another kind keeps all that stands before it. -/
theorem trimEnd_append_cons (items : List α) {item : α} (h : p item = false) (more : List α) :
    trimEnd p (items ++ item :: more) = items ++ item :: trimEnd p more := by
  have hstop : ((more.reverse ++ [item]).dropWhile p).reverse = item :: trimEnd p more := by
    rw [List.dropWhile_append, trimEnd]
    split
    · rename_i hnil
      rw [List.isEmpty_iff] at hnil
      simp [hnil, h]
    · simp
  rw [trimEnd, List.reverse_append, List.reverse_cons, List.dropWhile_append, if_neg,
    List.reverse_append, List.reverse_reverse, hstop]
  rw [List.isEmpty_iff, List.dropWhile_eq_nil_iff]
  intro hall
  have hitem := hall item (by simp)
  rw [h] at hitem
  cases hitem

/-- An element of another kind divides a list into parts that are trimmed at one end each. -/
theorem trimWhere_append_cons (items : List α) {item : α} (h : p item = false) (more : List α) :
    trimWhere p (items ++ item :: more) = items.dropWhile p ++ item :: trimEnd p more := by
  rw [trimWhere_eq, List.dropWhile_append]
  split
  · rename_i hnil
    rw [List.isEmpty_iff] at hnil
    rw [hnil, List.dropWhile_cons_of_neg (by simp [h])]
    exact trimEnd_append_cons [] h more
  · exact trimEnd_append_cons _ h more

/-- What surrounds a list is trimmed off with it if all of it is of the kind. -/
theorem trimWhere_append {front back : List α} (hfront : ∀ item ∈ front, p item = true)
    (hback : ∀ item ∈ back, p item = true) (items : List α) :
    trimWhere p (front ++ (items ++ back)) = trimWhere p items := by
  rw [trimWhere_eq, trimWhere_eq, List.dropWhile_append_of_pos hfront, List.dropWhile_append]
  split
  · rename_i hnil
    rw [List.isEmpty_iff] at hnil
    rw [hnil, List.dropWhile_eq_nil_iff.mpr hback]
  · exact trimEnd_append hback _

theorem trimWhere_dropWhile (items : List α) :
    trimWhere p (items.dropWhile p) = trimWhere p items := by
  have hfront : ∀ item ∈ items.takeWhile p, p item = true := fun item => List.mem_takeWhile_imp
  have hback : ∀ item ∈ ([] : List α), p item = true := by simp
  have htrim := trimWhere_append hfront hback (items.dropWhile p)
  rw [List.append_nil, List.takeWhile_append_dropWhile] at htrim
  exact htrim.symm

theorem trimWhere_trimEnd (items : List α) : trimWhere p (trimEnd p items) = trimWhere p items := by
  obtain ⟨back, heq, hback⟩ := exists_eq_trimEnd_append p items
  have hfront : ∀ item ∈ ([] : List α), p item = true := by simp
  have htrim := trimWhere_append hfront hback (trimEnd p items)
  rw [List.nil_append, ← heq] at htrim
  exact htrim.symm

theorem isPrefix_trimEnd (items : List α) : trimEnd p items <+: items := by
  obtain ⟨back, heq, -⟩ := exists_eq_trimEnd_append p items
  exact ⟨back, heq.symm⟩

theorem isInfix_trimWhere (items : List α) : trimWhere p items <:+: items :=
  (isPrefix_trimEnd _).isInfix.trans (List.dropWhile_suffix p).isInfix

end TrimWhere

/-- Trimming takes bytes away at the ends and adds none. -/
theorem isInfix_trim (bytes : Bytes) : trim bytes <:+: bytes := by
  obtain ⟨front, back, heq⟩ := isInfix_trimWhere (p := Piece.isBlank) (pieces bytes)
  refine ⟨ofPieces front, ofPieces back, ?_⟩
  rw [trim, ← ofPieces_append, ← ofPieces_append, heq, ofPieces_pieces]

/-- A byte string without the blanks at its front. -/
def dropBlanks (bytes : Bytes) : Bytes := ofPieces ((pieces bytes).dropWhile Piece.isBlank)

/-- A byte string without the blanks at its end. -/
def dropBlanksEnd (bytes : Bytes) : Bytes := ofPieces (trimEnd Piece.isBlank (pieces bytes))

theorem isSuffix_dropBlanks (bytes : Bytes) : dropBlanks bytes <:+ bytes := by
  obtain ⟨skipped, heq⟩ := List.dropWhile_suffix Piece.isBlank (l := pieces bytes)
  refine ⟨ofPieces skipped, ?_⟩
  rw [dropBlanks, ← ofPieces_append, heq, ofPieces_pieces]

theorem trim_dropBlanks (bytes : Bytes) : trim (dropBlanks bytes) = trim bytes := by
  rw [trim, dropBlanks, pieces_ofPieces_of_isSuffix (List.dropWhile_suffix _), trimWhere_dropWhile,
    trim]

theorem trim_dropBlanksEnd (bytes : Bytes) : trim (dropBlanksEnd bytes) = trim bytes := by
  rw [trim, dropBlanksEnd, pieces_ofPieces_of_isPrefix (isPrefix_trimEnd _), trimWhere_trimEnd,
    trim]

/-- A character that is no blank divides a byte string into parts that are trimmed at one end
each. -/
theorem trim_append_char {c : Char} (h : isBlank c = false) (left right : Bytes) :
    trim (left ++ (String.utf8EncodeChar c ++ right)) =
      dropBlanks left ++ (String.utf8EncodeChar c ++ dropBlanksEnd right) := by
  have hpiece : (Piece.char c).isBlank = false := h
  rw [trim, pieces_append_char, trimWhere_append_cons _ hpiece, ofPieces_append]
  rfl

/-- Characters that are all blanks. -/
def AreBlank (chars : List Char) : Prop := ∀ c ∈ chars, isBlank c = true

instance (chars : List Char) : Decidable (AreBlank chars) :=
  decidable_of_iff (chars.all isBlank = true) List.all_eq_true

theorem AreBlank.pieces {chars : List Char} (h : AreBlank chars) :
    ∀ piece ∈ chars.map Piece.char, piece.isBlank = true := by
  intro piece hmem
  obtain ⟨c, hc, rfl⟩ := List.mem_map.mp hmem
  exact h c hc

/-- Blanks around a byte string make no difference to what is left of it. -/
theorem trim_append {front back : List Char} (hfront : AreBlank front) (hback : AreBlank back)
    (bytes : Bytes) : trim (encode front ++ (bytes ++ encode back)) = trim bytes := by
  have hanew : StartsAnew (encode back) := by
    have h := startsAnew_encode back startsAnew_nil
    rwa [List.append_nil] at h
  rw [trim, pieces_encode_append, pieces_append bytes hanew, pieces_encode,
    trimWhere_append hfront.pieces hback.pieces, trim]

/-- A byte string with no blank at its front and none at its end. -/
def IsTrimmed (bytes : Bytes) : Prop :=
  ∀ c, isBlank c = true → ¬ String.utf8EncodeChar c <+: bytes ∧ ¬ String.utf8EncodeChar c <:+ bytes

namespace IsTrimmed

variable {bytes : Bytes}

theorem dropWhile_pieces (h : IsTrimmed bytes) :
    (pieces bytes).dropWhile Piece.isBlank = pieces bytes := by
  have hsplits := splitsInto_pieces bytes
  cases hpieces : pieces bytes with
  | nil => rfl
  | cons piece more =>
    rw [hpieces] at hsplits
    cases hsplits with
    | @char c rest _ _ =>
      apply List.dropWhile_cons_of_neg
      intro hblank
      exact (h c hblank).1 (List.prefix_append _ _)
    | stray byte => exact List.dropWhile_cons_of_neg (by simp [Piece.isBlank])

theorem trimEnd_pieces (h : IsTrimmed bytes) :
    trimEnd Piece.isBlank (pieces bytes) = pieces bytes := by
  obtain hnil | ⟨more, piece, hpieces⟩ := List.eq_nil_or_concat (pieces bytes)
  · rw [hnil]
    rfl
  have hblank : piece.isBlank = false := by
    cases piece with
    | stray byte => rfl
    | char c =>
      rw [← Bool.not_eq_true]
      intro hblank
      apply (h c hblank).2
      rw [← ofPieces_pieces bytes, hpieces, List.concat_eq_append, ofPieces_append]
      simp [ofPieces, Piece.bytes]
  rw [hpieces, List.concat_eq_append, trimEnd_append_cons more hblank]
  rfl

theorem trim_eq (h : IsTrimmed bytes) : trim bytes = bytes := by
  rw [trim, trimWhere_eq, h.dropWhile_pieces, h.trimEnd_pieces, ofPieces_pieces]

end IsTrimmed

theorem isTrimmed_of_trim_eq {bytes : Bytes} (h : trim bytes = bytes) : IsTrimmed bytes := by
  intro c hblank
  have hblanks : AreBlank [c] := by simpa [AreBlank] using hblank
  have hnone : AreBlank [] := by simp [AreBlank]
  have hencode : encode [c] = String.utf8EncodeChar c := by simp [encode]
  have hpos : 0 < (String.utf8EncodeChar c).length := by
    rw [String.length_utf8EncodeChar]
    exact c.utf8Size_pos
  -- A blank at an end would be trimmed off, so the text would get shorter.
  have hlength (rest : Bytes) (htrim : trim bytes = trim rest) : bytes.length ≤ rest.length := by
    rw [h] at htrim
    rw [htrim]
    exact (isInfix_trim rest).length_le
  constructor
  · intro hstart
    obtain ⟨rest, heq⟩ := hstart
    have htrim := trim_append hblanks hnone rest
    rw [hencode, encode, List.flatMap_nil, List.append_nil, heq] at htrim
    have hle := hlength rest htrim
    rw [← heq, List.length_append] at hle
    omega
  · intro hend
    obtain ⟨rest, heq⟩ := hend
    have htrim := trim_append hnone hblanks rest
    rw [hencode, encode, List.flatMap_nil, List.nil_append, heq] at htrim
    have hle := hlength rest htrim
    rw [← heq, List.length_append] at hle
    omega

instance (bytes : Bytes) : Decidable (IsTrimmed bytes) :=
  decidable_of_iff (trim bytes = bytes) ⟨isTrimmed_of_trim_eq, IsTrimmed.trim_eq⟩

end MonitorCoverage.Text
