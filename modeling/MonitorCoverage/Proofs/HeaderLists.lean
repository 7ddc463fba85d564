import Mathlib.Data.List.Nodup
import MonitorCoverage.Proofs.Trimming
import MonitorCoverage.Telemetry.Headers

/-!
# Reading header lists

A header list is made of segments with commas between them. A segment is a pair of a key and a value
with `=` between them and blanks around each, or a text without `=`, which stands for nothing.
Whatever the blanks are, reading finds the pairs, and the headers are the map that takes each key to
the value of its last pair. A map is kept as a list in the order of its keys, so maps that answer
alike are equal; hence pairs with distinct keys may be written in any order, and a map that is
written is read back.
-/

namespace MonitorCoverage

/-! ## Splitting and cutting -/

namespace Bytes

section Separators

variable {separator : UInt8} {piece : Bytes}

theorem exists_cons_splitOn (separator : UInt8) (text : Bytes) :
    ∃ piece pieces, splitOn separator text = piece :: pieces := by
  cases text with
  | nil => exact ⟨[], [], rfl⟩
  | cons byte rest =>
    unfold splitOn
    split
    · exact ⟨_, _, rfl⟩
    · split <;> exact ⟨_, _, rfl⟩

theorem splitOn_separator (rest : Bytes) :
    splitOn separator (separator :: rest) = [] :: splitOn separator rest := by
  obtain ⟨piece, pieces, heq⟩ := exists_cons_splitOn separator rest
  simp [splitOn, heq]

theorem splitOn_cons_of_ne {byte : UInt8} (hne : byte ≠ separator) (rest : Bytes) :
    splitOn separator (byte :: rest) = (splitOn separator rest).modifyHead (byte :: ·) := by
  obtain ⟨piece, pieces, heq⟩ := exists_cons_splitOn separator rest
  simp [splitOn, heq, hne]

theorem splitOn_of_not_mem (h : separator ∉ piece) : splitOn separator piece = [piece] := by
  induction piece with
  | nil => rfl
  | cons byte piece ih =>
    rw [List.mem_cons, not_or] at h
    rw [splitOn_cons_of_ne (Ne.symm h.1), ih h.2]
    rfl

theorem splitOn_append (h : separator ∉ piece) (rest : Bytes) :
    splitOn separator (piece ++ separator :: rest) = piece :: splitOn separator rest := by
  induction piece with
  | nil => exact splitOn_separator rest
  | cons byte piece ih =>
    rw [List.mem_cons, not_or] at h
    rw [List.cons_append, splitOn_cons_of_ne (Ne.symm h.1), ih h.2]
    rfl

/-- What was joined is split into the same pieces again. -/
theorem splitOn_joinWith {pieces : List Bytes} (hne : pieces ≠ [])
    (h : ∀ piece ∈ pieces, separator ∉ piece) :
    splitOn separator (joinWith [separator] pieces) = pieces := by
  induction pieces with
  | nil => exact absurd rfl hne
  | cons piece more ih =>
    rw [List.forall_mem_cons] at h
    cases more with
    | nil => exact splitOn_of_not_mem h.1
    | cons next more =>
      rw [joinWith, List.append_assoc, List.singleton_append, splitOn_append h.1,
        ih (List.cons_ne_nil _ _) h.2]
      simp

theorem cut_of_not_mem (h : separator ∉ piece) : piece.cut separator = none := by
  have hdrop : piece.dropWhile (· != separator) = [] := by
    rw [List.dropWhile_eq_nil_iff]
    intro byte hmem
    rw [bne_iff_ne]
    exact ne_of_mem_of_not_mem hmem h
  rw [cut, hdrop]

theorem cut_append (h : separator ∉ piece) (after : Bytes) :
    Bytes.cut separator (piece ++ separator :: after) = some (piece, after) := by
  have hother : ∀ byte ∈ piece, (byte != separator) = true := by
    intro byte hmem
    rw [bne_iff_ne]
    exact ne_of_mem_of_not_mem hmem h
  have htake : (piece ++ separator :: after).takeWhile (· != separator) = piece := by
    rw [List.takeWhile_append_of_pos hother]
    simp
  have hdrop : (piece ++ separator :: after).dropWhile (· != separator) = separator :: after := by
    rw [List.dropWhile_append_of_pos hother]
    simp
  rw [cut, hdrop, htake]

end Separators

theorem less_iff_lt {a b : Bytes} : a.less b = true ↔ a < b := by
  fun_induction less a b with
  | case1 a => simp
  | case2 b bs => simp
  | case3 a as b bs ih => simp [List.cons_lt_cons_iff, ih]

end Bytes

namespace Telemetry.Headers

/-! ## Pairs -/

/-- The byte between segments. -/
def comma : UInt8 := ','.toUInt8

/-- The byte between a key and its value. -/
def equals : UInt8 := '='.toUInt8

theorem pair?_eq (segment : Bytes) :
    pair? segment =
      ((Text.trim segment).cut equals).map fun (key, value) => (Text.trim key, Text.trim value) :=
  rfl

theorem pair?_of_not_mem {segment : Bytes} (h : equals ∉ segment) : pair? segment = none := by
  have htrim : equals ∉ Text.trim segment := fun hmem => h ((Text.isInfix_trim segment).subset hmem)
  rw [pair?_eq, Bytes.cut_of_not_mem htrim, Option.map_none]

/-- The first `=` divides a segment. Trimming the whole segment first makes no difference, since the
key and the value are trimmed too. -/
theorem pair?_append {left : Bytes} (h : equals ∉ left) (right : Bytes) :
    pair? (left ++ equals :: right) = some (Text.trim left, Text.trim right) := by
  have htrim : Text.trim (left ++ equals :: right) =
      Text.dropBlanks left ++ equals :: Text.dropBlanksEnd right :=
    Text.trim_append_char (c := '=') (by decide) left right
  have hnone : equals ∉ Text.dropBlanks left := fun hmem =>
    h ((Text.isSuffix_dropBlanks left).subset hmem)
  rw [pair?_eq, htrim, Bytes.cut_append hnone]
  simp only [Option.map_some, Text.trim_dropBlanks, Text.trim_dropBlanksEnd]

/-! ## Segments -/

/-- A run of blanks. -/
structure Blanks where
  chars : List Char
  areBlank : Text.AreBlank chars

def Blanks.bytes (blanks : Blanks) : Bytes := Text.encode blanks.chars

/-- No blank is a separator, whichever it is. -/
theorem Blanks.not_mem_bytes (blanks : Blanks) {byte : UInt8} (h : byte = comma ∨ byte = equals) :
    byte ∉ blanks.bytes := by
  intro hmem
  have hascii : byte.toNat < 128 := by
    obtain rfl | rfl := h <;> decide
  rw [Blanks.bytes, Text.encode, List.mem_flatMap] at hmem
  obtain ⟨c, hc, hbyte⟩ := hmem
  have hblank := blanks.areBlank c hc
  rw [Text.eq_of_mem_utf8EncodeChar hbyte hascii] at hblank
  obtain rfl | rfl := h
  · exact absurd hblank (by decide)
  · exact absurd hblank (by decide)

/-- A key and a value that can be written as a pair: no blanks at their ends, no commas in them and
no `=` in the key. -/
structure IsWritable (key value : Bytes) : Prop where
  isTrimmed_key : Text.IsTrimmed key
  isTrimmed_value : Text.IsTrimmed value
  comma_not_mem_key : comma ∉ key
  equals_not_mem_key : equals ∉ key
  comma_not_mem_value : comma ∉ value

/-- A part of a header list between commas. -/
inductive Segment where
  /-- A text that is no pair. -/
  | other (text : Bytes) (hcomma : comma ∉ text) (hequals : equals ∉ text)
  /-- A pair, with blanks before and after its key and before and after its value. -/
  | pair (key value : Bytes) (h : IsWritable key value)
    (beforeKey afterKey beforeValue afterValue : Blanks)

namespace Segment

def bytes : Segment → Bytes
  | other text _ _ => text
  | pair key value _ beforeKey afterKey beforeValue afterValue =>
    (beforeKey.bytes ++ (key ++ afterKey.bytes)) ++
      equals :: (beforeValue.bytes ++ (value ++ afterValue.bytes))

/-- The pair that a segment was made of. -/
def content? : Segment → Option (Bytes × Bytes)
  | other .. => none
  | pair key value .. => some (key, value)

theorem comma_not_mem_bytes (segment : Segment) : comma ∉ segment.bytes := by
  have hblanks (blanks : Blanks) : comma ∉ blanks.bytes := blanks.not_mem_bytes (.inl rfl)
  have hequals : comma ≠ equals := by decide
  cases segment with
  | other text hcomma => exact hcomma
  | pair key value h => simp [bytes, hblanks, h.comma_not_mem_key, h.comma_not_mem_value, hequals]

/-- A segment is read as what it was made of. -/
theorem pair?_bytes (segment : Segment) : pair? segment.bytes = segment.content? := by
  cases segment with
  | other text _ hequals => exact pair?_of_not_mem hequals
  | pair key value h beforeKey afterKey beforeValue afterValue =>
    have hblanks (blanks : Blanks) : equals ∉ blanks.bytes := blanks.not_mem_bytes (.inr rfl)
    have hleft : equals ∉ beforeKey.bytes ++ (key ++ afterKey.bytes) := by
      simp [hblanks, h.equals_not_mem_key]
    have hkey : Text.trim (beforeKey.bytes ++ (key ++ afterKey.bytes)) = key :=
      (Text.trim_append beforeKey.areBlank afterKey.areBlank key).trans h.isTrimmed_key.trim_eq
    have hvalue : Text.trim (beforeValue.bytes ++ (value ++ afterValue.bytes)) = value :=
      (Text.trim_append beforeValue.areBlank afterValue.areBlank value).trans
        h.isTrimmed_value.trim_eq
    rw [bytes, pair?_append hleft, hkey, hvalue, content?]

end Segment

/-- The header list that is made of segments. -/
def listOf (segments : List Segment) : Bytes :=
  Bytes.joinWith [comma] (segments.map Segment.bytes)

/-- The pairs among segments. -/
def pairsOf (segments : List Segment) : List (Bytes × Bytes) := segments.filterMap Segment.content?

/-- The pairs that are read are those that were written. -/
theorem filterMap_pair?_listOf (segments : List Segment) :
    ((listOf segments).splitOn comma).filterMap pair? = pairsOf segments := by
  cases segments with
  | nil => decide
  | cons segment segments =>
    have hsplit : (listOf (segment :: segments)).splitOn comma =
        (segment :: segments).map Segment.bytes := by
      apply Bytes.splitOn_joinWith
      · simp
      · intro piece hmem
        obtain ⟨source, -, rfl⟩ := List.mem_map.mp hmem
        exact source.comma_not_mem_bytes
    rw [hsplit, List.filterMap_map, pairsOf]
    congr 1
    funext source
    exact source.pair?_bytes

/-! ## Maps -/

/-- Keys in strictly increasing order, each with its value. -/
def IsMap (headers : Headers) : Prop := headers.Pairwise fun a b => a.1 < b.1

instance (headers : Headers) : Decidable (IsMap headers) :=
  inferInstanceAs (Decidable (headers.Pairwise fun a b => a.1 < b.1))

theorem mem_of_mem_insert {headers : Headers} {key value : Bytes} {pair : Bytes × Bytes}
    (h : pair ∈ headers.insert key value) : pair = (key, value) ∨ pair ∈ headers := by
  fun_induction Headers.insert key value headers with
  | case1 => exact .inl (List.mem_singleton.mp h)
  | case2 => grind
  | case3 => grind
  | case4 => grind

/-- With each key once, a list of pairs answers with the pairs that it has. -/
theorem lookup_eq_some_iff_mem {pairs : List (Bytes × Bytes)} (h : (pairs.map Prod.fst).Nodup)
    {key value : Bytes} : pairs.lookup key = some value ↔ (key, value) ∈ pairs := by
  rw [List.lookup_eq_some_iff]
  constructor
  · intro hlookup
    obtain ⟨front, back, heq, _⟩ := hlookup
    rw [heq]
    simp
  · intro hmem
    obtain ⟨front, back, rfl⟩ := List.append_of_mem hmem
    refine ⟨front, back, rfl, ?_⟩
    intro pair hpair
    rw [bne_iff_ne]
    intro hkey
    rw [List.map_append, List.nodup_append] at h
    exact h.2.2 pair.1 (List.mem_map_of_mem hpair) key (by simp) hkey.symm

theorem lookup_reverse_eq_some_iff_mem {pairs : List (Bytes × Bytes)}
    (h : (pairs.map Prod.fst).Nodup) {key value : Bytes} :
    pairs.reverse.lookup key = some value ↔ (key, value) ∈ pairs := by
  rw [lookup_eq_some_iff_mem, List.mem_reverse]
  rw [List.map_reverse]
  exact List.nodup_reverse.mpr h

namespace IsMap

variable {headers others : Headers}

theorem nodup (h : IsMap headers) : (headers.map Prod.fst).Nodup := by
  rw [List.Nodup, List.pairwise_map]
  refine h.imp ?_
  intro a b hlt heq
  rw [heq] at hlt
  exact List.lt_irrefl _ hlt

/-- Maps that answer alike are equal. -/
theorem ext (h : IsMap headers) (h' : IsMap others)
    (hlookup : ∀ key, headers.lookup key = others.lookup key) : headers = others := by
  have hperm : headers.Perm others := by
    rw [List.perm_ext_iff_of_nodup (List.Nodup.of_map _ h.nodup) (List.Nodup.of_map _ h'.nodup)]
    intro (key, value)
    rw [← lookup_eq_some_iff_mem h.nodup, ← lookup_eq_some_iff_mem h'.nodup, hlookup]
  refine hperm.eq_of_pairwise ?_ h h'
  intro a b _ _ hlt hgt
  exact absurd hgt (List.lt_asymm hlt)

theorem insert (h : IsMap headers) (key value : Bytes) : IsMap (headers.insert key value) := by
  induction headers with
  | nil => simp [IsMap, Headers.insert]
  | cons head headers ih =>
    obtain ⟨k, v⟩ := head
    obtain ⟨hhead, htail⟩ := List.pairwise_cons.mp h
    unfold Headers.insert
    split
    · rename_i heq
      rw [heq]
      exact List.pairwise_cons.mpr ⟨hhead, htail⟩
    rename_i hne
    split
    · rename_i hless
      rw [Bytes.less_iff_lt] at hless
      refine List.pairwise_cons.mpr ⟨?_, h⟩
      intro pair hpair
      obtain rfl | hpair := List.mem_cons.mp hpair
      · exact hless
      · exact List.lt_trans hless (hhead pair hpair)
    · rename_i hless
      rw [Bytes.less_iff_lt, List.not_lt] at hless
      have hgreater : k < key := Std.lt_of_le_of_ne hless (Ne.symm hne)
      refine List.pairwise_cons.mpr ⟨?_, ih htail⟩
      intro pair hpair
      obtain rfl | hpair := mem_of_mem_insert hpair
      · exact hgreater
      · exact hhead pair hpair

end IsMap

theorem lookup_insert (headers : Headers) (key value query : Bytes) :
    (headers.insert key value).lookup query =
      if query = key then some value else headers.lookup query := by
  fun_induction Headers.insert key value headers with
  | case1 => grind
  | case2 => grind
  | case3 => grind
  | case4 => grind

/-- The headers after some pairs were put in, one after the other. -/
def insertAll (headers : Headers) (pairs : List (Bytes × Bytes)) : Headers :=
  pairs.foldl (fun headers (key, value) => headers.insert key value) headers

theorem parse_listOf (segments : List Segment) :
    parse (listOf segments) = insertAll [] (pairsOf segments) := by
  rw [← filterMap_pair?_listOf]
  rfl

theorem isMap_insertAll {headers : Headers} (h : IsMap headers) (pairs : List (Bytes × Bytes)) :
    IsMap (insertAll headers pairs) := by
  induction pairs generalizing headers with
  | nil => exact h
  | cons pair pairs ih => exact ih (h.insert pair.1 pair.2)

/-- The last pair with a key holds. -/
theorem lookup_insertAll (headers : Headers) (pairs : List (Bytes × Bytes)) (key : Bytes) :
    (insertAll headers pairs).lookup key =
      (pairs.reverse.lookup key).or (headers.lookup key) := by
  induction pairs generalizing headers with
  | nil => rfl
  | cons pair pairs ih =>
    obtain ⟨k, v⟩ := pair
    have hstep : insertAll headers ((k, v) :: pairs) = insertAll (headers.insert k v) pairs := rfl
    rw [hstep, ih, lookup_insert, List.reverse_cons, List.lookup_append, Option.or_assoc]
    congr 1
    by_cases hkey : key = k
    · simp [hkey]
    · have hother : (key == k) = false := beq_false_of_ne hkey
      simp [hkey, List.lookup_cons, hother]

theorem insertAll_eq_nil_iff {pairs : List (Bytes × Bytes)} :
    insertAll [] pairs = [] ↔ pairs = [] := by
  constructor
  · intro hnil
    obtain hpairs | ⟨front, last, hpairs⟩ := List.eq_nil_or_concat pairs
    · exact hpairs
    obtain ⟨key, value⟩ := last
    have hlast := lookup_insertAll [] pairs key
    rw [hnil, hpairs] at hlast
    simp at hlast
  · rintro rfl
    rfl

/-- Of pairs with distinct keys, the order does not matter. -/
theorem insertAll_eq_of_perm {pairs others : List (Bytes × Bytes)} (hperm : pairs.Perm others)
    (hdistinct : (others.map Prod.fst).Nodup) : insertAll [] pairs = insertAll [] others := by
  have hdistinct' : (pairs.map Prod.fst).Nodup := (hperm.map Prod.fst).nodup_iff.mpr hdistinct
  apply (isMap_insertAll .nil pairs).ext (isMap_insertAll .nil others)
  intro key
  rw [lookup_insertAll, lookup_insertAll]
  congr 1
  ext value
  rw [lookup_reverse_eq_some_iff_mem hdistinct, lookup_reverse_eq_some_iff_mem hdistinct',
    hperm.mem_iff]

/-- A map is what putting in its pairs gives. -/
theorem IsMap.insertAll_eq {headers : Headers} (h : IsMap headers) :
    insertAll [] headers = headers := by
  apply (isMap_insertAll .nil headers).ext h
  intro key
  rw [lookup_insertAll, List.lookup_nil, Option.or_none]
  ext value
  rw [lookup_reverse_eq_some_iff_mem h.nodup, lookup_eq_some_iff_mem h.nodup]

/-! ## Header lists -/

/-- Pairs as a header list without blanks. -/
def render (pairs : List (Bytes × Bytes)) : Bytes :=
  Bytes.joinWith [comma] (pairs.map fun (key, value) => key ++ equals :: value)

/-- Pairs that can be written are the pairs of segments without blanks. -/
theorem exists_segments {pairs : List (Bytes × Bytes)}
    (h : ∀ pair ∈ pairs, IsWritable pair.1 pair.2) :
    ∃ segments, pairsOf segments = pairs ∧ listOf segments = render pairs := by
  suffices hparts : ∃ segments : List Segment, pairsOf segments = pairs ∧
      segments.map Segment.bytes = pairs.map fun (key, value) => key ++ equals :: value by
    obtain ⟨segments, hpairs, hbytes⟩ := hparts
    exact ⟨segments, hpairs, congrArg (Bytes.joinWith [comma]) hbytes⟩
  induction pairs with
  | nil => exact ⟨[], rfl, rfl⟩
  | cons pair pairs ih =>
    obtain ⟨key, value⟩ := pair
    rw [List.forall_mem_cons] at h
    obtain ⟨segments, hpairs, hbytes⟩ := ih h.2
    let none : Blanks := ⟨[], by simp [Text.AreBlank]⟩
    refine ⟨.pair key value h.1 none none none none :: segments, ?_, ?_⟩
    · rw [pairsOf, List.filterMap_cons, Segment.content?, ← pairsOf, hpairs]
    · simp [Segment.bytes, Blanks.bytes, Text.encode, none, hbytes]

/-- Reading header lists inverts writing them. Whatever the segments are, and whatever blanks stand
around their keys and values, the headers that are read are a map from exactly the keys of the
pairs, each to the value of its last pair, and they are empty if and only if there is no pair. So
the order of pairs with distinct keys does not matter, and a map that is written in any order is
read back. -/
theorem parse_listOf_eq_map (segments : List Segment) :
    IsMap (parse (listOf segments)) ∧
    (∀ key, (parse (listOf segments)).lookup key = (pairsOf segments).reverse.lookup key) ∧
    (parse (listOf segments) = [] ↔ pairsOf segments = []) ∧
    (∀ others : List Segment, (pairsOf others).Perm (pairsOf segments) →
      ((pairsOf segments).map Prod.fst).Nodup → parse (listOf others) = parse (listOf segments)) ∧
    ∀ headers written : Headers, IsMap headers → (∀ pair ∈ headers, IsWritable pair.1 pair.2) →
      written.Perm headers → parse (render written) = headers := by
  rw [parse_listOf]
  refine ⟨isMap_insertAll .nil _, fun key => ?_, insertAll_eq_nil_iff, ?_, ?_⟩
  · rw [lookup_insertAll, List.lookup_nil, Option.or_none]
  · intro others hperm hdistinct
    rw [parse_listOf, insertAll_eq_of_perm hperm hdistinct]
  · intro headers written hmap hwritable hperm
    have hwritten : ∀ pair ∈ written, IsWritable pair.1 pair.2 := fun pair hmem =>
      hwritable pair (hperm.mem_iff.mp hmem)
    obtain ⟨segments, hpairs, hbytes⟩ := exists_segments hwritten
    rw [← hbytes, parse_listOf, hpairs, insertAll_eq_of_perm hperm hmap.nodup, hmap.insertAll_eq]

/-- Blanks of three kinds, two of them beyond ASCII. -/
def wideBlanks : Blanks := ⟨[Char.ofNat 0x3000, '\t', Char.ofNat 0x85], by decide⟩

def noBlanks : Blanks := ⟨[], by decide⟩

/-- A key in blanks with a value that holds `=`. -/
def blankPair : Segment :=
  .pair (utf8 "k") (utf8 "x==") ⟨by decide, by decide, by decide, by decide, by decide⟩
    wideBlanks wideBlanks wideBlanks wideBlanks

/-- A stray byte as a key, without a value. -/
def strayPair : Segment :=
  .pair [0xE3] [] ⟨by decide, by decide, by decide, by decide, by decide⟩ noBlanks wideBlanks
    noBlanks noBlanks

/-- The key of the pair in blanks once more. -/
def laterPair : Segment :=
  .pair (utf8 "k") (utf8 "y") ⟨by decide, by decide, by decide, by decide, by decide⟩
    noBlanks noBlanks noBlanks noBlanks

def noPair : Segment := .other (utf8 "k y") (by decide) (by decide)

theorem parse_listOf_eq_map_laterPair :
    (parse (listOf [blankPair, noPair, strayPair, laterPair])).lookup (utf8 "k") =
      some (utf8 "y") ∧
    parse (listOf [noPair, noPair]) = [] ∧
    parse (listOf [strayPair, noPair, blankPair]) = parse (listOf [blankPair, strayPair]) ∧
    parse (render [(utf8 "l", utf8 "="), (utf8 "k", [])]) =
      [(utf8 "k", []), (utf8 "l", utf8 "=")] := by
  have hrepeated := parse_listOf_eq_map [blankPair, noPair, strayPair, laterPair]
  have hnone := parse_listOf_eq_map [noPair, noPair]
  have hdistinct := parse_listOf_eq_map [blankPair, strayPair]
  refine ⟨(hrepeated.2.1 (utf8 "k")).trans (by decide), hnone.2.2.1.mpr rfl,
    hdistinct.2.2.2.1 _ ?_ (by decide), hdistinct.2.2.2.2 _ _ (by decide) ?_ ?_⟩
  · exact List.Perm.swap _ _ []
  · intro pair hmem
    simp only [List.mem_cons, List.not_mem_nil, or_false] at hmem
    obtain rfl | rfl := hmem <;> exact ⟨by decide, by decide, by decide, by decide, by decide⟩
  · exact List.Perm.swap _ _ []

end Telemetry.Headers

end MonitorCoverage
