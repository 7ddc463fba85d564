import MonitorCoverage.Json.Reader
import MonitorCoverage.Json.Writer
import MonitorCoverage.Proofs.DecimalText
import MonitorCoverage.Proofs.Utf8Reading

/-!
# The grammar of JSON

The grammar says which texts spell which values: blanks may stand around every value, key and
separator, characters of strings may be escaped in several ways, and keys of an object are distinct.
The writer spells the value that it writes, and the reader finds the value that a text spells,
whatever the spelling. So a text spells one value at most, and a written value is read back.
-/

namespace MonitorCoverage.Json

open Decimal

/-! ## Spelling -/

/-- Any number of blanks, tabs and ends of lines. -/
def AreBlanks (cs : List Char) : Prop := ∀ c ∈ cs, c = ' ' ∨ c = '\t' ∨ c = '\n' ∨ c = '\r'

/-- A hexadecimal digit and its value. -/
def IsHexDigit (c : Char) (n : Nat) : Prop :=
  "0123456789abcdef".toList[n]? = some c ∨ "0123456789ABCDEF".toList[n]? = some c

/-- A code unit as four hexadecimal digits. -/
inductive SpellsUnit : List Char → Nat → Prop where
  | digits {a b c d : Char} {i j k l : Nat} (ha : IsHexDigit a i) (hb : IsHexDigit b j)
    (hc : IsHexDigit c k) (hd : IsHexDigit d l) :
    SpellsUnit [a, b, c, d] (((i * 16 + j) * 16 + k) * 16 + l)

/-- The letters that stand for characters after a backslash. -/
def shortEscapes : List (Char × Char) :=
  [('"', '"'), ('\\', '\\'), ('/', '/'), ('b', Char.ofNat 0x08), ('f', Char.ofNat 0x0C),
    ('n', '\n'),
    ('r', '\r'), ('t', '\t')]

/-- A character of a string, as it is or escaped. A character beyond the first 65536 is escaped by a
pair of units. -/
inductive SpellsChar : List Char → Char → Prop where
  | plain {c : Char} (hleast : 0x20 ≤ c.toNat) (hquote : c ≠ '"') (hbackslash : c ≠ '\\') :
    SpellsChar [c] c
  | short {letter c : Char} (h : (letter, c) ∈ shortEscapes) : SpellsChar ['\\', letter] c
  | unit {digits : List Char} {c : Char} (h : SpellsUnit digits c.toNat) :
    SpellsChar ('\\' :: 'u' :: digits) c
  | pair {digits digits' : List Char} {high low : Nat} {c : Char} (hhigh : SpellsUnit digits high)
    (hlow : SpellsUnit digits' low) (hhighRange : 0xD800 ≤ high ∧ high < 0xDC00)
    (hlowRange : 0xDC00 ≤ low ∧ low < 0xE000)
    (hc : c.toNat = 0x10000 + (high - 0xD800) * 0x400 + (low - 0xDC00)) :
    SpellsChar ('\\' :: 'u' :: digits ++ '\\' :: 'u' :: digits') c

/-- The characters of a string, one after the other. -/
inductive SpellsChars : List Char → List Char → Prop where
  | nil : SpellsChars [] []
  | cons {cs rest : List Char} {c : Char} {chars : List Char} (hc : SpellsChar cs c)
    (h : SpellsChars rest chars) : SpellsChars (cs ++ rest) (c :: chars)

/-- A string in its quotes. -/
inductive SpellsString : List Char → String → Prop where
  | quoted {cs : List Char} {text : String} (h : SpellsChars cs text.toList) :
    SpellsString ('"' :: (cs ++ ['"'])) text

/-- The whole part of a number: a zero, or digits that start with none. -/
inductive IsWhole : List Char → Prop where
  | zero : IsWhole ['0']
  | digits {d : Char} {ds : List Char} (hd : d.isDigit = true) (hne : d ≠ '0')
    (hds : AreDigits ds) :
    IsWhole (d :: ds)

/-- The places of a number, if it has any, behind a point. -/
inductive IsPlaces : List Char → Prop where
  | none : IsPlaces []
  | digits {ds : List Char} (hne : ds ≠ []) (hds : AreDigits ds) : IsPlaces ('.' :: ds)

/-- The exponent of a number, if it has one, behind its mark. -/
inductive IsPower : List Char → Prop where
  | none : IsPower []
  | digits {mark : Char} {sign ds : List Char} (hmark : mark = 'e' ∨ mark = 'E')
    (hsign : sign = [] ∨ sign = ['+'] ∨ sign = ['-']) (hne : ds ≠ []) (hds : AreDigits ds) :
    IsPower (mark :: (sign ++ ds))

inductive IsNumber : List Char → Prop where
  | parts {sign whole places power : List Char} (hsign : sign = [] ∨ sign = ['-'])
    (hwhole : IsWhole whole) (hplaces : IsPlaces places) (hpower : IsPower power) :
    IsNumber (sign ++ (whole ++ (places ++ power)))

/-- Something that is spelled, with the blanks around it. -/
structure Spaced (α : Type) where
  before : List Char
  text : List Char
  after : List Char
  content : α

namespace Spaced

variable {α : Type}

def chars (spaced : Spaced α) : List Char := spaced.before ++ (spaced.text ++ spaced.after)

def HasBlanks (spaced : Spaced α) : Prop := AreBlanks spaced.before ∧ AreBlanks spaced.after

end Spaced

/-- A member of an object as it is spelled. -/
structure SpacedMember where
  key : Spaced String
  value : Spaced Value

namespace SpacedMember

def chars (member : SpacedMember) : List Char := member.key.chars ++ ':' :: member.value.chars

def content (member : SpacedMember) : String × Value := (member.key.content, member.value.content)

end SpacedMember

/-- Texts with a comma in front of each. -/
def behindCommas (texts : List (List Char)) : List Char := texts.flatMap (',' :: ·)

@[simp] theorem behindCommas_nil : behindCommas [] = [] := rfl

@[simp] theorem behindCommas_cons (text : List Char) (texts : List (List Char)) :
    behindCommas (text :: texts) = ',' :: (text ++ behindCommas texts) := rfl

/-- A text that spells a value which nests no deeper than `depth`. -/
inductive Spells : Nat → List Char → Value → Prop where
  | null {depth : Nat} : Spells depth ['n', 'u', 'l', 'l'] .null
  | yes {depth : Nat} : Spells depth ['t', 'r', 'u', 'e'] (.bool true)
  | no {depth : Nat} : Spells depth ['f', 'a', 'l', 's', 'e'] (.bool false)
  | number {depth : Nat} {literal : List Char} (h : IsNumber literal) :
    Spells depth literal (.number literal)
  | string {depth : Nat} {cs : List Char} {text : String} (h : SpellsString cs text) :
    Spells depth cs (.string text)
  | emptyArray {depth : Nat} {blanks : List Char} (h : AreBlanks blanks) :
    Spells (depth + 1) ('[' :: (blanks ++ [']'])) (.array [])
  | array {depth : Nat} {first : Spaced Value} {more : List (Spaced Value)}
    (hblanks : ∀ item ∈ first :: more, item.HasBlanks)
    (h : ∀ item ∈ first :: more, Spells depth item.text item.content) :
    Spells (depth + 1)
      ('[' :: (first.chars ++ (behindCommas (more.map Spaced.chars) ++ [']'])))
      (.array ((first :: more).map Spaced.content))
  | emptyObject {depth : Nat} {blanks : List Char} (h : AreBlanks blanks) :
    Spells (depth + 1) ('\x7b' :: (blanks ++ ['\x7d'])) (.object [])
  | object {depth : Nat} {first : SpacedMember} {more : List SpacedMember}
    (hblanks : ∀ member ∈ first :: more, member.key.HasBlanks ∧ member.value.HasBlanks)
    (hkeys : ∀ member ∈ first :: more, SpellsString member.key.text member.key.content)
    (hdistinct : ((first :: more).map fun member => member.key.content).Nodup)
    (h : ∀ member ∈ first :: more, Spells depth member.value.text member.value.content) :
    Spells (depth + 1)
      ('\x7b' :: (first.chars ++ (behindCommas (more.map SpacedMember.chars) ++ ['\x7d'])))
      (.object ((first :: more).map SpacedMember.content))

/-- A text that spells a value, with blanks around it. -/
def SpellsDocument (depth : Nat) (cs : List Char) (value : Value) : Prop :=
  ∃ document : Spaced Value, document.chars = cs ∧ document.content = value ∧ document.HasBlanks ∧
    Spells depth document.text value

/-! ## Reading blanks and numbers -/

theorem AreBlanks.all_isSpace {cs : List Char} (h : AreBlanks cs) : ∀ c ∈ cs, isSpace c = true := by
  intro c hmem
  obtain rfl | rfl | rfl | rfl := h c hmem <;> rfl

/-- Blanks are skipped up to what is none. -/
theorem AreBlanks.skipSpace_append {blanks : List Char} (h : AreBlanks blanks) {c : Char}
    (hc : isSpace c = false) (rest : List Char) : skipSpace (blanks ++ c :: rest) = c :: rest := by
  unfold skipSpace
  rw [List.dropWhile_append_of_pos h.all_isSpace, List.dropWhile_cons_of_neg (by simp [hc])]

theorem AreBlanks.skipSpace_eq_nil {blanks : List Char} (h : AreBlanks blanks) :
    skipSpace blanks = [] :=
  List.dropWhile_eq_nil_iff.mpr h.all_isSpace

/-- What comes next cannot continue a number. -/
def EndsNumber (rest : List Char) : Prop :=
  ∀ c ∈ rest.head?, c.isDigit = false ∧ c ≠ '.' ∧ c ≠ 'e' ∧ c ≠ 'E'

theorem endsNumber_nil : EndsNumber [] := by simp [EndsNumber]

theorem endsNumber_cons {c : Char} (rest : List Char) (hdigit : c.isDigit = false)
    (hpoint : c ≠ '.') (hlower : c ≠ 'e') (hupper : c ≠ 'E') : EndsNumber (c :: rest) := by
  simp [EndsNumber, hdigit, hpoint, hlower, hupper]

theorem AreBlanks.endsNumber_append {blanks rest : List Char} (h : AreBlanks blanks)
    (hrest : EndsNumber rest) : EndsNumber (blanks ++ rest) := by
  cases blanks with
  | nil => exact hrest
  | cons c cs =>
    obtain rfl | rfl | rfl | rfl := h c List.mem_cons_self <;>
      exact endsNumber_cons _ rfl (by decide) (by decide) (by decide)

theorem readDigits_append {digits rest : List Char} (hne : digits ≠ []) (hdigits : AreDigits digits)
    (hrest : ∀ c ∈ rest.head?, c.isDigit = false) :
    readDigits (digits ++ rest) = some (digits, rest) := by
  have hstop : rest.takeWhile Char.isDigit = [] ∧ rest.dropWhile Char.isDigit = rest := by
    cases rest with
    | nil => exact ⟨rfl, rfl⟩
    | cons c cs =>
      have hc := hrest c rfl
      simp [hc]
  have htake : (digits ++ rest).takeWhile Char.isDigit = digits := by
    rw [List.takeWhile_append_of_pos hdigits, hstop.1, List.append_nil]
  have hdrop : (digits ++ rest).dropWhile Char.isDigit = rest := by
    rw [List.dropWhile_append_of_pos hdigits, hstop.2]
  obtain ⟨d, ds, rfl⟩ := List.exists_cons_of_ne_nil hne
  simp only [readDigits, htake, hdrop]

theorem IsWhole.readWhole_append {whole rest : List Char} (h : IsWhole whole)
    (hrest : ∀ c ∈ rest.head?, c.isDigit = false) :
    readWhole (whole ++ rest) = some (whole, rest) := by
  cases h with
  | zero => rfl
  | @digits d ds hd hne hds =>
    have hread := readDigits_append (List.cons_ne_nil d ds) (hds.cons hd) hrest
    rw [← hread, List.cons_append]
    unfold readWhole
    split
    · rename_i heq
      exact absurd (List.cons.inj heq).1 hne
    · rfl

theorem IsPlaces.readPlaces_append {places rest : List Char} (h : IsPlaces places)
    (hrest : ∀ c ∈ rest.head?, c.isDigit = false ∧ c ≠ '.') :
    readPlaces (places ++ rest) = some (places, rest) := by
  cases h with
  | none =>
    rw [List.nil_append]
    unfold readPlaces
    split
    · exact absurd rfl (hrest '.' rfl).2
    · rfl
  | digits hne hds =>
    simp [readPlaces, readDigits_append hne hds fun c hc => (hrest c hc).1]

theorem IsPower.readPower_append {power rest : List Char} (h : IsPower power)
    (hrest : EndsNumber rest) : readPower (power ++ rest) = some (power, rest) := by
  have hstop : ∀ c ∈ rest.head?, c.isDigit = false := fun c hc => (hrest c hc).1
  cases h with
  | none =>
    cases rest with
    | nil => rfl
    | cons c cs =>
      obtain ⟨-, -, hlower, hupper⟩ := hrest c rfl
      simp [readPower, hlower, hupper]
  | @digits mark sign ds hmark hsign hne hds =>
    have hread := readDigits_append hne hds hstop
    obtain rfl | rfl | rfl := hsign
    · obtain ⟨d, ds, rfl⟩ := List.exists_cons_of_ne_nil hne
      have hplus := hds.ne List.mem_cons_self (d := '+') rfl
      have hminus := hds.ne List.mem_cons_self (d := '-') rfl
      rw [List.cons_append] at hread
      simp [readPower, hmark, hplus, hminus, hread]
    · simp [readPower, hmark, hread]
    · simp [readPower, hmark, hread]

theorem IsWhole.exists_cons {whole : List Char} (h : IsWhole whole) :
    ∃ d ds, whole = d :: ds ∧ d.isDigit = true := by
  cases h with
  | zero => exact ⟨'0', [], rfl, rfl⟩
  | @digits d ds hd _ _ => exact ⟨d, ds, rfl, hd⟩

/-- A number is read as it is spelled, where what follows does not continue it. -/
theorem IsNumber.readNumber_append {literal rest : List Char} (h : IsNumber literal)
    (hrest : EndsNumber rest) : readNumber (literal ++ rest) = some (literal, rest) := by
  cases h with
  | @parts sign whole places power hsign hwhole hplaces hpower =>
    have hafterPlaces : ∀ c ∈ (power ++ rest).head?, c.isDigit = false ∧ c ≠ '.' := by
      cases hpower with
      | none => exact fun c hc => ⟨(hrest c hc).1, (hrest c hc).2.1⟩
      | digits hmark _ _ _ =>
        rintro c ⟨⟩
        obtain rfl | rfl := hmark <;> decide
    have hafterWhole : ∀ c ∈ (places ++ (power ++ rest)).head?, c.isDigit = false := by
      cases hplaces with
      | none => exact fun c hc => (hafterPlaces c hc).1
      | digits _ _ =>
        rintro c ⟨⟩
        rfl
    have hpowerRead := hpower.readPower_append hrest
    have hplacesRead := hplaces.readPlaces_append hafterPlaces
    have hwholeRead := hwhole.readWhole_append hafterWhole
    obtain ⟨d, ds, rfl, hd⟩ := hwhole.exists_cons
    have hminus : d ≠ '-' := by
      rintro rfl
      cases hd
    rw [List.cons_append] at hwholeRead
    obtain rfl | rfl := hsign
    · simp [readNumber, hminus, hwholeRead, hplacesRead, hpowerRead]
    · simp [readNumber, hwholeRead, hplacesRead, hpowerRead]

/-! ## Reading strings -/

theorem IsHexDigit.hexValue?_eq {c : Char} {n : Nat} (h : IsHexDigit c n) :
    hexValue? c = some n := by
  have hlower : ∀ n < 16, ("0123456789abcdef".toList[n]?).bind hexValue? = some n := by decide
  have hupper : ∀ n < 16, ("0123456789ABCDEF".toList[n]?).bind hexValue? = some n := by decide
  obtain h | h := h
  · have hlt := (List.getElem?_eq_some_iff.mp h).1
    have hread := hlower n hlt
    rwa [h] at hread
  · have hlt := (List.getElem?_eq_some_iff.mp h).1
    have hread := hupper n hlt
    rwa [h] at hread

theorem SpellsUnit.exists_digits {digits : List Char} {n : Nat} (h : SpellsUnit digits n) :
    ∃ a b c d, digits = [a, b, c, d] ∧ codeUnit? a b c d = some n := by
  cases h with
  | @digits a b c d i j k l ha hb hc hd =>
    refine ⟨a, b, c, d, rfl, ?_⟩
    simp [codeUnit?, ha.hexValue?_eq, hb.hexValue?_eq, hc.hexValue?_eq, hd.hexValue?_eq]

/-- A unit that stands at the front of what follows is one. -/
def StartsWithUnit (rest : List Char) : Prop :=
  ∀ a b c d rest', rest = '\\' :: 'u' :: a :: b :: c :: d :: rest' → (codeUnit? a b c d).isSome

theorem SpellsChar.startsWithUnit {cs : List Char} {char : Char} (h : SpellsChar cs char)
    (rest : List Char) : StartsWithUnit (cs ++ rest) := by
  intro a b c d rest' heq
  cases h with
  | plain _ _ hbackslash => exact absurd (List.cons.inj heq).1 hbackslash
  | @short letter _ hmem =>
    obtain ⟨-, rfl, -⟩ : '\\' = '\\' ∧ letter = 'u' ∧ rest = _ := by simpa using heq
    simp [shortEscapes] at hmem
  | unit hunit =>
    obtain ⟨a', b', c', d', rfl, hcode⟩ := hunit.exists_digits
    simp_all
  | pair hhigh _ _ _ _ =>
    obtain ⟨a', b', c', d', rfl, hcode⟩ := hhigh.exists_digits
    simp_all

theorem escaped?_of_mem {letter c : Char} (h : (letter, c) ∈ shortEscapes) :
    letter ≠ 'u' ∧ escaped? letter = some c := by
  have hall : ∀ pair ∈ shortEscapes, pair.1 ≠ 'u' ∧ escaped? pair.1 = some pair.2 := by decide
  exact hall _ h

theorem charOfUnit_toNat (c : Char) : isHighUnit c.toNat = false ∧ charOfUnit c.toNat = c := by
  have hvalid := c.valid
  simp only [UInt32.isValidChar, Nat.isValidChar, UInt32.toNat] at hvalid
  have hnat : c.toNat = c.val.toBitVec.toNat := rfl
  have hhigh : isHighUnit c.toNat = false := by simp [isHighUnit]; omega
  have hlow : isLowUnit c.toNat = false := by simp [isLowUnit]; omega
  simp [charOfUnit, hhigh, hlow]

/-- One spelled character is read, where what follows is spelled as well. -/
theorem SpellsChar.readString_append {cs : List Char} {char : Char} (h : SpellsChar cs char)
    {rest : List Char} (hrest : StartsWithUnit rest) (found : List Char) :
    readString found (cs ++ rest) = readString (char :: found) rest := by
  cases h with
  | plain hleast hquote hbackslash =>
    rw [List.cons_append, List.nil_append, readString]
    · simp [hbackslash, Nat.not_lt.mpr hleast]
    · exact hquote
    · exact fun _ _ _ _ _ hslash _ => hbackslash hslash
    · exact fun _ _ hslash _ => hbackslash hslash
  | short hmem =>
    obtain ⟨hne, hescaped⟩ := escaped?_of_mem hmem
    rw [List.cons_append, List.cons_append, List.nil_append, readString]
    · simp [hescaped]
    · exact fun _ _ _ _ _ hu _ => hne hu
  | unit hunit =>
    obtain ⟨a, b, c, d, rfl, hcode⟩ := hunit.exists_digits
    obtain ⟨hhigh, hchar⟩ := charOfUnit_toNat char
    simp only [List.cons_append, List.nil_append]
    rw [readString, hcode]
    dsimp only
    -- A unit may follow, but this one does not start a pair.
    split
    · rename_i a' b' c' d' rest'
      obtain ⟨low, hlow⟩ := Option.isSome_iff_exists.mp (hrest a' b' c' d' rest' rfl)
      simp [hlow, hhigh, hchar]
    · rw [hchar]
  | @pair _ _ high low _ hhigh hlow hhighRange hlowRange hchar =>
    obtain ⟨a, b, c, d, rfl, hcode⟩ := hhigh.exists_digits
    obtain ⟨a', b', c', d', rfl, hcode'⟩ := hlow.exists_digits
    have hpair : charOfPair high low = char := by
      rw [charOfPair, ← hchar, Char.ofNat_toNat]
    have hranges : (isHighUnit high && isLowUnit low) = true := by
      simp [isHighUnit, isLowUnit, hhighRange, hlowRange]
    simp only [List.cons_append, List.nil_append]
    rw [readString, hcode]
    simp [hcode', hranges, hpair]

theorem SpellsChars.startsWithUnit {cs chars : List Char} (h : SpellsChars cs chars)
    (rest : List Char) : StartsWithUnit (cs ++ '"' :: rest) := by
  cases h with
  | nil =>
    intro a b c d rest' heq
    simp at heq
  | cons hc _ =>
    rw [List.append_assoc]
    exact hc.startsWithUnit _

theorem SpellsChars.readString_append {cs chars : List Char} (h : SpellsChars cs chars)
    (found rest : List Char) :
    readString found (cs ++ '"' :: rest) = some (String.ofList (found.reverse ++ chars), rest) := by
  induction h generalizing found with
  | nil => rw [List.nil_append, readString, List.append_nil]
  | cons hc h ih =>
    rw [List.append_assoc, hc.readString_append (h.startsWithUnit rest), ih]
    simp

theorem SpellsString.exists_cons {cs : List Char} {text : String} (h : SpellsString cs text)
    (rest : List Char) :
    ∃ cs', cs ++ rest = '"' :: cs' ∧ readString [] cs' = some (text, rest) := by
  cases h with
  | @quoted inner _ h =>
    refine ⟨inner ++ '"' :: rest, by simp, ?_⟩
    simpa using h.readString_append [] rest

/-! ## Reading values -/

/-- A text that neither starts with a blank nor closes an array. -/
def Opens (cs : List Char) : Prop := ∃ c cs', cs = c :: cs' ∧ isSpace c = false ∧ c ≠ ']'

theorem IsNumber.exists_cons {literal : List Char} (h : IsNumber literal) :
    ∃ c cs, literal = c :: cs ∧ (c = '-' ∨ c.isDigit = true) := by
  cases h with
  | parts hsign hwhole _ _ =>
    obtain ⟨d, ds, rfl, hd⟩ := hwhole.exists_cons
    obtain rfl | rfl := hsign
    · exact ⟨d, _, rfl, .inr hd⟩
    · exact ⟨'-', _, rfl, .inl rfl⟩

theorem SpellsString.opens {cs : List Char} {text : String} (h : SpellsString cs text) :
    Opens cs := by
  cases h with
  | quoted => exact ⟨'"', _, rfl, rfl, by decide⟩

theorem Spells.opens {depth : Nat} {cs : List Char} {value : Value} (h : Spells depth cs value) :
    Opens cs := by
  cases h with
  | number h =>
    obtain ⟨c, cs', rfl, hc⟩ := h.exists_cons
    refine ⟨c, cs', rfl, ?_⟩
    obtain rfl | hdigit := hc
    · decide
    · simp only [isSpace, Bool.or_eq_false_iff, decide_eq_false_iff_not]
      refine ⟨⟨⟨⟨?_, ?_⟩, ?_⟩, ?_⟩, ?_⟩ <;> rintro rfl <;> cases hdigit
  | string h => exact h.opens
  | _ => exact ⟨_, _, rfl, rfl, by decide⟩

namespace Spaced

variable {α : Type}

theorem skipSpace_chars (spaced : Spaced α) (h : spaced.HasBlanks) (hopens : Opens spaced.text)
    (rest : List Char) :
    skipSpace (spaced.chars ++ rest) = spaced.text ++ (spaced.after ++ rest) := by
  obtain ⟨c, cs, htext, hc, -⟩ := hopens
  simp only [chars, htext, List.append_assoc, List.cons_append]
  exact h.1.skipSpace_append hc _

theorem length_chars (spaced : Spaced α) :
    spaced.chars.length = spaced.before.length + spaced.text.length + spaced.after.length := by
  simp only [chars, List.length_append]
  omega

end Spaced

/-- A text that the reader takes for a value, given a step for each character. -/
def IsReadAs (depth : Nat) (cs : List Char) (value : Value) : Prop :=
  ∀ fuel limit rest, cs.length ≤ fuel → depth ≤ limit → EndsNumber rest →
    readValue (fuel + 1) limit (cs ++ rest) = some (value, rest)

theorem readItems_append {depth limit : Nat} (hlimit : depth ≤ limit) (rest : List Char)
    (first : Spaced Value) (more : List (Spaced Value))
    (hblanks : ∀ item ∈ first :: more, item.HasBlanks)
    (hopens : ∀ item ∈ first :: more, Opens item.text)
    (hread : ∀ item ∈ first :: more, IsReadAs depth item.text item.content)
    (fuel : Nat) (found : List Value)
    (hfuel : first.text.length + (behindCommas (more.map Spaced.chars)).length ≤ fuel) :
    readItems (fuel + 2) limit found (first.text ++ (first.after ++
        (behindCommas (more.map Spaced.chars) ++ ']' :: rest))) =
      some (.array (found.reverse ++ (first :: more).map Spaced.content), rest) := by
  induction more generalizing first fuel found with
  | nil =>
    simp only [List.forall_mem_singleton] at hblanks hread
    have hitem := hread fuel limit (first.after ++ ']' :: rest) (by omega) hlimit
      (hblanks.2.endsNumber_append (endsNumber_cons _ rfl (by decide) (by decide) (by decide)))
    have hskip := hblanks.2.skipSpace_append (c := ']') rfl rest
    simp [readItems, hitem, hskip]
  | cons second more ih =>
    simp only [List.forall_mem_cons] at hblanks hopens hread
    simp only [List.map_cons, behindCommas_cons, List.length_cons, List.length_append,
      second.length_chars] at hfuel
    obtain ⟨fuel, rfl⟩ : ∃ n, fuel = n + 1 := ⟨fuel - 1, by omega⟩
    have hitem := hread.1 (fuel + 1) limit (first.after ++
        ',' :: (second.chars ++ (behindCommas (more.map Spaced.chars) ++ ']' :: rest)))
      (by omega) hlimit
      (hblanks.1.2.endsNumber_append (endsNumber_cons _ rfl (by decide) (by decide) (by decide)))
    have hskip := hblanks.1.2.skipSpace_append (c := ',') rfl
      (second.chars ++ (behindCommas (more.map Spaced.chars) ++ ']' :: rest))
    have hnext := second.skipSpace_chars hblanks.2.1 hopens.2.1
      (behindCommas (more.map Spaced.chars) ++ ']' :: rest)
    have hmore := ih second (by simpa using hblanks.2) (by simpa using hopens.2)
      (by simpa using hread.2) fuel (first.content :: found) (by omega)
    simp only [List.map_cons, behindCommas_cons, List.append_assoc, List.cons_append]
    rw [readItems, hitem]
    simp [hskip, hnext, hmore]

/-- A member with a key of its own comes last. -/
theorem insertMember_of_nodup {key : String} (value : Value) {found : List (String × Value)}
    {keys : List String} (h : (found.map Prod.fst ++ key :: keys).Nodup) :
    insertMember key value found = found ++ [(key, value)] := by
  induction found with
  | nil => rfl
  | cons member found ih =>
    obtain ⟨hfirst, hrest⟩ := List.nodup_cons.mp h
    have hne : key ≠ member.1 := by
      rintro rfl
      exact hfirst (List.mem_append_right _ List.mem_cons_self)
    simp [insertMember, hne, ih hrest]

/-- A member is read up to what separates it from the next or closes the object. -/
theorem readMembers_member {depth limit : Nat} (hlimit : depth ≤ limit) (member : SpacedMember)
    (hblanks : member.key.HasBlanks ∧ member.value.HasBlanks)
    (hkey : SpellsString member.key.text member.key.content) (hopens : Opens member.value.text)
    (hread : IsReadAs depth member.value.text member.value.content) (fuel : Nat)
    (hfuel : member.value.text.length ≤ fuel) (found : List (String × Value)) {c : Char}
    (hc : isSpace c = false) (rest : List Char) (hends : EndsNumber (c :: rest)) :
    readMembers (fuel + 2) limit found (member.key.text ++ (member.key.after ++
        ':' :: (member.value.chars ++ c :: rest))) =
      if c = ',' then readMembers (fuel + 1) limit
          (insertMember member.key.content member.value.content found) (skipSpace rest)
      else if c = '\x7d' then
        some (.object (insertMember member.key.content member.value.content found), rest)
      else none := by
  obtain ⟨keyRest, htext, hstring⟩ := hkey.exists_cons
    (member.key.after ++ ':' :: (member.value.chars ++ c :: rest))
  have hcolon := hblanks.1.2.skipSpace_append (c := ':') rfl (member.value.chars ++ c :: rest)
  have hvalueSkip := member.value.skipSpace_chars hblanks.2 hopens (c :: rest)
  have hvalue := hread fuel limit (member.value.after ++ c :: rest) hfuel hlimit
    (hblanks.2.2.endsNumber_append hends)
  have hafter := hblanks.2.2.skipSpace_append hc rest
  rw [htext, readMembers]
  simp only [hstring, hcolon, hvalueSkip, hvalue, hafter]
  split
  · simp_all
  · simp_all
  · rename_i hcomma hbrace
    rw [if_neg fun h => hcomma rest (by rw [h]), if_neg fun h => hbrace rest (by rw [h])]

theorem readMembers_append {depth limit : Nat} (hlimit : depth ≤ limit) (rest : List Char)
    (first : SpacedMember) (more : List SpacedMember)
    (hblanks : ∀ member ∈ first :: more, member.key.HasBlanks ∧ member.value.HasBlanks)
    (hkeys : ∀ member ∈ first :: more, SpellsString member.key.text member.key.content)
    (hopens : ∀ member ∈ first :: more, Opens member.value.text)
    (hread : ∀ member ∈ first :: more, IsReadAs depth member.value.text member.value.content)
    (fuel : Nat) (found : List (String × Value))
    (hdistinct : (found.map Prod.fst ++
      (first :: more).map fun member => member.key.content).Nodup)
    (hfuel : first.value.text.length +
      (behindCommas (more.map SpacedMember.chars)).length ≤ fuel) :
    readMembers (fuel + 2) limit found (first.key.text ++ (first.key.after ++
        ':' :: (first.value.chars ++ (behindCommas (more.map SpacedMember.chars) ++
          '\x7d' :: rest)))) =
      some (.object (found ++ (first :: more).map SpacedMember.content), rest) := by
  induction more generalizing first fuel found with
  | nil =>
    simp only [List.forall_mem_singleton] at hblanks hkeys hopens hread
    have hfirst := readMembers_member hlimit first hblanks hkeys hopens hread fuel (by omega) found
      (c := '\x7d') rfl rest (endsNumber_cons _ rfl (by decide) (by decide) (by decide))
    have hinsert := insertMember_of_nodup first.value.content hdistinct
    simp [hfirst, hinsert, SpacedMember.content]
  | cons second more ih =>
    simp only [List.forall_mem_cons] at hblanks hkeys hopens hread
    simp only [List.map_cons, behindCommas_cons, List.length_cons, List.length_append,
      SpacedMember.chars, second.value.length_chars] at hfuel
    obtain ⟨fuel, rfl⟩ : ∃ n, fuel = n + 1 := ⟨fuel - 1, by omega⟩
    have hfirst := readMembers_member hlimit first hblanks.1 hkeys.1 hopens.1 hread.1 (fuel + 1)
      (by omega) found (c := ',') rfl
      (second.chars ++ (behindCommas (more.map SpacedMember.chars) ++ '\x7d' :: rest))
      (endsNumber_cons _ rfl (by decide) (by decide) (by decide))
    have hinsert := insertMember_of_nodup first.value.content hdistinct
    have hnext := second.key.skipSpace_chars hblanks.2.1.1 hkeys.2.1.opens
      (':' ::
        (second.value.chars ++ (behindCommas (more.map SpacedMember.chars) ++ '\x7d' :: rest)))
    have hmore := ih second (by simpa using hblanks.2) (by simpa using hkeys.2)
      (by simpa using hopens.2) (by simpa using hread.2) fuel
      (found ++ [(first.key.content, first.value.content)]) (by simpa using hdistinct) (by omega)
    simp only [List.map_cons, behindCommas_cons, List.append_assoc, List.cons_append, hfirst]
    simp [hinsert, hnext, hmore, SpacedMember.content, SpacedMember.chars]

theorem readValue_number {literal rest : List Char} (h : IsNumber literal) (hrest : EndsNumber rest)
    (fuel limit : Nat) :
    readValue (fuel + 1) limit (literal ++ rest) = some (.number literal, rest) := by
  have hread := h.readNumber_append hrest
  obtain ⟨c, cs, rfl, hc⟩ := h.exists_cons
  have hne : c ≠ 'n' ∧ c ≠ 't' ∧ c ≠ 'f' ∧ c ≠ '"' ∧ c ≠ '[' ∧ c ≠ '\x7b' := by
    obtain rfl | hdigit := hc
    · decide
    · refine ⟨?_, ?_, ?_, ?_, ?_, ?_⟩ <;> rintro rfl <;> cases hdigit
  rw [List.cons_append] at hread ⊢
  simp [readValue, hread, hne]

/-- The reader finds the value that a text spells. -/
theorem Spells.isReadAs {depth : Nat} {cs : List Char} {value : Value} (h : Spells depth cs value) :
    IsReadAs depth cs value := by
  induction h with
  | null | yes | no =>
    intro fuel limit rest _ _ _
    simp [readValue]
  | number h =>
    intro fuel limit rest _ _ hrest
    exact readValue_number h hrest fuel limit
  | string h =>
    intro fuel limit rest _ _ _
    obtain ⟨cs, hcs, hread⟩ := h.exists_cons rest
    rw [hcs]
    simp [readValue, hread]
  | emptyArray h =>
    intro fuel limit rest _ hlimit _
    have hskip := h.skipSpace_append (c := ']') rfl rest
    simp [readValue, hskip, Nat.ne_zero_of_lt hlimit]
  | emptyObject h =>
    intro fuel limit rest _ hlimit _
    have hskip := h.skipSpace_append (c := '\x7d') rfl rest
    simp [readValue, hskip, Nat.ne_zero_of_lt hlimit]
  | @array depth first more hblanks h ih =>
    intro fuel limit rest hfuel hlimit _
    simp only [List.length_cons, List.length_append, first.length_chars, List.length_nil] at hfuel
    obtain ⟨fuel, rfl⟩ : ∃ n, fuel = n + 2 := ⟨fuel - 2, by omega⟩
    obtain ⟨limit, rfl⟩ : ∃ n, limit = n + 1 := ⟨limit - 1, by omega⟩
    have hfirst : first ∈ first :: more := List.mem_cons_self
    have hskip := first.skipSpace_chars (hblanks first hfirst) (h first hfirst).opens
      (behindCommas (more.map Spaced.chars) ++ ']' :: rest)
    have hitems := readItems_append (Nat.le_of_succ_le_succ hlimit) rest first more hblanks
      (fun item hmem => (h item hmem).opens) ih fuel [] (by omega)
    obtain ⟨c, cs, htext, -, hne⟩ := (h first hfirst).opens
    rw [htext, List.cons_append] at hskip hitems
    simp [readValue, hskip, hne, hitems]
  | @object depth first more hblanks hkeys hdistinct h ih =>
    intro fuel limit rest hfuel hlimit _
    simp only [List.length_cons, List.length_append, SpacedMember.chars, first.value.length_chars,
      List.length_nil] at hfuel
    obtain ⟨fuel, rfl⟩ : ∃ n, fuel = n + 2 := ⟨fuel - 2, by omega⟩
    obtain ⟨limit, rfl⟩ : ∃ n, limit = n + 1 := ⟨limit - 1, by omega⟩
    have hfirst : first ∈ first :: more := List.mem_cons_self
    have hskip := first.key.skipSpace_chars (hblanks first hfirst).1 (hkeys first hfirst).opens
      (':' :: (first.value.chars ++ (behindCommas (more.map SpacedMember.chars) ++ '\x7d' :: rest)))
    have hmembers := readMembers_append (Nat.le_of_succ_le_succ hlimit) rest first more hblanks
      hkeys (fun member hmem => (h member hmem).opens) ih fuel [] (by simpa using hdistinct)
      (by omega)
    obtain ⟨cs, hcs, -⟩ := (hkeys first hfirst).exists_cons (first.key.after ++
      ':' :: (first.value.chars ++ (behindCommas (more.map SpacedMember.chars) ++ '\x7d' :: rest)))
    rw [hcs] at hskip hmembers
    simp [readValue, SpacedMember.chars, hskip, hmembers]

theorem SpellsDocument.readValue_eq {depth : Nat} {cs : List Char} {value : Value}
    (h : SpellsDocument depth cs value) :
    ∃ blanks, AreBlanks blanks ∧ ∀ limit ≥ depth,
      readValue (2 * cs.length + 1) limit (skipSpace cs) = some (value, blanks) := by
  obtain ⟨document, rfl, rfl, hblanks, h⟩ := h
  refine ⟨document.after, hblanks.2, fun limit hlimit => ?_⟩
  have hskip := document.skipSpace_chars hblanks h.opens []
  have hlength := document.length_chars
  have hread := h.isReadAs (2 * document.chars.length) limit document.after (by omega) hlimit
    (by simpa using hblanks.2.endsNumber_append endsNumber_nil)
  rw [List.append_nil, List.append_nil] at hskip
  rw [hskip, hread]

/-- A text spells one value at most. -/
theorem SpellsDocument.value_eq {depth depth' : Nat} {cs : List Char} {value value' : Value}
    (h : SpellsDocument depth cs value) (h' : SpellsDocument depth' cs value') :
    value = value' := by
  obtain ⟨blanks, -, hread⟩ := h.readValue_eq
  obtain ⟨blanks', -, hread'⟩ := h'.readValue_eq
  have heq := (hread (max depth depth') (Nat.le_max_left _ _)).symm.trans
    (hread' (max depth depth') (Nat.le_max_right _ _))
  simpa using congrArg (Option.map Prod.fst) heq

theorem SpellsDocument.read_eq {depth : Nat} {cs : List Char} {value : Value}
    (h : SpellsDocument depth cs value) (hdepth : depth ≤ deepest) : read cs = some value := by
  obtain ⟨blanks, hblanks, hread⟩ := h.readValue_eq
  simp [read, readFirst, hread deepest hdepth, hblanks.skipSpace_eq_nil]

/-! ## Writing -/

theorem isHexDigit_digitChar : ∀ n < 16, IsHexDigit (Nat.digitChar n) n := by
  unfold IsHexDigit
  decide

theorem spellsUnit_hexDigits {n : Nat} (h : n < 65536) : SpellsUnit (Text.hexDigits n 4) n := by
  have hdigit (k : Nat) : IsHexDigit (Nat.digitChar (k % 16)) (k % 16) :=
    isHexDigit_digitChar _ (Nat.mod_lt _ (by decide))
  have hunit :=
    SpellsUnit.digits (hdigit (n / 4096)) (hdigit (n / 256)) (hdigit (n / 16)) (hdigit n)
  have hvalue : ((n / 4096 % 16 * 16 + n / 256 % 16) * 16 + n / 16 % 16) * 16 + n % 16 = n := by
    omega
  rw [hvalue] at hunit
  simpa [Text.hexDigits, List.range_succ] using hunit

theorem spellsChar_escapeChar (c : Char) : SpellsChar (escapeChar c) c := by
  have hcode (n : Nat) (h : c.toNat = n) : c = Char.ofNat n := by rw [← h, Char.ofNat_toNat]
  unfold escapeChar
  split
  · rename_i h
    simp only [Bool.or_eq_true, decide_eq_true_eq] at h
    obtain rfl | rfl := h <;> exact .short (by decide)
  split
  · rename_i h
    rw [hcode _ h]
    exact .short (by decide)
  split
  · rename_i h
    rw [hcode _ h]
    exact .short (by decide)
  split
  · rename_i h
    exact h ▸ .short (by decide)
  split
  · rename_i h
    exact h ▸ .short (by decide)
  split
  · rename_i h
    exact h ▸ .short (by decide)
  split
  · rename_i h
    refine .unit (spellsUnit_hexDigits ?_)
    simp only [Bool.or_eq_true, decide_eq_true_eq] at h
    obtain ((((h | rfl) | rfl) | rfl) | h) | h := h
    all_goals first | omega | decide
  · rename_i hquote _ _ _ _ _ hplain
    simp only [Bool.or_eq_true, decide_eq_true_eq, not_or] at hquote hplain
    exact .plain (by omega) hquote.1 hquote.2

theorem spellsString_stringChars (text : String) : SpellsString (stringChars text) text := by
  have hchars (chars : List Char) : SpellsChars (chars.flatMap escapeChar) chars := by
    induction chars with
    | nil => exact .nil
    | cons c chars ih => exact .cons (spellsChar_escapeChar c) ih
  exact .quoted (hchars text.toList)

theorem areBlanks_newline (level : Nat) : AreBlanks (newline level) := by
  intro c hmem
  obtain rfl | hmem := List.mem_cons.mp hmem
  · exact .inr (.inr (.inl rfl))
  · exact .inl (List.eq_of_mem_replicate hmem)

theorem areBlanks_nil : AreBlanks [] := fun _ hmem => absurd hmem List.not_mem_nil

/-- A value that nests no deeper than `depth`, whose numbers are numbers and whose objects have each
key once. -/
inductive Value.IsProper : Nat → Value → Prop where
  | null {depth : Nat} : IsProper depth .null
  | bool {depth : Nat} (b : Bool) : IsProper depth (.bool b)
  | number {depth : Nat} {literal : List Char} (h : IsNumber literal) :
    IsProper depth (.number literal)
  | string {depth : Nat} (text : String) : IsProper depth (.string text)
  | array {depth : Nat} {items : List Value} (h : ∀ item ∈ items, IsProper depth item) :
    IsProper (depth + 1) (.array items)
  | object {depth : Nat} {members : List (String × Value)}
    (hdistinct : (members.map Prod.fst).Nodup)
    (h : ∀ member ∈ members, IsProper depth member.2) : IsProper (depth + 1) (.object members)

theorem exists_spaced_itemsAt {depth : Nat} (level : Nat) (item : Value) (items : List Value)
    (h : ∀ each ∈ item :: items, Spells depth (each.charsAt (level + 1)) each) :
    ∃ (first : Spaced Value) (more : List (Spaced Value)),
      (∀ slot ∈ first :: more, slot.HasBlanks) ∧
      (∀ slot ∈ first :: more, Spells depth slot.text slot.content) ∧
      (first :: more).map Spaced.content = item :: items ∧
      first.chars ++ behindCommas (more.map Spaced.chars) =
        newline (level + 1) ++ (item.charsAt (level + 1) ++
          (itemsAt (level + 1) items ++ newline level)) := by
  have hnewline := areBlanks_newline (level + 1)
  induction items generalizing item with
  | nil =>
    refine ⟨⟨newline (level + 1), item.charsAt (level + 1), newline level, item⟩, [], ?_⟩
    simpa [Spaced.HasBlanks, hnewline, areBlanks_newline, Spaced.chars, itemsAt] using h
  | cons next items ih =>
    obtain ⟨first, more, hblanks, hspells, hcontent, hchars⟩ :=
      ih next fun each hmem => h each (List.mem_cons_of_mem _ hmem)
    refine ⟨⟨newline (level + 1), item.charsAt (level + 1), [], item⟩, first :: more, ?_, ?_, ?_,
      ?_⟩
    · exact List.forall_mem_cons.mpr ⟨⟨hnewline, areBlanks_nil⟩, hblanks⟩
    · exact List.forall_mem_cons.mpr ⟨h item List.mem_cons_self, hspells⟩
    · rw [List.map_cons, hcontent]
    · simp only [List.map_cons, behindCommas_cons, hchars]
      simp [Spaced.chars, itemsAt]

theorem exists_spaced_membersAt {depth : Nat} (level : Nat) (member : String × Value)
    (members : List (String × Value))
    (h : ∀ each ∈ member :: members, Spells depth (each.2.charsAt (level + 1)) each.2) :
    ∃ (first : SpacedMember) (more : List SpacedMember),
      (∀ slot ∈ first :: more, slot.key.HasBlanks ∧ slot.value.HasBlanks) ∧
      (∀ slot ∈ first :: more, SpellsString slot.key.text slot.key.content) ∧
      (∀ slot ∈ first :: more, Spells depth slot.value.text slot.value.content) ∧
      (first :: more).map SpacedMember.content = member :: members ∧
      first.chars ++ behindCommas (more.map SpacedMember.chars) =
        newline (level + 1) ++ (stringChars member.1 ++ (':' :: ' ' ::
          (member.2.charsAt (level + 1) ++ (membersAt (level + 1) members ++ newline level)))) := by
  have hblank : AreBlanks [' '] := by simp [AreBlanks]
  have hnewline := areBlanks_newline (level + 1)
  induction members generalizing member with
  | nil =>
    refine ⟨⟨⟨newline (level + 1), stringChars member.1, [], member.1⟩,
      ⟨[' '], member.2.charsAt (level + 1), newline level, member.2⟩⟩, [], ?_, ?_, ?_, ?_, ?_⟩
    · exact List.forall_mem_singleton.mpr ⟨⟨hnewline, areBlanks_nil⟩, hblank, areBlanks_newline _⟩
    · exact List.forall_mem_singleton.mpr (spellsString_stringChars _)
    · exact List.forall_mem_singleton.mpr (h member List.mem_cons_self)
    · simp [SpacedMember.content]
    · simp [SpacedMember.chars, Spaced.chars, membersAt]
  | cons next members ih =>
    obtain ⟨first, more, hblanks, hkeys, hspells, hcontent, hchars⟩ :=
      ih next fun each hmem => h each (List.mem_cons_of_mem _ hmem)
    refine ⟨⟨⟨newline (level + 1), stringChars member.1, [], member.1⟩,
      ⟨[' '], member.2.charsAt (level + 1), [], member.2⟩⟩, first :: more, ?_, ?_, ?_, ?_, ?_⟩
    · exact List.forall_mem_cons.mpr ⟨⟨⟨hnewline, areBlanks_nil⟩, hblank, areBlanks_nil⟩, hblanks⟩
    · exact List.forall_mem_cons.mpr ⟨spellsString_stringChars _, hkeys⟩
    · exact List.forall_mem_cons.mpr ⟨h member List.mem_cons_self, hspells⟩
    · rw [List.map_cons, hcontent]
      simp [SpacedMember.content]
    · simp only [List.map_cons, behindCommas_cons, hchars]
      simp [SpacedMember.chars, Spaced.chars, membersAt]

/-- The writer spells the value that it writes. -/
theorem Value.IsProper.spells_charsAt {depth : Nat} {value : Value} (h : value.IsProper depth)
    (level : Nat) : Spells depth (value.charsAt level) value := by
  induction h generalizing level with
  | null => exact .null
  | bool b =>
    cases b
    · exact .no
    · exact .yes
  | number h => exact .number h
  | string text => exact .string (spellsString_stringChars text)
  | @array depth items _ ih =>
    cases items with
    | nil => exact .emptyArray areBlanks_nil
    | cons item items =>
      obtain ⟨first, more, hblanks, hspells, hcontent, hchars⟩ :=
        exists_spaced_itemsAt level item items fun each hmem => ih each hmem (level + 1)
      have hspelled := Spells.array hblanks hspells
      rw [hcontent, ← List.append_assoc, hchars] at hspelled
      simpa [Value.charsAt] using hspelled
  | @object depth members hdistinct _ ih =>
    cases members with
    | nil => exact .emptyObject areBlanks_nil
    | cons member members =>
      obtain ⟨first, more, hblanks, hkeys, hspells, hcontent, hchars⟩ :=
        exists_spaced_membersAt level member members fun each hmem => ih each hmem (level + 1)
      have hkeysEq : (first :: more).map (fun slot => slot.key.content) =
          (member :: members).map Prod.fst := by
        rw [← hcontent, List.map_map]
        rfl
      have hspelled := Spells.object hblanks hkeys (hkeysEq ▸ hdistinct) hspells
      rw [hcontent, ← List.append_assoc, hchars] at hspelled
      simpa [Value.charsAt] using hspelled

/-- A written value is a document that spells it. -/
theorem Value.IsProper.spellsDocument {depth : Nat} {value : Value} (h : value.IsProper depth) :
    SpellsDocument depth value.document.toList value := by
  refine ⟨⟨[], value.charsAt 0, [], value⟩, ?_, rfl, ⟨areBlanks_nil, areBlanks_nil⟩,
    h.spells_charsAt 0⟩
  simp [Spaced.chars, Value.document]

end MonitorCoverage.Json
