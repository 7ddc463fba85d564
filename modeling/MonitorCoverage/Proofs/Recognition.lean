import Mathlib.Data.List.Forall2
import MonitorCoverage.ClassFile.Decoder

/-!
# Decoders and the grammars that they recognize

A grammar says which bytes, standing at which offset, denote which values. A decoder recognizes a
grammar if it succeeds exactly where the bytes before it begin with a phrase of the grammar; it then
yields what the phrase denotes and moves to the end of the phrase. Since this is one equivalence, it
excludes at once a decoder that takes too much and one that takes too little. Grammars compose as
decoders do, so the grammar of a decoder is found by following its definition.
-/

namespace MonitorCoverage

namespace Bytes

theorem ofWord16_eq_iff {word : UInt16} {a b : UInt8} :
    ofWord16 word = [a, b] ↔ word = UInt16.ofNat (a.toNat * 256 + b.toNat) := by
  have ha := a.toNat_lt
  have hb := b.toNat_lt
  have hw := word.toNat_lt
  simp only [ofWord16, List.cons.injEq, and_true, ← UInt8.toNat_inj, ← UInt16.toNat_inj,
    UInt8.toNat_ofNat', UInt16.toNat_ofNat']
  omega

theorem ofWord32_eq_iff {word : UInt32} {a b d e : UInt8} :
    ofWord32 word = [a, b, d, e] ↔
      word = UInt32.ofNat (((a.toNat * 256 + b.toNat) * 256 + d.toNat) * 256 + e.toNat) := by
  have ha := a.toNat_lt
  have hb := b.toNat_lt
  have hd := d.toNat_lt
  have he := e.toNat_lt
  have hw := word.toNat_lt
  simp only [ofWord32, ofWord16, List.cons_append, List.nil_append, List.cons.injEq, and_true,
    ← UInt8.toNat_inj, ← UInt32.toNat_inj, UInt8.toNat_ofNat', UInt16.toNat_ofNat',
    UInt32.toNat_ofNat']
  omega

end Bytes

namespace ClassFile

/-- A list that a count of two bytes can announce. -/
structure Row (ι : Type) where
  items : List ι
  length_lt : items.length < 65536

/-- The count of the items and the bytes of each. -/
def Row.bytes {ι : Type} (itemBytes : ι → Bytes) (row : Row ι) : Bytes :=
  Bytes.ofWord16 (UInt16.ofNat row.items.length) ++ row.items.flatMap itemBytes

namespace Decoder

/-- Which bytes, standing at which offset, denote which values. -/
abbrev Grammar (α : Type) := Nat → Bytes → α → Prop

/-- The decoder succeeds exactly on the phrases of the grammar. -/
def Recognizes {α : Type} (decoder : Decoder α) (grammar : Grammar α) : Prop :=
  ∀ c a c', decoder c = .ok a c' ↔ ∃ phrase,
    c.rest = phrase ++ c'.rest ∧ c'.offset = c.offset + phrase.length ∧ grammar c.offset phrase a

namespace Recognizes

variable {α β : Type} {decoder : Decoder α} {grammar : Grammar α}

theorem congr {grammar' : Grammar α} (h : Recognizes decoder grammar)
    (hg : ∀ offset phrase a, grammar offset phrase a ↔ grammar' offset phrase a) :
    Recognizes decoder grammar' := by
  intro c a c'
  simp only [h c a c', hg]

theorem pure (a : α) :
    Recognizes (Pure.pure a : Decoder α) fun _ phrase b => phrase = [] ∧ b = a := by
  intro c b c'
  constructor
  · intro h
    cases h
    exact ⟨[], rfl, rfl, rfl, rfl⟩
  · rintro ⟨_, hr, ho, rfl, rfl⟩
    obtain ⟨offset, rest⟩ := c
    obtain ⟨offset', rest'⟩ := c'
    obtain rfl : rest = rest' := hr
    obtain rfl : offset' = offset := ho
    rfl

theorem fail (cause : Cause) : Recognizes (fail cause : Decoder α) fun _ _ _ => False := by
  intro c a c'
  constructor
  · intro h
    cases h
  · rintro ⟨_, _, _, h⟩
    cases h

/-- A decoder that reads nothing and yields a result found elsewhere, or fails as it does. -/
theorem ofExcept {result : Except Cause α} (hok : ∀ a, result = .ok a → decoder = Pure.pure a)
    (herror : ∀ cause, result = .error cause → decoder = Decoder.fail cause) :
    Recognizes decoder fun _ phrase a => phrase = [] ∧ result = .ok a := by
  cases result with
  | ok a =>
    rw [hok a rfl]
    exact (pure a).congr fun _ _ b => by rw [Except.ok.injEq, eq_comm (a := b)]
  | error cause =>
    rw [herror cause rfl]
    exact (fail cause).congr fun _ _ _ => by simp

/-- One phrase and then another, which may depend on what the first is a phrase for. -/
theorem bindItem {ι : Type} {value : ι → α} {grammar : ι → Nat → Bytes → Prop}
    {next : α → Decoder β} {grammar' : ι → Grammar β}
    (hd : Recognizes decoder fun offset phrase a => ∃ i, grammar i offset phrase ∧ a = value i)
    (hn : ∀ i, Recognizes (next (value i)) (grammar' i)) :
    Recognizes (decoder >>= next) fun offset phrase b => ∃ i first second,
      phrase = first ++ second ∧ grammar i offset first ∧
        grammar' i (offset + first.length) second b := by
  intro c b c'
  constructor
  · intro h
    simp only [Bind.bind, EStateM.bind] at h
    split at h
    · rename_i a c₁ h₁
      obtain ⟨first, hr₁, ho₁, i, hg₁, rfl⟩ := (hd c a c₁).mp h₁
      obtain ⟨second, hr₂, ho₂, hg₂⟩ := (hn i c₁ b c').mp h
      refine ⟨first ++ second, ?_, ?_, i, first, second, rfl, hg₁, ?_⟩
      · rw [hr₁, hr₂, List.append_assoc]
      · rw [ho₂, ho₁, List.length_append, Nat.add_assoc]
      · rwa [ho₁] at hg₂
    · cases h
  · rintro ⟨_, hr, ho, i, first, second, rfl, hg₁, hg₂⟩
    have h₁ : decoder c = .ok (value i) ⟨c.offset + first.length, second ++ c'.rest⟩ :=
      (hd _ _ _).mpr ⟨first, by rw [hr, List.append_assoc], rfl, i, hg₁, rfl⟩
    have h₂ : next (value i) ⟨c.offset + first.length, second ++ c'.rest⟩ = .ok b c' :=
      (hn _ _ _ _).mpr ⟨second, rfl, by rw [ho, List.length_append, Nat.add_assoc], hg₂⟩
    simp only [Bind.bind, EStateM.bind, h₁, h₂]

/-- One phrase and then another, which may depend on what the first denotes. -/
theorem bind {next : α → Decoder β} {grammar' : α → Grammar β} (hd : Recognizes decoder grammar)
    (hn : ∀ a, Recognizes (next a) (grammar' a)) :
    Recognizes (decoder >>= next) fun offset phrase b => ∃ a first second,
      phrase = first ++ second ∧ grammar offset first a ∧
        grammar' a (offset + first.length) second b := by
  have h : Recognizes decoder fun offset phrase a => ∃ i, grammar offset phrase i ∧ a = id i :=
    hd.congr fun offset phrase a => by simp
  exact h.bindItem hn

theorem map (f : α → β) (hd : Recognizes decoder grammar) :
    Recognizes (f <$> decoder) fun offset phrase b => ∃ a, grammar offset phrase a ∧ b = f a := by
  have h := hd.bind fun a => Recognizes.pure (f a)
  intro c b c'
  have hmap : (f <$> decoder) c = (decoder >>= fun a => Pure.pure (f a)) c := by
    simp only [Functor.map, EStateM.map, Bind.bind, EStateM.bind]
    cases decoder c <;> rfl
  rw [hmap, h c b c']
  constructor
  · rintro ⟨_, hr, ho, a, first, _, rfl, hg, rfl, rfl⟩
    rw [List.append_nil] at hr ho
    exact ⟨first, hr, ho, a, hg, rfl⟩
  · rintro ⟨phrase, hr, ho, a, hg, rfl⟩
    exact ⟨phrase, hr, ho, a, phrase, [], (List.append_nil _).symm, hg, rfl, rfl⟩

theorem within (place : Place) (hd : Recognizes decoder grammar) :
    Recognizes (within place decoder) grammar := by
  intro c a c'
  rw [← hd c a c']
  simp only [Decoder.within]
  cases decoder c with
  | ok b c₁ => rfl
  | error fault c₁ =>
    constructor
    · intro h
      cases h
    · intro h
      cases h

theorem ite {p : Prop} [Decidable p] {other : Decoder α} {grammar' : Grammar α}
    (hd : p → Recognizes decoder grammar) (ho : ¬p → Recognizes other grammar') :
    Recognizes (if p then decoder else other) fun offset phrase a =>
      if p then grammar offset phrase a else grammar' offset phrase a := by
  by_cases h : p
  · simpa only [if_pos h] using hd h
  · simpa only [if_neg h] using ho h

/-- A decoder that goes on only where a condition for failure does not hold. -/
theorem guarded {p : Prop} [Decidable p] {cause : Cause} {next : Unit → Decoder α}
    (hn : Recognizes (next ()) grammar) :
    Recognizes (if p then Decoder.fail cause >>= next else next ()) fun offset phrase a =>
      ¬p ∧ grammar offset phrase a := by
  by_cases h : p
  · rw [if_pos h]
    refine ((fail cause).bind fun _ => hn).congr fun offset phrase a => ?_
    simp [h]
  · rw [if_neg h]
    exact hn.congr fun offset phrase a => by simp [h]

theorem offset :
    Recognizes Decoder.offset fun offset phrase value => phrase = [] ∧ value = offset := by
  intro c v c'
  constructor
  · intro h
    cases h
    exact ⟨[], rfl, rfl, rfl, rfl⟩
  · rintro ⟨_, hr, ho, rfl, rfl⟩
    obtain ⟨offset, rest⟩ := c
    obtain ⟨offset', rest'⟩ := c'
    obtain rfl : rest = rest' := hr
    obtain rfl : offset' = offset := ho
    rfl

theorem u1 : Recognizes u1 fun _ phrase value => phrase = [value] := by
  intro c v c'
  constructor
  · intro h
    obtain ⟨hr, ho⟩ := u1_eq_ok h
    exact ⟨[v], hr, ho, rfl⟩
  · rintro ⟨_, hr, ho, rfl⟩
    obtain ⟨offset, rest⟩ := c
    obtain ⟨offset', rest'⟩ := c'
    obtain rfl : rest = v :: rest' := hr
    obtain rfl : offset' = offset + 1 := ho
    rfl

theorem u2 : Recognizes u2 fun _ phrase value => phrase = Bytes.ofWord16 value := by
  intro c v c'
  constructor
  · intro h
    simp only [Decoder.u2] at h
    split at h
    · rename_i a b rest hr
      cases h
      exact ⟨[a, b], hr, rfl, (Bytes.ofWord16_eq_iff.mpr rfl).symm⟩
    · cases h
  · rintro ⟨_, hr, ho, rfl⟩
    obtain ⟨offset, rest⟩ := c
    obtain ⟨offset', rest'⟩ := c'
    obtain rfl : rest = Bytes.ofWord16 v ++ rest' := hr
    obtain rfl : offset' = offset + 2 := ho
    simp only [Decoder.u2, Bytes.ofWord16, List.cons_append, List.nil_append]
    rw [← Bytes.ofWord16_eq_iff.mp (show Bytes.ofWord16 v = _ from rfl)]

/-- A word of two bytes, such as a slot number, and what is found by it without reading more. -/
theorem u2_bind {next : UInt16 → Decoder α} {denotes : UInt16 → α → Prop}
    (hn : ∀ word, Recognizes (next word) fun _ phrase a => phrase = [] ∧ denotes word a) :
    Recognizes (Decoder.u2 >>= next) fun _ phrase a => ∃ word,
      phrase = Bytes.ofWord16 word ∧ denotes word a := by
  refine (u2.bind hn).congr fun offset phrase a => ?_
  constructor
  · rintro ⟨word, _, _, rfl, rfl, rfl, h⟩
    exact ⟨word, List.append_nil _, h⟩
  · rintro ⟨word, rfl, h⟩
    exact ⟨word, _, [], (List.append_nil _).symm, rfl, rfl, h⟩

theorem u4 : Recognizes u4 fun _ phrase value => phrase = Bytes.ofWord32 value := by
  intro c v c'
  constructor
  · intro h
    simp only [Decoder.u4] at h
    split at h
    · rename_i a b d e rest hr
      cases h
      exact ⟨[a, b, d, e], hr, rfl, (Bytes.ofWord32_eq_iff.mpr rfl).symm⟩
    · cases h
  · rintro ⟨_, hr, ho, rfl⟩
    obtain ⟨offset, rest⟩ := c
    obtain ⟨offset', rest'⟩ := c'
    obtain rfl : rest = Bytes.ofWord32 v ++ rest' := hr
    obtain rfl : offset' = offset + 4 := ho
    simp only [Decoder.u4, Bytes.ofWord32, Bytes.ofWord16, List.cons_append, List.nil_append]
    rw [← Bytes.ofWord32_eq_iff.mp (show Bytes.ofWord32 v = _ from rfl)]

theorem take (n : Nat) :
    Recognizes (take n) fun _ phrase bytes => bytes = phrase ∧ phrase.length = n := by
  intro c v c'
  simp only [Decoder.take, List.splitAt_eq]
  constructor
  · intro h
    split at h
    · rename_i hn
      cases h
      exact ⟨c.rest.take n, (List.take_append_drop n c.rest).symm, by rw [hn], rfl, hn⟩
    · cases h
  · rintro ⟨phrase, hr, ho, rfl, rfl⟩
    obtain ⟨offset, rest⟩ := c
    obtain ⟨offset', rest'⟩ := c'
    obtain rfl : rest = v ++ rest' := hr
    obtain rfl : offset' = offset + v.length := ho
    simp

theorem skip (n : Nat) : Recognizes (skip n) fun _ phrase _ => phrase.length = n := by
  refine ((take n).bind fun _ => Recognizes.pure ()).congr fun offset phrase a => ?_
  constructor
  · rintro ⟨_, _, _, rfl, ⟨rfl, hn⟩, rfl, _⟩
    simpa using hn
  · intro hn
    exact ⟨phrase, phrase, [], by simp, ⟨rfl, hn⟩, rfl, rfl⟩

/-- As many phrases as asked for, each of an item, after what was found before. -/
theorem replicateOnto {ι : Type} {itemBytes : ι → Bytes} {denotes : ι → α → Prop}
    (hd : Recognizes decoder fun _ phrase a => ∃ item, phrase = itemBytes item ∧ denotes item a)
    (n : Nat) (found : List α) :
    Recognizes (replicateOnto decoder n found) fun _ phrase all => ∃ items more,
      items.length = n ∧ phrase = items.flatMap itemBytes ∧ List.Forall₂ denotes items more ∧
        all = found.reverse ++ more := by
  induction n generalizing found with
  | zero =>
    refine (Recognizes.pure found.reverse).congr fun offset phrase all => ?_
    constructor
    · rintro ⟨rfl, rfl⟩
      exact ⟨[], [], rfl, rfl, .nil, (List.append_nil _).symm⟩
    · rintro ⟨items, more, hn, rfl, hf, rfl⟩
      obtain rfl := List.eq_nil_of_length_eq_zero hn
      obtain rfl := List.forall₂_nil_left_iff.mp hf
      exact ⟨rfl, List.append_nil _⟩
  | succ n ih =>
    refine (hd.bind fun a => ih (a :: found)).congr fun offset phrase all => ?_
    constructor
    · rintro ⟨a, _, _, rfl, ⟨item, rfl, ha⟩, items, more, rfl, rfl, hf, rfl⟩
      exact ⟨item :: items, a :: more, rfl, rfl, .cons ha hf, by simp⟩
    · rintro ⟨items, more, hn, rfl, hf, rfl⟩
      obtain ⟨item, items, rfl⟩ := List.exists_cons_of_length_eq_add_one hn
      obtain ⟨a, more, ha, hmore, rfl⟩ := List.forall₂_cons_left_iff.mp hf
      exact ⟨a, itemBytes item, items.flatMap itemBytes, rfl, ⟨item, rfl, ha⟩, items, more,
        Nat.succ.inj hn, rfl, hmore, by simp⟩

theorem counted {ι : Type} {itemBytes : ι → Bytes} {denotes : ι → α → Prop}
    (hd : Recognizes decoder fun _ phrase a => ∃ item, phrase = itemBytes item ∧ denotes item a) :
    Recognizes (counted decoder) fun _ phrase all => ∃ row : Row ι,
      phrase = row.bytes itemBytes ∧ List.Forall₂ denotes row.items all := by
  refine (Recognizes.u2.bind fun count => hd.replicateOnto count.toNat []).congr ?_
  intro offset phrase all
  constructor
  · rintro ⟨count, _, _, rfl, rfl, items, more, hn, rfl, hf, rfl⟩
    have hcount : UInt16.ofNat items.length = count := by rw [hn, UInt16.ofNat_toNat]
    exact ⟨⟨items, hn ▸ count.toNat_lt⟩, by simp only [Row.bytes, hcount], hf⟩
  · rintro ⟨row, rfl, hf⟩
    have hn : (UInt16.ofNat row.items.length).toNat = row.items.length :=
      UInt16.toNat_ofNat_of_lt' row.length_lt
    exact ⟨_, _, _, rfl, rfl, row.items, all, hn.symm, rfl, hf, rfl⟩

/-- Where a grammar does not look at the offset, a decoder run for itself finds a phrase at the
front of its input and does not look at what follows. -/
theorem run_eq_ok_iff {grammar : Bytes → α → Prop}
    (hd : Recognizes decoder fun _ phrase a => grammar phrase a) {bytes : Bytes} {a : α} :
    run decoder bytes = .ok a ↔ ∃ phrase rest, bytes = phrase ++ rest ∧ grammar phrase a := by
  constructor
  · intro h
    simp only [run] at h
    split at h
    · rename_i b c' hb
      cases h
      obtain ⟨phrase, hr, _, hg⟩ := (hd _ _ _).mp hb
      exact ⟨phrase, c'.rest, hr, hg⟩
    · cases h
  · rintro ⟨phrase, rest, rfl, hg⟩
    have h : decoder (Cursor.start (phrase ++ rest)) = .ok a ⟨phrase.length, rest⟩ :=
      (hd _ _ _).mpr ⟨phrase, rfl, by simp [Cursor.start], hg⟩
    simp only [run, h]

end Recognizes

end Decoder

end ClassFile

end MonitorCoverage
