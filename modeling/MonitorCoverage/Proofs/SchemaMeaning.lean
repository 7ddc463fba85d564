import Mathlib.Algebra.Order.Field.Rat
import Mathlib.Tactic.NormNum
import Mathlib.Tactic.Ring
import MonitorCoverage.Proofs.ReportValidity

/-!
# The meaning of schemas

Which values are valid is said by one rule for each kind of schema, with numbers taken for what they
are and not for how they are written. A schema is its skeleton, which has the same types, names and
required members, together with its bounds. The skeleton of the schema of reports is the schema that
the shape of reports gives. Where numbers are looked at closely, the violations of a schema are
empty for the valid values alone.
-/

namespace MonitorCoverage

namespace Decimal.Exact

/-- The number that an exact decimal stands for. -/
def value (x : Exact) : ℚ := x.signed * (10 : ℚ) ^ x.exponent

/-- Not too large and not too small to be looked at closely. -/
def IsNear (x : Exact) : Prop := x.exponent.natAbs ≤ farthest

end Decimal.Exact

/-- A number within bounds. -/
def Bounds.Hold (bounds : Bounds) (q : ℚ) : Prop :=
  (∀ least ∈ bounds.least, (least : ℚ) ≤ q) ∧ ∀ greatest ∈ bounds.greatest, q ≤ (greatest : ℚ)

namespace Schema

open Json (exactOf)

/-- The values that a schema describes. -/
inductive Valid : Schema → Json.Value → Prop where
  | string {minLength : Nat} {text : String} (h : minLength ≤ text.length) :
    Valid (.string minLength) (.string text)
  | boolean (b : Bool) : Valid .boolean (.bool b)
  | integer {bounds : Bounds} {literal : List Char} (hwhole : ∃ n : ℤ, (exactOf literal).value = n)
    (h : bounds.Hold (exactOf literal).value) : Valid (.integer bounds) (.number literal)
  | number {bounds : Bounds} {literal : List Char} (h : bounds.Hold (exactOf literal).value) :
    Valid (.number bounds) (.number literal)
  | array {itemSchema : Schema} {items : List Json.Value}
    (h : ∀ item ∈ items, Valid itemSchema item) :
    Valid (.array itemSchema) (.array items)
  | anyObject (members : List (String × Json.Value)) : Valid .anyObject (.object members)
  | object {required : List Bytes} {properties : List (Bytes × Schema)}
    {members : List (String × Json.Value)}
    (hrequired : ∀ name ∈ required, ∃ member ∈ members, utf8 member.1 = name)
    (hclosed : ∀ member ∈ members, utf8 member.1 ∈ properties.map Prod.fst)
    (h : ∀ property ∈ properties, ∀ member ∈ members, utf8 member.1 = property.1 →
      Valid property.2 member.2) : Valid (.object required properties) (.object members)

/-! ## Skeletons -/

mutual

/-- A schema without its bounds. -/
def skeleton : Schema → Schema
  | .string _ => .string 0
  | .boolean => .boolean
  | .integer _ => .integer {}
  | .number _ => .number {}
  | .array itemSchema => .array itemSchema.skeleton
  | .anyObject => .anyObject
  | .object required properties => .object required (skeletons properties)
termination_by structural schema => schema

/-- Properties without their bounds. -/
def skeletons : List (Bytes × Schema) → List (Bytes × Schema)
  | [] => []
  | (name, schema) :: properties => (name, schema.skeleton) :: skeletons properties
termination_by structural properties => properties

end

mutual

/-- The bounds of a schema hold wherever they apply. -/
def BoundsHold : Schema → Json.Value → Prop
  | .string minLength, .string text => minLength ≤ text.length
  | .integer bounds, .number literal => bounds.Hold (exactOf literal).value
  | .number bounds, .number literal => bounds.Hold (exactOf literal).value
  | .array itemSchema, .array items => ∀ item ∈ items, itemSchema.BoundsHold item
  | .object _ properties, .object members => MembersHold properties members
  | _, _ => True
termination_by structural schema => schema

/-- The bounds of properties hold for the members under their names. -/
def MembersHold : List (Bytes × Schema) → List (String × Json.Value) → Prop
  | [], _ => True
  | (name, schema) :: properties, members =>
    (∀ member ∈ members, utf8 member.1 = name → schema.BoundsHold member.2) ∧
      MembersHold properties members
termination_by structural properties => properties

end

theorem hold_unbounded (q : ℚ) : Bounds.Hold {} q := ⟨nofun, nofun⟩

theorem map_fst_skeletons (properties : List (Bytes × Schema)) :
    (skeletons properties).map Prod.fst = properties.map Prod.fst := by
  induction properties with
  | nil => rfl
  | cons property properties ih => rw [skeletons, List.map_cons, List.map_cons, ih]

mutual

/-- A value is valid if it is valid for the skeleton and keeps the bounds. -/
theorem valid_iff_skeleton : ∀ (schema : Schema) (value : Json.Value),
    schema.Valid value ↔ schema.skeleton.Valid value ∧ schema.BoundsHold value
  | .string minLength, value => by
    rw [skeleton]
    constructor
    · intro hvalid
      cases hvalid with
      | string h => exact ⟨.string (Nat.zero_le _), h⟩
    · rintro ⟨hvalid, h⟩
      cases hvalid with
      | string _ => exact .string h
  | .boolean, value => by
    rw [skeleton]
    exact ⟨fun hvalid => ⟨hvalid, by cases hvalid; trivial⟩, And.left⟩
  | .integer bounds, value => by
    rw [skeleton]
    constructor
    · intro hvalid
      cases hvalid with
      | integer hwhole h => exact ⟨.integer hwhole (hold_unbounded _), h⟩
    · rintro ⟨hvalid, h⟩
      cases hvalid with
      | integer hwhole _ => exact .integer hwhole h
  | .number bounds, value => by
    rw [skeleton]
    constructor
    · intro hvalid
      cases hvalid with
      | number h => exact ⟨.number (hold_unbounded _), h⟩
    · rintro ⟨hvalid, h⟩
      cases hvalid with
      | number _ => exact .number h
  | .array itemSchema, value => by
    have hitem := valid_iff_skeleton itemSchema
    rw [skeleton]
    constructor
    · intro hvalid
      cases hvalid with
      | array h =>
        exact ⟨.array fun item hmem => ((hitem item).mp (h item hmem)).1,
          fun item hmem => ((hitem item).mp (h item hmem)).2⟩
    · rintro ⟨hvalid, h⟩
      cases hvalid with
      | array hitems =>
        exact .array fun item hmem => (hitem item).mpr ⟨hitems item hmem, h item hmem⟩
  | .anyObject, value => by
    rw [skeleton]
    exact ⟨fun hvalid => ⟨hvalid, by cases hvalid; trivial⟩, And.left⟩
  | .object required properties, value => by
    have hmembers := validMembers_iff_skeletons properties
    rw [skeleton]
    constructor
    · intro hvalid
      cases hvalid with
      | object hrequired hclosed h =>
        obtain ⟨hskeleton, hbounds⟩ := (hmembers _).mp h
        rw [← map_fst_skeletons] at hclosed
        exact ⟨.object hrequired hclosed hskeleton, hbounds⟩
    · rintro ⟨hvalid, hbounds⟩
      cases hvalid with
      | object hrequired hclosed h =>
        rw [map_fst_skeletons] at hclosed
        exact .object hrequired hclosed ((hmembers _).mpr ⟨h, hbounds⟩)

theorem validMembers_iff_skeletons : ∀ (properties : List (Bytes × Schema))
    (members : List (String × Json.Value)),
    (∀ property ∈ properties, ∀ member ∈ members, utf8 member.1 = property.1 →
      property.2.Valid member.2) ↔
    (∀ property ∈ skeletons properties, ∀ member ∈ members, utf8 member.1 = property.1 →
      property.2.Valid member.2) ∧ MembersHold properties members
  | [], members => by simp [skeletons, MembersHold]
  | (name, schema) :: properties, members => by
    have hschema := valid_iff_skeleton schema
    have hproperties := validMembers_iff_skeletons properties members
    simp only [skeletons, MembersHold, List.forall_mem_cons, hproperties, hschema]
    constructor
    · rintro ⟨hfirst, hvalid, hbounds⟩
      exact ⟨⟨fun member hmem hname => (hfirst member hmem hname).1, hvalid⟩,
        fun member hmem hname => (hfirst member hmem hname).2, hbounds⟩
    · rintro ⟨⟨hfirst, hvalid⟩, hbound, hbounds⟩
      exact ⟨fun member hmem hname => ⟨hfirst member hmem hname, hbound member hmem hname⟩, hvalid,
        hbounds⟩

end

/-! ## Schemas that describe the same values -/

/-- Schemas with the same valid values. -/
def Same (schema schema' : Schema) : Prop := ∀ value, schema.Valid value ↔ schema'.Valid value

theorem Same.refl (schema : Schema) : schema.Same schema := fun _ => Iff.rfl

theorem Same.symm {schema schema' : Schema} (h : schema.Same schema') : schema'.Same schema :=
  fun value => (h value).symm

theorem Same.trans {schema schema' schema'' : Schema} (h : schema.Same schema')
    (h' : schema'.Same schema'') : schema.Same schema'' := fun value => (h value).trans (h' value)

theorem Same.array {schema schema' : Schema} (h : schema.Same schema') :
    (Schema.array schema).Same (.array schema') := by
  intro value
  constructor
  · intro hvalid
    cases hvalid with
    | array hitems => exact .array fun item hmem => (h item).mp (hitems item hmem)
  · intro hvalid
    cases hvalid with
    | array hitems => exact .array fun item hmem => (h item).mpr (hitems item hmem)

theorem valid_object_of_perm {required required' : List Bytes}
    {properties properties' : List (Bytes × Schema)} (entries : List (Bytes × Schema × Schema))
    (hrequired : required.Perm required')
    (hleft : properties.Perm (entries.map fun entry => (entry.1, entry.2.1)))
    (hright : properties'.Perm (entries.map fun entry => (entry.1, entry.2.2)))
    (hsame : ∀ entry ∈ entries, entry.2.1.Same entry.2.2) {value : Json.Value}
    (h : (Schema.object required properties).Valid value) :
    (Schema.object required' properties').Valid value := by
  have hnames : (properties.map Prod.fst).Perm (properties'.map Prod.fst) := by
    have hnames := hleft.map Prod.fst
    have hnames' := hright.map Prod.fst
    rw [List.map_map] at hnames hnames'
    exact hnames.trans hnames'.symm
  cases h with
  | object hpresent hclosed hmembers =>
    refine .object (fun name hmem => hpresent name (hrequired.mem_iff.mpr hmem))
      (fun member hmem => hnames.mem_iff.mp (hclosed member hmem)) ?_
    intro property hproperty member hmem hname
    obtain ⟨entry, hentry, rfl⟩ := List.mem_map.mp (hright.mem_iff.mp hproperty)
    have hother := hleft.mem_iff.mpr (List.mem_map_of_mem hentry)
    exact (hsame entry hentry _).mp (hmembers _ hother member hmem hname)

/-- Neither the order of the required names nor that of the properties matters. -/
theorem same_object {required required' : List Bytes}
    {properties properties' : List (Bytes × Schema)}
    (entries : List (Bytes × Schema × Schema)) (hrequired : required.Perm required')
    (hleft : properties.Perm (entries.map fun entry => (entry.1, entry.2.1)))
    (hright : properties'.Perm (entries.map fun entry => (entry.1, entry.2.2)))
    (hsame : ∀ entry ∈ entries, entry.2.1.Same entry.2.2) :
    (Schema.object required properties).Same (.object required' properties') := by
  intro value
  refine ⟨valid_object_of_perm entries hrequired hleft hright hsame, ?_⟩
  refine valid_object_of_perm (entries.map fun entry => (entry.1, entry.2.2, entry.2.1))
    hrequired.symm (by rw [List.map_map]; exact hright) (by rw [List.map_map]; exact hleft) ?_
  intro swapped hmem
  obtain ⟨entry, hentry, rfl⟩ := List.mem_map.mp hmem
  exact (hsame entry hentry).symm

theorem same_object_of_perm {required required' : List Bytes}
    {properties properties' : List (Bytes × Schema)} (hrequired : required.Perm required')
    (hproperties : properties.Perm properties') :
    (Schema.object required properties).Same (.object required' properties') := by
  refine same_object (properties'.map fun property => (property.1, property.2, property.2))
    hrequired
    (by simpa [Function.comp_def] using hproperties) (by simp [Function.comp_def]) ?_
  intro entry hmem
  obtain ⟨property, -, rfl⟩ := List.mem_map.mp hmem
  exact .refl _

/-! ## Schemas of records -/

namespace Shape

/-- A property with a new name is added somewhere. -/
theorem insertProperty_perm {name : Bytes} (schema : Schema) {properties : List (Bytes × Schema)}
    (h : name ∉ properties.map Prod.fst) :
    (insertProperty name schema properties).Perm ((name, schema) :: properties) := by
  induction properties with
  | nil => exact .refl _
  | cons property properties ih =>
    rw [List.map_cons, List.mem_cons, not_or] at h
    unfold insertProperty
    rw [if_neg h.1]
    split
    · exact .refl _
    · exact ((ih h.2).cons property).trans (.swap _ _ _)

/-- Fields whose tags give them names of their own become required properties. -/
theorem fieldSchemas_perm (fields : List (Bytes × Shape)) (names : List Bytes)
    (hnames : fields.map (fun field => propertyOf? field.1) =
      names.map fun name => some (name, true))
    (required : List Bytes) (properties : List (Bytes × Schema))
    (hdistinct : (properties.map Prod.fst ++ names).Nodup) :
    (fieldSchemas fields required properties).1 = required ++ names ∧
    (fieldSchemas fields required properties).2.Perm
      (properties ++ names.zip (fields.map fun field => field.2.schema)) := by
  induction fields generalizing names required properties with
  | nil =>
    obtain rfl : names = [] := by simpa using hnames
    simp [fieldSchemas]
  | cons field fields ih =>
    obtain ⟨tag, shape⟩ := field
    cases names with
    | nil => simp at hnames
    | cons name names =>
      simp only [List.map_cons, List.cons.injEq] at hnames
      have hnew : name ∉ properties.map Prod.fst := by
        intro hmem
        exact (List.nodup_append.mp hdistinct).2.2 name hmem name List.mem_cons_self rfl
      have hinsert := insertProperty_perm shape.schema hnew
      have hmoved : (insertProperty name shape.schema properties).map Prod.fst ++ names |>.Perm
          (properties.map Prod.fst ++ name :: names) :=
        ((hinsert.map Prod.fst).append_right names).trans List.perm_middle.symm
      obtain ⟨hrequired, hproperties⟩ := ih names hnames.2 (required ++ [name])
        (insertProperty name shape.schema properties) (hmoved.nodup_iff.mpr hdistinct)
      simp only [fieldSchemas, hnames.1, if_true]
      refine ⟨by rw [hrequired, List.append_assoc, List.singleton_append], ?_⟩
      exact hproperties.trans ((hinsert.append_right _).trans List.perm_middle.symm)

/-- The schema of a record has a required property for each field. -/
theorem same_record (fields : List (Bytes × Shape)) (names : List Bytes)
    (hnames : fields.map (fun field => propertyOf? field.1) =
      names.map fun name => some (name, true))
    (hdistinct : names.Nodup) :
    (record fields).schema.Same
      (.object names (names.zip (fields.map fun field => field.2.schema))) := by
  obtain ⟨hrequired, hproperties⟩ := fieldSchemas_perm fields names hnames [] [] hdistinct
  exact same_object_of_perm (.of_eq hrequired) hproperties

end Shape

end Schema

/-! ## Checking -/

namespace Decimal.Exact

variable {x y : Exact}

/-- The number on the grid of a smaller power of ten. -/
theorem value_eq_mul {least : Int} (h : least ≤ x.exponent) :
    x.value = ((x.signed * Nat.pow 10 (x.exponent - least).toNat : ℤ) : ℚ) * (10 : ℚ) ^ least := by
  obtain ⟨places, hplaces⟩ := Int.eq_ofNat_of_zero_le (Int.sub_nonneg_of_le h)
  have hexponent : x.exponent = places + least := by omega
  rw [value, hplaces, hexponent, zpow_add₀ (by norm_num), zpow_natCast, Int.toNat_natCast]
  push_cast [Nat.pow_eq]
  ring

theorem le_iff (hx : x.IsNear) (hy : y.IsNear) : x.le y = true ↔ x.value ≤ y.value := by
  have hclamp : ∀ z : Exact, z.IsNear →
      max (-(farthest : Int)) (min farthest z.exponent) = z.exponent := by
    intro z hz
    unfold IsNear at hz
    omega
  unfold le
  dsimp only
  rw [decide_eq_true_iff, hclamp x hx, hclamp y hy,
    value_eq_mul (Int.min_le_left x.exponent y.exponent),
    value_eq_mul (Int.min_le_right x.exponent y.exponent),
    mul_le_mul_iff_left₀ (zpow_pos (by norm_num) _),
    Int.cast_le]

theorem natAbs_signed (x : Exact) : x.signed.natAbs = x.coefficient := by
  unfold signed
  split <;> omega

theorem isInteger_iff (h : x.IsNear) : x.isInteger = true ↔ ∃ n : ℤ, x.value = n := by
  have hpow (n : Nat) : (10 : ℚ) ^ n ≠ 0 := by positivity
  unfold isInteger
  unfold IsNear at h
  simp only [h, Bool.or_eq_true, Bool.and_eq_true, decide_eq_true_eq, true_and]
  by_cases hnonneg : 0 ≤ x.exponent
  · have hvalue := value_eq_mul hnonneg
    rw [zpow_zero, mul_one] at hvalue
    exact iff_of_true (.inr (.inl hnonneg)) ⟨_, hvalue⟩
  · have hexponent : x.exponent = -(x.exponent.natAbs : Int) := by omega
    have hvalue (n : ℤ) : x.value = n ↔ x.signed = n * (Nat.pow 10 x.exponent.natAbs : ℕ) := by
      rw [value, hexponent, zpow_neg, zpow_natCast, Int.natAbs_neg, Int.natAbs_natCast,
        ← div_eq_mul_inv, div_eq_iff (hpow _)]
      norm_cast
    simp only [hvalue, hnonneg, false_or]
    rw [← Nat.dvd_iff_mod_eq_zero, ← natAbs_signed]
    constructor
    · rintro (hzero | hdvd)
      · exact ⟨0, by rw [Int.natAbs_eq_zero.mp hzero, zero_mul]⟩
      · obtain ⟨n, hn⟩ := Int.natCast_dvd.mpr hdvd
        exact ⟨n, hn.trans (mul_comm _ _)⟩
    · rintro ⟨n, hn⟩
      exact .inr (Int.natCast_dvd.mp ⟨n, hn.trans (mul_comm _ _)⟩)

end Decimal.Exact

theorem Bounds.violations_eq_nil_iff (bounds : Bounds) (path : List Bytes) {x : Decimal.Exact}
    (h : x.IsNear) : bounds.violations path x = [] ↔ bounds.Hold x.value := by
  have hnear (n : Nat) : (Decimal.Exact.ofNat n).IsNear := Nat.zero_le _
  have hvalue (n : Nat) : (Decimal.Exact.ofNat n).value = n := by
    simp [Decimal.Exact.value, Decimal.Exact.ofNat, Decimal.Exact.signed]
  obtain ⟨least, greatest⟩ := bounds
  unfold Bounds.violations Bounds.Hold
  rw [List.append_eq_nil_iff]
  refine and_congr ?_ ?_
  · cases least with
    | none => simp
    | some least => simp [Decimal.Exact.le_iff (hnear least) h, hvalue]
  · cases greatest with
    | none => simp
    | some greatest => simp [Decimal.Exact.le_iff h (hnear greatest), hvalue]

/-- A value whose numbers are not too large or small to be looked at closely, and whose objects have
each key once. -/
inductive Json.Value.IsOrdinary : Json.Value → Prop where
  | null : IsOrdinary .null
  | bool (b : Bool) : IsOrdinary (.bool b)
  | number {literal : List Char} (h : (exactOf literal).IsNear) : IsOrdinary (.number literal)
  | string (text : String) : IsOrdinary (.string text)
  | array {items : List Json.Value} (h : ∀ item ∈ items, IsOrdinary item) :
    IsOrdinary (.array items)
  | object {members : List (String × Json.Value)} (hdistinct : (members.map Prod.fst).Nodup)
    (h : ∀ member ∈ members, IsOrdinary member.2) : IsOrdinary (.object members)

namespace Schema

theorem missing_eq_nil_iff {required : List Bytes} {path : List Bytes}
    {members : List (String × Json.Value)} :
    missing required path members = [] ↔
      ∀ name ∈ required, ∃ member ∈ members, utf8 member.1 = name := by
  simp [missing, List.filter_eq_nil_iff]

theorem additional_eq_nil_iff {properties : List (Bytes × Schema)} {path : List Bytes}
    {members : List (String × Json.Value)} :
    additional properties path members = [] ↔
      ∀ member ∈ members, utf8 member.1 ∈ properties.map Prod.fst := by
  simp [additional, List.filter_eq_nil_iff]

/-- Under a key that no other member has, there is the member itself. -/
theorem find?_eq_some_iff {members : List (String × Json.Value)}
    (hdistinct : (members.map Prod.fst).Nodup) {name : Bytes} {member : String × Json.Value} :
    members.find? (fun member => utf8 member.1 = name) = some member ↔
      member ∈ members ∧ utf8 member.1 = name := by
  induction members with
  | nil => simp
  | cons first members ih =>
    obtain ⟨hfirst, hrest⟩ := List.nodup_cons.mp hdistinct
    by_cases hname : utf8 first.1 = name
    · rw [List.find?_cons_of_pos (by simpa using hname), Option.some_inj]
      constructor
      · rintro rfl
        exact ⟨List.mem_cons_self, hname⟩
      · rintro ⟨hmem, heq⟩
        obtain rfl | hmem := List.mem_cons.mp hmem
        · rfl
        · have hkey : member.1 = first.1 := utf8_inj.mp (heq.trans hname.symm)
          exact absurd (hkey ▸ List.mem_map_of_mem hmem) hfirst
    · rw [List.find?_cons_of_neg (by simpa using hname), ih hrest, List.mem_cons]
      constructor
      · rintro ⟨hmem, heq⟩
        exact ⟨.inr hmem, heq⟩
      · rintro ⟨rfl | hmem, heq⟩
        · exact absurd heq hname
        · exact ⟨hmem, heq⟩

mutual

/-- A schema has no violations by the valid values, and by no others. -/
theorem violations_eq_nil_iff : ∀ (schema : Schema) (path : List Bytes) {value : Json.Value},
    value.IsOrdinary → (schema.violations path value = [] ↔ schema.Valid value)
  | .string minLength, path, value, hordinary => by
    constructor
    · intro h
      cases value with
      | string text => exact .string (by simpa [violations] using h)
      | _ => simp [violations] at h
    · intro hvalid
      cases hvalid with
      | string h => simpa [violations] using h
  | .boolean, path, value, hordinary => by
    constructor
    · intro h
      cases value with
      | bool b => exact .boolean b
      | _ => simp [violations] at h
    · intro hvalid
      cases hvalid with
      | boolean b => rfl
  | .integer bounds, path, value, hordinary => by
    constructor
    · intro h
      cases hordinary with
      | number hnear =>
        simp only [violations] at h
        split at h
        · rename_i hwhole
          exact .integer ((Decimal.Exact.isInteger_iff hnear).mp hwhole)
            ((bounds.violations_eq_nil_iff path hnear).mp h)
        · cases h
      | _ => simp [violations] at h
    · intro hvalid
      cases hvalid with
      | integer hwhole h =>
        cases hordinary with
        | number hnear =>
          simp [violations, (Decimal.Exact.isInteger_iff hnear).mpr hwhole,
            (bounds.violations_eq_nil_iff path hnear).mpr h]
  | .number bounds, path, value, hordinary => by
    constructor
    · intro h
      cases hordinary with
      | number hnear => exact .number ((bounds.violations_eq_nil_iff path hnear).mp h)
      | _ => simp [violations] at h
    · intro hvalid
      cases hvalid with
      | number h =>
        cases hordinary with
        | number hnear => exact (bounds.violations_eq_nil_iff path hnear).mpr h
  | .array itemSchema, path, value, hordinary => by
    constructor
    · intro h
      cases hordinary with
      | array hitems =>
        rw [violations, List.flatMap_eq_nil_iff] at h
        refine .array fun item hmem => ?_
        obtain ⟨i, hi⟩ := List.mem_iff_getElem?.mp hmem
        exact (violations_eq_nil_iff itemSchema _ (hitems item hmem)).mp
          (h (item, i) (List.mem_zipIdx_iff_getElem?.mpr hi))
      | _ => simp [violations] at h
    · intro hvalid
      cases hvalid with
      | array hvalids =>
        cases hordinary with
        | array hitems =>
          rw [violations, List.flatMap_eq_nil_iff]
          intro entry hentry
          have hmem := List.fst_mem_of_mem_zipIdx hentry
          exact (violations_eq_nil_iff itemSchema _ (hitems _ hmem)).mpr (hvalids _ hmem)
  | .anyObject, path, value, hordinary => by
    constructor
    · intro h
      cases value with
      | object members => exact .anyObject members
      | _ => simp [violations] at h
    · intro hvalid
      cases hvalid with
      | anyObject members => rfl
  | .object required properties, path, value, hordinary => by
    constructor
    · intro h
      cases hordinary with
      | object hdistinct hmembers =>
        rw [violations, List.append_eq_nil_iff, List.append_eq_nil_iff] at h
        exact .object (missing_eq_nil_iff.mp h.1.1) (additional_eq_nil_iff.mp h.1.2)
          ((propertyViolations_eq_nil_iff properties path hdistinct hmembers).mp h.2)
      | _ => simp [violations] at h
    · intro hvalid
      cases hvalid with
      | object hrequired hclosed hvalids =>
        cases hordinary with
        | object hdistinct hmembers =>
          rw [violations, List.append_eq_nil_iff, List.append_eq_nil_iff]
          exact ⟨⟨missing_eq_nil_iff.mpr hrequired, additional_eq_nil_iff.mpr hclosed⟩,
            (propertyViolations_eq_nil_iff properties path hdistinct hmembers).mpr hvalids⟩

theorem propertyViolations_eq_nil_iff : ∀ (properties : List (Bytes × Schema)) (path : List Bytes)
    {members : List (String × Json.Value)}, (members.map Prod.fst).Nodup →
    (∀ member ∈ members, member.2.IsOrdinary) →
    (propertyViolations properties path members = [] ↔
      ∀ property ∈ properties, ∀ member ∈ members, utf8 member.1 = property.1 →
        property.2.Valid member.2)
  | [], path, members, hdistinct, hordinary => by simp [propertyViolations]
  | (name, schema) :: properties, path, members, hdistinct, hordinary => by
    have hproperties := propertyViolations_eq_nil_iff properties path hdistinct hordinary
    have hfind := @find?_eq_some_iff members hdistinct name
    rw [propertyViolations, List.append_eq_nil_iff, hproperties, List.forall_mem_cons]
    refine and_congr_left fun _ => ?_
    cases hfound : members.find? fun member => utf8 member.1 = name with
    | none =>
      rw [hfound] at hfind
      refine iff_of_true rfl fun member hmem hname => ?_
      cases hfind.mpr ⟨hmem, hname⟩
    | some member =>
      obtain ⟨hmem, hname⟩ := hfind.mp hfound
      dsimp only
      rw [violations_eq_nil_iff schema _ (hordinary member hmem)]
      constructor
      · intro h other hother hsame
        have heq := hfound.symm.trans (hfind.mpr ⟨hother, hsame⟩)
        cases heq
        exact h
      · intro h
        exact h member hmem hname

end

end Schema

namespace Report

open Schema (Shape)

/-! ## The schema of reports -/

theorem propertyOf?_fieldTag : ∀ name ∈ ["class", "method_reports", "total", "locked", "percent",
    "methods", "fields", "name", "descriptor", "synchronized", "events"],
    Shape.propertyOf? (fieldTag name) = some (utf8 name, true) := by decide +kernel

theorem same_rowShape : rowShape.schema.Same rowSchema.skeleton :=
  Shape.same_record _
    (["name", "descriptor", "synchronized", "events", "total", "locked", "percent"].map utf8)
    (by simp [propertyOf?_fieldTag]) (by decide +kernel)

/-- The shape of reports gives the schema of reports without its bounds. -/
theorem same_shape : shape.schema.Same schema.skeleton := by
  have hfields : shape.schema.Same (.object _ _) := Shape.same_record _
    (["class", "method_reports", "total", "locked", "percent", "methods", "fields"].map utf8)
    (by simp [propertyOf?_fieldTag]) (by decide +kernel)
  refine hfields.trans ?_
  refine Schema.same_object
    [(utf8 "class", .string 0, .string 0),
      (utf8 "method_reports", .array rowShape.schema, .array rowSchema.skeleton),
      (utf8 "total", .integer {}, .integer {}), (utf8 "locked", .integer {}, .integer {}),
      (utf8 "percent", .number {}, .number {}), (utf8 "methods", .integer {}, .integer {}),
      (utf8 "fields", .integer {}, .integer {})]
    (List.Perm.map utf8 (by decide)) (.refl _)
    (.cons _ (List.perm_append_singleton (utf8 "method_reports", Schema.array rowSchema.skeleton)
      [(utf8 "total", .integer {}), (utf8 "locked", .integer {}), (utf8 "percent", .number {}),
        (utf8 "methods", .integer {}), (utf8 "fields", .integer {})])) ?_
  simp [same_rowShape.array, Schema.Same.refl]

/-! ## The bounds of reports -/

open Json (exactOf)

/-- What holds of each member of an object under a key. -/
def EachMember (value : Json.Value) (key : String) (holds : Json.Value → Prop) : Prop :=
  ∀ members, value = .object members → ∀ member ∈ members, member.1 = key → holds member.2

/-- A number that is not negative. -/
def IsCount (value : Json.Value) : Prop :=
  ∀ literal, value = .number literal → 0 ≤ (exactOf literal).value

/-- A number between zero and a hundred. -/
def IsPercentage (value : Json.Value) : Prop :=
  ∀ literal, value = .number literal → 0 ≤ (exactOf literal).value ∧ (exactOf literal).value ≤ 100

/-- A text with at least one character. -/
def IsName (value : Json.Value) : Prop := ∀ text, value = .string text → 1 ≤ text.length

@[mk_iff] structure RowKeepsBounds (value : Json.Value) : Prop where
  name : EachMember value "name" IsName
  events : EachMember value "events" IsCount
  total : EachMember value "total" IsCount
  locked : EachMember value "locked" IsCount
  percent : EachMember value "percent" IsPercentage

@[mk_iff] structure KeepsBounds (value : Json.Value) : Prop where
  total : EachMember value "total" IsCount
  locked : EachMember value "locked" IsCount
  percent : EachMember value "percent" IsPercentage
  methods : EachMember value "methods" IsCount
  fields : EachMember value "fields" IsCount
  rows : EachMember value "method_reports" fun rows =>
    ∀ items, rows = .array items → ∀ item ∈ items, RowKeepsBounds item

theorem boundsHold_count_iff {value : Json.Value} : count.BoundsHold value ↔ IsCount value := by
  cases value <;> simp [count, Schema.BoundsHold, Bounds.Hold, IsCount]

theorem boundsHold_percentage_iff {value : Json.Value} :
    percentage.BoundsHold value ↔ IsPercentage value := by
  cases value <;> simp [percentage, Schema.BoundsHold, Bounds.Hold, IsPercentage]

theorem boundsHold_name_iff {value : Json.Value} :
    (Schema.string 1).BoundsHold value ↔ IsName value := by
  cases value <;> simp [Schema.BoundsHold, IsName]

theorem boundsHold_text (value : Json.Value) : (Schema.string 0).BoundsHold value := by
  cases value <;> simp [Schema.BoundsHold]

theorem eachMember_object_iff {members : List (String × Json.Value)} {key : String}
    {holds : Json.Value → Prop} :
    EachMember (.object members) key holds ↔
      ∀ member ∈ members, member.1 = key → holds member.2 := by
  constructor
  · intro h
    exact h members rfl
  · rintro h _ ⟨⟩
    exact h

theorem boundsHold_rowSchema_iff {value : Json.Value} :
    rowSchema.BoundsHold value ↔ RowKeepsBounds value := by
  rw [rowKeepsBounds_iff]
  cases value with
  | object members =>
    simp only [rowSchema, Schema.BoundsHold, Schema.MembersHold, utf8_inj, boundsHold_name_iff,
      boundsHold_text, boundsHold_count_iff, boundsHold_percentage_iff, eachMember_object_iff,
      implies_true, true_and, and_true]
  | _ => simp [rowSchema, Schema.BoundsHold, EachMember]

theorem boundsHold_rows_iff {value : Json.Value} : (Schema.array rowSchema).BoundsHold value ↔
    ∀ items, value = .array items → ∀ item ∈ items, RowKeepsBounds item := by
  cases value <;> simp [Schema.BoundsHold, boundsHold_rowSchema_iff]

theorem boundsHold_schema_iff {value : Json.Value} :
    schema.BoundsHold value ↔ KeepsBounds value := by
  rw [keepsBounds_iff]
  cases value with
  | object members =>
    simp only [schema, Schema.BoundsHold, Schema.MembersHold, utf8_inj, boundsHold_text,
      boundsHold_count_iff, boundsHold_percentage_iff, boundsHold_rows_iff, eachMember_object_iff,
      implies_true, true_and, and_true]
  | _ => simp [schema, Schema.BoundsHold, EachMember]

/-- The schema of reports is the schema that the shape of reports gives, with bounds added: a value
is valid for it iff it is valid for the shape, its counts are not negative, its percentages lie
between zero and a hundred, and its rows have names. Where the numbers of a value are not too far
from zero to be looked at closely, checking it against either schema says whether it is valid. -/
theorem valid_iff_valid_shape (value : Json.Value) :
    (schema.Valid value ↔ shape.schema.Valid value ∧ KeepsBounds value) ∧
    (value.IsOrdinary → (schema.accepts value = true ↔ schema.Valid value) ∧
      (shape.schema.accepts value = true ↔ shape.schema.Valid value)) := by
  refine ⟨?_, fun hordinary => ⟨?_, ?_⟩⟩
  · rw [schema.valid_iff_skeleton, same_shape value, boundsHold_schema_iff]
  · rw [Schema.accepts, List.isEmpty_iff, Schema.violations_eq_nil_iff _ _ hordinary]
  · rw [Schema.accepts, List.isEmpty_iff, Schema.violations_eq_nil_iff _ _ hordinary]

end Report

end MonitorCoverage
