import MonitorCoverage.ClassFile.Basic
import MonitorCoverage.Proofs.ConstantSlots
import MonitorCoverage.Proofs.InstructionDecoding
import MonitorCoverage.Proofs.Outcome

/-!
# The layout of class files

A layout is a class file as the format defines it: words, slot numbers, rows and bodies, with the
bounds that their counts put on them, so that every layout can be written. What a layout denotes is
said through the slots of its constant pool. Parsing succeeds exactly on the layouts that denote a
class, whatever bytes stand behind them, and yields that class.
-/

namespace MonitorCoverage.ClassFile

open Decoder

/-- An attribute: the slot of its name, and its body. -/
structure AttributeLayout where
  name : UInt16
  body : Bytes
  length_lt : body.length < 4294967296

/-- A field or method: access flags, the slots of its name and descriptor, and attributes. -/
structure MemberLayout where
  access : UInt16
  name : UInt16
  descriptor : UInt16
  attributes : Row AttributeLayout

/-- A class file up to its attributes. -/
structure Layout where
  minor : UInt16
  major : UInt16
  le_major : 45 ≤ major.toNat
  pool : PoolLayout
  access : UInt16
  thisClass : UInt16
  superClass : UInt16
  interfaces : Row UInt16
  fields : Row MemberLayout
  methods : Row MemberLayout

/-- The body of a code attribute. A handler takes eight bytes. -/
structure CodeLayout where
  maxStack : UInt16
  maxLocals : UInt16
  code : Bytes
  length_lt : code.length < 4294967296
  handlerCount : UInt16
  handlers : Bytes
  length_handlers : handlers.length = 8 * handlerCount.toNat

/-! ## Bytes -/

def AttributeLayout.bytes (layout : AttributeLayout) : Bytes :=
  Bytes.ofWord16 layout.name ++ Bytes.ofWord32 (UInt32.ofNat layout.body.length) ++ layout.body

def MemberLayout.bytes (layout : MemberLayout) : Bytes :=
  Bytes.ofWord16 layout.access ++ Bytes.ofWord16 layout.name ++ Bytes.ofWord16 layout.descriptor
    ++ layout.attributes.bytes AttributeLayout.bytes

def Layout.bytes (layout : Layout) : Bytes :=
  [0xCA, 0xFE, 0xBA, 0xBE] ++ Bytes.ofWord16 layout.minor ++ Bytes.ofWord16 layout.major
    ++ layout.pool.bytes ++ Bytes.ofWord16 layout.access ++ Bytes.ofWord16 layout.thisClass
    ++ Bytes.ofWord16 layout.superClass ++ layout.interfaces.bytes Bytes.ofWord16
    ++ layout.fields.bytes MemberLayout.bytes ++ layout.methods.bytes MemberLayout.bytes

def CodeLayout.bytes (layout : CodeLayout) : Bytes :=
  Bytes.ofWord16 layout.maxStack ++ Bytes.ofWord16 layout.maxLocals
    ++ Bytes.ofWord32 (UInt32.ofNat layout.code.length) ++ layout.code
    ++ Bytes.ofWord16 layout.handlerCount ++ layout.handlers

/-! ## Denotations -/

/-- An attribute with the constants of its file denotes an attribute with a name. -/
def AttributeLayout.Denotes (constants : List Constant) (layout : AttributeLayout)
    (attr : Attribute) : Prop :=
  Holds constants layout.name.toNat (.text attr.name) ∧ attr.body = layout.body

structure MemberLayout.Denotes (constants : List Constant) (layout : MemberLayout)
    (member : Member) : Prop where
  access : member.access.bits = layout.access
  name : Holds constants layout.name.toNat (.text member.name)
  descriptor : Holds constants layout.descriptor.toNat (.text member.descriptor)
  attributes :
    List.Forall₂ (AttributeLayout.Denotes constants) layout.attributes.items member.attributes

/-- A file denotes an outline: every slot that it names holds what the outline says. -/
structure Layout.Denotes (layout : Layout) (outline : Outline) : Prop where
  minor : outline.minor = layout.minor
  major : outline.major = layout.major
  access : outline.access.bits = layout.access
  name : HoldsClass layout.pool.constants layout.thisClass outline.name
  superName : layout.superClass = 0 ∧ outline.superName = [] ∨
    HoldsClass layout.pool.constants layout.superClass outline.superName
  interfaces :
    List.Forall₂ (HoldsClass layout.pool.constants) layout.interfaces.items outline.interfaces
  fields : List.Forall₂ (MemberLayout.Denotes layout.pool.constants) layout.fields.items
    outline.fields
  methods : List.Forall₂ (MemberLayout.Denotes layout.pool.constants) layout.methods.items
    outline.methods

/-- The body of a code attribute denotes its head and the normal forms of its instructions. -/
structure CodeLayout.Denotes (layout : CodeLayout) (code : Code) : Prop where
  maxStack : code.maxStack = layout.maxStack
  maxLocals : code.maxLocals = layout.maxLocals
  handlers : code.handlers = layout.handlerCount
  instructions : ∃ raws, RawInstruction.FitFrom 0 raws ∧
    layout.code = raws.flatMap RawInstruction.bytes ∧
    code.instructions = RawInstruction.normalFrom 0 raws

/-- The code that attributes give a method: none if none of them is a code attribute, and otherwise
what the body of the last code attribute denotes, whatever bytes stand behind it. -/
def Attribute.GiveCode (attributes : List Attribute) : Option Code → Prop
  | none => ∀ attr ∈ attributes, attr.name ≠ utf8 "Code"
  | some code => ∃ before last after, attributes = before ++ last :: after ∧
      last.name = utf8 "Code" ∧ (∀ attr ∈ after, attr.name ≠ utf8 "Code") ∧
      ∃ (layout : CodeLayout) (rest : Bytes), last.body = layout.bytes ++ rest ∧ layout.Denotes code

/-- A member describes a field, whose attributes are not looked at. -/
structure Member.DescribesField (member : Member) (field : Field) : Prop where
  access : field.access = member.access
  name : field.name = member.name
  descriptor : field.descriptor = member.descriptor

structure Member.DescribesMethod (member : Member) (method : Method) : Prop where
  access : method.access = member.access
  name : method.name = member.name
  descriptor : method.descriptor = member.descriptor
  code : Attribute.GiveCode member.attributes method.code

structure Outline.Describes (outline : Outline) (file : ClassFile) : Prop where
  minor : file.minor = outline.minor
  major : file.major = outline.major
  access : file.access = outline.access
  name : file.name = outline.name
  superName : file.superName = outline.superName
  interfaces : file.interfaces = outline.interfaces
  fields : List.Forall₂ Member.DescribesField outline.fields file.fields
  methods : List.Forall₂ Member.DescribesMethod outline.methods file.methods

/-! ## Reading a layout -/

theorem AttributeLayout.recognizes_read (pool : PoolLayout) :
    Recognizes (Attribute.read pool.pool) fun _ phrase attr => ∃ layout : AttributeLayout,
      phrase = layout.bytes ∧ layout.Denotes pool.constants attr := by
  refine (pool.recognizes_readText.bind fun name => Recognizes.u4.bind fun length =>
    ((Recognizes.take length.toNat).within (.attribute name)).bind fun body => .pure _).congr ?_
  intro offset phrase attr
  constructor
  · rintro ⟨name, _, _, rfl, ⟨slot, rfl, hname⟩, length, _, _, rfl, rfl, body, _, _, rfl,
      ⟨rfl, hlength⟩, rfl, rfl⟩
    have hword : UInt32.ofNat body.length = length := by rw [hlength, UInt32.ofNat_toNat]
    refine ⟨⟨slot, body, hlength ▸ length.toNat_lt⟩, ?_, hname, rfl⟩
    simp only [bytes, hword, List.append_nil, List.append_assoc]
  · rintro ⟨layout, rfl, hname, hbody⟩
    have hword : (UInt32.ofNat layout.body.length).toNat = layout.body.length :=
      UInt32.toNat_ofNat_of_lt' layout.length_lt
    refine ⟨attr.name, Bytes.ofWord16 layout.name, _, List.append_assoc _ _ _,
      ⟨layout.name, rfl, hname⟩, _, _, layout.body, rfl, rfl, layout.body, layout.body, [],
      (List.append_nil _).symm, ⟨rfl, hword.symm⟩, rfl, ?_⟩
    rw [← hbody]

theorem MemberLayout.recognizes_read (pool : PoolLayout) :
    Recognizes (Member.read pool.pool) fun _ phrase member => ∃ layout : MemberLayout,
      phrase = layout.bytes ∧ layout.Denotes pool.constants member := by
  refine (Recognizes.u2.bind fun access => pool.recognizes_readText.bind fun name =>
    pool.recognizes_readText.bind fun descriptor =>
      (AttributeLayout.recognizes_read pool).counted.bind fun attributes => .pure _).congr ?_
  intro offset phrase member
  constructor
  · rintro ⟨access, _, _, rfl, rfl, name, _, _, rfl, ⟨nameSlot, rfl, hname⟩, descriptor, _, _, rfl,
      ⟨descriptorSlot, rfl, hdescriptor⟩, attributes, _, _, rfl, ⟨row, rfl, hrow⟩, rfl, rfl⟩
    refine ⟨⟨access, nameSlot, descriptorSlot, row⟩, ?_, rfl, hname, hdescriptor, hrow⟩
    simp only [bytes, List.append_nil, List.append_assoc]
  · rintro ⟨layout, rfl, h⟩
    refine ⟨layout.access, _, Bytes.ofWord16 layout.name ++ (Bytes.ofWord16 layout.descriptor
        ++ layout.attributes.bytes AttributeLayout.bytes), ?_, rfl,
      member.name, _, _, rfl, ⟨layout.name, rfl, h.name⟩,
      member.descriptor, _, _, rfl, ⟨layout.descriptor, rfl, h.descriptor⟩,
      member.attributes, _, [], (List.append_nil _).symm, ⟨layout.attributes, rfl, h.attributes⟩,
      rfl, ?_⟩
    · simp only [bytes, List.append_assoc]
    · rw [← h.access]

theorem ofWord32_magic : Bytes.ofWord32 magic = [0xCA, 0xFE, 0xBA, 0xBE] := rfl

theorem Layout.recognizes_read : Recognizes Outline.read fun _ phrase outline =>
    ∃ layout : Layout, phrase = layout.bytes ∧ layout.Denotes outline := by
  refine (Recognizes.u4.bind fun word => .guarded <| Recognizes.u2.bind fun minor =>
    Recognizes.u2.bind fun major => .guarded <| PoolLayout.recognizes_read.bindItem fun pool =>
    Recognizes.u2.bind fun access =>
    (pool.recognizes_readClassName.within .thisClass).bind fun name =>
    (pool.recognizes_readOptionalClassName.within .superClass).bind fun superName =>
    (pool.recognizes_readClassName.within .interface).counted.bind fun interfaces =>
    ((MemberLayout.recognizes_read pool).counted.within .fields).bind fun fields =>
    ((MemberLayout.recognizes_read pool).counted.within .methods).bind fun methods =>
      .pure _).congr ?_
  intro offset phrase outline
  constructor
  · intro h
    obtain ⟨word, _, _, rfl, rfl, hword, h⟩ := h
    obtain ⟨minor, _, _, rfl, rfl, h⟩ := h
    obtain ⟨major, _, _, rfl, rfl, hmajor, h⟩ := h
    obtain ⟨pool, _, _, rfl, rfl, h⟩ := h
    obtain ⟨access, _, _, rfl, rfl, h⟩ := h
    obtain ⟨name, _, _, rfl, ⟨thisClass, rfl, hname⟩, h⟩ := h
    obtain ⟨superName, _, _, rfl, ⟨superClass, rfl, hsuper⟩, h⟩ := h
    obtain ⟨_, _, _, rfl, ⟨interfaces, rfl, hinterfaces⟩, h⟩ := h
    obtain ⟨_, _, _, rfl, ⟨fields, rfl, hfields⟩, h⟩ := h
    obtain ⟨_, _, _, rfl, ⟨methods, rfl, hmethods⟩, h⟩ := h
    obtain ⟨rfl, rfl⟩ := h
    have hmagic : word = magic := by simpa using hword
    have hleast : 45 ≤ major.toNat := UInt16.le_iff_toNat_le.mp (UInt16.not_lt.mp hmajor)
    refine ⟨⟨minor, major, hleast, pool, access, thisClass, superClass, interfaces, fields,
      methods⟩, ?_, rfl, rfl, rfl, hname, hsuper, hinterfaces, hfields, hmethods⟩
    simp only [bytes, hmagic, ofWord32_magic, List.append_nil, List.append_assoc]
  · rintro ⟨layout, rfl, h⟩
    have hmajor : ¬layout.major < leastMajor :=
      UInt16.not_lt.mpr (UInt16.le_iff_toNat_le.mpr layout.le_major)
    have hbytes : layout.bytes = Bytes.ofWord32 magic ++ (Bytes.ofWord16 layout.minor
        ++ (Bytes.ofWord16 layout.major ++ (layout.pool.bytes ++ (Bytes.ofWord16 layout.access
        ++ (Bytes.ofWord16 layout.thisClass ++ (Bytes.ofWord16 layout.superClass
        ++ (layout.interfaces.bytes Bytes.ofWord16 ++ (layout.fields.bytes MemberLayout.bytes
        ++ (layout.methods.bytes MemberLayout.bytes ++ []))))))))) := by
      simp only [bytes, ofWord32_magic, List.append_nil, List.append_assoc]
    exact ⟨magic, _, _, hbytes, rfl, by simp, layout.minor, _, _, rfl, rfl, layout.major, _, _, rfl,
      rfl, hmajor, layout.pool, _, _, rfl, rfl, layout.access, _, _, rfl, rfl,
      outline.name, _, _, rfl, ⟨layout.thisClass, rfl, h.name⟩,
      outline.superName, _, _, rfl, ⟨layout.superClass, rfl, h.superName⟩,
      outline.interfaces, _, _, rfl, ⟨layout.interfaces, rfl, h.interfaces⟩,
      outline.fields, _, _, rfl, ⟨layout.fields, rfl, h.fields⟩,
      outline.methods, _, _, rfl, ⟨layout.methods, rfl, h.methods⟩, rfl, by
        rw [← h.minor, ← h.major, ← h.access]⟩

/-! ## Decoding code attributes -/

theorem CodeLayout.recognizes_readBody : Recognizes Code.readBody fun _ phrase head =>
    ∃ layout : CodeLayout, phrase = layout.bytes ∧
      head = (layout.maxStack, layout.maxLocals, layout.code, layout.handlerCount) := by
  refine (Recognizes.u2.bind fun maxStack => Recognizes.u2.bind fun maxLocals =>
    Recognizes.u4.bind fun length => (Recognizes.take length.toNat).bind fun code =>
    Recognizes.u2.bind fun handlers => (Recognizes.skip (handlers.toNat * 8)).bind fun _ =>
      .pure _).congr ?_
  intro offset phrase head
  constructor
  · rintro ⟨maxStack, _, _, rfl, rfl, maxLocals, _, _, rfl, rfl, length, _, _, rfl, rfl,
      code, _, _, rfl, ⟨rfl, hlength⟩, count, _, _, rfl, rfl, _, handlers, _, rfl, hhandlers,
      rfl, rfl⟩
    have hword : UInt32.ofNat code.length = length := by rw [hlength, UInt32.ofNat_toNat]
    refine ⟨⟨maxStack, maxLocals, code, hlength ▸ length.toNat_lt, count, handlers, ?_⟩, ?_, rfl⟩
    · rw [hhandlers, Nat.mul_comm]
    · simp only [bytes, hword, List.append_nil, List.append_assoc]
  · rintro ⟨layout, rfl, rfl⟩
    have hword : (UInt32.ofNat layout.code.length).toNat = layout.code.length :=
      UInt32.toNat_ofNat_of_lt' layout.length_lt
    have hhandlers : layout.handlers.length = layout.handlerCount.toNat * 8 := by
      rw [layout.length_handlers, Nat.mul_comm]
    have hbytes : layout.bytes = Bytes.ofWord16 layout.maxStack ++ (Bytes.ofWord16 layout.maxLocals
        ++ (Bytes.ofWord32 (UInt32.ofNat layout.code.length) ++ (layout.code
        ++ (Bytes.ofWord16 layout.handlerCount ++ (layout.handlers ++ []))))) := by
      simp only [bytes, List.append_nil, List.append_assoc]
    exact ⟨layout.maxStack, _, _, hbytes, rfl, layout.maxLocals, _, _, rfl, rfl, _, _, _, rfl, rfl,
      layout.code, _, _, rfl, ⟨rfl, hword.symm⟩, layout.handlerCount, _, _, rfl, rfl, (), _, _, rfl,
      hhandlers, rfl, rfl⟩

theorem CodeLayout.run_readBody (layout : CodeLayout) (rest : Bytes) :
    Decoder.run Code.readBody (layout.bytes ++ rest) =
      .ok (layout.maxStack, layout.maxLocals, layout.code, layout.handlerCount) :=
  recognizes_readBody.run_eq_ok_iff.mpr ⟨layout.bytes, rest, rfl, layout, rfl, rfl⟩

theorem CodeLayout.decode_body_eq_ok_iff {body : Bytes} {code : Code} :
    Code.decode body = .ok code ↔ ∃ (layout : CodeLayout) (rest : Bytes),
      body = layout.bytes ++ rest ∧ layout.Denotes code := by
  simp only [Code.decode, Outcome.bind_eq_ok_iff, Outcome.pure_eq_ok_iff]
  constructor
  · rintro ⟨_, hbody, instructions, hcode, rfl⟩
    obtain ⟨_, rest, rfl, layout, rfl, rfl⟩ := recognizes_readBody.run_eq_ok_iff.mp hbody
    exact ⟨layout, rest, rfl, rfl, rfl, rfl,
      (Instruction.readFrom_eq_ok_iff (Cursor.start layout.code) [] instructions).mp hcode⟩
  · rintro ⟨layout, rest, rfl, h⟩
    refine ⟨_, layout.run_readBody rest, code.instructions, ?_, ?_⟩
    · exact (Instruction.readFrom_eq_ok_iff (Cursor.start layout.code) [] _).mpr h.instructions
    · rw [← h.maxStack, ← h.maxLocals, ← h.handlers]

/-- The body of the last attribute with a name is that of an attribute after which no attribute has
the name. -/
theorem Member.lastBody?_eq_some_iff {member : Member} {name body : Bytes} :
    member.lastBody? name = some body ↔ ∃ before last after,
      member.attributes = before ++ last :: after ∧ last.name = name ∧
        (∀ attr ∈ after, attr.name ≠ name) ∧ last.body = body := by
  simp only [lastBody?, Option.map_eq_some_iff, List.find?_eq_some_iff_append, decide_eq_true_eq,
    Bool.not_eq_true', decide_eq_false_iff_not]
  constructor
  · rintro ⟨last, ⟨hname, after, before, hsplit, hafter⟩, rfl⟩
    refine ⟨before.reverse, last, after.reverse, ?_, hname, ?_, rfl⟩
    · rw [← List.reverse_inj, hsplit]
      simp
    · intro attr h
      exact hafter attr (List.mem_reverse.mp h)
  · rintro ⟨before, last, after, hsplit, hname, hafter, rfl⟩
    refine ⟨last, ⟨hname, after.reverse, before.reverse, ?_, ?_⟩, rfl⟩
    · simp [hsplit]
    · intro attr h
      exact hafter attr (List.mem_reverse.mp h)

theorem Member.lastBody?_eq_none_iff {member : Member} {name : Bytes} :
    member.lastBody? name = none ↔ ∀ attr ∈ member.attributes, attr.name ≠ name := by
  simp [lastBody?]

/-- A member is decoded to a method exactly if it describes the method. -/
theorem Method.ofMember_eq_ok_iff {member : Member} {method : Method} :
    ofMember member = .ok method ↔ member.DescribesMethod method := by
  obtain ⟨access, name, descriptor, code⟩ := method
  unfold ofMember
  cases hlast : member.lastBody? Code.codeName with
  | none =>
    have hnone := Member.lastBody?_eq_none_iff.mp hlast
    constructor
    · intro h
      cases h
      exact ⟨rfl, rfl, rfl, hnone⟩
    · rintro ⟨rfl, rfl, rfl, hcode⟩
      cases code with
      | none => rfl
      | some code =>
        obtain ⟨before, last, after, hsplit, hname, -, -⟩ := hcode
        exact absurd hname (hnone last (by simp [hsplit]))
  | some body =>
    have hsome := Member.lastBody?_eq_some_iff.mp hlast
    constructor
    · intro h
      obtain ⟨before, last, after, hsplit, hname, hafter, rfl⟩ := hsome
      cases hdecode : Code.decode last.body with
      | error fault => simp [hdecode] at h
      | ok code =>
        simp only [hdecode] at h
        cases h
        exact ⟨rfl, rfl, rfl, before, last, after, hsplit, hname, hafter,
          CodeLayout.decode_body_eq_ok_iff.mp hdecode⟩
    · rintro ⟨rfl, rfl, rfl, hcode⟩
      cases code with
      | none =>
        obtain ⟨before, last, after, hsplit, hname, -, -⟩ := hsome
        exact absurd hname (hcode last (by simp [hsplit]))
      | some code =>
        obtain ⟨before, last, after, hsplit, hname, hafter, hbody⟩ := hcode
        have hlast' : member.lastBody? Code.codeName = some last.body :=
          Member.lastBody?_eq_some_iff.mpr ⟨before, last, after, hsplit, hname, hafter, rfl⟩
        obtain rfl : last.body = body := Option.some.inj (hlast'.symm.trans hlast)
        simp only [CodeLayout.decode_body_eq_ok_iff.mpr hbody]

theorem Member.describesField_iff {member : Member} {field : Field} :
    member.DescribesField field ↔ field = member.toField := by
  obtain ⟨access, name, descriptor⟩ := field
  constructor
  · rintro ⟨rfl, rfl, rfl⟩
    rfl
  · intro h
    cases h
    exact ⟨rfl, rfl, rfl⟩

theorem Member.forall₂_describesField_iff {members : List Member} {fields : List Field} :
    List.Forall₂ DescribesField members fields ↔ fields = members.map toField := by
  induction members generalizing fields with
  | nil => simp
  | cons member members ih =>
    simp only [List.forall₂_cons_left_iff, List.map_cons, describesField_iff, ih]
    simp

theorem ofOutline_eq_ok_iff {outline : Outline} {file : ClassFile} :
    ofOutline outline = .ok file ↔ outline.Describes file := by
  obtain ⟨minor, major, access, name, superName, interfaces, fields, methods⟩ := file
  simp only [ofOutline, Outcome.bind_eq_ok_iff, Outcome.pure_eq_ok_iff, Outcome.mapM_eq_ok_iff,
    Method.ofMember_eq_ok_iff]
  constructor
  · rintro ⟨_, hmethods, h⟩
    cases h
    exact ⟨rfl, rfl, rfl, rfl, rfl, rfl, Member.forall₂_describesField_iff.mpr rfl, hmethods⟩
  · rintro ⟨rfl, rfl, rfl, rfl, rfl, rfl, hfields, hmethods⟩
    obtain rfl := Member.forall₂_describesField_iff.mp hfields
    exact ⟨methods, hmethods, rfl⟩

/-- Reading the outline of a file accepts exactly the layouts that denote an outline. -/
theorem Outline.run_read_eq_ok_iff {data : Bytes} {outline : Outline} :
    Decoder.run Outline.read data = .ok outline ↔ ∃ (layout : Layout) (rest : Bytes),
      data = layout.bytes ++ rest ∧ layout.Denotes outline := by
  rw [Layout.recognizes_read.run_eq_ok_iff]
  constructor
  · rintro ⟨_, rest, rfl, layout, rfl, h⟩
    exact ⟨layout, rest, rfl, h⟩
  · rintro ⟨layout, rest, rfl, h⟩
    exact ⟨_, rest, rfl, layout, rfl, h⟩

/-- Parsing yields a class exactly if the data begins with a layout whose slots hold the names of
the class and its members, and whose last code attributes hold the code of its methods. -/
theorem parse_eq_ok_iff (data : Bytes) (file : ClassFile) :
    parse data = .ok file ↔ ∃ (layout : Layout) (rest : Bytes) (outline : Outline),
      data = layout.bytes ++ rest ∧ layout.Denotes outline ∧ outline.Describes file := by
  simp only [parse, Outcome.bind_eq_ok_iff, Outline.run_read_eq_ok_iff, ofOutline_eq_ok_iff]
  constructor
  · rintro ⟨outline, ⟨layout, rest, hdata, hlayout⟩, houtline⟩
    exact ⟨layout, rest, outline, hdata, hlayout, houtline⟩
  · rintro ⟨layout, rest, outline, hdata, hlayout, houtline⟩
    exact ⟨outline, ⟨layout, rest, hdata, hlayout⟩, houtline⟩

end MonitorCoverage.ClassFile
