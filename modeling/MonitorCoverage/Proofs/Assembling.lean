import MonitorCoverage.Proofs.ClassFileLayout
import MonitorCoverage.Proofs.PoolDrafting

/-!
# Parsing what was assembled

The file of a draft is a layout that denotes what the draft says, if the slot numbers of its pool
have not overflowed. So parsing the file gives the class of the draft back, or the fault of the
first method whose code array holds no instructions.
-/

namespace MonitorCoverage.ClassFile

/-! ## Slot numbers in a file -/

/-- The slot number in an attribute belongs to its name. -/
def AttributeLayout.Numbers (constants : List Constant) (layout : AttributeLayout)
    (attr : Attribute) : Prop :=
  ClassFile.Numbers constants layout.name (.text attr.name) ∧ attr.body = layout.body

/-- The slot numbers in a member belong to its names. Unlike what a member denotes, this does not
depend on whether the numbers have overflowed. -/
structure MemberLayout.Numbers (constants : List Constant) (layout : MemberLayout)
    (member : Member) : Prop where
  access : member.access.bits = layout.access
  name : ClassFile.Numbers constants layout.name (.text member.name)
  descriptor : ClassFile.Numbers constants layout.descriptor (.text member.descriptor)
  attributes :
    List.Forall₂ (AttributeLayout.Numbers constants) layout.attributes.items member.attributes

theorem MemberLayout.Numbers.denotes {constants : List Constant} {layout : MemberLayout}
    {member : Member} (h : layout.Numbers constants member)
    (hcount : slotCount constants ≤ 65535) : layout.Denotes constants member :=
  ⟨h.access, h.name.holds hcount, h.descriptor.holds hcount,
    h.attributes.imp fun _ _ hattr => ⟨hattr.1.holds hcount, hattr.2⟩⟩

/-- A class file that extends the root class, as it is assembled. Its count and its constants need
not agree. -/
structure Assembled where
  major : UInt16
  count : UInt16
  constants : List Constant
  thisClass : UInt16
  superClass : UInt16
  fields : Row MemberLayout
  methods : Row MemberLayout

def Assembled.bytes (file : Assembled) : Bytes :=
  [0xCA, 0xFE, 0xBA, 0xBE] ++ Bytes.ofWord16 0 ++ Bytes.ofWord16 file.major
    ++ Bytes.ofWord16 file.count ++ file.constants.flatMap Constant.bytes ++ Bytes.ofWord16 0x0021
    ++ Bytes.ofWord16 file.thisClass ++ Bytes.ofWord16 file.superClass ++ Bytes.ofWord16 0
    ++ file.fields.bytes MemberLayout.bytes ++ file.methods.bytes MemberLayout.bytes
    ++ Bytes.ofWord16 0

/-- The slot numbers in a file belong to the names of an outline. -/
structure Assembled.Numbers (file : Assembled) (outline : Outline) : Prop where
  name : (PoolKey.className outline.name).Numbers file.constants file.thisClass
  superName : (PoolKey.className outline.superName).Numbers file.constants file.superClass
  fields : List.Forall₂ (MemberLayout.Numbers file.constants) file.fields.items outline.fields
  methods : List.Forall₂ (MemberLayout.Numbers file.constants) file.methods.items outline.methods

namespace MemberDraft

/-- The body of a code attribute for a code array. Two bytes for its attributes stand behind what a
reader looks at. -/
def body (code : Bytes) : Bytes :=
  Bytes.ofWord16 8 ++ Bytes.ofWord16 8 ++ Bytes.ofWord32 (UInt32.ofNat code.length) ++ code
    ++ Bytes.ofWord16 0 ++ Bytes.ofWord16 0

/-- A member as it is to stand in the file. -/
def toMember (draft : MemberDraft) : Member where
  access := draft.access
  name := draft.name
  descriptor := draft.descriptor
  attributes :=
    match draft.code with
    | none => []
    | some code => [⟨utf8 "Code", body code⟩]

/-- The code array of a member has a length that can be written. -/
def Fits (draft : MemberDraft) : Prop := ∀ code, draft.code = some code → code.length < 4294967296

theorem codeBody_eq_ok {code bytes : Bytes} (h : codeBody code = .ok bytes) :
    code.length < 4294967296 ∧ bytes = body code := by
  simp only [codeBody, Outcome.bind_eq_ok_iff, Outcome.pure_eq_ok_iff] at h
  obtain ⟨length, hlength, rfl⟩ := h
  obtain ⟨hlt, rfl⟩ := Range.toWord32_eq_ok hlength
  exact ⟨hlt, rfl⟩

/-- A member that was placed is written as a layout with its slot numbers. -/
theorem exists_layout_of_bytes_eq_ok {constants : List Constant} {draft : MemberDraft}
    {placed : Placed} {codeName : UInt16} {bytes : Bytes}
    (hcodeName : Numbers constants codeName (.text (utf8 "Code")))
    (hplaced : PlacedIn constants draft placed) (hbytes : placed.bytes codeName = .ok bytes) :
    draft.Fits ∧ ∃ layout : MemberLayout,
      bytes = layout.bytes ∧ layout.Numbers constants draft.toMember := by
  obtain ⟨rfl, hname, hdescriptor⟩ := hplaced
  simp only [Placed.bytes] at hbytes
  cases hcode : placed.member.code with
  | none =>
    simp only [hcode, Outcome.pure_eq_ok_iff] at hbytes
    subst hbytes
    refine ⟨fun code h => by simp [hcode] at h,
      ⟨placed.member.access.bits, placed.name, placed.descriptor, ⟨[], by simp⟩⟩, ?_,
      rfl, hname, hdescriptor, by simp [toMember, hcode]⟩
    simp [MemberLayout.bytes, Row.bytes]
  | some code =>
    simp only [hcode, Outcome.bind_eq_ok_iff, Outcome.pure_eq_ok_iff] at hbytes
    obtain ⟨_, hbody, length, hlength, rfl⟩ := hbytes
    obtain ⟨hcodeLt, rfl⟩ := codeBody_eq_ok hbody
    obtain ⟨hbodyLt, rfl⟩ := Range.toWord32_eq_ok hlength
    refine ⟨fun other h => by rw [hcode, Option.some.injEq] at h; exact h ▸ hcodeLt,
      ⟨placed.member.access.bits, placed.name, placed.descriptor,
        ⟨[⟨codeName, body code, hbodyLt⟩], by simp⟩⟩, ?_,
      rfl, hname, hdescriptor, ?_⟩
    · simp [MemberLayout.bytes, AttributeLayout.bytes, Row.bytes]
    · simp [toMember, hcode, AttributeLayout.Numbers, hcodeName]

theorem exists_layouts_of_mapM_eq_ok {constants : List Constant} {drafts : List MemberDraft}
    {placed : List Placed} {codeName : UInt16} {bodies : List Bytes}
    (hcodeName : Numbers constants codeName (.text (utf8 "Code")))
    (hplaced : List.Forall₂ (PlacedIn constants) drafts placed)
    (hbodies : List.Forall₂ (fun p bytes => Placed.bytes codeName p = .ok bytes) placed bodies) :
    (∀ draft ∈ drafts, draft.Fits) ∧ ∃ layouts : List MemberLayout,
      layouts.length = placed.length ∧ bodies.flatten = layouts.flatMap MemberLayout.bytes ∧
        List.Forall₂ (MemberLayout.Numbers constants) layouts (drafts.map toMember) := by
  induction hplaced generalizing bodies with
  | nil =>
    cases hbodies
    exact ⟨by simp, [], rfl, rfl, .nil⟩
  | cons hfirst _ ih =>
    obtain ⟨bytes, rest, hbytes, hrest, rfl⟩ := List.forall₂_cons_left_iff.mp hbodies
    obtain ⟨hfits, layout, rfl, hnumbers⟩ := exists_layout_of_bytes_eq_ok hcodeName hfirst hbytes
    obtain ⟨hall, layouts, hlength, hflatten, hlayouts⟩ := ih hrest
    refine ⟨?_, layout :: layouts, ?_, ?_, .cons hnumbers hlayouts⟩
    · intro draft hdraft
      obtain rfl | hdraft := List.mem_cons.mp hdraft
      · exact hfits
      · exact hall draft hdraft
    · rw [List.length_cons, List.length_cons, hlength]
    · rw [List.flatten_cons, List.flatMap_cons, hflatten]

/-- Members that were placed are written as a row of layouts with their slot numbers. -/
theorem exists_row_of_listBytes_eq_ok {constants : List Constant} {drafts : List MemberDraft}
    {placed : List Placed} {codeName : UInt16} {bytes : Bytes}
    (hcodeName : Numbers constants codeName (.text (utf8 "Code")))
    (hplaced : List.Forall₂ (PlacedIn constants) drafts placed)
    (hbytes : listBytes codeName placed = .ok bytes) :
    (∀ draft ∈ drafts, draft.Fits) ∧ ∃ row : Row MemberLayout,
      bytes = row.bytes MemberLayout.bytes ∧
        List.Forall₂ (MemberLayout.Numbers constants) row.items (drafts.map toMember) := by
  simp only [listBytes, Outcome.bind_eq_ok_iff, Outcome.pure_eq_ok_iff,
    Outcome.mapM_eq_ok_iff] at hbytes
  obtain ⟨count, hword, bodies, hbodies, rfl⟩ := hbytes
  obtain ⟨hlt, rfl⟩ := Range.toWord16_eq_ok hword
  obtain ⟨hfits, layouts, hlength, hflatten, hlayouts⟩ :=
    exists_layouts_of_mapM_eq_ok hcodeName hplaced hbodies
  rw [← hlength] at hlt ⊢
  refine ⟨hfits, ⟨layouts, hlt⟩, ?_, hlayouts⟩
  rw [Row.bytes, hflatten]

end MemberDraft

namespace Draft

/-- What a draft asks the pool for, each key as often as it is asked for. -/
def keys (draft : Draft) : List PoolKey :=
  [.text draft.name, .className draft.name, .text rootName, .className rootName,
    .text (utf8 "Code")] ++ draft.fields.flatMap MemberDraft.keys
    ++ draft.methods.flatMap MemberDraft.keys

/-- The number of slots that the pool of a draft needs: one for each of the different keys, and two
for each constant of eight bytes. -/
def slotsNeeded (draft : Draft) : Nat := draft.keys.dedup.length + 2 * draft.longs.length

/-- The class file of a draft before its code is decoded. -/
def toOutline (draft : Draft) : Outline where
  minor := 0
  major := draft.major
  access := ⟨0x0021⟩
  name := draft.name
  superName := rootName
  interfaces := []
  fields := draft.fields.map MemberDraft.toMember
  methods := draft.methods.map MemberDraft.toMember

/-- A file as a draft is assembled: the pool takes the slots that the draft needs, and the count
and all slot numbers are right up to multiples of 65536. -/
structure AssembledAs (draft : Draft) (file : Assembled) : Prop where
  major : file.major = draft.major
  slots : slotCount file.constants = draft.slotsNeeded
  count : file.count = UInt16.ofNat (1 + draft.slotsNeeded)
  writable : ∀ constant ∈ file.constants, constant.IsWritable
  numbers : file.Numbers draft.toOutline

theorem exists_assembledAs {draft : Draft} {bytes : Bytes} (hbytes : draft.bytes = .ok bytes) :
    (∀ method ∈ draft.methods, method.Fits) ∧
      ∃ file : Assembled, bytes = file.bytes ∧ draft.AssembledAs file := by
  simp only [Draft.bytes, Outcome.bind_eq_ok_iff, Outcome.pure_eq_ok_iff] at hbytes
  obtain ⟨⟨thisClass, pool₁⟩, hthis, ⟨superClass, pool₂⟩, hsuper, ⟨codeName, pool₃⟩, hcode,
    ⟨fields, pool₄⟩, hfields, ⟨methods, pool⟩, hmethods, fieldBytes, hfieldBytes, methodBytes,
    hmethodBytes, rfl⟩ := hbytes
  obtain ⟨hcovers₁, -, hnumbersThis⟩ := PoolDraft.Covers.empty.className hthis
  obtain ⟨hcovers₂, hgrows₂, hnumbersSuper⟩ := hcovers₁.className hsuper
  obtain ⟨hcovers₃, hgrows₃, hnumbersCode⟩ := hcovers₂.text hcode
  obtain ⟨hcoversLongs, hgrowsLongs⟩ := hcovers₃.longs draft.longs
  obtain ⟨hcovers₄, hgrows₄, _, rfl, hplacedFields⟩ :=
    MemberDraft.covers_placeOnto hcoversLongs hfields
  obtain ⟨hcovers, hgrows, _, rfl, hplacedMethods⟩ := MemberDraft.covers_placeOnto hcovers₄ hmethods
  have hneeded : slotCount pool.inOrder = draft.slotsNeeded := by
    rw [hcovers.slotCount_eq]
    simp [slotsNeeded, keys]
  -- what was numbered in an earlier pool keeps its number, since pools grow at their end
  have hgrowsCode := hgrowsLongs.trans (hgrows₄.trans hgrows)
  have hcodeName := hnumbersCode.mono hgrowsCode
  have hplacedFields' := hplacedFields.imp fun _ _ h => h.mono hgrows
  obtain ⟨-, fieldRow, rfl, hfieldRow⟩ :=
    MemberDraft.exists_row_of_listBytes_eq_ok hcodeName hplacedFields' hfieldBytes
  obtain ⟨hfits, methodRow, rfl, hmethodRow⟩ :=
    MemberDraft.exists_row_of_listBytes_eq_ok hcodeName hplacedMethods hmethodBytes
  refine ⟨hfits, ⟨draft.major, pool.next, pool.inOrder, thisClass, superClass, fieldRow, methodRow⟩,
    ?_, rfl, hneeded, by rw [← hneeded]; exact hcovers.next, hcovers.writable,
    hnumbersThis.mono (hgrows₂.trans (hgrows₃.trans hgrowsCode)),
    hnumbersSuper.mono (hgrows₃.trans hgrowsCode), hfieldRow, hmethodRow⟩
  have hmagic : Bytes.ofWord32 0xCAFEBABE = [0xCA, 0xFE, 0xBA, 0xBE] := rfl
  simp [Assembled.bytes, PoolDraft.bytes, PoolDraft.inOrder, hmagic]

/-- Where the slots of the pool have numbers, the count is right. -/
theorem AssembledAs.toNat_count {draft : Draft} {file : Assembled} (h : draft.AssembledAs file)
    (hslots : draft.slotsNeeded ≤ 65534) : file.count.toNat = 1 + slotCount file.constants := by
  rw [h.count, h.slots]
  exact UInt16.toNat_ofNat_of_lt' (by show _ < 65536; omega)

/-- The file of a draft is read back as its outline. -/
theorem run_read_bytes {draft : Draft} {bytes : Bytes} (hmajor : 45 ≤ draft.major.toNat)
    (hbytes : draft.bytes = .ok bytes) (hslots : draft.slotsNeeded ≤ 65534) :
    Decoder.run Outline.read bytes = .ok draft.toOutline ∧
      ∀ method ∈ draft.methods, method.Fits := by
  obtain ⟨hfits, file, rfl, h⟩ := exists_assembledAs hbytes
  have hcount : slotCount file.constants ≤ 65535 := by
    rw [h.slots]
    omega
  have hfill : FillUpTo file.count.toNat 1 file.constants := by
    rw [h.toNat_count hslots]
    exact fillUpTo_slotCount 1 file.constants
  refine ⟨Outline.run_read_eq_ok_iff.mpr ⟨⟨0, file.major, h.major ▸ hmajor,
    ⟨file.count, file.constants, h.writable, hfill⟩, 0x0021, file.thisClass, file.superClass,
    ⟨[], by simp⟩, file.fields, file.methods⟩, Bytes.ofWord16 0, ?_, ?_⟩, hfits⟩
  · simp [Layout.bytes, PoolLayout.bytes, Assembled.bytes, Row.bytes]
  · exact ⟨rfl, h.major.symm, rfl, h.numbers.name.holdsClass hcount,
      .inr (h.numbers.superName.holdsClass hcount), .nil,
      h.numbers.fields.imp fun _ _ hfield => hfield.denotes hcount,
      h.numbers.methods.imp fun _ _ hmethod => hmethod.denotes hcount⟩

end Draft

namespace MemberDraft

/-- The code array of a member, if it has one, decodes to instructions. -/
def Accepted (draft : MemberDraft) : Prop :=
  ∀ code, draft.code = some code → ∃ instructions, Instruction.decode code = .ok instructions

/-- A method is what a draft says: without code if the draft has none, and otherwise with the
instructions of its code array, eight stack entries, eight variables and no handlers. -/
structure Declares (draft : MemberDraft) (method : Method) : Prop where
  access : method.access = draft.access
  name : method.name = draft.name
  descriptor : method.descriptor = draft.descriptor
  code : match draft.code with
    | none => method.code = none
    | some code => ∃ instructions, Instruction.decode code = .ok instructions ∧
        method.code = some ⟨8, 8, 0, instructions⟩

theorem not_accepted_iff {draft : MemberDraft} : ¬draft.Accepted ↔
    ∃ code, draft.code = some code ∧ ∃ fault, Instruction.decode code = .error fault := by
  simp only [Accepted, not_forall, exists_prop]
  refine exists_congr fun code => and_congr_right fun _ => ?_
  cases Instruction.decode code with
  | ok instructions => simp
  | error fault => simp

/-- Where some member is not accepted, one is the first. -/
theorem exists_first_not_accepted {drafts : List MemberDraft}
    (h : ∃ draft ∈ drafts, ¬draft.Accepted) :
    ∃ before first after, drafts = before ++ first :: after ∧
      (∀ other ∈ before, other.Accepted) ∧ ¬first.Accepted := by
  induction drafts with
  | nil => simp at h
  | cons draft drafts ih =>
    by_cases haccepted : draft.Accepted
    · have hrest : ∃ other ∈ drafts, ¬other.Accepted := by simpa [haccepted] using h
      obtain ⟨before, first, after, rfl, hbefore, hfirst⟩ := ih hrest
      exact ⟨draft :: before, first, after, rfl, by simpa [haccepted] using hbefore, hfirst⟩
    · exact ⟨[], draft, drafts, rfl, by simp, haccepted⟩

theorem decode_body {code : Bytes} (h : code.length < 4294967296) :
    Code.decode (body code) = (do
      let instructions ← Instruction.decode code
      pure ⟨8, 8, 0, instructions⟩) := by
  have hrun := CodeLayout.run_readBody ⟨8, 8, code, h, 0, [], rfl⟩ (Bytes.ofWord16 0)
  have hbody : body code = CodeLayout.bytes ⟨8, 8, code, h, 0, [], rfl⟩ ++ Bytes.ofWord16 0 := by
    simp [body, CodeLayout.bytes]
  rw [Code.decode, hbody, hrun]
  rfl

theorem lastBody?_toMember (draft : MemberDraft) :
    draft.toMember.lastBody? Code.codeName = draft.code.map body := by
  cases hcode : draft.code with
  | none => simp [Member.lastBody?, toMember, hcode]
  | some code => simp [Member.lastBody?, toMember, hcode, Code.codeName]

theorem exists_declares {draft : MemberDraft} (hfits : draft.Fits) (haccepted : draft.Accepted) :
    ∃ method, Method.ofMember draft.toMember = .ok method ∧ draft.Declares method := by
  simp only [Method.ofMember, lastBody?_toMember]
  cases hcode : draft.code with
  | none => exact ⟨_, rfl, rfl, rfl, rfl, by rw [hcode]⟩
  | some code =>
    obtain ⟨instructions, hinstructions⟩ := haccepted code hcode
    simp only [Option.map_some, decode_body (hfits code hcode), hinstructions]
    exact ⟨_, rfl, rfl, rfl, rfl, by rw [hcode]; exact ⟨instructions, hinstructions, rfl⟩⟩

theorem ofMember_eq_error {draft : MemberDraft} {code : Bytes} {fault : Fault}
    (hfits : draft.Fits) (hcode : draft.code = some code)
    (hfault : Instruction.decode code = .error fault) :
    Method.ofMember draft.toMember =
      .error (fault.within (.method draft.name draft.descriptor)) := by
  simp only [Method.ofMember, lastBody?_toMember, hcode, Option.map_some,
    decode_body (hfits code hcode), hfault]
  rfl

end MemberDraft

theorem Fault.message_within_method (fault : Fault) (name descriptor : Bytes) :
    (fault.within (.method name descriptor)).message =
      utf8 "method " ++ name ++ descriptor ++ utf8 ": " ++ fault.message := by
  simp [message, within, Place.message]

namespace Draft

/-- A class is what a draft says. -/
structure Declares (draft : Draft) (file : ClassFile) : Prop where
  minor : file.minor = 0
  major : file.major = draft.major
  access : file.access = ⟨0x0021⟩
  name : file.name = draft.name
  superName : file.superName = utf8 "java/lang/Object"
  interfaces : file.interfaces = []
  fields : file.fields =
    draft.fields.map fun field => ⟨field.access, field.name, field.descriptor⟩
  methods : List.Forall₂ MemberDraft.Declares draft.methods file.methods

theorem exists_methods {drafts : List MemberDraft} (hfits : ∀ draft ∈ drafts, draft.Fits)
    (haccepted : ∀ draft ∈ drafts, draft.Accepted) :
    ∃ methods, (drafts.map MemberDraft.toMember).mapM Method.ofMember = .ok methods ∧
      List.Forall₂ MemberDraft.Declares drafts methods := by
  induction drafts with
  | nil => exact ⟨[], rfl, .nil⟩
  | cons draft drafts ih =>
    obtain ⟨method, hmethod, hdeclares⟩ := MemberDraft.exists_declares
      (hfits draft List.mem_cons_self) (haccepted draft List.mem_cons_self)
    obtain ⟨methods, hmethods, hall⟩ := ih
      (fun other hother => hfits other (List.mem_cons_of_mem draft hother))
      (fun other hother => haccepted other (List.mem_cons_of_mem draft hother))
    rw [Outcome.mapM_eq_ok_iff] at hmethods
    exact ⟨method :: methods, Outcome.mapM_eq_ok_iff.mpr (.cons hmethod hmethods),
      .cons hdeclares hall⟩

/-- The class of a draft, given its methods. -/
def toFile (draft : Draft) (methods : List Method) : ClassFile where
  minor := 0
  major := draft.major
  access := ⟨0x0021⟩
  name := draft.name
  superName := rootName
  interfaces := []
  fields := draft.fields.map fun field => ⟨field.access, field.name, field.descriptor⟩
  methods := methods

theorem parse_eq_bind {draft : Draft} {bytes : Bytes}
    (hread : Decoder.run Outline.read bytes = .ok draft.toOutline) :
    parse bytes = (do
      let methods ← (draft.methods.map MemberDraft.toMember).mapM Method.ofMember
      pure (draft.toFile methods)) := by
  have hfields : (draft.fields.map MemberDraft.toMember).map Member.toField =
      draft.fields.map fun field => ⟨field.access, field.name, field.descriptor⟩ := by
    rw [List.map_map]
    rfl
  rw [parse, hread]
  simp only [toFile, ← hfields]
  rfl

theorem parse_of_accepted {draft : Draft} {bytes : Bytes}
    (hread : Decoder.run Outline.read bytes = .ok draft.toOutline)
    (hfits : ∀ method ∈ draft.methods, method.Fits)
    (haccepted : ∀ method ∈ draft.methods, method.Accepted) :
    ∃ file, parse bytes = .ok file ∧ draft.Declares file := by
  obtain ⟨methods, hmethods, hdeclares⟩ := exists_methods hfits haccepted
  refine ⟨draft.toFile methods, ?_, rfl, rfl, rfl, rfl, rfl, rfl, rfl, hdeclares⟩
  rw [parse_eq_bind hread, hmethods]
  rfl

theorem parse_of_rejected {draft : Draft} {bytes code : Bytes} {before after : List MemberDraft}
    {method : MemberDraft} {fault : Fault}
    (hread : Decoder.run Outline.read bytes = .ok draft.toOutline)
    (hfits : ∀ method ∈ draft.methods, method.Fits)
    (hsplit : draft.methods = before ++ method :: after)
    (hbefore : ∀ other ∈ before, other.Accepted)
    (hcode : method.code = some code) (hfault : Instruction.decode code = .error fault) :
    parse bytes = .error (fault.within (.method method.name method.descriptor)) := by
  have hmethod := MemberDraft.ofMember_eq_error (hfits method (by simp [hsplit])) hcode hfault
  have hfirst : (draft.methods.map MemberDraft.toMember).mapM Method.ofMember =
      .error (fault.within (.method method.name method.descriptor)) := by
    rw [hsplit, List.map_append, List.map_cons]
    refine Outcome.mapM_append_cons_eq_error ?_ hmethod
    intro other hother
    obtain ⟨draft', hdraft', rfl⟩ := List.mem_map.mp hother
    obtain ⟨value, hvalue, -⟩ := MemberDraft.exists_declares
      (hfits draft' (by simp [hsplit, hdraft'])) (hbefore draft' hdraft')
    exact ⟨value, hvalue⟩
  rw [parse_eq_bind hread, hfirst]
  rfl

/-- Parsing undoes assembling, where the slots of the pool have numbers: if every code array decodes
to instructions, the class is what the draft says, and otherwise the first code array that does not
gives the fault, which is prefixed by its method. -/
theorem parse_bytes {draft : Draft} {bytes : Bytes} (hmajor : 45 ≤ draft.major.toNat)
    (hbytes : draft.bytes = .ok bytes) (hslots : draft.slotsNeeded ≤ 65534) :
    ((∀ method ∈ draft.methods, method.Accepted) →
      ∃ file, parse bytes = .ok file ∧ draft.Declares file) ∧
    ((∃ method ∈ draft.methods, ¬method.Accepted) →
      ∃ before method after code fault fault', draft.methods = before ++ method :: after ∧
        (∀ other ∈ before, other.Accepted) ∧ method.code = some code ∧
        Instruction.decode code = .error fault ∧ parse bytes = .error fault' ∧
        fault'.message =
          utf8 "method " ++ method.name ++ method.descriptor ++ utf8 ": " ++ fault.message) := by
  obtain ⟨hread, hfits⟩ := run_read_bytes hmajor hbytes hslots
  refine ⟨parse_of_accepted hread hfits, ?_⟩
  intro hrejected
  obtain ⟨before, method, after, hsplit, hbefore, hmethod⟩ :=
    MemberDraft.exists_first_not_accepted hrejected
  obtain ⟨code, hcode, fault, hfault⟩ := MemberDraft.not_accepted_iff.mp hmethod
  exact ⟨before, method, after, code, fault, _, hsplit, hbefore, hcode, hfault,
    parse_of_rejected hread hfits hsplit hbefore hcode hfault, fault.message_within_method _ _⟩

/-- A class, a field and two methods with one name, which is also the name of code attributes. -/
def coincidingNames (code : Bytes) : Draft where
  name := utf8 "Code"
  longs := [7, 7]
  fields := [.field ⟨0⟩ (utf8 "Code") rootName]
  methods :=
    [.abstractMethod (utf8 "Code") (utf8 "()V"), .method ⟨9⟩ (utf8 "Code") (utf8 "()V") code]

theorem parse_bytes_coincidingNames :
    (∃ bytes file, (coincidingNames [177]).bytes = .ok bytes ∧ parse bytes = .ok file ∧
      (coincidingNames [177]).Declares file) ∧
    ∃ bytes fault, (coincidingNames [255]).bytes = .ok bytes ∧ parse bytes = .error fault := by
  constructor
  · obtain ⟨bytes, hbytes⟩ : ∃ bytes, (coincidingNames [177]).bytes = .ok bytes := ⟨_, rfl⟩
    have haccepted : ∀ method ∈ (coincidingNames [177]).methods, method.Accepted := by
      intro method hmethod code hcode
      simp only [coincidingNames, List.mem_cons, List.not_mem_nil, or_false] at hmethod
      obtain rfl | rfl := hmethod
      · cases hcode
      · cases hcode
        exact ⟨[⟨0, ⟨177⟩, Opcode.shape ⟨177⟩, 0⟩], by cbv⟩
    obtain ⟨file, hfile, hdeclares⟩ :=
      (parse_bytes (by decide) hbytes (by decide +kernel)).1 haccepted
    exact ⟨bytes, file, hbytes, hfile, hdeclares⟩
  · obtain ⟨bytes, hbytes⟩ : ∃ bytes, (coincidingNames [255]).bytes = .ok bytes := ⟨_, rfl⟩
    have hrejected : ∃ method ∈ (coincidingNames [255]).methods, ¬method.Accepted := by
      refine ⟨_, List.mem_cons_of_mem _ List.mem_cons_self, ?_⟩
      rw [MemberDraft.not_accepted_iff]
      exact ⟨[255], rfl, .ofCause (.unknownOpcode ⟨255⟩ 0), by cbv⟩
    obtain ⟨_, _, _, _, _, fault, -, -, -, -, hfault, -⟩ :=
      (parse_bytes (by decide) hbytes (by decide +kernel)).2 hrejected
    exact ⟨bytes, fault, hbytes, hfault⟩

end Draft

end MonitorCoverage.ClassFile
