import Mathlib.Data.List.Basic
import Mathlib.Data.List.Induction
import MonitorCoverage.Log.Handler

/-!
# Where attributes stand in log lines

Handlers are derived from others by adding attributes and by opening groups, any number of times. A
line shows attributes in the order in which they were added, each inside the groups that were open
then: the attributes that say what is running come first and lie in no group, and those of the
record and of its span come last and lie in all of them. A line of pairs writes the groups into the
key; a line of JSON has an object for each group that holds anything. A handler that others were
derived from goes on writing what it wrote before.
-/

namespace MonitorCoverage.Log

/-! ## Placed attributes -/

/-- An attribute and the groups that it lies in, the outermost first. -/
structure Placed where
  groups : List Bytes
  content : Attribute
  deriving DecidableEq, Repr

/-- Attributes that lie in the same groups. -/
def placedIn (groups : List Bytes) (attributes : List Attribute) : List Placed :=
  attributes.map fun content => ⟨groups, content⟩

/-- The group that a scope opens. -/
def Scope.group? : Scope → Option Bytes
  | .attributes _ => none
  | .group name => some name

/-- The attributes that a scope adds. -/
def Scope.added : Scope → List Attribute
  | .attributes added => added
  | .group _ => []

/-- The groups that scopes open. -/
def groupsOf (scopes : List Scope) : List Bytes := scopes.filterMap Scope.group?

/-- The attributes that scopes add, each in the groups that were opened before it. -/
def addedBy (scopes : List Scope) : List Placed :=
  (List.range scopes.length).flatMap fun i =>
    placedIn (groupsOf (scopes.take i)) ((scopes[i]?.map Scope.added).getD [])

/-- The attributes of scopes inside some groups, one scope after the other. -/
def placedFrom (groups : List Bytes) : List Scope → List Placed
  | [] => []
  | scope :: scopes => placedIn groups scope.added ++ placedFrom (groups ++ groupsOf [scope]) scopes

@[simp] theorem groupsOf_attributes (added : List Attribute) (scopes : List Scope) :
    groupsOf (.attributes added :: scopes) = groupsOf scopes :=
  rfl

@[simp] theorem groupsOf_group (name : Bytes) (scopes : List Scope) :
    groupsOf (.group name :: scopes) = name :: groupsOf scopes :=
  rfl

theorem groupsOf_append (a b : List Scope) : groupsOf (a ++ b) = groupsOf a ++ groupsOf b :=
  List.filterMap_append

@[simp] theorem placedFrom_attributes (groups : List Bytes) (added : List Attribute)
    (scopes : List Scope) :
    placedFrom groups (.attributes added :: scopes) =
      placedIn groups added ++ placedFrom groups scopes := by
  have hnone : groupsOf [.attributes added] = [] := rfl
  rw [placedFrom, hnone, List.append_nil, Scope.added]

@[simp] theorem placedFrom_group (groups : List Bytes) (name : Bytes) (scopes : List Scope) :
    placedFrom groups (.group name :: scopes) = placedFrom (groups ++ [name]) scopes :=
  rfl

theorem placedFrom_append (groups : List Bytes) (a b : List Scope) :
    placedFrom groups (a ++ b) = placedFrom groups a ++ placedFrom (groups ++ groupsOf a) b := by
  induction a generalizing groups with
  | nil => simp [placedFrom, groupsOf]
  | cons scope a ih =>
    have hgroups : groupsOf (scope :: a) = groupsOf [scope] ++ groupsOf a :=
      groupsOf_append [scope] a
    simp only [List.cons_append, placedFrom, ih, hgroups, List.append_assoc]

/-- Going through scopes one after the other finds each attribute in the groups before it. -/
theorem placedFrom_eq_addedBy (scopes : List Scope) : placedFrom [] scopes = addedBy scopes := by
  induction scopes using List.reverseRecOn with
  | nil => rfl
  | append_singleton scopes scope ih =>
    have hfront : ∀ i ∈ List.range scopes.length,
        placedIn (groupsOf ((scopes ++ [scope]).take i))
          (((scopes ++ [scope])[i]?.map Scope.added).getD []) =
        placedIn (groupsOf (scopes.take i)) ((scopes[i]?.map Scope.added).getD []) := by
      intro i hi
      have hlt := List.mem_range.mp hi
      rw [List.take_append_of_le_length (Nat.le_of_lt hlt), List.getElem?_append_left hlt]
    rw [placedFrom_append, ih, addedBy, addedBy, List.length_append, List.length_singleton,
      List.range_succ, List.flatMap_append, List.flatMap_congr hfront]
    simp [placedFrom]

theorem addedBy_attributes (added : List Attribute) (steps : List Scope) :
    addedBy (.attributes added :: steps) = placedIn [] added ++ addedBy steps := by
  rw [← placedFrom_eq_addedBy, ← placedFrom_eq_addedBy, placedFrom_attributes]

/-! ## Lines of pairs -/

/-- Groups as they stand in front of a key. -/
def pathOf (groups : List Bytes) : Bytes := groups.flatMap fun name => name ++ utf8 "."

def Placed.pair (placed : Placed) : String := Log.pair (pathOf placed.groups) placed.content

theorem map_pair_placedIn (groups : List Bytes) (attributes : List Attribute) :
    (placedIn groups attributes).map Placed.pair = attributes.map (Log.pair (pathOf groups)) := by
  rw [placedIn, List.map_map]
  rfl

/-- A line of pairs has a pair for each placed attribute. -/
theorem scopePairs_eq (groups : List Bytes) (last : List Attribute) (scopes : List Scope) :
    scopePairs (pathOf groups) last scopes =
      (placedFrom groups scopes ++ placedIn (groups ++ groupsOf scopes) last).map Placed.pair := by
  induction scopes generalizing groups with
  | nil => simp [scopePairs, placedFrom, groupsOf, map_pair_placedIn]
  | cons scope scopes ih =>
    cases scope with
    | attributes added =>
      rw [scopePairs, ih, ← map_pair_placedIn, ← List.map_append]
      simp
    | group name =>
      have hpath : pathOf groups ++ name ++ utf8 "." = pathOf (groups ++ [name]) := by
        simp [pathOf]
      rw [scopePairs, hpath, ih]
      simp

/-! ## Lines of JSON -/

/-- The members of an object: attributes, and behind them the object of a group, if there is one. -/
inductive Members where
  | last (attributes : List Attribute)
  | group (attributes : List Attribute) (name : Bytes) (inner : Members)

namespace Members

/-- The attributes in an object that lies in some groups. -/
def placed (groups : List Bytes) : Members → List Placed
  | last attributes => placedIn groups attributes
  | group attributes name inner => placedIn groups attributes ++ inner.placed (groups ++ [name])

def texts : Members → List String
  | last attributes => attributes.map member
  | group attributes name inner =>
    attributes.map member ++ [jsonString name ++ ":" ++ jsonObject inner.texts]

/-- No group is empty. -/
def IsFull : Members → Prop
  | last _ => True
  | group _ _ inner => inner.texts ≠ [] ∧ inner.IsFull

/-- Members behind some attributes. -/
def behind (attributes : List Attribute) : Members → Members
  | last more => last (attributes ++ more)
  | group more name inner => group (attributes ++ more) name inner

/-- Members as the only ones of a group, which is left out if there are none. -/
def inGroup (name : Bytes) (members : Members) : Members :=
  if members.texts.isEmpty then last [] else group [] name members

variable {groups : List Bytes} {attributes : List Attribute} {members : Members}

theorem texts_behind :
    (members.behind attributes).texts = attributes.map member ++ members.texts := by
  cases members with
  | last more => simp [behind, texts]
  | group more name inner => simp [behind, texts]

theorem placed_behind :
    (members.behind attributes).placed groups =
      placedIn groups attributes ++ members.placed groups := by
  cases members with
  | last more => simp [behind, placed, placedIn]
  | group more name inner => simp [behind, placed, placedIn]

theorem IsFull.behind (h : members.IsFull) : (members.behind attributes).IsFull := by
  cases members with
  | last more => exact h
  | group more name inner => exact h

theorem texts_inGroup (name : Bytes) :
    (members.inGroup name).texts =
      if members.texts.isEmpty then []
      else [jsonString name ++ ":" ++ jsonObject members.texts] := by
  unfold inGroup
  split
  · rfl
  · rfl

/-- Without members there are no attributes. -/
theorem placed_eq_nil (h : members.texts = []) : members.placed groups = [] := by
  cases members with
  | last attributes => simpa [texts, placed, placedIn] using h
  | group attributes name inner => simp [texts] at h

theorem placed_inGroup (name : Bytes) :
    (members.inGroup name).placed groups = members.placed (groups ++ [name]) := by
  unfold inGroup
  split
  · rename_i hempty
    rw [placed_eq_nil (List.isEmpty_iff.mp hempty)]
    rfl
  · rfl

theorem IsFull.inGroup (h : members.IsFull) (name : Bytes) : (members.inGroup name).IsFull := by
  unfold Members.inGroup
  split
  · trivial
  · rename_i hne
    rw [List.isEmpty_iff] at hne
    exact ⟨hne, h⟩

/-- The attributes that lie in the object itself. -/
def own : Members → List Attribute
  | last attributes => attributes
  | group attributes _ _ => attributes

theorem isPrefix_of_mem_placed {item : Placed} (h : item ∈ members.placed groups) :
    groups <+: item.groups := by
  induction members generalizing groups with
  | last attributes =>
    obtain ⟨content, _, rfl⟩ := List.mem_map.mp h
    exact List.prefix_rfl
  | group attributes name inner ih =>
    obtain hown | hinner := List.mem_append.mp h
    · obtain ⟨content, _, rfl⟩ := List.mem_map.mp hown
      exact List.prefix_rfl
    · exact (List.prefix_append groups [name]).trans (ih hinner)

theorem filter_placedIn (groups : List Bytes) (attributes : List Attribute) :
    (placedIn groups attributes).filter (·.groups = groups) = placedIn groups attributes := by
  simp [placedIn]

/-- What lies in an inner object lies in more groups. -/
theorem filter_placed_inner (name : Bytes) (inner : Members) :
    (inner.placed (groups ++ [name])).filter (·.groups = groups) = [] := by
  apply List.filter_eq_nil_iff.mpr
  intro item hitem heq
  have hlength := (isPrefix_of_mem_placed hitem).length_le
  rw [of_decide_eq_true heq, List.length_append, List.length_singleton] at hlength
  omega

theorem filter_placed :
    (members.placed groups).filter (·.groups = groups) = placedIn groups members.own := by
  cases members with
  | last attributes => exact filter_placedIn groups attributes
  | group attributes name inner =>
    simp only [placed, List.filter_append, filter_placedIn, filter_placed_inner, List.append_nil,
      own]

theorem placedIn_injective (groups : List Bytes) : Function.Injective (placedIn groups) := by
  intro a b h
  have hcontents := congrArg (List.map Placed.content) h
  simpa [placedIn, Function.comp_def] using hcontents

theorem own_eq_of_placed_eq {others : Members} (h : members.placed groups = others.placed groups) :
    members.own = others.own := by
  apply placedIn_injective groups
  rw [← filter_placed, ← filter_placed, h]

theorem IsFull.placed_ne_nil (hfull : members.IsFull) (h : members.texts ≠ [])
    (groups : List Bytes) : members.placed groups ≠ [] := by
  induction members generalizing groups with
  | last attributes => simpa [texts, placed, placedIn] using h
  | group attributes name inner ih =>
    exact List.append_ne_nil_of_right_ne_nil _ (ih hfull.2 hfull.1 (groups ++ [name]))

/-- Attributes name the group that they lie in. -/
theorem IsFull.group_eq_of_placed_eq {name other : Bytes} {others : Members}
    (hfull : members.IsFull) (hne : members.texts ≠ [])
    (h : members.placed (groups ++ [name]) = others.placed (groups ++ [other])) : name = other := by
  obtain ⟨item, hitem⟩ := List.exists_mem_of_ne_nil _ (hfull.placed_ne_nil hne (groups ++ [name]))
  have hname := isPrefix_of_mem_placed hitem
  rw [h] at hitem
  have hprefix : groups ++ [name] <+: groups ++ [other] :=
    List.prefix_of_prefix_length_le hname (isPrefix_of_mem_placed hitem) (by simp)
  have heq := hprefix.eq_of_length (by simp)
  simpa using heq

/-- Attributes and where they lie determine an object without empty groups. -/
theorem IsFull.eq_of_placed_eq {others : Members} (hfull : members.IsFull) (hothers : others.IsFull)
    (h : members.placed groups = others.placed groups) : members = others := by
  have hown := own_eq_of_placed_eq h
  induction members generalizing groups others with
  | last attributes =>
    cases others with
    | last more => exact congrArg last hown
    | group more name inner =>
      obtain rfl : attributes = more := hown
      exact absurd (List.self_eq_append_right.mp h) (hothers.2.placed_ne_nil hothers.1 _)
  | group attributes name inner ih =>
    cases others with
    | last more =>
      obtain rfl : attributes = more := hown
      exact absurd (List.append_right_eq_self.mp h) (hfull.2.placed_ne_nil hfull.1 _)
    | group more other within =>
      obtain rfl : attributes = more := hown
      -- The attributes of the objects themselves cancel, and what is left names the group.
      have hinner : inner.placed (groups ++ [name]) = within.placed (groups ++ [other]) :=
        List.append_cancel_left h
      obtain rfl := hfull.2.group_eq_of_placed_eq hfull.1 hinner
      rw [ih hfull.2 hothers.2 hinner (own_eq_of_placed_eq hinner)]

/-- The members that scopes and the attributes after them give. -/
def ofScopes (last : List Attribute) : List Scope → Members
  | [] => .last last
  | .attributes added :: scopes => (ofScopes last scopes).behind added
  | .group name :: scopes => (ofScopes last scopes).inGroup name

theorem texts_ofScopes (last : List Attribute) (scopes : List Scope) :
    (ofScopes last scopes).texts = scopeMembers last scopes := by
  induction scopes with
  | nil => rfl
  | cons scope scopes ih =>
    cases scope with
    | attributes added => rw [ofScopes, texts_behind, ih, scopeMembers]
    | group name => rw [ofScopes, texts_inGroup, ih, scopeMembers]

theorem isFull_ofScopes (last : List Attribute) (scopes : List Scope) :
    (ofScopes last scopes).IsFull := by
  induction scopes with
  | nil => trivial
  | cons scope scopes ih =>
    cases scope with
    | attributes added => exact ih.behind
    | group name => exact ih.inGroup name

/-- An object has each attribute inside the objects of its groups. -/
theorem placed_ofScopes (groups : List Bytes) (last : List Attribute) (scopes : List Scope) :
    (ofScopes last scopes).placed groups =
      placedFrom groups scopes ++ placedIn (groups ++ groupsOf scopes) last := by
  induction scopes generalizing groups with
  | nil => simp [ofScopes, placed, placedFrom, groupsOf]
  | cons scope scopes ih =>
    cases scope with
    | attributes added => simp [ofScopes, placed_behind, ih]
    | group name => simp [ofScopes, placed_inGroup, ih]

end Members

/-! ## Lines of handlers -/

/-- The line of pairs or of JSON that shows attributes in their order, each in its groups. -/
inductive Shows : Bool → List Placed → String → Prop
  | pairs (placed : List Placed) :
    Shows false placed (" ".intercalate (placed.map Placed.pair) ++ "\n")
  | members (members : Members) (hfull : members.IsFull) :
    Shows true (members.placed []) (jsonObject members.texts ++ "\n")

/-- Placed attributes have one line. -/
theorem Shows.unique {json : Bool} {placed : List Placed} {line other : String}
    (h : Shows json placed line) (hother : Shows json placed other) : other = line := by
  generalize hplaced : placed = same at hother
  cases h with
  | pairs =>
    cases hother
    rw [hplaced]
  | members members hfull =>
    cases hother with
    | members others hothers => rw [hfull.eq_of_placed_eq hothers hplaced]

namespace Handler

/-- A line shows the head of the record, what was added to the handler, and what the record and its
span bring, which lies in all the groups. -/
theorem shows_line (handler : Handler) (context : Telemetry.SpanContext) (record : Record) :
    Shows handler.json
      (placedIn [] (head record) ++ addedBy handler.scopes ++
        placedIn (groupsOf handler.scopes) (record.attributes ++ spanAttributes context))
      (handler.line context record) := by
  -- The head takes part as if it had been added before anything else.
  rw [← addedBy_attributes, ← placedFrom_eq_addedBy, ← groupsOf_attributes (head record)]
  unfold line
  cases handler.json with
  | false =>
    have hpairs := scopePairs_eq [] (record.attributes ++ spanAttributes context)
      (.attributes (head record) :: handler.scopes)
    rw [List.nil_append] at hpairs
    have hline := Shows.pairs (placedFrom [] (.attributes (head record) :: handler.scopes) ++
      placedIn (groupsOf (.attributes (head record) :: handler.scopes))
        (record.attributes ++ spanAttributes context))
    rw [← hpairs] at hline
    exact hline
  | true =>
    have hmembers := Members.placed_ofScopes [] (record.attributes ++ spanAttributes context)
      (.attributes (head record) :: handler.scopes)
    rw [List.nil_append] at hmembers
    rw [← hmembers, if_pos rfl, ← Members.texts_ofScopes]
    exact Shows.members _ (Members.isFull_ofScopes _ _)

/-- A handler derived from another by adding attributes or by opening a group. -/
def derived (handler : Handler) : Scope → Handler
  | .attributes added => handler.withAttributes added
  | .group name => handler.withGroup name

def derivedBy (handler : Handler) (steps : List Scope) : Handler := steps.foldl derived handler

theorem derived_eq (handler : Handler) (step : Scope) :
    handler.derived step = { handler with scopes := handler.scopes ++ [step] } := by
  cases step with
  | attributes added => rfl
  | group name => rfl

theorem derivedBy_eq (handler : Handler) (steps : List Scope) :
    handler.derivedBy steps = { handler with scopes := handler.scopes ++ steps } := by
  induction steps generalizing handler with
  | nil => simp [derivedBy]
  | cons step steps ih =>
    have hstep : handler.derivedBy (step :: steps) = (handler.derived step).derivedBy steps := rfl
    rw [hstep, ih, derived_eq]
    simp

/-- Handlers, and one more that is derived from one of them. -/
def grow (family : List Handler) (request : Nat × Scope) : List Handler :=
  family ++ (family[request.1]?.map (·.derived request.2)).toList

def growBy (family : List Handler) (requests : List (Nat × Scope)) : List Handler :=
  requests.foldl grow family

/-- Handlers stay what they are when others are derived from them. -/
theorem isPrefix_growBy (family : List Handler) (requests : List (Nat × Scope)) :
    family <+: growBy family requests := by
  induction requests generalizing family with
  | nil => exact List.prefix_rfl
  | cons request requests ih =>
    have hstep : family <+: grow family request := List.prefix_append family _
    exact hstep.trans (ih (grow family request))

theorem serviceAttributes_eq (service mode environment : Bytes) :
    serviceAttributes service mode environment =
      [textAttribute "service" service, textAttribute "mode" mode] ++
        if environment = [] then [] else [textAttribute "env" environment] := by
  simp [serviceAttributes]

/-- Neither identifier of the span is all zeros. -/
def IsActive (context : Telemetry.SpanContext) : Prop :=
  (∃ byte ∈ context.trace, byte ≠ 0) ∧ ∃ byte ∈ context.span, byte ≠ 0

theorem isValid_iff_isActive {context : Telemetry.SpanContext} :
    context.isValid = true ↔ IsActive context := by
  simp [Telemetry.SpanContext.isValid, IsActive]

instance (context : Telemetry.SpanContext) : Decidable (IsActive context) :=
  decidable_of_iff _ isValid_iff_isActive

theorem spanAttributes_eq (context : Telemetry.SpanContext) :
    spanAttributes context =
      if IsActive context then
        [textAttribute "trace_id" (utf8 context.trace.hex),
          textAttribute "span_id" (utf8 context.span.hex)]
      else [] := by
  simp only [spanAttributes, isValid_iff_isActive]

/-- However a handler is derived, the line of an enabled record shows, in this order and nothing
else: the time if it is known, the level and the message; what is running, in no group; what was
added on the way, each attribute in the groups that were opened before it; the record's attributes,
and the identifiers of the span if neither of them is all zeros, in all the groups. Handlers that
are derived from it later change none of its lines. -/
theorem lines_derivedBy_ofService {json : Bool} {threshold : Level}
    {service mode environment : Bytes} {steps : List Scope} {handler : Handler}
    (hhandler : handler = (ofService json threshold service mode environment).derivedBy steps)
    (context : Telemetry.SpanContext) {record : Record}
    (henabled : threshold.value ≤ record.level.value) :
    (∃ line, handler.lines context [record] = [line] ∧
      ∀ other, Shows json
        (placedIn [] (record.time.toList.map (timeAttribute "time") ++
            [textAttribute "level" (utf8 record.level.text),
              textAttribute "msg" record.message]) ++
          placedIn [] ([textAttribute "service" service, textAttribute "mode" mode] ++
            if environment = [] then [] else [textAttribute "env" environment]) ++
          addedBy steps ++
          placedIn (groupsOf steps) (record.attributes ++
            if IsActive context then
              [textAttribute "trace_id" (utf8 context.trace.hex),
                textAttribute "span_id" (utf8 context.span.hex)]
            else []))
        other ↔ other = line) ∧
    ∀ (family : List Handler) (requests : List (Nat × Scope)) (i : Nat),
      family[i]? = some handler →
      ∃ later, (growBy family requests)[i]? = some later ∧
        ∀ context records, later.lines context records = handler.lines context records := by
  rw [derivedBy_eq] at hhandler
  have hscopes : handler.scopes =
      .attributes (serviceAttributes service mode environment) :: steps := by
    rw [hhandler]
    rfl
  have hgroups : groupsOf handler.scopes = groupsOf steps := by rw [hscopes, groupsOf_attributes]
  have hjson : handler.json = json := by rw [hhandler, ofService]
  have hthreshold : handler.threshold = threshold := by rw [hhandler, ofService]
  constructor
  · have hshows := handler.shows_line context record
    rw [hjson, hgroups, hscopes, addedBy_attributes, ← List.append_assoc, serviceAttributes_eq,
      spanAttributes_eq] at hshows
    refine ⟨handler.line context record, ?_, ?_⟩
    · simp [lines, isEnabled, hthreshold, henabled]
    · intro other
      constructor
      · exact hshows.unique
      · intro heq
        exact heq ▸ hshows
  · intro family requests i hi
    obtain ⟨more, hmore⟩ := isPrefix_growBy family requests
    refine ⟨handler, ?_, fun _ _ => rfl⟩
    rw [← hmore, List.getElem?_append_left (List.getElem?_eq_some_iff.mp hi).1, hi]

/-- Attributes before, between and behind two groups. -/
def requestSteps : List Scope :=
  [.attributes [textAttribute "build" (utf8 "7")], .group (utf8 "request"),
    .attributes [textAttribute "path" (utf8 "/a b"), boolAttribute "secure" true],
    .group (utf8 "reply"), .attributes []]

def requestSpan : Telemetry.SpanContext := ⟨[0, 0xAB], [0x10, 0], false⟩

def slowReply : Record :=
  { time := some ⟨1500000000, 0⟩, level := .warn, message := utf8 "slow"
    attributes := [intAttribute "status" 200] }

theorem lines_derivedBy_ofService_slowReply :
    Level.info.value ≤ slowReply.level.value ∧
    (∃ line,
      ((ofService true .info (utf8 "api") (utf8 "serve") []).derivedBy requestSteps).lines
        requestSpan [slowReply] = [line] ∧
      ∀ other, Shows true
        [⟨[], timeAttribute "time" ⟨1500000000, 0⟩⟩,
          ⟨[], textAttribute "level" (utf8 "WARN")⟩,
          ⟨[], textAttribute "msg" (utf8 "slow")⟩,
          ⟨[], textAttribute "service" (utf8 "api")⟩,
          ⟨[], textAttribute "mode" (utf8 "serve")⟩,
          ⟨[], textAttribute "build" (utf8 "7")⟩,
          ⟨[utf8 "request"], textAttribute "path" (utf8 "/a b")⟩,
          ⟨[utf8 "request"], boolAttribute "secure" true⟩,
          ⟨[utf8 "request", utf8 "reply"], intAttribute "status" 200⟩,
          ⟨[utf8 "request", utf8 "reply"], textAttribute "trace_id" (utf8 "00ab")⟩,
          ⟨[utf8 "request", utf8 "reply"], textAttribute "span_id" (utf8 "1000")⟩]
        other ↔ other = line) ∧
    ∃ later, (growBy [(ofService true .info (utf8 "api") (utf8 "serve") []).derivedBy requestSteps]
        [(0, .group (utf8 "body")), (1, .attributes slowReply.attributes)])[0]? = some later ∧
      ∀ context records, later.lines context records =
        ((ofService true .info (utf8 "api") (utf8 "serve") []).derivedBy requestSteps).lines
          context records := by
  have henabled : Level.info.value ≤ slowReply.level.value := by decide
  obtain ⟨hline, hlater⟩ := lines_derivedBy_ofService
    (rfl : _ = (ofService true .info (utf8 "api") (utf8 "serve") []).derivedBy requestSteps)
    requestSpan henabled
  exact ⟨henabled, hline, hlater _ _ 0 rfl⟩

end Handler

end MonitorCoverage.Log
