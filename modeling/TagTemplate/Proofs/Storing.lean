import TagTemplate.Markup.Stored
import TagTemplate.Proofs.JsonText
import TagTemplate.Proofs.LastValues

/-!
# Loading undoes storing

A tree is stored as text that is loaded as the same tree, down to the order of attributes. The one
thing that a tree has to be for that is well formed: a tag has each of its attributes once. Of the
codec it takes two things: that it writes the fields of a node one after the other under their
names, and that it finds them by their names again, wherever and however they are written.
-/

namespace TagTemplate.Markup

/-- The tag has no two attributes of one name. -/
def Tag.NamesOnce (tag : Tag) : Prop := (tag.attributes.map Prod.fst).Nodup

instance : DecidablePred Tag.NamesOnce := fun _ => inferInstanceAs (Decidable (List.Nodup _))

/-- The value of a field for a text that may be absent. -/
inductive ExtensionForm : Option Json → Option String → Prop where
  | absent : ExtensionForm none none
  | null : ExtensionForm (some .null) none
  | string (s) : ExtensionForm (some (.string s)) (some s)

/-- The value of a field that is false when it is absent. -/
inductive FlagForm : Option Json → Bool → Prop where
  | absent : FlagForm none false
  | bool (b) : FlagForm (some (.bool b)) b

mutual

/-- The values that are read as a node: objects with the type of the node and its fields under their
names, in any order. Fields that have a default may be absent, and other members may be there. -/
inductive NodeForm : Json → Node → Prop where
  | text {members value} (hkeys : (members.map Prod.fst).Nodup)
      (htype : members.lookup "type" = some (.string "text"))
      (hvalue : members.lookup "text" = some (.string value)) :
      NodeForm (.object members) (.text value)
  | tag {members name extension attributes children selfClosing}
      (hkeys : (members.map Prod.fst).Nodup)
      (htype : members.lookup "type" = some (.string "tag"))
      (hname : members.lookup "name" = some (.string name))
      (hextension : ExtensionForm (members.lookup "namespace") extension)
      (hattributes : AttributesForm (members.lookup "attributes") attributes)
      (hchildren : ChildrenForm (members.lookup "children") children)
      (hclosing : FlagForm (members.lookup "self_closing") selfClosing) :
      NodeForm (.object members) (.tag ⟨name, extension, attributes, children, selfClosing⟩)

inductive NodesForm : List Json → List Node → Prop where
  | nil : NodesForm [] []
  | cons {v n vs ns} (hn : NodeForm v n) (hns : NodesForm vs ns) : NodesForm (v :: vs) (n :: ns)

inductive ChildrenForm : Option Json → List Node → Prop where
  | absent : ChildrenForm none []
  | array {items nodes} (h : NodesForm items nodes) : ChildrenForm (some (.array items)) nodes

inductive ValueForm : Json → AttributeValue → Prop where
  | literal (s) : ValueForm (.string s) (.literal s)
  | markup {items nodes} (h : NodesForm items nodes) : ValueForm (.array items) (.markup nodes)

inductive AttributesForm : Option Json → List (String × AttributeValue) → Prop where
  | absent : AttributesForm none []
  | object {members attributes} (hkeys : (members.map Prod.fst).Nodup)
      (h : EntriesForm members attributes) : AttributesForm (some (.object members)) attributes

inductive EntriesForm : List (String × Json) → List (String × AttributeValue) → Prop where
  | nil : EntriesForm [] []
  | cons {key v value ms as} (hv : ValueForm v value) (has : EntriesForm ms as) :
      EntriesForm ((key, v) :: ms) ((key, value) :: as)

end

/-- Trees are written as JSON: the type of a node first, then all of its fields in the order in
which they are declared. -/
def Codec.WritesFields (codec : Codec) : Prop :=
  ∀ nodes, (∀ t ∈ tagsOf nodes, t.NamesOnce) →
    Json.TextOf (codec.encode nodes) (.array (nodesToJson nodes))

/-- Every text of values that have the form of nodes is read as these nodes. -/
def Codec.ReadsForms (codec : Codec) : Prop :=
  ∀ text items nodes, Json.TextOf text (.array items) → NodesForm items nodes →
    codec.decode text = .ok nodes

theorem EntriesForm.keys {ms : List (String × Json)} {as : List (String × AttributeValue)}
    (h : EntriesForm ms as) : ms.map Prod.fst = as.map Prod.fst := by
  induction as generalizing ms with
  | nil =>
    cases h
    rfl
  | cons a as ih =>
    cases h with
    | cons _ has => rw [List.map_cons, List.map_cons, ih has]

mutual

theorem Node.form_toJson : (n : Node) → (∀ t ∈ n.tags, t.NamesOnce) → NodeForm n.toJson n
  | .text value, _ => by
    rw [Node.toJson]
    exact .text (by simp) rfl rfl
  | .tag t, h => t.form_toJson (h t List.mem_cons_self) fun t' ht => h t' (List.mem_cons_of_mem t ht)

theorem Tag.form_toJson :
    (t : Tag) → t.NamesOnce → (∀ t' ∈ t.innerTags, t'.NamesOnce) → NodeForm t.toJson (.tag t)
  | { name, extension, attributes, children, selfClosing }, hself, h => by
    simp only [Tag.innerTags, List.forall_mem_append] at h
    have hentries := form_attributesToJson attributes h.1
    have hkeys : ((attributesToJson attributes).map Prod.fst).Nodup := by
      rw [hentries.keys]
      exact hself
    rw [Tag.toJson.eq_def]
    refine .tag (by simp) rfl rfl ?_ (.object hkeys hentries)
      (.array (form_nodesToJson children h.2)) (.bool selfClosing)
    cases extension with
    | none => exact .null
    | some e => exact .string e

theorem AttributeValue.form_toJson :
    (v : AttributeValue) → (∀ t ∈ v.tags, t.NamesOnce) → ValueForm v.toJson v
  | .literal value, _ => .literal value
  | .markup nodes, h => .markup (form_nodesToJson nodes h)

theorem form_nodesToJson :
    (ns : List Node) → (∀ t ∈ tagsOf ns, t.NamesOnce) → NodesForm (nodesToJson ns) ns
  | [], _ => .nil
  | n :: ns, h => by
    simp only [tagsOf, List.forall_mem_append] at h
    exact .cons (n.form_toJson h.1) (form_nodesToJson ns h.2)

theorem form_attributesToJson :
    (as : List (String × AttributeValue)) → (∀ t ∈ tagsOfAttributes as, t.NamesOnce) →
      EntriesForm (attributesToJson as) as
  | [], _ => .nil
  | (_, v) :: as, h => by
    simp only [tagsOfAttributes, List.forall_mem_append] at h
    exact .cons (v.form_toJson h.1) (form_attributesToJson as h.2)

end

mutual

theorem Node.plain_toJson : (n : Node) → n.toJson.Plain
  | .text _ => by
    rw [Node.toJson]
    exact .object (by simp [Json.Plain.string])
  | .tag t => t.plain_toJson

theorem Tag.plain_toJson : (t : Tag) → t.toJson.Plain
  | { extension, attributes, children, selfClosing, .. } => by
    rw [Tag.toJson.eq_def]
    refine .object ?_
    simp only [List.forall_mem_cons]
    refine ⟨.string _, .string _, ?_, .object (plain_attributesToJson attributes),
      .array (plain_nodesToJson children), .bool selfClosing, nofun⟩
    cases extension with
    | none => exact .null
    | some e => exact .string e

theorem AttributeValue.plain_toJson : (v : AttributeValue) → v.toJson.Plain
  | .literal value => .string value
  | .markup nodes => .array (plain_nodesToJson nodes)

theorem plain_nodesToJson : (ns : List Node) → ∀ v ∈ nodesToJson ns, v.Plain
  | [] => by simp [nodesToJson]
  | n :: ns => by
    rw [nodesToJson, List.forall_mem_cons]
    exact ⟨n.plain_toJson, plain_nodesToJson ns⟩

theorem plain_attributesToJson :
    (as : List (String × AttributeValue)) → ∀ m ∈ attributesToJson as, m.2.Plain
  | [] => by simp [attributesToJson]
  | (_, v) :: as => by
    rw [attributesToJson, List.forall_mem_cons]
    exact ⟨v.plain_toJson, plain_attributesToJson as⟩

end

theorem Codec.compact_writesFields : Codec.compact.WritesFields := fun nodes _ =>
  (Json.Plain.array (plain_nodesToJson nodes)).textOf

theorem completeMembers_cons {m : String × Json} {ms : List (String × Json)}
    (h : Json.completeMembers (m :: ms) = true) :
    m.2.complete = true ∧ Json.completeMembers ms = true := by
  simpa [Json.completeMembers] using h

theorem nodeType_of_lookup {members : List (String × Json)} (type : NodeType)
    (hcomplete : Json.completeMembers members = true)
    (h : members.lookup "type" = some (.string type.name)) : nodeType members = .ok type := by
  induction members with
  | nil => cases h
  | cons m ms ih =>
    obtain ⟨key, v⟩ := m
    obtain ⟨hv, hms⟩ := completeMembers_cons hcomplete
    by_cases hkey : key = "type"
    · rw [hkey, List.lookup_cons_self] at h
      obtain rfl : v = .string type.name := Option.some.inj h
      rw [nodeType, if_pos hkey]
      cases type <;> rfl
    · rw [List.lookup_cons, beq_eq_false_iff_ne.2 (Ne.symm hkey)] at h
      rw [nodeType, if_neg hkey, if_pos hv]
      exact ih hms h

/-- The draft agrees with the other one in all fields that are not among the names. -/
structure Draft.AgreesBut (d full : Draft) (names : List String) : Prop where
  text : d.text = full.text
  name : "name" ∉ names → d.name = full.name
  extension : "namespace" ∉ names → d.extension = full.extension
  attributes : "attributes" ∉ names → d.attributes = full.attributes
  children : "children" ∉ names → d.children = full.children
  selfClosing : "self_closing" ∉ names → d.selfClosing = full.selfClosing

theorem Draft.AgreesBut.eq {d full : Draft} (h : d.AgreesBut full []) : d = full := by
  obtain ⟨h₁, h₂, h₃, h₄, h₅, h₆⟩ := h
  cases d
  cases full
  simp_all

section Members

variable {members : List (String × Json)} {d : Draft}

@[simp] theorem loadMembers_type (type : NodeType) :
    loadMembers type d (("type", .string type.name) :: members) = loadMembers type d members := by
  simp [loadMembers, loadTypeName, bind, Except.bind]

/-- The names of the fields of a node. -/
def NodeType.fields : NodeType → List String
  | .text => ["text"]
  | .tag => ["name", "namespace", "attributes", "children", "self_closing"]

theorem loadMembers_other {type : NodeType} {key : String} {v : Json} (htype : key ≠ "type")
    (hfield : key ∉ type.fields) (hv : v.complete = true) :
    loadMembers type d ((key, v) :: members) = loadMembers type d members := by
  cases type <;> simp [NodeType.fields] at hfield <;> simp [loadMembers, *, bind, Except.bind]

theorem loadMembers_text {value : String} (hcomplete : Json.completeMembers members = true)
    (htype : ∀ v, ("type", v) ∈ members → v = .string "text")
    (hvalue : ∀ v, ("text", v) ∈ members → v = .string value)
    (hd : "text" ∉ members.map Prod.fst → d.text = some value) :
    ∃ d', loadMembers .text d members = .ok d' ∧ d'.text = some value := by
  induction members generalizing d with
  | nil => exact ⟨d, rfl, hd nofun⟩
  | cons m ms ih =>
    obtain ⟨key, v⟩ := m
    obtain ⟨hv, hms⟩ := completeMembers_cons hcomplete
    have hrest := fun {d'} => @ih d' hms (fun v hv => htype v (List.mem_cons_of_mem _ hv))
      fun v hv => hvalue v (List.mem_cons_of_mem _ hv)
    by_cases htypeKey : key = "type"
    · obtain rfl := htypeKey
      obtain rfl := htype v (by simp)
      rw [show Json.string "text" = .string (NodeType.name .text) from rfl, loadMembers_type]
      exact hrest fun hnot => hd (by simpa using hnot)
    by_cases htextKey : key = "text"
    · obtain rfl := htextKey
      obtain rfl := hvalue v (by simp)
      exact @hrest { d with text := some value } fun _ => rfl
    rw [loadMembers_other htypeKey (by simpa [NodeType.fields] using htextKey) hv]
    exact hrest fun hnot => hd (by simpa [Ne.symm htextKey] using hnot)

/-- What the members of a tag say is what the draft holds. -/
structure Draft.Holds (full : Draft) (members : List (String × Json)) : Prop where
  type : ∀ v, ("type", v) ∈ members → v = .string "tag"
  name : ∀ v, ("name", v) ∈ members → ∃ s, v = .string s ∧ full.name = some s
  extension : ∀ v, ("namespace", v) ∈ members → ExtensionForm (some v) full.extension
  attributes : ∀ v, ("attributes", v) ∈ members → loadAttributeMap v = .ok full.attributes
  children : ∀ v, ("children", v) ∈ members → loadChildren v = .ok full.children
  selfClosing : ∀ v, ("self_closing", v) ∈ members → v = .bool full.selfClosing

theorem Draft.Holds.tail {full : Draft} {m : String × Json} (h : full.Holds (m :: members)) :
    full.Holds members where
  type v hv := h.type v (List.mem_cons_of_mem m hv)
  name v hv := h.name v (List.mem_cons_of_mem m hv)
  extension v hv := h.extension v (List.mem_cons_of_mem m hv)
  attributes v hv := h.attributes v (List.mem_cons_of_mem m hv)
  children v hv := h.children v (List.mem_cons_of_mem m hv)
  selfClosing v hv := h.selfClosing v (List.mem_cons_of_mem m hv)

theorem Draft.AgreesBut.skip {full : Draft} {key : String} {names : List String}
    (h : d.AgreesBut full (key :: names)) (hkey : key ∉ NodeType.tag.fields) :
    d.AgreesBut full names := by
  obtain ⟨htext, hname, hextension, hattributes, hchildren, hclosing⟩ := h
  simp only [NodeType.fields, List.mem_cons, List.not_mem_nil, or_false, not_or] at hkey
  constructor <;> simp_all [eq_comm]

theorem loadMembers_tag {full : Draft} (hcomplete : Json.completeMembers members = true)
    (hholds : full.Holds members) (hd : d.AgreesBut full (members.map Prod.fst)) :
    loadMembers .tag d members = .ok full := by
  induction members generalizing d with
  | nil => exact congrArg Except.ok hd.eq
  | cons m ms ih =>
    obtain ⟨key, v⟩ := m
    obtain ⟨hv, hms⟩ := completeMembers_cons hcomplete
    have hrest := fun {d'} => @ih d' hms hholds.tail
    rw [List.map_cons] at hd
    generalize ms.map Prod.fst = names at hd hrest
    by_cases hfield : key ∈ NodeType.tag.fields
    · obtain ⟨htext, hname, hextension, hattributes, hchildren, hclosing⟩ := hd
      simp only [NodeType.fields, List.mem_cons, List.not_mem_nil, or_false] at hfield
      rcases hfield with rfl | rfl | rfl | rfl | rfl
      · obtain ⟨s, rfl, hs⟩ := hholds.name v List.mem_cons_self
        refine Eq.trans ?_ (@hrest { d with name := some s } ?_)
        · simp [loadMembers, loadString, bind, Except.bind]
        · constructor <;> simp_all
      · have hform := hholds.extension v List.mem_cons_self
        refine Eq.trans ?_ (@hrest { d with extension := full.extension } ?_)
        · generalize full.extension = extension at hform
          cases hform <;> simp [loadMembers, loadString, bind, Except.bind]
        · constructor <;> simp_all
      · have hload := hholds.attributes v List.mem_cons_self
        refine Eq.trans ?_ (@hrest { d with attributes := full.attributes } ?_)
        · simp [loadMembers, hload, bind, Except.bind]
        · constructor <;> simp_all
      · have hload := hholds.children v List.mem_cons_self
        refine Eq.trans ?_ (@hrest { d with children := full.children } ?_)
        · simp [loadMembers, hload, bind, Except.bind]
        · constructor <;> simp_all
      · obtain rfl := hholds.selfClosing v List.mem_cons_self
        refine Eq.trans ?_ (@hrest { d with selfClosing := full.selfClosing } ?_)
        · simp [loadMembers, bind, Except.bind]
        · constructor <;> simp_all
    have hskip := hd.skip hfield
    by_cases htypeKey : key = "type"
    · obtain rfl := htypeKey
      obtain rfl := hholds.type v List.mem_cons_self
      exact (loadMembers_type .tag).trans (hrest hskip)
    · exact (loadMembers_other htypeKey hfield hv).trans (hrest hskip)

end Members

theorem completeMembers_of_mem {members : List (String × Json)} {key : String} {v : Json}
    (h : Json.completeMembers members = true) (hm : (key, v) ∈ members) : v.complete = true := by
  induction members with
  | nil => cases hm
  | cons m ms ih =>
    obtain ⟨hv, hms⟩ := completeMembers_cons h
    rcases List.mem_cons.1 hm with rfl | hm
    · exact hv
    · exact ih hms hm

theorem eq_of_lookup_of_mem {members : List (String × Json)} {key : String} {v w : Json}
    (hkeys : (members.map Prod.fst).Nodup) (hv : members.lookup key = some v)
    (hw : (key, w) ∈ members) : w = v := by
  rw [(OrderedMap.lookup_eq_some_iff hkeys).2 hw] at hv
  exact Option.some.inj hv

theorem ExtensionForm.absent_eq {found : Option Json} {extension : Option String}
    (h : ExtensionForm found extension) (hfound : found = none) : extension = none := by
  cases h <;> trivial

theorem FlagForm.absent_eq {found : Option Json} {flag : Bool} (h : FlagForm found flag)
    (hfound : found = none) : flag = false := by
  cases h <;> trivial

theorem ChildrenForm.absent_eq {found : Option Json} {nodes : List Node}
    (h : ChildrenForm found nodes) (hfound : found = none) : nodes = [] := by
  cases h <;> trivial

theorem AttributesForm.absent_eq {found : Option Json} {as : List (String × AttributeValue)}
    (h : AttributesForm found as) (hfound : found = none) : as = [] := by
  cases h <;> trivial

mutual

theorem NodeForm.load {v : Json} {n : Node} :
    NodeForm v n → v.complete = true → loadNode v = .ok n
  | @NodeForm.text members value hkeys htype hvalue, hcomplete => by
    have htext := @loadMembers_text members {} value hcomplete
      (fun _ => eq_of_lookup_of_mem hkeys htype) (fun _ => eq_of_lookup_of_mem hkeys hvalue)
      fun hnot => absurd (List.mem_map_of_mem (OrderedMap.mem_of_lookup hvalue)) hnot
    obtain ⟨d, hd, htext⟩ := htext
    rw [loadNode, nodeType_of_lookup .text hcomplete htype]
    simp [bind, Except.bind, hd, Draft.node, htext]
  | @NodeForm.tag members name extension attributes children selfClosing hkeys htype hname
      hextension hattributes hchildren hclosing, hcomplete => by
    have hcompleteOf : ∀ {key v}, members.lookup key = some v → v.complete = true :=
      fun hv => completeMembers_of_mem hcomplete (OrderedMap.mem_of_lookup hv)
    have hlookup : ∀ {key v}, (key, v) ∈ members → members.lookup key = some v :=
      (OrderedMap.lookup_eq_some_iff hkeys).2
    let full : Draft := ⟨none, some name, extension, attributes, children, selfClosing⟩
    have hholds : full.Holds members :=
      { type := fun v hv => eq_of_lookup_of_mem hkeys htype hv
        name := fun v hv => ⟨name, eq_of_lookup_of_mem hkeys hname hv, rfl⟩
        extension := fun v hv => hlookup hv ▸ hextension
        attributes := fun v hv => hattributes.load (hlookup hv) (hcompleteOf (hlookup hv))
        children := fun v hv => hchildren.load (hlookup hv) (hcompleteOf (hlookup hv))
        selfClosing := fun v hv => by
          have hform : FlagForm (some v) selfClosing := hlookup hv ▸ hclosing
          cases hform
          rfl }
    have hagrees : Draft.AgreesBut {} full (members.map Prod.fst) :=
      { text := rfl
        name := fun hnot => absurd (List.mem_map_of_mem (OrderedMap.mem_of_lookup hname)) hnot
        extension := fun hnot => (hextension.absent_eq (OrderedMap.lookup_eq_none hnot)).symm
        attributes := fun hnot => (hattributes.absent_eq (OrderedMap.lookup_eq_none hnot)).symm
        children := fun hnot => (hchildren.absent_eq (OrderedMap.lookup_eq_none hnot)).symm
        selfClosing := fun hnot => (hclosing.absent_eq (OrderedMap.lookup_eq_none hnot)).symm }
    rw [loadNode, nodeType_of_lookup .tag hcomplete htype]
    simp [bind, Except.bind, loadMembers_tag hcomplete hholds hagrees, Draft.node, full]

theorem NodesForm.load {vs : List Json} {ns : List Node} :
    NodesForm vs ns → Json.completeItems vs = true → loadNodes vs = .ok ns
  | .nil, _ => rfl
  | .cons hn hns, hcomplete => by
    simp only [Json.completeItems, Bool.and_eq_true] at hcomplete
    rw [loadNodes, hn.load hcomplete.1, hns.load hcomplete.2]
    rfl

theorem ChildrenForm.load {found : Option Json} {nodes : List Node} {v : Json} :
    ChildrenForm found nodes → found = some v → v.complete = true → loadChildren v = .ok nodes
  | .absent, hv, _ => nomatch hv
  | .array h, hv, hcomplete => by
    cases hv
    exact h.load hcomplete

theorem ValueForm.load {v : Json} {value : AttributeValue} :
    ValueForm v value → v.complete = true → loadValue v = .ok value
  | .literal s, _ => rfl
  | .markup h, hcomplete => by
    rw [loadValue, h.load hcomplete]
    rfl

theorem AttributesForm.load {found : Option Json} {as : List (String × AttributeValue)} {v : Json} :
    AttributesForm found as → found = some v → v.complete = true → loadAttributeMap v = .ok as
  | .absent, hv, _ => nomatch hv
  | .object hkeys h, hv, hcomplete => by
    cases hv
    exact h.load hcomplete (h.keys ▸ hkeys)

theorem EntriesForm.load {ms : List (String × Json)} {as loaded : List (String × AttributeValue)} :
    EntriesForm ms as → Json.completeMembers ms = true → ((loaded ++ as).map Prod.fst).Nodup →
      loadAttributes loaded ms = .ok (loaded ++ as)
  | .nil, _, _ => by rw [loadAttributes, List.append_nil]
  | @EntriesForm.cons key _ value _ as hv has, hcomplete, hnames => by
    obtain ⟨hcv, hcs⟩ := completeMembers_cons hcomplete
    have hnew : key ∉ loaded.map Prod.fst := by
      rw [List.map_append, List.nodup_append] at hnames
      exact fun hmem => hnames.2.2 key hmem key List.mem_cons_self rfl
    have happend : loaded ++ (key, value) :: as = (loaded ++ [(key, value)]) ++ as := by simp
    rw [happend] at hnames ⊢
    rw [loadAttributes, hv.load hcv]
    rw [← OrderedMap.insert_of_new hnew value] at hnames ⊢
    exact has.load hcs hnames

end

theorem Codec.compact_readsForms : Codec.compact.ReadsForms := by
  intro text items nodes htext hform
  have hload : readNodes text = .ok nodes := by
    rw [readNodes, htext.readText]
    simp [loadChildren, hform.load htext.complete, bind, Except.bind]
  exact hload

/-- Whatever is stored of a tree is loaded as the tree again. -/
theorem load_dump (codec : Codec) (hwrites : codec.WritesFields) (hreads : codec.ReadsForms)
    {nodes : List Node} (hnames : ∀ t ∈ tagsOf nodes, t.NamesOnce) :
    load (dump nodes codec) codec = .ok nodes :=
  hreads _ _ _ (hwrites nodes hnames) (form_nodesToJson nodes hnames)

/-- Quotation marks, a backslash, control characters, an empty name and an empty value of markup. -/
theorem load_dump_marks :
    let leaf : Node := .tag ⟨"", some "", [], [], true⟩
    let nodes : List Node :=
      [.text "\"\\\x00\x1f\n\u00e9", .tag ⟨"a.b", none, [("z", .markup [.text "'", leaf]),
        ("\"", .literal "\\u0041"), ("", .markup [])], [.text "", leaf], true⟩]
    Codec.compact.WritesFields ∧ Codec.compact.ReadsForms ∧ (∀ t ∈ tagsOf nodes, t.NamesOnce) ∧
      load (dump nodes) = .ok nodes := by
  intro leaf nodes
  have hwrites := Codec.compact_writesFields
  have hreads := Codec.compact_readsForms
  have hnames : ∀ t ∈ tagsOf nodes, t.NamesOnce := by decide
  exact ⟨hwrites, hreads, hnames, load_dump .compact hwrites hreads hnames⟩

end TagTemplate.Markup
