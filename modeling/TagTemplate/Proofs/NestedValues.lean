import TagTemplate.Proofs.Grammar

/-!
# Attribute values compile as if they stood alone

A value in which a tag begins is a text of its own: it compiles wherever it stands if it compiles
alone, and to the same tree. The tags of a tree belong to the opening tags of the text one after the
other, so that it can be said which value the tree keeps for which attribute.
-/

namespace TagTemplate

namespace OrderedMap

theorem KeepsLast.lookup_last {α : Type} {before after : List (String × α)} {p : String × α}
    {m : OrderedMap α} (h : KeepsLast (before ++ p :: after) m)
    (hlast : p.1 ∉ after.map Prod.fst) : m.lookup p.1 = some p.2 := by
  have hafter : after.reverse.lookup p.1 = none := lookup_eq_none (by simpa using hlast)
  rw [h.lookup, List.reverse_append, List.reverse_cons, List.append_assoc, List.lookup_append,
    hafter, Option.none_or, List.singleton_append, List.lookup_cons_self]

end OrderedMap

namespace Markup

mutual

/-- The tags of a node: a tag itself, then those it encloses. What is inside attribute values does
not belong to them. -/
def Node.elements : Node → List Tag
  | .text _ => []
  | .tag t => t :: t.innerElements

def Tag.innerElements : Tag → List Tag
  | { children, .. } => elementsOf children

def elementsOf : List Node → List Tag
  | [] => []
  | n :: ns => n.elements ++ elementsOf ns

end

def openings : List Token → List Opening
  | [] => []
  | .opening tag :: ts => tag :: openings ts
  | .text .. :: ts | .closing .. :: ts => openings ts

def Tag.Keeps (t : Tag) (as : List RawAttribute) : Prop :=
  ∀ before a after, as = before ++ a :: after → a.name ∉ after.map (·.name) →
    openMark <:+: a.value → ∃ nodes, compile (String.ofList a.value) none = .ok nodes ∧
      t.attributes.lookup a.name = some (.markup nodes)

/-- The opening tag has become these tags: one for each name of its path, of which only the
innermost has attributes, and keeps the values. -/
def Opening.Becomes (tag : Opening) (group : List Tag) : Prop :=
  ∃ path outer leaf, TagPath.ofName? tag.name = some path ∧ group = outer ++ [leaf] ∧
    group.map (·.name) = path.segments ∧ (∀ t ∈ outer, t.attributes = []) ∧
    leaf.Keeps tag.attributes

/-- The tags of the tree are those that the opening tags of the text have become, in order. -/
def KeepsValues (cs : List Char) (nodes : List Node) : Prop :=
  ∃ ts groups, (Window.whole cs).tokens = .ok ts ∧ elementsOf nodes = groups.flatten ∧
    List.Forall₂ Opening.Becomes (openings ts) groups

/-- A text that has to compile for the whole text to compile: itself, and the value of any attribute
in it in which an opening tag begins. -/
inductive Piece (text : List Char) : List Char → Prop where
  | whole : Piece text text
  | value {cs ts tag a} (outer : Piece text cs) (tokens : (Window.whole cs).tokens = .ok ts)
      (mem : .opening tag ∈ ts) (written : a ∈ tag.attributes) (holds : openMark <:+: a.value) :
      Piece text a.value

theorem elementsOf_cons (n : Node) (nodes : List Node) :
    elementsOf (n :: nodes) = elementsOf [n] ++ elementsOf nodes := by
  rw [elementsOf, elementsOf, elementsOf, List.append_nil]

theorem openings_append (ts us : List Token) : openings (ts ++ us) = openings ts ++ openings us := by
  induction ts with
  | nil => rfl
  | cons t ts ih => cases t <;> simp [openings, ih]

theorem elementsOf_spread (name : String) (attributes : List (String × AttributeValue))
    (children : List Node) (selfClosing : Bool) (extension : Option String)
    (names : List String) : ∃ outer leaf,
      elementsOf [.tag (spread name attributes children selfClosing extension names)] =
        outer ++ leaf :: elementsOf children ∧
      outer.map (·.name) = names ∧ leaf.name = name ∧ (∀ t ∈ outer, t.attributes = []) ∧
      leaf.attributes = attributes := by
  induction names generalizing extension with
  | nil =>
    refine ⟨[], ⟨name, extension, attributes, children, selfClosing⟩, ?_, rfl, rfl, nofun, rfl⟩
    rw [spread, elementsOf, elementsOf, List.append_nil]
    rfl
  | cons n names ih =>
    obtain ⟨outer, leaf, helements, hnames, hname, hempty, hattributes⟩ := ih none
    let inner := spread name attributes children selfClosing none names
    refine ⟨⟨n, extension, [], [.tag inner], false⟩ :: outer, leaf, ?_, ?_, hname, ?_, hattributes⟩
    · rw [spread, List.cons_append, ← helements, elementsOf, elementsOf, List.append_nil]
      rfl
    · rw [List.map_cons, hnames]
    · exact List.forall_mem_cons.2 ⟨rfl, hempty⟩

theorem map_fst_of_values {value : RawAttribute → AttributeValue → Prop} {as : List RawAttribute}
    {pairs : List (String × AttributeValue)}
    (h : List.Forall₂ (fun a p => p.1 = a.name ∧ value a p.2) as pairs) :
    pairs.map Prod.fst = as.map (·.name) := by
  rw [← List.forall₂_eq_eq_eq, List.forall₂_map_left_iff, List.forall₂_map_right_iff]
  exact h.flip.imp fun p a h => h.1

theorem keeps_of_means {as : List RawAttribute} {pairs attributes : List (String × AttributeValue)}
    (hpairs : List.Forall₂ (fun a p => p.1 = a.name ∧ a.Means p.2) as pairs)
    (hkeeps : OrderedMap.KeepsLast pairs attributes) {t : Tag} (ht : t.attributes = attributes) :
    t.Keeps as := by
  rintro before a after rfl hlast hholds
  have hrest := List.forall₂_drop_append pairs before (a :: after) hpairs.flip
  have hsplit := List.take_append_drop before.length pairs
  cases hdrop : pairs.drop before.length with
  | nil =>
    rw [hdrop] at hrest
    cases hrest
  | cons p rest =>
    rw [hdrop] at hrest hsplit
    obtain ⟨⟨hname, hmeans⟩, hrest⟩ := List.forall₂_cons.1 hrest
    have hnames : rest.map Prod.fst = after.map (·.name) := map_fst_of_values hrest.flip
    rw [← hsplit] at hkeeps
    have hlookup := hkeeps.lookup_last (by rwa [hnames, hname])
    unfold RawAttribute.Means at hmeans
    rw [if_pos hholds] at hmeans
    obtain ⟨nodes, hvalue, hcompile⟩ := hmeans
    exact ⟨nodes, hcompile, by rw [ht, ← hname, hlookup, hvalue]⟩

theorem becomes_of_expands {tag : Opening} {children : List Node} {t : Tag}
    (h : tag.Expands RawAttribute.Means children t) :
    ∃ group, elementsOf [.tag t] = group ++ elementsOf children ∧ tag.Becomes group := by
  obtain ⟨path, pairs, attributes, hpath, hpairs, hkeeps, rfl⟩ := h
  obtain ⟨outer, leaf, helements, hnames, hname, hempty, hattributes⟩ :=
    elementsOf_spread path.name attributes children tag.selfClosing path.extension path.outer
  refine ⟨outer ++ [leaf], by simpa using helements, path, outer, leaf,
    TagPath.ofName?_eq_some_iff.2 hpath, rfl, ?_, hempty, keeps_of_means hpairs hkeeps hattributes⟩
  rw [List.map_append, hnames, List.map_singleton, hname]
  rfl

theorem Derives.elements {ts : List Token} {nodes : List Node}
    (h : Derives RawAttribute.Means ts nodes) : ∃ groups, elementsOf nodes = groups.flatten ∧
      List.Forall₂ Opening.Becomes (openings ts) groups := by
  induction h with
  | nil => exact ⟨[], rfl, .nil⟩
  | text text offset _ ih => exact ih
  | @selfClosing tag ts t nodes _ node _ ih =>
    obtain ⟨group, helements, hgroup⟩ := becomes_of_expands node
    obtain ⟨groups, hrest, hgroups⟩ := ih
    refine ⟨group :: groups, ?_, .cons hgroup hgroups⟩
    rw [elementsOf_cons, helements, hrest, elementsOf, List.append_nil, List.flatten_cons]
  | @pair tag inner ts children t nodes source offset _ _ node _ ihInside ihRest =>
    obtain ⟨group, helements, hgroup⟩ := becomes_of_expands node
    obtain ⟨groups, hinside, hgroups⟩ := ihInside
    obtain ⟨groups', hrest, hgroups'⟩ := ihRest
    refine ⟨group :: (groups ++ groups'), ?_, ?_⟩
    · rw [elementsOf_cons, helements, hinside, hrest, List.flatten_cons, List.flatten_append,
        List.append_assoc]
    · rw [openings, openings_append, openings]
      exact .cons hgroup (List.rel_append hgroups hgroups')

theorem keepsValues_of_compile {text : String} {template : Option String} {nodes : List Node}
    (h : compile text template = .ok nodes) : KeepsValues text.toList nodes := by
  obtain ⟨ts, hts, hderives⟩ := parseWindow_eq_ok_iff_derives.1 (compile_eq_ok_iff.1 h)
  obtain ⟨groups, helements, hgroups⟩ := hderives.elements
  exact ⟨ts, groups, hts, helements, hgroups⟩

theorem Piece.compiles {text cs : List Char} (h : Piece text cs) {nodes : List Node}
    (htext : parseWindow none 0 text = .ok nodes) : ∃ inner, parseWindow none 0 cs = .ok inner := by
  induction h with
  | whole => exact ⟨nodes, htext⟩
  | @value cs ts tag a _ tokens mem written holds ih =>
    obtain ⟨inner, hinner⟩ := ih
    obtain ⟨ts', tokens', hderives⟩ := parseWindow_eq_ok_iff_derives.1 hinner
    obtain rfl : ts' = ts := Except.ok.inj (tokens'.symm.trans tokens)
    obtain ⟨children, t, hexpands⟩ := hderives.expands mem
    obtain ⟨v, hmeans⟩ := hexpands.exists_value written
    exact hmeans.parses holds

/-- Where a text compiles, every value in it that has an opening tag compiles as a text of its own,
at any depth of values inside values, and for the last value of each attribute the tree has just
that. Where one such value does not compile the text does not. Neither the place of a window nor
what follows it has an influence on its tree. -/
theorem compile_values (text : String) (template : Option String) :
    (∀ nodes, compile text template = .ok nodes → KeepsValues text.toList nodes ∧
      ∀ cs, Piece text.toList cs →
        ∃ inner, compile (String.ofList cs) none = .ok inner ∧ KeepsValues cs inner) ∧
    (∀ cs e, Piece text.toList cs → compile (String.ofList cs) none = .error e →
      ∃ e', compile text template = .error e') ∧
    ∀ beyond offset cs nodes,
      parseWindow beyond offset cs = .ok nodes ↔ compile (String.ofList cs) none = .ok nodes := by
  refine ⟨fun nodes h => ⟨keepsValues_of_compile h, fun cs hcs => ?_⟩, fun cs e hcs he => ?_,
    fun beyond offset cs nodes => ?_⟩
  · obtain ⟨inner, hinner⟩ := hcs.compiles (compile_eq_ok_iff.1 h)
    have hcompile : compile (String.ofList cs) none = .ok inner :=
      compile_eq_ok_iff.2 (by rwa [String.toList_ofList])
    have hkeeps := keepsValues_of_compile hcompile
    rw [String.toList_ofList] at hkeeps
    exact ⟨inner, hcompile, hkeeps⟩
  · cases h : compile text template with
    | error e' => exact ⟨e', rfl⟩
    | ok nodes =>
      obtain ⟨inner, hinner⟩ := hcs.compiles (compile_eq_ok_iff.1 h)
      have hcompile : compile (String.ofList cs) none = .ok inner :=
        compile_eq_ok_iff.2 (by rwa [String.toList_ofList])
      rw [he] at hcompile
      cases hcompile
  · rw [compile_eq_ok_iff, String.toList_ofList, parseWindow_eq_ok_iff]

/-- One attribute written twice, with a tag in a value in a value, and a value that is no text. -/
theorem compile_values_twice :
    let text := "<pop:t a=\"<pop:x/>\" a=\"<pop:y b='<pop:z/>'/>\"/>"
    let inner := "<pop:z/>".toList
    let bad := "<pop:t a='<pop:'/>"
    (∃ nodes, compile text none = .ok nodes ∧ KeepsValues text.toList nodes) ∧
      Piece text.toList inner ∧
      (∃ nodes, compile (String.ofList inner) none = .ok nodes ∧ KeepsValues inner nodes) ∧
      Piece bad.toList openMark ∧ ∃ e, compile bad none = .error e := by
  intro text inner bad
  let middle : RawAttribute := ⟨"a", "<pop:y b='<pop:z/>'/>".toList, 23, '"'⟩
  have htokens : (Window.whole text.toList).tokens = .ok [.opening
      ⟨"t", [⟨"a", "<pop:x/>".toList, 10, '"'⟩, middle], true, text, 0⟩] := by decide +kernel
  have hinnerTokens : (Window.whole middle.value).tokens = .ok [.opening
      ⟨"y", [⟨"b", inner, 10, '\''⟩], true, String.ofList middle.value, 0⟩] := by decide +kernel
  have hmiddle : Piece text.toList middle.value :=
    .value .whole htokens List.mem_cons_self (by simp) (holdsTag_iff.1 (by decide))
  have hinner : Piece text.toList inner :=
    .value hmiddle hinnerTokens List.mem_cons_self List.mem_cons_self (holdsTag_iff.1 (by decide))
  have hbad : Piece bad.toList openMark := by
    have hbadTokens : (Window.whole bad.toList).tokens = .ok [.opening
        ⟨"t", [⟨"a", openMark, 10, '\''⟩], true, bad, 0⟩] := by decide +kernel
    exact .value .whole hbadTokens List.mem_cons_self List.mem_cons_self (holdsTag_iff.1 (by decide))
  have hfault : (compile (String.ofList openMark) none).map (fun _ => ()) =
      .error ⟨.invalidName, "<pop:", ⟨1, 1⟩, none⟩ := by decide +kernel
  have hok : (compile text none).map (fun _ => ()) = .ok () := by decide +kernel
  obtain ⟨nodes, hnodes, -⟩ := map_eq_ok.1 hok
  obtain ⟨hkeeps, hpieces⟩ := (compile_values text none).1 nodes hnodes
  exact ⟨⟨nodes, hnodes, hkeeps⟩, hinner, hpieces inner hinner, hbad,
    (compile_values bad none).2.1 openMark _ hbad (map_eq_error.1 hfault)⟩

end Markup

end TagTemplate
