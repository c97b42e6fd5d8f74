import Mathlib.Data.List.Forall2
import Mathlib.Data.List.Infix
import TagTemplate.Proofs.LastValues
import TagTemplate.Proofs.Shifting
import TagTemplate.Proofs.TagNames

/-!
# The grammar of templates

Tags nest: the tokens of a template are texts, self-closing tags, and tags that are opened and
closed under one name around tokens of the same kind. The tree of a template is the one this grammar
derives from its tokens. Names are checked only when a tag is complete and values only then
compiled, so what is known about a prefix of the tokens is how it may be completed.
-/

namespace TagTemplate

theorem exists_of_forall₂ {α β : Type} {R : α → β → Prop} {xs : List α} {ys : List β}
    (h : List.Forall₂ R xs ys) : ∀ y ∈ ys, ∃ x ∈ xs, R x y := by
  induction h with
  | nil => nofun
  | cons hxy _ ih =>
    intro y hy
    rcases List.mem_cons.1 hy with rfl | hmem
    · exact ⟨_, List.mem_cons_self, hxy⟩
    · obtain ⟨x, hx, hxy⟩ := ih y hmem
      exact ⟨x, List.mem_cons_of_mem _ hx, hxy⟩

namespace Markup

inductive Balanced : List Token → Prop where
  | nil : Balanced []
  | text {ts} (value : String) (offset : Nat) (rest : Balanced ts) :
      Balanced (.text value offset :: ts)
  | selfClosing {tag ts} (closed : tag.selfClosing = true) (rest : Balanced ts) :
      Balanced (.opening tag :: ts)
  | pair {tag inner ts} (source : String) (offset : Nat) (opened : tag.selfClosing = false)
      (inside : Balanced inner) (rest : Balanced ts) :
      Balanced (.opening tag :: (inner ++ .closing tag.name source offset :: ts))

/-- The tags of a path around a tag that has the attributes and the children. The extension belongs
to the outermost one. -/
def spread (name : String) (attributes : List (String × AttributeValue)) (children : List Node)
    (selfClosing : Bool) : Option String → List String → Tag
  | extension, [] => ⟨name, extension, attributes, children, selfClosing⟩
  | extension, outer :: inner =>
    ⟨outer, extension, [], [.tag (spread name attributes children selfClosing none inner)], false⟩

section Derivations

variable (value : RawAttribute → AttributeValue → Prop)

def Opening.Expands (tag : Opening) (children : List Node) (t : Tag) : Prop :=
  ∃ (path : TagPath) (pairs attributes : List (String × AttributeValue)),
    (path.Proper ∧ tag.name.toList = path.written) ∧
    List.Forall₂ (fun a p => p.1 = a.name ∧ value a p.2) tag.attributes pairs ∧
    OrderedMap.KeepsLast pairs attributes ∧
    t = spread path.name attributes children tag.selfClosing path.extension path.outer

/-- The nodes that tokens stand for, given what attributes mean. -/
inductive Derives : List Token → List Node → Prop where
  | nil : Derives [] []
  | text {ts nodes} (text : String) (offset : Nat) (rest : Derives ts nodes) :
      Derives (.text text offset :: ts) (.text text :: nodes)
  | selfClosing {tag ts t nodes} (closed : tag.selfClosing = true)
      (node : tag.Expands value [] t) (rest : Derives ts nodes) :
      Derives (.opening tag :: ts) (.tag t :: nodes)
  | pair {tag inner ts children t nodes} (source : String) (offset : Nat)
      (opened : tag.selfClosing = false) (inside : Derives inner children)
      (node : tag.Expands value children t) (rest : Derives ts nodes) :
      Derives (.opening tag :: (inner ++ .closing tag.name source offset :: ts)) (.tag t :: nodes)

/-- What is inside open tags, given the nodes since the innermost one, is completed to nodes. -/
inductive Completes : List OpenTag → List Node → List Token → List Node → Prop where
  | done {ts nodes} (before : List Node) (rest : Derives value ts nodes) :
      Completes [] before ts (before.reverse ++ nodes)
  | close {frame frames before inner children t ts nodes} (source : String) (offset : Nat)
      (inside : Derives value inner children)
      (node : frame.tag.Expands value (before.reverse ++ children) t)
      (rest : Completes frames (.tag t :: frame.before) ts nodes) :
      Completes (frame :: frames) before
        (inner ++ .closing frame.tag.name source offset :: ts) nodes

end Derivations

theorem nest_eq_spread (outer : List String) (extension : Option String) (name : String)
    (attributes : List (String × AttributeValue)) (children : List Node) (selfClosing : Bool) :
    { nest outer ⟨name, none, attributes, children, selfClosing⟩ with extension := extension } =
      spread name attributes children selfClosing extension outer := by
  induction outer generalizing extension with
  | nil => rfl
  | cons outer inner ih =>
    rw [spread, nest, ← ih none]
    cases inner <;> rfl

section Derivations

variable {value : RawAttribute → Except Failure AttributeValue}

theorem compileAttributes_eq_ok_iff {as : List RawAttribute}
    {pairs : List (String × AttributeValue)} :
    compileAttributes value as = .ok pairs ↔
      List.Forall₂ (fun a p => p.1 = a.name ∧ value a = .ok p.2) as pairs := by
  induction as generalizing pairs with
  | nil => simp [compileAttributes, eq_comm]
  | cons a as ih =>
    rw [compileAttributes]
    constructor
    · intro h
      cases hv : value a with
      | error failure => simp [hv] at h
      | ok v =>
        cases hvs : compileAttributes value as with
        | error failure => simp [hv, hvs] at h
        | ok vs =>
          rw [hv, hvs] at h
          obtain rfl := Except.ok.inj h
          exact .cons ⟨rfl, hv⟩ (ih.1 hvs)
    · rintro (- | ⟨⟨hname, hv⟩, hvs⟩)
      rw [hv, ih.2 hvs, ← hname]

theorem build_eq_ok_iff {tag : Opening} {children : List Node} {node : Node} :
    tag.build value children = .ok node ↔
      ∃ t, node = .tag t ∧ tag.Expands (fun a v => value a = .ok v) children t := by
  unfold Opening.build Opening.Expands
  constructor
  · intro h
    cases hpath : TagPath.ofName? tag.name with
    | none => simp [hpath] at h
    | some path =>
      cases hpairs : compileAttributes value tag.attributes with
      | error failure => simp [hpath, hpairs] at h
      | ok pairs =>
        rw [hpath, hpairs] at h
        obtain rfl := Except.ok.inj h
        exact ⟨_, rfl, path, pairs, _, TagPath.ofName?_eq_some_iff.1 hpath,
          compileAttributes_eq_ok_iff.1 hpairs, OrderedMap.keepsLast_ofPairs pairs,
          nest_eq_spread ..⟩
  · rintro ⟨t, rfl, path, pairs, attributes, hpath, hpairs, hkeeps, rfl⟩
    rw [TagPath.ofName?_eq_some_iff.2 hpath, compileAttributes_eq_ok_iff.2 hpairs,
      OrderedMap.keepsLast_iff.1 hkeeps]
    dsimp only
    rw [← nest_eq_spread]
    rfl

theorem Completes.prepend {value : RawAttribute → AttributeValue → Prop} {frames : List OpenTag}
    {before : List Node} {ts : List Token} {node : Node} {nodes : List Node} (us : List Token)
    (hnode : ∀ {ts nodes}, Derives value ts nodes → Derives value (us ++ ts) (node :: nodes))
    (h : Completes value frames (node :: before) ts nodes) :
    Completes value frames before (us ++ ts) nodes := by
  cases h with
  | done _ rest => simpa using Completes.done before (hnode rest)
  | close source offset inside built rest =>
    rw [← List.append_assoc]
    exact .close source offset (hnode inside) (by simpa using built) rest

theorem completes_of_assemble {frames : List OpenTag} {before : List Node} {ts : List Token}
    {nodes : List Node} (h : assemble value frames before ts = .ok nodes) :
    Completes (fun a v => value a = .ok v) frames before ts nodes := by
  induction ts generalizing frames before with
  | nil =>
    cases frames with
    | nil =>
      obtain rfl := Except.ok.inj h
      simpa using Completes.done before .nil
    | cons frame frames => cases h
  | cons t ts ih =>
    cases t with
    | text text offset =>
      rw [assemble_text] at h
      exact (ih h).prepend [.text text offset] (.text text offset)
    | opening tag =>
      by_cases hclosed : tag.selfClosing = true
      · rw [assemble_selfClosing hclosed] at h
        obtain ⟨node, hnode, h⟩ := bind_eq_ok.1 h
        obtain ⟨t, rfl, ht⟩ := build_eq_ok_iff.1 hnode
        exact (ih h).prepend [.opening tag] (.selfClosing hclosed ht)
      · rw [Bool.not_eq_true] at hclosed
        rw [assemble_opening hclosed] at h
        cases ih h with
        | close source offset inside node rest =>
          have hpair := rest.prepend (.opening tag :: (_ ++ [.closing tag.name source offset]))
            fun rest => by simpa using Derives.pair source offset hclosed inside node rest
          simpa using hpair
    | closing name source offset =>
      cases frames with
      | nil => cases h
      | cons frame frames =>
        by_cases hname : frame.tag.name = name
        · subst hname
          rw [assemble_closing rfl] at h
          obtain ⟨node, hnode, h⟩ := bind_eq_ok.1 h
          obtain ⟨t, rfl, ht⟩ := build_eq_ok_iff.1 hnode
          exact .close source offset .nil (by simpa using ht) (ih h)
        · rw [assemble_mismatch hname] at h
          cases h

theorem assemble_of_derives {ts : List Token} {nodes : List Node}
    (h : Derives (fun a v => value a = .ok v) ts nodes) (frames : List OpenTag)
    (before : List Node) (rest : List Token) :
    assemble value frames before (ts ++ rest) =
      assemble value frames (nodes.reverse ++ before) rest := by
  induction h generalizing frames before rest with
  | nil => rfl
  | text text offset _ ih =>
    rw [List.cons_append, assemble_text, ih]
    simp
  | selfClosing closed node _ ih =>
    rw [List.cons_append, assemble_selfClosing closed, build_eq_ok_iff.2 ⟨_, rfl, node⟩,
      Except.bind, ih]
    simp
  | pair source offset opened _ node _ ihInside ihRest =>
    rw [List.cons_append, assemble_opening opened, List.append_assoc, ihInside, List.cons_append,
      assemble_closing rfl, build_eq_ok_iff.2 ⟨_, rfl, by simpa using node⟩, Except.bind, ihRest]
    simp

theorem assemble_eq_ok_iff {ts : List Token} {nodes : List Node} :
    assemble value [] [] ts = .ok nodes ↔ Derives (fun a v => value a = .ok v) ts nodes := by
  constructor
  · intro h
    cases completes_of_assemble h with
    | done _ rest => exact rest
  · intro h
    have hrun := assemble_of_derives h [] [] []
    simpa [assemble] using hrun

end Derivations

section Balance

variable {value : RawAttribute → AttributeValue → Prop}

theorem Derives.balanced {ts : List Token} {nodes : List Node} (h : Derives value ts nodes) :
    Balanced ts := by
  induction h with
  | nil => exact .nil
  | text text offset _ ih => exact .text text offset ih
  | selfClosing closed _ _ ih => exact .selfClosing closed ih
  | pair source offset opened _ _ _ ihInside ihRest =>
    exact .pair source offset opened ihInside ihRest

theorem Derives.expands {ts : List Token} {nodes : List Node} (h : Derives value ts nodes)
    {tag : Opening} (htag : .opening tag ∈ ts) : ∃ children t, tag.Expands value children t := by
  induction h with
  | nil => cases htag
  | text text offset _ ih => exact ih (by simpa using htag)
  | selfClosing closed node _ ih =>
    rcases List.mem_cons.1 htag with htag | htag
    · cases htag
      exact ⟨_, _, node⟩
    · exact ih htag
  | pair source offset opened _ node _ ihInside ihRest =>
    rcases List.mem_cons.1 htag with htag | htag
    · cases htag
      exact ⟨_, _, node⟩
    · rcases List.mem_append.1 htag with htag | htag
      · exact ihInside htag
      · exact ihRest (by simpa using htag)

theorem Opening.Expands.exists_value {tag : Opening} {children : List Node} {t : Tag}
    (h : tag.Expands value children t) {a : RawAttribute} (ha : a ∈ tag.attributes) :
    ∃ v, value a v := by
  obtain ⟨-, pairs, -, -, hpairs, -⟩ := h
  obtain ⟨p, -, -, hv⟩ := exists_of_forall₂ hpairs.flip a ha
  exact ⟨p.2, hv⟩

theorem Opening.exists_expands {tag : Opening} (children : List Node)
    (hname : ∃ path : TagPath, path.Proper ∧ tag.name.toList = path.written)
    (hvalue : ∀ a ∈ tag.attributes, ∃ v, value a v) : ∃ t, tag.Expands value children t := by
  obtain ⟨path, hpath⟩ := hname
  obtain ⟨pairs, hpairs⟩ : ∃ pairs : List (String × AttributeValue),
      List.Forall₂ (fun a p => p.1 = a.name ∧ value a p.2) tag.attributes pairs := by
    generalize tag.attributes = as at hvalue
    induction as with
    | nil => exact ⟨[], .nil⟩
    | cons a as ih =>
      rw [List.forall_mem_cons] at hvalue
      obtain ⟨v, hv⟩ := hvalue.1
      obtain ⟨pairs, hpairs⟩ := ih hvalue.2
      exact ⟨(a.name, v) :: pairs, .cons ⟨rfl, hv⟩ hpairs⟩
  exact ⟨_, path, pairs, _, hpath, hpairs, OrderedMap.keepsLast_ofPairs pairs, rfl⟩

theorem Balanced.exists_derives {ts : List Token} (h : Balanced ts)
    (hexpands : ∀ tag, .opening tag ∈ ts → ∀ children, ∃ t, tag.Expands value children t) :
    ∃ nodes, Derives value ts nodes := by
  induction h with
  | nil => exact ⟨[], .nil⟩
  | text text offset _ ih =>
    obtain ⟨nodes, hnodes⟩ := ih fun tag htag => hexpands tag (List.mem_cons_of_mem _ htag)
    exact ⟨_, .text text offset hnodes⟩
  | @selfClosing tag ts closed _ ih =>
    obtain ⟨nodes, hnodes⟩ := ih fun tag htag => hexpands tag (List.mem_cons_of_mem _ htag)
    obtain ⟨t, ht⟩ := hexpands tag List.mem_cons_self []
    exact ⟨_, .selfClosing closed ht hnodes⟩
  | @pair tag inner ts source offset opened _ _ ihInside ihRest =>
    obtain ⟨children, hchildren⟩ := ihInside fun tag htag =>
      hexpands tag (by simp [htag])
    obtain ⟨nodes, hnodes⟩ := ihRest fun tag htag => hexpands tag (by simp [htag])
    obtain ⟨t, ht⟩ := hexpands tag List.mem_cons_self children
    exact ⟨_, .pair source offset opened hchildren ht hnodes⟩

end Balance

/-- The value of an attribute is literal text, unless an opening tag begins in it: then it is
compiled as a text of its own. -/
def RawAttribute.Means (a : RawAttribute) (v : AttributeValue) : Prop :=
  if openMark <:+: a.value then
    ∃ nodes, v = .markup nodes ∧ compile (String.ofList a.value) none = .ok nodes
  else v = .literal (String.ofList a.value)

/-- The text splits into balanced tokens, its opening tags have proper names, and the same holds of
each attribute value in which an opening tag begins. -/
inductive WellFormed : List Char → Prop where
  | intro {cs ts} (tokens : (Window.whole cs).tokens = .ok ts) (balanced : Balanced ts)
      (names : ∀ tag, .opening tag ∈ ts →
        ∃ path : TagPath, path.Proper ∧ tag.name.toList = path.written)
      (values : ∀ tag, .opening tag ∈ ts → ∀ a ∈ tag.attributes, openMark <:+: a.value →
        WellFormed a.value) : WellFormed cs

theorem whole_tokens (cs : List Char) : (Window.whole cs).tokens = lex none 0 cs := by
  unfold Window.tokens Window.whole Window.beyond Window.content
  simp only [List.getElem?_length, List.take_length, List.drop_zero, Nat.lt_irrefl, decide_false,
    Bool.false_and, Bool.false_eq_true, if_false]
  cases lex none 0 cs <;> rfl

theorem holdsTag_iff {cs : List Char} : holdsTag cs = true ↔ openMark <:+: cs := by
  induction cs with
  | nil => simp [holdsTag, openMark]
  | cons c cs ih =>
    rw [holdsTag, Bool.or_eq_true, List.isPrefixOf_iff_prefix, ih, List.infix_cons_iff]

theorem compile_eq_ok_iff {text : String} {template : Option String} {nodes : List Node} :
    compile text template = .ok nodes ↔ parseWindow none 0 text.toList = .ok nodes := by
  unfold compile
  cases parseWindow none 0 text.toList <;> simp

theorem means_iff {a : RawAttribute} {v : AttributeValue} : a.compiled = .ok v ↔ a.Means v := by
  unfold RawAttribute.compiled RawAttribute.Means
  by_cases h : openMark <:+: a.value
  · rw [if_pos h, if_pos (holdsTag_iff.2 h), map_eq_ok]
    simp only [compile_eq_ok_iff, String.toList_ofList, parseWindow_eq_ok_iff]
    constructor
    · rintro ⟨nodes, hnodes, rfl⟩
      exact ⟨nodes, rfl, hnodes⟩
    · rintro ⟨nodes, rfl, hnodes⟩
      exact ⟨nodes, hnodes, rfl⟩
  · rw [if_neg h, if_neg (mt holdsTag_iff.1 h), Except.ok.injEq, eq_comm]

theorem RawAttribute.exists_means {a : RawAttribute}
    (h : openMark <:+: a.value → ∃ nodes, parseWindow none 0 a.value = .ok nodes) :
    ∃ v, a.Means v := by
  unfold RawAttribute.Means
  by_cases hmark : openMark <:+: a.value
  · obtain ⟨nodes, hnodes⟩ := h hmark
    refine ⟨.markup nodes, ?_⟩
    rw [if_pos hmark]
    exact ⟨nodes, rfl, compile_eq_ok_iff.2 (by rwa [String.toList_ofList])⟩
  · exact ⟨_, by rw [if_neg hmark]⟩

theorem RawAttribute.Means.parses {a : RawAttribute} {v : AttributeValue} (h : a.Means v)
    (hmark : openMark <:+: a.value) : ∃ nodes, parseWindow none 0 a.value = .ok nodes := by
  unfold RawAttribute.Means at h
  rw [if_pos hmark] at h
  obtain ⟨nodes, -, hnodes⟩ := h
  exact ⟨nodes, by simpa [compile_eq_ok_iff] using hnodes⟩

theorem parseWindow_eq_ok_iff_lex {offset : Nat} {cs : List Char} {nodes : List Node} :
    parseWindow none offset cs = .ok nodes ↔
      ∃ ts, lex none offset cs = .ok ts ∧ Derives RawAttribute.Means ts nodes := by
  have hmeans : (fun a v => RawAttribute.compiled a = .ok v) = RawAttribute.Means := by
    funext a v
    exact propext means_iff
  rw [parseWindow_eq, bind_eq_ok]
  simp only [assemble_eq_ok_iff, hmeans]

theorem parseWindow_eq_ok_iff_derives {cs : List Char} {nodes : List Node} :
    parseWindow none 0 cs = .ok nodes ↔
      ∃ ts, (Window.whole cs).tokens = .ok ts ∧ Derives RawAttribute.Means ts nodes := by
  rw [whole_tokens]
  exact parseWindow_eq_ok_iff_lex

theorem WellFormed.parses {cs : List Char} (h : WellFormed cs) :
    ∃ nodes, parseWindow none 0 cs = .ok nodes := by
  induction h with
  | @intro cs ts tokens balanced names _ ih =>
    have hexpands : ∀ tag, Token.opening tag ∈ ts → ∀ children,
        ∃ t, tag.Expands RawAttribute.Means children t := fun tag htag children =>
      Opening.exists_expands children (names tag htag) fun a ha =>
        RawAttribute.exists_means (ih tag htag a ha)
    obtain ⟨nodes, hnodes⟩ := balanced.exists_derives hexpands
    exact ⟨nodes, parseWindow_eq_ok_iff_derives.2 ⟨_, tokens, hnodes⟩⟩

theorem wellFormed_of_parses {cs : List Char} {nodes : List Node}
    (h : parseWindow none 0 cs = .ok nodes) : WellFormed cs := by
  induction hn : cs.length using Nat.strongRecOn generalizing cs nodes with
  | ind n ih =>
    obtain ⟨ts, hts, hderives⟩ := parseWindow_eq_ok_iff_derives.1 h
    refine .intro hts hderives.balanced ?_ ?_
    · intro tag htag
      obtain ⟨children, t, path, pairs, attributes, hpath, -⟩ := hderives.expands htag
      exact ⟨path, hpath⟩
    · intro tag htag a ha hmark
      obtain ⟨children, t, htag'⟩ := hderives.expands htag
      obtain ⟨v, hv⟩ := htag'.exists_value ha
      obtain ⟨nodes, hnodes⟩ := hv.parses hmark
      rw [whole_tokens] at hts
      exact ih _ (hn ▸ length_lex hts _ htag a ha) hnodes rfl

/-- Exactly the well-formed texts compile, each to the tree that the grammar derives. -/
theorem compile_accepts (text : String) (template : Option String) :
    ((∃ nodes, compile text template = .ok nodes) ↔ WellFormed text.toList) ∧
      ∀ nodes, compile text template = .ok nodes ↔
        ∃ ts, (Window.whole text.toList).tokens = .ok ts ∧ Derives RawAttribute.Means ts nodes := by
  simp only [compile_eq_ok_iff, ← parseWindow_eq_ok_iff_derives, implies_true, and_true]
  exact ⟨fun ⟨_, h⟩ => wellFormed_of_parses h, WellFormed.parses⟩

end Markup

end TagTemplate
