import TagTemplate.Proofs.Printing
import TagTemplate.Proofs.Walking
import TagTemplate.Proofs.WrittenTags

/-!
# Compiled trees are canonical

What a text compiles to is in a normal form at every level, in attribute values too: there are no
empty texts and no two texts in a row, names have no dots or colons left in them, and a value that
is a tree is no empty one. The walk through it comes to every tag once, in the order of writing if
no tag has two attributes of one name.
-/

namespace TagTemplate.Markup

/-- The levels of a tree: its nodes, and the lists of nodes inside the tags of a level. -/
inductive Siblings (tree : List Node) : List Node → Prop where
  | top : Siblings tree tree
  | inside {level t nodes} (outer : Siblings tree level) (mem : .tag t ∈ level)
      (slot : nodes ∈ t.slots) : Siblings tree nodes

/-- The name of a tag and that of its extension are single ones, only a tag that is not self-closing
has children, and no value is an empty tree. -/
structure Tag.IsCanonical (t : Tag) : Prop where
  name : t.name ≠ "" ∧ '.' ∉ t.name.toList ∧ ':' ∉ t.name.toList
  extension : ∀ extension ∈ t.extension, extension ≠ "" ∧ ':' ∉ extension.toList
  closed : t.selfClosing = true → t.children = []
  values : ∀ name nodes, (name, .markup nodes) ∈ t.attributes → nodes ≠ []

/-- No text among the siblings is empty or follows another one, and every tag is canonical. -/
structure CanonicalLevel (level : List Node) : Prop where
  texts : ∀ value, .text value ∈ level → value ≠ ""
  apart : level.IsChain fun m n => ¬ (m.isText = true ∧ n.isText = true)
  tags : ∀ t, .tag t ∈ level → t.IsCanonical

/-- The tree is canonical at every level. -/
def Canonical (tree : List Node) : Prop := ∀ level, Siblings tree level → CanonicalLevel level

def Tag.CanonicalInside (t : Tag) : Prop := t.IsCanonical ∧ ∀ nodes ∈ t.slots, Canonical nodes

theorem Siblings.trans {tree level nodes : List Node} (h : Siblings tree level)
    (h' : Siblings level nodes) : Siblings tree nodes := by
  induction h' with
  | top => exact h
  | inside _ mem slot ih => exact ih.inside mem slot

theorem canonical_iff {tree : List Node} :
    Canonical tree ↔ CanonicalLevel tree ∧
      ∀ t, .tag t ∈ tree → ∀ nodes ∈ t.slots, Canonical nodes := by
  constructor
  · intro h
    exact ⟨h tree .top, fun t ht nodes hnodes level hlevel =>
      h level ((Siblings.top.inside ht hnodes).trans hlevel)⟩
  · rintro ⟨htree, hinside⟩ level hlevel
    -- a level is the tree itself, or a level of something inside one of its tags
    have hcases : level = tree ∨
        ∃ t nodes, .tag t ∈ tree ∧ nodes ∈ t.slots ∧ Siblings nodes level := by
      induction hlevel with
      | top => exact Or.inl rfl
      | inside _ mem slot ih =>
        right
        rcases ih with rfl | ⟨u, nodes, hu, hnodes, hlevel⟩
        · exact ⟨_, _, mem, slot, .top⟩
        · exact ⟨u, nodes, hu, hnodes, hlevel.inside mem slot⟩
    rcases hcases with rfl | ⟨t, nodes, ht, hnodes, hlevel⟩
    · exact htree
    · exact hinside t ht nodes hnodes level hlevel

theorem canonical_nil : Canonical [] := canonical_iff.2 ⟨⟨nofun, .nil, nofun⟩, nofun⟩

theorem Canonical.cons_text {nodes : List Node} (h : Canonical nodes) {value : String}
    (hvalue : value ≠ "") (hnext : ∀ n ∈ nodes.head?, n.isText = false) :
    Canonical (.text value :: nodes) := by
  obtain ⟨⟨htexts, hapart, htags⟩, hinside⟩ := canonical_iff.1 h
  refine canonical_iff.2 ⟨⟨?_, List.isChain_cons.2 ⟨?_, hapart⟩, by simpa using htags⟩,
    by simpa using hinside⟩
  · intro other hother
    rcases List.mem_cons.1 hother with hother | hother
    · cases hother
      exact hvalue
    · exact htexts other hother
  · rintro n hn ⟨-, htext⟩
    rw [hnext n hn] at htext
    cases htext

theorem Canonical.cons_tag {nodes : List Node} (h : Canonical nodes) {t : Tag}
    (ht : t.CanonicalInside) : Canonical (.tag t :: nodes) := by
  obtain ⟨⟨htexts, hapart, htags⟩, hinside⟩ := canonical_iff.1 h
  refine canonical_iff.2 ⟨⟨by simpa using htexts, List.isChain_cons.2 ⟨?_, hapart⟩, ?_⟩, ?_⟩
  · rintro n - ⟨htext, -⟩
    cases htext
  · intro u hu
    rcases List.mem_cons.1 hu with hu | hu
    · cases hu
      exact ht.1
    · exact htags u hu
  · intro u hu
    rcases List.mem_cons.1 hu with hu | hu
    · cases hu
      exact ht.2
    · exact hinside u hu

def AttributeValue.IsCanonical (v : AttributeValue) : Prop :=
  ∀ nodes, v = .markup nodes → nodes ≠ [] ∧ Canonical nodes

theorem AttributeValue.IsCanonical.nodes {v : AttributeValue} (h : v.IsCanonical) :
    Canonical v.nodes := by
  cases v with
  | literal value => exact canonical_nil
  | markup nodes => exact (h nodes rfl).2

theorem canonicalInside_spread {name : String} {attributes : List (String × AttributeValue)}
    {children : List Node} {selfClosing : Bool} {extension : Option String} {outer : List String}
    (hnames : ∀ n ∈ outer ++ [name], n ≠ "" ∧ '.' ∉ n.toList ∧ ':' ∉ n.toList)
    (hextension : ∀ e ∈ extension, e ≠ "" ∧ ':' ∉ e.toList)
    (hvalues : ∀ p ∈ attributes, p.2.IsCanonical) (hchildren : Canonical children)
    (hclosed : selfClosing = true → children = []) :
    (spread name attributes children selfClosing extension outer).CanonicalInside := by
  induction outer generalizing extension with
  | nil =>
    refine ⟨⟨hnames name (by simp), hextension, hclosed, fun key nodes hmem =>
      (hvalues (key, .markup nodes) hmem nodes rfl).1⟩, fun nodes hnodes => ?_⟩
    rw [spread, Tag.slots, List.mem_append, List.mem_map, List.mem_singleton] at hnodes
    rcases hnodes with ⟨p, hp, rfl⟩ | rfl
    · exact (hvalues p hp).nodes
    · exact hchildren
  | cons n outer ih =>
    rw [List.cons_append, List.forall_mem_cons] at hnames
    refine ⟨⟨hnames.1, hextension, by simp [spread], by simp [spread]⟩, fun nodes hnodes => ?_⟩
    obtain rfl : nodes = [.tag (spread name attributes children selfClosing none outer)] := by
      simpa [spread, Tag.slots] using hnodes
    exact canonical_nil.cons_tag (ih hnames.2 (by simp))

theorem Opening.Expands.canonicalInside {value : RawAttribute → AttributeValue → Prop}
    {tag : Opening} {children : List Node} {t : Tag} (h : tag.Expands value children t)
    (hvalues : ∀ a ∈ tag.attributes, ∀ v, value a v → v.IsCanonical)
    (hchildren : Canonical children) (hclosed : tag.selfClosing = true → children = []) :
    t.CanonicalInside := by
  obtain ⟨path, pairs, attributes, ⟨hproper, -⟩, hpairs, hkeeps, rfl⟩ := h
  refine canonicalInside_spread hproper.segments hproper.extension (fun p hp => ?_) hchildren
    hclosed
  obtain ⟨a, ha, -, hv⟩ := exists_of_forall₂ hpairs p (hkeeps.subset hp)
  exact hvalues a ha p.2 hv

theorem Derives.isText_head {value : RawAttribute → AttributeValue → Prop} {ts : List Token}
    {nodes : List Node} (h : Derives value ts nodes) (hts : ∀ t ∈ ts.head?, t.isText = false) :
    ∀ n ∈ nodes.head?, n.isText = false := by
  cases h with
  | nil => exact nofun
  | text text offset _ => cases hts _ rfl
  | selfClosing | pair =>
    rintro _ ⟨⟩
    rfl

theorem Derives.canonical {value : RawAttribute → AttributeValue → Prop} {ts : List Token}
    {nodes : List Node} (h : Derives value ts nodes) (hsource : ∀ t ∈ ts, t.source ≠ "")
    (hapart : ts.IsChain fun t u => ¬ (t.isText = true ∧ u.isText = true))
    (hvalues : ∀ tag, .opening tag ∈ ts → ∀ a ∈ tag.attributes, ∀ v, value a v → v.IsCanonical) :
    Canonical nodes := by
  induction h with
  | nil => exact canonical_nil
  | text text offset rest ih =>
    rw [List.forall_mem_cons] at hsource
    obtain ⟨hnext, hchain⟩ := List.isChain_cons.1 hapart
    refine (ih hsource.2 hchain fun tag htag => hvalues tag (List.mem_cons_of_mem _ htag)).cons_text
      hsource.1 (rest.isText_head fun t ht => ?_)
    simpa [Token.isText] using hnext t ht
  | selfClosing closed node _ ih =>
    rw [List.forall_mem_cons] at hsource
    refine (ih hsource.2 (List.isChain_cons.1 hapart).2 fun tag htag =>
      hvalues tag (List.mem_cons_of_mem _ htag)).cons_tag ?_
    exact node.canonicalInside (hvalues _ List.mem_cons_self) canonical_nil fun _ => rfl
  | @pair tag inner ts children t nodes source offset opened _ node _ ihInside ihRest =>
    have hchain := List.isChain_append.1 (List.isChain_cons.1 hapart).2
    have hchildren : Canonical children := by
      refine ihInside (fun t ht => hsource t ?_) hchain.1 fun tag htag => hvalues tag ?_
      · simp [ht]
      · simp [htag]
    have hnodes : Canonical nodes := by
      refine ihRest (fun t ht => hsource t ?_) (List.isChain_cons.1 hchain.2.1).2 fun tag htag =>
        hvalues tag ?_
      · simp [ht]
      · simp [htag]
    refine hnodes.cons_tag (node.canonicalInside (hvalues _ List.mem_cons_self) hchildren ?_)
    simp [opened]

/-- The induction is on the length of the text: a value is a shorter one. -/
theorem canonical_of_parses {cs : List Char} {nodes : List Node}
    (h : parseWindow none 0 cs = .ok nodes) : Canonical nodes := by
  induction hn : cs.length using Nat.strongRecOn generalizing cs nodes with
  | ind n ih =>
    obtain ⟨ts, hts, hderives⟩ := parseWindow_eq_ok_iff_lex.1 h
    obtain ⟨-, hnonempty, -, hapart, -⟩ := lex_tiles hts
    refine hderives.canonical hnonempty hapart fun tag htag a ha v hmeans inner hv => ?_
    subst hv
    by_cases hmark : openMark <:+: a.value
    · rw [RawAttribute.Means, if_pos hmark] at hmeans
      obtain ⟨_, ⟨⟩, hcompile⟩ := hmeans
      rw [compile_eq_ok_iff, String.toList_ofList] at hcompile
      refine ⟨?_, ih _ (hn ▸ length_lex hts _ htag a ha) hcompile rfl⟩
      rintro rfl
      obtain ⟨us, hus, hnone⟩ := parseWindow_eq_ok_iff_lex.1 hcompile
      cases hnone
      rw [← (lex_tiles hus).written] at hmark
      cases List.infix_nil.1 hmark
    · rw [RawAttribute.Means, if_neg hmark] at hmeans
      cases hmeans

/-- What a text compiles to is canonical. The walk comes to each of its tags once, and before that
to the tags around it. If no tag of the text has two attributes of one name, this is the order in
which the tags are written. -/
theorem compile_canonical {text : String} {template : Option String} {nodes : List Node}
    (h : compile text template = .ok nodes) :
    Canonical nodes ∧
      (∃ addresses, Visits (tagAt? nodes) (tagsOf nodes) addresses ∧ addresses.Nodup) ∧
      ∃ ts ps, (Window.whole text.toList).tokens = .ok ts ∧ Places ts nodes ps ∧
        PlacedIn 0 text.toList ps ∧
        (AttributesOnce text.toList → tagsOf nodes = ps.map Prod.snd) := by
  have hparse := compile_eq_ok_iff.1 h
  obtain ⟨addresses, hvisits⟩ := visits_tagsOf nodes
  exact ⟨canonical_of_parses hparse, ⟨addresses, hvisits, hvisits.nodup⟩, exists_written hparse⟩

/-- A dotted name with an extension, around a tag and with another one in a value. -/
theorem compile_canonical_dotted :
    let text := "<pop:e:a.b x='<pop:c/>'>t<pop:d/></pop:e:a.b>"
    AttributesOnce text.toList ∧ ∃ nodes ps, compile text none = .ok nodes ∧ Canonical nodes ∧
      PlacedIn 0 text.toList ps ∧ tagsOf nodes = ps.map Prod.snd ∧
      ps.map (fun p => p.2.name) = ["a", "b", "c", "d"] := by
  intro text
  let value : RawAttribute := ⟨"x", "<pop:c/>".toList, 14, '\''⟩
  have hinner : AttributesOnce value.value := by
    have htokens : (Window.whole value.value).tokens =
        .ok [.opening ⟨"c", [], true, "<pop:c/>", 0⟩] := by decide +kernel
    refine OnceIn.attributesOnce htokens fun tag htag => ?_
    obtain rfl : tag = ⟨"c", [], true, "<pop:c/>", 0⟩ := by simpa using htag
    exact ⟨.nil, nofun⟩
  have honce : AttributesOnce text.toList := by
    let outer : Opening := ⟨"e:a.b", [value], false, "<pop:e:a.b x='<pop:c/>'>", 0⟩
    let inner : Opening := ⟨"d", [], true, "<pop:d/>", 25⟩
    have htokens : (Window.whole text.toList).tokens = .ok [.opening outer, .text "t" 24,
        .opening inner, .closing "e:a.b" "</pop:e:a.b>" 33] := by decide +kernel
    refine OnceIn.attributesOnce htokens fun tag htag => ?_
    obtain rfl | rfl : tag = outer ∨ tag = inner := by simpa using htag
    · exact ⟨List.pairwise_singleton _ "x", by simpa [outer] using fun _ => hinner⟩
    · exact ⟨.nil, nofun⟩
  have hnames : (compile text none).map (fun nodes => (tagsOf nodes).map (·.name)) =
      .ok ["a", "b", "c", "d"] := by decide +kernel
  obtain ⟨nodes, hnodes, hwalk⟩ := map_eq_ok.1 hnames
  obtain ⟨hcanonical, -, ts, ps, -, -, hplaced, hwritten⟩ := compile_canonical hnodes
  refine ⟨honce, nodes, ps, hnodes, hcanonical, hplaced, hwritten honce, ?_⟩
  rw [← hwalk, hwritten honce, List.map_map]
  rfl

/-- Siblings that are texts may have a tag between them. -/
theorem compile_text_siblings :
    ∃ nodes level, compile "a<pop:b/>c" none = .ok nodes ∧ Siblings nodes level ∧
      ¬ level.Pairwise fun m n => ¬ (m.isText = true ∧ n.isText = true) := by
  have htexts : (compile "a<pop:b/>c" none).map (·.map (·.isText)) =
      .ok [true, false, true] := by decide +kernel
  obtain ⟨nodes, hnodes, hkinds⟩ := map_eq_ok.1 htexts
  refine ⟨nodes, nodes, hnodes, .top, fun hpairwise => ?_⟩
  have hbools : [true, false, true].Pairwise fun b c => ¬ (b = true ∧ c = true) := by
    rw [← hkinds]
    exact List.pairwise_map.2 hpairwise
  revert hbools
  decide

end TagTemplate.Markup
