import TagTemplate.Proofs.NestedValues
import TagTemplate.Proofs.Tiling

/-!
# Where the tags of a tree are written

The names of the tags that a text compiles to stand in the text one after the other: a tag's own
name, or each of its dotted names, then the tags in its attribute values, then those it encloses.
Unless a value is lost to a later one for the same attribute, this is the order of the walk.
-/

namespace TagTemplate.Markup

def namePlaces (offset : Nat) : List String → List Nat
  | [] => []
  | name :: names => offset :: namePlaces (offset + name.length + 1) names

def TagPath.namesStart (path : TagPath) : Nat :=
  path.extension.elim 0 fun extension => extension.length + 1

def Tag.spine (t : Tag) : Nat → List Tag
  | 0 => [t]
  | depth + 1 => t :: match t.children with
    | .tag inner :: _ => inner.spine depth
    | _ => []

def Opening.places (tag : Opening) (t : Tag) : List (Nat × Tag) :=
  match TagPath.ofName? tag.name with
  | none => []
  | some path =>
    (namePlaces (tag.offset + openMark.length + path.namesStart) path.segments).zip
      (t.spine path.outer.length)

mutual

/-- The tokens stand for the nodes, and what is written in them are these tags at these places. -/
inductive Places : List Token → List Node → List (Nat × Tag) → Prop where
  | nil : Places [] [] []
  | text {ts nodes ps} (value : String) (offset : Nat) (rest : Places ts nodes ps) :
      Places (.text value offset :: ts) (.text value :: nodes) ps
  | selfClosing {tag ts t nodes qs ps} (closed : tag.selfClosing = true)
      (node : tag.Expands RawAttribute.Means [] t) (values : ValuePlaces tag.attributes qs)
      (rest : Places ts nodes ps) :
      Places (.opening tag :: ts) (.tag t :: nodes) (tag.places t ++ qs ++ ps)
  | pair {tag inner ts children t nodes qs rs ps} (source : String) (offset : Nat)
      (opened : tag.selfClosing = false) (inside : Places inner children rs)
      (node : tag.Expands RawAttribute.Means children t) (values : ValuePlaces tag.attributes qs)
      (rest : Places ts nodes ps) :
      Places (.opening tag :: (inner ++ .closing tag.name source offset :: ts)) (.tag t :: nodes)
        (tag.places t ++ qs ++ (rs ++ ps))

/-- What is written in the attribute values are these tags at these places. -/
inductive ValuePlaces : List RawAttribute → List (Nat × Tag) → Prop where
  | nil : ValuePlaces [] []
  | literal {a as ps} (free : ¬openMark <:+: a.value) (rest : ValuePlaces as ps) :
      ValuePlaces (a :: as) ps
  | markup {a as ts nodes qs ps} (holds : openMark <:+: a.value)
      (tokens : lex none a.offset a.value = .ok ts) (inside : Places ts nodes qs)
      (rest : ValuePlaces as ps) : ValuePlaces (a :: as) (qs ++ ps)

end

/-- The tags' names stand in the text that starts at the offset, at their places and in order. -/
structure PlacedIn (offset : Nat) (cs : List Char) (ps : List (Nat × Tag)) : Prop where
  inOrder : ps.Pairwise fun p q => p.1 < q.1
  named : ∀ p ∈ ps, p.2.name ≠ "" ∧
    ∃ before after, cs = before ++ (p.2.name.toList ++ after) ∧ p.1 = offset + before.length

/-- No tag of the text has two attributes of one name, nor has one in an attribute value. -/
def AttributesOnce (cs : List Char) : Prop :=
  ∀ piece ts tag, Piece cs piece → (Window.whole piece).tokens = .ok ts → .opening tag ∈ ts →
    (tag.attributes.map (·.name)).Nodup

theorem Places.derives {ts : List Token} {nodes : List Node} {ps : List (Nat × Tag)} :
    Places ts nodes ps → Derives RawAttribute.Means ts nodes
  | .nil => .nil
  | .text value offset rest => .text value offset rest.derives
  | .selfClosing closed node _ rest => .selfClosing closed node rest.derives
  | .pair source offset opened inside node _ rest =>
    .pair source offset opened inside.derives node rest.derives

theorem Derives.exists_places {ts : List Token} {nodes : List Node}
    (h : Derives RawAttribute.Means ts nodes)
    (hvalues : ∀ tag, .opening tag ∈ ts → ∃ qs, ValuePlaces tag.attributes qs) :
    ∃ ps, Places ts nodes ps := by
  induction h with
  | nil => exact ⟨[], .nil⟩
  | text text offset _ ih =>
    obtain ⟨ps, hps⟩ := ih fun tag htag => hvalues tag (List.mem_cons_of_mem _ htag)
    exact ⟨ps, .text text offset hps⟩
  | @selfClosing tag ts t nodes closed node _ ih =>
    obtain ⟨ps, hps⟩ := ih fun tag htag => hvalues tag (List.mem_cons_of_mem _ htag)
    obtain ⟨qs, hqs⟩ := hvalues tag List.mem_cons_self
    exact ⟨_, .selfClosing closed node hqs hps⟩
  | @pair tag inner ts children t nodes source offset opened _ node _ ihInside ihRest =>
    obtain ⟨rs, hrs⟩ := ihInside fun tag htag => hvalues tag (by simp [htag])
    obtain ⟨ps, hps⟩ := ihRest fun tag htag => hvalues tag (by simp [htag])
    obtain ⟨qs, hqs⟩ := hvalues tag List.mem_cons_self
    exact ⟨_, .pair source offset opened hrs node hqs hps⟩

/-- The induction is on the length of the text: a value is a shorter one. -/
theorem exists_places {offset : Nat} {cs : List Char} {nodes : List Node}
    (h : parseWindow none offset cs = .ok nodes) :
    ∃ ts ps, lex none offset cs = .ok ts ∧ Places ts nodes ps := by
  induction hn : cs.length using Nat.strongRecOn generalizing offset cs nodes with
  | ind n ih =>
    obtain ⟨ts, hts, hderives⟩ := parseWindow_eq_ok_iff_lex.1 h
    have hvalues : ∀ as : List RawAttribute, (∀ a ∈ as, a.value.length < n ∧
        (openMark <:+: a.value → ∃ nodes, parseWindow none 0 a.value = .ok nodes)) →
        ∃ qs, ValuePlaces as qs := by
      intro as has
      induction as with
      | nil => exact ⟨[], .nil⟩
      | cons a as ihas =>
        rw [List.forall_mem_cons] at has
        obtain ⟨qs, hqs⟩ := ihas has.2
        by_cases hmark : openMark <:+: a.value
        · obtain ⟨inner, hinner⟩ := has.1.2 hmark
          have hplaced : parseWindow none a.offset a.value = .ok inner :=
            parseWindow_eq_ok_iff.2 hinner
          obtain ⟨us, ps, hus, hps⟩ := ih a.value.length has.1.1 hplaced rfl
          exact ⟨_, .markup hmark hus hps hqs⟩
        · exact ⟨qs, .literal hmark hqs⟩
    obtain ⟨ps, hps⟩ := hderives.exists_places fun tag htag =>
      hvalues tag.attributes fun a ha => by
        obtain ⟨children, t, hexpands⟩ := hderives.expands htag
        obtain ⟨v, hmeans⟩ := hexpands.exists_value ha
        exact ⟨hn ▸ length_lex hts _ htag a ha, hmeans.parses⟩
    exact ⟨ts, ps, hts, hps⟩

def ValuesIn : Nat → List Char → List RawAttribute → Prop
  | _, _, [] => True
  | offset, cs, a :: as => ∃ before after, cs = before ++ (a.value ++ after) ∧
      a.offset = offset + before.length ∧ ValuesIn (a.offset + a.value.length) after as

def Opening.LaidOut (tag : Opening) : Prop :=
  ∃ rest, tag.source.toList = openMark ++ (tag.name.toList ++ rest) ∧
    ValuesIn (tag.offset + openMark.length + tag.name.length) rest tag.attributes

def Located (offset : Nat) : List Token → Prop
  | [] => True
  | t :: ts => t.offset = offset ∧ (∀ tag, t = .opening tag → tag.LaidOut) ∧
      Located (offset + t.source.toList.length) ts

theorem ValuesIn.after {as : List RawAttribute} {offset : Nat} {front cs : List Char}
    (h : ValuesIn (offset + front.length) cs as) : ValuesIn offset (front ++ cs) as := by
  cases as with
  | nil => trivial
  | cons a as =>
    obtain ⟨before, after, rfl, hoffset, hafter⟩ := h
    refine ⟨front ++ before, after, by simp, ?_, hafter⟩
    rw [hoffset, List.length_append, Nat.add_assoc]

theorem readName_ok {cs r : List Char} {name : String} (h : readName cs = some (name, r)) :
    cs = name.toList ++ r := by
  unfold readName at h
  split at h
  · cases h
  · split at h
    · cases h
      simp [List.takeWhile_append_dropWhile]
    · cases h

theorem readAttributes_valuesIn {beyond : Option Char} {offset : Nat} {cs rest : List Char}
    {as : List RawAttribute} {closed : Bool}
    (h : readAttributes beyond offset cs = .ok (as, closed, rest)) :
    ∃ source, cs = source ++ rest ∧ ValuesIn offset source as := by
  fun_induction readAttributes beyond offset cs generalizing as closed rest with
  | case1 offset cs closed' rest' hend =>
    cases h
    obtain ⟨source, rfl⟩ := suffix_readTagEnd hend
    exact ⟨source, rfl, trivial⟩
  | case2 => cases h
  | case3 => cases h
  | case4 offset cs _ a rest' ha _ as' closed' after hr ih =>
    cases h
    obtain ⟨source, rfl, before, behind, rfl, hoffset, -⟩ := readAttribute_ok ha
    obtain ⟨more, rfl, hmore⟩ := ih hr
    have hplace : offset + (before ++ a.quote :: (a.value ++ a.quote :: behind)).length =
        a.offset + a.value.length + (a.quote :: behind).length := by
      rw [hoffset]
      simp only [List.length_append, List.length_cons]
      omega
    rw [List.length_append, Nat.add_sub_cancel, hplace] at hmore
    exact ⟨_, (List.append_assoc ..).symm, before ++ [a.quote], a.quote :: behind ++ more,
      by simp, by simp [hoffset, Nat.add_assoc], hmore.after⟩

theorem readTag_laidOut {beyond : Option Char} {offset : Nat} {cs rest : List Char}
    {tag : Opening} (h : readTag beyond offset cs = .ok (.opening tag, rest))
    (ht : atTag cs = true) : tag.LaidOut := by
  unfold readTag at h
  split at h
  · unfold readClosing at h
    split at h
    · cases h
    · split at h <;> cases h
  · next hclose =>
    have hopen : openMark.isPrefixOf cs = true := by simpa [atTag, hclose] using ht
    obtain ⟨body, rfl⟩ := List.isPrefixOf_iff_prefix.1 hopen
    rw [List.drop_left] at h
    unfold readOpening at h
    split at h
    · cases h
    · next name r hname =>
      split at h
      · cases h
      · next as closed rest' hattributes =>
        cases h
        obtain rfl := readName_ok hname
        rw [← List.append_assoc, List.length_append, Nat.add_sub_cancel] at hattributes
        obtain ⟨source, rfl, hvalues⟩ := readAttributes_valuesIn hattributes
        rw [← List.append_assoc, ← List.append_assoc, consumed_append]
        refine ⟨source, by simp, ?_⟩
        simpa [Nat.add_assoc, String.length_toList] using hvalues

theorem lex_located {beyond : Option Char} {offset : Nat} {cs : List Char} {ts : List Token}
    (h : lex beyond offset cs = .ok ts) : Located offset ts := by
  fun_induction lex beyond offset cs generalizing ts with
  | case1 offset =>
    cases h
    trivial
  | case2 => cases h
  | case3 => cases h
  | case4 offset cs hne ht t rest hr hlt ts' hts ih =>
    cases h
    obtain ⟨hcs, hoffset, -, -⟩ := readTag_ok hr ht
    have hrest := ih hts
    have hlength : cs.length - rest.length = t.source.toList.length := by
      rw [hcs, List.length_append, Nat.add_sub_cancel]
    rw [hlength] at hrest
    refine ⟨hoffset, ?_, hrest⟩
    rintro tag rfl
    exact readTag_laidOut hr ht
  | case5 => cases h
  | case6 offset cs hne ht hlt ts' hts ih =>
    cases h
    refine ⟨rfl, by simp, ?_⟩
    have hrest := ih hts
    rwa [← String.toList_ofList (l := (textRun .plain cs).1)] at hrest

theorem Located.after {ts us : List Token} {offset : Nat} (h : Located offset (ts ++ us)) :
    Located offset ts ∧ Located (offset + (written ts).length) us := by
  induction ts generalizing offset with
  | nil => exact ⟨trivial, h⟩
  | cons t ts ih =>
    obtain ⟨hoffset, hlaid, hrest⟩ := h
    obtain ⟨hts, hus⟩ := ih hrest
    refine ⟨⟨hoffset, hlaid, hts⟩, ?_⟩
    rwa [written_cons, List.length_append, ← Nat.add_assoc]

namespace PlacedIn

variable {offset : Nat} {cs ds : List Char} {ps qs : List (Nat × Tag)}

theorem nil (offset : Nat) (cs : List Char) : PlacedIn offset cs [] := ⟨.nil, nofun⟩

theorem append (h : PlacedIn offset cs ps) (h' : PlacedIn (offset + cs.length) ds qs) :
    PlacedIn offset (cs ++ ds) (ps ++ qs) where
  inOrder := by
    refine List.pairwise_append.2 ⟨h.inOrder, h'.inOrder, fun p hp q hq => ?_⟩
    obtain ⟨hname, before, after, rfl, hplace⟩ := h.named p hp
    obtain ⟨-, before', after', -, hplace'⟩ := h'.named q hq
    -- a name is not empty, so that its place is before the end of the first text
    have hpos : 0 < p.2.name.toList.length := by
      rw [List.length_pos_iff]
      simpa using hname
    rw [hplace, hplace', List.length_append, List.length_append]
    omega
  named p hp := by
    rcases List.mem_append.1 hp with hp | hp
    · obtain ⟨hname, before, after, rfl, hplace⟩ := h.named p hp
      exact ⟨hname, before, after ++ ds, by simp, hplace⟩
    · obtain ⟨hname, before, after, rfl, hplace⟩ := h'.named p hp
      refine ⟨hname, cs ++ before, after, by simp, ?_⟩
      rw [hplace, List.length_append, Nat.add_assoc]

theorem after (front : List Char) (h : PlacedIn (offset + front.length) cs ps) :
    PlacedIn offset (front ++ cs) ps :=
  (nil offset front).append h

theorem singleton {t : Tag} (h : t.name ≠ "") (offset : Nat) :
    PlacedIn offset t.name.toList [(offset, t)] where
  inOrder := List.pairwise_singleton _ _
  named p hp := by
    obtain rfl := List.mem_singleton.1 hp
    exact ⟨h, [], [], by simp, rfl⟩

end PlacedIn

theorem placedIn_names {names : List String} {group : List Tag} (offset : Nat)
    (hgroup : group.map (·.name) = names) (hne : ∀ name ∈ names, name ≠ "") :
    PlacedIn offset (List.intercalate ['.'] (names.map String.toList))
      ((namePlaces offset names).zip group) := by
  induction group generalizing names offset with
  | nil =>
    cases hgroup
    exact .nil _ _
  | cons t group ih =>
    subst hgroup
    rw [List.map_cons, List.forall_mem_cons] at hne
    have hfirst := PlacedIn.singleton hne.1 offset
    cases group with
    | nil => simpa [namePlaces] using hfirst
    | cons u group =>
      have hrest := ih (offset + t.name.length + 1) rfl hne.2
      rw [List.map_cons, List.map_cons, List.map_cons, List.map_cons, List.intercalate_cons_cons,
        List.append_assoc, namePlaces, List.zip_cons_cons]
      refine hfirst.append (.after ['.'] ?_)
      rw [String.length_toList]
      exact hrest

theorem names_spine_spread (name : String) (attributes : List (String × AttributeValue))
    (children : List Node) (selfClosing : Bool) (extension : Option String) (outer : List String) :
    ((spread name attributes children selfClosing extension outer).spine outer.length).map
      (·.name) = outer ++ [name] := by
  induction outer generalizing extension with
  | nil => rfl
  | cons n outer ih => exact congrArg (n :: ·) (ih none)

theorem Opening.placedIn {value : RawAttribute → AttributeValue → Prop} {tag : Opening}
    {children : List Node} {t : Tag} {qs : List (Nat × Tag)} (hlaid : tag.LaidOut)
    (hexpands : tag.Expands value children t)
    (hvalues : ∀ {offset cs}, ValuesIn offset cs tag.attributes → PlacedIn offset cs qs) :
    PlacedIn tag.offset tag.source.toList (tag.places t ++ qs) := by
  obtain ⟨rest, hsource, hrest⟩ := hlaid
  obtain ⟨path, pairs, attributes, ⟨hproper, hname⟩, -, -, rfl⟩ := hexpands
  have hnames := placedIn_names (tag.offset + openMark.length + path.namesStart)
    (names_spine_spread path.name attributes children tag.selfClosing path.extension path.outer)
    fun name hmem => (hproper.segments name hmem).1
  have hpath : PlacedIn (tag.offset + openMark.length) tag.name.toList
      (tag.places (spread path.name attributes children tag.selfClosing path.extension
        path.outer)) := by
    rw [places, TagPath.ofName?_eq_some_iff.2 ⟨hproper, hname⟩, hname, TagPath.written]
    refine .after _ ?_
    have hstart : (path.extension.elim [] fun extension => extension.toList ++ [':']).length =
        path.namesStart := by
      unfold TagPath.namesStart
      cases path.extension <;> simp [String.length_toList]
    rw [hstart]
    exact hnames
  rw [hsource]
  refine .after _ (hpath.append (hvalues ?_))
  rwa [String.length_toList]

mutual

theorem Places.placedIn {ts : List Token} {nodes : List Node} {ps : List (Nat × Tag)} :
    Places ts nodes ps → ∀ {offset}, Located offset ts → PlacedIn offset (written ts) ps
  | .nil, offset, _ => .nil offset []
  | .text value _ rest, offset, h => by
    obtain ⟨-, -, hrest⟩ := h
    rw [written_cons]
    exact .after _ (rest.placedIn hrest)
  | .selfClosing closed node values rest, _, h => by
    obtain ⟨rfl, hlaid, hrest⟩ := h
    rw [written_cons]
    exact (Opening.placedIn (hlaid _ rfl) node values.placedIn).append (rest.placedIn hrest)
  | .pair source offset opened inside node values rest, _, h => by
    obtain ⟨rfl, hlaid, hrest⟩ := h
    obtain ⟨hinside, -, -, hrest⟩ := hrest.after
    rw [written_cons, written_append, written_cons]
    refine (Opening.placedIn (hlaid _ rfl) node values.placedIn).append ?_
    exact (inside.placedIn hinside).append (.after _ (rest.placedIn hrest))

theorem ValuePlaces.placedIn {as : List RawAttribute} {qs : List (Nat × Tag)} :
    ValuePlaces as qs → ∀ {offset cs}, ValuesIn offset cs as → PlacedIn offset cs qs
  | .nil, offset, cs, _ => .nil offset cs
  | .literal _ rest, offset, cs, h => by
    obtain ⟨before, after, rfl, hoffset, hafter⟩ := h
    refine .after _ (.after _ ?_)
    rw [← hoffset]
    exact rest.placedIn hafter
  | .markup _ tokens inside rest, offset, cs, h => by
    obtain ⟨before, after, rfl, hoffset, hafter⟩ := h
    have hvalue := inside.placedIn (lex_located tokens)
    rw [(lex_tiles tokens).written] at hvalue
    refine .after _ ?_
    rw [← hoffset]
    exact hvalue.append (rest.placedIn hafter)

end

def OnceIn (ts : List Token) : Prop :=
  ∀ tag, .opening tag ∈ ts → (tag.attributes.map (·.name)).Nodup ∧
    ∀ a ∈ tag.attributes, openMark <:+: a.value → AttributesOnce a.value

theorem Piece.trans {text cs ds : List Char} (h : Piece text cs) (h' : Piece cs ds) :
    Piece text ds := by
  induction h' with
  | whole => exact h
  | value _ tokens mem written holds ih => exact .value ih tokens mem written holds

theorem AttributesOnce.onceIn {cs : List Char} (h : AttributesOnce cs) {offset : Nat}
    {ts : List Token} (hts : lex none offset cs = .ok ts) : OnceIn ts := by
  -- pieces are cut from texts on their own, whose tokens differ from these by their offsets only
  rw [← Nat.zero_add offset, lex_shift, mapError_eq_ok, map_eq_ok] at hts
  obtain ⟨us, hus, rfl⟩ := hts
  rw [← whole_tokens] at hus
  intro tag htag
  obtain ⟨u, hu, hshift⟩ := List.mem_map.1 htag
  cases u with
  | text value place => cases hshift
  | closing name source place => cases hshift
  | opening tag =>
    cases hshift
    have hnames : (tag.shift offset).attributes.map (·.name) = tag.attributes.map (·.name) :=
      List.map_map
    refine ⟨hnames ▸ h cs us tag .whole hus hu, fun a ha hholds piece vs opening hpiece => ?_⟩
    obtain ⟨b, hb, rfl⟩ := List.mem_map.1 ha
    exact h piece vs opening ((Piece.value .whole hus hu hb hholds).trans hpiece)

theorem Piece.eq_or_value {cs piece : List Char} (h : Piece cs piece) :
    piece = cs ∨ ∃ ts tag a, (Window.whole cs).tokens = .ok ts ∧ .opening tag ∈ ts ∧
      a ∈ tag.attributes ∧ openMark <:+: a.value ∧ Piece a.value piece := by
  induction h with
  | whole => exact Or.inl rfl
  | @value _ ts tag a _ tokens mem written holds ih =>
    right
    rcases ih with rfl | ⟨us, outer, b, hus, houter, hb, hholds, hpiece⟩
    · exact ⟨ts, tag, a, tokens, mem, written, holds, .whole⟩
    · exact ⟨us, outer, b, hus, houter, hb, hholds, .value hpiece tokens mem written holds⟩

theorem OnceIn.attributesOnce {cs : List Char} {ts : List Token}
    (hts : (Window.whole cs).tokens = .ok ts) (h : OnceIn ts) : AttributesOnce cs := by
  intro piece us tag hpiece hus htag
  rcases hpiece.eq_or_value with rfl | ⟨vs, outer, a, hvs, houter, ha, hholds, hpiece⟩
  · obtain rfl := Except.ok.inj (hus.symm.trans hts)
    exact (h tag htag).1
  · obtain rfl := Except.ok.inj (hvs.symm.trans hts)
    exact (h outer houter).2 a ha hholds piece us tag hpiece hus htag

theorem OnceIn.of_subset {ts us : List Token} (h : OnceIn us) (hsub : ts ⊆ us) : OnceIn ts :=
  fun tag htag => h tag (hsub htag)

theorem tagsOf_cons_tag (t : Tag) (nodes : List Node) :
    tagsOf (.tag t :: nodes) = tagsOf [.tag t] ++ tagsOf nodes := by
  simp [tagsOf]

theorem tagsOf_spread (name : String) (attributes : List (String × AttributeValue))
    (children : List Node) (selfClosing : Bool) (extension : Option String) (outer : List String) :
    tagsOf [.tag (spread name attributes children selfClosing extension outer)] =
      (spread name attributes children selfClosing extension outer).spine outer.length ++
        (tagsOfAttributes attributes ++ tagsOf children) := by
  induction outer generalizing extension with
  | nil => simp [spread, tagsOf, Node.tags, Tag.innerTags, Tag.spine]
  | cons n outer ih =>
    rw [spread, tagsOf, tagsOf, Node.tags, Tag.innerTags, tagsOfAttributes, ih none]
    simp [Tag.spine]

theorem length_namePlaces (offset : Nat) (names : List String) :
    (namePlaces offset names).length = names.length := by
  induction names generalizing offset with
  | nil => rfl
  | cons name names ih => simp [namePlaces, ih]

/-- If the names of the attributes differ, the walk comes to the tags of a path, then to those in
each value, then to the children. -/
theorem Opening.tagsOf_expands {value : RawAttribute → AttributeValue → Prop} {tag : Opening}
    {children : List Node} {t : Tag} (h : tag.Expands value children t)
    (honce : (tag.attributes.map (·.name)).Nodup) : ∃ pairs,
      List.Forall₂ (fun a p => p.1 = a.name ∧ value a p.2) tag.attributes pairs ∧
      tagsOf [.tag t] =
        (tag.places t).map Prod.snd ++ (tagsOfAttributes pairs ++ tagsOf children) := by
  obtain ⟨path, pairs, attributes, hpath, hpairs, hkeeps, rfl⟩ := h
  obtain rfl : attributes = pairs := by
    rw [OrderedMap.keepsLast_iff.1 hkeeps,
      OrderedMap.ofPairs_of_nodup (map_fst_of_values hpairs ▸ honce)]
  refine ⟨attributes, hpairs, ?_⟩
  rw [tagsOf_spread, places, TagPath.ofName?_eq_some_iff.2 hpath, List.map_snd_zip]
  have hlength := congrArg List.length (names_spine_spread path.name attributes children
    tag.selfClosing path.extension path.outer)
  rw [List.length_map] at hlength
  rw [hlength, length_namePlaces, TagPath.segments]

mutual

theorem Places.tags {ts : List Token} {nodes : List Node} {ps : List (Nat × Tag)} :
    Places ts nodes ps → OnceIn ts → tagsOf nodes = ps.map Prod.snd
  | .nil, _ => by rw [tagsOf, List.map_nil]
  | .text value _ rest, h => by
    rw [tagsOf, Node.tags, List.nil_append, rest.tags (h.of_subset (List.subset_cons_self _ _))]
  | .selfClosing closed node values rest, h => by
    obtain ⟨honce, hvalues⟩ := h _ List.mem_cons_self
    obtain ⟨pairs, hpairs, htags⟩ := Opening.tagsOf_expands node honce
    rw [tagsOf_cons_tag, htags, values.tags hvalues hpairs,
      rest.tags (h.of_subset (List.subset_cons_self _ _))]
    simp [tagsOf]
  | .pair source offset opened inside node values rest, h => by
    obtain ⟨honce, hvalues⟩ := h _ List.mem_cons_self
    obtain ⟨pairs, hpairs, htags⟩ := Opening.tagsOf_expands node honce
    have hinside := inside.tags (h.of_subset fun t ht => by simp [ht])
    have hrest := rest.tags (h.of_subset fun t ht => by simp [ht])
    rw [tagsOf_cons_tag, htags, values.tags hvalues hpairs, hinside, hrest]
    simp

theorem ValuePlaces.tags {as : List RawAttribute} {qs : List (Nat × Tag)} :
    ValuePlaces as qs → (∀ a ∈ as, openMark <:+: a.value → AttributesOnce a.value) →
      ∀ {pairs}, List.Forall₂ (fun a p => p.1 = a.name ∧ a.Means p.2) as pairs →
        tagsOfAttributes pairs = qs.map Prod.snd
  | .nil, _, _, .nil => by rw [tagsOfAttributes, List.map_nil]
  | .literal free rest, h, _, .cons (b := (_, v)) ⟨_, hv⟩ hpairs => by
    rw [List.forall_mem_cons] at h
    obtain rfl : v = .literal _ := by rwa [RawAttribute.Means, if_neg free] at hv
    rw [tagsOfAttributes, rest.tags h.2 hpairs, AttributeValue.tags, List.nil_append]
  | .markup holds tokens inside rest, h, _, .cons (b := (_, v)) ⟨_, hv⟩ hpairs => by
    rw [List.forall_mem_cons] at h
    rw [RawAttribute.Means, if_pos holds] at hv
    obtain ⟨nodes, rfl, hcompile⟩ := hv
    rw [compile_eq_ok_iff, String.toList_ofList] at hcompile
    -- the value has the tree that its tokens stand for where it is written
    have hparse := parseWindow_eq_ok_iff.1
      (parseWindow_eq_ok_iff_lex.2 ⟨_, tokens, inside.derives⟩)
    rw [hcompile] at hparse
    cases hparse
    rw [tagsOfAttributes, rest.tags h.2 hpairs, AttributeValue.tags,
      inside.tags ((h.1 holds).onceIn tokens), List.map_append]

end

theorem exists_written {cs : List Char} {nodes : List Node}
    (h : parseWindow none 0 cs = .ok nodes) : ∃ ts ps, (Window.whole cs).tokens = .ok ts ∧
      Places ts nodes ps ∧ PlacedIn 0 cs ps ∧
      (AttributesOnce cs → tagsOf nodes = ps.map Prod.snd) := by
  obtain ⟨ts, ps, hts, hps⟩ := exists_places h
  have hplaced := hps.placedIn (lex_located hts)
  rw [(lex_tiles hts).written] at hplaced
  refine ⟨ts, ps, by rwa [whole_tokens], hps, hplaced, fun honce => ?_⟩
  exact hps.tags (honce.onceIn hts)

end TagTemplate.Markup
