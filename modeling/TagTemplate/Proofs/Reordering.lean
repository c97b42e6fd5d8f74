import TagTemplate.Proofs.Filling
import TagTemplate.Proofs.Grammar
import TagTemplate.Proofs.Storing
import TagTemplate.Proofs.Termination

/-!
# Attributes in another order

Two trees may differ in the order in which tags have their attributes. The values of the
attributes of a tag are rendered one after the other, so that it does matter what they leave
behind: a block, or the wish for a layout. What they show is made of the tags in them and of the
blocks for the regions among those, which is where nothing of that kind may be.
-/

namespace TagTemplate

open Markup (Node Tag AttributeValue tagsOf tagsOfAttributes)

/-- The second tag is the first one with its attributes permuted, up to corresponding nodes inside
them. -/
inductive TagPermuted (nodes : List Node → List Node → Prop) : Tag → Tag → Prop where
  | mk {name extension as middle as' cs cs' closing} :
      List.Forall₂ (AttributeAgrees nodes) as middle → middle.Perm as' → nodes cs cs' →
      TagPermuted nodes ⟨name, extension, as, cs, closing⟩ ⟨name, extension, as', cs', closing⟩

namespace TagPermuted

variable {nodes : List Node → List Node → Prop} {tag tag' : Tag} (h : TagPermuted nodes tag tag')

include h

theorem name_eq : tag.name = tag'.name := by
  cases h
  rfl

theorem extension_eq : tag.extension = tag'.extension := by
  cases h
  rfl

theorem children : nodes tag.children tag'.children := by
  cases h
  assumption

theorem attributes : ∃ middle, List.Forall₂ (AttributeAgrees nodes) tag.attributes middle ∧
    middle.Perm tag'.attributes := by
  cases h
  exact ⟨_, ‹_›, ‹_›⟩

end TagPermuted

/-- The second tree is the first one with the attributes of its tags permuted. -/
inductive Reordered : List Node → List Node → Prop where
  | nil : Reordered [] []
  | text (value) {ns ns'} :
      Reordered ns ns' → Reordered (.text value :: ns) (.text value :: ns')
  | tag {t t' ns ns'} : TagPermuted Reordered t t' → Reordered ns ns' →
      Reordered (.tag t :: ns) (.tag t' :: ns')

mutual

theorem Reordered.symm : (ns : List Node) → {ns' : List Node} → Reordered ns ns' → Reordered ns' ns
  | [], _, .nil => .nil
  | .text value :: ns, _, .text _ h => .text value (Reordered.symm ns h)
  | .tag t :: ns, _, .tag ht h => .tag (tagPermuted_symm t ht) (Reordered.symm ns h)

theorem tagPermuted_symm :
    (t : Tag) → {t' : Tag} → TagPermuted Reordered t t' → TagPermuted Reordered t' t
  | ⟨_, _, as, cs, _⟩, _, .mk ha hp hc => by
    have ha' := attributesAgree_symm as ha
    obtain ⟨middle, hm, hp'⟩ := List.perm_comp_forall₂ hp.symm ha'
    exact .mk hm hp' (Reordered.symm cs hc)

theorem attributesAgree_symm : (as : List (String × AttributeValue)) →
    {as' : List (String × AttributeValue)} → List.Forall₂ (AttributeAgrees Reordered) as as' →
      List.Forall₂ (AttributeAgrees Reordered) as' as
  | [], _, .nil => .nil
  | (key, .literal text) :: as, _, .cons (.literal _ _) h =>
    .cons (.literal key text) (attributesAgree_symm as h)
  | (key, .markup ns) :: as, _, .cons (.markup _ hns) h =>
    .cons (.markup key (Reordered.symm ns hns)) (attributesAgree_symm as h)

end

mutual

theorem Reordered.refl : (ns : List Node) → Reordered ns ns
  | [] => .nil
  | .text value :: ns => .text value (Reordered.refl ns)
  | .tag t :: ns => .tag (tagPermuted_refl t) (Reordered.refl ns)

theorem tagPermuted_refl : (t : Tag) → TagPermuted Reordered t t
  | ⟨_, _, as, cs, _⟩ => .mk (attributesAgree_refl as) (.refl as) (Reordered.refl cs)

theorem attributesAgree_refl : (as : List (String × AttributeValue)) →
    List.Forall₂ (AttributeAgrees Reordered) as as
  | [] => .nil
  | (key, .literal text) :: as => .cons (.literal key text) (attributesAgree_refl as)
  | (key, .markup ns) :: as => .cons (.markup key (Reordered.refl ns)) (attributesAgree_refl as)

end

theorem Reordered.isEmpty_eq {ns ns' : List Node} (h : Reordered ns ns') :
    ns.isEmpty = ns'.isEmpty := by
  cases h <;> rfl

theorem mem_tagsOfAttributes {as : List (String × AttributeValue)} {t : Tag} :
    t ∈ tagsOfAttributes as ↔ ∃ p ∈ as, t ∈ p.2.tags := by
  induction as with
  | nil => simp [tagsOfAttributes]
  | cons p as ih => simp [tagsOfAttributes, ih]

theorem mem_tagsOfAttributes_perm {as as' : List (String × AttributeValue)} (h : as.Perm as')
    {t : Tag} : t ∈ tagsOfAttributes as ↔ t ∈ tagsOfAttributes as' := by
  simp only [mem_tagsOfAttributes, h.mem_iff]

mutual

theorem Reordered.exists_tag : (ns : List Node) → {ns' : List Node} → Reordered ns ns' →
    ∀ t' ∈ tagsOf ns', ∃ t ∈ tagsOf ns, TagPermuted Reordered t t'
  | [], _, .nil, _, ht => nomatch ht
  | .text _ :: ns, _, .text _ h, t', ht => by
    simp only [tagsOf, Node.tags, List.nil_append] at ht ⊢
    exact Reordered.exists_tag ns h t' ht
  | .tag t :: ns, _, .tag hp h, t', ht => by
    rw [tagsOf, Node.tags, List.cons_append, List.mem_cons, List.mem_append] at ht
    rcases ht with rfl | ht | ht
    · exact ⟨t, by simp [tagsOf, Node.tags], hp⟩
    · obtain ⟨u, hu, hpu⟩ := tagPermuted_exists_tag t hp t' ht
      exact ⟨u, by simp [tagsOf, Node.tags, hu], hpu⟩
    · obtain ⟨u, hu, hpu⟩ := Reordered.exists_tag ns h t' ht
      exact ⟨u, by simp [tagsOf, hu], hpu⟩

theorem tagPermuted_exists_tag : (t : Tag) → {t₁ : Tag} → TagPermuted Reordered t t₁ →
    ∀ t' ∈ t₁.innerTags, ∃ u ∈ t.innerTags, TagPermuted Reordered u t'
  | ⟨_, _, as, cs, _⟩, _, .mk ha hp hc, t', ht => by
    rw [innerTags_eq, List.mem_append, ← mem_tagsOfAttributes_perm hp] at ht
    rcases ht with ht | ht
    · obtain ⟨u, hu, hpu⟩ := attributesAgree_exists_tag as ha t' ht
      exact ⟨u, by simp [innerTags_eq, hu], hpu⟩
    · obtain ⟨u, hu, hpu⟩ := Reordered.exists_tag cs hc t' ht
      exact ⟨u, by simp [innerTags_eq, hu], hpu⟩

theorem attributesAgree_exists_tag : (as : List (String × AttributeValue)) →
    {as' : List (String × AttributeValue)} → List.Forall₂ (AttributeAgrees Reordered) as as' →
      ∀ t' ∈ tagsOfAttributes as', ∃ t ∈ tagsOfAttributes as, TagPermuted Reordered t t'
  | [], _, .nil, _, ht => nomatch ht
  | (_, .literal _) :: as, _, .cons (.literal _ _) h, t', ht => by
    simp only [tagsOfAttributes, AttributeValue.tags, List.nil_append] at ht ⊢
    exact attributesAgree_exists_tag as h t' ht
  | (_, .markup ns) :: as, _, .cons (.markup _ hns) h, t', ht => by
    rw [tagsOfAttributes, AttributeValue.tags, List.mem_append] at ht
    rcases ht with ht | ht
    · obtain ⟨u, hu, hpu⟩ := Reordered.exists_tag ns hns t' ht
      exact ⟨u, by simp [tagsOfAttributes, AttributeValue.tags, hu], hpu⟩
    · obtain ⟨u, hu, hpu⟩ := attributesAgree_exists_tag as h t' ht
      exact ⟨u, by simp [tagsOfAttributes, hu], hpu⟩

end

theorem map_fst_of_agrees {nodes : List Node → List Node → Prop}
    {as as' : List (String × AttributeValue)} (h : List.Forall₂ (AttributeAgrees nodes) as as') :
    as.map Prod.fst = as'.map Prod.fst := by
  induction h with
  | nil => rfl
  | cons hp _ ih =>
    cases hp <;> simp [ih]

theorem literal?_eq_some_iff {tag : Tag} (h : tag.NamesOnce) {key text : String} :
    tag.literal? key = some text ↔ (key, .literal text) ∈ tag.attributes := by
  unfold Tag.literal?
  rw [← OrderedMap.lookup_eq_some_iff h]
  cases tag.attributes.lookup key with
  | none => simp
  | some v => cases v <;> simp

theorem TagPermuted.namesOnce {nodes : List Node → List Node → Prop} {tag tag' : Tag}
    (h : TagPermuted nodes tag tag') (hnames : tag.NamesOnce) : tag'.NamesOnce := by
  obtain ⟨middle, ha, hp⟩ := h.attributes
  have hkeys := hp.map Prod.fst
  rw [← map_fst_of_agrees ha] at hkeys
  exact hkeys.nodup_iff.1 hnames

theorem TagPermuted.mem_literal {nodes : List Node → List Node → Prop} {tag tag' : Tag}
    (h : TagPermuted nodes tag tag') {key text : String}
    (hmem : (key, .literal text) ∈ tag'.attributes) : (key, .literal text) ∈ tag.attributes := by
  obtain ⟨middle, ha, hp⟩ := h.attributes
  obtain ⟨p, hp, hag⟩ := exists_of_forall₂ ha _ (hp.mem_iff.2 hmem)
  cases hag
  exact hp

theorem TagPermuted.literal?_eq {tag tag' : Tag} (h : TagPermuted Reordered tag tag')
    (hnames : tag.NamesOnce) (key : String) : tag.literal? key = tag'.literal? key := by
  ext text
  rw [literal?_eq_some_iff hnames, literal?_eq_some_iff (h.namesOnce hnames)]
  exact ⟨(tagPermuted_symm tag h).mem_literal, h.mem_literal⟩

/-- The tag leaves blocks and layouts alone if the blocks for the regions `shown` do. -/
structure Quiet (shown : String → Prop) (tag : Tag) : Prop where
  plain : Plain tag
  region : IsRegion tag → ∀ name, MayCarry tag "name" name → name ≠ "" → shown name

/-- The values of the attributes of the tag can be rendered in any order. The regions `shown` are
those that such values may show. -/
structure Orderly (shown : String → Prop) (tag : Tag) : Prop where
  names : tag.NamesOnce
  values : ∀ t ∈ tagsOfAttributes tag.attributes, Quiet shown t
  body : IsBlock tag → ∀ region, MayCarry tag "region" region → shown region →
    Everywhere (Quiet shown) tag.children

theorem TagPermuted.mayCarry {nodes : List Node → List Node → Prop} {tag tag' : Tag}
    (h : TagPermuted nodes tag tag') {key text : String} (hc : MayCarry tag' key text) :
    MayCarry tag key text := by
  rcases hc with hmem | ⟨ns, hmem⟩
  · exact Or.inl (h.mem_literal hmem)
  · obtain ⟨middle, ha, hp⟩ := h.attributes
    obtain ⟨p, hp, hag⟩ := exists_of_forall₂ ha _ (hp.mem_iff.2 hmem)
    cases hag
    exact Or.inr ⟨_, hp⟩

section Transfer

variable {shown : String → Prop} {tag tag' : Tag}

theorem Quiet.reordered (h : TagPermuted Reordered tag tag') (hq : Quiet shown tag) :
    Quiet shown tag' := by
  obtain ⟨hp, hr⟩ := hq
  unfold Plain IsRegion at *
  rw [h.name_eq, h.extension_eq] at hp hr
  exact ⟨hp, fun hregion name hname => hr hregion name (h.mayCarry hname)⟩

theorem Everywhere.reordered {P : Tag → Prop}
    (hP : ∀ {t t'}, TagPermuted Reordered t t' → P t → P t') {ns ns' : List Node}
    (h : Reordered ns ns') (hns : Everywhere P ns) : Everywhere P ns' := by
  intro t' ht'
  obtain ⟨t, ht, hp⟩ := Reordered.exists_tag ns h t' ht'
  exact hP hp (hns t ht)

theorem Orderly.reordered (h : TagPermuted Reordered tag tag') (ho : Orderly shown tag) :
    Orderly shown tag' := by
  obtain ⟨middle, ha, hp⟩ := h.attributes
  refine ⟨?_, ?_, ?_⟩
  · exact h.namesOnce ho.names
  · intro t' ht'
    rw [← mem_tagsOfAttributes_perm hp] at ht'
    obtain ⟨t, ht, hpt⟩ := attributesAgree_exists_tag _ ha t' ht'
    exact Quiet.reordered hpt (ho.values t ht)
  · intro hblock region hregion hshown
    have hb : IsBlock tag := by
      unfold IsBlock at *
      rwa [h.name_eq, h.extension_eq]
    exact Everywhere.reordered Quiet.reordered h.children
      (ho.body hb region (h.mayCarry hregion) hshown)

end Transfer

end TagTemplate
