import TagTemplate.Proofs.Lockstep.Page
import TagTemplate.Proofs.Promise.Content

/-!
# Tags that show content

Where the nodes inside a tag are rendered as promised, so is the tag: the scopes that it hands on
hold content of the material, and what it shows is made of what has been shown inside it. What the
tags for includes, layouts, blocks and regions do with the state is left to each use.
-/

namespace TagTemplate

open Markup (Node Tag AttributeValue)
open TagTemplate.Action
open Environment (Structural)

namespace Material

variable (M : Material) (inner : List Node → Prop)

inductive IsAttribute : String × AttributeValue → Prop where
  | literal {key text} : M.carried key → M.text text → IsAttribute (key, .literal text)
  | markup {key nodes} : M.carried key → inner nodes → IsAttribute (key, .markup nodes)

structure IsTag (tag : Tag) : Prop where
  attributes : ∀ p ∈ tag.attributes, M.IsAttribute inner p
  children : inner tag.children

theorem IsTag.of_inside {M : Material} {inner : List Node → Prop} {tag : Tag}
    (carried : ∀ p ∈ tag.attributes, M.carried p.1)
    (literal : ∀ key text, (key, .literal text) ∈ tag.attributes → M.text text)
    (inside : ∀ ns, Inside tag ns → inner ns) : M.IsTag inner tag := by
  refine ⟨?_, inside _ (Or.inl rfl)⟩
  rintro ⟨key, text | nodes⟩ hp
  · exact .literal (carried _ hp) (literal key text hp)
  · exact .markup (carried _ hp) (inside nodes (Or.inr ⟨key, hp⟩))

structure IsOccurrence (o : Occurrence) : Prop where
  children : inner o.tag.children
  options : M.IsOptions o.options
  scope : M.IsScope o.scope
  parent : M.IsScope o.parent

end Material

namespace Promise

/-- What tags enclose is rendered as promised, extensions are of the material, and there are no
filters. -/
structure Shows (P : Promise) (M : Material) (env : Environment) (inner : List Node → Prop)
    (render : Renderer) : Prop extends P.Bears M where
  filters : env.filters = []
  exported : ∀ name, P.Keeps (fun found => ∀ c ∈ found, M.IsContent c) (env.exported name)
  render : ∀ {nodes}, inner nodes → ∀ {scope}, M.IsScope scope →
    P.Keeps M.text (render nodes scope)

/-- What is left to show of a tag: that it keeps the promise where it fetches nodes or keeps them. -/
structure Handles (P : Promise) (M : Material) (env : Environment) (render : Renderer) (tag : Tag) :
    Prop where
  includes : tag.extension = none → tag.name = "include" → ∀ {options scope},
    M.IsOptions options → M.IsScope scope →
    P.Keeps M.text (env.renderInclude render ⟨tag, options, scope, scope⟩)
  layouts : tag.extension = none → tag.name = "layout" → ∀ {options scope},
    M.IsOptions options → M.IsScope scope →
    P.Keeps M.text (Environment.renderLayout ⟨tag, options, scope, scope⟩)
  blocks : tag.extension = none → tag.name = "block" → ∀ {options scope},
    M.IsOptions options → M.IsScope scope →
    P.Keeps M.text (Environment.renderBlock ⟨tag, options, scope, scope⟩)
  regions : tag.extension = none → tag.name = "region" → ∀ {options scope},
    M.IsOptions options → M.IsScope scope →
    P.Keeps M.text (env.renderRegion render ⟨tag, options, scope, scope⟩)

variable {P : Promise} {M : Material} {env : Environment} {inner : List Node → Prop}
  {render : Renderer} {budget : Nat} {o : Occurrence} {c : Content} {tag : Tag} {options : Options}
  {scope : Scope}

namespace Shows

variable (h : P.Shows M env inner render)

include h

theorem finish {text : String} (ht : M.text text) (ho : M.IsOptions options) :
    P.Keeps M.text (env.finish text options) := by
  unfold Environment.finish
  rw [h.filters]
  split
  · exact keeps_pure h.sound.empty
  · exact keeps_pure (h.sound.wrapped ho ht)

theorem enclosed (ho : M.IsOccurrence inner o) : P.Keeps M.text (o.enclosed render) :=
  h.render ho.children ho.scope

omit h in
theorem isContent_itemBindings (hc : M.IsContent c) (name : String) (b : Content)
    (hb : (itemBindings c).lookup name = some b) : M.IsContent b :=
  eq_of_lookup_itemBindings hb ▸ hc

theorem item (ho : M.IsOccurrence inner o) (iteration : Iteration) {item : HostValue}
    (hitem : M.IsValue item) : P.Keeps M.text (o.item render iteration item) := by
  have hvalue : P.Keeps M.IsContent (o.itemContent render item) := by
    refine Keeps.bind (h.ofHost hitem) fun c hc => ?_
    cases c with
    | callable f => exact absurd hc Material.not_isContent_callable
    | _ => exact keeps_pure hc
  refine Keeps.bind hvalue fun value hv => ?_
  split
  · exact h.inlineContent hv ho.options
  · exact h.render ho.children (ho.parent.push ⟨hv, isContent_itemBindings hv⟩)

theorem collection (ho : M.IsOccurrence inner o) {items : List HostValue}
    (hi : M.IsContent (.array items)) : P.Keeps M.text (env.collection render o items) := by
  have hbindings : ∀ name c, [("values", Content.array items)].lookup name = some c →
      M.IsContent c := by
    intro name c hc
    cases List.mem_singleton.1 (OrderedMap.mem_of_lookup hc)
    exact hi
  unfold Environment.collection
  dsimp only
  split
  · exact Keeps.bind (h.inlineContent hi ho.options) fun body hb => h.finish hb ho.options
  · refine Keeps.bind (h.render ho.children (ho.parent.push ⟨hi, hbindings⟩)) fun body hb => ?_
    exact h.finish hb ho.options

theorem repetition (ho : M.IsOccurrence inner o) {items : List HostValue}
    (hi : M.IsContent (.array items)) : P.Keeps M.text (env.repetition render o items) := by
  unfold Environment.repetition
  refine Keeps.bind (keeps_mapM fun p hp => ?_) fun parts ht =>
    h.finish (h.sound.join ho.options ht) ho.options
  have hmem := List.mem_of_getElem? (List.mem_zipIdx_iff_getElem?.1 hp)
  exact h.item ho _ (everyItem_iff.1 hi _ hmem)

theorem showContent (ho : M.IsOccurrence inner o) (hc : M.IsContent c) :
    P.Keeps M.text (env.showContent render o c) := by
  have hframe : P.Keeps M.text
      (if o.tag.children.isEmpty then do env.finish (← c.inline o.options) o.options
        else do env.finish (← render o.tag.children (o.parent.enter c)) o.options) := by
    split
    · exact Keeps.bind (h.inlineContent hc ho.options) fun text ht => h.finish ht ho.options
    · refine Keeps.bind (h.render ho.children (ho.parent.enter hc)) fun text ht => ?_
      exact h.finish ht ho.options
  unfold Environment.showContent
  split
  · exact keeps_pure h.sound.empty
  · exact keeps_pure h.sound.empty
  · exact keeps_pure h.sound.empty
  · exact keeps_pure h.sound.empty
  · exact keeps_pure h.sound.empty
  · split
    · exact h.collection ho hc
    · exact h.repetition ho hc
  · split
    · exact h.finish (h.sound.bool _) ho.options
    · split
      · exact Keeps.bind (h.enclosed ho) fun text ht => h.finish ht ho.options
      · exact keeps_pure h.sound.empty
  · exact hframe

theorem showSubject (ho : M.IsOccurrence inner o) (hc : M.IsContent c) :
    P.Keeps M.text (env.showSubject render budget o c) := by
  unfold Environment.showSubject
  cases c with
  | callable f => exact absurd hc Material.not_isContent_callable
  | _ => exact h.showContent ho hc

theorem renderSubject (ho : M.IsOccurrence inner o) (isNegated : Bool) (hc : M.IsContent c) :
    P.Keeps M.text (env.renderSubject render budget o isNegated c) := by
  have hpresent : Environment.isPresent render budget o c = pure c.present := by
    unfold Environment.isPresent
    cases c with
    | callable f => exact absurd hc Material.not_isContent_callable
    | _ => rfl
  unfold Environment.renderSubject
  split
  · rw [hpresent, pure_bind]
    split
    · exact keeps_pure h.sound.empty
    · exact h.enclosed ho
  · exact h.showSubject ho hc

theorem renderInclude {template : List Node → Prop}
    (fetch : ∀ name, P.Keeps (fun found => ∀ nodes ∈ found, template nodes) (env.template name))
    (deeper : ∀ name {nodes}, template nodes →
      P.Keeps M.text (env.oneDeeper name do env.finish (← render nodes scope) options)) :
    P.Keeps M.text (env.renderInclude render ⟨tag, options, scope, scope⟩) := by
  unfold Environment.renderInclude
  split
  · exact Safe.bind (h.warn _) fun _ => keeps_pure h.sound.empty
  · exact Safe.bind (h.warn _) fun _ => keeps_pure h.sound.empty
  · refine Keeps.bind (fetch _) fun found hfound => ?_
    cases found with
    | none => exact keeps_pure h.sound.empty
    | some nodes => exact deeper _ (hfound nodes rfl)

theorem renderLayout
    (request : ∀ name s, P.holds s → P.holds { s with registry := s.registry.requestLayout name }) :
    P.Keeps M.text (Environment.renderLayout ⟨tag, options, scope, scope⟩) := by
  unfold Environment.renderLayout
  split
  · exact keeps_pure h.sound.empty
  · exact keeps_pure h.sound.empty
  · exact Safe.bind (safe_update (request _)) fun _ => keeps_pure h.sound.empty

theorem renderBlock
    (keep : ∀ region s, P.holds s →
      P.holds { s with registry := s.registry.addBlock region ⟨tag.children, scope⟩ }) :
    P.Keeps M.text (Environment.renderBlock ⟨tag, options, scope, scope⟩) := by
  unfold Environment.renderBlock
  split
  · exact keeps_pure h.sound.empty
  · exact keeps_pure h.sound.empty
  · exact Safe.bind (safe_update (keep _)) fun _ => keeps_pure h.sound.empty

theorem renderRegion {block : Block → Prop} (hc : inner tag.children) (ho : M.IsOptions options)
    (hs : M.IsScope scope)
    (find : ∀ region,
      P.Keeps (fun found => ∀ b ∈ found, block b) (Environment.findBlock region))
    (kept : ∀ b, block b → P.Keeps M.text (render b.nodes b.scope)) :
    P.Keeps M.text (env.renderRegion render ⟨tag, options, scope, scope⟩) := by
  refine Keeps.bind (find _) fun found hfound => ?_
  cases found with
  | none => exact Keeps.bind (h.render hc hs) fun text ht => h.finish ht ho
  | some b => exact Keeps.bind (kept b (hfound b rfl)) fun text ht => h.finish ht ho

theorem renderMarker (ho : M.IsOccurrence inner o) (atEnd : Iteration → Bool) :
    P.Keeps M.text (env.renderMarker render o atEnd) := by
  unfold Environment.renderMarker
  split
  · exact keeps_pure h.sound.empty
  · split
    · exact Keeps.bind (h.enclosed ho) fun text ht => h.finish ht ho.options
    · exact keeps_pure h.sound.empty

theorem renderItemValue (ho : M.IsOccurrence inner o) :
    P.Keeps M.text (env.renderItemValue render budget o) := by
  unfold Environment.renderItemValue
  split
  · exact keeps_pure h.sound.empty
  · exact Keeps.bind (h.lookup ho.scope "value") fun c hc => h.showSubject ho hc

omit h in
theorem isContent_window {items : List HostValue} (hi : M.IsContent (.array items)) (skip : Int)
    (limit : Option Int) : M.IsContent (.array (Content.window items skip limit)) :=
  everyItem_iff.2 fun v hv => everyItem_iff.1 hi v (mem_of_mem_window hv)

theorem renderItemValues (ho : M.IsOccurrence inner o) :
    P.Keeps M.text (env.renderItemValues render budget o) := by
  refine Keeps.bind (h.lookup ho.scope "values") fun c hc => ?_
  split
  · exact h.showSubject ho (isContent_window hc _ _)
  · exact h.showSubject ho hc

theorem renderStructural (hc : inner tag.children) (hh : P.Handles M env render tag)
    (he : tag.extension = none) (ho : M.IsOptions options) (hs : M.IsScope scope)
    {structural : Structural} (hn : Structural.ofName? tag.name = some structural) :
    P.Keeps M.text (env.renderStructural render budget ⟨tag, options, scope, scope⟩ structural) := by
  have hname := Structural.eq_name_of_ofName? hn
  have hoccurs : M.IsOccurrence inner ⟨tag, options, scope, scope⟩ := ⟨hc, ho, hs, hs⟩
  cases structural with
  | «include» => exact hh.includes he hname ho hs
  | layout => exact hh.layouts he hname ho hs
  | block => exact hh.blocks he hname ho hs
  | region => exact hh.regions he hname ho hs
  | first => exact h.renderMarker hoccurs _
  | last => exact h.renderMarker hoccurs _
  | value => exact h.renderItemValue hoccurs
  | values => exact h.renderItemValues hoccurs

theorem renderExtensionTag (hc : inner tag.children) (ho : M.IsOptions options)
    (hs : M.IsScope scope) (extension : String) :
    P.Keeps M.text (env.renderExtensionTag render budget tag options scope extension) := by
  have hhome : P.Keeps (fun home => ∀ inside ∈ home, M.IsScope inside)
      (env.extension extension scope) := by
    refine Keeps.bind (h.exported extension) fun found hfound => keeps_pure ?_
    intro inside hinside
    obtain ⟨c, hc, rfl⟩ := Option.map_eq_some_iff.1 hinside
    exact hs.enter (hfound c hc)
  refine Keeps.bind hhome fun home hinside => ?_
  cases home with
  | none => exact h.renderSubject ⟨hc, ho, hs, hs⟩ _ rfl
  | some inside =>
    have hi := hinside inside rfl
    refine Keeps.bind (h.own (hi _ List.mem_cons_self) _) fun subject hsubject => ?_
    exact h.renderSubject ⟨hc, ho, hs, hi⟩ _ hsubject

theorem renderWith (hc : inner tag.children) (hh : P.Handles M env render tag)
    (ho : M.IsOptions options) (hs : M.IsScope scope) :
    P.Keeps M.text (env.renderWith render budget tag options scope) := by
  have named : ∀ name isNegated, P.Keeps M.text (do
      env.renderSubject render budget ⟨tag, options, scope, scope⟩ isNegated
        (← scope.lookup name)) := by
    intro name isNegated
    refine Keeps.bind (h.lookup hs name) fun subject hsubject => ?_
    exact h.renderSubject ⟨hc, ho, hs, hs⟩ isNegated hsubject
  unfold Environment.renderWith
  cases he : tag.extension with
  | some extension => exact h.renderExtensionTag hc ho hs extension
  | none =>
    dsimp only
    split
    · exact named _ true
    · split
      · next structural hn => exact h.renderStructural hc hh he ho hs hn
      · exact named _ false

theorem optionsOf (ha : ∀ p ∈ tag.attributes, M.IsAttribute inner p) (hs : M.IsScope scope) :
    P.Keeps M.IsOptions (optionsOf render scope tag) := by
  refine keeps_mapM fun p hp => ?_
  cases ha p hp with
  | literal hk ht => exact keeps_pure ⟨hk, ht⟩
  | markup hk hn => exact Keeps.bind (h.render hn hs) fun text ht => keeps_pure ⟨hk, ht⟩

theorem renderTag (ht : M.IsTag inner tag) (hh : P.Handles M env render tag)
    (hs : M.IsScope scope) : P.Keeps M.text (env.renderTag render budget tag scope) := by
  refine Keeps.bind (h.optionsOf ht.attributes hs) fun options ho => ?_
  refine Keeps.bind (h.renderWith ht.children hh ho hs) fun text hx => ?_
  exact keeps_pure (h.sound.default ho hx)

theorem renderNodes {nodes : List Node} (texts : ∀ text, .text text ∈ nodes → M.text text)
    (tags : ∀ tag, .tag tag ∈ nodes → M.IsTag inner tag ∧ P.Handles M env render tag)
    (hs : M.IsScope scope) : P.Keeps M.text (env.renderNodes render budget nodes scope) := by
  refine Keeps.bind (keeps_mapM fun node hn => ?_) fun parts hp =>
    keeps_pure (text_join h.sound.empty h.sound.append hp)
  cases node with
  | text value => exact keeps_pure (texts value hn)
  | tag tag => exact h.renderTag (tags tag hn).1 (tags tag hn).2 hs

end Shows

end Promise

end TagTemplate
