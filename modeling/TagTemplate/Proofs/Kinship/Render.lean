import TagTemplate.Proofs.Kinship

/-!
# Tags that are akin

Corresponding tags show corresponding text, from corresponding scopes and states, if the nodes
inside them do. Nothing depends on text that is not seen: whether a tag shows what it encloses is
decided by what its name means, and not by what has been shown. What the tags for includes, layouts,
blocks and regions do with the state is left open here.
-/

namespace TagTemplate

open Markup (Node Tag AttributeValue)
open TagTemplate.Action
open Environment (Structural)
open Lockstep

namespace Kinship

variable (K : Kinship) (L : Lockstep)

/-- Two environments and two ways to render what tags enclose, with corresponding extensions and no
filters. -/
structure Renders (env env' : Environment) (render render' : Renderer) : Prop where
  looks : K.Looks L
  filters : env.filters = []
  filters' : env'.filters = []
  exported : ∀ name, K.extension name →
    L.Relates (Option.Rel K.content) (env.exported name) (env'.exported name)
  render : ∀ {seen ns ns'}, K.nodes seen ns ns' → ∀ {scope scope'}, K.Scopes scope scope' →
    L.Relates (Shown seen) (render ns scope) (render' ns' scope')

structure Occurrences (seen : Prop) (o o' : Occurrence) : Prop where
  tag : K.Tags seen o.tag o'.tag
  options : o.options = o'.options
  scope : K.Scopes o.scope o'.scope
  parent : K.Scopes o.parent o'.parent

/-- What is left to show of tags of one name: that they correspond where they fetch nodes or keep
them. -/
structure Handlers (seen : Prop) (env env' : Environment) (render render' : Renderer)
    (name : String) : Prop where
  includes : name = "include" → ∀ {o o'}, K.Occurrences seen o o' →
    L.Relates (Shown seen) (env.renderInclude render o) (env'.renderInclude render' o')
  layouts : name = "layout" → ∀ {o o'}, K.Occurrences seen o o' →
    L.Relates (Shown seen) (Environment.renderLayout o) (Environment.renderLayout o')
  blocks : name = "block" → ∀ {o o'}, K.Occurrences seen o o' → IsBlock o.tag →
    L.Relates (Shown seen) (Environment.renderBlock o) (Environment.renderBlock o')
  regions : name = "region" → ∀ {o o'}, K.Occurrences seen o o' →
    L.Relates (Shown seen) (env.renderRegion render o) (env'.renderRegion render' o')

namespace Renders

variable {K : Kinship} {L : Lockstep} {seen : Prop} {env env' : Environment}
  {render render' : Renderer} {o o' : Occurrence} (h : K.Renders L env env' render render')

include h

theorem finish {text text' : String} (ht : Shown seen text text') {options options' : Options}
    (ho : options = options') :
    L.Relates (Shown seen) (env.finish text options) (env'.finish text' options') := by
  subst ho
  rw [Environment.finish_of_no_filters h.filters, Environment.finish_of_no_filters h.filters']
  exact relates_pure (ht.map fun text => Environment.wrapped text options)

theorem enclosed (ho : K.Occurrences seen o o') :
    L.Relates (Shown seen) (o.enclosed render) (o'.enclosed render') :=
  h.render ho.tag.children ho.scope

theorem finishEnclosed (ho : K.Occurrences seen o o') :
    L.Relates (Shown seen) (do env.finish (← o.enclosed render) o.options)
      (do env'.finish (← o'.enclosed render') o'.options) :=
  Relates.bind (h.enclosed ho) fun _ _ ht => h.finish ht ho.options

theorem inline {c c' : Content} (hc : K.content c c') {options options' : Options}
    (ho : options = options') :
    L.Relates (Shown seen) (c.inline options) (c'.inline options') := by
  subst ho
  exact (h.looks.inline hc options).mono fun _ _ => Shown.of_eq

theorem itemContent {v v' : HostValue} (hv : K.value v v') :
    L.Relates K.content (o.itemContent render v) (o'.itemContent render' v') := by
  refine Relates.bind (h.looks.ofHost hv) fun c c' hc => ?_
  have hform := h.looks.form hc
  cases hform <;> exact relates_pure hc

theorem item (ho : K.Occurrences seen o o') (iteration : Iteration) {v v' : HostValue}
    (hv : K.value v v') :
    L.Relates (Shown seen) (o.item render iteration v) (o'.item render' iteration v') := by
  refine Relates.bind (h.itemContent hv) fun c c' hc => ?_
  rw [h.looks.isEmpty ho.tag.children]
  split
  · exact h.inline hc ho.options
  · refine h.render ho.tag.children (ho.parent.push ⟨hc, ?_, rfl, rfl⟩)
    exact (h.looks.form hc).itemBindings hc

theorem collection (ho : K.Occurrences seen o o') {items items' : List HostValue}
    (hi : List.Forall₂ K.value items items') :
    L.Relates (Shown seen) (env.collection render o items)
      (env'.collection render' o' items') := by
  have hc := h.looks.array hi
  unfold Environment.collection
  rw [h.looks.isEmpty ho.tag.children]
  dsimp only
  split
  · exact Relates.bind (h.inline hc ho.options) fun _ _ ht => h.finish ht ho.options
  · refine Relates.bind ?_ fun _ _ ht => h.finish ht ho.options
    refine h.render ho.tag.children (ho.parent.push ⟨hc, fun name => ?_, rfl, rfl⟩)
    exact OrderedMap.rel_lookup_cons hc .none

theorem repetition (ho : K.Occurrences seen o o') {items items' : List HostValue}
    (hi : List.Forall₂ K.value items items') :
    L.Relates (Shown seen) (env.repetition render o items)
      (env'.repetition render' o' items') := by
  have hindexed : ∀ k, List.Forall₂ (fun p p' => K.value p.1 p'.1 ∧ p.2 = p'.2) (items.zipIdx k)
      (items'.zipIdx k) := by
    induction hi with
    | nil => exact fun _ => .nil
    | cons hv _ ih => exact fun k => .cons ⟨hv, rfl⟩ (ih (k + 1))
  unfold Environment.repetition
  rw [hi.length_eq, ho.options]
  refine Relates.bind (Q := List.Forall₂ (Shown seen)) ?_ fun _ _ ht => ?_
  · refine relates_mapM (hindexed 0) fun p p' hp => ?_
    rw [hp.2]
    exact h.item ho _ hp.1
  · refine h.finish (fun hseen => ?_) rfl
    rw [Shown.list ht hseen]

theorem showContent (ho : K.Occurrences seen o o') {c c' : Content} (hc : K.content c c') :
    L.Relates (Shown seen) (env.showContent render o c)
      (env'.showContent render' o' c') := by
  have hempty := h.looks.isEmpty ho.tag.children
  have hother : L.Relates (Shown seen)
      (if o.tag.children.isEmpty then do env.finish (← c.inline o.options) o.options
        else do env.finish (← render o.tag.children (o.parent.enter c)) o.options)
      (if o'.tag.children.isEmpty then do env'.finish (← c'.inline o'.options) o'.options
        else do env'.finish (← render' o'.tag.children (o'.parent.enter c')) o'.options) := by
    rw [hempty]
    split
    · exact Relates.bind (h.inline hc ho.options) fun _ _ ht => h.finish ht ho.options
    · refine Relates.bind ?_ fun _ _ ht => h.finish ht ho.options
      exact h.render ho.tag.children (ho.parent.enter hc)
  have hnothing : L.Relates (Shown seen) (pure "") (pure "") :=
    relates_pure (Shown.of_eq rfl)
  have hform := h.looks.form hc
  cases hform with
  | missing => exact hnothing
  | null => exact hnothing
  | bool b =>
    simp only [Environment.showContent, hempty]
    split
    · exact h.finish (Shown.of_eq rfl) ho.options
    · split
      · exact h.finishEnclosed ho
      · exact hnothing
  | number n => exact hother
  | string s =>
    by_cases hs : s = ""
    · subst hs
      exact hnothing
    · simpa [Environment.showContent, hs] using hother
  | array hi =>
    cases hi with
    | nil => exact hnothing
    | cons hv hvs =>
      simp only [Environment.showContent, ho.options]
      split
      · exact h.collection ho (.cons hv hvs)
      · exact h.repetition ho (.cons hv hvs)
  | object => exact hother

theorem showSubject (ho : K.Occurrences seen o o') (budget : Nat) {c c' : Content}
    (hc : K.content c c') :
    L.Relates (Shown seen) (env.showSubject render budget o c)
      (env'.showSubject render' budget o' c') := by
  have hform := h.looks.form hc
  cases hform <;> exact h.showContent ho hc

theorem isPresent (budget : Nat) {c c' : Content} (hc : K.content c c') :
    L.Agrees (Environment.isPresent render budget o c)
      (Environment.isPresent render' budget o' c') := by
  have hform := h.looks.form hc
  have hpresent := hform.present
  cases hform <;> exact relates_pure hpresent

theorem renderSubject (ho : K.Occurrences seen o o') (budget : Nat) (isNegated : Bool)
    {c c' : Content} (hc : K.content c c') :
    L.Relates (Shown seen) (env.renderSubject render budget o isNegated c)
      (env'.renderSubject render' budget o' isNegated c') := by
  unfold Environment.renderSubject
  split
  · refine Agrees.bind (h.isPresent budget hc) fun present => ?_
    split
    · exact relates_pure (Shown.of_eq rfl)
    · exact h.enclosed ho
  · exact h.showSubject ho budget hc

theorem renderMarker (ho : K.Occurrences seen o o') (atEnd : Iteration → Bool) :
    L.Relates (Shown seen) (env.renderMarker render o atEnd)
      (env'.renderMarker render' o' atEnd) := by
  unfold Environment.renderMarker
  rw [ho.scope.nearestIteration]
  split
  · exact relates_pure (Shown.of_eq rfl)
  · split
    · exact h.finishEnclosed ho
    · exact relates_pure (Shown.of_eq rfl)

theorem renderItemValue (ho : K.Occurrences seen o o') (budget : Nat) (hn : K.name "value") :
    L.Relates (Shown seen) (env.renderItemValue render budget o)
      (env'.renderItemValue render' budget o') := by
  unfold Environment.renderItemValue
  rw [ho.scope.frame.collection]
  split
  · exact relates_pure (Shown.of_eq rfl)
  · exact Relates.bind (h.looks.lookup ho.scope hn) fun _ _ hc => h.showSubject ho budget hc

theorem renderItemValues (ho : K.Occurrences seen o o') (budget : Nat) (hn : K.name "values") :
    L.Relates (Shown seen) (env.renderItemValues render budget o)
      (env'.renderItemValues render' budget o') := by
  have hwindow : ∀ {items items' : List HostValue}, List.Forall₂ K.value items items' →
      ∀ skip limit, List.Forall₂ K.value (Content.window items skip limit)
        (Content.window items' skip limit) := by
    intro items items' hi skip limit
    cases limit with
    | none => exact List.forall₂_drop _ hi
    | some n => exact List.forall₂_take _ (List.forall₂_drop _ hi)
  unfold Environment.renderItemValues
  rw [ho.options]
  refine Relates.bind (h.looks.lookup ho.scope hn) fun c c' hc => ?_
  have hform := h.looks.form hc
  cases hform with
  | array hi => exact h.showSubject ho budget (h.looks.array (hwindow hi _ _))
  | _ => exact h.showSubject ho budget hc

theorem optionsOf {tag tag' : Tag} (ht : K.Tags seen tag tag') {scope scope' : Scope}
    (hs : K.Scopes scope scope') :
    L.Agrees (optionsOf render scope tag) (optionsOf render' scope' tag') := by
  have hvalues := ht.values
  unfold TagTemplate.optionsOf
  rw [← ht.attributes]
  have hsame : List.Forall₂ (fun p p' => p = p' ∧ p ∈ tag.attributes) tag.attributes
      tag.attributes :=
    List.forall₂_same.2 fun _ hp => ⟨rfl, hp⟩
  refine agrees_mapM hsame ?_
  rintro ⟨key, value⟩ _ ⟨rfl, hp⟩
  cases value with
  | literal text => exact agrees_pure _
  | markup ns =>
    refine Relates.bind (h.render (hvalues key ns hp) hs) fun text text' htext => ?_
    rw [htext trivial]
    exact agrees_pure _

theorem renderStructural (hh : K.Handlers L seen env env' render render' o.tag.name)
    (ho : K.Occurrences seen o o') (budget : Nat) {structural : Structural}
    (he : o.tag.extension = none) (hs : Structural.ofName? o.tag.name = some structural) :
    L.Relates (Shown seen) (env.renderStructural render budget o structural)
      (env'.renderStructural render' budget o' structural) := by
  have hn := Structural.eq_name_of_ofName? hs
  have hmentioned := ho.tag.mentioned.1
  rw [hn] at hmentioned
  cases structural with
  | «include» => exact hh.includes hn ho
  | layout => exact hh.layouts hn ho
  | block => exact hh.blocks hn ho ⟨he, hn⟩
  | region => exact hh.regions hn ho
  | first => exact h.renderMarker ho _
  | last => exact h.renderMarker ho _
  | value => exact h.renderItemValue ho budget hmentioned
  | values => exact h.renderItemValues ho budget hmentioned

theorem renderExtensionTag {tag tag' : Tag} (ht : K.Tags seen tag tag') (budget : Nat)
    (options : Options) {scope scope' : Scope} (hs : K.Scopes scope scope') {extension : String}
    (he : K.extension extension) :
    L.Relates (Shown seen)
      (env.renderExtensionTag render budget tag options scope extension)
      (env'.renderExtensionTag render' budget tag' options scope' extension) := by
  unfold Environment.renderExtensionTag Environment.extension
  simp only [bind_assoc, pure_bind]
  rw [← ht.name]
  refine Relates.bind (h.exported extension he) fun m m' hm => ?_
  cases hm with
  | none =>
    have ho : K.Occurrences seen ⟨tag, options, scope, scope⟩ ⟨tag', options, scope', scope'⟩ :=
      ⟨ht, rfl, hs, hs⟩
    exact h.renderSubject ho budget _ h.looks.missing
  | @some c c' hc =>
    have ho : K.Occurrences seen ⟨tag, options, scope, scope.enter c⟩
        ⟨tag', options, scope', scope'.enter c'⟩ :=
      ⟨ht, rfl, hs, hs.enter hc⟩
    refine Relates.bind (h.looks.own ho.parent.frame ht.mentioned.1) fun _ _ hc => ?_
    exact h.renderSubject ho budget _ hc

theorem renderWith {tag tag' : Tag} (hh : K.Handlers L seen env env' render render' tag.name)
    (ht : K.Tags seen tag tag') (budget : Nat) (options : Options) {scope scope' : Scope}
    (hs : K.Scopes scope scope') :
    L.Relates (Shown seen) (env.renderWith render budget tag options scope)
      (env'.renderWith render' budget tag' options scope') := by
  have ho : K.Occurrences seen ⟨tag, options, scope, scope⟩ ⟨tag', options, scope', scope'⟩ :=
    ⟨ht, rfl, hs, hs⟩
  have hmentioned := ht.mentioned
  unfold Environment.renderWith
  rw [← ht.extension, ← ht.name]
  cases he : tag.extension with
  | some extension => exact h.renderExtensionTag ht budget options hs (hmentioned.2 _ he)
  | none =>
    have hname := hmentioned.1
    cases hneg : Environment.negated? tag.name with
    | some name =>
      rw [hneg] at hname
      exact Relates.bind (h.looks.lookup hs hname) fun _ _ hc => h.renderSubject ho budget _ hc
    | none =>
      rw [hneg] at hname
      cases hstructural : Structural.ofName? tag.name with
      | some structural => exact h.renderStructural hh ho budget he hstructural
      | none =>
        exact Relates.bind (h.looks.lookup hs hname) fun _ _ hc => h.renderSubject ho budget _ hc

theorem renderTag {tag tag' : Tag} (hh : K.Handlers L seen env env' render render' tag.name)
    (ht : K.Tags seen tag tag') (budget : Nat) {scope scope' : Scope} (hs : K.Scopes scope scope') :
    L.Relates (Shown seen) (env.renderTag render budget tag scope)
      (env'.renderTag render' budget tag' scope') := by
  refine Agrees.bind (h.optionsOf ht hs) fun options => ?_
  refine Relates.bind (h.renderWith hh ht budget options hs) fun _ _ htext => ?_
  exact relates_pure (htext.map (orDefault · options))

theorem renderNodes {ns ns' : List Node} (hns : List.Forall₂ (K.Items seen) ns ns')
    (hh : ∀ tag, .tag tag ∈ ns → K.Handlers L seen env env' render render' tag.name) (budget : Nat)
    {scope scope' : Scope} (hs : K.Scopes scope scope') :
    L.Relates (Shown seen) (env.renderNodes render budget ns scope)
      (env'.renderNodes render' budget ns' scope') := by
  induction hns with
  | nil =>
    rw [Environment.renderNodes_nil, Environment.renderNodes_nil]
    exact relates_pure (Shown.of_eq rfl)
  | @cons n n' ns ns' hn _ ih =>
    have hnode : L.Relates (Shown seen) (env.renderNode render budget scope n)
        (env'.renderNode render' budget scope' n') := by
      cases hn with
      | text ht => exact relates_pure ht
      | tag ht => exact h.renderTag (hh _ List.mem_cons_self) ht budget hs
    have hrest := ih fun tag htag => hh tag (List.mem_cons_of_mem _ htag)
    rw [Environment.renderNodes_cons, Environment.renderNodes_cons]
    refine Relates.bind hnode fun text text' ht => ?_
    refine Relates.bind hrest fun rest rest' hrest => relates_pure fun hseen => ?_
    rw [ht hseen, hrest hseen]

end Renders

end Kinship

end TagTemplate
