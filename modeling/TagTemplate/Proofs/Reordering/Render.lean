import TagTemplate.Proofs.Lockstep.Plain
import TagTemplate.Proofs.Promise.Render
import TagTemplate.Proofs.Reordering

/-!
# Tags with their attributes in another order

In plain scopes two tags show the same if their attributes have the same values, in any order, and
what they enclose is rendered alike. What the tags for includes, layouts, blocks and regions do with
the state is left open here.
-/

namespace TagTemplate

open Markup (Node Tag AttributeValue)
open TagTemplate.Action
open Environment (Structural)
open Lockstep

/-- Two environments without filters and two ways to render what tags enclose that agree in plain
scopes. -/
structure Lockstep.Renders (L : Lockstep) (nodes : List Node → List Node → Prop)
    (env env' : Environment) (render render' : Renderer) : Prop where
  filters : env.filters = []
  filters' : env'.filters = []
  allowed : ∀ e, L.allowed e
  exported : ∀ name, L.Relates (fun m m' => m = m' ∧ ∀ c ∈ m, c.IsPlain) (env.exported name)
    (env'.exported name)
  isEmpty : ∀ {ns ns'}, nodes ns ns' → ns.isEmpty = ns'.isEmpty
  render : ∀ {ns ns'}, nodes ns ns' → ∀ {scope : Scope}, scope.IsPlain →
    L.Agrees (render ns scope) (render' ns' scope)

/-- Two tags that are being rendered in the same plain scopes, with options in which every name has
the same value. -/
structure OccurrenceAlike (nodes : List Node → List Node → Prop) (o o' : Occurrence) : Prop where
  children : nodes o.tag.children o'.tag.children
  options : o.options.Alike o'.options
  scope : o.scope = o'.scope
  parent : o.parent = o'.parent
  plain : o.scope.IsPlain
  plain_parent : o.parent.IsPlain

/-- What is left to show of two tags: that they agree where they fetch nodes or keep them. -/
structure Lockstep.Handling (L : Lockstep) (env env' : Environment) (render render' : Renderer)
    (o o' : Occurrence) : Prop where
  includes : L.Agrees (env.renderInclude render o) (env'.renderInclude render' o')
  layouts : L.Agrees (Environment.renderLayout o) (Environment.renderLayout o')
  blocks : IsBlock o.tag → L.Agrees (Environment.renderBlock o) (Environment.renderBlock o')
  regions : L.Agrees (env.renderRegion render o) (env'.renderRegion render' o')

namespace Lockstep.Renders

variable {L : Lockstep} {nodes : List Node → List Node → Prop} {env env' : Environment}
  {render render' : Renderer} {o o' : Occurrence} (h : L.Renders nodes env env' render render')

include h

theorem finish (text : String) {options options' : Options} (ho : options.Alike options') :
    L.Agrees (env.finish text options) (env'.finish text options') := by
  rw [Environment.finish_of_no_filters h.filters, Environment.finish_of_no_filters h.filters',
    ho.wrapped]
  exact agrees_pure _

theorem enclosed (ho : OccurrenceAlike nodes o o') :
    L.Agrees (o.enclosed render) (o'.enclosed render') := by
  unfold Occurrence.enclosed
  rw [← ho.scope]
  exact h.render ho.children ho.plain

theorem finishEnclosed (ho : OccurrenceAlike nodes o o') :
    L.Agrees (do env.finish (← o.enclosed render) o.options)
      (do env'.finish (← o'.enclosed render') o'.options) :=
  Agrees.bind (h.enclosed ho) fun text => h.finish text ho.options

theorem plainAgrees (ho : OccurrenceAlike nodes o o') :
    L.PlainAgrees env env' render render' o o' := by
  refine ⟨h.allowed, h.isEmpty ho.children, ho.options.on, fun text => h.finish text ho.options, ?_⟩
  intro f hf
  rw [← ho.parent]
  exact h.render ho.children (ho.plain_parent.push hf)

theorem showContent (ho : OccurrenceAlike nodes o o') {c : Content} (hc : c.IsPlain) :
    L.Agrees (env.showContent render o c) (env'.showContent render' o' c) := by
  have hframe : L.Agrees
      (if o.tag.children.isEmpty then do env.finish (← c.inline o.options) o.options
        else do env.finish (← render o.tag.children (o.parent.enter c)) o.options)
      (if o'.tag.children.isEmpty then do env'.finish (← c.inline o'.options) o'.options
        else do env'.finish (← render' o'.tag.children (o'.parent.enter c)) o'.options) := by
    rw [h.isEmpty ho.children, ← ho.parent]
    split
    · exact Agrees.bind ((h.plainAgrees ho).inline hc) fun text => h.finish text ho.options
    · refine Agrees.bind ?_ fun text => h.finish text ho.options
      exact h.render ho.children (ho.plain_parent.enter hc)
  unfold Environment.showContent
  split
  · exact agrees_pure _
  · exact agrees_pure _
  · exact agrees_pure _
  · exact agrees_pure _
  · exact agrees_pure _
  · rw [ho.options]
    split
    · exact (h.plainAgrees ho).collection hc
    · exact (h.plainAgrees ho).repetition hc
  · rw [h.isEmpty ho.children]
    split
    · exact h.finish _ ho.options
    · split
      · exact h.finishEnclosed ho
      · exact agrees_pure _
  · exact hframe

theorem showSubject (ho : OccurrenceAlike nodes o o') (budget : Nat) {c : Content}
    (hc : c.IsPlain) :
    L.Agrees (env.showSubject render budget o c) (env'.showSubject render' budget o' c) := by
  cases c with
  | callable f => cases hc
  | _ => exact h.showContent ho hc

theorem renderSubject (ho : OccurrenceAlike nodes o o') (budget : Nat) (isNegated : Bool)
    {c : Content} (hc : c.IsPlain) :
    L.Agrees (env.renderSubject render budget o isNegated c)
      (env'.renderSubject render' budget o' isNegated c) := by
  have hpresent : ∀ (o : Occurrence) (render : Renderer),
      Environment.isPresent render budget o c = pure c.present := by
    intro o render
    cases c with
    | callable f => cases hc
    | _ => rfl
  unfold Environment.renderSubject
  rw [hpresent, hpresent, pure_bind, pure_bind]
  split
  · split
    · exact agrees_pure _
    · exact h.enclosed ho
  · exact h.showSubject ho budget hc

theorem renderNamed (ho : OccurrenceAlike nodes o o') (budget : Nat) (isNegated : Bool)
    (name : String) :
    L.Agrees (do env.renderSubject render budget o isNegated (← o.scope.lookup name))
      (do env'.renderSubject render' budget o' isNegated (← o'.scope.lookup name)) := by
  obtain ⟨c, hc, hlookup⟩ := Scope.lookup_eq_pure ho.plain name
  rw [← ho.scope, hlookup, pure_bind, pure_bind]
  exact h.renderSubject ho budget isNegated hc

theorem renderMarker (ho : OccurrenceAlike nodes o o') (atEnd : Iteration → Bool) :
    L.Agrees (env.renderMarker render o atEnd) (env'.renderMarker render' o' atEnd) := by
  unfold Environment.renderMarker
  rw [← ho.scope]
  split
  · exact agrees_pure _
  · split
    · exact h.finishEnclosed ho
    · exact agrees_pure _

theorem renderItemValue (ho : OccurrenceAlike nodes o o') (budget : Nat) :
    L.Agrees (env.renderItemValue render budget o) (env'.renderItemValue render' budget o') := by
  obtain ⟨c, hc, hlookup⟩ := Scope.lookup_eq_pure ho.plain "value"
  unfold Environment.renderItemValue
  rw [← ho.scope, hlookup]
  split
  · exact agrees_pure _
  · exact h.showSubject ho budget hc

theorem renderItemValues (ho : OccurrenceAlike nodes o o') (budget : Nat) :
    L.Agrees (env.renderItemValues render budget o) (env'.renderItemValues render' budget o') := by
  obtain ⟨c, hc, hlookup⟩ := Scope.lookup_eq_pure ho.plain "values"
  unfold Environment.renderItemValues
  rw [← ho.scope, hlookup, pure_bind, pure_bind, Options.numberOption_congr (ho.options "skip"),
    Options.numberOption_congr (ho.options "limit")]
  split
  · refine h.showSubject ho budget (everyItem_iff.2 fun v hv => ?_)
    exact everyItem_iff.1 hc v (mem_of_mem_window hv)
  · exact h.showSubject ho budget hc

theorem renderStructural (ho : OccurrenceAlike nodes o o')
    (hh : L.Handling env env' render render' o o') (budget : Nat) {structural : Structural}
    (he : o.tag.extension = none) (hs : Structural.ofName? o.tag.name = some structural) :
    L.Agrees (env.renderStructural render budget o structural)
      (env'.renderStructural render' budget o' structural) := by
  have hn := Structural.eq_name_of_ofName? hs
  cases structural with
  | «include» => exact hh.includes
  | layout => exact hh.layouts
  | block => exact hh.blocks ⟨he, hn⟩
  | region => exact hh.regions
  | first => exact h.renderMarker ho _
  | last => exact h.renderMarker ho _
  | value => exact h.renderItemValue ho budget
  | values => exact h.renderItemValues ho budget

theorem renderExtensionTag {tag tag' : Tag} (ht : TagPermuted nodes tag tag') (budget : Nat)
    {options options' : Options} (ho : options.Alike options') {scope : Scope}
    (hs : scope.IsPlain) (extension : String) :
    L.Agrees (env.renderExtensionTag render budget tag options scope extension)
      (env'.renderExtensionTag render' budget tag' options' scope extension) := by
  unfold Environment.renderExtensionTag Environment.extension
  simp only [bind_assoc, pure_bind]
  rw [← ht.name_eq]
  refine Relates.bind (h.exported extension) ?_
  rintro m _ ⟨rfl, hm⟩
  cases m with
  | none =>
    have hocc : OccurrenceAlike nodes ⟨tag, options, scope, scope⟩ ⟨tag', options', scope, scope⟩ :=
      ⟨ht.children, ho, rfl, rfl, hs, hs⟩
    exact h.renderSubject hocc budget _ rfl
  | some c =>
    have hhome : (scope.enter c).IsPlain := hs.enter (hm c rfl)
    have hocc : OccurrenceAlike nodes ⟨tag, options, scope, scope.enter c⟩
        ⟨tag', options', scope, scope.enter c⟩ :=
      ⟨ht.children, ho, rfl, rfl, hs, hhome⟩
    obtain ⟨subject, hsubject, hown⟩ := Frame.own_eq_pure (hhome _ List.mem_cons_self)
      ((Environment.negated? tag.name).getD tag.name)
    dsimp only [Option.map_some]
    rw [show (scope.enter c).own _ = _ from hown, pure_bind, pure_bind]
    exact h.renderSubject hocc budget _ hsubject

theorem renderWith {tag tag' : Tag} (ht : TagPermuted nodes tag tag') (budget : Nat)
    {options options' : Options} (ho : options.Alike options') {scope : Scope}
    (hs : scope.IsPlain)
    (hh : L.Handling env env' render render' ⟨tag, options, scope, scope⟩
      ⟨tag', options', scope, scope⟩) :
    L.Agrees (env.renderWith render budget tag options scope)
      (env'.renderWith render' budget tag' options' scope) := by
  have hocc : OccurrenceAlike nodes ⟨tag, options, scope, scope⟩ ⟨tag', options', scope, scope⟩ :=
    ⟨ht.children, ho, rfl, rfl, hs, hs⟩
  unfold Environment.renderWith
  rw [← ht.extension_eq, ← ht.name_eq]
  cases he : tag.extension with
  | some extension => exact h.renderExtensionTag ht budget ho hs extension
  | none =>
    cases hneg : Environment.negated? tag.name with
    | some name => exact h.renderNamed hocc budget true name
    | none =>
      cases hstructural : Structural.ofName? tag.name with
      | some structural => exact h.renderStructural hocc hh budget he hstructural
      | none => exact h.renderNamed hocc budget false tag.name

end Lockstep.Renders

end TagTemplate
