import TagTemplate.Proofs.Refetching
import TagTemplate.Proofs.Reordering.Values

/-!
# Pages with attributes in another order

The templates that are read in the two renderings differ in the order of attributes, and what the
extensions export is the same. Then every tag keeps the states of both in correspondence, and by
induction on the budget so do trees and pages.
-/

namespace TagTemplate

open Markup (Node Tag AttributeValue tagsOf tagsOfAttributes)
open TagTemplate.Action
open Lockstep

/-- Both succeed, with corresponding results, or both fail. -/
inductive EndAlike {ε ε' α β : Type} (R : α → β → Prop) : Except ε α → Except ε' β → Prop where
  | ok {x y} : R x y → EndAlike R (.ok x) (.ok y)
  | error (e e') : EndAlike R (.error e) (.error e')

/-- Two environments without filters whose templates differ in the order of attributes, and whose
extensions are the same plain values. -/
structure EnvironmentsReordered (shown : String → Prop) (env env' : Environment) : Prop where
  filters : env.filters = []
  filters' : env'.filters = []
  maxDepth : env.maxDepth = env'.maxDepth
  layoutPrefix : env.layoutPrefix = env'.layoutPrefix
  reading : env.read.isSome = env'.read.isSome
  templates : ∀ name,
    EndAlike (Option.Rel (TreesReordered shown)) (env.found name) (env'.found name)
  require : env.require = env'.require
  exports : ∀ require ∈ env.require, ∀ name v, require name = .ok (some v) →
    v.every HostValue.isPlain

def OwnReordered (shown : String → Prop) (own own' : OrderedMap (Option (List Node))) : Prop :=
  ∀ name, Option.Rel (Option.Rel (TreesReordered shown)) (own.lookup name) (own'.lookup name)

section Fetching

variable {shown : String → Prop} {env env' : Environment}
  {own own' : OrderedMap (Option (List Node))}

theorem plain_of_exports
    (hplain : ∀ require ∈ env.require, ∀ name v, require name = .ok (some v) →
      v.every HostValue.isPlain)
    {name : String} {c : Content} (h : env.Exports name (.ok (some c))) : c.IsPlain := by
  obtain ⟨host, hfetch, -⟩ := h {}
  exact Environment.fetchExtension_isPlain hplain hfetch

theorem relates_of_settles {α β : Type} {Q : α → β → Prop} {a : Action α} {b : Action β}
    {r : Except Fault α} {r' : Except Fault β} (ha : env.Settles own a r)
    (hb : env'.Settles own' b r') (h : ∀ x, r = .ok x → ∃ y, r' = .ok y ∧ Q x y) :
    (reordering shown env env' own own').Relates Q a b := by
  intro s t hst
  obtain ⟨host, templates, extensions, hs, -, hexact⟩ := ha s hst.left
  obtain ⟨host', templates', extensions', ht, -, hexact'⟩ := hb t hst.right
  rw [hs, ht]
  cases r with
  | error e => exact .excused trivial
  | ok x =>
    obtain ⟨y, rfl, hq⟩ := h x rfl
    exact .ok hq ⟨hst.blocks, hst.unnamed, hst.pending, hst.depth, hexact, hexact'⟩

variable (henv : EnvironmentsReordered shown env env')

include henv

theorem relates_template (hown : OwnReordered shown own own') (name : String) :
    (reordering shown env env' own own').Relates (Option.Rel (TreesReordered shown))
      (env.template name) (env'.template name) := by
  refine relates_of_settles (Environment.settles_template name)
    (Environment.settles_template name) fun nodes hnodes => ?_
  have hfound := henv.templates name
  have hkept := hown name
  unfold Environment.resolved at hnodes ⊢
  dsimp only at hnodes ⊢
  generalize own.lookup name = kept at hkept hnodes
  generalize own'.lookup name = kept' at hkept
  cases hkept with
  | some hns =>
    cases hnodes
    exact ⟨_, rfl, hns⟩
  | none =>
    dsimp only at hnodes ⊢
    rw [hnodes] at hfound
    generalize env'.found name = found' at hfound
    cases hfound with
    | ok hns => exact ⟨_, rfl, hns⟩

theorem relates_exported (name : String) :
    (reordering shown env env' own own').Relates (fun m m' => m = m' ∧ ∀ c ∈ m, c.IsPlain)
      (env.exported name) (env'.exported name) := by
  obtain ⟨result, hresult⟩ := Environment.exports_of_plain henv.exports name
  have hresult' : env'.Exports name result := by
    unfold Environment.Exports at *
    rwa [env'.fetchExtension_eq, ← henv.require, ← env.fetchExtension_eq]
  refine relates_of_settles (Environment.settles_exported hresult)
    (Environment.settles_exported hresult') fun m hm => ⟨m, hm, rfl, ?_⟩
  rintro c rfl
  subst hm
  exact plain_of_exports henv.exports hresult

end Fetching

section Rendering

variable {shown : String → Prop} {env env' : Environment}
  {own own' : OrderedMap (Option (List Node))}
  (henv : EnvironmentsReordered shown env env') (hown : OwnReordered shown own own')

theorem TreesReordered.isEmpty_eq {ns ns' : List Node} (h : TreesReordered shown ns ns') :
    ns.isEmpty = ns'.isEmpty := h.reordered.isEmpty_eq

theorem agrees_warning (warning : Warning) :
    (reordering shown env env' own own').Agrees (warn warning) (warn warning) :=
  agrees_update fun _ _ hs => { hs with }

include henv

theorem renders_reordered {render render' : Renderer}
    (hr : ∀ {ns ns'}, TreesReordered shown ns ns' → ∀ {scope : Scope}, scope.IsPlain →
      (reordering shown env env' own own').Agrees (render ns scope) (render' ns' scope)) :
    (reordering shown env env' own own').Renders (TreesReordered shown) env env' render
      render' where
  filters := henv.filters
  filters' := henv.filters'
  allowed _ := trivial
  exported := relates_exported henv
  isEmpty := TreesReordered.isEmpty_eq
  render := hr

include hown

theorem relates_renderInclude {render render' : Renderer}
    (h : (reordering shown env env' own own').Renders (TreesReordered shown) env env' render
      render')
    {o o' : Occurrence} (ho : OccurrenceAlike (TreesReordered shown) o o') :
    (reordering shown env env' own own').Agrees (env.renderInclude render o)
      (env'.renderInclude render' o') := by
  have hdeeper : env'.oneDeeper = env.oneDeeper := by
    unfold Environment.oneDeeper
    rw [henv.maxDepth]
  unfold Environment.renderInclude
  rw [ho.options, hdeeper, ← ho.scope]
  split
  · exact Agrees.bind (agrees_warning _) fun _ => agrees_pure _
  · exact Agrees.bind (agrees_warning _) fun _ => agrees_pure _
  · refine Relates.bind (relates_template henv hown _) fun nodes nodes' hnodes => ?_
    cases hnodes with
    | none => exact agrees_pure _
    | some hnodes =>
      refine relates_oneDeeper (fun _ => trivial) ReorderedStates.depth ?_ ?_ _ ?_
      · exact fun hs d => { hs with depth := rfl }
      · exact fun hs => { hs with depth := congrArg (· - 1) hs.depth }
      · exact Agrees.bind (h.render hnodes ho.plain) fun text => h.finish text ho.options

omit henv hown in
theorem relates_renderLayout {o o' : Occurrence}
    (ho : OccurrenceAlike (TreesReordered shown) o o') :
    (reordering shown env env' own own').Agrees (Environment.renderLayout o)
      (Environment.renderLayout o') := by
  unfold Environment.renderLayout
  rw [ho.options]
  split
  · exact agrees_pure _
  · exact agrees_pure _
  · refine Agrees.bind (agrees_update fun s t hs => ?_) fun _ => agrees_pure _
    refine { hs with pending := ?_ }
    rw [Registry.pending_requestLayout, Registry.pending_requestLayout, hs.pending]

omit henv hown in
theorem relates_renderBlock {o o' : Occurrence} (ho : OccurrenceAlike (TreesReordered shown) o o')
    (hquiet : ∀ region, o.options.lookup "region" = some region → shown region →
      Everywhere (Quiet shown) o.tag.children) :
    (reordering shown env env' own own').Agrees (Environment.renderBlock o)
      (Environment.renderBlock o') := by
  unfold Environment.renderBlock
  rw [← ho.options]
  split
  · exact agrees_pure _
  · exact agrees_pure _
  · next region hne hregion =>
    refine Agrees.bind (agrees_update fun s t hs => ?_) fun _ => agrees_pure _
    have hblock : BlockReordered shown region ⟨o.tag.children, o.scope⟩
        ⟨o'.tag.children, o'.scope⟩ :=
      ⟨ho.children, hquiet region hregion, ho.scope, ho.plain⟩
    refine { hs with blocks := fun other => ?_, unnamed := ?_ }
    · have hother := hs.blocks other
      rw [Registry.lookup_addBlock, Registry.lookup_addBlock]
      generalize s.registry.blocks.lookup other = b at hother
      generalize t.registry.blocks.lookup other = b' at hother
      cases hother with
      | some hkept => exact .some hkept
      | none =>
        -- neither had a block for this region, and now both have the one of the tag if it is theirs
        simp only [Option.none_or]
        split
        · next heq => exact .some (heq ▸ hblock)
        · exact .none
    · rw [Registry.lookup_addBlock, hs.unnamed, Option.none_or, if_neg (Ne.symm hne)]

omit henv hown in
theorem relates_renderRegion {render render' : Renderer}
    (h : (reordering shown env env' own own').Renders (TreesReordered shown) env env' render
      render')
    {o o' : Occurrence} (ho : OccurrenceAlike (TreesReordered shown) o o') :
    (reordering shown env env' own own').Agrees (env.renderRegion render o)
      (env'.renderRegion render' o') := by
  have hfind : ∀ region, (reordering shown env env' own own').Relates
      (Option.Rel (BlockReordered shown region)) (Environment.findBlock region)
      (Environment.findBlock region) :=
    fun region s t hs => .ok (hs.blocks region) { hs with }
  unfold Environment.renderRegion
  rw [← ho.options]
  refine Relates.bind (hfind _) fun b b' hb => ?_
  cases hb with
  | none => exact h.finishEnclosed ho
  | some hb =>
    dsimp only
    rw [← hb.scope]
    exact Agrees.bind (h.render hb.nodes hb.plain) fun text => h.finish text ho.options

omit henv hown in
theorem trees_attributes {as as' : List (String × AttributeValue)}
    (h : List.Forall₂ (AttributeAgrees Reordered) as as')
    (ho : ∀ t ∈ tagsOfAttributes as, Orderly shown t) :
    List.Forall₂ (AttributeAgrees (TreesReordered shown)) as as' := by
  induction h with
  | nil => exact .nil
  | cons hp _ ih =>
    rw [tagsOfAttributes, List.forall_mem_append] at ho
    refine .cons ?_ (ih ho.2)
    cases hp with
    | literal key text => exact .literal key text
    | markup key hns => exact .markup key ⟨hns, ho.1⟩

omit henv hown in
theorem trees_tag {tag tag' : Tag} (h : TagPermuted Reordered tag tag')
    (ho : ∀ t ∈ tag.innerTags, Orderly shown t) : TagPermuted (TreesReordered shown) tag tag' := by
  have hchildren := everywhere_children ho
  cases h with
  | mk ha hp hc =>
    refine .mk (trees_attributes ha fun t ht => ho t ?_) hp ⟨hc, hchildren⟩
    simp [innerTags_eq, ht]

theorem relates_renderTag (budget : Nat)
    (hr : ∀ {ns ns'}, TreesReordered shown ns ns' → ∀ {scope : Scope}, scope.IsPlain →
      (reordering shown env env' own own').Agrees (env.render budget ns scope)
        (env'.render budget ns' scope))
    {tag tag' : Tag} (ht : TagPermuted (TreesReordered shown) tag tag') (ho : Orderly shown tag)
    {scope : Scope} (hs : scope.IsPlain) :
    (reordering shown env env' own own').Agrees
      (env.renderTag (env.render budget) budget tag scope)
      (env'.renderTag (env'.render budget) budget tag' scope) := by
  have h := renders_reordered henv hr
  refine Relates.bind (relates_optionsOf hr (fun hns _ _ _ _ => quiet_render hns) ht ho hs) ?_
  rintro options options' ⟨halike, hcarry⟩
  have hocc : OccurrenceAlike (TreesReordered shown) ⟨tag, options, scope, scope⟩
      ⟨tag', options', scope, scope⟩ :=
    ⟨ht.children, halike, rfl, rfl, hs, hs⟩
  have hh : (reordering shown env env' own own').Handling env env' (env.render budget)
      (env'.render budget) ⟨tag, options, scope, scope⟩ ⟨tag', options', scope, scope⟩ :=
    { includes := relates_renderInclude henv hown h hocc
      layouts := relates_renderLayout hocc
      blocks := fun hb => relates_renderBlock hocc fun region hregion =>
        ho.body hb region (hcarry _ _ hregion)
      regions := relates_renderRegion h hocc }
  refine Agrees.bind (h.renderWith ht budget halike hs hh) fun text => ?_
  rw [halike.orDefault]
  exact agrees_pure _

theorem relates_render (budget : Nat) : ∀ {ns ns'}, TreesReordered shown ns ns' →
    ∀ {scope : Scope}, scope.IsPlain → (reordering shown env env' own own').Agrees
      (env.render budget ns scope) (env'.render budget ns' scope) := by
  induction budget with
  | zero => exact fun _ _ _ => relates_fail trivial
  | succ budget ih =>
    rintro ns ns' ⟨hns, ho⟩ scope hs
    rw [Environment.render_succ, Environment.render_succ]
    induction ns generalizing ns' with
    | nil =>
      cases hns
      rw [Environment.renderNodes_nil, Environment.renderNodes_nil]
      exact agrees_pure _
    | cons n ns ihns =>
      cases hns with
      | text value hns =>
        rw [Environment.renderNodes_cons, Environment.renderNodes_cons]
        exact Agrees.bind (agrees_pure value) fun _ => (ihns hns ho.of_text).map
      | tag ht hns =>
        obtain ⟨htag, hinner, hrest⟩ := everywhere_tag.1 ho
        rw [Environment.renderNodes_cons, Environment.renderNodes_cons]
        refine Agrees.bind ?_ fun _ => (ihns hns hrest).map
        exact relates_renderTag henv hown budget ih (trees_tag ht hinner) htag hs

theorem relates_applyLayouts (budget : Nat) {root : Scope} (hroot : root.IsPlain)
    (remaining : Nat) : ∀ output, (reordering shown env env' own own').Agrees
      (env.applyLayouts budget root remaining output)
      (env'.applyLayouts budget root remaining output) := by
  have htake : (reordering shown env env' own own').Agrees Environment.takeLayout
      Environment.takeLayout :=
    fun s t hs => .ok hs.pending { hs with pending := rfl }
  induction remaining with
  | zero =>
    intro output
    unfold Environment.applyLayouts
    refine Agrees.bind htake fun name => ?_
    cases name with
    | none => exact agrees_pure output
    | some name => exact relates_of_excused trivial
  | succ remaining ih =>
    intro output
    unfold Environment.applyLayouts Environment.layout
    refine Agrees.bind htake fun name => ?_
    cases name with
    | none => exact agrees_pure output
    | some name =>
      dsimp only
      rw [← henv.layoutPrefix]
      refine Relates.bind (relates_template henv hown _) fun nodes nodes' hnodes => ?_
      cases hnodes with
      | none => exact Agrees.bind (agrees_warning _) fun _ => agrees_pure output
      | some hnodes => exact Agrees.bind (relates_render henv hown budget hnodes hroot) ih

theorem relates_compose (budget : Nat) {ns ns' : List Node} (hns : TreesReordered shown ns ns')
    {root : Scope} (hroot : root.IsPlain) :
    (reordering shown env env' own own').Agrees (env.compose budget ns root)
      (env'.compose budget ns' root) := by
  unfold Environment.compose
  rw [← henv.maxDepth]
  refine Agrees.bind (relates_render henv hown budget hns hroot) ?_
  exact relates_applyLayouts henv hown budget hroot env.maxDepth

omit henv hown in
theorem renderPage_plain {content : HostValue} (hc : content.every HostValue.isPlain) :
    ∃ root : Scope, root.IsPlain ∧ ∀ (env : Environment) budget nodes,
      env.renderPage budget nodes content = env.guardRecursion (env.compose budget nodes root) := by
  have hpage : (Environment.pageContent content).every HostValue.isPlain := by
    cases content with
    | null => rfl
    | _ => exact hc
  refine ⟨⟨{ value := (Environment.pageContent content).plainContent }, []⟩, ?_, ?_⟩
  · intro f hf
    cases List.mem_singleton.1 hf
    exact ⟨HostValue.isPlain_plainContent hpage, nofun⟩
  · intro env budget nodes
    unfold Environment.renderPage Scope.ofHost
    rw [HostValue.refresh_eq_pure (fun _ _ => rfl) _ hpage, pure_bind,
      Content.ofHost_eq_pure (HostValue.every_self hpage), pure_bind, pure_bind]

omit henv hown in
theorem guarded_eq_ok (env : Environment) {result : Except Fault String} {output : String} :
    env.guarded result = .ok output ↔ result = .ok output := by
  rcases result with fault | text
  · cases fault with
    | raised kind message => cases kind <;> exact ⟨nofun, nofun⟩
    | _ => exact ⟨nofun, nofun⟩
  · exact Iff.rfl

theorem result_renderPage (budget : Nat) {ns ns' : List Node} (hns : TreesReordered shown ns ns')
    {content : HostValue} (hc : content.every HostValue.isPlain) {s t : State}
    (hst : ReorderedStates shown env env' own own' s t) {output : String}
    (h : (perform (env.renderPage budget ns content) s).1 = .ok output) :
    (perform (env'.renderPage budget ns' content) t).1 = .ok output := by
  obtain ⟨root, hroot, hpage⟩ := renderPage_plain hc
  rw [hpage, Environment.perform_guardRecursion, guarded_eq_ok] at h ⊢
  have ho := relates_compose henv hown budget hns hroot s t hst
  generalize perform (env.compose budget ns root) s = r at ho h
  generalize perform (env'.compose budget ns' root) t = r' at ho
  cases ho with
  | ok hx _ => exact hx ▸ h
  | error => cases h
  | excused => cases h

end Rendering

end TagTemplate
