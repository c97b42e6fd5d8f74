import TagTemplate.Proofs.Fetching
import TagTemplate.Proofs.Lockstep.Page

/-!
# Layouts are filled

A page that asks for a layout and keeps blocks for it comes out as the layout with the blocks in the
place of what the regions enclose. The page itself only asks and keeps: its output is dropped. The
layout is then rendered in lockstep with the filled one, where one run finds a block and the other
one finds the same nodes inside the region.
-/

namespace TagTemplate

open Markup (Node Tag AttributeValue tagsOf tagsOfAttributes)
open TagTemplate.Action

/-- What a page is made of that asks for a layout. The attributes of its blocks are literal. -/
inductive PagePart where
  | text (value : String)
  | layout
  | block (attributes : List (String × String)) (body : List Node)

namespace PagePart

/-- The node for a part of a page that asks for the layout `n`. -/
def node (n : String) : PagePart → Node
  | text value => .text value
  | layout => .tag ⟨"layout", none, [("name", .literal n)], [], true⟩
  | block attributes body =>
    .tag ⟨"block", none, attributes.map fun p => (p.1, .literal p.2), body, false⟩

/-- The region that a block fills, and its body. An empty name is no region. -/
def filling? : PagePart → Option (String × List Node)
  | text _ | layout => none
  | block attributes body =>
    match attributes.lookup "region" with
    | none | some "" => none
    | some region => some (region, body)

def collect (n : String) (root : Scope) (r : Registry) : PagePart → Registry
  | layout => r.requestLayout n
  | part =>
    match part.filling? with
    | none => r
    | some (region, body) => r.addBlock region ⟨body, root⟩

end PagePart

/-- The bodies of the blocks of a page, by region. -/
def fillings (parts : List PagePart) : OrderedMap (List Node) := parts.filterMap PagePart.filling?

/-- The tag neither fetches a template nor keeps a block. -/
def Plain (tag : Tag) : Prop :=
  tag.extension = none → tag.name ≠ "include" ∧ tag.name ≠ "layout" ∧ tag.name ≠ "block"

instance : DecidablePred Plain := fun _ => inferInstanceAs (Decidable (_ → _))

/-- The tag is a region. -/
def IsRegion (tag : Tag) : Prop := tag.extension = none ∧ tag.name = "region"

instance : DecidablePred IsRegion := fun _ => inferInstanceAs (Decidable (_ ∧ _))

def bodyFor (bodies : OrderedMap (List Node)) (tag : Tag) : Option (List Node) :=
  match tag.extension, tag.name with
  | none, "region" => (tag.literal? "name").bind fun name => bodies.lookup name
  | _, _ => none

def filledNode (bodies : OrderedMap (List Node)) : Node → Node
  | .text value => .text value
  | .tag tag =>
    match bodyFor bodies tag with
    | none => .tag tag
    | some body => .tag { tag with children := body }

/-- A layout with the bodies in its regions. -/
def filled (bodies : OrderedMap (List Node)) (nodes : List Node) : List Node :=
  nodes.map (filledNode bodies)

/-- A layout whose regions have literal names, those that have a body standing at the top. -/
structure Fillable (bodies : OrderedMap (List Node)) (nodes : List Node) : Prop where
  plain : Everywhere Plain nodes
  named : Everywhere (fun tag => IsRegion tag → (tag.literal? "name").isSome) nodes
  top : ∀ tag, Node.tag tag ∈ nodes → ∀ t ∈ tag.innerTags, bodyFor bodies t = none

section Collecting

variable {n : String} {root : Scope}

namespace PagePart

theorem collect_pending {part : PagePart} (h : part ≠ .layout) (r : Registry) :
    (part.collect n root r).pending = r.pending := by
  unfold collect
  split
  · exact absurd rfl h
  · split
    · rfl
    · exact Registry.pending_addBlock _ _ _

theorem collect_lookup (part : PagePart) (r : Registry) (region : String) :
    (part.collect n root r).blocks.lookup region =
      (r.blocks.lookup region).or
        (((fillings [part]).lookup region).map fun body => ⟨body, root⟩) := by
  cases part with
  | text value => simp [collect, fillings, filling?, List.filterMap_cons]
  | layout => simp [collect, fillings, filling?, List.filterMap_cons, Registry.blocks_requestLayout]
  | block attributes body =>
    cases hf : (block attributes body).filling? with
    | none => simp [collect, fillings, hf]
    | some p =>
      obtain ⟨name, body'⟩ := p
      simp only [collect, fillings, hf, Registry.lookup_addBlock, List.filterMap_cons,
        List.filterMap_nil]
      by_cases hr : region = name
      · simp [hr]
      · simp [hr, List.lookup_cons, beq_eq_false_iff_ne.2 hr]

end PagePart

theorem collect_blocks (parts : List PagePart) (r : Registry) (region : String) :
    (parts.foldl (PagePart.collect n root) r).blocks.lookup region =
      (r.blocks.lookup region).or
        (((fillings parts).lookup region).map fun body => ⟨body, root⟩) := by
  induction parts generalizing r with
  | nil => simp [fillings]
  | cons part parts ih =>
    have hcons : fillings (part :: parts) = fillings [part] ++ fillings parts :=
      List.filterMap_append (l := [part])
    rw [List.foldl_cons, ih, PagePart.collect_lookup, hcons, List.lookup_append, Option.or_assoc,
      Option.map_or]

theorem collect_pending_of_some (parts : List PagePart) {r : Registry} (h : r.pending = some n) :
    (parts.foldl (PagePart.collect n root) r).pending = some n := by
  induction parts generalizing r with
  | nil => exact h
  | cons part parts ih =>
    apply ih
    by_cases hp : part = .layout
    · subst hp
      simp [PagePart.collect, Registry.pending_requestLayout, h]
    · rw [PagePart.collect_pending hp, h]

theorem collect_pending_of_mem {parts : List PagePart} (hl : PagePart.layout ∈ parts)
    {r : Registry} (h : r.pending = none) :
    (parts.foldl (PagePart.collect n root) r).pending = some n := by
  induction parts generalizing r with
  | nil => cases hl
  | cons part parts ih =>
    rw [List.foldl_cons]
    by_cases hp : part = .layout
    · subst hp
      apply collect_pending_of_some
      simp [PagePart.collect, Registry.pending_requestLayout, h]
    · apply ih
      · exact (List.mem_cons.1 hl).resolve_left (Ne.symm hp)
      · rw [PagePart.collect_pending hp, h]

variable (root)

theorem optionsOf_literal (render : Renderer) (attributes : List (String × String)) (name : String)
    (extension : Option String) (body : List Node) (closing : Bool) :
    optionsOf render root
        ⟨name, extension, attributes.map fun p => (p.1, .literal p.2), body, closing⟩ =
      pure attributes := by
  unfold optionsOf
  dsimp only
  induction attributes with
  | nil => rfl
  | cons p attributes ih =>
    rw [List.map_cons, List.mapM_cons, ih]
    rfl

theorem optionsOf_of_literal (render : Renderer) {tag : Tag} {attributes : List (String × String)}
    (h : tag.attributes = attributes.map fun p => (p.1, .literal p.2)) :
    optionsOf render root tag = pure attributes := by
  obtain ⟨name, extension, written, body, closing⟩ := tag
  obtain rfl : written = attributes.map fun p => (p.1, .literal p.2) := h
  exact optionsOf_literal root render attributes name extension body closing

theorem perform_part (env : Environment) (hn : n ≠ "") (render : Renderer) (budget : Nat)
    (part : PagePart) (s : State) :
    ∃ text, perform (env.renderNode render budget root (part.node n)) s =
      (.ok text, { s with registry := part.collect n root s.registry }) := by
  cases part with
  | text value => exact ⟨value, rfl⟩
  | layout =>
    have hoptions : optionsOf render root ⟨"layout", none, [("name", .literal n)], [], true⟩ =
        pure [("name", n)] := optionsOf_literal root render [("name", n)] "layout" none [] true
    refine ⟨orDefault "" [("name", n)], ?_⟩
    simp only [PagePart.node, Environment.renderNode, Environment.renderTag, hoptions, pure_bind]
    rw [env.renderWith_structural render budget .layout rfl rfl]
    simp only [Environment.renderStructural, Environment.renderLayout, List.lookup_cons_self]
    rfl
  | block attributes body =>
    have hoptions := optionsOf_literal root render attributes "block" none body false
    refine ⟨orDefault "" attributes, ?_⟩
    simp only [PagePart.node, Environment.renderNode, Environment.renderTag, hoptions, pure_bind]
    rw [env.renderWith_structural render budget .block rfl rfl]
    simp only [Environment.renderStructural, Environment.renderBlock, PagePart.collect,
      PagePart.filling?]
    cases attributes.lookup "region" with
    | none => rfl
    | some region =>
      by_cases hr : region = ""
      · subst hr
        rfl
      · simp only
        rfl

theorem perform_parts (env : Environment) (hn : n ≠ "") (render : Renderer) (budget : Nat)
    (parts : List PagePart) (s : State) :
    ∃ text, perform (env.renderNodes render budget (parts.map (PagePart.node n)) root) s =
      (.ok text, { s with registry := parts.foldl (PagePart.collect n root) s.registry }) := by
  induction parts generalizing s with
  | nil => exact ⟨"", by simp [env.renderNodes_nil]⟩
  | cons part parts ih =>
    obtain ⟨text, ht⟩ := perform_part root env hn render budget part s
    obtain ⟨rest, hr⟩ := ih { s with registry := part.collect n root s.registry }
    refine ⟨text ++ rest, ?_⟩
    rw [List.map_cons, env.renderNodes_cons, perform_bind_ok ht, perform_bind_ok hr]
    rfl

theorem perform_page (env : Environment) (hn : n ≠ "") (budget : Nat) {parts : List PagePart}
    (hl : .layout ∈ parts) {s : State} (hs : s.registry = {}) :
    ∃ text r, perform (env.render (budget + 1) (parts.map (PagePart.node n)) root) s =
        (.ok text, { s with registry := r }) ∧ r.pending = some n ∧
      ∀ region, r.blocks.lookup region =
        ((fillings parts).lookup region).map fun body => ⟨body, root⟩ := by
  obtain ⟨text, ht⟩ := perform_parts root env hn (env.render budget) budget parts s
  refine ⟨text, _, ht, ?_, fun region => ?_⟩
  · exact collect_pending_of_mem hl (congrArg Registry.pending hs)
  · rw [collect_blocks, hs]
    rfl

end Collecting

def Unfilled (bodies : OrderedMap (List Node)) (tag : Tag) : Prop :=
  Plain tag ∧ (IsRegion tag → ∃ name, tag.literal? "name" = some name ∧ bodies.lookup name = none)

/-- The states of two renderings, of a layout with its blocks kept and of the filled layout. -/
structure FillingStates (bodies : OrderedMap (List Node)) (root : Scope) (s t : State) : Prop where
  host : s.host.Agrees t.host
  extensions : s.extensions = t.extensions
  blocks : ∀ region, s.registry.blocks.lookup region =
    (bodies.lookup region).map fun body => ⟨body, root⟩
  blocks' : t.registry.blocks = []
  pending : s.registry.pending = none

def filling (bodies : OrderedMap (List Node)) (root : Scope) : Lockstep where
  states := FillingStates bodies root

variable {bodies : OrderedMap (List Node)} {root : Scope} {env : Environment}

theorem bodyFor_region {tag : Tag} (h : IsRegion tag) {name : String}
    (hn : tag.literal? "name" = some name) : bodyFor bodies tag = bodies.lookup name := by
  obtain ⟨he, ht⟩ := h
  simp [bodyFor, he, ht, hn]

theorem isRegion_of_bodyFor {tag : Tag} {body : List Node} (h : bodyFor bodies tag = some body) :
    IsRegion tag ∧ ∃ name, tag.literal? "name" = some name ∧ bodies.lookup name = some body := by
  unfold bodyFor at h
  split at h
  · next he hn => exact ⟨⟨he, hn⟩, Option.bind_eq_some_iff.1 h⟩
  · cases h

theorem unfilled_of_bodyFor {tag : Tag} (hp : Plain tag)
    (hn : IsRegion tag → (tag.literal? "name").isSome) (hb : bodyFor bodies tag = none) :
    Unfilled bodies tag := by
  refine ⟨hp, fun hr => ?_⟩
  obtain ⟨name, hname⟩ := Option.isSome_iff_exists.1 (hn hr)
  exact ⟨name, hname, bodyFor_region hr hname ▸ hb⟩

theorem Fillable.unfilled_inner {tag : Tag} {nodes : List Node}
    (h : Fillable bodies (.tag tag :: nodes)) : ∀ t ∈ tag.innerTags, Unfilled bodies t := by
  intro t ht
  have hp := (everywhere_tag.1 h.plain).2.1 t ht
  have hn := (everywhere_tag.1 h.named).2.1 t ht
  exact unfilled_of_bodyFor hp hn (h.top tag (by simp) t ht)

theorem Fillable.tail {node : Node} {nodes : List Node} (h : Fillable bodies (node :: nodes)) :
    Fillable bodies nodes := by
  have hsub : ∀ t ∈ tagsOf nodes, t ∈ tagsOf (node :: nodes) := by
    intro t ht
    simp [tagsOf, ht]
  refine ⟨fun t ht => h.plain t (hsub t ht), fun t ht => h.named t (hsub t ht), ?_⟩
  exact fun tag htag => h.top tag (List.mem_cons_of_mem _ htag)

namespace Lockstep

theorem filling_closed : (filling bodies root).Closed := by
  refine .of_agrees (fun hs => hs.host) (fun hs => hs.extensions) ?_ (fun _ => trivial)
    fun _ _ _ _ => ⟨id, id⟩
  intro s t hs h h' extensions _ hh
  exact { hs with host := hh, extensions := rfl }

theorem filling_handlers {render render' : Renderer}
    (hr : ∀ ns scope, Everywhere (Unfilled bodies) ns →
      (filling bodies root).Agrees (render ns scope) (render' ns scope))
    {tag : Tag} (ht : Unfilled bodies tag) (hc : Everywhere (Unfilled bodies) tag.children) :
    (filling bodies root).Handlers env env render render' tag tag := by
  obtain ⟨hp, hregion⟩ := ht
  refine ⟨?_, ?_, ?_, ?_⟩
  · exact fun he hn => absurd hn (hp he).1
  · exact fun he hn => absurd hn (hp he).2.1
  · exact fun he hn => absurd hn (hp he).2.2
  · intro he hn options scope hf
    obtain ⟨name, hname, hnone⟩ := hregion ⟨he, hn⟩
    have hlookup : ∀ s t, FillingStates bodies root s t →
        Option.Rel (fun _ _ : Block => False)
          (s.registry.blocks.lookup ((options.lookup "name").getD ""))
          (t.registry.blocks.lookup ((options.lookup "name").getD "")) := by
      intro s t hs
      rw [hf.literal hname, Option.getD_some, hs.blocks, hs.blocks', hnone]
      exact .none
    refine agrees_renderRegion hlookup ?_ ?_ (hr _ scope hc) fun _ _ => False.elim
    · exact fun _ s t hs => { hs with }
    · exact fun text => filling_closed.host.finish rfl text options

theorem filling_unfilled (budget : Nat) {ns : List Node} (h : Everywhere (Unfilled bodies) ns)
    (scope : Scope) :
    (filling bodies root).Agrees (env.render budget ns scope) (env.render budget ns scope) :=
  render_agrees (L := fun _ : Unit => filling bodies root) (fun _ => filling_closed.host) rfl
    (fun _ => filling_closed.exported env fun _ _ _ _ _ => trivial) (fun _ => trivial)
    (fun _ _ hr _ _ ht hc => filling_handlers (hr ()) ht hc) budget () ns scope h

theorem filling_pairing (budget : Nat) :
    (filling bodies root).Pairing .same (SameTree (Unfilled bodies)) env env (env.render budget)
      (env.render budget) budget budget := by
  refine pairing_sameTree filling_closed.host rfl ?_ trivial ?_ budget
  · exact filling_closed.exported env fun _ _ _ _ _ => trivial
  · exact fun ns scope h => filling_unfilled budget h scope

theorem filling_region (budget : Nat) {tag : Tag} {body : List Node}
    (hbody : bodyFor bodies tag = some body) (hb : Everywhere (Unfilled bodies) body)
    (hinner : ∀ t ∈ tag.innerTags, Unfilled bodies t) :
    (filling bodies root).Agrees (env.renderTag (env.render budget) budget tag root)
      (env.renderTag (env.render budget) budget { tag with children := body } root) := by
  obtain ⟨⟨he, hn⟩, name, hname, hsome⟩ := isRegion_of_bodyFor hbody
  have hp : (filling bodies root).Pairing .same (SameTree (Unfilled bodies)) env env (env.render budget)
      (env.render budget) budget budget := filling_pairing budget
  refine Relates.bind (hp.optionsOf (sameTree_tag hinner) rfl) ?_
  rintro options _ ⟨rfl, hf⟩
  refine Agrees.map ?_
  rw [env.renderWith_structural _ budget .region he hn,
    @Environment.renderWith_structural env _ budget { tag with children := body } .region he hn]
  unfold Environment.renderStructural Environment.renderRegion
  simp only [hf.literal hname, Option.getD_some]
  refine Relates.bind (Q := fun b b' => b = some ⟨body, root⟩ ∧ b' = none) ?_ ?_
  · intro s t hs
    refine .ok ?_ { hs with }
    change s.registry.blocks.lookup name = _ ∧ t.registry.blocks.lookup name = _
    rw [hs.blocks, hs.blocks', hsome]
    exact ⟨rfl, rfl⟩
  · rintro _ _ ⟨rfl, rfl⟩
    refine Agrees.bind (filling_unfilled budget hb root) fun text => ?_
    exact filling_closed.host.finish rfl text options

theorem filling_filled (hb : ∀ p ∈ bodies, Everywhere (Unfilled bodies) p.2) {nodes : List Node}
    (h : Fillable bodies nodes) (budget : Nat) :
    (filling bodies root).Agrees (env.render budget nodes root)
      (env.render budget (filled bodies nodes) root) := by
  cases budget with
  | zero => exact relates_fail trivial
  | succ budget =>
    rw [env.render_succ, env.render_succ]
    induction nodes with
    | nil => exact agrees_pure _
    | cons node nodes ih =>
      have hcons : filled bodies (node :: nodes) = filledNode bodies node :: filled bodies nodes :=
        rfl
      rw [hcons, env.renderNodes_cons, env.renderNodes_cons]
      refine Agrees.bind ?_ fun _ => (ih h.tail).map
      cases node with
      | text value => exact agrees_pure value
      | tag tag =>
        cases hbody : bodyFor bodies tag with
        | none =>
          have hnode : filledNode bodies (.tag tag) = .tag tag := by simp [filledNode, hbody]
          have htag := unfilled_of_bodyFor (everywhere_tag.1 h.plain).1 (everywhere_tag.1 h.named).1
            hbody
          have hinner := h.unfilled_inner
          rw [hnode]
          refine (filling_pairing budget).renderTag_same (sameTree_tag hinner) ?_ root
          refine filling_handlers ?_ htag (everywhere_children hinner)
          exact fun _ scope hns => filling_unfilled budget hns scope
        | some body =>
          have hnode : filledNode bodies (.tag tag) = .tag { tag with children := body } := by
            simp [filledNode, hbody]
          obtain ⟨-, name, -, hsome⟩ := isRegion_of_bodyFor hbody
          obtain ⟨before, after, hsplit, -⟩ := List.lookup_eq_some_iff.1 hsome
          have hmem : (name, body) ∈ bodies := by simp [hsplit]
          rw [hnode]
          exact filling_region budget hbody (hb _ hmem) h.unfilled_inner

end Lockstep

theorem perform_takeLayout (s : State) :
    perform Environment.takeLayout s =
      (.ok s.registry.takeLayout.1, { s with registry := s.registry.takeLayout.2 }) := rfl

theorem perform_applyLayouts_none (budget remaining : Nat) (output : String) {s : State}
    (h : s.registry.pending = none) :
    (perform (env.applyLayouts budget root remaining output) s).1 = .ok output := by
  have htake := perform_takeLayout s
  rw [s.registry.takeLayout_fst, h] at htake
  unfold Environment.applyLayouts
  rw [perform_bind_ok htake]
  rfl

theorem layout_registry (env : Environment) (n : String) (s : State) (r : Registry) :
    (perform (env.layout n) { s with registry := r }).1 = (perform (env.layout n) s).1 := by
  unfold Environment.layout
  rw [env.perform_template, env.perform_template]
  rfl

theorem perform_applyLayouts_some (env : Environment) (budget remaining : Nat) (root : Scope)
    (output : String) {n : String} {nodes : List Node} {s : State} (h : s.registry.pending = some n)
    (hread : (perform (env.layout n) s).1 = .ok (some nodes)) :
    ∃ t : State,
      perform (env.applyLayouts budget root (remaining + 1) output) s =
        perform (do env.applyLayouts budget root remaining (← env.render budget nodes root)) t ∧
      t.host.Agrees s.host ∧ t.extensions = s.extensions ∧
      t.registry.blocks = s.registry.blocks ∧ t.registry.pending = none := by
  have hkept := s.registry.blocks_takeLayout
  have hnone := s.registry.pending_takeLayout
  have htake := perform_takeLayout s
  rw [s.registry.takeLayout_fst, h] at htake
  rw [← layout_registry env n s s.registry.takeLayout.2] at hread
  obtain ⟨templates, host, hlooked, ha⟩ :=
    env.looked_eq (env.layoutPrefix ++ n) { s with registry := s.registry.takeLayout.2 }
  have hlayout := env.perform_template (env.layoutPrefix ++ n)
    { s with registry := s.registry.takeLayout.2 }
  unfold Environment.layout at hread
  rw [hlayout] at hread
  rw [hlooked, show env.resolved _ _ = _ from hread] at hlayout
  refine ⟨{ s with templates, host, registry := s.registry.takeLayout.2 }, ?_, ha, rfl, hkept,
    hnone⟩
  rw [Environment.applyLayouts, perform_bind_ok htake]
  exact perform_bind_ok hlayout

/-- The page of a layout and its blocks, rendered in two passes, is the filled layout. -/
theorem compose_eq_render_filled (env : Environment) (hd : 0 < env.maxDepth) {n : String}
    (hn : n ≠ "") {parts : List PagePart} (hl : .layout ∈ parts) {nodes : List Node}
    (hf : Fillable (fillings parts) nodes)
    (hb : ∀ p ∈ fillings parts, Everywhere (fun tag => Plain tag ∧ ¬ IsRegion tag) p.2)
    (budget : Nat) (root : Scope) (s : State) (hs : s.registry = {})
    (hread : (perform (env.layout n) s).1 = .ok (some nodes)) :
    (perform (env.compose budget (parts.map (PagePart.node n)) root) s).1 =
      (perform (env.render budget (filled (fillings parts) nodes) root) s).1 := by
  cases budget with
  | zero => rfl
  | succ budget =>
    obtain ⟨text, r, hpage, hpending, hblocks⟩ := perform_page root env hn budget hl hs
    rw [← layout_registry env n s r] at hread
    obtain ⟨remaining, hr⟩ : ∃ k, env.maxDepth = k + 1 := ⟨env.maxDepth - 1, by omega⟩
    obtain ⟨t, hnext, ha, he, hkept, hnone⟩ :=
      perform_applyLayouts_some env (budget + 1) remaining root text hpending hread
    have hstates : FillingStates (fillings parts) root t s :=
      ⟨ha, he, fun region => by rw [hkept, hblocks], by rw [hs], hnone⟩
    have hunfilled : ∀ p ∈ fillings parts, Everywhere (Unfilled (fillings parts)) p.2 :=
      fun p hp tag ht => ⟨(hb p hp tag ht).1, fun h => absurd h (hb p hp tag ht).2⟩
    have hlockstep : (filling (fillings parts) root).Agrees (env.render (budget + 1) nodes root)
        (env.render (budget + 1) (filled (fillings parts) nodes) root) :=
      Lockstep.filling_filled hunfilled hf (budget + 1)
    have ho := hlockstep t s hstates
    unfold Environment.compose
    rw [perform_bind_ok hpage, hr, hnext, perform_bind]
    generalize perform (env.render (budget + 1) nodes root) t = x at ho
    generalize perform (env.render (budget + 1) (filled (fillings parts) nodes) root) s = y at ho
    cases ho with
    | ok hxy hst => rw [perform_applyLayouts_none _ _ _ hst.pending, hxy]
    | error _ _ => rfl
    | excused h => exact h.elim

theorem compose_eq_render_filled_example :
    let region := fun ns => Node.tag ⟨"region", none, [("name", .literal "r")], ns, false⟩
    let nodes := [.text "<", region [.text "own"], .text ">"]
    let s : State := { templates := [("layouts/n", some nodes)] }
    let root : Scope := ⟨{ value := .null }, []⟩
    let parts := [.text "dropped", .layout, .block [("region", "r")] [.text "B"]]
    (perform (Environment.compose {} 3 (parts.map (PagePart.node "n")) root) s).1 = .ok "<B>" ∧
      (perform (Environment.compose {} 3 (parts.map (PagePart.node "n")) root) s).1 =
        (perform (Environment.render {} 3 (filled (fillings parts) nodes) root) s).1 := by
  intro region nodes s root parts
  have hf : Fillable (fillings parts) nodes := by
    refine ⟨by decide, by decide, ?_⟩
    simp [nodes, region, Tag.innerTags, tagsOfAttributes, AttributeValue.tags, tagsOf, Node.tags]
  refine ⟨by decide +kernel, ?_⟩
  exact compose_eq_render_filled {} (by decide) (by decide) (by simp [parts]) hf (by decide) 3 root
    s rfl rfl

/-- An empty name asks for no layout, and no block is kept for it. -/
theorem compose_empty_names :
    let region := fun name ns => Node.tag ⟨"region", none, [("name", .literal name)], ns, false⟩
    let own := fun name => some [region name [.text "own"]]
    let s : State := { templates := [("layouts/n", own ""), ("layouts/", own "r")] }
    let root : Scope := ⟨{ value := .null }, []⟩
    let page := fun n r => Environment.compose {} 3
      ([.layout, .block [("region", r)] [.text "B"]].map (PagePart.node n)) root
    ((perform (page "n" "") s).1 = .ok "own" ∧
        (perform (Environment.render {} 3 [region "" [.text "B"]] root) s).1 = .ok "B") ∧
      (perform (page "" "r") s).1 = .ok "" ∧
        (perform (Environment.render {} 3 [region "r" [.text "B"]] root) s).1 = .ok "B" := by
  decide +kernel

end TagTemplate
