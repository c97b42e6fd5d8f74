import TagTemplate.Proofs.Fetching
import TagTemplate.Proofs.Lockstep.Page

/-!
# Includes are inlined

A tag that includes a template can be replaced by the nodes of the template, wherever it stands.
Both trees are rendered in lockstep: the blocks they collect differ like the trees, and the tree
without the tag is never deeper in includes than the other one.
-/

namespace TagTemplate

open Markup (Node Tag AttributeValue)

/-- The tag `<pop:include template="n"/>`. -/
def includeTag (n : String) : Tag := ⟨"include", none, [("template", .literal n)], [], true⟩

/-- The rendering nests too deep, or without end. -/
def Fault.isNesting : Fault → Prop
  | .nesting .. | .exhausted => True
  | _ => False

/-- A tree with a gap among its nodes: at the top, inside a tag, or inside the markup of an
attribute value. -/
inductive TreeContext where
  | here (before after : List Node)
  | enclosed (before : List Node) (name : String) (extension : Option String)
      (attributes : List (String × AttributeValue)) (inner : TreeContext) (closing : Bool)
      (after : List Node)
  | valued (before : List Node) (name : String) (extension : Option String)
      (earlier : List (String × AttributeValue)) (key : String) (inner : TreeContext)
      (later : List (String × AttributeValue)) (children : List Node) (closing : Bool)
      (after : List Node)

/-- The tree with nodes in its gap. -/
def TreeContext.fill (ns : List Node) : TreeContext → List Node
  | .here before after => before ++ (ns ++ after)
  | .enclosed before name extension attributes inner closing after =>
    before ++ .tag ⟨name, extension, attributes, inner.fill ns, closing⟩ :: after
  | .valued before name extension earlier key inner later children closing after =>
    before ++ .tag ⟨name, extension, earlier ++ (key, .markup (inner.fill ns)) :: later, children,
      closing⟩ :: after

/-- The second tree is the first one with some of its includes of `n` replaced by the nodes `N`. -/
inductive Inlined (n : String) (N : List Node) : List Node → List Node → Prop where
  | nil : Inlined n N [] []
  | text (value) {ns ns'} :
      Inlined n N ns ns' → Inlined n N (.text value :: ns) (.text value :: ns')
  | tag {t t' ns ns'} : TagAgrees (Inlined n N) t t' → Inlined n N ns ns' →
      Inlined n N (.tag t :: ns) (.tag t' :: ns')
  | expand {ns ns'} : Inlined n N ns ns' → Inlined n N (.tag (includeTag n) :: ns) (N ++ ns')

variable {n : String} {N : List Node}

mutual

theorem Inlined.refl : (ns : List Node) → Inlined n N ns ns
  | [] => .nil
  | .text value :: ns => .text value (Inlined.refl ns)
  | .tag t :: ns => .tag (tagInlined_refl t) (Inlined.refl ns)

theorem tagInlined_refl : (t : Tag) → TagAgrees (Inlined n N) t t
  | ⟨_, _, attributes, children, _⟩ =>
    .mk (attributesInlined_refl attributes) (Inlined.refl children)

theorem attributesInlined_refl : (as : List (String × AttributeValue)) →
    List.Forall₂ (AttributeAgrees (Inlined n N)) as as
  | [] => .nil
  | (key, .literal text) :: as => .cons (.literal key text) (attributesInlined_refl as)
  | (key, .markup ns) :: as => .cons (.markup key (Inlined.refl ns)) (attributesInlined_refl as)

end

theorem Inlined.prepend (before : List Node) {ns ns' : List Node} (h : Inlined n N ns ns') :
    Inlined n N (before ++ ns) (before ++ ns') := by
  induction before with
  | nil => exact h
  | cons node before ih =>
    cases node with
    | text value => exact .text value ih
    | tag t => exact .tag (tagInlined_refl t) ih

theorem Inlined.isEmpty_eq (hN : N ≠ []) {ns ns' : List Node} (h : Inlined n N ns ns') :
    ns.isEmpty = ns'.isEmpty := by
  cases h with
  | nil => rfl
  | text => rfl
  | tag => rfl
  | expand => simp [hN]

theorem attributesInlined_insert {earlier later : List (String × AttributeValue)} {key : String}
    {ns ns' : List Node} (h : Inlined n N ns ns') :
    List.Forall₂ (AttributeAgrees (Inlined n N)) (earlier ++ (key, .markup ns) :: later)
      (earlier ++ (key, .markup ns') :: later) :=
  List.rel_append (attributesInlined_refl earlier)
    (.cons (.markup key h) (attributesInlined_refl later))

theorem TreeContext.inlined_fill (c : TreeContext) :
    Inlined n N (c.fill [.tag (includeTag n)]) (c.fill N) := by
  induction c with
  | here before after => exact (Inlined.expand (.refl after)).prepend before
  | enclosed before name extension attributes inner closing after ih =>
    exact (Inlined.tag (.mk (attributesInlined_refl attributes) ih) (.refl after)).prepend before
  | valued before name extension earlier key inner later children closing after ih =>
    refine Inlined.prepend before (.tag (.mk ?_ (.refl children)) (.refl after))
    exact attributesInlined_insert ih

def BlockInlined (n : String) (N : List Node) (p q : String × Block) : Prop :=
  p.1 = q.1 ∧ Inlined n N p.2.nodes q.2.nodes ∧ p.2.scope = q.2.scope

theorem blocksInlined_lookup {bs bs' : OrderedMap Block}
    (h : List.Forall₂ (BlockInlined n N) bs bs') (region : String) :
    Option.Rel (fun b b' => Inlined n N b.nodes b'.nodes ∧ b.scope = b'.scope)
      (bs.lookup region) (bs'.lookup region) := by
  induction h with
  | nil => exact .none
  | @cons x y _ _ hp _ ih =>
    obtain ⟨p, b⟩ := x
    obtain ⟨q, b'⟩ := y
    obtain ⟨rfl, hb⟩ := hp
    by_cases hr : region = p
    · subst hr
      simpa using Option.Rel.some hb
    · simpa [List.lookup_cons, beq_eq_false_iff_ne.2 hr] using ih

theorem blocksInlined_has {bs bs' : OrderedMap Block}
    (h : List.Forall₂ (BlockInlined n N) bs bs') (region : String) :
    OrderedMap.has bs region = OrderedMap.has bs' region := by
  unfold OrderedMap.has
  match bs.lookup region, bs'.lookup region, blocksInlined_lookup h region with
  | _, _, .some _ => rfl
  | _, _, .none => rfl

/-- The states of two renderings, of a tree and of the tree with includes replaced, that are `d` and
`d'` includes deep. -/
structure InliningStates (env : Environment) (n : String) (N : List Node) (d d' : Nat)
    (s t : State) : Prop where
  host : s.host.Agrees t.host
  lets : s.host.program.LetsThrough Fault.isNesting
  extensions : s.extensions = t.extensions
  resolved : ∀ name, env.resolved name s = env.resolved name t
  source : env.resolved n s = .ok (some N)
  pending : s.registry.pending = t.registry.pending
  blocks : List.Forall₂ (BlockInlined n N) s.registry.blocks t.registry.blocks
  depth : s.depth = d
  depth' : t.depth = d'
  le : d' ≤ d

def inlining (env : Environment) (n : String) (N : List Node) (d d' : Nat) : Lockstep where
  states := InliningStates env n N d d'
  excused := Fault.isNesting

namespace InliningStates

variable {env : Environment} {d d' : Nat} {s t : State}

theorem looked_left (h : InliningStates env n N d d' s t) (name : String) :
    InliningStates env n N d d' (env.looked name s) t := by
  have hr := env.resolved_looked name s
  obtain ⟨templates, host, heq, ha⟩ := env.looked_eq name s
  rw [heq] at hr ⊢
  exact
    { h with
      host := ha.trans h.host
      lets := by
        rw [ha.program]
        exact h.lets
      resolved := fun m => (hr m).trans (h.resolved m)
      source := (hr n).trans h.source }

theorem looked_right (h : InliningStates env n N d d' s t) (name : String) :
    InliningStates env n N d d' s (env.looked name t) := by
  have hr := env.resolved_looked name t
  obtain ⟨templates, host, heq, ha⟩ := env.looked_eq name t
  rw [heq] at hr ⊢
  exact
    { h with
      host := h.host.trans ha.symm
      resolved := fun m => (h.resolved m).trans (hr m).symm }

theorem enter (h : InliningStates env n N d d' s t) :
    InliningStates env n N (d + 1) (d' + 1) { s with depth := s.depth + 1 }
      { t with depth := t.depth + 1 } :=
  { h with
    depth := congrArg (· + 1) h.depth
    depth' := congrArg (· + 1) h.depth'
    le := Nat.succ_le_succ h.le }

theorem leave (hd : d' ≤ d) (h : InliningStates env n N (d + 1) (d' + 1) s t) :
    InliningStates env n N d d' { s with depth := s.depth - 1 } { t with depth := t.depth - 1 } :=
  { h with
    depth := by simp [h.depth]
    depth' := by simp [h.depth']
    le := hd }

theorem enter_left (h : InliningStates env n N d d' s t) :
    InliningStates env n N (d + 1) d' { s with depth := s.depth + 1 } t :=
  { h with
    depth := congrArg (· + 1) h.depth
    le := Nat.le_succ_of_le h.le }

theorem leave_left (hd : d' ≤ d) (h : InliningStates env n N (d + 1) d' s t) :
    InliningStates env n N d d' { s with depth := s.depth - 1 } t :=
  { h with
    depth := by simp [h.depth]
    le := hd }

end InliningStates

namespace Lockstep

open TagTemplate.Action

variable {env : Environment} {d d' : Nat}

theorem inlining_closed : (inlining env n N d d').Closed := by
  refine .of_agrees (fun hs => hs.host) (fun hs => hs.extensions) ?_ (fun _ => trivial) ?_
  · intro s t hs h h' extensions hp hh
    have hlets : h.program.LetsThrough Fault.isNesting := hp ▸ hs.lets
    exact { hs with host := hh, lets := hlets, extensions := rfl }
  · exact fun hs handler e hcaught => ⟨fun he => hs.lets e he handler hcaught, id⟩

theorem inlining_template (name : String) :
    (inlining env n N d d').Agrees (env.template name) (env.template name) := by
  intro s t hs
  rw [env.perform_template, env.perform_template, hs.resolved name]
  have hst := (hs.looked_left name).looked_right name
  cases env.resolved name t with
  | ok nodes => exact .ok rfl hst
  | error e => exact .error trivial hst

theorem inlining_nodes (name : String) :
    (inlining env n N d d').Relates (Option.Rel (Inlined n N)) (env.template name)
      (env.template name) := by
  refine (inlining_template name).mono ?_
  rintro nodes _ rfl
  cases nodes with
  | none => exact .none
  | some nodes => exact .some (.refl nodes)

theorem inlining_oneDeeper {body body' : Action String} (hd : d' ≤ d) (name : String)
    (h : (inlining env n N (d + 1) (d' + 1)).Agrees body body') :
    (inlining env n N d d').Agrees (env.oneDeeper name body) (env.oneDeeper name body') := by
  intro s t hs
  rw [env.perform_oneDeeper, env.perform_oneDeeper]
  by_cases hdeep : env.maxDepth < s.depth + 1
  · rw [if_pos hdeep]
    exact .excused trivial
  · have hdeep' : ¬ env.maxDepth < t.depth + 1 := by
      have := hs.depth
      have := hs.depth'
      omega
    rw [if_neg hdeep, if_neg hdeep']
    have ho := h _ _ hs.enter
    generalize perform body { s with depth := s.depth + 1 } = r at ho
    generalize perform body' { t with depth := t.depth + 1 } = r' at ho
    cases ho with
    | ok hx hst => exact .ok hx (hst.leave hd)
    | error _ hst => exact .error trivial (hst.leave hd)
    | excused he => exact .excused he

theorem inlining_requestLayout (name : String) {s t : State}
    (hs : InliningStates env n N d d' s t) :
    InliningStates env n N d d' { s with registry := s.registry.requestLayout name }
      { t with registry := t.registry.requestLayout name } := by
  refine { hs with pending := ?_, blocks := ?_ }
  · rw [Registry.pending_requestLayout, Registry.pending_requestLayout, hs.pending]
  · rw [Registry.blocks_requestLayout, Registry.blocks_requestLayout]
    exact hs.blocks

theorem inlining_addBlock (region : String) {ns ns' : List Node} (h : Inlined n N ns ns')
    (scope : Scope) {s t : State} (hs : InliningStates env n N d d' s t) :
    InliningStates env n N d d' { s with registry := s.registry.addBlock region ⟨ns, scope⟩ }
      { t with registry := t.registry.addBlock region ⟨ns', scope⟩ } := by
  unfold Registry.addBlock
  rw [← blocksInlined_has hs.blocks]
  split
  · exact { hs with }
  · have hblocks := List.rel_append hs.blocks
      (.cons (⟨rfl, h, rfl⟩ : BlockInlined n N (region, ⟨ns, scope⟩) (region, ⟨ns', scope⟩)) .nil)
    exact { hs with pending := hs.pending, blocks := hblocks }

theorem inlining_handlers (hd : d' ≤ d) {render render' : Renderer} {t t' : Tag}
    (hr : ∀ {e e' ns ns'} scope, e' ≤ e → Inlined n N ns ns' →
      (inlining env n N e e').Agrees (render ns scope) (render' ns' scope))
    (ht : TagAgrees (Inlined n N) t t') :
    (inlining env n N d d').Handlers env env render render' t t' := by
  obtain ⟨-, hc⟩ := ht
  refine ⟨?_, ?_, ?_, ?_⟩
  · intro _ _ options scope _
    refine agrees_renderInclude (inlining_closed.warn _) (fun name _ => inlining_nodes name) ?_
    intro name ns ns' hns
    apply inlining_oneDeeper hd
    refine Agrees.bind (hr scope (Nat.succ_le_succ hd) hns) fun text => ?_
    exact inlining_closed.host.finish rfl text options
  · intro _ _ options scope _
    exact agrees_renderLayout fun name _ _ s s' hs => inlining_requestLayout name hs
  · intro _ _ options scope _
    exact agrees_renderBlock fun region _ s s' hs => inlining_addBlock region hc scope hs
  · intro _ _ options scope _
    refine agrees_renderRegion (fun s s' hs => blocksInlined_lookup hs.blocks _) ?_ ?_ ?_ ?_
    · exact fun _ s s' hs => { hs with }
    · exact fun text => inlining_closed.host.finish rfl text options
    · exact hr scope hd hc
    · rintro b b' ⟨hns, hscope⟩
      rw [hscope]
      exact hr b'.scope hd hns

end Lockstep

theorem Filters.apply_of_no_attribute {options : Options} (fs : Filters) (text : String)
    (h : ∀ filter ∈ fs, OrderedMap.has options filter.1 = false) :
    fs.apply text options = pure text := by
  induction fs with
  | nil => rfl
  | cons filter fs ih =>
    rw [Filters.apply, if_neg (by simp [h filter (by simp)])]
    exact ih fun f hf => h f (by simp [hf])

theorem Environment.finish_of_no_attribute {options : Options} (env : Environment) (text : String)
    (h : ∀ filter ∈ env.filters, OrderedMap.has options filter.1 = false)
    (hw : options.lookup "wrap" = none) : env.finish text options = pure text := by
  unfold Environment.finish
  by_cases ht : text = ""
  · rw [if_pos ht, ht]
  · rw [if_neg ht, Filters.apply_of_no_attribute _ _ h]
    simp [wrapped, hw]

theorem Environment.finish_of_no_options (env : Environment) (text : String) :
    env.finish text [] = pure text := env.finish_of_no_attribute text (fun _ _ => rfl) rfl

theorem orDefault_of_no_default {options : Options} (text : String)
    (h : options.lookup "default" = none) : orDefault text options = text := by
  unfold orDefault
  rw [h]
  split
  · next hempty => rw [hempty]; rfl
  · rfl

theorem Environment.renderTag_of_no_attributes (env : Environment) (render : Renderer)
    (budget : Nat) {tag : Tag} (h : tag.attributes = []) (scope : Scope) :
    env.renderTag render budget tag scope = env.renderWith render budget tag [] scope := by
  have hoptions : optionsOf render scope tag = pure [] := by
    unfold optionsOf
    rw [h]
    rfl
  have hdefault : ∀ text, orDefault text [] = text := fun text => orDefault_of_no_default text rfl
  unfold renderTag
  rw [hoptions, pure_bind]
  simp [hdefault]

theorem Environment.renderTag_includeTag (env : Environment) (hn : n ≠ "")
    (hf : ∀ filter ∈ env.filters, filter.1 ≠ "template") (render : Renderer) (budget : Nat)
    (scope : Scope) :
    env.renderTag render budget (includeTag n) scope = (do
      match ← env.template n with
      | none => return ""
      | some nodes => env.oneDeeper n (render nodes scope)) := by
  have hoptions : optionsOf render scope (includeTag n) = pure [("template", n)] := by
    simp [optionsOf, includeTag, attributeText]
  have hfinish : ∀ text, env.finish text [("template", n)] = pure text := by
    intro text
    refine env.finish_of_no_attribute text (fun filter hfilter => ?_) rfl
    simp [OrderedMap.has, List.lookup_cons, beq_eq_false_iff_ne.2 (hf filter hfilter)]
  have hdefault : ∀ text, orDefault text [("template", n)] = text :=
    fun text => orDefault_of_no_default text rfl
  unfold Environment.renderTag
  rw [hoptions, pure_bind, env.renderWith_structural render budget .include rfl rfl]
  simp only [hdefault, bind_pure, renderStructural, renderInclude, List.lookup_cons_self]
  refine bind_congr fun nodes => ?_
  cases nodes with
  | none => rfl
  | some nodes => simp only [hfinish, bind_pure]

namespace Lockstep

open TagTemplate.Action

variable {env : Environment} {d d' : Nat}

/-- The tag that includes a template and the nodes of the template in its place, one level of
includes and one list of nodes less deep. -/
theorem inlining_expand (hn : n ≠ "") (hf : ∀ filter ∈ env.filters, filter.1 ≠ "template")
    (hd : d' ≤ d) (budget : Nat) {render : Renderer} {expanded : Action String} (scope : Scope)
    (h : (inlining env n N (d + 1) d').Agrees (render N scope) expanded) :
    (inlining env n N d d').Agrees (env.renderTag render budget (includeTag n) scope) expanded := by
  intro s t hs
  have htemplate := env.perform_template n s
  rw [hs.source] at htemplate
  rw [env.renderTag_includeTag hn hf, perform_bind_ok htemplate]
  have hs' := hs.looked_left n
  generalize env.looked n s = s' at hs'
  dsimp only
  rw [env.perform_oneDeeper]
  by_cases hdeep : env.maxDepth < s'.depth + 1
  · rw [if_pos hdeep]
    exact .excused trivial
  · rw [if_neg hdeep]
    have ho := h _ _ hs'.enter_left
    generalize perform (render N scope) { s' with depth := s'.depth + 1 } = r at ho
    generalize perform expanded t = r' at ho
    cases ho with
    | ok hx hst => exact .ok hx (hst.leave_left hd)
    | error _ hst => exact .error trivial (hst.leave_left hd)
    | excused he => exact .excused he

theorem inlining_render (hn : n ≠ "") (hN : N ≠ [])
    (hf : ∀ filter ∈ env.filters, filter.1 ≠ "template") (budget : Nat) :
    ∀ {budget' d d' : Nat} {ns ns' : List Node} (scope : Scope), budget ≤ budget' → d' ≤ d →
      Inlined n N ns ns' →
      (inlining env n N d d').Agrees (env.render budget ns scope)
        (env.render budget' ns' scope) := by
  induction budget with
  | zero => exact fun _ _ _ _ => relates_of_excused trivial
  | succ budget ih =>
    intro budget' d d' ns ns' scope hb hd hns
    obtain ⟨budget', rfl⟩ : ∃ k, budget' = k + 1 := ⟨budget' - 1, by omega⟩
    have hb' : budget ≤ budget' := by omega
    have hp : (inlining env n N d d').Pairing .same (Inlined n N) env env (env.render budget)
        (env.render budget') budget budget' :=
      { host := inlining_closed.host
        view := View.same_sound inlining_closed.host
        filters := rfl
        exported := fun name _ =>
          gives_exported_same (inlining_closed.exported env (fun _ _ _ _ _ => trivial) name)
        isEmpty := fun h => h.isEmpty_eq hN
        render := by
          rintro ns ns' hns scope _ rfl
          exact ih scope hb' hd hns
        budget := Or.inr ⟨hb', trivial⟩ }
    rw [env.render_succ, env.render_succ]
    -- along the first list: an include that is replaced meets several nodes of the second one
    induction ns generalizing ns' with
    | nil =>
      cases hns
      rw [env.renderNodes_nil, env.renderNodes_nil]
      exact agrees_pure _
    | cons node ns ihns =>
      rw [env.renderNodes_cons]
      cases hns with
      | text value hrest =>
        rw [env.renderNodes_cons]
        exact Agrees.bind (agrees_pure value) fun _ => (ihns hrest).map
      | tag ht hrest =>
        rw [env.renderNodes_cons]
        refine Agrees.bind ?_ fun _ => (ihns hrest).map
        refine hp.renderTag_same ht (inlining_handlers hd (fun scope he h => ?_) ht) scope
        exact ih scope hb' he h
      | expand hrest =>
        rw [env.renderNodes_append]
        refine Agrees.bind ?_ fun _ => (ihns hrest).map
        apply inlining_expand hn hf hd
        exact ih scope (Nat.le_succ_of_le hb') (Nat.le_succ_of_le hd) (.refl N)

theorem inlining_compose (hn : n ≠ "") (hN : N ≠ [])
    (hf : ∀ filter ∈ env.filters, filter.1 ≠ "template") (budget : Nat) (root : Scope)
    {ns ns' : List Node} (h : Inlined n N ns ns') :
    (inlining env n N d d).Agrees (env.compose budget ns root) (env.compose budget ns' root) := by
  have htake : (inlining env n N d d).Relates (fun m m' => m = m' ∧ ∀ name ∈ m, True)
      Environment.takeLayout Environment.takeLayout := by
    intro s t hs
    refine .ok ⟨?_, fun _ _ => trivial⟩ { hs with pending := ?_, blocks := ?_ }
    · rw [Registry.takeLayout_fst, Registry.takeLayout_fst, hs.pending]
    · rw [Registry.pending_takeLayout, Registry.pending_takeLayout]
    · rw [Registry.blocks_takeLayout, Registry.blocks_takeLayout]
      exact hs.blocks
  refine compose_agrees ?_ htake ?_ (fun _ => inlining_closed.warn _) rfl (Or.inl trivial) h
  · exact fun hns => inlining_render hn hN hf budget root (Nat.le_refl _) (Nat.le_refl _) hns
  · exact fun _ => inlining_nodes _

end Lockstep

end TagTemplate
