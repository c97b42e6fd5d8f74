import TagTemplate.Proofs.Lockstep.Render
import TagTemplate.Render.Page

/-!
# Pages in lockstep

Nodes are rendered one after the other, the nodes inside them on a smaller budget, and the layouts
that are asked for after that. Lockstep of single tags carries over to trees by induction on the
budget, and to pages by induction on the layouts that may still be applied.
-/

namespace TagTemplate

open Markup (Node Tag AttributeValue tagsOf tagsOfAttributes)
open TagTemplate.Action

namespace Environment

variable (env : Environment) (render : Renderer) (budget : Nat) (scope : Scope)

theorem renderNodes_nil : env.renderNodes render budget [] scope = pure "" := by
  simp [renderNodes]

theorem renderNodes_cons (n : Node) (ns : List Node) :
    env.renderNodes render budget (n :: ns) scope = (do
      let text ← env.renderNode render budget scope n
      return text ++ (← env.renderNodes render budget ns scope)) := by
  simp [renderNodes]

theorem render_succ (ns : List Node) :
    env.render (budget + 1) ns scope = env.renderNodes (env.render budget) budget ns scope := rfl

theorem render_text (text : String) : env.render (budget + 1) [.text text] scope = pure text := by
  rw [env.render_succ, env.renderNodes_cons, env.renderNodes_nil]
  simp [renderNode]

theorem render_tag (tag : Tag) : env.render (budget + 1) [.tag tag] scope =
    env.renderTag (env.render budget) budget tag scope := by
  rw [env.render_succ, env.renderNodes_cons, env.renderNodes_nil]
  simp [renderNode]

theorem renderNodes_append (ns ms : List Node) :
    env.renderNodes render budget (ns ++ ms) scope = (do
      let text ← env.renderNodes render budget ns scope
      return text ++ (← env.renderNodes render budget ms scope)) := by
  simp [renderNodes]

theorem render_append (ns ms : List Node) :
    env.render budget (ns ++ ms) scope = (do
      let text ← env.render budget ns scope
      return text ++ (← env.render budget ms scope)) := by
  cases budget with
  | zero => rfl
  | succ budget => rw [render_succ, render_succ, render_succ, renderNodes_append]

theorem perform_oneDeeper (name : String) (body : Action String) (s : State) :
    perform (env.oneDeeper name body) s =
      if env.maxDepth < s.depth + 1 then
        (.error (.nesting env.maxDepth ("include template=\"" ++ name ++ "\"")), s)
      else
        ((perform body { s with depth := s.depth + 1 }).1,
          { (perform body { s with depth := s.depth + 1 }).2 with
            depth := (perform body { s with depth := s.depth + 1 }).2.depth - 1 }) := by
  unfold oneDeeper
  by_cases hd : env.maxDepth < s.depth + 1
  · simp [perform_bind, hd]
  · simp [perform_bind, hd]

def guarded : Except Fault String → Except Fault String
  | .error .exhausted | .error (.raised .recursion _) => .error (.nesting env.maxDepth "include")
  | result => result

theorem perform_guardRecursion (a : Action String) (s : State) :
    perform (env.guardRecursion a) s = (env.guarded (perform a s).1, (perform a s).2) := by
  unfold guardRecursion
  rw [perform_bind, perform_attempt]
  dsimp only
  rcases (perform a s).1 with fault | output
  · cases fault with
    | raised kind message => cases kind <;> rfl
    | _ => rfl
  · rfl

end Environment

/-- Every tag of a tree has the property. -/
def Everywhere (P : Tag → Prop) (ns : List Node) : Prop := ∀ t ∈ tagsOf ns, P t

variable {P : Tag → Prop}

instance [DecidablePred P] (ns : List Node) : Decidable (Everywhere P ns) :=
  inferInstanceAs (Decidable (∀ t ∈ tagsOf ns, P t))

theorem Everywhere.of_text {text : String} {ns : List Node}
    (h : Everywhere P (.text text :: ns)) : Everywhere P ns := by
  intro t ht
  exact h t (by simpa [tagsOf, Node.tags] using ht)

theorem Everywhere.of_mem {tag : Tag} {ns : List Node} (h : Everywhere P ns)
    (hmem : .tag tag ∈ ns) : P tag := by
  refine h tag ?_
  clear h
  induction ns with
  | nil => cases hmem
  | cons n ns ih =>
    rw [tagsOf, List.mem_append]
    rcases List.mem_cons.1 hmem with rfl | hmem
    · exact Or.inl List.mem_cons_self
    · exact Or.inr (ih hmem)

theorem innerTags_eq (tag : Tag) :
    tag.innerTags = tagsOfAttributes tag.attributes ++ tagsOf tag.children := by
  cases tag
  simp [Tag.innerTags]

def Inside (tag : Tag) (ns : List Node) : Prop :=
  ns = tag.children ∨ ∃ key, (key, .markup ns) ∈ tag.attributes

theorem sublist_tagsOf {tag : Tag} {ns : List Node} (h : .tag tag ∈ ns) :
    (tag :: tag.innerTags).Sublist (tagsOf ns) := by
  induction ns with
  | nil => cases h
  | cons n ns ih =>
    rw [tagsOf]
    rcases List.mem_cons.1 h with rfl | h
    · exact List.sublist_append_left _ _
    · exact (ih h).trans (List.sublist_append_right _ _)

theorem sublist_tagsOfAttributes {key : String} {ns : List Node}
    {as : List (String × AttributeValue)} (h : (key, .markup ns) ∈ as) :
    (tagsOf ns).Sublist (tagsOfAttributes as) := by
  induction as with
  | nil => cases h
  | cons p as ih =>
    rw [tagsOfAttributes]
    rcases List.mem_cons.1 h with rfl | h
    · exact List.sublist_append_left _ _
    · exact (ih h).trans (List.sublist_append_right _ _)

theorem Inside.sublist_innerTags {tag : Tag} {ns : List Node} (h : Inside tag ns) :
    (tagsOf ns).Sublist tag.innerTags := by
  rw [innerTags_eq]
  rcases h with rfl | ⟨key, hkey⟩
  · exact List.sublist_append_right _ _
  · exact (sublist_tagsOfAttributes hkey).trans (List.sublist_append_left _ _)

theorem Inside.sublist {tag : Tag} {ns : List Node} (h : Inside tag ns) {outer : List Node}
    (ht : .tag tag ∈ outer) : (tag :: tagsOf ns).Sublist (tagsOf outer) :=
  (h.sublist_innerTags.cons_cons tag).trans (sublist_tagsOf ht)

theorem everywhere_tag {tag : Tag} {ns : List Node} :
    Everywhere P (.tag tag :: ns) ↔ P tag ∧ (∀ t ∈ tag.innerTags, P t) ∧ Everywhere P ns := by
  simp [Everywhere, tagsOf, Node.tags, or_imp, forall_and]

theorem everywhere_children {tag : Tag} (h : ∀ t ∈ tag.innerTags, P t) :
    Everywhere P tag.children :=
  fun t ht => h t (by simp [innerTags_eq, ht])

def SameTree (P : Tag → Prop) (ns ns' : List Node) : Prop := ns = ns' ∧ Everywhere P ns

theorem sameTree_attributes {as : List (String × AttributeValue)}
    (h : ∀ t ∈ tagsOfAttributes as, P t) :
    List.Forall₂ (AttributeAgrees (SameTree P)) as as := by
  induction as with
  | nil => exact .nil
  | cons p as ih =>
    obtain ⟨key, v⟩ := p
    have hv : ∀ t ∈ v.tags, P t := fun t ht => h t (by simp [tagsOfAttributes, ht])
    have has : ∀ t ∈ tagsOfAttributes as, P t :=
      fun t ht => h t (by simp [tagsOfAttributes, ht])
    refine .cons ?_ (ih has)
    cases v with
    | literal text => exact .literal key text
    | markup ns => exact .markup key ⟨rfl, hv⟩

theorem sameTree_tag {tag : Tag} (h : ∀ t ∈ tag.innerTags, P t) :
    TagAgrees (SameTree P) tag tag := by
  have ha : ∀ t ∈ tagsOfAttributes tag.attributes, P t :=
    fun t ht => h t (by simp [innerTags_eq, ht])
  have hc := everywhere_children h
  replace ha := sameTree_attributes ha
  cases tag
  exact .mk ha ⟨rfl, hc⟩

namespace Lockstep

variable {env env' : Environment}

theorem pairing_sameTree_in {L : Lockstep} {V : View} {render render' : Renderer}
    (host : L.HostClosed) (view : V.Sound L) (filters : env.filters = env'.filters)
    (exported : ∀ name, V.extension name →
      L.Gives (fun m => ∀ c ∈ m, V.kind.content c) (env.exported name) (env'.exported name))
    (exhausted : L.allowed .exhausted)
    (h : ∀ ns scope scope', Everywhere P ns → V.scopes scope scope' →
      L.Agrees (render ns scope) (render' ns scope'))
    (budget : Nat) : L.Pairing V (SameTree P) env env' render render' budget budget where
  host := host
  view := view
  filters := filters
  exported := exported
  isEmpty hns := congrArg _ hns.1
  render := by
    rintro ns _ ⟨rfl, hns⟩ scope scope' hs
    exact h ns scope scope' hns hs
  budget := Or.inl ⟨rfl, exhausted⟩

theorem gives_exported_same {L : Lockstep} {name : String}
    (h : L.Agrees (env.exported name) (env'.exported name)) :
    L.Gives (fun m => ∀ c ∈ m, View.same.kind.content c) (env.exported name)
      (env'.exported name) := h.gives fun _ _ _ => trivial

theorem pairing_sameTree {L : Lockstep} {render render' : Renderer} (host : L.HostClosed)
    (filters : env.filters = env'.filters)
    (exported : ∀ name, L.Agrees (env.exported name) (env'.exported name))
    (exhausted : L.allowed .exhausted)
    (h : ∀ ns scope, Everywhere P ns → L.Agrees (render ns scope) (render' ns scope))
    (budget : Nat) : L.Pairing .same (SameTree P) env env' render render' budget budget := by
  refine pairing_sameTree_in host (View.same_sound host) filters
    (fun name _ => gives_exported_same (exported name)) exhausted ?_ budget
  rintro ns scope _ hns rfl
  exact h ns scope hns

theorem relates_oneDeeper {L : Lockstep} {Q : String → String → Prop}
    (nesting : ∀ tag, L.allowed (.nesting env.maxDepth tag))
    (depth_eq : ∀ {s t}, L.states s t → s.depth = t.depth)
    (depth : ∀ {s t}, L.states s t → ∀ d, L.states { s with depth := d } { t with depth := d })
    (ended : ∀ {s t}, L.ended s t →
      L.ended { s with depth := s.depth - 1 } { t with depth := t.depth - 1 })
    (name : String) {body body' : Action String} (hb : L.Relates Q body body') :
    L.Relates Q (env.oneDeeper name body) (env.oneDeeper name body') := by
  intro s t hs
  rw [env.perform_oneDeeper, env.perform_oneDeeper, depth_eq hs]
  by_cases hdeep : env.maxDepth < t.depth + 1
  · rw [if_pos hdeep, if_pos hdeep]
    exact .error (nesting _) (L.ended_of_states hs)
  · rw [if_neg hdeep, if_neg hdeep]
    have ho := hb _ _ (depth hs (t.depth + 1))
    generalize perform body { s with depth := t.depth + 1 } = r at ho
    generalize perform body' { t with depth := t.depth + 1 } = r' at ho
    cases ho with
    | ok hx hst =>
      dsimp only
      rw [depth_eq hst]
      exact .ok hx (depth hst _)
    | error he hst => exact .error he (ended hst)
    | excused he => exact .excused he

/-- Trees whose tags all have a property are rendered in lockstep if their includes, layouts,
blocks and regions are. A family of locksteps tells apart, say, how deep the includes are, and the
scopes may be seen in several ways. -/
theorem render_agrees_in {ι : Type} {L : ι → Lockstep} {V : ι → View} {P : ι → Tag → Prop}
    (host : ∀ i, (L i).HostClosed) (view : ∀ i, (V i).Sound (L i))
    (filters : env.filters = env'.filters)
    (exported : ∀ i name, (V i).extension name →
      (L i).Gives (fun m => ∀ c ∈ m, (V i).kind.content c) (env.exported name)
        (env'.exported name))
    (exhausted : ∀ i, (L i).allowed .exhausted)
    (mentions : ∀ i tag, P i tag → (V i).Mentions tag)
    (handlers : ∀ render render' : Renderer,
      (∀ i ns scope scope', Everywhere (P i) ns → (V i).scopes scope scope' →
        (L i).Agrees (render ns scope) (render' ns scope')) →
      ∀ i tag, P i tag → Everywhere (P i) tag.children →
        (L i).HandlersIn (V i) env env' render render' tag tag)
    (budget : Nat) : ∀ i ns scope scope', Everywhere (P i) ns → (V i).scopes scope scope' →
      (L i).Agrees (env.render budget ns scope) (env'.render budget ns scope') := by
  induction budget with
  | zero => exact fun i ns scope scope' _ _ => relates_fail (exhausted i)
  | succ budget ih =>
    intro i ns scope scope' hns hs
    have hp := pairing_sameTree_in (host i) (view i) filters (exported i) (exhausted i)
      (ih i) budget
    rw [Environment.render_succ, Environment.render_succ]
    induction ns with
    | nil =>
      rw [Environment.renderNodes_nil, Environment.renderNodes_nil]
      exact agrees_pure _
    | cons n ns ihns =>
      rw [Environment.renderNodes_cons, Environment.renderNodes_cons]
      cases n with
      | text text => exact Agrees.bind (agrees_pure text) fun _ => (ihns hns.of_text).map
      | tag tag =>
        obtain ⟨ht, hinner, hrest⟩ := everywhere_tag.1 hns
        refine Agrees.bind ?_ fun _ => (ihns hrest).map
        have hh := handlers _ _ ih i tag ht (everywhere_children hinner)
        exact hp.renderTag (sameTree_tag hinner) (mentions i tag ht) hh hs

theorem render_agrees {ι : Type} {L : ι → Lockstep} (host : ∀ i, (L i).HostClosed)
    (filters : env.filters = env'.filters)
    (exported : ∀ i name, (L i).Agrees (env.exported name) (env'.exported name))
    (exhausted : ∀ i, (L i).allowed .exhausted)
    (handlers : ∀ render render' : Renderer,
      (∀ i ns scope, Everywhere P ns → (L i).Agrees (render ns scope) (render' ns scope)) →
      ∀ i tag, P tag → Everywhere P tag.children → (L i).Handlers env env' render render' tag tag)
    (budget : Nat) (i : ι) (ns : List Node) (scope : Scope) (hns : Everywhere P ns) :
    (L i).Agrees (env.render budget ns scope) (env'.render budget ns scope) := by
  have hrender := @render_agrees_in env env' ι L (fun _ => .same) (fun _ => P) host
    (fun i => View.same_sound (host i)) filters
    (fun i name _ => gives_exported_same (exported i name)) exhausted
    (fun _ tag _ => View.same_mentions tag)
  refine hrender ?_ budget i ns scope scope hns rfl
  intro render render' hr i tag ht hc
  exact (handlers render render' (fun i ns scope hns => hr i ns scope scope hns rfl) i tag ht
    hc).inSame

theorem compose_agrees {L : Lockstep} {nodes : List Node → List Node → Prop}
    {wanted : String → Prop} {budget budget' : Nat} {root : Scope}
    (render : ∀ {ns ns'}, nodes ns ns' →
      L.Agrees (env.render budget ns root) (env'.render budget' ns' root))
    (take : L.Relates (fun m m' => m = m' ∧ ∀ name ∈ m, wanted name)
      Environment.takeLayout Environment.takeLayout)
    (layout : ∀ {name}, wanted name →
      L.Relates (Option.Rel nodes) (env.layout name) (env'.layout name))
    (warn : ∀ name, L.Agrees (warn (.layout name)) (warn (.layout name)))
    (depth : env.maxDepth = env'.maxDepth)
    (nesting : L.allowed (.nesting env.maxDepth "layout") ∨
      L.excused (.nesting env.maxDepth "layout"))
    {ns ns' : List Node} (h : nodes ns ns') :
    L.Agrees (env.compose budget ns root) (env'.compose budget' ns' root) := by
  have apply_agrees : ∀ remaining output,
      L.Agrees (env.applyLayouts budget root remaining output)
        (env'.applyLayouts budget' root remaining output) := by
    intro remaining
    induction remaining with
    | zero =>
      intro output
      unfold Environment.applyLayouts
      refine Relates.bind take ?_
      rintro m _ ⟨rfl, -⟩
      cases m with
      | none => exact agrees_pure _
      | some name =>
        rcases nesting with hn | hn
        · exact depth ▸ relates_fail hn
        · exact relates_of_excused hn
    | succ remaining ih =>
      intro output
      unfold Environment.applyLayouts
      refine Relates.bind take ?_
      rintro m _ ⟨rfl, hm⟩
      cases m with
      | none => exact agrees_pure _
      | some name =>
        refine Relates.bind (layout (hm name rfl)) ?_
        rintro _ _ (hns | _)
        · exact Agrees.bind (render hns) ih
        · exact Agrees.bind (warn name) fun _ => agrees_pure _
  unfold Environment.compose
  rw [← depth]
  exact Agrees.bind (render h) (apply_agrees env.maxDepth)

theorem Agrees.guardRecursion {L : Lockstep} {a b : Action String} (h : L.Agrees a b)
    (depth : env.maxDepth = env'.maxDepth) (allowed : ∀ e, L.allowed e)
    (excused : ∀ e, ¬ L.excused e) :
    L.Agrees (env.guardRecursion a) (env'.guardRecursion b) := by
  intro s t hs
  have ho := h s t hs
  rw [env.perform_guardRecursion, env'.perform_guardRecursion]
  generalize perform a s = r at ho
  generalize perform b t = r' at ho
  cases ho with
  | ok hx hst =>
    subst hx
    exact .ok rfl hst
  | error he hst =>
    dsimp only [Environment.guarded]
    rw [depth]
    split
    · exact .error (allowed _) hst
    · exact .error (allowed _) hst
    · exact .error (allowed _) hst
  | excused he => exact absurd he (excused _)

end Lockstep

end TagTemplate
