import TagTemplate.Proofs.Refetching
import TagTemplate.Proofs.Reordering.Render

/-!
# Values of attributes in another order

Beside a rendering stands one of the same trees with the attributes of tags in another order, for as
long as the first one does not fail. The value of an attribute leaves the blocks, the layout asked
for and the depth as they are. So it comes to the same text from every state that corresponds to the
one before all the attributes of its tag, and the second rendering can ask for it at another time.
-/

namespace TagTemplate

open Markup (Node Tag AttributeValue tagsOf tagsOfAttributes)
open TagTemplate.Action
open Lockstep

/-- The second tree is the first one with the attributes of its tags permuted, where their values
can be rendered in any order. -/
structure TreesReordered (shown : String → Prop) (ns ns' : List Node) : Prop where
  reordered : Reordered ns ns'
  orderly : Everywhere (Orderly shown) ns

structure BlockReordered (shown : String → Prop) (region : String) (b b' : Block) : Prop where
  nodes : TreesReordered shown b.nodes b'.nodes
  quiet : shown region → Everywhere (Quiet shown) b.nodes
  scope : b.scope = b'.scope
  plain : b.scope.IsPlain

/-- The states of two renderings of trees that differ in the order of attributes. -/
structure ReorderedStates (shown : String → Prop) (env env' : Environment)
    (own own' : OrderedMap (Option (List Node))) (s t : State) : Prop where
  blocks : ∀ region, Option.Rel (BlockReordered shown region)
    (s.registry.blocks.lookup region) (t.registry.blocks.lookup region)
  unnamed : s.registry.blocks.lookup "" = none
  pending : s.registry.pending = t.registry.pending
  depth : s.depth = t.depth
  left : env.Exact own s.templates s.extensions
  right : env'.Exact own' t.templates t.extensions

def reordering (shown : String → Prop) (env env' : Environment)
    (own own' : OrderedMap (Option (List Node))) : Lockstep where
  states := ReorderedStates shown env env' own own'
  excused _ := True

def QuietBlocks (shown : String → Prop) (blocks : OrderedMap Block) : Prop :=
  blocks.lookup "" = none ∧
    ∀ region b, blocks.lookup region = some b → shown region → Everywhere (Quiet shown) b.nodes

/-- The state holds these blocks, this layout is asked for, and includes are that deep. -/
structure Holds (blocks : OrderedMap Block) (pending : Option String) (depth : Nat) (s : State) :
    Prop where
  blocks : s.registry.blocks = blocks
  pending : s.registry.pending = pending
  depth : s.depth = depth

def leaving (blocks : OrderedMap Block) (pending : Option String) (depth : Nat) : Lockstep :=
  .invariant (Holds blocks pending depth) fun _ => True

section Quiet

variable {shown : String → Prop} {blocks : OrderedMap Block} {pending : Option String}
  {depth : Nat} {env : Environment}

theorem leaving_closed : (leaving blocks pending depth).Closed :=
  .of_invariant (fun hs _ _ _ => ⟨hs.blocks, hs.pending, hs.depth⟩) (fun _ => trivial)
    fun _ _ _ _ => trivial

theorem quiet_lookup (hb : QuietBlocks shown blocks) {tag : Tag} (ht : Quiet shown tag)
    (hr : IsRegion tag) {options : Options} (hf : Follows options tag) {b : Block}
    (h : blocks.lookup ((options.lookup "name").getD "") = some b) :
    Everywhere (Quiet shown) b.nodes := by
  refine hb.2 _ b h ?_
  cases hname : options.lookup "name" with
  | none =>
    rw [hname] at h
    cases hb.1.symm.trans h
  | some name =>
    rw [hname] at h
    -- no block is kept without a name, so that the name of this one is not empty
    refine ht.region hr name (mayCarry_of_follows hf hname) ?_
    rintro rfl
    cases hb.1.symm.trans h

theorem leaving_handlers (hb : QuietBlocks shown blocks) {render render' : Renderer}
    (hr : ∀ ns scope, Everywhere (Quiet shown) ns →
      (leaving blocks pending depth).Agrees (render ns scope) (render' ns scope))
    {tag : Tag} (ht : Quiet shown tag) (hc : Everywhere (Quiet shown) tag.children) :
    (leaving blocks pending depth).Handlers env env render render' tag tag := by
  refine ⟨?_, ?_, ?_, ?_⟩
  · exact fun he hn => absurd hn (ht.plain he).1
  · exact fun he hn => absurd hn (ht.plain he).2.1
  · exact fun he hn => absurd hn (ht.plain he).2.2
  · intro he hn options scope hf
    have hlookup : ∀ s t, (leaving blocks pending depth).states s t →
        Option.Rel (fun b b' : Block => b = b' ∧ Everywhere (Quiet shown) b.nodes)
          (s.registry.blocks.lookup ((options.lookup "name").getD ""))
          (t.registry.blocks.lookup ((options.lookup "name").getD "")) := by
      rintro s _ ⟨rfl, hs⟩
      rw [hs.blocks]
      cases hfound : blocks.lookup ((options.lookup "name").getD "") with
      | none => exact .none
      | some b => exact .some ⟨rfl, quiet_lookup hb ht ⟨he, hn⟩ hf hfound⟩
    refine agrees_renderRegion hlookup ?_ ?_ (hr _ scope hc) ?_
    · rintro region s _ ⟨rfl, hs⟩
      exact ⟨rfl, hs.blocks, hs.pending, hs.depth⟩
    · exact fun text => leaving_closed.host.finish rfl text options
    · rintro b _ ⟨rfl, hq⟩
      exact hr b.nodes b.scope hq

theorem leaving_render (hb : QuietBlocks shown blocks) (budget : Nat) {ns : List Node}
    (hns : Everywhere (Quiet shown) ns) (scope : Scope) :
    (leaving blocks pending depth).Agrees (env.render budget ns scope)
      (env.render budget ns scope) :=
  render_agrees (L := fun _ : Unit => leaving blocks pending depth)
    (fun _ => leaving_closed.host) rfl
    (fun _ => leaving_closed.exported env fun _ _ _ _ _ => trivial) (fun _ => trivial)
    (fun _ _ hr _ _ ht hc => leaving_handlers hb (hr ()) ht hc) budget () ns scope hns

theorem quiet_render {s t : State} {budget : Nat} {ns : List Node} {scope : Scope} {text : String}
    (hns : Everywhere (Quiet shown) ns) (hb : QuietBlocks shown s.registry.blocks)
    (h : perform (env.render budget ns scope) s = (.ok text, t)) :
    Holds s.registry.blocks s.registry.pending s.depth t := by
  have hleaving : (leaving s.registry.blocks s.registry.pending s.depth).Agrees
      (env.render budget ns scope) (env.render budget ns scope) :=
    leaving_render hb budget hns scope
  have ho := hleaving s s ⟨rfl, rfl, rfl, rfl⟩
  rw [h] at ho
  cases ho with
  | ok _ hs => exact hs.2

end Quiet

section Values

variable {shown : String → Prop} {env env' : Environment}
  {own own' : OrderedMap (Option (List Node))} {s s' t : State}

theorem ReorderedStates.quiet (h : ReorderedStates shown env env' own own' s t) :
    QuietBlocks shown s.registry.blocks := by
  refine ⟨h.unnamed, fun region b hb hshown => ?_⟩
  have hblock := h.blocks region
  rw [hb] at hblock
  generalize t.registry.blocks.lookup region = b' at hblock
  cases hblock with
  | some hblock => exact hblock.quiet hshown

theorem ReorderedStates.of_holds (h : ReorderedStates shown env env' own own' s t)
    (hs : Holds s.registry.blocks s.registry.pending s.depth s')
    (hexact : env.Exact own s'.templates s'.extensions) :
    ReorderedStates shown env env' own own' s' t := by
  refine ⟨fun region => ?_, ?_, ?_, ?_, hexact, h.right⟩
  · rw [hs.blocks]
    exact h.blocks region
  · rw [hs.blocks]
    exact h.unnamed
  · rw [hs.pending]
    exact h.pending
  · rw [hs.depth]
    exact h.depth

def Lockstep.Yields {α : Type} (L : Lockstep) (s : State) (a : Action α) (x : α) : Prop :=
  ∀ t, L.states s t → ∃ t', perform a t = (.ok x, t') ∧ L.states s t'

def Lockstep.Interchange (L : Lockstep) (s s' : State) : Prop := ∀ t, L.states s t ↔ L.states s' t

theorem Lockstep.Yields.of_interchange {α : Type} {L : Lockstep} (h : L.Interchange s s')
    {a : Action α} {x : α} (hy : L.Yields s' a x) : L.Yields s a x := by
  intro t ht
  obtain ⟨t', hperform, ht'⟩ := hy t ((h t).1 ht)
  exact ⟨t', hperform, (h t').2 ht'⟩

theorem yields_of_agrees {α : Type} {a b : Action α} {x : α}
    (h : (reordering shown env env' own own').Agrees a b)
    (hst : ReorderedStates shown env env' own own' s t)
    (ha : perform a s = (.ok x, s'))
    (hs : Holds s.registry.blocks s.registry.pending s.depth s') :
    (reordering shown env env' own own').Interchange s s' ∧
      (reordering shown env env' own own').Yields s b x := by
  have hends : ∀ {t}, ReorderedStates shown env env' own own' s t → ∃ t',
      perform b t = (.ok x, t') ∧ ReorderedStates shown env env' own own' s' t' := by
    intro t ht
    have ho := h s t ht
    rw [ha] at ho
    generalize perform b t = r at ho
    cases ho with
    | ok hx hst => exact ⟨_, hx ▸ rfl, hst⟩
  obtain ⟨_, -, hafter⟩ := hends hst
  -- nothing that matters was changed, so what corresponds to one of the states does to the other
  have hback : Holds s'.registry.blocks s'.registry.pending s'.depth s :=
    ⟨hs.blocks.symm, hs.pending.symm, hs.depth.symm⟩
  have hinterchange : (reordering shown env env' own own').Interchange s s' :=
    fun t => ⟨fun ht => ht.of_holds hs hafter.left, fun ht => ht.of_holds hback hst.left⟩
  refine ⟨hinterchange, fun t ht => ?_⟩
  obtain ⟨t', hperform, ht'⟩ := hends ht
  exact ⟨t', hperform, (hinterchange t').2 ht'⟩

theorem Lockstep.Yields.mapM {α β : Type} {L : Lockstep} {f : α → Action β} {xs : List α}
    {ys : List β} (h : List.Forall₂ (fun x y => L.Yields s (f x) y) xs ys) :
    L.Yields s (xs.mapM f) ys := by
  induction h with
  | nil => exact fun t ht => ⟨t, rfl, ht⟩
  | cons hx _ ih =>
    intro t ht
    obtain ⟨t₁, h₁, ht₁⟩ := hx t ht
    obtain ⟨t₂, h₂, ht₂⟩ := ih t₁ ht₁
    refine ⟨t₂, ?_, ht₂⟩
    rw [List.mapM_cons, perform_bind_ok h₁, perform_bind_ok h₂]
    rfl

theorem forall₂_of_perform_mapM {α β : Type} {f : α → Action β} {xs : List α} {ys : List β}
    (h : perform (xs.mapM f) s = (.ok ys, s')) :
    List.Forall₂ (fun x y => ∃ s s', perform (f x) s = (.ok y, s')) xs ys := by
  induction xs generalizing s ys with
  | nil =>
    cases h
    exact .nil
  | cons x xs ih =>
    obtain ⟨y, s₁, ys', rfl, hx, hxs⟩ := exists_of_perform_mapM_cons h
    exact .cons ⟨s, s₁, hx⟩ (ih hxs)

theorem yields_of_perform_mapM {α α' β : Type} {f : α → Action β} {g : α' → Action β} {xs : List α}
    {xs' : List α'} {ys : List β}
    (hag : List.Forall₂ (fun x x' => (reordering shown env env' own own').Agrees (f x) (g x'))
      xs xs')
    (hquiet : ∀ x ∈ xs, ∀ {s s' y}, QuietBlocks shown s.registry.blocks →
      perform (f x) s = (.ok y, s') → Holds s.registry.blocks s.registry.pending s.depth s')
    (hst : ReorderedStates shown env env' own own' s t)
    (h : perform (xs.mapM f) s = (.ok ys, s')) :
    (reordering shown env env' own own').Interchange s s' ∧
      List.Forall₂ (fun x' y => (reordering shown env env' own own').Yields s (g x') y) xs' ys := by
  induction hag generalizing s ys with
  | nil =>
    cases h
    exact ⟨fun _ => Iff.rfl, .nil⟩
  | @cons x x' xs xs' hx _ ih =>
    obtain ⟨y, s₁, ys', rfl, hfx, hxs⟩ := exists_of_perform_mapM_cons h
    have hholds := hquiet x List.mem_cons_self hst.quiet hfx
    obtain ⟨hchange, hy⟩ := yields_of_agrees hx hst hfx hholds
    obtain ⟨hrest, hys⟩ := ih (fun x hx => hquiet x (List.mem_cons_of_mem _ hx))
      ((hchange t).1 hst) hxs
    refine ⟨fun t => (hchange t).trans (hrest t), .cons hy (hys.imp fun _ _ => ?_)⟩
    exact Yields.of_interchange hchange

def ValueOf (p : String × AttributeValue) (r : String × String) : Prop :=
  p.1 = r.1 ∧ ∀ text, p.2 = .literal text → text = r.2

theorem valuesOf_of_perform_optionsOf {render : Renderer} {scope : Scope} {tag : Tag}
    {options : Options} (h : perform (optionsOf render scope tag) s = (.ok options, s')) :
    List.Forall₂ ValueOf tag.attributes options := by
  refine (forall₂_of_perform_mapM h).imp ?_
  rintro ⟨key, value⟩ r ⟨s, s', hr⟩
  obtain ⟨text, s₁, htext, hr⟩ := exists_of_perform_bind hr
  cases hr
  refine ⟨rfl, ?_⟩
  rintro literal rfl
  cases htext
  rfl

theorem valuesOf_names {as : List (String × AttributeValue)} {options : Options}
    (h : List.Forall₂ ValueOf as options) : options.map Prod.fst = as.map Prod.fst := by
  induction h with
  | nil => rfl
  | cons hp _ ih => rw [List.map_cons, List.map_cons, ih, hp.1]

theorem mayCarry_of_valuesOf {tag : Tag} {options : Options}
    (h : List.Forall₂ ValueOf tag.attributes options) {key text : String}
    (hk : options.lookup key = some text) : MayCarry tag key text := by
  obtain ⟨⟨_, v⟩, hp, rfl, hv⟩ := exists_of_forall₂ h _ (OrderedMap.mem_of_lookup hk)
  cases v with
  | literal literal =>
    obtain rfl : literal = text := hv literal rfl
    exact Or.inl hp
  | markup ns => exact Or.inr ⟨ns, hp⟩

theorem relates_optionsOf {render render' : Renderer}
    (hr : ∀ {ns ns'}, TreesReordered shown ns ns' → ∀ {scope : Scope}, scope.IsPlain →
      (reordering shown env env' own own').Agrees (render ns scope) (render' ns' scope))
    (hquiet : ∀ {ns}, Everywhere (Quiet shown) ns → ∀ {scope s s' text},
      QuietBlocks shown s.registry.blocks → perform (render ns scope) s = (.ok text, s') →
      Holds s.registry.blocks s.registry.pending s.depth s')
    {tag tag' : Tag} (ht : TagPermuted (TreesReordered shown) tag tag') (ho : Orderly shown tag)
    {scope : Scope} (hs : scope.IsPlain) :
    (reordering shown env env' own own').Relates
      (fun options options' => options.Alike options' ∧
        ∀ key text, options.lookup key = some text → MayCarry tag key text)
      (optionsOf render scope tag) (optionsOf render' scope tag') := by
  intro s t hst
  rcases h : perform (optionsOf render scope tag) s with ⟨e | options, s'⟩
  · exact .excused trivial
  obtain ⟨middle, hmiddle, hperm⟩ := ht.attributes
  have hvalues := valuesOf_of_perform_optionsOf h
  have hag : List.Forall₂ (fun p p' => (reordering shown env env' own own').Agrees
      (do return (p.1, ← attributeText render scope p.2))
      (do return (p'.1, ← attributeText render' scope p'.2))) tag.attributes middle := by
    refine hmiddle.imp ?_
    rintro p p' (⟨key, text⟩ | ⟨key, hns⟩)
    · exact agrees_pure _
    · exact (hr hns hs).map
  have hkept : ∀ p ∈ tag.attributes, ∀ {s s' r}, QuietBlocks shown s.registry.blocks →
      perform (do return (p.1, ← attributeText render scope p.2)) s = (.ok r, s') →
      Holds s.registry.blocks s.registry.pending s.depth s' := by
    rintro ⟨key, text | ns⟩ hmem s s' r hb hperform
    · cases hperform
      exact ⟨rfl, rfl, rfl⟩
    · obtain ⟨text, s₁, htext, hpure⟩ := exists_of_perform_bind hperform
      cases hpure
      refine hquiet (fun t ht => ho.values t ?_) hb htext
      exact (sublist_tagsOfAttributes hmem).subset ht
  -- every value can be had from the state before all of them, so their order is free
  obtain ⟨hchange, hyields⟩ := yields_of_perform_mapM hag hkept hst h
  obtain ⟨options', hyields', hperm'⟩ := List.perm_comp_forall₂ hperm.symm hyields
  obtain ⟨t', ht', hst'⟩ := Yields.mapM hyields' t hst
  unfold optionsOf
  rw [ht']
  refine .ok ⟨?_, fun key text => mayCarry_of_valuesOf hvalues⟩ ((hchange t').1 hst')
  refine Options.alike_of_perm hperm'.symm ?_
  rw [valuesOf_names hvalues]
  exact ho.names

end Values

end TagTemplate
