import TagTemplate.Proofs.BlindFunctions
import TagTemplate.Proofs.Fetching
import TagTemplate.Proofs.Lockstep.Page

/-!
# Items that are not asked for

Two arrays are shown as a whole in the same place, and the same nodes are rendered inside each. If
neither these nodes nor the templates that they include look up `values`, and no function that they
can find does, nothing tells the two arrays apart. Blocks may be kept meanwhile, each with the scope
of its run, and shown later. What has been kept before is shown as it is, whatever it looks up.
-/

namespace TagTemplate

open Markup (Node Tag tagsOf)
open TagTemplate.Action

def Markup.Tag.LooksUp (tag : Tag) (name : String) : Prop :=
  tag.extension = none ∧ (Environment.negated? tag.name).getD tag.name = name

instance (tag : Tag) (name : String) : Decidable (tag.LooksUp name) :=
  inferInstanceAs (Decidable (tag.extension = none ∧ _ = name))

/-- The tag includes a template, which may be this one: its name is written so, or is computed. -/
structure Markup.Tag.MayInclude (tag : Tag) (name : String) : Prop where
  extension : tag.extension = none
  name_eq : tag.name = "include"
  template : MayCarry tag "template" name

/-- The tag is inside the given one, or in a template that such a tag may include. -/
inductive Environment.Unfolds (env : Environment) (start : State) (root : Tag) : Tag → Prop where
  | inside {tag} (h : tag ∈ root.innerTags) : Unfolds env start root tag
  | included {tag child name nodes} (h : Unfolds env start root tag) (hname : tag.MayInclude name)
      (hnodes : env.resolved name start = .ok (some nodes)) (hchild : child ∈ tagsOf nodes) :
      Unfolds env start root child

theorem Environment.unfolds_inside {env : Environment} {start : State} {root : Tag}
    {ns : List Node} (h : Inside root ns) : Everywhere (env.Unfolds start root) ns :=
  fun _ ht => .inside (h.sublist_innerTags.subset ht)

def Environment.Asks (env : Environment) (start : State) (root : Tag) (extension : String) : Prop :=
  ∃ tag, env.Unfolds start root tag ∧ tag.extension = some extension

/-- The frames are equal, or of two arrays that are shown as a whole. -/
inductive Frame.Alike : Frame → Frame → Prop where
  | same (f) : Alike f f
  | whole (items items') : Alike (whole items) (whole items')

/-- The scopes differ at most in arrays that are shown as a whole, and not in the innermost frame if
`inner` says that it is looked at. The functions in them are blind to the items. -/
structure Scope.Alike (inner : Bool) (scope scope' : Scope) : Prop where
  frames : List.Forall₂ Frame.Alike scope.frames scope'.frames
  innermost : inner → scope.frame = scope'.frame
  blind : ∀ f ∈ scope.frames, (HostKind.blind "values" inner).IsFrame f

/-- The blocks are equal, or have the nodes in common and scopes that are alike. -/
inductive Block.Alike (env : Environment) (start : State) (root : Tag) (inner : Bool) :
    Block → Block → Prop where
  | same (b) : Alike env start root inner b b
  | hidden {nodes scope scope'} (hnodes : Everywhere (env.Unfolds start root) nodes)
      (h : Scope.Alike inner scope scope') : Alike env start root inner ⟨nodes, scope⟩ ⟨nodes, scope'⟩

theorem Frame.whole_own {name : String} (hn : name ≠ "values") (items : List HostValue) :
    (whole items).own name = pure .missing := by
  have hbinding : List.lookup name [("values", Content.array items)] = none := by
    simp [List.lookup_cons, beq_eq_false_iff_ne.2 hn]
  unfold own whole
  dsimp only
  rw [hbinding]
  rfl

namespace Frame.Alike

variable {f f' : Frame} (h : f.Alike f')

include h

theorem own {name : String} (hn : name ≠ "values") : f.own name = f'.own name := by
  cases h with
  | same => rfl
  | whole items items' => rw [whole_own hn, whole_own hn]

theorem iteration : f.iteration = f'.iteration := by
  cases h <;> rfl

theorem collection : f.collection = f'.collection := by
  cases h <;> rfl

end Frame.Alike

theorem Frame.alike_refl (fs : List Frame) : List.Forall₂ Alike fs fs :=
  List.forall₂_same.2 fun f _ => .same f

theorem Scope.lookupIn_alike {fs fs' : List Frame} (h : List.Forall₂ Frame.Alike fs fs')
    {name : String} (hn : name ≠ "values") : lookupIn name fs = lookupIn name fs' := by
  induction h with
  | nil => rfl
  | cons hf _ ih => rw [lookupIn, lookupIn, hf.own hn, ih]

namespace Scope.Alike

variable {inner : Bool} {scope scope' : Scope} (h : scope.Alike inner scope')

include h

theorem head : scope.frame.Alike scope'.frame := by
  obtain _ | ⟨hf, -⟩ := h.frames
  exact hf

theorem push {f : Frame} (hf : (HostKind.blind "values" inner).IsFrame f) :
    (scope.push f).Alike inner (scope'.push f) :=
  ⟨.cons (.same f) h.frames, fun _ => rfl, List.forall_mem_cons.2 ⟨hf, h.blind⟩⟩

theorem nearestIteration : scope.nearestIteration = scope'.nearestIteration := by
  have hframes := h.frames
  unfold Scope.nearestIteration
  generalize scope.frames = fs at hframes
  generalize scope'.frames = fs' at hframes
  induction hframes with
  | nil => rfl
  | cons hf _ ih => rw [List.findSome?_cons, List.findSome?_cons, hf.iteration, ih]

end Scope.Alike

namespace Lockstep

variable (env : Environment) (start : State) (root : Tag) (inner : Bool)

def View.hidden : View where
  kind := .blind "values" inner
  scopes := Scope.Alike inner
  name := (· ≠ "values")
  extension := env.Asks start root

variable {inner} in
theorem View.hidden_sound {L : Lockstep} (host : L.HostClosed) :
    (View.hidden env start root inner).Sound L := by
  have hlookup : ∀ {scope scope' : Scope}, scope.Alike inner scope' → ∀ {name}, name ≠ "values" →
      L.Gives (HostKind.blind "values" inner).content (scope.lookup name) (scope'.lookup name) := by
    intro scope scope' hs name hn
    have hscope := host.gives_lookupIn HostKind.blind_sound hs.blind name
    have heq := Scope.lookupIn_alike hs.frames hn
    unfold Scope.lookup
    rwa [← heq]
  refine ⟨HostKind.blind_sound, fun hs _ hf => hs.push hf, fun hs => hs.nearestIteration,
    fun hs => hs.head.collection, hlookup, fun {scope scope'} hs => ⟨?_, ?_⟩⟩
  · rintro (_ | name) hname
    · have hvalue := (hs.blind _ List.mem_cons_self).value
      change L.Gives _ (pure scope.frame.value) (pure scope'.frame.value)
      rw [← hs.innermost hname]
      exact gives_pure hvalue
    · exact hlookup hs hname
  · intro name hname
    have hown := host.gives_own HostKind.blind_sound (hs.blind _ List.mem_cons_self) name
    have heq : scope.frame.own name = scope'.frame.own name := by
      rcases hname with hinner | hname
      · rw [hs.innermost hinner]
      · exact hs.head.own hname
    change L.Gives _ (scope.frame.own name) (scope'.frame.own name)
    rwa [← heq]

/-- Two runs that started in the same state, and have kept the same but for blocks that differ in
scopes that are alike. -/
structure HiddenStates (s t : State) : Prop where
  host : s.host = t.host
  templates : s.templates = t.templates
  resolved : ∀ name, env.resolved name s = env.resolved name start
  extensions : s.extensions = t.extensions
  exports : ∀ name, env.Asks start root name → ∀ c, s.extensions.lookup name = some (some c) →
    c.isBlind "values" inner
  blocks : ∀ region, Option.Rel (Block.Alike env start root inner)
    (s.registry.blocks.lookup region) (t.registry.blocks.lookup region)
  pending : s.registry.pending = t.registry.pending
  depth : s.depth = t.depth

def hidden : Lockstep where
  states := HiddenStates env start root inner

variable {env start root inner}

namespace HiddenStates

theorem start_self (hkept : ∀ name, env.Asks start root name → ∀ c,
    start.extensions.lookup name = some (some c) → c.isBlind "values" inner) :
    HiddenStates env start root inner start start := by
  refine ⟨rfl, rfl, fun _ => rfl, rfl, hkept, fun region => ?_, rfl, rfl⟩
  cases start.registry.blocks.lookup region with
  | none => exact .none
  | some block => exact .some (.same block)

variable {s t : State} (h : HiddenStates env start root inner s t)

include h

theorem change (f : HostState → HostState) :
    HiddenStates env start root inner { s with host := f s.host } { t with host := f t.host } :=
  { h with host := congrArg f h.host }

theorem looked (name : String) :
    HiddenStates env start root inner (env.looked name s) (env.looked name t) := by
  have hresolved : ∀ other, env.resolved other (env.looked name s) = env.resolved other start :=
    fun other => (env.resolved_looked name s other).trans (h.resolved other)
  unfold Environment.looked at hresolved ⊢
  rw [← h.templates]
  split at hresolved
  · next hkept =>
    rw [if_pos hkept, if_pos hkept]
    exact h
  · next hkept =>
    rw [if_neg hkept, if_neg hkept]
    refine { h with host := ?_, templates := ?_, resolved := hresolved }
    · exact congrArg (env.readHost name) h.host
    · unfold Environment.fetched
      rw [h.templates]

theorem addBlock {b b' : Block} (hb : Block.Alike env start root inner b b') (region : String) :
    HiddenStates env start root inner { s with registry := s.registry.addBlock region b }
      { t with registry := t.registry.addBlock region b' } := by
  refine { h with blocks := fun other => ?_ }
  have hother := h.blocks other
  rw [Registry.lookup_addBlock, Registry.lookup_addBlock]
  generalize s.registry.blocks.lookup other = kept at hother
  generalize t.registry.blocks.lookup other = kept' at hother
  cases hother with
  | some hkept => exact .some hkept
  | none =>
    by_cases hregion : other = region
    · rw [if_pos hregion, if_pos hregion]
      exact .some hb
    · rw [if_neg hregion, if_neg hregion]
      exact .none

end HiddenStates

theorem hidden_host : (hidden env start root inner).HostClosed := by
  refine ⟨?_, ?_, ?_, ?_, ?_, fun _ => trivial, fun _ _ _ _ => trivial, fun _ _ _ _ => ⟨id, id⟩⟩
  · intro s t hs
    rw [hs.host]
  · exact fun hs label => hs.change fun h => { h with calls := h.calls ++ [.function label] }
  · exact fun hs counters => hs.change fun h => { h with counters }
  · exact fun hs consumed => hs.change fun h => { h with consumed }
  · exact fun hs next => hs.change fun h => { h with nextStream := next }

theorem hidden_warn (warning : Warning) :
    (hidden env start root inner).Agrees (warn warning) (warn warning) :=
  agrees_update fun _ _ hs => hs.change fun h => { h with warnings := h.warnings ++ [warning] }

theorem hidden_template (name : String) :
    (hidden env start root inner).Gives (fun m => env.resolved name start = .ok m)
      (env.template name) (env.template name) := by
  intro s t hs
  have ht : env.resolved name t = env.resolved name start := by
    rw [← hs.resolved]
    unfold Environment.resolved
    rw [hs.templates]
  rw [env.perform_template, env.perform_template, ht, hs.resolved]
  cases hfound : env.resolved name start with
  | error fault => exact .error trivial (hs.looked name)
  | ok nodes => exact .ok ⟨rfl, rfl⟩ (hs.looked name)

theorem hidden_exported {K : HostKind} (hK : K.Sound) {name : String}
    (hload : ∀ require ∈ env.require, ∀ v, require name = .ok (some v) → K.value v)
    (hkept : ∀ c, (env.Asks start root name → c.isBlind "values" inner) → K.content c)
    (hkeep : ∀ c, K.content c → env.Asks start root name → c.isBlind "values" inner) :
    (hidden env start root inner).Gives (fun m => ∀ c ∈ m, K.content c) (env.exported name)
      (env.exported name) := by
  have hfetch : (hidden env start root inner).Gives (fun m => ∀ c ∈ m, K.content c)
      (env.fetchExtension name) (env.fetchExtension name) := by
    rw [env.fetchExtension_eq]
    cases hr : env.require with
    | none => exact hidden_host.gives_decodeExport hK (hidden_warn _) nofun nofun
    | some require =>
      refine Agrees.bind (agrees_update fun s t hs => ?_) fun _ => ?_
      · exact hs.change fun h => { h with calls := h.calls ++ [.require name] }
      · exact hidden_host.gives_decodeExport hK (hidden_warn _) (fun _ _ => trivial)
          (hload require hr)
  refine Gives.bind (P := fun kept => ∀ c, kept = some (some c) → K.content c)
    (relates_observe fun s t hs => ?_) fun kept hkept => ?_
  · refine ⟨by rw [hs.extensions], fun c hc => hkept c fun hasked => ?_⟩
    exact hs.exports name hasked c hc
  · cases kept with
    | some found =>
      refine gives_pure fun c hc => hkept c ?_
      rw [hc]
    | none =>
      refine Gives.bind hfetch fun found hfound => ?_
      refine Agrees.bind (agrees_update fun s t hs => ?_) fun _ => gives_pure hfound
      refine { hs with extensions := ?_, exports := fun other hother c hc => ?_ }
      · rw [hs.extensions]
      · by_cases hname : other = name
        · subst hname
          rw [OrderedMap.lookup_insert_self] at hc
          exact hkeep c (hfound c (Option.some.inj hc)) hother
        · rw [OrderedMap.lookup_insert_of_ne _ _ hname] at hc
          exact hs.exports other hother c hc

def seen (env : Environment) (start : State) (root : Tag) (inner : Bool) : Bool → View
  | false => .same
  | true => .hidden env start root inner

def seenTag (env : Environment) (start : State) (root : Tag) : Bool → Tag → Prop
  | false, _ => True
  | true, tag => env.Unfolds start root tag

section Render

variable (hvalues : ∀ tag, env.Unfolds start root tag → ¬ tag.LooksUp "values")
  (hexports : ∀ require ∈ env.require, ∀ name, env.Asks start root name →
    ∀ v, require name = .ok (some v) → v.isBlind "values" inner)

theorem seen_sound (i : Bool) :
    (seen env start root inner i).Sound (hidden env start root inner) := by
  cases i with
  | false => exact View.same_sound hidden_host
  | true => exact View.hidden_sound env start root hidden_host

include hvalues in
theorem seen_mentions (i : Bool) (tag : Tag) (h : seenTag env start root i tag) :
    (seen env start root inner i).Mentions tag := by
  cases i with
  | false => exact View.same_mentions tag
  | true =>
    exact ⟨fun he hn => hvalues tag h ⟨he, hn⟩, fun extension he => ⟨tag, h, he⟩⟩

include hexports in
theorem seen_exported (i : Bool) (name : String)
    (h : (seen env start root inner i).extension name) :
    (hidden env start root inner).Gives
      (fun m => ∀ c ∈ m, (seen env start root inner i).kind.content c) (env.exported name)
      (env.exported name) := by
  have hasked : env.Asks start root name → (hidden env start root inner).Gives
      (fun m => ∀ c ∈ m, (HostKind.blind "values" inner).content c) (env.exported name)
      (env.exported name) := by
    intro hasked
    refine hidden_exported HostKind.blind_sound (fun require hr => hexports require hr name hasked)
      (fun c hc => ?_) fun c hc _ => ?_
    · exact (HostKind.content_blind c).2 (hc hasked)
    · exact (HostKind.content_blind c).1 hc
  cases i with
  | true => exact hasked h
  | false =>
    refine gives_exported_same ?_
    by_cases hname : env.Asks start root name
    · exact (hasked hname).agrees
    · exact (hidden_exported HostKind.any_sound (fun _ _ _ _ => trivial) (fun _ _ => trivial)
        fun c _ h => absurd h hname).agrees

theorem seen_template {i : Bool} {tag : Tag} (ht : seenTag env start root i tag) {name : String}
    (hname : tag.MayInclude name) :
    (hidden env start root inner).Relates (Option.Rel (SameTree (seenTag env start root i)))
      (env.template name) (env.template name) := by
  refine (hidden_template name).mono ?_
  rintro found _ ⟨rfl, hfound⟩
  cases found with
  | none => exact .none
  | some nodes =>
    refine .some ⟨rfl, fun child hchild => ?_⟩
    cases i with
    | false => trivial
    | true => exact .included ht hname hfound hchild

theorem seen_handlers {render render' : Renderer}
    (hr : ∀ i ns scope scope', Everywhere (seenTag env start root i) ns →
      (seen env start root inner i).scopes scope scope' →
      (hidden env start root inner).Agrees (render ns scope) (render' ns scope'))
    (i : Bool) (tag : Tag) (ht : seenTag env start root i tag)
    (hc : Everywhere (seenTag env start root i) tag.children) :
    (hidden env start root inner).HandlersIn (seen env start root inner i) env env render render' tag
      tag := by
  have finish : ∀ text options, (hidden env start root inner).Agrees (env.finish text options)
      (env.finish text options) := fun text options => hidden_host.finish rfl text options
  refine ⟨?_, ?_, ?_, ?_⟩
  · intro he hn options scope scope' hs hf
    refine agrees_renderInclude (hidden_warn _) (fun name hname =>
      seen_template ht ⟨he, hn, mayCarry_of_follows hf hname⟩) ?_
    rintro name ns _ ⟨rfl, hns⟩
    refine relates_oneDeeper (fun _ => trivial) HiddenStates.depth ?_ ?_ name ?_
    · exact fun hs d => { hs with depth := rfl }
    · exact fun hs => { hs with depth := congrArg (· - 1) hs.depth }
    · exact Agrees.bind (hr i ns scope scope' hns hs) fun text => finish text options
  · intro _ _ options scope scope' _ _
    refine agrees_renderLayout fun name _ _ s t hs => { hs with pending := ?_ }
    rw [Registry.pending_requestLayout, Registry.pending_requestLayout, hs.pending]
  · intro _ _ options scope scope' hscope _
    have hblock : Block.Alike env start root inner ⟨tag.children, scope⟩ ⟨tag.children, scope'⟩ := by
      cases i with
      | false =>
        obtain rfl : scope = scope' := hscope
        exact .same _
      | true => exact .hidden hc hscope
    exact agrees_renderBlock fun region _ s t hs => hs.addBlock hblock region
  · intro _ _ options scope scope' hs _
    refine agrees_renderRegion (fun s t hst => hst.blocks _) ?_ (finish · options)
      (hr i _ scope scope' hc hs) ?_
    · exact fun region s t hst => { hst with }
    · rintro b b' (_ | ⟨hnodes, hscopes⟩)
      · exact hr false b.nodes b.scope b.scope (fun _ _ => trivial) rfl
      · exact hr true _ _ _ hnodes hscopes

include hvalues hexports in
theorem hidden_render (budget : Nat) {nodes : List Node}
    (hnodes : Everywhere (env.Unfolds start root) nodes) {scope scope' : Scope}
    (hs : scope.Alike inner scope') :
    (hidden env start root inner).Agrees (env.render budget nodes scope)
      (env.render budget nodes scope') :=
  render_agrees_in (fun _ => hidden_host) seen_sound rfl (seen_exported hexports)
    (fun _ => trivial) (seen_mentions hvalues)
    (fun _ _ hr => seen_handlers hr) budget true nodes scope scope' hnodes hs

end Render

end Lockstep

end TagTemplate
