import TagTemplate.Proofs.Promise.Render
import TagTemplate.Proofs.Replay.Content

/-!
# Tags in a host with a past

Tags are rendered alike after a past if the nodes inside them are: templates are read by name,
extensions are loaded anew, and what a scope is entered with has known numbers.
-/

namespace TagTemplate

open Markup (Node Tag)
open TagTemplate.Action
open Replay

/-- The filters and the exports of extensions are without a memory. -/
structure Environment.Stateless (env : Environment) : Prop where
  filters : ∀ p ∈ env.filters, p.2.isStateless
  exports : ∀ require ∈ env.require, ∀ name v, require name = .ok (some v) → v.isStateless true

variable {past : HostState} {n m : Nat} {env : Environment}

namespace Environment

theorem repeats_readSource (env : Environment) (name : String) :
    Repeats past n (env.readSource name) (env.readSource name) := by
  unfold readSource
  cases env.read with
  | none => exact repeats_pure none
  | some read => exact Repeats.bind (repeats_trace _) fun _ _ _ => repeats_ofExcept _

theorem repeats_template (env : Environment) (name : String) :
    Repeats past n (env.template name) (env.template name) := by
  have hfetch : ∀ {n}, Repeats past n (env.fetchTemplate name) (env.fetchTemplate name) := by
    refine Repeats.bind (env.repeats_readSource name) fun m _ source => ?_
    cases source with
    | none => exact (repeats_warn _).map _
    | some source => exact Repeats.map (repeats_ofExcept _) some
  refine Repeats.bind (replays_observe fun s t hs => by rw [hs.templates]) fun m _ found => ?_
  cases found with
  | some nodes => exact repeats_pure nodes
  | none =>
    refine Repeats.bind hfetch fun k _ nodes => Repeats.map ?_ fun _ => nodes
    refine repeats_update (fun s t hs _ => { hs with templates := ?_ }) fun _ => Nat.le_refl _
    rw [hs.templates]

variable (hpast : past.Settled) (henv : env.Stateless)

include henv in
theorem replays_loadExport (name : String) :
    Replays past n (fun m => Option.Rel (Values past m)) (env.loadExport name)
      (env.loadExport name) := by
  have hnone : ∀ {m},
      Replays past m (fun m => Option.Rel (Values past m)) (pure none) (pure none) :=
    replays_pure fun _ _ => .none
  unfold loadExport
  cases hrequire : env.require with
  | none => exact hnone
  | some require =>
    have hloaded : ∀ {m}, Replays past m
        (fun _ found found' => found' = found ∧ ∀ v ∈ found, v.isStateless true)
        (Action.ofExcept (require name)) (Action.ofExcept (require name)) := by
      refine replays_ofExcept fun found hfound _ => ⟨rfl, ?_⟩
      rintro v rfl
      exact henv.exports require hrequire name v hfound
    refine Repeats.bind (repeats_trace _) fun m _ _ => Replays.bind hloaded ?_
    rintro k - _ found ⟨rfl, hstateless⟩
    cases found with
    | none => exact hnone
    | some v =>
      refine Replays.bind (v.replays_refresh (hstateless v rfl)) ?_
      rintro k - v _ ⟨hv, rfl⟩
      have hsome : Replays past k (fun m => Option.Rel (Values past m)) (pure (some v))
          (pure (some (v.renumber past.nextStream))) :=
        replays_pure fun _ hm => .some ⟨hv.mono hm, rfl⟩
      cases v with
      | null => exact hnone
      | _ => exact hsome

include hpast henv

theorem replays_exported (name : String) :
    Replays past n (fun m => Option.Rel (Contents past m)) (env.exported name)
      (env.exported name) := by
  have hfetch : ∀ {n}, Replays past n (fun m => Option.Rel (Contents past m))
      (env.fetchExtension name) (env.fetchExtension name) := by
    refine Replays.bind (replays_loadExport henv name) fun m _ found found' hfound => ?_
    cases hfound with
    | none => exact Repeats.bind (repeats_warn _) fun _ _ _ => replays_pure fun _ _ => .none
    | some hv =>
      obtain ⟨hv, rfl⟩ := hv
      refine Replays.bind (Content.replays_ofHost hpast hv) fun k _ c c' hc => ?_
      exact replays_pure fun _ hm => .some (hc.mono hm)
  refine Replays.bind (Q := fun m => Option.Rel (Option.Rel (Contents past m)))
    (replays_observe fun s t hs => hs.extensions name) fun m _ found found' hfound => ?_
  cases hfound with
  | some hc => exact replays_pure fun _ hm => rel_mono (Contents.mono hm) hc
  | none =>
    refine Replays.bind hfetch fun k _ c c' hc => ?_
    refine Repeats.bind (repeats_update ?_ fun _ => Nat.le_refl _) fun l hl _ => ?_
    · rintro s t hs hk
      refine { hs with extensions := fun other => ?_ }
      exact OrderedMap.rel_lookup_insert (rel_mono (Contents.mono hk) hc) (hs.extensions other)
    · exact replays_pure fun _ hm => rel_mono (Contents.mono (Nat.le_trans hl hm)) hc

theorem replays_extension {scope : Scope} (hs : scope.Known n) (name : String) :
    Replays past n (fun m home home' => (∀ s ∈ home, s.Known m) ∧
        home' = home.map (Scope.renumber past.nextStream))
      (env.extension name scope) (env.extension name (scope.renumber past.nextStream)) := by
  refine Replays.bind (env.replays_exported hpast henv name) fun m hm found found' hfound => ?_
  cases hfound with
  | none => exact replays_pure fun _ _ => ⟨nofun, rfl⟩
  | some hc =>
    obtain ⟨hc, rfl⟩ := hc
    refine replays_pure fun k hk => ⟨?_, rfl⟩
    rintro _ ⟨⟩
    exact ((hs.mono hm).enter hc).mono hk

end Environment

def Replay.Renders (past : HostState) (render : Renderer) : Prop :=
  ∀ {n scope}, scope.Known n → ∀ nodes,
    Repeats past n (render nodes scope) (render nodes (scope.renumber past.nextStream))

structure Occurrence.Known (n : Nat) (o : Occurrence) : Prop where
  scope : o.scope.Known n
  parent : o.parent.Known n

def Occurrence.renumber (d : Nat) (o : Occurrence) : Occurrence :=
  { o with scope := o.scope.renumber d, parent := o.parent.renumber d }

variable {o : Occurrence} {c : Content} {render : Renderer} (hpast : past.Settled)
  (henv : env.Stateless) (hr : Replay.Renders past render)

theorem Occurrence.Known.mono (hnm : n ≤ m) (h : o.Known n) : o.Known m :=
  ⟨h.scope.mono hnm, h.parent.mono hnm⟩

namespace Occurrence

include hr in
theorem repeats_enclosed (ho : o.Known n) :
    Repeats past n (o.enclosed render) ((o.renumber past.nextStream).enclosed render) :=
  hr ho.scope o.tag.children

include hpast hr

theorem replays_call (ho : o.Known n) {f : HostFunction} (hf : f.isStateless) :
    Replays past n (Contents past) (o.call render f)
      ((o.renumber past.nextStream).call render f) := by
  have harguments : List.Forall₂ (Passed past n) (o.arguments render)
      ((o.renumber past.nextStream).arguments render) :=
    .cons (.options _) (.cons (.enclosing (o.repeats_enclosed hr ho))
      (.cons (.scope (o.scope.accesses hpast ho.scope)) .nil))
  refine Replays.bind (HostValue.replays_invoke (v := .function f) hf harguments) ?_
  rintro m - v _ ⟨hv, rfl⟩
  exact Content.replays_ofHost hpast hv

theorem replays_settle (budget : Nat) (ho : o.Known n) {f : HostFunction} (hf : f.isStateless) :
    Replays past n (Contents past) (o.settle render budget f)
      ((o.renumber past.nextStream).settle render budget f) := by
  induction budget generalizing f n with
  | zero => exact replays_fail _
  | succ budget ih =>
    refine Replays.bind (o.replays_call hpast hr ho hf) ?_
    rintro m hm c _ ⟨hc, rfl⟩
    cases c with
    | callable g => exact ih (ho.mono hm) hc
    | _ => exact replays_content hc

theorem replays_itemContent (ho : o.Known n) {item : HostValue} (hitem : item.Known n) :
    Replays past n (Contents past) (o.itemContent render item)
      ((o.renumber past.nextStream).itemContent render (item.renumber past.nextStream)) := by
  refine Replays.bind (Content.replays_ofHost hpast hitem) ?_
  rintro m hm c _ ⟨hc, rfl⟩
  cases c with
  | callable f => exact o.replays_call hpast hr (ho.mono hm) hc
  | _ => exact replays_content hc

end Occurrence

theorem Frame.known_item (hc : c.Known n) (iteration : Iteration) :
    Frame.Known n { value := c, bindings := itemBindings c, iteration := some iteration } :=
  ⟨hc, fun _ _ hb => eq_of_lookup_itemBindings hb ▸ hc⟩

theorem itemBindings_renumber (d : Nat) (c : Content) :
    itemBindings (c.renumber d) = (itemBindings c).map fun p => (p.1, p.2.renumber d) := by
  cases c <;> rfl

theorem known_window {items : List HostValue} (hi : KnownItems n items) (skip : Int)
    (limit : Option Int) : KnownItems n (Content.window items skip limit) :=
  knownItems_iff.2 fun v hv => knownItems_iff.1 hi v (mem_of_mem_window hv)

theorem window_renumber (d : Nat) (items : List HostValue) (skip : Int) (limit : Option Int) :
    Content.window (renumberItems d items) skip limit =
      renumberItems d (Content.window items skip limit) := by
  unfold Content.window
  cases limit <;> simp [renumberItems_eq_map, List.map_drop, List.map_take]

include hpast hr in
theorem Occurrence.repeats_item (ho : o.Known n) (iteration : Iteration) {item : HostValue}
    (hitem : item.Known n) :
    Repeats past n (o.item render iteration item)
      ((o.renumber past.nextStream).item render iteration (item.renumber past.nextStream)) := by
  refine Replays.bind (o.replays_itemContent hpast hr ho hitem) ?_
  rintro m hm c _ ⟨hc, rfl⟩
  rw [itemBindings_renumber]
  refine Replays.ite (c.repeats_inline hpast o.options hc) ?_
  exact hr ((ho.parent.mono hm).push (Frame.known_item hc iteration)) o.tag.children

namespace Environment

include henv in
theorem repeats_finishAfter {a b : Action String} (h : Repeats past n a b) (options : Options) :
    Repeats past n (do env.finish (← a) options) (do env.finish (← b) options) :=
  Repeats.bind h fun _ _ text => repeats_finish henv.filters text options

include hpast henv hr

theorem repeats_collection (ho : o.Known n) {items : List HostValue} (hi : KnownItems n items) :
    Repeats past n (env.collection render o items)
      (env.collection render (o.renumber past.nextStream)
        (renumberItems past.nextStream items)) := by
  have hframe : Frame.Known n
      { value := .array items, bindings := [("values", .array items)], collection := true } := by
    refine ⟨hi, fun name c hc => ?_⟩
    cases List.mem_singleton.1 (OrderedMap.mem_of_lookup hc)
    exact hi
  refine Replays.ite ?_ ?_
  · exact repeats_finishAfter henv (Content.repeats_inline hpast o.options (.array items) hi) _
  · exact repeats_finishAfter henv (hr (ho.parent.push hframe) o.tag.children) _

theorem repeats_repetition (ho : o.Known n) {items : List HostValue} (hi : KnownItems n items) :
    Repeats past n (env.repetition render o items)
      (env.repetition render (o.renumber past.nextStream)
        (renumberItems past.nextStream items)) := by
  unfold repetition
  rw [renumberItems_eq_map, List.length_map, List.zipIdx_map, List.mapM_map]
  refine Repeats.bind (repeats_mapM fun p hp k hk => ?_) fun _ _ parts =>
    repeats_finish henv.filters _ _
  have hitem := List.mem_of_getElem? (List.mem_zipIdx_iff_getElem?.1 hp)
  exact o.repeats_item hpast hr (ho.mono hk) _ ((knownItems_iff.1 hi _ hitem).mono hk)

theorem repeats_showContent (ho : o.Known n) (hc : c.Known n) :
    Repeats past n (env.showContent render o c)
      (env.showContent render (o.renumber past.nextStream) (c.renumber past.nextStream)) := by
  have hother : Repeats past n
      (if o.tag.children.isEmpty then do env.finish (← c.inline o.options) o.options
        else do env.finish (← render o.tag.children (o.parent.enter c)) o.options)
      (if o.tag.children.isEmpty then do
          env.finish (← (c.renumber past.nextStream).inline o.options) o.options
        else do
          env.finish (← render o.tag.children ((o.parent.renumber past.nextStream).enter
            (c.renumber past.nextStream))) o.options) :=
    Replays.ite (repeats_finishAfter henv (c.repeats_inline hpast o.options hc) _)
      (repeats_finishAfter henv (hr (ho.parent.enter hc) o.tag.children) _)
  cases c with
  | missing => exact repeats_pure ""
  | null => exact repeats_pure ""
  | callable f => exact repeats_pure ""
  | bool b =>
    refine Replays.ite (repeats_finish henv.filters _ _) (Replays.ite ?_ (repeats_pure ""))
    exact repeats_finishAfter henv (o.repeats_enclosed hr ho) _
  | number k => exact hother
  | string s =>
    by_cases hs : s = ""
    · subst hs
      exact repeats_pure ""
    · have hshow : ∀ o, env.showContent render o (.string s) =
          (if o.tag.children.isEmpty then do
            env.finish (← (Content.string s).inline o.options) o.options
          else do env.finish (← render o.tag.children (o.parent.enter (.string s))) o.options) := by
        intro o
        simp [showContent, hs]
      change Repeats past n _ (env.showContent render (o.renumber past.nextStream) (.string s))
      rw [hshow, hshow]
      exact hother
  | array items =>
    cases items with
    | nil => exact repeats_pure ""
    | cons v vs =>
      exact Replays.ite (repeats_collection hpast henv hr ho hc)
        (repeats_repetition hpast henv hr ho hc)
  | object x => exact hother

theorem repeats_showReturned (ho : o.Known n) (hc : c.Known n) :
    Repeats past n (env.showReturned render o c)
      (env.showReturned render (o.renumber past.nextStream) (c.renumber past.nextStream)) := by
  have hcontent := repeats_showContent hpast henv hr ho hc
  refine Replays.ite hcontent ?_
  cases c with
  | string s => exact repeats_finish henv.filters _ _
  | number k =>
    exact Repeats.bind (repeats_written k) fun _ _ text => repeats_finish henv.filters text _
  | _ => exact hcontent

theorem repeats_showSubject (ho : o.Known n) (hc : c.Known n) (budget : Nat) :
    Repeats past n (env.showSubject render budget o c)
      (env.showSubject render budget (o.renumber past.nextStream)
        (c.renumber past.nextStream)) := by
  have hcontent := repeats_showContent hpast henv hr ho hc
  cases c with
  | callable f =>
    refine Replays.bind (o.replays_settle hpast hr budget ho hc) ?_
    rintro m hm c _ ⟨hc, rfl⟩
    exact repeats_showReturned hpast henv hr (ho.mono hm) hc
  | _ => exact hcontent

omit henv in
theorem repeats_isPresent (ho : o.Known n) (hc : c.Known n) (budget : Nat) :
    Repeats past n (isPresent render budget o c)
      (isPresent render budget (o.renumber past.nextStream) (c.renumber past.nextStream)) := by
  have hpresent := c.present_renumber past.nextStream
  cases c with
  | callable f =>
    refine Replays.bind (o.replays_settle hpast hr budget ho hc) ?_
    rintro m - c _ ⟨-, rfl⟩
    rw [c.present_renumber]
    exact repeats_pure _
  | _ => exact replays_pure fun _ _ => hpresent.symm

theorem repeats_renderSubject (ho : o.Known n) (isNegated : Bool) (hc : c.Known n) (budget : Nat) :
    Repeats past n (env.renderSubject render budget o isNegated c)
      (env.renderSubject render budget (o.renumber past.nextStream) isNegated
        (c.renumber past.nextStream)) := by
  unfold renderSubject
  split
  · refine Repeats.bind (repeats_isPresent hpast hr ho hc budget) fun m hm present => ?_
    split
    · exact repeats_pure ""
    · exact o.repeats_enclosed hr (ho.mono hm)
  · exact repeats_showSubject hpast henv hr ho hc budget

omit hpast henv hr in
theorem repeats_oneDeeper (env : Environment) (name : String) {a b : Action String}
    (h : Repeats past n a b) :
    Repeats past n (env.oneDeeper name a) (env.oneDeeper name b) := by
  refine Replays.thenAlways ?_ (fun s t hs => { hs with depth := ?_ }) fun _ => rfl
  · refine Repeats.bind (repeats_update ?_ fun _ => Nat.le_refl _) fun m hm _ => ?_
    · exact fun s t hs _ => { hs with depth := congrArg (· + 1) hs.depth }
    · refine Repeats.bind (replays_observe fun s t hs => hs.depth.symm) fun k hk depth => ?_
      exact Replays.ite (replays_fail _) (h.later (Nat.le_trans hm hk))
  · exact congrArg (· - 1) hs.depth

omit hpast in
theorem repeats_renderInclude (ho : o.Known n) :
    Repeats past n (env.renderInclude render o)
      (env.renderInclude render (o.renumber past.nextStream)) := by
  unfold renderInclude
  dsimp only [Occurrence.renumber]
  split
  · exact (repeats_warn _).map _
  · exact (repeats_warn _).map _
  · refine Repeats.bind (env.repeats_template _) fun m hm nodes => ?_
    cases nodes with
    | none => exact repeats_pure ""
    | some nodes =>
      refine env.repeats_oneDeeper _ (repeats_finishAfter henv ?_ _)
      exact hr (ho.scope.mono hm) nodes

omit hpast henv hr in
theorem repeats_renderLayout (o : Occurrence) (d : Nat) :
    Repeats past n (renderLayout o) (renderLayout (o.renumber d)) := by
  unfold renderLayout
  dsimp only [Occurrence.renumber]
  split
  · exact repeats_pure ""
  · exact repeats_pure ""
  · refine Repeats.bind (repeats_update (fun s t hs _ => ?_) fun _ => Nat.le_refl _) fun _ _ _ =>
      repeats_pure ""
    exact { hs with pending := congrArg (Option.or · _) hs.pending }

omit hpast henv hr in
theorem repeats_renderBlock (ho : o.Known n) :
    Repeats past n (renderBlock o) (renderBlock (o.renumber past.nextStream)) := by
  unfold renderBlock
  dsimp only [Occurrence.renumber]
  split
  · exact repeats_pure ""
  · exact repeats_pure ""
  · next region _ _ =>
    refine Repeats.bind (repeats_update (fun s t hs hn => ?_) fun _ => Nat.le_refl _) fun _ _ _ =>
      repeats_pure ""
    refine { hs with blocks := fun other => ?_ }
    have hblock : Blocks past s.host.nextStream ⟨o.tag.children, o.scope⟩
        ⟨o.tag.children, o.scope.renumber past.nextStream⟩ :=
      ⟨rfl, ho.scope.mono hn, rfl⟩
    have hother := hs.blocks other
    rw [Registry.lookup_addBlock, Registry.lookup_addBlock]
    generalize s.registry.blocks.lookup other = b at hother
    generalize t.registry.blocks.lookup other = b' at hother
    cases hother with
    | some hkept => exact .some hkept
    | none =>
      simp only [Option.none_or]
      split
      · exact .some hblock
      · exact .none

omit hpast in
theorem repeats_renderRegion (ho : o.Known n) :
    Repeats past n (env.renderRegion render o)
      (env.renderRegion render (o.renumber past.nextStream)) := by
  have hfind : ∀ region, Replays past n (fun m => Option.Rel (Blocks past m)) (findBlock region)
      (findBlock region) :=
    fun region s t hs _ => .ok (Nat.le_refl _) (hs.blocks region) { hs with }
  refine Replays.bind (hfind _) fun m hm found found' hfound => ?_
  cases hfound with
  | none => exact repeats_finishAfter henv (o.repeats_enclosed hr (ho.mono hm)) _
  | @some b b' hb =>
    obtain ⟨nodes, scope⟩ := b'
    obtain ⟨rfl, hknown, rfl⟩ := hb
    exact repeats_finishAfter henv (hr hknown b.nodes) _

omit hpast in
theorem repeats_renderMarker (ho : o.Known n) (atEnd : Iteration → Bool) :
    Repeats past n (env.renderMarker render o atEnd)
      (env.renderMarker render (o.renumber past.nextStream) atEnd) := by
  unfold renderMarker
  dsimp only [Occurrence.renumber]
  rw [Scope.nearestIteration_renumber]
  split
  · exact repeats_pure ""
  · refine Replays.ite ?_ (repeats_pure "")
    exact repeats_finishAfter henv (o.repeats_enclosed hr ho) _

theorem repeats_renderItemValue (ho : o.Known n) (budget : Nat) :
    Repeats past n (env.renderItemValue render budget o)
      (env.renderItemValue render budget (o.renumber past.nextStream)) := by
  refine Replays.ite (repeats_pure "") (Replays.bind (o.scope.replays_lookup hpast ho.scope _) ?_)
  rintro m hm c _ ⟨hc, rfl⟩
  exact repeats_showSubject hpast henv hr (ho.mono hm) hc budget

theorem repeats_renderItemValues (ho : o.Known n) (budget : Nat) :
    Repeats past n (env.renderItemValues render budget o)
      (env.renderItemValues render budget (o.renumber past.nextStream)) := by
  refine Replays.bind (o.scope.replays_lookup hpast ho.scope _) ?_
  rintro m hm c _ ⟨hc, rfl⟩
  have hother := repeats_showSubject hpast henv hr (ho.mono hm) hc budget
  cases c with
  | array items =>
    have hwindow := fun skip limit => repeats_showSubject (c := .array _) hpast henv hr (ho.mono hm)
      (known_window hc skip limit) budget
    simp only [Content.renumber, ← window_renumber] at hwindow
    exact hwindow _ _
  | _ => exact hother

theorem repeats_renderStructural (ho : o.Known n) (budget : Nat) (structural : Structural) :
    Repeats past n (env.renderStructural render budget o structural)
      (env.renderStructural render budget (o.renumber past.nextStream) structural) := by
  cases structural with
  | «include» => exact repeats_renderInclude henv hr ho
  | layout => exact repeats_renderLayout o _
  | block => exact repeats_renderBlock ho
  | region => exact repeats_renderRegion henv hr ho
  | first => exact repeats_renderMarker henv hr ho _
  | last => exact repeats_renderMarker henv hr ho _
  | value => exact repeats_renderItemValue hpast henv hr ho budget
  | values => exact repeats_renderItemValues hpast henv hr ho budget

section Tags

variable {tag : Tag} {options : Options} {scope : Scope} (hs : scope.Known n) (budget : Nat)

include hs

theorem repeats_renderExtensionTag (extension : String) :
    Repeats past n (env.renderExtensionTag render budget tag options scope extension)
      (env.renderExtensionTag render budget tag options (scope.renumber past.nextStream)
        extension) := by
  refine Replays.bind (env.replays_extension hpast henv hs extension) ?_
  rintro m hm home _ ⟨hhome, rfl⟩
  cases home with
  | none =>
    exact repeats_renderSubject (o := ⟨tag, options, scope, scope⟩) (c := .missing) hpast henv hr
      ⟨hs.mono hm, hs.mono hm⟩ _ trivial budget
  | some home =>
    have hknown := hhome home rfl
    refine Replays.bind (home.frame.replays_own hpast hknown.frame _) ?_
    rintro k hk c _ ⟨hc, rfl⟩
    exact repeats_renderSubject (o := ⟨tag, options, scope, home⟩) hpast henv hr
      ⟨hs.mono (Nat.le_trans hm hk), hknown.mono hk⟩ _ hc budget

theorem repeats_renderWith :
    Repeats past n (env.renderWith render budget tag options scope)
      (env.renderWith render budget tag options (scope.renumber past.nextStream)) := by
  have ho : Occurrence.Known n ⟨tag, options, scope, scope⟩ := ⟨hs, hs⟩
  have named : ∀ isNegated name, Repeats past n
      (scope.lookup name >>=
        env.renderSubject render budget ⟨tag, options, scope, scope⟩ isNegated)
      ((scope.renumber past.nextStream).lookup name >>=
        env.renderSubject render budget ⟨tag, options, scope.renumber past.nextStream,
          scope.renumber past.nextStream⟩ isNegated) := by
    intro isNegated name
    refine Replays.bind (scope.replays_lookup hpast hs name) ?_
    rintro m hm c _ ⟨hc, rfl⟩
    exact repeats_renderSubject hpast henv hr (ho.mono hm) isNegated hc budget
  unfold renderWith
  cases tag.extension with
  | some extension => exact repeats_renderExtensionTag hpast henv hr hs budget extension
  | none =>
    dsimp only
    split
    · exact named true _
    · split
      · exact repeats_renderStructural hpast henv hr ho budget _
      · exact named false _

omit hpast henv in
theorem repeats_optionsOf (tag : Tag) :
    Repeats past n (optionsOf render scope tag)
      (optionsOf render (scope.renumber past.nextStream) tag) := by
  refine repeats_mapM fun p _ m hm => Repeats.map ?_ _
  cases p.2 with
  | literal text => exact repeats_pure text
  | markup nodes => exact hr (hs.mono hm) nodes

theorem repeats_renderTag :
    Repeats past n (env.renderTag render budget tag scope)
      (env.renderTag render budget tag (scope.renumber past.nextStream)) := by
  refine Repeats.bind (repeats_optionsOf hr hs tag) fun m hm options => ?_
  exact (repeats_renderWith hpast henv hr (hs.mono hm) budget).map _

theorem repeats_renderNodes (nodes : List Node) :
    Repeats past n (env.renderNodes render budget nodes scope)
      (env.renderNodes render budget nodes (scope.renumber past.nextStream)) := by
  refine Repeats.map (repeats_mapM fun node _ m hm => ?_) _
  cases node with
  | text value => exact repeats_pure value
  | tag tag => exact repeats_renderTag hpast henv hr (hs.mono hm) budget

end Tags

end Environment

end TagTemplate
