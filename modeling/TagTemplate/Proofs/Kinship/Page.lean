import TagTemplate.Proofs.Kinship.Render

/-!
# Rendering pages that are akin

Templates are read alike in both renderings, and what extensions export corresponds. Then includes,
layouts, blocks and regions keep the states in correspondence, and by induction on the budget so does
all that is rendered.
-/

namespace TagTemplate

open Markup (Node Tag)
open TagTemplate.Action
open Lockstep

/-- Loading an extension comes to the same end twice, up to what it exports. -/
inductive Loads (value : HostValue → HostValue → Prop) :
    Except Fault (Option HostValue) → Except Fault (Option HostValue) → Prop where
  | none : Loads value (.ok none) (.ok none)
  | some {v v'} : value v v' → Loads value (.ok (some v)) (.ok (some v'))
  | error (e) : Loads value (.error e) (.error e)

namespace Kinship

variable (K : Kinship)

/-- Two environments that read the same templates and load extensions that correspond. -/
structure Environments (env env' : Environment) : Prop where
  filters : env.filters = []
  filters' : env'.filters = []
  maxDepth : env.maxDepth = env'.maxDepth
  layoutPrefix : env.layoutPrefix = env'.layoutPrefix
  read : env.read = env'.read
  templates : ∀ name nodes, env.found name = .ok (some nodes) → K.nodes True nodes nodes
  require : Option.Rel
    (fun load load' => ∀ name, K.extension name → Loads K.value (load name) (load' name))
    env.require env'.require

variable {K} {env env' : Environment} (h : K.Sound) (henv : K.Environments env env')

include h henv

theorem relates_fetchTemplate (name : String) :
    K.lockstep.Relates (Option.Rel (K.nodes True)) (env.fetchTemplate name)
      (env'.fetchTemplate name) := by
  intro s t hs
  have hfound : env.found name = env'.found name := by
    unfold Environment.found
    rw [henv.read]
  have hhost : ∀ g, env'.readHost name g = env.readHost name g := by
    intro g
    unfold Environment.readHost Environment.readCalls
    rw [henv.read, hfound]
  have hst : K.States { s with host := env.readHost name s.host }
      { t with host := env'.readHost name t.host } := by
    rw [hhost]
    exact { hs with host := h.host hs.host _ _ }
  rw [env.perform_fetchTemplate, env'.perform_fetchTemplate, ← hfound]
  cases hf : env.found name with
  | error e => exact .error trivial hst
  | ok nodes =>
    cases nodes with
    | none => exact .ok .none hst
    | some nodes => exact .ok (.some (henv.templates name nodes hf)) hst

theorem relates_template (name : String) :
    K.lockstep.Relates (Option.Rel (K.nodes True)) (env.template name) (env'.template name) := by
  refine Relates.bind (relates_observe fun s t hs => hs.templates name) fun kept kept' hkept => ?_
  cases hkept with
  | some hnodes => exact relates_pure hnodes
  | none =>
    refine Relates.bind (relates_fetchTemplate h henv name) fun nodes nodes' hnodes => ?_
    refine Agrees.bind (agrees_update fun s t hs => ?_) fun _ => relates_pure hnodes
    refine { hs with templates := fun other => ?_ }
    exact OrderedMap.rel_lookup_insert hnodes (hs.templates other)

omit henv in
theorem relates_decodeExport (name : String) {loaded loaded' : Except Fault (Option HostValue)}
    (hl : Loads K.value loaded loaded') :
    K.lockstep.Relates (Option.Rel K.content) (Environment.decodeExport name loaded)
      (Environment.decodeExport name loaded') := by
  have missing : K.lockstep.Relates (Option.Rel K.content)
      (do Action.warn (.extension name); return none)
      (do Action.warn (.extension name); return none) :=
    Agrees.bind (h.warned _) fun _ => relates_pure .none
  cases hl with
  | none => exact missing
  | error e => exact relates_fail trivial
  | some hv =>
    unfold Environment.decodeExport Action.ofExcept
    simp only [pure_bind]
    refine Relates.bind (h.refresh hv) fun v v' hv => ?_
    have hnull := h.isNull hv
    split
    · obtain rfl := hnull.1 rfl
      exact missing
    · next hne =>
      split
      · exact absurd (hnull.2 rfl) hne
      · exact Relates.bind (h.ofHost hv) fun _ _ hc => relates_pure (.some hc)

theorem relates_exported (name : String) (hn : K.extension name) :
    K.lockstep.Relates (Option.Rel K.content) (env.exported name) (env'.exported name) := by
  have hfetch : K.lockstep.Relates (Option.Rel K.content) (env.fetchExtension name)
      (env'.fetchExtension name) := by
    rw [env.fetchExtension_eq, env'.fetchExtension_eq]
    have hrequire := henv.require
    generalize env.require = require at hrequire
    generalize env'.require = require' at hrequire
    cases hrequire with
    | none => exact relates_decodeExport h name .none
    | some hload =>
      exact Agrees.bind (h.traced _) fun _ => relates_decodeExport h name (hload name hn)
  refine Relates.bind (relates_observe fun s t hs => hs.extensions name hn)
    fun kept kept' hkept => ?_
  cases hkept with
  | some hc => exact relates_pure hc
  | none =>
    refine Relates.bind hfetch fun c c' hc => ?_
    refine Agrees.bind (agrees_update fun s t hs => ?_) fun _ => relates_pure hc
    refine { hs with extensions := fun other hother => ?_ }
    exact OrderedMap.rel_lookup_insert hc (hs.extensions other hother)

section Tags

variable {seen : Prop} {o o' : Occurrence} {render render' : Renderer}
  (hr : K.Renders K.lockstep env env' render render')

include hr in
theorem relates_renderInclude (ho : K.Occurrences seen o o') :
    K.lockstep.Relates (Shown seen) (env.renderInclude render o)
      (env'.renderInclude render' o') := by
  have hdeeper : env'.oneDeeper = env.oneDeeper := by
    unfold Environment.oneDeeper
    rw [henv.maxDepth]
  have hunnamed : K.lockstep.Relates (Shown seen) (do Action.warn .unnamedInclude; return "")
      (do Action.warn .unnamedInclude; return "") :=
    Agrees.bind (h.warned _) fun _ => relates_pure (Shown.of_eq rfl)
  unfold Environment.renderInclude
  rw [ho.options, hdeeper]
  split
  · exact hunnamed
  · exact hunnamed
  · refine Relates.bind (relates_template h henv _) fun nodes nodes' hnodes => ?_
    cases hnodes with
    | none => exact relates_pure (Shown.of_eq rfl)
    | some hnodes =>
      refine relates_oneDeeper (fun _ => trivial) States.depth ?_ ?_ _ ?_
      · exact fun hs d => { hs with depth := rfl }
      · exact fun hs => { hs with depth := congrArg (· - 1) hs.depth }
      · refine Relates.bind (hr.render hnodes ho.scope) fun text text' ht => ?_
        exact hr.finish (Shown.of_eq (ht trivial)) rfl

omit h henv in
theorem relates_renderLayout (ho : K.Occurrences seen o o') :
    K.lockstep.Relates (Shown seen) (Environment.renderLayout o) (Environment.renderLayout o') := by
  unfold Environment.renderLayout
  rw [ho.options]
  split
  · exact relates_pure (Shown.of_eq rfl)
  · exact relates_pure (Shown.of_eq rfl)
  · refine Agrees.bind (agrees_update fun s t hs => ?_) fun _ => relates_pure (Shown.of_eq rfl)
    refine { hs with pending := ?_ }
    rw [Registry.pending_requestLayout, Registry.pending_requestLayout, hs.pending]

omit h henv in
theorem relates_renderBlock (ho : K.Occurrences seen o o') (hb : IsBlock o.tag) :
    K.lockstep.Relates (Shown seen) (Environment.renderBlock o) (Environment.renderBlock o') := by
  have hblock : K.Blocks ⟨o.tag.children, o.scope⟩ ⟨o'.tag.children, o'.scope⟩ :=
    ⟨ho.tag.body hb, ho.scope⟩
  unfold Environment.renderBlock
  rw [ho.options]
  split
  · exact relates_pure (Shown.of_eq rfl)
  · exact relates_pure (Shown.of_eq rfl)
  · refine Agrees.bind (agrees_update fun s t hs => ?_) fun _ => relates_pure (Shown.of_eq rfl)
    refine { hs with blocks := fun other => ?_ }
    have hother := hs.blocks other
    rw [Registry.lookup_addBlock, Registry.lookup_addBlock]
    generalize s.registry.blocks.lookup other = b at hother
    generalize t.registry.blocks.lookup other = b' at hother
    cases hother with
    | some hkept => exact .some hkept
    | none =>
      simp only [Option.none_or]
      split
      · exact .some hblock
      · exact .none

omit h henv in
include hr in
theorem relates_renderRegion (ho : K.Occurrences seen o o') :
    K.lockstep.Relates (Shown seen) (env.renderRegion render o) (env'.renderRegion render' o') := by
  have hfind : ∀ region, K.lockstep.Relates (Option.Rel K.Blocks) (Environment.findBlock region)
      (Environment.findBlock region) :=
    fun region s t hs => .ok (hs.blocks region) { hs with }
  unfold Environment.renderRegion
  rw [ho.options]
  refine Relates.bind (hfind _) fun b b' hb => ?_
  cases hb with
  | none => exact ho.options ▸ hr.finishEnclosed ho
  | some hb =>
    refine Relates.bind (hr.render hb.nodes hb.scope) fun text text' ht => ?_
    exact hr.finish (Shown.of_eq (ht trivial)) rfl

include hr in
theorem handlers (name : String) :
    K.Handlers K.lockstep seen env env' render render' name where
  includes _ _ _ := relates_renderInclude h henv hr
  layouts _ _ _ := relates_renderLayout
  blocks _ _ _ := relates_renderBlock
  regions _ _ _ := relates_renderRegion hr

end Tags

theorem relates_render (budget : Nat) : ∀ {seen ns ns'}, K.nodes seen ns ns' →
    ∀ {scope scope'}, K.Scopes scope scope' →
      K.lockstep.Relates (Shown seen) (env.render budget ns scope)
        (env'.render budget ns' scope') := by
  induction budget with
  | zero => exact fun _ _ _ _ => relates_fail trivial
  | succ budget ih =>
    intro seen ns ns' hns scope scope' hs
    have hr : K.Renders K.lockstep env env' (env.render budget) (env'.render budget) :=
      ⟨h.toLooks, henv.filters, henv.filters', relates_exported h henv, ih⟩
    exact hr.renderNodes (h.nodes hns) (fun tag _ => handlers h henv hr tag.name) budget hs

theorem agrees_applyLayouts (budget : Nat) {root root' : Scope} (hroot : K.Scopes root root')
    (remaining : Nat) : ∀ output,
      K.lockstep.Agrees (env.applyLayouts budget root remaining output)
        (env'.applyLayouts budget root' remaining output) := by
  have htake : K.lockstep.Agrees Environment.takeLayout Environment.takeLayout :=
    fun s t hs => .ok hs.pending { hs with pending := rfl }
  induction remaining with
  | zero =>
    intro output
    unfold Environment.applyLayouts
    refine Agrees.bind htake fun name => ?_
    cases name with
    | none => exact agrees_pure output
    | some name => exact henv.maxDepth ▸ relates_fail trivial
  | succ remaining ih =>
    intro output
    unfold Environment.applyLayouts Environment.layout
    refine Agrees.bind htake fun name => ?_
    cases name with
    | none => exact agrees_pure output
    | some name =>
      dsimp only
      rw [← henv.layoutPrefix]
      refine Relates.bind (relates_template h henv _) fun nodes nodes' hnodes => ?_
      cases hnodes with
      | none => exact Agrees.bind (h.warned _) fun _ => agrees_pure output
      | some hnodes =>
        refine Relates.bind (relates_render h henv budget hnodes hroot) fun text text' ht => ?_
        rw [ht trivial]
        exact ih text'

theorem agrees_compose (budget : Nat) {ns ns' : List Node} (hns : K.nodes True ns ns')
    {root root' : Scope} (hroot : K.Scopes root root') :
    K.lockstep.Agrees (env.compose budget ns root) (env'.compose budget ns' root') := by
  unfold Environment.compose
  refine Relates.bind (relates_render h henv budget hns hroot) fun text text' ht => ?_
  rw [ht trivial, henv.maxDepth]
  exact agrees_applyLayouts h henv budget hroot _ text'

theorem agrees_renderPage (budget : Nat) {ns ns' : List Node} (hns : K.nodes True ns ns')
    {content content' : HostValue}
    (hc : K.value (Environment.pageContent content) (Environment.pageContent content')) :
    K.lockstep.Agrees (env.renderPage budget ns content) (env'.renderPage budget ns' content') := by
  unfold Environment.renderPage Scope.ofHost
  refine Relates.bind (h.refresh hc) fun v v' hv => ?_
  refine Relates.bind (Q := K.Scopes) ?_ fun root root' hroot => ?_
  · refine Relates.bind (h.ofHost hv) fun c c' hc => relates_pure ?_
    exact .cons ⟨hc, fun _ => .none, rfl, rfl⟩ .nil
  · exact (agrees_compose h henv budget hns hroot).guardRecursion henv.maxDepth
      (fun _ => trivial) fun _ => id

omit h henv in
theorem states_start {host host' : HostState} (hhost : K.host host host')
    {templates : OrderedMap (Option (List Node))}
    (ht : ∀ name nodes, templates.lookup name = some (some nodes) → K.nodes True nodes nodes) :
    K.States { State.start host with templates } { State.start host' with templates } := by
  refine ⟨hhost, fun name => ?_, fun _ _ => .none, fun _ => .none, rfl, rfl⟩
  dsimp only
  cases hname : templates.lookup name with
  | none => exact .none
  | some found =>
    cases found with
    | none => exact .some .none
    | some nodes => exact .some (.some (ht name nodes hname))

end Kinship

end TagTemplate
