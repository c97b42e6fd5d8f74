import TagTemplate.Proofs.Compiling
import TagTemplate.Proofs.Fetching
import TagTemplate.Proofs.Promise.Render

/-!
# Pages of a material

A rendering keeps extensions, blocks and templates. Where all that the environment supplies is of a
material, so is what is kept, and fetching, layouts, blocks and regions keep to it.
-/

namespace TagTemplate

open Markup (Node Tag)
open TagTemplate.Action

/-- What a rendering has kept is of the material, with blocks and templates of some kind. -/
structure Material.Kept (M : Material) (block template : List Node → Prop) (s : State) : Prop where
  extensions : ∀ name c, s.extensions.lookup name = some (some c) → M.IsContent c
  blocks : ∀ region b, s.registry.blocks.lookup region = some b →
    block b.nodes ∧ M.IsScope b.scope
  templates : ∀ name nodes, s.templates.lookup name = some (some nodes) → template nodes

def Material.page (M : Material) (block template : List Node → Prop) (depth : Nat → Prop)
    (fails : Fault → Prop) : Promise where
  holds s := depth s.depth ∧ M.Kept block template s
  fails e _ := fails e

/-- All templates and exports that the environment supplies are of the material, and there are no
filters. Where there is no such template or export, there is one of the errors. -/
structure Environment.Supplies (env : Environment) (M : Material) (template : List Node → Prop)
    (fails : Fault → Prop) : Prop where
  sound : M.Sound
  number : ∀ n, M.number n → ¬ n.isShowable → fails .badNumber
  filters : env.filters = []
  templates : ∀ name nodes, env.found name = .ok (some nodes) → template nodes
  read : ∀ name e, env.found name = .error e → fails e
  exports : ∀ require ∈ env.require, ∀ name v, require name = .ok (some v) → M.IsValue v
  require : ∀ require ∈ env.require, ∀ name e, require name = .error e → fails e

namespace Promise

variable {P : Promise} {M : Material} {α : Type} {Q : α → Prop}

theorem Bears.rootScope (h : P.Bears M) {v : HostValue} (hv : M.IsValue v) :
    P.Keeps M.IsScope (Scope.ofHost v) := by
  refine Keeps.bind (h.ofHost hv) fun c hc => keeps_pure ?_
  intro f hf
  cases List.mem_singleton.1 hf
  exact ⟨hc, nofun⟩

theorem Bears.pageContent (h : P.Bears M) {content : HostValue} (hc : M.IsValue content) :
    P.Keeps M.IsScope (do Scope.ofHost (← (Environment.pageContent content).refresh)) := by
  have hpage : M.IsValue (Environment.pageContent content) := by
    cases content with
    | null => rfl
    | _ => exact hc
  exact Keeps.bind (h.refresh _ hpage) fun v hv => h.rootScope hv

theorem Bears.decodeExport (h : P.Bears M) (name : String)
    {loaded : Except Fault (Option HostValue)} (value : ∀ v, loaded = .ok (some v) → M.IsValue v)
    (fault : ∀ e, loaded = .error e → ∀ s, P.holds s → P.fails e s) :
    P.Keeps (fun found => ∀ c ∈ found, M.IsContent c) (Environment.decodeExport name loaded) := by
  have missing : P.Keeps (fun found => ∀ c ∈ found, M.IsContent c)
      (do Action.warn (.extension name); return none) :=
    Safe.bind (h.warn _) fun _ => keeps_pure nofun
  have present : ∀ v, M.IsValue v →
      P.Keeps (fun found => ∀ c ∈ found, M.IsContent c) (do return some (← Content.ofHost v)) := by
    refine fun v hv => Keeps.bind (h.ofHost hv) fun c hc => keeps_pure ?_
    rintro _ ⟨⟩
    exact hc
  have hloaded : P.Keeps (fun found => ∀ v ∈ found, M.IsValue v) (Action.ofExcept loaded) := by
    refine keeps_ofExcept ?_ fault
    rintro found hfound v rfl
    exact value v hfound
  refine Keeps.bind hloaded fun found hfound => ?_
  cases found with
  | none => exact missing
  | some v =>
    refine Keeps.bind (h.refresh v (hfound v rfl)) fun v hv => ?_
    cases v with
    | null => exact missing
    | _ => exact present _ hv

theorem Bears.exported (h : P.Bears M) {env : Environment}
    (kept : ∀ s, P.holds s → ∀ name c, s.extensions.lookup name = some (some c) → M.IsContent c)
    (keep : ∀ s, P.holds s → ∀ name found, (∀ c ∈ found, M.IsContent c) →
      P.holds { s with extensions := OrderedMap.insert s.extensions name found })
    (exports : ∀ require ∈ env.require, ∀ name v, require name = .ok (some v) → M.IsValue v)
    (fault : ∀ require ∈ env.require, ∀ name e, require name = .error e →
      ∀ s, P.holds s → P.fails e s) (name : String) :
    P.Keeps (fun found => ∀ c ∈ found, M.IsContent c) (env.exported name) := by
  have fetched : P.Keeps (fun found => ∀ c ∈ found, M.IsContent c) (env.fetchExtension name) := by
    rw [env.fetchExtension_eq]
    cases hr : env.require with
    | none => exact h.decodeExport name nofun nofun
    | some require =>
      refine Safe.bind (h.trace _) fun _ => ?_
      exact h.decodeExport name (exports require hr name) (fault require hr name)
  have known : P.Keeps
      (fun found : Option (Option Content) => ∀ c, found = some (some c) → M.IsContent c)
      (observe (·.extensions.lookup name)) :=
    keeps_observe fun s hs => kept s hs name
  refine Keeps.bind known fun found hfound => ?_
  cases found with
  | some found =>
    refine keeps_pure ?_
    rintro c rfl
    exact hfound c rfl
  | none =>
    refine Keeps.bind fetched fun found hfound => ?_
    exact Safe.bind (safe_update fun s hs => keep s hs name found hfound) fun _ => keeps_pure hfound

theorem Bears.compose (h : P.Bears M) {env : Environment} (template : List Node → Prop)
    {budget : Nat} {root : Scope}
    (render : ∀ {nodes}, template nodes → P.Keeps M.text (env.render budget nodes root))
    (take : ∀ s, P.holds s → P.holds { s with registry := s.registry.takeLayout.2 })
    (layout : ∀ name, P.Keeps (fun found => ∀ nodes ∈ found, template nodes) (env.layout name))
    (nesting : ∀ s, P.holds s → P.fails (.nesting env.maxDepth "layout") s) {nodes : List Node}
    (hn : template nodes) : P.Keeps M.text (env.compose budget nodes root) := by
  have htake : P.Safe Environment.takeLayout := fun s hs => .ok trivial (take s hs)
  have happly : ∀ remaining {output}, M.text output →
      P.Keeps M.text (env.applyLayouts budget root remaining output) := by
    intro remaining
    induction remaining with
    | zero =>
      intro output ho
      unfold Environment.applyLayouts
      refine Safe.bind htake fun name => ?_
      cases name with
      | none => exact keeps_pure ho
      | some name => exact keeps_fail nesting
    | succ remaining ih =>
      intro output ho
      unfold Environment.applyLayouts
      refine Safe.bind htake fun name => ?_
      cases name with
      | none => exact keeps_pure ho
      | some name =>
        refine Keeps.bind (layout name) fun found hfound => ?_
        cases found with
        | none => exact Safe.bind (h.warn _) fun _ => keeps_pure ho
        | some nodes => exact Keeps.bind (render (hfound nodes rfl)) fun text ht => ih ht
  exact Keeps.bind (render hn) fun output ho => happly env.maxDepth ho

theorem keeps_oneDeeper {env : Environment} {name : String} (P' : Promise) {Q : String → Prop}
    {body : Action String}
    (nesting : ∀ s, P.holds s → env.maxDepth ≤ s.depth →
      P.fails (.nesting env.maxDepth ("include template=\"" ++ name ++ "\"")) s)
    (deeper : ∀ s, P.holds s → s.depth < env.maxDepth →
      P'.Met Q (perform body { s with depth := s.depth + 1 }))
    (leave : ∀ t, P'.holds t → P.holds { t with depth := t.depth - 1 })
    (ended : ∀ e t, P'.fails e t → P.fails e { t with depth := t.depth - 1 }) :
    P.Keeps Q (env.oneDeeper name body) := by
  intro s hs
  rw [env.perform_oneDeeper]
  by_cases hdeep : env.maxDepth < s.depth + 1
  · rw [if_pos hdeep]
    exact .error (nesting s hs (by omega))
  · rw [if_neg hdeep]
    have hm := deeper s hs (by omega)
    generalize perform body { s with depth := s.depth + 1 } = r at hm
    cases hm with
    | ok hx ht => exact .ok hx (leave _ ht)
    | error he => exact .error (ended _ _ he)

theorem Keeps.guardRecursion {env : Environment} {Q : String → Prop} {a : Action String}
    (h : P.Keeps Q a)
    (exhausted : ∀ s, P.fails .exhausted s → P.fails (.nesting env.maxDepth "include") s)
    (recursion : ∀ message s, P.fails (.raised .recursion message) s →
      P.fails (.nesting env.maxDepth "include") s) :
    P.Keeps Q (env.guardRecursion a) := by
  intro s hs
  have hm := h s hs
  rw [env.perform_guardRecursion]
  generalize perform a s = r at hm
  cases hm with
  | ok hx ht => exact .ok hx ht
  | @error e t he =>
    cases e with
    | exhausted => exact .error (exhausted t he)
    | raised kind message =>
      cases kind with
      | recursion => exact .error (recursion message t he)
      | _ => exact .error he
    | _ => exact .error he

end Promise

namespace Environment.Supplies

open Promise

variable {env : Environment} {M : Material} {block template : List Node → Prop}
  {depth : Nat → Prop} {fails : Fault → Prop} (h : env.Supplies M template fails)

include h

theorem bears : (M.page block template depth fails).Bears M where
  sound := h.sound
  host hs _ _ := ⟨hs.1, hs.2.extensions, hs.2.blocks, hs.2.templates⟩
  number _ hn hbad := h.number _ hn hbad

theorem keeps_template (name : String) :
    (M.page block template depth fails).Keeps (fun found => ∀ nodes ∈ found, template nodes)
      (env.template name) := by
  intro s ⟨hd, hs⟩
  rcases env.template_inv name s with ⟨found, hkept, hr⟩ | ⟨-, ⟨found, hfound, hr⟩ | ⟨e, hf, hr⟩⟩
  · rw [hr]
    refine .ok ?_ ⟨hd, hs⟩
    rintro nodes rfl
    exact hs.templates name nodes hkept
  · rw [hr]
    have hgood : ∀ nodes ∈ found, template nodes := by
      rintro nodes rfl
      exact h.templates name nodes hfound
    refine .ok hgood ⟨hd, hs.extensions, hs.blocks, ?_⟩
    intro other nodes hother
    rcases OrderedMap.eq_or_lookup_of_lookup_insert hother with heq | hother
    · exact hgood nodes heq.symm
    · exact hs.templates other nodes hother
  · rw [hr]
    exact .error (h.read name e hf)

theorem keeps_exported (name : String) :
    (M.page block template depth fails).Keeps (fun found => ∀ c ∈ found, M.IsContent c)
      (env.exported name) := by
  apply h.bears.exported
  · exact fun s hs => hs.2.extensions
  · rintro s ⟨hd, hk⟩ added found hfound
    refine ⟨hd, fun other c hc => ?_, hk.blocks, hk.templates⟩
    rcases OrderedMap.eq_or_lookup_of_lookup_insert hc with heq | hc
    · exact hfound c heq.symm
    · exact hk.extensions other c hc
  · exact h.exports
  · exact fun require hr name e he _ _ => h.require require hr name e he

section Tags

variable {inner : List Node → Prop} {render : Renderer} {tag : Tag}

theorem shows (hr : ∀ {nodes}, inner nodes → ∀ {scope}, M.IsScope scope →
      (M.page block template depth fails).Keeps M.text (render nodes scope)) :
    (M.page block template depth fails).Shows M env inner render :=
  { h.bears with
    filters := h.filters
    exported := h.keeps_exported
    render := hr }

theorem handles (hr : (M.page block template depth fails).Shows M env inner render)
    (hc : inner tag.children)
    (deeper : tag.extension = none → tag.name = "include" →
      ∀ name {nodes}, template nodes → ∀ {options}, M.IsOptions options →
      ∀ {scope}, M.IsScope scope → (M.page block template depth fails).Keeps M.text
        (env.oneDeeper name do env.finish (← render nodes scope) options))
    (keep : tag.extension = none → tag.name = "block" → block tag.children)
    (kept : tag.extension = none → tag.name = "region" →
      ∀ {nodes}, block nodes → ∀ {scope}, M.IsScope scope →
      (M.page block template depth fails).Keeps M.text (render nodes scope)) :
    (M.page block template depth fails).Handles M env render tag := by
  constructor
  · intro he hn _ _ ho hs
    exact hr.renderInclude h.keeps_template fun name _ ht => deeper he hn name ht ho hs
  · intro _ _ _ _ _ _
    apply hr.renderLayout
    rintro name s ⟨hd, hk⟩
    exact ⟨hd, hk.extensions, hk.blocks, hk.templates⟩
  · intro he hn _ scope _ hs
    apply hr.renderBlock
    rintro region s ⟨hd, hk⟩
    refine ⟨hd, hk.extensions, fun other b hb => ?_, hk.templates⟩
    rcases Registry.eq_or_lookup_of_lookup_addBlock hb with rfl | hb
    · exact ⟨keep he hn, hs⟩
    · exact hk.blocks other b hb
  · intro he hn _ _ ho hs
    have find : ∀ region, (M.page block template depth fails).Keeps
        (fun found => ∀ b ∈ found, block b.nodes ∧ M.IsScope b.scope)
        (Environment.findBlock region) := by
      rintro region s ⟨hd, hk⟩
      exact .ok (fun b hb => hk.blocks region b hb) ⟨hd, hk.extensions, hk.blocks, hk.templates⟩
    exact hr.renderRegion hc ho hs find fun b hb => kept he hn hb.1 hb.2

end Tags

theorem keeps_renderPage {budget : Nat} {nodes : List Node} {content : HostValue}
    (render : ∀ {nodes}, template nodes → ∀ {scope}, M.IsScope scope →
      (M.page block template depth fails).Keeps M.text (env.render budget nodes scope))
    (layout : fails (.nesting env.maxDepth "layout"))
    (exhausted : fails .exhausted → fails (.nesting env.maxDepth "include"))
    (recursion : ∀ message, fails (.raised .recursion message) →
      fails (.nesting env.maxDepth "include"))
    (hn : template nodes) (hc : M.IsValue content) :
    (M.page block template depth fails).Keeps M.text (env.renderPage budget nodes content) := by
  have hcompose : ∀ root, M.IsScope root →
      (M.page block template depth fails).Keeps M.text (env.compose budget nodes root) := by
    intro root hroot
    refine h.bears.compose template (fun hn => render hn hroot) ?_ (fun _ => h.keeps_template _)
      (fun _ _ => layout) hn
    rintro s ⟨hd, hk⟩
    exact ⟨hd, hk.extensions, hk.blocks, hk.templates⟩
  unfold Environment.renderPage
  rw [← bind_assoc]
  refine Keeps.bind (h.bears.pageContent hc) fun root hroot => ?_
  exact (hcompose root hroot).guardRecursion (fun _ => exhausted) fun message _ => recursion message

end Environment.Supplies

theorem Material.Kept.start {M : Material} {block template : List Node → Prop} (t : Template)
    {nodes : List Node} (hn : template nodes) (host : HostState) :
    M.Kept block template { State.start host with templates := t.preloaded nodes } := by
  refine ⟨nofun, nofun, ?_⟩
  intro name kept hkept
  obtain rfl := Template.eq_of_lookup_preloaded hkept
  exact hn

theorem Template.render_page {M : Material} {block template : List Node → Prop}
    {depth : Nat → Prop} {fails : Fault → Prop} (t : Template) {budget : Nat} {content : HostValue}
    {host : HostState}
    (h : ∀ nodes, template nodes → (M.page block template depth fails).Keeps M.text
      (t.settings.environment.renderPage budget nodes content))
    (hd : depth 0) (hentry : ∀ nodes, (t.compiled budget host).1 = .ok nodes → template nodes) :
    (∃ output, (t.render budget content host).1 = .ok output ∧ M.text output) ∨
    (∃ e, (t.render budget content host).1 = .error e ∧ fails e) ∨
    ∃ e, (t.compiled budget host).1 = .error e ∧ (t.render budget content host).1 = .error e := by
  have hsettings := t.compiled_settings budget host
  unfold Template.render
  generalize t.compiled budget host = c at hentry hsettings ⊢
  obtain ⟨e | nodes, compiled, host⟩ := c
  · exact Or.inr (Or.inr ⟨e, rfl, rfl⟩)
  · have hn := hentry nodes rfl
    have hm := h nodes hn _ ⟨hd, Material.Kept.start compiled hn host⟩
    rw [← hsettings] at hm
    dsimp only [Template.renderNodes]
    generalize perform (compiled.settings.environment.renderPage budget nodes content) _ = r at hm ⊢
    cases hm with
    | ok hx => exact Or.inl ⟨_, rfl, hx⟩
    | error he => exact Or.inr (Or.inl ⟨_, rfl, he⟩)

end TagTemplate
