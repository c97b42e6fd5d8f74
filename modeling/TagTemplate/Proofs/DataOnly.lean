import TagTemplate.Proofs.Promise.Page

/-!
# Data never breaks a page

A page that is rendered from data alone, with extensions of data and without filters, ends with an
output, or nests too deep, or meets a template that does not compile. Every tag keeps to that: the
scopes it hands on are scopes of data, whatever its attributes say.
-/

namespace TagTemplate

open Markup (Node Tag)
open TagTemplate.Action

def ReadFault (env : Environment) (calls : List Call) (error : Markup.CompileError) : Prop :=
  ∃ read name source, env.read = some read ∧ .read name ∈ calls ∧ read name = .ok (some source) ∧
    Markup.compile source (some name) = .error error

def DataFault (env : Environment) (calls : List Call) : Fault → Prop
  | .nesting depth _ => depth = env.maxDepth
  | .exhausted => True
  | .compile error => ReadFault env calls error
  | _ => False

structure DataState (before : List Call) (s : State) : Prop where
  calls : ∃ calls, s.host.calls = before ++ calls
  blocks : ∀ region block, s.registry.blocks.lookup region = some block → block.scope.IsData
  extensions : ∀ name c, s.extensions.lookup name = some (some c) → c.isData

def dataOnly (env : Environment) (before : List Call) : Promise where
  holds := DataState before
  fails e s := ∃ calls, s.host.calls = before ++ calls ∧ DataFault env calls e

/-- Nothing but data comes from the host: there are no filters, every template can be asked for, and
extensions are data. -/
structure Environment.IsData (env : Environment) : Prop where
  filters : env.filters = []
  read : ∀ read ∈ env.read, ∀ name e, read name ≠ .error e
  require : ∀ require ∈ env.require, ∀ name, ∃ loaded, require name = .ok loaded ∧
    ∀ v ∈ loaded, v.isData

def RendersData (env : Environment) (before : List Call) (render : Renderer) : Prop :=
  ∀ nodes scope, scope.IsData → (dataOnly env before).Safe (render nodes scope)

namespace DataOnly

open Promise

variable {env : Environment} {before : List Call} {render : Renderer} {budget : Nat}

def material : Material where
  number := Number.isShowable
  streams := false

theorem material_part : material.part = HostValue.isDatum := by
  funext v
  cases v with
  | object o =>
    cases o with
    | mapping entries => exact List.all_eq_true.2 fun _ _ => rfl
    | _ => rfl
  | _ => rfl

theorem isValue_iff {v : HostValue} : material.IsValue v ↔ v.isData := by
  unfold Material.IsValue
  rw [material_part]
  rfl

theorem isContent_iff {c : Content} : material.IsContent c ↔ c.isData := by
  unfold Material.IsContent
  rw [material_part]
  cases c with
  | object o =>
    cases o with
    | mapping entries =>
      unfold Content.every HostValue.every
      rw [Bool.and_eq_true]
      exact and_iff_right rfl
    | _ => exact Iff.rfl
  | _ => exact Iff.rfl

theorem isScope_iff {s : Scope} : material.IsScope s ↔ s.IsData := by
  constructor
  · intro h f hf
    obtain ⟨hvalue, hbindings⟩ := h f hf
    exact ⟨isContent_iff.1 hvalue, fun name c hc => isContent_iff.1 (hbindings name c hc)⟩
  · intro h f hf
    obtain ⟨hvalue, hbindings⟩ := h f hf
    exact ⟨isContent_iff.2 hvalue, fun name c hc => isContent_iff.2 (hbindings name c hc)⟩

theorem bears : (dataOnly env before).Bears material where
  sound := Material.sound_of_forall fun _ => trivial
  host hs host hcalls := by
    obtain ⟨calls, hc⟩ := hs.calls
    obtain ⟨more, hm⟩ := hcalls
    refine ⟨⟨calls ++ more, ?_⟩, hs.blocks, hs.extensions⟩
    rw [← List.append_assoc, ← hc, hm]
  number _ hn hbad := absurd hn hbad

theorem fails_nesting (tag : String) (s : State) (hs : (dataOnly env before).holds s) :
    (dataOnly env before).fails (.nesting env.maxDepth tag) s := by
  obtain ⟨calls, hc⟩ := hs.calls
  exact ⟨calls, hc, rfl⟩

section Rendering

variable (he : env.IsData)

include he

theorem compile_of_found {name : String} {e : Fault} (h : env.found name = .error e)
    (calls : List Call) : DataFault env (calls ++ env.readCalls name) e := by
  unfold Environment.found at h
  unfold Environment.readCalls
  cases hr : env.read with
  | none =>
    rw [hr] at h
    cases h
  | some read =>
    rw [hr] at h
    dsimp only at h
    rcases hs : read name with fault | _ | source
    · exact absurd hs (he.read read hr name fault)
    · rw [hs] at h
      cases h
    · rw [hs] at h
      dsimp only at h
      split at h
      · next error hcompile =>
        cases h
        exact ⟨read, name, source, hr, by simp, hs, hcompile⟩
      · cases h

theorem safe_template (name : String) : (dataOnly env before).Safe (env.template name) := by
  intro s hs
  obtain ⟨calls, hc⟩ := hs.calls
  have hcalls := env.readHost_calls name hc
  rcases env.template_inv name s with ⟨nodes, -, h⟩ | ⟨-, ⟨nodes, -, h⟩ | ⟨e, hf, h⟩⟩
  · rw [h]
    exact .ok trivial hs
  · rw [h]
    exact .ok trivial ⟨⟨_, hcalls⟩, hs.blocks, hs.extensions⟩
  · rw [h]
    exact .error ⟨_, hcalls, compile_of_found he hf calls⟩

theorem shows (hr : RendersData env before render) :
    (dataOnly env before).Shows material env (fun _ => True) render where
  toBears := bears
  filters := he.filters
  exported := by
    apply bears.exported
    · exact fun s hs name c hc => isContent_iff.2 (hs.extensions name c hc)
    · intro s hs added found hfound
      refine ⟨hs.calls, hs.blocks, fun name c hc => ?_⟩
      rcases OrderedMap.eq_or_lookup_of_lookup_insert hc with heq | hc
      · exact isContent_iff.1 (hfound c heq.symm)
      · exact hs.extensions name c hc
    · intro require hr name v hv
      obtain ⟨loaded, hloaded, hdata⟩ := he.require require hr name
      cases hloaded.symm.trans hv
      exact isValue_iff.2 (hdata v rfl)
    · intro require hr name e hfault
      obtain ⟨loaded, hloaded, -⟩ := he.require require hr name
      cases hloaded.symm.trans hfault
  render _ _ hs := hr _ _ (isScope_iff.1 hs)

theorem handles (hr : RendersData env before render) (tag : Tag) :
    (dataOnly env before).Handles material env render tag := by
  have hshows := shows he hr
  constructor
  · intro _ _ options scope ho hs
    refine hshows.renderInclude (fun name => (safe_template he name).mono fun _ _ _ _ => trivial) ?_
    intro name nodes _
    have hbody : (dataOnly env before).Safe (do env.finish (← render nodes scope) options) :=
      Keeps.bind (hshows.render trivial hs) fun text ht => hshows.finish ht ho
    refine keeps_oneDeeper (dataOnly env before) (fun s hs _ => fails_nesting _ s hs) ?_ ?_
      fun _ _ hf => hf
    · exact fun s hs _ => hbody _ ⟨hs.calls, hs.blocks, hs.extensions⟩
    · exact fun t ht => ⟨ht.calls, ht.blocks, ht.extensions⟩
  · intro _ _ options scope _ _
    apply hshows.renderLayout
    exact fun name s hs => ⟨hs.calls, hs.blocks, hs.extensions⟩
  · intro _ _ options scope _ hs
    apply hshows.renderBlock
    intro region s hk
    refine ⟨hk.calls, fun other b hb => ?_, hk.extensions⟩
    rcases Registry.eq_or_lookup_of_lookup_addBlock hb with rfl | hb
    · exact isScope_iff.1 hs
    · exact hk.blocks other b hb
  · intro _ _ options scope ho hs
    have find : ∀ region, (dataOnly env before).Keeps (fun found => ∀ b ∈ found, b.scope.IsData)
        (Environment.findBlock region) := by
      intro region s hk
      exact .ok (fun b hb => hk.blocks region b hb) ⟨hk.calls, hk.blocks, hk.extensions⟩
    exact hshows.renderRegion trivial ho hs find fun b hb => hr b.nodes b.scope hb

theorem rendersData (budget : Nat) : RendersData env before (env.render budget) := by
  induction budget with
  | zero =>
    intro nodes scope _
    refine keeps_fail fun s hs => ?_
    obtain ⟨calls, hc⟩ := hs.calls
    exact ⟨calls, hc, trivial⟩
  | succ budget ih =>
    intro nodes scope hs
    refine (shows he ih).renderNodes (fun _ _ => trivial) (fun tag _ => ?_) (isScope_iff.2 hs)
    exact ⟨.of_inside (fun _ _ => trivial) (fun _ _ _ => trivial) fun _ _ => trivial,
      handles he ih tag⟩

theorem safe_compose (budget : Nat) (nodes : List Node) {root : Scope} (hroot : root.IsData) :
    (dataOnly env before).Safe (env.compose budget nodes root) := by
  refine bears.compose (fun _ => True) (fun {nodes} _ => rendersData he budget nodes root hroot) ?_
    ?_ (fails_nesting _) trivial
  · exact fun s hs => ⟨hs.calls, hs.blocks, hs.extensions⟩
  · exact fun name => (safe_template he _).mono fun _ _ _ _ => trivial

omit he in
theorem renderPage_data (env : Environment) (budget : Nat) (nodes : List Node) {content : HostValue}
    (hcontent : content.isData) : ∃ root : Scope, root.IsData ∧
      env.renderPage budget nodes content = env.guardRecursion (env.compose budget nodes root) := by
  have hpage : (Environment.pageContent content).isData := by
    cases content with
    | null => rfl
    | _ => exact hcontent
  refine ⟨⟨{ value := (Environment.pageContent content).plainContent }, []⟩, ?_, ?_⟩
  · intro f hf
    cases List.mem_singleton.1 hf
    exact ⟨Content.isData_plainContent hpage, nofun⟩
  · unfold Environment.renderPage Scope.ofHost
    rw [HostValue.refresh_eq_pure (fun _ _ => rfl) _ hpage, pure_bind,
      Content.ofHost_eq_pure (HostValue.isPlain_of_isData hpage), pure_bind, pure_bind]

end Rendering

end DataOnly

end TagTemplate
