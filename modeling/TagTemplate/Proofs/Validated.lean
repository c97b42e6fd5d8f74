import TagTemplate.Proofs.Lockstep.Page
import TagTemplate.Proofs.References

/-!
# Validated templates

When a template has been compiled and no name of an include or a layout is computed, rendering it
meets no compile error. Every template that rendering fetches is one that compiling has fetched. The
invariant of a rendering says so of the blocks kept and the layout asked for.
-/

namespace TagTemplate

open Markup (Node Tag AttributeValue tagsOf)
open TagTemplate.Action

def isComputed (tag : Tag) (key : String) : Bool :=
  match tag.attributes.lookup key with
  | some (.markup _) => true
  | _ => false

/-- The name of the template that the tag fetches is computed. -/
def ComputesReference (tag : Tag) : Prop :=
  tag.extension = none ∧
    (tag.name = "include" ∧ isComputed tag "template" ∨ tag.name = "layout" ∧ isComputed tag "name")

instance : DecidablePred ComputesReference := fun _ => inferInstanceAs (Decidable (_ ∧ _))

theorem Follows.literal_of_lookup {options : Options} {tag : Tag} (h : Follows options tag)
    {key text : String} (hc : ¬ isComputed tag key) (ht : options.lookup key = some text) :
    tag.literal? key = some text := by
  have hk := h key
  unfold Tag.literal?
  cases hv : tag.attributes.lookup key with
  | none =>
    rw [hv] at hk
    cases hk.symm.trans ht
  | some v =>
    cases v with
    | literal value =>
      rw [hv] at hk
      exact hk.symm.trans ht
    | markup nodes => exact absurd (by simp [isComputed, hv]) hc

def Validated (settings : Settings) (entry : List Node) (tag : Tag) : Prop :=
  ¬ ComputesReference tag ∧
    ∀ name, settings.reference? tag = some name → settings.Reaches entry name

/-- A state of a rendering: fetching a template that is reached gives what its name stands for, and
what has been kept of the page is validated. -/
structure ValidatedState (settings : Settings) (entry : List Node) (program : HostProgram)
    (s : State) : Prop where
  program : s.host.program = program
  resolved : ∀ name, settings.Reaches entry name → ∃ found,
    settings.environment.resolved name s = .ok found ∧
      ∀ nodes ∈ found, nodes = settings.nodesOf entry name
  blocks : ∀ region block, s.registry.blocks.lookup region = some block →
    Everywhere (Validated settings entry) block.nodes
  pending : ∀ name ∈ s.registry.pending,
    settings.Reaches entry (settings.environment.layoutPrefix ++ name)

/-- Host code raises the compile error itself, in a function or where it loads an extension. -/
def Environment.HostRaises (env : Environment) (program : HostProgram) (e : Markup.CompileError) :
    Prop :=
  (∃ error, program.raised? error = some (.compile e)) ∨
    ∃ require ∈ env.require, ∃ name, require name = .error (.compile e)

def Environment.Permits (env : Environment) (program : HostProgram) (fault : Fault) : Prop :=
  ∀ e, fault = .compile e → env.HostRaises program e

def validated (settings : Settings) (entry : List Node) (program : HostProgram) : Lockstep :=
  .invariant (ValidatedState settings entry program) (settings.environment.Permits program)

namespace Lockstep

variable {settings : Settings} {entry : List Node} {program : HostProgram}

theorem validated_closed : (validated settings entry program).Closed := by
  refine .of_invariant (fun hs host extensions hp => ?_) (fun he e => ?_) fun hs error e he e' => ?_
  · exact { hs with program := hp.trans hs.program }
  · rintro rfl
    exact he.elim
  · rintro rfl
    exact Or.inl ⟨error, hs.program ▸ he⟩

theorem validated_template
    (hv : ∀ name, settings.Reaches entry name →
      Everywhere (Validated settings entry) (settings.nodesOf entry name))
    {name : String} (hname : settings.Reaches entry name) :
    (validated settings entry program).Relates (Option.Rel (SameTree (Validated settings entry)))
      (settings.environment.template name) (settings.environment.template name) := by
  rintro s _ ⟨rfl, hs⟩
  obtain ⟨found, hfound, hnodes⟩ := hs.resolved name hname
  rw [settings.environment.perform_template, hfound]
  have hs' : ValidatedState settings entry program (settings.environment.looked name s) := by
    have hr := settings.environment.resolved_looked name s
    obtain ⟨templates, host, heq, hagree⟩ := settings.environment.looked_eq name s
    rw [heq] at hr ⊢
    refine ⟨hagree.program.trans hs.program, fun other ho => ?_, hs.blocks, hs.pending⟩
    rw [hr other]
    exact hs.resolved other ho
  refine .ok ?_ ⟨rfl, hs'⟩
  cases found with
  | none => exact .none
  | some nodes => exact .some ⟨rfl, hnodes nodes rfl ▸ hv name hname⟩

theorem validated_depth {s t : State} (hs : (validated settings entry program).states s t) (d : Nat) :
    (validated settings entry program).states { s with depth := d } { t with depth := d } := by
  obtain ⟨rfl, hs⟩ := hs
  exact ⟨rfl, { hs with }⟩

theorem validated_requestLayout {name : String}
    (hname : settings.Reaches entry (settings.environment.layoutPrefix ++ name)) {s : State}
    (hs : ValidatedState settings entry program s) :
    ValidatedState settings entry program { s with registry := s.registry.requestLayout name } := by
  refine ⟨hs.program, hs.resolved, ?_, ?_⟩
  · rw [Registry.blocks_requestLayout]
    exact hs.blocks
  · rw [Registry.pending_requestLayout]
    intro other ho
    rcases Option.or_eq_some_iff.1 ho with hp | ⟨-, hp⟩
    · exact hs.pending other hp
    · exact Option.some.inj hp ▸ hname

theorem validated_addBlock (region : String) {block : Block}
    (hblock : Everywhere (Validated settings entry) block.nodes) {s : State}
    (hs : ValidatedState settings entry program s) :
    ValidatedState settings entry program { s with registry := s.registry.addBlock region block } := by
  refine ⟨hs.program, hs.resolved, ?_, ?_⟩
  · intro other kept hb
    rw [Registry.lookup_addBlock] at hb
    rcases Option.or_eq_some_iff.1 hb with hb | ⟨-, hb⟩
    · exact hs.blocks other kept hb
    · split at hb
      · exact Option.some.inj hb ▸ hblock
      · cases hb
  · rw [Registry.pending_addBlock]
    exact hs.pending

theorem validated_handlers
    (hv : ∀ name, settings.Reaches entry name →
      Everywhere (Validated settings entry) (settings.nodesOf entry name))
    {render render' : Renderer}
    (hr : ∀ ns scope, Everywhere (Validated settings entry) ns →
      (validated settings entry program).Agrees (render ns scope) (render' ns scope))
    {tag : Tag} (ht : Validated settings entry tag)
    (hc : Everywhere (Validated settings entry) tag.children) :
    (validated settings entry program).Handlers settings.environment settings.environment render render'
      tag tag := by
  obtain ⟨hnot, href⟩ := ht
  refine ⟨?_, ?_, ?_, ?_⟩
  · intro he hn options scope hf
    have hreached : ∀ name, options.lookup "template" = some name →
        settings.Reaches entry name := by
      intro name ho
      have hlit := hf.literal_of_lookup (fun hc => hnot ⟨he, Or.inl ⟨hn, hc⟩⟩) ho
      exact href name (by simp [Settings.reference?, he, hn, hlit])
    refine agrees_renderInclude (validated_closed.warn _)
      (fun name ho => validated_template hv (hreached name ho)) ?_
    rintro name ns _ ⟨rfl, hns⟩
    refine relates_oneDeeper (L := validated settings entry program) ?_ ?_ validated_depth ?_ name ?_
    · exact fun _ => nofun
    · exact fun hs => congrArg State.depth hs.1
    · rintro s _ ⟨rfl, hs⟩
      exact validated_depth ⟨rfl, hs⟩ _
    · refine Agrees.bind (hr ns scope hns) fun text => ?_
      exact validated_closed.host.finish rfl text options
  · intro he hn options scope hf
    refine agrees_renderLayout fun name ho _ => ?_
    have hlit := hf.literal_of_lookup (fun hc => hnot ⟨he, Or.inr ⟨hn, hc⟩⟩) ho
    have hname := href (settings.environment.layoutPrefix ++ name)
      (by simp [Settings.reference?, he, hn, hlit])
    rintro s _ ⟨rfl, hs⟩
    exact ⟨rfl, validated_requestLayout hname hs⟩
  · intro he hn options scope hf
    refine agrees_renderBlock fun region _ => ?_
    rintro s _ ⟨rfl, hs⟩
    exact ⟨rfl, validated_addBlock region hc hs⟩
  · intro he hn options scope hf
    have hlookup : ∀ region s t, (validated settings entry program).states s t →
        Option.Rel (fun b b' : Block => b = b' ∧ Everywhere (Validated settings entry) b.nodes)
          (s.registry.blocks.lookup region) (t.registry.blocks.lookup region) := by
      rintro region s _ ⟨rfl, hs⟩
      cases hb : s.registry.blocks.lookup region with
      | none => exact .none
      | some block => exact .some ⟨rfl, hs.blocks region block hb⟩
    refine agrees_renderRegion (hlookup _) ?_ ?_ (hr _ scope hc) ?_
    · rintro region s _ ⟨rfl, hs⟩
      exact ⟨rfl, { hs with }⟩
    · exact fun text => validated_closed.host.finish rfl text options
    · rintro b _ ⟨rfl, hb⟩
      exact hr b.nodes b.scope hb

theorem validated_takeLayout :
    (validated settings entry program).Relates
      (fun m m' => m = m' ∧
        ∀ name ∈ m, settings.Reaches entry (settings.environment.layoutPrefix ++ name))
      Environment.takeLayout Environment.takeLayout := by
  rintro s _ ⟨rfl, hs⟩
  refine .ok ⟨rfl, ?_⟩ ⟨rfl, hs.program, hs.resolved, ?_, ?_⟩
  · rw [Registry.takeLayout_fst]
    exact hs.pending
  · rw [Registry.blocks_takeLayout]
    exact hs.blocks
  · rw [Registry.pending_takeLayout]
    nofun

section Page

variable (hv : ∀ name, settings.Reaches entry name →
    Everywhere (Validated settings entry) (settings.nodesOf entry name))

include hv

theorem validated_render (budget : Nat) {ns : List Node}
    (h : Everywhere (Validated settings entry) ns) (scope : Scope) :
    (validated settings entry program).Agrees (settings.environment.render budget ns scope)
      (settings.environment.render budget ns scope) := by
  refine render_agrees (L := fun _ : Unit => validated settings entry program)
    (fun _ => validated_closed.host) rfl (fun _ name => ?_) (fun _ => nofun)
    (fun _ _ hr _ _ ht hc => validated_handlers hv (hr ()) ht hc) budget () ns scope h
  refine validated_closed.exported settings.environment (fun require hr n fault hf e => ?_) name
  rintro rfl
  exact Or.inr ⟨require, hr, n, hf⟩

theorem validated_compose (budget : Nat) {ns : List Node}
    (h : Everywhere (Validated settings entry) ns) (root : Scope) :
    (validated settings entry program).Agrees (settings.environment.compose budget ns root)
      (settings.environment.compose budget ns root) := by
  have hrender : ∀ {ns ns'}, SameTree (Validated settings entry) ns ns' →
      (validated settings entry program).Agrees (settings.environment.render budget ns root)
        (settings.environment.render budget ns' root) := by
    rintro ns _ ⟨rfl, hns⟩
    exact validated_render hv budget hns root
  exact compose_agrees hrender validated_takeLayout (fun hname => validated_template hv hname)
    (fun _ => validated_closed.warn _) rfl (Or.inl nofun) ⟨rfl, h⟩

theorem validated_renderPage (budget : Nat) {ns : List Node}
    (h : Everywhere (Validated settings entry) ns) (content : HostValue) :
    (validated settings entry program).Agrees (settings.environment.renderPage budget ns content)
      (settings.environment.renderPage budget ns content) := by
  refine Agrees.bind (validated_closed.host.refresh _) fun v => ?_
  refine Agrees.bind (Agrees.map (validated_closed.host.ofHost v)) fun root => ?_
  refine Relates.bind (Relates.attempt (validated_compose hv budget h root)) ?_
  rintro r _ ⟨rfl, hr⟩
  split
  · exact agrees_pure _
  · exact relates_fail nofun
  · exact relates_fail nofun
  · exact relates_fail (hr _ rfl)

end Page

end Lockstep

section Rendering

variable {t t' : Template} {budget : Nat} {host host' : HostState} {entry : List Node}

theorem compiled_ok (hnew : t.nodes = none)
    (hc : t.compiled budget host = (.ok entry, t', host')) :
    (perform (t.settings.compile budget) (State.start host)).1 = .ok entry ∧
      t' = { t with nodes := some entry } := by
  unfold Template.compiled at hc
  rw [hnew] at hc
  generalize perform (t.settings.compile budget) (State.start host) = r at hc
  obtain ⟨_ | nodes, s⟩ := r
  · cases hc
  · cases hc
    exact ⟨rfl, rfl⟩

theorem resolved_start (t : Template) (entry : List Node) (start : HostState) (name : String) :
    t.settings.environment.resolved name
        { State.start start with templates := t.preloaded entry } =
      if t.settings.name = some name then .ok (some entry)
      else t.settings.environment.found name := by
  unfold Environment.resolved Template.preloaded
  cases hn : t.settings.name with
  | none => simp
  | some own =>
    by_cases ho : own = name
    · subst ho
      simp
    · simp [List.lookup_cons, beq_eq_false_iff_ne.2 (Ne.symm ho), ho]

theorem validatedState_start
    (hfound : ∀ name, t.settings.Reaches entry name → t.settings.name ≠ some name →
      ∃ nodes, t.settings.environment.found name = .ok nodes)
    (start : HostState) :
    ValidatedState t.settings entry start.program
      { State.start start with templates := t.preloaded entry } := by
  refine ⟨rfl, fun name hname => ?_, nofun, nofun⟩
  rw [resolved_start]
  unfold Settings.nodesOf
  by_cases ho : t.settings.name = some name
  · rw [if_pos ho, if_pos ho]
    exact ⟨some entry, rfl, fun nodes hnodes => (Option.some.inj hnodes).symm⟩
  · rw [if_neg ho, if_neg ho]
    obtain ⟨found, hf⟩ := hfound name hname ho
    refine ⟨found, hf, ?_⟩
    rintro nodes rfl
    rw [hf]

/-- Once a template is compiled, and no name of an include or a layout is computed in it or in a
template that is reached, no rendering of it ends with a compile error, unless host code raises that
very error itself. -/
theorem render_ne_compile_error (hnew : t.nodes = none)
    (hc : t.compiled budget host = (.ok entry, t', host'))
    (hentry : Everywhere (fun tag => ¬ ComputesReference tag) entry)
    (hreached : ∀ name, t.settings.Reaches entry name →
      Everywhere (fun tag => ¬ ComputesReference tag) (t.settings.nodesOf entry name))
    (budget' : Nat) (content : HostValue) (start : HostState) (e : Markup.CompileError)
    (hraises : ¬ t.settings.environment.HostRaises start.program e) :
    (t'.render budget' content start).1 ≠ .error (.compile e) := by
  obtain ⟨hok, rfl⟩ := compiled_ok hnew hc
  have hroot : Everywhere (Validated t.settings entry) entry :=
    fun tag ht => ⟨hentry tag ht, fun _ hr => .entry (List.mem_filterMap.2 ⟨tag, ht, hr⟩)⟩
  have hv : ∀ name, t.settings.Reaches entry name →
      Everywhere (Validated t.settings entry) (t.settings.nodesOf entry name) :=
    fun name hn tag ht => ⟨hreached name hn tag ht,
      fun _ hr => .through hn (List.mem_filterMap.2 ⟨tag, ht, hr⟩)⟩
  have hstart := validatedState_start (fun _ => found_of_compile hok) start
  have ho := Lockstep.validated_renderPage hv budget' hroot content _ _ ⟨rfl, hstart⟩
  change (perform (t.settings.environment.renderPage budget' entry content)
    { State.start start with templates := t.preloaded entry }).1 ≠ _
  generalize perform (t.settings.environment.renderPage budget' entry content) _ = r at ho ⊢
  cases ho with
  | ok => exact nofun
  | error he => exact fun h => hraises (he e (Except.error.inj h))
  | excused he => exact he.elim

/-- A template that includes one which asks for a layout. -/
theorem render_ne_compile_error_layout :
    let texts := [("b", "<pop:layout name=\"c\"/>"), ("layouts/c", "C")]
    let environment : Environment := { read := some fun name => .ok (texts.lookup name) }
    let text := "<pop:include template=\"b\"/>"
    let t : Template := { settings := { text := some text, environment } }
    (∀ e, ¬ environment.HostRaises {} e) ∧
    ∃ entry t' host', t.compiled 3 {} = (.ok entry, t', host') ∧
      (t.render 3 .null {}).1 = .ok "C" ∧
      ¬ ∃ e, (t'.render 3 .null {}).1 = .error (.compile e) := by
  intro texts environment text t
  have hraises : ∀ e, ¬ environment.HostRaises {} e := by
    rintro e (⟨error, he⟩ | ⟨require, hrequire, -⟩)
    · cases he
    · cases hrequire
  have hentry : (match (t.compiled 3 {}).1 with
      | .ok entry => decide (t.settings.references entry = ["b"] ∧
          Everywhere (fun tag => ¬ ComputesReference tag) entry)
      | .error _ => false) = true := by decide +kernel
  have hclosed : ∀ name ∈ ["b", "layouts/c"],
      (∀ next ∈ t.settings.references (t.settings.nodesOf [] name), next ∈ ["b", "layouts/c"]) ∧
      Everywhere (fun tag => ¬ ComputesReference tag) (t.settings.nodesOf [] name) := by
    decide +kernel
  have hrender : (t.render 3 .null {}).1 = .ok "C" := by decide +kernel
  generalize hc : t.compiled 3 {} = r at hentry
  obtain ⟨_ | entry, t', host'⟩ := r
  · cases hentry
  · obtain ⟨hrefs, hroot⟩ := of_decide_eq_true hentry
    have hnames : ∀ name, t.settings.Reaches entry name → name ∈ ["b", "layouts/c"] := by
      intro name hname
      refine Settings.Reaches.mem_of_closed ?_ ?_ hname
      · simp [hrefs]
      · exact fun other ho => (hclosed other ho).1
    refine ⟨hraises, entry, t', host', rfl, hrender, fun ⟨e, he⟩ => ?_⟩
    refine render_ne_compile_error rfl hc hroot (fun name hn => ?_) 3 .null {} e (hraises e) he
    exact (hclosed name (hnames name hn)).2

theorem render_compile_error_raised :
    let e : Markup.CompileError := ⟨.malformed, "", .start, none⟩
    let raises : HostFunction := ⟨{ required := 0, limit := none }, none, .throw "bad"⟩
    let content : HostValue := .object (.mapping [("f", .function raises)])
    let host : HostState := { program.raises := fun _ => some (.compile e) }
    let t : Template := { settings := { text := some "<pop:f/>" } }
    (t.compiled 3 {}).1.toBool ∧ (t.render 3 content host).1 = .error (.compile e) := by
  intro e raises content host t
  exact ⟨by decide +kernel, by decide +kernel⟩

end Rendering

end TagTemplate
