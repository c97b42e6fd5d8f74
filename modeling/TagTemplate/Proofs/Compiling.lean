import TagTemplate.OrderedMap
import TagTemplate.Proofs.Lockstep
import TagTemplate.Template

/-!
# Compiling

Compiling a template reads templates and does nothing else with what renderings are given. It is
the same in every environment that reads the same templates and names layouts alike.
-/

namespace TagTemplate

open Markup (Node)
open TagTemplate.Action

def Settings.mapEnvironment (settings : Settings) (f : Environment → Environment) : Settings :=
  { settings with environment := f settings.environment }

def Template.mapEnvironment (t : Template) (f : Environment → Environment) : Template :=
  { t with settings := t.settings.mapEnvironment f }

section MapEnvironment

variable {f : Environment → Environment} (hread : ∀ env, (f env).read = env.read)
  (hlayouts : ∀ env, (f env).layoutPrefix = env.layoutPrefix) (budget : Nat)

include hread

theorem readSource_mapEnvironment (env : Environment) (name : String) :
    (f env).readSource name = env.readSource name := by
  unfold Environment.readSource
  rw [hread]

include hlayouts

theorem follow_mapEnvironment (settings : Settings) :
    (settings.mapEnvironment f).follow = settings.follow := by
  have hreference : (settings.mapEnvironment f).reference? = settings.reference? := by
    unfold Settings.mapEnvironment Settings.reference?
    rw [hlayouts]
  have htemplate : ∀ name, (f settings.environment).template name =
      settings.environment.template name := by
    intro name
    unfold Environment.template Environment.fetchTemplate
    rw [readSource_mapEnvironment hread]
  funext search tag
  unfold Settings.follow
  rw [hreference]
  simp only [Settings.mapEnvironment, hread, htemplate]

theorem followAll_mapEnvironment (settings : Settings) (search : Settings.Search) :
    (settings.mapEnvironment f).followAll budget search = settings.followAll budget search := by
  induction budget generalizing search with
  | zero =>
    obtain ⟨seen, _ | ⟨nodes, pending⟩⟩ := search
    · rfl
    · rfl
  | succ budget ih =>
    obtain ⟨seen, _ | ⟨nodes, pending⟩⟩ := search
    · rfl
    · rw [Settings.followAll, Settings.followAll, follow_mapEnvironment hread hlayouts]
      exact bind_congr fun search => ih search

theorem compile_mapEnvironment (settings : Settings) :
    (settings.mapEnvironment f).compile budget = settings.compile budget := by
  have hsource : (settings.mapEnvironment f).source = settings.source := by
    unfold Settings.source Settings.mapEnvironment
    simp only [readSource_mapEnvironment hread]
  unfold Settings.compile
  rw [hsource]
  refine bind_congr fun source => bind_congr fun nodes => ?_
  rw [followAll_mapEnvironment hread hlayouts]
  rfl

theorem Template.compiled_mapEnvironment (t : Template) (host : HostState) :
    (t.mapEnvironment f).compiled budget host =
      ((t.compiled budget host).1, (t.compiled budget host).2.1.mapEnvironment f,
        (t.compiled budget host).2.2) := by
  obtain ⟨settings, nodes⟩ := t
  unfold Template.compiled Template.mapEnvironment
  cases nodes with
  | some nodes => rfl
  | none =>
    dsimp only
    rw [compile_mapEnvironment hread hlayouts]
    rcases perform (settings.compile budget) (State.start host) with ⟨_ | _, s⟩
    · rfl
    · rfl

end MapEnvironment

namespace Template

theorem compiled_settings (t : Template) (budget : Nat) (host : HostState) :
    (t.compiled budget host).2.1.settings = t.settings := by
  unfold compiled
  cases t.nodes with
  | some nodes => rfl
  | none =>
    dsimp only
    rcases perform (t.settings.compile budget) (State.start host) with ⟨_ | _, s⟩
    · rfl
    · rfl

theorem eq_of_lookup_preloaded {t : Template} {nodes kept : List Node} {name : String}
    (h : (t.preloaded nodes).lookup name = some (some kept)) : kept = nodes := by
  have hmem := OrderedMap.mem_of_lookup h
  unfold preloaded at hmem
  cases ht : t.settings.name with
  | none =>
    rw [ht] at hmem
    cases hmem
  | some own =>
    rw [ht] at hmem
    cases List.mem_singleton.1 hmem
    rfl

end Template

end TagTemplate
